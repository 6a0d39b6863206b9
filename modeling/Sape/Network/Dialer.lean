/-
  Network/Dialer.lean --- what one member does towards others: the streams that it opens, and
  the peers that a dialer dials.

  WHAT IS PROVED.

      protocol_own          every task opens streams of its own namespace's protocols
      dials_asked           whom a dialer dials by itself, it has been asked to dial
      dials_told            whom it dials because of an answer, it has been told of
      given_of_asked        what it has been asked to dial, its options give
-/
import Sape.Client.Named
import Sape.Network.Machine

set_option autoImplicit false

namespace Sape

open Sape.Foundation

/-! ## Streams -/

theorem tunnelProtocol_mem (nspace : String) :
    tunnelProtocol nspace ∈ streamProtocols nspace := List.mem_cons_self

theorem jumpProtocol_mem (nspace : String) : jumpProtocol nspace ∈ streamProtocols nspace :=
  List.mem_cons_of_mem _ List.mem_cons_self

/-- A jump task opens streams of its own namespace. -/
theorem JumpTask.protocol_own {nspace : String} {task : JumpTask} {peer : PeerId}
    {protocol : StreamProtocol} (h : task.op nspace = some (.openStream peer protocol)) :
    protocol ∈ streamProtocols nspace := by
  cases task with
  | opening nextPeer remaining attempt =>
      obtain ⟨-, rfl⟩ := JumpOp.openStream.inj (Option.some.inj h)
      unfold outboundProtocol
      split
      · exact tunnelProtocol_mem nspace
      · exact jumpProtocol_mem nspace
  | _ => cases h

theorem InboundTask.protocol_own {nspace target : String} {remotePeer peer : PeerId}
    {task : InboundTask} {protocol : StreamProtocol}
    (h : task.op nspace remotePeer target = some (.openStream peer protocol)) :
    protocol ∈ streamProtocols nspace := by
  cases task with
  | opening =>
      obtain ⟨-, rfl⟩ := InboundOp.openStream.inj (Option.some.inj h)
      exact tunnelProtocol_mem nspace
  | _ => cases h

theorem PortTask.protocol_own {nspace : String} {remotePeer peer : PeerId} {task : PortTask}
    {op : TunnelOp} {protocol : StreamProtocol}
    (h : task.tunnelOp nspace remotePeer = some op) (hop : op.stream = some (peer, protocol)) :
    protocol ∈ streamProtocols nspace := by
  cases task with
  | localForward target task =>
      cases task with
      | opening =>
          obtain rfl := Option.some.inj h
          obtain ⟨-, rfl⟩ := Prod.mk.inj (Option.some.inj hop)
          exact tunnelProtocol_mem nspace
      | writing =>
          obtain rfl := Option.some.inj h
          cases hop
      | copying => cases h
      | ended => cases h
  | proxy task =>
      cases task with
      | opening kind target =>
          obtain rfl := Option.some.inj h
          obtain ⟨-, rfl⟩ := Prod.mk.inj (Option.some.inj hop)
          exact tunnelProtocol_mem nspace
      | writing kind target =>
          obtain rfl := Option.some.inj h
          cases hop
      | _ => cases h

/-- An operation of `run_dial` is on a stream of its own namespace. -/
theorem DialTask.protocol_own {nspace : String} {task : DialTask} {peer : PeerId}
    {protocol : StreamProtocol} (h : task.op nspace = some (.openStream peer protocol)) :
    protocol ∈ streamProtocols nspace := by
  cases task with
  | openingJump firstPeer hops =>
      obtain ⟨-, rfl⟩ := DialOp.openStream.inj (Option.some.inj h)
      exact jumpProtocol_mem nspace
  | openingNetcat remote =>
      obtain ⟨-, rfl⟩ := DialOp.openStream.inj (Option.some.inj h)
      exact tunnelProtocol_mem nspace
  | _ => cases h

theorem DialRun.ownOp_own {nspace : String} {state : DialRun} {op : TunnelOp} {peer : PeerId}
    {protocol : StreamProtocol} (h : state.ownOp nspace = some op)
    (hop : op.stream = some (peer, protocol)) : protocol ∈ streamProtocols nspace := by
  unfold ownOp at h
  split at h
  · rename_i remote bindPort target gatewayPorts hrun
    cases htask : state.request with
    | none =>
        rw [htask] at h
        cases h
    | some task =>
        rw [htask] at h
        cases task with
        | opening =>
            obtain rfl := Option.some.inj h
            obtain ⟨-, rfl⟩ := Prod.mk.inj (Option.some.inj hop)
            exact tunnelProtocol_mem nspace
        | writing =>
            obtain rfl := Option.some.inj h
            cases hop
        | readingAck => cases h
        | ended result => cases h
  · split at h
    · rename_i peer' protocol' hopen
      obtain rfl := Option.some.inj h
      obtain ⟨-, rfl⟩ := Prod.mk.inj (Option.some.inj hop)
      exact DialTask.protocol_own hopen
    · obtain ⟨remote, -, rfl⟩ := Option.map_eq_some_iff.mp h
      cases hop
    · cases h

theorem DialRun.opening_own {nspace : String} {state : DialRun} {label : DialLabel}
    {peer : PeerId} {protocol : StreamProtocol}
    (h : state.opening nspace label = some (peer, protocol)) :
    protocol ∈ streamProtocols nspace := by
  unfold opening at h
  split at h
  · obtain ⟨op, hown, hop⟩ := Option.bind_eq_some_iff.mp h
    exact ownOp_own hown hop
  · obtain ⟨op, hown, hop⟩ := Option.bind_eq_some_iff.mp h
    exact ownOp_own hown hop
  · obtain ⟨session, -, hsession⟩ := Option.bind_eq_some_iff.mp h
    obtain ⟨op, htunnel, hop⟩ := Option.bind_eq_some_iff.mp hsession
    exact PortTask.protocol_own htunnel hop
  · obtain ⟨session, -, hsession⟩ := Option.bind_eq_some_iff.mp h
    obtain ⟨op, htunnel, hop⟩ := Option.bind_eq_some_iff.mp hsession
    exact PortTask.protocol_own htunnel hop
  · cases h

/-! ## Dials -/

/-- What is dialed for a registration leads to its peer. -/
theorem dialTarget_withPeer (peer : PeerId) (addr : Multiaddr) :
    dialTarget (withPeer peer addr) = some peer := by
  unfold withPeer
  split
  · rename_i hlast
    rw [dialTarget, hlast]
    rfl
  · rw [dialTarget, List.getLast?_concat]
    rfl

/-- The peers that a step dials because the user has named them: by a relay address, a
circuit address or an mDNS address. -/
def DialRun.asked (state : DialRun) : DialLabel → List PeerId
  | .wake wake =>
      match state.loop, wake with
      | some (.dialingRelay relayAddress), .called _ => (dialTarget relayAddress).toList
      | some (.waitingMdns expected), .event (.mdnsDiscovered peers) _ =>
          if (firstOf expected peers).isSome then [expected] else []
      | _, _ => []
  | .event (.done _) =>
      match state.run with
      | .dialingCircuit addr _ => (dialTarget addr).toList
      | _ => []
  | _ => []

/-- What a step dials, but for the answer of a rendezvous server, it was asked to dial. -/
theorem DialRun.dials_asked {state : DialRun} {label : DialLabel}
    (htold : Network.Role.told (.dialer label) = true) :
    (state.dials label).filterMap dialTarget = state.asked label := by
  cases label with
  | wake wake =>
      simp only [dials, asked]
      cases state.loop with
      | none => rfl
      | some task =>
          rw [Option.toList_some, List.flatMap_cons, List.flatMap_nil, List.append_nil]
          cases task with
          | dialingRelay relayAddress =>
              cases wake with
              | called dialed => cases htarget : dialTarget relayAddress <;>
                  simp [SwarmTask.dials, htarget]
              | _ => rfl
          | waitingMdns expected =>
              cases wake with
              | event event dialed =>
                  cases event with
                  | mdnsDiscovered peers =>
                      simp only [SwarmTask.dials]
                      cases hfirst : firstOf expected peers with
                      | none => rfl
                      | some addr =>
                          have hall := List.all_eq_true.mp htold _ (mem_of_firstOf hfirst)
                          have htarget : dialTarget addr = some expected := of_decide_eq_true hall
                          simp [htarget]
                  | _ => rfl
              | _ => rfl
          | waitingRendezvous point =>
              cases wake with
              | event event dialed =>
                  cases event with
                  | discovered node registrations => cases htold
                  | _ => rfl
              | _ => rfl
          | _ => cases wake <;> rfl
  | event event =>
      cases event with
      | done result =>
          simp only [dials, asked]
          cases state.run with
          | dialingCircuit addr remote =>
              cases htarget : dialTarget addr <;> simp [htarget]
          | _ => rfl
      | _ => rfl
  | request event => rfl
  | accept => rfl
  | session i event => rfl

/-- What a dialer dials because of an answer leads to the peers in it. -/
theorem DialRun.dials_told {state : DialRun} {node : PeerId} {registrations : List Registration}
    {dialed : Except String Unit} {peer : PeerId}
    (hmem : peer ∈ (state.dials (.wake (.event (.discovered node registrations) dialed))).filterMap
      dialTarget) : peer ∈ registrations.map Registration.peer := by
  obtain ⟨addr, haddr, htarget⟩ := List.mem_filterMap.mp hmem
  obtain ⟨task, -, hdials⟩ := List.mem_flatMap.mp haddr
  cases task with
  | waitingRendezvous point =>
      simp only [SwarmTask.dials] at hdials
      split at hdials
      · cases registrations with
        | nil => cases hdials
        | cons registration others =>
            rw [List.head?_cons, Option.toList_some, List.flatMap_cons, List.flatMap_nil,
              List.append_nil] at hdials
            obtain ⟨address, -, rfl⟩ := List.mem_map.mp hdials
            rw [dialTarget_withPeer] at htarget
            obtain rfl := Option.some.inj htarget
            exact List.mem_cons_self
      · cases hdials
  | _ => cases hdials

/-! ## Options -/

/-- The options lead to a peer: by the first jump address, by the relay address, by a circuit
address or the relay in front of it, or as an mDNS target. -/
inductive DialOpt.Gives (opt : DialOpt) (peer : PeerId) : Prop where
  | jump {firstJump : Multiaddr} (hjump : opt.jump.head? = some firstJump)
      (hpeer : dialTarget firstJump = some peer)
  | relay {relayAddress : Multiaddr} (hrelay : opt.relayAddress = some relayAddress)
      (hpeer : dialTarget relayAddress = some peer)
  | base {addr base : Multiaddr} {remote : PeerId} (htarget : opt.target = .relayCircuit addr)
      (hbase : relayBaseFromCircuitAddress addr = .ok (base, remote))
      (hpeer : dialTarget base = some peer)
  | circuit {addr : Multiaddr} (htarget : opt.target = .relayCircuit addr)
      (hpeer : dialTarget addr = some peer)
  | mdns (htarget : opt.target = .mdns peer)

/-- Where a task has the addresses and peers from that it is about to dial. -/
def DialTask.Given (opt : DialOpt) : DialTask → Prop
  | .connectingJump firstJump _ => opt.jump.head? = some firstJump
  | .connectingRelay relayAddress addr remote =>
      opt.target = .relayCircuit addr ∧
        relayBaseFromCircuitAddress addr = .ok (relayAddress, remote)
  | .dialingCircuit addr _ => opt.target = .relayCircuit addr
  | .waitingMdns peer => opt.target = .mdns peer
  | .connectingRendezvous relayAddress _ _ => opt.relayAddress = some relayAddress
  | _ => True

theorem given_afterSetUp (text : Libp2pText) (opt : DialOpt) :
    (DialTask.afterSetUp text opt).Given opt := by
  unfold DialTask.afterSetUp
  cases hjump : opt.jump with
  | cons firstJump rest =>
      cases htarget : opt.target with
      | relayCircuit addr => exact congrArg List.head? hjump
      | mdns peer => trivial
      | pairingCode code => trivial
  | nil =>
      cases htarget : opt.target with
      | mdns peer => exact htarget
      | relayCircuit addr =>
          simp only
          split
          · trivial
          · rename_i relayAddress remote hbase
            exact ⟨htarget, hbase⟩
      | pairingCode code =>
          simp only
          split
          · trivial
          · rename_i relayAddress hrelay
            split
            · trivial
            · exact hrelay

theorem given_resume {text : Libp2pText} {opt : DialOpt} {task next : DialTask}
    {event : DialEvent} (hgiven : task.Given opt)
    (h : task.resume text opt event = some next) : next.Given opt := by
  cases DialTask.move_of_resume h with
  | setUp => exact given_afterSetUp text opt
  | relayConnected => exact hgiven.1
  | jumpOk => cases parseDialMode opt <;> trivial
  | accepted => cases parseDialMode opt <;> trivial
  | _ => trivial

/-- A loop that is about to dial is the one that the run waits for. -/
def LoopOf (nspace : String) (run : DialTask) (loop : Option SwarmTask) : Prop :=
  (∀ addr, loop = some (.dialingRelay addr) → run.op nspace = some (.connectAndIdentify addr)) ∧
    ∀ peer, loop = some (.waitingMdns peer) → run = .waitingMdns peer

/-- What holds of a run of `run_dial`. -/
structure DialRun.Given (opt : DialOpt) (nspace : String) (state : DialRun) : Prop where
  task : state.run.Given opt
  loop : LoopOf nspace state.run state.loop

theorem loopOf_enter (nspace : String) (next : DialTask) :
    LoopOf nspace next ((next.op nspace).bind SwarmTask.ofOp) := by
  cases next with
  | waitingMdns peer =>
      refine ⟨fun addr h => (by cases h), fun peer' h => ?_⟩
      cases h
      rfl
  | connectingJump firstJump hops =>
      refine ⟨fun addr h => ?_, fun peer h => by cases h⟩
      cases h
      rfl
  | connectingRelay relayAddress addr remote =>
      refine ⟨fun addr' h => ?_, fun peer h => by cases h⟩
      cases h
      rfl
  | connectingRendezvous relayAddress relayPeer code =>
      refine ⟨fun addr h => ?_, fun peer h => by cases h⟩
      cases h
      rfl
  | _ => exact ⟨fun addr h => (by cases h), fun peer h => by cases h⟩

/-- The loop of `connect_and_identify` goes on as itself. -/
theorem identifying_wait {learned told : Bool} {wake : Wake} {next : SwarmTask}
    (hturn : connectAndIdentify learned told wake = some (.wait next)) :
    ∃ learned' told', next = .identifying learned' told' := by
  cases wake with
  | event event dialed =>
      cases event with
      | identifySent peer =>
          exact ⟨_, _, (Turn.identified_wait (Option.some.inj hturn)).1⟩
      | identifyReceived peer addr =>
          exact ⟨_, _, (Turn.identified_wait (Option.some.inj hturn)).1⟩
      | _ => exact ⟨_, _, (Turn.wait.inj (Option.some.inj hturn)).symm⟩
  | _ => cases hturn

/-- No turn of a loop leads back to its first dial, and only mDNS waits for mDNS. -/
theorem turn_dialing {task next : SwarmTask} {wake : Wake}
    (hturn : task.turn wake = some (.wait next)) :
    (∀ addr, next ≠ .dialingRelay addr) ∧
      ∀ peer, next = .waitingMdns peer → task = .waitingMdns peer := by
  cases task with
  | dialingRelay relayAddress =>
      obtain ⟨learned, told, rfl, -⟩ := identifying_turn (.inl ⟨relayAddress, rfl⟩) hturn
      exact ⟨fun addr heq => (by cases heq), fun peer heq => by cases heq⟩
  | identifying learned told =>
      obtain ⟨learned', told', rfl⟩ := identifying_wait hturn
      exact ⟨fun addr heq => (by cases heq), fun peer heq => by cases heq⟩
  | waitingPeer expected =>
      obtain rfl := connect_wait rfl (fun result => ⟨_, rfl⟩) hturn
      exact ⟨fun addr heq => (by cases heq), fun peer heq => by cases heq⟩
  | waitingMdns expected =>
      rcases mdns_turn hturn with rfl | rfl
      · exact ⟨fun addr heq => (by cases heq), fun peer heq => heq⟩
      · exact ⟨fun addr heq => (by cases heq), fun peer heq => by cases heq⟩
  | connectingMdns expected =>
      obtain rfl := connect_wait rfl (fun result => ⟨_, rfl⟩) hturn
      exact ⟨fun addr heq => (by cases heq), fun peer heq => by cases heq⟩
  | waitingRendezvous point =>
      rcases rendezvous_turn hturn with rfl | ⟨registration, others, rfl, -⟩
      · exact ⟨fun addr heq => (by cases heq), fun peer heq => by cases heq⟩
      · exact ⟨fun addr heq => (by cases heq), fun peer heq => by cases heq⟩
  | connectingRendezvous point expected =>
      cases wake with
      | timedOut => cases hturn
      | _ =>
          simp only [SwarmTask.turn] at hturn
          obtain rfl := connect_wait rfl (fun result => ⟨_, rfl⟩) hturn
          exact ⟨fun addr heq => (by cases heq), fun peer heq => by cases heq⟩

theorem given_step {text : Libp2pText} {opt : DialOpt} {nspace : String} {state next : DialRun}
    {label : DialLabel} (hgiven : state.Given opt nspace)
    (h : state.step text opt nspace label = some next) : next.Given opt nspace := by
  cases DialRun.move_of_step h with
  | waited hloop hturn =>
      obtain ⟨hrelay, hmdns⟩ := turn_dialing hturn
      refine ⟨hgiven.task, fun addr heq => ?_, fun peer heq => ?_⟩
      · exact absurd (Option.some.inj heq) (hrelay addr)
      · have htask := hmdns peer (Option.some.inj heq)
        exact hgiven.loop.2 peer (hloop.trans (congrArg some htask))
  | left _ _ hresume | resumed _ _ hresume | requested _ _ hresume =>
      exact ⟨given_resume hgiven.task hresume, loopOf_enter nspace _⟩
  | requesting | accepted | session => exact ⟨hgiven.task, hgiven.loop⟩

theorem given_start (opt : DialOpt) (nspace : String) : ({} : DialRun).Given opt nspace :=
  ⟨trivial, fun addr heq => (by cases heq), fun peer heq => by cases heq⟩

/-- The relay that is dialed first is one that the options give. -/
theorem gives_of_connecting {opt : DialOpt} {nspace : String} {task : DialTask}
    {addr : Multiaddr} {peer : PeerId} (hgiven : task.Given opt)
    (hop : task.op nspace = some (.connectAndIdentify addr))
    (hpeer : dialTarget addr = some peer) : opt.Gives peer := by
  cases task with
  | connectingJump firstJump hops =>
      cases hop
      exact .jump hgiven hpeer
  | connectingRelay relayAddress circuit remote =>
      cases hop
      exact .base hgiven.1 hgiven.2 hpeer
  | connectingRendezvous relayAddress relayPeer code =>
      cases hop
      exact .relay hgiven hpeer
  | _ => cases hop

/-- What a dialer has been asked to dial, its options give. -/
theorem given_of_asked {opt : DialOpt} {nspace : String} {state : DialRun} {label : DialLabel}
    {peer : PeerId} (hgiven : state.Given opt nspace) (hmem : peer ∈ state.asked label) :
    opt.Gives peer := by
  cases label with
  | wake wake =>
      simp only [DialRun.asked] at hmem
      split at hmem
      · rename_i relayAddress dialed hloop
        exact gives_of_connecting hgiven.task (hgiven.loop.1 relayAddress hloop)
          (Option.mem_toList.mp hmem)
      · rename_i expected peers dialed hloop
        split at hmem
        · obtain rfl := List.mem_singleton.mp hmem
          have htask := hgiven.task
          rw [hgiven.loop.2 _ hloop] at htask
          exact .mdns htask
        · cases hmem
      · cases hmem
  | event event =>
      cases event with
      | done result =>
          have htask := hgiven.task
          simp only [DialRun.asked] at hmem
          split at hmem
          · rename_i addr remote hrun
            rw [hrun] at htask
            exact .circuit htask (Option.mem_toList.mp hmem)
          · cases hmem
      | _ => cases hmem
  | request event => cases hmem
  | accept => cases hmem
  | session i event => cases hmem

end Sape
