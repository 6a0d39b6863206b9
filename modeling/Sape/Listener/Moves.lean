/-
  Listener/Moves.lean --- what one step of a listener can do.

  `Move` lists, for every kind of step, exactly what changes and what was known
  before.  Every invariant of the listener is a case analysis of it.

  WHAT IS PROVED.

      streamMove_of_perform   the task of a stream
      inboundMove_of_perform  the task of an accepted connection
      move_of_step            every step of the machine is a `Move`
-/
import Sape.Listener.Machine

set_option autoImplicit false

namespace Sape.Listener

open Sape.Foundation

/-! ## The task of a stream -/

/-- What session `i` does between two awaits: its task before and behind, what it writes
on its stream, and the socket it binds. -/
inductive StreamMove (opt : ListenOpt) (state : State) (i : Nat) (session : Session) :
    StreamTask → StreamTask → Bytes → Option ReverseSocket → Prop where
  | polled :
      StreamMove opt state i session .spawned
        (.afterPoll opt.allowedPeers session.stream.peer) [] none
  | requested {req : TunnelRequest} (hrequest : session.stream.request = .ok req) :
      StreamMove opt state i session .reading (.afterRequest req) [] none
  | bound {bindPort port : UInt16} {target : String} {gatewayPorts : Bool}
      (hcan : state.CanBind (reverseBindAddr bindPort gatewayPorts) port) :
      StreamMove opt state i session (.binding bindPort target gatewayPorts) (.acking (.ok ())) []
        (some
          { session := i
            addr := { reverseBindAddr bindPort gatewayPorts with port := port }
            remotePeer := session.stream.peer
            target := target })
  | bindFailed {bindPort : UInt16} {target reason : String} {gatewayPorts : Bool} :
      StreamMove opt state i session (.binding bindPort target gatewayPorts)
        (.acking (.error reason)) [] none
  | acked {result : Except String Unit} {written : Bytes}
      (hwritten : written <+: (sendReverseAck result).1) :
      StreamMove opt state i session (.acking result) .ended written none
  | forwarded {task next : ForwardTask} :
      StreamMove opt state i session (.forwarding task) (.forwarding next) [] none
  | ended {task : StreamTask} (htask : task = .reading ∨ task = .netcat) :
      StreamMove opt state i session task .ended [] none

theorem sendAck_part {result : Except String Unit} {outcome : Outcome}
    {sent : Except IoError Unit} {written : Bytes}
    (h : State.sendAck result outcome = some (sent, written)) :
    written <+: (sendReverseAck result).1 := by
  cases outcome with
  | proceed =>
      obtain ⟨-, rfl⟩ := Prod.mk.inj (Option.some.inj h)
      exact List.prefix_rfl
  | broken cut err =>
      obtain ⟨-, rfl⟩ := Prod.mk.inj (Option.some.inj h)
      exact List.take_prefix _ _
  | eof => cases h
  | refused err => cases h

theorem perform_of_quiet {state : State} {i : Nat} {session : Session} {input : StreamInput}
    {event : StreamEvent} {written : Bytes} {socket : Option ReverseSocket}
    (h : state.perform i session input = some (event, written, socket))
    (hquiet : event.quiet = true) : written = [] ∧ socket = none := by
  cases input with
  | read outcome =>
      obtain ⟨result, -, heq⟩ := Option.map_eq_some_iff.mp h
      cases heq
      exact ⟨rfl, rfl⟩
  | bind result =>
      cases result with
      | error err =>
          cases h
          exact ⟨rfl, rfl⟩
      | ok port =>
          simp only [State.perform] at h
          split at h
          · split at h
            · cases h
              cases hquiet
            · cases h
          · cases h
  | ack outcome =>
      simp only [State.perform] at h
      split at h
      · obtain ⟨_, -, heq⟩ := Option.map_eq_some_iff.mp h
        cases heq
        cases hquiet
      · cases h
  | _ =>
      cases h
      exact ⟨rfl, rfl⟩

theorem request_of_perform {state : State} {i : Nat} {session : Session} {input : StreamInput}
    {req : TunnelRequest} {written : Bytes} {socket : Option ReverseSocket}
    (h : state.perform i session input = some (.requestRead (.ok req), written, socket)) :
    session.stream.request = .ok req := by
  cases input with
  | read outcome =>
      obtain ⟨result, hread, heq⟩ := Option.map_eq_some_iff.mp h
      cases heq
      exact IncomingStream.request_of_readRequest hread
  | bind result =>
      cases result with
      | error err => cases h
      | ok port =>
          simp only [State.perform] at h
          split at h
          · split at h <;> cases h
          · cases h
  | ack outcome =>
      simp only [State.perform] at h
      split at h
      · obtain ⟨_, -, heq⟩ := Option.map_eq_some_iff.mp h
        cases heq
      · cases h
  | _ => cases h

theorem bound_of_perform {state : State} {i : Nat} {session : Session} {input : StreamInput}
    {bindPort : UInt16} {target : String} {gatewayPorts : Bool} {written : Bytes}
    {socket : Option ReverseSocket}
    (htask : session.task = some (.binding bindPort target gatewayPorts))
    (h : state.perform i session input = some (.bound (.ok ()), written, socket)) :
    ∃ port, state.CanBind (reverseBindAddr bindPort gatewayPorts) port ∧ written = [] ∧
      socket = some
        { session := i
          addr := { reverseBindAddr bindPort gatewayPorts with port := port }
          remotePeer := session.stream.peer
          target := target } := by
  cases input with
  | bind result =>
      cases result with
      | error err => cases h
      | ok port =>
          simp only [State.perform, State.boundSocket, htask] at h
          split at h
          · rename_i hcan
            cases h
            exact ⟨port, hcan, rfl, rfl⟩
          · cases h
  | read outcome =>
      obtain ⟨result, -, heq⟩ := Option.map_eq_some_iff.mp h
      cases heq
  | ack outcome => simp [State.perform, htask] at h
  | _ => cases h

theorem acked_of_perform {state : State} {i : Nat} {session : Session} {input : StreamInput}
    {result : Except String Unit} {sent : Except IoError Unit} {written : Bytes}
    {socket : Option ReverseSocket} (htask : session.task = some (.acking result))
    (h : state.perform i session input = some (.ackSent sent, written, socket)) :
    written <+: (sendReverseAck result).1 ∧ socket = none := by
  cases input with
  | ack outcome =>
      simp only [State.perform, htask] at h
      obtain ⟨⟨sent', written'⟩, hsend, heq⟩ := Option.map_eq_some_iff.mp h
      cases heq
      exact ⟨sendAck_part hsend, rfl⟩
  | bind result =>
      cases result with
      | error err => cases h
      | ok port => simp [State.perform, htask] at h
  | read outcome =>
      obtain ⟨_, -, heq⟩ := Option.map_eq_some_iff.mp h
      cases heq
  | _ => cases h

theorem streamMove_of_perform {opt : ListenOpt} {state : State} {i : Nat} {session : Session}
    {task next : StreamTask} {input : StreamInput} {event : StreamEvent} {written : Bytes}
    {socket : Option ReverseSocket} (htask : session.task = some task)
    (hperform : state.perform i session input = some (event, written, socket))
    (hresume : task.resume opt.allowedPeers session.stream.peer event = some next) :
    StreamMove opt state i session task next written socket := by
  rcases StreamTask.resume_cases hresume with ⟨rfl, rfl, rfl⟩ | ⟨req, rfl, rfl, rfl⟩ |
    ⟨bindPort, target, gatewayPorts, rfl, ⟨rfl, rfl⟩ | ⟨err, reason, rfl, rfl⟩⟩ |
    ⟨forward, forward', rfl, hquiet, rfl⟩ | ⟨⟨result, rfl⟩, ⟨sent, rfl⟩, rfl⟩ |
    ⟨hawaiting, hquiet, rfl⟩
  · obtain ⟨rfl, rfl⟩ := perform_of_quiet hperform rfl
    exact .polled
  · obtain ⟨rfl, rfl⟩ := perform_of_quiet hperform rfl
    exact .requested (request_of_perform hperform)
  · obtain ⟨port, hcan, rfl, rfl⟩ := bound_of_perform htask hperform
    exact .bound hcan
  · obtain ⟨rfl, rfl⟩ := perform_of_quiet hperform rfl
    exact .bindFailed
  · obtain ⟨rfl, rfl⟩ := perform_of_quiet hperform hquiet
    exact .forwarded
  · obtain ⟨hwritten, rfl⟩ := acked_of_perform htask hperform
    exact .acked hwritten
  · obtain ⟨rfl, rfl⟩ := perform_of_quiet hperform hquiet
    exact .ended hawaiting

/-! ## The task of an accepted connection -/

/-- What the task of a connection does between two awaits: its task and its streams
behind. -/
inductive InboundMove (nspace : String) (inbound : Inbound) (outcome : Outcome) :
    InboundTask → List Outgoing → Prop where
  | opened (htask : inbound.task = .opening) :
      InboundMove nspace inbound outcome .writing
        ({ peer := inbound.remotePeer, protocol := tunnelProtocol nspace } :: inbound.opened)
  | refused {err : String} (htask : inbound.task = .opening) (houtcome : outcome = .refused err) :
      InboundMove nspace inbound outcome .ended inbound.opened
  | written {outgoing : Outgoing} {others : List Outgoing} {bytes : Bytes}
      (htask : inbound.task = .writing) (hopened : inbound.opened = outgoing :: others)
      (hwrite : writeTunnelRequest (InboundTask.request inbound.target) = .ok bytes) :
      InboundMove nspace inbound outcome .copying
        ({ outgoing with pipe := outgoing.pipe.put bytes } :: others)
  | writeFailed {outgoing : Outgoing} {others : List Outgoing} {bytes : Bytes}
      (htask : inbound.task = .writing) (hopened : inbound.opened = outgoing :: others)
      (hwrite : ∀ frame, writeTunnelRequest (InboundTask.request inbound.target) = .ok frame →
        bytes <+: frame) :
      InboundMove nspace inbound outcome .ended
        ({ outgoing with pipe := outgoing.pipe.put bytes } :: others)
  | copied {outgoing : Outgoing} {others : List Outgoing} {bytes : Bytes}
      (htask : inbound.task = .copying) (hopened : inbound.opened = outgoing :: others) :
      InboundMove nspace inbound outcome .copying
        ({ outgoing with pipe := outgoing.pipe.put bytes } :: others)
  | ended (htask : inbound.task = .copying) :
      InboundMove nspace inbound outcome .ended inbound.opened

theorem inboundMove_of_perform {nspace : String} {inbound : Inbound} {outcome : Outcome}
    {op : InboundOp} {event : InboundEvent} {opened : List Outgoing} {next : InboundTask}
    (hop : inbound.task.op nspace inbound.remotePeer inbound.target = some op)
    (hperform : State.performInbound inbound outcome op = some (event, opened))
    (hresume : inbound.task.resume event = some next) :
    InboundMove nspace inbound outcome next opened := by
  cases htask : inbound.task with
  | opening =>
      rw [htask] at hop hresume
      obtain rfl := Option.some.inj hop
      cases outcome with
      | proceed =>
          cases hperform
          cases hresume
          exact .opened htask
      | refused err =>
          cases hperform
          cases hresume
          exact .refused htask rfl
      | _ => cases hperform
  | writing =>
      rw [htask] at hop hresume
      obtain rfl := Option.some.inj hop
      cases hopened : inbound.opened with
      | nil =>
          simp only [State.performInbound, hopened] at hperform
          cases hperform
      | cons outgoing others =>
          simp only [State.performInbound, hopened] at hperform
          obtain ⟨⟨done, pipe⟩, hwrite, heq⟩ := Option.map_eq_some_iff.mp hperform
          obtain ⟨rfl, rfl⟩ := Prod.mk.inj heq
          obtain ⟨bytes, rfl, ⟨rfl, hbytes⟩ | ⟨⟨err, rfl⟩, hcut⟩⟩ := writeStep_put hwrite
          · cases hresume
            exact .written htask hopened hbytes
          · cases hresume
            exact .writeFailed htask hopened hcut
  | copying =>
      rw [htask] at hop hresume
      obtain rfl := Option.some.inj hop
      cases outcome with
      | proceed =>
          cases hperform
          cases hresume
          exact .ended htask
      | _ => cases hperform
  | ended =>
      rw [htask] at hop
      cases hop

/-! ## Steps -/

/-- What one step does. -/
inductive Move (nspace : String) (opt : ListenOpt) (state : State) (label : Label) :
    State → Prop where
  /-- what the rest of the world does, and ctrl-c -/
  | environment (running : Bool) (connected : List PeerId) (opened : Nat) :
      Move nspace opt state label
        { state with running := running, connected := connected, opened := opened }
  | delivered {i count : Nat} {session : Session} (hget : state.sessions[i]? = some session) :
      Move nspace opt state label
        { state with
          sessions := state.sessions.set i
            { session with stream := session.stream.deliver count } }
  | spawned {session : Session} (hget : state.sessions[state.accepted]? = some session)
      (htask : session.task = none) :
      Move nspace opt state label
        { state with
          accepted := state.accepted + 1
          sessions := state.sessions.set state.accepted
            { session with task := some .spawned } }
  | stream {i : Nat} {session : Session} {task next : StreamTask} {written : Bytes}
      {socket : Option ReverseSocket} (hget : state.sessions[i]? = some session)
      (htask : session.task = some task)
      (hmove : StreamMove opt state i session task next written socket) :
      Move nspace opt state label
        { state with
          sessions := state.sessions.set i
            { session with task := some next, reply := session.reply ++ written }
          sockets := state.sockets ++ socket.toList
          effects := state.effects ++ effectsOf session.stream.peer next.op ++
            socket.toList.map fun socket =>
              { peer := session.stream.peer, op := .accept socket.addr } }
  | accepted {k : Nat} {socket : ReverseSocket} (hget : state.sockets[k]? = some socket) :
      Move nspace opt state label
        { state with
          inbounds := state.inbounds ++
            [{ socket := k, remotePeer := socket.remotePeer, target := socket.target }]
          effects := state.effects ++
            [{ peer := socket.remotePeer
               op := .inbound (.openStream socket.remotePeer (tunnelProtocol nspace)) },
              { peer := socket.remotePeer, op := .accept socket.addr }] }
  | inbound {j : Nat} {inbound : Inbound} {outcome : Outcome} {next : InboundTask}
      {opened : List Outgoing} {effects : List Effect}
      (hget : state.inbounds[j]? = some inbound)
      (hmove : InboundMove nspace inbound outcome next opened)
      (hlabel : ∀ err, outcome = .refused err → label = .inbound j (.refused err))
      (heffects : ∀ effect ∈ effects, effect.peer = inbound.remotePeer ∧
        ∀ peer, effect.op.toward = some peer → peer = inbound.remotePeer) :
      Move nspace opt state label
        { state with
          inbounds := state.inbounds.set j { inbound with task := next, opened := opened }
          effects := state.effects ++ effects }

theorem mem_effectsOf {peer : PeerId} {op : Option ListenOp} {effect : Effect}
    (h : effect ∈ effectsOf peer op) : effect.peer = peer ∧ op = some effect.op := by
  simp only [effectsOf, List.mem_map, Option.mem_toList] at h
  obtain ⟨op', hop, rfl⟩ := h
  exact ⟨rfl, hop⟩

/-- A connection's task opens streams to the peer it has captured only. -/
theorem toward_of_inboundOp {nspace : String} {remotePeer : PeerId} {target : String}
    {task : InboundTask} {op : ListenOp}
    (h : (task.op nspace remotePeer target).map ListenOp.inbound = some op) :
    ∀ peer, op.toward = some peer → peer = remotePeer := by
  obtain ⟨inboundOp, hop, rfl⟩ := Option.map_eq_some_iff.mp h
  intro peer htoward
  cases task with
  | opening =>
      obtain rfl := Option.some.inj hop
      exact (Option.some.inj htoward).symm
  | writing =>
      obtain rfl := Option.some.inj hop
      cases htoward
  | copying =>
      obtain rfl := Option.some.inj hop
      cases htoward
  | ended => cases hop

theorem move_of_streamStep {nspace : String} {opt : ListenOpt} {state next : State} {i : Nat}
    {input : StreamInput} (h : state.streamStep opt i input = some next) :
    Move nspace opt state (.stream i input) next := by
  unfold State.streamStep at h
  split at h
  · cases h
  · rename_i session hget
    split at h
    · rename_i task event written socket htask hperform
      split at h
      · cases h
      · rename_i next' hresume
        obtain rfl := Option.some.inj h
        exact .stream hget htask (streamMove_of_perform htask hperform hresume)
    · cases h

theorem move_of_acceptStep {nspace : String} {opt : ListenOpt} {state next : State} {k : Nat}
    (h : state.acceptStep nspace k = some next) : Move nspace opt state (.accept k) next := by
  unfold State.acceptStep at h
  split at h
  · cases h
  · rename_i socket hget
    obtain rfl := Option.some.inj h
    simp only [List.append_assoc]
    exact .accepted hget

theorem move_of_inboundStep {nspace : String} {opt : ListenOpt} {state next : State} {j : Nat}
    {outcome : Outcome} (h : state.inboundStep nspace j outcome = some next) :
    Move nspace opt state (.inbound j outcome) next := by
  unfold State.inboundStep at h
  split at h
  · cases h
  · rename_i inbound hget
    split at h
    · cases h
    · rename_i op hop
      split at h
      · cases h
      · rename_i event opened hperform
        split at h
        · cases h
        · rename_i next' hresume
          obtain rfl := Option.some.inj h
          refine .inbound hget (inboundMove_of_perform hop hperform hresume)
            (fun err h => h ▸ rfl) ?_
          intro effect heffect
          obtain ⟨hpeer, hop'⟩ := mem_effectsOf heffect
          exact ⟨hpeer, toward_of_inboundOp hop'⟩

theorem move_of_copyStep {nspace : String} {opt : ListenOpt} {state next : State} {j : Nat}
    {bytes : Bytes} (h : state.copyStep j bytes = some next) :
    Move nspace opt state (.copy j bytes) next := by
  unfold State.copyStep at h
  split at h
  · cases h
  · rename_i inbound hget
    split at h
    · rename_i outgoing others htask hopened
      obtain rfl := Option.some.inj h
      have hcopied : InboundMove nspace inbound .proceed .copying
          ({ outgoing with pipe := outgoing.pipe.put bytes } :: others) :=
        .copied htask hopened
      have hmove : Move nspace opt state (.copy j bytes)
          { state with
            inbounds := state.inbounds.set j
              { inbound with
                task := .copying
                opened := { outgoing with pipe := outgoing.pipe.put bytes } :: others }
            effects := state.effects ++ [] } :=
        .inbound hget hcopied (fun err h => (by cases h)) (by simp)
      rw [List.append_nil, ← htask] at hmove
      exact hmove
    · cases h

theorem move_of_step {nspace : String} {opt : ListenOpt} {state next : State} {label : Label}
    (h : state.step nspace opt label = some next) :
    state.running = true ∧ Move nspace opt state label next := by
  unfold State.step at h
  split at h
  · rename_i hrunning
    refine ⟨hrunning, ?_⟩
    cases label with
    | connect peer =>
        obtain rfl := Option.some.inj h
        exact .environment state.running _ state.opened
    | disconnect peer =>
        obtain rfl := Option.some.inj h
        exact .environment state.running _ state.opened
    | openStream =>
        simp only [State.runningStep] at h
        split at h
        · cases h
        · split at h
          · obtain rfl := Option.some.inj h
            exact .environment state.running state.connected _
          · cases h
    | deliver i count =>
        simp only [State.runningStep] at h
        split at h
        · cases h
        · rename_i session hget
          obtain rfl := Option.some.inj h
          exact .delivered hget
    | next =>
        simp only [State.runningStep] at h
        split at h
        · split at h
          · cases h
          · rename_i session hget
            split at h
            · cases h
            · rename_i htask
              obtain rfl := Option.some.inj h
              exact .spawned hget htask
        · cases h
    | stream i input => exact move_of_streamStep h
    | accept k => exact move_of_acceptStep h
    | inbound j outcome => exact move_of_inboundStep h
    | copy j bytes => exact move_of_copyStep h
    | ctrlC =>
        obtain rfl := Option.some.inj h
        exact .environment _ state.connected state.opened
  · cases h

end Sape.Listener
