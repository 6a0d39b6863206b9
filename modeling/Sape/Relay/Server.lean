/-
  Relay/Server.lean --- `src/relay.rs`: `run_relay`, its select loop, its accept task, and
  the jump streams that are handled at the same time.

  A handler never dials.  It puts the address of its next hop into a channel that has room
  for 32 of them, and the select loop takes them out one by one; what `swarm.dial` says to
  them is logged and nothing else.  With more than 32 handlers in front of the channel, the
  others wait for the loop.

  WHAT IS PROVED.

      relay_dials          what the loop has dialed or will dial are the first hops of the
                           chains that the handlers read, each once, in their order
      relay_transparent    whatever the handlers could do without the channel, they can do
                           with it
      relay_announces      an address that a relay prints can be given to `--relay-address`
-/
import Sape.Addresses
import Sape.Foundation.Channel
import Sape.Foundation.Lists
import Sape.Foundation.Refinement
import Sape.Relay.Reply

set_option autoImplicit false

namespace Sape

open Sape.Foundation

/-! ## The handlers by themselves -/

/-- A jump stream that was accepted. -/
structure Served where
  peer : PeerId
  handler : Handler := {}
  deriving DecidableEq, Repr, Inhabited

/-- What happens to the jump streams. -/
inductive ServingLabel where
  | accepted (peer : PeerId)
  /-- an operation of a handler comes back -/
  | handler (index : Nat) (event : JumpEvent)
  deriving DecidableEq, Repr, Inhabited

namespace Served

/-- One step of the accept task or of a handler. -/
def serve (text : Libp2pText) (nspace : String) (served : List Served) :
    ServingLabel → Option (List Served)
  | .accepted peer => some (served ++ [{ peer := peer }])
  | .handler index event =>
      match served[index]? with
      | none => none
      | some one =>
          match one.handler.step text nspace one.peer event with
          | none => none
          | some handler => some (served.set index { one with handler := handler })

/-- Any number of handlers side by side. -/
def machine (text : Libp2pText) (nspace : String) : Machine (List Served) ServingLabel where
  start := []
  step := serve text nspace

/-- The operation that a handler waits for. -/
def opOf (nspace : String) (served : List Served) (index : Nat) : Option JumpOp :=
  match served[index]? with
  | none => none
  | some one => one.handler.task.op nspace

/-- The address that a step puts into the channel. -/
def ask (nspace : String) (served : List Served) : ServingLabel → Option Multiaddr
  | .handler index (.dialSent true) =>
      match opOf nspace served index with
      | some (.sendDial addr) => some addr
      | _ => none
  | _ => none

/-- The addresses that the steps of a run put into the channel, in their order. -/
def asks (text : Libp2pText) (nspace : String) : List Served → List ServingLabel → List Multiaddr
  | _, [] => []
  | served, label :: labels =>
      (ask nspace served label).toList ++
        match serve text nspace served label with
        | none => []
        | some next => asks text nspace next labels

/-- The address of the first hop of the chain that a handler has read. -/
def firstHop (text : Libp2pText) : List JumpEvent → Option Multiaddr
  | .chainRead (.ok ⟨hop :: _⟩) :: _ => (JumpTask.parseHop text hop).toOption.map Prod.fst
  | _ => none

/-- What a handler has asked the loop to dial. -/
def asked (text : Libp2pText) (one : Served) : Option Multiaddr :=
  if .dialSent true ∈ one.handler.seen then firstHop text one.handler.seen else none

end Served

/-! ## The server -/

/-- `struct RelayOpt`, less the two options for its identity. -/
structure RelayOpt where
  useIpv6 : Bool := false
  port : UInt16 := 4001
  deriving DecidableEq, Repr, Inhabited

/-- `Ipv6Addr::UNSPECIFIED` or `Ipv4Addr::UNSPECIFIED`. -/
def RelayOpt.ipProtocol (opt : RelayOpt) : Protocol := if opt.useIpv6 then .ip6 0 else .ip4 0

/-- The three addresses that `run_relay` listens on; `opt.port + 1` wraps. -/
def RelayOpt.listenAddrs (opt : RelayOpt) : List Multiaddr :=
  [[opt.ipProtocol, .tcp opt.port], [opt.ipProtocol, .udp opt.port, .quicV1],
    [opt.ipProtocol, .tcp (opt.port + 1), .ws "/"]]

/-- `SwarmEvent`, as far as the loop does something with it. -/
inductive ServerEvent where
  | identified (observedAddr : Multiaddr)
  | newListenAddr (address : Multiaddr)
  /-- logged, or ignored -/
  | other
  deriving DecidableEq, Repr, Inhabited

inductive ServerPhase where
  | settingUp
  /-- in front of the remaining `swarm.listen_on` -/
  | listening (rest : List Multiaddr)
  /-- in the select loop -/
  | serving
  | ended (result : Except Report Unit)
  deriving DecidableEq, Repr, Inhabited

/-- A relay: `run_relay`, its accept task and its handlers. -/
structure Server where
  phase : ServerPhase := .settingUp
  /-- the accept task runs -/
  accepting : Bool := false
  served : List Served := []
  /-- `dial_tx` and `dial_rx` -/
  dials : Channel 32 Multiaddr := .empty 32 Multiaddr
  /-- what `swarm.dial` was called with -/
  dialed : List Multiaddr := []
  /-- what `swarm.add_external_address` was called with -/
  external : List Multiaddr := []
  /-- the listening addresses that were logged -/
  announced : List Multiaddr := []
  deriving DecidableEq, Repr, Inhabited

inductive ServerLabel where
  /-- the identity and the swarm are there, or not -/
  | setUp (result : Except Report Unit)
  | listened (result : Except Report Unit)
  | serving (label : ServingLabel)
  /-- `incoming_jump.next()` is over -/
  | acceptEnded
  /-- `dial_rx.recv()`, and what `swarm.dial` says -/
  | dial (outcome : Except String Unit)
  | swarm (event : ServerEvent)
  /-- `swarm.next()` is over -/
  | swarmEnded
  | ctrlC
  deriving DecidableEq, Repr, Inhabited

/-- The part of a label that the jump streams see. -/
def ServerLabel.visible : ServerLabel → Option ServingLabel
  | .serving label => some label
  | _ => none

namespace Server

/-- From one `swarm.listen_on` to the next, or into the loop. -/
def listenNext (server : Server) : List Multiaddr → Server
  | [] => { server with phase := .serving, accepting := true }
  | rest => { server with phase := .listening rest }

/-- The loop is left, and `dial_rx` dropped. -/
def finish (server : Server) (result : Except Report Unit) : Server :=
  { server with phase := .ended result, dials := server.dials.close }

/-- The channel behind a step of the jump streams: a send waits for room, and fails only
when the loop is gone. -/
def offer (nspace : String) (server : Server) : ServingLabel → Option (Channel 32 Multiaddr)
  | .accepted _ => if server.accepting then some server.dials else none
  | .handler index event =>
      match Served.opOf nspace server.served index, event with
      | some (.sendDial addr), .dialSent true => server.dials.send addr
      | some (.sendDial _), .dialSent false =>
          if server.dials.closed then some server.dials else none
      | _, _ => some server.dials

/-- An arm of the loop for a swarm event. -/
def see (relayPeer : PeerId) (server : Server) : ServerEvent → Server
  | .identified observedAddr => { server with external := server.external ++ [observedAddr] }
  | .newListenAddr address =>
      { server with announced := server.announced ++ [address ++ [.p2p relayPeer]] }
  | .other => server

/-- One step. -/
def step (text : Libp2pText) (nspace : String) (opt : RelayOpt) (relayPeer : PeerId)
    (server : Server) (label : ServerLabel) : Option Server :=
  match server.phase, label with
  | .settingUp, .setUp (.ok ()) => some (server.listenNext opt.listenAddrs)
  | .settingUp, .setUp (.error report) => some (server.finish (.error report))
  | .listening (_ :: rest), .listened (.ok ()) => some (server.listenNext rest)
  | .listening _, .listened (.error report) => some (server.finish (.error report))
  | .serving, .dial _ =>
      match server.dials.receive with
      | none => none
      | some (addr, dials) =>
          some { server with dials := dials, dialed := server.dialed ++ [addr] }
  | .serving, .swarm event => some (server.see relayPeer event)
  | .serving, .swarmEnded =>
      some (server.finish (.error (.msg "server swarm stream ended unexpectedly")))
  | .serving, .ctrlC => some (server.finish (.ok ()))
  | _, .acceptEnded => if server.accepting then some { server with accepting := false } else none
  | _, .serving label =>
      match server.offer nspace label, Served.serve text nspace server.served label with
      | some dials, some served => some { server with dials := dials, served := served }
      | _, _ => none
  | _, _ => none

def machine (text : Libp2pText) (nspace : String) (opt : RelayOpt) (relayPeer : PeerId) :
    Machine Server ServerLabel where
  start := {}
  step := step text nspace opt relayPeer

/-! ## What a step does -/

/-- What a step can be. -/
inductive Move (text : Libp2pText) (nspace : String) (opt : RelayOpt) (relayPeer : PeerId)
    (server : Server) : ServerLabel → Server → Prop where
  | setUp (hphase : server.phase = .settingUp) :
      Move text nspace opt relayPeer server (.setUp (.ok ())) (server.listenNext opt.listenAddrs)
  | setUpFailed {report : Report} (hphase : server.phase = .settingUp) :
      Move text nspace opt relayPeer server (.setUp (.error report))
        (server.finish (.error report))
  | listened {addr : Multiaddr} {rest : List Multiaddr}
      (hphase : server.phase = .listening (addr :: rest)) :
      Move text nspace opt relayPeer server (.listened (.ok ())) (server.listenNext rest)
  | listenFailed {rest : List Multiaddr} {report : Report}
      (hphase : server.phase = .listening rest) :
      Move text nspace opt relayPeer server (.listened (.error report))
        (server.finish (.error report))
  | dial {addr : Multiaddr} {dials : Channel 32 Multiaddr} {outcome : Except String Unit}
      (hphase : server.phase = .serving) (hreceive : server.dials.receive = some (addr, dials)) :
      Move text nspace opt relayPeer server (.dial outcome)
        { server with dials := dials, dialed := server.dialed ++ [addr] }
  | swarm {event : ServerEvent} (hphase : server.phase = .serving) :
      Move text nspace opt relayPeer server (.swarm event) (server.see relayPeer event)
  | swarmEnded (hphase : server.phase = .serving) :
      Move text nspace opt relayPeer server .swarmEnded
        (server.finish (.error (.msg "server swarm stream ended unexpectedly")))
  | ctrlC (hphase : server.phase = .serving) :
      Move text nspace opt relayPeer server .ctrlC (server.finish (.ok ()))
  | acceptEnded (haccepting : server.accepting = true) :
      Move text nspace opt relayPeer server .acceptEnded { server with accepting := false }
  | serving {label : ServingLabel} {dials : Channel 32 Multiaddr} {served : List Served}
      (hoffer : server.offer nspace label = some dials)
      (hserve : Served.serve text nspace server.served label = some served) :
      Move text nspace opt relayPeer server (.serving label)
        { server with dials := dials, served := served }

variable {text : Libp2pText} {nspace : String} {opt : RelayOpt} {relayPeer : PeerId}

theorem move_of_step {server next : Server} {label : ServerLabel}
    (h : step text nspace opt relayPeer server label = some next) :
    Move text nspace opt relayPeer server label next := by
  unfold step at h
  split at h
  · rename_i hphase
    obtain rfl := Option.some.inj h
    exact .setUp hphase
  · rename_i hphase
    obtain rfl := Option.some.inj h
    exact .setUpFailed hphase
  · rename_i hphase
    obtain rfl := Option.some.inj h
    exact .listened hphase
  · rename_i hphase
    obtain rfl := Option.some.inj h
    exact .listenFailed hphase
  · rename_i hphase
    split at h
    · cases h
    · rename_i hreceive
      obtain rfl := Option.some.inj h
      exact .dial hphase hreceive
  · rename_i hphase
    obtain rfl := Option.some.inj h
    exact .swarm hphase
  · rename_i hphase
    obtain rfl := Option.some.inj h
    exact .swarmEnded hphase
  · rename_i hphase
    obtain rfl := Option.some.inj h
    exact .ctrlC hphase
  · split at h
    · rename_i haccepting
      obtain rfl := Option.some.inj h
      exact .acceptEnded haccepting
    · cases h
  · split at h
    · rename_i hoffer hserve
      obtain rfl := Option.some.inj h
      exact .serving hoffer hserve
    · cases h
  · cases h

theorem offer_cases {server : Server} {label : ServingLabel} {dials : Channel 32 Multiaddr}
    (h : server.offer nspace label = some dials) :
    (∃ addr, Served.ask nspace server.served label = some addr ∧
        server.dials.send addr = some dials) ∨
      Served.ask nspace server.served label = none ∧ dials = server.dials := by
  unfold offer at h
  split at h
  · split at h
    · exact .inr ⟨rfl, (Option.some.inj h).symm⟩
    · cases h
  · split at h
    · rename_i addr hop
      refine .inl ⟨addr, ?_, h⟩
      simp only [Served.ask, hop]
    · split at h
      · exact .inr ⟨rfl, (Option.some.inj h).symm⟩
      · cases h
    · rename_i index event hother _
      refine .inr ⟨?_, (Option.some.inj h).symm⟩
      unfold Served.ask
      split
      · rename_i heq
        split
        · rename_i addr hop
          cases heq
          exact absurd rfl (hother addr hop)
        · rfl
      · rfl

@[simp] theorem listenNext_served (server : Server) (rest : List Multiaddr) :
    (server.listenNext rest).served = server.served := by
  cases rest <;> rfl

@[simp] theorem listenNext_dials (server : Server) (rest : List Multiaddr) :
    (server.listenNext rest).dials = server.dials := by
  cases rest <;> rfl

@[simp] theorem listenNext_dialed (server : Server) (rest : List Multiaddr) :
    (server.listenNext rest).dialed = server.dialed := by
  cases rest <;> rfl

@[simp] theorem listenNext_announced (server : Server) (rest : List Multiaddr) :
    (server.listenNext rest).announced = server.announced := by
  cases rest <;> rfl

end Server

/-! ## What the handlers ask for -/

namespace Served

variable {text : Libp2pText} {nspace : String}

/-- Where a handler has not asked yet, its chain has been read or nothing has happened. -/
def Asking (text : Libp2pText) (handler : Handler) : Prop :=
  match handler.task with
  | .readingChain => handler.seen = []
  | .dialing addr _ _ =>
      firstHop text handler.seen = some addr ∧ JumpEvent.dialSent true ∉ handler.seen
  | _ => True

/-- From a chain that was read to the next wait. -/
theorem asking_afterChain (peer : PeerId) (chain : JumpChain) (results : List JumpResult) :
    Asking text { task := JumpTask.afterChain text peer chain, results := results,
                  seen := [.chainRead (.ok chain)] } := by
  obtain ⟨-, report, heq⟩ | ⟨hop, remaining, hhops, ⟨report, -, heq⟩ | ⟨addr, next, hparse, heq⟩⟩ :=
    JumpTask.afterChain_cases text peer chain
  · rw [heq]
    trivial
  · rw [heq]
    trivial
  · rw [heq]
    obtain ⟨hops⟩ := chain
    obtain rfl : hops = hop :: remaining := hhops
    refine ⟨?_, by simp⟩
    simp only [firstHop, hparse, Except.toOption, Option.map_some]

theorem asking_step {peer : PeerId} {handler next : Handler} {event : JumpEvent}
    (hinv : Asking text handler) (h : handler.step text nspace peer event = some next) :
    Asking text next := by
  obtain ⟨task, hresume, rfl⟩ := Option.map_eq_some_iff.mp h
  obtain ⟨task₀, results, seen⟩ := handler
  simp only at hresume ⊢
  unfold JumpTask.resume at hresume
  split at hresume
  case h_2 chain =>
    obtain rfl := Option.some.inj hresume
    obtain rfl : seen = [] := hinv
    exact asking_afterChain peer chain _
  case h_7 =>
    obtain rfl := Option.some.inj hresume
    unfold JumpTask.afterOpen
    split <;> trivial
  case h_8 =>
    split at hresume <;> obtain rfl := Option.some.inj hresume <;> trivial
  case h_18 => cases hresume
  all_goals
    obtain rfl := Option.some.inj hresume
    trivial

theorem asking_of_reaches {peer : PeerId} {events : List JumpEvent} {handler : Handler}
    (hrun : (Handler.machine text nspace peer).Reaches events handler) : Asking text handler :=
  Machine.invariant (Asking text) (show Asking text {} from rfl)
    (fun hinv hstep => asking_step hinv hstep) hrun

theorem firstHop_concat {seen : List JumpEvent} (hne : seen ≠ []) (event : JumpEvent) :
    firstHop text (seen ++ [event]) = firstHop text seen := by
  cases seen with
  | nil => exact absurd rfl hne
  | cons first rest =>
      cases first with
      | chainRead result =>
          cases result with
          | error err => rfl
          | ok chain =>
              obtain ⟨hops⟩ := chain
              cases hops with
              | nil => rfl
              | cons hop remaining => rfl
      | _ => rfl

theorem asked_concat {peer : PeerId} {task task' : JumpTask} {results results' : List JumpResult}
    {seen : List JumpEvent} {event : JumpEvent} (hevent : event ≠ .dialSent true) :
    asked text ⟨peer, ⟨task', results', seen ++ [event]⟩⟩ =
      asked text ⟨peer, ⟨task, results, seen⟩⟩ := by
  have hmem : JumpEvent.dialSent true ∈ seen ++ [event] ↔ JumpEvent.dialSent true ∈ seen := by
    rw [List.mem_append, List.mem_singleton, or_iff_left hevent.symm]
  unfold asked
  by_cases hasked : JumpEvent.dialSent true ∈ seen
  · rw [if_pos (hmem.mpr hasked), if_pos hasked, firstHop_concat (List.ne_nil_of_mem hasked)]
  · rw [if_neg (mt hmem.mp hasked), if_neg hasked]

/-- A handler that is about to send has asked for nothing yet. -/
theorem asked_dialing {peer : PeerId} {addr : Multiaddr} {nextPeer : PeerId}
    {remaining : List String} {results : List JumpResult} {seen : List JumpEvent}
    (hasking : Asking text ⟨.dialing addr nextPeer remaining, results, seen⟩) :
    asked text ⟨peer, ⟨.dialing addr nextPeer remaining, results, seen⟩⟩ = none :=
  if_neg hasking.2

/-- A handler that has sent has asked for its first hop. -/
theorem asked_dialSent {peer : PeerId} {addr : Multiaddr} {nextPeer : PeerId}
    {remaining : List String} {task' : JumpTask} {results results' : List JumpResult}
    {seen : List JumpEvent}
    (hasking : Asking text ⟨.dialing addr nextPeer remaining, results, seen⟩) :
    asked text ⟨peer, ⟨task', results', seen ++ [.dialSent true]⟩⟩ = some addr := by
  obtain ⟨hfirst, -⟩ := hasking
  have hne : seen ≠ [] := by
    rintro rfl
    cases hfirst
  unfold asked
  rw [if_pos (List.mem_append_right _ (List.mem_singleton_self _)), firstHop_concat hne, hfirst]

/-- The handlers of a relay: each is where a run of its own has brought it. -/
def Grown (text : Libp2pText) (nspace : String) (served : List Served) : Prop :=
  ∀ one ∈ served, (Handler.machine text nspace one.peer).Reaches one.handler.seen one.handler

theorem reaches_concat {peer : PeerId} {handler next : Handler} {event : JumpEvent}
    (hrun : (Handler.machine text nspace peer).Reaches handler.seen handler)
    (h : handler.step text nspace peer event = some next) :
    (Handler.machine text nspace peer).Reaches next.seen next := by
  obtain ⟨task, hresume, rfl⟩ := Option.map_eq_some_iff.mp h
  exact (Machine.exec_append handler.seen [event]).mpr
    ⟨handler, hrun, (Machine.exec_cons_of_step h []).trans rfl⟩

theorem grown_serve {served next : List Served} {label : ServingLabel}
    (hgrown : Grown text nspace served) (h : serve text nspace served label = some next) :
    Grown text nspace next := by
  cases label with
  | accepted peer =>
      obtain rfl := Option.some.inj h
      intro one hmem
      cases List.mem_append.mp hmem with
      | inl hold => exact hgrown one hold
      | inr hnew =>
          obtain rfl := List.mem_singleton.mp hnew
          rfl
  | handler index event =>
      simp only [serve] at h
      split at h
      · cases h
      · rename_i one hone
        split at h
        · cases h
        · rename_i handler hstep
          obtain rfl := Option.some.inj h
          intro other hmem
          rcases List.mem_or_eq_of_mem_set hmem with hold | rfl
          · exact hgrown other hold
          · exact reaches_concat (hgrown one (List.mem_of_getElem? hone)) hstep

theorem grown_of_reaches {labels : List ServingLabel} {served : List Served}
    (hrun : (machine text nspace).Reaches labels served) : Grown text nspace served :=
  Machine.invariant (Grown text nspace) (fun _ hmem => absurd hmem List.not_mem_nil)
    (fun hgrown hstep => grown_serve hgrown hstep) hrun

/-- A step of the handlers adds what it asks for to what was asked for before. -/
theorem perm_asked_serve {served next : List Served} {label : ServingLabel}
    (hgrown : Grown text nspace served) (h : serve text nspace served label = some next) :
    (served.filterMap (asked text) ++ (ask nspace served label).toList).Perm
      (next.filterMap (asked text)) := by
  cases label with
  | accepted peer =>
      obtain rfl := Option.some.inj h
      rw [List.filterMap_append]
      exact List.Perm.refl _
  | handler index event =>
      simp only [serve] at h
      split at h
      · cases h
      · rename_i one hone
        split at h
        · cases h
        · rename_i handler hstep
          obtain rfl := Option.some.inj h
          have hasking := asking_of_reaches (hgrown one (List.mem_of_getElem? hone))
          obtain ⟨peer, task, results, seen⟩ := one
          obtain ⟨task', hresume, rfl⟩ := Option.map_eq_some_iff.mp hstep
          by_cases hevent : event = .dialSent true
          · subst hevent
            cases task with
            | dialing addr nextPeer remaining =>
                have hask : ask nspace served (.handler index (.dialSent true)) = some addr := by
                  simp only [ask, opOf, hone, JumpTask.op]
                rw [hask]
                exact perm_filterMap_set hone (asked_dialing hasking) (asked_dialSent hasking)
            | _ => cases hresume
          · have hask : ask nspace served (.handler index event) = none := by
              unfold ask
              split
              · rename_i heq
                cases heq
                exact absurd rfl hevent
              · rfl
            rw [hask, Option.toList_none, List.append_nil,
              filterMap_set_of_eq hone (asked_concat hevent)]

/-- Along a run, each handler asks once, for its own first hop. -/
theorem perm_asked_asks (labels : List ServingLabel) :
    ∀ {served final : List Served}, Grown text nspace served →
      (machine text nspace).exec served labels = some final →
      (served.filterMap (asked text) ++ asks text nspace served labels).Perm
        (final.filterMap (asked text)) := by
  induction labels with
  | nil =>
      intro served final _ hrun
      obtain rfl := Option.some.inj hrun
      rw [asks, List.append_nil]
  | cons label labels ih =>
      intro served final hgrown hrun
      obtain ⟨next, hstep, hrest⟩ := Machine.exec_cons hrun
      have hserve : serve text nspace served label = some next := hstep
      have hfirst := perm_asked_serve hgrown hserve
      simp only [asks, hserve]
      rw [← List.append_assoc]
      exact (hfirst.append_right _).trans (ih (grown_serve hgrown hserve) hrest)

end Served

/-! ## What the loop dials -/

namespace Server

variable {text : Libp2pText} {nspace : String} {opt : RelayOpt} {relayPeer : PeerId}

/-- Dialed, or waiting to be. -/
def due (server : Server) : List Multiaddr := server.dialed ++ server.dials.queue

theorem due_step {server next : Server} {label : ServerLabel}
    (h : step text nspace opt relayPeer server label = some next) :
    match label.visible with
    | none => next.served = server.served ∧ next.due = server.due
    | some serving =>
        Served.serve text nspace server.served serving = some next.served ∧
          next.due = server.due ++ (Served.ask nspace server.served serving).toList := by
  cases move_of_step h with
  | dial hphase hreceive =>
      obtain ⟨-, -, hqueue⟩ := Channel.receive_cases hreceive
      refine ⟨rfl, ?_⟩
      simp only [due]
      rw [hqueue, List.append_assoc, List.singleton_append]
  | serving hoffer hserve =>
      refine ⟨hserve, ?_⟩
      obtain ⟨addr, hask, hsend⟩ | ⟨hask, rfl⟩ := offer_cases hoffer
      · obtain ⟨-, -, -, hqueue⟩ := Channel.send_cases hsend
        simp only [due]
        rw [hqueue, hask, Option.toList_some, List.append_assoc]
      · rw [hask, Option.toList_none, List.append_nil]
        rfl
  | swarm hphase => rename_i event; cases event <;> exact ⟨rfl, rfl⟩
  | _ => simp [ServerLabel.visible, due, finish, Channel.close]

theorem handlers_of_exec {labels : List ServerLabel} {server final : Server}
    (hrun : (machine text nspace opt relayPeer).exec server labels = some final) :
    (Served.machine text nspace).exec server.served (labels.filterMap ServerLabel.visible) =
      some final.served := by
  apply Machine.projects Server.served ServerLabel.visible _ labels hrun
  intro server label next hstep
  have hdue := due_step hstep
  cases hvisible : label.visible with
  | none =>
      rw [hvisible] at hdue
      rw [hdue.1]
      rfl
  | some serving =>
      rw [hvisible] at hdue
      exact Machine.exec_cons_of_step hdue.1 []

theorem due_of_exec (labels : List ServerLabel) :
    ∀ {server final : Server},
      (machine text nspace opt relayPeer).exec server labels = some final →
      final.due = server.due ++
        Served.asks text nspace server.served (labels.filterMap ServerLabel.visible) := by
  induction labels with
  | nil =>
      intro server final hrun
      obtain rfl := Option.some.inj hrun
      exact (List.append_nil _).symm
  | cons label labels ih =>
      intro server final hrun
      obtain ⟨next, hstep, hrest⟩ := Machine.exec_cons hrun
      have hdue := due_step hstep
      rw [ih hrest]
      cases hvisible : label.visible with
      | none =>
          rw [hvisible] at hdue
          rw [List.filterMap_cons_none hvisible, hdue.1, hdue.2]
      | some serving =>
          rw [hvisible] at hdue
          rw [List.filterMap_cons_some hvisible, hdue.2, List.append_assoc]
          simp only [Served.asks, hdue.1]

/-- In every run of a relay, what the loop has dialed, followed by what waits in the
channel, is what the handlers have asked for, in that order; and that is, for each handler
that has asked, the address of the first hop of the chain it has read, once.  Each handler
is where a run of its own brings it. -/
theorem relay_dials {labels : List ServerLabel} {server : Server}
    (hrun : (machine text nspace opt relayPeer).Reaches labels server) :
    server.due = Served.asks text nspace [] (labels.filterMap ServerLabel.visible) ∧
      server.due.Perm (server.served.filterMap (Served.asked text)) ∧
      ∀ one ∈ server.served,
        (Handler.machine text nspace one.peer).Reaches one.handler.seen one.handler := by
  have hhandlers : (Served.machine text nspace).Reaches (labels.filterMap ServerLabel.visible)
      server.served := handlers_of_exec hrun
  have hdue : server.due = Served.asks text nspace [] (labels.filterMap ServerLabel.visible) :=
    due_of_exec labels hrun
  refine ⟨hdue, ?_, Served.grown_of_reaches hhandlers⟩
  rw [hdue]
  exact Served.perm_asked_asks _ (fun _ hmem => absurd hmem List.not_mem_nil) hhandlers

/-- Text forms that know two hops. -/
def twoHops : Libp2pText := .ofTable [("a", [.p2p ⟨[1]⟩]), ("b", [.p2p ⟨[2]⟩])]

/-- Two jump streams, the second of which gets to its send first. -/
def twoStreams : List ServerLabel :=
  [.setUp (.ok ()), .listened (.ok ()), .listened (.ok ()), .listened (.ok ()),
    .serving (.accepted ⟨[7]⟩), .serving (.accepted ⟨[8]⟩),
    .serving (.handler 0 (.chainRead (.ok ⟨["a"]⟩))),
    .serving (.handler 1 (.chainRead (.ok ⟨["b", "a"]⟩))),
    .serving (.handler 1 (.dialSent true))]

theorem relay_dials_two :
    ∃ server, (machine twoHops "n" {} ⟨[9]⟩).Reaches
        (twoStreams ++ [.dial (.error "no"), .serving (.handler 0 (.dialSent true))]) server ∧
      server.due = [[.p2p ⟨[2]⟩], [.p2p ⟨[1]⟩]] ∧
      server.due.Perm (server.served.filterMap (Served.asked twoHops)) := by
  obtain ⟨server, hrun, -⟩ : ∃ server, (machine twoHops "n" {} ⟨[9]⟩).Reaches
      (twoStreams ++ [.dial (.error "no"), .serving (.handler 0 (.dialSent true))]) server ∧
        true = true := Machine.exists_reaches_of_any (by decide +kernel)
  obtain ⟨hdue, hperm, -⟩ := relay_dials hrun
  exact ⟨server, hrun, hdue.trans (by decide +kernel), hperm⟩

/-! ## What the channel is to the handlers -/

/-- The loop has the receiving end of the channel for as long as it runs. -/
def Open (server : Server) : Prop :=
  (∃ result, server.phase = .ended result) ∨ server.dials.closed = false

theorem open_step {server next : Server} {label : ServerLabel} (hopen : server.Open)
    (h : step text nspace opt relayPeer server label = some next) : next.Open := by
  cases move_of_step h with
  | setUp hphase =>
      refine .inr ?_
      rw [listenNext_dials]
      exact hopen.resolve_left fun ⟨result, hended⟩ => by cases hphase.symm.trans hended
  | listened hphase =>
      refine .inr ?_
      rw [listenNext_dials]
      exact hopen.resolve_left fun ⟨result, hended⟩ => by cases hphase.symm.trans hended
  | dial hphase hreceive => exact .inr (Channel.receive_cases hreceive).2.1
  | swarm hphase => rename_i event; cases event <;> exact hopen
  | acceptEnded haccepting => exact hopen
  | serving hoffer hserve =>
      obtain ⟨addr, -, hsend⟩ | ⟨-, rfl⟩ := offer_cases hoffer
      · exact .inr (Channel.send_cases hsend).2.2.1
      · exact hopen
  | _ => exact .inl ⟨_, rfl⟩

theorem open_of_reaches {labels : List ServerLabel} {server : Server}
    (hrun : (machine text nspace opt relayPeer).Reaches labels server) : server.Open :=
  Machine.invariant Open (.inr rfl) (fun hopen hstep => open_step hopen hstep) hrun

/-- The loop takes everything out of the channel. -/
theorem drain (text : Libp2pText) (nspace : String) (opt : RelayOpt) (relayPeer : PeerId)
    (queue : List Multiaddr) :
    ∀ {server : Server}, server.phase = .serving → server.dials.closed = false →
      server.dials.queue = queue →
      ∃ dials, dials.queue = [] ∧ dials.closed = false ∧
        (machine text nspace opt relayPeer).exec server
            (List.replicate queue.length (.dial (.ok ()))) =
          some { server with dials := dials, dialed := server.dialed ++ queue } := by
  induction queue with
  | nil =>
      intro server hphase hopen hqueue
      refine ⟨server.dials, hqueue, hopen, ?_⟩
      rw [List.append_nil]
      rfl
  | cons addr queue ih =>
      intro server hphase hopen hqueue
      obtain ⟨dials, hreceive, hrest, hstill⟩ := Channel.receive_of_cons hopen hqueue
      have hstep : (machine text nspace opt relayPeer).step server (.dial (.ok ())) =
          some { server with dials := dials, dialed := server.dialed ++ [addr] } := by
        simp only [machine, step, hphase, hreceive]
      obtain ⟨dials', hempty, hstill', hrun⟩ :=
        @ih { server with dials := dials, dialed := server.dialed ++ [addr] } hphase hstill hrest
      refine ⟨dials', hempty, hstill', ?_⟩
      rw [List.length_cons, List.replicate_succ, Machine.exec_cons_of_step hstep, hrun,
        List.append_assoc, List.singleton_append]

/-- With room in the channel, no step of the jump streams has to wait. -/
theorem offer_of_room (nspace : String) {server : Server} {label : ServingLabel}
    (hopen : server.dials.closed = false) (hroom : server.dials.queue.length < 32)
    (haccepting : server.accepting = false → ∀ peer, label ≠ .accepted peer)
    (hsent : ∀ index, label ≠ .handler index (.dialSent false)) :
    ∃ dials, server.offer nspace label = some dials := by
  unfold offer
  split
  · rename_i peer
    cases haccept : server.accepting with
    | true => exact ⟨_, rfl⟩
    | false => exact absurd rfl (haccepting haccept peer)
  · rename_i index event
    split
    · exact Channel.send_of_room hopen hroom _
    · exact absurd rfl (hsent index)
    · exact ⟨_, rfl⟩

theorem step_serving (opt : RelayOpt) (relayPeer : PeerId) (server : Server)
    {label : ServingLabel} {dials : Channel 32 Multiaddr} {served : List Served}
    (hoffer : server.offer nspace label = some dials)
    (hserve : Served.serve text nspace server.served label = some served) :
    (machine text nspace opt relayPeer).step server (.serving label) =
      some { server with dials := dials, served := served } := by
  simp only [machine, step]
  rw [hoffer, hserve]

/-- The handlers go on, and nobody else but the loop. -/
structure Goes (server : Server) (more : List ServerLabel) (onward : List ServingLabel)
    (final : Server) : Prop where
  visible : more.filterMap ServerLabel.visible = onward
  silent : ∀ label ∈ more, label.visible = none → label = .dial (.ok ())
  phase : final.phase = .serving
  accepting : final.accepting = server.accepting
  opened : final.dials.closed = false

theorem goes_step (opt : RelayOpt) (relayPeer : PeerId) {server : Server} {label : ServingLabel}
    {served : List Served}
    (hphase : server.phase = .serving) (hopen : server.dials.closed = false)
    (haccepting : server.accepting = false → ∀ peer, label ≠ .accepted peer)
    (hsent : ∀ index, label ≠ .handler index (.dialSent false))
    (hserve : Served.serve text nspace server.served label = some served) :
    ∃ more final, (machine text nspace opt relayPeer).exec server more = some final ∧
      Goes server more [label] final ∧ final.served = served := by
  obtain ⟨dials, hempty, hstill, hdrain⟩ :=
    drain text nspace opt relayPeer server.dials.queue hphase hopen rfl
  have hroom : dials.queue.length < 32 := by
    rw [hempty]
    decide
  obtain ⟨dials', hoffer⟩ := @offer_of_room nspace
    { server with dials := dials, dialed := server.dialed ++ server.dials.queue } label
    hstill hroom haccepting hsent
  have hstep := step_serving opt relayPeer
    { server with dials := dials, dialed := server.dialed ++ server.dials.queue } hoffer hserve
  have hstill' : dials'.closed = false := by
    obtain ⟨addr, -, hsend⟩ | ⟨-, rfl⟩ := offer_cases hoffer
    · exact (Channel.send_cases hsend).2.2.1
    · exact hstill
  refine ⟨List.replicate server.dials.queue.length (.dial (.ok ())) ++ [.serving label], _,
    (Machine.exec_append _ _).mpr ⟨_, hdrain, Machine.exec_cons_of_step hstep []⟩, ?_, rfl⟩
  refine ⟨?_, ?_, hphase, rfl, hstill'⟩
  · rw [List.filterMap_append, List.filterMap_replicate_of_none rfl]
    rfl
  · intro other hmem hvisible
    cases List.mem_append.mp hmem with
    | inl hdial => exact List.eq_of_mem_replicate hdial
    | inr hlast =>
        obtain rfl := List.mem_singleton.mp hlast
        cases hvisible

theorem Goes.trans {server mid final : Server} {more more' : List ServerLabel}
    {onward onward' : List ServingLabel} (h : Goes server more onward mid)
    (h' : Goes mid more' onward' final) :
    Goes server (more ++ more') (onward ++ onward') final where
  visible := by rw [List.filterMap_append, h.visible, h'.visible]
  silent := by
    intro label hmem
    cases List.mem_append.mp hmem with
    | inl hfront => exact h.silent label hfront
    | inr hback => exact h'.silent label hback
  phase := h'.phase
  accepting := h'.accepting.trans h.accepting
  opened := h'.opened

theorem goes_of_exec (onward : List ServingLabel) :
    ∀ {server : Server} {served : List Served}, server.phase = .serving →
      server.dials.closed = false →
      (server.accepting = false → ∀ peer, .accepted peer ∉ onward) →
      (∀ index, .handler index (.dialSent false) ∉ onward) →
      (Served.machine text nspace).exec server.served onward = some served →
      ∃ more final, (machine text nspace opt relayPeer).exec server more = some final ∧
        Goes server more onward final ∧ final.served = served := by
  induction onward with
  | nil =>
      intro server served hphase hopen _ _ hrun
      exact ⟨[], server, rfl, ⟨rfl, fun _ hmem => absurd hmem List.not_mem_nil, hphase, rfl, hopen⟩,
        Option.some.inj hrun⟩
  | cons label onward ih =>
      intro server served hphase hopen haccepting hsent hrun
      obtain ⟨next, hserve, hrest⟩ := Machine.exec_cons hrun
      obtain ⟨more, mid, hfirst, hgoes, rfl⟩ := goes_step opt relayPeer hphase hopen
        (fun h peer heq => haccepting h peer (heq ▸ List.mem_cons_self))
        (fun index heq => hsent index (heq ▸ List.mem_cons_self)) hserve
      obtain ⟨more', final, hthen, hgoes', hfinal⟩ := ih hgoes.phase hgoes.opened
        (fun h peer hmem => haccepting (hgoes.accepting ▸ h) peer (List.mem_cons_of_mem _ hmem))
        (fun index hmem => hsent index (List.mem_cons_of_mem _ hmem)) hrest
      exact ⟨more ++ more', final, (Machine.exec_append _ _).mpr ⟨mid, hfirst, hthen⟩,
        hgoes.trans hgoes', hfinal⟩

/-- In every run of a relay that is still in its loop: whatever its handlers could do by
themselves from here on, with no send failing, they can do in this relay, where the loop only
takes addresses out of the channel in between; in the end it has dialed all that was due and
all that they have asked for, in order. -/
theorem relay_transparent {labels : List ServerLabel} {server : Server}
    (hrun : (machine text nspace opt relayPeer).Reaches labels server)
    (hserving : server.phase = .serving) {onward : List ServingLabel} {served : List Served}
    (haccepting : server.accepting = false → ∀ peer, .accepted peer ∉ onward)
    (hsent : ∀ index, .handler index (.dialSent false) ∉ onward)
    (hfree : (Served.machine text nspace).exec server.served onward = some served) :
    ∃ more final, (machine text nspace opt relayPeer).exec server more = some final ∧
      more.filterMap ServerLabel.visible = onward ∧
      (∀ label ∈ more, label.visible = none → label = .dial (.ok ())) ∧
      final.phase = .serving ∧ final.served = served ∧ final.dials.queue = [] ∧
      final.dialed = server.due ++ Served.asks text nspace server.served onward := by
  have hopen : server.dials.closed = false :=
    (open_of_reaches hrun).resolve_left fun ⟨result, hended⟩ => by cases hserving.symm.trans hended
  obtain ⟨more, mid, hmore, hgoes, hserved⟩ :=
    goes_of_exec onward hserving hopen haccepting hsent hfree
  obtain ⟨dials, hempty, -, hdrain⟩ :=
    drain text nspace opt relayPeer mid.dials.queue hgoes.phase hgoes.opened rfl
  have hsilent : ∀ label ∈ List.replicate mid.dials.queue.length (ServerLabel.dial (.ok ())),
      label = .dial (.ok ()) := fun label hmem => List.eq_of_mem_replicate hmem
  refine ⟨more ++ List.replicate mid.dials.queue.length (.dial (.ok ())),
    { mid with dials := dials, dialed := mid.due },
    (Machine.exec_append _ _).mpr ⟨mid, hmore, hdrain⟩, ?_, ?_, hgoes.phase, hserved, hempty, ?_⟩
  · rw [List.filterMap_append, List.filterMap_replicate_of_none rfl, List.append_nil]
    exact hgoes.visible
  · intro label hmem hvisible
    cases List.mem_append.mp hmem with
    | inl hfront => exact hgoes.silent label hfront hvisible
    | inr hback => exact hsilent label hback
  · have hdue := due_of_exec more hmore
    rw [hgoes.visible] at hdue
    exact hdue

/-- Of 33 jump streams to one hop, 32 have sent its address to a loop that has not looked. -/
def fullChannel : List ServerLabel :=
  [.setUp (.ok ()), .listened (.ok ()), .listened (.ok ()), .listened (.ok ())] ++
    List.replicate 33 (.serving (.accepted ⟨[8]⟩)) ++
    (List.range 33).map (fun i => .serving (.handler i (.chainRead (.ok ⟨["a"]⟩)))) ++
    (List.range 32).map (fun i => .serving (.handler i (.dialSent true)))

/-- The last of them waits for room, and gets it. -/
theorem relay_transparent_full :
    ∃ server more final, (machine twoHops "n" {} ⟨[9]⟩).Reaches fullChannel server ∧
      (machine twoHops "n" {} ⟨[9]⟩).step server (.serving (.handler 32 (.dialSent true))) = none ∧
      (machine twoHops "n" {} ⟨[9]⟩).exec server more = some final ∧
      more.filterMap ServerLabel.visible = [.handler 32 (.dialSent true)] ∧
      final.dialed = List.replicate 33 [.p2p ⟨[1]⟩] := by
  obtain ⟨server, hrun, htest⟩ : ∃ server,
      (machine twoHops "n" {} ⟨[9]⟩).Reaches fullChannel server ∧
        decide (server.phase = .serving ∧ server.accepting = true ∧
          server.due = List.replicate 32 [.p2p ⟨[1]⟩] ∧
          (machine twoHops "n" {} ⟨[9]⟩).step server
            (.serving (.handler 32 (.dialSent true))) = none ∧
          Served.asks twoHops "n" server.served [.handler 32 (.dialSent true)] =
            [[.p2p ⟨[1]⟩]] ∧
          ((Served.machine twoHops "n").exec server.served
            [.handler 32 (.dialSent true)]).isSome) = true :=
    Machine.exists_reaches_of_any (by decide +kernel)
  obtain ⟨hserving, haccepting, hdue, hwaits, hasks, hfree⟩ := of_decide_eq_true htest
  obtain ⟨served, hserved⟩ := Option.isSome_iff_exists.mp hfree
  obtain ⟨more, final, hmore, hvisible, -, -, -, -, hdialed⟩ := relay_transparent hrun hserving
    (fun h => by cases haccepting.symm.trans h) (by simp) hserved
  refine ⟨server, more, final, hrun, hwaits, hmore, hvisible, ?_⟩
  rw [hdialed, hdue, hasks]
  exact List.replicate_succ'.symm

/-! ## What a relay prints -/

/-- What a listener that was asked for may be reported as: with the address of an interface,
and with a port where none was named. -/
inductive Fills : Protocol → Protocol → Prop where
  | ip4 (asked reported : UInt32) : Fills (.ip4 asked) (.ip4 reported)
  | ip6 (asked reported : BitVec 128) : Fills (.ip6 asked) (.ip6 reported)
  | tcp (port : UInt16) : Fills (.tcp 0) (.tcp port)
  | udp (port : UInt16) : Fills (.udp 0) (.udp port)
  | same (c : Protocol) : Fills c c

/-- The address is one of a listener that `run_relay` has asked for. -/
def Reported (opt : RelayOpt) (address : Multiaddr) : Prop :=
  ∃ asked ∈ opt.listenAddrs, List.Forall₂ Fills asked address

theorem Fills.ip {opt : RelayOpt} {c : Protocol} (h : Fills opt.ipProtocol c) :
    c.kind = .address := by
  unfold RelayOpt.ipProtocol at h
  split at h <;> cases h <;> rfl

theorem Fills.toTcp {port : UInt16} {c : Protocol} (h : Fills (.tcp port) c) :
    ∃ port', c = .tcp port' := by
  cases h <;> exact ⟨_, rfl⟩

theorem Fills.toUdp {port : UInt16} {c : Protocol} (h : Fills (.udp port) c) :
    ∃ port', c = .udp port' := by
  cases h <;> exact ⟨_, rfl⟩

theorem Fills.toQuic {c : Protocol} (h : Fills .quicV1 c) : c = .quicV1 := by
  cases h
  rfl

theorem Fills.toWs {path : String} {c : Protocol} (h : Fills (.ws path) c) : c = .ws path := by
  cases h
  rfl

/-- A reported address is the address of an interface and a transport. -/
theorem Reported.split {opt : RelayOpt} {address : Multiaddr} (h : Reported opt address) :
    ∃ ip transport, address = ip :: transport ∧ ip.kind = .address ∧
      RelayTransport transport := by
  obtain ⟨asked, hmem, hfills⟩ := h
  simp only [RelayOpt.listenAddrs, List.mem_cons, List.not_mem_nil, or_false] at hmem
  rcases hmem with rfl | rfl | rfl
  · obtain ⟨ip, behind, hip, hbehind, rfl⟩ := List.forall₂_cons_left_iff.mp hfills
    obtain ⟨c, rest, hc, hnil, rfl⟩ := List.forall₂_cons_left_iff.mp hbehind
    obtain rfl := List.forall₂_nil_left_iff.mp hnil
    obtain ⟨port, rfl⟩ := hc.toTcp
    exact ⟨ip, _, rfl, hip.ip, .tcp port⟩
  · obtain ⟨ip, behind, hip, hbehind, rfl⟩ := List.forall₂_cons_left_iff.mp hfills
    obtain ⟨c, last, hc, hlast, rfl⟩ := List.forall₂_cons_left_iff.mp hbehind
    obtain ⟨quic, rest, hquic, hnil, rfl⟩ := List.forall₂_cons_left_iff.mp hlast
    obtain rfl := List.forall₂_nil_left_iff.mp hnil
    obtain ⟨port, rfl⟩ := hc.toUdp
    obtain rfl := hquic.toQuic
    exact ⟨ip, _, rfl, hip.ip, .quic port⟩
  · obtain ⟨ip, behind, hip, hbehind, rfl⟩ := List.forall₂_cons_left_iff.mp hfills
    obtain ⟨c, last, hc, hlast, rfl⟩ := List.forall₂_cons_left_iff.mp hbehind
    obtain ⟨ws, rest, hws, hnil, rfl⟩ := List.forall₂_cons_left_iff.mp hlast
    obtain rfl := List.forall₂_nil_left_iff.mp hnil
    obtain ⟨port, rfl⟩ := hc.toTcp
    obtain rfl := hws.toWs
    exact ⟨ip, _, rfl, hip.ip, .webSocket port _ rfl⟩

/-- What the loop makes of a label, for the log. -/
def announce (relayPeer : PeerId) : ServerLabel → Option Multiaddr
  | .swarm (.newListenAddr address) => some (address ++ [.p2p relayPeer])
  | _ => none

theorem announced_step {server next : Server} {label : ServerLabel}
    (h : step text nspace opt relayPeer server label = some next) :
    next.announced = server.announced ++ (announce relayPeer label).toList := by
  cases move_of_step h with
  | swarm hphase => rename_i event; cases event <;> simp [see, announce]
  | _ => simp [announce, finish]

theorem announced_of_exec (labels : List ServerLabel) :
    ∀ {server final : Server},
      (machine text nspace opt relayPeer).exec server labels = some final →
      final.announced = server.announced ++ labels.filterMap (announce relayPeer) := by
  induction labels with
  | nil =>
      intro server final hrun
      obtain rfl := Option.some.inj hrun
      exact (List.append_nil _).symm
  | cons label labels ih =>
      intro server final hrun
      obtain ⟨next, hstep, hrest⟩ := Machine.exec_cons hrun
      rw [ih hrest, announced_step hstep, List.append_assoc]
      cases hlabel : announce relayPeer label with
      | none => rw [List.filterMap_cons_none hlabel, Option.toList_none, List.nil_append]
      | some addr => rw [List.filterMap_cons_some hlabel, Option.toList_some, List.singleton_append]

/-- Addresses and WebSockets raise no flag. -/
theorem see_of_kind {c : Protocol} (h : c.kind = .address ∨ c.kind = .webSocket)
    (flags : RelayAddressFlags) : flags.see c = flags := by
  cases c with
  | ip4 addr => rfl
  | ip6 addr => rfl
  | dns name => rfl
  | ws path => rfl
  | other text => rfl
  | _ => rcases h with h | h <;> cases h

/-- A transport behind an address and in front of a peer id validates. -/
theorem validate_of_transport {ip : Protocol} {transport : Multiaddr} {peer : PeerId}
    (hip : ip.kind = .address) (h : RelayTransport transport) :
    validateRelayAddress (ip :: (transport ++ [.p2p peer])) = .ok () := by
  unfold validateRelayAddress
  rw [List.foldl_cons, see_of_kind (.inl hip)]
  cases h with
  | tcp port => rfl
  | webSocket port c hkind =>
      simp only [List.cons_append, List.nil_append, List.foldl_cons, see_of_kind (.inr hkind)]
      rfl
  | quic port => rfl

/-- As long as the swarm reports listeners that were asked for: each address that a relay
prints has the shape of a relay address and validates, the peer that it names is this relay,
and the circuit address that a listener makes of it is taken apart into this address and that
listener. -/
theorem relay_announces {labels : List ServerLabel} {server : Server}
    (hrun : (machine text nspace opt relayPeer).Reaches labels server)
    (hreported : ∀ address, .swarm (.newListenAddr address) ∈ labels → Reported opt address) :
    ∀ addr ∈ server.announced,
      RelayShape addr ∧ validateRelayAddress addr = .ok () ∧
        peerIdFromMultiaddr addr = some relayPeer ∧
        ∀ self, relayBaseFromCircuitAddress (relayDialAddress addr self) = .ok (addr, self) := by
  intro addr hmem
  have hannounced : server.announced = labels.filterMap (announce relayPeer) :=
    announced_of_exec labels hrun
  rw [hannounced] at hmem
  obtain ⟨label, hlabel, hannounce⟩ := List.mem_filterMap.mp hmem
  obtain ⟨address, rfl, rfl⟩ : ∃ address, label = .swarm (.newListenAddr address) ∧
      addr = address ++ [.p2p relayPeer] := by
    unfold announce at hannounce
    split at hannounce
    · exact ⟨_, rfl, (Option.some.inj hannounce).symm⟩
    · cases hannounce
  obtain ⟨ip, transport, rfl, hip, htransport⟩ := (hreported address hlabel).split
  have hshape : RelayShape (ip :: transport ++ [.p2p relayPeer]) := by
    refine ⟨[ip], transport, relayPeer, rfl, List.cons_ne_nil _ _, ?_, htransport⟩
    intro c hc
    rw [List.mem_singleton.mp hc]
    exact hip
  have hvalid : validateRelayAddress (ip :: transport ++ [.p2p relayPeer]) = .ok () :=
    validate_of_transport hip htransport
  obtain ⟨-, front, peer, heq, -, hcircuit, hpeer⟩ := hshape.spec
  obtain ⟨-, hlast⟩ := List.append_inj' heq rfl
  cases hlast
  refine ⟨hshape, hvalid, hpeer, fun self => ?_⟩
  exact (relayBase_split hcircuit).mpr ⟨rfl, rfl, hvalid⟩

/-- A relay prints the address of its TCP listener. -/
theorem relay_announces_tcp :
    ∃ server, (machine twoHops "n" {} ⟨[9]⟩).Reaches
        [.setUp (.ok ()), .listened (.ok ()), .listened (.ok ()), .listened (.ok ()),
          .swarm (.newListenAddr [.ip4 1, .tcp 4001])] server ∧
      [.ip4 1, .tcp 4001, .p2p ⟨[9]⟩] ∈ server.announced ∧
      validateRelayAddress [.ip4 1, .tcp 4001, .p2p ⟨[9]⟩] = .ok () := by
  obtain ⟨server, hrun, htest⟩ : ∃ server, (machine twoHops "n" {} ⟨[9]⟩).Reaches
      [.setUp (.ok ()), .listened (.ok ()), .listened (.ok ()), .listened (.ok ()),
        .swarm (.newListenAddr [.ip4 1, .tcp 4001])] server ∧
        decide ([.ip4 1, .tcp 4001, .p2p ⟨[9]⟩] ∈ server.announced) = true :=
    Machine.exists_reaches_of_any (by decide +kernel)
  have hmem := of_decide_eq_true htest
  refine ⟨server, hrun, hmem, (relay_announces hrun ?_ _ hmem).2.1⟩
  intro address haddress
  obtain rfl : address = [.ip4 1, .tcp 4001] := by simpa using haddress
  exact ⟨[.ip4 0, .tcp 4001], by decide, .cons (.ip4 0 1) (.cons (.same _) .nil)⟩

end Server

end Sape
