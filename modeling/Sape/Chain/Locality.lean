/-
  Chain/Locality.lean --- what one step of the chain can and cannot touch.

  A step belongs to the dialer, to one relay, or to the peer behind the last relay.
  Whoever moves works on the streams it holds an end of, and only in the ways its
  end allows: the upper end of a stream writes down and reads up, the lower end
  reads down and writes up.  Every invariant of the chain is about what one party
  knows of its own two streams, so these facts are all its proof needs about the
  other parties' steps.

  WHAT IS PROVED.

      relayStep_cases    a relay's step is an operation that comes back, and the
                         code behind it
      Moves              the frame of a step of place `i`
      Opens              the frame of a step that opens the stream to it
      move_of_step       whose step a step of the network is, and what it changes
-/
import Sape.Chain.Network

set_option autoImplicit false

namespace Sape.Chain

open Sape.Foundation

/-! ## The two ends of a stream -/

/-- What the upper end of a stream relies on while it is not moving. -/
structure UpperIdle (link next : Link) : Prop where
  downSent : next.down.sent = link.down.sent
  upTaken : next.up.taken = link.up.taken
  upSent : link.up.sent <+: next.up.sent

/-- What the lower end of a stream relies on while it is not moving. -/
structure LowerIdle (link next : Link) : Prop where
  downTaken : next.down.taken = link.down.taken
  upSent : next.up.sent = link.up.sent
  downSent : link.down.sent <+: next.down.sent

theorem UpperIdle.refl (link : Link) : UpperIdle link link := ⟨rfl, rfl, List.prefix_rfl⟩

theorem LowerIdle.refl (link : Link) : LowerIdle link link := ⟨rfl, rfl, List.prefix_rfl⟩

theorem UpperIdle.of_eq {link next : Link} (h : next = link) : UpperIdle link next :=
  h ▸ UpperIdle.refl _

theorem LowerIdle.of_eq {link next : Link} (h : next = link) : LowerIdle link next :=
  h ▸ LowerIdle.refl _

/-- A step at the upper end of the first stream has left the lower end of every stream idle. -/
theorem LowerIdle.of_top {net next : Net} (hlower : LowerIdle (net.link 0) (next.link 0))
    (hlink : ∀ k, k ≠ 0 → next.link k = net.link k) (j : Nat) :
    LowerIdle (net.link j) (next.link j) := by
  by_cases hj : j = 0
  · exact hj ▸ hlower
  · exact .of_eq (hlink j hj)

/-- The frame of a step that place `i` takes without opening a stream. -/
structure Moves (net next : Net) (i : Nat) : Prop where
  upper : UpperIdle (net.link i) (next.link i)
  lower : LowerIdle (net.link (i + 1)) (next.link (i + 1))
  link : ∀ k, k ≠ i → k ≠ i + 1 → next.link k = net.link k
  node : ∀ k, k ≠ i → next.node k = net.node k
  dialer : next.dialer = net.dialer
  answer : next.answer = net.answer

theorem Moves.refl (net : Net) (i : Nat) : Moves net net i :=
  ⟨UpperIdle.refl _, LowerIdle.refl _, fun _ _ _ => rfl, fun _ _ => rfl, rfl, rfl⟩

/-- A step of another place is a step of the other end of one's inbound stream, or none. -/
theorem Moves.lower_ne {net next : Net} {i j : Nat} (h : Moves net next i) (hne : j ≠ i) :
    LowerIdle (net.link j) (next.link j) := by
  by_cases hj : j = i + 1
  · exact hj ▸ h.lower
  · exact h.link j hne hj ▸ LowerIdle.refl _

theorem Moves.upper_ne {net next : Net} {i j : Nat} (h : Moves net next i) (hne : j ≠ i) :
    UpperIdle (net.link (j + 1)) (next.link (j + 1)) := by
  by_cases hj : j + 1 = i
  · exact hj ▸ h.upper
  · exact h.link (j + 1) hj (by omega) ▸ UpperIdle.refl _

/-- Changing the node that moves is part of its step. -/
theorem Moves.setNode {net next : Net} {i : Nat} (h : Moves net next i) (node : Node) :
    Moves net (next.setNode i node) i where
  upper := h.upper
  lower := h.lower
  link := h.link
  node k hk := by rw [Net.setNode_node_ne _ _ hk]; exact h.node k hk
  dialer := h.dialer
  answer := h.answer

namespace Net

@[simp] theorem setDown_link_self (net : Net) (i : Nat) (pipe : Pipe) :
    (net.setDown i pipe).link i = { net.link i with down := pipe } := setLink_link_self ..
@[simp] theorem setDown_link_ne (net : Net) {i j : Nat} (pipe : Pipe) (h : j ≠ i) :
    (net.setDown i pipe).link j = net.link j := setLink_link_ne _ _ h
@[simp] theorem setDown_node (net : Net) (i : Nat) (pipe : Pipe) :
    (net.setDown i pipe).node = net.node := rfl
@[simp] theorem setDown_dialer (net : Net) (i : Nat) (pipe : Pipe) :
    (net.setDown i pipe).dialer = net.dialer := rfl
@[simp] theorem setDown_answer (net : Net) (i : Nat) (pipe : Pipe) :
    (net.setDown i pipe).answer = net.answer := rfl
@[simp] theorem setDown_dialerSent (net : Net) (i : Nat) (pipe : Pipe) :
    (net.setDown i pipe).dialerSent = net.dialerSent := rfl
@[simp] theorem setDown_listenerSent (net : Net) (i : Nat) (pipe : Pipe) :
    (net.setDown i pipe).listenerSent = net.listenerSent := rfl
@[simp] theorem setUp_link_self (net : Net) (i : Nat) (pipe : Pipe) :
    (net.setUp i pipe).link i = { net.link i with up := pipe } := setLink_link_self ..
@[simp] theorem setUp_link_ne (net : Net) {i j : Nat} (pipe : Pipe) (h : j ≠ i) :
    (net.setUp i pipe).link j = net.link j := setLink_link_ne _ _ h
@[simp] theorem setUp_node (net : Net) (i : Nat) (pipe : Pipe) :
    (net.setUp i pipe).node = net.node := rfl
@[simp] theorem setUp_dialer (net : Net) (i : Nat) (pipe : Pipe) :
    (net.setUp i pipe).dialer = net.dialer := rfl
@[simp] theorem setUp_answer (net : Net) (i : Nat) (pipe : Pipe) :
    (net.setUp i pipe).answer = net.answer := rfl
@[simp] theorem spawn_link_self (setup : Setup) (net : Net) (i : Nat) (opener self : PeerId)
    (protocol : StreamProtocol) : (net.spawn setup i opener self protocol).link i = {} :=
  setLink_link_self ..
@[simp] theorem spawn_link_ne (setup : Setup) (net : Net) {i j : Nat} (opener self : PeerId)
    (protocol : StreamProtocol) (h : j ≠ i) :
    (net.spawn setup i opener self protocol).link j = net.link j := setLink_link_ne _ _ h
@[simp] theorem spawn_node_self (setup : Setup) (net : Net) (i : Nat) (opener self : PeerId)
    (protocol : StreamProtocol) :
    (net.spawn setup i opener self protocol).node i =
      if protocol = jumpProtocol setup.nspace then .relay { self := self, peer := opener }
      else .acceptor self := setNode_node_self ..
@[simp] theorem spawn_node_ne (setup : Setup) (net : Net) {i j : Nat} (opener self : PeerId)
    (protocol : StreamProtocol) (h : j ≠ i) :
    (net.spawn setup i opener self protocol).node j = net.node j := setNode_node_ne _ _ h
@[simp] theorem spawn_dialer (setup : Setup) (net : Net) (i : Nat) (opener self : PeerId)
    (protocol : StreamProtocol) :
    (net.spawn setup i opener self protocol).dialer = net.dialer := rfl
@[simp] theorem spawn_answer (setup : Setup) (net : Net) (i : Nat) (opener self : PeerId)
    (protocol : StreamProtocol) :
    (net.spawn setup i opener self protocol).answer = net.answer := rfl

end Net

/-- Place `i` reads from its inbound stream. -/
theorem Moves.setDown {net : Net} {i : Nat} (pipe : Pipe)
    (hsent : pipe.sent = (net.link i).down.sent) : Moves net (net.setDown i pipe) i where
  upper := by
    rw [Net.setDown_link_self]
    exact ⟨hsent, rfl, List.prefix_rfl⟩
  lower := by
    rw [Net.setDown_link_ne _ _ (Nat.succ_ne_self i)]
    exact LowerIdle.refl _
  link k hk _ := Net.setDown_link_ne _ _ hk
  node _ _ := rfl
  dialer := rfl
  answer := rfl

/-- Place `i` writes to its inbound stream. -/
theorem Moves.setUp {net : Net} {i : Nat} (pipe : Pipe)
    (htaken : pipe.taken = (net.link i).up.taken) (hsent : (net.link i).up.sent <+: pipe.sent) :
    Moves net (net.setUp i pipe) i where
  upper := by
    rw [Net.setUp_link_self]
    exact ⟨rfl, htaken, hsent⟩
  lower := by
    rw [Net.setUp_link_ne _ _ (Nat.succ_ne_self i)]
    exact LowerIdle.refl _
  link k hk _ := Net.setUp_link_ne _ _ hk
  node _ _ := rfl
  dialer := rfl
  answer := rfl

/-- Place `i` writes to its outbound stream. -/
theorem Moves.setDown_next {net : Net} {i : Nat} (pipe : Pipe)
    (htaken : pipe.taken = (net.link (i + 1)).down.taken)
    (hsent : (net.link (i + 1)).down.sent <+: pipe.sent) :
    Moves net (net.setDown (i + 1) pipe) i where
  upper := by
    rw [Net.setDown_link_ne _ _ (Nat.succ_ne_self i).symm]
    exact UpperIdle.refl _
  lower := by
    rw [Net.setDown_link_self]
    exact ⟨htaken, rfl, hsent⟩
  link k _ hk := Net.setDown_link_ne _ _ hk
  node _ _ := rfl
  dialer := rfl
  answer := rfl

/-- Place `i` reads from its outbound stream. -/
theorem Moves.setUp_next {net : Net} {i : Nat} (pipe : Pipe)
    (hsent : pipe.sent = (net.link (i + 1)).up.sent) :
    Moves net (net.setUp (i + 1) pipe) i where
  upper := by
    rw [Net.setUp_link_ne _ _ (Nat.succ_ne_self i).symm]
    exact UpperIdle.refl _
  lower := by
    rw [Net.setUp_link_self]
    exact ⟨rfl, hsent, List.prefix_rfl⟩
  link k _ hk := Net.setUp_link_ne _ _ hk
  node _ _ := rfl
  dialer := rfl
  answer := rfl

/-- The frame of a step that opens the stream to place `i`: the place is taken, behind empty
pipes, and of the others only its opener may have moved. -/
structure Opens (setup : Setup) (net next : Net) (i : Nat) (opener peer : PeerId)
    (protocol : StreamProtocol) : Prop where
  fresh : next.link i = {}
  place : next.node i = if protocol = jumpProtocol setup.nspace then
    .relay { self := peer, peer := opener } else .acceptor peer
  link : ∀ k, k ≠ i → next.link k = net.link k
  node : ∀ k, k ≠ i → k + 1 ≠ i → next.node k = net.node k
  listenerSent : next.listenerSent = net.listenerSent

section Opens

variable {setup : Setup} {net next : Net} {i : Nat} {opener peer : PeerId}
  {protocol : StreamProtocol}

theorem Opens.lower_ne (h : Opens setup net next i opener peer protocol) {j : Nat} (hne : j ≠ i) :
    LowerIdle (net.link j) (next.link j) := .of_eq (h.link j hne)

theorem Opens.upper_ne (h : Opens setup net next i opener peer protocol) {j : Nat}
    (hne : j + 1 ≠ i) : UpperIdle (net.link (j + 1)) (next.link (j + 1)) :=
  .of_eq (h.link (j + 1) hne)

theorem Opens.relay_eq (h : Opens setup net next i opener peer protocol) {relay : RelayNode}
    (hrelay : next.node i = .relay relay) : relay = { self := peer, peer := opener } := by
  rw [h.place] at hrelay
  split at hrelay
  · exact (Node.relay.inj hrelay).symm
  · cases hrelay

end Opens

/-- The dialer opens its stream to the first place. -/
theorem opens_dialer (setup : Setup) (net : Net) (peer : PeerId) (task : DialTask) :
    Opens setup net
      { net.spawn setup 0 setup.dialerPeer peer (jumpProtocol setup.nspace) with dialer := task }
      0 setup.dialerPeer peer (jumpProtocol setup.nspace) where
  fresh := Net.spawn_link_self setup net 0 setup.dialerPeer peer (jumpProtocol setup.nspace)
  place := Net.spawn_node_self setup net 0 setup.dialerPeer peer (jumpProtocol setup.nspace)
  link _ hk := Net.spawn_link_ne _ _ _ _ _ hk
  node _ hk _ := Net.spawn_node_ne _ _ _ _ _ hk
  listenerSent := rfl

/-- Relay `i` opens its outbound stream. -/
theorem opens_relay (setup : Setup) (net : Net) (i : Nat) (self peer : PeerId)
    (protocol : StreamProtocol) (moved : RelayNode) :
    Opens setup net ((net.spawn setup (i + 1) self peer protocol).setNode i (.relay moved))
      (i + 1) self peer protocol where
  fresh := Net.spawn_link_self ..
  place := (Net.setNode_node_ne _ _ (Nat.succ_ne_self i)).trans (Net.spawn_node_self ..)
  link k hk := Net.spawn_link_ne _ _ _ _ _ hk
  node k hk hk' := by
    rw [Net.setNode_node_ne _ _ fun h => hk' (congrArg Nat.succ h), Net.spawn_node_ne _ _ _ _ _ hk]
  listenerSent := rfl

/-! ## A relay's step -/

theorem relayStep_cases {setup : Setup} {net next : Net} {i : Nat} {outcome : Outcome}
    (h : net.relayStep setup i outcome = some next) :
    ∃ relay op event history behind task,
      net.node i = .relay relay ∧ relay.task.op setup.nspace = some op ∧
      net.perform setup i relay outcome op = some (event, history, behind) ∧
      relay.task.resume setup.text relay.peer event = some task ∧
      next = behind.setNode i (.relay { history with task := task }) := by
  unfold Net.relayStep at h
  split at h
  · rename_i relay hnode
    split at h
    · cases h
    · rename_i op hop
      split at h
      · cases h
      · rename_i event history behind hperform
        split at h
        · cases h
        · rename_i task hresume
          exact ⟨relay, op, event, history, behind, task, hnode, hop, hperform, hresume,
            (Option.some.inj h).symm⟩
  · cases h

/-- A relay's step, where it is known which relay runs at place `i`, and on which operation it is
suspended. -/
theorem relayStep_of_task {setup : Setup} {net next : Net} {i : Nat} {relay : RelayNode}
    {outcome : Outcome} {awaiting : JumpTask} {op : JumpOp} (hnode : net.node i = .relay relay)
    (htask : relay.task = awaiting) (hop : awaiting.op setup.nspace = some op)
    (h : net.relayStep setup i outcome = some next) :
    ∃ event history behind task,
      net.perform setup i relay outcome op = some (event, history, behind) ∧
      awaiting.resume setup.text relay.peer event = some task ∧
      next = behind.setNode i (.relay { history with task := task }) := by
  obtain ⟨relay', op', event, history, behind, task, hnode', hop', hperform, hresume, hnext⟩ :=
    relayStep_cases h
  obtain rfl : relay' = relay := Node.relay.inj (hnode'.symm.trans hnode)
  rw [htask] at hop' hresume
  obtain rfl : op' = op := Option.some.inj (hop'.symm.trans hop)
  exact ⟨event, history, behind, task, hperform, hresume, hnext⟩

/-- A relay that has taken a hop off its chain and is on its way to it. -/
inductive Reaching (peer : PeerId) (remaining : List String) : JumpTask → Prop where
  | dialing (addr : Multiaddr) : Reaching peer remaining (.dialing addr peer remaining)
  | opening (attempt : Nat) : Reaching peer remaining (.opening peer remaining attempt)
  | sleeping (attempt : Nat) : Reaching peer remaining (.sleeping peer remaining attempt)

/-- What a step of a relay on its way to the next hop comes to.  Until the stream is open, only
its task changes. -/
inductive ReachingStep (setup : Setup) (net : Net) (i : Nat) (relay : RelayNode) (peer : PeerId)
    (remaining : List String) (outcome : Outcome) : Net → Prop where
  | opened {attempt : Nat} (htask : relay.task = .opening peer remaining attempt) :
      ReachingStep setup net i relay peer remaining outcome
        ((net.spawn setup (i + 1) relay.self peer
          (JumpTask.outboundProtocol setup.nspace remaining)).setNode i
            (.relay { relay with
              opened := some (peer, JumpTask.outboundProtocol setup.nspace remaining)
              task := JumpTask.afterOpen remaining }))
  | onward {task : JumpTask} (htask : Reaching peer remaining task) :
      ReachingStep setup net i relay peer remaining outcome
        (net.setNode i (.relay { relay with task := task }))
  | closed {addr : Multiaddr} {err : String} {report : Report}
      (htask : relay.task = .dialing addr peer remaining) (hrefused : outcome = .refused err) :
      ReachingStep setup net i relay peer remaining outcome
        (net.setNode i (.relay { relay with task := .ended (.error report) }))
  | failed {attempt : Nat} {err message : String} {report : Report}
      (htask : relay.task = .opening peer remaining attempt) (hrefused : outcome = .refused err)
      (hmessage : message = s!"failed to connect to hop {setup.text.printPeerId peer}: {err}") :
      ReachingStep setup net i relay peer remaining outcome
        (net.setNode i (.relay { relay with task := .replying message report }))

theorem reachingStep_of_relayStep {setup : Setup} {net next : Net} {i : Nat} {relay : RelayNode}
    {outcome : Outcome} {awaiting : JumpTask} {peer : PeerId} {remaining : List String}
    (hnode : net.node i = .relay relay) (htask : relay.task = awaiting)
    (hreaching : Reaching peer remaining awaiting)
    (h : net.relayStep setup i outcome = some next) :
    ReachingStep setup net i relay peer remaining outcome next := by
  cases hreaching with
  | dialing addr =>
      obtain ⟨event, history, behind, task, hperform, hresume, rfl⟩ :=
        relayStep_of_task hnode htask rfl h
      cases outcome <;>
        simp only [Net.perform, Option.some.injEq, Prod.mk.injEq, reduceCtorEq] at hperform <;>
        obtain ⟨rfl, rfl, rfl⟩ := hperform <;> obtain rfl := Option.some.inj hresume
      case proceed => exact .onward (.opening 0)
      case refused err => exact .closed htask rfl
  | opening attempt =>
      obtain ⟨event, history, behind, task, hperform, hresume, rfl⟩ :=
        relayStep_of_task hnode htask rfl h
      cases outcome <;>
        simp only [Net.perform, Option.some.injEq, Prod.mk.injEq, reduceCtorEq] at hperform <;>
        obtain ⟨rfl, rfl, rfl⟩ := hperform
      case proceed =>
        obtain rfl := Option.some.inj hresume
        exact .opened htask
      case refused err =>
        simp only [JumpTask.resume] at hresume
        split at hresume <;> obtain rfl := Option.some.inj hresume
        · exact .onward (.sleeping attempt)
        · exact .failed htask rfl rfl
  | sleeping attempt =>
      obtain ⟨event, history, behind, task, hperform, hresume, rfl⟩ :=
        relayStep_of_task hnode htask rfl h
      cases outcome <;>
        simp only [Net.perform, Option.some.injEq, Prod.mk.injEq, reduceCtorEq] at hperform
      obtain ⟨rfl, rfl, rfl⟩ := hperform
      obtain rfl := Option.some.inj hresume
      exact .onward (.opening (attempt + 1))

/-- A relay's step, from the operation and the code behind it. -/
theorem relayStep_of {setup : Setup} {net behind : Net} {i : Nat} {relay : RelayNode}
    {outcome : Outcome} {op : JumpOp} {task : JumpTask} (history : RelayNode) (event : JumpEvent)
    (hnode : net.node i = .relay relay) (hop : relay.task.op setup.nspace = some op)
    (hperform : net.perform setup i relay outcome op = some (event, history, behind))
    (hresume : relay.task.resume setup.text relay.peer event = some task) :
    (machine setup).step net (.relay i outcome) =
      some (behind.setNode i (.relay { history with task := task })) := by
  simp only [machine, Net.step, Net.relayStep, hnode, hop, hperform, hresume]

/-- Unless it opens a stream, an operation of relay `i` is framed by `Moves` and
leaves the history of opened streams alone. -/
theorem perform_moves {setup : Setup} {net behind : Net} {i : Nat} {relay history : RelayNode}
    {outcome : Outcome} {op : JumpOp} {event : JumpEvent}
    (h : net.perform setup i relay outcome op = some (event, history, behind)) :
    (Moves net behind i ∧ history.opened = relay.opened) ∨
      ∃ peer protocol, op = .openStream peer protocol ∧ event = .streamOpened (.ok ()) ∧
        history = { relay with opened := some (peer, protocol) } ∧
        behind = net.spawn setup (i + 1) relay.self peer protocol := by
  cases op with
  | readChain =>
      simp only [Net.perform, Option.map_eq_some_iff, Prod.mk.injEq] at h
      obtain ⟨⟨result, pipe⟩, hstep, -, rfl, rfl⟩ := h
      exact .inl ⟨.setDown pipe (readStep_sent hstep), rfl⟩
  | writeResult result =>
      simp only [Net.perform, Option.map_eq_some_iff, Prod.mk.injEq] at h
      obtain ⟨⟨done, pipe⟩, hstep, -, rfl, rfl⟩ := h
      exact .inl ⟨.setUp pipe (writeStep_cases hstep).1 (writeStep_extends hstep), rfl⟩
  | sendDial addr =>
      cases outcome <;> simp only [Net.perform, Option.some.injEq, Prod.mk.injEq, reduceCtorEq] at h
      all_goals
        obtain ⟨-, rfl, rfl⟩ := h
        exact .inl ⟨Moves.refl net i, rfl⟩
  | openStream peer protocol =>
      cases outcome <;> simp only [Net.perform, Option.some.injEq, Prod.mk.injEq, reduceCtorEq] at h
      · exact .inr ⟨peer, protocol, rfl, h.1.symm, h.2.1.symm, h.2.2.symm⟩
      · obtain ⟨-, rfl, rfl⟩ := h
        exact .inl ⟨Moves.refl net i, rfl⟩
  | sleep millis =>
      cases outcome <;> simp only [Net.perform, Option.some.injEq, Prod.mk.injEq, reduceCtorEq] at h
      obtain ⟨-, rfl, rfl⟩ := h
      exact .inl ⟨Moves.refl net i, rfl⟩
  | writeChain chain =>
      simp only [Net.perform, Option.map_eq_some_iff, Prod.mk.injEq] at h
      obtain ⟨⟨done, pipe⟩, hstep, -, rfl, rfl⟩ := h
      exact .inl ⟨.setDown_next pipe (writeStep_cases hstep).1 (writeStep_extends hstep), rfl⟩
  | readResult =>
      simp only [Net.perform, Option.map_eq_some_iff, Prod.mk.injEq] at h
      obtain ⟨⟨result, pipe⟩, hstep, -, rfl, rfl⟩ := h
      exact .inl ⟨.setUp_next pipe (readStep_sent hstep), rfl⟩
  | copyBidirectional => simp [Net.perform] at h

/-- An operation of a relay puts no payload on a stream at its source. -/
theorem perform_counts {setup : Setup} {net behind : Net} {i : Nat} {relay history : RelayNode}
    {outcome : Outcome} {op : JumpOp} {event : JumpEvent}
    (h : net.perform setup i relay outcome op = some (event, history, behind)) :
    behind.dialerSent = net.dialerSent ∧ behind.listenerSent = net.listenerSent := by
  cases op <;> simp only [Net.perform, Option.map_eq_some_iff, Prod.mk.injEq, reduceCtorEq] at h
  case readChain | writeResult | writeChain | readResult =>
    obtain ⟨⟨result, pipe⟩, -, -, -, rfl⟩ := h
    exact ⟨rfl, rfl⟩
  all_goals
    cases outcome <;> simp only [Option.some.injEq, Prod.mk.injEq, reduceCtorEq] at h
    all_goals
      obtain ⟨-, -, rfl⟩ := h
      exact ⟨rfl, rfl⟩

/-- Moving payload works on the streams and the buffers of a bridging relay, and
at most ends its task. -/
theorem copyStep_cases {net next : Net} {i : Nat} {move : Net.CopyMove}
    (h : net.copyStep i move = some next) :
    ∃ relay behind moved, net.node i = .relay relay ∧ relay.task = .bridging ∧
      Moves net behind i ∧ next = behind.setNode i (.relay moved) ∧
      moved.self = relay.self ∧ moved.peer = relay.peer ∧
      moved.received = relay.received ∧ moved.opened = relay.opened ∧
      (moved.task = .bridging ∨ moved.task = .ended (.ok ())) := by
  unfold Net.copyStep at h
  split at h
  · rename_i relay hnode
    split at h
    · rename_i htask
      cases move with
      | readDown count =>
          simp only [Option.ite_none_right_eq_some, Option.some.injEq] at h
          obtain ⟨-, rfl⟩ := h
          exact ⟨relay, _, _, hnode, htask,
            .setDown ((net.link i).down.skip count) rfl, rfl, rfl, rfl, rfl, rfl,
            .inl htask⟩
      | writeDown count =>
          simp only [Option.ite_none_right_eq_some, Option.some.injEq] at h
          obtain ⟨-, rfl⟩ := h
          exact ⟨relay, _, _, hnode, htask,
            .setDown_next
              ((net.link (i + 1)).down.put (relay.downBuf.take count)) rfl
              (List.prefix_append ..), rfl, rfl, rfl, rfl, rfl, .inl htask⟩
      | readUp count =>
          simp only [Option.ite_none_right_eq_some, Option.some.injEq] at h
          obtain ⟨-, rfl⟩ := h
          exact ⟨relay, _, _, hnode, htask,
            .setUp_next ((net.link (i + 1)).up.skip count) rfl, rfl, rfl, rfl, rfl, rfl,
            .inl htask⟩
      | writeUp count =>
          simp only [Option.ite_none_right_eq_some, Option.some.injEq] at h
          obtain ⟨-, rfl⟩ := h
          exact ⟨relay, _, _, hnode, htask,
            .setUp ((net.link i).up.put (relay.upBuf.take count)) rfl
              (List.prefix_append ..), rfl, rfl, rfl, rfl, rfl, .inl htask⟩
      | finish =>
          exact ⟨relay, net, _, hnode, htask, Moves.refl net i, (Option.some.inj h).symm, rfl,
            rfl, rfl, rfl, .inr rfl⟩
    · cases h
  · cases h

/-! ## A step of the network -/

/-- What a step of the network is.  Beyond the three parts with a step function of their
own, the dialer copies at the upper end of the first stream, and the accepting peer at the
lower end of the last. -/
inductive Net.Move (setup : Setup) (net : Net) : Net.Label → Net → Prop where
  | dialer {outcome : Outcome} {next : Net} (h : net.dialerStep setup outcome = some next) :
      Move setup net (.dialer outcome) next
  | stdin {count : Nat} {pipe : Pipe} (hdialer : net.dialer = .jumpNetcat)
      (hpipe : pipe =
        (net.link 0).down.put ((setup.fromDialer.drop net.dialerSent).take count))
      (hlower : LowerIdle (net.link 0) ((net.setDown 0 pipe).link 0)) :
      Move setup net (.stdin count)
        { net.setDown 0 pipe with dialerSent := net.dialerSent + count }
  | stdout {count : Nat} {pipe : Pipe} (hdialer : net.dialer = .jumpNetcat)
      (hsent : pipe.sent = (net.link 0).up.sent)
      (hlower : LowerIdle (net.link 0) ((net.setUp 0 pipe).link 0)) :
      Move setup net (.stdout count) (net.setUp 0 pipe)
  | relay {i : Nat} {outcome : Outcome} {next : Net}
      (h : net.relayStep setup i outcome = some next) : Move setup net (.relay i outcome) next
  | copy {i : Nat} {move : Net.CopyMove} {next : Net} (h : net.copyStep i move = some next) :
      Move setup net (.copy i move) next
  | send {i count : Nat} {self : PeerId} {pipe : Pipe} (hnode : net.node i = .acceptor self)
      (hpipe : pipe =
        (net.link i).up.put ((setup.fromListener.drop net.listenerSent).take count))
      (hmoves : Moves net
        { net.setUp i pipe with listenerSent := net.listenerSent + count } i) :
      Move setup net (.send i count)
        { net.setUp i pipe with listenerSent := net.listenerSent + count }
  | receive {i count : Nat} {self : PeerId} {pipe : Pipe} (hnode : net.node i = .acceptor self)
      (hmoves : Moves net (net.setDown i pipe) i) :
      Move setup net (.receive i count) (net.setDown i pipe)

theorem move_of_step {setup : Setup} {net next : Net} {label : Net.Label}
    (h : net.step setup label = some next) : net.Move setup label next := by
  cases label with
  | dialer outcome => exact .dialer h
  | stdin count =>
      simp only [Net.step, Option.ite_none_right_eq_some, Option.some.injEq] at h
      obtain ⟨hdialer, rfl⟩ := h
      refine .stdin hdialer rfl ?_
      rw [Net.setDown_link_self]
      exact ⟨rfl, rfl, List.prefix_append _ _⟩
  | stdout count =>
      simp only [Net.step, Option.ite_none_right_eq_some, Option.some.injEq] at h
      obtain ⟨⟨hdialer, -⟩, rfl⟩ := h
      refine .stdout hdialer rfl ?_
      rw [Net.setUp_link_self]
      exact ⟨rfl, rfl, List.prefix_rfl⟩
  | relay i outcome => exact .relay h
  | copy i move => exact .copy h
  | send i count =>
      simp only [Net.step] at h
      split at h
      · rename_i self hnode
        obtain rfl := Option.some.inj h
        have hmoves : Moves net (net.setUp i _) i :=
          .setUp ((net.link i).up.put ((setup.fromListener.drop net.listenerSent).take count)) rfl
            (List.prefix_append _ _)
        exact .send hnode rfl
          ⟨hmoves.upper, hmoves.lower, hmoves.link, hmoves.node, hmoves.dialer, hmoves.answer⟩
      · cases h
  | receive i count =>
      simp only [Net.step] at h
      split at h
      · rename_i self hnode
        simp only [Option.ite_none_right_eq_some, Option.some.injEq] at h
        obtain ⟨-, rfl⟩ := h
        exact .receive hnode (.setDown ((net.link i).down.skip count) rfl)
      · cases h

end Sape.Chain
