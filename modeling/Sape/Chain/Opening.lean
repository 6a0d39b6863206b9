/-
  Chain/Opening.lean --- places come into being one after the other.

  A place is taken only once the relay above it has opened its outbound stream, and a
  relay that is still on its way to opening has nothing below it.
-/
import Sape.Chain.Preservation

set_option autoImplicit false

namespace Sape.Chain

open Sape.Foundation

/-- The awaits in front of the opened outbound stream. -/
def preOpen : JumpTask → Bool
  | .readingChain | .dialing _ _ _ | .opening _ _ _ | .sleeping _ _ _ => true
  | _ => false

/-- Who has opened an outbound stream, and what is below it. -/
structure OpenInv (net : Net) : Prop where
  unopened : ∀ {i relay}, net.node i = .relay relay → preOpen relay.task = true →
    relay.opened = none
  opener : ∀ {i}, net.node (i + 1) ≠ .absent →
    ∃ relay, net.node i = .relay relay ∧ relay.opened.isSome
  first : ∀ {peer hops}, net.dialer = .openingJump peer hops → net.node 0 = .absent

/-- Below a relay that is still on its way to opening there is nothing. -/
theorem OpenInv.absent {net : Net} (h : OpenInv net) {i : Nat} {relay : RelayNode}
    (hnode : net.node i = .relay relay) (hpre : preOpen relay.task = true) :
    net.node (i + 1) = .absent := by
  by_contra hsome
  obtain ⟨other, hother, hopened⟩ := h.opener hsome
  obtain rfl := Node.relay.inj (hnode.symm.trans hother)
  rw [h.unopened hnode hpre] at hopened
  cases hopened

/-- Below a place that is not taken there is nothing. -/
theorem OpenInv.absent_succ {net : Net} (h : OpenInv net) {i : Nat}
    (habsent : net.node i = .absent) : net.node (i + 1) = .absent := by
  by_contra hsome
  obtain ⟨other, hother, -⟩ := h.opener hsome
  rw [habsent] at hother
  cases hother

/-- A relay that moves without opening anything. -/
theorem OpenInv.of_relay {net next : Net} {i : Nat} {relay moved : RelayNode} (h : OpenInv net)
    (hnode : net.node i = .relay relay) (hmoved : next.node i = .relay moved)
    (hothers : ∀ j, j ≠ i → next.node j = net.node j) (hdialer : next.dialer = net.dialer)
    (hopened : moved.opened = relay.opened)
    (hpre : preOpen moved.task = true → preOpen relay.task = true) : OpenInv next where
  unopened {j other} hother htask := by
    by_cases hj : j = i
    · subst hj
      obtain rfl := Node.relay.inj (hmoved.symm.trans hother)
      rw [hopened]
      exact h.unopened hnode (hpre htask)
    · rw [hothers j hj] at hother
      exact h.unopened hother htask
  opener {j} hsome := by
    have hold : net.node (j + 1) ≠ .absent := by
      by_cases hj : j + 1 = i
      · rw [hj, hnode]
        exact Node.noConfusion
      · rwa [hothers (j + 1) hj] at hsome
    obtain ⟨other, hother, hopen⟩ := h.opener hold
    by_cases hj : j = i
    · subst hj
      obtain rfl := Node.relay.inj (hnode.symm.trans hother)
      exact ⟨moved, hmoved, by rw [hopened]; exact hopen⟩
    · exact ⟨other, by rw [hothers j hj]; exact hother, hopen⟩
  first hd := by
    have habsent := h.first (hdialer ▸ hd)
    have hzero : 0 ≠ i := by
      rintro rfl
      rw [hnode] at habsent
      cases habsent
    rw [hothers 0 hzero]
    exact habsent

/-- A place that comes into being, below a relay that has just opened its stream unless it
is the first. -/
theorem OpenInv.of_opens {setup : Setup} {net next : Net} {i : Nat} {opener peer : PeerId}
    {protocol : StreamProtocol} (h : OpenInv net)
    (hopens : Opens setup net next i opener peer protocol) (habsent : net.node i = .absent)
    (hopener : ∀ j, j + 1 = i → net.node j ≠ .absent ∧ ∃ moved, next.node j = .relay moved ∧
      moved.opened.isSome ∧ preOpen moved.task = false)
    (hfirst : ∀ {peer hops}, next.dialer = .openingJump peer hops → next.node 0 = .absent) :
    OpenInv next where
  unopened {j other} hother htask := by
    by_cases hj : j = i
    · subst hj
      rw [hopens.relay_eq hother]
    · by_cases hnext : j + 1 = i
      · obtain ⟨-, moved, hmoved, -, hpast⟩ := hopener j hnext
        obtain rfl := Node.relay.inj (hmoved.symm.trans hother)
        cases hpast.symm.trans htask
      · rw [hopens.node j hj hnext] at hother
        exact h.unopened hother htask
  opener {j} hsome := by
    by_cases hnext : j + 1 = i
    · obtain ⟨-, moved, hmoved, hopened, -⟩ := hopener j hnext
      exact ⟨moved, hmoved, hopened⟩
    · by_cases hj : j = i
      · subst hj
        rw [hopens.node (j + 1) hnext (by omega)] at hsome
        exact absurd (h.absent_succ habsent) hsome
      · have hold : net.node (j + 1) ≠ .absent := by
          by_cases hprev : j + 1 + 1 = i
          · exact (hopener (j + 1) hprev).1
          · rwa [hopens.node (j + 1) hnext hprev] at hsome
        rw [hopens.node j hj hnext]
        exact h.opener hold
  first := hfirst

/-- No await in front of the opened stream is reached from one behind it. -/
theorem preOpen_of_resume {text : Libp2pText} {peer : PeerId} {task next : JumpTask}
    {event : JumpEvent} (h : task.resume text peer event = some next)
    (hpre : preOpen next = true) : preOpen task = true := by
  cases task
  case readingChain | dialing | opening | sleeping => rfl
  case replying =>
    match event, h with
    | .resultWritten (.ok ()), h => obtain rfl := Option.some.inj h; cases hpre
    | .resultWritten (.error err), h => obtain rfl := Option.some.inj h; cases hpre
  case writingChain =>
    match event, h with
    | .chainWritten (.ok ()), h => obtain rfl := Option.some.inj h; cases hpre
    | .chainWritten (.error err), h => obtain rfl := Option.some.inj h; cases hpre
  case readingResult =>
    match event, h with
    | .resultRead (.ok .ok), h => obtain rfl := Option.some.inj h; cases hpre
    | .resultRead (.ok (.error e)), h => obtain rfl := Option.some.inj h; cases hpre
    | .resultRead (.error err), h => obtain rfl := Option.some.inj h; cases hpre
  case writingOk =>
    match event, h with
    | .resultWritten (.ok ()), h => obtain rfl := Option.some.inj h; cases hpre
    | .resultWritten (.error err), h => obtain rfl := Option.some.inj h; cases hpre
  case bridging =>
    match event, h with
    | .copied, h => obtain rfl := Option.some.inj h; cases hpre
  case ended => cases h

theorem preOpen_afterOpen (remaining : List String) :
    preOpen (JumpTask.afterOpen remaining) = false := by
  unfold JumpTask.afterOpen
  split <;> rfl

theorem opening_of_op {nspace : String} {task : JumpTask} {peer : PeerId}
    {protocol : StreamProtocol} (h : task.op nspace = some (.openStream peer protocol)) :
    ∃ remaining attempt, task = .opening peer remaining attempt := by
  cases task <;> simp only [JumpTask.op, Option.some.injEq, reduceCtorEq] at h
  case opening nextPeer remaining attempt =>
    obtain ⟨rfl, -⟩ := JumpOp.openStream.inj h
    exact ⟨remaining, attempt, rfl⟩

theorem openInv_relayStep {setup : Setup} {net next : Net} {i : Nat} {outcome : Outcome}
    (hinv : OpenInv net) (h : net.relayStep setup i outcome = some next) : OpenInv next := by
  obtain ⟨relay, op, event, history, behind, task, hnode, hop, hperform, hresume, rfl⟩ :=
    relayStep_cases h
  obtain ⟨hmoves, hopened⟩ | ⟨peer, protocol, rfl, rfl, rfl, rfl⟩ := perform_moves hperform
  · refine hinv.of_relay hnode (Net.setNode_node_self ..) (fun j hj => ?_)
      hmoves.dialer hopened (preOpen_of_resume hresume)
    rw [Net.setNode_node_ne _ _ hj]
    exact hmoves.node j hj
  · obtain ⟨remaining, attempt, htask⟩ := opening_of_op hop
    rw [htask] at hresume
    obtain rfl := Option.some.inj hresume
    have hpre : preOpen relay.task = true := by rw [htask]; rfl
    have hopens := opens_relay setup net i relay.self peer protocol { relay with
      opened := some (peer, protocol)
      task := JumpTask.afterOpen remaining }
    refine hinv.of_opens hopens (hinv.absent hnode hpre) ?_ ?_
    · intro j hj
      obtain rfl : j = i := Nat.succ.inj hj
      exact ⟨by rw [hnode]; exact Node.noConfusion, _, Net.setNode_node_self .., rfl,
        preOpen_afterOpen remaining⟩
    · -- the dialer has opened its own stream before
      intro peer' hops hd
      have hzero := hinv.first hd
      have hne : 0 ≠ i := by
        rintro rfl
        rw [hnode] at hzero
        cases hzero
      exact (hopens.node 0 (by omega) (by omega)).trans hzero

/-- The dialer opens one stream, the one to the first relay. -/
theorem dialerStep_node {setup : Setup} {net next : Net} {outcome : Outcome}
    (hinv : Inv setup net) (h : net.dialerStep setup outcome = some next) :
    (next.node = net.node ∧ ∀ peer hops, next.dialer ≠ .openingJump peer hops) ∨
      ∃ peer hops, net.dialer = .openingJump peer hops ∧
        next = { net.spawn setup 0 setup.dialerPeer peer (jumpProtocol setup.nspace) with
          dialer := .writingChain hops } := by
  cases dialerMove_of_step hinv h with
  | opened hdialer => exact .inr ⟨_, _, hdialer, rfl⟩
  | refused hdialer => exact .inl ⟨rfl, fun peer hops heq => by cases heq⟩
  | chainWritten hdialer hstep htask =>
      refine .inl ⟨rfl, fun peer hops => ?_⟩
      obtain ⟨-, rfl⟩ | ⟨err, result, -, rfl⟩ := htask
      · exact fun heq => by cases heq
      · exact fun heq => by cases heq
  | resultRead hdialer hstep htask =>
      refine .inl ⟨rfl, fun peer hops => ?_⟩
      obtain rfl | ⟨result, rfl⟩ := htask
      · cases parseDialMode setup.opt <;> simp [DialTask.afterJumpOk, DialTask.bail]
      · exact fun heq => by cases heq
  | requestWritten hdialer hstep htask =>
      refine .inl ⟨rfl, fun peer hops => ?_⟩
      obtain ⟨-, rfl⟩ | ⟨err, result, -, rfl⟩ := htask
      · exact fun heq => by cases heq
      · exact fun heq => by cases heq
  | closed hdialer => exact .inl ⟨rfl, fun peer hops heq => by cases heq⟩

theorem OpenInv.congr {net next : Net} (h : OpenInv net) (hnode : next.node = net.node)
    (hfirst : ∀ {peer hops}, next.dialer = .openingJump peer hops → next.node 0 = .absent) :
    OpenInv next := by
  refine ⟨fun hrelay hpre => ?_, fun hsome => ?_, hfirst⟩
  · rw [hnode] at hrelay
    exact h.unopened hrelay hpre
  · rw [hnode] at hsome ⊢
    exact h.opener hsome

/-- The first place comes into being. -/
theorem openInv_dialerSpawn {setup : Setup} {net : Net} {hops : List String} {peer : PeerId}
    (h : OpenInv net) (habsent : net.node 0 = .absent) :
    OpenInv { net.spawn setup 0 setup.dialerPeer peer (jumpProtocol setup.nspace) with
      dialer := .writingChain hops } :=
  h.of_opens (opens_dialer setup net peer (.writingChain hops)) habsent
    (fun j hj => (by cases hj)) (fun hd => by cases hd)

theorem openInv_step {setup : Setup} {net next : Net} {label : Net.Label} (hinv : Inv setup net)
    (hopen : OpenInv net) (h : net.step setup label = some next) : OpenInv next := by
  cases move_of_step h with
  | dialer h =>
      obtain ⟨hnode, hnot⟩ | ⟨peer, hops, hd, rfl⟩ := dialerStep_node hinv h
      · exact hopen.congr hnode fun hd => absurd hd (hnot _ _)
      · exact openInv_dialerSpawn hopen (hopen.first hd)
  | relay h => exact openInv_relayStep hopen h
  | copy h =>
      obtain ⟨relay, behind, moved, hnode, htask, hmoves, rfl, -, -, -, hopened, hmoved⟩ :=
        copyStep_cases h
      refine hopen.of_relay hnode (Net.setNode_node_self ..) (fun j hj => ?_) hmoves.dialer hopened
        (by obtain heq | heq := hmoved <;> simp [heq, preOpen])
      rw [Net.setNode_node_ne _ _ hj]
      exact hmoves.node j hj
  | stdin | stdout | send | receive => exact hopen.congr rfl hopen.first

theorem openInv_start (setup : Setup) : OpenInv (machine setup).start :=
  ⟨fun h => (by cases h), fun h => absurd rfl h, fun _ => rfl⟩

end Sape.Chain
