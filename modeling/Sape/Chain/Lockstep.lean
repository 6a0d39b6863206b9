/-
  Chain/Lockstep.lean --- a chain does not notice what its payload is.

  Two chains that differ in their payload alone, with payloads of the same lengths,
  run the same labels side by side.  All along, their streams have the same lengths
  and agree on their heads; so every frame that is read, and with it every decision,
  is the same in both.

  WHAT IS PROVED.

      step_alike          a step of one chain is a step of the other
      alike_of_reaches    and so is a run
-/
import Sape.Chain.Conveyance

set_option autoImplicit false

namespace Sape.Chain

open Sape.Foundation

/-- The same chain around another payload. -/
def Setup.withPayload (setup : Setup) (fromDialer fromListener : Bytes) : Setup :=
  { setup with fromDialer := fromDialer, fromListener := fromListener }

/-! ## Pipes -/

/-- Two pipes with the same counts, which are the same or share a head. -/
structure Alike (head : Bytes) (pipe other : Pipe) : Prop where
  taken : other.taken = pipe.taken
  length : other.sent.length = pipe.sent.length
  sent : other.sent = pipe.sent ∨ head <+: pipe.sent ∧ head <+: other.sent

theorem Alike.refl (head : Bytes) (pipe : Pipe) : Alike head pipe pipe := ⟨rfl, rfl, .inl rfl⟩

theorem Alike.unread_length {head : Bytes} {pipe other : Pipe} (h : Alike head pipe other) :
    other.unread.length = pipe.unread.length := by
  simp only [Pipe.unread, List.length_drop, h.taken, h.length]

theorem Alike.skip {head : Bytes} {pipe other : Pipe} (h : Alike head pipe other) (count : Nat) :
    Alike head (pipe.skip count) (other.skip count) :=
  ⟨congrArg (· + count) h.taken, h.length, h.sent⟩

theorem Alike.put {head : Bytes} {pipe other : Pipe} (h : Alike head pipe other)
    (bytes : Bytes) : Alike head (pipe.put bytes) (other.put bytes) := by
  refine ⟨h.taken, by simp [h.length], ?_⟩
  obtain heq | ⟨hpipe, hother⟩ := h.sent
  · exact .inl (congrArg (· ++ bytes) heq)
  · exact .inr ⟨hpipe.trans (List.prefix_append _ _), hother.trans (List.prefix_append _ _)⟩

/-- Behind the head, any bytes of the same length. -/
theorem Alike.put_payload {head : Bytes} {pipe other : Pipe} (h : Alike head pipe other)
    (hpipe : head <+: pipe.sent) (hother : head <+: other.sent) {bytes otherBytes : Bytes}
    (hlen : otherBytes.length = bytes.length) :
    Alike head (pipe.put bytes) (other.put otherBytes) :=
  ⟨h.taken, by simp [h.length, hlen],
    .inr ⟨hpipe.trans (List.prefix_append _ _), hother.trans (List.prefix_append _ _)⟩⟩

/-- A head that settles what a frame read returns. -/
def Front {α : Type} (read : Bytes → Except IoError α × Bytes) (head : Bytes) : Prop :=
  ∃ result cut, result ≠ .error .unexpectedEof ∧
    ∀ rest, read (head ++ rest) = (result, cut ++ rest)

/-- Nothing having been taken, both readers wait, or both read the same frame. -/
theorem readFrame_alike {α : Type} {read : Bytes → Except IoError α × Bytes} {head : Bytes}
    {pipe other : Pipe} (halike : Alike head pipe other) (htaken : pipe.taken = 0)
    (hfront : other.sent = pipe.sent ∨ Front read head) :
    (pipe.readFrame read = none ∧ other.readFrame read = none) ∨
      ∃ result next otherNext, pipe.readFrame read = some (result, next) ∧
        other.readFrame read = some (result, otherNext) ∧ Alike head next otherNext := by
  have hsame : other.sent = pipe.sent ∨ Front read head ∧ head <+: pipe.sent ∧
      head <+: other.sent := by
    obtain heq | hfront := hfront
    · exact .inl heq
    · exact halike.sent.imp id fun hheads => ⟨hfront, hheads⟩
  obtain heq | ⟨⟨result, cut, hne, hread⟩, ⟨rest, hrest⟩, ⟨otherRest, hotherRest⟩⟩ := hsame
  · have hpipe : other = pipe := by
      obtain ⟨sent, taken⟩ := other
      obtain rfl : sent = pipe.sent := heq
      obtain rfl : taken = pipe.taken := halike.taken
      rfl
    rw [hpipe]
    cases hframe : pipe.readFrame read with
    | none => exact .inl ⟨rfl, rfl⟩
    | some found => exact .inr ⟨found.1, found.2, found.2, rfl, rfl, Alike.refl _ _⟩
  · have hunread : read pipe.unread = (result, cut ++ rest) := by
      rw [Pipe.unread, htaken, List.drop_zero, ← hrest, hread]
    have hotherUnread : read other.unread = (result, cut ++ otherRest) := by
      rw [Pipe.unread, halike.taken, htaken, List.drop_zero, ← hotherRest, hread]
    have hrests : otherRest.length = rest.length := by
      have hlen := halike.length
      rw [← hrest, ← hotherRest, List.length_append, List.length_append] at hlen
      omega
    refine .inr ⟨result, _, _, Pipe.readFrame_of_read hunread hne,
      Pipe.readFrame_of_read hotherUnread hne, ⟨?_, halike.length, halike.sent⟩⟩
    simp only [halike.length, List.length_append, hrests]

theorem readStep_alike {α : Type} {read : Bytes → Except IoError α × Bytes} {head : Bytes}
    {pipe other next : Pipe} {gone : Bool} {outcome : Outcome} {result : Except IoError α}
    (halike : Alike head pipe other) (htaken : pipe.taken = 0)
    (hfront : other.sent = pipe.sent ∨ Front read head)
    (h : readStep read pipe gone outcome = some (result, next)) :
    ∃ otherNext, readStep read other gone outcome = some (result, otherNext) ∧
      Alike head next otherNext := by
  have hframe := readFrame_alike halike htaken hfront
  cases outcome with
  | proceed =>
      obtain ⟨hnone, -⟩ | ⟨result', next', otherNext, hpipe, hother, hnext⟩ := hframe
      · simp only [readStep, hnone, reduceCtorEq] at h
      · simp only [readStep, hpipe, Option.some.injEq, Prod.mk.injEq] at h
        obtain ⟨rfl, rfl⟩ := h
        exact ⟨otherNext, hother, hnext⟩
  | eof =>
      simp only [readStep, Option.ite_none_right_eq_some, Option.some.injEq, Prod.mk.injEq] at h ⊢
      obtain ⟨hgone, rfl, rfl⟩ := h
      obtain ⟨hnone, hotherNone⟩ | ⟨result', next', otherNext, hpipe, -, -⟩ := hframe
      · rw [hnone] at hgone
        exact ⟨other, ⟨by rw [hotherNone]; exact hgone, rfl, rfl⟩, halike⟩
      · simp [hpipe] at hgone
  | broken cut err =>
      simp only [readStep, Option.some.injEq, Prod.mk.injEq] at h ⊢
      obtain ⟨rfl, rfl⟩ := h
      exact ⟨other, ⟨rfl, rfl⟩, halike⟩
  | refused err => simp [readStep] at h

theorem writeStep_alike {written : Except IoError Bytes} {head : Bytes}
    {pipe other next : Pipe} {outcome : Outcome} {done : Except IoError Unit}
    (halike : Alike head pipe other) (h : writeStep written pipe outcome = some (done, next)) :
    ∃ otherNext, writeStep written other outcome = some (done, otherNext) ∧
      Alike head next otherNext := by
  cases outcome with
  | proceed =>
      cases written with
      | error err =>
          simp only [writeStep, Option.some.injEq, Prod.mk.injEq] at h ⊢
          obtain ⟨rfl, rfl⟩ := h
          exact ⟨other, ⟨rfl, rfl⟩, halike⟩
      | ok bytes =>
          simp only [writeStep, Option.some.injEq, Prod.mk.injEq] at h ⊢
          obtain ⟨rfl, rfl⟩ := h
          exact ⟨_, ⟨rfl, rfl⟩, halike.put bytes⟩
  | broken cut err =>
      cases written with
      | error err' => simp [writeStep] at h
      | ok bytes =>
          simp only [writeStep, Option.some.injEq, Prod.mk.injEq] at h ⊢
          obtain ⟨rfl, rfl⟩ := h
          exact ⟨_, ⟨rfl, rfl⟩, halike.put (bytes.take cut)⟩
  | eof => simp [writeStep] at h
  | refused err => simp [writeStep] at h

/-! ## Chains -/

/-- Two nodes in the same state, with buffers of the same lengths. -/
def NodeAlike (node other : Node) : Prop :=
  match node with
  | .relay relay => ∃ downBuf upBuf,
      other = .relay { relay with downBuf := downBuf, upBuf := upBuf } ∧
        downBuf.length = relay.downBuf.length ∧ upBuf.length = relay.upBuf.length
  | node => other = node

/-- Two chains that differ at most in payload. -/
structure NetAlike (setup : Setup) (net other : Net) : Prop where
  dialer : other.dialer = net.dialer
  answer : other.answer = net.answer
  dialerSent : other.dialerSent = net.dialerSent
  listenerSent : other.listenerSent = net.listenerSent
  node : ∀ i, NodeAlike (net.node i) (other.node i)
  down : ∀ i, Alike (headDown setup i) (net.link i).down (other.link i).down
  up : ∀ i, Alike (headUp setup i) (net.link i).up (other.link i).up

theorem NetAlike.relay {setup : Setup} {net other : Net} (h : NetAlike setup net other)
    {i : Nat} {relay : RelayNode} (hnode : net.node i = .relay relay) :
    ∃ downBuf upBuf,
      other.node i = .relay { relay with downBuf := downBuf, upBuf := upBuf } ∧
        downBuf.length = relay.downBuf.length ∧ upBuf.length = relay.upBuf.length := by
  have hi := h.node i
  rwa [hnode] at hi

theorem NetAlike.acceptor {setup : Setup} {net other : Net} (h : NetAlike setup net other)
    {i : Nat} {self : PeerId} (hnode : net.node i = .acceptor self) :
    other.node i = .acceptor self := by
  have hi := h.node i
  rwa [hnode] at hi

theorem NetAlike.lowerGone {setup : Setup} {net other : Net} (h : NetAlike setup net other)
    (i : Nat) : other.lowerGone i = net.lowerGone i := by
  have hi := h.node i
  unfold Net.lowerGone
  cases hnode : net.node i with
  | absent | acceptor => rw [hnode] at hi; rw [hi]
  | relay relay =>
      obtain ⟨downBuf, upBuf, hother, -, -⟩ := h.relay hnode
      rw [hother]

theorem NetAlike.upperGone {setup : Setup} {net other : Net} (h : NetAlike setup net other)
    (i : Nat) : other.upperGone i = net.upperGone i := by
  cases i with
  | zero => simp only [Net.upperGone, h.dialer]
  | succ i => exact h.lowerGone i

theorem NetAlike.setDown {setup : Setup} {net other : Net} (h : NetAlike setup net other)
    {i : Nat} {pipe otherPipe : Pipe} (hpipe : Alike (headDown setup i) pipe otherPipe) :
    NetAlike setup (net.setDown i pipe) (other.setDown i otherPipe) := by
  refine ⟨h.dialer, h.answer, h.dialerSent, h.listenerSent, h.node, fun j => ?_, fun j => ?_⟩
  all_goals
    by_cases hj : j = i
    · subst hj
      simp only [Net.setDown_link_self]
      first | exact hpipe | exact h.up j
    · simp only [Net.setDown_link_ne _ _ hj]
      first | exact h.down j | exact h.up j

theorem NetAlike.setUp {setup : Setup} {net other : Net} (h : NetAlike setup net other)
    {i : Nat} {pipe otherPipe : Pipe} (hpipe : Alike (headUp setup i) pipe otherPipe) :
    NetAlike setup (net.setUp i pipe) (other.setUp i otherPipe) := by
  refine ⟨h.dialer, h.answer, h.dialerSent, h.listenerSent, h.node, fun j => ?_, fun j => ?_⟩
  all_goals
    by_cases hj : j = i
    · subst hj
      simp only [Net.setUp_link_self]
      first | exact hpipe | exact h.down j
    · simp only [Net.setUp_link_ne _ _ hj]
      first | exact h.down j | exact h.up j

theorem NetAlike.setNode {setup : Setup} {net other : Net} (h : NetAlike setup net other)
    {i : Nat} {node otherNode : Node} (hnode : NodeAlike node otherNode) :
    NetAlike setup (net.setNode i node) (other.setNode i otherNode) := by
  refine ⟨h.dialer, h.answer, h.dialerSent, h.listenerSent, fun j => ?_, h.down, h.up⟩
  by_cases hj : j = i
  · subst hj
    rwa [Net.setNode_node_self, Net.setNode_node_self]
  · rw [Net.setNode_node_ne _ _ hj, Net.setNode_node_ne _ _ hj]
    exact h.node j

theorem NodeAlike.refl (node : Node) : NodeAlike node node := by
  cases node with
  | relay relay => exact ⟨relay.downBuf, relay.upBuf, rfl, rfl, rfl⟩
  | _ => rfl

theorem NetAlike.spawn {setup : Setup} {net other : Net} (h : NetAlike setup net other)
    (fromDialer fromListener : Bytes) (i : Nat) (opener self : PeerId)
    (protocol : StreamProtocol) :
    NetAlike setup (net.spawn setup i opener self protocol)
      (other.spawn (setup.withPayload fromDialer fromListener) i opener self protocol) := by
  refine ⟨h.dialer, h.answer, h.dialerSent, h.listenerSent, fun j => ?_, fun j => ?_, fun j => ?_⟩
  all_goals by_cases hj : j = i
  · subst hj
    rw [Net.spawn_node_self, Net.spawn_node_self]
    exact NodeAlike.refl _
  · rw [Net.spawn_node_ne _ _ _ _ _ hj, Net.spawn_node_ne _ _ _ _ _ hj]
    exact h.node j
  · subst hj
    rw [Net.spawn_link_self, Net.spawn_link_self]
    exact Alike.refl _ _
  · rw [Net.spawn_link_ne _ _ _ _ _ hj, Net.spawn_link_ne _ _ _ _ _ hj]
    exact h.down j
  · subst hj
    rw [Net.spawn_link_self, Net.spawn_link_self]
    exact Alike.refl _ _
  · rw [Net.spawn_link_ne _ _ _ _ _ hj, Net.spawn_link_ne _ _ _ _ _ hj]
    exact h.up j

/-! ## Heads on the streams -/

/-- A chain that has been sent begins with its head. -/
theorem ChainSent.head {setup : Setup} {net : Net} {i : Nat} (h : ChainSent setup net i)
    (hplace : i = 0 ∨ i < setup.hops.length) : headDown setup i <+: (net.link i).down.sent := by
  obtain ⟨written, hwrite, hpre⟩ := h
  rwa [headDown_of_write hplace hwrite]

theorem Reported.head {setup : Setup} {net : Net} {i : Nat} (h : Reported net i)
    (hplace : i = 0 ∨ i < setup.hops.length) : headUp setup i <+: (net.link i).up.sent := by
  obtain ⟨written, hwrite, hpre⟩ := h
  rw [headUp_of_place hplace, Except.ok.inj (writeJumpResult_ok.symm.trans hwrite)]
  exact hpre

/-- What a fed relay is to read is settled by the head, if anything has been sent. -/
theorem Fed.settled {setup : Setup} {net other : Net} {i : Nat} (h : Fed setup net i)
    (hplace : i = 0 ∨ i < setup.hops.length)
    (halike : Alike (headDown setup i) (net.link i).down (other.link i).down) :
    (other.link i).down.sent = (net.link i).down.sent ∨
      Front readJumpChain (headDown setup i) := by
  obtain hnil | ⟨written, hwrite, -⟩ := h
  · have hlen := halike.length
    rw [hnil, List.length_nil, List.length_eq_zero_iff] at hlen
    exact .inl (hlen.trans hnil.symm)
  · have hfits : JumpChain.postcard.Fits ⟨setup.hops.drop i⟩ :=
      JumpChain.postcard_fits (Nat.lt_trans (Frame.write_ok hwrite).1 (by decide))
    rw [headDown_of_write hplace hwrite]
    exact .inr (Frame.read_front hfits (fun _ heq => by cases heq) hwrite)

theorem front_headUp {setup : Setup} {i : Nat} (hplace : i = 0 ∨ i < setup.hops.length) :
    Front readJumpResult (headUp setup i) := by
  rw [headUp_of_place hplace]
  exact Frame.read_front (JumpResult.postcard_fits (by decide)) (fun _ heq => by cases heq)
    writeJumpResult_ok

/-! ## Relay steps -/

/-- What an operation comes back with does not depend on the payload. -/
theorem perform_alike {setup : Setup} {net other behind : Net} {i : Nat}
    {relay history : RelayNode} {outcome : Outcome} {op : JumpOp} {event : JumpEvent}
    (downBuf upBuf fromDialer fromListener : Bytes) (halike : NetAlike setup net other)
    (hchain : op = .readChain → (net.link i).down.taken = 0 ∧
      ((other.link i).down.sent = (net.link i).down.sent ∨
        Front readJumpChain (headDown setup i)))
    (hresult : op = .readResult → (net.link (i + 1)).up.taken = 0 ∧ i + 1 < setup.hops.length)
    (h : net.perform setup i relay outcome op = some (event, history, behind)) :
    ∃ otherBehind,
      other.perform (setup.withPayload fromDialer fromListener) i
          { relay with downBuf := downBuf, upBuf := upBuf } outcome op =
        some (event, { history with downBuf := downBuf, upBuf := upBuf }, otherBehind) ∧
      NetAlike setup behind otherBehind ∧
      history.downBuf = relay.downBuf ∧ history.upBuf = relay.upBuf := by
  cases op with
  | readChain =>
      obtain ⟨htaken, hfront⟩ := hchain rfl
      simp only [Net.perform, Option.map_eq_some_iff, Prod.mk.injEq] at h
      obtain ⟨⟨result, pipe⟩, hstep, rfl, rfl, rfl⟩ := h
      obtain ⟨otherPipe, hother, hpipe⟩ := readStep_alike (halike.down i) htaken hfront hstep
      refine ⟨other.setDown i otherPipe, ?_, halike.setDown hpipe, rfl, rfl⟩
      simp only [Net.perform, halike.upperGone, hother, Option.map_some]
  | writeResult result =>
      simp only [Net.perform, Option.map_eq_some_iff, Prod.mk.injEq] at h
      obtain ⟨⟨done, pipe⟩, hstep, rfl, rfl, rfl⟩ := h
      obtain ⟨otherPipe, hother, hpipe⟩ := writeStep_alike (halike.up i) hstep
      refine ⟨other.setUp i otherPipe, ?_, halike.setUp hpipe, rfl, rfl⟩
      simp only [Net.perform, hother, Option.map_some]
  | sendDial addr =>
      cases outcome <;>
        simp only [Net.perform, Option.some.injEq, Prod.mk.injEq, reduceCtorEq] at h <;>
        obtain ⟨rfl, rfl, rfl⟩ := h <;> exact ⟨other, rfl, halike, rfl, rfl⟩
  | openStream peer protocol =>
      cases outcome <;>
        simp only [Net.perform, Option.some.injEq, Prod.mk.injEq, reduceCtorEq] at h <;>
        obtain ⟨rfl, rfl, rfl⟩ := h
      · exact ⟨_, rfl, halike.spawn fromDialer fromListener (i + 1) relay.self peer protocol,
          rfl, rfl⟩
      · exact ⟨other, rfl, halike, rfl, rfl⟩
  | sleep millis =>
      cases outcome <;>
        simp only [Net.perform, Option.some.injEq, Prod.mk.injEq, reduceCtorEq] at h
      obtain ⟨rfl, rfl, rfl⟩ := h
      exact ⟨other, rfl, halike, rfl, rfl⟩
  | writeChain chain =>
      simp only [Net.perform, Option.map_eq_some_iff, Prod.mk.injEq] at h
      obtain ⟨⟨done, pipe⟩, hstep, rfl, rfl, rfl⟩ := h
      obtain ⟨otherPipe, hother, hpipe⟩ := writeStep_alike (halike.down (i + 1)) hstep
      refine ⟨other.setDown (i + 1) otherPipe, ?_, halike.setDown hpipe, rfl, rfl⟩
      simp only [Net.perform, hother, Option.map_some]
  | readResult =>
      obtain ⟨htaken, hlt⟩ := hresult rfl
      simp only [Net.perform, Option.map_eq_some_iff, Prod.mk.injEq] at h
      obtain ⟨⟨result, pipe⟩, hstep, rfl, rfl, rfl⟩ := h
      obtain ⟨otherPipe, hother, hpipe⟩ := readStep_alike (halike.up (i + 1)) htaken
        (.inr (front_headUp (.inr hlt))) hstep
      refine ⟨other.setUp (i + 1) otherPipe, ?_, halike.setUp hpipe, rfl, rfl⟩
      simp only [Net.perform, halike.lowerGone, hother, Option.map_some]
  | copyBidirectional => simp [Net.perform] at h

theorem readingChain_of_op {nspace : String} {task : JumpTask}
    (h : task.op nspace = some .readChain) : task = .readingChain := by
  cases task <;> simp only [JumpTask.op, Option.some.injEq, reduceCtorEq] at h
  rfl

theorem readingResult_of_op {nspace : String} {task : JumpTask}
    (h : task.op nspace = some .readResult) : task = .readingResult := by
  cases task <;> simp only [JumpTask.op, Option.some.injEq, reduceCtorEq] at h
  rfl

theorem relayStep_alike {setup : Setup} {net other next : Net} {i : Nat} {outcome : Outcome}
    (fromDialer fromListener : Bytes) (hinv : Inv setup net) (halike : NetAlike setup net other)
    (h : net.relayStep setup i outcome = some next) :
    ∃ otherNext,
      other.relayStep (setup.withPayload fromDialer fromListener) i outcome = some otherNext ∧
      NetAlike setup next otherNext := by
  obtain ⟨relay, op, event, history, behind, task, hnode, hop, hperform, hresume, rfl⟩ :=
    relayStep_cases h
  obtain ⟨downBuf, upBuf, hother, hdown, hup⟩ := halike.relay hnode
  have hrelay := hinv.relay hnode
  have htask := hrelay.task
  unfold TaskInv at htask
  obtain ⟨otherBehind, hperform', hbehind, hdownBuf, hupBuf⟩ :=
    perform_alike downBuf upBuf fromDialer fromListener halike
      (by
        rintro rfl
        rw [readingChain_of_op hop] at htask
        exact ⟨htask.1, hrelay.fed.settled hrelay.place (halike.down i)⟩)
      (by
        rintro rfl
        rw [readingResult_of_op hop] at htask
        exact ⟨htask.2.2.2.2, htask.2.1⟩)
      hperform
  have hstep := relayStep_of { history with downBuf := downBuf, upBuf := upBuf } event hother
    hop hperform' hresume
  refine ⟨_, hstep, hbehind.setNode ⟨downBuf, upBuf, rfl, ?_, ?_⟩⟩
  · exact hdown.trans (congrArg List.length hdownBuf.symm)
  · exact hup.trans (congrArg List.length hupBuf.symm)

/-- A move of the copiers has the same effect on the counts, whatever is copied. -/
theorem copyStep_alike {setup : Setup} {net other next : Net} {i : Nat} {move : Net.CopyMove}
    {fromDialer fromListener : Bytes} (hinv : Inv setup net)
    (hother : Inv (setup.withPayload fromDialer fromListener) other)
    (halike : NetAlike setup net other) (h : net.copyStep i move = some next) :
    ∃ otherNext, other.copyStep i move = some otherNext ∧ NetAlike setup next otherNext := by
  unfold Net.copyStep at h
  split at h
  · rename_i relay hnode
    split at h
    · rename_i htask
      obtain ⟨downBuf, upBuf, hnode', hdown, hup⟩ := halike.relay hnode
      have hplace := (hinv.relay hnode).place
      have hown := hinv.task hnode
      have hownOther := hother.task hnode'
      unfold TaskInv at hown hownOther
      simp only [htask] at hown hownOther
      -- behind the last relay there is no head
      have hheads : headDown setup (i + 1) <+: (net.link (i + 1)).down.sent ∧
          headDown setup (i + 1) <+: (other.link (i + 1)).down.sent := by
        by_cases hlt : i + 1 < setup.hops.length
        · exact ⟨(hown.1.sent hlt).head (.inr hlt), (hownOther.1.sent hlt).head (.inr hlt)⟩
        · rw [headDown_of_le ⟨Nat.succ_pos i, Nat.not_lt.mp hlt⟩]
          exact ⟨List.nil_prefix, List.nil_prefix⟩
      unfold Net.copyStep
      simp only [hnode']
      rw [if_pos htask]
      cases move with
      | readDown count =>
          simp only [Option.ite_none_right_eq_some, Option.some.injEq] at h
          obtain ⟨hcount, rfl⟩ := h
          have hunread := (halike.down i).unread_length
          refine ⟨_, if_pos (hunread ▸ hcount),
            (halike.setDown ((halike.down i).skip count)).setNode ⟨_, _, rfl, ?_, hup⟩⟩
          simp only [List.length_append, List.length_take, hdown, hunread]
      | writeDown count =>
          simp only [Option.ite_none_right_eq_some, Option.some.injEq] at h
          obtain ⟨hcount, rfl⟩ := h
          refine ⟨_, if_pos (hdown ▸ hcount), (halike.setDown ((halike.down (i + 1)).put_payload
            hheads.1 hheads.2 ?_)).setNode ⟨_, _, rfl, ?_, hup⟩⟩
          · simp only [List.length_take, hdown]
          · simp only [List.length_drop, hdown]
      | readUp count =>
          simp only [Option.ite_none_right_eq_some, Option.some.injEq] at h
          obtain ⟨hcount, rfl⟩ := h
          have hunread := (halike.up (i + 1)).unread_length
          refine ⟨_, if_pos (hunread ▸ hcount),
            (halike.setUp ((halike.up (i + 1)).skip count)).setNode ⟨_, _, rfl, hdown, ?_⟩⟩
          simp only [List.length_append, List.length_take, hup, hunread]
      | writeUp count =>
          simp only [Option.ite_none_right_eq_some, Option.some.injEq] at h
          obtain ⟨hcount, rfl⟩ := h
          refine ⟨_, if_pos (hup ▸ hcount), (halike.setUp ((halike.up i).put_payload
            (hown.2.head hplace) (hownOther.2.head hplace) ?_)).setNode ⟨_, _, rfl, hdown, ?_⟩⟩
          · simp only [List.length_take, hup]
          · simp only [List.length_drop, hup]
      | finish =>
          obtain rfl := Option.some.inj h
          exact ⟨_, rfl, halike.setNode ⟨downBuf, upBuf, rfl, hdown, hup⟩⟩
    · cases h
  · cases h

/-! ## Steps of the dialer and of the accepting peer -/

/-- Only the wait for the result of the chain asks for one. -/
theorem readingResult_of_dialOp {nspace : String} {task : DialTask}
    (h : task.op nspace = some .readJumpResult) : task = .readingResult := by
  cases task <;> simp only [DialTask.op, Option.some.injEq, reduceCtorEq] at h
  rfl

theorem NetAlike.setDialer {setup : Setup} {net other : Net} (h : NetAlike setup net other)
    (task : DialTask) :
    NetAlike setup { net with dialer := task } { other with dialer := task } :=
  ⟨rfl, h.answer, h.dialerSent, h.listenerSent, h.node, h.down, h.up⟩

theorem dialerStep_alike {setup : Setup} {net other next : Net} {outcome : Outcome}
    (fromDialer fromListener : Bytes) (hinv : Inv setup net) (halike : NetAlike setup net other)
    (h : net.dialerStep setup outcome = some next) :
    ∃ otherNext, other.dialerStep (setup.withPayload fromDialer fromListener) outcome =
      some otherNext ∧ NetAlike setup next otherNext := by
  have hown := hinv.dialer
  unfold DialerInv at hown
  have hop : other.dialer.op (setup.withPayload fromDialer fromListener).nspace =
      net.dialer.op setup.nspace := by rw [halike.dialer]; rfl
  unfold Net.dialerStep at h ⊢
  rw [hop]
  simp only [halike.dialer] at h ⊢
  cases hnext : net.dialer.op setup.nspace with
  | none => simp only [hnext, reduceCtorEq] at h
  | some op =>
      cases op <;> simp only [hnext, reduceCtorEq] at h ⊢
      case openStream peer protocol =>
        cases outcome <;> simp only [Option.map_eq_some_iff, reduceCtorEq] at h ⊢ <;>
          obtain ⟨task, hresume, rfl⟩ := h
        · exact ⟨_, ⟨task, hresume, rfl⟩, (halike.spawn fromDialer fromListener 0 setup.dialerPeer
            peer protocol).setDialer task⟩
        · exact ⟨_, ⟨task, hresume, rfl⟩, halike.setDialer task⟩
      case writeJumpChain chain =>
        split at h
        · cases h
        · rename_i done pipe hstep
          obtain ⟨task, hresume, rfl⟩ := Option.map_eq_some_iff.mp h
          obtain ⟨otherPipe, hother, hpipe⟩ := writeStep_alike (halike.down 0) hstep
          exact ⟨_, by simp only [hother]; exact Option.map_eq_some_iff.mpr ⟨task, hresume, rfl⟩,
            (halike.setDown hpipe).setDialer task⟩
      case readJumpResult =>
        split at h
        · cases h
        · rename_i result pipe hstep
          obtain ⟨task, hresume, rfl⟩ := Option.map_eq_some_iff.mp h
          rw [readingResult_of_dialOp hnext] at hown
          obtain ⟨otherPipe, hother, hpipe⟩ := readStep_alike (halike.up 0) hown.2.2
            (.inr (front_headUp (.inl rfl))) hstep
          have hboth := halike.setUp hpipe
          refine ⟨{ other.setUp 0 otherPipe with dialer := task, answer := some result }, ?_,
            ⟨rfl, rfl, hboth.dialerSent, hboth.listenerSent, hboth.node, hboth.down, hboth.up⟩⟩
          simp only [halike.lowerGone, hother]
          exact Option.map_eq_some_iff.mpr ⟨task, hresume, rfl⟩
      case writeTunnelRequest req =>
        split at h
        · cases h
        · rename_i done pipe hstep
          obtain ⟨task, hresume, rfl⟩ := Option.map_eq_some_iff.mp h
          obtain ⟨otherPipe, hother, hpipe⟩ := writeStep_alike (halike.down 0) hstep
          exact ⟨_, by simp only [hother]; exact Option.map_eq_some_iff.mpr ⟨task, hresume, rfl⟩,
            (halike.setDown hpipe).setDialer task⟩
      case runNetcat =>
        cases outcome <;> simp only [Option.map_eq_some_iff, reduceCtorEq] at h ⊢ <;>
          obtain ⟨task, hresume, rfl⟩ := h
        · exact ⟨_, ⟨task, hresume, rfl⟩, halike.setDialer task⟩
        · exact ⟨_, ⟨task, hresume, rfl⟩, halike.setDialer task⟩

/-- A step of one chain is a step of the other. -/
theorem step_alike {setup : Setup} {net other next : Net} {label : Net.Label}
    {fromDialer fromListener : Bytes} (hdialer : fromDialer.length = setup.fromDialer.length)
    (hlistener : fromListener.length = setup.fromListener.length) (hinv : Inv setup net)
    (hother : Inv (setup.withPayload fromDialer fromListener) other)
    (halike : NetAlike setup net other) (h : net.step setup label = some next) :
    ∃ otherNext, other.step (setup.withPayload fromDialer fromListener) label =
      some otherNext ∧ NetAlike setup next otherNext := by
  cases label with
  | dialer outcome => exact dialerStep_alike fromDialer fromListener hinv halike h
  | stdin count =>
      simp only [Net.step, Option.ite_none_right_eq_some, Option.some.injEq] at h ⊢
      obtain ⟨hd, rfl⟩ := h
      have hown := hinv.dialer
      have hownOther := hother.dialer
      unfold DialerInv at hown hownOther
      rw [halike.dialer] at hownOther
      rw [hd] at hown hownOther
      have hlen : ((fromDialer.drop other.dialerSent).take count).length =
          ((setup.fromDialer.drop net.dialerSent).take count).length := by
        simp only [List.length_take, List.length_drop, hdialer, halike.dialerSent]
      have hpipe := (halike.down 0).put_payload (hown.head (.inl rfl)) (hownOther.head (.inl rfl))
        hlen
      have hboth := halike.setDown hpipe
      exact ⟨_, ⟨halike.dialer.trans hd, rfl⟩, ⟨hboth.dialer, hboth.answer,
        congrArg (· + count) halike.dialerSent, hboth.listenerSent, hboth.node, hboth.down,
        hboth.up⟩⟩
  | stdout count =>
      simp only [Net.step, Option.ite_none_right_eq_some, Option.some.injEq] at h ⊢
      obtain ⟨⟨hd, hcount⟩, rfl⟩ := h
      exact ⟨_, ⟨⟨halike.dialer.trans hd, (halike.up 0).unread_length ▸ hcount⟩, rfl⟩,
        halike.setUp ((halike.up 0).skip count)⟩
  | relay i outcome => exact relayStep_alike fromDialer fromListener hinv halike h
  | copy i move => exact copyStep_alike hinv hother halike h
  | send i count =>
      simp only [Net.step] at h ⊢
      split at h
      · rename_i self hnode
        obtain rfl := Option.some.inj h
        have hlast := hinv.node i
        unfold NodeInv at hlast
        rw [hnode] at hlast
        have hhead : headUp setup i = [] := headUp_of_le hlast
        have hlen : ((fromListener.drop other.listenerSent).take count).length =
            ((setup.fromListener.drop net.listenerSent).take count).length := by
          simp only [List.length_take, List.length_drop, hlistener, halike.listenerSent]
        have hpipe := (halike.up i).put_payload (hhead ▸ List.nil_prefix)
          (hhead ▸ List.nil_prefix) hlen
        have hboth := halike.setUp hpipe
        rw [halike.acceptor hnode]
        exact ⟨_, rfl, ⟨hboth.dialer, hboth.answer, hboth.dialerSent,
          congrArg (· + count) halike.listenerSent, hboth.node, hboth.down, hboth.up⟩⟩
      · cases h
  | receive i count =>
      simp only [Net.step] at h ⊢
      split at h
      · rename_i self hnode
        simp only [Option.ite_none_right_eq_some, Option.some.injEq] at h
        obtain ⟨hcount, rfl⟩ := h
        rw [halike.acceptor hnode]
        exact ⟨_, if_pos ((halike.down i).unread_length ▸ hcount),
          halike.setDown ((halike.down i).skip count)⟩
      · cases h

theorem alike_start (setup : Setup) (fromDialer fromListener : Bytes) :
    NetAlike setup (machine setup).start
      (machine (setup.withPayload fromDialer fromListener)).start :=
  ⟨rfl, rfl, rfl, rfl, fun _ => rfl, fun _ => Alike.refl _ _, fun _ => Alike.refl _ _⟩

/-- A run of one chain is a run of the other. -/
theorem alike_of_reaches {setup : Setup} {labels : List Net.Label} {net : Net}
    {fromDialer fromListener : Bytes} (hdialer : fromDialer.length = setup.fromDialer.length)
    (hlistener : fromListener.length = setup.fromListener.length)
    (hrun : (machine setup).Reaches labels net) :
    ∃ other, (machine (setup.withPayload fromDialer fromListener)).Reaches labels other ∧
      NetAlike setup net other := by
  obtain ⟨other, hother, -, -, halike⟩ := Machine.lockstep
    (machine (setup.withPayload fromDialer fromListener))
    (fun net other => Inv setup net ∧ Inv (setup.withPayload fromDialer fromListener) other ∧
      NetAlike setup net other)
    ⟨inv_start setup, inv_start _, alike_start setup fromDialer fromListener⟩
    (fun {net other label next} hrel hstep => by
      obtain ⟨hinv, hinv', halike⟩ := hrel
      obtain ⟨otherNext, hother, hnext⟩ :=
        step_alike hdialer hlistener hinv hinv' halike hstep
      exact ⟨otherNext, hother, inv_step hinv hstep, inv_step hinv' hother, hnext⟩) hrun
  exact ⟨other, hother, halike⟩

end Sape.Chain
