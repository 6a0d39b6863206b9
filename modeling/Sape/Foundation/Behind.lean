/-
  Foundation/Behind.lean --- a connection behind what was said on it first.

  Two parties may agree on something before a connection is used for what it is for.  Behind
  the first so many items of either direction, it is a connection of its own: whoever writes
  there, or has read that far, does on it what it does on the whole.

  WHAT IS PROVED.

      Conduit.step_behind_of_writes   the writer, behind the head
      Conduit.step_behind_of_read     the reader, once it has taken the head
      Conduit.receive_behind          and while it is on its way through it
      Splice.step_behind              a copier from a conduit, or into one
-/
import Sape.Foundation.Duplex

set_option autoImplicit false

namespace Sape.Foundation

variable {α : Type}

namespace Conduit

/-- Behind the first `head` items. -/
def behind (conduit : Conduit α) (head : Nat) : Conduit α :=
  { conduit with sent := conduit.sent.drop head, taken := conduit.taken - head }

@[simp] theorem behind_closed (conduit : Conduit α) (head : Nat) :
    (conduit.behind head).closed = conduit.closed := rfl
@[simp] theorem behind_cut (conduit : Conduit α) (head : Nat) :
    (conduit.behind head).cut = conduit.cut := rfl
@[simp] theorem behind_finished (conduit : Conduit α) (head : Nat) :
    (conduit.behind head).finished = conduit.finished := rfl
@[simp] theorem shut_behind (conduit : Conduit α) (head : Nat) :
    conduit.shut.behind head = (conduit.behind head).shut := rfl
@[simp] theorem finish_behind (conduit : Conduit α) (head : Nat) :
    conduit.finish.behind head = (conduit.behind head).finish := rfl
@[simp] theorem drop_behind (conduit : Conduit α) (head : Nat) :
    conduit.drop.behind head = (conduit.behind head).drop := rfl

/-- What is unread behind the head is what is unread, less what is left of the head. -/
theorem behind_unread (conduit : Conduit α) (head : Nat) :
    (conduit.behind head).unread = conduit.unread.drop (head - conduit.taken) := by
  show (conduit.sent.drop head).drop (conduit.taken - head) =
    (conduit.sent.drop conduit.taken).drop (head - conduit.taken)
  rw [List.drop_drop, List.drop_drop]
  congr 1
  omega

variable {conduit : Conduit α} {head : Nat}

/-- Behind a head that was taken, everything that is unread is unread. -/
theorem behind_unread_of_taken (h : head ≤ conduit.taken) :
    (conduit.behind head).unread = conduit.unread := by
  rw [behind_unread, Nat.sub_eq_zero_of_le h, List.drop_zero]

theorem behind_put (h : head ≤ conduit.sent.length) (items : List α) :
    (conduit.put items).behind head = (conduit.behind head).put items := by
  simp only [behind, put, List.drop_append_of_le_length h]

theorem behind_skip (h : head ≤ conduit.taken) (count : Nat) :
    (conduit.skip count).behind head = (conduit.behind head).skip count := by
  simp only [behind, skip, Nat.sub_add_comm h]

/-- What belongs to the head is not there behind it. -/
theorem behind_put_head (hlen : head = conduit.sent.length) (items : List α)
    (htaken : conduit.taken ≤ head) :
    (conduit.put items).behind (head + items.length) = conduit.behind head := by
  have hsent : (conduit.sent ++ items).drop (head + items.length) = conduit.sent.drop head := by
    rw [List.drop_eq_nil_of_le (by rw [List.length_append, hlen]),
      List.drop_eq_nil_of_le (Nat.le_of_eq hlen.symm)]
  have hleft : conduit.taken - (head + items.length) = conduit.taken - head := by omega
  simp only [behind, put, hsent, hleft]

theorem behind_skip_head {count : Nat} (h : conduit.taken + count ≤ head) :
    (conduit.skip count).behind head = conduit.behind head := by
  have hleft : conduit.taken + count - head = conduit.taken - head := by omega
  simp only [behind, skip, hleft]

theorem behind_ended (h : head ≤ conduit.taken) : (conduit.behind head).Ended ↔ conduit.Ended := by
  unfold Ended
  rw [behind_unread_of_taken h]
  rfl

/-- Whoever is at the end of a conduit is at the end behind its head. -/
theorem Ended.behind (h : conduit.Ended) (head : Nat) : (conduit.behind head).Ended := by
  rcases h with hcut | ⟨hclosed, hunread⟩
  · exact .inl hcut
  · refine .inr ⟨hclosed, ?_⟩
    rw [behind_unread, hunread, List.drop_nil]

variable [DecidableEq α] {action : ConduitAct α}

/-- The writer does behind a head what it does on the whole. -/
theorem step_behind_of_writes (h : head ≤ conduit.sent.length) (hwrites : action.writes = true) :
    (conduit.behind head).step action =
      (conduit.step action).map fun next => next.behind head := by
  cases action with
  | send items =>
      by_cases hclosed : conduit.closed = true
      · simp [step, hclosed]
      · simp [step, hclosed, behind_put h]
  | close =>
      by_cases hclosed : conduit.closed = true
      · simp [step, hclosed]
      · simp [step, hclosed]
  | receive items => cases hwrites
  | finish => cases hwrites

theorem step_behind_of_read (h : head ≤ conduit.taken) (hreads : action.writes = false) :
    (conduit.behind head).step action =
      (conduit.step action).map fun next => next.behind head := by
  cases action with
  | send items => cases hreads
  | close => cases hreads
  | receive items =>
      by_cases hitems : items <+: conduit.unread ∧ conduit.finished = false
      · simp [step, behind_unread_of_taken h, hitems, behind_skip h]
      · simp [step, behind_unread_of_taken h, hitems]
  | finish =>
      by_cases hended : conduit.Ended ∧ conduit.finished = false
      · simp [step, behind_ended h, hended]
      · simp [step, behind_ended h, hended]

/-- While the reader is on its way through the head, what it takes behind it is what is left of
what it takes. -/
theorem receive_behind {items : List α} {next : Conduit α}
    (h : conduit.step (.receive items) = some next) (hle : conduit.taken ≤ head) :
    (conduit.behind head).step (.receive (items.drop (head - conduit.taken))) =
      some (next.behind head) := by
  simp only [step] at h
  split at h
  · rename_i hitems
    obtain rfl := Option.some.inj h
    have hleft : items.drop (head - conduit.taken) <+: (conduit.behind head).unread := by
      rw [behind_unread]
      exact List.IsPrefix.drop hitems.1 _
    have hboth : _ ∧ (conduit.behind head).finished = false := ⟨hleft, hitems.2⟩
    rw [step, if_pos hboth]
    have htaken : conduit.taken + items.length - head =
        conduit.taken - head + (items.length - (head - conduit.taken)) := by omega
    simp only [behind, skip, List.length_drop, htaken]
  · cases h

theorem finish_behind_of_step {next : Conduit α} (h : conduit.step .finish = some next)
    (head : Nat) :
    (conduit.behind head).step .finish = some (next.behind head) := by
  simp only [step] at h
  split at h
  · rename_i hended
    obtain rfl := Option.some.inj h
    have hboth : _ ∧ (conduit.behind head).finished = false := ⟨hended.1.behind head, hended.2⟩
    rw [step, if_pos hboth]
    rfl
  · cases h

/-- A writer only adds to what was sent. -/
theorem sent_of_writes {next : Conduit α} (h : conduit.step action = some next)
    (hwrites : action.writes = true) :
    next.taken = conduit.taken ∧ next.finished = conduit.finished ∧
      ∃ items, next.sent = conduit.sent ++ items := by
  cases action with
  | send items =>
      simp only [step] at h
      split at h
      · cases h
      · cases h
        exact ⟨rfl, rfl, items, rfl⟩
  | close =>
      simp only [step] at h
      split at h
      · cases h
      · cases h
        exact ⟨rfl, rfl, [], (List.append_nil _).symm⟩
  | receive items => cases hwrites
  | finish => cases hwrites

/-- A reader only adds to what was taken, and comes to the end only where there is one. -/
theorem taken_of_read {next : Conduit α} (h : conduit.step action = some next)
    (hreads : action.writes = false) :
    next.sent = conduit.sent ∧ next.closed = conduit.closed ∧
      (conduit.taken ≤ next.taken ∧
        (conduit.taken ≤ conduit.sent.length → next.taken ≤ conduit.sent.length)) ∧
      conduit.finished = false ∧ (next.finished = false ∨ conduit.Ended) := by
  cases action with
  | send items => cases hreads
  | close => cases hreads
  | receive items =>
      simp only [step] at h
      split at h
      · rename_i hitems
        cases h
        refine ⟨rfl, rfl, ⟨Nat.le_add_right _ _, fun hle => ?_⟩, hitems.2, .inl hitems.2⟩
        have hlen := hitems.1.length_le
        rw [unread, List.length_drop] at hlen
        simp only [skip_taken]
        omega
      · cases h
  | finish =>
      simp only [step] at h
      split at h
      · rename_i hended
        cases h
        exact ⟨rfl, rfl, ⟨Nat.le_refl _, id⟩, hended.2, .inr hended.1⟩
      · cases h

end Conduit

/-! ## Copiers -/

section Copiers

variable [DecidableEq α] {splice : Splice α} {source sink : Conduit α} {head : Nat}

/-- A copier from a conduit whose head was taken copies from what is behind it. -/
theorem Splice.step_behind (splice : Splice α) (sink : Conduit α) (h : head ≤ source.taken)
    (move : SpliceMove) :
    splice.step (source.behind head) sink move =
      (splice.step source sink move).map fun moved =>
        (moved.1, moved.2.1.behind head, moved.2.2) := by
  cases move with
  | read count =>
      by_cases hcount : splice.done = false ∧ count ≤ source.unread.length
      · simp [step, Conduit.behind_unread_of_taken h, hcount, Conduit.behind_skip h]
      · simp [step, Conduit.behind_unread_of_taken h, hcount]
  | write count =>
      by_cases hcount : count ≤ splice.buf.length
      · simp [step, hcount]
      · simp [step, hcount]
  | shut =>
      by_cases hended : splice.done = false ∧ splice.buf = [] ∧ source.Ended
      · simp [step, Conduit.behind_ended h, hended]
      · simp [step, Conduit.behind_ended h, hended]

/-- A copier into a conduit copies to what is behind its head. -/
theorem Splice.step_into_behind (splice : Splice α) (source : Conduit α)
    (h : head ≤ sink.sent.length) (move : SpliceMove) :
    splice.step source (sink.behind head) move =
      (splice.step source sink move).map fun moved =>
        (moved.1, moved.2.1, moved.2.2.behind head) := by
  cases move with
  | read count =>
      by_cases hcount : splice.done = false ∧ count ≤ source.unread.length
      · simp [step, hcount]
      · simp [step, hcount]
  | write count =>
      by_cases hcount : count ≤ splice.buf.length
      · simp [step, hcount, Conduit.behind_put h]
      · simp [step, hcount]
  | shut =>
      by_cases hended : splice.done = false ∧ splice.buf = [] ∧ source.Ended
      · simp [step, hended]
      · simp [step, hended]

/-- A copier takes more and puts more. -/
theorem Splice.step_grows {splice' : Splice α} {source' sink' : Conduit α} {move : SpliceMove}
    (h : splice.step source sink move = some (splice', source', sink')) :
    source.taken ≤ source'.taken ∧ sink.sent.length ≤ sink'.sent.length := by
  cases move with
  | read count | write count | shut =>
      simp only [step] at h
      split at h
      · simp only [Option.some.injEq, Prod.mk.injEq] at h
        obtain ⟨-, rfl, rfl⟩ := h
        simp [Conduit.finish, Conduit.shut]
      · cases h

end Copiers

/-! ## Connections -/

/-- A connection behind a head in either direction. -/
def Duplex.behind (duplex : Duplex α) (forth back : Nat) : Duplex α :=
  { forth := duplex.forth.behind forth, back := duplex.back.behind back }

end Sape.Foundation
