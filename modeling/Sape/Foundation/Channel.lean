/-
  Foundation/Channel.lean --- a bounded channel with one receiver.

  Its senders wait for room, its receiver for a message; once the receiver is gone, a send
  fails.  That there is never more in it than it has room for is a field of the state.

  WHAT IS PROVED.

      send_cases, receive_cases          what a send and a receive do
      send_of_room, receive_of_cons      and when they need not wait
-/
import Mathlib.Data.List.Basic

set_option autoImplicit false

namespace Sape.Foundation

/-- A channel that has room for so many messages. -/
structure Channel (capacity : Nat) (α : Type) where
  queue : List α
  /-- its receiver is gone -/
  closed : Bool
  bounded : queue.length ≤ capacity
  deriving DecidableEq, Repr

namespace Channel

variable {capacity : Nat} {α : Type}

def empty (capacity : Nat) (α : Type) : Channel capacity α := ⟨[], false, Nat.zero_le _⟩

instance : Inhabited (Channel capacity α) := ⟨empty capacity α⟩

/-- A send that does not wait. -/
def send (channel : Channel capacity α) (message : α) : Option (Channel capacity α) :=
  if h : channel.closed = false ∧ channel.queue.length < capacity then
    some ⟨channel.queue ++ [message], channel.closed, by
      rw [List.length_append, List.length_singleton]
      exact h.2⟩
  else none

/-- A receive that does not. -/
def receive (channel : Channel capacity α) : Option (α × Channel capacity α) :=
  if channel.closed then none
  else match h : channel.queue with
    | [] => none
    | message :: rest => some (message, ⟨rest, channel.closed, by
        have hbounded := channel.bounded
        rw [h, List.length_cons] at hbounded
        omega⟩)

/-- The receiver goes. -/
def close (channel : Channel capacity α) : Channel capacity α :=
  ⟨channel.queue, true, channel.bounded⟩

theorem send_cases {channel next : Channel capacity α} {message : α}
    (h : channel.send message = some next) :
    channel.closed = false ∧ channel.queue.length < capacity ∧ next.closed = false ∧
      next.queue = channel.queue ++ [message] := by
  unfold send at h
  split at h
  · rename_i hroom
    obtain rfl := Option.some.inj h
    exact ⟨hroom.1, hroom.2, hroom.1, rfl⟩
  · cases h

theorem receive_cases {channel next : Channel capacity α} {message : α}
    (h : channel.receive = some (message, next)) :
    channel.closed = false ∧ next.closed = false ∧ channel.queue = message :: next.queue := by
  unfold receive at h
  split at h
  · cases h
  · rename_i hopen
    have hopen' := Bool.eq_false_iff.mpr hopen
    split at h
    · cases h
    · rename_i first rest hqueue
      simp only [Option.some.injEq, Prod.mk.injEq] at h
      obtain ⟨rfl, rfl⟩ := h
      exact ⟨hopen', hopen', hqueue⟩

theorem send_of_room {channel : Channel capacity α} (hopen : channel.closed = false)
    (hroom : channel.queue.length < capacity) (message : α) :
    ∃ next, channel.send message = some next :=
  ⟨_, dif_pos ⟨hopen, hroom⟩⟩

theorem receive_of_cons {channel : Channel capacity α} {message : α} {rest : List α}
    (hopen : channel.closed = false) (hqueue : channel.queue = message :: rest) :
    ∃ next, channel.receive = some (message, next) ∧ next.queue = rest ∧ next.closed = false := by
  cases hreceive : channel.receive with
  | none =>
      unfold receive at hreceive
      rw [hopen, if_neg Bool.false_ne_true] at hreceive
      split at hreceive
      · rename_i hempty
        rw [hqueue] at hempty
        cases hempty
      · cases hreceive
  | some received =>
      obtain ⟨first, next⟩ := received
      obtain ⟨-, hclosed, hfirst⟩ := receive_cases hreceive
      rw [hqueue] at hfirst
      obtain ⟨rfl, rfl⟩ := List.cons.inj hfirst
      exact ⟨next, rfl, rfl, hclosed⟩

end Channel

end Sape.Foundation
