/-
  Foundation/Copy.lean --- a copier between two streams, behind a head on each.

  A copier takes items off one stream into a buffer and puts items of the buffer
  on another, any number at a time.  Both streams begin with a head that is not
  copied.  `Copied` is its loop invariant: what was taken behind the first head is
  what is on the second stream behind its head, followed by the buffer.

  WHAT IS PROVED.

      Copied.read, Copied.write   one move of the loop keeps the invariant
      Copied.grow                 so does the other party, who only appends
      Copied.faithful             the second stream agrees with the first
      Copied.take_sent            what has been taken, and what has been passed on,
      Copied.written_eq           as functions of the stream and two counts
      Copied.behind               the two streams behind their heads
-/
import Mathlib.Data.List.Basic

set_option autoImplicit false

namespace Sape.Foundation

variable {α : Type}

/-- `taken` items were taken off `sent`; what came behind `headIn` is in `written`
behind `headOut`, or still in `buf`. -/
def Copied (headIn sent : List α) (taken : Nat) (buf headOut written : List α) : Prop :=
  ∃ moved, headIn ++ moved <+: sent ∧ (headIn ++ moved).length = taken ∧
    written ++ buf = headOut ++ moved

namespace Copied

variable {headIn sent buf headOut written stream : List α} {taken : Nat}

theorem start (headOut : List α) (hhead : headIn <+: sent) (htaken : taken = headIn.length) :
    Copied headIn sent taken [] headOut headOut :=
  ⟨[], by simpa using hhead, by simpa using htaken.symm, rfl⟩

theorem grow {longer : List α} (h : Copied headIn sent taken buf headOut written)
    (hsent : sent <+: longer) : Copied headIn longer taken buf headOut written := by
  obtain ⟨moved, hmoved, hlen, hwritten⟩ := h
  exact ⟨moved, hmoved.trans hsent, hlen, hwritten⟩

/-- Taking items off the first stream. -/
theorem read (h : Copied headIn sent taken buf headOut written) {count : Nat}
    (hcount : count ≤ (sent.drop taken).length) :
    Copied headIn sent (taken + count) (buf ++ (sent.drop taken).take count) headOut written := by
  obtain ⟨moved, ⟨rest, rfl⟩, rfl, hwritten⟩ := h
  rw [List.drop_left] at hcount ⊢
  refine ⟨moved ++ rest.take count, ?_, ?_, ?_⟩
  · rw [← List.append_assoc]
    exact (List.prefix_append_right_inj _).mpr (List.take_prefix count rest)
  · rw [← List.append_assoc, List.length_append, List.length_take, Nat.min_eq_left hcount]
  · rw [← List.append_assoc, hwritten, List.append_assoc]

/-- Putting items on the second stream. -/
theorem write (h : Copied headIn sent taken buf headOut written) (count : Nat) :
    Copied headIn sent taken (buf.drop count) headOut (written ++ buf.take count) := by
  obtain ⟨moved, hmoved, hlen, hwritten⟩ := h
  exact ⟨moved, hmoved, hlen, by rw [List.append_assoc, List.take_append_drop, hwritten]⟩

/-- What was taken is the beginning of the stream it was taken from. -/
theorem take_sent (h : Copied headIn sent taken buf headOut written)
    (hsent : sent <+: headIn ++ stream) :
    sent.take taken = (headIn ++ stream).take taken ∧ taken ≤ (headIn ++ stream).length := by
  obtain ⟨moved, hmoved, rfl, -⟩ := h
  exact ⟨(List.prefix_iff_eq_take.mp hmoved).symm.trans
    (List.prefix_iff_eq_take.mp (hmoved.trans hsent)), (hmoved.trans hsent).length_le⟩

theorem written_append (h : Copied headIn sent taken buf headOut written)
    (hsent : sent <+: headIn ++ stream) :
    written ++ buf = headOut ++ stream.take (taken - headIn.length) := by
  obtain ⟨moved, hmoved, rfl, hwritten⟩ := h
  have hstream : moved <+: stream :=
    (List.prefix_append_right_inj headIn).mp (hmoved.trans hsent)
  rw [hwritten, List.length_append, Nat.add_sub_cancel_left,
    ← List.prefix_iff_eq_take.mp hstream]

/-- Behind the heads, the second stream agrees with the first. -/
theorem faithful (h : Copied headIn sent taken buf headOut written)
    (hsent : sent <+: headIn ++ stream) : written <+: headOut ++ stream := by
  have hwritten : written <+: headOut ++ stream.take (taken - headIn.length) :=
    ⟨buf, h.written_append hsent⟩
  exact hwritten.trans ((List.prefix_append_right_inj headOut).mpr (List.take_prefix _ _))

theorem written_eq (h : Copied headIn sent taken buf headOut written)
    (hsent : sent <+: headIn ++ stream) :
    written = (headOut ++ stream.take (taken - headIn.length)).take written.length := by
  rw [← h.written_append hsent, List.take_left]

/-- Behind the heads, what was put on the second stream is the beginning of what was taken off
the first one, and the rest of that is in the buffer. -/
theorem behind (h : Copied headIn sent taken buf headOut written) (hout : headOut <+: written) :
    written.drop headOut.length <+: (sent.drop headIn.length).take (taken - headIn.length) ∧
      buf = ((sent.drop headIn.length).take (taken - headIn.length)).drop
        (written.drop headOut.length).length := by
  obtain ⟨moved, ⟨rest, rfl⟩, rfl, hwritten⟩ := h
  obtain ⟨passed, rfl⟩ := hout
  rw [List.append_assoc] at hwritten
  obtain rfl := List.append_cancel_left hwritten
  rw [List.append_assoc headIn, List.drop_left, List.drop_left, List.length_append,
    Nat.add_sub_cancel_left, List.take_left]
  exact ⟨List.prefix_append passed buf, List.drop_left.symm⟩

end Copied

end Sape.Foundation
