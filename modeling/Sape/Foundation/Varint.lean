/-
  Foundation/Varint.lean --- little-endian base-128 integers of bounded width.

  A number is written in groups of seven bits, least significant first; every
  group but the last has the high bit set.  The decoder reads at most a fixed
  number of groups and bounds the last one, so that no accepted input overflows
  the width.  It does accept spellings with superfluous zero groups, which is why
  the codec's second law speaks of lengths and not of equality.

  `varint groups last` carries exactly the numbers below
  `128 ^ (groups - 1) * (last + 1)`: with 3 groups and last group at most 3 that
  is 16 bits, with 5 and 15 it is 32, with 10 and 1 it is 64.
-/
import Sape.Foundation.Codec
import Mathlib.Tactic.Ring

set_option autoImplicit false

namespace Sape.Foundation.Varint

open Sape.Foundation

variable {ε : Type}

/-- The numbers that `groups + 1` groups carry, the last of them at most `last`. -/
def bound (groups last : Nat) : Nat := 128 ^ groups * (last + 1)

theorem bound_succ (groups last : Nat) :
    bound (groups + 1) last = 128 * bound groups last := by
  unfold bound
  ring

theorem bound_pos (groups last : Nat) : 0 < bound groups last :=
  Nat.mul_pos (Nat.pow_pos (by decide)) (Nat.succ_pos last)

/-- Write a number in at most `groups + 1` groups. -/
def encodeGroups : Nat → Nat → Bytes
  | 0, n => [UInt8.ofNat n]
  | groups + 1, n =>
      if n < 128 then [UInt8.ofNat n]
      else UInt8.ofNat (n % 128 + 128) :: encodeGroups groups (n / 128)

/-- Read at most `groups + 1` groups. -/
def decodeGroups (eof bad : ε) (last : Nat) : Nat → Bytes → Except ε (Nat × Bytes)
  | _, [] => .error eof
  | 0, b :: rest =>
      -- the last group must end the number and stay inside its bound
      if b.toNat ≤ last then .ok (b.toNat, rest) else .error bad
  | groups + 1, b :: rest =>
      if b.toNat < 128 then .ok (b.toNat, rest)
      else
        match decodeGroups eof bad last groups rest with
        | .error e => .error e
        | .ok (high, rest) => .ok (b.toNat - 128 + 128 * high, rest)

theorem length_encodeGroups_pos (groups n : Nat) : 0 < (encodeGroups groups n).length := by
  cases groups with
  | zero => exact Nat.one_pos
  | succ groups =>
      rw [encodeGroups]
      split <;> simp

/-- A smaller number never takes more groups. -/
theorem length_encodeGroups_mono :
    ∀ (groups : Nat) {m n : Nat}, m ≤ n →
      (encodeGroups groups m).length ≤ (encodeGroups groups n).length := by
  intro groups
  induction groups with
  | zero => intro m n _; exact Nat.le_refl 1
  | succ groups ih =>
      intro m n hle
      rw [encodeGroups, encodeGroups]
      by_cases hm : m < 128
      · rw [if_pos hm]
        split <;> simp
      · have hn : ¬ n < 128 := by omega
        rw [if_neg hm, if_neg hn]
        simpa using ih (Nat.div_le_div_right hle)

theorem decodeGroups_encodeGroups (eof bad : ε) (last : Nat) (hlast : last < 128) :
    ∀ (groups : Nat) {n : Nat}, n < bound groups last → ∀ rest : Bytes,
      decodeGroups eof bad last groups (encodeGroups groups n ++ rest) = .ok (n, rest) := by
  intro groups
  induction groups with
  | zero =>
      intro n hn rest
      have hle : n ≤ last := by simpa [bound, Nat.lt_succ_iff] using hn
      have hbyte : (UInt8.ofNat n).toNat = n := UInt8.toNat_ofNat_of_lt' (by
        rw [UInt8.size]; omega)
      simp [encodeGroups, decodeGroups, hbyte, hle]
  | succ groups ih =>
      intro n hn rest
      rw [bound_succ] at hn
      by_cases hsmall : n < 128
      · have hbyte : (UInt8.ofNat n).toNat = n := UInt8.toNat_ofNat_of_lt' (by
          rw [UInt8.size]; omega)
        simp [encodeGroups, decodeGroups, hbyte, hsmall]
      · have hbyte : (UInt8.ofNat (n % 128 + 128)).toNat = n % 128 + 128 :=
          UInt8.toNat_ofNat_of_lt' (by rw [UInt8.size]; omega)
        have hmore : ¬ n % 128 + 128 < 128 := by omega
        have hhigh : n / 128 < bound groups last := by omega
        simp only [encodeGroups, if_neg hsmall, List.cons_append, decodeGroups, hbyte,
          if_neg hmore, ih hhigh rest, Except.ok.injEq, Prod.mk.injEq, and_true]
        omega

/-- What is read fits the width and took at least the groups the encoder writes. -/
theorem decodeGroups_sound (eof bad : ε) (last : Nat) :
    ∀ (groups : Nat) {input rest : Bytes} {n : Nat},
      decodeGroups eof bad last groups input = .ok (n, rest) →
      n < bound groups last ∧ ∃ used, input = used ++ rest ∧
        (encodeGroups groups n).length ≤ used.length := by
  intro groups
  induction groups with
  | zero =>
      intro input rest n h
      cases input with
      | nil => simp [decodeGroups] at h
      | cons b tail =>
          rw [decodeGroups] at h
          split at h
          · rename_i hle
            simp only [Except.ok.injEq, Prod.mk.injEq] at h
            obtain ⟨rfl, rfl⟩ := h
            exact ⟨by simpa [bound, Nat.lt_succ_iff] using hle, [b], rfl, Nat.le_refl 1⟩
          · cases h
  | succ groups ih =>
      intro input rest n h
      cases input with
      | nil => simp [decodeGroups] at h
      | cons b tail =>
          rw [decodeGroups] at h
          split at h
          · rename_i hsmall
            simp only [Except.ok.injEq, Prod.mk.injEq] at h
            obtain ⟨rfl, rfl⟩ := h
            refine ⟨?_, [b], rfl, by simp [encodeGroups, hsmall]⟩
            have hpos := bound_pos groups last
            rw [bound_succ]
            omega
          · rename_i hmore
            split at h
            · cases h
            · rename_i high rest' hhigh
              simp only [Except.ok.injEq, Prod.mk.injEq] at h
              obtain ⟨rfl, rfl⟩ := h
              obtain ⟨hbound, used, htail, hlen⟩ := ih hhigh
              have hb : b.toNat < 256 := b.toNat_lt
              refine ⟨by rw [bound_succ]; omega, b :: used, by rw [htail]; rfl, ?_⟩
              rw [encodeGroups]
              split
              · simp
              · have hdiv : (b.toNat - 128 + 128 * high) / 128 = high := by omega
                simpa [hdiv] using hlen

/-- The codec of the numbers below `bound groups last`. -/
def varint (eof bad : ε) (groups last : Nat) (hlast : last < 128) : Codec ε Nat where
  encode := encodeGroups groups
  decode := decodeGroups eof bad last groups
  Fits n := n < bound groups last
  decode_encode hfits rest := decodeGroups_encodeGroups eof bad last hlast groups hfits rest
  decode_sound h := decodeGroups_sound eof bad last groups h

end Sape.Foundation.Varint
