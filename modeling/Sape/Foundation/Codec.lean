/-
  Foundation/Codec.lean --- byte codecs that decode a prefix of their input.

  A codec carries its two laws as fields, so a format put together from the
  combinators below is correct by construction:

      decode_encode   decoding the encoding of `a`, whatever follows it, gives
                      back `a` and exactly what followed
      decode_sound    an accepted input is some used part and the rest, and the
                      used part is never shorter than the encoding of the value

  The second law is what a format with more than one spelling of a value can
  promise.  It says that the encoder is the shortest spelling, so that
  re-encoding a decoded value cannot outgrow the input it came from.

  The module knows nothing of any particular format: the length codec of a
  sequence, the errors, and the element codecs are all parameters.
-/
import Mathlib.Data.List.Basic

set_option autoImplicit false

namespace Sape.Foundation

/-- A byte string. -/
abbrev Bytes : Type := List UInt8

/-- A format for values of `α` whose decoder consumes a prefix of its input. -/
structure Codec (ε α : Type) where
  /-- The bytes of a value. -/
  encode : α → Bytes
  /-- The value at the front of an input, and the input behind it. -/
  decode : Bytes → Except ε (α × Bytes)
  /-- The values the format has room for. -/
  Fits : α → Prop
  decode_encode : ∀ {a : α}, Fits a → ∀ rest : Bytes,
    decode (encode a ++ rest) = .ok (a, rest)
  decode_sound : ∀ {input rest : Bytes} {a : α}, decode input = .ok (a, rest) →
    Fits a ∧ ∃ used, input = used ++ rest ∧ (encode a).length ≤ used.length

namespace Codec

variable {ε α β : Type}

/-- The format of the one-element type: no bytes at all. -/
def unit : Codec ε Unit where
  encode _ := []
  decode input := .ok ((), input)
  Fits _ := True
  decode_encode _ _ := rfl
  decode_sound := by
    intro input rest a h
    simp only [Except.ok.injEq, Prod.mk.injEq, true_and] at h
    exact ⟨trivial, [], by simp [h], Nat.le_refl 0⟩

/-- One raw byte. -/
def byte (eof : ε) : Codec ε UInt8 where
  encode b := [b]
  decode
    | [] => .error eof
    | b :: rest => .ok (b, rest)
  Fits _ := True
  decode_encode _ _ := rfl
  decode_sound := by
    intro input rest a h
    cases input with
    | nil => simp at h
    | cons b tail =>
        simp only [Except.ok.injEq, Prod.mk.injEq] at h
        exact ⟨trivial, [b], by simp [h.2], Nat.le_refl 1⟩

/-- One value after the other. -/
def pair (first : Codec ε α) (second : Codec ε β) : Codec ε (α × β) where
  encode p := first.encode p.1 ++ second.encode p.2
  decode input :=
    match first.decode input with
    | .error e => .error e
    | .ok (a, input) =>
        match second.decode input with
        | .error e => .error e
        | .ok (b, rest) => .ok ((a, b), rest)
  Fits p := first.Fits p.1 ∧ second.Fits p.2
  decode_encode := by
    rintro ⟨a, b⟩ ⟨ha, hb⟩ rest
    simp only [List.append_assoc, first.decode_encode ha, second.decode_encode hb]
  decode_sound := by
    rintro input rest ⟨a, b⟩ h
    split at h
    · cases h
    · rename_i a' mid hfirst
      split at h
      · cases h
      · rename_i b' rest' hsecond
        simp only [Except.ok.injEq, Prod.mk.injEq] at h
        obtain ⟨⟨rfl, rfl⟩, rfl⟩ := h
        obtain ⟨ha, usedA, hinput, hlenA⟩ := first.decode_sound hfirst
        obtain ⟨hb, usedB, hmid, hlenB⟩ := second.decode_sound hsecond
        refine ⟨⟨ha, hb⟩, usedA ++ usedB, ?_, ?_⟩
        · rw [hinput, hmid, List.append_assoc]
        · simp only [List.length_append]
          omega

/-- A format carried by another: `out` says what is written for a value, `parse`
which written values are accepted and what they mean. -/
def via (carrier : Codec ε β) (out : α → β) (parse : β → Except ε α)
    (parse_inv : ∀ {a b}, parse b = .ok a → out a = b) : Codec ε α where
  encode a := carrier.encode (out a)
  decode input :=
    match carrier.decode input with
    | .error e => .error e
    | .ok (b, rest) =>
        match parse b with
        | .error e => .error e
        | .ok a => .ok (a, rest)
  Fits a := carrier.Fits (out a) ∧ parse (out a) = .ok a
  decode_encode := by
    rintro a ⟨hfits, hparse⟩ rest
    simp only [carrier.decode_encode hfits, hparse]
  decode_sound := by
    intro input rest a h
    split at h
    · cases h
    · rename_i b mid hcarrier
      split at h
      · cases h
      · rename_i a' hparse
        simp only [Except.ok.injEq, Prod.mk.injEq] at h
        obtain ⟨rfl, rfl⟩ := h
        have hout : out a' = b := parse_inv hparse
        obtain ⟨hfits, used, hinput, hlen⟩ := carrier.decode_sound hcarrier
        rw [hout]
        exact ⟨⟨hfits, hparse⟩, used, hinput, hlen⟩

/-- The values of a wrapper type, written as what they wrap. -/
def wrap (carrier : Codec ε β) (mk : β → α) (get : α → β)
    (get_mk : ∀ b, get (mk b) = b) : Codec ε α :=
  carrier.via get (fun b => .ok (mk b)) (by
    intro a b h
    rw [← Except.ok.inj h, get_mk])

/-- A count and that many raw bytes. -/
def blob (count : Codec ε Nat) (eof : ε) : Codec ε Bytes where
  encode bytes := count.encode bytes.length ++ bytes
  decode input :=
    match count.decode input with
    | .error e => .error e
    | .ok (n, input) =>
        if n ≤ input.length then .ok (input.take n, input.drop n) else .error eof
  Fits bytes := count.Fits bytes.length
  decode_encode := by
    intro bytes hfits rest
    simp [List.append_assoc, count.decode_encode hfits]
  decode_sound := by
    intro input rest bytes h
    split at h
    · cases h
    · rename_i n mid hcount
      split at h
      · rename_i hle
        simp only [Except.ok.injEq, Prod.mk.injEq] at h
        obtain ⟨rfl, rfl⟩ := h
        obtain ⟨hfits, used, hinput, hlen⟩ := count.decode_sound hcount
        have htake : (mid.take n).length = n := by
          rw [List.length_take]
          omega
        refine ⟨by rw [htake]; exact hfits, used ++ mid.take n, ?_, ?_⟩
        · rw [List.append_assoc, List.take_append_drop, hinput]
        · simp only [List.length_append, htake]
          omega
      · cases h

/-! ## Sequences -/

/-- The encodings of the elements, one behind the other. -/
def encodeAll (element : Codec ε α) (values : List α) : Bytes :=
  values.flatMap element.encode

/-- Decode a fixed number of elements. -/
def decodeN (element : Codec ε α) : Nat → Bytes → Except ε (List α × Bytes)
  | 0, input => .ok ([], input)
  | n + 1, input =>
      match element.decode input with
      | .error e => .error e
      | .ok (a, input) =>
          match decodeN element n input with
          | .error e => .error e
          | .ok (rest, input) => .ok (a :: rest, input)

theorem decodeN_encodeAll (element : Codec ε α) :
    ∀ (values : List α), (∀ a ∈ values, element.Fits a) → ∀ rest : Bytes,
      decodeN element values.length (encodeAll element values ++ rest) =
        .ok (values, rest) := by
  intro values
  induction values with
  | nil => intro _ rest; rfl
  | cons a values ih =>
      intro hfits rest
      have ha : element.Fits a := hfits a List.mem_cons_self
      have hvalues := ih (fun b hb => hfits b (List.mem_cons_of_mem a hb)) rest
      have hsplit : encodeAll element (a :: values) ++ rest =
          element.encode a ++ (encodeAll element values ++ rest) := by
        simp [encodeAll, List.append_assoc]
      rw [hsplit, List.length_cons]
      simp only [decodeN, element.decode_encode ha, hvalues]

theorem decodeN_sound (element : Codec ε α) :
    ∀ (n : Nat) {input rest : Bytes} {values : List α},
      decodeN element n input = .ok (values, rest) →
      values.length = n ∧ (∀ a ∈ values, element.Fits a) ∧
        ∃ used, input = used ++ rest ∧
          (encodeAll element values).length ≤ used.length := by
  intro n
  induction n with
  | zero =>
      intro input rest values h
      simp only [decodeN, Except.ok.injEq, Prod.mk.injEq] at h
      obtain ⟨rfl, rfl⟩ := h
      exact ⟨rfl, by simp, [], rfl, Nat.le_refl 0⟩
  | succ n ih =>
      intro input rest values h
      rw [decodeN] at h
      split at h
      · cases h
      · rename_i a mid ha
        split at h
        · cases h
        · rename_i tail rest' htail
          simp only [Except.ok.injEq, Prod.mk.injEq] at h
          obtain ⟨rfl, rfl⟩ := h
          obtain ⟨hafits, usedA, hinput, hlenA⟩ := element.decode_sound ha
          obtain ⟨hn, hall, usedT, hmid, hlenT⟩ := ih htail
          refine ⟨by simp [hn], ?_, usedA ++ usedT, ?_, ?_⟩
          · intro b hb
            cases List.mem_cons.mp hb with
            | inl heq => exact heq ▸ hafits
            | inr hmem => exact hall b hmem
          · rw [hinput, hmid, List.append_assoc]
          · simp only [encodeAll, List.flatMap_cons, List.length_append] at hlenT ⊢
            omega

/-- A count and that many elements. -/
def seq (count : Codec ε Nat) (element : Codec ε α) : Codec ε (List α) where
  encode values := count.encode values.length ++ encodeAll element values
  decode input :=
    match count.decode input with
    | .error e => .error e
    | .ok (n, input) => decodeN element n input
  Fits values := count.Fits values.length ∧ ∀ a ∈ values, element.Fits a
  decode_encode := by
    rintro values ⟨hcount, hall⟩ rest
    simp only [List.append_assoc, count.decode_encode hcount]
    exact decodeN_encodeAll element values hall rest
  decode_sound := by
    intro input rest values h
    split at h
    · cases h
    · rename_i n mid hcount
      obtain ⟨hfits, usedC, hinput, hlenC⟩ := count.decode_sound hcount
      obtain ⟨hn, hall, usedE, hmid, hlenE⟩ := decodeN_sound element n h
      subst hn
      refine ⟨⟨hfits, hall⟩, usedC ++ usedE, ?_, ?_⟩
      · rw [hinput, hmid, List.append_assoc]
      · simp only [List.length_append]
        omega

/-! ## Tagged unions -/

/-- A discriminant and the payload of the variant it selects.  `branch n` is the
format of the variant with discriminant `n`, as a format for the whole type that
fits only values of that variant. -/
def tagged (discriminant : Codec ε Nat) (unknown : ε) (tag : α → Nat)
    (branch : Nat → Option (Codec ε α))
    (branch_tag : ∀ {n variant a}, branch n = some variant → variant.Fits a → tag a = n) :
    Codec ε α where
  encode a :=
    discriminant.encode (tag a) ++
      match branch (tag a) with
      | none => []
      | some variant => variant.encode a
  decode input :=
    match discriminant.decode input with
    | .error e => .error e
    | .ok (n, input) =>
        match branch n with
        | none => .error unknown
        | some variant => variant.decode input
  Fits a := discriminant.Fits (tag a) ∧
    ∃ variant, branch (tag a) = some variant ∧ variant.Fits a
  decode_encode := by
    rintro a ⟨htag, variant, hbranch, hfits⟩ rest
    simp only [hbranch, List.append_assoc, discriminant.decode_encode htag,
      variant.decode_encode hfits]
  decode_sound := by
    intro input rest a h
    split at h
    · cases h
    · rename_i n mid hdisc
      split at h
      · cases h
      · rename_i variant hbranch
        obtain ⟨hdfits, usedD, hinput, hlenD⟩ := discriminant.decode_sound hdisc
        obtain ⟨hvfits, usedV, hmid, hlenV⟩ := variant.decode_sound h
        have htag : tag a = n := branch_tag hbranch hvfits
        subst htag
        refine ⟨⟨hdfits, variant, hbranch, hvfits⟩, usedD ++ usedV, ?_, ?_⟩
        · rw [hinput, hmid, List.append_assoc]
        · simp only [hbranch, List.length_append]
          omega

end Codec

end Sape.Foundation
