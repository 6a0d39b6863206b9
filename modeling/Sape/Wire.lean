/-
  Wire.lean --- what the three request formats share: the I/O errors their
  readers and writers report, and the postcard encoding of their fields.

  Postcard writes integers as base-128 varints of the width of their type, the
  index of an enum variant as a `u32` varint, strings and vectors behind a `usize`
  varint, and a bool as one byte.  `usize` is the 64-bit one.
-/
import Sape.Foundation.Varint
import Sape.Foundation.Frame

set_option autoImplicit false

namespace Sape

open Sape.Foundation

/-- Why postcard rejects its input. -/
inductive PostcardError where
  /-- the buffer ended inside a value -/
  | deserializeUnexpectedEnd
  /-- a varint that does not end, or overflows its type -/
  | deserializeBadVarint
  /-- a bool byte other than 0 and 1 -/
  | deserializeBadBool
  /-- a string that is not UTF-8 -/
  | deserializeBadUtf8
  /-- a variant index the enum does not have -/
  | serdeDeCustom
  deriving DecidableEq, Repr, Inhabited

/-- The `io::Error`s of the modelled code. -/
inductive IoError where
  /-- `read_exact` on a stream that ends too early -/
  | unexpectedEof
  /-- `InvalidData` with a message of the code's own -/
  | invalidData (message : String)
  /-- `InvalidData` with the message of a postcard error -/
  | invalidPayload (err : PostcardError)
  /-- `InvalidData` with the error of a failed `u32::try_from` -/
  | lengthOverflow
  /-- whatever the transport reports -/
  | transport (message : String)
  deriving DecidableEq, Repr, Inhabited

namespace Postcard

/-- A varint of a 16-bit type. -/
def varintU16 : Codec PostcardError Nat :=
  Varint.varint .deserializeUnexpectedEnd .deserializeBadVarint 2 3 (by decide)

/-- A varint of a 32-bit type: the index of an enum variant. -/
def varintU32 : Codec PostcardError Nat :=
  Varint.varint .deserializeUnexpectedEnd .deserializeBadVarint 4 15 (by decide)

/-- A varint of a 64-bit type: the length of a string or a vector. -/
def varintUsize : Codec PostcardError Nat :=
  Varint.varint .deserializeUnexpectedEnd .deserializeBadVarint 9 1 (by decide)

/-- `u16`. -/
def u16 : Codec PostcardError UInt16 :=
  varintU16.via UInt16.toNat
    (fun n => if n < 2 ^ 16 then .ok (UInt16.ofNat n) else .error .deserializeBadVarint)
    (by
      intro a n h
      split at h
      · rename_i hn
        rw [← Except.ok.inj h]
        exact UInt16.toNat_ofNat_of_lt' hn
      · cases h)

/-- `bool`. -/
def bool : Codec PostcardError Bool :=
  (Codec.byte .deserializeUnexpectedEnd).via (fun flag => if flag then 1 else 0)
    (fun b =>
      if b = 0 then .ok false else if b = 1 then .ok true else .error .deserializeBadBool)
    (by
      intro flag b h
      split at h
      · rename_i hzero
        rw [← Except.ok.inj h, hzero]
        rfl
      · split at h
        · rename_i hone
          rw [← Except.ok.inj h, hone]
          rfl
        · cases h)

/-- The UTF-8 bytes of a string. -/
def utf8Bytes (s : String) : Bytes := s.toByteArray.data.toList

/-- `str::from_utf8`. -/
def fromUtf8 (bytes : Bytes) : Option String := String.fromUTF8? ⟨bytes.toArray⟩

theorem utf8Bytes_of_fromUtf8 {bytes : Bytes} {s : String} (h : fromUtf8 bytes = some s) :
    utf8Bytes s = bytes := by
  simp only [fromUtf8, String.fromUTF8?] at h
  split at h
  · rw [← Option.some.inj h]
    rfl
  · cases h

theorem fromUtf8_utf8Bytes (s : String) : fromUtf8 (utf8Bytes s) = some s := by
  have hbytes : (⟨(utf8Bytes s).toArray⟩ : ByteArray) = s.toByteArray := by
    simp [utf8Bytes]
  rw [fromUtf8, hbytes, String.fromUTF8?, dif_pos s.isValidUTF8]
  rfl

/-- `String`. -/
def string : Codec PostcardError String :=
  (Codec.blob varintUsize .deserializeUnexpectedEnd).via utf8Bytes
    (fun bytes =>
      match fromUtf8 bytes with
      | none => .error .deserializeBadUtf8
      | some s => .ok s)
    (by
      intro s bytes h
      cases hs : fromUtf8 bytes with
      | none => simp [hs] at h
      | some s' =>
          simp only [hs, Except.ok.injEq] at h
          exact h ▸ utf8Bytes_of_fromUtf8 hs)

/-- `Vec<String>`. -/
def vecString : Codec PostcardError (List String) := Codec.seq varintUsize string

/-! ## Which values have room

A `usize` length is the only field that could run out of room, and a value whose
encoding is shorter than `2 ^ 64` bytes never makes it. -/

theorem varintUsize_fits {n : Nat} (hn : n < 2 ^ 64) : varintUsize.Fits n := by
  show n < Varint.bound 9 1
  simpa [Varint.bound] using hn

theorem varintU32_fits {n : Nat} (hn : n < 2 ^ 32) : varintU32.Fits n := by
  show n < Varint.bound 4 15
  simpa [Varint.bound] using hn

theorem length_string_encode (s : String) :
    (string.encode s).length =
      (varintUsize.encode (utf8Bytes s).length).length + (utf8Bytes s).length := by
  show (varintUsize.encode (utf8Bytes s).length ++ utf8Bytes s).length = _
  exact List.length_append

theorem string_encode_pos (s : String) : 0 < (string.encode s).length := by
  have hcount := Varint.length_encodeGroups_pos 9 (utf8Bytes s).length
  rw [length_string_encode]
  exact Nat.add_pos_left hcount _

theorem string_fits {s : String} (hlen : (string.encode s).length < 2 ^ 64) :
    string.Fits s := by
  rw [length_string_encode] at hlen
  refine ⟨varintUsize_fits (by omega), ?_⟩
  simp only [fromUtf8_utf8Bytes]

theorem u16_fits (n : UInt16) : u16.Fits n := by
  refine ⟨?_, ?_⟩
  · show n.toNat < Varint.bound 2 3
    simpa [Varint.bound] using n.toNat_lt
  · have hn : n.toNat < 2 ^ 16 := n.toNat_lt
    simp only [if_pos hn, UInt16.ofNat_toNat]

theorem bool_fits (flag : Bool) : bool.Fits flag :=
  ⟨trivial, by cases flag <;> rfl⟩

theorem length_le_encodeAll (values : List String) :
    values.length ≤ (Codec.encodeAll string values).length := by
  induction values with
  | nil => exact Nat.le_refl 0
  | cons s values ih =>
      have hpos := string_encode_pos s
      simp only [Codec.encodeAll, List.flatMap_cons, List.length_append, List.length_cons] at ih ⊢
      omega

theorem length_le_encodeAll_of_mem {values : List String} {s : String} (hmem : s ∈ values) :
    (string.encode s).length ≤ (Codec.encodeAll string values).length := by
  induction values with
  | nil => cases hmem
  | cons head values ih =>
      simp only [Codec.encodeAll, List.flatMap_cons, List.length_append] at ih ⊢
      cases List.mem_cons.mp hmem with
      | inl heq => rw [heq]; exact Nat.le_add_right _ _
      | inr htail => exact Nat.le_trans (ih htail) (Nat.le_add_left _ _)

theorem vecString_fits {values : List String}
    (hlen : (vecString.encode values).length < 2 ^ 64) : vecString.Fits values := by
  have hsplit : (vecString.encode values).length =
      (varintUsize.encode values.length).length +
        (Codec.encodeAll string values).length := List.length_append
  have hcount := length_le_encodeAll values
  refine ⟨varintUsize_fits (by omega), ?_⟩
  intro s hs
  have hle := length_le_encodeAll_of_mem hs
  exact string_fits (by omega)

end Postcard

end Sape
