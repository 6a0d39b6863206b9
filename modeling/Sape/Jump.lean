/-
  Jump.lean --- `src/jump.rs`: the two control frames of a jump stream.

  The dialer and each relay send a `JumpChain` downstream; each relay answers
  upstream with one `JumpResult`.
-/
import Sape.Wire

set_option autoImplicit false

namespace Sape

open Sape.Foundation

/-- `MAX_JUMP_REQUEST_SIZE`. -/
def maxJumpRequestSize : Nat := 65536

/-- `struct JumpChain`: the hops that are still to be taken. -/
structure JumpChain where
  hops : List String
  deriving DecidableEq, Repr, Inhabited

/-- `enum JumpResult`. -/
inductive JumpResult where
  | ok
  | error (message : String)
  deriving DecidableEq, Repr, Inhabited

namespace JumpChain

/-- The postcard encoding of a chain. -/
def postcard : Codec PostcardError JumpChain :=
  Postcard.vecString.wrap JumpChain.mk JumpChain.hops (fun _ => rfl)

/-- A chain fits as soon as its encoding is shorter than `2 ^ 64` bytes. -/
theorem postcard_fits {chain : JumpChain}
    (hlen : (postcard.encode chain).length < 2 ^ 64) : postcard.Fits chain :=
  ⟨Postcard.vecString_fits hlen, rfl⟩

theorem length_encode (hops : List String) :
    (postcard.encode ⟨hops⟩).length =
      (Postcard.varintUsize.encode hops.length).length +
        (Codec.encodeAll Postcard.string hops).length := List.length_append

theorem length_encode_lt_cons (hop : String) (hops : List String) :
    (postcard.encode ⟨hops⟩).length < (postcard.encode ⟨hop :: hops⟩).length := by
  have hcount : (Postcard.varintUsize.encode hops.length).length ≤
      (Postcard.varintUsize.encode (hop :: hops).length).length :=
    Varint.length_encodeGroups_mono 9 (Nat.le_succ _)
  have hhop := Postcard.string_encode_pos hop
  rw [length_encode, length_encode, Codec.encodeAll, Codec.encodeAll, List.flatMap_cons,
    List.length_append]
  omega

theorem length_encode_drop_le (hops : List String) (i : Nat) :
    (postcard.encode ⟨hops.drop i⟩).length ≤ (postcard.encode ⟨hops⟩).length := by
  induction i generalizing hops with
  | zero => exact Nat.le_refl _
  | succ i ih =>
      cases hops with
      | nil => exact Nat.le_refl _
      | cons hop hops =>
          have hlt := length_encode_lt_cons hop hops
          have htail := ih hops
          rw [List.drop_succ_cons]
          omega

/-- The frame of a chain. -/
def frame : Frame PostcardError IoError JumpChain where
  payload := postcard
  max := maxJumpRequestSize
  eof := .unexpectedEof
  tooLarge len := .invalidData s!"jump request too large: {len} bytes (max {maxJumpRequestSize})"
  tooLong := .lengthOverflow
  invalid := .invalidPayload

end JumpChain

namespace JumpResult

/-- The variant index postcard writes. -/
def variantIndex : JumpResult → Nat
  | .ok => 0
  | .error _ => 1

/-- The fields of the variant with a given index. -/
def fields : Nat → Option (Codec PostcardError JumpResult)
  | 0 => some (Codec.unit.wrap (fun _ => .ok) (fun _ => ()) (fun _ => rfl))
  | 1 => some (Postcard.string.wrap .error
      (fun
        | .error message => message
        | .ok => "")
      (fun _ => rfl))
  | _ => none

theorem variantIndex_of_fields {n : Nat} {variant : Codec PostcardError JumpResult}
    {result : JumpResult} (hfields : fields n = some variant) (hfits : variant.Fits result) :
    result.variantIndex = n := by
  match n, hfields with
  | 0, rfl => exact congrArg variantIndex (Except.ok.inj hfits.2).symm
  | 1, rfl => exact congrArg variantIndex (Except.ok.inj hfits.2).symm

/-- The postcard encoding of a result. -/
def postcard : Codec PostcardError JumpResult :=
  Codec.tagged Postcard.varintU32 .serdeDeCustom variantIndex fields variantIndex_of_fields

@[simp] theorem encode_ok : postcard.encode .ok = [0] := rfl

@[simp] theorem encode_error (message : String) :
    postcard.encode (.error message) = 1 :: Postcard.string.encode message := rfl

/-- A result fits as soon as its encoding is shorter than `2 ^ 64` bytes. -/
theorem postcard_fits {result : JumpResult}
    (hlen : (postcard.encode result).length < 2 ^ 64) : postcard.Fits result := by
  cases result with
  | ok => exact ⟨Postcard.varintU32_fits (by decide), _, rfl, trivial, rfl⟩
  | error message =>
      have hstring : Postcard.string.Fits message := Postcard.string_fits (by
        rw [encode_error, List.length_cons] at hlen
        omega)
      exact ⟨Postcard.varintU32_fits (by decide : 1 < 2 ^ 32), _, rfl, hstring, rfl⟩

/-- The frame of a result. -/
def frame : Frame PostcardError IoError JumpResult where
  payload := postcard
  max := maxJumpRequestSize
  eof := .unexpectedEof
  tooLarge len := .invalidData s!"jump result too large: {len} bytes"
  tooLong := .lengthOverflow
  invalid := .invalidPayload

end JumpResult

/-- `read_jump_chain`: the chain, and what is left on the stream. -/
def readJumpChain (stream : Bytes) : Except IoError JumpChain × Bytes :=
  JumpChain.frame.read stream

/-- `write_jump_chain`: the bytes put on the stream. -/
def writeJumpChain (chain : JumpChain) : Except IoError Bytes :=
  JumpChain.frame.write chain

/-- `read_jump_result`: the result, and what is left on the stream. -/
def readJumpResult (stream : Bytes) : Except IoError JumpResult × Bytes :=
  JumpResult.frame.read stream

/-- `write_jump_result`: the bytes put on the stream. -/
def writeJumpResult (result : JumpResult) : Except IoError Bytes :=
  JumpResult.frame.write result

end Sape
