/-
  Tunnel.lean --- `src/tunnel.rs`: the request that opens every tunnel stream.

  The request is one frame (`Foundation/Frame.lean`) with a postcard payload; raw
  tunnel bytes follow it on the same stream.
-/
import Sape.Wire

set_option autoImplicit false

namespace Sape

open Sape.Foundation

/-- `REVERSE_OK`. -/
def reverseOk : UInt8 := 0x00
/-- `REVERSE_FAILED`. -/
def reverseFailed : UInt8 := 0x01
/-- `MAX_REQUEST_SIZE`. -/
def maxRequestSize : Nat := 65536

/-- `enum TunnelRequest`. -/
inductive TunnelRequest where
  | netcat
  | localForward (target : String)
  | reverseForward (bindPort : UInt16) (target : String) (gatewayPorts : Bool)
  deriving DecidableEq, Repr, Inhabited

namespace TunnelRequest

/-- The variant index postcard writes. -/
def variantIndex : TunnelRequest → Nat
  | .netcat => 0
  | .localForward _ => 1
  | .reverseForward _ _ _ => 2

/-- The fields of `LocalForward`. -/
def localFields : Codec PostcardError TunnelRequest :=
  Postcard.string.wrap .localForward
    (fun
      | .localForward target => target
      | _ => "")
    (fun _ => rfl)

/-- The fields of `ReverseForward`, in declaration order. -/
def reverseFields : Codec PostcardError TunnelRequest :=
  (Postcard.u16.pair (Postcard.string.pair Postcard.bool)).wrap
    (fun fields => .reverseForward fields.1 fields.2.1 fields.2.2)
    (fun
      | .reverseForward bindPort target gatewayPorts => (bindPort, target, gatewayPorts)
      | _ => (0, "", false))
    (fun _ => rfl)

/-- The fields of the variant with a given index. -/
def fields : Nat → Option (Codec PostcardError TunnelRequest)
  | 0 => some (Codec.unit.wrap (fun _ => .netcat) (fun _ => ()) (fun _ => rfl))
  | 1 => some localFields
  | 2 => some reverseFields
  | _ => none

theorem variantIndex_of_fields {n : Nat} {variant : Codec PostcardError TunnelRequest}
    {req : TunnelRequest} (hfields : fields n = some variant) (hfits : variant.Fits req) :
    req.variantIndex = n := by
  match n, hfields with
  | 0, rfl => exact congrArg variantIndex (Except.ok.inj hfits.2).symm
  | 1, rfl => exact congrArg variantIndex (Except.ok.inj hfits.2).symm
  | 2, rfl => exact congrArg variantIndex (Except.ok.inj hfits.2).symm

/-- The postcard encoding of a request. -/
def postcard : Codec PostcardError TunnelRequest :=
  Codec.tagged Postcard.varintU32 .serdeDeCustom variantIndex fields variantIndex_of_fields

@[simp] theorem encode_netcat : postcard.encode .netcat = [0] := rfl

@[simp] theorem encode_localForward (target : String) :
    postcard.encode (.localForward target) = 1 :: Postcard.string.encode target := rfl

@[simp] theorem encode_reverseForward (bindPort : UInt16) (target : String)
    (gatewayPorts : Bool) :
    postcard.encode (.reverseForward bindPort target gatewayPorts) =
      2 :: (Postcard.u16.encode bindPort ++
        (Postcard.string.encode target ++ Postcard.bool.encode gatewayPorts)) := rfl

/-- A request fits as soon as its encoding is shorter than `2 ^ 64` bytes. -/
theorem postcard_fits {req : TunnelRequest}
    (hlen : (postcard.encode req).length < 2 ^ 64) : postcard.Fits req := by
  cases req with
  | netcat => exact ⟨Postcard.varintU32_fits (by decide), _, rfl, trivial, rfl⟩
  | localForward target =>
      have hstring : Postcard.string.Fits target := Postcard.string_fits (by
        rw [encode_localForward, List.length_cons] at hlen
        omega)
      exact ⟨Postcard.varintU32_fits (by decide : 1 < 2 ^ 32), _, rfl, hstring, rfl⟩
  | reverseForward bindPort target gatewayPorts =>
      have hstring : Postcard.string.Fits target := Postcard.string_fits (by
        simp only [encode_reverseForward, List.length_cons, List.length_append] at hlen
        omega)
      exact ⟨Postcard.varintU32_fits (by decide : 2 < 2 ^ 32), _, rfl,
        ⟨Postcard.u16_fits bindPort, hstring, Postcard.bool_fits gatewayPorts⟩, rfl⟩

/-- The frame of a tunnel request. -/
def frame : Frame PostcardError IoError TunnelRequest where
  payload := postcard
  max := maxRequestSize
  eof := .unexpectedEof
  tooLarge len := .invalidData s!"tunnel request too large: {len} bytes (max {maxRequestSize})"
  tooLong := .lengthOverflow
  invalid := .invalidPayload

end TunnelRequest

/-- `read_tunnel_request`: the request, and what is left on the stream. -/
def readTunnelRequest (stream : Bytes) : Except IoError TunnelRequest × Bytes :=
  TunnelRequest.frame.read stream

/-- `write_tunnel_request`: the bytes put on the stream. -/
def writeTunnelRequest (req : TunnelRequest) : Except IoError Bytes :=
  TunnelRequest.frame.write req

end Sape
