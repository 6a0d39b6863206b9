/-
  Frames.lean --- the three request frames as one codec on a shared stream.

  Raw tunnel bytes follow a request frame, and payload follows the control frames
  of a jump stream, so a reader may not take one byte more than the frame.
-/
import Sape.Tunnel
import Sape.Jump

set_option autoImplicit false

namespace Sape

open Sape.Foundation

/-- A writer and its reader round trip inside a stream: up to `limit` payload
bytes the value comes back and what follows is untouched, above it the reader
fails on the length field alone, and a payload whose length has no four-byte field
is refused before the first byte is written. -/
def RoundTripsInStream {α : Type} (limit : Nat) (encode : α → Bytes)
    (write : α → Except IoError Bytes) (read : Bytes → Except IoError α × Bytes) : Prop :=
  ∀ a : α,
    ((encode a).length < 2 ^ 32 →
      ∃ written, write a = .ok written ∧ ∀ following : Bytes,
        ((encode a).length ≤ limit → read (written ++ following) = (.ok a, following)) ∧
        (limit < (encode a).length →
          ∃ err, read (written ++ following) = (.error err, (written ++ following).drop 4))) ∧
    (2 ^ 32 ≤ (encode a).length → ∃ err, write a = .error err)

/-- A frame format whose values fit once their encoding is short round trips. -/
theorem roundTripsInStream_of_fits {κ α : Type} (frame : Frame κ IoError α)
    (hfits : ∀ a, (frame.payload.encode a).length < 2 ^ 64 → frame.payload.Fits a) :
    RoundTripsInStream frame.max frame.payload.encode frame.write frame.read := by
  intro a
  constructor
  · intro hlen
    refine ⟨_, Frame.write_of_lt hlen, fun following => ⟨fun hmax => ?_, fun hmax => ?_⟩⟩
    · exact Frame.read_write (hfits a (by omega)) hmax (Frame.write_of_lt hlen) following
    · exact ⟨_, Frame.read_write_tooLarge hmax (Frame.write_of_lt hlen) following⟩
  · intro hlen
    exact ⟨frame.tooLong, if_neg (Nat.not_lt.mpr hlen)⟩

/-- All three frames of the two protocols round trip inside a stream. -/
theorem frames_roundTrip_in_stream :
    RoundTripsInStream 65536 TunnelRequest.postcard.encode
        writeTunnelRequest readTunnelRequest ∧
      RoundTripsInStream 65536 JumpChain.postcard.encode writeJumpChain readJumpChain ∧
      RoundTripsInStream 65536 JumpResult.postcard.encode writeJumpResult readJumpResult :=
  ⟨roundTripsInStream_of_fits TunnelRequest.frame fun _ => TunnelRequest.postcard_fits,
    roundTripsInStream_of_fits JumpChain.frame fun _ => JumpChain.postcard_fits,
    roundTripsInStream_of_fits JumpResult.frame fun _ => JumpResult.postcard_fits⟩

example : (readTunnelRequest [0, 0, 0, 3, 1, 1, 97, 9, 9]).1 = .ok (.localForward "a") := by
  decide

end Sape
