/-
  Protocol.lean --- `src/protocol.rs`: the names of the two stream protocols.
-/
import Mathlib.Data.List.Basic

set_option autoImplicit false

namespace Sape

/-- `libp2p::StreamProtocol`: a protocol is its name. -/
structure StreamProtocol where
  name : String
  deriving DecidableEq, Repr, Inhabited

/-- `TUNNEL_PROTOCOL_VERSION`. -/
def tunnelProtocolVersion : String := "1.0.0"
/-- `JUMP_PROTOCOL_VERSION`. -/
def jumpProtocolVersion : String := "1.0.0"

/-- `tunnel_protocol`. -/
def tunnelProtocol (nspace : String) : StreamProtocol :=
  ⟨s!"/{nspace}/tunnel/{tunnelProtocolVersion}"⟩

/-- `jump_protocol`. -/
def jumpProtocol (nspace : String) : StreamProtocol :=
  ⟨s!"/{nspace}/jump/{jumpProtocolVersion}"⟩

/-- Within one namespace the two protocols are told apart. -/
theorem tunnelProtocol_ne_jumpProtocol (nspace : String) :
    tunnelProtocol nspace ≠ jumpProtocol nspace := by
  intro h
  have hlen := congrArg (fun protocol => protocol.name.length) h
  simp [tunnelProtocol, jumpProtocol, tunnelProtocolVersion, jumpProtocolVersion,
    String.length_append] at hlen
  exact absurd hlen (by decide)

end Sape
