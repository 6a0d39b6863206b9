/-
  Namespace.lean --- `src/lib.rs`: the checks of `run` on `SAPE_NAMESPACE`, and what they
  are good for.

  The namespace stands between two slashes in the names of the stream protocols.  As an
  admitted namespace has no slash in it, the names of two namespaces never coincide.
-/
import Sape.Foundation.Lists
import Sape.Protocol

set_option autoImplicit false

namespace Sape

open Sape.Foundation

/-- `char::is_ascii_control`. -/
def isAsciiControl (c : Char) : Bool := c.val ≤ 0x1f || c.val = 0x7f

/-- Why `run` leaves with a status of 1. -/
inductive NamespaceError where
  | empty
  | slash
  | notPrintable
  deriving DecidableEq, Repr, Inhabited

/-- What it writes to stderr. -/
def NamespaceError.text : NamespaceError → String
  | .empty => "error: SAPE_NAMESPACE must not be empty"
  | .slash => "error: SAPE_NAMESPACE must not contain '/'"
  | .notPrintable => "error: SAPE_NAMESPACE must contain only printable ASCII characters"

/-- The checks in front of the protocol names. -/
def checkNamespace (nspace : String) : Except NamespaceError Unit :=
  if nspace.toList.isEmpty then .error .empty
  else if nspace.toList.contains '/' then .error .slash
  else if !nspace.toList.all (fun c => c.val < 0x80) || nspace.toList.any isAsciiControl then
    .error .notPrintable
  else .ok ()

/-- A namespace that `run` goes on with. -/
structure Namespace where
  name : String
  admitted : checkNamespace name = .ok ()
  deriving DecidableEq

theorem Namespace.slash_not_mem (nspace : Namespace) : '/' ∉ nspace.name.toList := by
  have hadmitted := nspace.admitted
  unfold checkNamespace at hadmitted
  split at hadmitted
  · cases hadmitted
  · split at hadmitted
    · cases hadmitted
    · rename_i hslash
      exact fun hmem => hslash (List.contains_iff_mem.mpr hmem)

/-- The protocols of a namespace. -/
def streamProtocols (nspace : String) : List StreamProtocol :=
  [tunnelProtocol nspace, jumpProtocol nspace]

/-- Both names are the namespace between two slashes, and something behind it. -/
theorem name_of_mem_streamProtocols {nspace : String} {protocol : StreamProtocol}
    (hmem : protocol ∈ streamProtocols nspace) :
    ∃ suffix, protocol.name.toList = '/' :: (nspace.toList ++ '/' :: suffix) := by
  rcases List.mem_cons.mp hmem with rfl | hmem
  · refine ⟨"tunnel/1.0.0".toList, ?_⟩
    simp [tunnelProtocol, tunnelProtocolVersion, String.toList_append, toString]
  · obtain rfl := List.mem_singleton.mp hmem
    refine ⟨"jump/1.0.0".toList, ?_⟩
    simp [jumpProtocol, jumpProtocolVersion, String.toList_append, toString]

/-- No protocol belongs to two namespaces. -/
theorem eq_of_mem_streamProtocols {left right : Namespace} {protocol : StreamProtocol}
    (hleft : protocol ∈ streamProtocols left.name)
    (hright : protocol ∈ streamProtocols right.name) : left = right := by
  obtain ⟨suffix, hname⟩ := name_of_mem_streamProtocols hleft
  obtain ⟨suffix', hname'⟩ := name_of_mem_streamProtocols hright
  have htail := (List.cons.inj (hname.symm.trans hname')).2
  have hchars := eq_of_append_separator left.slash_not_mem right.slash_not_mem htail
  have hlist : left.name = right.name := String.toList_inj.mp hchars
  cases left
  cases right
  obtain rfl := hlist
  rfl

end Sape
