/-
  Types.lean --- `src/types.rs`: peer ids, multiaddrs, and the three functions
  that take a multiaddr apart.

  A multiaddr is the list of its components.  The modelled code looks at the
  components named here; every other one (`/wss`, `/http`, ...) is `other`.  Text
  forms come from the libp2p crates and are parameters.
-/
import Sape.Wire

set_option autoImplicit false

namespace Sape

open Sape.Foundation

/-- `libp2p::PeerId`: the multihash of a public key. -/
structure PeerId where
  multihash : Bytes
  deriving DecidableEq, Repr, Inhabited

/-- `multiaddr::Protocol`: one component of an address. -/
inductive Protocol where
  | ip4 (addr : UInt32)
  | ip6 (addr : BitVec 128)
  | dns (name : String)
  | tcp (port : UInt16)
  | udp (port : UInt16)
  | quicV1
  | ws (path : String)
  | p2p (peer : PeerId)
  | p2pCircuit
  | other (text : String)
  deriving DecidableEq, Repr, Inhabited

/-- `Multiaddr`. -/
abbrev Multiaddr : Type := List Protocol

/-- The text forms of peer ids and addresses, which the libp2p crates provide. -/
structure Libp2pText where
  printPeerId : PeerId → String
  parsePeerId : String → Except String PeerId
  printMultiaddr : Multiaddr → String
  parseMultiaddr : String → Except String Multiaddr

/-- Text forms given by a table of addresses, for running the model on concrete
inputs. -/
def Libp2pText.ofTable (table : List (String × Multiaddr)) : Libp2pText where
  printPeerId _ := "peer"
  parsePeerId _ := .error "not in the table"
  printMultiaddr addr := ((table.find? fun entry => entry.2 = addr).map Prod.fst).getD "/"
  parseMultiaddr s :=
    match table.lookup s with
    | some addr => .ok addr
    | none => .error "not in the table"

/-- `eyre::Report`: an I/O error, a message, or a message wrapped around either. -/
inductive Report where
  | io (err : IoError)
  | msg (text : String)
  | wrap (text : String) (source : Report)
  deriving DecidableEq, Repr, Inhabited

/-- `enum AddressError`. -/
inductive AddressError where
  | missingPeerId
  | unsupportedTransport
  | missingCircuit
  | missingListenerPeerId
  deriving DecidableEq, Repr, Inhabited

/-- The `#[error]` texts. -/
def AddressError.text : AddressError → String
  | .missingPeerId => "missing '/p2p/<relay-peer-id>' suffix"
  | .unsupportedTransport =>
      "unsupported transport; use '/tcp/<port>/p2p/...' or '/udp/<port>/quic-v1/p2p/...'"
  | .missingCircuit => "missing '/p2p-circuit' in relay circuit address"
  | .missingListenerPeerId =>
      "missing listener '/p2p/<listener-peer-id>' suffix in circuit address"

/-! ## Relay addresses -/

/-- The four flags of `validate_relay_address`. -/
structure RelayAddressFlags where
  hasP2p : Bool := false
  hasTcp : Bool := false
  hasUdp : Bool := false
  hasQuicV1 : Bool := false
  deriving DecidableEq, Repr, Inhabited

/-- One turn of the loop in `validate_relay_address`. -/
def RelayAddressFlags.see (flags : RelayAddressFlags) : Protocol → RelayAddressFlags
  | .p2p _ => { flags with hasP2p := true }
  | .tcp _ => { flags with hasTcp := true }
  | .udp _ => { flags with hasUdp := true }
  | .quicV1 => { flags with hasQuicV1 := true }
  | _ => flags

/-- `validate_relay_address`. -/
def validateRelayAddress (addr : Multiaddr) : Except AddressError Unit :=
  let flags := addr.foldl RelayAddressFlags.see {}
  if !flags.hasP2p then .error .missingPeerId
  else if flags.hasTcp || (flags.hasUdp && flags.hasQuicV1) then .ok ()
  else .error .unsupportedTransport

/-- The peer id of a `/p2p` component. -/
def Protocol.p2pPeer : Protocol → Option PeerId
  | .p2p peer => some peer
  | _ => none

/-- `peer_id_from_multiaddr`: the first `/p2p` component. -/
def peerIdFromMultiaddr (addr : Multiaddr) : Option PeerId :=
  addr.findSome? Protocol.p2pPeer

/-! ## Circuit addresses -/

/-- The locals of `relay_base_from_circuit_address`. -/
structure CircuitScan where
  relayBase : Multiaddr := []
  seenCircuit : Bool := false
  remotePeer : Option PeerId := none
  deriving DecidableEq, Repr, Inhabited

/-- One turn of its loop: components in front of the first `/p2p-circuit` go to the
base, behind it the last `/p2p` wins. -/
def CircuitScan.see (scan : CircuitScan) (protocol : Protocol) : CircuitScan :=
  if !scan.seenCircuit then
    if protocol = .p2pCircuit then { scan with seenCircuit := true }
    else { scan with relayBase := scan.relayBase ++ [protocol] }
  else
    match protocol with
    | .p2p peer => { scan with remotePeer := some peer }
    | _ => scan

/-- `relay_base_from_circuit_address`. -/
def relayBaseFromCircuitAddress (addr : Multiaddr) :
    Except AddressError (Multiaddr × PeerId) :=
  let scan := addr.foldl CircuitScan.see {}
  if !scan.seenCircuit then .error .missingCircuit
  else
    match scan.remotePeer with
    | none => .error .missingListenerPeerId
    | some remotePeer =>
        match validateRelayAddress scan.relayBase with
        | .error err => .error err
        | .ok () => .ok (scan.relayBase, remotePeer)

/-! ## What the scans compute -/

/-- The scan of an address without `/p2p-circuit` only grows the base. -/
theorem foldl_see_of_not_mem {addr : Multiaddr} (hnot : Protocol.p2pCircuit ∉ addr)
    (base : Multiaddr) :
    addr.foldl CircuitScan.see { relayBase := base } = { relayBase := base ++ addr } := by
  induction addr generalizing base with
  | nil => simp
  | cons protocol rest ih =>
      have hhead : protocol ≠ .p2pCircuit := fun h => hnot (h ▸ List.mem_cons_self)
      have htail : Protocol.p2pCircuit ∉ rest := fun h => hnot (List.mem_cons_of_mem _ h)
      rw [List.foldl_cons]
      have hsee : CircuitScan.see { relayBase := base } protocol =
          { relayBase := base ++ [protocol] } := by
        simp [CircuitScan.see, hhead]
      rw [hsee, ih htail]
      simp

/-- Behind the circuit component the base does not change any more. -/
theorem foldl_see_after_circuit (rest : Multiaddr) (scan : CircuitScan)
    (hseen : scan.seenCircuit = true) :
    (rest.foldl CircuitScan.see scan).relayBase = scan.relayBase ∧
      (rest.foldl CircuitScan.see scan).seenCircuit = true := by
  induction rest generalizing scan with
  | nil => exact ⟨rfl, hseen⟩
  | cons protocol rest ih =>
      have hsee : (scan.see protocol).relayBase = scan.relayBase ∧
          (scan.see protocol).seenCircuit = true := by
        unfold CircuitScan.see
        rw [if_neg (by simp [hseen])]
        split <;> exact ⟨rfl, hseen⟩
      rw [List.foldl_cons]
      obtain ⟨hbase, hdone⟩ := ih (scan.see protocol) hsee.2
      exact ⟨hbase.trans hsee.1, hdone⟩

/-- An address that `relay_base_from_circuit_address` accepts is the base it
returns, the circuit component, and a rest. -/
theorem relayBase_spec {addr base : Multiaddr} {remote : PeerId}
    (h : relayBaseFromCircuitAddress addr = .ok (base, remote)) :
    (∃ rest, addr = base ++ .p2pCircuit :: rest) ∧ validateRelayAddress base = .ok () := by
  by_cases hmem : Protocol.p2pCircuit ∈ addr
  · obtain ⟨front, rest, rfl, hfront⟩ := List.eq_append_cons_of_mem hmem
    have hscan : (front ++ Protocol.p2pCircuit :: rest).foldl CircuitScan.see {} =
        rest.foldl CircuitScan.see { relayBase := front, seenCircuit := true } := by
      rw [List.foldl_append, foldl_see_of_not_mem hfront, List.foldl_cons]
      rfl
    obtain ⟨hbase, hseen⟩ := foldl_see_after_circuit rest
      { relayBase := front, seenCircuit := true } rfl
    simp only [relayBaseFromCircuitAddress, hscan, hseen, Bool.not_true, Bool.false_eq_true,
      if_false, hbase] at h
    split at h
    · cases h
    · split at h
      · cases h
      · rename_i hvalid
        simp only [Except.ok.injEq, Prod.mk.injEq] at h
        obtain ⟨rfl, -⟩ := h
        exact ⟨⟨rest, rfl⟩, hvalid⟩
  · have hscan := foldl_see_of_not_mem hmem []
    simp only [relayBaseFromCircuitAddress] at h
    rw [hscan] at h
    cases h

theorem see_hasP2p (flags : RelayAddressFlags) (protocol : Protocol) :
    (flags.see protocol).hasP2p = (flags.hasP2p || protocol.p2pPeer.isSome) := by
  cases protocol with
  | p2p peer => exact (Bool.or_true _).symm
  | _ => exact (Bool.or_false _).symm

theorem foldl_see_hasP2p (addr : Multiaddr) (flags : RelayAddressFlags) :
    (addr.foldl RelayAddressFlags.see flags).hasP2p =
      (flags.hasP2p || (peerIdFromMultiaddr addr).isSome) := by
  induction addr generalizing flags with
  | nil => simp [peerIdFromMultiaddr]
  | cons protocol rest ih =>
      rw [List.foldl_cons, ih, see_hasP2p, Bool.or_assoc]
      cases hpeer : protocol.p2pPeer <;> simp [peerIdFromMultiaddr, hpeer]

/-- `peer_id_from_multiaddr` returns the first `/p2p` component, whatever follows. -/
theorem peerIdFromMultiaddr_eq_some {addr : Multiaddr} {peer : PeerId} :
    peerIdFromMultiaddr addr = some peer ↔
      ∃ front back, addr = front ++ .p2p peer :: back ∧ ∀ other, Protocol.p2p other ∉ front := by
  simp only [peerIdFromMultiaddr, List.findSome?_eq_some_iff]
  constructor
  · rintro ⟨front, protocol, back, rfl, hpeer, hfront⟩
    obtain rfl : protocol = .p2p peer := by
      cases protocol <;> simp_all [Protocol.p2pPeer]
    exact ⟨front, back, rfl, fun other hmem => by cases hfront _ hmem⟩
  · rintro ⟨front, back, rfl, hfront⟩
    refine ⟨front, .p2p peer, back, rfl, rfl, fun protocol hmem => ?_⟩
    cases protocol
    case p2p other => exact absurd hmem (hfront other)
    all_goals rfl

/-- A relay address that validates carries a peer id. -/
theorem peerId_of_validateRelayAddress {addr : Multiaddr}
    (h : validateRelayAddress addr = .ok ()) : ∃ peer, peerIdFromMultiaddr addr = some peer := by
  cases hpeer : peerIdFromMultiaddr addr with
  | some peer => exact ⟨peer, rfl⟩
  | none => simp [validateRelayAddress, foldl_see_hasP2p, hpeer] at h

theorem peerId_append {base : Multiaddr} {peer : PeerId}
    (h : peerIdFromMultiaddr base = some peer) (rest : Multiaddr) :
    peerIdFromMultiaddr (base ++ rest) = some peer := by
  simp only [peerIdFromMultiaddr, List.findSome?_append] at h ⊢
  rw [h]
  rfl

end Sape
