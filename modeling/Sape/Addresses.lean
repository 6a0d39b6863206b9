/-
  Addresses.lean --- what the checks of `src/types.rs` make of a relay address and of a
  circuit address, whatever the order of their components.

  `validate_relay_address` asks which components there are, `peer_id_from_multiaddr` takes
  the first `/p2p`, and `relay_base_from_circuit_address` takes the last one behind the
  first `/p2p-circuit`.

  WHAT IS PROVED.

      relayAddress_shape_iff      which of the accepted relay addresses have the shape that
                                  the messages name
      circuitAddress_inverse_iff  for which addresses the parser inverts the builder
-/
import Mathlib.Data.List.Chain
import Sape.Types

set_option autoImplicit false

namespace Sape

/-! ## Components -/

namespace Protocol

/-- The part that a component plays in a relay address. -/
inductive Kind where
  | address
  | tcp
  | webSocket
  | udp
  | quicV1
  | p2p
  | foreign
  deriving DecidableEq, Repr, Inhabited

def startsWithOneOf (names : List String) (text : String) : Bool :=
  names.any fun name => name.toList.isPrefixOf text.toList

/-- The components that only have a text here: addresses are `/dns4`, `/dns6`, `/dnsaddr`
and `/ip6zone`, and `/wss` is a WebSocket. -/
def kindOfText (text : String) : Kind :=
  if startsWithOneOf ["/dns4/", "/dns6/", "/dnsaddr/", "/ip6zone/"] text then .address
  else if startsWithOneOf ["/wss", "/x-parity-wss/"] text then .webSocket
  else .foreign

def kind : Protocol → Kind
  | .ip4 _ | .ip6 _ | .dns _ => .address
  | .tcp _ => .tcp
  | .udp _ => .udp
  | .quicV1 => .quicV1
  | .ws _ => .webSocket
  | .p2p _ => .p2p
  | .p2pCircuit => .foreign
  | .other text => kindOfText text

@[simp] theorem kind_tcp (port : UInt16) : (tcp port).kind = .tcp := rfl

@[simp] theorem kind_udp (port : UInt16) : (udp port).kind = .udp := rfl

@[simp] theorem kind_quicV1 : quicV1.kind = .quicV1 := rfl

@[simp] theorem kind_p2p (peer : PeerId) : (p2p peer).kind = .p2p := rfl

/-- What may stand directly behind a component. -/
def Kind.mayPrecede : Kind → Kind → Bool
  | .address, .address | .address, .tcp | .address, .udp => true
  | .tcp, .webSocket | .tcp, .p2p => true
  | .webSocket, .p2p => true
  | .udp, .quicV1 => true
  | .quicV1, .p2p => true
  | _, _ => false

theorem kindOfText_cases (text : String) :
    kindOfText text = .address ∨ kindOfText text = .webSocket ∨ kindOfText text = .foreign := by
  unfold kindOfText
  split
  · exact .inl rfl
  · split
    · exact .inr (.inl rfl)
    · exact .inr (.inr rfl)

/-- A component is an address, a WebSocket, of no use to a relay address, or what its kind
says. -/
theorem kind_spec (c : Protocol) :
    c.kind = .address ∨ c.kind = .webSocket ∨ c.kind = .foreign ∨ (∃ port, c = .tcp port) ∨
      (∃ port, c = .udp port) ∨ c = .quicV1 ∨ ∃ peer, c = .p2p peer := by
  cases c with
  | other text =>
      rcases kindOfText_cases text with h | h | h
      · exact .inl h
      · exact .inr (.inl h)
      · exact .inr (.inr (.inl h))
  | _ => simp [kind]

theorem Kind.mayPrecede_spec {k : Kind} {next : Protocol} (h : k.mayPrecede next.kind = true) :
    (k = .address ∧ (next.kind = .address ∨ (∃ port, next = .tcp port) ∨
        ∃ port, next = .udp port)) ∨
      (k = .tcp ∧ (next.kind = .webSocket ∨ ∃ peer, next = .p2p peer)) ∨
      (k = .udp ∧ next = .quicV1) ∨
      ((k = .webSocket ∨ k = .quicV1) ∧ ∃ peer, next = .p2p peer) := by
  rcases next.kind_spec with hk | hk | hk | ⟨port, rfl⟩ | ⟨port, rfl⟩ | rfl | ⟨peer, rfl⟩
  · rw [hk] at h
    cases k <;> cases h
    exact .inl ⟨rfl, .inl hk⟩
  · rw [hk] at h
    cases k <;> cases h
    exact .inr (.inl ⟨rfl, .inl hk⟩)
  · rw [hk] at h
    cases k <;> cases h
  · cases k <;> cases h
    exact .inl ⟨rfl, .inr (.inl ⟨port, rfl⟩)⟩
  · cases k <;> cases h
    exact .inl ⟨rfl, .inr (.inr ⟨port, rfl⟩)⟩
  · cases k <;> cases h
    exact .inr (.inr (.inl ⟨rfl, rfl⟩))
  · cases k <;> cases h
    · exact .inr (.inl ⟨rfl, .inr ⟨peer, rfl⟩⟩)
    · exact .inr (.inr (.inr ⟨.inl rfl, peer, rfl⟩))
    · exact .inr (.inr (.inr ⟨.inr rfl, peer, rfl⟩))

end Protocol

open Protocol (Kind)

/-! ## Relay addresses -/

/-- `/tcp/<port>`, with or without a WebSocket component, or `/udp/<port>/quic-v1`. -/
inductive RelayTransport : Multiaddr → Prop where
  | tcp (port : UInt16) : RelayTransport [.tcp port]
  | webSocket (port : UInt16) (c : Protocol) (hkind : c.kind = .webSocket) :
      RelayTransport [.tcp port, c]
  | quic (port : UInt16) : RelayTransport [.udp port, .quicV1]

/-- The shape that the messages of `validate_relay_address` name. -/
def RelayShape (addr : Multiaddr) : Prop :=
  ∃ front transport peer, addr = front ++ (transport ++ [.p2p peer]) ∧ front ≠ [] ∧
    (∀ c ∈ front, c.kind = .address) ∧ RelayTransport transport

/-- Every component of the list may stand behind the one in front of it. -/
abbrev Ordered (addr : Multiaddr) : Prop :=
  addr.IsChain fun c next => c.kind.mayPrecede next.kind = true

/-- The first component is an address, and every other one may stand behind the one in
front of it. -/
def LocallyOrdered (addr : Multiaddr) : Prop :=
  (∃ first, addr.head? = some first ∧ first.kind = .address) ∧ Ordered addr

/-- Nothing stands behind a `/p2p`. -/
theorem eq_nil_of_ordered {peer : PeerId} {rest : Multiaddr}
    (h : Ordered (.p2p peer :: rest)) : rest = [] := by
  cases rest with
  | nil => rfl
  | cons next rest =>
      obtain ⟨hnext, -⟩ := List.isChain_cons_cons.mp h
      rcases Kind.mayPrecede_spec hnext with ⟨hk, -⟩ | ⟨hk, -⟩ | ⟨hk, -⟩ | ⟨hk | hk, -⟩ <;> cases hk

/-- Behind a WebSocket and behind `/quic-v1`, there is only a `/p2p`. -/
theorem eq_p2p_of_ordered {c : Protocol} {rest : Multiaddr}
    (hc : c.kind = .webSocket ∨ c.kind = .quicV1) (h : Ordered (c :: rest)) (hne : rest ≠ []) :
    ∃ peer, rest = [.p2p peer] := by
  cases rest with
  | nil => exact absurd rfl hne
  | cons next rest =>
      obtain ⟨hnext, hrest⟩ := List.isChain_cons_cons.mp h
      rcases Kind.mayPrecede_spec hnext with ⟨hk, -⟩ | ⟨hk, -⟩ | ⟨hk, -⟩ | ⟨-, peer, rfl⟩
      · rcases hc with hc | hc <;> cases hc.symm.trans hk
      · rcases hc with hc | hc <;> cases hc.symm.trans hk
      · rcases hc with hc | hc <;> cases hc.symm.trans hk
      · exact ⟨peer, by rw [eq_nil_of_ordered hrest]⟩

/-- Behind `/tcp`, a WebSocket may come in front of the `/p2p`. -/
theorem tcp_of_ordered {port : UInt16} {rest : Multiaddr} (h : Ordered (.tcp port :: rest))
    {peer : PeerId} (hpeer : Protocol.p2p peer ∈ rest) :
    ∃ transport last, .tcp port :: rest = transport ++ [.p2p last] ∧
      RelayTransport transport := by
  cases rest with
  | nil => cases hpeer
  | cons next rest =>
      obtain ⟨hnext, hrest⟩ := List.isChain_cons_cons.mp h
      rcases Kind.mayPrecede_spec hnext with ⟨hk, -⟩ | ⟨-, hk⟩ | ⟨hk, -⟩ | ⟨hk, -⟩
      · cases hk
      · rcases hk with hk | ⟨last, rfl⟩
        · have hne : rest ≠ [] := by
            rintro rfl
            rw [← List.mem_singleton.mp hpeer] at hk
            cases hk
          obtain ⟨last, rfl⟩ := eq_p2p_of_ordered (.inl hk) hrest hne
          exact ⟨[.tcp port, next], last, rfl, .webSocket port next hk⟩
        · obtain rfl := eq_nil_of_ordered hrest
          exact ⟨[.tcp port], last, rfl, .tcp port⟩
      · cases hk
      · rcases hk with hk | hk <;> cases hk

/-- Behind `/udp`, `/quic-v1` has to come in front of the `/p2p`. -/
theorem quic_of_ordered {port : UInt16} {rest : Multiaddr} (h : Ordered (.udp port :: rest))
    {peer : PeerId} (hpeer : Protocol.p2p peer ∈ rest) :
    ∃ last, .udp port :: rest = [.udp port, .quicV1] ++ [.p2p last] := by
  cases rest with
  | nil => cases hpeer
  | cons next rest =>
      obtain ⟨hnext, hrest⟩ := List.isChain_cons_cons.mp h
      rcases Kind.mayPrecede_spec hnext with ⟨hk, -⟩ | ⟨hk, -⟩ | ⟨-, rfl⟩ | ⟨hk, -⟩
      · cases hk
      · cases hk
      · have hne : rest ≠ [] := by
          rintro rfl
          cases List.mem_singleton.mp hpeer
        obtain ⟨last, rfl⟩ := eq_p2p_of_ordered (.inr rfl) hrest hne
        exact ⟨last, rfl⟩
      · rcases hk with hk | hk <;> cases hk

/-- Behind an address component, what is ordered and has a `/p2p` is the rest of a relay
address. -/
theorem relayShape_of_ordered {first : Protocol} {rest : Multiaddr}
    (hfirst : first.kind = .address) (h : Ordered (first :: rest)) {peer : PeerId}
    (hpeer : Protocol.p2p peer ∈ rest) :
    ∃ front transport last, rest = front ++ (transport ++ [.p2p last]) ∧
      (∀ c ∈ front, c.kind = .address) ∧ RelayTransport transport := by
  -- the addresses in front are the induction; what may follow them is at most two steps deep
  induction rest generalizing first with
  | nil => cases hpeer
  | cons next rest ih =>
      obtain ⟨hnext, hrest⟩ := List.isChain_cons_cons.mp h
      have hbehind : next.kind ≠ .p2p → Protocol.p2p peer ∈ rest := by
        intro hk
        refine (List.mem_cons.mp hpeer).resolve_left ?_
        rintro rfl
        exact hk rfl
      rcases Kind.mayPrecede_spec hnext with ⟨-, hk⟩ | ⟨hk, -⟩ | ⟨hk, -⟩ | ⟨hk, -⟩
      · rcases hk with hk | ⟨port, rfl⟩ | ⟨port, rfl⟩
        · have hmem := hbehind (by rw [hk]; exact Kind.noConfusion)
          obtain ⟨front, transport, last, rfl, hfront, htransport⟩ := ih hk hrest hmem
          exact ⟨next :: front, transport, last, rfl, List.forall_mem_cons.mpr ⟨hk, hfront⟩,
            htransport⟩
        · obtain ⟨transport, last, hrest', htransport⟩ :=
            tcp_of_ordered hrest (hbehind Kind.noConfusion)
          exact ⟨[], transport, last, hrest', fun c hmem => absurd hmem List.not_mem_nil,
            htransport⟩
        · obtain ⟨last, hrest'⟩ := quic_of_ordered hrest (hbehind Kind.noConfusion)
          exact ⟨[], [.udp port, .quicV1], last, hrest', fun c hmem => absurd hmem List.not_mem_nil,
            .quic port⟩
      · cases hfirst.symm.trans hk
      · cases hfirst.symm.trans hk
      · rcases hk with hk | hk <;> cases hfirst.symm.trans hk

/-- A transport starts with `/tcp` or `/udp`, is ordered up to the `/p2p` behind it, and has
none of its own. -/
theorem RelayTransport.ordered {transport : Multiaddr} (h : RelayTransport transport)
    (peer : PeerId) :
    Ordered (transport ++ [Protocol.p2p peer]) ∧
      (∀ first, (transport ++ [Protocol.p2p peer]).head? = some first →
        Kind.address.mayPrecede first.kind = true) ∧
      ∀ c ∈ transport, c.kind ≠ .p2p ∧ c.kind ≠ .foreign := by
  cases h with
  | tcp port => simp [Ordered, Kind.mayPrecede]
  | webSocket port c hkind => simp [Ordered, Kind.mayPrecede, hkind]
  | quic port => simp [Ordered, Kind.mayPrecede]

theorem ordered_append {front back : Multiaddr} (hfront : ∀ c ∈ front, c.kind = .address)
    (hback : Ordered back)
    (hhead : ∀ first, back.head? = some first → Kind.address.mayPrecede first.kind = true) :
    Ordered (front ++ back) := by
  induction front with
  | nil => exact hback
  | cons c front ih =>
      obtain ⟨hc, hrest⟩ := List.forall_mem_cons.mp hfront
      refine List.isChain_cons.mpr ⟨fun next hnext => ?_, ih hrest⟩
      rw [hc]
      cases front with
      | nil => exact hhead next hnext
      | cons d front =>
          obtain rfl := Option.some.inj hnext
          rw [hrest d List.mem_cons_self]
          rfl

/-- An address of the shape is ordered, and its last component is its only `/p2p`. -/
theorem RelayShape.spec {addr : Multiaddr} (h : RelayShape addr) :
    LocallyOrdered addr ∧ ∃ front peer, addr = front ++ [.p2p peer] ∧
      (∀ other, Protocol.p2p other ∉ front) ∧ Protocol.p2pCircuit ∉ addr ∧
      peerIdFromMultiaddr addr = some peer := by
  obtain ⟨front, transport, peer, rfl, hne, hfront, htransport⟩ := h
  obtain ⟨hordered, hhead, hkinds⟩ := htransport.ordered peer
  have hnone : ∀ c ∈ front ++ transport, c.kind ≠ .p2p ∧ c.kind ≠ .foreign := by
    intro c hmem
    rcases List.mem_append.mp hmem with hmem | hmem
    · rw [hfront c hmem]
      exact ⟨Kind.noConfusion, Kind.noConfusion⟩
    · exact hkinds c hmem
  have hother : ∀ other, Protocol.p2p other ∉ front ++ transport := fun other hmem =>
    (hnone _ hmem).1 rfl
  refine ⟨⟨?_, ordered_append hfront hordered hhead⟩, front ++ transport, peer,
    (List.append_assoc _ _ _).symm, hother, ?_, ?_⟩
  · cases front with
    | nil => exact absurd rfl hne
    | cons first front => exact ⟨first, rfl, hfront first List.mem_cons_self⟩
  · rw [← List.append_assoc]
    intro hmem
    rcases List.mem_append.mp hmem with hmem | hmem
    · exact (hnone _ hmem).2 rfl
    · cases List.mem_singleton.mp hmem
  · rw [← List.append_assoc]
    exact peerIdFromMultiaddr_eq_some.mpr ⟨front ++ transport, [], rfl, hother⟩

/-- An accepted address has a `/p2p`; where it is ordered, it has the shape. -/
theorem LocallyOrdered.relayShape {addr : Multiaddr} (hvalid : validateRelayAddress addr = .ok ())
    (h : LocallyOrdered addr) : RelayShape addr := by
  obtain ⟨⟨first, hhead, hfirst⟩, hordered⟩ := h
  obtain ⟨peer, hpeer⟩ := peerId_of_validateRelayAddress hvalid
  obtain ⟨before, behind, heq, -⟩ := peerIdFromMultiaddr_eq_some.mp hpeer
  cases addr with
  | nil => cases hhead
  | cons c rest =>
      obtain rfl := Option.some.inj hhead
      have hmem : Protocol.p2p peer ∈ c :: rest := by
        rw [heq]
        exact List.mem_append_right _ List.mem_cons_self
      have hrest : Protocol.p2p peer ∈ rest := by
        refine (List.mem_cons.mp hmem).resolve_left ?_
        rintro rfl
        cases hfirst
      obtain ⟨front, transport, last, rfl, hfront, htransport⟩ :=
        relayShape_of_ordered hfirst hordered hrest
      exact ⟨c :: front, transport, last, rfl, List.cons_ne_nil _ _,
        List.forall_mem_cons.mpr ⟨hfirst, hfront⟩, htransport⟩

/-- A relay address that is accepted has the shape that the messages name, and its peer id is
that of its last component, exactly if every component may stand behind the one in front of
it, from an address on. -/
theorem relayAddress_shape_iff {addr : Multiaddr} (h : validateRelayAddress addr = .ok ()) :
    (RelayShape addr ∧ ∃ front peer, addr = front ++ [.p2p peer] ∧
        (∀ other, Protocol.p2p other ∉ front) ∧ Protocol.p2pCircuit ∉ addr ∧
        peerIdFromMultiaddr addr = some peer) ↔
      LocallyOrdered addr := by
  constructor
  · rintro ⟨hshape, -⟩
    exact hshape.spec.1
  · intro hordered
    have hshape := hordered.relayShape h
    exact ⟨hshape, hshape.spec.2⟩

theorem relayAddress_shape_iff_quic :
    validateRelayAddress [.ip4 1, .udp 4001, .quicV1, .p2p ⟨[1]⟩] = .ok () ∧
      RelayShape [.ip4 1, .udp 4001, .quicV1, .p2p ⟨[1]⟩] := by
  have hvalid : validateRelayAddress [.ip4 1, .udp 4001, .quicV1, .p2p ⟨[1]⟩] = .ok () := by
    decide
  have hordered : LocallyOrdered [.ip4 1, .udp 4001, .quicV1, .p2p ⟨[1]⟩] :=
    ⟨⟨.ip4 1, rfl, rfl⟩, by decide⟩
  exact ⟨hvalid, ((relayAddress_shape_iff hvalid).mpr hordered).1⟩

/-- A circuit address is accepted for a relay address: the peer id is that of the relay, and
the last component is another peer's. -/
theorem circuit_accepted :
    validateRelayAddress [.ip4 1, .tcp 4001, .p2p ⟨[1]⟩, .p2pCircuit, .p2p ⟨[2]⟩] = .ok () ∧
      peerIdFromMultiaddr [.ip4 1, .tcp 4001, .p2p ⟨[1]⟩, .p2pCircuit, .p2p ⟨[2]⟩] =
        some ⟨[1]⟩ ∧
      ¬ RelayShape [.ip4 1, .tcp 4001, .p2p ⟨[1]⟩, .p2pCircuit, .p2p ⟨[2]⟩] := by
  refine ⟨by decide, by decide, fun hshape => ?_⟩
  obtain ⟨-, front, peer, -, -, hcircuit, -⟩ := hshape.spec
  exact hcircuit (by decide)

/-! ## Circuit addresses -/

/-- The address through its relay that a listener prints. -/
def relayDialAddress (relayAddress : Multiaddr) (self : PeerId) : Multiaddr :=
  relayAddress ++ [.p2pCircuit, .p2p self]

/-- Behind the circuit component, the last `/p2p` is what the scan ends with. -/
theorem foldl_see_remotePeer (rest base : Multiaddr) (remote : Option PeerId) :
    rest.foldl CircuitScan.see
        { relayBase := base, seenCircuit := true, remotePeer := remote } =
      { relayBase := base
        seenCircuit := true
        remotePeer := (peerIdFromMultiaddr rest.reverse).or remote } := by
  induction rest generalizing remote with
  | nil => rfl
  | cons c rest ih =>
      have hsee : CircuitScan.see
            { relayBase := base, seenCircuit := true, remotePeer := remote } c =
          { relayBase := base, seenCircuit := true, remotePeer := c.p2pPeer.or remote } := by
        cases c <;> rfl
      have hlast : peerIdFromMultiaddr (c :: rest).reverse =
          (peerIdFromMultiaddr rest.reverse).or c.p2pPeer := by
        simp [peerIdFromMultiaddr, List.findSome?_append]
      rw [List.foldl_cons, hsee, ih, hlast, Option.or_assoc]

theorem relayBase_split {front rest base : Multiaddr} {remote : PeerId}
    (hfront : Protocol.p2pCircuit ∉ front) :
    relayBaseFromCircuitAddress (front ++ .p2pCircuit :: rest) = .ok (base, remote) ↔
      base = front ∧ peerIdFromMultiaddr rest.reverse = some remote ∧
        validateRelayAddress front = .ok () := by
  have hscan : (front ++ Protocol.p2pCircuit :: rest).foldl CircuitScan.see {} =
      { relayBase := front
        seenCircuit := true
        remotePeer := peerIdFromMultiaddr rest.reverse } := by
    rw [List.foldl_append, foldl_see_of_not_mem hfront, List.foldl_cons, List.nil_append]
    exact (foldl_see_remotePeer rest front none).trans (by rw [Option.or_none])
  simp only [relayBaseFromCircuitAddress, hscan, Bool.not_true, Bool.false_eq_true, if_false]
  cases peerIdFromMultiaddr rest.reverse with
  | none => simp
  | some peer =>
      cases validateRelayAddress front with
      | error err => simp
      | ok done =>
          simp only [Except.ok.injEq, Prod.mk.injEq, Option.some.injEq, and_true]
          exact and_congr_left' eq_comm

/-- Behind the first circuit component is the peer id and nothing else, or no peer id; or no
relay address is in front of it, nor in front of a circuit component and a peer id at the
end. -/
def ExactCircuit (addr : Multiaddr) : Prop :=
  ∀ front rest, addr = front ++ .p2pCircuit :: rest → Protocol.p2pCircuit ∉ front →
    (∃ peer, rest = [.p2p peer]) ∨ (∀ peer, Protocol.p2p peer ∉ rest) ∨
      (validateRelayAddress front ≠ .ok () ∧
        ∀ mid peer, rest = mid ++ [.p2pCircuit, .p2p peer] →
          validateRelayAddress (front ++ .p2pCircuit :: mid) ≠ .ok ())

/-- The parser inverts the builder at an address. -/
def InvertsBuilder (addr : Multiaddr) : Prop :=
  ∀ base peer, relayBaseFromCircuitAddress addr = .ok (base, peer) ↔
    validateRelayAddress base = .ok () ∧ addr = base ++ [.p2pCircuit, .p2p peer]

theorem invertsBuilder_of_not_mem {addr : Multiaddr} (h : Protocol.p2pCircuit ∉ addr) :
    InvertsBuilder addr := by
  intro base peer
  constructor
  · intro hparse
    obtain ⟨⟨rest, rfl⟩, -⟩ := relayBase_spec hparse
    exact absurd (List.mem_append_right _ List.mem_cons_self) h
  · rintro ⟨-, rfl⟩
    exact absurd (List.mem_append_right _ List.mem_cons_self) h

theorem mem_of_last {rest : Multiaddr} {peer : PeerId}
    (h : peerIdFromMultiaddr rest.reverse = some peer) : Protocol.p2p peer ∈ rest := by
  obtain ⟨front, back, hrest, -⟩ := peerIdFromMultiaddr_eq_some.mp h
  rw [← List.mem_reverse, hrest]
  exact List.mem_append_right _ List.mem_cons_self

theorem exists_last_of_mem {rest : Multiaddr} {peer : PeerId} (h : Protocol.p2p peer ∈ rest) :
    ∃ last, peerIdFromMultiaddr rest.reverse = some last := by
  have hsome : (rest.reverse.findSome? Protocol.p2pPeer).isSome = true :=
    List.findSome?_isSome_iff.mpr ⟨.p2p peer, List.mem_reverse.mpr h, rfl⟩
  exact Option.isSome_iff_exists.mp hsome

/-- A circuit component and a peer id at the end are what the first circuit component starts,
or are further behind. -/
theorem built_split {front rest base : Multiaddr} {peer : PeerId}
    (hfront : Protocol.p2pCircuit ∉ front)
    (h : front ++ .p2pCircuit :: rest = base ++ [.p2pCircuit, .p2p peer]) :
    (base = front ∧ rest = [.p2p peer]) ∨
      ∃ mid, base = front ++ .p2pCircuit :: mid ∧ rest = mid ++ [.p2pCircuit, .p2p peer] := by
  rcases List.append_eq_append_iff.mp h with ⟨more, rfl, hrest⟩ | ⟨more, rfl, hrest⟩
  · cases more with
    | nil => exact .inl ⟨List.append_nil _, (List.cons.inj hrest).2⟩
    | cons c mid =>
        obtain ⟨rfl, hmid⟩ := List.cons.inj hrest
        exact .inr ⟨mid, rfl, hmid⟩
  · cases more with
    | nil => exact .inl ⟨(List.append_nil _).symm, (List.cons.inj hrest).2.symm⟩
    | cons c mid =>
        obtain ⟨rfl, -⟩ := List.cons.inj hrest
        exact absurd (List.mem_append_right _ List.mem_cons_self) hfront

theorem exactCircuit_of_inverts {addr : Multiaddr} (h : InvertsBuilder addr) :
    ExactCircuit addr := by
  rintro front rest rfl hfront
  by_cases hnone : ∀ peer, Protocol.p2p peer ∉ rest
  · exact .inr (.inl hnone)
  · simp only [not_forall, not_not] at hnone
    obtain ⟨peer, hmem⟩ := hnone
    obtain ⟨last, hlast⟩ := exists_last_of_mem hmem
    by_cases hvalid : validateRelayAddress front = .ok ()
    · obtain ⟨-, hbuilt⟩ := (h front last).mp ((relayBase_split hfront).mpr ⟨rfl, hlast, hvalid⟩)
      exact .inl ⟨last, (List.cons.inj (List.append_cancel_left hbuilt)).2⟩
    · refine .inr (.inr ⟨hvalid, fun mid other hrest hbase => ?_⟩)
      have hparse := (h (front ++ .p2pCircuit :: mid) other).mpr ⟨hbase, by simp [hrest]⟩
      exact hvalid ((relayBase_split hfront).mp hparse).2.2

theorem inverts_of_exactCircuit {addr : Multiaddr} (h : ExactCircuit addr) :
    InvertsBuilder addr := by
  by_cases hmem : Protocol.p2pCircuit ∈ addr
  · obtain ⟨front, rest, rfl, hfront⟩ := List.eq_append_cons_of_mem hmem
    intro base peer
    rw [relayBase_split hfront]
    constructor
    · rintro ⟨rfl, hlast, hvalid⟩
      rcases h base rest rfl hfront with ⟨other, rfl⟩ | hnone | ⟨hnot, -⟩
      · obtain rfl := Option.some.inj hlast
        exact ⟨hvalid, rfl⟩
      · exact absurd (mem_of_last hlast) (hnone peer)
      · exact absurd hvalid hnot
    · rintro ⟨hvalid, hbuilt⟩
      rcases built_split hfront hbuilt with ⟨rfl, rfl⟩ | ⟨mid, rfl, rfl⟩
      · exact ⟨rfl, rfl, hvalid⟩
      · rcases h front _ rfl hfront with ⟨other, hother⟩ | hnone | ⟨-, hnot⟩
        · have hlength := congrArg List.length hother
          simp at hlength
        · exact absurd (by simp) (hnone peer)
        · exact absurd hvalid (hnot mid peer rfl)
  · exact invertsBuilder_of_not_mem hmem

/-- A relay address that is accepted is read back from the address that is printed for it
exactly if no circuit component is in it. -/
theorem relayDialAddress_iff {relayAddress : Multiaddr} {self : PeerId}
    (h : validateRelayAddress relayAddress = .ok ()) :
    relayBaseFromCircuitAddress (relayDialAddress relayAddress self) =
        .ok (relayAddress, self) ↔
      Protocol.p2pCircuit ∉ relayAddress := by
  constructor
  · intro hparse hmem
    obtain ⟨front, rest, rfl, hfront⟩ := List.eq_append_cons_of_mem hmem
    rw [relayDialAddress, List.append_assoc, List.cons_append, relayBase_split hfront] at hparse
    have hlength := congrArg List.length hparse.1
    simp at hlength
  · intro hnot
    exact (relayBase_split hnot).mpr ⟨rfl, rfl, h⟩

/-- The parser inverts the builder at an address exactly if the address is exact behind its
first circuit component; and what is printed for a relay address is read back exactly if no
circuit component is in that. -/
theorem circuitAddress_inverse_iff (addr relayAddress : Multiaddr) (self : PeerId) :
    ((∀ base peer, relayBaseFromCircuitAddress addr = .ok (base, peer) ↔
        validateRelayAddress base = .ok () ∧ addr = base ++ [.p2pCircuit, .p2p peer]) ↔
      ExactCircuit addr) ∧
      (validateRelayAddress relayAddress = .ok () →
        (relayBaseFromCircuitAddress (relayDialAddress relayAddress self) =
            .ok (relayAddress, self) ↔
          Protocol.p2pCircuit ∉ relayAddress)) :=
  ⟨⟨exactCircuit_of_inverts, inverts_of_exactCircuit⟩, relayDialAddress_iff⟩

theorem circuitAddress_inverse_iff_tcp :
    relayBaseFromCircuitAddress
        (relayDialAddress [.ip4 1, .tcp 4001, .p2p ⟨[1]⟩] ⟨[2]⟩) =
      .ok ([.ip4 1, .tcp 4001, .p2p ⟨[1]⟩], ⟨[2]⟩) :=
  ((circuitAddress_inverse_iff [] [.ip4 1, .tcp 4001, .p2p ⟨[1]⟩] ⟨[2]⟩).2 (by decide)).mpr
    (by decide)

/-- A relay address and a peer id are read from an address that goes on behind them; and
what a listener prints for a relay address with a circuit in it is read as another relay's. -/
theorem moreComponents_accepted :
    relayBaseFromCircuitAddress
        [.ip4 1, .tcp 4001, .p2p ⟨[1]⟩, .p2pCircuit, .p2p ⟨[2]⟩, .p2p ⟨[3]⟩, .tcp 80] =
      .ok ([.ip4 1, .tcp 4001, .p2p ⟨[1]⟩], ⟨[3]⟩) ∧
    [.ip4 1, .tcp 4001, .p2p ⟨[1]⟩, .p2pCircuit, .p2p ⟨[2]⟩, .p2p ⟨[3]⟩, .tcp 80] ≠
      [.ip4 1, .tcp 4001, .p2p ⟨[1]⟩] ++ [Protocol.p2pCircuit, .p2p ⟨[3]⟩] ∧
    validateRelayAddress [.ip4 1, .tcp 4001, .p2p ⟨[1]⟩, .p2pCircuit, .p2p ⟨[2]⟩] = .ok () ∧
    relayBaseFromCircuitAddress
        (relayDialAddress [.ip4 1, .tcp 4001, .p2p ⟨[1]⟩, .p2pCircuit, .p2p ⟨[2]⟩] ⟨[3]⟩) =
      .ok ([.ip4 1, .tcp 4001, .p2p ⟨[1]⟩], ⟨[3]⟩) := by
  decide

end Sape
