/-
  Chain/Routing.lean --- where the streams of a jump chain lead.

  `run_dial` sends the printed jump addresses and, last, the printed circuit
  address of the target; every relay takes the next hop's peer from the first
  `/p2p` component of its text.  In front of the circuit component that is the
  relay that the circuit goes through, not the listener behind it, so the last
  relay's tunnel stream leads to the listener only where the two are one.
-/
import Sape.Chain.Soundness

set_option autoImplicit false

namespace Sape.Chain

open Sape.Foundation

/-- The chain that `run_dial` starts for `--jump first,rest` and a circuit target. -/
structure Setup.Dialed (setup : Setup) (first : Multiaddr) (rest : List Multiaddr)
    (target : Multiaddr) : Prop where
  jump : setup.opt.jump = first :: rest
  target : setup.opt.target = .relayCircuit target
  /-- `run_dial` gets from its set-up to opening the jump stream -/
  start : ∃ task, DialTask.resume setup.text setup.opt .settingUp (.done (.ok ())) = some task ∧
    DialTask.resume setup.text setup.opt task (.done (.ok ())) =
      some (.openingJump setup.firstPeer setup.hops)

theorem Setup.Dialed.hops_eq {setup : Setup} {first target : Multiaddr} {rest : List Multiaddr}
    (h : setup.Dialed first rest target) :
    setup.hops = (rest ++ [target]).map setup.text.printMultiaddr := by
  obtain ⟨task, hsetUp, hconnect⟩ := h.start
  simp only [DialTask.resume, DialTask.afterSetUp, h.jump, h.target, Option.some.injEq] at hsetUp
  subst hsetUp
  simp only [DialTask.resume, DialTask.jumpHops, List.tail_cons] at hconnect
  split at hconnect
  · cases hconnect
  · simp only [Option.some.injEq, DialTask.openingJump.injEq] at hconnect
    rw [← hconnect.2, List.map_append]
    rfl

/-- A chain ends at the listener: it can be set up, each relay but the last opens a
jump stream to the peer of the next jump address, and the last one opens a tunnel
stream to the listener. -/
structure EndsAtListener (setup : Setup) (rest : List Multiaddr) (listener : PeerId) : Prop where
  opens : ∃ labels net, (machine setup).Reaches labels net ∧
    ∀ i, i ≤ rest.length → ∃ relay, net.node i = .relay relay ∧ relay.opened.isSome
  next : ∀ {labels net}, (machine setup).Reaches labels net →
    ∀ {i relay peer protocol jump}, net.node i = .relay relay →
      relay.opened = some (peer, protocol) → rest[i]? = some jump →
      protocol = jumpProtocol setup.nspace ∧ peerIdFromMultiaddr jump = some peer
  last : ∀ {labels net}, (machine setup).Reaches labels net →
    ∀ {relay peer protocol}, net.node rest.length = .relay relay →
      relay.opened = some (peer, protocol) →
      protocol = tunnelProtocol setup.nspace ∧ peer = listener

/-- Where the hops are printed addresses, relay `i` opens its stream to the first
peer of address `i`. -/
theorem opensNext_printed {setup : Setup} {addrs : List Multiaddr}
    (hhops : setup.hops = addrs.map setup.text.printMultiaddr)
    (htext : ∀ addr ∈ addrs, setup.text.parseMultiaddr (setup.text.printMultiaddr addr) = .ok addr)
    {i : Nat} {peer : PeerId} {protocol : StreamProtocol} (h : OpensNext setup i peer protocol) :
    (∃ addr, addrs[i]? = some addr ∧ peerIdFromMultiaddr addr = some peer) ∧
      protocol = if i + 1 < addrs.length then jumpProtocol setup.nspace
        else tunnelProtocol setup.nspace := by
  obtain ⟨hop, addr, hget, hparse, hprotocol⟩ := h
  rw [hhops, List.getElem?_map, Option.map_eq_some_iff] at hget
  obtain ⟨printed, hprinted, rfl⟩ := hget
  rw [outboundProtocol_drop, hhops, List.length_map] at hprotocol
  refine ⟨⟨printed, hprinted, ?_⟩, hprotocol⟩
  simp only [JumpTask.parseHop, htext printed (List.mem_of_getElem? hprinted)] at hparse
  split at hparse
  · cases hparse
  · rename_i peer' hpeer
    simp only [Except.ok.injEq, Prod.mk.injEq] at hparse
    rw [hpeer, hparse.2]

theorem parseHop_printed {text : Libp2pText} {addr : Multiaddr} {peer : PeerId}
    (htext : text.parseMultiaddr (text.printMultiaddr addr) = .ok addr)
    (hpeer : peerIdFromMultiaddr addr = some peer) :
    JumpTask.parseHop text (text.printMultiaddr addr) = .ok (addr, peer) := by
  simp only [JumpTask.parseHop, htext, hpeer]

/-- A dialed chain whose jump addresses carry peer ids, and whose frame the relays
accept, ends at the listener exactly when the listener is the first peer that the
target names. -/
theorem endsAtListener_iff {setup : Setup} {first target base : Multiaddr}
    {rest : List Multiaddr} {listener : PeerId} (hdialed : setup.Dialed first rest target)
    (hpeers : ∀ addr ∈ rest, ∃ peer, peerIdFromMultiaddr addr = some peer)
    (hcircuit : relayBaseFromCircuitAddress target = .ok (base, listener))
    (htext : ∀ addr ∈ rest ++ [target],
      setup.text.parseMultiaddr (setup.text.printMultiaddr addr) = .ok addr)
    (hsize : (JumpChain.postcard.encode ⟨setup.hops⟩).length ≤ maxJumpRequestSize) :
    EndsAtListener setup rest listener ↔
      ∃ front back, target = front ++ .p2p listener :: back ∧
        ∀ other, Protocol.p2p other ∉ front := by
  rw [← peerIdFromMultiaddr_eq_some]
  have hhops := hdialed.hops_eq
  have hlen : setup.hops.length = rest.length + 1 := by
    rw [hhops, List.length_map, List.length_append, List.length_singleton]
  -- the target names at least the relay in front of the circuit
  obtain ⟨⟨behind, htarget⟩, hvalid⟩ := relayBase_spec hcircuit
  obtain ⟨relayPeer, hrelayPeer⟩ := peerId_of_validateRelayAddress hvalid
  have hfirst : peerIdFromMultiaddr target = some relayPeer :=
    htarget ▸ peerId_append hrelayPeer _
  have hsound : setup.Sound := by
    refine ⟨fun hop hmem => ?_, hsize⟩
    rw [hhops] at hmem
    obtain ⟨addr, haddr, rfl⟩ := List.mem_map.mp hmem
    obtain ⟨peer, hpeer⟩ : ∃ peer, peerIdFromMultiaddr addr = some peer := by
      cases List.mem_append.mp haddr with
      | inl hrest => exact hpeers addr hrest
      | inr hlast => exact ⟨relayPeer, List.mem_singleton.mp hlast ▸ hfirst⟩
    exact ⟨addr, peer, parseHop_printed (htext addr haddr) hpeer⟩
  -- what the last relay opens, in any run in which it opens anything
  have hlast : ∀ {labels net}, (machine setup).Reaches labels net →
      ∀ {relay peer protocol}, net.node rest.length = .relay relay →
        relay.opened = some (peer, protocol) →
        protocol = tunnelProtocol setup.nspace ∧ peer = relayPeer := by
    intro labels net hrun relay peer protocol hnode hopened
    obtain ⟨⟨addr, haddr, hpeer⟩, hprotocol⟩ := opensNext_printed hhops htext
      (((inv_of_reaches hrun).relay hnode).opened peer protocol hopened)
    simp only [List.getElem?_concat_length, Option.some.injEq] at haddr
    subst haddr
    rw [if_neg (by simp)] at hprotocol
    exact ⟨hprotocol, Option.some.inj (hpeer.symm.trans hfirst)⟩
  obtain ⟨labels, net, hrun, hanswer, -⟩ := exists_established hsound (by omega)
  have hall := (established_of_answer (inv_of_reaches hrun) hanswer).2
  constructor
  · intro hends
    obtain ⟨relay, hnode, hestablished⟩ := hall rest.length (by omega)
    obtain ⟨-, peer, protocol, hopened, -⟩ := hestablished.opened
    rw [← (hends.last hrun hnode hopened).2, (hlast hrun hnode hopened).2, hfirst]
  · intro hlistener
    obtain rfl : relayPeer = listener := Option.some.inj (hfirst.symm.trans hlistener)
    refine ⟨⟨labels, net, hrun, fun i hi => ?_⟩, ?_, hlast⟩
    · obtain ⟨relay, hnode, hestablished⟩ := hall i (by omega)
      obtain ⟨-, peer, protocol, hopened, -⟩ := hestablished.opened
      exact ⟨relay, hnode, by rw [hopened]; rfl⟩
    · intro labels net hrun i relay peer protocol jump hnode hopened hjump
      obtain ⟨⟨addr, haddr, hpeer⟩, hprotocol⟩ := opensNext_printed hhops htext
        (((inv_of_reaches hrun).relay hnode).opened peer protocol hopened)
      have hi : i < rest.length := (List.getElem?_eq_some_iff.mp hjump).1
      rw [List.getElem?_append_left hi, hjump, Option.some.injEq] at haddr
      subst haddr
      rw [if_pos (by simpa using hi)] at hprotocol
      exact ⟨hprotocol, hpeer⟩

/-- A jump address, and the address of listener 9 behind the relay `point`. -/
def jumpAddress (peer : UInt8) : Multiaddr := [.ip4 1, .tcp 1, .p2p ⟨[peer]⟩]
def behindRelay (point : PeerId) : Multiaddr :=
  [.ip4 2, .tcp 2, .p2p point, .p2pCircuit, .p2p ⟨[9]⟩]

/-- `sape dial --jump` through three relays. -/
def threeJumps (point : PeerId) : Setup where
  text := .ofTable [("k", jumpAddress 3), ("l", jumpAddress 4), ("t", behindRelay point)]
  nspace := "sape"
  opt := {
    target := .relayCircuit (behindRelay point)
    jump := [jumpAddress 1, jumpAddress 3, jumpAddress 4] }
  dialerPeer := ⟨[0]⟩
  firstPeer := ⟨[1]⟩
  hops := ["k", "l", "t"]

theorem threeJumps_two_dialed : (threeJumps ⟨[2]⟩).Dialed (jumpAddress 1)
    [jumpAddress 3, jumpAddress 4] (behindRelay ⟨[2]⟩) :=
  ⟨rfl, rfl, _, rfl, rfl⟩

theorem threeJumps_nine_dialed : (threeJumps ⟨[9]⟩).Dialed (jumpAddress 1)
    [jumpAddress 3, jumpAddress 4] (behindRelay ⟨[9]⟩) :=
  ⟨rfl, rfl, _, rfl, rfl⟩

/-- A chain ends at a listener that is its own relay, and not at one behind relay 2. -/
theorem endsAtListener_iff_threeJumps :
    EndsAtListener (threeJumps ⟨[9]⟩) [jumpAddress 3, jumpAddress 4] ⟨[9]⟩ ∧
      ¬ EndsAtListener (threeJumps ⟨[2]⟩) [jumpAddress 3, jumpAddress 4] ⟨[9]⟩ := by
  have hpeers : ∀ addr ∈ [jumpAddress 3, jumpAddress 4],
      ∃ peer, peerIdFromMultiaddr addr = some peer := by
    intro addr hmem
    simp only [List.mem_cons, List.not_mem_nil, or_false] at hmem
    rcases hmem with rfl | rfl
    · exact ⟨⟨[3]⟩, rfl⟩
    · exact ⟨⟨[4]⟩, rfl⟩
  have hnine : relayBaseFromCircuitAddress (behindRelay ⟨[9]⟩) =
      .ok ([.ip4 2, .tcp 2, .p2p ⟨[9]⟩], ⟨[9]⟩) := by
    decide
  have htwo : relayBaseFromCircuitAddress (behindRelay ⟨[2]⟩) =
      .ok ([.ip4 2, .tcp 2, .p2p ⟨[2]⟩], ⟨[9]⟩) := by
    decide
  constructor
  · refine (endsAtListener_iff threeJumps_nine_dialed hpeers hnine (by decide) (by decide)).mpr
      ⟨[.ip4 2, .tcp 2], [.p2pCircuit, .p2p ⟨[9]⟩], rfl, fun other hmem => ?_⟩
    simp at hmem
  · intro hends
    have hfirst := peerIdFromMultiaddr_eq_some.mpr ((endsAtListener_iff threeJumps_two_dialed
      hpeers htwo (by decide) (by decide)).mp hends)
    cases hfirst

/-- One jump relay in front of a circuit through another relay. -/
def oneJump : Setup where
  text := .ofTable [("j", [.ip4 1, .tcp 1, .p2p ⟨[1]⟩]),
    ("t", [.ip4 2, .tcp 2, .p2p ⟨[2]⟩, .p2pCircuit, .p2p ⟨[9]⟩])]
  nspace := "sape"
  opt := {
    target := .relayCircuit [.ip4 2, .tcp 2, .p2p ⟨[2]⟩, .p2pCircuit, .p2p ⟨[9]⟩]
    jump := [[.ip4 1, .tcp 1, .p2p ⟨[1]⟩]] }
  dialerPeer := ⟨[0]⟩
  firstPeer := ⟨[1]⟩
  hops := ["t"]

theorem oneJump_circuit :
    relayBaseFromCircuitAddress [.ip4 2, .tcp 2, .p2p ⟨[2]⟩, .p2pCircuit, .p2p ⟨[9]⟩] =
      .ok ([.ip4 2, .tcp 2, .p2p ⟨[2]⟩], ⟨[9]⟩) := by
  decide

/-- The only relay of this chain opens its tunnel stream to the relay of the circuit
instead of the listener behind it. -/
theorem oneJump_not_endsAtListener :
    relayBaseFromCircuitAddress [.ip4 2, .tcp 2, .p2p ⟨[2]⟩, .p2pCircuit, .p2p ⟨[9]⟩] =
        .ok ([.ip4 2, .tcp 2, .p2p ⟨[2]⟩], ⟨[9]⟩) ∧
      ¬ EndsAtListener oneJump [] ⟨[9]⟩ := by
  refine ⟨oneJump_circuit, fun hends => ?_⟩
  have hsome : ((machine oneJump).exec (machine oneJump).start
      ([.dialer .proceed, .dialer .proceed] ++ List.replicate 3 (.relay 0 .proceed))).any
      (fun net => (net.node 0).opened = some (⟨[2]⟩, tunnelProtocol "sape")) = true := by
    decide
  obtain ⟨net, hrun, htest⟩ := Machine.exists_reaches_of_any hsome
  have hopened := of_decide_eq_true htest
  cases hnode : net.node 0 with
  | relay relay =>
      rw [hnode] at hopened
      exact absurd (hends.last hrun hnode hopened).2 (by decide)
  | absent => rw [hnode] at hopened; cases hopened
  | acceptor self => rw [hnode] at hopened; cases hopened

end Sape.Chain
