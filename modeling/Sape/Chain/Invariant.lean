/-
  Chain/Invariant.lean --- what every reachable state of a jump chain satisfies.

  The invariant says, for each party, what it knows of its own two streams.  The
  bytes a relay is fed agree with the frame of the hops that are left for it; what
  it has sent upstream is nothing, a (possibly cut) failure result, or a (possibly
  cut) `Ok`, and the `Ok` is written only behind an opened outbound stream and the
  `Ok` of the next relay.  Cut frames are what a broken stream leaves behind: they
  agree with the whole frame as far as they go, and no value is read from them.

  WHAT IS PROVED.

      inv_step                    every step of the machine keeps the invariant
      inv_of_reaches              the invariant holds in every run
      established_of_reported     a relay that has reported `Ok` is established
      reported_of_established     and so has every relay further down
-/
import Sape.Chain.Locality

set_option autoImplicit false

namespace Sape.Chain

open Sape.Foundation

/-! ## What is on the streams -/

/-- The whole frame of the hops left for place `i` has been sent to it. -/
def ChainSent (setup : Setup) (net : Net) (i : Nat) : Prop :=
  ∃ written, writeJumpChain ⟨setup.hops.drop i⟩ = .ok written ∧
    written <+: (net.link i).down.sent

/-- What has been sent to place `i` agrees with the frame of the hops left for it. -/
def Fed (setup : Setup) (net : Net) (i : Nat) : Prop :=
  (net.link i).down.sent = [] ∨
    ∃ written, writeJumpChain ⟨setup.hops.drop i⟩ = .ok written ∧
      ((net.link i).down.sent <+: written ∨ written <+: (net.link i).down.sent)

/-- Place `i` has reported `JumpResult::Ok`: its whole frame went upstream. -/
def Reported (net : Net) (i : Nat) : Prop :=
  ∃ written, writeJumpResult .ok = .ok written ∧ written <+: (net.link i).up.sent

/-- The stream that place `i` is to open: where hop `i` points, with the protocol
that the number of remaining hops selects. -/
def OpensNext (setup : Setup) (i : Nat) (peer : PeerId) (protocol : StreamProtocol) : Prop :=
  ∃ hop addr, setup.hops[i]? = some hop ∧
    JumpTask.parseHop setup.text hop = .ok (addr, peer) ∧
    protocol = JumpTask.outboundProtocol setup.nspace (setup.hops.drop (i + 1))

/-- Relay `i` has read the hops left for it, and knows its next hop and the rest. -/
structure Taken (setup : Setup) (i : Nat) (relay : RelayNode) (peer : PeerId)
    (remaining : List String) : Prop where
  received : relay.received = some ⟨setup.hops.drop i⟩
  next : OpensNext setup i peer (JumpTask.outboundProtocol setup.nspace remaining)
  remaining : remaining = setup.hops.drop (i + 1)

/-- Relay `i` has opened its outbound stream. -/
structure Opened (setup : Setup) (i : Nat) (relay : RelayNode) : Prop where
  received : relay.received = some ⟨setup.hops.drop i⟩
  opened : ∃ peer protocol, relay.opened = some (peer, protocol) ∧
    OpensNext setup i peer protocol

/-- Relay `i` has all that an `Ok` stands for. -/
structure Established (setup : Setup) (net : Net) (i : Nat) (relay : RelayNode) : Prop where
  opened : Opened setup i relay
  sent : i + 1 < setup.hops.length → ChainSent setup net (i + 1)
  reported : i + 1 < setup.hops.length → Reported net (i + 1)

/-- What relay `i` has sent upstream. -/
def Upward (setup : Setup) (net : Net) (i : Nat) (relay : RelayNode) : Prop :=
  (net.link i).up.sent = [] ∨
    (∃ message written, writeJumpResult (.error message) = .ok written ∧
      (net.link i).up.sent <+: written) ∨
    Established setup net i relay ∧ ∃ written, writeJumpResult .ok = .ok written ∧
      ((net.link i).up.sent <+: written ∨ written <+: (net.link i).up.sent)

/-! ## The invariant -/

/-- What holds where relay `i` is suspended. -/
def TaskInv (setup : Setup) (net : Net) (i : Nat) (relay : RelayNode) : Prop :=
  match relay.task with
  | .readingChain => (net.link i).down.taken = 0 ∧ (net.link i).up.sent = []
  | .replying _ _ => (net.link i).up.sent = []
  | .dialing _ peer remaining | .opening peer remaining _ | .sleeping peer remaining _ =>
      Taken setup i relay peer remaining ∧ (net.link i).up.sent = []
  | .writingChain remaining =>
      Opened setup i relay ∧ remaining = setup.hops.drop (i + 1) ∧
        i + 1 < setup.hops.length ∧ (net.link i).up.sent = [] ∧
        (net.link (i + 1)).down.sent = [] ∧ (net.link (i + 1)).up.taken = 0
  | .readingResult =>
      Opened setup i relay ∧ i + 1 < setup.hops.length ∧ (net.link i).up.sent = [] ∧
        ChainSent setup net (i + 1) ∧ (net.link (i + 1)).up.taken = 0
  | .writingOk => Established setup net i relay ∧ (net.link i).up.sent = []
  | .bridging => Established setup net i relay ∧ Reported net i
  | .ended _ => True

/-- What holds at a place where a relay runs. -/
structure RelayInv (setup : Setup) (net : Net) (i : Nat) (relay : RelayNode) : Prop where
  place : i = 0 ∨ i < setup.hops.length
  fed : Fed setup net i
  received : ∀ chain, relay.received = some chain → chain = ⟨setup.hops.drop i⟩
  opened : ∀ peer protocol, relay.opened = some (peer, protocol) →
    OpensNext setup i peer protocol
  upward : Upward setup net i relay
  task : TaskInv setup net i relay

/-- What holds at every place. -/
def NodeInv (setup : Setup) (net : Net) (i : Nat) : Prop :=
  match net.node i with
  | .absent => (net.link i).up.sent = []
  | .relay relay => RelayInv setup net i relay
  | .acceptor _ => 0 < i ∧ setup.hops.length ≤ i

/-- What holds where the dialer is suspended. -/
def DialerInv (setup : Setup) (net : Net) : Prop :=
  match net.dialer with
  | .openingJump _ hops => hops = setup.hops ∧ net.answer = none
  | .writingChain hops =>
      hops = setup.hops ∧ net.answer = none ∧
        (net.link 0).down.sent = [] ∧ (net.link 0).up.taken = 0
  | .readingResult =>
      net.answer = none ∧ ChainSent setup net 0 ∧ (net.link 0).up.taken = 0
  | .writingJumpRequest | .jumpNetcat => ChainSent setup net 0
  | .ended _ => True
  | _ => False

/-- The invariant of the chain machine. -/
structure Inv (setup : Setup) (net : Net) : Prop where
  node : ∀ i, NodeInv setup net i
  dialer : DialerInv setup net
  answered : net.answer = some (.ok .ok) → Reported net 0

/-! ## Frames and prefixes -/

theorem ChainSent.mono {setup : Setup} {net next : Net} {i : Nat} (h : ChainSent setup net i)
    (hsent : (net.link i).down.sent <+: (next.link i).down.sent) : ChainSent setup next i := by
  obtain ⟨written, hwrite, hpre⟩ := h
  exact ⟨written, hwrite, hpre.trans hsent⟩

theorem Reported.mono {net next : Net} {i : Nat} (h : Reported net i)
    (hsent : (net.link i).up.sent <+: (next.link i).up.sent) : Reported next i := by
  obtain ⟨written, hwrite, hpre⟩ := h
  exact ⟨written, hwrite, hpre.trans hsent⟩

theorem ChainSent.fed {setup : Setup} {net : Net} {i : Nat} (h : ChainSent setup net i) :
    Fed setup net i := by
  obtain ⟨written, hwrite, hpre⟩ := h
  exact .inr ⟨written, hwrite, .inr hpre⟩

theorem Fed.congr {setup : Setup} {net next : Net} {i : Nat} (h : Fed setup net i)
    (hsent : (next.link i).down.sent = (net.link i).down.sent) : Fed setup next i := by
  unfold Fed at *
  rwa [hsent]

/-- A chain read from a fed stream is the hops left for its reader, and their frame
stood at the front of the stream. -/
theorem Fed.front {setup : Setup} {net : Net} {i : Nat} (h : Fed setup net i)
    {chain : JumpChain} {rest : Bytes}
    (hread : readJumpChain (net.link i).down.sent = (.ok chain, rest)) :
    chain = ⟨setup.hops.drop i⟩ ∧ ∃ written,
      writeJumpChain ⟨setup.hops.drop i⟩ = .ok written ∧
      (net.link i).down.sent = written ++ rest := by
  obtain hnil | ⟨written, hwrite, hcomparable⟩ := h
  · rw [hnil] at hread
    cases hread
  · have hfits : JumpChain.postcard.Fits ⟨setup.hops.drop i⟩ :=
      JumpChain.postcard_fits (Nat.lt_trans (Frame.write_ok hwrite).1 (by decide))
    obtain ⟨hchain, hsent⟩ := Frame.read_comparable hfits hwrite hcomparable hread
    exact ⟨hchain, written, hwrite, hsent⟩

/-- Where the dialer's chain is inside the bound, a relay that has been fed reads the hops
left for it, or is still waiting. -/
theorem readFrame_of_fed {setup : Setup} {net : Net} {i : Nat}
    (hsize : (JumpChain.postcard.encode ⟨setup.hops⟩).length ≤ maxJumpRequestSize)
    (hfed : Fed setup net i) (htaken : (net.link i).down.taken = 0) :
    (net.link i).down.readFrame readJumpChain = none ∨
      ∃ next, (net.link i).down.readFrame readJumpChain =
        some (.ok ⟨setup.hops.drop i⟩, next) := by
  obtain hnil | ⟨written, hwrite, hcomparable⟩ := hfed
  · exact .inl (Pipe.readFrame_of_eof htaken (by rw [hnil]; rfl))
  · have hinside : (JumpChain.postcard.encode ⟨setup.hops.drop i⟩).length ≤ maxJumpRequestSize :=
      Nat.le_trans (JumpChain.length_encode_drop_le setup.hops i) hsize
    have hfits : JumpChain.postcard.Fits ⟨setup.hops.drop i⟩ :=
      JumpChain.postcard_fits (Nat.lt_of_le_of_lt hinside (by decide))
    obtain heof | ⟨rest, hok⟩ := Frame.read_of_comparable hfits hinside hwrite hcomparable
    · exact .inl (Pipe.readFrame_of_eof htaken heof)
    · exact .inr (Pipe.readFrame_of_ok htaken hok)

/-- A result read from a stream that agrees with the frame of a result is that result. -/
theorem result_eq_of_comparable {result read : JumpResult} {written stream rest : Bytes}
    (hwrite : writeJumpResult result = .ok written)
    (hcomparable : stream <+: written ∨ written <+: stream)
    (hread : readJumpResult stream = (.ok read, rest)) :
    read = result ∧ stream = written ++ rest :=
  Frame.read_comparable
    (JumpResult.postcard_fits (Nat.lt_trans (Frame.write_ok hwrite).1 (by decide)))
    hwrite hcomparable hread

theorem writeJumpResult_ok : writeJumpResult .ok = .ok [0, 0, 0, 1, 0] := rfl

/-- A relay whose upstream bytes were read as `Ok` is established and has reported. -/
theorem Upward.of_read {setup : Setup} {net : Net} {i : Nat} {relay : RelayNode}
    (h : Upward setup net i relay) {rest : Bytes}
    (hread : readJumpResult (net.link i).up.sent = (.ok .ok, rest)) :
    Established setup net i relay ∧ Reported net i := by
  obtain hnil | ⟨message, written, hwrite, hcut⟩ |
    ⟨hestablished, written, hwrite, hcomparable⟩ := h
  · rw [hnil] at hread
    cases hread
  · cases (result_eq_of_comparable hwrite (.inl hcut) hread).1
  · obtain ⟨-, hsent⟩ := result_eq_of_comparable hwrite hcomparable hread
    exact ⟨hestablished, written, hwrite, rest, hsent.symm⟩

theorem Reported.read {net : Net} {i : Nat} (h : Reported net i) :
    ∃ rest, readJumpResult (net.link i).up.sent = (.ok .ok, rest) := by
  obtain ⟨written, hwrite, rest, hrest⟩ := h
  have hfits : JumpResult.postcard.Fits .ok := JumpResult.postcard_fits (by decide)
  exact ⟨rest, hrest ▸ Frame.read_write hfits (by decide) hwrite rest⟩

theorem Taken.congr {setup : Setup} {i : Nat} {relay moved : RelayNode} {peer : PeerId}
    {remaining : List String} (h : Taken setup i relay peer remaining)
    (hreceived : moved.received = relay.received) : Taken setup i moved peer remaining :=
  ⟨hreceived.trans h.received, h.next, h.remaining⟩

theorem Opened.congr {setup : Setup} {i : Nat} {relay moved : RelayNode}
    (h : Opened setup i relay) (hreceived : moved.received = relay.received)
    (hopened : moved.opened = relay.opened) : Opened setup i moved :=
  ⟨hreceived.trans h.received, by rw [hopened]; exact h.opened⟩

/-! ## Along the chain -/

/-- A place on the chain from which `Ok` was read is an established relay that has
reported. -/
theorem established_of_read {setup : Setup} {net : Net} {i : Nat} (hnode : NodeInv setup net i)
    (hi : i = 0 ∨ i < setup.hops.length) {rest : Bytes}
    (hread : readJumpResult (net.link i).up.sent = (.ok .ok, rest)) :
    Reported net i ∧ ∃ relay, net.node i = .relay relay ∧ Established setup net i relay := by
  unfold NodeInv at hnode
  split at hnode
  · rw [hnode] at hread
    cases hread
  · rename_i relay hrelay
    obtain ⟨hestablished, hreported⟩ := hnode.upward.of_read hread
    exact ⟨hreported, relay, hrelay, hestablished⟩
  · omega

/-- A place on the chain that has reported `Ok` is an established relay. -/
theorem established_of_reported {setup : Setup} {net : Net} (hinv : Inv setup net) {i : Nat}
    (hi : i = 0 ∨ i < setup.hops.length) (hreported : Reported net i) :
    ∃ relay, net.node i = .relay relay ∧ Established setup net i relay := by
  obtain ⟨rest, hread⟩ := hreported.read
  exact (established_of_read (hinv.node i) hi hread).2

/-- Behind an established relay, every relay further down has reported `Ok`. -/
theorem reported_of_established {setup : Setup} {net : Net} (hinv : Inv setup net) {i : Nat}
    {relay : RelayNode} (h : Established setup net i relay) :
    ∀ j, i < j → j < setup.hops.length → Reported net j := by
  intro j hij
  induction j, hij using Nat.le_induction with
  | base => exact h.reported
  | succ k hk ih =>
      intro hlt
      have hreported := ih (by omega)
      obtain ⟨relay, -, hestablished⟩ := established_of_reported hinv (.inr (by omega)) hreported
      exact hestablished.reported hlt

/-! ## Places that do not move -/

theorem NodeInv.keep {setup : Setup} {net next : Net} {j : Nat} (h : NodeInv setup net j)
    (hnode : next.node j = net.node j) (hlower : LowerIdle (net.link j) (next.link j))
    (hupper : UpperIdle (net.link (j + 1)) (next.link (j + 1)))
    (hfed : j = 0 ∨ j < setup.hops.length → Fed setup net j → Fed setup next j) :
    NodeInv setup next j := by
  have hestablished : ∀ {relay}, Established setup net j relay → Established setup next j relay :=
    fun he => ⟨he.opened, fun hlt => (he.sent hlt).mono (hupper.downSent ▸ List.prefix_rfl),
      fun hlt => (he.reported hlt).mono hupper.upSent⟩
  unfold NodeInv at h ⊢
  rw [hnode]
  split
  · rename_i heq
    rw [heq] at h
    exact hlower.upSent.trans h
  · rename_i relay heq
    rw [heq] at h
    refine ⟨h.place, hfed h.place h.fed, h.received, h.opened, ?_, ?_⟩
    · unfold Upward
      rw [hlower.upSent]
      obtain hnil | hcut | ⟨he, hok⟩ := h.upward
      · exact .inl hnil
      · exact .inr (.inl hcut)
      · exact .inr (.inr ⟨hestablished he, hok⟩)
    · have htask := h.task
      unfold TaskInv at htask ⊢
      rw [hlower.upSent, hlower.downTaken, hupper.downSent, hupper.upTaken]
      split <;> rename_i hrelay <;> rw [hrelay] at htask
      · exact htask
      · exact htask
      · exact htask
      · exact htask
      · exact htask
      · exact htask
      · obtain ⟨ho, hlt, hnil, hsent, htaken⟩ := htask
        exact ⟨ho, hlt, hnil, hsent.mono (hupper.downSent ▸ List.prefix_rfl), htaken⟩
      · exact ⟨hestablished htask.1, htask.2⟩
      · exact ⟨hestablished htask.1, htask.2.mono (hlower.upSent ▸ List.prefix_rfl)⟩
      · trivial
  · rename_i heq
    rw [heq] at h
    exact h

/-- The step of place `i` is felt by another place only where it is fed. -/
theorem NodeInv.of_moves {setup : Setup} {net next : Net} {i j : Nat}
    (h : NodeInv setup net j) (hmoves : Moves net next i) (hne : j ≠ i)
    (hfed : j = i + 1 → j < setup.hops.length → Fed setup net j → Fed setup next j) :
    NodeInv setup next j := by
  refine h.keep (hmoves.node j hne) (hmoves.lower_ne hne) (hmoves.upper_ne hne) ?_
  intro hplace hold
  by_cases hj : j = i + 1
  · exact hfed hj (by omega) hold
  · exact hold.congr (by rw [hmoves.link j hne hj])

theorem DialerInv.keep {setup : Setup} {net next : Net} (h : DialerInv setup net)
    (hdialer : next.dialer = net.dialer) (hanswer : next.answer = net.answer)
    (hupper : UpperIdle (net.link 0) (next.link 0)) : DialerInv setup next := by
  have hsent : ChainSent setup net 0 → ChainSent setup next 0 :=
    fun hs => hs.mono (hupper.downSent ▸ List.prefix_rfl)
  unfold DialerInv at h ⊢
  rw [hdialer, hanswer, hupper.downSent, hupper.upTaken]
  cases hd : net.dialer <;> simp only [hd] at h ⊢
  case openingJump => exact h
  case writingChain => exact h
  case readingResult => exact ⟨h.1, hsent h.2.1, h.2.2⟩
  case writingJumpRequest => exact hsent h
  case jumpNetcat => exact hsent h

end Sape.Chain
