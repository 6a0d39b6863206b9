/-
  Chain/Progress.lean --- a chain whose hops parse can be established.

  The run is the obvious one: each relay in turn reads its chain, dials, opens and
  feeds the next, and the results come back up.  The induction is on the number of
  places still below, and carries a frame: what lies above place `i` is untouched
  while the chain from `i` on is being set up.

  WHAT IS PROVED.

      exists_established    some run ends with the dialer holding `Ok` and every
                            relay bridging
-/
import Sape.Chain.Preservation

set_option autoImplicit false

namespace Sape.Chain

open Sape.Foundation

/-! ## Frames of suffixes -/

/-- Every hop parses and the dialer's chain is inside the relays' bound. -/
structure Setup.Sound (setup : Setup) : Prop where
  parse : ∀ hop ∈ setup.hops, ∃ addr peer,
    JumpTask.parseHop setup.text hop = .ok (addr, peer)
  size : (JumpChain.postcard.encode ⟨setup.hops⟩).length ≤ maxJumpRequestSize

/-- The frame of a suffix can be written, and is read back. -/
theorem Setup.Sound.frame {setup : Setup} (h : setup.Sound) (i : Nat) :
    ∃ written, writeJumpChain ⟨setup.hops.drop i⟩ = .ok written ∧
      ∀ rest, readJumpChain (written ++ rest) = (.ok ⟨setup.hops.drop i⟩, rest) := by
  have hle : (JumpChain.postcard.encode ⟨setup.hops.drop i⟩).length ≤ maxJumpRequestSize :=
    Nat.le_trans (JumpChain.length_encode_drop_le setup.hops i) h.size
  have hfits : JumpChain.postcard.Fits ⟨setup.hops.drop i⟩ :=
    JumpChain.postcard_fits (Nat.lt_of_le_of_lt hle (by decide))
  obtain ⟨written, hwrite, -, hread⟩ :=
    JumpChain.frame.exists_frame hfits hle (by decide)
  exact ⟨written, hwrite, hread⟩

/-! ## Setting up one relay -/

/-- Relay `i` has just accepted its stream and the hops left for it are there. -/
structure Ready (setup : Setup) (net : Net) (i : Nat) : Prop where
  node : ∃ relay, net.node i = .relay relay ∧ relay.task = .readingChain
  fed : ∃ written, writeJumpChain ⟨setup.hops.drop i⟩ = .ok written ∧
    (net.link i).down = { sent := written }
  up : (net.link i).up = {}

/-- Nothing above place `i` differs between two states. -/
structure SameAbove (i : Nat) (net next : Net) : Prop where
  node : ∀ j, j < i → next.node j = net.node j
  link : ∀ j, j < i → next.link j = net.link j
  dialer : next.dialer = net.dialer
  answer : next.answer = net.answer

theorem SameAbove.trans {i k : Nat} {first second third : Net} (h : SameAbove i first second)
    (h' : SameAbove k second third) (hik : i ≤ k) : SameAbove i first third :=
  ⟨fun j hj => (h'.node j (by omega)).trans (h.node j hj),
    fun j hj => (h'.link j (by omega)).trans (h.link j hj),
    h'.dialer.trans h.dialer, h'.answer.trans h.answer⟩

section SameAbove

variable {i k : Nat} (net : Net)

theorem SameAbove.setNode (hik : i ≤ k) (node : Node) : SameAbove i net (net.setNode k node) where
  node j hj := Net.setNode_node_ne _ _ (by omega)
  link j hj := by rw [Net.setNode_link]
  dialer := rfl
  answer := rfl

theorem SameAbove.setDown (hik : i ≤ k) (pipe : Pipe) : SameAbove i net (net.setDown k pipe) where
  node j hj := rfl
  link j hj := Net.setDown_link_ne _ _ (by omega)
  dialer := rfl
  answer := rfl

theorem SameAbove.setUp (hik : i ≤ k) (pipe : Pipe) : SameAbove i net (net.setUp k pipe) where
  node j hj := rfl
  link j hj := Net.setUp_link_ne _ _ (by omega)
  dialer := rfl
  answer := rfl

theorem SameAbove.spawn (setup : Setup) (hik : i ≤ k) (opener self : PeerId)
    (protocol : StreamProtocol) : SameAbove i net (net.spawn setup k opener self protocol) where
  node j hj := Net.spawn_node_ne _ _ _ _ _ (by omega)
  link j hj := Net.spawn_link_ne _ _ _ _ _ (by omega)
  dialer := rfl
  answer := rfl

end SameAbove

/-- Relay `i` runs and is suspended on `task`. -/
def RunsAt (net : Net) (i : Nat) (task : JumpTask) : Prop :=
  ∃ relay, net.node i = .relay relay ∧ relay.task = task

/-- A ready relay reads its chain and dials. -/
theorem exists_opening {setup : Setup} {net : Net} {i : Nat} (hsound : setup.Sound)
    (hi : i < setup.hops.length) (h : Ready setup net i) :
    ∃ peer next, (machine setup).exec net [.relay i .proceed, .relay i .proceed] = some next ∧
      RunsAt next i (.opening peer (setup.hops.drop (i + 1)) 0) ∧
      (next.link i).up = {} ∧ SameAbove i net next := by
  obtain ⟨⟨relay, hnode, htask⟩, ⟨written, hwrite, hdown⟩, hup⟩ := h
  obtain ⟨written', hwrite', hframe⟩ := hsound.frame i
  obtain rfl : written' = written := Except.ok.inj (hwrite'.symm.trans hwrite)
  obtain ⟨addr, peer, hparse⟩ := hsound.parse setup.hops[i] (List.getElem_mem hi)
  have hhops : setup.hops.drop i = setup.hops[i] :: setup.hops.drop (i + 1) :=
    List.drop_eq_getElem_cons hi
  -- the whole frame is there
  have hread : (net.link i).down.readFrame readJumpChain =
      some (.ok ⟨setup.hops.drop i⟩, ⟨written', written'.length⟩) := by
    have hframe := hframe []
    rw [List.append_nil] at hframe
    simp only [Pipe.readFrame, hdown, Pipe.unread, List.drop_zero, hframe, List.length_nil,
      Nat.sub_zero]
  let behind := net.setDown i ⟨written', written'.length⟩
  let reader : RelayNode := { relay with
    task := .dialing addr peer (setup.hops.drop (i + 1))
    received := some ⟨setup.hops.drop i⟩ }
  have hfirst : (machine setup).step net (.relay i .proceed) =
      some (behind.setNode i (.relay reader)) := by
    refine relayStep_of { relay with received := some ⟨setup.hops.drop i⟩ }
      (.chainRead (.ok ⟨setup.hops.drop i⟩)) hnode (by rw [htask]; rfl) ?_ ?_
    · simp only [Net.perform, readStep, hread, Option.map_some]
      rfl
    · rw [htask]
      simp only [JumpTask.resume, JumpTask.afterChain, hhops, hparse]
  let dialer : RelayNode := { reader with task := .opening peer (setup.hops.drop (i + 1)) 0 }
  have hsecond : (machine setup).step (behind.setNode i (.relay reader)) (.relay i .proceed) =
      some ((behind.setNode i (.relay reader)).setNode i (.relay dialer)) :=
    relayStep_of reader (.dialSent true) (Net.setNode_node_self ..) rfl rfl rfl
  refine ⟨peer, (behind.setNode i (.relay reader)).setNode i (.relay dialer), ?_,
    ⟨dialer, Net.setNode_node_self .., rfl⟩, ?_, ?_⟩
  · rw [Machine.exec_cons_of_step hfirst, Machine.exec_cons_of_step hsecond, Machine.exec_nil]
  · simpa [behind] using hup
  · have hread : SameAbove i net behind := .setDown net (Nat.le_refl i) _
    have hdial := hread.trans (.setNode behind (Nat.le_refl i) (.relay reader)) (Nat.le_refl i)
    exact hdial.trans (.setNode _ (Nat.le_refl i) (.relay dialer)) (Nat.le_refl i)

/-- The outbound stream opens. -/
theorem exists_opened (setup : Setup) {net : Net} {i : Nat} {peer : PeerId}
    {remaining : List String} (h : RunsAt net i (.opening peer remaining 0))
    (hup : (net.link i).up = {}) :
    ∃ next, (machine setup).exec net [.relay i .proceed] = some next ∧
      RunsAt next i (JumpTask.afterOpen remaining) ∧
      (remaining ≠ [] → RunsAt next (i + 1) .readingChain) ∧ next.link (i + 1) = {} ∧
      (next.link i).up = {} ∧ SameAbove i net next := by
  obtain ⟨relay, hnode, htask⟩ := h
  let protocol := JumpTask.outboundProtocol setup.nspace remaining
  let behind := net.spawn setup (i + 1) relay.self peer protocol
  let opener : RelayNode := { relay with
    task := JumpTask.afterOpen remaining
    opened := some (peer, protocol) }
  have hstep : (machine setup).step net (.relay i .proceed) =
      some (behind.setNode i (.relay opener)) :=
    relayStep_of { relay with opened := some (peer, protocol) } (.streamOpened (.ok ())) hnode
      (by rw [htask]; rfl) rfl (by rw [htask]; rfl)
  have hne : i ≠ i + 1 := (Nat.succ_ne_self i).symm
  refine ⟨behind.setNode i (.relay opener), Machine.exec_cons_of_step hstep [],
    ⟨opener, Net.setNode_node_self .., rfl⟩, ?_, ?_, ?_, ?_⟩
  · intro hremaining
    have hprotocol : protocol = jumpProtocol setup.nspace := by
      simp [protocol, JumpTask.outboundProtocol, hremaining]
    refine ⟨{ self := peer, peer := relay.self }, ?_, rfl⟩
    rw [Net.setNode_node_ne _ _ (Nat.succ_ne_self i), Net.spawn_node_self, if_pos hprotocol]
  · exact Net.spawn_link_self ..
  · simpa [behind, Net.spawn_link_ne _ _ _ _ _ hne] using hup
  · have hspawn : SameAbove i net behind := .spawn net setup (Nat.le_succ i) ..
    exact hspawn.trans (.setNode behind (Nat.le_refl i) _) (Nat.le_refl i)

/-- The next relay is fed. -/
theorem exists_fed {setup : Setup} {net : Net} {i : Nat} (hsound : setup.Sound)
    (h : RunsAt net i (.writingChain (setup.hops.drop (i + 1))))
    (hnext : RunsAt net (i + 1) .readingChain) (hlink : net.link (i + 1) = {}) :
    ∃ next, (machine setup).exec net [.relay i .proceed] = some next ∧
      RunsAt next i .readingResult ∧ Ready setup next (i + 1) ∧
      next.link i = net.link i ∧ SameAbove i net next := by
  obtain ⟨relay, hnode, htask⟩ := h
  obtain ⟨written, hwrite, -⟩ := hsound.frame (i + 1)
  let behind := net.setDown (i + 1) { sent := written }
  let writer : RelayNode := { relay with task := .readingResult }
  have hstep : (machine setup).step net (.relay i .proceed) =
      some (behind.setNode i (.relay writer)) := by
    refine relayStep_of relay (.chainWritten (.ok ())) hnode (by rw [htask]; rfl) ?_ ?_
    · simp only [Net.perform, writeStep, hwrite, hlink, Option.map_some]
      rfl
    · rw [htask]
      rfl
  have hne : i + 1 ≠ i := Nat.succ_ne_self i
  refine ⟨behind.setNode i (.relay writer), Machine.exec_cons_of_step hstep [],
    ⟨writer, Net.setNode_node_self .., rfl⟩,
    ⟨?_, ⟨written, hwrite, ?_⟩, ?_⟩, ?_, ?_⟩
  · obtain ⟨reader, hreader, htask'⟩ := hnext
    exact ⟨reader, by rw [Net.setNode_node_ne _ _ hne]; exact hreader, htask'⟩
  · simp [behind]
  · simp [behind, hlink]
  · simp [behind]
  · have hfeed : SameAbove i net behind := .setDown net (Nat.le_succ i) _
    exact hfeed.trans (.setNode behind (Nat.le_refl i) _) (Nat.le_refl i)

/-- The frame of `Ok` is read whole. -/
theorem readFrame_ok : ({ sent := [0, 0, 0, 1, 0] } : Pipe).readFrame readJumpResult =
    some (.ok .ok, ⟨[0, 0, 0, 1, 0], 5⟩) := by
  decide

/-- The `Ok` of the next relay comes back. -/
theorem exists_readOk (setup : Setup) {net : Net} {i : Nat}
    (h : RunsAt net i .readingResult) (hup : (net.link (i + 1)).up = { sent := [0, 0, 0, 1, 0] }) :
    ∃ next, (machine setup).exec net [.relay i .proceed] = some next ∧
      RunsAt next i .writingOk ∧ (∀ j, j ≠ i → next.node j = net.node j) ∧
      next.link i = net.link i ∧ SameAbove i net next := by
  obtain ⟨relay, hnode, htask⟩ := h
  let behind := net.setUp (i + 1) ⟨[0, 0, 0, 1, 0], 5⟩
  let reader : RelayNode := { relay with task := .writingOk }
  have hread : (net.link (i + 1)).up.readFrame readJumpResult =
      some (.ok .ok, ⟨[0, 0, 0, 1, 0], 5⟩) := hup ▸ readFrame_ok
  have hstep : (machine setup).step net (.relay i .proceed) =
      some (behind.setNode i (.relay reader)) := by
    refine relayStep_of relay (.resultRead (.ok .ok)) hnode (by rw [htask]; rfl) ?_ ?_
    · simp only [Net.perform, readStep, hread, Option.map_some]
      rfl
    · rw [htask]
      rfl
  refine ⟨behind.setNode i (.relay reader), Machine.exec_cons_of_step hstep [],
    ⟨reader, Net.setNode_node_self .., rfl⟩,
    fun j hj => ?_, ?_, ?_⟩
  · rw [Net.setNode_node_ne _ _ hj]
    rfl
  · rw [Net.setNode_link, Net.setUp_link_ne _ _ (Nat.succ_ne_self i).symm]
  · have htake : SameAbove i net behind := .setUp net (Nat.le_succ i) _
    exact htake.trans (.setNode behind (Nat.le_refl i) _) (Nat.le_refl i)

/-- A relay reports `Ok` and becomes a bridge. -/
theorem exists_bridging (setup : Setup) {net : Net} {i : Nat} (h : RunsAt net i .writingOk)
    (hup : (net.link i).up = {}) :
    ∃ next, (machine setup).exec net [.relay i .proceed] = some next ∧
      RunsAt next i .bridging ∧ (∀ j, j ≠ i → next.node j = net.node j) ∧
      (next.link i).up = { sent := [0, 0, 0, 1, 0] } ∧ SameAbove i net next := by
  obtain ⟨relay, hnode, htask⟩ := h
  let behind := net.setUp i { sent := [0, 0, 0, 1, 0] }
  let bridge : RelayNode := { relay with task := .bridging }
  have hstep : (machine setup).step net (.relay i .proceed) =
      some (behind.setNode i (.relay bridge)) := by
    refine relayStep_of relay (.resultWritten (.ok ())) hnode (by rw [htask]; rfl) ?_ ?_
    · simp only [Net.perform, writeStep, writeJumpResult_ok, hup, Option.map_some]
      rfl
    · rw [htask]
      rfl
  refine ⟨behind.setNode i (.relay bridge), Machine.exec_cons_of_step hstep [],
    ⟨bridge, Net.setNode_node_self .., rfl⟩,
    fun j hj => ?_, ?_, ?_⟩
  · rw [Net.setNode_node_ne _ _ hj]
    rfl
  · simp [behind]
  · have hreport : SameAbove i net behind := .setUp net (Nat.le_refl i) _
    exact hreport.trans (.setNode behind (Nat.le_refl i) _) (Nat.le_refl i)

/-! ## Setting up the rest of the chain -/

/-- From a ready relay on, the chain can be set up without touching what is above. -/
theorem exists_bridging_from {setup : Setup} (hsound : setup.Sound) :
    ∀ (below i : Nat) (net : Net), i + below + 1 = setup.hops.length → Ready setup net i →
      ∃ labels next, (machine setup).exec net labels = some next ∧
        (∀ j, i ≤ j → j < setup.hops.length → RunsAt next j .bridging) ∧
        (next.link i).up = { sent := [0, 0, 0, 1, 0] } ∧ SameAbove i net next := by
  intro below
  induction below with
  | zero =>
      intro i net hlen hready
      obtain ⟨peer, dialed, hdialed, hopening, hup, hsame⟩ :=
        exists_opening hsound (by omega) hready
      rw [List.drop_eq_nil_of_le (by omega)] at hopening
      obtain ⟨opened, hopened, hwriting, -, -, hup', hsame'⟩ :=
        exists_opened setup hopening hup
      obtain ⟨next, hnext, hbridging, -, hok, hsame''⟩ :=
        exists_bridging setup hwriting hup'
      refine ⟨_, next, (Machine.exec_append _ _).mpr ⟨dialed, hdialed,
        (Machine.exec_append _ _).mpr ⟨opened, hopened, hnext⟩⟩, ?_, hok,
        (hsame.trans hsame' (Nat.le_refl i)).trans hsame'' (Nat.le_refl i)⟩
      intro j hij hj
      obtain rfl : j = i := by omega
      exact hbridging
  | succ below ih =>
      intro i net hlen hready
      obtain ⟨peer, dialed, hdialed, hopening, hup, hsame⟩ :=
        exists_opening hsound (by omega) hready
      obtain ⟨opened, hopened, hwriting, hreader, hfresh, hup', hsame'⟩ :=
        exists_opened setup hopening hup
      have hne : setup.hops.drop (i + 1) ≠ [] := by
        simp only [ne_eq, List.drop_eq_nil_iff]
        omega
      have hafter : JumpTask.afterOpen (setup.hops.drop (i + 1)) =
          .writingChain (setup.hops.drop (i + 1)) := by
        simp [JumpTask.afterOpen, hne]
      rw [hafter] at hwriting
      obtain ⟨fed, hfed, hreading, hready', hlink, hsame₂⟩ :=
        exists_fed hsound hwriting (hreader hne) hfresh
      obtain ⟨labels, below', hbelow, hbridges, hok, habove⟩ := ih (i + 1) fed (by omega) hready'
      have hreading' : RunsAt below' i .readingResult := by
        obtain ⟨relay, hnode, htask⟩ := hreading
        exact ⟨relay, (habove.node i (by omega)).trans hnode, htask⟩
      have hup'' : (below'.link i).up = {} := by
        rw [habove.link i (by omega), hlink]
        exact hup'
      obtain ⟨answered, hanswered, hwritingOk, hnodes, hlink', hsame₃⟩ :=
        exists_readOk setup hreading' hok
      obtain ⟨next, hnext, hbridging, hnodes', hok', hsame₄⟩ :=
        exists_bridging setup hwritingOk (by rw [hlink']; exact hup'')
      refine ⟨_, next, (Machine.exec_append _ _).mpr ⟨dialed, hdialed,
        (Machine.exec_append _ _).mpr ⟨opened, hopened,
          (Machine.exec_append _ _).mpr ⟨fed, hfed,
            (Machine.exec_append _ _).mpr ⟨below', hbelow,
              (Machine.exec_append _ _).mpr ⟨answered, hanswered, hnext⟩⟩⟩⟩⟩, ?_, hok', ?_⟩
      · intro j hij hj
        by_cases hji : j = i
        · exact hji ▸ hbridging
        · obtain ⟨relay, hnode, htask⟩ := hbridges j (by omega) hj
          exact ⟨relay, by rw [hnodes' j hji, hnodes j hji, hnode], htask⟩
      · have hdown : SameAbove i net fed :=
          (hsame.trans hsame' (Nat.le_refl i)).trans hsame₂ (Nat.le_refl i)
        exact ((hdown.trans habove (Nat.le_succ i)).trans hsame₃ (Nat.le_refl i)).trans hsame₄
          (Nat.le_refl i)

/-- A chain of at least one hop, all of whose hops parse, can be established. -/
theorem exists_established {setup : Setup} (hsound : setup.Sound)
    (hpos : 0 < setup.hops.length) :
    ∃ labels net, (machine setup).Reaches labels net ∧ net.answer = some (.ok .ok) ∧
      ∀ i, i < setup.hops.length → RunsAt net i .bridging := by
  obtain ⟨written, hwrite, -⟩ := hsound.frame 0
  rw [List.drop_zero] at hwrite
  let accepted : Net := { (machine setup).start.spawn setup 0 setup.dialerPeer setup.firstPeer
    (jumpProtocol setup.nspace) with dialer := .writingChain setup.hops }
  have hopen : (machine setup).step (machine setup).start (.dialer .proceed) = some accepted := rfl
  let fed : Net := { accepted.setDown 0 { sent := written } with dialer := .readingResult }
  have hwriteStep : (machine setup).step accepted (.dialer .proceed) = some fed := by
    have hlink : accepted.link 0 = {} := rfl
    simp only [machine, Net.step, Net.dialerStep, accepted, DialTask.op, writeStep, hwrite]
    rfl
  have hready : Ready setup fed 0 :=
    ⟨⟨{ self := setup.firstPeer, peer := setup.dialerPeer }, if_pos rfl, rfl⟩,
      ⟨written, hwrite, rfl⟩, rfl⟩
  obtain ⟨labels, below, hbelow, hbridges, hok, hsame⟩ :=
    exists_bridging_from hsound (setup.hops.length - 1) 0 fed (by omega) hready
  have hread : (below.link 0).up.readFrame readJumpResult =
      some (.ok .ok, ⟨[0, 0, 0, 1, 0], 5⟩) := hok ▸ readFrame_ok
  let final : Net := { below.setUp 0 ⟨[0, 0, 0, 1, 0], 5⟩ with
    answer := some (.ok .ok)
    dialer := DialTask.afterJumpOk (parseDialMode setup.opt) }
  have hanswer : (machine setup).step below (.dialer .proceed) = some final := by
    have hdialer : below.dialer = .readingResult := hsame.dialer
    simp only [machine, Net.step, Net.dialerStep, hdialer, DialTask.op, readStep, hread]
    rfl
  refine ⟨.dialer .proceed :: .dialer .proceed :: (labels ++ [.dialer .proceed]), final, ?_, rfl,
    fun i hi => hbridges i (Nat.zero_le i) hi⟩
  unfold Machine.Reaches
  rw [Machine.exec_cons_of_step hopen, Machine.exec_cons_of_step hwriteStep, Machine.exec_append]
  exact ⟨below, hbelow, by rw [Machine.exec_cons_of_step hanswer, Machine.exec_nil]⟩

end Sape.Chain
