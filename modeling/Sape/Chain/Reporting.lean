/-
  Chain/Reporting.lean --- what a dialer hears of a failure further down.

  A relay that returns without a result leaves the relay above it with an end of
  stream, which is one of its own silent exits, and so on up to the dialer.  A run
  is clean when no relay is driven into a silent exit of its own: streams do not
  break, dial channels stay open, and the text of a refused open fits a frame.  In
  a clean run every relay that has ended has sent a whole result, and the dialer
  reads a result.

  WHAT IS PROVED.

      clean_of_meets       the invariant of clean runs
      failures_reported    when one handler replies, and what that adds up to
                           along a chain
-/
import Sape.Chain.Opening
import Sape.Chain.Soundness
import Sape.Relay.Reply

set_option autoImplicit false

namespace Sape.Chain

open Sape.Foundation

/-- A failure message that goes into a frame the next reader accepts. -/
def MessageFits (message : String) : Prop :=
  (JumpResult.postcard.encode (.error message)).length ≤ maxJumpRequestSize

/-- Whether a refused operation drives a relay into a silent exit: a closed dial
channel does, and so does, one relay further up, a message without room in a frame. -/
def RefusalFits (setup : Setup) (err : String) : JumpTask → Prop
  | .dialing _ _ _ => False
  | .opening nextPeer _ _ =>
      MessageFits s!"failed to connect to hop {setup.text.printPeerId nextPeer}: {err}"
  | _ => True

instance (setup : Setup) (err : String) : DecidablePred (RefusalFits setup err)
  | .dialing _ _ _ => isFalse id
  | .opening _ _ _ => inferInstanceAs (Decidable (_ ≤ _))
  | .readingChain | .replying _ _ | .sleeping _ _ _ | .writingChain _ | .readingResult
  | .writingOk | .bridging | .ended _ => isTrue trivial

/-- A step that drives nobody into a silent exit. -/
def Clean (setup : Setup) (net : Net) : Net.Label → Prop
  | .dialer (.broken _ _) => False
  | .relay _ (.broken _ _) => False
  | .relay i (.refused err) =>
      ∀ relay, net.node i = .relay relay → RefusalFits setup err relay.task
  | _ => True

instance (setup : Setup) (net : Net) : DecidablePred (Clean setup net)
  | .dialer (.broken _ _) | .relay _ (.broken _ _) => isFalse id
  | .relay i (.refused err) =>
      match hnode : net.node i with
      | .relay relay => decidable_of_iff (RefusalFits setup err relay.task)
          ⟨fun h _ hother => Node.relay.inj (hnode.symm.trans hother) ▸ h, fun h => h relay hnode⟩
      | .absent | .acceptor _ => isTrue fun _ hother => by rw [hnode] at hother; cases hother
  | .dialer .proceed | .dialer .eof | .dialer (.refused _) | .relay _ .proceed | .relay _ .eof
  | .stdin _ | .stdout _ | .copy _ _ | .send _ _ | .receive _ _ => isTrue trivial

/-- A whole result, acceptable to its reader, went upstream from place `i`. -/
def Answered (net : Net) (i : Nat) : Prop :=
  ∃ result written, writeJumpResult result = .ok written ∧
    (JumpResult.postcard.encode result).length ≤ maxJumpRequestSize ∧
    written <+: (net.link i).up.sent

/-- What clean runs add to the invariant of one place. -/
structure PlaceClean (setup : Setup) (net : Net) (i : Nat) : Prop where
  up : i = 0 ∨ i < setup.hops.length → (net.link i).up.sent = [] ∨ Answered net i
  replying : ∀ {relay message report}, net.node i = .relay relay →
    relay.task = .replying message report → MessageFits message
  ended : ∀ {relay result}, net.node i = .relay relay → relay.task = .ended result →
    Answered net i
  handed : ∀ {relay}, net.node i = .relay relay → relay.opened.isSome →
    i + 1 < setup.hops.length →
    (∃ remaining, relay.task = .writingChain remaining) ∨ ChainSent setup net (i + 1)

/-- What clean runs add to the dialer's part. -/
structure DialerClean (setup : Setup) (net : Net) : Prop where
  ended : ∀ {result}, net.dialer = .ended result →
    net.node 0 = .absent ∨ ChainSent setup net 0
  answer : ∀ err, net.answer ≠ some (.error err)

/-- The invariant of clean runs. -/
structure CleanInv (setup : Setup) (net : Net) : Prop where
  place : ∀ i, PlaceClean setup net i
  dialer : DialerClean setup net

/-! ## Whole frames are read -/

theorem Answered.mono {net next : Net} {i : Nat} (h : Answered net i)
    (hsent : (net.link i).up.sent <+: (next.link i).up.sent) : Answered next i := by
  obtain ⟨result, written, hwrite, hsize, hpre⟩ := h
  exact ⟨result, written, hwrite, hsize, hpre.trans hsent⟩

theorem Reported.answered {net : Net} {i : Nat} (h : Reported net i) : Answered net i := by
  obtain ⟨written, hwrite, hpre⟩ := h
  exact ⟨.ok, written, hwrite, by decide, hpre⟩

theorem Answered.read {net : Net} {i : Nat} (h : Answered net i) :
    ∃ result rest, readJumpResult (net.link i).up.sent = (.ok result, rest) ∧
      (JumpResult.postcard.encode result).length ≤ maxJumpRequestSize := by
  obtain ⟨result, written, hwrite, hsize, rest, hrest⟩ := h
  have hfits : JumpResult.postcard.Fits result :=
    JumpResult.postcard_fits (Nat.lt_of_le_of_lt hsize (by decide))
  exact ⟨result, rest, hrest ▸ Frame.read_write hfits hsize hwrite rest, hsize⟩

/-- A relay that has been sent its whole chain is not waiting for it. -/
theorem readFrame_of_chainSent {setup : Setup} {net : Net} {i : Nat} (hsound : setup.Sound)
    (hsent : ChainSent setup net i) (htaken : (net.link i).down.taken = 0) :
    (net.link i).down.readFrame readJumpChain ≠ none := by
  obtain ⟨written, hwrite, rest, hrest⟩ := hsent
  obtain ⟨written', hwrite', hframe⟩ := hsound.frame i
  obtain rfl : written' = written := Except.ok.inj (hwrite'.symm.trans hwrite)
  obtain ⟨next, hnext⟩ := Pipe.readFrame_of_ok htaken (hrest ▸ hframe rest)
  rw [hnext]
  exact Option.some_ne_none _

/-- What a reader gets from a place that has sent nothing or a whole result. -/
theorem readFrame_of_up {net : Net} {i : Nat}
    (hup : (net.link i).up.sent = [] ∨ Answered net i) (htaken : (net.link i).up.taken = 0) :
    (net.link i).up.readFrame readJumpResult = none ∨
      ∃ result next, (net.link i).up.readFrame readJumpResult = some (.ok result, next) ∧
        (JumpResult.postcard.encode result).length ≤ maxJumpRequestSize := by
  obtain hnil | hanswered := hup
  · exact .inl (Pipe.readFrame_of_eof htaken (by rw [hnil]; rfl))
  · obtain ⟨result, rest, hread, hsize⟩ := hanswered.read
    obtain ⟨next, hnext⟩ := Pipe.readFrame_of_ok htaken hread
    exact .inr ⟨result, next, hnext, hsize⟩

theorem readFrame_of_answered {net : Net} {i : Nat} (hanswered : Answered net i)
    (htaken : (net.link i).up.taken = 0) :
    (net.link i).up.readFrame readJumpResult ≠ none := by
  obtain ⟨result, rest, hread, -⟩ := hanswered.read
  obtain ⟨next, hnext⟩ := Pipe.readFrame_of_ok htaken hread
  rw [hnext]
  exact Option.some_ne_none _

/-- In a clean run a frame read that completes is one that found its frame. -/
theorem readStep_clean {α : Type} {read : Bytes → Except IoError α × Bytes} {pipe next : Pipe}
    {writerGone : Bool} {outcome : Outcome} {result : Except IoError α}
    (hclean : ∀ cut err, outcome ≠ .broken cut err)
    (hgone : writerGone = true → pipe.readFrame read ≠ none)
    (h : readStep read pipe writerGone outcome = some (result, next)) :
    pipe.readFrame read = some (result, next) := by
  cases outcome with
  | proceed => exact h
  | eof =>
      simp only [readStep, Bool.and_eq_true, Option.isNone_iff_eq_none,
        Option.ite_none_right_eq_some] at h
      exact absurd h.1.2 (hgone h.1.1)
  | broken cut err => exact absurd rfl (hclean cut err)
  | refused err => cases h

/-- In a clean run a write whose value has a frame puts the whole frame on the
stream. -/
theorem writeStep_clean {bytes : Bytes} {pipe next : Pipe} {outcome : Outcome}
    {done : Except IoError Unit} (hclean : ∀ cut err, outcome ≠ .broken cut err)
    (h : writeStep (.ok bytes) pipe outcome = some (done, next)) :
    done = .ok () ∧ next = pipe.put bytes := by
  cases outcome with
  | proceed =>
      simp only [writeStep, Option.some.injEq, Prod.mk.injEq] at h
      exact ⟨h.1.symm, h.2.symm⟩
  | broken cut err => exact absurd rfl (hclean cut err)
  | eof => cases h
  | refused err => cases h

/-! ## Places that do not move -/

theorem PlaceClean.keep {setup : Setup} {net next : Net} {j : Nat} (h : PlaceClean setup net j)
    (hnode : next.node j = net.node j) (hlower : LowerIdle (net.link j) (next.link j))
    (hupper : UpperIdle (net.link (j + 1)) (next.link (j + 1))) : PlaceClean setup next j where
  up hplace := by
    rw [hlower.upSent]
    exact (h.up hplace).imp_right fun ha => ha.mono (hlower.upSent ▸ List.prefix_rfl)
  replying hrelay := by
    rw [hnode] at hrelay
    exact h.replying hrelay
  ended hrelay htask := by
    rw [hnode] at hrelay
    exact (h.ended hrelay htask).mono (hlower.upSent ▸ List.prefix_rfl)
  handed hrelay hopened hlt := by
    rw [hnode] at hrelay
    exact (h.handed hrelay hopened hlt).imp_right
      fun hs => hs.mono (hupper.downSent ▸ List.prefix_rfl)

/-- A relay's step keeps what clean runs know, if it does so at the relay's place. -/
theorem cleanInv_of_moves {setup : Setup} {net next : Net} {i : Nat}
    (hinv : CleanInv setup net) (hmoves : Moves net next i) (hnode : net.node i ≠ .absent)
    (hself : PlaceClean setup next i) : CleanInv setup next where
  place j := by
    by_cases hj : j = i
    · exact hj ▸ hself
    · exact (hinv.place j).keep (hmoves.node j hj) (hmoves.lower_ne hj) (hmoves.upper_ne hj)
  dialer := by
    have hfirst : net.node 0 = .absent → next.node 0 = .absent := by
      intro habsent
      rw [hmoves.node 0 fun h => hnode (h ▸ habsent)]
      exact habsent
    refine ⟨fun hd => ?_, fun err => ?_⟩
    · rw [hmoves.dialer] at hd
      exact (hinv.dialer.ended hd).imp hfirst
        fun hs => hs.mono (hmoves.upper_zero.downSent ▸ List.prefix_rfl)
    · rw [hmoves.answer]
      exact hinv.dialer.answer err

/-! ## Relay steps -/

/-- A step of relay `i` behind which it is neither replying nor done, and which
changes neither what it has sent upstream nor what it has handed down. -/
theorem cleanInv_of_quiet {setup : Setup} {net behind : Net} {i : Nat}
    {relay moved : RelayNode} (hinv : CleanInv setup net) (hnode : net.node i = .relay relay)
    (hmoves : Moves net behind i)
    (hup : i = 0 ∨ i < setup.hops.length →
      (behind.link i).up.sent = [] ∨ Answered behind i)
    (hopened : moved.opened = relay.opened)
    (hreplying : ∀ {message report}, moved.task = .replying message report →
      MessageFits message)
    (hended : ∀ {result}, moved.task = .ended result → Answered behind i)
    (hhanded : ∀ {remaining}, relay.task = .writingChain remaining →
      (∃ remaining, moved.task = .writingChain remaining) ∨ ChainSent setup behind (i + 1)) :
    CleanInv setup (behind.setNode i (.relay moved)) := by
  have hself : ∀ {other}, (behind.setNode i (.relay moved)).node i = .relay other →
      moved = other := fun h => Node.relay.inj ((Net.setNode_node_self ..).symm.trans h)
  refine cleanInv_of_moves hinv (hmoves.setNode _) (by rw [hnode]; exact Node.noConfusion)
    ⟨hup, fun hother htask => ?_, fun hother htask => ?_, fun hother hsome hlt => ?_⟩
  · obtain rfl := hself hother
    exact hreplying htask
  · obtain rfl := hself hother
    exact hended htask
  · obtain rfl := hself hother
    rw [hopened] at hsome
    obtain ⟨remaining, htask⟩ | hsent := (hinv.place i).handed hnode hsome hlt
    · exact hhanded htask
    · exact .inr (hsent.mono hmoves.lower.downSent)

/-- What stands above a relay and is done with it has handed it its whole chain. -/
theorem chainSent_of_upperGone {setup : Setup} {net : Net} {i : Nat} {relay : RelayNode}
    (hopen : OpenInv net) (hinv : CleanInv setup net) (hnode : net.node i = .relay relay)
    (hplace : i = 0 ∨ i < setup.hops.length) (hgone : net.upperGone i = true) :
    ChainSent setup net i := by
  cases i with
  | zero =>
      obtain ⟨result, hd⟩ : ∃ result, net.dialer = .ended result := by
        cases hd : net.dialer <;> simp [Net.upperGone, hd, DialTask.isEnded] at hgone ⊢
      obtain habsent | hsent := hinv.dialer.ended hd
      · rw [hnode] at habsent
        cases habsent
      · exact hsent
  | succ k =>
      obtain ⟨upper, hupper, hopened⟩ :=
        hopen.opener (by rw [hnode]; exact Node.noConfusion)
      obtain ⟨remaining, htask⟩ | hsent := (hinv.place k).handed hupper hopened (by omega)
      · simp [Net.upperGone, hupper, htask, JumpTask.isEnded] at hgone
      · exact hsent

/-- A relay that is done with its upstream side has answered. -/
theorem answered_of_lowerGone {setup : Setup} {net : Net} {i : Nat}
    (hinv : CleanInv setup net) (hgone : net.lowerGone i = true) : Answered net i := by
  unfold Net.lowerGone at hgone
  split at hgone
  · rename_i relay hnode
    cases htask : relay.task <;> simp only [htask, JumpTask.isEnded, Bool.false_eq_true] at hgone
    exact (hinv.place i).ended hnode htask
  · cases hgone

/-- A clean step breaks no stream under a relay. -/
theorem Clean.not_broken {setup : Setup} {net : Net} {i : Nat} {outcome : Outcome}
    (hclean : Clean setup net (.relay i outcome)) (cut : Nat) (err : IoError) :
    outcome ≠ .broken cut err := by
  rintro rfl
  exact hclean

theorem answered_of_put {net : Net} {i : Nat} {result : JumpResult} {bytes : Bytes}
    (hwrite : writeJumpResult result = .ok bytes)
    (hsize : (JumpResult.postcard.encode result).length ≤ maxJumpRequestSize)
    (hnil : (net.link i).up.sent = []) :
    Answered (net.setUp i ((net.link i).up.put bytes)) i := by
  refine ⟨result, bytes, hwrite, hsize, [], ?_⟩
  rw [List.append_nil, Net.setUp_link_self, Pipe.put_sent, hnil, List.nil_append]

/-- A step of relay `i` in a clean run. -/
structure CleanStep (setup : Setup) (net next : Net) (i : Nat) (relay : RelayNode)
    (outcome : Outcome) : Prop where
  sound : setup.Sound
  inv : Inv setup net
  openInv : OpenInv net
  cleanInv : CleanInv setup net
  node : net.node i = .relay relay
  clean : Clean setup net (.relay i outcome)
  step : net.relayStep setup i outcome = some next

/-- The chain is there, and its first hop parses. -/
theorem clean_readingChain {setup : Setup} {net next : Net} {i : Nat} {relay : RelayNode}
    {outcome : Outcome} (h : CleanStep setup net next i relay outcome)
    (htask : relay.task = .readingChain) : CleanInv setup next := by
  obtain ⟨event, history, behind, task, hperform, hresume, rfl⟩ :=
    relayStep_of_task h.node htask rfl h.step
  have hrelay := h.inv.relay h.node
  have hold := hrelay.task
  unfold TaskInv at hold
  rw [htask] at hold
  simp only [Net.perform, Option.map_eq_some_iff, Prod.mk.injEq] at hperform
  obtain ⟨⟨result, pipe⟩, hstep, rfl, rfl, rfl⟩ := hperform
  obtain ⟨htaken, hnil⟩ := hold
  have hread := readStep_clean h.clean.not_broken (fun hgone => readFrame_of_chainSent h.sound
    (chainSent_of_upperGone h.openInv h.cleanInv h.node hrelay.place hgone) htaken) hstep
  obtain hnone | ⟨pipe', hsome⟩ := readFrame_of_fed h.sound.size hrelay.fed htaken
  · rw [hnone] at hread
    cases hread
  · rw [hsome] at hread
    obtain ⟨rfl, rfl⟩ := Prod.mk.inj (Option.some.inj hread)
    obtain rfl := Option.some.inj hresume
    have hmoves : Moves net (net.setDown i pipe') i := .setDown pipe' (readStep_sent hstep)
    have hup : ((net.setDown i pipe').link i).up.sent = [] := by simpa using hnil
    obtain ⟨-, report, heq⟩ | ⟨hop, remaining, hhops, ⟨report, hparse, heq⟩ |
      ⟨addr, peer, hparse, heq⟩⟩ :=
      JumpTask.afterChain_cases setup.text relay.peer ⟨setup.hops.drop i⟩
    · rw [heq]
      refine cleanInv_of_quiet h.cleanInv h.node hmoves (fun _ => .inl hup) rfl ?_ (by simp)
        (by simp [htask])
      intro message report' hreplying
      obtain ⟨rfl, -⟩ := JumpTask.replying.inj hreplying
      unfold MessageFits
      decide
    · have hmem : hop ∈ setup.hops := List.mem_of_mem_drop (hhops ▸ List.mem_cons_self)
      obtain ⟨addr, peer, hok⟩ := h.sound.parse hop hmem
      rw [hparse] at hok
      cases hok
    · rw [heq]
      exact cleanInv_of_quiet h.cleanInv h.node hmoves (fun _ => .inl hup) rfl (by simp) (by simp)
        (by simp [htask])

/-- The failure result is written whole. -/
theorem clean_replying {setup : Setup} {net next : Net} {i : Nat} {relay : RelayNode}
    {outcome : Outcome} (h : CleanStep setup net next i relay outcome) {message : String}
    {report : Report} (htask : relay.task = .replying message report) : CleanInv setup next := by
  obtain ⟨event, history, behind, task, hperform, hresume, rfl⟩ :=
    relayStep_of_task h.node htask rfl h.step
  have hnil := h.inv.task h.node
  unfold TaskInv at hnil
  rw [htask] at hnil
  have hfits : MessageFits message := (h.cleanInv.place i).replying h.node htask
  obtain ⟨bytes, hwrite⟩ : ∃ bytes, writeJumpResult (.error message) = .ok bytes :=
    ⟨_, Frame.write_of_lt (Nat.lt_of_le_of_lt hfits (by decide))⟩
  simp only [Net.perform, hwrite, Option.map_eq_some_iff, Prod.mk.injEq] at hperform
  obtain ⟨⟨done, pipe⟩, hstep, rfl, rfl, rfl⟩ := hperform
  obtain ⟨rfl, rfl⟩ := writeStep_clean h.clean.not_broken hstep
  obtain rfl := Option.some.inj hresume
  have hanswered := answered_of_put hwrite hfits hnil
  exact cleanInv_of_quiet h.cleanInv h.node (.setUp _ rfl (List.prefix_append _ _))
    (fun _ => .inr hanswered) rfl (by simp) (fun _ => hanswered) (by simp [htask])

/-- A step that opens the stream to place `i` keeps what clean runs know, if it does so at
the opener's place. -/
theorem cleanInv_of_opens {setup : Setup} {net next : Net} {i : Nat} {opener peer : PeerId}
    {protocol : StreamProtocol} (hcinv : CleanInv setup net)
    (hopens : Opens setup net next i opener peer protocol)
    (hopener : ∀ j, j + 1 = i → PlaceClean setup next j) (hdialer : DialerClean setup next) :
    CleanInv setup next where
  place j := by
    by_cases hj : j = i
    · subst hj
      refine ⟨fun _ => .inl (by rw [hopens.fresh]), fun hother htask => ?_,
        fun hother htask => ?_, fun hother hopened _ => ?_⟩
      · cases hopens.relay_eq hother ▸ htask
      · cases hopens.relay_eq hother ▸ htask
      · cases hopens.relay_eq hother ▸ hopened
    · by_cases hnext : j + 1 = i
      · exact hopener j hnext
      · exact (hcinv.place j).keep (hopens.node j hj hnext) (hopens.lower_ne hj)
          (hopens.upper_ne hnext)
  dialer := hdialer

/-- The outbound stream opens and the next place comes into being. -/
theorem clean_spawn {setup : Setup} {net : Net} {i : Nat} {relay : RelayNode}
    (hinv : Inv setup net) (hcinv : CleanInv setup net) (hnode : net.node i = .relay relay)
    {peer : PeerId} {remaining : List String} {attempt : Nat}
    (htask : relay.task = .opening peer remaining attempt) :
    CleanInv setup ((net.spawn setup (i + 1) relay.self peer
      (JumpTask.outboundProtocol setup.nspace remaining)).setNode i
        (.relay { relay with
          opened := some (peer, JumpTask.outboundProtocol setup.nspace remaining)
          task := JumpTask.afterOpen remaining })) := by
  have hold := hinv.task hnode
  unfold TaskInv at hold
  rw [htask] at hold
  obtain ⟨htaken, hnil⟩ := hold
  have hopens := opens_relay setup net i relay.self peer
    (JumpTask.outboundProtocol setup.nspace remaining) { relay with
      opened := some (peer, JumpTask.outboundProtocol setup.nspace remaining)
      task := JumpTask.afterOpen remaining }
  have hafter : JumpTask.afterOpen remaining = .writingOk ∨
      ∃ left, JumpTask.afterOpen remaining = .writingChain left := by
    unfold JumpTask.afterOpen
    split
    · exact .inl rfl
    · exact .inr ⟨remaining, rfl⟩
  refine cleanInv_of_opens hcinv hopens ?_ ⟨fun hd => ?_, hcinv.dialer.answer⟩
  · rintro j hj
    obtain rfl : j = i := Nat.succ.inj hj
    refine ⟨fun _ => .inl ?_, fun hother htask' => ?_, fun hother htask' => ?_,
      fun hother _ hlt => .inl ?_⟩
    · rw [hopens.link j (Nat.succ_ne_self j).symm]
      exact hnil
    all_goals obtain rfl := Node.relay.inj ((Net.setNode_node_self ..).symm.trans hother)
    · obtain heq | ⟨left, heq⟩ := hafter <;> exact absurd (heq.symm.trans htask') (by simp)
    · obtain heq | ⟨left, heq⟩ := hafter <;> exact absurd (heq.symm.trans htask') (by simp)
    · refine ⟨remaining, if_neg ?_⟩
      simp only [htaken.remaining, List.isEmpty_iff, List.drop_eq_nil_iff]
      omega
  · obtain hzero | hsent := hcinv.dialer.ended hd
    · have hne : 0 ≠ i := by
        rintro rfl
        rw [hnode] at hzero
        cases hzero
      exact .inl ((hopens.node 0 (by omega) (by omega)).trans hzero)
    · exact .inr (hsent.mono (hopens.link 0 (by omega) ▸ List.prefix_rfl))

/-- A relay on the way to its next hop has opened no stream, and owes nobody an answer. -/
theorem Reaching.quiet {peer : PeerId} {remaining : List String} {task : JumpTask}
    (h : Reaching peer remaining task) :
    (∀ message report, task ≠ .replying message report) ∧ (∀ result, task ≠ .ended result) ∧
      ∀ left, task ≠ .writingChain left := by
  cases h <;> simp

/-- `dial_tx.send`, `open_stream`, and the pause between two attempts in a clean run: the
swarm is there, and a refusal fits into a frame. -/
theorem clean_reaching {setup : Setup} {net next : Net} {i : Nat} {relay : RelayNode}
    {outcome : Outcome} (h : CleanStep setup net next i relay outcome) {awaiting : JumpTask}
    {peer : PeerId} {remaining : List String} (htask : relay.task = awaiting)
    (hreaching : Reaching peer remaining awaiting) : CleanInv setup next := by
  obtain ⟨-, hnil⟩ := (taskInv_of_reaching htask hreaching).mp (h.inv.task h.node)
  have hup : i = 0 ∨ i < setup.hops.length → (net.link i).up.sent = [] ∨ Answered net i :=
    fun _ => .inl hnil
  have hunwritten : ∀ left, relay.task ≠ .writingChain left := htask ▸ hreaching.quiet.2.2
  cases reachingStep_of_relayStep h.node htask hreaching h.step with
  | opened hopening => exact clean_spawn h.inv h.cleanInv h.node hopening
  | onward hgoing =>
      obtain ⟨hreplying, hended, -⟩ := hgoing.quiet
      exact cleanInv_of_quiet h.cleanInv h.node (Moves.refl net i) hup rfl
        (fun heq => absurd heq (hreplying _ _)) (fun heq => absurd heq (hended _))
        fun heq => absurd heq (hunwritten _)
  | closed hdialing hrefused =>
      subst hrefused
      have hfits := h.clean relay h.node
      rw [hdialing] at hfits
      exact hfits.elim
  | failed hopening hrefused hmessage =>
      subst hrefused
      have hfits := h.clean relay h.node
      rw [hopening] at hfits
      refine cleanInv_of_quiet h.cleanInv h.node (Moves.refl net i) hup rfl ?_ (by simp)
        fun heq => absurd heq (hunwritten _)
      intro message' report' hreplying
      obtain ⟨rfl, -⟩ := JumpTask.replying.inj hreplying
      rw [hmessage]
      exact hfits

/-- `write_jump_chain` in a clean run. -/
theorem clean_writingChain {setup : Setup} {net next : Net} {i : Nat} {relay : RelayNode}
    {outcome : Outcome} (h : CleanStep setup net next i relay outcome)
    {remaining : List String} (htask : relay.task = .writingChain remaining) :
    CleanInv setup next := by
  obtain ⟨event, history, behind, task, hperform, hresume, rfl⟩ :=
    relayStep_of_task h.node htask rfl h.step
  have hold := h.inv.task h.node
  unfold TaskInv at hold
  rw [htask] at hold
  obtain ⟨-, rfl, -, hnil, hempty, -⟩ := hold
  obtain ⟨written, hwrite, -⟩ := h.sound.frame (i + 1)
  simp only [Net.perform, hwrite, Option.map_eq_some_iff, Prod.mk.injEq] at hperform
  obtain ⟨⟨done, pipe⟩, hstep, rfl, rfl, rfl⟩ := hperform
  obtain ⟨rfl, rfl⟩ := writeStep_clean h.clean.not_broken hstep
  obtain rfl := Option.some.inj hresume
  refine cleanInv_of_quiet h.cleanInv h.node (.setDown_next _ rfl (List.prefix_append _ _))
    (fun _ => .inl (by simpa using hnil)) rfl (by simp) (by simp) (fun _ => .inr ?_)
  refine ⟨written, hwrite, [], ?_⟩
  rw [List.append_nil, Net.setDown_link_self, Pipe.put_sent, hempty, List.nil_append]

/-- `read_jump_result` in a clean run: what comes back is a result. -/
theorem clean_readingResult {setup : Setup} {net next : Net} {i : Nat} {relay : RelayNode}
    {outcome : Outcome} (h : CleanStep setup net next i relay outcome)
    (htask : relay.task = .readingResult) : CleanInv setup next := by
  obtain ⟨event, history, behind, task, hperform, hresume, rfl⟩ :=
    relayStep_of_task h.node htask rfl h.step
  have hold := h.inv.task h.node
  unfold TaskInv at hold
  rw [htask] at hold
  simp only [Net.perform, Option.map_eq_some_iff, Prod.mk.injEq] at hperform
  obtain ⟨⟨result, pipe⟩, hstep, rfl, rfl, rfl⟩ := hperform
  obtain ⟨-, hlt, hnil, -, htaken⟩ := hold
  have hread := readStep_clean h.clean.not_broken (fun hgone =>
    readFrame_of_answered (answered_of_lowerGone h.cleanInv hgone) htaken) hstep
  obtain hnone | ⟨found, pipe', hsome, hsize⟩ :=
    readFrame_of_up ((h.cleanInv.place (i + 1)).up (.inr hlt)) htaken
  · rw [hnone] at hread
    cases hread
  · rw [hsome] at hread
    obtain ⟨rfl, rfl⟩ := Prod.mk.inj (Option.some.inj hread)
    have hmoves : Moves net (net.setUp (i + 1) pipe') i := .setUp_next _ (readStep_sent hstep)
    have hup : i = 0 ∨ i < setup.hops.length → ((net.setUp (i + 1) pipe').link i).up.sent = [] ∨
        Answered (net.setUp (i + 1) pipe') i := fun _ => .inl (by simpa using hnil)
    cases found with
    | ok =>
        obtain rfl := Option.some.inj hresume
        exact cleanInv_of_quiet h.cleanInv h.node hmoves hup rfl (by simp) (by simp)
          (by simp [htask])
    | error message =>
        obtain rfl := Option.some.inj hresume
        refine cleanInv_of_quiet h.cleanInv h.node hmoves hup rfl ?_ (by simp)
          (by simp [htask])
        intro message' report hreplying
        obtain ⟨rfl, -⟩ := JumpTask.replying.inj hreplying
        exact hsize

/-- `write_jump_result` with `Ok` in a clean run. -/
theorem clean_writingOk {setup : Setup} {net next : Net} {i : Nat} {relay : RelayNode}
    {outcome : Outcome} (h : CleanStep setup net next i relay outcome)
    (htask : relay.task = .writingOk) : CleanInv setup next := by
  obtain ⟨event, history, behind, task, hperform, hresume, rfl⟩ :=
    relayStep_of_task h.node htask rfl h.step
  have hold := h.inv.task h.node
  unfold TaskInv at hold
  rw [htask] at hold
  simp only [Net.perform, writeJumpResult_ok, Option.map_eq_some_iff, Prod.mk.injEq] at hperform
  obtain ⟨⟨done, pipe⟩, hstep, rfl, rfl, rfl⟩ := hperform
  obtain ⟨rfl, rfl⟩ := writeStep_clean h.clean.not_broken hstep
  obtain rfl := Option.some.inj hresume
  have hanswered := answered_of_put writeJumpResult_ok (by decide) hold.2
  exact cleanInv_of_quiet h.cleanInv h.node (.setUp _ rfl (List.prefix_append _ _))
    (fun _ => .inr hanswered) rfl (by simp) (by simp) (by simp [htask])

/-- The silent exits are not taken: a relay step of a clean run keeps what clean runs
know. -/
theorem clean_relayStep {setup : Setup} {net next : Net} {i : Nat} {relay : RelayNode}
    {outcome : Outcome} (h : CleanStep setup net next i relay outcome) : CleanInv setup next := by
  cases htask : relay.task with
  | readingChain => exact clean_readingChain h htask
  | replying message report => exact clean_replying h htask
  | dialing addr peer remaining => exact clean_reaching h htask (.dialing addr)
  | opening peer remaining attempt => exact clean_reaching h htask (.opening attempt)
  | sleeping peer remaining attempt => exact clean_reaching h htask (.sleeping attempt)
  | writingChain remaining => exact clean_writingChain h htask
  | readingResult => exact clean_readingResult h htask
  | writingOk => exact clean_writingOk h htask
  | bridging =>
      obtain ⟨event, history, behind, task, hperform, -⟩ :=
        relayStep_of_task h.node htask rfl h.step
      cases hperform
  | ended result =>
      obtain ⟨relay', op, event, history, behind, task, hnode, hop, -⟩ := relayStep_cases h.step
      obtain rfl := Node.relay.inj (hnode.symm.trans h.node)
      rw [htask] at hop
      cases hop

/-- A bridging relay has reported `Ok`, and goes on having done so. -/
theorem clean_copyStep {setup : Setup} {net next : Net} {i : Nat} {move : Net.CopyMove}
    (hinv : Inv setup net) (hcinv : CleanInv setup net) (h : net.copyStep i move = some next) :
    CleanInv setup next := by
  obtain ⟨relay, behind, moved, hnode, htask, hmoves, rfl, -, -, -, hopened, hmoved⟩ :=
    copyStep_cases h
  have hold := hinv.task hnode
  unfold TaskInv at hold
  rw [htask] at hold
  have hanswered : Answered behind i := hold.2.answered.mono hmoves.upper.upSent
  refine cleanInv_of_quiet hcinv hnode hmoves (fun _ => .inr hanswered) hopened ?_
    (fun _ => hanswered) (by simp [htask])
  intro message report hreplying
  obtain heq | heq := hmoved <;> rw [heq] at hreplying <;> cases hreplying

/-! ## Steps of the dialer and of the accepting peer -/

/-- A step at the upper end of the first stream keeps what clean runs know of every
place. -/
theorem cleanInv_of_dialer {setup : Setup} {net next : Net} (hcinv : CleanInv setup net)
    (hlower : LowerIdle (net.link 0) (next.link 0))
    (hlink : ∀ k, k ≠ 0 → next.link k = net.link k) (hnode : next.node = net.node)
    (hdialer : DialerClean setup next) : CleanInv setup next where
  place j := (hcinv.place j).keep (by rw [hnode]) (.of_top hlower hlink j)
    (.of_eq (hlink (j + 1) (Nat.succ_ne_zero j)))
  dialer := hdialer

/-- The first relay accepts the jump stream. -/
theorem clean_dialerSpawn {setup : Setup} {net : Net} {hops : List String} {peer : PeerId}
    (hcinv : CleanInv setup net) :
    CleanInv setup { net.spawn setup 0 setup.dialerPeer peer (jumpProtocol setup.nspace) with
      dialer := .writingChain hops } :=
  cleanInv_of_opens hcinv (opens_dialer setup net peer (.writingChain hops))
    (fun j hj => (by cases hj)) ⟨fun hd => (by cases hd), hcinv.dialer.answer⟩

/-- The dialer's steps in a clean run. -/
theorem clean_dialerStep {setup : Setup} {net next : Net} {outcome : Outcome}
    (hsound : setup.Sound) (hinv : Inv setup net) (hopen : OpenInv net)
    (hcinv : CleanInv setup net) (hbroken : ∀ cut err, outcome ≠ .broken cut err)
    (h : net.dialerStep setup outcome = some next) : CleanInv setup next := by
  have hold := hinv.dialer
  have hanswer := hcinv.dialer.answer
  unfold DialerInv at hold
  cases dialerMove_of_step hinv h with
  | opened hdialer => exact clean_dialerSpawn hcinv
  | refused hdialer =>
      exact cleanInv_of_dialer hcinv (LowerIdle.refl _) (fun _ _ => rfl) rfl
        ⟨fun _ => .inl (hopen.first hdialer), hanswer⟩
  | chainWritten hdialer hstep htask =>
      rw [hdialer] at hold
      obtain ⟨rfl, -, hempty, -⟩ := hold
      obtain ⟨written, hwrite, -⟩ := hsound.frame 0
      rw [List.drop_zero] at hwrite
      rw [hwrite] at hstep
      -- the write is whole, so the dialer has not returned
      obtain ⟨rfl, rfl⟩ := writeStep_clean hbroken hstep
      refine cleanInv_of_dialer hcinv (lowerIdle_setDown hstep)
        (fun k hk => Net.setDown_link_ne _ _ hk) rfl ⟨fun hd => ?_, hanswer⟩
      obtain ⟨-, rfl⟩ | ⟨err, result, hdone, rfl⟩ := htask
      · cases hd
      · cases hdone
  | resultRead hdialer hstep htask =>
      rw [hdialer] at hold
      obtain ⟨-, hsent, htaken⟩ := hold
      have hread := readStep_clean hbroken (fun hgone =>
        readFrame_of_answered (answered_of_lowerGone hcinv hgone) htaken) hstep
      have hlower := lowerIdle_setUp (readStep_sent hstep)
      obtain hnone | ⟨found, pipe', hsome, -⟩ :=
        readFrame_of_up ((hcinv.place 0).up (.inl rfl)) htaken
      · rw [hnone] at hread
        cases hread
      · rw [hsome] at hread
        obtain ⟨rfl, rfl⟩ := Prod.mk.inj (Option.some.inj hread)
        refine cleanInv_of_dialer hcinv hlower (fun k hk => Net.setUp_link_ne _ _ hk) rfl
          ⟨fun _ => .inr (hsent.mono hlower.downSent), ?_⟩
        intro err herr
        cases herr
  | requestWritten hdialer hstep htask =>
      rw [hdialer] at hold
      have hlower := lowerIdle_setDown hstep
      exact cleanInv_of_dialer hcinv hlower (fun k hk => Net.setDown_link_ne _ _ hk) rfl
        ⟨fun _ => .inr (hold.mono hlower.downSent), hanswer⟩
  | closed hdialer =>
      rw [hdialer] at hold
      exact cleanInv_of_dialer hcinv (LowerIdle.refl _) (fun _ _ => rfl) rfl
        ⟨fun _ => .inr hold, hanswer⟩

/-- What the accepting peer does is no business of the relays. -/
theorem clean_acceptor {setup : Setup} {net next : Net} {i : Nat} {self : PeerId}
    (hinv : Inv setup net) (hcinv : CleanInv setup net) (hnode : net.node i = .acceptor self)
    (hmoves : Moves net next i) (hsame : next.node = net.node) : CleanInv setup next := by
  refine cleanInv_of_moves hcinv hmoves (by rw [hnode]; exact Node.noConfusion) ?_
  have hplace := hinv.node i
  unfold NodeInv at hplace
  rw [hnode] at hplace
  have hnot : ∀ {relay}, next.node i ≠ .relay relay := by
    intro relay hrelay
    rw [hsame, hnode] at hrelay
    cases hrelay
  exact ⟨fun hi => by omega, fun h => absurd h hnot, fun h => absurd h hnot,
    fun h => absurd h hnot⟩

theorem cleanInv_step {setup : Setup} {net next : Net} {label : Net.Label}
    (hsound : setup.Sound) (hinv : Inv setup net) (hopen : OpenInv net)
    (hcinv : CleanInv setup net) (hclean : Clean setup net label)
    (h : net.step setup label = some next) : CleanInv setup next := by
  cases move_of_step h with
  | dialer h =>
      refine clean_dialerStep hsound hinv hopen hcinv ?_ h
      rintro cut err rfl
      exact hclean
  | stdin hd hpipe hlower =>
      refine cleanInv_of_dialer hcinv hlower (fun k hk => Net.setDown_link_ne _ _ hk) rfl
        ⟨fun hd' => ?_, hcinv.dialer.answer⟩
      cases hd.symm.trans hd'
  | stdout hd hsame hlower =>
      refine cleanInv_of_dialer hcinv hlower (fun k hk => Net.setUp_link_ne _ _ hk) rfl
        ⟨fun hd' => ?_, hcinv.dialer.answer⟩
      cases hd.symm.trans hd'
  | relay h =>
      obtain ⟨relay, op, event, history, behind, task, hnode, -⟩ := relayStep_cases h
      exact clean_relayStep ⟨hsound, hinv, hopen, hcinv, hnode, hclean, h⟩
  | copy h => exact clean_copyStep hinv hcinv h
  | send hnode hpipe hmoves => exact clean_acceptor hinv hcinv hnode hmoves rfl
  | receive hnode hmoves => exact clean_acceptor hinv hcinv hnode hmoves rfl

theorem cleanInv_start (setup : Setup) : CleanInv setup (machine setup).start := by
  refine ⟨fun i => ⟨fun _ => .inl rfl, ?_, ?_, ?_⟩, fun h => (by cases h),
    fun err h => (by cases h)⟩ <;> intro relay <;> simp [machine]

theorem clean_of_meets {setup : Setup} {labels : List Net.Label} {net : Net}
    (hsound : setup.Sound)
    (hmeets : (machine setup).Meets (Clean setup) (machine setup).start labels)
    (hrun : (machine setup).Reaches labels net) : CleanInv setup net :=
  (Machine.invariant_of_meets (Clean setup)
    (fun net => Inv setup net ∧ OpenInv net ∧ CleanInv setup net)
    ⟨inv_start setup, openInv_start setup, cleanInv_start setup⟩
    (fun h hclean hstep => ⟨inv_step h.1 hstep, openInv_step h.1 h.2.1 hstep,
      cleanInv_step hsound h.1 h.2.1 h.2.2 hclean hstep⟩) hmeets hrun).2.2

/-! ## What is reported -/

/-- A handler replies, once and with an error unless its chain was established,
exactly when it takes none of the silent exits.  In a clean run, accordingly, the
dialer never reads a bare end of stream, and every relay that has ended has sent a
whole result upstream, which is an error unless the relay was established. -/
theorem failures_reported (setup : Setup) :
    (∀ {peer chain events final result},
      (Handler.machine setup.text setup.nspace peer).Reaches
        (.chainRead (.ok chain) :: events) final →
      final.task = .ended result →
      (∀ err, JumpEvent.resultWritten (.error err) ∉ events) →
      (JumpTask.Replies chain events final.results ↔
        JumpTask.HopOk setup.text chain ∧ ∀ event ∈ events, event.silent = false)) ∧
    ∀ {labels net}, setup.Sound →
      (machine setup).Meets (Clean setup) (machine setup).start labels →
      (machine setup).Reaches labels net →
      (∀ err, net.answer ≠ some (.error err)) ∧
        ∀ {i relay result}, net.node i = .relay relay → relay.task = .ended result →
          ∃ reported rest, readJumpResult (net.link i).up.sent = (.ok reported, rest) ∧
            (¬ Established setup net i relay → ∃ message, reported = .error message) := by
  refine ⟨fun hrun hended hwritable => JumpTask.replies_iff hrun hended hwritable, ?_⟩
  intro labels net hsound hmeets hrun
  have hinv := inv_of_reaches hrun
  have hcinv := clean_of_meets hsound hmeets hrun
  refine ⟨hcinv.dialer.answer, fun {i relay result} hnode htask => ?_⟩
  obtain ⟨reported, rest, hread, -⟩ := ((hcinv.place i).ended hnode htask).read
  refine ⟨reported, rest, hread, fun hnot => ?_⟩
  cases reported with
  | ok => exact absurd ((hinv.relay hnode).upward.of_read hread).1 hnot
  | error message => exact ⟨message, rfl⟩

theorem ended_of_isEnded {task : JumpTask} (h : task.isEnded = true) :
    ∃ result, task = .ended result := by
  cases task with
  | ended result => exact ⟨result, rfl⟩
  | _ => cases h

/-- The second of two relays cannot open its stream, in any of its attempts. -/
def refusedRun : List Net.Label :=
  [.dialer .proceed, .dialer .proceed] ++ List.replicate 4 (.relay 0 .proceed) ++
    List.replicate 2 (.relay 1 .proceed) ++
    (List.replicate 9 [Net.Label.relay 1 (.refused "gone"), .relay 1 .proceed]).flatten ++
    [.relay 1 (.refused "gone"), .relay 1 .proceed, .relay 0 .proceed, .relay 0 .proceed,
      .dialer .proceed]

/-- What its handler meets on the way. -/
def refusedEvents : List JumpEvent :=
  .dialSent true :: (List.replicate 9 [JumpEvent.streamOpened (.error "gone"), .slept]).flatten ++
    [.streamOpened (.error "gone"), .resultWritten (.ok ())]

/-- A relay that has ended with no stream of its own. -/
def gaveUp : Node → Bool
  | .relay relay => relay.task.isEnded && relay.opened.isNone
  | .absent | .acceptor _ => false

theorem failures_reported_refused :
    (∃ final, (Handler.machine twoRelays.text "sape" ⟨[1]⟩).Reaches
        (.chainRead (.ok ⟨["t"]⟩) :: refusedEvents) final ∧
      JumpTask.Replies ⟨["t"]⟩ refusedEvents final.results) ∧
    ∃ net, (machine twoRelays).Reaches refusedRun net ∧
      (∀ err, net.answer ≠ some (.error err)) ∧
      ∃ message rest, readJumpResult (net.link 1).up.sent = (.ok (.error message), rest) := by
  constructor
  · have hends : ((Handler.machine twoRelays.text "sape" ⟨[1]⟩).exec {}
        (.chainRead (.ok ⟨["t"]⟩) :: refusedEvents)).any
        (fun final => final.task.isEnded) = true := by
      decide +kernel
    obtain ⟨final, hrun, hended⟩ := Machine.exists_reaches_of_any hends
    obtain ⟨result, hresult⟩ := ended_of_isEnded hended
    refine ⟨final, hrun, ((failures_reported twoRelays).1 hrun hresult ?_).mpr
      ⟨.inr ⟨_, _, _, _, rfl, rfl, rfl⟩, by decide⟩⟩
    simp [refusedEvents]
  · have hsome : ((machine twoRelays).exec (machine twoRelays).start refusedRun).any
        (fun net => gaveUp (net.node 1)) = true := by
      decide +kernel
    obtain ⟨net, hrun, htest⟩ := Machine.exists_reaches_of_any hsome
    have hmeets : (machine twoRelays).Meets (Clean twoRelays) (machine twoRelays).start
        refusedRun := by
      decide +kernel
    have hsound : twoRelays.Sound := by
      refine ⟨fun hop hmem => ?_, by decide⟩
      simp only [twoRelays, List.mem_cons, List.not_mem_nil, or_false] at hmem
      rcases hmem with rfl | rfl
      · exact ⟨_, _, rfl⟩
      · exact ⟨_, _, rfl⟩
    obtain ⟨hanswer, hall⟩ := (failures_reported twoRelays).2 hsound hmeets hrun
    refine ⟨net, hrun, hanswer, ?_⟩
    cases hnode : net.node 1 with
    | relay relay =>
        rw [hnode] at htest
        obtain ⟨hended, hopened⟩ := Bool.and_eq_true_iff.mp htest
        obtain ⟨result, hresult⟩ := ended_of_isEnded hended
        obtain ⟨reported, rest, hread, hmessage⟩ := hall hnode hresult
        obtain ⟨message, rfl⟩ := hmessage fun hestablished => by
          obtain ⟨-, peer, protocol, hsome, -⟩ := hestablished.opened
          rw [hsome] at hopened
          cases hopened
        exact ⟨message, rest, hread⟩
    | absent | acceptor self =>
        rw [hnode] at htest
        cases htest

/-- Two relays; the second hop is not a multiaddr. -/
def badHop : Setup where
  text := .ofTable [("b", [.tcp 1, .p2p ⟨[2]⟩])]
  nspace := "sape"
  opt := { target := .mdns ⟨[9]⟩ }
  dialerPeer := ⟨[0]⟩
  firstPeer := ⟨[1]⟩
  hops := ["b", "x"]

/-- A relay whose hop does not parse ends without a result, and the dialer reads a
bare end of stream. -/
theorem badHop_unreported :
    (∃ final, (Handler.machine badHop.text "sape" ⟨[1]⟩).Reaches [.chainRead (.ok ⟨["x"]⟩)] final ∧
      final.task.isEnded = true ∧ ¬ JumpTask.Replies ⟨["x"]⟩ [] final.results) ∧
    ∃ net, (machine badHop).Reaches
      ([.dialer .proceed, .dialer .proceed] ++ List.replicate 4 (.relay 0 .proceed) ++
        [.relay 1 .proceed, .relay 0 .eof, .dialer .eof]) net ∧
      net.answer = some (.error .unexpectedEof) := by
  constructor
  · refine ⟨_, rfl, rfl, ?_⟩
    rintro ⟨result, hresult, -⟩
    cases hresult
  · obtain ⟨net, hrun, hanswer⟩ := Machine.exists_reaches_of_any (by decide :
      ((machine badHop).exec (machine badHop).start
        ([.dialer .proceed, .dialer .proceed] ++ List.replicate 4 (.relay 0 .proceed) ++
          [.relay 1 .proceed, .relay 0 .eof, .dialer .eof])).any
        (fun net => net.answer = some (.error .unexpectedEof)) = true)
    exact ⟨net, hrun, of_decide_eq_true hanswer⟩

end Sape.Chain
