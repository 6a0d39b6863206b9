/-
  Chain/Conveyance.lean --- every step of the chain machine keeps the flow invariant.

  The heads are written and read by the awaits in front of the copy loop, which
  starts with both of them off the streams; a move of the copy loop is a move of one
  of its two copiers.

  WHAT IS PROVED.

      flow_step           every step keeps the flow invariant
      flow_of_reaches     so it holds in every run
-/
import Sape.Chain.Flow

set_option autoImplicit false

namespace Sape.Chain

open Sape.Foundation

/-! ## Relay steps -/

/-- `read_jump_chain`: the head is off the stream. -/
theorem flow_readingChain {setup : Setup} {net next : Net} {i : Nat} {relay : RelayNode}
    {outcome : Outcome} (hinv : Inv setup net) (hflow : Flow setup net)
    (hnode : net.node i = .relay relay) (htask : relay.task = .readingChain)
    (h : net.relayStep setup i outcome = some next) : Flow setup next := by
  obtain ⟨event, history, behind, task, hperform, hresume, rfl⟩ :=
    relayStep_of_task hnode htask rfl h
  have hcounts := perform_counts hperform
  have hrelay := hinv.relay hnode
  have hold := hrelay.task
  have hbufs := hflow.task hnode
  unfold TaskInv at hold
  unfold TaskFlow at hbufs
  rw [htask] at hold hbufs
  simp only [Net.perform, Option.map_eq_some_iff, Prod.mk.injEq] at hperform
  obtain ⟨⟨result, pipe⟩, hstep, rfl, rfl, rfl⟩ := hperform
  obtain ⟨htaken, hnil⟩ := hold
  have hsent := readStep_sent hstep
  refine flow_of_quiet hflow hnode (.setDown pipe hsent) hcounts (by simp) (by simpa using hnil) ?_
  unfold TaskFlow
  cases result with
  | error err =>
      obtain rfl := Option.some.inj hresume
      trivial
  | ok chain =>
      obtain rfl := Option.some.inj hresume
      obtain ⟨rest, hread, hnext⟩ := readStep_ok hstep
      rw [Pipe.unread, htaken, List.drop_zero] at hread
      obtain ⟨-, written, hwrite, hfront⟩ := hrelay.fed.front hread
      have hhead := headDown_of_write hrelay.place hwrite
      have htaken' : HeadTaken setup (net.setDown i pipe) i { relay with
          received := some chain
          task := JumpTask.afterChain setup.text relay.peer chain } := by
        refine ⟨?_, ?_, hbufs.1, hbufs.2⟩
        · rw [Net.setDown_link_self, hsent, hhead, hfront]
          exact List.prefix_append written rest
        · rw [Net.setDown_link_self, hhead, hnext, hfront, List.length_append,
            Nat.add_sub_cancel_right]
      obtain ⟨-, report, heq⟩ | ⟨hop, remaining, -, ⟨report, -, heq⟩ | ⟨addr, peer, -, heq⟩⟩ :=
        JumpTask.afterChain_cases setup.text relay.peer chain
      · simp only [heq]
      · simp only [heq]
      · simp only [heq]
        exact htaken'.congr rfl rfl

/-- A failure result goes upstream: it is not an `Ok`. -/
theorem flow_replying {setup : Setup} {net next : Net} {i : Nat} {relay : RelayNode}
    {outcome : Outcome} {message : String} {report : Report} (hinv : Inv setup net)
    (hflow : Flow setup net) (hnode : net.node i = .relay relay)
    (htask : relay.task = .replying message report)
    (h : net.relayStep setup i outcome = some next) : Flow setup next := by
  obtain ⟨event, history, behind, task, hperform, hresume, rfl⟩ :=
    relayStep_of_task hnode htask rfl h
  have hcounts := perform_counts hperform
  have hrelay := hinv.relay hnode
  have hnil := hrelay.task
  unfold TaskInv at hnil
  rw [htask] at hnil
  simp only [Net.perform, Option.map_eq_some_iff, Prod.mk.injEq] at hperform
  obtain ⟨⟨done, pipe⟩, hstep, rfl, rfl, rfl⟩ := hperform
  obtain ⟨htaken, hcases⟩ := writeStep_cases hstep
  obtain ⟨report', rfl⟩ : ∃ report', task = .ended (.error report') := by
    cases done <;> exact ⟨_, (Option.some.inj hresume).symm⟩
  refine flow_of_moves hflow hnode (Net.setNode_node_self ..)
    ((Moves.setUp pipe htaken (writeStep_extends hstep)).setNode _) hcounts ?_ ?_ trivial
  · simpa using hflow.down (i + 1)
  · intro hreported
    obtain ⟨rest, hread⟩ := (hreported hrelay.place).read
    simp only [Net.setNode_link, Net.setUp_link_self] at hread ⊢
    rw [hnil] at hcases
    simp only [List.nil_append] at hcases
    obtain ⟨-, written, hwrite, heq⟩ | ⟨-, heq | ⟨written, cut, hwrite, heq⟩⟩ := hcases
    · cases (result_eq_of_comparable hwrite (.inl (heq ▸ List.prefix_rfl)) hread).1
    · rw [heq]
      exact List.nil_prefix
    · cases (result_eq_of_comparable hwrite (.inl (heq ▸ List.take_prefix cut written)) hread).1

/-- A step that opens the stream to place `i` keeps the flow invariant if it keeps the
opener's part of it. -/
theorem flow_of_opens {setup : Setup} {net next : Net} {i : Nat} {opener peer : PeerId}
    {protocol : StreamProtocol} (hflow : Flow setup net)
    (hopens : Opens setup net next i opener peer protocol) (habsent : net.node i = .absent)
    (hend : protocol ≠ jumpProtocol setup.nspace → i = setup.hops.length)
    (hopener : ∀ j, j + 1 = i → ∃ relay moved, net.node j = .relay relay ∧
      next.node j = .relay moved ∧ TaskFlow setup next j moved)
    (hdialer : DialerFlow setup next) : Flow setup next := by
  have hunanswered : (∀ self, next.node setup.hops.length ≠ .acceptor self) ∨
      i = setup.hops.length → net.listenerSent = 0 := by
    refine fun hnone => hflow.unanswered fun self hacceptor => ?_
    by_cases hn : setup.hops.length = i
    · rw [hn, habsent] at hacceptor
      cases hacceptor
    · by_cases hnext : setup.hops.length + 1 = i
      · obtain ⟨relay, moved, hrelay, -⟩ := hopener _ hnext
        cases hacceptor.symm.trans hrelay
      · obtain hnone | hn' := hnone
        · exact hnone self ((hopens.node _ hn hnext).trans hacceptor)
        · exact hn hn'.symm
  refine ⟨fun j => ?_, fun j hreported => ?_, fun {j other} hother => ?_, hdialer,
    fun {j self} hacceptor => ?_,
    fun hnone => hopens.listenerSent.trans (hunanswered (.inl hnone))⟩
  · by_cases hj : j = i
    · rw [hj, hopens.fresh]
      exact List.nil_prefix
    · rw [hopens.link j hj]
      exact hflow.down j
  · by_cases hj : j = i
    · rw [hj, hopens.fresh]
      exact List.nil_prefix
    · have hlink := hopens.link j hj
      rw [hlink]
      exact hflow.up j fun hplace => (hreported hplace).mono (hlink ▸ List.prefix_rfl)
  · by_cases hj : j = i
    · subst hj
      rw [hopens.relay_eq hother]
      exact ⟨rfl, rfl⟩
    · by_cases hnext : j + 1 = i
      · obtain ⟨relay, moved, -, hmoved, htask⟩ := hopener j hnext
        exact Node.relay.inj (hmoved.symm.trans hother) ▸ htask
      · rw [hopens.node j hj hnext] at hother
        exact (hflow.task hother).keep (hopens.lower_ne hj) (hopens.upper_ne hnext)
  · by_cases hj : j = i
    · subst hj
      have hlast : j = setup.hops.length := by
        refine hend fun hjump => ?_
        rw [hopens.place, if_pos hjump] at hacceptor
        cases hacceptor
      refine ⟨hlast, ?_⟩
      rw [hopens.fresh, hopens.listenerSent, hunanswered (.inr hlast)]
      rfl
    · by_cases hnext : j + 1 = i
      · obtain ⟨relay, moved, -, hmoved, -⟩ := hopener j hnext
        cases hacceptor.symm.trans hmoved
      · rw [hopens.node j hj hnext] at hacceptor
        rw [hopens.link j hj, hopens.listenerSent]
        exact hflow.acceptor hacceptor

/-- The relay that has opened the stream goes on with its part. -/
theorem taskFlow_opened {setup : Setup} {net next : Net} {i : Nat} {opener peer hop : PeerId}
    {protocol : StreamProtocol} {relay moved : RelayNode} {remaining : List String}
    (hopens : Opens setup net next (i + 1) opener peer protocol)
    (htaken : Taken setup i relay hop remaining) (hhead : HeadTaken setup net i relay)
    (htask : moved.task = JumpTask.afterOpen remaining) (hdown : moved.downBuf = relay.downBuf)
    (hup : moved.upBuf = relay.upBuf) : TaskFlow setup next i moved := by
  have hkept : HeadTaken setup next i moved :=
    (hhead.keep (hopens.lower_ne (Nat.succ_ne_self i).symm)).congr hdown hup
  unfold TaskFlow
  rw [htask, JumpTask.afterOpen]
  by_cases hempty : remaining.isEmpty = true
  · have hlast : 0 < i + 1 ∧ setup.hops.length ≤ i + 1 :=
      ⟨Nat.succ_pos i,
        List.drop_eq_nil_iff.mp (htaken.remaining ▸ List.isEmpty_iff.mp hempty)⟩
    rw [if_pos hempty, headDown_of_le hlast, headUp_of_le hlast, hopens.fresh]
    exact ⟨hkept, rfl, List.nil_prefix, rfl⟩
  · rw [if_neg hempty]
    exact hkept

/-- `open_stream` succeeds: the next place comes into being, behind empty streams. -/
theorem flow_spawn {setup : Setup} {net : Net} {i : Nat} {relay : RelayNode} {peer : PeerId}
    {remaining : List String} (hopen : OpenInv net) (hflow : Flow setup net)
    (hnode : net.node i = .relay relay) (hpre : preOpen relay.task = true)
    (htaken : Taken setup i relay peer remaining) (hhead : HeadTaken setup net i relay) :
    Flow setup ((net.spawn setup (i + 1) relay.self peer
      (JumpTask.outboundProtocol setup.nspace remaining)).setNode i
        (.relay { relay with
          opened := some (peer, JumpTask.outboundProtocol setup.nspace remaining)
          task := JumpTask.afterOpen remaining })) := by
  let moved : RelayNode := { relay with
    opened := some (peer, JumpTask.outboundProtocol setup.nspace remaining)
    task := JumpTask.afterOpen remaining }
  have hopens := opens_relay setup net i relay.self peer
    (JumpTask.outboundProtocol setup.nspace remaining) moved
  have hlt : i < setup.hops.length := by
    obtain ⟨hop, addr, hget, -⟩ := htaken.next
    exact (List.getElem?_eq_some_iff.mp hget).1
  refine flow_of_opens hflow hopens (hopen.absent hnode hpre) ?_ ?_
    (hflow.dialer.keep rfl rfl (by rw [hopens.link 0 (by omega)]))
  · intro hne
    by_contra hlast
    rw [htaken.remaining, outboundProtocol_drop, if_pos (by omega)] at hne
    exact hne rfl
  · rintro j hj
    obtain rfl : j = i := Nat.succ.inj hj
    exact ⟨relay, moved, hnode, Net.setNode_node_self ..,
      taskFlow_opened hopens htaken hhead rfl rfl rfl⟩

/-- On the way to the next hop, the head of the stream is off it. -/
theorem taskFlow_of_reaching {setup : Setup} {net : Net} {i : Nat} {relay : RelayNode}
    {awaiting : JumpTask} {peer : PeerId} {remaining : List String}
    (htask : relay.task = awaiting) (hreaching : Reaching peer remaining awaiting) :
    TaskFlow setup net i relay ↔ HeadTaken setup net i relay := by
  unfold TaskFlow
  rw [htask]
  cases hreaching <;> rfl

/-- `dial_tx.send`, `open_stream`, and the pause between two attempts. -/
theorem flow_reaching {setup : Setup} {net next : Net} {i : Nat} {relay : RelayNode}
    {outcome : Outcome} {awaiting : JumpTask} {peer : PeerId} {remaining : List String}
    (hinv : Inv setup net) (hopen : OpenInv net) (hflow : Flow setup net)
    (hnode : net.node i = .relay relay) (htask : relay.task = awaiting)
    (hreaching : Reaching peer remaining awaiting)
    (h : net.relayStep setup i outcome = some next) : Flow setup next := by
  obtain ⟨htaken, hnil⟩ := (taskInv_of_reaching htask hreaching).mp (hinv.task hnode)
  have hhead := (taskFlow_of_reaching htask hreaching).mp (hflow.task hnode)
  cases reachingStep_of_relayStep hnode htask hreaching h with
  | opened hopening =>
      exact flow_spawn hopen hflow hnode (by rw [hopening]; rfl) htaken hhead
  | onward hgoing =>
      exact flow_of_quiet hflow hnode (Moves.refl net i) ⟨rfl, rfl⟩ rfl hnil
        ((taskFlow_of_reaching rfl hgoing).mpr (hhead.congr rfl rfl))
  | closed hdialing hrefused =>
      exact flow_of_quiet hflow hnode (Moves.refl net i) ⟨rfl, rfl⟩ rfl hnil trivial
  | failed hopening hrefused hmessage =>
      exact flow_of_quiet hflow hnode (Moves.refl net i) ⟨rfl, rfl⟩ rfl hnil trivial

/-- `write_jump_chain`: the head of the next stream, whole or cut. -/
theorem flow_writingChain {setup : Setup} {net next : Net} {i : Nat} {relay : RelayNode}
    {outcome : Outcome} {remaining : List String} (hinv : Inv setup net)
    (hflow : Flow setup net) (hnode : net.node i = .relay relay)
    (htask : relay.task = .writingChain remaining)
    (h : net.relayStep setup i outcome = some next) : Flow setup next := by
  obtain ⟨event, history, behind, task, hperform, hresume, rfl⟩ :=
    relayStep_of_task hnode htask rfl h
  have hcounts := perform_counts hperform
  have hold := hinv.task hnode
  have hhead := hflow.task hnode
  unfold TaskInv at hold
  unfold TaskFlow at hhead
  rw [htask] at hold hhead
  simp only [Net.perform, Option.map_eq_some_iff, Prod.mk.injEq] at hperform
  obtain ⟨⟨done, pipe⟩, hstep, rfl, rfl, rfl⟩ := hperform
  obtain ⟨-, rfl, hlt, hnil, hempty, -⟩ := hold
  obtain ⟨htaken, hcases⟩ := writeStep_cases hstep
  rw [hempty] at hcases
  simp only [List.nil_append] at hcases
  have hmoves : Moves net (net.setDown (i + 1) pipe) i :=
    .setDown_next pipe htaken (writeStep_extends hstep)
  have hnil' : ((net.setDown (i + 1) pipe).link i).up.sent = [] := by simpa using hnil
  have hsent : ((net.setDown (i + 1) pipe).link (i + 1)).down.sent = pipe.sent := by simp
  refine flow_of_moves hflow hnode (Net.setNode_node_self ..) (hmoves.setNode _) hcounts ?_ ?_ ?_
  · rw [Net.setNode_link, hsent]
    refine List.IsPrefix.trans ?_ (List.prefix_append _ _)
    obtain ⟨-, written, hwrite, heq⟩ | ⟨-, heq | ⟨written, cut, hwrite, heq⟩⟩ := hcases
    · exact headDown_of_write (.inr hlt) hwrite ▸ heq ▸ List.prefix_rfl
    · exact heq ▸ List.nil_prefix
    · exact headDown_of_write (.inr hlt) hwrite ▸ heq ▸ List.take_prefix cut written
  · intro _
    rw [Net.setNode_link, hnil']
    exact List.nil_prefix
  · unfold TaskFlow
    obtain ⟨rfl, written, hwrite, heq⟩ | ⟨⟨err, rfl⟩, -⟩ := hcases
    · obtain rfl := Option.some.inj hresume
      refine ⟨?_, ?_⟩
      · exact ⟨by simpa using hhead.head, by simpa using hhead.taken, hhead.downBuf, hhead.upBuf⟩
      · rw [Net.setNode_link, hsent, heq, headDown_of_write (.inr hlt) hwrite]
    · obtain rfl := Option.some.inj hresume
      trivial

/-- `read_jump_result`: behind an `Ok`, the head of the next stream is off it. -/
theorem flow_readingResult {setup : Setup} {net next : Net} {i : Nat} {relay : RelayNode}
    {outcome : Outcome} (hinv : Inv setup net) (hflow : Flow setup net)
    (hnode : net.node i = .relay relay) (htask : relay.task = .readingResult)
    (h : net.relayStep setup i outcome = some next) : Flow setup next := by
  obtain ⟨event, history, behind, task, hperform, hresume, rfl⟩ :=
    relayStep_of_task hnode htask rfl h
  have hcounts := perform_counts hperform
  have hold := hinv.task hnode
  have hown := hflow.task hnode
  unfold TaskInv at hold
  unfold TaskFlow at hown
  rw [htask] at hold hown
  simp only [Net.perform, Option.map_eq_some_iff, Prod.mk.injEq] at hperform
  obtain ⟨⟨result, pipe⟩, hstep, rfl, rfl, rfl⟩ := hperform
  obtain ⟨-, hlt, hnil, -, htaken⟩ := hold
  obtain ⟨hhead, hdown⟩ := hown
  have hsent := readStep_sent hstep
  refine flow_of_quiet hflow hnode (.setUp_next pipe hsent) hcounts (by simp)
    (by simpa using hnil) ?_
  unfold TaskFlow
  rcases result with err | (_ | message) <;> obtain rfl := Option.some.inj hresume
  · trivial
  · obtain ⟨rest, hread, hnext⟩ := readStep_ok hstep
    rw [Pipe.unread, htaken, List.drop_zero] at hread
    obtain ⟨hreported, -⟩ := established_of_read (hinv.node (i + 1)) (.inr hlt) hread
    obtain ⟨written, hwrite, hpre⟩ := hreported
    obtain ⟨-, hfront⟩ := result_eq_of_comparable hwrite (.inr hpre) hread
    have hplace : i + 1 = 0 ∨ i + 1 < setup.hops.length := .inr hlt
    obtain rfl : written = headUp setup (i + 1) := by
      rw [headUp_of_place hplace]
      exact (Except.ok.inj (writeJumpResult_ok.symm.trans hwrite)).symm
    refine ⟨⟨?_, ?_, hhead.downBuf, hhead.upBuf⟩, by simpa using hdown, ?_, ?_⟩
    · simpa using hhead.head
    · simpa using hhead.taken
    · rw [Net.setUp_link_self, hsent]
      exact hpre
    · rw [Net.setUp_link_self, hnext, hfront, List.length_append, Nat.add_sub_cancel_right]
  · trivial

/-- `write_jump_result` with `Ok`: the copiers start. -/
theorem flow_writingOk {setup : Setup} {net next : Net} {i : Nat} {relay : RelayNode}
    {outcome : Outcome} (hinv : Inv setup net) (hflow : Flow setup net)
    (hnode : net.node i = .relay relay) (htask : relay.task = .writingOk)
    (h : net.relayStep setup i outcome = some next) : Flow setup next := by
  obtain ⟨event, history, behind, task, hperform, hresume, rfl⟩ :=
    relayStep_of_task hnode htask rfl h
  have hcounts := perform_counts hperform
  have hrelay := hinv.relay hnode
  have hold := hrelay.task
  have hown := hflow.task hnode
  unfold TaskInv at hold
  unfold TaskFlow at hown
  rw [htask] at hold hown
  simp only [Net.perform, writeJumpResult_ok, ← headUp_of_place hrelay.place,
    Option.map_eq_some_iff, Prod.mk.injEq] at hperform
  obtain ⟨⟨done, pipe⟩, hstep, rfl, rfl, rfl⟩ := hperform
  obtain ⟨-, hnil⟩ := hold
  obtain ⟨hhead, hdown, hup, htakenUp⟩ := hown
  obtain ⟨htaken, hcases⟩ := writeStep_cases hstep
  rw [hnil] at hcases
  simp only [List.nil_append] at hcases
  have hmoves : Moves net (net.setUp i pipe) i := .setUp pipe htaken (writeStep_extends hstep)
  have hsent : ((net.setUp i pipe).link i).up.sent = pipe.sent := by simp
  refine flow_of_moves hflow hnode (Net.setNode_node_self ..) (hmoves.setNode _) hcounts ?_ ?_ ?_
  · simpa using hflow.down (i + 1)
  · intro _
    rw [Net.setNode_link, hsent]
    refine List.IsPrefix.trans ?_ (List.prefix_append _ _)
    obtain ⟨-, written, hwrite, heq⟩ | ⟨-, heq | ⟨written, cut, hwrite, heq⟩⟩ := hcases
    · exact Except.ok.inj hwrite ▸ heq ▸ List.prefix_rfl
    · exact heq ▸ List.nil_prefix
    · exact Except.ok.inj hwrite ▸ heq ▸ List.take_prefix cut written
  · unfold TaskFlow
    obtain ⟨rfl, written, hwrite, heq⟩ | ⟨⟨err, rfl⟩, -⟩ := hcases
    · obtain rfl := Option.some.inj hresume
      constructor
      · have hstart := Copied.start (headDown setup (i + 1)) hhead.head hhead.taken
        simpa [hhead.downBuf, hdown] using hstart
      · have hstart := Copied.start (headUp setup i) hup htakenUp
        simpa [hhead.upBuf, heq, ← Except.ok.inj hwrite] using hstart
    · obtain rfl := Option.some.inj hresume
      trivial

theorem flow_relayStep {setup : Setup} {net next : Net} {i : Nat} {outcome : Outcome}
    (hinv : Inv setup net) (hopen : OpenInv net) (hflow : Flow setup net)
    (h : net.relayStep setup i outcome = some next) : Flow setup next := by
  obtain ⟨relay, op, event, history, behind, task, hnode, hop, hperform, -, -⟩ :=
    relayStep_cases h
  cases htask : relay.task with
  | readingChain => exact flow_readingChain hinv hflow hnode htask h
  | replying message report => exact flow_replying hinv hflow hnode htask h
  | dialing addr peer remaining =>
      exact flow_reaching hinv hopen hflow hnode htask (.dialing addr) h
  | opening peer remaining attempt =>
      exact flow_reaching hinv hopen hflow hnode htask (.opening attempt) h
  | sleeping peer remaining attempt =>
      exact flow_reaching hinv hopen hflow hnode htask (.sleeping attempt) h
  | writingChain remaining => exact flow_writingChain hinv hflow hnode htask h
  | readingResult => exact flow_readingResult hinv hflow hnode htask h
  | writingOk => exact flow_writingOk hinv hflow hnode htask h
  | bridging =>
      rw [htask] at hop
      obtain rfl := Option.some.inj hop
      cases hperform
  | ended result => rw [htask] at hop; cases hop

/-! ## The copy loop -/

/-- A move of the two copiers passes on only what comes from the ends of the chain. -/
theorem flow_of_copy {setup : Setup} {net next : Net} {i : Nat} {relay moved : RelayNode}
    (hinv : Inv setup net) (hflow : Flow setup net) (hnode : net.node i = .relay relay)
    (htask : relay.task = .bridging) (hmoved : next.node i = .relay moved)
    (hmoves : Moves net next i)
    (hcounts : next.dialerSent = net.dialerSent ∧ next.listenerSent = net.listenerSent)
    (hended : moved.task = .bridging ∨ moved.task = .ended (.ok ()))
    (hbridged : Bridged setup next i moved) : Flow setup next := by
  have hold := hinv.task hnode
  unfold TaskInv at hold
  rw [htask] at hold
  refine flow_of_moves hflow hnode hmoved hmoves hcounts (hbridged.down.faithful ?_)
    (fun _ => hbridged.up.faithful ?_) ?_
  · rw [hmoves.upper.downSent]
    exact hflow.down i
  · rw [hmoves.lower.upSent]
    exact hflow.up (i + 1) fun hplace => hold.1.reported (by omega)
  · unfold TaskFlow
    obtain heq | heq := hended <;> rw [heq]
    · exact hbridged
    · exact hbridged

theorem flow_copyStep {setup : Setup} {net next : Net} {i : Nat} {move : Net.CopyMove}
    (hinv : Inv setup net) (hflow : Flow setup net) (h : net.copyStep i move = some next) :
    Flow setup next := by
  unfold Net.copyStep at h
  split at h
  · rename_i relay hnode
    split at h
    · rename_i htask
      have hbridged := hflow.task hnode
      unfold TaskFlow at hbridged
      rw [htask] at hbridged
      cases move with
      | readDown count =>
          simp only [Option.ite_none_right_eq_some, Option.some.injEq] at h
          obtain ⟨hcount, rfl⟩ := h
          refine flow_of_copy hinv hflow hnode htask (Net.setNode_node_self ..)
            ((Moves.setDown ((net.link i).down.skip count) rfl).setNode _) ⟨rfl, rfl⟩ (.inl htask)
            ⟨?_, by simpa using hbridged.up⟩
          simpa [Pipe.unread] using hbridged.down.read hcount
      | writeDown count =>
          simp only [Option.ite_none_right_eq_some, Option.some.injEq] at h
          obtain ⟨-, rfl⟩ := h
          refine flow_of_copy hinv hflow hnode htask (Net.setNode_node_self ..)
            ((Moves.setDown_next ((net.link (i + 1)).down.put (relay.downBuf.take count)) rfl
              (List.prefix_append ..)).setNode _) ⟨rfl, rfl⟩ (.inl htask)
            ⟨?_, by simpa using hbridged.up⟩
          simpa using hbridged.down.write count
      | readUp count =>
          simp only [Option.ite_none_right_eq_some, Option.some.injEq] at h
          obtain ⟨hcount, rfl⟩ := h
          refine flow_of_copy hinv hflow hnode htask (Net.setNode_node_self ..)
            ((Moves.setUp_next ((net.link (i + 1)).up.skip count) rfl).setNode _) ⟨rfl, rfl⟩
            (.inl htask) ⟨by simpa using hbridged.down, ?_⟩
          simpa [Pipe.unread] using hbridged.up.read hcount
      | writeUp count =>
          simp only [Option.ite_none_right_eq_some, Option.some.injEq] at h
          obtain ⟨-, rfl⟩ := h
          refine flow_of_copy hinv hflow hnode htask (Net.setNode_node_self ..)
            ((Moves.setUp ((net.link i).up.put (relay.upBuf.take count)) rfl
              (List.prefix_append ..)).setNode _) ⟨rfl, rfl⟩ (.inl htask)
            ⟨by simpa using hbridged.down, ?_⟩
          simpa using hbridged.up.write count
      | finish =>
          obtain rfl := Option.some.inj h
          exact flow_of_copy hinv hflow hnode htask (Net.setNode_node_self ..)
            ((Moves.refl net i).setNode _) ⟨rfl, rfl⟩ (.inr rfl) ⟨hbridged.down, hbridged.up⟩
    · cases h
  · cases h

/-! ## Steps of the dialer and of the accepting peer -/

/-- A step at the upper end of the first stream. -/
theorem flow_of_dialer {setup : Setup} {net next : Net} (hflow : Flow setup net)
    (hlower : LowerIdle (net.link 0) (next.link 0))
    (hlink : ∀ k, k ≠ 0 → next.link k = net.link k) (hnode : next.node = net.node)
    (hcount : next.listenerSent = net.listenerSent)
    (hdown : (next.link 0).down.sent <+: headDown setup 0 ++ tunnelDown setup)
    (hdialer : DialerFlow setup next) : Flow setup next where
  down j := by
    by_cases hj : j = 0
    · exact hj ▸ hdown
    · rw [hlink j hj]
      exact hflow.down j
  up j hreported := by
    have hsent := (LowerIdle.of_top hlower hlink j).upSent
    rw [hsent]
    exact hflow.up j fun hplace => (hreported hplace).mono (hsent ▸ List.prefix_rfl)
  task {j other} hother := by
    rw [hnode] at hother
    exact (hflow.task hother).keep (.of_top hlower hlink j)
      (.of_eq (hlink (j + 1) (Nat.succ_ne_zero j)))
  dialer := hdialer
  acceptor {j self} hacceptor := by
    rw [hnode] at hacceptor
    obtain ⟨hlast, hsent⟩ := hflow.acceptor hacceptor
    refine ⟨hlast, ?_⟩
    rw [hcount, ← hsent]
    exact (LowerIdle.of_top hlower hlink j).upSent
  unanswered hnone := by
    rw [hcount]
    exact hflow.unanswered (hnode ▸ hnone)

/-- The first relay accepts the jump stream. -/
theorem flow_dialerSpawn {setup : Setup} {net : Net} {hops : List String} {peer : PeerId}
    (hflow : Flow setup net) (habsent : net.node 0 = .absent) (hzero : net.dialerSent = 0) :
    Flow setup { net.spawn setup 0 setup.dialerPeer peer (jumpProtocol setup.nspace) with
      dialer := .writingChain hops } :=
  flow_of_opens hflow (opens_dialer setup net peer (.writingChain hops)) habsent
    (fun hne => absurd rfl hne) (fun j hj => (by cases hj)) hzero

/-- The dialer's steps keep the invariant. -/
theorem flow_dialerStep {setup : Setup} {net next : Net} {outcome : Outcome}
    (hinv : Inv setup net) (hopen : OpenInv net) (hflow : Flow setup net)
    (h : net.dialerStep setup outcome = some next) : Flow setup next := by
  have hold := hinv.dialer
  have hown := hflow.dialer
  unfold DialerInv at hold
  unfold DialerFlow at hown
  cases dialerMove_of_step hinv h with
  | opened hdialer =>
      rw [hdialer] at hown
      exact flow_dialerSpawn hflow (hopen.first hdialer) hown
  | refused hdialer =>
      exact flow_of_dialer hflow (LowerIdle.refl _) (fun _ _ => rfl) rfl rfl (hflow.down 0) trivial
  | chainWritten hdialer hstep htask =>
      rename_i hops done pipe task
      rw [hdialer] at hold hown
      obtain ⟨rfl, -, hempty, -⟩ := hold
      have hlink : ∀ k, k ≠ 0 → (net.setDown 0 pipe).link k = net.link k :=
        fun k hk => Net.setDown_link_ne _ _ hk
      have hsent : ((net.setDown 0 pipe).link 0).down.sent = pipe.sent := by simp
      obtain ⟨-, hcases⟩ := writeStep_cases hstep
      rw [hempty, ← List.drop_zero (l := setup.hops)] at hcases
      simp only [List.nil_append] at hcases
      have hdown : pipe.sent <+: headDown setup 0 ++ tunnelDown setup := by
        refine List.IsPrefix.trans ?_ (List.prefix_append _ _)
        obtain ⟨-, written, hwrite, heq⟩ | ⟨-, heq | ⟨written, cut, hwrite, heq⟩⟩ := hcases
        · exact headDown_of_write (.inl rfl) hwrite ▸ heq ▸ List.prefix_rfl
        · exact heq ▸ List.nil_prefix
        · exact headDown_of_write (.inl rfl) hwrite ▸ heq ▸ List.take_prefix cut written
      refine flow_of_dialer hflow (lowerIdle_setDown hstep) hlink rfl rfl (hsent ▸ hdown) ?_
      obtain ⟨rfl, rfl⟩ | ⟨err, result, rfl, rfl⟩ := htask
      · obtain ⟨-, written, hwrite, heq⟩ | ⟨⟨err, hdone⟩, -⟩ := hcases
        · exact ⟨hown, by rw [hsent, heq, headDown_of_write (.inl rfl) hwrite]⟩
        · cases hdone
      · trivial
  | resultRead hdialer hstep htask =>
      rename_i found pipe task
      rw [hdialer] at hown
      obtain ⟨hzero, hdown⟩ := hown
      have hlink : ∀ k, k ≠ 0 → (net.setUp 0 pipe).link k = net.link k :=
        fun k hk => Net.setUp_link_ne _ _ hk
      have hsent : ((net.setUp 0 pipe).link 0).down.sent = (net.link 0).down.sent := by simp
      refine flow_of_dialer hflow (lowerIdle_setUp (readStep_sent hstep)) hlink rfl rfl
        (hsent ▸ hflow.down 0) ?_
      obtain rfl | ⟨result, rfl⟩ := htask
      · unfold DialerFlow
        cases parseDialMode setup.opt
        case netcat => exact ⟨hzero, hsent.trans hdown⟩
        all_goals trivial
      · trivial
  | requestWritten hdialer hstep htask =>
      rename_i done pipe task
      rw [hdialer] at hown
      obtain ⟨hzero, hdown⟩ := hown
      rw [writeTunnelRequest_netcat] at hstep
      have hlink : ∀ k, k ≠ 0 → (net.setDown 0 pipe).link k = net.link k :=
        fun k hk => Net.setDown_link_ne _ _ hk
      have hsent : ((net.setDown 0 pipe).link 0).down.sent = pipe.sent := by simp
      obtain ⟨-, hcases⟩ := writeStep_cases hstep
      rw [hdown] at hcases
      have hgrown : pipe.sent <+: headDown setup 0 ++ tunnelDown setup := by
        obtain ⟨-, written, hwrite, heq⟩ | ⟨-, heq | ⟨written, cut, hwrite, heq⟩⟩ := hcases
        · rw [heq, ← Except.ok.inj hwrite]
          exact (List.prefix_append_right_inj _).mpr (List.prefix_append _ _)
        · exact heq ▸ List.prefix_append _ _
        · rw [heq, ← Except.ok.inj hwrite]
          exact (List.prefix_append_right_inj _).mpr
            ((List.take_prefix cut netcatFrame).trans (List.prefix_append _ _))
      refine flow_of_dialer hflow (lowerIdle_setDown hstep) hlink rfl rfl (hsent ▸ hgrown) ?_
      obtain ⟨rfl, rfl⟩ | ⟨err, result, rfl, rfl⟩ := htask
      · obtain ⟨-, written, hwrite, heq⟩ | ⟨⟨err, hdone⟩, -⟩ := hcases
        · unfold DialerFlow
          simp [heq, hzero, ← Except.ok.inj hwrite]
        · cases hdone
      · trivial
  | closed hdialer =>
      exact flow_of_dialer hflow (LowerIdle.refl _) (fun _ _ => rfl) rfl rfl (hflow.down 0) trivial

/-- The accepting peer sends its answer, or reads. -/
theorem flow_acceptor {setup : Setup} {net next : Net} {i : Nat} {self : PeerId}
    (hinv : Inv setup net) (hflow : Flow setup net) (hnode : net.node i = .acceptor self)
    (hmoves : Moves net next i) (hsame : next.node = net.node)
    (hcount : next.dialerSent = net.dialerSent)
    (hdown : (next.link (i + 1)).down.sent = (net.link (i + 1)).down.sent)
    (hsent : (next.link i).up.sent = setup.fromListener.take next.listenerSent) :
    Flow setup next := by
  have hplace := hinv.node i
  unfold NodeInv at hplace
  rw [hnode] at hplace
  have hlast := (hflow.acceptor hnode).1
  refine ⟨fun j => ?_, fun j hreported => ?_, fun {j other} hother => ?_,
    hflow.dialer.keep hmoves.dialer hcount hmoves.upper_zero.downSent, fun {j other} hother => ?_,
    fun hnone => absurd (hlast ▸ hsame ▸ hnode) (hnone self)⟩
  · by_cases hj : j = i
    · rw [hj, hmoves.upper.downSent]
      exact hflow.down i
    · by_cases hj' : j = i + 1
      · rw [hj', hdown]
        exact hflow.down (i + 1)
      · rw [hmoves.link j hj hj']
        exact hflow.down j
  · by_cases hj : j = i
    · rw [hj, hsent, headUp_of_le hplace]
      exact List.take_prefix _ _
    · have heq := (hmoves.lower_ne hj).upSent
      rw [heq]
      exact hflow.up j fun hp => (hreported hp).mono (heq ▸ List.prefix_rfl)
  · have hj : j ≠ i := by
      rintro rfl
      rw [hsame, hnode] at hother
      cases hother
    rw [hmoves.node j hj] at hother
    exact (hflow.task hother).keep (hmoves.lower_ne hj) (hmoves.upper_ne hj)
  · obtain ⟨hj, -⟩ := hflow.acceptor (hsame ▸ hother)
    obtain rfl : j = i := hj.trans hlast.symm
    exact ⟨hlast, hsent⟩

theorem flow_step {setup : Setup} {net next : Net} {label : Net.Label} (hinv : Inv setup net)
    (hopen : OpenInv net) (hflow : Flow setup net) (h : net.step setup label = some next) :
    Flow setup next := by
  cases move_of_step h with
  | dialer h => exact flow_dialerStep hinv hopen hflow h
  | @stdin count pipe hd hpipe hlower =>
      have hown := hflow.dialer
      unfold DialerFlow at hown
      rw [hd] at hown
      have hsent : pipe.sent = headDown setup 0 ++
          (netcatFrame ++ setup.fromDialer.take (net.dialerSent + count)) := by
        rw [hpipe, Pipe.put_sent, hown, List.append_assoc, List.append_assoc, ← List.take_add]
      refine flow_of_dialer hflow hlower (fun k hk => Net.setDown_link_ne _ _ hk) rfl rfl ?_ ?_
      · simp only [Net.setDown_link_self, hsent]
        exact (List.prefix_append_right_inj _).mpr
          ((List.prefix_append_right_inj _).mpr (List.take_prefix _ _))
      · unfold DialerFlow
        simp only [Net.setDown_dialer, hd, Net.setDown_link_self]
        exact hsent
  | stdout hd hsame hlower =>
      exact flow_of_dialer hflow hlower (fun k hk => Net.setUp_link_ne _ _ hk) rfl rfl
        (by simpa using hflow.down 0) (hflow.dialer.keep rfl rfl (by simp))
  | relay h => exact flow_relayStep hinv hopen hflow h
  | copy h => exact flow_copyStep hinv hflow h
  | send hnode hpipe hmoves =>
      refine flow_acceptor hinv hflow hnode hmoves rfl rfl (by simp) ?_
      simp only [Net.setUp_link_self, hpipe, Pipe.put_sent]
      rw [(hflow.acceptor hnode).2, ← List.take_add]
  | receive hnode hmoves =>
      exact flow_acceptor hinv hflow hnode hmoves rfl rfl (by simp)
        (by simpa using (hflow.acceptor hnode).2)

theorem flow_start (setup : Setup) : Flow setup (machine setup).start where
  down _ := List.nil_prefix
  up _ _ := List.nil_prefix
  task h := by cases h
  dialer := rfl
  acceptor h := by cases h
  unanswered _ := rfl

theorem flow_of_reaches {setup : Setup} {labels : List Net.Label} {net : Net}
    (hrun : (machine setup).Reaches labels net) : Flow setup net :=
  (Machine.invariant (fun net => Inv setup net ∧ OpenInv net ∧ Flow setup net)
    ⟨inv_start setup, openInv_start setup, flow_start setup⟩
    (fun h hstep => ⟨inv_step h.1 hstep, openInv_step h.1 h.2.1 hstep,
      flow_step h.1 h.2.1 h.2.2 hstep⟩) hrun).2.2

end Sape.Chain
