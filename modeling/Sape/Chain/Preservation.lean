/-
  Chain/Preservation.lean --- every step of the chain machine keeps the invariant.

  One lemma for each kind of step.  The locality lemmas dispose of the places that
  do not move; what is left is the place that moves, by the await it was suspended
  on, and the stream it feeds.
-/
import Sape.Chain.Invariant

set_option autoImplicit false

namespace Sape.Chain

open Sape.Foundation

/-! ## From the place that moves to the whole chain -/

theorem Moves.upper_zero {net next : Net} {i : Nat} (h : Moves net next i) :
    UpperIdle (net.link 0) (next.link 0) := by
  by_cases hi : 0 = i
  · exact hi ▸ h.upper
  · exact h.link 0 hi (by omega) ▸ UpperIdle.refl _

/-- A step that opens no stream keeps the invariant if it keeps the mover's part of
it and feeds the next place properly. -/
theorem inv_of_moves {setup : Setup} {net next : Net} {i : Nat} (hinv : Inv setup net)
    (hmoves : Moves net next i) (hself : NodeInv setup next i)
    (hfed : i + 1 < setup.hops.length → Fed setup net (i + 1) → Fed setup next (i + 1)) :
    Inv setup next where
  node j := by
    by_cases hj : j = i
    · exact hj ▸ hself
    · exact (hinv.node j).of_moves hmoves hj fun h hlt hold => by subst h; exact hfed hlt hold
  dialer := hinv.dialer.keep hmoves.dialer hmoves.answer hmoves.upper_zero
  answered h := (hinv.answered (hmoves.answer ▸ h)).mono hmoves.upper_zero.upSent

/-- A relay that has just accepted its stream. -/
theorem RelayInv.fresh {setup : Setup} {net : Net} {i : Nat} {relay : RelayNode}
    (hplace : i = 0 ∨ i < setup.hops.length)
    (hlink : net.link i = {}) (htask : relay.task = .readingChain)
    (hreceived : relay.received = none) (hopened : relay.opened = none) :
    RelayInv setup net i relay where
  place := hplace
  fed := .inl (by rw [hlink])
  received chain h := by rw [hreceived] at h; cases h
  opened peer protocol h := by rw [hopened] at h; cases h
  upward := .inl (by rw [hlink])
  task := by
    unfold TaskInv
    rw [htask, hlink]
    exact ⟨rfl, rfl⟩

/-- Whatever accepts the stream that a relay opens is in order. -/
theorem NodeInv.spawned {setup : Setup} {net : Net} {i : Nat} {opener self : PeerId}
    {protocol : StreamProtocol}
    (hnode : net.node i = if protocol = jumpProtocol setup.nspace then
      .relay { self := self, peer := opener } else .acceptor self)
    (hlink : net.link i = {})
    (hplace : protocol = jumpProtocol setup.nspace → i = 0 ∨ i < setup.hops.length)
    (hend : protocol ≠ jumpProtocol setup.nspace → 0 < i ∧ setup.hops.length ≤ i) :
    NodeInv setup net i := by
  unfold NodeInv
  by_cases hprotocol : protocol = jumpProtocol setup.nspace
  · rw [hnode, if_pos hprotocol]
    exact RelayInv.fresh (hplace hprotocol) hlink rfl rfl rfl
  · rw [hnode, if_neg hprotocol]
    exact hend hprotocol

theorem outboundProtocol_drop (nspace : String) (hops : List String) (i : Nat) :
    JumpTask.outboundProtocol nspace (hops.drop i) =
      if i < hops.length then jumpProtocol nspace else tunnelProtocol nspace := by
  unfold JumpTask.outboundProtocol
  by_cases hi : i < hops.length
  · rw [if_pos hi, if_neg]
    simp only [List.isEmpty_iff, List.drop_eq_nil_iff]
    omega
  · rw [if_neg hi, if_pos]
    simp only [List.isEmpty_iff, List.drop_eq_nil_iff]
    omega

/-! ## Relay steps -/

theorem NodeInv.of_relay {setup : Setup} {net : Net} {i : Nat} {relay : RelayNode}
    (hnode : net.node i = .relay relay) (h : RelayInv setup net i relay) :
    NodeInv setup net i := by
  unfold NodeInv
  rw [hnode]
  exact h

theorem Inv.relay {setup : Setup} {net : Net} (hinv : Inv setup net) {i : Nat}
    {relay : RelayNode} (hnode : net.node i = .relay relay) : RelayInv setup net i relay := by
  have h := hinv.node i
  unfold NodeInv at h
  rwa [hnode] at h

/-- What the await a relay is suspended on says. -/
theorem Inv.task {setup : Setup} {net : Net} (hinv : Inv setup net) {i : Nat}
    {relay : RelayNode} (hnode : net.node i = .relay relay) : TaskInv setup net i relay :=
  (hinv.relay hnode).task

/-- The hop a relay takes off its chain is hop `i`, and the rest is the suffix behind
it. -/
theorem drop_eq_cons {hops remaining : List String} {i : Nat} {hop : String}
    (h : hops.drop i = hop :: remaining) :
    hops[i]? = some hop ∧ remaining = hops.drop (i + 1) := by
  constructor
  · have hhead := congrArg (fun l => l[0]?) h
    simpa using hhead
  · rw [← List.tail_drop, h, List.tail_cons]

/-- A step of relay `i` that feeds the next place nothing and changes neither the
relay's history nor what it has sent upstream. -/
theorem inv_of_quiet {setup : Setup} {net behind : Net} {i : Nat} {relay : RelayNode}
    {task : JumpTask} (hinv : Inv setup net) (hnode : net.node i = .relay relay)
    (hmoves : Moves net behind i)
    (hdown : (behind.link (i + 1)).down.sent = (net.link (i + 1)).down.sent)
    (hnil : (behind.link i).up.sent = [])
    (htask : TaskInv setup (behind.setNode i (.relay { relay with task := task })) i
      { relay with task := task }) :
    Inv setup (behind.setNode i (.relay { relay with task := task })) := by
  have hrelay := hinv.relay hnode
  refine inv_of_moves hinv (hmoves.setNode _) (.of_relay (Net.setNode_node_self ..) ?_)
    (fun _ hold => hold.congr hdown)
  exact ⟨hrelay.place, hrelay.fed.congr hmoves.upper.downSent, hrelay.received,
    hrelay.opened, .inl hnil, htask⟩

/-- `read_jump_chain`. -/
theorem inv_readingChain {setup : Setup} {net next : Net} {i : Nat} {relay : RelayNode}
    {outcome : Outcome} (hinv : Inv setup net) (hnode : net.node i = .relay relay)
    (htask : relay.task = .readingChain)
    (h : net.relayStep setup i outcome = some next) : Inv setup next := by
  obtain ⟨event, history, behind, task, hperform, hresume, rfl⟩ :=
    relayStep_of_task hnode htask rfl h
  have hrelay := hinv.relay hnode
  have hold := hrelay.task
  unfold TaskInv at hold
  rw [htask] at hold
  simp only [Net.perform, Option.map_eq_some_iff, Prod.mk.injEq] at hperform
  obtain ⟨⟨result, pipe⟩, hstep, rfl, rfl, rfl⟩ := hperform
  obtain ⟨htaken, hnil⟩ := hold
  have hmoves : Moves net (net.setDown i pipe) i := .setDown pipe (readStep_sent hstep)
  have hnil' : ((net.setDown i pipe).link i).up.sent = [] := by simpa using hnil
  -- the value read is the frame that was fed
  have hchain : ∀ chain, result = .ok chain → chain = ⟨setup.hops.drop i⟩ := by
    rintro chain rfl
    obtain ⟨rest, hread, -⟩ := readStep_ok hstep
    rw [Pipe.unread, htaken, List.drop_zero] at hread
    exact (hrelay.fed.front hread).1
  have hreceived : ∀ chain, result.toOption = some chain → chain = ⟨setup.hops.drop i⟩ := by
    intro chain hsome
    cases result with
    | error err => cases hsome
    | ok read => exact hchain chain (congrArg Except.ok (Option.some.inj hsome))
  refine inv_of_moves hinv (hmoves.setNode _) (.of_relay (Net.setNode_node_self ..) ?_)
    (fun _ hfed => hfed.congr (by simp))
  refine ⟨hrelay.place, hrelay.fed.congr hmoves.upper.downSent, hreceived, hrelay.opened,
    .inl hnil', ?_⟩
  unfold TaskInv
  cases result with
  | error err =>
      obtain rfl := Option.some.inj hresume
      trivial
  | ok chain =>
      obtain rfl := Option.some.inj hresume
      obtain rfl := hchain chain rfl
      obtain ⟨-, report, heq⟩ | ⟨hop, remaining, hhops, ⟨report, -, heq⟩ |
        ⟨addr, peer, hparse, heq⟩⟩ :=
        JumpTask.afterChain_cases setup.text relay.peer ⟨setup.hops.drop i⟩
      · simp only [heq]
        exact hnil'
      · simp only [heq]
      · simp only [heq]
        obtain ⟨hget, rfl⟩ := drop_eq_cons hhops
        exact ⟨⟨rfl, ⟨hop, addr, hget, hparse, rfl⟩, rfl⟩, hnil'⟩

/-- A failure result goes upstream, whole or cut. -/
theorem inv_replying {setup : Setup} {net next : Net} {i : Nat} {relay : RelayNode}
    {outcome : Outcome} {message : String} {report : Report} (hinv : Inv setup net)
    (hnode : net.node i = .relay relay) (htask : relay.task = .replying message report)
    (h : net.relayStep setup i outcome = some next) : Inv setup next := by
  obtain ⟨event, history, behind, task, hperform, hresume, rfl⟩ :=
    relayStep_of_task hnode htask rfl h
  have hrelay := hinv.relay hnode
  have hnil := hrelay.task
  unfold TaskInv at hnil
  rw [htask] at hnil
  simp only [Net.perform, Option.map_eq_some_iff, Prod.mk.injEq] at hperform
  obtain ⟨⟨done, pipe⟩, hstep, rfl, rfl, rfl⟩ := hperform
  obtain ⟨htaken, hcases⟩ := writeStep_cases hstep
  have hmoves : Moves net (net.setUp i pipe) i := .setUp pipe htaken (writeStep_extends hstep)
  obtain ⟨result, rfl⟩ : ∃ result, task = .ended result := by
    cases done <;> exact ⟨_, (Option.some.inj hresume).symm⟩
  refine inv_of_moves hinv (hmoves.setNode _) (.of_relay (Net.setNode_node_self ..) ?_)
    (fun _ hfed => hfed.congr (by simp))
  refine ⟨hrelay.place, hrelay.fed.congr hmoves.upper.downSent, hrelay.received,
    hrelay.opened, ?_, trivial⟩
  have hsent : ((net.setUp i pipe).link i).up.sent = pipe.sent := by simp
  simp only [hnil, List.nil_append] at hcases
  unfold Upward
  rw [Net.setNode_link, hsent]
  obtain ⟨-, written, hwrite, heq⟩ | ⟨-, heq | ⟨written, cut, hwrite, heq⟩⟩ := hcases
  · exact .inr (.inl ⟨message, written, hwrite, heq ▸ List.prefix_rfl⟩)
  · exact .inl heq
  · exact .inr (.inl ⟨message, written, hwrite, heq ▸ List.take_prefix cut written⟩)

/-- A step that opens the stream to place `i` keeps the invariant if it keeps the opener's
part of it. -/
theorem inv_of_opens {setup : Setup} {net next : Net} {i : Nat} {opener peer : PeerId}
    {protocol : StreamProtocol} (hinv : Inv setup net)
    (hopens : Opens setup net next i opener peer protocol)
    (hplace : protocol = jumpProtocol setup.nspace → i = 0 ∨ i < setup.hops.length)
    (hend : protocol ≠ jumpProtocol setup.nspace → 0 < i ∧ setup.hops.length ≤ i)
    (hopener : ∀ j, j + 1 = i → NodeInv setup next j) (hdialer : DialerInv setup next)
    (hanswered : next.answer = some (.ok .ok) → Reported next 0) : Inv setup next where
  node j := by
    by_cases hj : j = i
    · exact hj ▸ NodeInv.spawned hopens.place hopens.fresh hplace hend
    · by_cases hnext : j + 1 = i
      · exact hopener j hnext
      · exact (hinv.node j).keep (hopens.node j hj hnext) (hopens.lower_ne hj)
          (hopens.upper_ne hnext) fun _ hfed => hfed.congr (by rw [hopens.link j hj])
  dialer := hdialer
  answered := hanswered

/-- `open_stream` succeeds: the next place comes into being. -/
theorem inv_spawn {setup : Setup} {net : Net} {i : Nat} {relay : RelayNode}
    {peer : PeerId} {remaining : List String} (hinv : Inv setup net)
    (hnode : net.node i = .relay relay) (htaken : Taken setup i relay peer remaining)
    (hnil : (net.link i).up.sent = []) :
    Inv setup ((net.spawn setup (i + 1) relay.self peer
      (JumpTask.outboundProtocol setup.nspace remaining)).setNode i
        (.relay { relay with
          opened := some (peer, JumpTask.outboundProtocol setup.nspace remaining)
          task := JumpTask.afterOpen remaining })) := by
  have hrelay := hinv.relay hnode
  let moved : RelayNode := { relay with
    opened := some (peer, JumpTask.outboundProtocol setup.nspace remaining)
    task := JumpTask.afterOpen remaining }
  have hopens := opens_relay setup net i relay.self peer
    (JumpTask.outboundProtocol setup.nspace remaining) moved
  have hupper := UpperIdle.of_eq (hopens.link 0 (by omega))
  have hlink : (net.spawn setup (i + 1) relay.self peer
      (JumpTask.outboundProtocol setup.nspace remaining)).link i = net.link i :=
    hopens.link i (Nat.succ_ne_self i).symm
  refine inv_of_opens hinv hopens ?_ ?_ ?_ (hinv.dialer.keep rfl rfl hupper)
    (fun h => (hinv.answered h).mono hupper.upSent)
  · intro hjump
    rw [htaken.remaining, outboundProtocol_drop] at hjump
    by_cases hlt : i + 1 < setup.hops.length
    · exact .inr hlt
    · rw [if_neg hlt] at hjump
      exact absurd hjump (tunnelProtocol_ne_jumpProtocol setup.nspace)
  · intro hne
    rw [htaken.remaining, outboundProtocol_drop] at hne
    by_cases hlt : i + 1 < setup.hops.length
    · exact absurd (if_pos hlt) hne
    · exact ⟨Nat.succ_pos i, Nat.not_lt.mp hlt⟩
  · -- the relay that has opened it
    rintro j hj
    obtain rfl : j = i := Nat.succ.inj hj
    refine .of_relay (Net.setNode_node_self ..) ?_
    have hopened : ∀ task, Opened setup j { moved with task := task } :=
      fun task => ⟨htaken.received, _, _, rfl, htaken.next⟩
    refine ⟨hrelay.place, hrelay.fed.congr (by rw [Net.setNode_link, hlink]), hrelay.received, ?_,
      .inl (by rw [Net.setNode_link, hlink]; exact hnil), ?_⟩
    · intro peer' protocol heq
      obtain ⟨rfl, rfl⟩ := Prod.mk.inj (Option.some.inj heq)
      exact htaken.next
    · unfold TaskInv
      simp only [Net.setNode_link, hlink, Net.spawn_link_self, JumpTask.afterOpen]
      by_cases hempty : remaining.isEmpty = true
      · have hlen : setup.hops.length ≤ j + 1 :=
          List.drop_eq_nil_iff.mp (htaken.remaining ▸ List.isEmpty_iff.mp hempty)
        rw [if_pos hempty]
        exact ⟨⟨hopened _, fun hlt => absurd hlt (Nat.not_lt.mpr hlen),
          fun hlt => absurd hlt (Nat.not_lt.mpr hlen)⟩, hnil⟩
      · have hlt : j + 1 < setup.hops.length := by
          refine Nat.lt_of_not_le fun hle => hempty ?_
          rw [htaken.remaining, List.drop_eq_nil_of_le hle]
          rfl
        rw [if_neg hempty]
        exact ⟨hopened _, htaken.remaining, hlt, hnil, trivial, trivial⟩

/-- On the way to the next hop, nothing has been sent upstream. -/
theorem taskInv_of_reaching {setup : Setup} {net : Net} {i : Nat} {relay : RelayNode}
    {awaiting : JumpTask} {peer : PeerId} {remaining : List String}
    (htask : relay.task = awaiting) (hreaching : Reaching peer remaining awaiting) :
    TaskInv setup net i relay ↔
      Taken setup i relay peer remaining ∧ (net.link i).up.sent = [] := by
  unfold TaskInv
  rw [htask]
  cases hreaching <;> rfl

/-- `dial_tx.send`, `open_stream`, and the pause between two attempts. -/
theorem inv_reaching {setup : Setup} {net next : Net} {i : Nat} {relay : RelayNode}
    {outcome : Outcome} {awaiting : JumpTask} {peer : PeerId} {remaining : List String}
    (hinv : Inv setup net) (hnode : net.node i = .relay relay) (htask : relay.task = awaiting)
    (hreaching : Reaching peer remaining awaiting)
    (h : net.relayStep setup i outcome = some next) : Inv setup next := by
  obtain ⟨htaken, hnil⟩ := (taskInv_of_reaching htask hreaching).mp (hinv.task hnode)
  cases reachingStep_of_relayStep hnode htask hreaching h with
  | opened htask => exact inv_spawn hinv hnode htaken hnil
  | onward hgoing =>
      exact inv_of_quiet hinv hnode (Moves.refl net i) rfl hnil
        ((taskInv_of_reaching rfl hgoing).mpr ⟨htaken.congr rfl, hnil⟩)
  | closed htask hrefused => exact inv_of_quiet hinv hnode (Moves.refl net i) rfl hnil trivial
  | failed htask hrefused hmessage =>
      exact inv_of_quiet hinv hnode (Moves.refl net i) rfl hnil hnil

/-- `write_jump_chain`: the next place is fed the hops left for it, whole or cut. -/
theorem inv_writingChain {setup : Setup} {net next : Net} {i : Nat} {relay : RelayNode}
    {outcome : Outcome} {remaining : List String} (hinv : Inv setup net)
    (hnode : net.node i = .relay relay) (htask : relay.task = .writingChain remaining)
    (h : net.relayStep setup i outcome = some next) : Inv setup next := by
  obtain ⟨event, history, behind, task, hperform, hresume, rfl⟩ :=
    relayStep_of_task hnode htask rfl h
  have hrelay := hinv.relay hnode
  have hold := hrelay.task
  unfold TaskInv at hold
  rw [htask] at hold
  simp only [Net.perform, Option.map_eq_some_iff, Prod.mk.injEq] at hperform
  obtain ⟨⟨done, pipe⟩, hstep, rfl, rfl, rfl⟩ := hperform
  obtain ⟨hopened, rfl, hlt, hnil, hempty, htakenUp⟩ := hold
  obtain ⟨htaken, hcases⟩ := writeStep_cases hstep
  rw [hempty] at hcases
  simp only [List.nil_append] at hcases
  have hmoves : Moves net (net.setDown (i + 1) pipe) i :=
    .setDown_next pipe htaken (writeStep_extends hstep)
  have hdown : ((net.setDown (i + 1) pipe).link (i + 1)).down.sent = pipe.sent := by simp
  have hnil' : ((net.setDown (i + 1) pipe).link i).up.sent = [] := by simpa using hnil
  have hfed : Fed setup (net.setDown (i + 1) pipe) (i + 1) := by
    unfold Fed
    rw [hdown]
    obtain ⟨-, written, hwrite, heq⟩ | ⟨-, heq | ⟨written, cut, hwrite, heq⟩⟩ := hcases
    · exact .inr ⟨written, hwrite, .inl (heq ▸ List.prefix_rfl)⟩
    · exact .inl heq
    · exact .inr ⟨written, hwrite, .inl (heq ▸ List.take_prefix cut written)⟩
  refine inv_of_moves hinv (hmoves.setNode _) (.of_relay (Net.setNode_node_self ..) ?_)
    (fun _ _ => hfed)
  refine ⟨hrelay.place, hrelay.fed.congr hmoves.upper.downSent, hrelay.received,
    hrelay.opened, .inl hnil', ?_⟩
  unfold TaskInv
  obtain ⟨rfl, written, hwrite, heq⟩ | ⟨⟨err, rfl⟩, -⟩ := hcases
  · obtain rfl := Option.some.inj hresume
    refine ⟨hopened.congr rfl rfl, hlt, hnil', ⟨written, hwrite, [], ?_⟩, ?_⟩
    · rw [List.append_nil, Net.setNode_link, hdown, heq]
    · simpa using htakenUp
  · obtain rfl := Option.some.inj hresume
    trivial

/-- `read_jump_result`: an `Ok` that was read was reported. -/
theorem inv_readingResult {setup : Setup} {net next : Net} {i : Nat} {relay : RelayNode}
    {outcome : Outcome} (hinv : Inv setup net) (hnode : net.node i = .relay relay)
    (htask : relay.task = .readingResult)
    (h : net.relayStep setup i outcome = some next) : Inv setup next := by
  obtain ⟨event, history, behind, task, hperform, hresume, rfl⟩ :=
    relayStep_of_task hnode htask rfl h
  have hold := hinv.task hnode
  unfold TaskInv at hold
  rw [htask] at hold
  simp only [Net.perform, Option.map_eq_some_iff, Prod.mk.injEq] at hperform
  obtain ⟨⟨result, pipe⟩, hstep, rfl, rfl, rfl⟩ := hperform
  obtain ⟨hopened, hlt, hnil, hsent, htaken⟩ := hold
  have hmoves : Moves net (net.setUp (i + 1) pipe) i := .setUp_next pipe (readStep_sent hstep)
  have hnil' : ((net.setUp (i + 1) pipe).link i).up.sent = [] := by simpa using hnil
  refine inv_of_quiet hinv hnode hmoves (by simp) hnil' ?_
  unfold TaskInv
  rcases result with err | (_ | message) <;> obtain rfl := Option.some.inj hresume
  · trivial
  · obtain ⟨rest, hread, -⟩ := readStep_ok hstep
    rw [Pipe.unread, htaken, List.drop_zero] at hread
    have hreported := (established_of_read (hinv.node (i + 1)) (.inr hlt) hread).1
    refine ⟨⟨hopened.congr rfl rfl, fun _ => hsent.mono ?_, fun _ => hreported.mono ?_⟩, hnil'⟩
    · exact hmoves.lower.downSent
    · exact hmoves.lower.upSent ▸ List.prefix_rfl
  · exact hnil'

/-- `write_jump_result` with `Ok`: from here on the relay is a bridge. -/
theorem inv_writingOk {setup : Setup} {net next : Net} {i : Nat} {relay : RelayNode}
    {outcome : Outcome} (hinv : Inv setup net) (hnode : net.node i = .relay relay)
    (htask : relay.task = .writingOk)
    (h : net.relayStep setup i outcome = some next) : Inv setup next := by
  obtain ⟨event, history, behind, task, hperform, hresume, rfl⟩ :=
    relayStep_of_task hnode htask rfl h
  have hrelay := hinv.relay hnode
  have hold := hrelay.task
  unfold TaskInv at hold
  rw [htask] at hold
  simp only [Net.perform, Option.map_eq_some_iff, Prod.mk.injEq] at hperform
  obtain ⟨⟨done, pipe⟩, hstep, rfl, rfl, rfl⟩ := hperform
  obtain ⟨hestablished, hnil⟩ := hold
  obtain ⟨htaken, hcases⟩ := writeStep_cases hstep
  rw [hnil] at hcases
  simp only [List.nil_append] at hcases
  have hmoves : Moves net (net.setUp i pipe) i := .setUp pipe htaken (writeStep_extends hstep)
  have hsent : ((net.setUp i pipe).link i).up.sent = pipe.sent := by simp
  have hkeep : ∀ task, Established setup ((net.setUp i pipe).setNode i
      (.relay { relay with task := task })) i { relay with task := task } := fun task =>
    ⟨hestablished.opened.congr rfl rfl,
      fun hlt => (hestablished.sent hlt).mono hmoves.lower.downSent,
      fun hlt => (hestablished.reported hlt).mono (hmoves.lower.upSent ▸ List.prefix_rfl)⟩
  refine inv_of_moves hinv (hmoves.setNode _) (.of_relay (Net.setNode_node_self ..) ?_)
    (fun _ hfed => hfed.congr (by simp))
  refine ⟨hrelay.place, hrelay.fed.congr hmoves.upper.downSent, hrelay.received,
    hrelay.opened, ?_, ?_⟩
  · unfold Upward
    rw [Net.setNode_link, hsent]
    obtain ⟨-, written, hwrite, heq⟩ | ⟨-, heq | ⟨written, cut, hwrite, heq⟩⟩ := hcases
    · exact .inr (.inr ⟨hkeep task, written, hwrite, .inl (heq ▸ List.prefix_rfl)⟩)
    · exact .inl heq
    · exact .inr (.inr ⟨hkeep task, written, hwrite, .inl (heq ▸ List.take_prefix cut written)⟩)
  · unfold TaskInv
    obtain ⟨rfl, written, hwrite, heq⟩ | ⟨⟨err, rfl⟩, -⟩ := hcases
    · obtain rfl := Option.some.inj hresume
      refine ⟨hkeep _, written, hwrite, [], ?_⟩
      rw [List.append_nil, Net.setNode_link, hsent, heq]
    · obtain rfl := Option.some.inj hresume
      trivial

/-- Relay steps keep the invariant. -/
theorem inv_relayStep {setup : Setup} {net next : Net} {i : Nat} {outcome : Outcome}
    (hinv : Inv setup net) (h : net.relayStep setup i outcome = some next) :
    Inv setup next := by
  obtain ⟨relay, op, event, history, behind, task, hnode, hop, hperform, -, -⟩ :=
    relayStep_cases h
  cases htask : relay.task with
  | readingChain => exact inv_readingChain hinv hnode htask h
  | replying message report => exact inv_replying hinv hnode htask h
  | dialing addr peer remaining => exact inv_reaching hinv hnode htask (.dialing addr) h
  | opening peer remaining attempt => exact inv_reaching hinv hnode htask (.opening attempt) h
  | sleeping peer remaining attempt => exact inv_reaching hinv hnode htask (.sleeping attempt) h
  | writingChain remaining => exact inv_writingChain hinv hnode htask h
  | readingResult => exact inv_readingResult hinv hnode htask h
  | writingOk => exact inv_writingOk hinv hnode htask h
  | bridging =>
      rw [htask] at hop
      obtain rfl := Option.some.inj hop
      cases hperform
  | ended result => rw [htask] at hop; cases hop

/-- A bridging relay has already sent and received its control frames. -/
theorem inv_copyStep {setup : Setup} {net next : Net} {i : Nat} {move : Net.CopyMove}
    (hinv : Inv setup net) (h : net.copyStep i move = some next) : Inv setup next := by
  obtain ⟨relay, behind, moved, hnode, htask, hmoves, rfl, -, -, hreceived, hopened, hmoved⟩ :=
    copyStep_cases h
  have hrelay := hinv.relay hnode
  have hold := hrelay.task
  unfold TaskInv at hold
  rw [htask] at hold
  obtain ⟨hestablished, hreported⟩ := hold
  have hsent : (net.link i).up.sent <+: (behind.link i).up.sent := hmoves.upper.upSent
  have hkeep : Established setup (behind.setNode i (.relay moved)) i moved :=
    ⟨hestablished.opened.congr hreceived hopened,
      fun hlt => (hestablished.sent hlt).mono hmoves.lower.downSent,
      fun hlt => (hestablished.reported hlt).mono (hmoves.lower.upSent ▸ List.prefix_rfl)⟩
  refine inv_of_moves hinv (hmoves.setNode _) (.of_relay (Net.setNode_node_self ..) ?_) ?_
  · refine ⟨hrelay.place, hrelay.fed.congr hmoves.upper.downSent, ?_, ?_, ?_, ?_⟩
    · rw [hreceived]
      exact hrelay.received
    · rw [hopened]
      exact hrelay.opened
    · obtain ⟨written, hwrite, hpre⟩ := hreported
      exact .inr (.inr ⟨hkeep, written, hwrite, .inr (hpre.trans hsent)⟩)
    · unfold TaskInv
      obtain htask' | htask' := hmoved <;> rw [htask']
      · exact ⟨hkeep, hreported.mono hsent⟩
      · trivial
  · -- the next place, if it is a relay, has been sent its whole chain
    intro hlt _
    exact ((hestablished.sent hlt).mono hmoves.lower.downSent).fed

/-! ## Steps of the dialer and of the accepting peer -/

/-- A step at the upper end of the first stream keeps the invariant if it keeps the
dialer's part of it and feeds the first relay properly. -/
theorem inv_of_dialer {setup : Setup} {net next : Net} (hinv : Inv setup net)
    (hlower : LowerIdle (net.link 0) (next.link 0))
    (hlink : ∀ k, k ≠ 0 → next.link k = net.link k) (hnode : next.node = net.node)
    (hfed : Fed setup net 0 → Fed setup next 0) (hdialer : DialerInv setup next)
    (hanswered : next.answer = some (.ok .ok) → Reported next 0) : Inv setup next where
  node j := by
    refine (hinv.node j).keep (by rw [hnode]) (.of_top hlower hlink j)
      (.of_eq (hlink (j + 1) (Nat.succ_ne_zero j))) ?_
    intro _ hold
    by_cases hj : j = 0
    · subst hj
      exact hfed hold
    · exact hold.congr (by rw [hlink j hj])
  dialer := hdialer
  answered := hanswered

/-- The first relay accepts the jump stream. -/
theorem inv_dialerSpawn {setup : Setup} {net : Net} {hops : List String} {peer : PeerId}
    (hinv : Inv setup net) (hhops : hops = setup.hops) (hanswer : net.answer = none) :
    Inv setup { net.spawn setup 0 setup.dialerPeer peer (jumpProtocol setup.nspace) with
      dialer := .writingChain hops } := by
  refine inv_of_opens hinv (opens_dialer setup net peer (.writingChain hops)) (fun _ => .inl rfl)
    (fun hne => absurd rfl hne) (fun j hj => (by cases hj)) ⟨hhops, hanswer, by simp, by simp⟩ ?_
  intro h
  have hsome : net.answer = some (.ok .ok) := h
  rw [hanswer] at hsome
  cases hsome

/-- What the dialer does at a step: it opens the stream to the first relay, or goes on with
what it has read or written there, or returns. -/
inductive DialerMove (setup : Setup) (net : Net) (outcome : Outcome) : Net → Prop where
  | opened {peer : PeerId} {hops : List String} (hdialer : net.dialer = .openingJump peer hops) :
      DialerMove setup net outcome
        { net.spawn setup 0 setup.dialerPeer peer (jumpProtocol setup.nspace) with
          dialer := .writingChain hops }
  | refused {peer : PeerId} {hops : List String} {result : Except Report Unit}
      (hdialer : net.dialer = .openingJump peer hops) :
      DialerMove setup net outcome { net with dialer := .ended result }
  | chainWritten {hops : List String} {done : Except IoError Unit} {pipe : Pipe}
      {task : DialTask} (hdialer : net.dialer = .writingChain hops)
      (hstep : writeStep (writeJumpChain ⟨hops⟩) (net.link 0).down outcome = some (done, pipe))
      (htask : (done = .ok () ∧ task = .readingResult) ∨
        ∃ err result, done = .error err ∧ task = .ended result) :
      DialerMove setup net outcome { net.setDown 0 pipe with dialer := task }
  | resultRead {found : Except IoError JumpResult} {pipe : Pipe} {task : DialTask}
      (hdialer : net.dialer = .readingResult)
      (hstep : readStep readJumpResult (net.link 0).up (net.lowerGone 0) outcome =
        some (found, pipe))
      (htask : task = DialTask.afterJumpOk (parseDialMode setup.opt) ∨
        ∃ result, task = .ended result) :
      DialerMove setup net outcome { net.setUp 0 pipe with dialer := task, answer := some found }
  | requestWritten {done : Except IoError Unit} {pipe : Pipe} {task : DialTask}
      (hdialer : net.dialer = .writingJumpRequest)
      (hstep : writeStep (writeTunnelRequest .netcat) (net.link 0).down outcome =
        some (done, pipe))
      (htask : (done = .ok () ∧ task = .jumpNetcat) ∨
        ∃ err result, done = .error err ∧ task = .ended result) :
      DialerMove setup net outcome { net.setDown 0 pipe with dialer := task }
  | closed {result : Except Report Unit} (hdialer : net.dialer = .jumpNetcat) :
      DialerMove setup net outcome { net with dialer := .ended result }

theorem dialerMove_of_step {setup : Setup} {net next : Net} {outcome : Outcome}
    (hinv : Inv setup net) (h : net.dialerStep setup outcome = some next) :
    DialerMove setup net outcome next := by
  have hold := hinv.dialer
  unfold DialerInv at hold
  unfold Net.dialerStep at h
  cases hd : net.dialer with
  | openingJump peer hops =>
      simp only [hd, DialTask.op] at h
      cases outcome with
      | proceed =>
          obtain rfl := Option.some.inj h
          exact .opened hd
      | refused err =>
          obtain rfl := Option.some.inj h
          exact .refused hd
      | eof => cases h
      | broken cut err => cases h
  | writingChain hops =>
      simp only [hd, DialTask.op] at h
      split at h
      · cases h
      · rename_i done pipe hstep
        obtain ⟨task, hresume, rfl⟩ := Option.map_eq_some_iff.mp h
        refine .chainWritten hd hstep ?_
        cases done with
        | ok done => exact .inl ⟨rfl, (Option.some.inj hresume).symm⟩
        | error err => exact .inr ⟨err, _, rfl, (Option.some.inj hresume).symm⟩
  | readingResult =>
      simp only [hd, DialTask.op] at h
      split at h
      · cases h
      · rename_i found pipe hstep
        obtain ⟨task, hresume, rfl⟩ := Option.map_eq_some_iff.mp h
        refine .resultRead hd hstep ?_
        cases DialTask.move_of_resume hresume with
        | jumpOk => exact .inl rfl
        | ended => exact .inr ⟨_, rfl⟩
  | writingJumpRequest =>
      simp only [hd, DialTask.op] at h
      split at h
      · cases h
      · rename_i done pipe hstep
        obtain ⟨task, hresume, rfl⟩ := Option.map_eq_some_iff.mp h
        refine .requestWritten hd hstep ?_
        cases done with
        | ok done => exact .inl ⟨rfl, (Option.some.inj hresume).symm⟩
        | error err => exact .inr ⟨err, _, rfl, (Option.some.inj hresume).symm⟩
  | jumpNetcat =>
      simp only [hd, DialTask.op] at h
      cases outcome with
      | proceed =>
          obtain rfl := Option.some.inj h
          exact .closed hd
      | broken cut err =>
          obtain rfl := Option.some.inj h
          exact .closed hd
      | eof => cases h
      | refused err => cases h
  | ended result => simp [hd, DialTask.op] at h
  | _ => rw [hd] at hold; exact hold.elim

/-- A write of the dialer stays at the upper end of the first stream. -/
theorem lowerIdle_setDown {net : Net} {done : Except IoError Unit} {pipe : Pipe}
    {frame : Except IoError Bytes} {outcome : Outcome}
    (hstep : writeStep frame (net.link 0).down outcome = some (done, pipe)) :
    LowerIdle (net.link 0) ((net.setDown 0 pipe).link 0) := by
  rw [Net.setDown_link_self]
  exact ⟨(writeStep_cases hstep).1, rfl, writeStep_extends hstep⟩

theorem lowerIdle_setUp {net : Net} {pipe : Pipe} (hsent : pipe.sent = (net.link 0).up.sent) :
    LowerIdle (net.link 0) ((net.setUp 0 pipe).link 0) := by
  rw [Net.setUp_link_self]
  exact ⟨rfl, hsent, List.prefix_rfl⟩

/-- The dialer's steps keep the invariant. -/
theorem inv_dialerStep {setup : Setup} {net next : Net} {outcome : Outcome}
    (hinv : Inv setup net) (h : net.dialerStep setup outcome = some next) : Inv setup next := by
  have hold := hinv.dialer
  unfold DialerInv at hold
  cases dialerMove_of_step hinv h with
  | opened hdialer =>
      rw [hdialer] at hold
      exact inv_dialerSpawn hinv hold.1 hold.2
  | refused hdialer =>
      exact inv_of_dialer hinv (LowerIdle.refl _) (fun _ _ => rfl) rfl id trivial hinv.answered
  | chainWritten hdialer hstep htask =>
      rename_i hops done pipe task
      rw [hdialer] at hold
      obtain ⟨rfl, hanswer, hempty, hup⟩ := hold
      have hlower := lowerIdle_setDown hstep
      have hlink : ∀ k, k ≠ 0 → (net.setDown 0 pipe).link k = net.link k :=
        fun k hk => Net.setDown_link_ne _ _ hk
      have hdown : ((net.setDown 0 pipe).link 0).down.sent = pipe.sent := by simp
      obtain ⟨-, hcases⟩ := writeStep_cases hstep
      rw [hempty] at hcases
      simp only [List.nil_append] at hcases
      have hfed : Fed setup (net.setDown 0 pipe) 0 := by
        unfold Fed
        rw [hdown, List.drop_zero]
        obtain ⟨-, written, hwrite, heq⟩ | ⟨-, heq | ⟨written, cut, hwrite, heq⟩⟩ := hcases
        · exact .inr ⟨written, hwrite, .inl (heq ▸ List.prefix_rfl)⟩
        · exact .inl heq
        · exact .inr ⟨written, hwrite, .inl (heq ▸ List.take_prefix cut written)⟩
      have hanswered : (net.setDown 0 pipe).answer = some (.ok .ok) →
          Reported (net.setDown 0 pipe) 0 := by
        intro hsome
        rw [Net.setDown_answer, hanswer] at hsome
        cases hsome
      refine inv_of_dialer hinv hlower hlink rfl (fun _ => hfed) ?_ hanswered
      obtain ⟨rfl, rfl⟩ | ⟨err, result, rfl, rfl⟩ := htask
      · obtain ⟨-, written, hwrite, heq⟩ | ⟨⟨err, hdone⟩, -⟩ := hcases
        · refine ⟨hanswer, ⟨written, by rw [List.drop_zero]; exact hwrite, ?_⟩, by simpa using hup⟩
          exact (heq ▸ List.prefix_rfl : written <+: pipe.sent).trans (hdown ▸ List.prefix_rfl)
        · cases hdone
      · trivial
  | resultRead hdialer hstep htask =>
      rename_i found pipe task
      rw [hdialer] at hold
      obtain ⟨hanswer, hsent, htaken⟩ := hold
      have hlower := lowerIdle_setUp (readStep_sent hstep)
      have hlink : ∀ k, k ≠ 0 → (net.setUp 0 pipe).link k = net.link k :=
        fun k hk => Net.setUp_link_ne _ _ hk
      have hsent' : ChainSent setup (net.setUp 0 pipe) 0 := hsent.mono hlower.downSent
      have hanswered : some found = some (.ok .ok) → Reported (net.setUp 0 pipe) 0 := by
        intro hsome
        obtain rfl := Option.some.inj hsome
        obtain ⟨rest, hread, -⟩ := readStep_ok hstep
        rw [Pipe.unread, htaken, List.drop_zero] at hread
        exact (established_of_read (hinv.node 0) (.inl rfl) hread).1.mono
          (hlower.upSent ▸ List.prefix_rfl)
      refine inv_of_dialer hinv hlower hlink rfl (fun _ => hsent'.fed) ?_ hanswered
      obtain rfl | ⟨result, rfl⟩ := htask
      · unfold DialerInv
        cases parseDialMode setup.opt
        case netcat => exact hsent'
        all_goals trivial
      · trivial
  | requestWritten hdialer hstep htask =>
      rename_i done pipe task
      rw [hdialer] at hold
      have hlower := lowerIdle_setDown hstep
      have hlink : ∀ k, k ≠ 0 → (net.setDown 0 pipe).link k = net.link k :=
        fun k hk => Net.setDown_link_ne _ _ hk
      have hsent' : ChainSent setup (net.setDown 0 pipe) 0 := hold.mono hlower.downSent
      have hanswered : (net.setDown 0 pipe).answer = some (.ok .ok) →
          Reported (net.setDown 0 pipe) 0 :=
        fun hsome => (hinv.answered hsome).mono (hlower.upSent ▸ List.prefix_rfl)
      refine inv_of_dialer hinv hlower hlink rfl (fun _ => hsent'.fed) ?_ hanswered
      obtain ⟨-, rfl⟩ | ⟨err, result, -, rfl⟩ := htask
      · exact hsent'
      · trivial
  | closed hdialer =>
      exact inv_of_dialer hinv (LowerIdle.refl _) (fun _ _ => rfl) rfl id trivial hinv.answered

/-- What the accepting peer does at its end of the stream is framed by `Moves`. -/
theorem inv_acceptor {setup : Setup} {net next : Net} {i : Nat} {self : PeerId}
    (hinv : Inv setup net) (hnode : net.node i = .acceptor self) (hmoves : Moves net next i)
    (hsame : next.node = net.node) (hnext : next.link (i + 1) = net.link (i + 1)) :
    Inv setup next := by
  refine inv_of_moves hinv hmoves ?_ (fun _ hold => hold.congr (by rw [hnext]))
  have h := hinv.node i
  unfold NodeInv at h ⊢
  rw [hsame, hnode]
  rwa [hnode] at h

/-- Every step of the machine keeps the invariant. -/
theorem inv_step {setup : Setup} {net next : Net} {label : Net.Label} (hinv : Inv setup net)
    (h : net.step setup label = some next) : Inv setup next := by
  cases move_of_step h with
  | dialer h => exact inv_dialerStep hinv h
  | stdin hd hpipe hlower =>
      have hsent := hinv.dialer
      unfold DialerInv at hsent
      rw [hd] at hsent
      refine inv_of_dialer hinv hlower (fun k hk => Net.setDown_link_ne _ _ hk) rfl ?_ ?_ ?_
      · exact fun _ => (hsent.mono (by simp [hpipe])).fed
      · unfold DialerInv
        simp only [Net.setDown_dialer, hd]
        exact hsent.mono (by simp [hpipe])
      · exact fun hsome => (hinv.answered hsome).mono (by simp)
  | stdout hd hsame hlower =>
      have hsent := hinv.dialer
      unfold DialerInv at hsent
      rw [hd] at hsent
      refine inv_of_dialer hinv hlower (fun k hk => Net.setUp_link_ne _ _ hk) rfl ?_ ?_ ?_
      · exact fun _ => (hsent.mono (by simp)).fed
      · unfold DialerInv
        simp only [Net.setUp_dialer, hd]
        exact hsent.mono (by simp)
      · exact fun hsome => (hinv.answered hsome).mono (by simp [hsame])
  | relay h => exact inv_relayStep hinv h
  | copy h => exact inv_copyStep hinv h
  | send hnode hpipe hmoves =>
      exact inv_acceptor hinv hnode hmoves rfl (Net.setUp_link_ne _ _ (Nat.succ_ne_self _))
  | receive hnode hmoves =>
      exact inv_acceptor hinv hnode hmoves rfl (Net.setDown_link_ne _ _ (Nat.succ_ne_self _))

theorem inv_start (setup : Setup) : Inv setup (machine setup).start where
  node _ := rfl
  dialer := ⟨rfl, rfl⟩
  answered h := by cases h

theorem inv_of_reaches {setup : Setup} {labels : List Net.Label} {net : Net}
    (hrun : (machine setup).Reaches labels net) : Inv setup net :=
  Machine.invariant (Inv setup) (inv_start setup) (fun hinv hstep => inv_step hinv hstep) hrun

end Sape.Chain
