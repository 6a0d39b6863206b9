/-
  Chain/Established.lean --- where the relays of a chain copy, the chain is a line.

  `Chain/Network.lean` has the streams of a chain with the heads that are exchanged on them, and
  no ends; `Chain/Line.lean` has what is behind the heads, with the ends.  Once every relay is in
  its `copy_bidirectional`, what is behind the heads of a chain (`Net.line`) is a state that a
  line can get to, so that what holds of every line holds of it.

  By then some of the payload may be on its way: the last relay copies before the first one has
  reported, and the listener may have sent before the dialer knows of the chain.

  WHAT IS PROVED.

      within_step            nobody reads more off a stream than was written to it
      spreads_down, spreads_up
                             what each relay was sent, the one in front of it has taken
      line_of_established    a chain whose relays copy is a line, and where neither end has
                             sent anything, one that has just been established
-/
import Sape.Chain.Conveyance
import Sape.Chain.Line
import Sape.Chain.Soundness

set_option autoImplicit false

namespace Sape

open Sape.Foundation

/-! ## Reads that stay within a stream -/

/-- No more was taken than was sent. -/
def Pipe.Within (pipe : Pipe) : Prop := pipe.taken ≤ pipe.sent.length

namespace Pipe

variable {pipe next : Pipe} {outcome : Outcome}

theorem Within.put (h : pipe.Within) (bytes : Bytes) : (pipe.put bytes).Within := by
  unfold Within at *
  rw [put_taken, put_sent, List.length_append]
  exact Nat.le_add_right_of_le h

theorem Within.skip (h : pipe.Within) {count : Nat} (hcount : count ≤ pipe.unread.length) :
    (pipe.skip count).Within := by
  unfold Within at *
  rw [unread, List.length_drop] at hcount
  rw [skip_taken, skip_sent]
  omega

theorem Within.read {α : Type} {read : Bytes → Except IoError α × Bytes} {writerGone : Bool}
    {result : Except IoError α} (h : pipe.Within)
    (hstep : readStep read pipe writerGone outcome = some (result, next)) : next.Within := by
  cases outcome with
  | proceed =>
      obtain ⟨rest, -, rfl⟩ := readFrame_ok hstep
      exact Nat.sub_le _ _
  | eof =>
      simp only [readStep, Option.ite_none_right_eq_some, Option.some.injEq, Prod.mk.injEq] at hstep
      exact hstep.2.2 ▸ h
  | broken cut err =>
      simp only [readStep, Option.some.injEq, Prod.mk.injEq] at hstep
      exact hstep.2 ▸ h
  | refused err => cases hstep

theorem Within.write {written : Except IoError Bytes} {done : Except IoError Unit}
    (h : pipe.Within) (hstep : writeStep written pipe outcome = some (done, next)) :
    next.Within := by
  unfold Within at *
  rw [(writeStep_cases hstep).1]
  exact h.trans (writeStep_extends hstep).length_le

end Pipe

namespace Chain

/-- No more was taken than was sent, in either direction of a stream. -/
structure Link.Within (link : Link) : Prop where
  down : link.down.Within
  up : link.up.Within

namespace Net

/-- No more was taken than was sent, on any stream of a chain. -/
def Within (net : Net) : Prop := ∀ i, (net.link i).Within

variable {setup : Setup} {net next : Net}

theorem Within.setLink (h : net.Within) (i : Nat) {link : Link} (hlink : link.Within) :
    (net.setLink i link).Within := by
  intro j
  by_cases hj : j = i
  · rw [hj, setLink_link_self]
    exact hlink
  · rw [setLink_link_ne _ _ hj]
    exact h j

theorem Within.setDown (h : net.Within) (i : Nat) {pipe : Pipe} (hpipe : pipe.Within) :
    (net.setDown i pipe).Within := h.setLink i ⟨hpipe, (h i).up⟩

theorem Within.setUp (h : net.Within) (i : Nat) {pipe : Pipe} (hpipe : pipe.Within) :
    (net.setUp i pipe).Within := h.setLink i ⟨(h i).down, hpipe⟩

theorem Within.setNode (h : net.Within) (i : Nat) (node : Node) : (net.setNode i node).Within := h

theorem Within.spawn (h : net.Within) (setup : Setup) (i : Nat) (opener self : PeerId)
    (protocol : StreamProtocol) : (net.spawn setup i opener self protocol).Within :=
  (h.setNode i _).setLink i ⟨Nat.le_refl _, Nat.le_refl _⟩

theorem within_dialerStep {outcome : Outcome} (hinv : Inv setup net) (h : net.Within)
    (hstep : net.dialerStep setup outcome = some next) : next.Within := by
  cases dialerMove_of_step hinv hstep with
  | opened => exact h.spawn setup 0 _ _ _
  | refused => exact h
  | chainWritten hdialer hwrite => exact h.setDown 0 ((h 0).down.write hwrite)
  | resultRead hdialer hread => exact h.setUp 0 ((h 0).up.read hread)
  | requestWritten hdialer hwrite => exact h.setDown 0 ((h 0).down.write hwrite)
  | closed => exact h

theorem within_perform {i : Nat} {relay history : RelayNode} {outcome : Outcome} {op : JumpOp}
    {event : JumpEvent} {behind : Net} (h : net.Within)
    (hperform : net.perform setup i relay outcome op = some (event, history, behind)) :
    behind.Within := by
  cases op with
  | readChain =>
      simp only [perform, Option.map_eq_some_iff, Prod.mk.injEq] at hperform
      obtain ⟨⟨result, pipe⟩, hread, -, -, rfl⟩ := hperform
      exact h.setDown i ((h i).down.read hread)
  | writeResult result =>
      simp only [perform, Option.map_eq_some_iff, Prod.mk.injEq] at hperform
      obtain ⟨⟨done, pipe⟩, hwrite, -, -, rfl⟩ := hperform
      exact h.setUp i ((h i).up.write hwrite)
  | writeChain chain =>
      simp only [perform, Option.map_eq_some_iff, Prod.mk.injEq] at hperform
      obtain ⟨⟨done, pipe⟩, hwrite, -, -, rfl⟩ := hperform
      exact h.setDown (i + 1) ((h (i + 1)).down.write hwrite)
  | readResult =>
      simp only [perform, Option.map_eq_some_iff, Prod.mk.injEq] at hperform
      obtain ⟨⟨result, pipe⟩, hread, -, -, rfl⟩ := hperform
      exact h.setUp (i + 1) ((h (i + 1)).up.read hread)
  | openStream peer protocol =>
      cases outcome <;>
        simp only [perform, Option.some.injEq, Prod.mk.injEq, reduceCtorEq] at hperform
      · obtain ⟨-, -, rfl⟩ := hperform
        exact h.spawn setup (i + 1) _ _ _
      · obtain ⟨-, -, rfl⟩ := hperform
        exact h
  | sendDial addr =>
      cases outcome <;>
        simp only [perform, Option.some.injEq, Prod.mk.injEq, reduceCtorEq] at hperform
      all_goals
        obtain ⟨-, -, rfl⟩ := hperform
        exact h
  | sleep millis =>
      cases outcome <;>
        simp only [perform, Option.some.injEq, Prod.mk.injEq, reduceCtorEq] at hperform
      obtain ⟨-, -, rfl⟩ := hperform
      exact h
  | copyBidirectional => cases hperform

theorem within_copyStep {i : Nat} {move : CopyMove} (h : net.Within)
    (hstep : net.copyStep i move = some next) : next.Within := by
  unfold copyStep at hstep
  split at hstep
  · split at hstep
    · cases move with
      | readDown count =>
          simp only [Option.ite_none_right_eq_some, Option.some.injEq] at hstep
          obtain ⟨hcount, rfl⟩ := hstep
          exact (h.setDown i ((h i).down.skip hcount)).setNode i _
      | writeDown count =>
          simp only [Option.ite_none_right_eq_some, Option.some.injEq] at hstep
          obtain ⟨-, rfl⟩ := hstep
          exact (h.setDown (i + 1) ((h (i + 1)).down.put _)).setNode i _
      | readUp count =>
          simp only [Option.ite_none_right_eq_some, Option.some.injEq] at hstep
          obtain ⟨hcount, rfl⟩ := hstep
          exact (h.setUp (i + 1) ((h (i + 1)).up.skip hcount)).setNode i _
      | writeUp count =>
          simp only [Option.ite_none_right_eq_some, Option.some.injEq] at hstep
          obtain ⟨-, rfl⟩ := hstep
          exact (h.setUp i ((h i).up.put _)).setNode i _
      | finish =>
          obtain rfl := Option.some.inj hstep
          exact h.setNode i _
    · cases hstep
  · cases hstep

theorem within_step {label : Label} (hinv : Inv setup net) (h : net.Within)
    (hstep : net.step setup label = some next) : next.Within := by
  cases label with
  | dialer outcome => exact within_dialerStep hinv h hstep
  | relay i outcome =>
      obtain ⟨relay, op, event, history, behind, task, -, -, hperform, -, rfl⟩ :=
        relayStep_cases hstep
      exact (within_perform h hperform).setNode i _
  | copy i move => exact within_copyStep h hstep
  | stdin count =>
      simp only [step, Option.ite_none_right_eq_some, Option.some.injEq] at hstep
      obtain ⟨-, rfl⟩ := hstep
      exact h.setDown 0 ((h 0).down.put _)
  | stdout count =>
      simp only [step, Option.ite_none_right_eq_some, Option.some.injEq] at hstep
      obtain ⟨⟨-, hcount⟩, rfl⟩ := hstep
      exact h.setUp 0 ((h 0).up.skip hcount)
  | send i count =>
      simp only [step] at hstep
      split at hstep
      · obtain rfl := Option.some.inj hstep
        exact h.setUp i ((h i).up.put _)
      · cases hstep
  | receive i count =>
      simp only [step] at hstep
      split at hstep
      · simp only [Option.ite_none_right_eq_some, Option.some.injEq] at hstep
        obtain ⟨hcount, rfl⟩ := hstep
        exact h.setDown i ((h i).down.skip hcount)
      · cases hstep

end Net

theorem within_of_reaches {setup : Setup} {labels : List Net.Label} {net : Net}
    (hrun : (machine setup).Reaches labels net) : net.Within :=
  (Machine.invariant (fun net : Net => Inv setup net ∧ net.Within)
    ⟨inv_start setup, fun _ => ⟨Nat.le_refl _, Nat.le_refl _⟩⟩
    (fun h hstep => ⟨inv_step h.1 hstep, Net.within_step h.1 h.2 hstep⟩) hrun).2

/-! ## What is behind the heads -/

/-- A stream behind its head; its writer has not closed it, and nobody has come to its end. -/
def behindHead (head : Bytes) (pipe : Pipe) : Conduit UInt8 :=
  { sent := pipe.sent.drop head.length, taken := pipe.taken - head.length }

/-- What a relay has read from its inbound stream and not yet written to the outbound one. -/
def Node.downBuf : Node → Bytes
  | .relay node => node.downBuf
  | .absent | .acceptor _ => []

/-- What a relay has read from its outbound stream and not yet written to the inbound one. -/
def Node.upBuf : Node → Bytes
  | .relay node => node.upBuf
  | .absent | .acceptor _ => []

/-- The await of a relay; where there is none, that of a line. -/
def Node.task : Node → JumpTask
  | .relay node => node.task
  | .absent | .acceptor _ => .bridging

namespace Net

/-- The stream into place `i`, away from the dialer. -/
def down (setup : Setup) (net : Net) (i : Nat) : Conduit UInt8 :=
  behindHead (headDown setup i) (net.link i).down

/-- The stream into place `i`, towards the dialer. -/
def up (setup : Setup) (net : Net) (i : Nat) : Conduit UInt8 :=
  behindHead (headUp setup i) (net.link i).up

/-- What is behind the heads of a chain: the streams up to the one behind the last relay, and
the copies of the relays. -/
def line (setup : Setup) (net : Net) : Line where
  forth :=
    { conduit := fun i => if i ≤ setup.hops.length then net.down setup i else {}
      splice := fun i =>
        if i < setup.hops.length then
          { buf := (net.node i).downBuf, amount := (net.down setup (i + 1)).sent.length }
        else {} }
  back :=
    { conduit := fun i =>
        if i ≤ setup.hops.length then net.up setup (setup.hops.length - i) else {}
      splice := fun i =>
        if i < setup.hops.length then
          { buf := (net.node (Line.backward setup.hops.length i)).upBuf
            amount := (net.up setup (setup.hops.length - (i + 1))).sent.length }
        else {} }
  task i := if i < setup.hops.length then (net.node i).task else .bridging

end Net

/-! ## Relays that copy -/

section Copies

variable {setup : Setup} {net : Net}

/-- A relay that copies has taken and passed on what is behind its heads. -/
theorem bridged_of_runsAt (hflow : Flow setup net) {i : Nat} (h : RunsAt net i .bridging) :
    ∃ relay, net.node i = .relay relay ∧ relay.task = .bridging ∧
      Bridged setup net i relay := by
  obtain ⟨relay, hnode, htask⟩ := h
  have hown := hflow.task hnode
  unfold TaskFlow at hown
  rw [htask] at hown
  exact ⟨relay, hnode, htask, hown⟩

/-- The stream behind a relay that copies begins with its head. -/
theorem head_prefix_down (hflow : Flow setup net)
    (hcopies : ∀ i, i < setup.hops.length → RunsAt net i .bridging) {i : Nat} (hi : 0 < i)
    (hle : i ≤ setup.hops.length) : headDown setup i <+: (net.link i).down.sent := by
  rcases Nat.lt_or_eq_of_le hle with hlt | rfl
  · obtain ⟨relay, -, -, hbridged⟩ := bridged_of_runsAt hflow (hcopies i hlt)
    obtain ⟨moved, hmoved, -⟩ := hbridged.down
    exact (List.prefix_append _ _).trans hmoved
  · rw [headDown_of_le ⟨hi, Nat.le_refl _⟩]
    exact List.nil_prefix

/-- The stream from a relay that copies towards the dialer begins with its head. -/
theorem head_prefix_up (hinv : Inv setup net) {i : Nat} (hi : i < setup.hops.length)
    (h : RunsAt net i .bridging) : headUp setup i <+: (net.link i).up.sent := by
  obtain ⟨relay, hnode, htask⟩ := h
  have hown := (hinv.relay hnode).task
  unfold TaskInv at hown
  rw [htask] at hown
  obtain ⟨-, written, hwrite, hreported⟩ := hown
  obtain rfl := Except.ok.inj (writeJumpResult_ok.symm.trans hwrite)
  rwa [headUp_of_place (.inr hi)]

theorem taken_behindHead (head : Bytes) {pipe : Pipe} (h : pipe.Within) :
    (behindHead head pipe).taken ≤ (behindHead head pipe).sent.length := by
  rw [behindHead, List.length_drop]
  exact Nat.sub_le_sub_right h _

theorem spreads_down (hflow : Flow setup net) (hwithin : net.Within)
    (hcopies : ∀ i, i < setup.hops.length → RunsAt net i .bridging) :
    Lane.Spreads setup.hops.length (fun i => (net.down setup i).sent)
      (fun i => (net.down setup i).taken) where
  copied i hi := by
    obtain ⟨relay, -, -, hbridged⟩ := bridged_of_runsAt hflow (hcopies i hi)
    exact (hbridged.down.behind (head_prefix_down hflow hcopies (Nat.succ_pos i) hi)).1
  taken i _ := taken_behindHead _ (hwithin i).down

theorem forth_line (hflow : Flow setup net)
    (hcopies : ∀ i, i < setup.hops.length → RunsAt net i .bridging) :
    (net.line setup).forth = .spread setup.hops.length (fun i => (net.down setup i).sent)
      (fun i => (net.down setup i).taken) := by
  refine Lane.eq_spread (fun i hi => if_pos hi) (fun i hi => if_neg (Nat.not_le_of_gt hi))
    (fun i hi => ?_) (fun i hi => if_neg (Nat.not_lt_of_ge hi))
  obtain ⟨relay, hnode, -, hbridged⟩ := bridged_of_runsAt hflow (hcopies i hi)
  have hbuf := (hbridged.down.behind (head_prefix_down hflow hcopies (Nat.succ_pos i) hi)).2
  simp only [Net.line, if_pos hi, hnode]
  exact congrArg (Splice.mk · _ _) hbuf

/-- The relay that a stream towards the dialer comes from, and the one that it leads to. -/
theorem place_up {n i : Nat} (hi : i < n) :
    n - i = Line.backward n i + 1 ∧ n - (i + 1) = Line.backward n i := by
  unfold Line.backward
  omega

theorem behind_up (hinv : Inv setup net) (hflow : Flow setup net) {i : Nat}
    (hi : i < setup.hops.length) (hcopies : RunsAt net i .bridging) :
    (net.up setup i).sent <+:
        (net.up setup (i + 1)).sent.take (net.up setup (i + 1)).taken ∧
      (net.node i).upBuf = ((net.up setup (i + 1)).sent.take
        (net.up setup (i + 1)).taken).drop (net.up setup i).sent.length := by
  obtain ⟨relay, hnode, -, hbridged⟩ := bridged_of_runsAt hflow hcopies
  rw [hnode]
  exact hbridged.up.behind (head_prefix_up hinv hi hcopies)

theorem spreads_up (hinv : Inv setup net) (hflow : Flow setup net) (hwithin : net.Within)
    (hcopies : ∀ i, i < setup.hops.length → RunsAt net i .bridging) :
    Lane.Spreads setup.hops.length (fun i => (net.up setup (setup.hops.length - i)).sent)
      (fun i => (net.up setup (setup.hops.length - i)).taken) where
  copied i hi := by
    obtain ⟨hsource, hsink⟩ := place_up hi
    have hplace := Line.backward_lt hi
    rw [hsource, hsink]
    exact (behind_up hinv hflow hplace (hcopies _ hplace)).1
  taken i _ := taken_behindHead _ (hwithin _).up

theorem back_line (hinv : Inv setup net) (hflow : Flow setup net)
    (hcopies : ∀ i, i < setup.hops.length → RunsAt net i .bridging) :
    (net.line setup).back =
      .spread setup.hops.length (fun i => (net.up setup (setup.hops.length - i)).sent)
        (fun i => (net.up setup (setup.hops.length - i)).taken) := by
  refine Lane.eq_spread (fun i hi => if_pos hi) (fun i hi => if_neg (Nat.not_le_of_gt hi))
    (fun i hi => ?_) (fun i hi => if_neg (Nat.not_lt_of_ge hi))
  obtain ⟨hsource, hsink⟩ := place_up hi
  have hplace := Line.backward_lt hi
  have hbuf := (behind_up hinv hflow hplace (hcopies _ hplace)).2
  simp only [Net.line, if_pos hi, hsource, hsink]
  exact congrArg (Splice.mk · _ _) hbuf

theorem task_line (hcopies : ∀ i, i < setup.hops.length → RunsAt net i .bridging) :
    (net.line setup).task = fun _ => .bridging := by
  funext i
  by_cases hi : i < setup.hops.length
  · obtain ⟨relay, hnode, htask⟩ := hcopies i hi
    simp only [Net.line, if_pos hi, hnode]
    exact htask
  · exact if_neg hi

theorem line_eq (hinv : Inv setup net) (hflow : Flow setup net)
    (hcopies : ∀ i, i < setup.hops.length → RunsAt net i .bridging) :
    net.line setup =
      { forth := .spread setup.hops.length (fun i => (net.down setup i).sent)
          (fun i => (net.down setup i).taken)
        back := .spread setup.hops.length (fun i => (net.up setup (setup.hops.length - i)).sent)
          (fun i => (net.up setup (setup.hops.length - i)).taken) } := by
  rw [← forth_line hflow hcopies, ← back_line hinv hflow hcopies]
  exact congrArg (Line.mk _ _) (task_line hcopies)

/-- A dialer that has just read its `Ok` has sent the chain, and nothing behind it. -/
theorem down_sent_eq_nil (hflow : Flow setup net) (hdialer : net.dialer = .writingJumpRequest) :
    (net.down setup 0).sent = [] := by
  have hown := hflow.dialer
  unfold DialerFlow at hown
  rw [hdialer] at hown
  rw [Net.down, behindHead, hown.2]
  exact List.drop_length

/-- Behind the last relay, nothing is sent but what the listener sends. -/
theorem up_sent_eq_nil (hinv : Inv setup net) (hflow : Flow setup net)
    (hpos : 0 < setup.hops.length) (hsent : net.listenerSent = 0) :
    (net.up setup setup.hops.length).sent = [] := by
  have hnil : (net.link setup.hops.length).up.sent = [] := by
    have hnode := hinv.node setup.hops.length
    unfold NodeInv at hnode
    cases hplace : net.node setup.hops.length with
    | absent =>
        rw [hplace] at hnode
        exact hnode
    | relay relay =>
        rw [hplace] at hnode
        have hon := hnode.place
        omega
    | acceptor self =>
        rw [(hflow.acceptor hplace).2, hsent]
        exact List.take_zero
  rw [Net.up, behindHead, hnil]
  exact List.drop_nil

end Copies

/-! ## The main result -/

/-- In every run, a chain all of whose relays copy is behind its heads what a line can get to;
where its dialer has just read the `Ok` and its listener has sent nothing, it is what a line starts
with. -/
theorem line_of_established {setup : Setup} {labels : List Net.Label} {net : Net}
    (hrun : (machine setup).Reaches labels net) (hpos : 0 < setup.hops.length)
    (hcopies : ∀ i, i < setup.hops.length → RunsAt net i .bridging) (openers : List PeerId)
    (hopeners : openers.length = setup.hops.length) :
    (Line.machine setup.text openers).Reachable (net.line setup) ∧
      (net.dialer = .writingJumpRequest → net.listenerSent = 0 →
        net.line setup = (Line.machine setup.text openers).start) := by
  have hinv := inv_of_reaches hrun
  have hflow := flow_of_reaches hrun
  have hdown := spreads_down hflow (within_of_reaches hrun) hcopies
  have hup := spreads_up hinv hflow (within_of_reaches hrun) hcopies
  rw [line_eq hinv hflow hcopies]
  constructor
  · rw [← hopeners] at hdown hup ⊢
    exact Line.reachable_spread setup.text hdown hup
  · intro hdialer hsent
    rw [hdown.spread_eq (down_sent_eq_nil hflow hdialer),
      hup.spread_eq (up_sent_eq_nil hinv hflow hpos hsent)]
    rfl

/-- Whether all places in front of place `n` have relays that copy. -/
def Net.copies (n : Nat) (net : Net) : Bool :=
  (List.range n).all fun i => (net.node i).opened.isSome && decide ((net.node i).task = .bridging)

theorem runsAt_of_copies {n : Nat} {net : Net} (h : net.copies n = true) {i : Nat} (hi : i < n) :
    RunsAt net i .bridging := by
  obtain ⟨hopened, htask⟩ :=
    Bool.and_eq_true_iff.mp (List.all_eq_true.mp h i (List.mem_range.mpr hi))
  have htask := of_decide_eq_true htask
  cases hnode : net.node i with
  | relay relay =>
      rw [hnode] at htask
      exact ⟨relay, hnode, htask⟩
  | absent | acceptor self =>
      rw [hnode] at hopened
      cases hopened

/-- The first of two relays has passed on a part of the tunnel request. -/
def requestPassed : List Net.Label :=
  twoRelaysRun ++ [.dialer .proceed, .copy 0 (.readDown 5), .copy 0 (.writeDown 2)]

theorem line_of_established_two :
    (∃ net, (machine twoRelays).Reaches twoRelaysRun net ∧
      net.line twoRelays = (Line.machine twoRelays.text [⟨[0]⟩, ⟨[1]⟩]).start) ∧
    ∃ net, (machine twoRelays).Reaches requestPassed net ∧
      (Line.machine twoRelays.text [⟨[0]⟩, ⟨[1]⟩]).Reachable (net.line twoRelays) ∧
      (net.down twoRelays 1).sent = [0, 0] := by
  constructor
  · have hends : ((machine twoRelays).exec (machine twoRelays).start twoRelaysRun).any
        (fun net => decide (net.copies 2 = true ∧ net.dialer = .writingJumpRequest ∧
          net.listenerSent = 0)) = true := by
      decide +kernel
    obtain ⟨net, hrun, htest⟩ := Machine.exists_reaches_of_any hends
    obtain ⟨hcopies, hdialer, hsent⟩ := of_decide_eq_true htest
    exact ⟨net, hrun, (line_of_established hrun (by decide)
      (fun i hi => runsAt_of_copies hcopies hi) [⟨[0]⟩, ⟨[1]⟩] rfl).2 hdialer hsent⟩
  · have hends : ((machine twoRelays).exec (machine twoRelays).start requestPassed).any
        (fun net => decide (net.copies 2 = true ∧ (net.down twoRelays 1).sent = [0, 0])) =
          true := by
      decide +kernel
    obtain ⟨net, hrun, htest⟩ := Machine.exists_reaches_of_any hends
    obtain ⟨hcopies, hsent⟩ := of_decide_eq_true htest
    exact ⟨net, hrun, (line_of_established hrun (by decide)
      (fun i hi => runsAt_of_copies hcopies hi) [⟨[0]⟩, ⟨[1]⟩] rfl).1, hsent⟩

end Chain

end Sape
