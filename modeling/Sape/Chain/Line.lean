/-
  Chain/Line.lean --- an established chain is one stream between its two ends.

  Behind its `JumpResult::Ok`, each relay of a chain runs `copy_bidirectional` between its
  two streams and discards what that returns.  `Chain/Network.lean` follows the chain up to
  there, and every byte of the copies; here the streams also have their ends.  A direction
  of a copy is over when its reader has come to the end, which it passes on by shutting down
  its writer; the call returns when both are over, or at once when one fails, and the
  handler then drops both streams.

  A stream can be lost at any time, as when one of the processes at its ends exits.  That a
  chain of `Chain/Network.lean` comes to such a line is in `Chain/Established.lean`.

  LANES.  The lane away from the dialer counts its conduits and copiers from the dialer's end
  of the chain, the lane towards it from the far end.

  WHAT IS PROVED.

      line_refines        whatever the two ends of an established chain do and see, they could
                          do and see over one stream between them, which may be dropped
      line_transparent    and while nothing was dropped, whatever they could do over such a
                          stream they can do over the chain
      reachable_spread    relays in the middle of their copies come about in a run
-/
import Sape.Foundation.Lane
import Sape.Relay

set_option autoImplicit false

namespace Sape

open Sape.Foundation

/-- The relays of an established chain, and the streams between them and the two ends. -/
structure Line where
  /-- away from the dialer -/
  forth : Lane UInt8 := {}
  back : Lane UInt8 := {}
  task : Nat → JumpTask := fun _ => .bridging

/-- What a label of an established chain names. -/
inductive LineLabel where
  /-- an act of the dialer's end -/
  | near (action : ConduitAct UInt8)
  /-- an act of the end behind the last relay -/
  | far (action : ConduitAct UInt8)
  | copyForth (relay : Nat) (move : SpliceMove)
  | copyBack (relay : Nat) (move : SpliceMove)
  /-- `copy_bidirectional` returns -/
  | returned (relay : Nat)
  | failed (relay : Nat)
  /-- a stream is lost -/
  | lost (stream : Nat)
  deriving DecidableEq, Repr, Inhabited

/-- What the two ends do. -/
def LineLabel.seen : LineLabel → Option (Side × ConduitAct UInt8)
  | .near action => some (.near, action)
  | .far action => some (.far, action)
  | _ => none

/-- A move of one of the copies. -/
def LineLabel.copies : LineLabel → Bool
  | .copyForth _ _ | .copyBack _ _ => true
  | _ => false

namespace Line

/-- The place of relay `i` of `n`, counted from the far end. -/
def backward (n i : Nat) : Nat := n - 1 - i

/-- Stream `i` of a chain of `n` relays is dropped. -/
def lose (n : Nat) (line : Line) (i : Nat) : Line :=
  { line with forth := line.forth.cut i, back := line.back.cut (n - i) }

/-- The handler of relay `i` goes on behind its copy. -/
def resume (text : Libp2pText) (openers : List PeerId) (line : Line) (i : Nat) : Option Line :=
  ((line.task i).resume text (openers.getD i default) .copied).map fun task =>
    { line with task := fun j => if j = i then task else line.task j }

/-- One step; `openers` are the peers that have opened the relays' inbound streams. -/
def step (text : Libp2pText) (openers : List PeerId) (line : Line) : LineLabel → Option Line
  | .near action =>
      if action.writes then
        (line.forth.write action).map fun forth => { line with forth := forth }
      else (line.back.read openers.length action).map fun back => { line with back := back }
  | .far action =>
      if action.writes then
        (line.back.write action).map fun back => { line with back := back }
      else (line.forth.read openers.length action).map fun forth => { line with forth := forth }
  | .copyForth i move =>
      if i < openers.length ∧ line.task i = .bridging then
        (line.forth.move i move).map fun forth => { line with forth := forth }
      else none
  | .copyBack i move =>
      if i < openers.length ∧ line.task i = .bridging then
        (line.back.move (backward openers.length i) move).map fun back =>
          { line with back := back }
      else none
  | .returned i =>
      if i < openers.length ∧ (line.forth.splice i).done = true ∧
          (line.back.splice (backward openers.length i)).done = true then
        line.resume text openers i
      else none
  | .failed i =>
      if i < openers.length then
        (line.resume text openers i).map fun next =>
          (next.lose openers.length i).lose openers.length (i + 1)
      else none
  | .lost i => if i ≤ openers.length then some (line.lose openers.length i) else none

/-- The machine of a chain that has just been established. -/
def machine (text : Libp2pText) (openers : List PeerId) : Machine Line LineLabel where
  start := {}
  step := step text openers

/-- The stream between the two ends. -/
def connection (n : Nat) (line : Line) : Duplex UInt8 where
  forth := line.forth.ends n
  back := line.back.ends n

/-! ## The invariant -/

/-- All copies keep their invariants. -/
structure Sound (n : Nat) (line : Line) : Prop where
  forth : line.forth.Sound n
  back : line.back.Sound n

theorem sound_start (n : Nat) : Sound n {} := ⟨Lane.sound_start n, Lane.sound_start n⟩

theorem connection_start (n : Nat) : ({} : Line).connection n = {} := by
  simp only [connection, Lane.ends_start]

theorem backward_lt {n i : Nat} (hi : i < n) : backward n i < n := by
  unfold backward
  omega

theorem backward_backward {n i : Nat} (hi : i < n) : backward n (backward n i) = i := by
  unfold backward
  omega

/-- A lost stream is a drop to both ends. -/
theorem sound_lose {n i : Nat} {line : Line} (hsound : line.Sound n) (hi : i ≤ n) :
    (line.lose n i).Sound n ∧ (line.lose n i).connection n = (line.connection n).drop := by
  refine ⟨⟨Lane.sound_cut hsound.forth, Lane.sound_cut hsound.back⟩, ?_⟩
  simp only [connection, lose, Duplex.drop, Lane.ends_cut hi, Lane.ends_cut (Nat.sub_le n i)]

/-- A handler that goes on leaves the streams alone. -/
theorem resume_same {text : Libp2pText} {openers : List PeerId} {line next : Line} {i : Nat}
    (h : line.resume text openers i = some next) :
    next.forth = line.forth ∧ next.back = line.back := by
  obtain ⟨task, -, rfl⟩ := Option.map_eq_some_iff.mp h
  exact ⟨rfl, rfl⟩

variable {text : Libp2pText} {openers : List PeerId}

theorem end_step {line next : Line} {side : Side} {action : ConduitAct UInt8}
    {label : LineLabel} (hlabel : label.seen = some (side, action))
    (hsound : line.Sound openers.length) (h : line.step text openers label = some next) :
    next.Sound openers.length ∧
      (line.connection openers.length).act side action =
        some (next.connection openers.length) := by
  cases label with
  | near act =>
      cases hlabel
      simp only [step] at h
      cases hwrites : action.writes with
      | true =>
          rw [hwrites, if_pos rfl] at h
          obtain ⟨forth, hwrite, rfl⟩ := Option.map_eq_some_iff.mp h
          obtain ⟨hforth, hstep⟩ := Lane.sound_write hsound.forth hwrites hwrite
          refine ⟨⟨hforth, hsound.back⟩, ?_⟩
          simp only [Duplex.act, Duplex.onForth, hwrites, if_true, connection, hstep,
            Option.map_some]
      | false =>
          rw [hwrites, if_neg Bool.false_ne_true] at h
          obtain ⟨back, hread, rfl⟩ := Option.map_eq_some_iff.mp h
          obtain ⟨hback, hstep⟩ := Lane.sound_read hsound.back hwrites hread
          refine ⟨⟨hsound.forth, hback⟩, ?_⟩
          simp only [Duplex.act, Duplex.onForth, hwrites, Bool.false_eq_true, if_false, connection,
            hstep, Option.map_some]
  | far act =>
      cases hlabel
      simp only [step] at h
      cases hwrites : action.writes with
      | true =>
          rw [hwrites, if_pos rfl] at h
          obtain ⟨back, hwrite, rfl⟩ := Option.map_eq_some_iff.mp h
          obtain ⟨hback, hstep⟩ := Lane.sound_write hsound.back hwrites hwrite
          refine ⟨⟨hsound.forth, hback⟩, ?_⟩
          simp only [Duplex.act, Duplex.onForth, hwrites, Bool.not_true, Bool.false_eq_true,
            if_false, connection, hstep, Option.map_some]
      | false =>
          rw [hwrites, if_neg Bool.false_ne_true] at h
          obtain ⟨forth, hread, rfl⟩ := Option.map_eq_some_iff.mp h
          obtain ⟨hforth, hstep⟩ := Lane.sound_read hsound.forth hwrites hread
          refine ⟨⟨hforth, hsound.back⟩, ?_⟩
          simp only [Duplex.act, Duplex.onForth, hwrites, Bool.not_false, if_true, connection,
            hstep, Option.map_some]
  | _ => cases hlabel

theorem copy_step {line next : Line} {label : LineLabel} (hlabel : label.copies = true)
    (hsound : line.Sound openers.length) (h : line.step text openers label = some next) :
    next.Sound openers.length ∧
      next.connection openers.length = line.connection openers.length := by
  cases label with
  | copyForth i move =>
      simp only [step] at h
      split at h
      · rename_i hi
        obtain ⟨forth, hmove, rfl⟩ := Option.map_eq_some_iff.mp h
        obtain ⟨hforth, hends⟩ := Lane.sound_move hsound.forth hi.1 hmove
        refine ⟨⟨hforth, hsound.back⟩, ?_⟩
        simp only [connection, hends]
      · cases h
  | copyBack i move =>
      simp only [step] at h
      split at h
      · rename_i hi
        obtain ⟨back, hmove, rfl⟩ := Option.map_eq_some_iff.mp h
        obtain ⟨hback, hends⟩ := Lane.sound_move hsound.back (backward_lt hi.1) hmove
        refine ⟨⟨hsound.forth, hback⟩, ?_⟩
        simp only [connection, hends]
      · cases h
  | _ => cases hlabel

theorem silent_step {line next : Line} {label : LineLabel} (hlabel : label.seen = none)
    (hsound : line.Sound openers.length) (h : line.step text openers label = some next) :
    next.Sound openers.length ∧
      (next.connection openers.length = line.connection openers.length ∨
        next.connection openers.length = (line.connection openers.length).drop) := by
  cases label with
  | near act => cases hlabel
  | far act => cases hlabel
  | copyForth i move => exact (copy_step rfl hsound h).imp_right .inl
  | copyBack i move => exact (copy_step rfl hsound h).imp_right .inl
  | returned i =>
      simp only [step] at h
      split at h
      · obtain ⟨hforth, hback⟩ := resume_same h
        refine ⟨⟨hforth ▸ hsound.forth, hback ▸ hsound.back⟩, .inl ?_⟩
        simp only [connection, hforth, hback]
      · cases h
  | failed i =>
      simp only [step] at h
      split at h
      · rename_i hi
        obtain ⟨mid, hresume, rfl⟩ := Option.map_eq_some_iff.mp h
        obtain ⟨hforth, hback⟩ := resume_same hresume
        have hmid : mid.Sound openers.length := ⟨hforth ▸ hsound.forth, hback ▸ hsound.back⟩
        have hsame : mid.connection openers.length = line.connection openers.length := by
          simp only [connection, hforth, hback]
        obtain ⟨hfirst, hdrop⟩ := sound_lose hmid (Nat.le_of_lt hi)
        obtain ⟨hsecond, hdrop'⟩ := sound_lose hfirst hi
        refine ⟨hsecond, .inr ?_⟩
        rw [hdrop', hdrop, hsame]
        rfl
      · cases h
  | lost i =>
      simp only [step] at h
      split at h
      · rename_i hi
        obtain rfl := Option.some.inj h
        exact (sound_lose hsound hi).imp_right .inr
      · cases h

theorem sound_step {line next : Line} {label : LineLabel} (hsound : line.Sound openers.length)
    (h : line.step text openers label = some next) : next.Sound openers.length := by
  cases hseen : label.seen with
  | none => exact (silent_step hseen hsound h).1
  | some act => exact (end_step hseen hsound h).1

theorem sound_of_reaches {labels : List LineLabel} {line : Line}
    (hrun : (machine text openers).Reaches labels line) : line.Sound openers.length :=
  Machine.invariant (Sound openers.length) (sound_start _) (fun hsound h => sound_step hsound h)
    hrun

/-! ## What the ends see -/

/-- Whatever the two ends of an established chain, of any length, do and see in a run, with
any moves of the copies in between and any streams lost, they could do and see over one stream
between them that may be dropped.  So each end has taken the beginning of what the other has
sent; and when it comes to the end of it, something was dropped, or the other end has closed
and it has taken everything. -/
theorem line_refines {labels : List LineLabel} {line : Line}
    (hrun : (machine text openers).Reaches labels line) :
    (∃ outer, (Duplex.machine UInt8).Reaches outer (line.connection openers.length) ∧
      outer.filterMap DuplexLabel.seen = labels.filterMap LineLabel.seen) ∧
      Duplex.Delivers (labels.filterMap LineLabel.seen)
        (¬ (line.connection openers.length).Uncut) := by
  obtain ⟨outer, duplex, houter, hseen, rfl, -⟩ : ∃ outer duplex,
      (Duplex.machine UInt8).exec {} outer = some duplex ∧
        outer.filterMap DuplexLabel.seen = labels.filterMap LineLabel.seen ∧
        duplex = line.connection openers.length ∧ line.Sound openers.length := Machine.answers
    LineLabel.seen DuplexLabel.seen
    (fun line duplex => duplex = connection openers.length line ∧ line.Sound openers.length)
    (by
      rintro line _ label next ⟨rfl, hsound⟩ hstep
      cases hseen : label.seen with
      | none =>
          obtain ⟨hnext, hsame | hdrop⟩ := silent_step hseen hsound hstep
          · exact ⟨[], _, rfl, rfl, hsame.symm, hnext⟩
          · exact ⟨[.drop], _, rfl, rfl, hdrop.symm, hnext⟩
      | some act =>
          obtain ⟨side, action⟩ := act
          obtain ⟨hnext, hact⟩ := end_step hseen hsound hstep
          exact ⟨[.act side action], _, Machine.exec_cons_of_step hact [], rfl, rfl, hnext⟩)
    labels ⟨(connection_start _).symm, sound_start _⟩ hrun
  refine ⟨⟨outer, houter, hseen⟩, ?_⟩
  have hdelivers := Duplex.delivers houter
  rwa [hseen] at hdelivers

/-- A byte goes through a chain of two relays, and then the end. -/
theorem line_refines_byte :
    ∃ line, (machine (.ofTable []) [⟨[1]⟩, ⟨[2]⟩]).Reaches
        [.near (.send [7]), .near .close, .copyForth 0 (.read 1), .copyForth 0 (.write 1),
          .copyForth 0 .shut, .copyForth 1 (.read 1), .copyForth 1 (.write 1), .copyForth 1 .shut,
          .far (.receive [7]), .far .finish] line ∧
      Duplex.Delivers [(.near, .send [(7 : UInt8)]), (.near, .close), (.far, .receive [7]),
        (.far, .finish)] (¬ (Line.connection 2 line).Uncut) := by
  obtain ⟨line, hrun⟩ : ∃ line, (machine (.ofTable []) [⟨[1]⟩, ⟨[2]⟩]).Reaches
      [.near (.send [7]), .near .close, .copyForth 0 (.read 1), .copyForth 0 (.write 1),
        .copyForth 0 .shut, .copyForth 1 (.read 1), .copyForth 1 (.write 1), .copyForth 1 .shut,
        .far (.receive [7]), .far .finish] line := ⟨_, rfl⟩
  exact ⟨line, hrun, (line_refines hrun).2⟩

/-! ## What the ends can do -/

/-- A relay that does not copy any more has passed both ends on. -/
def Live (n : Nat) (line : Line) : Prop :=
  ∀ i, i < n → line.task i = .bridging ∨
    ((line.forth.splice i).done = true ∧ (line.back.splice (backward n i)).done = true)

/-- A move changes one copier. -/
theorem move_splice {lane next : Lane UInt8} {i j : Nat} {move : SpliceMove}
    (h : lane.move i move = some next) (hne : j ≠ i) : next.splice j = lane.splice j := by
  obtain ⟨⟨splice, source, sink⟩, -, rfl⟩ := Option.map_eq_some_iff.mp h
  exact Lane.place_splice_ne _ _ _ _ _ hne

theorem backward_ne {n i j : Nat} (hi : i < n) (hj : j < n) (hne : j ≠ i) :
    backward n j ≠ backward n i := fun h => hne (by
  rw [← backward_backward hj, h, backward_backward hi])

/-- A copy that returns ends the handler. -/
theorem resume_task {line next : Line} {i : Nat} (h : line.resume text openers i = some next)
    {j : Nat} (hne : j ≠ i) : next.task j = line.task j := by
  obtain ⟨task, -, rfl⟩ := Option.map_eq_some_iff.mp h
  exact if_neg hne

/-- While nothing is dropped, a relay stops copying only behind both ends. -/
theorem live_step {line next : Line} {label : LineLabel} (hlive : line.Live openers.length)
    (h : line.step text openers label = some next)
    (huncut : (next.connection openers.length).Uncut) : next.Live openers.length := by
  cases label with
  | near act =>
      simp only [step] at h
      split at h
      · obtain ⟨forth, hwrite, rfl⟩ := Option.map_eq_some_iff.mp h
        obtain ⟨conduit, -, rfl⟩ := Option.map_eq_some_iff.mp hwrite
        exact hlive
      · obtain ⟨back, hread, rfl⟩ := Option.map_eq_some_iff.mp h
        obtain ⟨conduit, -, rfl⟩ := Option.map_eq_some_iff.mp hread
        exact hlive
  | far act =>
      simp only [step] at h
      split at h
      · obtain ⟨back, hwrite, rfl⟩ := Option.map_eq_some_iff.mp h
        obtain ⟨conduit, -, rfl⟩ := Option.map_eq_some_iff.mp hwrite
        exact hlive
      · obtain ⟨forth, hread, rfl⟩ := Option.map_eq_some_iff.mp h
        obtain ⟨conduit, -, rfl⟩ := Option.map_eq_some_iff.mp hread
        exact hlive
  | copyForth i move =>
      simp only [step] at h
      split at h
      · rename_i hi
        obtain ⟨forth, hmove, rfl⟩ := Option.map_eq_some_iff.mp h
        intro j hj
        by_cases hself : j = i
        · exact .inl (hself ▸ hi.2)
        · rcases hlive j hj with hcopies | ⟨hforth, hback⟩
          · exact .inl hcopies
          · exact .inr ⟨(congrArg Splice.done (move_splice hmove hself)).trans hforth, hback⟩
      · cases h
  | copyBack i move =>
      simp only [step] at h
      split at h
      · rename_i hi
        obtain ⟨back, hmove, rfl⟩ := Option.map_eq_some_iff.mp h
        intro j hj
        by_cases hself : j = i
        · exact .inl (hself ▸ hi.2)
        · rcases hlive j hj with hcopies | ⟨hforth, hback⟩
          · exact .inl hcopies
          · refine .inr ⟨hforth, ?_⟩
            exact (congrArg Splice.done (move_splice hmove (backward_ne hi.1 hj hself))).trans hback
      · cases h
  | returned i =>
      simp only [step] at h
      split at h
      · rename_i hi
        obtain ⟨hforth, hback⟩ := resume_same h
        intro j hj
        rw [hforth, hback]
        by_cases hself : j = i
        · exact .inr (hself ▸ hi.2)
        · rw [resume_task h hself]
          exact hlive j hj
      · cases h
  | failed i =>
      simp only [step] at h
      split at h
      · rename_i hi
        obtain ⟨mid, hresume, rfl⟩ := Option.map_eq_some_iff.mp h
        -- a failure drops both streams
        have hcut := huncut.forth
        rw [connection, lose, Lane.ends_cut hi] at hcut
        cases hcut
      · cases h
  | lost i =>
      simp only [step] at h
      split at h
      · rename_i hi
        obtain rfl := Option.some.inj h
        have hcut := huncut.forth
        rw [connection, lose, Lane.ends_cut hi] at hcut
        cases hcut
      · cases h

theorem uncut_of_step {line next : Line} {label : LineLabel}
    (hsound : line.Sound openers.length) (h : line.step text openers label = some next)
    (huncut : (next.connection openers.length).Uncut) :
    (line.connection openers.length).Uncut := by
  cases hseen : label.seen with
  | none =>
      obtain ⟨-, hsame | hdrop⟩ := silent_step hseen hsound h
      · exact hsame ▸ huncut
      · have hcut := huncut.forth
        rw [hdrop] at hcut
        cases hcut
  | some act =>
      obtain ⟨hforth, hback⟩ := Duplex.act_cut (end_step hseen hsound h).2
      exact ⟨hforth ▸ huncut.forth, hback ▸ huncut.back⟩

theorem live_of_reaches {labels : List LineLabel} {line : Line}
    (hrun : (machine text openers).Reaches labels line)
    (huncut : (line.connection openers.length).Uncut) : line.Live openers.length :=
  (Machine.invariant (fun line : Line => line.Sound openers.length ∧
      ((line.connection openers.length).Uncut → line.Live openers.length))
    ⟨sound_start _, fun _ _ _ => .inl rfl⟩
    (fun hline hstep => ⟨sound_step hline.1 hstep, fun huncut =>
      live_step (hline.2 (uncut_of_step hline.1 hstep huncut)) hstep huncut⟩) hrun).2 huncut

/-- Moves on the lane that leads away from the dialer are moves of the relays' copies. -/
theorem exec_forth (text : Libp2pText) (moves : List (Nat × SpliceMove)) :
    ∀ {line : Line} {forth : Lane UInt8}, line.forth.runs moves = some forth →
      (∀ move ∈ moves, move.1 < openers.length ∧ line.task move.1 = .bridging) →
      (machine text openers).exec line (moves.map fun move => .copyForth move.1 move.2) =
        some { line with forth := forth } := by
  induction moves with
  | nil =>
      intro line forth hruns _
      obtain rfl := Option.some.inj hruns
      rfl
  | cons first moves ih =>
      intro line forth hruns hplaces
      obtain ⟨i, move⟩ := first
      simp only [Lane.runs] at hruns
      split at hruns
      · cases hruns
      · rename_i next hmove
        have hstep : (machine text openers).step line (.copyForth i move) =
            some { line with forth := next } := by
          simp only [machine, step, if_pos (hplaces _ List.mem_cons_self), hmove, Option.map_some]
        rw [List.map_cons, Machine.exec_cons_of_step hstep]
        exact @ih { line with forth := next } forth hruns fun move hmem =>
          hplaces move (List.mem_cons_of_mem _ hmem)

theorem exec_back (text : Libp2pText) (moves : List (Nat × SpliceMove)) :
    ∀ {line : Line} {back : Lane UInt8}, line.back.runs moves = some back →
      (∀ move ∈ moves, move.1 < openers.length ∧
        line.task (backward openers.length move.1) = .bridging) →
      (machine text openers).exec line
          (moves.map fun move => .copyBack (backward openers.length move.1) move.2) =
        some { line with back := back } := by
  induction moves with
  | nil =>
      intro line back hruns _
      obtain rfl := Option.some.inj hruns
      rfl
  | cons first moves ih =>
      intro line back hruns hplaces
      obtain ⟨i, move⟩ := first
      simp only [Lane.runs] at hruns
      split at hruns
      · cases hruns
      · rename_i next hmove
        obtain ⟨hi, htask⟩ := hplaces _ List.mem_cons_self
        have hstep : (machine text openers).step line
            (.copyBack (backward openers.length i) move) = some { line with back := next } := by
          simp only [machine, step, if_pos (And.intro (backward_lt hi) htask),
            backward_backward hi, hmove, Option.map_some]
        rw [List.map_cons, Machine.exec_cons_of_step hstep]
        exact @ih { line with back := next } back hruns fun move hmem =>
          hplaces move (List.mem_cons_of_mem _ hmem)

/-- The label of an act of one of the ends. -/
def labelOf : Side → ConduitAct UInt8 → LineLabel
  | .near, action => .near action
  | .far, action => .far action

/-- What is done to the stream between the two ends can be done by its end, behind moves of the
copies on that lane. -/
theorem act_of_connection (text : Libp2pText) {line : Line} (hsound : line.Sound openers.length)
    (hlive : line.Live openers.length) (huncut : (line.connection openers.length).Uncut)
    {side : Side} {action : ConduitAct UInt8} {duplex : Duplex UInt8}
    (hact : (line.connection openers.length).act side action = some duplex) :
    ∃ copies next, (∀ label ∈ copies, LineLabel.copies label = true) ∧
      (machine text openers).exec line (copies ++ [labelOf side action]) = some next := by
  have hwhich := Duplex.act_cases hact
  cases hon : Duplex.onForth side action with
  | true =>
      obtain ⟨-, hstep, -⟩ := hwhich.resolve_right fun h => by
        rw [hon] at h
        cases h.1
      obtain ⟨moves, mid, forth, hruns, hmoves, hend⟩ :=
        Lane.flush hsound.forth huncut.forth hstep
      have hcopies := exec_forth text moves hruns fun move hmem =>
        ⟨(hmoves move hmem).1, (hlive _ (hmoves move hmem).1).resolve_right fun h => by
          rw [(hmoves move hmem).2] at h
          cases h.1⟩
      refine ⟨_, { line with forth := forth }, ?_,
        (Machine.exec_append _ _).mpr ⟨_, hcopies, Machine.exec_cons_of_step ?_ []⟩⟩
      · intro label hmem
        obtain ⟨move, -, rfl⟩ := List.mem_map.mp hmem
        rfl
      · cases side with
        | near =>
            have hwrites : action.writes = true := hon
            rw [hwrites, if_pos rfl] at hend
            simp only [machine, labelOf, step, hwrites, if_true, hend, Option.map_some]
        | far =>
            have hwrites : action.writes = false := by simpa [Duplex.onForth] using hon
            rw [hwrites, if_neg Bool.false_ne_true] at hend
            simp only [machine, labelOf, step, hwrites, Bool.false_eq_true, if_false, hend,
              Option.map_some]
  | false =>
      obtain ⟨-, hstep, -⟩ := hwhich.resolve_left fun h => by
        rw [hon] at h
        cases h.1
      obtain ⟨moves, mid, back, hruns, hmoves, hend⟩ := Lane.flush hsound.back huncut.back hstep
      have hcopies := exec_back text moves hruns fun move hmem =>
        ⟨(hmoves move hmem).1,
          (hlive _ (backward_lt (hmoves move hmem).1)).resolve_right fun h => by
            rw [backward_backward (hmoves move hmem).1, (hmoves move hmem).2] at h
            cases h.2⟩
      refine ⟨_, { line with back := back }, ?_,
        (Machine.exec_append _ _).mpr ⟨_, hcopies, Machine.exec_cons_of_step ?_ []⟩⟩
      · intro label hmem
        obtain ⟨move, -, rfl⟩ := List.mem_map.mp hmem
        rfl
      · cases side with
        | near =>
            have hwrites : action.writes = false := hon
            rw [hwrites, if_neg Bool.false_ne_true] at hend
            simp only [machine, labelOf, step, hwrites, Bool.false_eq_true, if_false, hend,
              Option.map_some]
        | far =>
            have hwrites : action.writes = true := by simpa [Duplex.onForth] using hon
            rw [hwrites, if_pos rfl] at hend
            simp only [machine, labelOf, step, hwrites, if_true, hend, Option.map_some]

theorem copies_of_exec (copies : List LineLabel) :
    ∀ {line final : Line}, (∀ label ∈ copies, LineLabel.copies label = true) →
      line.Sound openers.length → line.Live openers.length →
      (line.connection openers.length).Uncut →
      (machine text openers).exec line copies = some final →
      copies.filterMap LineLabel.seen = [] ∧ final.Sound openers.length ∧
        final.Live openers.length ∧
        final.connection openers.length = line.connection openers.length := by
  induction copies with
  | nil =>
      intro line final _ hsound hlive _ hrun
      obtain rfl := Option.some.inj hrun
      exact ⟨rfl, hsound, hlive, rfl⟩
  | cons label copies ih =>
      intro line final hcopies hsound hlive huncut hrun
      obtain ⟨next, hstep, hrest⟩ := Machine.exec_cons hrun
      have hlabel : label.copies = true := hcopies label List.mem_cons_self
      obtain ⟨hnext, hsame⟩ := copy_step hlabel hsound hstep
      obtain ⟨hseen, hfinal, hlive', hconn⟩ :=
        ih (fun other hmem => hcopies other (List.mem_cons_of_mem _ hmem)) hnext
          (live_step hlive hstep (hsame ▸ huncut)) (hsame ▸ huncut) hrest
      refine ⟨?_, hfinal, hlive', hconn.trans hsame⟩
      have hnone : label.seen = none := by
        cases label with
        | near act => cases hlabel
        | far act => cases hlabel
        | _ => rfl
      rw [List.filterMap_cons_none hnone, hseen]

theorem labelOf_seen (side : Side) (action : ConduitAct UInt8) :
    (labelOf side action).seen = some (side, action) := by
  cases side with
  | near => rfl
  | far => rfl

/-- Wherever a run of an established chain, of any length, has got to without anything being
dropped, whatever its two ends could go on to do and see over one stream between them, they can
do and see over the chain, with nothing but moves of the copies in between. -/
theorem line_transparent {labels : List LineLabel} {line : Line}
    (hrun : (machine text openers).Reaches labels line)
    (huncut : (line.connection openers.length).Uncut) (outer : List (Side × ConduitAct UInt8))
    {duplex : Duplex UInt8}
    (houter : (Duplex.reliable UInt8).exec (line.connection openers.length) outer =
      some duplex) :
    ∃ further next, (machine text openers).exec line further = some next ∧
      further.filterMap LineLabel.seen = outer ∧
      (∀ label ∈ further, label.seen = none → label.copies = true) ∧
      next.connection openers.length = duplex := by
  have main : ∀ (outer : List (Side × ConduitAct UInt8)) {line : Line},
      line.Sound openers.length → line.Live openers.length →
      (line.connection openers.length).Uncut →
      (Duplex.reliable UInt8).exec (line.connection openers.length) outer = some duplex →
      ∃ further next, (machine text openers).exec line further = some next ∧
        further.filterMap LineLabel.seen = outer ∧
        (∀ label ∈ further, label.seen = none → label.copies = true) ∧
        next.connection openers.length = duplex := by
    intro outer
    induction outer with
    | nil =>
        intro line _ _ _ houter
        exact ⟨[], line, rfl, rfl, fun _ hmem => absurd hmem List.not_mem_nil,
          Option.some.inj houter⟩
    | cons act outer ih =>
        intro line hsound hlive huncut houter
        obtain ⟨side, action⟩ := act
        obtain ⟨seen, hact, hrest⟩ := Machine.exec_cons houter
        obtain ⟨copies, next, hcopies, hexec⟩ :=
          act_of_connection text hsound hlive huncut hact
        obtain ⟨mid, hmid, hlast⟩ := (Machine.exec_append _ _).mp hexec
        obtain ⟨hsilent, hsound', hlive', hconn⟩ :=
          copies_of_exec copies hcopies hsound hlive huncut hmid
        obtain ⟨next', hstep, hnext⟩ := Machine.exec_cons hlast
        obtain rfl := Option.some.inj hnext
        obtain ⟨hsound'', hact'⟩ := end_step (labelOf_seen side action) hsound' hstep
        rw [hconn, show (line.connection openers.length).act side action = some seen from hact]
          at hact'
        obtain rfl := Option.some.inj hact'
        obtain ⟨hforth, hback⟩ := Duplex.act_cut hact
        have huncut' : (next'.connection openers.length).Uncut :=
          ⟨hforth.trans huncut.forth, hback.trans huncut.back⟩
        obtain ⟨further, final, hfurther, hseen, hcopied, hfinal⟩ :=
          ih hsound'' (live_step hlive' hstep huncut') huncut' hrest
        refine ⟨copies ++ [labelOf side action] ++ further, final,
          (Machine.exec_append _ _).mpr ⟨next', hexec, hfurther⟩, ?_, ?_, hfinal⟩
        · rw [List.filterMap_append, List.filterMap_append, hsilent, hseen, List.nil_append,
            List.filterMap_cons_some (labelOf_seen side action)]
          rfl
        · intro label hmem hnone
          rcases List.mem_append.mp hmem with hfront | hback
          · rcases List.mem_append.mp hfront with hcopy | hend
            · exact hcopies label hcopy
            · rw [List.mem_singleton.mp hend, labelOf_seen] at hnone
              cases hnone
          · exact hcopied label hback hnone
  exact main outer (sound_of_reaches hrun) (live_of_reaches hrun huncut) huncut houter

/-- Behind the end of what the near end has to say, the far end still answers. -/
theorem line_transparent_two :
    ∃ line further next, (machine (.ofTable []) [⟨[1]⟩, ⟨[2]⟩]).Reaches
        [.near (.send [7]), .near .close, .copyForth 0 (.read 1)] line ∧
      (machine (.ofTable []) [⟨[1]⟩, ⟨[2]⟩]).exec line further = some next ∧
      further.filterMap LineLabel.seen =
        [(.far, .receive [7]), (.far, .finish), (.far, .send [8]), (.near, .receive [8])] := by
  obtain ⟨line, hrun, hconn⟩ : ∃ line, (machine (.ofTable []) [⟨[1]⟩, ⟨[2]⟩]).Reaches
      [.near (.send [7]), .near .close, .copyForth 0 (.read 1)] line ∧
      Line.connection 2 line = { forth := { sent := [7], closed := true } } := ⟨_, rfl, rfl⟩
  have huncut : (Line.connection 2 line).Uncut := by
    rw [hconn]
    exact ⟨rfl, rfl⟩
  obtain ⟨duplex, houter⟩ : ∃ duplex, (Duplex.reliable UInt8).exec (Line.connection 2 line)
      [(.far, .receive [7]), (.far, .finish), (.far, .send [8]), (.near, .receive [8])] =
        some duplex := by
    rw [hconn]
    exact ⟨_, rfl⟩
  obtain ⟨further, next, hfurther, hseen, -⟩ := line_transparent hrun huncut _ houter
  exact ⟨line, further, next, hrun, hfurther, hseen⟩

/-! ## Lines that are still open -/

section Open

variable {sent : Nat → Bytes} {taken : Nat → Nat}

theorem exec_spread_forth (text : Libp2pText) {line : Line} (hforth : line.forth = {})
    (htask : ∀ i, line.task i = .bridging) (h : Lane.Spreads openers.length sent taken) :
    ∃ labels, (machine text openers).exec line labels =
      some { line with forth := .spread openers.length sent taken } := by
  obtain ⟨first, moves, mid, hwrite, hmoves, hplaces, hread⟩ := Lane.exists_spread h
  have hsend : (machine text openers).step line (.near (.send (sent 0))) =
      some { line with forth := first } := by
    simp only [machine, step, ConduitAct.writes, if_true, hforth, hwrite, Option.map_some]
  have hcopy : (machine text openers).exec { line with forth := first }
      (moves.map fun move => .copyForth move.1 move.2) = some { line with forth := mid } :=
    exec_forth text moves hmoves fun move hmem => ⟨hplaces move hmem, htask _⟩
  have hreceive : (machine text openers).step { line with forth := mid }
      (.far (.receive ((sent openers.length).take (taken openers.length)))) =
        some { line with forth := .spread openers.length sent taken } := by
    simp only [machine, step, ConduitAct.writes, Bool.false_eq_true, if_false, hread,
      Option.map_some]
  refine ⟨_, (Machine.exec_cons_of_step hsend _).trans ((Machine.exec_append _ _).mpr
    ⟨_, hcopy, Machine.exec_cons_of_step hreceive []⟩)⟩

theorem exec_spread_back (text : Libp2pText) {line : Line} (hback : line.back = {})
    (htask : ∀ i, line.task i = .bridging) (h : Lane.Spreads openers.length sent taken) :
    ∃ labels, (machine text openers).exec line labels =
      some { line with back := .spread openers.length sent taken } := by
  obtain ⟨first, moves, mid, hwrite, hmoves, hplaces, hread⟩ := Lane.exists_spread h
  have hsend : (machine text openers).step line (.far (.send (sent 0))) =
      some { line with back := first } := by
    simp only [machine, step, ConduitAct.writes, if_true, hback, hwrite, Option.map_some]
  have hcopy : (machine text openers).exec { line with back := first }
      (moves.map fun move => .copyBack (backward openers.length move.1) move.2) =
        some { line with back := mid } :=
    exec_back text moves hmoves fun move hmem => ⟨hplaces move hmem, htask _⟩
  have hreceive : (machine text openers).step { line with back := mid }
      (.near (.receive ((sent openers.length).take (taken openers.length)))) =
        some { line with back := .spread openers.length sent taken } := by
    simp only [machine, step, ConduitAct.writes, Bool.false_eq_true, if_false, hread,
      Option.map_some]
  refine ⟨_, (Machine.exec_cons_of_step hsend _).trans ((Machine.exec_append _ _).mpr
    ⟨_, hcopy, Machine.exec_cons_of_step hreceive []⟩)⟩

/-- Relays that all copy, between ends neither of which has closed, come about in a run of an
established chain, whatever was sent and copied so far. -/
theorem reachable_spread (text : Libp2pText) {sent' : Nat → Bytes} {taken' : Nat → Nat}
    (hforth : Lane.Spreads openers.length sent taken)
    (hback : Lane.Spreads openers.length sent' taken') :
    (machine text openers).Reachable
      { forth := .spread openers.length sent taken
        back := .spread openers.length sent' taken' } := by
  obtain ⟨labels, hlabels⟩ := exec_spread_forth text (show ({} : Line).forth = {} from rfl)
    (fun _ => rfl) hforth
  obtain ⟨labels', hlabels'⟩ := exec_spread_back text
    (show ({ forth := .spread openers.length sent taken } : Line).back = {} from rfl)
    (fun _ => rfl) hback
  exact ⟨labels ++ labels', (Machine.exec_append _ _).mpr ⟨_, hlabels, hlabels'⟩⟩

end Open

end Line

end Sape
