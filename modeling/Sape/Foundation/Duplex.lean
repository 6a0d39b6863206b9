/-
  Foundation/Duplex.lean --- a connection: a conduit in each direction, and its two ends.

  `Duplex.machine` is what a connection is to those who use it.  Either end sends and
  closes on one conduit, and takes what the other end has sent off the other; the
  connection may be dropped at any time.  A `Trunk` is any number of connections that have
  nothing to do with each other.  `through` is three conduits in a row, seen from the two
  outer ends.

  WHAT IS PROVED.

      Duplex.sound_of_reaches     in every run, each end has taken the beginning of what the
                                  other sent, and has all of it at the end
      Conduit.through_send ...    an act at one end of three conduits is one on what they are
                                  together
-/
import Sape.Foundation.Conduit
import Sape.Foundation.Lists
import Sape.Foundation.Refinement
import Mathlib.Data.List.Infix

set_option autoImplicit false

namespace Sape.Foundation

variable {α : Type}

/-- A connection. -/
structure Duplex (α : Type) where
  /-- from its near end to its far end -/
  forth : Conduit α := {}
  back : Conduit α := {}
  deriving DecidableEq, Repr, Inhabited

/-- The ends of a connection. -/
inductive Side where
  | near
  | far
  deriving DecidableEq, Repr, Inhabited

/-- What a label of a connection names. -/
inductive DuplexLabel (α : Type) where
  | act (side : Side) (action : ConduitAct α)
  /-- the connection is dropped -/
  | drop
  deriving DecidableEq, Repr, Inhabited

/-- What the two ends do. -/
def DuplexLabel.seen : DuplexLabel α → Option (Side × ConduitAct α)
  | .act side action => some (side, action)
  | .drop => none

namespace Duplex

def drop (duplex : Duplex α) : Duplex α :=
  { forth := duplex.forth.drop, back := duplex.back.drop }

/-- Nobody has dropped the connection. -/
structure Uncut (duplex : Duplex α) : Prop where
  forth : duplex.forth.cut = false
  back : duplex.back.cut = false

instance (duplex : Duplex α) : Decidable duplex.Uncut :=
  decidable_of_iff (duplex.forth.cut = false ∧ duplex.back.cut = false)
    ⟨fun h => ⟨h.1, h.2⟩, fun h => ⟨h.forth, h.back⟩⟩

/-- Whether an act of an end is on the conduit that leads from near to far. -/
def onForth : Side → ConduitAct α → Bool
  | .near, action => action.writes
  | .far, action => !action.writes

variable [DecidableEq α]

/-- An act of one end. -/
def act (duplex : Duplex α) (side : Side) (action : ConduitAct α) : Option (Duplex α) :=
  if onForth side action then
    (duplex.forth.step action).map fun forth => { duplex with forth := forth }
  else (duplex.back.step action).map fun back => { duplex with back := back }

/-- One step. -/
def step (duplex : Duplex α) : DuplexLabel α → Option (Duplex α)
  | .act side action => duplex.act side action
  | .drop => some duplex.drop

/-- A connection that may be dropped. -/
def machine (α : Type) [DecidableEq α] : Machine (Duplex α) (DuplexLabel α) where
  start := {}
  step := step

/-- A connection that is not dropped. -/
def reliable (α : Type) [DecidableEq α] : Machine (Duplex α) (Side × ConduitAct α) where
  start := {}
  step duplex label := duplex.act label.1 label.2

omit [DecidableEq α] in
/-- A connection whose two conduits are sound. -/
structure Sound (duplex : Duplex α) : Prop where
  forth : duplex.forth.Sound
  back : duplex.back.Sound

theorem act_cases {duplex next : Duplex α} {side : Side} {action : ConduitAct α}
    (h : duplex.act side action = some next) :
    (onForth side action = true ∧ duplex.forth.step action = some next.forth ∧
        next.back = duplex.back) ∨
      (onForth side action = false ∧ duplex.back.step action = some next.back ∧
        next.forth = duplex.forth) := by
  unfold act at h
  cases hon : onForth side action with
  | true =>
      rw [hon, if_pos rfl] at h
      obtain ⟨forth, hforth, rfl⟩ := Option.map_eq_some_iff.mp h
      exact .inl ⟨rfl, hforth, rfl⟩
  | false =>
      rw [hon, if_neg Bool.false_ne_true] at h
      obtain ⟨back, hback, rfl⟩ := Option.map_eq_some_iff.mp h
      exact .inr ⟨rfl, hback, rfl⟩

/-- No act of an end cuts the connection. -/
theorem act_cut {duplex next : Duplex α} {side : Side} {action : ConduitAct α}
    (h : duplex.act side action = some next) :
    next.forth.cut = duplex.forth.cut ∧ next.back.cut = duplex.back.cut := by
  obtain ⟨-, hstep, hback⟩ | ⟨-, hstep, hforth⟩ := act_cases h
  · exact ⟨Conduit.step_cut hstep, hback ▸ rfl⟩
  · exact ⟨hforth ▸ rfl, Conduit.step_cut hstep⟩

theorem sound_step {duplex next : Duplex α} {label : DuplexLabel α} (hsound : duplex.Sound)
    (h : duplex.step label = some next) : next.Sound := by
  cases label with
  | act side action =>
      obtain ⟨-, hstep, hback⟩ | ⟨-, hstep, hforth⟩ := act_cases h
      · exact ⟨Conduit.sound_step hsound.forth hstep, hback ▸ hsound.back⟩
      · exact ⟨hforth ▸ hsound.forth, Conduit.sound_step hsound.back hstep⟩
  | drop =>
      obtain rfl := Option.some.inj h
      exact ⟨hsound.forth.drop, hsound.back.drop⟩

theorem sound_of_reaches {labels : List (DuplexLabel α)} {duplex : Duplex α}
    (hrun : (machine α).Reaches labels duplex) : duplex.Sound :=
  Machine.invariant Sound ⟨.start, .start⟩ sound_step hrun

end Duplex

/-! ## What is delivered -/

def Side.other : Side → Side
  | .near => .far
  | .far => .near

theorem Side.ne_other (side : Side) : side ≠ side.other := by
  cases side <;> exact fun h => by cases h

theorem Side.other_of_ne {side writer : Side} (h : side ≠ writer) : side = writer.other := by
  cases side <;> cases writer <;> first | rfl | exact absurd rfl h

/-- What a side has sent in a list of acts. -/
def sentBy (side : Side) (acts : List (Side × ConduitAct α)) : List α :=
  acts.flatMap fun
    | (by', .send items) => if by' = side then items else []
    | _ => []

/-- What a side has taken in a list of acts. -/
def takenBy (side : Side) (acts : List (Side × ConduitAct α)) : List α :=
  acts.flatMap fun
    | (by', .receive items) => if by' = side then items else []
    | _ => []

/-- What a list of acts has done to the conduit that one side writes to and the other reads
from. -/
structure Conduit.Logged (writer : Side) (before after : Conduit α)
    (acts : List (Side × ConduitAct α)) : Prop where
  sent : after.sent = before.sent ++ sentBy writer acts
  received : after.received = before.received ++ takenBy writer.other acts
  closed : after.closed = true → before.closed = true ∨ (writer, .close) ∈ acts
  finished : (writer.other, .finish) ∈ acts → after.finished = true
  kept : before.finished = true → after.finished = true

namespace Conduit

theorem Logged.refl (writer : Side) (conduit : Conduit α) : Logged writer conduit conduit [] where
  sent := (List.append_nil _).symm
  received := (List.append_nil _).symm
  closed := .inl
  finished h := absurd h List.not_mem_nil
  kept := id

theorem Logged.trans {writer : Side} {first second third : Conduit α}
    {acts acts' : List (Side × ConduitAct α)} (h : Logged writer first second acts)
    (h' : Logged writer second third acts') : Logged writer first third (acts ++ acts') where
  sent := by rw [h'.sent, h.sent, List.append_assoc, sentBy, sentBy, sentBy, List.flatMap_append]
  received := by
    rw [h'.received, h.received, List.append_assoc, takenBy, takenBy, takenBy,
      List.flatMap_append]
  closed hclosed := by
    rcases h'.closed hclosed with hclosed | hmem
    · exact (h.closed hclosed).imp_right (List.mem_append_left acts')
    · exact .inr (List.mem_append_right acts hmem)
  finished hmem := by
    rcases List.mem_append.mp hmem with hmem | hmem
    · exact h'.kept (h.finished hmem)
    · exact h'.finished hmem
  kept hfinished := h'.kept (h.kept hfinished)

/-- An act on the other conduit does nothing to this one. -/
theorem Logged.elsewhere {writer side : Side} {action : ConduitAct α} (conduit : Conduit α)
    (hoff : side = writer ↔ action.writes = false) :
    Logged writer conduit conduit [(side, action)] := by
  cases action with
  | send items =>
      have hside : side ≠ writer := fun h => Bool.noConfusion (hoff.mp h)
      exact ⟨by simp [sentBy, hside], by simp [takenBy], .inl, by simp, id⟩
  | close =>
      have hside : side ≠ writer := fun h => Bool.noConfusion (hoff.mp h)
      exact ⟨by simp [sentBy], by simp [takenBy], .inl, by simp, id⟩
  | receive items =>
      obtain rfl : side = writer := hoff.mpr rfl
      exact ⟨by simp [sentBy], by simp [takenBy, side.ne_other], .inl, by simp, id⟩
  | finish =>
      obtain rfl : side = writer := hoff.mpr rfl
      exact ⟨by simp [sentBy], by simp [takenBy], .inl, by simp [side.ne_other.symm], id⟩

theorem Logged.of_step [DecidableEq α] {writer side : Side} {action : ConduitAct α}
    {conduit next : Conduit α} (hsound : conduit.Sound)
    (hon : side = writer ↔ action.writes = true) (h : conduit.step action = some next) :
    Logged writer conduit next [(side, action)] := by
  cases action with
  | send items =>
      obtain rfl : side = writer := hon.mpr rfl
      simp only [step] at h
      split at h
      · cases h
      · obtain rfl := Option.some.inj h
        exact ⟨by simp [sentBy], by simp [takenBy, hsound.put_received], .inl, by simp, id⟩
  | close =>
      obtain rfl : side = writer := hon.mpr rfl
      simp only [step] at h
      split at h
      · cases h
      · obtain rfl := Option.some.inj h
        exact ⟨by simp [sentBy, shut], by simp [takenBy],
          fun _ => .inr List.mem_cons_self, by simp, id⟩
  | receive items =>
      have hside : side = writer.other := Side.other_of_ne fun h => Bool.noConfusion (hon.mp h)
      obtain rfl := hside
      simp only [step] at h
      split at h
      · rename_i hitems
        obtain rfl := Option.some.inj h
        exact ⟨by simp [sentBy], by simp [takenBy, skip_received hitems.1], .inl, by simp, id⟩
      · cases h
  | finish =>
      have hside : side = writer.other := Side.other_of_ne fun h => Bool.noConfusion (hon.mp h)
      obtain rfl := hside
      simp only [step] at h
      split at h
      · obtain rfl := Option.some.inj h
        exact ⟨by simp [sentBy, finish], by simp [takenBy], .inl,
          fun _ => rfl, fun _ => rfl⟩
      · cases h

theorem Logged.dropped (writer : Side) (conduit : Conduit α) :
    Logged writer conduit conduit.drop [] where
  sent := (List.append_nil _).symm
  received := (List.append_nil _).symm
  closed := .inl
  finished h := absurd h List.not_mem_nil
  kept := id

/-- What was taken off a conduit is the beginning of what was sent, and behind the end all of
it. -/
theorem Logged.delivers {writer : Side} {conduit : Conduit α}
    {acts : List (Side × ConduitAct α)} (h : Logged writer {} conduit acts)
    (hsound : conduit.Sound) :
    takenBy writer.other acts <+: sentBy writer acts ∧
      ((writer.other, .finish) ∈ acts → conduit.cut = true ∨
        ((writer, .close) ∈ acts ∧ takenBy writer.other acts = sentBy writer acts)) := by
  have hsent : conduit.sent = sentBy writer acts := h.sent
  have hreceived : conduit.received = takenBy writer.other acts := h.received
  rw [← hsent, ← hreceived]
  refine ⟨List.take_prefix _ _, fun hfinish => ?_⟩
  cases hcut : conduit.cut with
  | true => exact .inl rfl
  | false =>
      obtain ⟨hclosed, hall⟩ := hsound.received_eq (h.finished hfinish) hcut
      exact .inr ⟨(h.closed hclosed).resolve_left fun h => (by cases h), hall⟩

end Conduit

namespace Duplex

variable [DecidableEq α]

/-- What a run has done to both conduits. -/
structure Logged (before after : Duplex α) (acts : List (Side × ConduitAct α)) : Prop where
  forth : Conduit.Logged .near before.forth after.forth acts
  back : Conduit.Logged .far before.back after.back acts

theorem logged_step {duplex next : Duplex α} {label : DuplexLabel α} (hsound : duplex.Sound)
    (h : duplex.step label = some next) : Logged duplex next (label.seen).toList := by
  cases label with
  | act side action =>
      obtain ⟨hon, hstep, hback⟩ | ⟨hoff, hstep, hforth⟩ := act_cases h
      · refine ⟨.of_step hsound.forth ?_ hstep, hback ▸ .elsewhere _ ?_⟩
        · cases side <;> simpa [onForth] using hon
        · cases side <;> simpa [onForth] using hon
      · refine ⟨hforth ▸ .elsewhere _ ?_, .of_step hsound.back ?_ hstep⟩
        · cases side <;> simpa [onForth] using hoff
        · cases side <;> simpa [onForth] using hoff
  | drop =>
      obtain rfl := Option.some.inj h
      exact ⟨.dropped _ _, .dropped _ _⟩

theorem logged_of_exec (labels : List (DuplexLabel α)) :
    ∀ {duplex final : Duplex α}, duplex.Sound → (machine α).exec duplex labels = some final →
      Logged duplex final (labels.filterMap DuplexLabel.seen) := by
  induction labels with
  | nil =>
      intro duplex final _ hrun
      obtain rfl := Option.some.inj hrun
      exact ⟨.refl _ _, .refl _ _⟩
  | cons label labels ih =>
      intro duplex final hsound hrun
      obtain ⟨next, hstep, hrest⟩ := Machine.exec_cons hrun
      have hfirst := logged_step hsound hstep
      have hlast := ih (sound_step hsound hstep) hrest
      have hsplit : (label :: labels).filterMap DuplexLabel.seen =
          label.seen.toList ++ labels.filterMap DuplexLabel.seen := by
        cases hseen : label.seen with
        | none => simp [hseen]
        | some act => simp [hseen]
      rw [hsplit]
      exact ⟨hfirst.forth.trans hlast.forth, hfirst.back.trans hlast.back⟩

/-- What one side has taken is the beginning of what the other has sent, and when it has
come to the end of a connection that was not dropped, the other has closed, and it is
everything. -/
def Delivers (acts : List (Side × ConduitAct α)) (dropped : Prop) : Prop :=
  ∀ side : Side, takenBy side.other acts <+: sentBy side acts ∧
    ((side.other, .finish) ∈ acts → dropped ∨
      ((side, .close) ∈ acts ∧ takenBy side.other acts = sentBy side acts))

/-- Every run of a connection delivers. -/
theorem delivers {labels : List (DuplexLabel α)} {duplex : Duplex α}
    (hrun : (machine α).Reaches labels duplex) :
    Delivers (labels.filterMap DuplexLabel.seen) (¬ duplex.Uncut) := by
  have hsound := sound_of_reaches hrun
  have hlogged := logged_of_exec labels ⟨.start, .start⟩ hrun
  intro side
  cases side with
  | near =>
      refine (hlogged.forth.delivers hsound.forth).imp_right fun h hfinish => ?_
      exact (h hfinish).imp_left fun hcut huncut => absurd huncut.forth (by simp [hcut])
  | far =>
      refine (hlogged.back.delivers hsound.back).imp_right fun h hfinish => ?_
      exact (h hfinish).imp_left fun hcut huncut => absurd huncut.back (by simp [hcut])

end Duplex

/-! ## Several connections -/

/-- What a label of several connections names. -/
inductive TrunkLabel (α : Type) where
  /-- one more is made -/
  | open
  | act (index : Nat) (side : Side) (action : ConduitAct α)
  | drop (index : Nat)
  deriving DecidableEq, Repr, Inhabited

/-- What is seen of them. -/
def TrunkLabel.seen : TrunkLabel α → Option (TrunkLabel α)
  | .drop _ => none
  | label => some label

namespace Trunk

variable [DecidableEq α]

/-- One step. -/
def step (trunk : List (Duplex α)) : TrunkLabel α → Option (List (Duplex α))
  | .open => some (trunk ++ [{}])
  | .act index side action =>
      match trunk[index]? with
      | none => none
      | some duplex => (duplex.act side action).map fun next => trunk.set index next
  | .drop index =>
      match trunk[index]? with
      | none => none
      | some duplex => some (trunk.set index duplex.drop)

/-- Connections that may be dropped, each for itself. -/
def machine (α : Type) [DecidableEq α] : Machine (List (Duplex α)) (TrunkLabel α) where
  start := []
  step := step

/-- Connections that are not dropped any more, where nobody uses one that was. -/
def steady (α : Type) [DecidableEq α] : Machine (List (Duplex α)) (TrunkLabel α) where
  start := []
  step
    | trunk, .open => some (trunk ++ [{}])
    | trunk, .act index side action =>
        match trunk[index]? with
        | none => none
        | some duplex =>
            if duplex.Uncut then (duplex.act side action).map fun next => trunk.set index next
            else none
    | _, .drop _ => none

/-- What a step does to one of them. -/
def memberStep (index : Nat) : TrunkLabel α → Option (DuplexLabel α)
  | .open => none
  | .act i side action => if i = index then some (.act side action) else none
  | .drop i => if i = index then some .drop else none

/-- What is seen of one of them. -/
def actOf (index : Nat) : TrunkLabel α → Option (Side × ConduitAct α)
  | .act i side action => if i = index then some (side, action) else none
  | _ => none

/-- One of the connections has a run of its own. -/
theorem member_run (index : Nat) {labels : List (TrunkLabel α)} {trunk : List (Duplex α)}
    (hrun : (machine α).Reaches labels trunk) :
    (Duplex.machine α).Reaches (labels.filterMap (memberStep index))
      ((trunk[index]?).getD {}) := by
  refine Machine.projects (fun trunk => (trunk[index]?).getD {}) (memberStep index) ?_ labels hrun
  intro trunk label next hstep
  cases label with
  | «open» =>
      obtain rfl := Option.some.inj hstep
      exact congrArg some (getD_concat trunk {} index).symm
  | act i side action =>
      simp only [machine, step] at hstep
      split at hstep
      · cases hstep
      · rename_i duplex hget
        obtain ⟨duplex', hact, rfl⟩ := Option.map_eq_some_iff.mp hstep
        by_cases hi : i = index
        · obtain rfl := hi
          rw [memberStep, if_pos rfl, getElem?_set_of_get hget, if_pos rfl, hget]
          exact Machine.exec_cons_of_step hact []
        · rw [memberStep, if_neg hi, getElem?_set_of_get hget, if_neg (Ne.symm hi)]
          rfl
  | drop i =>
      simp only [machine, step] at hstep
      split at hstep
      · cases hstep
      · rename_i duplex hget
        obtain rfl := Option.some.inj hstep
        by_cases hi : i = index
        · obtain rfl := hi
          rw [memberStep, if_pos rfl, getElem?_set_of_get hget, if_pos rfl, hget]
          rfl
        · rw [memberStep, if_neg hi, getElem?_set_of_get hget, if_neg (Ne.symm hi)]
          rfl

omit [DecidableEq α] in
theorem seen_member (index : Nat) (labels : List (TrunkLabel α)) :
    (labels.filterMap (memberStep index)).filterMap DuplexLabel.seen =
      (labels.filterMap TrunkLabel.seen).filterMap (actOf index) := by
  rw [List.filterMap_filterMap, List.filterMap_filterMap]
  congr 1
  funext label
  cases label with
  | «open» => rfl
  | act i side action =>
      by_cases hi : i = index
      · simp [memberStep, TrunkLabel.seen, actOf, DuplexLabel.seen, hi]
      · simp [memberStep, TrunkLabel.seen, actOf, hi]
  | drop i =>
      by_cases hi : i = index
      · simp [memberStep, TrunkLabel.seen, DuplexLabel.seen, hi]
      · simp [memberStep, TrunkLabel.seen, hi]

/-- Every run of connections delivers on each of them. -/
theorem delivers {labels : List (TrunkLabel α)} {trunk : List (Duplex α)}
    (hrun : (machine α).Reaches labels trunk) (index : Nat) :
    Duplex.Delivers ((labels.filterMap TrunkLabel.seen).filterMap (actOf index))
      (¬ ((trunk[index]?).getD {}).Uncut) := by
  rw [← seen_member]
  exact Duplex.delivers (member_run index hrun)

end Trunk

/-- A copier that is a part of a machine makes its moves there. -/
theorem Splice.exec_of_runs [DecidableEq α] {State Label : Type} {machine : Machine State Label}
    (put : Splice α → Conduit α → Conduit α → State) (label : SpliceMove → Label)
    (hstep : ∀ {splice splice' : Splice α} {source sink source' sink' : Conduit α}
      {move : SpliceMove}, splice.step source sink move = some (splice', source', sink') →
      machine.step (put splice source sink) (label move) = some (put splice' source' sink')) :
    ∀ (moves : List SpliceMove) {splice splice' : Splice α} {source sink source' sink' : Conduit α},
      splice.runs source sink moves = some (splice', source', sink') →
      machine.exec (put splice source sink) (moves.map label) =
        some (put splice' source' sink') := by
  intro moves
  induction moves with
  | nil =>
      intro splice splice' source sink source' sink' hruns
      simp only [Splice.runs, Option.some.injEq, Prod.mk.injEq] at hruns
      obtain ⟨rfl, rfl, rfl⟩ := hruns
      rfl
  | cons move moves ih =>
      intro splice splice' source sink source' sink' hruns
      simp only [Splice.runs] at hruns
      split at hruns
      · cases hruns
      · rename_i hmove
        rw [List.map_cons, Machine.exec_cons_of_step (hstep hmove)]
        exact ih hruns

/-- Unless its first conduit was cut, a copier that is a part of a machine can settle there,
and nobody sees it: it gets rid of what there is, and passes the end on. -/
theorem Spliced.settle [DecidableEq α] {State Label Seen : Type} {headIn headOut : List α}
    {splice : Splice α} {source sink : Conduit α} (machine : Machine State Label)
    (view : Label → Option Seen) (put : Splice α → Conduit α → Conduit α → State)
    (label : SpliceMove → Label) (hview : ∀ move, view (label move) = none)
    (hstep : splice.done = false →
      ∀ {splice splice' : Splice α} {source sink source' sink' : Conduit α} {move : SpliceMove},
        splice.step source sink move = some (splice', source', sink') →
        machine.step (put splice source sink) (label move) = some (put splice' source' sink'))
    (h : Spliced headIn source splice headOut sink) (hcut : source.cut = false) :
    ∃ splice' source' sink',
      machine.Quietly view (put splice source sink) (put splice' source' sink') ∧
      Splice.Leaves source sink source' sink' ∧
      splice'.buf = [] ∧ source'.unread = [] ∧ (source'.closed = true → splice'.done = true) := by
  cases hdone : splice.done with
  | true =>
      obtain ⟨hbuf, hunread⟩ := h.settled_of_done hcut hdone
      exact ⟨splice, source, sink, .refl _, .refl _ _, hbuf, hunread, fun _ => hdone⟩
  | false =>
      obtain ⟨moves, splice', source', sink', hruns, hsettled⟩ := splice.flush source sink hdone
      refine ⟨splice', source', sink', ⟨moves.map label, ?_, ?_⟩, Splice.runs_leaves moves hruns,
        hsettled⟩
      · exact Splice.exec_of_runs put label (hstep hdone) moves hruns
      · rw [List.filterMap_map]
        exact List.filterMap_eq_nil_iff.mpr fun move _ => hview move

/-! ## Three conduits in a row -/

namespace Conduit

/-- Three conduits in a row, as their writer and their reader see them. -/
def through (first second third : Conduit α) : Conduit α where
  sent := first.sent
  taken := third.taken
  closed := first.closed
  cut := first.cut || second.cut || third.cut
  finished := third.finished

variable [DecidableEq α] {first second third : Conduit α} {action : ConduitAct α}

/-- What the writer does. -/
theorem through_write {first' : Conduit α} (hwrites : action.writes = true)
    (h : first.step action = some first') :
    (through first second third).step action = some (through first' second third) := by
  cases action with
  | send items =>
      simp only [step] at h ⊢
      split at h
      · cases h
      · rename_i hopen
        obtain rfl := Option.some.inj h
        exact if_neg hopen
  | close =>
      simp only [step] at h ⊢
      split at h
      · cases h
      · rename_i hopen
        obtain rfl := Option.some.inj h
        exact if_neg hopen
  | receive items => cases hwrites
  | finish => cases hwrites

/-- What the reader does, where the third conduit has what it has from the first. -/
theorem through_read {third' : Conduit α} (hcarries : Carries first second third)
    (hwrites : action.writes = false) (h : third.step action = some third') :
    (through first second third).step action = some (through first second third') := by
  cases action with
  | send items => cases hwrites
  | close => cases hwrites
  | receive items =>
      simp only [step] at h ⊢
      split at h
      · rename_i hitems
        obtain rfl := Option.some.inj h
        have hfront : items <+: (through first second third).unread :=
          hitems.1.trans (hcarries.sent.drop third.taken)
        exact if_pos ⟨hfront, hitems.2⟩
      · cases h
  | finish =>
      simp only [step] at h ⊢
      split at h
      · rename_i hended
        obtain rfl := Option.some.inj h
        refine if_pos ⟨?_, hended.2⟩
        rcases hended.1 with hcut | ⟨hclosed, hunread⟩
        · exact .inl (by simp [through, hcut])
        · rcases hcarries.closed hclosed with hcut | hcut | ⟨hclosed', hsent⟩
          · exact .inl (by simp [through, hcut])
          · exact .inl (by simp [through, hcut])
          · exact .inr ⟨hclosed', by rw [← hunread, unread, unread, hsent]; rfl⟩
      · cases h

/-- Where the third conduit is what the first one is, and none is cut, what can be done to the
three together can be done at their ends. -/
theorem act_of_through {next : Conduit α} (hsent : third.sent = first.sent)
    (hclosed : first.closed = true → third.closed = true)
    (hcut : (through first second third).cut = false)
    (h : (through first second third).step action = some next) :
    if action.writes then ∃ first', first.step action = some first'
    else ∃ third', third.step action = some third' := by
  cases action with
  | send items =>
      simp only [step] at h ⊢
      split at h
      · cases h
      · rename_i hopen
        exact ⟨_, if_neg hopen⟩
  | close =>
      simp only [step] at h ⊢
      split at h
      · cases h
      · rename_i hopen
        exact ⟨_, if_neg hopen⟩
  | receive items =>
      simp only [step] at h ⊢
      split at h
      · rename_i hitems
        refine ⟨_, if_pos ⟨?_, hitems.2⟩⟩
        rw [unread, hsent]
        exact hitems.1
      · cases h
  | finish =>
      simp only [step] at h ⊢
      split at h
      · rename_i hended
        refine ⟨_, if_pos ⟨?_, hended.2⟩⟩
        rcases hended.1 with hcut' | ⟨hclosed', hunread⟩
        · rw [hcut] at hcut'
          cases hcut'
        · refine .inr ⟨hclosed hclosed', ?_⟩
          rw [unread, hsent]
          exact hunread
      · cases h

omit [DecidableEq α] in
/-- Neither the writer nor the reader sees what the copier in front does. -/
theorem through_front {first' second' : Conduit α}
    (h : Splice.Leaves first second first' second') :
    through first' second' third = through first second third := by
  rw [through, through, h.sent, h.closed, h.cut, h.cutSink]

omit [DecidableEq α] in
theorem through_behind {second' third' : Conduit α}
    (h : Splice.Leaves second third second' third') :
    through first second' third' = through first second third := by
  rw [through, through, h.cut, h.taken, h.cutSink, h.finished]

end Conduit

end Sape.Foundation
