/-
  Foundation/Machine.lean --- labelled machines, their runs, and the rules that
  carry a fact about one step to a fact about every run.

  A machine here is a partial step function.  Everything a run may depend on
  that the modelled code does not decide (which task is polled next, what an
  operation returns, how many bytes a write got rid of before it failed) is a
  label, so a run is a list of labels and the step function stays executable.

  WHAT IS PROVED.  One rule for each shape of argument the development needs:

      Machine.invariant            a fact kept by every step holds in every run
      Machine.invariant_of_meets   the same, when only steps meeting a condition
                                   are taken
      Machine.exec_iff_meets       a property that a step keeps exactly if it meets a
                                   condition
      Machine.exec_preserves       a relation kept by every step relates the ends
                                   of a run
      Machine.record_iff           what a run has put on record is what one of its labels
                                   said
      Machine.lockstep             two machines that answer each label alike can
                                   run the same labels side by side
-/
import Mathlib.Data.List.Basic
import Mathlib.Data.List.Induction

set_option autoImplicit false

namespace Sape.Foundation

/-- A machine whose nondeterminism is spelled out in its labels. -/
structure Machine (State Label : Type) where
  /-- The state a run starts from. -/
  start : State
  /-- The state after one label, or `none` where the label is not enabled. -/
  step : State → Label → Option State

namespace Machine

variable {State Label : Type}

/-- The state after a list of labels, each enabled where it is taken. -/
def exec (machine : Machine State Label) : State → List Label → Option State
  | state, [] => some state
  | state, label :: labels =>
      match machine.step state label with
      | none => none
      | some next => exec machine next labels

/-- `labels` is a run of the machine that ends in `state`. -/
def Reaches (machine : Machine State Label) (labels : List Label) (state : State) : Prop :=
  machine.exec machine.start labels = some state

/-- Some run ends in `state`. -/
def Reachable (machine : Machine State Label) (state : State) : Prop :=
  ∃ labels, machine.Reaches labels state

/-- Every step of the run that `labels` takes from a state meets `condition`. -/
def Meets (machine : Machine State Label) (condition : State → Label → Prop) :
    State → List Label → Prop
  | _, [] => True
  | state, label :: labels =>
      condition state label ∧
        ∀ next, machine.step state label = some next →
          Meets machine condition next labels

/-- Whether the steps of a given run meet a condition can be evaluated. -/
instance decidableMeets (machine : Machine State Label) (condition : State → Label → Prop)
    [∀ state label, Decidable (condition state label)] :
    ∀ (state : State) (labels : List Label), Decidable (machine.Meets condition state labels)
  | _, [] => isTrue trivial
  | state, label :: labels =>
      haveI : ∀ next, Decidable (machine.Meets condition next labels) := fun next =>
        decidableMeets machine condition next labels
      inferInstanceAs (Decidable (condition state label ∧
        ∀ next ∈ machine.step state label, machine.Meets condition next labels))

@[simp] theorem exec_nil (machine : Machine State Label) (state : State) :
    machine.exec state [] = some state := rfl

theorem exec_cons_of_step {machine : Machine State Label} {state next : State}
    {label : Label} (hstep : machine.step state label = some next)
    (labels : List Label) :
    machine.exec state (label :: labels) = machine.exec next labels := by
  simp [exec, hstep]

theorem exec_cons {machine : Machine State Label} {state final : State}
    {label : Label} {labels : List Label}
    (hrun : machine.exec state (label :: labels) = some final) :
    ∃ next, machine.step state label = some next ∧
      machine.exec next labels = some final := by
  cases hstep : machine.step state label with
  | none => simp [exec, hstep] at hrun
  | some next => exact ⟨next, rfl, by simpa [exec, hstep] using hrun⟩

theorem exec_append {machine : Machine State Label} {state final : State}
    (left right : List Label) :
    machine.exec state (left ++ right) = some final ↔
      ∃ mid, machine.exec state left = some mid ∧
        machine.exec mid right = some final := by
  induction left generalizing state with
  | nil => simp
  | cons label labels ih =>
      rw [List.cons_append]
      constructor
      · intro hrun
        obtain ⟨next, hstep, hrest⟩ := exec_cons hrun
        obtain ⟨mid, hleft, hright⟩ := ih.mp hrest
        exact ⟨mid, by rw [exec_cons_of_step hstep]; exact hleft, hright⟩
      · rintro ⟨mid, hleft, hright⟩
        obtain ⟨next, hstep, hrest⟩ := exec_cons hleft
        rw [exec_cons_of_step hstep]
        exact ih.mpr ⟨mid, hrest, hright⟩

/-- A run that can be evaluated ends in a state that passes the test it was put to. -/
theorem exists_reaches_of_any {machine : Machine State Label} {labels : List Label}
    {test : State → Bool} (h : (machine.exec machine.start labels).any test = true) :
    ∃ state, machine.Reaches labels state ∧ test state = true := by
  cases hrun : machine.exec machine.start labels with
  | none => simp [hrun] at h
  | some state => exact ⟨state, hrun, by simpa [hrun] using h⟩

/-! ## Facts about every run -/

/-- A relation between states that is reflexive, composes, and is kept by every
step relates the two ends of a run. -/
theorem exec_preserves {machine : Machine State Label} {Rel : State → State → Prop}
    (hrefl : ∀ state, Rel state state)
    (htrans : ∀ {first second third}, Rel first second → Rel second third →
      Rel first third)
    (hstep : ∀ {state label next}, machine.step state label = some next →
      Rel state next) :
    ∀ (labels : List Label) {state final : State},
      machine.exec state labels = some final → Rel state final := by
  intro labels
  induction labels with
  | nil =>
      intro state final hrun
      simp only [exec_nil, Option.some.injEq] at hrun
      exact hrun ▸ hrefl state
  | cons label labels ih =>
      intro state final hrun
      obtain ⟨next, hfirst, hrest⟩ := exec_cons hrun
      exact htrans (hstep hfirst) (ih hrest)

/-- An invariant kept by the steps that meet a condition holds after a run whose
steps all meet it. -/
theorem exec_invariant_of_meets {machine : Machine State Label}
    (condition : State → Label → Prop) (Inv : State → Prop)
    (hstep : ∀ {state label next}, Inv state → condition state label →
      machine.step state label = some next → Inv next) :
    ∀ (labels : List Label) {state final : State},
      machine.Meets condition state labels →
      machine.exec state labels = some final → Inv state → Inv final := by
  intro labels
  induction labels with
  | nil =>
      intro state final _ hrun hinv
      simp only [exec_nil, Option.some.injEq] at hrun
      exact hrun ▸ hinv
  | cons label labels ih =>
      intro state final hmeets hrun hinv
      obtain ⟨next, hfirst, hrest⟩ := exec_cons hrun
      exact ih (hmeets.2 next hfirst) hrest (hstep hinv hmeets.1 hfirst)

/-- The invariant rule for runs whose steps all meet a condition. -/
theorem invariant_of_meets {machine : Machine State Label}
    (condition : State → Label → Prop) (Inv : State → Prop)
    (hstart : Inv machine.start)
    (hstep : ∀ {state label next}, Inv state → condition state label →
      machine.step state label = some next → Inv next)
    {labels : List Label} {state : State}
    (hmeets : machine.Meets condition machine.start labels)
    (hrun : machine.Reaches labels state) : Inv state :=
  exec_invariant_of_meets condition Inv hstep labels hmeets hrun hstart

theorem meets_cons_of_step {machine : Machine State Label} {condition : State → Label → Prop}
    {state next : State} {label : Label} (hstep : machine.step state label = some next)
    (labels : List Label) :
    machine.Meets condition state (label :: labels) ↔
      condition state label ∧ machine.Meets condition next labels := by
  refine and_congr_right fun _ => ⟨fun hmeets => hmeets next hstep, fun hmeets other hother => ?_⟩
  obtain rfl := Option.some.inj (hstep.symm.trans hother)
  exact hmeets

theorem meets_true (machine : Machine State Label) :
    ∀ (labels : List Label) (state : State),
      machine.Meets (fun _ _ => True) state labels
  | [], _ => trivial
  | _ :: labels, _ => ⟨trivial, fun next _ => meets_true machine labels next⟩

/-- A condition that holds of certain labels in every state holds along every run of
such labels. -/
theorem meets_of_forall (machine : Machine State Label) {condition : State → Label → Prop} :
    ∀ (labels : List Label) (state : State),
      (∀ label ∈ labels, ∀ state, condition state label) →
      machine.Meets condition state labels
  | [], _, _ => trivial
  | label :: labels, state, h =>
      ⟨h label List.mem_cons_self state, fun next _ =>
        meets_of_forall machine labels next fun l hl => h l (List.mem_cons_of_mem _ hl)⟩

/-- Where every step keeps a property exactly if it meets a condition, a run keeps it
exactly if all its steps do. -/
theorem exec_iff_meets {machine : Machine State Label} (condition : State → Label → Prop)
    (Inv Kept : State → Prop)
    (hinv : ∀ {state label next}, Inv state → machine.step state label = some next → Inv next)
    (hstep : ∀ {state label next}, Inv state → machine.step state label = some next →
      (Kept next ↔ Kept state ∧ condition state label)) :
    ∀ (labels : List Label) {state final : State},
      machine.exec state labels = some final → Inv state →
      (Kept final ↔ Kept state ∧ machine.Meets condition state labels) := by
  intro labels
  induction labels with
  | nil =>
      intro state final hrun _
      simp only [exec_nil, Option.some.injEq] at hrun
      simp [hrun, Meets]
  | cons label labels ih =>
      intro state final hrun hstate
      obtain ⟨next, hfirst, hrest⟩ := exec_cons hrun
      rw [ih hrest (hinv hstate hfirst), hstep hstate hfirst, meets_cons_of_step hfirst, and_assoc]

/-- The invariant rule from any state: what holds there and is kept by every step
holds where a list of labels ends. -/
theorem exec_invariant {machine : Machine State Label} (Inv : State → Prop)
    (hstep : ∀ {state label next}, Inv state →
      machine.step state label = some next → Inv next)
    (labels : List Label) {state final : State}
    (hrun : machine.exec state labels = some final) (hinv : Inv state) : Inv final :=
  exec_invariant_of_meets (fun _ _ => True) Inv (fun hinv _ hnext => hstep hinv hnext) labels
    (machine.meets_true labels _) hrun hinv

/-- The invariant rule: what holds at the start and is kept by every step holds
in every run. -/
theorem invariant {machine : Machine State Label} (Inv : State → Prop)
    (hstart : Inv machine.start)
    (hstep : ∀ {state label next}, Inv state →
      machine.step state label = some next → Inv next)
    {labels : List Label} {state : State}
    (hrun : machine.Reaches labels state) : Inv state :=
  exec_invariant Inv hstep labels hrun hstart

/-- Where a state keeps on record what a label said, and nothing is said where something is on
record, what is on record is what some label of the run said. -/
theorem record_iff {Mark : Type} {machine : Machine State Label} (record : State → Option Mark)
    (spoken : Label → Option Mark) (Inv : State → Prop) (hstart : Inv machine.start)
    (hempty : record machine.start = none)
    (hinv : ∀ {state label next}, Inv state → machine.step state label = some next → Inv next)
    (hstep : ∀ {state label next}, Inv state → machine.step state label = some next →
      record next = (spoken label).or (record state) ∧ (spoken label ≠ none → record state = none))
    (labels : List Label) {state : State} (hrun : machine.Reaches labels state) (mark : Mark) :
    record state = some mark ↔ ∃ label ∈ labels, spoken label = some mark := by
  induction labels using List.reverseRecOn generalizing state with
  | nil =>
      obtain rfl := Option.some.inj hrun
      simp [hempty]
  | append_singleton labels label ih =>
      obtain ⟨before, hbefore, hlast⟩ := (exec_append labels [label]).mp hrun
      obtain ⟨next, hnext, hend⟩ := exec_cons hlast
      obtain rfl := Option.some.inj hend
      obtain ⟨hrecord, hnone⟩ := hstep (invariant Inv hstart hinv hbefore) hnext
      simp only [List.mem_append, List.mem_singleton, or_and_right, exists_or, exists_eq_left,
        ← ih hbefore, hrecord]
      cases hsaid : spoken label with
      | none => simp
      | some said =>
          rw [hnone (by rw [hsaid]; exact Option.some_ne_none said)]
          simp

/-! ## Two runs side by side -/

/-- When every step of the first machine can be answered by the second under the
same label, the second machine runs every run of the first. -/
theorem lockstep {Other : Type} {left : Machine State Label}
    (right : Machine Other Label) (Rel : State → Other → Prop)
    (hstart : Rel left.start right.start)
    (hstep : ∀ {state other label next}, Rel state other →
      left.step state label = some next →
      ∃ otherNext, right.step other label = some otherNext ∧ Rel next otherNext)
    {labels : List Label} {state : State} (hrun : left.Reaches labels state) :
    ∃ other, right.Reaches labels other ∧ Rel state other := by
  have main : ∀ (labels : List Label) {state final : State} {other : Other},
      Rel state other → left.exec state labels = some final →
      ∃ otherFinal, right.exec other labels = some otherFinal ∧
        Rel final otherFinal := by
    intro labels
    induction labels with
    | nil =>
        intro state final other hrel hexec
        simp only [exec_nil, Option.some.injEq] at hexec
        exact ⟨other, rfl, hexec ▸ hrel⟩
    | cons label labels ih =>
        intro state final other hrel hexec
        obtain ⟨next, hfirst, hrest⟩ := exec_cons hexec
        obtain ⟨otherNext, hother, hnext⟩ := hstep hrel hfirst
        obtain ⟨otherFinal, hfinal, hends⟩ := ih hnext hrest
        exact ⟨otherFinal, by rw [exec_cons_of_step hother]; exact hfinal, hends⟩
  exact main labels hstart hrun

end Machine

end Sape.Foundation
