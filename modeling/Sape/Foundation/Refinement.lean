/-
  Foundation/Refinement.lean --- one machine behind another, as far as an observer can
  tell them apart, and one member of a system that has many.

  An observation is a part of the labels that somebody outside sees; the other labels are
  silent.  A run is answered by another machine when that machine has a run with the same
  observations, however many silent steps the two take.

  WHAT IS PROVED.

      Machine.answers        steps that are answered one by one make a run that is answered
      Machine.Quietly.trans  silent runs compose
      Machine.projects       what a member does in a run of its system is a run of its own
-/
import Sape.Foundation.Machine

set_option autoImplicit false

namespace Sape.Foundation

namespace Machine

variable {State Label Other OtherLabel Seen : Type}

/-! ## Weak simulation -/

/-- When every step is answered by a run with the same observation, so is every run. -/
theorem answers {low : Machine State Label} {high : Machine Other OtherLabel}
    (view : Label → Option Seen) (view' : OtherLabel → Option Seen)
    (Rel : State → Other → Prop)
    (hstep : ∀ {state other label next}, Rel state other → low.step state label = some next →
      ∃ outer otherNext, high.exec other outer = some otherNext ∧
        outer.filterMap view' = (view label).toList ∧ Rel next otherNext) :
    ∀ (labels : List Label) {state final : State} {other : Other}, Rel state other →
      low.exec state labels = some final →
      ∃ outer otherFinal, high.exec other outer = some otherFinal ∧
        outer.filterMap view' = labels.filterMap view ∧ Rel final otherFinal := by
  intro labels
  induction labels with
  | nil =>
      intro state final other hrel hrun
      simp only [exec_nil, Option.some.injEq] at hrun
      exact ⟨[], other, rfl, rfl, hrun ▸ hrel⟩
  | cons label labels ih =>
      intro state final other hrel hrun
      obtain ⟨next, hfirst, hrest⟩ := exec_cons hrun
      obtain ⟨outer, otherNext, hanswer, hseen, hnext⟩ := hstep hrel hfirst
      obtain ⟨rest, otherFinal, hfinal, htail, hends⟩ := ih hnext hrest
      refine ⟨outer ++ rest, otherFinal, (exec_append outer rest).mpr ⟨_, hanswer, hfinal⟩, ?_,
        hends⟩
      rw [List.filterMap_append, hseen, htail]
      cases hview : view label with
      | none => rw [List.filterMap_cons_none hview, Option.toList_none, List.nil_append]
      | some seen =>
          rw [List.filterMap_cons_some hview, Option.toList_some, List.singleton_append]

/-- A run that nobody sees anything of. -/
def Quietly (machine : Machine State Label) (view : Label → Option Seen) (state next : State) :
    Prop :=
  ∃ labels, machine.exec state labels = some next ∧ labels.filterMap view = []

section Quietly

variable {machine : Machine State Label} {view : Label → Option Seen}

theorem Quietly.refl (state : State) : machine.Quietly view state state := ⟨[], rfl, rfl⟩

theorem Quietly.trans {first second third : State} (h : machine.Quietly view first second)
    (h' : machine.Quietly view second third) : machine.Quietly view first third := by
  obtain ⟨labels, hrun, hseen⟩ := h
  obtain ⟨labels', hrun', hseen'⟩ := h'
  refine ⟨labels ++ labels', (exec_append _ _).mpr ⟨second, hrun, hrun'⟩, ?_⟩
  rw [List.filterMap_append, hseen, hseen', List.append_nil]

theorem Quietly.of_step {state next : State} {label : Label}
    (hstep : machine.step state label = some next) (hview : view label = none) :
    machine.Quietly view state next :=
  ⟨[label], exec_cons_of_step hstep [], List.filterMap_cons_none hview⟩

end Quietly

/-! ## One member of a system -/

/-- What a member does in a run of its system is a run of its own, whatever happens
meanwhile elsewhere. -/
theorem projects {system : Machine State Label} {member : Machine Other OtherLabel}
    (own : State → Other) (act : Label → Option OtherLabel)
    (hstep : ∀ {state label next}, system.step state label = some next →
      member.exec (own state) (act label).toList = some (own next)) :
    ∀ (labels : List Label) {state final : State}, system.exec state labels = some final →
      member.exec (own state) (labels.filterMap act) = some (own final) := by
  intro labels
  induction labels with
  | nil =>
      intro state final hrun
      simp only [exec_nil, Option.some.injEq] at hrun
      rw [hrun]
      rfl
  | cons label labels ih =>
      intro state final hrun
      obtain ⟨next, hfirst, hrest⟩ := exec_cons hrun
      have hown := hstep hfirst
      cases hact : act label with
      | none =>
          rw [hact, Option.toList_none, exec_nil, Option.some.injEq] at hown
          rw [List.filterMap_cons_none hact, hown]
          exact ih hrest
      | some ownLabel =>
          rw [hact, Option.toList_some] at hown
          rw [List.filterMap_cons_some hact, ← List.singleton_append]
          exact (exec_append _ _).mpr ⟨_, hown, ih hrest⟩

end Machine

end Sape.Foundation
