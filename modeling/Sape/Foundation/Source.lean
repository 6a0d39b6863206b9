/-
  Foundation/Source.lean --- a source that several readers take items off.

  A history of readings says who took what, in the order of the source.  Nothing is taken
  twice; how the items are spread over the readers is up to the history.

  WHAT IS PROVED.

      ofReader_sublist          what a reader has taken stands in the order of the source
      ofReader_infix            and is one segment of it where no other reader came in
                                between
-/
import Mathlib.Data.List.Basic

set_option autoImplicit false

namespace Sape.Foundation

variable {ι α : Type}

/-- What was taken off a source at one time, and by whom. -/
structure Reading (ι α : Type) where
  reader : ι
  items : List α
  deriving DecidableEq, Repr, Inhabited

namespace Reading

/-- Everything that was taken. -/
def total (readings : List (Reading ι α)) : List α := readings.flatMap Reading.items

theorem total_append (left right : List (Reading ι α)) :
    total (left ++ right) = total left ++ total right := List.flatMap_append ..

theorem total_singleton (reading : Reading ι α) : total [reading] = reading.items :=
  List.flatMap_singleton ..

variable [DecidableEq ι]

/-- What one reader has taken. -/
def ofReader (reader : ι) (readings : List (Reading ι α)) : List α :=
  total (readings.filter fun reading => decide (reading.reader = reader))

/-- No other reader has come in between the readings of this one. -/
def Unbroken (reader : ι) (readings : List (Reading ι α)) : Prop :=
  ∃ before own after, readings = before ++ own ++ after ∧
    (∀ reading ∈ before, reading.reader ≠ reader) ∧
    (∀ reading ∈ own, reading.reader = reader) ∧ ∀ reading ∈ after, reading.reader ≠ reader

theorem ofReader_append (reader : ι) (left right : List (Reading ι α)) :
    ofReader reader (left ++ right) = ofReader reader left ++ ofReader reader right := by
  rw [ofReader, List.filter_append, total_append]
  rfl

theorem ofReader_own {reader : ι} {readings : List (Reading ι α)}
    (hown : ∀ reading ∈ readings, reading.reader = reader) :
    ofReader reader readings = total readings := by
  rw [ofReader, List.filter_eq_self.mpr fun reading hmem => decide_eq_true (hown reading hmem)]

theorem ofReader_others {reader : ι} {readings : List (Reading ι α)}
    (hothers : ∀ reading ∈ readings, reading.reader ≠ reader) : ofReader reader readings = [] := by
  have hfilter : (readings.filter fun reading => decide (reading.reader = reader)) = [] :=
    List.filter_eq_nil_iff.mpr fun reading hmem h => hothers reading hmem (of_decide_eq_true h)
  rw [ofReader, hfilter]
  rfl

theorem ofReader_singleton (reader : ι) (reading : Reading ι α) :
    ofReader reader [reading] = if reading.reader = reader then reading.items else [] := by
  split
  · rename_i h
    rw [ofReader_own (List.forall_mem_singleton.mpr h), total_singleton]
  · rename_i h
    exact ofReader_others (List.forall_mem_singleton.mpr h)

/-- What a reader has taken stands in the order of the source. -/
theorem ofReader_sublist (reader : ι) (readings : List (Reading ι α)) :
    (ofReader reader readings).Sublist (total readings) := by
  induction readings with
  | nil => exact List.Sublist.refl _
  | cons first others ih =>
      rw [← List.singleton_append, ofReader_append, total_append, ofReader_singleton,
        total_singleton]
      apply List.Sublist.append _ ih
      split
      · exact List.Sublist.refl _
      · exact List.nil_sublist _

/-- Where no other reader came in between, it is one segment. -/
theorem ofReader_infix {reader : ι} {readings : List (Reading ι α)}
    (h : Unbroken reader readings) : ofReader reader readings <:+: total readings := by
  obtain ⟨before, own, after, rfl, hbefore, hown, hafter⟩ := h
  rw [ofReader_append, ofReader_append, ofReader_others hbefore, ofReader_own hown,
    ofReader_others hafter, total_append, total_append, List.nil_append, List.append_nil]
  exact ⟨total before, total after, rfl⟩

end Reading

end Sape.Foundation
