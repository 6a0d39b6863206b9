/-
  Foundation/Lists.lean --- lookup in a list behind an update or one more element, the first
  element that a function takes, lists of which some value is not repeated, what stands in
  front of a separator, and the parts between separators.
-/
import Mathlib.Data.List.DropRight
import Mathlib.Data.List.Forall2
import Mathlib.Data.List.Induction
import Mathlib.Data.List.Nodup

set_option autoImplicit false

namespace Sape.Foundation

/-! ## Lookup -/

theorem getElem?_set_of_get {α : Type} {list : List α} {i j : Nat} {a b : α}
    (hget : list[i]? = some a) :
    (list.set i b)[j]? = if j = i then some b else list[j]? := by
  obtain ⟨hlt, -⟩ := List.getElem?_eq_some_iff.mp hget
  rw [List.getElem?_set]
  by_cases h : i = j
  · subst h
    rw [if_pos rfl, if_pos rfl, if_pos hlt]
  · rw [if_neg h, if_neg (Ne.symm h)]

theorem set_of_get {α : Type} {list : List α} {i : Nat} {a : α} (hget : list[i]? = some a) :
    list.set i a = list := by
  obtain ⟨hlt, rfl⟩ := List.getElem?_eq_some_iff.mp hget
  exact List.set_getElem_self hlt

theorem getElem?_set_cases {α : Type} {list : List α} {i j : Nat} {a b c : α}
    (hget : list[i]? = some a) (hfound : (list.set i b)[j]? = some c) :
    (j = i ∧ c = b) ∨ (j ≠ i ∧ list[j]? = some c) := by
  rw [getElem?_set_of_get hget] at hfound
  split at hfound
  · rename_i h
    exact .inl ⟨h, (Option.some.inj hfound).symm⟩
  · rename_i h
    exact .inr ⟨h, hfound⟩

theorem getElem?_concat_of_get {α : Type} {list : List α} {i : Nat} {a : α} (b : α)
    (hget : list[i]? = some a) : (list ++ [b])[i]? = some a := by
  obtain ⟨hlt, -⟩ := List.getElem?_eq_some_iff.mp hget
  rw [List.getElem?_append_left hlt, hget]

theorem getD_concat {α : Type} (list : List α) (b : α) (j : Nat) :
    ((list ++ [b])[j]?).getD b = (list[j]?).getD b := by
  rcases Nat.lt_trichotomy j list.length with hlt | rfl | hgt
  · rw [List.getElem?_append_left hlt]
  · rw [List.getElem?_concat_length, List.getElem?_eq_none (Nat.le_refl _)]
    rfl
  · rw [List.getElem?_eq_none (Nat.le_of_lt hgt), List.getElem?_eq_none]
    rw [List.length_append, List.length_singleton]
    exact hgt

/-- Where something is found, the list can be cut, and an update changes nothing around it. -/
theorem cut_of_get {α : Type} {list : List α} {i : Nat} {a : α} (hget : list[i]? = some a) :
    ∃ front back, list = front ++ a :: back ∧ ∀ b, list.set i b = front ++ b :: back := by
  obtain ⟨hlt, -⟩ := List.getElem?_eq_some_iff.mp hget
  have hset : ∀ b, list.set i b = list.take i ++ b :: list.drop (i + 1) := by
    intro b
    rw [List.set_eq_take_append_cons_drop, if_pos hlt]
  exact ⟨list.take i, list.drop (i + 1), (set_of_get hget).symm.trans (hset a), hset⟩

theorem filterMap_set_of_eq {α β : Type} {f : α → Option β} {list : List α} {i : Nat} {a b : α}
    (hget : list[i]? = some a) (hf : f b = f a) :
    (list.set i b).filterMap f = list.filterMap f := by
  obtain ⟨front, back, hlist, hset⟩ := cut_of_get hget
  rw [hset, hlist, List.filterMap_append, List.filterMap_append, List.filterMap_cons,
    List.filterMap_cons, hf]

/-- An element that had no value is replaced by one that has. -/
theorem perm_filterMap_set {α β : Type} {f : α → Option β} {list : List α} {i : Nat} {a b : α}
    {value : β} (hget : list[i]? = some a) (hnone : f a = none) (hsome : f b = some value) :
    (list.filterMap f ++ [value]).Perm ((list.set i b).filterMap f) := by
  obtain ⟨front, back, hlist, hset⟩ := cut_of_get hget
  rw [hset, hlist, List.filterMap_append, List.filterMap_append, List.filterMap_cons_none hnone,
    List.filterMap_cons_some hsome, List.append_assoc]
  exact List.perm_append_singleton value (back.filterMap f) |>.append_left _

/-- What is found in a list with one more element is that element, or was there before. -/
theorem getElem?_concat_cases {α : Type} {list : List α} {j : Nat} {b c : α}
    (hfound : (list ++ [b])[j]? = some c) : c = b ∨ list[j]? = some c := by
  rw [List.getElem?_append] at hfound
  split at hfound
  · exact .inr hfound
  · exact .inl (List.mem_singleton.mp (List.mem_of_getElem? hfound))

/-- Where a function takes one value at most, the order in which it is offered all of them
makes no difference. -/
theorem findSome?_eq_of_unique {α β : Type} {f : α → Option β} {list list' : List α}
    (hall : ∀ a, a ∈ list) (hall' : ∀ a, a ∈ list')
    (hunique : ∀ a a', f a ≠ none → f a' ≠ none → a = a') :
    list.findSome? f = list'.findSome? f := by
  cases hfound : list.findSome? f with
  | none =>
      rw [List.findSome?_eq_none_iff] at hfound
      exact (List.findSome?_eq_none_iff.mpr fun a _ => hfound a (hall a)).symm
  | some b =>
      obtain ⟨a, -, ha⟩ := List.exists_of_findSome?_eq_some hfound
      cases hfound' : list'.findSome? f with
      | none =>
          rw [List.findSome?_eq_none_iff] at hfound'
          exact absurd (ha.symm.trans (hfound' a (hall' a))) (Option.some_ne_none b)
      | some b' =>
          obtain ⟨a', -, ha'⟩ := List.exists_of_findSome?_eq_some hfound'
          obtain rfl := hunique a a' (by simp [ha]) (by simp [ha'])
          exact ha.symm.trans ha'

/-! ## Values that are not repeated -/

/-- Where values are not repeated, equal values are at one place. -/
theorem index_eq_of_nodup {α β : Type} {f : α → β} {list : List α} {i j : Nat} {a b : α}
    (hnodup : (list.map f).Nodup) (hi : list[i]? = some a) (hj : list[j]? = some b)
    (heq : f a = f b) : i = j := by
  obtain ⟨hlt, -⟩ := List.getElem?_eq_some_iff.mp hi
  refine (List.getElem?_inj (by rw [List.length_map]; exact hlt) hnodup).mp ?_
  rw [List.getElem?_map, List.getElem?_map, hi, hj, Option.map_some, Option.map_some, heq]

theorem nodup_map_concat {α β : Type} {f : α → β} {list : List α} {a : α}
    (hnodup : (list.map f).Nodup) (hnew : ∀ b ∈ list, f b ≠ f a) :
    ((list ++ [a]).map f).Nodup := by
  rw [List.map_append, List.map_singleton]
  refine List.nodup_append.mpr ⟨hnodup, List.nodup_singleton _, ?_⟩
  intro x hx y hy
  obtain ⟨b, hmem, rfl⟩ := List.mem_map.mp hx
  obtain rfl := List.mem_singleton.mp hy
  exact hnew b hmem

/-! ## Separators -/

/-- What stands in front of the first separator is determined by the whole. -/
theorem eq_of_append_separator {α : Type} {sep : α} {left right front back : List α}
    (hleft : sep ∉ left) (hright : sep ∉ right)
    (heq : left ++ sep :: front = right ++ sep :: back) : left = right := by
  induction left generalizing right with
  | nil =>
      cases right with
      | nil => rfl
      | cons b bs => exact absurd (List.cons.inj heq).1 fun h => hright (h ▸ List.mem_cons_self)
  | cons a as ih =>
      cases right with
      | nil => exact absurd (List.cons.inj heq).1 fun h => hleft (h ▸ List.mem_cons_self)
      | cons b bs =>
          obtain ⟨rfl, htail⟩ := List.cons.inj heq
          have has : sep ∉ as := fun h => hleft (List.mem_cons_of_mem _ h)
          have hbs : sep ∉ bs := fun h => hright (List.mem_cons_of_mem _ h)
          rw [ih has hbs htail]

/-! ## Counterparts -/

theorem exists_forall₂_iff {α β : Type} {R : α → β → Prop} {bs : List β} :
    (∃ as, List.Forall₂ R as bs) ↔ ∀ b ∈ bs, ∃ a, R a b := by
  constructor
  · rintro ⟨as, hall⟩
    induction hall with
    | nil => exact fun b hmem => absurd hmem List.not_mem_nil
    | cons hfirst hrest ih => exact List.forall_mem_cons.mpr ⟨⟨_, hfirst⟩, ih⟩
  · intro hall
    induction bs with
    | nil => exact ⟨[], .nil⟩
    | cons b bs ih =>
        obtain ⟨⟨a, hfirst⟩, hrest⟩ := List.forall_mem_cons.mp hall
        obtain ⟨as, has⟩ := ih hrest
        exact ⟨a :: as, .cons hfirst has⟩

/-! ## Splitting at a separator -/

/-- What is split loses its separators and nothing else. -/
theorem flatten_splitOn {α : Type} [BEq α] (sep : α) (items : List α) :
    (items.splitOn sep).flatten = items.filter (· != sep) := by
  induction items with
  | nil => rfl
  | cons a items ih =>
      rw [List.splitOn_cons_eq_if_modifyHead, List.filter_cons]
      cases hsep : a == sep with
      | true => simpa [bne, hsep] using ih
      | false =>
          obtain ⟨first, others, hsplit⟩ := List.exists_cons_of_ne_nil
            (List.splitOn_ne_nil sep items)
          rw [hsplit] at ih ⊢
          simpa [bne, hsep] using ih

/-- There is no separator in a part. -/
theorem not_mem_of_mem_splitOn {α : Type} [BEq α] [LawfulBEq α] {sep : α} {items part : List α}
    (hpart : part ∈ items.splitOn sep) : sep ∉ part := by
  intro hmem
  have hkept : sep ∈ items.filter (· != sep) := by
    rw [← flatten_splitOn]
    exact List.mem_flatten.mpr ⟨part, hpart, hmem⟩
  exact bne_iff_ne.mp (List.mem_filter.mp hkept).2 rfl

section Splitting

variable {α β : Type} [BEq α] [LawfulBEq α]

theorem splitOn_concat {sep a : α} (hne : a ≠ sep) (items : List α) :
    ∃ front last, items.splitOn sep = front ++ [last] ∧
      (items ++ [a]).splitOn sep = front ++ [last ++ [a]] := by
  have hsingle : ∀ part : List α, sep ∉ part →
      part.splitOn sep = [part] ∧ (part ++ [a]).splitOn sep = [part ++ [a]] := by
    intro part hpart
    refine ⟨List.splitOn_eq_singleton hpart, List.splitOn_eq_singleton fun hmem => ?_⟩
    rcases List.mem_append.mp hmem with hmem | hmem
    · exact hpart hmem
    · exact hne (List.mem_singleton.mp hmem).symm
  by_cases hmem : sep ∈ items
  · obtain ⟨front, back, rfl, hback⟩ : ∃ front back, items = front ++ sep :: back ∧ sep ∉ back := by
      obtain ⟨back, front, hreverse, hback⟩ :=
        List.eq_append_cons_of_mem (List.mem_reverse.mpr hmem)
      refine ⟨front.reverse, back.reverse, ?_, fun h => hback (List.mem_reverse.mp h)⟩
      rw [← List.reverse_reverse items, hreverse]
      simp
    obtain ⟨hwhole, hlonger⟩ := hsingle back hback
    refine ⟨front.splitOn sep, back, ?_, ?_⟩
    · rw [List.splitOn_append_cons_self, hwhole]
    · rw [List.append_assoc, List.cons_append, List.splitOn_append_cons_self, hlonger]
  · obtain ⟨hwhole, hlonger⟩ := hsingle items hmem
    exact ⟨[], items, hwhole, hlonger⟩

/-- Where items at the ends of the parts do not matter, items at the ends of the whole do
not either. -/
theorem map_splitOn_dropWhile {sep : α} {p : α → Bool} {f : List α → β} (hsep : p sep = false)
    (hf : ∀ a items, p a = true → f (a :: items) = f items) (items : List α) :
    ((items.dropWhile p).splitOn sep).map f = (items.splitOn sep).map f := by
  induction items with
  | nil => rfl
  | cons a items ih =>
      rw [List.dropWhile_cons]
      split
      · rename_i ha
        have hne : (a == sep) = false := by
          rw [beq_eq_false_iff_ne]
          rintro rfl
          rw [hsep] at ha
          cases ha
        obtain ⟨first, others, hsplit⟩ := List.exists_cons_of_ne_nil
          (List.splitOn_ne_nil sep items)
        rw [ih, List.splitOn_cons_eq_if_modifyHead, hne, hsplit]
        simp [hf a first ha]
      · rfl

theorem map_splitOn_rdropWhile {sep : α} {p : α → Bool} {f : List α → β} (hsep : p sep = false)
    (hf : ∀ a items, p a = true → f (items ++ [a]) = f items) (items : List α) :
    ((items.rdropWhile p).splitOn sep).map f = (items.splitOn sep).map f := by
  induction items using List.reverseRecOn with
  | nil => rfl
  | append_singleton items a ih =>
      rw [List.rdropWhile_concat]
      split
      · rename_i ha
        have hne : a ≠ sep := by
          rintro rfl
          rw [hsep] at ha
          cases ha
        obtain ⟨front, last, hsplit, hlonger⟩ := splitOn_concat hne items
        rw [ih, hsplit, hlonger, List.map_append, List.map_append, List.map_singleton,
          List.map_singleton, hf a last ha]
      · rfl

end Splitting

end Sape.Foundation
