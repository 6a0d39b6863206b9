/-
  Foundation/LineReader.lean --- reading up to a delimiter through a buffer.

  A source hands out its items in pieces, one for each read.  A buffered reader reads
  only when its buffer is empty, so what it has taken off the source is settled by
  how much it has handed out (`seek`), and so is what is left behind in its buffer
  when it is dropped.

  WHAT IS PROVED.

      splitLine_eq_some   what is split off a stream ends in its only delimiter
      linesOf_eq          the lines of a stream are its first line and those behind it
      readUntil_line      what is handed out depends on the stream, not on its pieces
      readUntil_seek      where the reader then stands depends on the amount alone
      readUntil_of_line   reading a line that is there, from anywhere in the stream
      buffer_seek_iff     a reader's buffer is empty exactly where a piece ends
-/
import Mathlib.Data.List.Basic

set_option autoImplicit false

namespace Sape.Foundation

variable {α : Type}

/-- A buffered reader: what it holds, and what the reads to come return. -/
structure BufReader (α : Type) where
  buffer : List α := []
  pending : List (List α)
  deriving DecidableEq, Repr

/-- All that is still to be handed out. -/
def BufReader.rest (reader : BufReader α) : List α := reader.buffer ++ reader.pending.flatten

/-- The first line, with its delimiter, if there is one. -/
def splitLine [DecidableEq α] (delim : α) : List α → Option (List α × List α)
  | [] => none
  | a :: items =>
      if a = delim then some ([a], items)
      else (splitLine delim items).map fun (line, rest) => (a :: line, rest)

/-- The lines of a stream, with their delimiters; the last one may have none. -/
def linesOf [DecidableEq α] (delim : α) : List α → List (List α)
  | [] => []
  | a :: items =>
      if a = delim then [a] :: linesOf delim items
      else
        match linesOf delim items with
        | [] => [[a]]
        | line :: lines => (a :: line) :: lines

/-- A whole line: one delimiter, at its end. -/
def IsLine [DecidableEq α] (delim : α) (line : List α) : Prop :=
  splitLine delim line = some (line, [])

instance [DecidableEq α] (delim : α) (line : List α) : Decidable (IsLine delim line) :=
  inferInstanceAs (Decidable (_ = _))

/-- Read up to and including the delimiter, or to the end of the stream. -/
def readUntil [DecidableEq α] (delim : α) (buffer : List α) :
    List (List α) → List α × BufReader α
  | [] =>
      match splitLine delim buffer with
      | some (line, rest) => (line, { buffer := rest, pending := [] })
      | none => (buffer, { buffer := [], pending := [] })
  | piece :: pending =>
      match splitLine delim buffer with
      | some (line, rest) => (line, { buffer := rest, pending := piece :: pending })
      | none =>
          let (line, reader) := readUntil delim piece pending
          (buffer ++ line, reader)

/-- `readUntil`, of a reader. -/
def BufReader.readUntil [DecidableEq α] (delim : α) (reader : BufReader α) :
    List α × BufReader α :=
  Sape.Foundation.readUntil delim reader.buffer reader.pending

/-- Where a reader stands once it has handed out `count` items. -/
def seek (count : Nat) : List (List α) → BufReader α
  | [] => { buffer := [], pending := [] }
  | piece :: pending =>
      if count = 0 then { buffer := [], pending := piece :: pending }
      else if count ≤ piece.length then { buffer := piece.drop count, pending := pending }
      else seek (count - piece.length) pending

/-! ## Lines -/

section Lines

variable [DecidableEq α] {delim : α}

/-- A line ends in its only delimiter, and is split off what it is in front of. -/
theorem splitLine_eq_some {items line rest : List α} :
    splitLine delim items = some (line, rest) ↔
      items = line ++ rest ∧ ∃ front, line = front ++ [delim] ∧ delim ∉ front := by
  induction items generalizing line with
  | nil =>
      constructor
      · intro h
        cases h
      · rintro ⟨hnil, front, rfl, -⟩
        simp at hnil
  | cons a items ih =>
      rw [splitLine]
      split
      · rename_i heq
        subst heq
        constructor
        · intro h
          obtain ⟨rfl, rfl⟩ := Prod.mk.inj (Option.some.inj h)
          exact ⟨rfl, [], rfl, List.not_mem_nil⟩
        · rintro ⟨hitems, front, rfl, hfront⟩
          cases front with
          | nil =>
              obtain rfl := (List.cons.inj hitems).2
              rfl
          | cons b front =>
              obtain rfl := (List.cons.inj hitems).1
              exact absurd List.mem_cons_self hfront
      · rename_i hne
        rw [Option.map_eq_some_iff]
        constructor
        · rintro ⟨⟨tail, rest'⟩, htail, heq⟩
          obtain ⟨rfl, rfl⟩ := Prod.mk.inj heq
          obtain ⟨rfl, front, rfl, hfront⟩ := ih.mp htail
          exact ⟨rfl, a :: front, rfl,
            List.not_mem_cons_of_ne_of_not_mem (fun h => hne h.symm) hfront⟩
        · rintro ⟨hitems, front, rfl, hfront⟩
          cases front with
          | nil =>
              obtain rfl := (List.cons.inj hitems).1
              exact absurd rfl hne
          | cons b front =>
              obtain ⟨rfl, hrest⟩ := List.cons.inj hitems
              have htail := ih.mpr ⟨hrest, front, rfl, List.not_mem_of_not_mem_cons hfront⟩
              exact ⟨_, htail, rfl⟩

theorem splitLine_some {items line rest : List α} (h : splitLine delim items = some (line, rest)) :
    items = line ++ rest ∧ 0 < line.length := by
  obtain ⟨hitems, front, rfl, -⟩ := splitLine_eq_some.mp h
  exact ⟨hitems, by simp⟩

/-- A line at the front of a stream is found there, whatever follows. -/
theorem splitLine_append_of_some {items line rest : List α}
    (h : splitLine delim items = some (line, rest)) (more : List α) :
    splitLine delim (items ++ more) = some (line, rest ++ more) := by
  obtain ⟨rfl, hline⟩ := splitLine_eq_some.mp h
  exact splitLine_eq_some.mpr ⟨List.append_assoc .., hline⟩

/-- In front of a stream, items without a delimiter belong to its first line. -/
theorem splitLine_append_of_none {items : List α} (h : splitLine delim items = none)
    (more : List α) :
    splitLine delim (items ++ more) =
      (splitLine delim more).map fun (line, rest) => (items ++ line, rest) := by
  induction items with
  | nil => simp
  | cons a items ih =>
      simp only [splitLine, List.cons_append] at h ⊢
      split at h
      · cases h
      · rename_i hne
        rw [if_neg hne, ih (Option.map_eq_none_iff.mp h), Option.map_map]
        rfl

/-- What is split off is a whole line. -/
theorem isLine_of_splitLine {items line rest : List α}
    (h : splitLine delim items = some (line, rest)) : IsLine delim line :=
  splitLine_eq_some.mpr ⟨(List.append_nil line).symm, (splitLine_eq_some.mp h).2⟩

/-- A stream is made of its lines. -/
theorem flatten_linesOf (delim : α) (items : List α) : (linesOf delim items).flatten = items := by
  induction items with
  | nil => rfl
  | cons a items ih =>
      rw [linesOf]
      split
      · rw [List.flatten_cons, ih, List.singleton_append]
      · cases hlines : linesOf delim items with
        | nil =>
            rw [hlines] at ih
            rw [← ih]
            rfl
        | cons line lines =>
            rw [hlines] at ih
            simpa using ih

/-- The lines of a stream are its first line and those behind it, or all of it where there is
no delimiter. -/
theorem linesOf_eq (delim : α) (items : List α) :
    linesOf delim items =
      match splitLine delim items with
      | some (line, rest) => line :: linesOf delim rest
      | none => if items.isEmpty then [] else [items] := by
  induction items with
  | nil => rfl
  | cons a items ih =>
      rw [linesOf, splitLine]
      split
      · rfl
      · rw [ih]
        cases hsplit : splitLine delim items with
        | some found => rfl
        | none =>
            cases items with
            | nil => rfl
            | cons b items => rfl

theorem linesOf_append {line : List α} (h : IsLine delim line) (rest : List α) :
    linesOf delim (line ++ rest) = line :: linesOf delim rest := by
  rw [linesOf_eq, splitLine_append_of_some h]
  rfl

theorem linesOf_flatten_append {lines : List (List α)} (h : ∀ line ∈ lines, IsLine delim line)
    (rest : List α) :
    linesOf delim (lines.flatten ++ rest) = lines ++ linesOf delim rest := by
  induction lines with
  | nil => rfl
  | cons line lines ih =>
      obtain ⟨hline, hlines⟩ := List.forall_mem_cons.mp h
      rw [List.flatten_cons, List.append_assoc, linesOf_append hline, ih hlines]
      rfl

/-- Behind its first line, a stream has the lines that are left; a line that others follow is
whole. -/
theorem linesOf_cons {items line : List α} {lines : List (List α)}
    (h : linesOf delim items = line :: lines) :
    items = line ++ lines.flatten ∧ linesOf delim lines.flatten = lines ∧
      (IsLine delim line ∨ lines = []) := by
  have hitems : items = line ++ lines.flatten := by
    rw [← flatten_linesOf delim items, h, List.flatten_cons]
  rw [linesOf_eq] at h
  cases hsplit : splitLine delim items with
  | some found =>
      obtain ⟨first, rest⟩ := found
      rw [hsplit] at h
      obtain ⟨rfl, rfl⟩ := List.cons.inj h
      exact ⟨hitems, by rw [flatten_linesOf], .inl (isLine_of_splitLine hsplit)⟩
  | none =>
      rw [hsplit] at h
      dsimp only at h
      split at h
      · cases h
      · obtain ⟨-, rfl⟩ := List.cons.inj h
        exact ⟨hitems, rfl, .inr rfl⟩

/-- The first line of a stream, or all of it. -/
def lineOf (delim : α) (items : List α) : List α :=
  ((splitLine delim items).map Prod.fst).getD items

theorem lineOf_of_linesOf {items line : List α} {lines : List (List α)}
    (h : linesOf delim items = line :: lines) : lineOf delim items = line := by
  rw [linesOf_eq] at h
  unfold lineOf
  cases hsplit : splitLine delim items with
  | some found =>
      rw [hsplit] at h
      exact (List.cons.inj h).1
  | none =>
      rw [hsplit] at h
      dsimp only at h
      split at h
      · cases h
      · exact (List.cons.inj h).1

theorem lineOf_append {line : List α} (h : IsLine delim line) (rest : List α) :
    lineOf delim (line ++ rest) = line := by
  unfold lineOf
  rw [splitLine_append_of_some h]
  rfl

theorem lineOf_pos {items : List α} (hne : items ≠ []) : 0 < (lineOf delim items).length := by
  unfold lineOf
  cases hsplit : splitLine delim items with
  | none => exact List.length_pos_iff.mpr hne
  | some found => exact (splitLine_some hsplit).2

end Lines

/-! ## Reading -/

section Reading

/-- A piece that is used up, and the reader's position in what follows it. -/
theorem seek_of_used {piece : List α} {count more : Nat} (hcount : count ≤ piece.length)
    (hmore : 0 < more) (pending : List (List α)) :
    seek (count + ((piece.drop count).length + more)) (piece :: pending) = seek more pending := by
  simp only [seek, List.length_drop]
  rw [if_neg (by omega), if_neg (by omega)]
  congr 1
  omega

variable [DecidableEq α] {delim : α}

/-- What is handed out is the first line of what there is. -/
theorem readUntil_line (buffer : List α) (pending : List (List α)) :
    (readUntil delim buffer pending).1 = lineOf delim (buffer ++ pending.flatten) := by
  induction pending generalizing buffer with
  | nil =>
      unfold readUntil lineOf
      rw [List.flatten_nil, List.append_nil]
      cases splitLine delim buffer <;> rfl
  | cons piece pending ih =>
      unfold readUntil
      cases hsplit : splitLine delim buffer with
      | some found =>
          obtain ⟨line, rest⟩ := found
          simp only [lineOf, splitLine_append_of_some hsplit, Option.map_some, Option.getD_some]
      | none =>
          simp only [ih piece, lineOf, splitLine_append_of_none hsplit, List.flatten_cons]
          cases splitLine delim (piece ++ pending.flatten) <;> rfl

/-- Nothing is lost in reading. -/
theorem readUntil_rest (delim : α) (buffer : List α) (pending : List (List α)) :
    (readUntil delim buffer pending).1 ++ (readUntil delim buffer pending).2.rest =
      buffer ++ pending.flatten := by
  induction pending generalizing buffer with
  | nil =>
      unfold readUntil
      cases hsplit : splitLine delim buffer with
      | some found => simp [BufReader.rest, (splitLine_some hsplit).1]
      | none => simp [BufReader.rest]
  | cons piece pending ih =>
      unfold readUntil
      cases hsplit : splitLine delim buffer with
      | some found => simp [BufReader.rest, (splitLine_some hsplit).1]
      | none => simp only [List.append_assoc, ih piece, List.flatten_cons]

theorem seek_of_split {piece line rest : List α} {count : Nat} (hcount : count ≤ piece.length)
    (hsplit : splitLine delim (piece.drop count) = some (line, rest)) (pending : List (List α)) :
    { buffer := rest, pending := pending } = seek (count + line.length) (piece :: pending) := by
  obtain ⟨hpiece, hline⟩ := splitLine_some hsplit
  have hlen : count + line.length ≤ piece.length := by
    have hdrop := congrArg List.length hpiece
    rw [List.length_drop, List.length_append] at hdrop
    omega
  have hrest : piece.drop (count + line.length) = rest := by
    rw [← List.drop_drop, hpiece, List.drop_left]
  simp only [seek]
  rw [if_neg (by omega), if_pos hlen, hrest]

theorem readUntil_drop {pending : List (List α)} (hne : ∀ piece ∈ pending, piece ≠ [])
    (piece : List α) {count : Nat} (hcount : count ≤ piece.length)
    (hpos : 0 < count + (readUntil delim (piece.drop count) pending).1.length) :
    (readUntil delim (piece.drop count) pending).2 =
      seek (count + (readUntil delim (piece.drop count) pending).1.length) (piece :: pending) := by
  induction pending generalizing piece count with
  | nil =>
      cases hsplit : splitLine delim (piece.drop count) with
      | some found =>
          obtain ⟨line, rest⟩ := found
          simp only [readUntil, hsplit]
          exact seek_of_split hcount hsplit []
      | none =>
          simp only [readUntil, hsplit, List.length_drop, Nat.add_sub_cancel' hcount] at hpos ⊢
          simp only [seek]
          rw [if_neg (by omega), if_pos (Nat.le_refl _), List.drop_length]
  | cons next pending ih =>
      cases hsplit : splitLine delim (piece.drop count) with
      | some found =>
          -- the delimiter is in the buffer
          obtain ⟨line, rest⟩ := found
          simp only [readUntil, hsplit]
          exact seek_of_split hcount hsplit (next :: pending)
      | none =>
          -- the buffer is used up, and the next piece is read
          have hnext : next ≠ [] := hne next List.mem_cons_self
          have hread : 0 < (readUntil delim next pending).1.length := by
            rw [readUntil_line]
            exact lineOf_pos (by simp [hnext])
          simp only [readUntil, hsplit, List.length_append]
          rw [seek_of_used hcount hread]
          have hdrop := ih (fun p hp => hne p (List.mem_cons_of_mem _ hp)) next (Nat.zero_le _)
            (by rw [List.drop_zero]; omega)
          rwa [List.drop_zero, Nat.zero_add] at hdrop

/-- Where a reader stands depends on the amount it has handed out alone. -/
theorem readUntil_seek (delim : α) {reads : List (List α)} (hne : ∀ piece ∈ reads, piece ≠ [])
    (count : Nat) :
    ((seek count reads).readUntil delim).2 =
      seek (count + ((seek count reads).readUntil delim).1.length) reads := by
  induction reads generalizing count with
  | nil => rfl
  | cons piece reads ih =>
      have hrest : ∀ piece ∈ reads, piece ≠ [] := fun p hp => hne p (List.mem_cons_of_mem _ hp)
      by_cases hzero : count = 0
      · subst hzero
        have hline : 0 < (readUntil delim piece reads).1.length := by
          rw [readUntil_line]
          exact lineOf_pos (by simp [hne piece List.mem_cons_self])
        have hpos : 0 < 0 + (readUntil delim (piece.drop 0) reads).1.length := by
          rw [List.drop_zero]
          omega
        have hdrop := readUntil_drop hrest piece (Nat.zero_le _) hpos
        rw [List.drop_zero] at hdrop
        simpa [BufReader.readUntil, seek, readUntil, splitLine] using hdrop
      · by_cases hle : count ≤ piece.length
        · have hseek : seek count (piece :: reads) =
              { buffer := piece.drop count, pending := reads } := by
            simp only [seek, if_neg hzero, if_pos hle]
          rw [hseek]
          exact readUntil_drop hrest piece hle (by omega)
        · have hseek : seek count (piece :: reads) = seek (count - piece.length) reads := by
            simp only [seek, if_neg hzero, if_neg hle]
          rw [hseek, ih hrest]
          simp only [seek]
          rw [if_neg (by omega), if_neg (by omega)]
          congr 1
          omega

end Reading

/-! ## What is left -/

theorem seek_rest {reads : List (List α)} {count : Nat} (hcount : count ≤ reads.flatten.length) :
    (seek count reads).rest = reads.flatten.drop count := by
  induction reads generalizing count with
  | nil => simp [seek, BufReader.rest]
  | cons piece reads ih =>
      simp only [seek, List.flatten_cons]
      split
      · rename_i hzero
        rw [hzero]
        rfl
      · split
        · rename_i hle
          rw [List.drop_append_of_le_length hle]
          rfl
        · rename_i hle
          rw [List.flatten_cons, List.length_append] at hcount
          rw [ih (by omega), List.drop_append, List.drop_eq_nil_of_le (Nat.le_of_not_le hle),
            List.nil_append]

/-- The reads end a piece after `count` items. -/
def CutAt (count : Nat) (reads : List (List α)) : Prop :=
  ∃ front back, reads = front ++ back ∧ front.flatten.length = count

theorem buffer_seek_iff {reads : List (List α)} {count : Nat}
    (hcount : count ≤ reads.flatten.length) :
    (seek count reads).buffer = [] ↔ CutAt count reads := by
  induction reads generalizing count with
  | nil =>
      obtain rfl : count = 0 := Nat.le_zero.mp hcount
      exact ⟨fun _ => ⟨[], [], rfl, rfl⟩, fun _ => rfl⟩
  | cons piece reads ih =>
      rw [List.flatten_cons, List.length_append] at hcount
      simp only [seek]
      split
      · rename_i hzero
        exact ⟨fun _ => ⟨[], piece :: reads, rfl, hzero.symm⟩, fun _ => rfl⟩
      · rename_i hzero
        split
        · rename_i hle
          simp only [List.drop_eq_nil_iff]
          constructor
          · intro hge
            exact ⟨[piece], reads, rfl, by simp; omega⟩
          · rintro ⟨front, back, heq, hlen⟩
            cases front with
            | nil => exact absurd hlen.symm hzero
            | cons first front =>
                obtain ⟨rfl, -⟩ := List.cons.inj heq
                rw [List.flatten_cons, List.length_append] at hlen
                omega
        · rename_i hle
          rw [ih (by omega)]
          constructor
          · rintro ⟨front, back, rfl, hlen⟩
            exact ⟨piece :: front, back, rfl, by
              rw [List.flatten_cons, List.length_append]; omega⟩
          · rintro ⟨front, back, heq, hlen⟩
            cases front with
            | nil => exact absurd hlen.symm hzero
            | cons first front =>
                obtain ⟨rfl, rfl⟩ := List.cons.inj heq
                rw [List.flatten_cons, List.length_append] at hlen
                exact ⟨front, back, rfl, by omega⟩

/-- A line at the place where a reader stands is what it hands out next. -/
theorem readUntil_of_line [DecidableEq α] {delim : α} {reads : List (List α)}
    (hne : ∀ piece ∈ reads, piece ≠ []) {before line after : List α} (hline : IsLine delim line)
    (hstream : reads.flatten = before ++ (line ++ after)) :
    (seek before.length reads).readUntil delim = (line, seek (before ++ line).length reads) := by
  have hcount : before.length ≤ reads.flatten.length := by
    rw [hstream, List.length_append]
    omega
  have hfst : ((seek before.length reads).readUntil delim).1 = line := by
    have hrest := seek_rest hcount
    rw [hstream, List.drop_left] at hrest
    rw [BufReader.readUntil, readUntil_line]
    exact (congrArg (lineOf delim) hrest).trans (lineOf_append hline after)
  have hsnd := readUntil_seek delim hne before.length
  rw [hfst, ← List.length_append] at hsnd
  exact Prod.ext hfst hsnd

end Sape.Foundation
