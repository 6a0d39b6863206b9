/-
  Text.lean --- what the modelled code uses of `char` and `str`.
-/
import Mathlib.Data.List.DropRight

set_option autoImplicit false

namespace Sape

/-- `char::is_whitespace`: the Unicode property White_Space. -/
def isWhitespace (c : Char) : Bool :=
  (0x09 ≤ c.val && c.val ≤ 0x0d) || c.val = 0x20 || c.val = 0x85 || c.val = 0xa0 ||
    c.val = 0x1680 || (0x2000 ≤ c.val && c.val ≤ 0x200a) || c.val = 0x2028 || c.val = 0x2029 ||
    c.val = 0x202f || c.val = 0x205f || c.val = 0x3000

/-- The words of a text whose first word has begun with `word`. -/
def splitWords (word : List Char) : List Char → List (List Char)
  | [] => if word.isEmpty then [] else [word]
  | c :: cs =>
      if isWhitespace c then
        if word.isEmpty then splitWords [] cs else word :: splitWords [] cs
      else splitWords (word ++ [c]) cs

/-- `str::split_whitespace`. -/
def splitWhitespace (s : String) : List String := (splitWords [] s.toList).map String.ofList

/-- `s.trim().is_empty()`. -/
def isBlank (s : String) : Bool := s.toList.all isWhitespace

/-- `str::split` at a character. -/
def strSplit (sep : Char) (s : String) : List String :=
  (s.toList.splitOn sep).map String.ofList

/-- What stands in front of the first separator, and what stands behind it. -/
def splitChars (sep : Char) : List Char → Option (List Char × List Char)
  | [] => none
  | c :: cs =>
      if c = sep then some ([], cs)
      else (splitChars sep cs).map fun (front, back) => (c :: front, back)

/-- `str::split_once` at a character. -/
def splitOnce (sep : Char) (s : String) : Option (String × String) :=
  (splitChars sep s.toList).map fun (front, back) => (String.ofList front, String.ofList back)

/-- `str::rsplit_once` at a character. -/
def rsplitOnce (sep : Char) (s : String) : Option (String × String) :=
  (splitChars sep s.toList.reverse).map fun (back, front) =>
    (String.ofList front.reverse, String.ofList back.reverse)

/-- `str::trim`. -/
def strTrim (s : String) : String :=
  String.ofList ((s.toList.dropWhile isWhitespace).rdropWhile isWhitespace)

/-- `str::strip_prefix`. -/
def stripPrefix (front s : String) : Option String :=
  if front.toList.isPrefixOf s.toList then some (String.ofList (s.toList.drop front.toList.length))
  else none

/-! ## Words -/

/-- Characters that are no white space go on with a word. -/
theorem splitWords_chars {cs : List Char} (hcs : ∀ c ∈ cs, isWhitespace c = false)
    (word rest : List Char) : splitWords word (cs ++ rest) = splitWords (word ++ cs) rest := by
  induction cs generalizing word with
  | nil => rw [List.nil_append, List.append_nil]
  | cons c cs ih =>
      obtain ⟨hc, hrest⟩ := List.forall_mem_cons.mp hcs
      rw [List.cons_append, splitWords, hc, if_neg Bool.false_ne_true, ih hrest, List.append_assoc,
        List.singleton_append]

theorem splitWords_append {word : List Char} (hword : ∀ c ∈ word, isWhitespace c = false)
    (hne : word ≠ []) {c : Char} (hc : isWhitespace c = true) (rest : List Char) :
    splitWords [] (word ++ c :: rest) = word :: splitWords [] rest := by
  rw [splitWords_chars hword, List.nil_append, splitWords, if_pos hc, if_neg (by simpa using hne)]

/-! ## Splitting -/

theorem splitChars_eq_some {sep : Char} {cs front back : List Char} :
    splitChars sep cs = some (front, back) ↔ cs = front ++ sep :: back ∧ sep ∉ front := by
  induction cs generalizing front with
  | nil => simp [splitChars]
  | cons c cs ih =>
      rw [splitChars]
      split
      · rename_i heq
        subst heq
        constructor
        · intro h
          obtain ⟨rfl, rfl⟩ := Prod.mk.inj (Option.some.inj h)
          exact ⟨rfl, List.not_mem_nil⟩
        · rintro ⟨hcs, hnot⟩
          cases front with
          | nil => rw [(List.cons.inj hcs).2]
          | cons first front =>
              exact absurd List.mem_cons_self ((List.cons.inj hcs).1 ▸ hnot)
      · rename_i hne
        rw [Option.map_eq_some_iff]
        constructor
        · rintro ⟨⟨front', back'⟩, hsplit, heq⟩
          obtain ⟨rfl, rfl⟩ := Prod.mk.inj heq
          obtain ⟨rfl, hnot⟩ := ih.mp hsplit
          exact ⟨rfl, List.not_mem_cons_of_ne_of_not_mem (fun h => hne h.symm) hnot⟩
        · rintro ⟨hcs, hnot⟩
          cases front with
          | nil => exact absurd (List.cons.inj hcs).1 hne
          | cons first front =>
              obtain ⟨rfl, rfl⟩ := List.cons.inj hcs
              exact ⟨(front, back), ih.mpr ⟨rfl, List.not_mem_of_not_mem_cons hnot⟩, rfl⟩

theorem splitChars_eq_none {sep : Char} {cs : List Char} :
    splitChars sep cs = none ↔ sep ∉ cs := by
  induction cs with
  | nil => simp [splitChars]
  | cons c cs ih =>
      rw [splitChars, List.mem_cons, not_or]
      split
      · rename_i heq
        simp [heq]
      · rename_i hne
        rw [Option.map_eq_none_iff, ih]
        exact ⟨fun h => ⟨fun heq => hne heq.symm, h⟩, And.right⟩

/-- A text is split at the first separator. -/
theorem splitOnce_eq_some {sep : Char} {s front back : String} :
    splitOnce sep s = some (front, back) ↔
      s.toList = front.toList ++ sep :: back.toList ∧ sep ∉ front.toList := by
  rw [← splitChars_eq_some, splitOnce, Option.map_eq_some_iff]
  constructor
  · rintro ⟨⟨front', back'⟩, hsplit, heq⟩
    obtain ⟨rfl, rfl⟩ := Prod.mk.inj heq
    rw [hsplit, String.toList_ofList, String.toList_ofList]
  · intro hsplit
    exact ⟨_, hsplit, by simp⟩

/-- A text is split at the last separator. -/
theorem rsplitOnce_eq_some {sep : Char} {s front back : String} :
    rsplitOnce sep s = some (front, back) ↔
      s.toList = front.toList ++ sep :: back.toList ∧ sep ∉ back.toList := by
  have hreverse : splitChars sep s.toList.reverse =
        some (back.toList.reverse, front.toList.reverse) ↔
      s.toList = front.toList ++ sep :: back.toList ∧ sep ∉ back.toList := by
    rw [splitChars_eq_some, List.mem_reverse]
    refine and_congr_left fun _ => ?_
    rw [← List.reverse_inj]
    simp
  rw [← hreverse, rsplitOnce, Option.map_eq_some_iff]
  constructor
  · rintro ⟨⟨back', front'⟩, hsplit, heq⟩
    obtain ⟨rfl, rfl⟩ := Prod.mk.inj heq
    rw [hsplit]
    simp
  · intro hsplit
    exact ⟨_, hsplit, by simp⟩

/-- A text without the separator is not split. -/
theorem rsplitOnce_eq_none {sep : Char} {s : String} :
    rsplitOnce sep s = none ↔ sep ∉ s.toList := by
  rw [rsplitOnce, Option.map_eq_none_iff, splitChars_eq_none, List.mem_reverse]

theorem stripPrefix_append (front rest : String) :
    stripPrefix front (front ++ rest) = some rest := by
  unfold stripPrefix
  rw [String.toList_append, if_pos (List.isPrefixOf_iff_prefix.mpr (List.prefix_append _ _)),
    List.drop_left, String.ofList_toList]

theorem stripPrefix_eq_none {front s : String} :
    stripPrefix front s = none ↔ ¬ front.toList <+: s.toList := by
  unfold stripPrefix
  rw [← List.isPrefixOf_iff_prefix]
  split <;> simp [*]

/-! ## Trimming -/

theorem strTrim_cons {c : Char} (hc : isWhitespace c = true) (cs : List Char) :
    strTrim (String.ofList (c :: cs)) = strTrim (String.ofList cs) := by
  simp [strTrim, hc]

theorem strTrim_concat {c : Char} (hc : isWhitespace c = true) (cs : List Char) :
    strTrim (String.ofList (cs ++ [c])) = strTrim (String.ofList cs) := by
  simp only [strTrim, String.toList_ofList, List.dropWhile_append]
  split
  · rename_i hempty
    rw [List.isEmpty_iff.mp hempty]
    simp [hc]
  · rw [List.rdropWhile_concat_pos _ _ _ hc]

/-- Trimming leaves nothing exactly of white space. -/
theorem strTrim_isEmpty (s : String) : (strTrim s).isEmpty = isBlank s := by
  have hiff : strTrim s = "" ↔ isBlank s = true := by
    rw [← String.toList_inj, strTrim, String.toList_ofList, isBlank, List.all_eq_true]
    constructor
    · intro h c hmem
      rw [String.toList_empty, List.rdropWhile_eq_nil_iff] at h
      by_contra hc
      have hdrop : s.toList.dropWhile isWhitespace ≠ [] := fun hnil =>
        hc (List.dropWhile_eq_nil_iff.mp hnil c hmem)
      have hpos := List.length_pos_iff.mpr hdrop
      exact List.dropWhile_get_zero_not isWhitespace s.toList hpos (h _ (List.get_mem _ _))
    · intro h
      rw [List.dropWhile_eq_nil_iff.mpr h]
      rfl
  rw [Bool.eq_iff_iff, String.isEmpty_iff, hiff]

theorem strTrim_eq_self_iff {s : String} :
    strTrim s = s ↔ (∀ c ∈ s.toList.head?, isWhitespace c = false) ∧
      ∀ c ∈ s.toList.getLast?, isWhitespace c = false := by
  rw [← String.toList_inj, strTrim, String.toList_ofList]
  generalize s.toList = cs
  constructor
  · intro h
    have hfront : cs.dropWhile isWhitespace = cs := by
      apply List.IsSuffix.eq_of_length_le (List.dropWhile_suffix isWhitespace)
      calc cs.length
        _ = ((cs.dropWhile isWhitespace).rdropWhile isWhitespace).length := by rw [h]
        _ ≤ (cs.dropWhile isWhitespace).length := (List.rdropWhile_prefix _ _).length_le
    rw [hfront] at h
    constructor
    · intro c hc
      have hfirst := List.head?_dropWhile_not isWhitespace cs
      rw [hfront, Option.mem_def.mp hc] at hfirst
      exact hfirst
    · intro c hc
      obtain ⟨hne, rfl⟩ := List.mem_getLast?_eq_getLast hc
      exact Bool.eq_false_iff.mpr (List.rdropWhile_eq_self_iff.mp h hne)
  · rintro ⟨hhead, hlast⟩
    have hfront : cs.dropWhile isWhitespace = cs := by
      cases cs with
      | nil => rfl
      | cons first rest => exact List.dropWhile_cons_of_neg (by simp [hhead first rfl])
    rw [hfront, List.rdropWhile_eq_self_iff]
    intro hne
    rw [hlast _ (List.getLast_mem_getLast? hne)]
    exact Bool.false_ne_true

/-- Trimming once is enough. -/
theorem strTrim_strTrim (s : String) : strTrim (strTrim s) = strTrim s := by
  rw [strTrim_eq_self_iff, strTrim, String.toList_ofList]
  constructor
  · intro c hc
    obtain ⟨rest, hrest⟩ := List.rdropWhile_prefix isWhitespace (s.toList.dropWhile isWhitespace)
    have hfirst := List.head?_dropWhile_not isWhitespace s.toList
    rw [← hrest, List.head?_append, Option.mem_def.mp hc] at hfirst
    exact hfirst
  · intro c hc
    obtain ⟨hne, rfl⟩ := List.mem_getLast?_eq_getLast hc
    exact Bool.eq_false_iff.mpr (List.rdropWhile_last_not _ _ hne)

/-! ## Numbers -/

/-- `char::to_digit(10)`. -/
def toDigit (c : Char) : Option Nat := if c.isDigit then some (c.toNat - 48) else none

/-- The loop of `u8::from_str`: digits behind the value read so far, in checked arithmetic. -/
def digitsU8 (value : Nat) : List Char → Option Nat
  | [] => some value
  | c :: cs =>
      match toDigit c with
      | none => none
      | some digit =>
          if value * 10 + digit < 256 then digitsU8 (value * 10 + digit) cs else none

/-- `u8::from_str`: digits, with a sign or without. -/
def parseU8 (s : String) : Option Nat :=
  match s.toList with
  | [] => none
  | ['+'] => none
  | '+' :: digits => digitsU8 0 digits
  | digits => digitsU8 0 digits

/-- The loop of the other `from_str`s of unsigned integers, for the numbers below `bound`. -/
def digitsBelow (bound value : Nat) : List Char → Option Nat
  | [] => some value
  | c :: cs =>
      match toDigit c with
      | none => none
      | some digit =>
          if value * 10 + digit < bound then digitsBelow bound (value * 10 + digit) cs else none

/-- `from_str` of an unsigned integer: digits, with a sign or without. -/
def parseBelow (bound : Nat) (s : String) : Option Nat :=
  match s.toList with
  | [] => none
  | ['+'] => none
  | '+' :: digits => digitsBelow bound 0 digits
  | digits => digitsBelow bound 0 digits

/-- `u16::from_str`. -/
def parseU16 (s : String) : Option UInt16 := (parseBelow 65536 s).map UInt16.ofNat

/-- The value of a row of digits, behind a value. -/
def decimal (value : Nat) (digits : List Char) : Nat :=
  digits.foldl (fun value c => value * 10 + (c.toNat - 48)) value

theorem decimal_cons (value : Nat) (c : Char) (cs : List Char) :
    decimal value (c :: cs) = decimal (value * 10 + (c.toNat - 48)) cs := List.foldl_cons ..

theorem le_decimal (digits : List Char) (value : Nat) : value ≤ decimal value digits := by
  induction digits generalizing value with
  | nil => exact Nat.le_refl value
  | cons c cs ih =>
      rw [decimal_cons]
      have hle : value ≤ value * 10 + (c.toNat - 48) := by omega
      exact Nat.le_trans hle (ih _)

theorem digitsBelow_iff {bound : Nat} {digits : List Char} {value n : Nat}
    (hvalue : value < bound) :
    digitsBelow bound value digits = some n ↔
      (∀ c ∈ digits, c.isDigit = true) ∧ decimal value digits = n ∧ n < bound := by
  induction digits generalizing value with
  | nil =>
      constructor
      · intro h
        obtain rfl := Option.some.inj h
        exact ⟨fun c hmem => (by cases hmem), rfl, hvalue⟩
      · rintro ⟨-, rfl, -⟩
        rfl
  | cons c cs ih =>
      rw [digitsBelow, decimal_cons, List.forall_mem_cons]
      cases hdigit : c.isDigit with
      | false => simp [toDigit, hdigit]
      | true =>
          simp only [toDigit, hdigit, if_true, true_and]
          split
          · rename_i hlt
            exact ih hlt
          · rename_i hge
            constructor
            · intro h
              cases h
            · rintro ⟨-, rfl, hlt⟩
              have hle := le_decimal cs (value * 10 + (c.toNat - 48))
              omega

theorem parseBelow_iff {bound : Nat} (hbound : 0 < bound) {s : String} {n : Nat} :
    parseBelow bound s = some n ↔
      ∃ digits, (s.toList = digits ∨ s.toList = '+' :: digits) ∧ digits ≠ [] ∧
        (∀ c ∈ digits, c.isDigit = true) ∧ decimal 0 digits = n ∧ n < bound := by
  unfold parseBelow
  split
  · rename_i hnil
    rw [hnil]
    constructor
    · intro h
      cases h
    · rintro ⟨digits, rfl | h, hne, -⟩
      · exact absurd rfl hne
      · cases h
  · rename_i hplus
    rw [hplus]
    constructor
    · intro h
      cases h
    · rintro ⟨digits, rfl | h, hne, hdigits, -⟩
      · exact absurd (hdigits '+' List.mem_cons_self) (by decide)
      · exact absurd (List.cons.inj h).2.symm hne
  · rename_i digits hne hsigned
    rw [hsigned, digitsBelow_iff hbound]
    constructor
    · rintro ⟨hdigits, hvalue⟩
      exact ⟨digits, .inr rfl, hne, hdigits, hvalue⟩
    · rintro ⟨digits', rfl | h, -, hdigits, hvalue⟩
      · exact absurd (hdigits '+' List.mem_cons_self) (by decide)
      · obtain rfl := (List.cons.inj h).2
        exact ⟨hdigits, hvalue⟩
  · rename_i hnil hplus hsigned
    rw [digitsBelow_iff hbound]
    constructor
    · rintro ⟨hdigits, hvalue⟩
      exact ⟨s.toList, .inl rfl, hnil, hdigits, hvalue⟩
    · rintro ⟨digits, h | h, -, hdigits, hvalue⟩
      · rw [h]
        exact ⟨hdigits, hvalue⟩
      · exact absurd h (hsigned digits)

theorem digitsU8_eq (value : Nat) (digits : List Char) :
    digitsU8 value digits = digitsBelow 256 value digits := by
  induction digits generalizing value with
  | nil => rfl
  | cons c cs ih =>
      simp only [digitsU8, digitsBelow, ih]

theorem parseU8_eq (s : String) : parseU8 s = parseBelow 256 s := by
  unfold parseU8 parseBelow
  simp only [digitsU8_eq]

theorem parseU8_iff {s : String} {n : Nat} :
    parseU8 s = some n ↔
      ∃ digits, (s.toList = digits ∨ s.toList = '+' :: digits) ∧ digits ≠ [] ∧
        (∀ c ∈ digits, c.isDigit = true) ∧ decimal 0 digits = n ∧ n < 256 := by
  rw [parseU8_eq]
  exact parseBelow_iff (by decide)

/-- Only a plus sign and digits are read as a number. -/
theorem isDigit_of_mem_parseBelow {bound : Nat} (hbound : 0 < bound) {s : String} {n : Nat}
    (h : parseBelow bound s = some n) {c : Char} (hmem : c ∈ s.toList) :
    c = '+' ∨ c.isDigit = true := by
  obtain ⟨digits, hdigits | hdigits, -, hall, -⟩ := (parseBelow_iff hbound).mp h
  · exact .inr (hall c (hdigits ▸ hmem))
  · rw [hdigits] at hmem
    exact (List.mem_cons.mp hmem).imp_right (hall c)

/-- A number has no dash in it. -/
theorem dash_not_mem_of_parseU8 {s : String} {n : Nat} (h : parseU8 s = some n) :
    '-' ∉ s.toList := by
  rw [parseU8_eq] at h
  intro hmem
  have := isDigit_of_mem_parseBelow (by decide) h hmem
  revert this
  decide

theorem colon_not_mem_of_parseU16 {s : String} {port : UInt16} (h : parseU16 s = some port) :
    ':' ∉ s.toList := by
  obtain ⟨n, hn, -⟩ := Option.map_eq_some_iff.mp h
  intro hmem
  have := isDigit_of_mem_parseBelow (by decide) hn hmem
  revert this
  decide

/-! ## Printed numbers -/

/-- Digits as they are printed: no zero in front of others. -/
def NoLeadingZero (digits : List Char) : Prop := digits.head? = some '0' → digits = ['0']

instance (digits : List Char) : Decidable (NoLeadingZero digits) :=
  inferInstanceAs (Decidable (_ → _))

theorem decimal_eq_ofDigitChars (digits : List Char) (value : Nat) :
    decimal value digits = Nat.ofDigitChars 10 digits value := by
  rw [decimal, Nat.ofDigitChars_eq_foldl]
  congr 1
  funext value c
  rw [Nat.mul_comm]
  rfl

@[simp] theorem decimal_toDigits (n : Nat) : decimal 0 (Nat.toDigits 10 n) = n := by
  rw [decimal_eq_ofDigitChars, Nat.ofDigitChars_ten_toDigits]

theorem digitChar_of_isDigit {c : Char} (h : c.isDigit = true) :
    c.toNat - 48 < 10 ∧ Nat.digitChar (c.toNat - 48) = c := by
  have hrange : 48 ≤ c.toNat ∧ c.toNat ≤ 57 := Char.isDigit_iff_toNat.mp h
  have hlt : c.toNat - 48 < 10 := by omega
  refine ⟨hlt, Char.toNat_inj.mp ?_⟩
  rw [Nat.toNat_digitChar_of_lt_ten hlt]
  omega

/-- Digits behind a printed number print the number they stand for together. -/
theorem toDigits_append_digits {digits : List Char} (hall : ∀ c ∈ digits, c.isDigit = true)
    {value : Nat} (hvalue : 0 < value) :
    Nat.toDigits 10 value ++ digits = Nat.toDigits 10 (decimal value digits) := by
  induction digits generalizing value with
  | nil => exact List.append_nil _
  | cons c cs ih =>
      obtain ⟨hlt, hchar⟩ := digitChar_of_isDigit (hall c List.mem_cons_self)
      have hstep : Nat.toDigits 10 value ++ [c] =
          Nat.toDigits 10 (value * 10 + (c.toNat - 48)) := by
        have hjoin := Nat.toDigits_append_toDigits (by decide : 1 < 10) hvalue hlt
        rw [Nat.toDigits_of_lt_base hlt, hchar] at hjoin
        rw [hjoin, Nat.mul_comm]
      have hrest := ih (fun c hmem => hall c (List.mem_cons_of_mem _ hmem))
        (show 0 < value * 10 + (c.toNat - 48) by omega)
      rw [decimal_cons, ← hrest, ← hstep, List.append_assoc]
      rfl

/-- A row of digits without a leading zero is how its value is printed. -/
theorem toDigits_decimal {digits : List Char} (hne : digits ≠ [])
    (hall : ∀ c ∈ digits, c.isDigit = true) (hplain : NoLeadingZero digits) :
    Nat.toDigits 10 (decimal 0 digits) = digits := by
  cases digits with
  | nil => exact absurd rfl hne
  | cons c cs =>
      obtain ⟨hlt, hchar⟩ := digitChar_of_isDigit (hall c List.mem_cons_self)
      rw [decimal_cons, Nat.zero_mul, Nat.zero_add]
      by_cases hzero : c = '0'
      · subst hzero
        obtain rfl := (List.cons.inj (hplain rfl)).2
        rfl
      · have hpos : 0 < c.toNat - 48 := by
          apply Nat.pos_of_ne_zero
          intro hnil
          rw [hnil] at hchar
          exact hzero hchar.symm
        rw [← toDigits_append_digits (fun c hmem => hall c (List.mem_cons_of_mem _ hmem)) hpos,
          Nat.toDigits_of_lt_base hlt, hchar]
        rfl

/-- A printed number has no leading zero. -/
theorem noLeadingZero_toDigits (n : Nat) : NoLeadingZero (Nat.toDigits 10 n) := by
  induction n using Nat.strongRecOn with
  | ind n ih =>
      intro hhead
      rw [Nat.toDigits_eq_if (by decide)] at hhead ⊢
      split at hhead
      · rename_i hlt
        rw [if_pos hlt]
        rw [List.head?_cons] at hhead
        rw [Option.some.inj hhead]
      · rename_i hge
        have hfront : (Nat.toDigits 10 (n / 10)).head? = some '0' := by
          rwa [List.head?_append_of_ne_nil _ Nat.toDigits_ne_nil] at hhead
        have hzero := congrArg (decimal 0) (ih (n / 10) (by omega) hfront)
        rw [decimal_toDigits] at hzero
        have hvalue : decimal 0 ['0'] = 0 := rfl
        omega

/-- Digits alone, as they are printed. -/
def PlainDecimal (s : String) : Prop :=
  s.toList ≠ [] ∧ (∀ c ∈ s.toList, c.isDigit = true) ∧ NoLeadingZero s.toList

instance (s : String) : Decidable (PlainDecimal s) :=
  haveI : Decidable (∀ c ∈ s.toList, c.isDigit = true) := List.decidableBAll _ s.toList
  inferInstanceAs (Decidable (_ ∧ _))

theorem toList_toString (n : Nat) : (toString n).toList = Nat.toDigits 10 n := Nat.toList_repr

/-- A number is printed so. -/
theorem plainDecimal_toString (n : Nat) : PlainDecimal (toString n) := by
  unfold PlainDecimal
  rw [toList_toString]
  refine ⟨Nat.toDigits_ne_nil, fun c hmem => ?_, noLeadingZero_toDigits n⟩
  exact Nat.isDigit_of_mem_toDigits (by decide) (by decide) hmem

theorem PlainDecimal.head?_ne {s : String} (h : PlainDecimal s) : s.toList.head? ≠ some '+' := by
  intro hplus
  have hdigit := h.2.1 '+' (List.mem_of_mem_head? hplus)
  revert hdigit
  decide

/-- What is printed is read back, where there is room for it. -/
theorem parseBelow_toString {bound n : Nat} (hn : n < bound) :
    parseBelow bound (toString n) = some n := by
  obtain ⟨hne, hdigits, -⟩ := plainDecimal_toString n
  have hvalue : decimal 0 (toString n).toList = n := by rw [toList_toString, decimal_toDigits]
  exact (parseBelow_iff (Nat.zero_lt_of_lt hn)).mpr
    ⟨(toString n).toList, .inl rfl, hne, hdigits, hvalue, hn⟩

/-- What is read is how the number is printed exactly if it is a plain decimal. -/
theorem eq_toString_iff_plainDecimal {bound : Nat} (hbound : 0 < bound) {s : String} {n : Nat}
    (h : parseBelow bound s = some n) : s = toString n ↔ PlainDecimal s := by
  obtain ⟨digits, hsign, hne, hall, rfl, -⟩ := (parseBelow_iff hbound).mp h
  constructor
  · intro heq
    rw [heq]
    exact plainDecimal_toString _
  · intro hplain
    obtain hs | hs := hsign
    · apply String.toList_injective
      rw [toList_toString, hs]
      exact (toDigits_decimal hne hall (hs ▸ hplain.2.2)).symm
    · exact absurd (congrArg List.head? hs) hplain.head?_ne

theorem eq_toString_iff_of_parseBelow {bound : Nat} (hbound : 0 < bound) {s : String} {n : Nat}
    (h : parseBelow bound s = some n) :
    s = toString n ↔ s.toList.head? ≠ some '+' ∧ NoLeadingZero s.toList := by
  rw [eq_toString_iff_plainDecimal hbound h]
  constructor
  · exact fun hplain => ⟨hplain.head?_ne, hplain.2.2⟩
  · rintro ⟨hplus, hzero⟩
    obtain ⟨digits, rfl | hs, hne, hall, -⟩ := (parseBelow_iff hbound).mp h
    · exact ⟨hne, hall, hzero⟩
    · exact absurd (congrArg List.head? hs) hplus

/-- A port is read back from how it is printed. -/
theorem parseU16_toString (port : UInt16) : parseU16 (toString port) = some port := by
  have hread : parseBelow 65536 (toString port) = some port.toNat :=
    parseBelow_toString port.toNat_lt
  rw [parseU16, hread, Option.map_some, UInt16.ofNat_toNat]

/-- What is read as a port is how the port is printed exactly if it is a plain decimal. -/
theorem eq_toString_iff_of_parseU16 {s : String} {port : UInt16} (h : parseU16 s = some port) :
    s = toString port ↔ PlainDecimal s := by
  obtain ⟨n, hn, rfl⟩ := Option.map_eq_some_iff.mp h
  obtain ⟨-, -, -, -, -, hlt⟩ := (parseBelow_iff (by decide)).mp hn
  have hprinted : toString (UInt16.ofNat n) = toString n :=
    congrArg toString (UInt16.toNat_ofNat_of_lt' hlt)
  rw [hprinted]
  exact eq_toString_iff_plainDecimal (by decide) hn

end Sape
