/-
  Pairing.lean --- `src/pairing.rs` and `DialTarget::from_str` of `src/types.rs`: the codes
  that a listener makes up, and the strings that a dialer takes for one.

  WHAT IS PROVED.

      isPairingCode_iff          a code is a number of at most 99 and two words of the list
      wordCode_generateCode      every code that is made up is one
      codes_canonical_iff        and those that can be made up are what is accepted, but for
                                 signs and leading zeros
      fromStr_eq_pairingCode     only codes are taken for one
      targets_unambiguous        a string can be read as one kind of target at most
-/
import Sape.Client.Dial
import Sape.Foundation.Lists
import Sape.Text

set_option autoImplicit false
set_option maxRecDepth 8000

namespace Sape

open Sape.Foundation

/-! ## Codes -/

/-- `WORDS`. -/
def pairingWords : List String :=
  ["acorn", "adapt", "adobe", "agent", "agile", "amber", "anchor", "apple", "april", "arrow",
    "atlas", "audio", "baker", "basic", "beach", "beacon", "berry", "bison", "blade", "blaze",
    "block", "bloom", "board", "brave", "brick", "brook", "brush", "cabin", "cable", "camel",
    "candy", "cannon", "cargo", "cedar", "charm", "chess", "chili", "cider", "civic", "clean",
    "clerk", "cloud", "coast", "color", "comet", "coral", "crown", "curve", "daily", "daisy",
    "delta", "diner", "dolphin", "donut", "drift", "eager", "eagle", "earth", "elder", "ember",
    "engine", "entry", "equal", "falcon", "fancy", "ferry", "fiber", "field", "final", "flame",
    "flash", "flora", "focus", "forest", "fossil", "frame", "frost", "galaxy", "gamma", "garden",
    "gentle", "glade", "glider", "globe", "golden", "grain", "grape", "grass", "groove", "harbor",
    "hazel", "helium", "hollow", "honey", "hotel", "humble", "iceberg", "iconic", "igloo",
    "island", "ivory", "jacket", "jelly", "jewel", "jolly", "jungle", "kernel", "kiwi", "ladder",
    "laser", "legend", "lemon", "level", "linen", "lively", "lizard", "lobster", "locust", "lunar",
    "magnet", "mango", "maple", "market", "meadow", "melon", "merit", "meteor", "mint", "mosaic",
    "motion", "mount", "museum", "nacho", "native", "nectar", "nickel", "noble", "noodle",
    "normal", "oasis", "ocean", "olive", "onyx", "opal", "orbit", "orchid", "origin", "otter",
    "paddle", "panda", "panel", "paper", "parade", "parcel", "pearl", "pepper", "petal", "phoenix",
    "piano", "pilot", "pixel", "planet", "plaza", "pocket", "poem", "polar", "ponder", "prairie",
    "prism", "pulse", "quartz", "quill", "rabbit", "radar", "raven", "reef", "relay", "ribbon",
    "ripple", "river", "rocket", "royal", "saddle", "sailor", "salmon", "satin", "scenic",
    "shadow", "shiny", "signal", "silver", "simple", "sketch", "solar", "sonic", "spark", "spruce",
    "stable", "star", "stone", "storm", "sunset", "symbol", "tactic", "talon", "tango", "temple",
    "thunder", "timber", "titan", "token", "topaz", "trail", "tulip", "turbo", "ultra", "umbra",
    "unison", "velvet", "vertex", "vessel", "vivid", "voyage", "walnut", "wave", "whale",
    "whisper", "window", "winter", "wizard", "woven", "xenon", "yarrow", "yellow", "yonder",
    "almond", "anthem", "badge", "banjo", "breeze", "button", "canary", "circle", "copper",
    "cosmos", "dynamo", "elmwood", "feather", "gadget", "hammer", "impact", "jasper", "lantern",
    "marble", "nimbus", "zephyr"]

/-- What `generate_code` draws. -/
structure CodeDraw where
  number : Fin 100
  word1 : Fin 256
  word2 : Fin 256
  deriving DecidableEq, Repr, Inhabited

theorem length_pairingWords : pairingWords.length = 256 := rfl

/-- The word at an index. -/
def wordAt (i : Fin 256) : String := pairingWords.get (i.cast length_pairingWords.symm)

/-- `format!("{number}-{word1}-{word2}")`. -/
def joinCode (number word1 word2 : String) : String :=
  number ++ "-" ++ word1 ++ "-" ++ word2

/-- `generate_code`. -/
def generateCode (draw : CodeDraw) : String :=
  joinCode (toString draw.number.val) (wordAt draw.word1) (wordAt draw.word2)

/-- `is_pairing_code`. -/
def isPairingCode (s : String) : Bool :=
  match strSplit '-' s with
  | [numberPart, word1, word2] =>
      (parseU8 numberPart).any (fun n => decide (n ≤ 99)) && pairingWords.contains word1 &&
        pairingWords.contains word2
  | _ => false

/-! ## What a code is -/

/-- A code of three parts is split into them. -/
theorem strSplit_joinCode {number word1 word2 : String} (hnumber : '-' ∉ number.toList)
    (hword1 : '-' ∉ word1.toList) (hword2 : '-' ∉ word2.toList) :
    strSplit '-' (joinCode number word1 word2) = [number, word1, word2] := by
  have hlist : (joinCode number word1 word2).toList =
      number.toList ++ '-' :: (word1.toList ++ '-' :: word2.toList) := by
    simp [joinCode]
  unfold strSplit
  rw [hlist, List.splitOn_append_cons_self_of_not_mem hnumber,
    List.splitOn_append_cons_self_of_not_mem hword1, List.splitOn_eq_singleton hword2]
  simp

/-- What is split into three parts is made of them. -/
theorem eq_joinCode_of_strSplit {s number word1 word2 : String}
    (h : strSplit '-' s = [number, word1, word2]) : s = joinCode number word1 word2 := by
  unfold strSplit at h
  obtain ⟨front, others, hsplit, rfl, hothers⟩ := List.map_eq_cons_iff.mp h
  obtain ⟨middle, last, rfl, rfl, hlast⟩ := List.map_eq_cons_iff.mp hothers
  obtain ⟨back, none, rfl, rfl, hnone⟩ := List.map_eq_cons_iff.mp hlast
  obtain rfl := List.map_eq_nil_iff.mp hnone
  have hjoin : ['-'].intercalate (s.toList.splitOn '-') = s.toList := List.intercalate_splitOn '-'
  rw [hsplit] at hjoin
  apply String.toList_injective
  rw [← hjoin]
  simp [joinCode]

/-- No word of the list has a dash in it. -/
theorem dash_not_mem_of_word {word : String} (h : word ∈ pairingWords) : '-' ∉ word.toList := by
  have hall : pairingWords.all (fun word => !word.toList.contains '-') = true := by decide +kernel
  have hword := List.all_eq_true.mp hall word h
  simpa using hword

/-- A number of at most 99 and two words of the list, joined by dashes. -/
def WordCode (s : String) : Prop :=
  ∃ number word1 word2, s = joinCode number word1 word2 ∧
    (∃ digits, (number.toList = digits ∨ number.toList = '+' :: digits) ∧ digits ≠ [] ∧
      (∀ c ∈ digits, c.isDigit = true) ∧ decimal 0 digits ≤ 99) ∧
    word1 ∈ pairingWords ∧ word2 ∈ pairingWords

theorem any_parseU8_iff {number : String} :
    (parseU8 number).any (fun n => decide (n ≤ 99)) = true ↔
      ∃ digits, (number.toList = digits ∨ number.toList = '+' :: digits) ∧ digits ≠ [] ∧
        (∀ c ∈ digits, c.isDigit = true) ∧ decimal 0 digits ≤ 99 := by
  constructor
  · intro h
    cases hn : parseU8 number with
    | none => rw [hn] at h; cases h
    | some n =>
        rw [hn] at h
        obtain ⟨digits, hsign, hne, hall, hvalue, -⟩ := parseU8_iff.mp hn
        exact ⟨digits, hsign, hne, hall, hvalue ▸ of_decide_eq_true h⟩
  · rintro ⟨digits, hsign, hne, hall, hle⟩
    have hn : parseU8 number = some (decimal 0 digits) :=
      parseU8_iff.mpr ⟨digits, hsign, hne, hall, rfl, by omega⟩
    rw [hn]
    exact decide_eq_true hle

theorem isPairingCode_iff {s : String} : isPairingCode s = true ↔ WordCode s := by
  constructor
  · intro h
    unfold isPairingCode at h
    split at h
    · rename_i number word1 word2 hsplit
      simp only [Bool.and_eq_true, List.contains_iff_mem] at h
      obtain ⟨⟨hnumber, hword1⟩, hword2⟩ := h
      exact ⟨number, word1, word2, eq_joinCode_of_strSplit hsplit,
        any_parseU8_iff.mp hnumber, hword1, hword2⟩
    · cases h
  · rintro ⟨number, word1, word2, rfl, hnumber, hword1, hword2⟩
    have hany := any_parseU8_iff.mpr hnumber
    have hdash : '-' ∉ number.toList := by
      cases hn : parseU8 number with
      | none => rw [hn] at hany; cases hany
      | some n => exact dash_not_mem_of_parseU8 hn
    unfold isPairingCode
    rw [strSplit_joinCode hdash (dash_not_mem_of_word hword1) (dash_not_mem_of_word hword2)]
    simp only [Bool.and_eq_true, List.contains_iff_mem]
    exact ⟨⟨hany, hword1⟩, hword2⟩

/-- The numbers that are drawn are read back. -/
theorem parseU8_draw (number : Fin 100) :
    parseU8 (toString number.val) = some number.val := by
  rw [parseU8_eq]
  exact parseBelow_toString (by omega)

theorem any_parseU8_draw (number : Fin 100) :
    (parseU8 (toString number.val)).any (fun n => decide (n ≤ 99)) = true := by
  rw [parseU8_draw]
  exact decide_eq_true (by omega)

/-- Every code that is made up is a code. -/
theorem wordCode_generateCode (draw : CodeDraw) : WordCode (generateCode draw) :=
  ⟨_, _, _, rfl, any_parseU8_iff.mp (any_parseU8_draw draw.number), List.get_mem _ _,
    List.get_mem _ _⟩

/-! ## Canonical codes -/

/-- A code has a number of at most 99 and two words, and is split into them. -/
theorem isPairingCode_iff_parts {s : String} :
    isPairingCode s = true ↔ ∃ number n word1 word2, s = joinCode number word1 word2 ∧
      strSplit '-' s = [number, word1, word2] ∧ parseU8 number = some n ∧ n ≤ 99 ∧
      word1 ∈ pairingWords ∧ word2 ∈ pairingWords := by
  constructor
  · intro h
    obtain ⟨number, word1, word2, rfl, hnumber, hword1, hword2⟩ := isPairingCode_iff.mp h
    obtain ⟨n, hn, hle⟩ := (Option.any_eq_true _ _).mp (any_parseU8_iff.mpr hnumber)
    exact ⟨number, n, word1, word2, rfl, strSplit_joinCode (dash_not_mem_of_parseU8 hn)
      (dash_not_mem_of_word hword1) (dash_not_mem_of_word hword2), hn, of_decide_eq_true hle,
      hword1, hword2⟩
  · rintro ⟨number, n, word1, word2, rfl, -, hn, hle, hword1, hword2⟩
    have hany : (parseU8 number).any (fun n => decide (n ≤ 99)) = true := by
      rw [hn]
      exact decide_eq_true hle
    exact isPairingCode_iff.mpr
      ⟨number, word1, word2, rfl, any_parseU8_iff.mp hany, hword1, hword2⟩

/-- The number of a code is written plainly: without a sign and without leading zeros. -/
def PlainNumber (number : String) : Prop :=
  number.toList.head? ≠ some '+' ∧ NoLeadingZero number.toList

/-- A number of at most 99 that is not written plainly, and two words of the list. -/
def PaddedCode (s : String) : Prop :=
  ∃ number n word1 word2, s = joinCode number word1 word2 ∧ parseU8 number = some n ∧ n ≤ 99 ∧
    ¬ PlainNumber number ∧ word1 ∈ pairingWords ∧ word2 ∈ pairingWords

/-- The number and the words that a code stands for. -/
def codeMeaning (s : String) : Option (Nat × String × String) :=
  match strSplit '-' s with
  | [number, word1, word2] => (parseU8 number).map fun n => (n, word1, word2)
  | _ => none

theorem plainNumber_iff {number : String} {n : Nat} (h : parseU8 number = some n) :
    PlainNumber number ↔ number = toString n := by
  rw [parseU8_eq] at h
  exact (eq_toString_iff_of_parseBelow (by decide) h).symm

theorem plainNumber_draw (number : Fin 100) : PlainNumber (toString number.val) :=
  (plainNumber_iff (parseU8_draw number)).mpr rfl

/-- Every word of the list can be drawn. -/
theorem wordAt_surjective {word : String} (h : word ∈ pairingWords) : ∃ i, wordAt i = word := by
  obtain ⟨i, hi⟩ := List.mem_iff_get.mp h
  exact ⟨i.cast length_pairingWords, hi⟩

/-- What is made up is split into what was drawn. -/
theorem strSplit_generateCode (draw : CodeDraw) :
    strSplit '-' (generateCode draw) =
      [toString draw.number.val, wordAt draw.word1, wordAt draw.word2] :=
  strSplit_joinCode (dash_not_mem_of_parseU8 (parseU8_draw draw.number))
    (dash_not_mem_of_word (List.get_mem _ _)) (dash_not_mem_of_word (List.get_mem _ _))

/-- A padded code is accepted. -/
theorem isPairingCode_of_padded {s : String} (h : PaddedCode s) : isPairingCode s = true := by
  obtain ⟨number, n, word1, word2, rfl, hn, hle, -, hword1, hword2⟩ := h
  exact isPairingCode_iff_parts.mpr ⟨number, n, word1, word2, rfl,
    strSplit_joinCode (dash_not_mem_of_parseU8 hn) (dash_not_mem_of_word hword1)
      (dash_not_mem_of_word hword2), hn, hle, hword1, hword2⟩

theorem not_padded_generateCode (draw : CodeDraw) : ¬ PaddedCode (generateCode draw) := by
  rintro ⟨number, n, word1, word2, heq, hn, -, hpadded, hword1, hword2⟩
  have hsplit := strSplit_generateCode draw
  rw [heq, strSplit_joinCode (dash_not_mem_of_parseU8 hn) (dash_not_mem_of_word hword1)
    (dash_not_mem_of_word hword2)] at hsplit
  obtain rfl := (List.cons.inj hsplit).1
  exact hpadded (plainNumber_draw draw.number)

/-- A code that is not padded is the one that is made up of its parts. -/
theorem eq_generateCode_of_plain {s : String} (h : isPairingCode s = true)
    (hplain : ¬ PaddedCode s) :
    ∃ draw : CodeDraw, s = generateCode draw ∧
      codeMeaning s = some (draw.number.val, wordAt draw.word1, wordAt draw.word2) := by
  obtain ⟨number, n, word1, word2, hs, hsplit, hn, hle, hword1, hword2⟩ :=
    isPairingCode_iff_parts.mp h
  have hnumber : number = toString n := by
    apply (plainNumber_iff hn).mp
    by_contra hpadded
    exact hplain ⟨number, n, word1, word2, hs, hn, hle, hpadded, hword1, hword2⟩
  obtain ⟨i, rfl⟩ := wordAt_surjective hword1
  obtain ⟨j, rfl⟩ := wordAt_surjective hword2
  refine ⟨⟨⟨n, by omega⟩, i, j⟩, hnumber ▸ hs, ?_⟩
  simp only [codeMeaning, hsplit, hn, Option.map_some]

/-- The strings that are accepted are those that can be made up, but for padded ones; and
of the accepted strings that are not padded, no two stand for the same number and words. -/
theorem codes_canonical_iff (s s' : String) :
    ((isPairingCode s = true ↔ ∃ draw, s = generateCode draw) ↔ ¬ PaddedCode s) ∧
      (isPairingCode s = true → isPairingCode s' = true → ¬ PaddedCode s →
        ¬ PaddedCode s' → codeMeaning s = codeMeaning s' → s = s') := by
  constructor
  · constructor
    · intro hiff hpadded
      obtain ⟨draw, rfl⟩ := hiff.mp (isPairingCode_of_padded hpadded)
      exact not_padded_generateCode draw hpadded
    · intro hplain
      constructor
      · intro h
        obtain ⟨draw, hdraw, -⟩ := eq_generateCode_of_plain h hplain
        exact ⟨draw, hdraw⟩
      · rintro ⟨draw, rfl⟩
        exact isPairingCode_iff.mpr (wordCode_generateCode draw)
  · intro h h' hplain hplain' hmeaning
    obtain ⟨draw, rfl, hdraw⟩ := eq_generateCode_of_plain h hplain
    obtain ⟨draw', rfl, hdraw'⟩ := eq_generateCode_of_plain h' hplain'
    rw [hdraw, hdraw'] at hmeaning
    obtain ⟨hnumber, hwords⟩ := Prod.mk.inj (Option.some.inj hmeaning)
    obtain ⟨hword1, hword2⟩ := Prod.mk.inj hwords
    unfold generateCode
    rw [hnumber, hword1, hword2]

theorem codes_canonical_iff_river :
    isPairingCode "5-river-ocean" = true ∧ ∃ draw, "5-river-ocean" = generateCode draw := by
  have hcode : isPairingCode "5-river-ocean" = true := by decide
  have hplain : ¬ PaddedCode "5-river-ocean" := by
    rintro ⟨number, n, word1, word2, heq, hn, -, hpadded, hword1, hword2⟩
    have hsplit := strSplit_joinCode (dash_not_mem_of_parseU8 hn) (dash_not_mem_of_word hword1)
      (dash_not_mem_of_word hword2)
    rw [← heq] at hsplit
    obtain rfl : "5" = number := (List.cons.inj hsplit).1
    exact hpadded ⟨by decide, fun hzero => by cases hzero⟩
  exact ⟨hcode, ((codes_canonical_iff "5-river-ocean" "").1.mpr hplain).mp hcode⟩

/-- `05-river-ocean` is accepted, cannot be made up, and stands for what `5-river-ocean`
stands for. -/
theorem padded_accepted :
    isPairingCode "05-river-ocean" = true ∧ (¬ ∃ draw, "05-river-ocean" = generateCode draw) ∧
      isPairingCode "5-river-ocean" = true ∧
      codeMeaning "05-river-ocean" = codeMeaning "5-river-ocean" := by
  refine ⟨by decide, ?_, by decide, by decide⟩
  rintro ⟨draw, heq⟩
  have hnumber : "05" = toString draw.number.val :=
    (List.cons.inj ((congrArg (strSplit '-') heq).trans (strSplit_generateCode draw))).1
  have hplain : PlainNumber "05" := hnumber ▸ plainNumber_draw draw.number
  cases hplain.2 rfl

/-! ## Targets -/

/-- `enum DialTargetError`. -/
inductive DialTargetError where
  | invalidPeerId (err : String)
  | invalidMultiaddr (err : String)
  deriving DecidableEq, Repr, Inhabited

/-- The `#[error]` texts. -/
def DialTargetError.text : DialTargetError → String
  | .invalidPeerId err => s!"invalid peer id in /mdns/ address: {err}"
  | .invalidMultiaddr err => s!"invalid multiaddr: {err}"

/-- `DialTarget::from_str`. -/
def DialTarget.fromStr (text : Libp2pText) (s : String) : Except DialTargetError DialTarget :=
  if isPairingCode s then .ok (.pairingCode s)
  else
    match stripPrefix "/mdns/" s with
    | some peerStr =>
        match text.parsePeerId peerStr with
        | .error err => .error (.invalidPeerId err)
        | .ok peer => .ok (.mdns peer)
    | none =>
        match text.parseMultiaddr s with
        | .error err => .error (.invalidMultiaddr err)
        | .ok addr => .ok (.relayCircuit addr)

/-- A target is a pairing code exactly for the strings that are codes, and then the code
is the string. -/
theorem fromStr_eq_pairingCode (text : Libp2pText) {s code : String} :
    DialTarget.fromStr text s = .ok (.pairingCode code) ↔ WordCode s ∧ code = s := by
  unfold DialTarget.fromStr
  rw [← isPairingCode_iff]
  split
  · rename_i hcode
    constructor
    · intro h
      cases h
      exact ⟨hcode, rfl⟩
    · rintro ⟨-, rfl⟩
      rfl
  · rename_i hnot
    refine ⟨fun h => ?_, fun h => absurd h.1 hnot⟩
    split at h
    · split at h <;> cases h
    · split at h <;> cases h

/-! ## The three readings of a target -/

/-- A way to read a target. -/
inductive Reading where
  | pairingCode
  | mdns
  | address
  deriving DecidableEq, Repr, Inhabited

/-- The reading that the string has. -/
def Reading.Applies (text : Libp2pText) (s : String) : Reading → Prop
  | .pairingCode => isPairingCode s = true
  | .mdns => "/mdns/".toList <+: s.toList
  | .address => ∃ addr, text.parseMultiaddr s = .ok addr

/-- What the reading makes of the string; `none` passes it on to the next one. -/
def Reading.read (text : Libp2pText) (s : String) : Reading → Option (Option DialTarget)
  | .pairingCode => if isPairingCode s then some (some (.pairingCode s)) else none
  | .mdns =>
      (stripPrefix "/mdns/" s).map fun peerStr => (text.parsePeerId peerStr).toOption.map .mdns
  | .address => (text.parseMultiaddr s).toOption.map fun addr => some (.relayCircuit addr)

/-- The readings are tried in some order, and the first that applies decides. -/
def DialTarget.tryReadings (text : Libp2pText) (s : String) (order : List Reading) :
    Option DialTarget :=
  (order.findSome? (Reading.read text s)).join

/-- The address that a listener prints for its own network. -/
def lanDialAddress (text : Libp2pText) (self : PeerId) : String := "/mdns/" ++ text.printPeerId self

/-- The text of an address that is not empty starts with a slash and the name of a protocol. -/
def Libp2pText.StartsWithName (text : Libp2pText) (known : String → Prop) : Prop :=
  ∀ s addr, text.parseMultiaddr s = .ok addr → s ≠ "" →
    ∃ name others, known name ∧ strSplit '/' s = "" :: name :: others

/-- A code does not start with a slash. -/
theorem head?_ne_of_isPairingCode {s : String} (h : isPairingCode s = true) :
    ∃ c, s.toList.head? = some c ∧ c ≠ '/' := by
  obtain ⟨number, word1, word2, rfl, ⟨digits, hsign, hne, hall, -⟩, -, -⟩ :=
    isPairingCode_iff.mp h
  have hlist : (joinCode number word1 word2).toList =
      number.toList ++ ('-' :: (word1.toList ++ '-' :: word2.toList)) := by
    simp [joinCode]
  rw [hlist]
  obtain hsign | hsign := hsign
  · cases digits with
    | nil => exact absurd rfl hne
    | cons c cs =>
        refine ⟨c, by rw [hsign]; rfl, ?_⟩
        rintro rfl
        have hslash := hall '/' List.mem_cons_self
        revert hslash
        decide
  · exact ⟨'+', by rw [hsign]; rfl, by decide⟩

/-- What starts with a slash is no code. -/
theorem isPairingCode_of_slash {s : String} (h : s.toList.head? = some '/') :
    isPairingCode s = false := by
  rw [Bool.eq_false_iff]
  intro hcode
  obtain ⟨c, hhead, hne⟩ := head?_ne_of_isPairingCode hcode
  rw [h] at hhead
  exact hne (Option.some.inj hhead).symm

theorem head?_of_mdns {s : String} (h : "/mdns/".toList <+: s.toList) :
    s.toList.head? = some '/' := by
  obtain ⟨rest, hrest⟩ := h
  rw [← hrest]
  rfl

/-- Behind the prefix, the first name is `mdns`. -/
theorem strSplit_of_mdns {s : String} (h : "/mdns/".toList <+: s.toList) :
    ∃ others, strSplit '/' s = "" :: "mdns" :: others := by
  obtain ⟨rest, hrest⟩ := h
  have hsplit : s.toList.splitOn '/' = [] :: "mdns".toList :: rest.splitOn '/' := by
    rw [← hrest]
    rfl
  unfold strSplit
  rw [hsplit]
  exact ⟨_, rfl⟩

theorem head?_of_strSplit {s name : String} {others : List String}
    (h : strSplit '/' s = "" :: name :: others) : s.toList.head? = some '/' := by
  unfold strSplit at h
  obtain ⟨front, back, hsplit, hfront, hback⟩ := List.map_eq_cons_iff.mp h
  obtain ⟨middle, last, rfl, -, -⟩ := List.map_eq_cons_iff.mp hback
  have hjoin : ['/'].intercalate (s.toList.splitOn '/') = s.toList := List.intercalate_splitOn '/'
  have hnil : front = [] := String.ofList_injective hfront
  rw [← hjoin, hsplit, hnil, List.intercalate_cons_cons]
  rfl

/-- A reading that makes something of the string applies to it. -/
theorem Reading.applies_of_read {text : Libp2pText} {s : String} {reading : Reading}
    (h : reading.read text s ≠ none) : reading.Applies text s := by
  cases reading with
  | pairingCode =>
      rw [Reading.read] at h
      split at h
      · rename_i hcode
        exact hcode
      · exact absurd rfl h
  | mdns =>
      by_contra hfront
      exact h (Option.map_eq_none_iff.mpr (stripPrefix_eq_none.mpr hfront))
  | address =>
      rw [Reading.read] at h
      cases hparse : text.parseMultiaddr s with
      | error err =>
          rw [hparse] at h
          exact absurd rfl h
      | ok addr => exact ⟨addr, hparse⟩

/-- The order of the code: `from_str` tries codes, then `/mdns/`, then addresses. -/
theorem tryReadings_fromStr (text : Libp2pText) (s : String) :
    DialTarget.tryReadings text s [.pairingCode, .mdns, .address] =
      (DialTarget.fromStr text s).toOption := by
  unfold DialTarget.fromStr DialTarget.tryReadings
  simp only [List.findSome?_cons, List.findSome?_nil, Reading.read]
  cases isPairingCode s with
  | true => rfl
  | false =>
      simp only [Bool.false_eq_true, if_false]
      cases stripPrefix "/mdns/" s with
      | some peerStr =>
          cases hparse : text.parsePeerId peerStr <;> simp [hparse, Except.toOption]
      | none =>
          cases hparse : text.parseMultiaddr s <;> simp [Except.toOption]

section
variable {text : Libp2pText} {known : String → Prop} (hstart : text.StartsWithName known)
  (hmdns : ¬ known "mdns")
include hstart

/-- The text of an address is no code. -/
theorem isPairingCode_of_address {s : String} {addr : Multiaddr}
    (h : text.parseMultiaddr s = .ok addr) : isPairingCode s = false := by
  by_cases hempty : s = ""
  · subst hempty
    rfl
  · obtain ⟨name, others, -, hsplit⟩ := hstart s addr h hempty
    exact isPairingCode_of_slash (head?_of_strSplit hsplit)

include hmdns

theorem not_mdns_of_address {s : String} {addr : Multiaddr}
    (h : text.parseMultiaddr s = .ok addr) : ¬ "/mdns/".toList <+: s.toList := by
  intro hfront
  obtain ⟨names, hsplit⟩ := strSplit_of_mdns hfront
  have hne : s ≠ "" := by
    rintro rfl
    cases head?_of_mdns hfront
  obtain ⟨name, others, hknown, hsplit'⟩ := hstart s addr h hne
  rw [hsplit] at hsplit'
  obtain rfl := (List.cons.inj (List.cons.inj hsplit').2).1
  exact hmdns hknown

/-- At most one reading applies. -/
theorem Reading.applies_unique {s : String} {first second : Reading}
    (hfirst : first.Applies text s) (hsecond : second.Applies text s) : first = second := by
  have hcode : isPairingCode s = true → "/mdns/".toList <+: s.toList → False := by
    intro hcode hfront
    rw [isPairingCode_of_slash (head?_of_mdns hfront)] at hcode
    cases hcode
  have haddr : ∀ addr, text.parseMultiaddr s = .ok addr → isPairingCode s = true → False := by
    intro addr hparse hcode
    rw [isPairingCode_of_address hstart hparse] at hcode
    cases hcode
  cases first with
  | pairingCode =>
      cases second with
      | pairingCode => rfl
      | mdns => exact (hcode hfirst hsecond).elim
      | address =>
          obtain ⟨addr, hparse⟩ := hsecond
          exact (haddr addr hparse hfirst).elim
  | mdns =>
      cases second with
      | pairingCode => exact (hcode hsecond hfirst).elim
      | mdns => rfl
      | address =>
          obtain ⟨addr, hparse⟩ := hsecond
          exact (not_mdns_of_address hstart hmdns hparse hfirst).elim
  | address =>
      obtain ⟨addr, hparse⟩ := hfirst
      cases second with
      | pairingCode => exact (haddr addr hparse hsecond).elim
      | mdns => exact (not_mdns_of_address hstart hmdns hparse hsecond).elim
      | address => rfl

/-- The order in which the readings are tried makes no difference. -/
theorem tryReadings_eq_fromStr (s : String) {order : List Reading}
    (horder : ∀ reading, reading ∈ order) :
    DialTarget.tryReadings text s order = (DialTarget.fromStr text s).toOption := by
  have hall : ∀ reading : Reading, reading ∈ [Reading.pairingCode, .mdns, .address] := by
    intro reading
    cases reading <;> simp
  rw [← tryReadings_fromStr]
  unfold DialTarget.tryReadings
  rw [findSome?_eq_of_unique horder hall fun first second hfirst hsecond =>
    Reading.applies_unique hstart hmdns (Reading.applies_of_read hfirst)
      (Reading.applies_of_read hsecond)]

omit hmdns in
/-- An address that is read back from its text is the target of that text. -/
theorem fromStr_address {s : String} {addr : Multiaddr} (h : text.parseMultiaddr s = .ok addr)
    (hfront : ¬ "/mdns/".toList <+: s.toList) :
    DialTarget.fromStr text s = .ok (.relayCircuit addr) := by
  unfold DialTarget.fromStr
  rw [isPairingCode_of_address hstart h, stripPrefix_eq_none.mpr hfront]
  simp only [Bool.false_eq_true, if_false, h]

end

/-- A printed peer id that is read back is the target of the address on the own network. -/
theorem fromStr_lanDialAddress {text : Libp2pText} {peer : PeerId}
    (h : text.parsePeerId (text.printPeerId peer) = .ok peer) :
    DialTarget.fromStr text (lanDialAddress text peer) = .ok (.mdns peer) := by
  have hslash : (lanDialAddress text peer).toList.head? = some '/' := by
    unfold lanDialAddress
    rw [String.toList_append]
    rfl
  unfold DialTarget.fromStr
  rw [isPairingCode_of_slash hslash, lanDialAddress, stripPrefix_append]
  simp only [Bool.false_eq_true, if_false, h]

/-- For every string, one of the three readings applies at most, so their order makes no
difference; and what is printed for a peer id or an address is its target. -/
theorem targets_unambiguous {text : Libp2pText} {known : String → Prop}
    (hstart : text.StartsWithName known) (hmdns : ¬ known "mdns") :
    (∀ s, ∀ first second : Reading, first.Applies text s → second.Applies text s →
        first = second) ∧
      (∀ s order, (∀ reading : Reading, reading ∈ order) →
        DialTarget.tryReadings text s order = (DialTarget.fromStr text s).toOption) ∧
      (∀ peer, text.parsePeerId (text.printPeerId peer) = .ok peer →
        DialTarget.fromStr text (lanDialAddress text peer) = .ok (.mdns peer)) ∧
      ∀ addr, text.parseMultiaddr (text.printMultiaddr addr) = .ok addr →
        DialTarget.fromStr text (text.printMultiaddr addr) = .ok (.relayCircuit addr) :=
  ⟨fun _ _ _ hfirst hsecond => Reading.applies_unique hstart hmdns hfirst hsecond,
    fun s _ horder => tryReadings_eq_fromStr hstart hmdns s horder,
    fun _ h => fromStr_lanDialAddress h,
    fun _ h => fromStr_address hstart h (not_mdns_of_address hstart hmdns h)⟩

/-- Text forms that know the peer id `15S` and the address of one relay. -/
def oneRelay : Libp2pText where
  printPeerId peer := if peer = ⟨[0, 1, 1]⟩ then "15S" else "1"
  parsePeerId s := if s = "15S" then .ok ⟨[0, 1, 1]⟩ else .error "not in the table"
  printMultiaddr addr :=
    if addr = [.ip4 0x7f000001, .tcp 4001] then "/ip4/127.0.0.1/tcp/4001" else ""
  parseMultiaddr s :=
    if s = "/ip4/127.0.0.1/tcp/4001" then .ok [.ip4 0x7f000001, .tcp 4001]
    else if s = "" then .ok []
    else .error "not in the table"

theorem targets_unambiguous_oneRelay :
    DialTarget.tryReadings oneRelay "42-river-ocean" [.address, .mdns, .pairingCode] =
        some (.pairingCode "42-river-ocean") ∧
      DialTarget.fromStr oneRelay "/mdns/15S" = .ok (.mdns ⟨[0, 1, 1]⟩) ∧
      DialTarget.fromStr oneRelay "/ip4/127.0.0.1/tcp/4001" =
        .ok (.relayCircuit [.ip4 0x7f000001, .tcp 4001]) := by
  have hstart : oneRelay.StartsWithName fun name => name = "ip4" ∨ name = "tcp" := by
    intro s addr hparse hne
    simp only [oneRelay, if_neg hne] at hparse
    split at hparse
    · rename_i heq
      subst heq
      exact ⟨"ip4", _, .inl rfl, rfl⟩
    · cases hparse
  obtain ⟨-, horder, hpeer, haddr⟩ := targets_unambiguous hstart (by decide)
  have hall : ∀ reading : Reading, reading ∈ [Reading.address, .mdns, .pairingCode] := by
    intro reading
    cases reading <;> simp
  refine ⟨(horder "42-river-ocean" _ hall).trans ?_, hpeer ⟨[0, 1, 1]⟩ rfl,
    haddr [.ip4 0x7f000001, .tcp 4001] rfl⟩
  have hword : WordCode "42-river-ocean" := isPairingCode_iff.mp (by decide)
  rw [(fromStr_eq_pairingCode oneRelay).mpr ⟨hword, rfl⟩]
  rfl

end Sape
