/-
  Interactive.lean --- `src/interactive.rs`: the wizard's prompts for the allowlist and for
  a forward.

  A prompt runs its validator on what is typed, and the code behind the prompt takes the
  same text apart once more.  A conversion that would stop at its `expect` is `none`.

  WHAT IS PROVED.

      convertAllowedPeers_spec     an accepted allowlist is converted, in order
      allowlist_closed_iff         and is empty exactly for blank text and bare commas
      forwards_connectable_iff     which accepted forwards can be connected
-/
import Sape.Client.Listen
import Sape.Foundation.Lists
import Sape.Forward.Spec

set_option autoImplicit false

namespace Sape

open Sape.Foundation

namespace Interactive

/-! ## Allowed peers -/

/-- The validator of the prompt for allowed peers. -/
def acceptsAllowedPeers (text : Libp2pText) (s : String) : Bool :=
  let v := strTrim s
  v.isEmpty ||
    (((strSplit ',' v).map strTrim).filter fun p => !p.isEmpty).all fun peer =>
      (text.parsePeerId peer).isOk

/-- `allowed_peers`, from what was typed. -/
def convertAllowedPeers (text : Libp2pText) (raw : String) : Option (List PeerId) :=
  (((strSplit ',' (strTrim raw)).map strTrim).filter fun p => !p.isEmpty).mapM fun p =>
    (text.parsePeerId p).toOption

/-- What is written between the commas of a text, where something is. -/
def writtenPeers (s : String) : List String :=
  ((strSplit ',' s).filter fun p => !isBlank p).map strTrim

/-- Trimming the whole text makes no difference to its trimmed parts. -/
theorem map_strTrim_strSplit (s : String) :
    (strSplit ',' (strTrim s)).map strTrim = (strSplit ',' s).map strTrim := by
  have hcomma : isWhitespace ',' = false := by decide
  have hback : ∀ c cs, isWhitespace c = true →
      (strTrim ∘ String.ofList) (cs ++ [c]) = (strTrim ∘ String.ofList) cs :=
    fun _ cs hc => strTrim_concat hc cs
  have hfront : ∀ c cs, isWhitespace c = true →
      (strTrim ∘ String.ofList) (c :: cs) = (strTrim ∘ String.ofList) cs :=
    fun _ cs hc => strTrim_cons hc cs
  unfold strSplit
  rw [List.map_map, List.map_map, strTrim, String.toList_ofList,
    map_splitOn_rdropWhile hcomma hback, map_splitOn_dropWhile hcomma hfront]

theorem segments_eq (s : String) :
    (((strSplit ',' (strTrim s)).map strTrim).filter fun p => !p.isEmpty) = writtenPeers s := by
  have hblank : ((fun p : String => !p.isEmpty) ∘ strTrim) = fun p => !isBlank p := by
    funext p
    rw [Function.comp_apply, strTrim_isEmpty]
  rw [map_strTrim_strSplit, List.filter_map, hblank, writtenPeers]

theorem writtenPeers_eq_nil {s : String} :
    writtenPeers s = [] ↔ ∀ c ∈ s.toList, isWhitespace c = true ∨ c = ',' := by
  have hparts : writtenPeers s = [] ↔
      ∀ c ∈ (s.toList.splitOn ',').flatten, isWhitespace c = true := by
    simp only [writtenPeers, strSplit, isBlank, List.map_eq_nil_iff, List.filter_eq_nil_iff,
      List.mem_map, List.mem_flatten]
    constructor
    · rintro h c ⟨part, hpart, hmem⟩
      have hblank := h _ ⟨part, hpart, rfl⟩
      rw [String.toList_ofList, Bool.not_eq_true, Bool.not_eq_false', List.all_eq_true] at hblank
      exact hblank c hmem
    · rintro h _ ⟨part, hpart, rfl⟩
      rw [String.toList_ofList, Bool.not_eq_true, Bool.not_eq_false', List.all_eq_true]
      exact fun c hmem => h c ⟨part, hpart, hmem⟩
  rw [hparts, flatten_splitOn]
  constructor
  · intro h c hmem
    by_cases hcomma : c = ','
    · exact .inr hcomma
    · exact .inl (h c (List.mem_filter.mpr ⟨hmem, bne_iff_ne.mpr hcomma⟩))
  · intro h c hmem
    obtain ⟨hmem, hcomma⟩ := List.mem_filter.mp hmem
    exact (h c hmem).resolve_right (bne_iff_ne.mp hcomma)

theorem writtenPeers_of_isBlank {s : String} (h : isBlank s = true) : writtenPeers s = [] :=
  writtenPeers_eq_nil.mpr fun c hmem => .inl (List.all_eq_true.mp h c hmem)

/-- Where every part parses, the conversion goes through. -/
theorem mapM_parsePeerId {text : Libp2pText} (parts : List String)
    (hall : ∀ part ∈ parts, (text.parsePeerId part).isOk = true) :
    ∃ peers, (parts.mapM fun p => (text.parsePeerId p).toOption) = some peers ∧
      List.Forall₂ (fun part peer => text.parsePeerId part = .ok peer) parts peers := by
  induction parts with
  | nil => exact ⟨[], rfl, .nil⟩
  | cons part parts ih =>
      obtain ⟨peers, hpeers, hforall⟩ := ih fun p hmem => hall p (List.mem_cons_of_mem _ hmem)
      have hpart := hall part List.mem_cons_self
      cases hparse : text.parsePeerId part with
      | error err =>
          rw [hparse] at hpart
          cases hpart
      | ok peer =>
          refine ⟨peer :: peers, ?_, .cons hparse hforall⟩
          rw [List.mapM_cons, hparse, hpeers]
          rfl

/-- A text that the prompt accepts is converted: to the peers that are written in it, in
their order. -/
theorem convertAllowedPeers_spec {text : Libp2pText} {s : String}
    (h : acceptsAllowedPeers text s = true) :
    ∃ peers, convertAllowedPeers text s = some peers ∧
      List.Forall₂ (fun written peer => text.parsePeerId written = .ok peer) (writtenPeers s)
        peers := by
  have hall : ∀ written ∈ writtenPeers s, (text.parsePeerId written).isOk = true := by
    simp only [acceptsAllowedPeers, segments_eq, strTrim_isEmpty, Bool.or_eq_true,
      List.all_eq_true] at h
    obtain hblank | hall := h
    · rw [writtenPeers_of_isBlank hblank]
      exact fun written hmem => absurd hmem List.not_mem_nil
    · exact hall
  unfold convertAllowedPeers
  rw [segments_eq]
  exact mapM_parsePeerId (writtenPeers s) hall

/-- An accepted text is converted to the peers that are written in it, and the list is empty
for blank text only, exactly if the text is blank or holds something besides white space and
commas. -/
theorem allowlist_closed_iff {text : Libp2pText} {s : String}
    (h : acceptsAllowedPeers text s = true) :
    (∃ peers, convertAllowedPeers text s = some peers ∧
        List.Forall₂ (fun written peer => text.parsePeerId written = .ok peer) (writtenPeers s)
          peers ∧
        (peers = [] → isBlank s = true)) ↔
      (isBlank s = true ∨ ∃ c ∈ s.toList, isWhitespace c = false ∧ c ≠ ',') := by
  obtain ⟨peers, hconvert, hforall⟩ := convertAllowedPeers_spec h
  have hempty : peers = [] ↔ ∀ c ∈ s.toList, isWhitespace c = true ∨ c = ',' := by
    rw [← writtenPeers_eq_nil]
    constructor
    · rintro rfl
      exact List.forall₂_nil_right_iff.mp hforall
    · intro hnil
      rw [hnil] at hforall
      exact List.forall₂_nil_left_iff.mp hforall
  constructor
  · rintro ⟨peers', hconvert', -, hblank⟩
    obtain rfl : peers = peers' := Option.some.inj (hconvert.symm.trans hconvert')
    by_cases hnil : peers = []
    · exact .inl (hblank hnil)
    · rw [hempty] at hnil
      simp only [not_forall, not_or] at hnil
      obtain ⟨c, hmem, hc, hcomma⟩ := hnil
      exact .inr ⟨c, hmem, Bool.eq_false_iff.mpr hc, hcomma⟩
  · intro hcondition
    refine ⟨peers, hconvert, hforall, fun hnil => ?_⟩
    obtain hblank | ⟨c, hmem, hc, hcomma⟩ := hcondition
    · exact hblank
    · rcases hempty.mp hnil c hmem with hwhite | rfl
      · rw [hc] at hwhite
        cases hwhite
      · exact absurd rfl hcomma

/-- Text forms that know one peer id. -/
def onePeer : Libp2pText :=
  { Libp2pText.ofTable [] with
    parsePeerId := fun s => if s = "p" then .ok ⟨[1]⟩ else .error "not a peer id" }

theorem allowlist_closed_iff_onePeer :
    ∃ peers, convertAllowedPeers onePeer " p ," = some peers ∧
      List.Forall₂ (fun written peer => onePeer.parsePeerId written = .ok peer)
        (writtenPeers " p ,") peers ∧
      (peers = [] → isBlank " p ," = true) :=
  (allowlist_closed_iff (by decide)).mpr (.inr ⟨'p', by decide, by decide, by decide⟩)

/-- A comma is accepted, and allows everyone. -/
theorem comma_opens :
    acceptsAllowedPeers onePeer "," = true ∧ isBlank "," = false ∧
      convertAllowedPeers onePeer "," = some [] ∧ ∀ peer, StreamTask.Admits [] peer := by
  refine ⟨by decide, by decide, by decide, fun peer => .inl rfl⟩

/-! ## Forwards -/

/-- The validator of the prompts for a forward. -/
def acceptsForward (s : String) : Bool :=
  let v := strTrim s
  if v.isEmpty then false else (ForwardSpec.fromStr v).isOk

/-- `forward`, from what was typed. -/
def convertForward (raw : String) : Option ForwardSpec :=
  (ForwardSpec.fromStr (strTrim raw)).toOption

/-- What the prompt accepts is what the command line would accept, trimmed. -/
theorem convertForward_spec {s : String} (h : acceptsForward s = true) :
    ∃ spec, convertForward s = some spec ∧ ForwardSpec.fromStr (strTrim s) = .ok spec := by
  simp only [acceptsForward] at h
  split at h
  · cases h
  · unfold convertForward
    cases hspec : ForwardSpec.fromStr (strTrim s) with
    | error err =>
        rw [hspec] at h
        cases h
    | ok spec => exact ⟨spec, rfl, rfl⟩

/-- A spec that the command line or the wizard accepts has a target of a host and a port
exactly if what stands behind its last colon is a port, and it is not of the form
`<bind-port>::<port>`. -/
theorem forwards_connectable_iff (s : String) :
    (∀ spec, ForwardSpec.fromStr s = .ok spec →
        ((hostPort spec.target).isSome = true ↔ EndsInHostPort s)) ∧
      (acceptsForward s = true → ∃ spec, convertForward s = some spec ∧
        ((hostPort spec.target).isSome = true ↔ EndsInHostPort (strTrim s))) := by
  refine ⟨fun spec => hostPort_target_iff, fun h => ?_⟩
  obtain ⟨spec, hconvert, hspec⟩ := convertForward_spec h
  exact ⟨spec, hconvert, hostPort_target_iff hspec⟩

/-- `8080:[::1]:80` has both, with colons in its host. -/
theorem forwards_connectable_iff_ip6 :
    ForwardSpec.fromStr "8080:[::1]:80" = .ok ⟨8080, "[::1]:80"⟩ ∧
      (hostPort "[::1]:80").isSome = true := by
  have hspec : ForwardSpec.fromStr "8080:[::1]:80" = .ok ⟨8080, "[::1]:80"⟩ := by decide
  refine ⟨hspec, ((forwards_connectable_iff "8080:[::1]:80").1 _ hspec).mpr
    ⟨⟨"80", by decide, by decide⟩, ?_⟩⟩
  intro bind port heq
  have hlen := congrArg List.length heq
  have hparts : (strSplit ':' "8080:[::1]:80").length = 5 := by decide
  rw [hparts] at hlen
  cases hlen

/-- A target whose port is a name is accepted, on the command line and by the wizard. -/
theorem namedPort_accepted :
    ForwardSpec.fromStr "8080:localhost:http" = .ok ⟨8080, "localhost:http"⟩ ∧
      acceptsForward "8080:localhost:http" = true ∧ hostPort "localhost:http" = none := by
  decide

end Interactive

end Sape
