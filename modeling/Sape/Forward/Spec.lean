/-
  Forward/Spec.lean --- `ForwardSpec::from_str` of `src/types.rs`: what `-L` and `-R` take.

  A spec is split at its first colon, and the target behind it is only looked at for
  another one.  The far side hands the target to `TcpStream::connect`, which splits it at
  its last colon.

  WHAT IS PROVED.

      fromStr_eq_ok           what is accepted, and what it becomes
      display_inverse         what is printed is read back, and which accepted specs are
                              printed as they were written
      hostPort_target_iff     which accepted specs have a target that can be resolved
-/
import Sape.Client.Dial
import Sape.Text

set_option autoImplicit false

namespace Sape

/-- `enum ForwardSpecError`. -/
inductive ForwardSpecError where
  | missingSeparator (s : String)
  | invalidPort (bind : String)
  | invalidTarget (target : String)
  deriving DecidableEq, Repr, Inhabited

/-- The `#[error]` texts. -/
def ForwardSpecError.text : ForwardSpecError → String
  | .missingSeparator s => s!"expected '<bind-port>:<host>:<port>', got '{s}'"
  | .invalidPort bind => s!"invalid bind port '{bind}'"
  | .invalidTarget target => s!"target must be '<host>:<port>', got '{target}'"

/-- `ForwardSpec::from_str`. -/
def ForwardSpec.fromStr (s : String) : Except ForwardSpecError ForwardSpec :=
  match splitOnce ':' s with
  | none => .error (.missingSeparator s)
  | some (bind, target) =>
      match parseU16 bind with
      | none => .error (.invalidPort bind)
      | some bindPort =>
          if target.isEmpty || !target.toList.contains ':' then .error (.invalidTarget target)
          else .ok { bindPort := bindPort, target := target }

/-- The host and the port of a target, as `TcpStream::connect` takes it apart; a host has to
be there. -/
def hostPort (target : String) : Option (String × UInt16) :=
  match rsplitOnce ':' target with
  | none => none
  | some (host, port) => if host.isEmpty then none else (parseU16 port).map fun port => (host, port)

/-- What is accepted: a bind port, a colon, and a target with a colon in it. -/
theorem fromStr_eq_ok {s : String} {spec : ForwardSpec} :
    ForwardSpec.fromStr s = .ok spec ↔
      ∃ bind, s.toList = bind.toList ++ ':' :: spec.target.toList ∧
        parseU16 bind = some spec.bindPort ∧ ':' ∈ spec.target.toList := by
  unfold ForwardSpec.fromStr
  constructor
  · intro h
    split at h
    · cases h
    · rename_i bind target hsplit
      split at h
      · cases h
      · rename_i bindPort hport
        split at h
        · cases h
        · rename_i hcolon
          obtain rfl := Except.ok.inj h
          refine ⟨bind, (splitOnce_eq_some.mp hsplit).1, hport, ?_⟩
          simp only [Bool.or_eq_true, not_or, Bool.not_eq_true', Bool.not_eq_false] at hcolon
          exact List.contains_iff_mem.mp hcolon.2
  · rintro ⟨bind, hs, hport, hcolon⟩
    have hsplit : splitOnce ':' s = some (bind, spec.target) :=
      splitOnce_eq_some.mpr ⟨hs, colon_not_mem_of_parseU16 hport⟩
    have hne : spec.target.isEmpty = false := by
      rw [Bool.eq_false_iff, ne_eq, String.isEmpty_iff]
      rintro hempty
      rw [hempty] at hcolon
      cases hcolon
    simp only [hsplit, hport, hne, List.contains_iff_mem.mpr hcolon, Bool.not_true, Bool.or_false,
      Bool.false_eq_true, if_false]

/-! ## Printed specs -/

/-- How a spec is printed. -/
def ForwardSpec.display (spec : ForwardSpec) : String := s!"{spec.bindPort}:{spec.target}"

/-- A bind port, a colon, and the target. -/
theorem toList_display (spec : ForwardSpec) :
    spec.display.toList = (toString spec.bindPort).toList ++ ':' :: spec.target.toList := by
  have hjoin : spec.display = toString spec.bindPort ++ ":" ++ spec.target := rfl
  rw [hjoin, String.toList_append, String.toList_append, List.append_assoc]
  rfl

/-- A printed spec is read back, however many colons its target has. -/
theorem fromStr_display {spec : ForwardSpec} (h : ':' ∈ spec.target.toList) :
    ForwardSpec.fromStr spec.display = .ok spec :=
  fromStr_eq_ok.mpr ⟨_, toList_display spec, parseU16_toString spec.bindPort, h⟩

/-- The part in front of the first colon of an accepted spec is its bind port. -/
theorem splitOnce_of_fromStr {s : String} {spec : ForwardSpec}
    (h : ForwardSpec.fromStr s = .ok spec) :
    ∃ bind, splitOnce ':' s = some (bind, spec.target) ∧ parseU16 bind = some spec.bindPort := by
  obtain ⟨bind, hs, hport, -⟩ := fromStr_eq_ok.mp h
  exact ⟨bind, splitOnce_eq_some.mpr ⟨hs, colon_not_mem_of_parseU16 hport⟩, hport⟩

/-- Where two specs have one target, they are the same text exactly if the parts in front of it
are. -/
theorem display_eq_iff {s bind : String} {spec : ForwardSpec}
    (hsplit : splitOnce ':' s = some (bind, spec.target)) :
    spec.display = s ↔ bind = toString spec.bindPort := by
  obtain ⟨hs, -⟩ := splitOnce_eq_some.mp hsplit
  rw [← String.toList_inj, toList_display, hs, List.append_cancel_right_eq, String.toList_inj]
  exact eq_comm

/-- Printing and reading are inverse: what is printed is read back, and what is read is printed
as it was written exactly if its bind port is a plain decimal. -/
theorem display_inverse (spec : ForwardSpec) (s : String) :
    (':' ∈ spec.target.toList → ForwardSpec.fromStr spec.display = .ok spec) ∧
      (ForwardSpec.fromStr s = .ok spec → ':' ∈ spec.target.toList ∧
        ∃ bind, splitOnce ':' s = some (bind, spec.target) ∧
          (spec.display = s ↔ PlainDecimal bind)) := by
  constructor
  · exact fromStr_display
  · intro h
    obtain ⟨-, -, -, hcolon⟩ := fromStr_eq_ok.mp h
    obtain ⟨bind, hsplit, hport⟩ := splitOnce_of_fromStr h
    refine ⟨hcolon, bind, hsplit, ?_⟩
    rw [display_eq_iff hsplit]
    exact eq_toString_iff_of_parseU16 hport

/-- The spec of `8080:[::1]:80` is read back, and is not how `08080:[::1]:80` is written. -/
theorem display_inverse_ip6 :
    ForwardSpec.fromStr (⟨8080, "[::1]:80"⟩ : ForwardSpec).display = .ok ⟨8080, "[::1]:80"⟩ ∧
      ForwardSpec.fromStr "08080:[::1]:80" = .ok ⟨8080, "[::1]:80"⟩ ∧
      (⟨8080, "[::1]:80"⟩ : ForwardSpec).display ≠ "08080:[::1]:80" := by
  obtain ⟨hprinted, hread⟩ := display_inverse ⟨8080, "[::1]:80"⟩ "08080:[::1]:80"
  have hpadded : ForwardSpec.fromStr "08080:[::1]:80" = .ok ⟨8080, "[::1]:80"⟩ := by decide
  have hfirst : splitOnce ':' "08080:[::1]:80" = some ("08080", "[::1]:80") := by decide
  obtain ⟨-, bind, hsplit, hiff⟩ := hread hpadded
  obtain rfl : "08080" = bind := (Prod.mk.inj (Option.some.inj (hfirst.symm.trans hsplit))).1
  exact ⟨hprinted (by decide), hpadded, mt hiff.mp (by decide)⟩

/-! ## Targets that can be resolved -/

/-- What stands behind the last colon of a spec is a port, and the spec is not of the form
`<bind-port>::<port>`. -/
def EndsInHostPort (s : String) : Prop :=
  (∃ port, (strSplit ':' s).getLast? = some port ∧ (parseU16 port).isSome = true) ∧
    ∀ bind port, strSplit ':' s ≠ [bind, "", port]

/-- The parts of an accepted spec: its bind port, those of the host, and the last one. -/
theorem strSplit_spec {s bind host port : String} (hbind : ':' ∉ bind.toList)
    (hport : ':' ∉ port.toList)
    (hs : s.toList = bind.toList ++ ':' :: (host.toList ++ ':' :: port.toList)) :
    strSplit ':' s = bind :: (strSplit ':' host ++ [port]) := by
  unfold strSplit
  rw [hs, List.splitOn_append_cons_self_of_not_mem hbind, List.splitOn_append_cons_self,
    List.splitOn_eq_singleton hport]
  simp

theorem strSplit_eq_empty {s : String} : strSplit ':' s = [""] ↔ s = "" := by
  constructor
  · intro h
    unfold strSplit at h
    obtain ⟨part, hpart, hnil⟩ := List.map_eq_singleton_iff.mp h
    have hjoin : [':'].intercalate (s.toList.splitOn ':') = s.toList := List.intercalate_splitOn ':'
    apply String.toList_injective
    rw [← hjoin, hpart, ← hnil]
    simp
  · rintro rfl
    rfl

/-- An accepted spec has a target with a host and a port exactly if it ends in them. -/
theorem hostPort_target_iff {s : String} {spec : ForwardSpec}
    (h : ForwardSpec.fromStr s = .ok spec) :
    (hostPort spec.target).isSome = true ↔ EndsInHostPort s := by
  obtain ⟨bind, hs, hbind, hcolon⟩ := fromStr_eq_ok.mp h
  cases hsplit : rsplitOnce ':' spec.target with
  | none => exact absurd hcolon (rsplitOnce_eq_none.mp hsplit)
  | some parts =>
      obtain ⟨host, port⟩ := parts
      obtain ⟨htarget, hport⟩ := rsplitOnce_eq_some.mp hsplit
      have hparts := strSplit_spec (colon_not_mem_of_parseU16 hbind) hport (htarget ▸ hs)
      have hlast : (strSplit ':' s).getLast? = some port := by
        rw [hparts, ← List.cons_append, List.getLast?_append]
        rfl
      have hhost : (∀ bind port, strSplit ':' s ≠ [bind, "", port]) ↔ host ≠ "" := by
        rw [hparts]
        constructor
        · rintro hne rfl
          exact hne bind port rfl
        · intro hne bind' port' heq
          have htail : strSplit ':' host ++ [port] = [""] ++ [port'] := (List.cons.inj heq).2
          obtain ⟨hfront, -⟩ := List.append_inj' htail rfl
          exact hne (strSplit_eq_empty.mp hfront)
      unfold EndsInHostPort hostPort
      rw [hhost, hlast, hsplit]
      cases hempty : host.isEmpty with
      | true => simp [String.isEmpty_iff.mp hempty]
      | false =>
          have hne : host ≠ "" := by
            rintro rfl
            cases hempty
          simp [hne]

end Sape
