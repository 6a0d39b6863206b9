/-
  Foundation/Form.lean --- programs that ask one question after another, and the dialogues in
  which they are answered.

  A form is a tree: a value, a stop, or a question with a continuation for each reply.  What is
  entered at a question need not be a reply to it: a text that does not pass its validator is
  complained about, and the question is asked again.  Two predicates are computed along the
  tree, `Yields` and `Safe`; a dialogue that has been answered any number of times, well or
  badly, is compared with them.

  WHAT IS PROVED.

      yields_bind, safe_bind     the two predicates compose as the forms do
      reaches_done_iff           what dialogues come to is what the form yields
      reaches_stop_iff           no dialogue stops exactly if the form is safe
      completes                  where every question has a reply, every dialogue can be
                                 brought to an end
-/
import Mathlib.Data.List.Basic
import Sape.Foundation.Machine

set_option autoImplicit false

namespace Sape.Foundation

/-! ## Forms -/

/-- What is asked for: one of some options, a text, or a yes or no. -/
inductive Question where
  | select (message : String) (options : List String)
  /-- `suggest` completes what has been typed, `validate` has a complaint or none -/
  | text (message : String) (placeholder : Option String) (suggest : String → List String)
      (validate : String → Option String)
  | confirm (message : String) (byDefault : Bool)

/-- What a question is answered with. -/
def Question.Reply : Question → Type
  | .select _ options => Fin options.length
  | .text .. => String
  | .confirm .. => Bool

/-- Whether a reply passes the validator. -/
def Question.Admits : (question : Question) → question.Reply → Prop
  | .select .., _ => True
  | .text _ _ _ validate, (typed : String) => validate typed = none
  | .confirm .., _ => True

/-- A program that asks, and comes to a value or stops with a message. -/
inductive Form (α : Type) : Type where
  | done (value : α)
  | stop (message : String)
  | ask (question : Question) (next : question.Reply → Form α)

namespace Form

variable {α β : Type}

/-- One form behind another. -/
def bind : Form α → (α → Form β) → Form β
  | .done value, behind => behind value
  | .stop message, _ => .stop message
  | .ask question next, behind => .ask question fun reply => (next reply).bind behind

instance : Monad Form where
  pure := .done
  bind := Form.bind

/-- `Select::new(message, options).prompt()`. -/
def select (message : String) (display : α → String) (options : List α) : Form α :=
  .ask (.select message (options.map display)) fun (index : Fin (options.map display).length) =>
    .done (options.get (index.cast (List.length_map display)))

/-- `Text::new(message)`, with all that may be set on it, and `.prompt()`. -/
def text (message : String) (placeholder : Option String) (suggest : String → List String)
    (validate : String → Option String) : Form String :=
  .ask (.text message placeholder suggest validate) .done

/-- `Confirm::new(message).with_default(by_default).prompt()`. -/
def confirm (message : String) (byDefault : Bool) : Form Bool :=
  .ask (.confirm message byDefault) .done

/-- `value.expect(message)`. -/
def expect (message : String) : Option α → Form α
  | some value => .done value
  | none => .stop message

/-! ## What a form comes to -/

/-- Some admitted replies lead to the value. -/
def Yields : Form α → α → Prop
  | .done value, final => value = final
  | .stop _, _ => False
  | .ask question next, final =>
      ∃ reply, question.Admits reply ∧ (next reply).Yields final

/-- No admitted replies lead to a stop. -/
def Safe : Form α → Prop
  | .done _ => True
  | .stop _ => False
  | .ask question next => ∀ reply, question.Admits reply → (next reply).Safe

/-- Every question that admitted replies lead to has an admitted reply. -/
def Answerable : Form α → Prop
  | .done _ => True
  | .stop _ => True
  | .ask question next =>
      (∃ reply, question.Admits reply) ∧
        ∀ reply, question.Admits reply → (next reply).Answerable

@[simp] theorem yields_pure (value final : α) :
    (pure value : Form α).Yields final ↔ value = final := Iff.rfl

@[simp] theorem yields_bind (form : Form α) (behind : α → Form β) (final : β) :
    (form >>= behind).Yields final ↔ ∃ value, form.Yields value ∧ (behind value).Yields final := by
  show (form.bind behind).Yields final ↔ _
  induction form with
  | done value => simp [bind, Yields]
  | stop message => simp [bind, Yields]
  | ask question next ih =>
      simp only [bind, Yields, ih]
      constructor
      · rintro ⟨reply, hadmits, value, hvalue, hfinal⟩
        exact ⟨value, ⟨reply, hadmits, hvalue⟩, hfinal⟩
      · rintro ⟨value, ⟨reply, hadmits, hvalue⟩, hfinal⟩
        exact ⟨reply, hadmits, value, hvalue, hfinal⟩

@[simp] theorem yields_select {message : String} {display : α → String} {options : List α}
    {value : α} : (select message display options).Yields value ↔ value ∈ options := by
  rw [List.mem_iff_get]
  constructor
  · rintro ⟨index, -, hvalue⟩
    exact ⟨_, hvalue⟩
  · rintro ⟨index, hvalue⟩
    exact ⟨index.cast (List.length_map display).symm, trivial, hvalue⟩

@[simp] theorem yields_text {message : String} {placeholder : Option String}
    {suggest : String → List String} {validate : String → Option String} {typed : String} :
    (text message placeholder suggest validate).Yields typed ↔ validate typed = none := by
  constructor
  · rintro ⟨reply, hadmits, rfl⟩
    exact hadmits
  · intro hadmits
    exact ⟨typed, hadmits, rfl⟩

@[simp] theorem yields_confirm {message : String} {byDefault choice : Bool} :
    (confirm message byDefault).Yields choice :=
  ⟨choice, trivial, rfl⟩

@[simp] theorem yields_expect {message : String} {value : Option α} {final : α} :
    (expect message value).Yields final ↔ value = some final := by
  cases value <;> simp [expect, Yields]

@[simp] theorem safe_pure (value : α) : (pure value : Form α).Safe := trivial

@[simp] theorem safe_bind (form : Form α) (behind : α → Form β) :
    (form >>= behind).Safe ↔ form.Safe ∧ ∀ value, form.Yields value → (behind value).Safe := by
  show (form.bind behind).Safe ↔ _
  induction form with
  | done value => simp [bind, Safe, Yields]
  | stop message => simp [bind, Safe, Yields]
  | ask question next ih =>
      simp only [bind, Safe, Yields, ih]
      constructor
      · intro hsafe
        refine ⟨fun reply hadmits => (hsafe reply hadmits).1, ?_⟩
        rintro value ⟨reply, hadmits, hvalue⟩
        exact (hsafe reply hadmits).2 value hvalue
      · rintro ⟨hsafe, hbehind⟩ reply hadmits
        exact ⟨hsafe reply hadmits, fun value hvalue => hbehind value ⟨reply, hadmits, hvalue⟩⟩

@[simp] theorem safe_select {message : String} {display : α → String} {options : List α} :
    (select message display options).Safe := fun _ _ => trivial

@[simp] theorem safe_text {message : String} {placeholder : Option String}
    {suggest : String → List String} {validate : String → Option String} :
    (text message placeholder suggest validate).Safe := fun _ _ => trivial

@[simp] theorem safe_confirm {message : String} {byDefault : Bool} :
    (confirm message byDefault).Safe := fun _ _ => trivial

@[simp] theorem safe_expect {message : String} {value : Option α} :
    (expect message value).Safe ↔ ∃ final, value = some final := by
  cases value <;> simp [expect, Safe]

@[simp] theorem answerable_pure (value : α) : (pure value : Form α).Answerable := trivial

@[simp] theorem answerable_bind (form : Form α) (behind : α → Form β) :
    (form >>= behind).Answerable ↔
      form.Answerable ∧ ∀ value, form.Yields value → (behind value).Answerable := by
  show (form.bind behind).Answerable ↔ _
  induction form with
  | done value => simp [bind, Answerable, Yields]
  | stop message => simp [bind, Answerable, Yields]
  | ask question next ih =>
      simp only [bind, Answerable, Yields, ih]
      constructor
      · rintro ⟨hreply, hnext⟩
        refine ⟨⟨hreply, fun reply hadmits => (hnext reply hadmits).1⟩, ?_⟩
        rintro value ⟨reply, hadmits, hvalue⟩
        exact (hnext reply hadmits).2 value hvalue
      · rintro ⟨⟨hreply, hnext⟩, hbehind⟩
        exact ⟨hreply, fun reply hadmits =>
          ⟨hnext reply hadmits, fun value hvalue => hbehind value ⟨reply, hadmits, hvalue⟩⟩⟩

@[simp] theorem answerable_select {message : String} {display : α → String} {options : List α} :
    (select message display options).Answerable ↔ options ≠ [] := by
  constructor
  · rintro ⟨⟨(index : Fin (options.map display).length), -⟩, -⟩ rfl
    exact index.elim0
  · intro hne
    have hpos : 0 < (options.map display).length := by
      rw [List.length_map]
      exact List.length_pos_iff.mpr hne
    exact ⟨⟨⟨0, hpos⟩, trivial⟩, fun _ _ => trivial⟩

@[simp] theorem answerable_text {message : String} {placeholder : Option String}
    {suggest : String → List String} {validate : String → Option String} :
    (text message placeholder suggest validate).Answerable ↔
      ∃ typed, validate typed = none :=
  ⟨fun hanswerable => hanswerable.1, fun htyped => ⟨htyped, fun _ _ => trivial⟩⟩

@[simp] theorem answerable_confirm {message : String} {byDefault : Bool} :
    (confirm message byDefault).Answerable := ⟨⟨byDefault, trivial⟩, fun _ _ => trivial⟩

@[simp] theorem answerable_expect {message : String} {value : Option α} :
    (expect message value).Answerable := by
  cases value <;> trivial

end Form

/-! ## Dialogues -/

/-- What is entered at a question: the index of an option, a text, or a yes or no, where
nothing stands for the default. -/
inductive Entry where
  | chosen (index : Nat)
  | typed (text : String)
  | confirmed (choice : Option Bool)
  deriving DecidableEq, Repr, Inhabited

/-- What a question makes of an entry: a complaint or a reply.  Other entries cannot be made. -/
def Question.read : (question : Question) → Entry → Option (Except String question.Reply)
  | .select _ options, .chosen index =>
      if h : index < options.length then some (.ok (⟨index, h⟩ : Fin options.length)) else none
  | .text _ _ _ validate, .typed typed =>
      match validate typed with
      | none => some (.ok (typed : String))
      | some complaint => some (.error complaint)
  | .confirm _ byDefault, .confirmed choice => some (.ok (choice.getD byDefault : Bool))
  | _, _ => none

/-- What happens at a question: something is entered, or the prompt fails. -/
inductive FormLabel (E : Type) where
  | entry (entry : Entry)
  | failed (err : E)
  deriving DecidableEq, Repr, Inhabited

/-- A form as far as it has been answered, with the complaint about the last entry, or what
its prompts have failed with. -/
inductive Dialogue (E α : Type) where
  | asking (form : Form α) (complaint : Option String)
  | failed (err : E)

namespace Dialogue

variable {E α : Type}

/-- One entry. -/
def step : Dialogue E α → FormLabel E → Option (Dialogue E α)
  | .asking (.ask question next) _, .entry entry =>
      match question.read entry with
      | none => none
      | some (.error complaint) => some (.asking (.ask question next) (some complaint))
      | some (.ok reply) => some (.asking (next reply) none)
  | .asking (.ask _ _) _, .failed err => some (.failed err)
  | _, _ => none

/-- The dialogues on a form. -/
def machine (E : Type) (form : Form α) : Machine (Dialogue E α) (FormLabel E) where
  start := .asking form none
  step := step

/-- What a question takes as a reply passes its validator. -/
theorem admits_of_read {question : Question} {entry : Entry} {reply : question.Reply}
    (h : question.read entry = some (.ok reply)) : question.Admits reply := by
  cases question with
  | select message options => trivial
  | confirm message byDefault => trivial
  | text message placeholder suggest validate =>
      cases entry with
      | typed typed =>
          simp only [Question.read] at h
          split at h
          · rename_i hvalid
            obtain rfl := Except.ok.inj (Option.some.inj h)
            exact hvalid
          · cases h
      | chosen index => cases h
      | confirmed choice => cases h

theorem read_of_admits {question : Question} {reply : question.Reply}
    (h : question.Admits reply) : ∃ entry, question.read entry = some (.ok reply) := by
  cases question with
  | select message options =>
      obtain ⟨index, hlt⟩ : Fin options.length := reply
      exact ⟨.chosen index, dif_pos hlt⟩
  | text message placeholder suggest validate =>
      refine ⟨.typed reply, ?_⟩
      simp only [Question.read]
      rw [show validate reply = none from h]
  | confirm message byDefault => exact ⟨.confirmed (some reply), rfl⟩

theorem step_cases {dialogue next : Dialogue E α} {label : FormLabel E}
    (h : dialogue.step label = some next) :
    ∃ question behind complaint, dialogue = .asking (.ask question behind) complaint ∧
      ((∃ reply, question.Admits reply ∧ next = .asking (behind reply) none) ∨
        (∃ complaint', next = .asking (.ask question behind) (some complaint')) ∨
        ∃ err, label = .failed err ∧ next = .failed err) := by
  unfold step at h
  split at h
  · rename_i question behind complaint entry
    refine ⟨question, behind, complaint, rfl, ?_⟩
    split at h
    · cases h
    · rename_i complaint' hread
      exact .inr (.inl ⟨complaint', (Option.some.inj h).symm⟩)
    · rename_i reply hread
      exact .inl ⟨reply, admits_of_read hread, (Option.some.inj h).symm⟩
  · rename_i question behind complaint err
    exact ⟨question, behind, complaint, rfl, .inr (.inr ⟨err, rfl, (Option.some.inj h).symm⟩)⟩
  · cases h

/-- What holds of a form, and of whatever stands behind an admitted reply, holds of every form
that a dialogue comes to. -/
theorem invariant {P : Form α → Prop} {form form' : Form α} {labels : List (FormLabel E)}
    {complaint : Option String} (hform : P form)
    (hreply : ∀ question behind reply, P (.ask question behind) → question.Admits reply →
      P (behind reply))
    (hrun : (machine E form).Reaches labels (.asking form' complaint)) : P form' := by
  let Kept : Dialogue E α → Prop := fun dialogue =>
    ∀ reached complaint, dialogue = .asking reached complaint → P reached
  have hkept : Kept (.asking form' complaint) := by
    apply Machine.invariant Kept _ _ hrun
    · rintro reached complaint ⟨⟩
      exact hform
    · intro dialogue label next hdialogue hstep reached complaint hnext
      obtain ⟨question, behind, complaint', rfl, hcases⟩ := step_cases hstep
      have hask := hdialogue _ _ rfl
      obtain ⟨reply, hadmits, rfl⟩ | ⟨complaint'', rfl⟩ | ⟨err, -, rfl⟩ := hcases
      · cases hnext
        exact hreply question behind reply hask hadmits
      · cases hnext
        exact hask
      · cases hnext
  exact hkept form' complaint rfl

/-- A reply is entered. -/
theorem exec_reply {question : Question} {behind : question.Reply → Form α}
    {reply : question.Reply} {complaint : Option String} {final : Dialogue E α}
    {form : Form α} (hadmits : question.Admits reply) {entries : List Entry}
    (hrest : (machine E form).exec (.asking (behind reply) none) (entries.map .entry) =
      some final) :
    ∃ entries' : List Entry, (machine E form).exec (.asking (.ask question behind) complaint)
      (entries'.map .entry) = some final := by
  obtain ⟨entry, hread⟩ := read_of_admits hadmits
  have hstep : (machine E form).step (.asking (.ask question behind) complaint) (.entry entry) =
      some (.asking (behind reply) none) := by
    simp only [machine, step, hread]
  refine ⟨entry :: entries, ?_⟩
  rw [List.map_cons, Machine.exec_cons_of_step hstep]
  exact hrest

/-- What a form yields is where a dialogue without a wrong entry comes to. -/
theorem exec_of_yields (start : Form α) {form : Form α} {value : α} (h : form.Yields value)
    (complaint : Option String) :
    ∃ (entries : List Entry) (complaint' : Option String),
      (machine E start).exec (.asking form complaint) (entries.map .entry) =
        some (.asking (.done value) complaint') := by
  induction form generalizing complaint with
  | done final =>
      obtain rfl : final = value := h
      exact ⟨[], complaint, rfl⟩
  | stop message => exact absurd h id
  | ask question behind ih =>
      obtain ⟨reply, hadmits, hvalue⟩ := h
      obtain ⟨entries, complaint', hrest⟩ := ih reply hvalue none
      obtain ⟨entries', hrun⟩ := exec_reply hadmits hrest
      exact ⟨entries', complaint', hrun⟩

/-- A form that is not safe is stopped by a dialogue without a wrong entry. -/
theorem exec_of_not_safe (start : Form α) {form : Form α} (h : ¬ form.Safe)
    (complaint : Option String) :
    ∃ (entries : List Entry) (message : String) (complaint' : Option String),
      (machine E start).exec (.asking form complaint) (entries.map .entry) =
        some (.asking (.stop message) complaint') := by
  induction form generalizing complaint with
  | done final => exact absurd trivial h
  | stop message => exact ⟨[], message, complaint, rfl⟩
  | ask question behind ih =>
      simp only [Form.Safe, not_forall] at h
      obtain ⟨reply, hadmits, hnot⟩ := h
      obtain ⟨entries, message, complaint', hrest⟩ := ih reply hnot none
      obtain ⟨entries', hrun⟩ := exec_reply hadmits hrest
      exact ⟨entries', message, complaint', hrun⟩

/-- A form whose questions can be answered, and that does not stop, comes to a value. -/
theorem yields_of_answerable {form : Form α} (hsafe : form.Safe)
    (hanswerable : form.Answerable) : ∃ value, form.Yields value := by
  induction form with
  | done value => exact ⟨value, rfl⟩
  | stop message => exact absurd hsafe id
  | ask question behind ih =>
      obtain ⟨⟨reply, hadmits⟩, hnext⟩ := hanswerable
      obtain ⟨value, hvalue⟩ := ih reply (hsafe reply hadmits) (hnext reply hadmits)
      exact ⟨value, reply, hadmits, hvalue⟩

theorem yields_of_reaches {form form' : Form α} {labels : List (FormLabel E)}
    {complaint : Option String} (hrun : (machine E form).Reaches labels (.asking form' complaint))
    {value : α} (h : form'.Yields value) : form.Yields value := by
  let Back : Form α → Prop := fun reached => ∀ final, reached.Yields final → form.Yields final
  have hback : Back form' := by
    apply invariant (P := Back) _ _ hrun
    · exact fun final hfinal => hfinal
    · exact fun question behind reply hask hadmits final hfinal =>
        hask final ⟨reply, hadmits, hfinal⟩
  exact hback value h

/-- A dialogue that has failed has done so with the last label. -/
theorem getLast?_of_failed {form : Form α} {labels : List (FormLabel E)} {err : E}
    (hrun : (machine E form).Reaches labels (.failed err)) :
    labels.getLast? = some (.failed err) := by
  rcases List.eq_nil_or_concat labels with rfl | ⟨front, last, rfl⟩
  · cases hrun
  · rw [List.concat_eq_append] at hrun ⊢
    obtain ⟨mid, -, hlast⟩ := (Machine.exec_append _ _).mp hrun
    obtain ⟨next, hstep, hnil⟩ := Machine.exec_cons hlast
    obtain rfl : next = .failed err := Option.some.inj hnil
    obtain ⟨question, behind, complaint, rfl, hcases⟩ := step_cases hstep
    obtain ⟨reply, -, hnext⟩ | ⟨complaint', hnext⟩ | ⟨err', rfl, hnext⟩ := hcases
    · cases hnext
    · cases hnext
    · cases hnext
      exact List.getLast?_concat ..

/-- Dialogues come to exactly the values that the form yields. -/
theorem reaches_done_iff {form : Form α} {value : α} :
    (∃ labels complaint, (machine E form).Reaches labels (.asking (.done value) complaint)) ↔
      form.Yields value := by
  constructor
  · rintro ⟨labels, complaint, hrun⟩
    exact yields_of_reaches hrun rfl
  · intro hvalue
    obtain ⟨entries, complaint, hrun⟩ := exec_of_yields (E := E) form hvalue none
    exact ⟨_, complaint, hrun⟩

/-- Some dialogue is stopped exactly if the form is not safe. -/
theorem reaches_stop_iff {form : Form α} :
    (∃ labels message complaint,
      (machine E form).Reaches labels (.asking (.stop message) complaint)) ↔ ¬ form.Safe := by
  constructor
  · rintro ⟨labels, message, complaint, hrun⟩ hsafe
    exact invariant (P := Form.Safe) hsafe (fun question behind reply hask => hask reply) hrun
  · intro hnot
    obtain ⟨entries, message, complaint, hrun⟩ := exec_of_not_safe (E := E) form hnot none
    exact ⟨_, message, complaint, hrun⟩

/-- However badly a dialogue has been answered so far, it can be brought to an end. -/
theorem completes {form form' : Form α} {labels : List (FormLabel E)} {complaint : Option String}
    (hsafe : form.Safe) (hanswerable : form.Answerable)
    (hrun : (machine E form).Reaches labels (.asking form' complaint)) :
    ∃ (entries : List Entry) (value : α) (complaint' : Option String),
      (machine E form).exec (.asking form' complaint) (entries.map .entry) =
        some (.asking (.done value) complaint') ∧ form.Yields value := by
  have hsafe' := invariant (P := Form.Safe) hsafe (fun question behind reply hask => hask reply)
    hrun
  have hanswerable' := invariant (P := Form.Answerable) hanswerable
    (fun question behind reply hask => hask.2 reply) hrun
  obtain ⟨value, hvalue⟩ := yields_of_answerable hsafe' hanswerable'
  obtain ⟨entries, complaint', hexec⟩ := exec_of_yields (E := E) form hvalue complaint
  exact ⟨entries, value, complaint', hexec, yields_of_reaches hrun hvalue⟩

end Dialogue

-- From here on the predicates go by their equations: evaluating a form would run its parsers.
attribute [irreducible] Form.Yields Form.Safe Form.Answerable

end Sape.Foundation
