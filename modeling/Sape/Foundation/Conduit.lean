/-
  Foundation/Conduit.lean --- a stream with an end, and a copier that passes the end on.

  A `Conduit` is one direction of a connection: its writer sends and then closes, its
  reader takes what is there and comes to the end behind it.  A connection that is dropped
  is cut, and its reader may come to the end at any time.

  A `Splice` is a copier from one conduit to another, any number of items at a time.  When
  it has come to the end of the first and has nothing left, it closes the second.  `Spliced`
  is its invariant, behind a head on each stream as in `Foundation/Copy.lean`.

  WHAT IS PROVED.

      Conduit.sound_step     whoever comes to the end of a conduit that was not cut has taken
                             everything
      Spliced.move           a move of the copier keeps its invariant
      Spliced.behind         two copiers in a row deliver what was sent, in order, and then
                             the end
-/
import Sape.Foundation.Copy

set_option autoImplicit false

namespace Sape.Foundation

/-! ## Conduits -/

/-- One direction of a connection. -/
structure Conduit (α : Type) where
  sent : List α := []
  /-- how much of it was taken -/
  taken : Nat := 0
  /-- the writer has shut its side down -/
  closed : Bool := false
  /-- the connection was dropped -/
  cut : Bool := false
  /-- the reader has come to the end -/
  finished : Bool := false
  deriving DecidableEq, Repr, Inhabited

/-- What the two ends of a conduit do. -/
inductive ConduitAct (α : Type) where
  | send (items : List α)
  | close
  | receive (items : List α)
  | finish
  deriving DecidableEq, Repr, Inhabited

/-- Whether an act is the writer's. -/
def ConduitAct.writes {α : Type} : ConduitAct α → Bool
  | .send _ => true
  | .close => true
  | .receive _ => false
  | .finish => false

namespace Conduit

variable {α : Type}

/-- What is there to be taken. -/
def unread (conduit : Conduit α) : List α := conduit.sent.drop conduit.taken

/-- What was taken. -/
def received (conduit : Conduit α) : List α := conduit.sent.take conduit.taken

/-- Whether the reader can come to the end. -/
def Ended (conduit : Conduit α) : Prop :=
  conduit.cut = true ∨ (conduit.closed = true ∧ conduit.unread = [])

instance [DecidableEq α] (conduit : Conduit α) : Decidable conduit.Ended :=
  inferInstanceAs (Decidable (_ ∨ _))

def put (conduit : Conduit α) (items : List α) : Conduit α :=
  { conduit with sent := conduit.sent ++ items }

def skip (conduit : Conduit α) (count : Nat) : Conduit α :=
  { conduit with taken := conduit.taken + count }

def shut (conduit : Conduit α) : Conduit α := { conduit with closed := true }

def drop (conduit : Conduit α) : Conduit α := { conduit with cut := true }

def finish (conduit : Conduit α) : Conduit α := { conduit with finished := true }

/-- An act of one of the ends. -/
def step [DecidableEq α] (conduit : Conduit α) : ConduitAct α → Option (Conduit α)
  | .send items => if conduit.closed = true then none else some (conduit.put items)
  | .close => if conduit.closed = true then none else some conduit.shut
  | .receive items =>
      if items <+: conduit.unread ∧ conduit.finished = false then some (conduit.skip items.length)
      else none
  | .finish =>
      if conduit.Ended ∧ conduit.finished = false then some conduit.finish else none

@[simp] theorem put_sent (conduit : Conduit α) (items : List α) :
    (conduit.put items).sent = conduit.sent ++ items := rfl
@[simp] theorem put_taken (conduit : Conduit α) (items : List α) :
    (conduit.put items).taken = conduit.taken := rfl
@[simp] theorem skip_sent (conduit : Conduit α) (count : Nat) :
    (conduit.skip count).sent = conduit.sent := rfl
@[simp] theorem skip_taken (conduit : Conduit α) (count : Nat) :
    (conduit.skip count).taken = conduit.taken + count := rfl

/-- Nobody takes more than there is, and whoever comes to the end of a conduit that was not
cut has taken everything behind which it was closed. -/
structure Sound (conduit : Conduit α) : Prop where
  taken : conduit.taken ≤ conduit.sent.length
  finished : conduit.finished = true → conduit.Ended

theorem Sound.start : (({} : Conduit α)).Sound := ⟨Nat.le_refl _, fun h => by cases h⟩

theorem Sound.drop {conduit : Conduit α} (h : conduit.Sound) : conduit.drop.Sound :=
  ⟨h.taken, fun _ => .inl rfl⟩

theorem Sound.put_received {conduit : Conduit α} (hsound : conduit.Sound) (items : List α) :
    (conduit.put items).received = conduit.received := by
  rw [received, put_sent, put_taken, List.take_append_of_le_length hsound.taken, received]

theorem skip_received {conduit : Conduit α} {items : List α} (h : items <+: conduit.unread) :
    (conduit.skip items.length).received = conduit.received ++ items := by
  rw [received, skip_sent, skip_taken, List.take_add, ← unread, ← List.prefix_iff_eq_take.mp h,
    received]

@[simp] theorem shut_received (conduit : Conduit α) :
    conduit.shut.received = conduit.received := rfl
@[simp] theorem finish_received (conduit : Conduit α) :
    conduit.finish.received = conduit.received := rfl
@[simp] theorem drop_received (conduit : Conduit α) :
    conduit.drop.received = conduit.received := rfl

theorem sound_step [DecidableEq α] {conduit next : Conduit α} {act : ConduitAct α}
    (hsound : conduit.Sound) (h : conduit.step act = some next) : next.Sound := by
  cases act with
  | send items =>
      simp only [step] at h
      split at h
      · cases h
      · rename_i hopen
        obtain rfl := Option.some.inj h
        refine ⟨?_, fun hfinished => ?_⟩
        · rw [put_taken, put_sent, List.length_append]
          exact Nat.le_trans hsound.taken (Nat.le_add_right _ _)
        · rcases hsound.finished hfinished with hcut | ⟨hclosed, -⟩
          · exact .inl hcut
          · exact absurd hclosed hopen
  | close =>
      simp only [step] at h
      split at h
      · cases h
      · rename_i hopen
        obtain rfl := Option.some.inj h
        refine ⟨hsound.taken, fun hfinished => ?_⟩
        rcases hsound.finished hfinished with hcut | ⟨hclosed, -⟩
        · exact .inl hcut
        · exact absurd hclosed hopen
  | receive items =>
      simp only [step] at h
      split at h
      · rename_i hitems
        obtain rfl := Option.some.inj h
        refine ⟨?_, fun hfinished => ?_⟩
        · have hlen := hitems.1.length_le
          rw [unread, List.length_drop] at hlen
          have htaken := hsound.taken
          rw [skip_taken, skip_sent]
          omega
        · rw [show (conduit.skip items.length).finished = conduit.finished from rfl,
            hitems.2] at hfinished
          cases hfinished
      · cases h
  | finish =>
      simp only [step] at h
      split at h
      · rename_i hended
        obtain rfl := Option.some.inj h
        exact ⟨hsound.taken, fun _ => hended.1⟩
      · cases h

/-- No act of an end cuts a conduit. -/
theorem step_cut [DecidableEq α] {conduit next : Conduit α} {act : ConduitAct α}
    (h : conduit.step act = some next) : next.cut = conduit.cut := by
  cases act with
  | send items | close =>
      simp only [step] at h
      split at h
      · cases h
      · obtain rfl := Option.some.inj h
        rfl
  | receive items | finish =>
      simp only [step] at h
      split at h
      · obtain rfl := Option.some.inj h
        rfl
      · cases h

theorem Sound.received_eq {conduit : Conduit α} (hsound : conduit.Sound)
    (hfinished : conduit.finished = true) (hcut : conduit.cut = false) :
    conduit.closed = true ∧ conduit.received = conduit.sent := by
  rcases hsound.finished hfinished with h | ⟨hclosed, hunread⟩
  · rw [hcut] at h
    cases h
  · exact ⟨hclosed, List.take_of_length_le (List.drop_eq_nil_iff.mp hunread)⟩

end Conduit

/-! ## Copiers -/

/-- A copier from one conduit to another: what it has taken off the first and not yet put
on the second, how much it has put there, and whether it has passed the end on. -/
structure Splice (α : Type) where
  buf : List α := []
  amount : Nat := 0
  done : Bool := false
  deriving DecidableEq, Repr, Inhabited

/-- A move of a copier. -/
inductive SpliceMove where
  | read (count : Nat)
  | write (count : Nat)
  /-- the end of the first conduit is passed on to the second -/
  | shut
  deriving DecidableEq, Repr, Inhabited

variable {α : Type}

/-- The copier and its two conduits behind a move. -/
def Splice.step [DecidableEq α] (splice : Splice α) (source sink : Conduit α) :
    SpliceMove → Option (Splice α × Conduit α × Conduit α)
  | .read count =>
      if splice.done = false ∧ count ≤ source.unread.length then
        some ({ splice with buf := splice.buf ++ source.unread.take count },
          source.skip count, sink)
      else none
  | .write count =>
      if count ≤ splice.buf.length then
        some ({ splice with buf := splice.buf.drop count, amount := splice.amount + count },
          source, sink.put (splice.buf.take count))
      else none
  | .shut =>
      if splice.done = false ∧ splice.buf = [] ∧ source.Ended then
        some ({ splice with done := true }, source.finish, sink.shut)
      else none

/-- What a copier leaves alone: what the writer of the first conduit and the reader of the
second have done. -/
structure Splice.Leaves (source sink source' sink' : Conduit α) : Prop where
  sent : source'.sent = source.sent
  closed : source'.closed = source.closed
  cut : source'.cut = source.cut
  taken : sink'.taken = sink.taken
  cutSink : sink'.cut = sink.cut
  finished : sink'.finished = sink.finished

theorem Splice.Leaves.refl (source sink : Conduit α) : Leaves source sink source sink :=
  ⟨rfl, rfl, rfl, rfl, rfl, rfl⟩

theorem Splice.Leaves.trans {source sink source' sink' source'' sink'' : Conduit α}
    (h : Leaves source sink source' sink') (h' : Leaves source' sink' source'' sink'') :
    Leaves source sink source'' sink'' :=
  ⟨h'.sent.trans h.sent, h'.closed.trans h.closed, h'.cut.trans h.cut, h'.taken.trans h.taken,
    h'.cutSink.trans h.cutSink, h'.finished.trans h.finished⟩

theorem Splice.step_leaves [DecidableEq α] {splice splice' : Splice α}
    {source sink source' sink' : Conduit α} {action : SpliceMove}
    (hstep : splice.step source sink action = some (splice', source', sink')) :
    Leaves source sink source' sink' := by
  cases action with
  | read count =>
      simp only [Splice.step] at hstep
      split at hstep
      · simp only [Option.some.injEq, Prod.mk.injEq] at hstep
        obtain ⟨-, rfl, rfl⟩ := hstep
        exact ⟨rfl, rfl, rfl, rfl, rfl, rfl⟩
      · cases hstep
  | write count =>
      simp only [Splice.step] at hstep
      split at hstep
      · simp only [Option.some.injEq, Prod.mk.injEq] at hstep
        obtain ⟨-, rfl, rfl⟩ := hstep
        exact ⟨rfl, rfl, rfl, rfl, rfl, rfl⟩
      · cases hstep
  | shut =>
      simp only [Splice.step] at hstep
      split at hstep
      · simp only [Option.some.injEq, Prod.mk.injEq] at hstep
        obtain ⟨-, rfl, rfl⟩ := hstep
        exact ⟨rfl, rfl, rfl, rfl, rfl, rfl⟩
      · cases hstep

/-- A list of moves. -/
def Splice.runs [DecidableEq α] (splice : Splice α) (source sink : Conduit α) :
    List SpliceMove → Option (Splice α × Conduit α × Conduit α)
  | [] => some (splice, source, sink)
  | move :: moves =>
      match splice.step source sink move with
      | none => none
      | some (splice', source', sink') => splice'.runs source' sink' moves

section Moves

variable [DecidableEq α] {splice splice' : Splice α} {source source' sink sink' : Conduit α}

theorem Splice.runs_nil (splice : Splice α) (source sink : Conduit α) :
    splice.runs source sink [] = some (splice, source, sink) := rfl

theorem Splice.runs_cons {move : SpliceMove} {moves : List SpliceMove}
    {final : Splice α × Conduit α × Conduit α}
    (hstep : splice.step source sink move = some (splice', source', sink'))
    (hruns : splice'.runs source' sink' moves = some final) :
    splice.runs source sink (move :: moves) = some final := by
  simp only [runs, hstep]
  exact hruns

theorem Splice.runs_leaves (moves : List SpliceMove) :
    ∀ {splice : Splice α} {source sink : Conduit α},
      splice.runs source sink moves = some (splice', source', sink') →
      Leaves source sink source' sink' := by
  induction moves with
  | nil =>
      intro splice source sink hruns
      simp only [runs, Option.some.injEq, Prod.mk.injEq] at hruns
      obtain ⟨rfl, rfl, rfl⟩ := hruns
      exact .refl _ _
  | cons move moves ih =>
      intro splice source sink hruns
      simp only [runs] at hruns
      split at hruns
      · cases hruns
      · rename_i hmove
        exact (step_leaves hmove).trans (ih hruns)

/-- A copier can read everything that is there. -/
theorem Splice.read_all (source sink : Conduit α) (hdone : splice.done = false) :
    splice.step source sink (.read source.unread.length) =
      some ({ splice with buf := splice.buf ++ source.unread },
        source.skip source.unread.length, sink) := by
  rw [step, if_pos ⟨hdone, Nat.le_refl _⟩, List.take_length]

/-- A copier can write everything that it has read. -/
theorem Splice.write_all (splice : Splice α) (source sink : Conduit α) :
    splice.step source sink (.write splice.buf.length) =
      some ({ splice with buf := [], amount := splice.amount + splice.buf.length },
        source, sink.put splice.buf) := by
  rw [step, if_pos (Nat.le_refl _), List.drop_length, List.take_length]

theorem Splice.runs_drain (splice : Splice α) (source sink : Conduit α)
    (hdone : splice.done = false) {moves : List SpliceMove}
    {final : Splice α × Conduit α × Conduit α}
    (hrest : Splice.runs
      { buf := [], amount := splice.amount + (splice.buf ++ source.unread).length
        done := splice.done }
      (source.skip source.unread.length) (sink.put (splice.buf ++ source.unread)) moves =
        some final) :
    splice.runs source sink
      (.read source.unread.length :: .write (splice.buf ++ source.unread).length :: moves) =
        some final :=
  Splice.runs_cons (Splice.read_all source sink hdone)
    (Splice.runs_cons (Splice.write_all { splice with buf := splice.buf ++ source.unread } _ sink)
      hrest)

/-- A copier with an empty buffer can pass on the end of its source. -/
theorem Splice.shut_all (splice : Splice α) (source sink : Conduit α)
    (hdone : splice.done = false) (hbuf : splice.buf = []) (hended : source.Ended) :
    splice.step source sink .shut =
      some ({ splice with done := true }, source.finish, sink.shut) := by
  rw [step, if_pos ⟨hdone, hbuf, hended⟩]

end Moves

/-- What the third of three conduits in a row has from the first: its beginning, and behind
the end all of it, unless one of the first two was cut. -/
structure Carries (first second third : Conduit α) : Prop where
  sent : third.sent <+: first.sent
  closed : third.closed = true → first.cut = true ∨ second.cut = true ∨
    (first.closed = true ∧ third.sent = first.sent)

/-- The invariant of a copier behind a head on each stream. -/
structure Spliced (headIn : List α) (source : Conduit α) (splice : Splice α)
    (headOut : List α) (sink : Conduit α) : Prop where
  copied : Copied headIn source.sent source.taken splice.buf headOut sink.sent
  amount : sink.sent.length = headOut.length + splice.amount
  done : splice.done = true → splice.buf = [] ∧ source.Ended
  closed : sink.closed = true ↔ splice.done = true

namespace Spliced

variable {headIn headOut : List α} {source sink : Conduit α} {splice : Splice α}

/-- A copier that has not begun, behind the two heads. -/
theorem start {source sink : Conduit α} (hhead : headIn <+: source.sent)
    (htaken : source.taken = headIn.length) (hsink : sink.sent = headOut)
    (hopen : sink.closed = false) : Spliced headIn source {} headOut sink where
  copied := hsink ▸ Copied.start headOut hhead htaken
  amount := by rw [hsink]; rfl
  done h := by cases h
  closed := by rw [hopen]

/-- A move of the copier keeps its invariant. -/
theorem move [DecidableEq α] {splice' : Splice α} {source' sink' : Conduit α}
    {action : SpliceMove}
    (h : Spliced headIn source splice headOut sink)
    (hstep : splice.step source sink action = some (splice', source', sink')) :
    Spliced headIn source' splice' headOut sink' := by
  cases action with
  | read count =>
      simp only [Splice.step] at hstep
      split at hstep
      · rename_i hcount
        simp only [Option.some.injEq, Prod.mk.injEq] at hstep
        obtain ⟨rfl, rfl, rfl⟩ := hstep
        refine ⟨h.copied.read hcount.2, h.amount, fun hdone => ?_, h.closed⟩
        rw [hcount.1] at hdone
        cases hdone
      · cases hstep
  | write count =>
      simp only [Splice.step] at hstep
      split at hstep
      · rename_i hcount
        simp only [Option.some.injEq, Prod.mk.injEq] at hstep
        obtain ⟨rfl, rfl, rfl⟩ := hstep
        refine ⟨h.copied.write count, ?_, fun hdone => ?_, h.closed⟩
        · rw [Conduit.put_sent, List.length_append, List.length_take, Nat.min_eq_left hcount,
            h.amount, Nat.add_assoc]
        · obtain ⟨hbuf, hended⟩ := h.done hdone
          exact ⟨by rw [hbuf, List.drop_nil], hended⟩
      · cases hstep
  | shut =>
      simp only [Splice.step] at hstep
      split at hstep
      · rename_i hend
        simp only [Option.some.injEq, Prod.mk.injEq] at hstep
        obtain ⟨rfl, rfl, rfl⟩ := hstep
        exact ⟨h.copied, h.amount, fun _ => hend.2, fun _ => rfl, fun _ => rfl⟩
      · cases hstep

theorem put (h : Spliced headIn source splice headOut sink) (items : List α)
    (hopen : source.closed = false) : Spliced headIn (source.put items) splice headOut sink where
  copied := h.copied.grow (List.prefix_append _ _)
  amount := h.amount
  done hdone := by
    obtain ⟨hbuf, hcut | ⟨hclosed, -⟩⟩ := h.done hdone
    · exact ⟨hbuf, .inl hcut⟩
    · rw [hopen] at hclosed
      cases hclosed
  closed := h.closed

theorem shut (h : Spliced headIn source splice headOut sink) :
    Spliced headIn source.shut splice headOut sink where
  copied := h.copied
  amount := h.amount
  done hdone := by
    obtain ⟨hbuf, hcut | ⟨-, hunread⟩⟩ := h.done hdone
    · exact ⟨hbuf, .inl hcut⟩
    · exact ⟨hbuf, .inr ⟨rfl, hunread⟩⟩
  closed := h.closed

theorem drop (h : Spliced headIn source splice headOut sink) :
    Spliced headIn source.drop splice headOut sink :=
  ⟨h.copied, h.amount, fun hdone => ⟨(h.done hdone).1, .inl rfl⟩, h.closed⟩

/-- The reader of the second conduit does not matter. -/
theorem congr {sink' : Conduit α} (h : Spliced headIn source splice headOut sink)
    (hsent : sink'.sent = sink.sent) (hclosed : sink'.closed = sink.closed) :
    Spliced headIn source splice headOut sink' :=
  ⟨hsent ▸ h.copied, hsent ▸ h.amount, h.done, hclosed ▸ h.closed⟩

/-- A copier that has not begun has taken its head, and put nothing behind the other. -/
theorem of_idle (h : Spliced headIn source {} headOut sink) :
    headIn <+: source.sent ∧ source.taken = headIn.length ∧ sink.sent = headOut := by
  obtain ⟨moved, hmoved, htaken, hwritten⟩ := h.copied
  have hlen := congrArg List.length hwritten
  have hamount : sink.sent.length = headOut.length + 0 := h.amount
  rw [List.append_nil, List.length_append, hamount] at hlen
  obtain rfl : moved = [] := List.length_eq_zero_iff.mp (by omega)
  rw [List.append_nil] at hmoved htaken
  rw [List.append_nil, List.append_nil] at hwritten
  exact ⟨hmoved, htaken.symm, hwritten⟩

/-- Where the copier has not begun, what is written on the second conduit is more of its
head. -/
theorem extend (h : Spliced headIn source {} headOut sink) (items : List α) :
    Spliced headIn source {} (headOut ++ items) (sink.put items) := by
  obtain ⟨hhead, htaken, hsent⟩ := h.of_idle
  have hopen : sink.closed = false := Bool.eq_false_iff.mpr fun hclosed => by
    cases h.closed.mp hclosed
  exact start hhead htaken (by rw [Conduit.put_sent, hsent]) hopen

theorem written [DecidableEq α] {source' : Conduit α} {action : ConduitAct α}
    (h : Spliced headIn source splice headOut sink) (hwrites : action.writes = true)
    (hstep : source.step action = some source') :
    Spliced headIn source' splice headOut sink := by
  cases action with
  | send items =>
      simp only [Conduit.step] at hstep
      split at hstep
      · cases hstep
      · rename_i hopen
        obtain rfl := Option.some.inj hstep
        exact h.put items (Bool.eq_false_iff.mpr hopen)
  | close =>
      simp only [Conduit.step] at hstep
      split at hstep
      · cases hstep
      · obtain rfl := Option.some.inj hstep
        exact h.shut
  | receive items => cases hwrites
  | finish => cases hwrites

theorem readOff [DecidableEq α] {sink' : Conduit α} {action : ConduitAct α}
    (h : Spliced headIn source splice headOut sink) (hwrites : action.writes = false)
    (hstep : sink.step action = some sink') : Spliced headIn source splice headOut sink' := by
  cases action with
  | send items => cases hwrites
  | close => cases hwrites
  | receive items =>
      simp only [Conduit.step] at hstep
      split at hstep
      · obtain rfl := Option.some.inj hstep
        exact h.congr rfl rfl
      · cases hstep
  | finish =>
      simp only [Conduit.step] at hstep
      split at hstep
      · obtain rfl := Option.some.inj hstep
        exact h.congr rfl rfl
      · cases hstep

theorem upstream [DecidableEq α] {headFar : List α}
    {first second third first' second' : Conduit α} {near near' far : Splice α}
    {action : SpliceMove} (hnear : Spliced headIn first near headOut second)
    (hfar : Spliced headOut second far headFar third)
    (hstep : near.step first second action = some (near', first', second')) :
    Spliced headOut second' far headFar third := by
  cases action with
  | read count =>
      simp only [Splice.step] at hstep
      split at hstep
      · simp only [Option.some.injEq, Prod.mk.injEq] at hstep
        exact hstep.2.2 ▸ hfar
      · cases hstep
  | write count =>
      simp only [Splice.step] at hstep
      split at hstep
      · simp only [Option.some.injEq, Prod.mk.injEq] at hstep
        obtain ⟨-, -, rfl⟩ := hstep
        cases hopen : second.closed with
        | false => exact hfar.put _ hopen
        | true =>
            -- a copier that has passed the end on has nothing left to write
            rw [(hnear.done (hnear.closed.mp hopen)).1, List.take_nil]
            exact ⟨hfar.copied.grow (List.prefix_append _ _), hfar.amount, fun hdone => by
              obtain ⟨hbuf, hcut | ⟨hclosed, hunread⟩⟩ := hfar.done hdone
              · exact ⟨hbuf, .inl hcut⟩
              · refine ⟨hbuf, .inr ⟨hclosed, ?_⟩⟩
                rwa [Conduit.unread, Conduit.put_sent, List.append_nil], hfar.closed⟩
      · cases hstep
  | shut =>
      simp only [Splice.step] at hstep
      split at hstep
      · simp only [Option.some.injEq, Prod.mk.injEq] at hstep
        obtain ⟨-, -, rfl⟩ := hstep
        exact hfar.shut
      · cases hstep

theorem downstream [DecidableEq α] {first second third second' third' : Conduit α}
    {near far far' : Splice α} {action : SpliceMove}
    (hnear : Spliced headIn first near headOut second)
    (hstep : far.step second third action = some (far', second', third')) :
    Spliced headIn first near headOut second' := by
  exact hnear.congr (Splice.step_leaves hstep).sent (Splice.step_leaves hstep).closed

/-- Two copiers in a row that have nothing left: everything that went in has come out. -/
theorem all_through {head : List α} {first second third : Conduit α} {near far : Splice α}
    (hnear : Spliced [] first near head second) (hfar : Spliced head second far [] third)
    (hbuf : near.buf = []) (hfirst : first.unread = []) (hbuf' : far.buf = [])
    (hsecond : second.unread = []) : third.sent = first.sent := by
  have hall : second.sent = head ++ first.sent := by
    have hwritten := hnear.copied.written_append (List.prefix_refl first.sent)
    rwa [hbuf, List.append_nil, List.length_nil, Nat.sub_zero,
      List.take_of_length_le (List.drop_eq_nil_iff.mp hfirst)] at hwritten
  have htaken : head.length + first.sent.length ≤ second.taken := by
    have hle := List.drop_eq_nil_iff.mp hsecond
    rwa [hall, List.length_append] at hle
  have hwritten := hfar.copied.written_append (hnear.copied.faithful List.prefix_rfl)
  have hle : first.sent.length ≤ second.taken - head.length := by omega
  rwa [hbuf', List.append_nil, List.nil_append, List.take_of_length_le hle] at hwritten

/-- Two copiers in a row: what comes out is the beginning of what goes in, and behind the
end it is all of it. -/
theorem behind {head : List α} {first second third : Conduit α} {near far : Splice α}
    (hnear : Spliced [] first near head second) (hfar : Spliced head second far [] third) :
    Carries first second third := by
  refine ⟨hfar.copied.faithful (hnear.copied.faithful List.prefix_rfl), fun hclosed => ?_⟩
  obtain ⟨hbuf, hcut | ⟨hclosed', hunread⟩⟩ := hfar.done (hfar.closed.mp hclosed)
  · exact .inr (.inl hcut)
  obtain ⟨hbuf', hcut | ⟨hclosed'', hunread'⟩⟩ := hnear.done (hnear.closed.mp hclosed')
  · exact .inl hcut
  exact .inr (.inr ⟨hclosed'', all_through hnear hfar hbuf' hunread' hbuf hunread⟩)

/-- A copier that has passed the end on has nothing left, unless its first conduit was cut. -/
theorem settled_of_done (h : Spliced headIn source splice headOut sink)
    (hcut : source.cut = false) (hdone : splice.done = true) :
    splice.buf = [] ∧ source.unread = [] := by
  obtain ⟨hbuf, hcut' | ⟨-, hunread⟩⟩ := h.done hdone
  · rw [hcut] at hcut'
    cases hcut'
  · exact ⟨hbuf, hunread⟩

end Spliced

/-- One that has not can always get rid of what there is, and pass the end on. -/
theorem Splice.flush [DecidableEq α] (splice : Splice α) (source sink : Conduit α)
    (hdone : splice.done = false) :
    ∃ moves splice' source' sink',
      splice.runs source sink moves = some (splice', source', sink') ∧
      splice'.buf = [] ∧ source'.unread = [] ∧ (source'.closed = true → splice'.done = true) := by
  have hunread : (source.skip source.unread.length).unread = [] := by
    rw [Conduit.unread, Conduit.skip_sent, Conduit.skip_taken, Conduit.unread, List.length_drop]
    exact List.drop_eq_nil_iff.mpr (by omega)
  cases hclosed : source.closed with
  | false =>
      have hruns := Splice.runs_drain splice source sink hdone (Splice.runs_nil _ _ _)
      refine ⟨_, _, _, _, hruns, rfl, hunread, fun hclosed' => ?_⟩
      rw [show (source.skip _).closed = source.closed from rfl, hclosed] at hclosed'
      cases hclosed'
  | true =>
      have hruns := Splice.runs_drain splice source sink hdone
        (Splice.runs_cons (Splice.shut_all _ _ _ hdone rfl (.inr ⟨hclosed, hunread⟩))
          (Splice.runs_nil _ _ _))
      exact ⟨_, _, _, _, hruns, rfl, hunread, fun _ => rfl⟩

end Sape.Foundation
