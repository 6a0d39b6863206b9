/-
  Foundation/Lane.lean --- any number of copiers in a row.

  A lane is one direction of a chain of connections: conduit `i` leads into place `i`, and
  the copier at place `i` takes from it and puts on conduit `i + 1`.  `Lane.ends` is what
  the writer of the first conduit and the reader of the last one see of it, a conduit.

  WHAT IS PROVED.

      Lane.carries       what comes out is the beginning of what goes in, and behind the end all
                         of it
      Lane.sound_move    a move of a copier keeps the invariant, and nobody at the ends sees it
      Lane.sound_write, Lane.sound_read
                         what is done at the ends is done to the conduit that they see
      Lane.flush         unless something was cut, the copiers can get rid of all there is
      Lane.exists_spread
                         a lane in the middle of its copies comes about in a run
-/
import Sape.Foundation.Duplex

set_option autoImplicit false

namespace Sape.Foundation

variable {α : Type}

/-! ## Acts of one end -/

namespace Conduit

variable [DecidableEq α] {conduit next : Conduit α} {action : ConduitAct α}

/-- A writer leaves alone what the reader has done. -/
theorem write_leaves (hwrites : action.writes = true) (h : conduit.step action = some next) :
    next.taken = conduit.taken ∧ next.cut = conduit.cut ∧ next.finished = conduit.finished := by
  cases action with
  | send items | close =>
      simp only [step] at h
      split at h
      · cases h
      · obtain rfl := Option.some.inj h
        exact ⟨rfl, rfl, rfl⟩
  | receive items => cases hwrites
  | finish => cases hwrites

/-- A reader leaves alone what the writer has done. -/
theorem read_leaves (hwrites : action.writes = false) (h : conduit.step action = some next) :
    next.sent = conduit.sent ∧ next.closed = conduit.closed ∧ next.cut = conduit.cut := by
  cases action with
  | send items => cases hwrites
  | close => cases hwrites
  | receive items | finish =>
      simp only [step] at h
      split at h
      · obtain rfl := Option.some.inj h
        exact ⟨rfl, rfl, rfl⟩
      · cases h

end Conduit

/-! ## One copier -/

/-- A copier that has nothing left has handed on all it was given. -/
theorem Spliced.sent_of_settled {source sink : Conduit α} {splice : Splice α}
    (h : Spliced [] source splice [] sink) (hbuf : splice.buf = [])
    (hunread : source.unread = []) : sink.sent = source.sent := by
  have hwritten := h.copied.written_append (List.prefix_refl source.sent)
  rwa [hbuf, List.append_nil, List.length_nil, Nat.sub_zero,
    List.take_of_length_le (List.drop_eq_nil_iff.mp hunread)] at hwritten

theorem Spliced.carries_one {source sink : Conduit α} {splice : Splice α}
    (h : Spliced [] source splice [] sink) :
    sink.sent <+: source.sent ∧ (sink.closed = true → source.cut = true ∨
      (source.closed = true ∧ sink.sent = source.sent)) := by
  refine ⟨h.copied.faithful List.prefix_rfl, fun hclosed => ?_⟩
  obtain ⟨hbuf, hcut | ⟨hclosed', hunread⟩⟩ := h.done (h.closed.mp hclosed)
  · exact .inl hcut
  · exact .inr ⟨hclosed', h.sent_of_settled hbuf hunread⟩

/-! ## Lanes -/

/-- Conduits in a row, with a copier from each to the next. -/
structure Lane (α : Type) where
  conduit : Nat → Conduit α := fun _ => {}
  splice : Nat → Splice α := fun _ => {}

namespace Lane

def setConduit (lane : Lane α) (i : Nat) (conduit : Conduit α) : Lane α :=
  { lane with conduit := fun j => if j = i then conduit else lane.conduit j }

/-- The copier at place `i` and its two conduits are exchanged. -/
def place (lane : Lane α) (i : Nat) (splice : Splice α) (source sink : Conduit α) : Lane α where
  conduit j := if j = i then source else if j = i + 1 then sink else lane.conduit j
  splice j := if j = i then splice else lane.splice j

@[simp] theorem setConduit_self (lane : Lane α) (i : Nat) (conduit : Conduit α) :
    (lane.setConduit i conduit).conduit i = conduit := if_pos rfl
@[simp] theorem setConduit_ne (lane : Lane α) {i j : Nat} (conduit : Conduit α) (h : j ≠ i) :
    (lane.setConduit i conduit).conduit j = lane.conduit j := if_neg h
@[simp] theorem setConduit_splice (lane : Lane α) (i : Nat) (conduit : Conduit α) :
    (lane.setConduit i conduit).splice = lane.splice := rfl

section Place

variable (lane : Lane α) (i : Nat) (splice : Splice α) (source sink : Conduit α)

@[simp] theorem place_source : (lane.place i splice source sink).conduit i = source := if_pos rfl
@[simp] theorem place_sink : (lane.place i splice source sink).conduit (i + 1) = sink := by
  simp [place]
@[simp] theorem place_splice : (lane.place i splice source sink).splice i = splice := if_pos rfl

theorem place_conduit_ne {j : Nat} (hi : j ≠ i) (hi' : j ≠ i + 1) :
    (lane.place i splice source sink).conduit j = lane.conduit j := by
  simp [place, hi, hi']

theorem place_splice_ne {j : Nat} (hi : j ≠ i) :
    (lane.place i splice source sink).splice j = lane.splice j := if_neg hi

theorem place_place (splice' : Splice α) (source' sink' : Conduit α) :
    (lane.place i splice source sink).place i splice' source' sink' =
      lane.place i splice' source' sink' := by
  unfold place
  congr 1
  · funext j
    by_cases hi : j = i
    · simp [hi]
    · by_cases hi' : j = i + 1
      · simp [hi']
      · simp [hi, hi']
  · funext j
    by_cases hi : j = i
    · simp [hi]
    · simp [hi]

theorem place_self :
    lane.place i (lane.splice i) (lane.conduit i) (lane.conduit (i + 1)) = lane := by
  obtain ⟨conduit, splice⟩ := lane
  unfold place
  congr 1
  · funext j
    by_cases hi : j = i
    · simp [hi]
    · by_cases hi' : j = i + 1
      · simp [hi']
      · simp [hi, hi']
  · funext j
    by_cases hi : j = i
    · simp [hi]
    · simp [hi]

end Place

/-- Whether one of the conduits up to place `n` was cut. -/
def anyCut (n : Nat) (lane : Lane α) : Bool :=
  (List.range (n + 1)).any fun i => (lane.conduit i).cut

theorem anyCut_eq_false {n : Nat} {lane : Lane α} :
    lane.anyCut n = false ↔ ∀ i, i ≤ n → (lane.conduit i).cut = false := by
  simp only [anyCut, List.any_eq_false, List.mem_range, Nat.lt_succ_iff, Bool.not_eq_true]

theorem anyCut_eq_true {n : Nat} {lane : Lane α} :
    lane.anyCut n = true ↔ ∃ i, i ≤ n ∧ (lane.conduit i).cut = true := by
  simp only [anyCut, List.any_eq_true, List.mem_range, Nat.lt_succ_iff]

/-- What the writer of the first conduit and the reader of the last see. -/
def ends (n : Nat) (lane : Lane α) : Conduit α :=
  .through (lane.conduit 0) { cut := lane.anyCut n } (lane.conduit n)

theorem cut_of_ends {n : Nat} {lane : Lane α} (huncut : (lane.ends n).cut = false) {i : Nat}
    (hi : i ≤ n) : (lane.conduit i).cut = false :=
  anyCut_eq_false.mp (Bool.or_eq_false_iff.mp (Bool.or_eq_false_iff.mp huncut).1).2 i hi

/-- The invariant of all copiers in front of place `n`. -/
def Sound (n : Nat) (lane : Lane α) : Prop :=
  ∀ i, i < n → Spliced [] (lane.conduit i) (lane.splice i) [] (lane.conduit (i + 1))

theorem sound_start (n : Nat) : Sound n ({} : Lane α) :=
  fun _ _ => .start List.nil_prefix rfl rfl rfl

theorem ends_start (n : Nat) : ({} : Lane α).ends n = {} := by
  have hcut : ({} : Lane α).anyCut n = false := anyCut_eq_false.mpr fun _ _ => rfl
  simp only [ends, Conduit.through, hcut]
  rfl

/-- What comes out at place `i` is the beginning of what goes in, and behind the end it is all
of it, unless something in between was cut. -/
theorem carries {n : Nat} {lane : Lane α} (hsound : lane.Sound n) :
    Carries (lane.conduit 0) { cut := lane.anyCut n } (lane.conduit n) := by
  have main : ∀ i, i ≤ n → (lane.conduit i).sent <+: (lane.conduit 0).sent ∧
      ((lane.conduit i).closed = true → lane.anyCut n = true ∨
        ((lane.conduit 0).closed = true ∧ (lane.conduit i).sent = (lane.conduit 0).sent)) := by
    intro i
    induction i with
    | zero => exact fun _ => ⟨List.prefix_rfl, fun hclosed => .inr ⟨hclosed, rfl⟩⟩
    | succ i ih =>
        intro hle
        obtain ⟨hsent, hclosed⟩ := ih (Nat.le_of_succ_le hle)
        obtain ⟨hsent', hclosed'⟩ := (hsound i hle).carries_one
        refine ⟨hsent'.trans hsent, fun h => ?_⟩
        rcases hclosed' h with hcut | ⟨hfirst, heq⟩
        · exact .inl (anyCut_eq_true.mpr ⟨i, Nat.le_of_succ_le hle, hcut⟩)
        · refine (hclosed hfirst).imp_right fun hall => ⟨hall.1, heq.trans hall.2⟩
  obtain ⟨hsent, hclosed⟩ := main n (Nat.le_refl n)
  exact ⟨hsent, fun h => .inr (hclosed h)⟩

theorem ends_congr {n : Nat} {lane next : Lane α}
    (hfirst : (next.conduit 0).sent = (lane.conduit 0).sent ∧
      (next.conduit 0).closed = (lane.conduit 0).closed)
    (hlast : (next.conduit n).taken = (lane.conduit n).taken ∧
      (next.conduit n).finished = (lane.conduit n).finished)
    (hcut : ∀ i, i ≤ n → (next.conduit i).cut = (lane.conduit i).cut) :
    next.ends n = lane.ends n := by
  have hany : next.anyCut n = lane.anyCut n := by
    rw [Bool.eq_iff_iff, anyCut_eq_true, anyCut_eq_true]
    constructor
    · rintro ⟨i, hle, h⟩
      exact ⟨i, hle, (hcut i hle).symm.trans h⟩
    · rintro ⟨i, hle, h⟩
      exact ⟨i, hle, (hcut i hle).trans h⟩
  simp only [ends, Conduit.through, hfirst.1, hfirst.2, hlast.1, hlast.2, hany,
    hcut 0 (Nat.zero_le n), hcut n (Nat.le_refl n)]

/-! ## Copiers -/

/-- A move of the copier at place `i`. -/
def move [DecidableEq α] (lane : Lane α) (i : Nat) (action : SpliceMove) : Option (Lane α) :=
  ((lane.splice i).step (lane.conduit i) (lane.conduit (i + 1)) action).map
    fun (splice, source, sink) => lane.place i splice source sink

theorem sound_place [DecidableEq α] {n i : Nat} {lane : Lane α} {splice : Splice α}
    {source sink : Conduit α}
    {action : SpliceMove} (hsound : lane.Sound n) (hi : i < n)
    (hstep : (lane.splice i).step (lane.conduit i) (lane.conduit (i + 1)) action =
      some (splice, source, sink)) : (lane.place i splice source sink).Sound n := by
  intro j hj
  by_cases hself : j = i
  · subst hself
    rw [place_source, place_sink, place_splice]
    exact (hsound j hj).move hstep
  rw [place_splice_ne _ _ _ _ _ hself]
  by_cases hbehind : j = i + 1
  · subst hbehind
    rw [place_sink, place_conduit_ne _ _ _ _ _ (by omega) (by omega)]
    exact (hsound i hi).upstream (hsound (i + 1) hj) hstep
  by_cases hfront : i = j + 1
  · subst hfront
    rw [place_source, place_conduit_ne _ _ _ _ _ (by omega) (by omega)]
    exact (hsound j hj).downstream hstep
  · rw [place_conduit_ne _ _ _ _ _ hself hbehind,
      place_conduit_ne _ _ _ _ _ (Ne.symm hfront) (by omega)]
    exact hsound j hj

/-- Nobody at the ends sees it. -/
theorem ends_place {n i : Nat} {lane : Lane α} {splice : Splice α} {source sink : Conduit α}
    (hi : i < n)
    (hleaves : Splice.Leaves (lane.conduit i) (lane.conduit (i + 1)) source sink) :
    (lane.place i splice source sink).ends n = lane.ends n := by
  refine ends_congr ?_ ?_ fun j _ => ?_
  · by_cases hzero : 0 = i
    · subst hzero
      rw [place_source]
      exact ⟨hleaves.sent, hleaves.closed⟩
    · rw [place_conduit_ne _ _ _ _ _ hzero (by omega)]
      exact ⟨rfl, rfl⟩
  · by_cases hlast : n = i + 1
    · subst hlast
      rw [place_sink]
      exact ⟨hleaves.taken, hleaves.finished⟩
    · rw [place_conduit_ne _ _ _ _ _ (by omega) hlast]
      exact ⟨rfl, rfl⟩
  · by_cases hself : j = i
    · subst hself
      rw [place_source]
      exact hleaves.cut
    · by_cases hbehind : j = i + 1
      · subst hbehind
        rw [place_sink]
        exact hleaves.cutSink
      · rw [place_conduit_ne _ _ _ _ _ hself hbehind]

theorem sound_move [DecidableEq α] {n i : Nat} {lane next : Lane α} {action : SpliceMove}
    (hsound : lane.Sound n) (hi : i < n) (h : lane.move i action = some next) :
    next.Sound n ∧ next.ends n = lane.ends n := by
  obtain ⟨⟨splice, source, sink⟩, hstep, rfl⟩ := Option.map_eq_some_iff.mp h
  exact ⟨sound_place hsound hi hstep, ends_place hi (Splice.step_leaves hstep)⟩

/-! ## The two ends -/

/-- An act of the writer. -/
def write [DecidableEq α] (lane : Lane α) (action : ConduitAct α) : Option (Lane α) :=
  ((lane.conduit 0).step action).map (lane.setConduit 0)

/-- An act of the reader at place `n`. -/
def read [DecidableEq α] (lane : Lane α) (n : Nat) (action : ConduitAct α) : Option (Lane α) :=
  ((lane.conduit n).step action).map (lane.setConduit n)

/-- One conduit changes. -/
theorem sound_setConduit {n i : Nat} {lane : Lane α} {conduit : Conduit α}
    (hsound : lane.Sound n)
    (hsource : i < n → Spliced [] conduit (lane.splice i) [] (lane.conduit (i + 1)))
    (hsink : ∀ j, i = j + 1 → i ≤ n →
      Spliced [] (lane.conduit j) (lane.splice j) [] conduit) :
    (lane.setConduit i conduit).Sound n := by
  intro j hj
  rw [setConduit_splice]
  by_cases hself : j = i
  · subst hself
    rw [setConduit_self, setConduit_ne _ _ (by omega)]
    exact hsource hj
  · rw [setConduit_ne _ _ hself]
    by_cases hfront : j + 1 = i
    · subst hfront
      rw [setConduit_self]
      exact hsink j rfl hj
    · rw [setConduit_ne _ _ hfront]
      exact hsound j hj

/-- What was cut is what was cut before. -/
theorem anyCut_setConduit {n i : Nat} {lane : Lane α} {conduit : Conduit α}
    (hcut : conduit.cut = (lane.conduit i).cut) :
    (lane.setConduit i conduit).anyCut n = lane.anyCut n := by
  have hconduit : ∀ j, ((lane.setConduit i conduit).conduit j).cut = (lane.conduit j).cut := by
    intro j
    by_cases hself : j = i
    · subst hself
      rw [setConduit_self, hcut]
    · rw [setConduit_ne _ _ hself]
  simp only [anyCut, hconduit]

/-- What the writer does keeps the invariant, and is done to the conduit that is seen. -/
theorem sound_write [DecidableEq α] {n : Nat} {lane next : Lane α} {action : ConduitAct α}
    (hsound : lane.Sound n) (hwrites : action.writes = true)
    (h : lane.write action = some next) :
    next.Sound n ∧ (lane.ends n).step action = some (next.ends n) := by
  obtain ⟨conduit, hstep, rfl⟩ := Option.map_eq_some_iff.mp h
  obtain ⟨htaken, hcut, hfinished⟩ := Conduit.write_leaves hwrites hstep
  refine ⟨sound_setConduit hsound (fun hzero => (hsound 0 hzero).written hwrites hstep)
    (fun j hj => absurd hj (by omega)), ?_⟩
  rw [ends, Conduit.through_write hwrites hstep, ends, anyCut_setConduit hcut, setConduit_self]
  by_cases hn : n = 0
  · subst hn
    simp only [setConduit_self, Conduit.through, htaken, hcut, hfinished]
  · rw [setConduit_ne _ _ hn]

theorem sound_read [DecidableEq α] {n : Nat} {lane next : Lane α} {action : ConduitAct α}
    (hsound : lane.Sound n) (hwrites : action.writes = false)
    (h : lane.read n action = some next) :
    next.Sound n ∧ (lane.ends n).step action = some (next.ends n) := by
  obtain ⟨conduit, hstep, rfl⟩ := Option.map_eq_some_iff.mp h
  obtain ⟨hsent, hclosed, hcut⟩ := Conduit.read_leaves hwrites hstep
  refine ⟨sound_setConduit hsound (fun hlt => absurd hlt (Nat.lt_irrefl n))
    (fun j hj _ => ?_), ?_⟩
  · subst hj
    exact (hsound j (Nat.lt_succ_self j)).readOff hwrites hstep
  · rw [ends, Conduit.through_read (carries hsound) hwrites hstep, ends, anyCut_setConduit hcut,
      setConduit_self]
    by_cases hn : n = 0
    · subst hn
      simp only [setConduit_self, Conduit.through, hsent, hclosed, hcut]
    · rw [setConduit_ne _ _ (Ne.symm hn)]

/-- A conduit is cut. -/
def cut (lane : Lane α) (i : Nat) : Lane α := lane.setConduit i (lane.conduit i).drop

theorem sound_cut {n i : Nat} {lane : Lane α} (hsound : lane.Sound n) :
    (lane.cut i).Sound n := by
  refine sound_setConduit hsound (fun hi => (hsound i hi).drop) (fun j hj hi => ?_)
  subst hj
  exact (hsound j hi).congr rfl rfl

theorem ends_cut {n i : Nat} {lane : Lane α} (hi : i ≤ n) :
    (lane.cut i).ends n = (lane.ends n).drop := by
  have hsame : ∀ j, ((lane.cut i).conduit j).sent = (lane.conduit j).sent ∧
      ((lane.cut i).conduit j).taken = (lane.conduit j).taken ∧
      ((lane.cut i).conduit j).closed = (lane.conduit j).closed ∧
      ((lane.cut i).conduit j).finished = (lane.conduit j).finished := by
    intro j
    by_cases hself : j = i
    · subst hself
      rw [cut, setConduit_self]
      exact ⟨rfl, rfl, rfl, rfl⟩
    · rw [cut, setConduit_ne _ _ hself]
      exact ⟨rfl, rfl, rfl, rfl⟩
  have hany : (lane.cut i).anyCut n = true :=
    anyCut_eq_true.mpr ⟨i, hi, by rw [cut, setConduit_self]; rfl⟩
  simp only [ends, Conduit.through, Conduit.drop, hany, Bool.or_true, Bool.true_or,
    (hsame 0).1, (hsame 0).2.2.1, (hsame n).2.1, (hsame n).2.2.2]

/-! ## Copiers that get rid of what there is -/

/-- A list of moves, each of the copier at the place that it names. -/
def runs [DecidableEq α] (lane : Lane α) : List (Nat × SpliceMove) → Option (Lane α)
  | [] => some lane
  | (i, action) :: moves =>
      match lane.move i action with
      | none => none
      | some next => next.runs moves

theorem runs_append [DecidableEq α] (moves : List (Nat × SpliceMove)) :
    ∀ {lane mid final : Lane α} {more : List (Nat × SpliceMove)}, lane.runs moves = some mid →
      mid.runs more = some final → lane.runs (moves ++ more) = some final := by
  induction moves with
  | nil =>
      intro lane mid final more hruns hmore
      obtain rfl := Option.some.inj hruns
      exact hmore
  | cons first moves ih =>
      intro lane mid final more hruns hmore
      obtain ⟨i, action⟩ := first
      simp only [List.cons_append, runs] at hruns ⊢
      split at hruns
      · cases hruns
      · exact ih hruns hmore

/-- What one copier can do, the lane can do. -/
theorem runs_of_splice [DecidableEq α] (i : Nat) (moves : List SpliceMove) :
    ∀ {lane : Lane α} {splice : Splice α} {source sink : Conduit α},
      (lane.splice i).runs (lane.conduit i) (lane.conduit (i + 1)) moves =
        some (splice, source, sink) →
      lane.runs (moves.map fun action => (i, action)) = some (lane.place i splice source sink) := by
  induction moves with
  | nil =>
      intro lane splice source sink hruns
      simp only [Splice.runs, Option.some.injEq, Prod.mk.injEq] at hruns
      obtain ⟨rfl, rfl, rfl⟩ := hruns
      rw [place_self]
      rfl
  | cons action moves ih =>
      intro lane splice source sink hruns
      simp only [Splice.runs] at hruns
      split at hruns
      · cases hruns
      · rename_i splice' source' sink' hstep
        have hrest := @ih (lane.place i splice' source' sink') splice source sink (by
          rw [place_splice, place_source, place_sink]
          exact hruns)
        rw [place_place] at hrest
        simp only [List.map_cons, runs, move, hstep, Option.map_some]
        exact hrest

/-- Moves of the copiers keep the invariant, and nobody at the ends sees them. -/
theorem sound_runs [DecidableEq α] {n : Nat} (moves : List (Nat × SpliceMove)) :
    ∀ {lane final : Lane α}, lane.Sound n → (∀ move ∈ moves, move.1 < n) →
      lane.runs moves = some final → final.Sound n ∧ final.ends n = lane.ends n := by
  induction moves with
  | nil =>
      intro lane final hsound _ hruns
      obtain rfl := Option.some.inj hruns
      exact ⟨hsound, rfl⟩
  | cons first moves ih =>
      intro lane final hsound hplaces hruns
      obtain ⟨i, action⟩ := first
      simp only [runs] at hruns
      split at hruns
      · cases hruns
      · rename_i next hmove
        obtain ⟨hnext, hends⟩ := sound_move hsound (hplaces _ List.mem_cons_self) hmove
        obtain ⟨hfinal, hends'⟩ :=
          ih hnext (fun move hmem => hplaces move (List.mem_cons_of_mem _ hmem)) hruns
        exact ⟨hfinal, hends'.trans hends⟩

/-- The copier at a place has nothing left, and has passed the end on. -/
structure SettledAt (lane : Lane α) (i : Nat) : Prop where
  buf : (lane.splice i).buf = []
  unread : (lane.conduit i).unread = []
  done : (lane.conduit i).closed = true → (lane.splice i).done = true

/-- The copiers in front of place `k` get rid of what there is, one after the other. -/
theorem flush_front [DecidableEq α] {n : Nat} {lane : Lane α} (hsound : lane.Sound n)
    (huncut : (lane.ends n).cut = false) (k : Nat) :
    k ≤ n → ∃ moves final, lane.runs moves = some final ∧
      (∀ move ∈ moves, move.1 < n ∧ (lane.splice move.1).done = false) ∧
      (∀ i, i < k → final.SettledAt i) ∧ ∀ i, k ≤ i → final.splice i = lane.splice i := by
  induction k with
  | zero =>
      exact fun _ => ⟨[], lane, rfl, fun _ hmem => absurd hmem List.not_mem_nil,
        fun i hi => absurd hi (Nat.not_lt_zero i), fun _ _ => rfl⟩
  | succ k ih =>
      intro hk
      obtain ⟨moves, mid, hruns, hmoves, hsettled, hkept⟩ := ih (Nat.le_of_succ_le hk)
      obtain ⟨hmid, hends⟩ := sound_runs moves hsound (fun move hmem => (hmoves move hmem).1) hruns
      cases hdone : (mid.splice k).done with
      | true =>
          -- a copier that has passed the end on has nothing left
          have hnocut := cut_of_ends (hends ▸ huncut) (Nat.le_of_succ_le hk)
          obtain ⟨hbuf, hunread⟩ := (hmid k hk).settled_of_done hnocut hdone
          refine ⟨moves, mid, hruns, hmoves, fun i hi => ?_,
            fun i hi => hkept i (Nat.le_of_succ_le hi)⟩
          rcases Nat.lt_succ_iff_lt_or_eq.mp hi with hlt | rfl
          · exact hsettled i hlt
          · exact ⟨hbuf, hunread, fun _ => hdone⟩
      | false =>
          obtain ⟨more, splice, source, sink, hmore, hbuf, hunread, hpassed⟩ :=
            (mid.splice k).flush (mid.conduit k) (mid.conduit (k + 1)) hdone
          refine ⟨moves ++ more.map fun action => (k, action), mid.place k splice source sink,
            runs_append moves hruns (runs_of_splice k more hmore), ?_, ?_, ?_⟩
          · intro move hmem
            rcases List.mem_append.mp hmem with hold | hnew
            · exact hmoves move hold
            · obtain ⟨action, -, rfl⟩ := List.mem_map.mp hnew
              exact ⟨hk, (hkept k (Nat.le_refl k)) ▸ hdone⟩
          · intro i hi
            rcases Nat.lt_succ_iff_lt_or_eq.mp hi with hlt | rfl
            · obtain ⟨hbuf', hunread', hpassed'⟩ := hsettled i hlt
              refine ⟨?_, ?_, ?_⟩
              · rwa [place_splice_ne _ _ _ _ _ (by omega)]
              · rwa [place_conduit_ne _ _ _ _ _ (by omega) (by omega)]
              · rwa [place_splice_ne _ _ _ _ _ (by omega),
                  place_conduit_ne _ _ _ _ _ (by omega) (by omega)]
            · refine ⟨?_, ?_, ?_⟩
              · rwa [place_splice]
              · rwa [place_source]
              · rwa [place_splice, place_source]
          · intro i hi
            rw [place_splice_ne _ _ _ _ _ (by omega)]
            exact hkept i (by omega)

/-- Where all copiers have nothing left, what came out is what went in, and so is the end. -/
theorem settled_through {n : Nat} {lane : Lane α} (hsound : lane.Sound n)
    (hsettled : ∀ i, i < n → lane.SettledAt i) :
    (lane.conduit n).sent = (lane.conduit 0).sent ∧
      ((lane.conduit 0).closed = true → (lane.conduit n).closed = true) := by
  have main : ∀ i, i ≤ n → (lane.conduit i).sent = (lane.conduit 0).sent ∧
      ((lane.conduit 0).closed = true → (lane.conduit i).closed = true) := by
    intro i
    induction i with
    | zero => exact fun _ => ⟨rfl, id⟩
    | succ i ih =>
        intro hle
        obtain ⟨hsent, hclosed⟩ := ih (Nat.le_of_succ_le hle)
        obtain ⟨hbuf, hunread, hdone⟩ := hsettled i hle
        refine ⟨((hsound i hle).sent_of_settled hbuf hunread).trans hsent, fun h => ?_⟩
        exact (hsound i hle).closed.mpr (hdone (hclosed h))
  exact main n (Nat.le_refl n)

/-- Unless something was cut, whatever can be done to the conduit that the ends see can be done
at the ends, once copiers that have not passed the end on have got rid of what there is. -/
theorem flush [DecidableEq α] {n : Nat} {lane : Lane α} {action : ConduitAct α}
    {seen : Conduit α} (hsound : lane.Sound n) (huncut : (lane.ends n).cut = false)
    (h : (lane.ends n).step action = some seen) :
    ∃ moves mid next, lane.runs moves = some mid ∧
      (∀ move ∈ moves, move.1 < n ∧ (lane.splice move.1).done = false) ∧
      (if action.writes then mid.write action else mid.read n action) = some next := by
  obtain ⟨moves, mid, hruns, hmoves, hsettled, -⟩ :=
    flush_front hsound huncut n (Nat.le_refl n)
  obtain ⟨hmid, hends⟩ := sound_runs moves hsound (fun move hmem => (hmoves move hmem).1) hruns
  obtain ⟨hsent, hclosed⟩ := settled_through hmid hsettled
  rw [← hends] at h huncut
  have hact := Conduit.act_of_through hsent hclosed huncut h
  cases hwrites : action.writes with
  | true =>
      rw [hwrites, if_pos rfl] at hact
      obtain ⟨first, hfirst⟩ := hact
      exact ⟨moves, mid, mid.setConduit 0 first, hruns, hmoves, by
        rw [if_pos rfl, write, hfirst, Option.map_some]⟩
  | false =>
      rw [hwrites, if_neg Bool.false_ne_true] at hact
      obtain ⟨last, hlast⟩ := hact
      exact ⟨moves, mid, mid.setConduit n last, hruns, hmoves, by
        rw [if_neg Bool.false_ne_true, read, hlast, Option.map_some]⟩

/-! ## Lanes that are still open -/

/-- A lane of which the writer has sent its part, and the copiers in front of place `k` have
moved theirs: `taken i` of what was sent into place `i`, and all of what was sent into the next
one. -/
def partly (k : Nat) (sent : Nat → List α) (taken : Nat → Nat) : Lane α where
  conduit i :=
    if i < k then { sent := sent i, taken := taken i }
    else if i = k then { sent := sent i }
    else {}
  splice i :=
    if i < k then
      { buf := ((sent i).take (taken i)).drop (sent (i + 1)).length
        amount := (sent (i + 1)).length }
    else {}

/-- A lane with `n` copiers that have not come to an end, by what was sent into each place and
what was taken there. -/
def spread (n : Nat) (sent : Nat → List α) (taken : Nat → Nat) : Lane α :=
  (partly n sent taken).setConduit n { sent := sent n, taken := taken n }

theorem eq_spread {n : Nat} {sent : Nat → List α} {taken : Nat → Nat} {lane : Lane α}
    (hconduit : ∀ i, i ≤ n → lane.conduit i = { sent := sent i, taken := taken i })
    (hbeyond : ∀ i, n < i → lane.conduit i = {})
    (hsplice : ∀ i, i < n → lane.splice i =
      { buf := ((sent i).take (taken i)).drop (sent (i + 1)).length
        amount := (sent (i + 1)).length })
    (hnone : ∀ i, n ≤ i → lane.splice i = {}) : lane = spread n sent taken := by
  obtain ⟨conduit, splice⟩ := lane
  unfold spread setConduit partly
  congr 1
  · funext i
    dsimp only
    rcases Nat.lt_trichotomy i n with hlt | rfl | hgt
    · rw [if_neg (Nat.ne_of_lt hlt), if_pos hlt]
      exact hconduit i (Nat.le_of_lt hlt)
    · rw [if_pos rfl]
      exact hconduit i (Nat.le_refl i)
    · rw [if_neg (Nat.ne_of_gt hgt), if_neg (Nat.not_lt_of_gt hgt), if_neg (Nat.ne_of_gt hgt)]
      exact hbeyond i hgt
  · funext i
    dsimp only
    by_cases hi : i < n
    · rw [if_pos hi]
      exact hsplice i hi
    · rw [if_neg hi]
      exact hnone i (Nat.le_of_not_lt hi)

/-- What was sent into a place was taken at the place in front of it. -/
structure Spreads (n : Nat) (sent : Nat → List α) (taken : Nat → Nat) : Prop where
  copied : ∀ i, i < n → sent (i + 1) <+: (sent i).take (taken i)
  taken : ∀ i, i ≤ n → taken i ≤ (sent i).length

variable {n : Nat} {sent : Nat → List α} {taken : Nat → Nat}

theorem partly_place (k : Nat) :
    (partly k sent taken).place k
        { buf := ((sent k).take (taken k)).drop (sent (k + 1)).length
          amount := (sent (k + 1)).length }
        { sent := sent k, taken := taken k } { sent := sent (k + 1) } =
      partly (k + 1) sent taken := by
  unfold place partly
  congr 1
  · funext i
    rcases Nat.lt_trichotomy i k with hlt | rfl | hgt
    · simp [hlt, Nat.ne_of_lt hlt, Nat.ne_of_lt (Nat.lt_succ_of_lt hlt), Nat.lt_succ_of_lt hlt]
    · simp
    · by_cases hnext : i = k + 1
      · subst hnext
        simp
      · have hfar : ¬ i < k + 1 := by omega
        simp [Nat.ne_of_gt hgt, hnext, hfar, Nat.not_lt_of_gt hgt]
  · funext i
    rcases Nat.lt_trichotomy i k with hlt | rfl | hgt
    · simp [hlt, Nat.ne_of_lt hlt, Nat.lt_succ_of_lt hlt]
    · simp
    · have hfar : ¬ i < k + 1 := by omega
      simp [Nat.ne_of_gt hgt, hfar, Nat.not_lt_of_gt hgt]

/-- Where nothing has been sent, there is nothing on the lane. -/
theorem Spreads.spread_eq (h : Spreads n sent taken) (hnil : sent 0 = []) :
    spread n sent taken = {} := by
  have hsent : ∀ i, i ≤ n → sent i = [] := by
    intro i
    induction i with
    | zero => exact fun _ => hnil
    | succ i ih =>
        intro hle
        have hcopied := h.copied i hle
        rw [ih (Nat.le_of_succ_le hle), List.take_nil] at hcopied
        exact List.prefix_nil.mp hcopied
  have htaken : ∀ i, i ≤ n → taken i = 0 := fun i hle =>
    Nat.le_zero.mp (by simpa [hsent i hle] using h.taken i hle)
  refine (eq_spread (fun i hle => ?_) (fun _ _ => rfl) (fun i hi => ?_) fun _ _ => rfl).symm
  · rw [hsent i hle, htaken i hle]
  · rw [hsent i (Nat.le_of_lt hi), hsent (i + 1) hi, List.take_nil, List.drop_nil]
    rfl

/-- One copier after the other takes its part, and sends it on. -/
theorem runs_partly [DecidableEq α] (h : Spreads n sent taken) (k : Nat) :
    k ≤ n → ∃ moves, (partly 0 sent taken).runs moves = some (partly k sent taken) ∧
      ∀ move ∈ moves, move.1 < k := by
  induction k with
  | zero => exact fun _ => ⟨[], rfl, fun _ hmem => absurd hmem List.not_mem_nil⟩
  | succ k ih =>
      intro hk
      obtain ⟨moves, hruns, hmoves⟩ := ih (Nat.le_of_succ_le hk)
      have htaken := h.taken k (Nat.le_of_succ_le hk)
      have hlen : (sent (k + 1)).length ≤ ((sent k).take (taken k)).length :=
        (h.copied k hk).length_le
      have hfirst : (partly k sent taken).conduit k = { sent := sent k } := by
        simp [partly]
      have hsecond : (partly k sent taken).conduit (k + 1) = {} := by
        have hnot : ¬ k + 1 < k := by omega
        simp [partly, hnot]
      have hcopier : (partly k sent taken).splice k = {} := by
        simp [partly]
      have hread : (({} : Splice α)).step { sent := sent k } {} (.read (taken k)) =
          some ({ buf := (sent k).take (taken k) }, { sent := sent k, taken := taken k }, {}) := by
        rw [Splice.step, if_pos ⟨rfl, htaken⟩]
        simp [Conduit.unread, Conduit.skip]
      have hwrite : ({ buf := (sent k).take (taken k) } : Splice α).step
          { sent := sent k, taken := taken k } {} (.write (sent (k + 1)).length) =
          some ({ buf := ((sent k).take (taken k)).drop (sent (k + 1)).length
                  amount := (sent (k + 1)).length },
            { sent := sent k, taken := taken k }, { sent := sent (k + 1) }) := by
        rw [Splice.step, if_pos hlen]
        simp [Conduit.put, ← List.prefix_iff_eq_take.mp (h.copied k hk)]
      have hboth := Splice.runs_cons hread (Splice.runs_cons hwrite (Splice.runs_nil _ _ _))
      have hplace : (partly k sent taken).runs
          ([.read (taken k), .write (sent (k + 1)).length].map fun action => (k, action)) =
            some (partly (k + 1) sent taken) := by
        rw [← partly_place]
        exact runs_of_splice k _ (by rw [hfirst, hsecond, hcopier]; exact hboth)
      refine ⟨_, runs_append moves hruns hplace, fun move hmem => ?_⟩
      rcases List.mem_append.mp hmem with hold | hnew
      · exact Nat.lt_succ_of_lt (hmoves move hold)
      · obtain ⟨action, -, rfl⟩ := List.mem_map.mp hnew
        exact Nat.lt_succ_self k

/-- A lane that is still open comes about by an act of its writer, moves of its copiers and an
act of its reader. -/
theorem exists_spread [DecidableEq α] (h : Spreads n sent taken) :
    ∃ first moves mid, ({} : Lane α).write (.send (sent 0)) = some first ∧
      first.runs moves = some mid ∧ (∀ move ∈ moves, move.1 < n) ∧
      mid.read n (.receive ((sent n).take (taken n))) = some (spread n sent taken) := by
  obtain ⟨moves, hruns, hmoves⟩ := runs_partly h n (Nat.le_refl n)
  refine ⟨partly 0 sent taken, moves, partly n sent taken, ?_, hruns, hmoves, ?_⟩
  · have hstart : ({} : Lane α).setConduit 0 { sent := sent 0 } = partly 0 sent taken := by
      unfold setConduit partly
      congr 1
      funext i
      by_cases hi : i = 0
      · simp [hi]
      · simp [hi]
    simp only [write, Conduit.step, Bool.false_eq_true, if_false, Option.map_some, Conduit.put,
      List.nil_append, hstart]
  · have hlast : (partly n sent taken).conduit n = { sent := sent n } := by
      simp [partly]
    have htake : (sent n).take (taken n) <+: ({ sent := sent n } : Conduit α).unread :=
      List.take_prefix _ _
    have hstep : ({ sent := sent n } : Conduit α).step (.receive ((sent n).take (taken n))) =
        some { sent := sent n, taken := taken n } := by
      rw [Conduit.step, if_pos ⟨htake, rfl⟩]
      simp only [Conduit.skip, List.length_take, Nat.min_eq_left (h.taken n (Nat.le_refl n)),
        Nat.zero_add]
    rw [read, hlast, hstep]
    rfl

end Lane

end Sape.Foundation
