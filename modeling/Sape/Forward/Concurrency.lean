/-
  Forward/Concurrency.lean --- the connections of a port do not wait for each other.

  Behind `-R` the dialer reads the requests of all streams one after the other.  What the port
  itself has put in front of a stream in the queue can get out of the way by itself: the
  request of an accepted connection does not wait for what its application sends, and a stream
  that was dropped comes to its end.  So a port does what its connections could do if they had
  nothing to do with each other, in any order, as long as no other peer has a stream in the
  queue: such a stream may hold the loop up for good.

  WHAT IS PROVED.

      read_on                a connection gets past the read of its request without its ends
      head_of_line           so does everything of the port's in front of it in the queue
      Blocked.step           behind the stream of another peer, nothing goes on by itself
      port_transparent       connections that were not dropped go on in any order, exactly
                             where no stream of another peer is in the way
-/
import Sape.Forward.Port

set_option autoImplicit false

namespace Sape

open Sape.Foundation

namespace Bridge

/-! ## Past the read of the request -/

theorem read_of_some (mode : BridgeMode) {bridge : Bridge} {outcome : Outcome} {pipe : Pipe}
    {result : Except IoError TunnelRequest} (hreading : bridge.far = .reading)
    (hread : Sape.readStep readTunnelRequest (pipeOf bridge.stream.forth)
      (bridge.stream.forth.closed || bridge.stream.forth.cut) outcome = some (result, pipe)) :
    ∃ next, bridge.step mode (.read outcome) = some next ∧ next.far ≠ .reading := by
  refine ⟨{ bridge with
    stream := { bridge.stream with forth := withPipe bridge.stream.forth pipe } }.farTo
      (mode.dispatch result), ?_, ?_⟩
  · simp only [step, readStep, hreading, if_true, hread]
  · rw [(farTo_same _ _).1]
    rcases dispatch_cases mode result with hdispatch | ⟨target, hdispatch⟩
    · rw [hdispatch]
      exact fun h => by cases h
    · rw [hdispatch]
      exact fun h => by cases h

/-- The read of a request ends once the request is written: it is there, or the stream was
dropped. -/
theorem read_enabled {mode : BridgeMode} {bridge : Bridge} (hinv : Inv mode bridge)
    (hfits : mode.Fits) (hreading : bridge.far = .reading)
    (horigin : bridge.origin = .copying ∨ bridge.origin = .ended) :
    ∃ outcome next, bridge.step mode (.read outcome) = some next ∧ next.far ≠ .reading := by
  obtain ⟨frame, hframe, hback⟩ := hfits.exists_frame
  obtain ⟨head, hspliced, hhead, hfar⟩ := hinv.forth
  rw [hreading] at hfar
  have hwhole : writeTunnelRequest mode.request = .ok head →
      ∃ outcome next, bridge.step mode (.read outcome) = some next ∧ next.far ≠ .reading := by
    intro hwrite
    obtain rfl := Except.ok.inj (hframe.symm.trans hwrite)
    obtain ⟨rest, hrest⟩ : frame <+: bridge.stream.forth.sent := by
      rcases hhead.comparable hspliced hframe with ⟨-, hfront⟩ | ⟨hsent, -⟩
      · exact hfront
      · exact hsent ▸ List.prefix_rfl
    have hread : readTunnelRequest (pipeOf bridge.stream.forth).sent =
        (.ok mode.request, rest) := by
      rw [pipeOf, ← hrest]
      exact hback rest
    have htaken : (pipeOf bridge.stream.forth).taken = 0 := hfar.1
    obtain ⟨pipe, hpipe⟩ := Pipe.readFrame_of_ok htaken hread
    exact ⟨.proceed, read_of_some mode hreading hpipe⟩
  rcases horigin with horigin | horigin
  · rw [horigin] at hhead
    exact hwhole hhead
  · rw [horigin] at hhead
    rcases hhead with hwrite | ⟨hidle, -⟩
    · exact hwhole hwrite
    · rcases hinv.gone horigin with hcut | hdone
      · cases hpipe : (pipeOf bridge.stream.forth).readFrame readTunnelRequest with
        | some read => exact ⟨.proceed, read_of_some mode hreading hpipe⟩
        | none =>
            have heof : Sape.readStep readTunnelRequest (pipeOf bridge.stream.forth)
                (bridge.stream.forth.closed || bridge.stream.forth.cut) .eof =
                  some (.error .unexpectedEof, pipeOf bridge.stream.forth) := by
              simp only [Sape.readStep, hpipe, hcut, Bool.or_true, Option.isNone_none,
                Bool.and_self, if_true]
            exact ⟨.eof, read_of_some mode hreading heof⟩
      · rw [hidle] at hdone
        cases hdone

/-- Without its ends, and without a drop, a connection gets past the read of its request. -/
theorem read_on {mode : BridgeMode} {bridge : Bridge} (hinv : Inv mode bridge)
    (hintact : bridge.Uncut → Intact mode bridge) (hviable : mode.Viable)
    (hreading : bridge.far = .reading) :
    ∃ next, (machine mode).Quietly BridgeLabel.seen bridge next ∧ next.far ≠ .reading ∧
      (bridge.Uncut → next.connection = bridge.connection) := by
  by_cases huncut : bridge.Uncut
  · have hturn : mode.InTurn bridge.far := fun _ => by simp [hreading]
    obtain ⟨next, hquiet, hconn, hlive⟩ := establishes hviable hturn (hintact huncut) huncut
    refine ⟨next, hquiet, fun hfar => ?_, fun _ => hconn⟩
    rcases hlive.far with ⟨named, hforwarding⟩ | ⟨outcome, hforwarding⟩
    · rw [hfar] at hforwarding
      cases hforwarding
    · rw [hfar] at hforwarding
      cases hforwarding
  · have hwritten : bridge.origin = .copying ∨ bridge.origin = .ended →
        ∃ next, (machine mode).Quietly BridgeLabel.seen bridge next ∧ next.far ≠ .reading := by
      intro horigin
      obtain ⟨outcome, next, hstep, hfar⟩ := read_enabled hinv hviable.fits hreading horigin
      exact ⟨next, quietly_of_step hstep rfl, hfar⟩
    suffices hpast : ∃ next, (machine mode).Quietly BridgeLabel.seen bridge next ∧
        next.far ≠ .reading by
      obtain ⟨next, hquiet, hfar⟩ := hpast
      exact ⟨next, hquiet, hfar, fun h => absurd h huncut⟩
    cases horigin : bridge.origin with
    | opening =>
        rcases hinv.absent horigin with hfar | hfar
        · rw [hreading] at hfar
          cases hfar
        · rw [hreading] at hfar
          cases hfar
    | writing =>
        obtain ⟨frame, hframe, -⟩ := hviable.fits.exists_frame
        have hstep := write_enabled horigin hframe
        obtain ⟨outcome, next, hread, hfar⟩ :=
          read_enabled (answered hinv hstep).1 hviable.fits hreading (.inl rfl)
        exact ⟨next, .trans (quietly_of_step hstep rfl) (quietly_of_step hread rfl), hfar⟩
    | copying => exact hwritten (.inl horigin)
    | ended => exact hwritten (.inr horigin)

/-- A connecting side that has left the queue does not come back. -/
theorem past_of_move {mode : BridgeMode} {bridge next : Bridge} {label : BridgeLabel}
    (h : FarMove mode bridge label next) (habsent : bridge.far ≠ .absent)
    (hqueued : bridge.far ≠ .queued) : next.far ≠ .absent ∧ next.far ≠ .queued := by
  cases h with
  | stays hfar hreached => exact ⟨hfar ▸ habsent, hfar ▸ hqueued⟩
  | opens hbefore hfar hreached => exact absurd hbefore habsent
  | polls hlabel hbefore hfar hreached => exact absurd hbefore hqueued
  | reads outcome hlabel hreading hfar hreached =>
      rcases hfar with hfar | ⟨target, hfar⟩
      · simp [hfar]
      · simp [hfar]
  | forwards task task' hforwarding hfar hreached => simp [hfar]
  | exits hfar hreached => simp [hfar]

end Bridge

namespace Port

/-! ## One connection after another -/

/-- A port while the other peers do nothing. -/
def alone (mode : BridgeMode) : Machine Port PortLabel where
  start := {}
  step port label := if label.own then port.step mode label else none

/-- Nobody else has a stream in the way of the connections, where it would be. -/
def Clear (mode : BridgeMode) (port : Port) : Prop :=
  mode.looped = true → none ∉ port.queue ∧ port.busy = false

/-- The invariant of a port whose streams have nobody else's in their way. -/
structure Ready (mode : BridgeMode) (port : Port) : Prop extends Good mode port where
  clear : port.Clear mode

theorem none_mem_queueAfter {index : Nat} {before after : FarTask} {queue : List (Option Nat)}
    (h : none ∈ queueAfter index before after queue) : none ∈ queue := by
  unfold queueAfter at h
  split at h
  · simpa using h
  · split at h
    · exact List.mem_of_mem_erase h
    · exact h

theorem ready_step {mode : BridgeMode} {port next : Port} {label : PortLabel}
    (hready : Ready mode port) (h : (alone mode).step port label = some next) :
    Ready mode next := by
  obtain ⟨hown, hstep⟩ := Option.ite_none_right_eq_some.mp h
  refine ⟨good_step hready.toGood hstep, fun hlooped => ?_⟩
  have hclear := hready.clear hlooped
  cases label with
  | accept =>
      obtain ⟨-, hnext⟩ := Option.ite_none_right_eq_some.mp hstep
      obtain rfl := Option.some.inj hnext
      exact hclear
  | acceptFailed =>
      obtain ⟨-, hnext⟩ := Option.ite_none_right_eq_some.mp hstep
      obtain rfl := Option.some.inj hnext
      cases mode with
      | localForward | reverseForward => exact hclear
  | bridge index label =>
      obtain ⟨bridge, bridge', -, -, -, rfl⟩ := bridgeStep_cases hstep
      exact ⟨fun hnone => hclear.1 (none_mem_queueAfter hnone), hclear.2⟩
  | otherOpens | otherPoll | otherRead => cases hown

/-- What a port has done for one of its connections it has done to no other: those that were
not dropped are seen as before. -/
structure Keeps (port next : Port) : Prop where
  length : next.bridges.length = port.bridges.length
  serving : next.serving = port.serving
  connection : ∀ {i : Nat} {bridge bridge' : Bridge}, port.bridges[i]? = some bridge →
    next.bridges[i]? = some bridge' → bridge.Uncut → bridge'.connection = bridge.connection

theorem Keeps.refl (port : Port) : Keeps port port :=
  ⟨rfl, rfl, fun hget hget' _ => by rw [Option.some.inj (hget'.symm.trans hget)]⟩

theorem Keeps.get {port next : Port} (h : Keeps port next) {i : Nat} {bridge : Bridge}
    (hget : port.bridges[i]? = some bridge) : ∃ bridge', next.bridges[i]? = some bridge' := by
  obtain ⟨hlt, -⟩ := List.getElem?_eq_some_iff.mp hget
  exact ⟨_, List.getElem?_eq_getElem (h.length ▸ hlt)⟩

theorem Keeps.trans {first second third : Port} (h : Keeps first second)
    (h' : Keeps second third) : Keeps first third where
  length := h'.length.trans h.length
  serving := h'.serving.trans h.serving
  connection hget hget'' huncut := by
    obtain ⟨bridge', hget'⟩ := h.get hget
    have hconn := h.connection hget hget' huncut
    exact (h'.connection hget' hget'' (huncut.congr hconn)).trans hconn

theorem Keeps.set {port : Port} {i : Nat} {bridge bridge' : Bridge} (queue : List (Option Nat))
    (hget : port.bridges[i]? = some bridge)
    (hconn : bridge.Uncut → bridge'.connection = bridge.connection) :
    Keeps port { port with bridges := port.bridges.set i bridge', queue := queue } where
  length := List.length_set
  serving := rfl
  connection hfound hfound' huncut := by
    rcases getElem?_set_cases hget hfound' with ⟨rfl, rfl⟩ | ⟨-, hsame⟩
    · obtain rfl := Option.some.inj (hget.symm.trans hfound)
      exact hconn huncut
    · rw [Option.some.inj (hfound.symm.trans hsame)]

/-- A run of a connection that has left the queue is one of its port. -/
theorem exec_lift {mode : BridgeMode} (index : Nat) (labels : List BridgeLabel) :
    ∀ {port : Port} {bridge final : Bridge}, port.bridges[index]? = some bridge →
      bridge.far ≠ .absent → bridge.far ≠ .queued →
      (Bridge.machine mode).exec bridge labels = some final →
      (alone mode).exec port (labels.map (.bridge index)) =
        some { port with bridges := port.bridges.set index final } := by
  induction labels with
  | nil =>
      intro port bridge final hget _ _ hrun
      obtain rfl := Option.some.inj hrun
      rw [List.map_nil, Machine.exec_nil, set_of_get hget]
  | cons label labels ih =>
      intro port bridge final hget habsent hqueued hrun
      obtain ⟨mid, hstep, hrest⟩ := Machine.exec_cons hrun
      obtain ⟨habsent', hqueued'⟩ :=
        Bridge.past_of_move (Bridge.far_step hstep) habsent hqueued
      have hpolls : label = .poll → port.polls mode (some index) = true := by
        rintro rfl
        exact absurd hstep (by simp [Bridge.machine, Bridge.step, hqueued])
      have hqueue : queueAfter index bridge.far mid.far port.queue = port.queue := by
        rw [queueAfter, if_neg fun h => habsent h.1, if_neg fun h => hqueued h.1]
      have hfirst := bridgeStep_of_step hget hstep hpolls
      rw [hqueue] at hfirst
      obtain ⟨hlt, -⟩ := List.getElem?_eq_some_iff.mp hget
      have hmid : (port.bridges.set index mid)[index]? = some mid :=
        List.getElem?_set_self hlt
      have hport : { port with bridges := port.bridges.set index mid }.bridges[index]? =
          some mid := hmid
      have hlast := ih hport habsent' hqueued' hrest
      rw [List.map_cons, Machine.exec_cons_of_step hfirst, hlast, List.set_set]

theorem seen_lift (index : Nat) (labels : List BridgeLabel) :
    (labels.map (PortLabel.bridge index)).filterMap PortLabel.seen =
      (labels.filterMap BridgeLabel.seen).map fun seen => .act index seen.1 seen.2 := by
  rw [List.filterMap_map, List.map_filterMap]
  rfl

/-- A silent run of a connection that has left the queue. -/
theorem quietly_lift {mode : BridgeMode} {port : Port} {index : Nat} {bridge final : Bridge}
    (hget : port.bridges[index]? = some bridge) (habsent : bridge.far ≠ .absent)
    (hqueued : bridge.far ≠ .queued)
    (hquiet : (Bridge.machine mode).Quietly BridgeLabel.seen bridge final) :
    (alone mode).Quietly PortLabel.seen port
      { port with bridges := port.bridges.set index final } := by
  obtain ⟨labels, hrun, hseen⟩ := hquiet
  refine ⟨labels.map (.bridge index), exec_lift index labels hget habsent hqueued hrun, ?_⟩
  rw [seen_lift, hseen, List.map_nil]

/-- What a port can do for its connections, with nothing to be seen. -/
structure Reordered (mode : BridgeMode) (port next : Port) : Prop where
  quiet : (alone mode).Quietly PortLabel.seen port next
  keeps : Keeps port next
  ready : Ready mode next

theorem Reordered.trans {mode : BridgeMode} {first second third : Port}
    (h : Reordered mode first second) (h' : Reordered mode second third) :
    Reordered mode first third :=
  ⟨h.quiet.trans h'.quiet, h.keeps.trans h'.keeps, h'.ready⟩

theorem ready_of_quietly {mode : BridgeMode} {port next : Port} (hready : Ready mode port)
    (hquiet : (alone mode).Quietly PortLabel.seen port next) : Ready mode next := by
  obtain ⟨labels, hrun, -⟩ := hquiet
  exact Machine.exec_invariant (Ready mode) ready_step labels hrun hready

/-- A request that is being read gets out of the way of those in the queue. -/
theorem clear_reading {mode : BridgeMode} {port : Port} (hready : Ready mode port)
    (hviable : mode.Viable) (hlooped : mode.looped = true) :
    ∃ next, Reordered mode port next ∧ next.queue = port.queue ∧
      (∀ bridge ∈ next.bridges, bridge.far ≠ .reading) ∧
      ∀ {i : Nat} {bridge : Bridge}, port.bridges[i]? = some bridge → bridge.far = .queued →
        next.bridges[i]? = some bridge := by
  by_cases hreads : ∃ (i : Nat) (bridge : Bridge), port.bridges[i]? = some bridge ∧
      bridge.far = .reading
  · obtain ⟨i, bridge, hget, hreading⟩ := hreads
    obtain ⟨hinv, hintact⟩ := hready.kept hget
    obtain ⟨final, hquiet, hpast, hconn⟩ :=
      Bridge.read_on hinv hintact hviable hreading
    have hquiet' := quietly_lift hget (by rw [hreading]; exact fun h => by cases h)
      (by rw [hreading]; exact fun h => by cases h) hquiet
    refine ⟨_, ⟨hquiet', .set port.queue hget hconn, ready_of_quietly hready hquiet'⟩, rfl,
      fun other hmem hfar => ?_, fun {j other} hother hqueued => ?_⟩
    · obtain ⟨j, hj⟩ := List.mem_iff_getElem?.mp hmem
      rcases getElem?_set_cases hget hj with ⟨-, rfl⟩ | ⟨hne, hj⟩
      · exact hpast hfar
      · exact hne (hready.single hlooped hj hget hfar hreading)
    · rw [getElem?_set_of_get hget]
      by_cases hj : j = i
      · obtain rfl := hj
        rw [Option.some.inj (hother.symm.trans hget), hreading] at hqueued
        cases hqueued
      · rw [if_neg hj]
        exact hother
  · refine ⟨port, ⟨.refl _, .refl _, hready⟩, rfl, fun bridge hmem hfar => ?_, fun hget _ => hget⟩
    obtain ⟨i, hi⟩ := List.mem_iff_getElem?.mp hmem
    exact hreads ⟨i, bridge, hi, hfar⟩

/-- A stream that the connecting side gets to leaves the queue. -/
theorem poll_queued {mode : BridgeMode} {port : Port} (hready : Ready mode port)
    (hviable : mode.Viable) {i : Nat} {bridge : Bridge}
    (hget : port.bridges[i]? = some bridge) (hqueued : bridge.far = .queued)
    (hpolls : port.polls mode (some i) = true) :
    Reordered mode port { port with
      bridges := port.bridges.set i { bridge with far := .reading }
      queue := port.queue.erase (some i) } := by
  have hport := bridgeStep_of_step hget (Bridge.poll_enabled hviable.admitted hqueued)
    fun _ => hpolls
  have hqueue : queueAfter i bridge.far .reading port.queue = port.queue.erase (some i) := by
    simp [queueAfter, hqueued]
  rw [hqueue] at hport
  have hquiet : (alone mode).Quietly PortLabel.seen port _ :=
    ⟨[.bridge i .poll], Machine.exec_cons_of_step hport [], rfl⟩
  exact ⟨hquiet, .set _ hget fun _ => rfl, ready_of_quietly hready hquiet⟩

/-- Everything in front of a stream in the queue gets out of its way.  The induction is on
what is in the queue. -/
theorem head_of_line {mode : BridgeMode} (hviable : mode.Viable) (hlooped : mode.looped = true)
    {i : Nat} {bridge : Bridge} :
    ∀ (queue : List (Option Nat)) {port : Port}, Ready mode port → port.queue = queue →
      port.bridges[i]? = some bridge → bridge.far = .queued →
      ∃ next, Reordered mode port next ∧
        next.bridges[i]? = some { bridge with far := .reading } := by
  intro queue
  induction queue with
  | nil =>
      intro port hready hqueue hget hqueued
      have hmem := (hready.queued i).mpr ⟨bridge, hget, hqueued⟩
      rw [hqueue] at hmem
      cases hmem
  | cons stream rest ih =>
      intro port hready hqueue hget hqueued
      obtain ⟨mid, hreordered, hsame, hnone, hstill⟩ := clear_reading hready hviable hlooped
      have hget' := hstill hget hqueued
      rw [hqueue] at hsame
      obtain ⟨hclear, hidle⟩ := hreordered.ready.clear hlooped
      cases stream with
      | none => exact absurd (hsame ▸ List.mem_cons_self) hclear
      | some first =>
          obtain ⟨other, hother, hfar⟩ := (hreordered.ready.queued first).mp (by simp [hsame])
          have hpolls : mid.polls mode (some first) = true := by
            rw [polls, if_pos hlooped, hsame, hidle]
            simp only [List.head?_cons, decide_true, Bool.not_false, Bool.and_self, Bool.true_and]
            exact List.all_eq_true.mpr fun bridge hmem => decide_eq_true (hnone bridge hmem)
          have hpolled := poll_queued hreordered.ready hviable hother hfar hpolls
          by_cases hi : i = first
          · obtain rfl := hi
            obtain rfl := Option.some.inj (hget'.symm.trans hother)
            refine ⟨_, hreordered.trans hpolled, ?_⟩
            rw [getElem?_set_of_get hother, if_pos rfl]
          · have hnext : (mid.bridges.set first { other with far := .reading })[i]? =
                some bridge := by
              rw [getElem?_set_of_get hother, if_neg hi, hget']
            have hrest : mid.queue.erase (some first) = rest := by
              rw [hsame, List.erase_cons_head]
            obtain ⟨next, hnext, hread⟩ := ih hpolled.ready hrest hnext hqueued
            exact ⟨next, (hreordered.trans hpolled).trans hnext, hread⟩

/-! ## The connections go on -/

/-- A connection that was not dropped gets out of the queue. -/
theorem leave_queue {mode : BridgeMode} (hviable : mode.Viable) {port : Port}
    (hready : Ready mode port) {i : Nat} {bridge : Bridge}
    (hget : port.bridges[i]? = some bridge) (hqueued : bridge.far = .queued) :
    ∃ next bridge', Reordered mode port next ∧ next.bridges[i]? = some bridge' ∧
      bridge'.far ≠ .absent ∧ bridge'.far ≠ .queued := by
  cases hlooped : mode.looped with
  | false =>
      have hpolled := poll_queued hready hviable hget hqueued (by simp [polls, hlooped])
      refine ⟨_, { bridge with far := .reading }, hpolled, ?_, fun h => (by cases h),
        fun h => (by cases h)⟩
      rw [getElem?_set_of_get hget, if_pos rfl]
  | true =>
      obtain ⟨next, hreordered, hnext⟩ :=
        head_of_line hviable hlooped port.queue hready rfl hget hqueued
      exact ⟨next, _, hreordered, hnext, fun h => (by cases h), fun h => (by cases h)⟩

/-- A connection that was not dropped can get past the queue, once its stream is open. -/
theorem past_queue {mode : BridgeMode} (hviable : mode.Viable) {port : Port}
    (hready : Ready mode port) {i : Nat} {bridge : Bridge}
    (hget : port.bridges[i]? = some bridge) (huncut : bridge.Uncut) :
    ∃ next bridge', Reordered mode port next ∧ next.bridges[i]? = some bridge' ∧
      bridge'.far ≠ .absent ∧ bridge'.far ≠ .queued := by
  by_cases hqueued : bridge.far = .queued
  · exact leave_queue hviable hready hget hqueued
  by_cases habsent : bridge.far = .absent
  · have hintact := (hready.kept hget).2 huncut
    have horigin : bridge.origin = .opening := by
      by_contra hopened
      exact hintact.opened hopened habsent
    have hstep := Bridge.open_enabled mode horigin habsent
    have hport := bridgeStep_of_step hget hstep fun h => by cases h
    have hquiet : (alone mode).Quietly PortLabel.seen port _ :=
      ⟨[.bridge i (.origin .proceed)], Machine.exec_cons_of_step hport [], rfl⟩
    have hopened : Reordered mode port _ :=
      ⟨hquiet, .set _ hget fun _ => rfl, ready_of_quietly hready hquiet⟩
    have hnext : (port.bridges.set i { bridge with far := .queued, origin := .writing })[i]? =
        some { bridge with far := .queued, origin := .writing } := by
      rw [getElem?_set_of_get hget, if_pos rfl]
    obtain ⟨next, bridge', hreordered, hbridge', hpast⟩ :=
      leave_queue hviable hopened.ready hnext rfl
    exact ⟨next, bridge', hopened.trans hreordered, hbridge', hpast⟩
  · exact ⟨port, bridge, ⟨.refl _, .refl _, hready⟩, hget, habsent, hqueued⟩

/-- What is seen of a port, as far as its connections were not dropped. -/
structure Agrees (trunk : List (Duplex UInt8)) (port : Port) : Prop where
  length : trunk.length = port.bridges.length
  connection : ∀ {i : Nat} {duplex : Duplex UInt8} {bridge : Bridge}, trunk[i]? = some duplex →
    port.bridges[i]? = some bridge → duplex.Uncut → bridge.connection = duplex

theorem Agrees.of_connections (port : Port) : Agrees port.connections port where
  length := List.length_map _
  connection hduplex hget _ := Option.some.inj ((connections_get hget).symm.trans hduplex)

theorem Agrees.get {trunk : List (Duplex UInt8)} {port : Port} (h : Agrees trunk port) {i : Nat}
    {duplex : Duplex UInt8} (hduplex : trunk[i]? = some duplex) :
    ∃ bridge, port.bridges[i]? = some bridge := by
  obtain ⟨hlt, -⟩ := List.getElem?_eq_some_iff.mp hduplex
  exact ⟨_, List.getElem?_eq_getElem (h.length ▸ hlt)⟩

theorem Agrees.keeps {trunk : List (Duplex UInt8)} {port next : Port} (h : Agrees trunk port)
    (hkeeps : Keeps port next) : Agrees trunk next where
  length := h.length.trans hkeeps.length.symm
  connection hduplex hget' huncut := by
    obtain ⟨bridge, hget⟩ := h.get hduplex
    have hconn := h.connection hduplex hget huncut
    have hbridge : bridge.Uncut := by
      rw [Bridge.Uncut, hconn]
      exact huncut
    exact (hkeeps.connection hget hget' hbridge).trans hconn

theorem Agrees.set {trunk : List (Duplex UInt8)} {port : Port} (h : Agrees trunk port) {i : Nat}
    {duplex : Duplex UInt8} {bridge bridge' : Bridge} (hduplex : trunk[i]? = some duplex)
    (hget : port.bridges[i]? = some bridge) :
    Agrees (trunk.set i bridge'.connection)
      { port with bridges := port.bridges.set i bridge' } where
  length := by rw [List.length_set, List.length_set, h.length]
  connection hfound hfound' huncut := by
    rcases getElem?_set_cases hget hfound' with ⟨rfl, rfl⟩ | ⟨hne, hbefore'⟩
    · rw [getElem?_set_of_get hduplex, if_pos rfl] at hfound
      exact Option.some.inj hfound
    · rw [getElem?_set_of_get hduplex, if_neg hne] at hfound
      exact h.connection hfound hbefore' huncut

theorem Agrees.accept {trunk : List (Duplex UInt8)} {port : Port} (h : Agrees trunk port) :
    Agrees (trunk ++ [({} : Duplex UInt8)]) { port with bridges := port.bridges ++ [{}] } where
  length := by rw [List.length_append, List.length_append, h.length]; rfl
  connection {i duplex bridge} hfound hfound' huncut := by
    rw [List.getElem?_append] at hfound hfound'
    rw [h.length] at hfound
    split at hfound
    · rename_i hlt
      rw [if_pos hlt] at hfound'
      exact h.connection hfound hfound' huncut
    · rename_i hge
      rw [if_neg hge] at hfound'
      rw [List.mem_singleton.mp (List.mem_of_getElem? hfound),
        List.mem_singleton.mp (List.mem_of_getElem? hfound')]
      rfl

/-- An act at one of the ends of a connection that was not dropped. -/
theorem act {mode : BridgeMode} (hviable : mode.Viable) {port : Port}
    {trunk : List (Duplex UInt8)} (hready : Ready mode port) (hagrees : Agrees trunk port)
    {i : Nat} {side : Side} {action : ConduitAct UInt8} {duplex duplex' : Duplex UInt8}
    (hduplex : trunk[i]? = some duplex) (huncut : duplex.Uncut)
    (hact : duplex.act side action = some duplex') :
    ∃ labels next, (alone mode).exec port labels = some next ∧
      labels.filterMap PortLabel.seen = [.act i side action] ∧
      Ready mode next ∧ Agrees (trunk.set i duplex') next ∧ next.serving = port.serving := by
  obtain ⟨bridge, hget⟩ := hagrees.get hduplex
  have hbridge : bridge.Uncut := by
    rw [Bridge.Uncut, hagrees.connection hduplex hget huncut]
    exact huncut
  obtain ⟨mid, bridge', ⟨hquiet, hkeeps, hready'⟩, hget', habsent, hqueued⟩ :=
    past_queue hviable hready hget hbridge
  have hagrees' := hagrees.keeps hkeeps
  obtain rfl := hagrees'.connection hduplex hget' huncut
  obtain ⟨labels, final, hrun, hseen, rfl⟩ := ((hready'.kept hget').2 huncut).transparent hviable
    (fun _ => ⟨habsent, hqueued⟩) huncut [(side, action)] (Machine.exec_cons_of_step hact [])
  obtain ⟨first, hfirst, hsilent⟩ := hquiet
  have hlift := exec_lift i labels hget' habsent hqueued hrun
  refine ⟨first ++ labels.map (.bridge i), _, (Machine.exec_append _ _).mpr ⟨mid, hfirst, hlift⟩,
    ?_, ?_, hagrees'.set hduplex hget', hkeeps.serving⟩
  · rw [List.filterMap_append, hsilent, seen_lift, hseen]
    rfl
  · exact Machine.exec_invariant (Ready mode) ready_step _ hlift hready'

/-! ## Streams of other peers -/

/-- The stream of a connection, opened or not, has the request of somebody else's in its
way. -/
structure Blocked (index : Nat) (port : Port) : Prop where
  ahead : port.busy = true ∨ ∃ front back, port.queue = front ++ none :: back ∧ some index ∉ front
  waits : ∀ bridge, port.bridges[index]? = some bridge →
    (bridge.far = .absent ∨ bridge.far = .queued ∨ bridge.far = .exited) ∧ bridge.reached = none

/-- What is ahead of a stream stays there while others come and go. -/
theorem ahead_queueAfter {index i : Nat} {before after : FarTask}
    {queue front back : List (Option Nat)} (hqueue : queue = front ++ none :: back)
    (hfront : some index ∉ front) :
    ∃ front' back', queueAfter i before after queue = front' ++ none :: back' ∧
      some index ∉ front' := by
  unfold queueAfter
  split
  · exact ⟨front, back ++ [some i], by simp [hqueue], hfront⟩
  · split
    · rw [hqueue, List.erase_append]
      split
      · exact ⟨front.erase (some i), back, rfl, fun h => hfront (List.mem_of_mem_erase h)⟩
      · exact ⟨front, back.erase (some i), by simp, hfront⟩
    · exact ⟨front, back, hqueue, hfront⟩

theorem Blocked.not_polls {mode : BridgeMode} {index : Nat} {port : Port}
    (h : port.Blocked index) (hlooped : mode.looped = true) :
    port.polls mode (some index) = false := by
  rw [polls, if_pos hlooped]
  rcases h.ahead with hbusy | ⟨front, back, hqueue, hfront⟩
  · simp [hbusy]
  · cases front with
    | nil => simp [hqueue]
    | cons first front =>
        have hne : first ≠ some index := fun heq => hfront (heq ▸ List.mem_cons_self)
        simp [hqueue, hne]

theorem Blocked.bridgeStep {mode : BridgeMode} {index i : Nat} {label : BridgeLabel}
    {port next : Port} (h : port.Blocked index) (hlooped : mode.looped = true)
    (hstep : port.bridgeStep mode i label = some next) : next.Blocked index := by
  obtain ⟨bridge, bridge', hget, hmove, hpolls, rfl⟩ := bridgeStep_cases hstep
  refine ⟨h.ahead.imp_right fun ⟨front, back, hqueue, hfront⟩ => ahead_queueAfter hqueue hfront,
    fun found hfound => ?_⟩
  rcases getElem?_set_cases hget hfound with ⟨rfl, rfl⟩ | ⟨-, hfound⟩
  · obtain ⟨hwaits, hnone⟩ := h.waits bridge hget
    cases Bridge.far_step hmove with
    | stays hfar hreached => exact ⟨hfar ▸ hwaits, hreached.trans hnone⟩
    | opens habsent hfar hreached => exact ⟨.inr (.inl hfar), hreached.trans hnone⟩
    | polls hlabel hqueued hfar hreached =>
        have hpolled := hpolls hlabel
        rw [h.not_polls hlooped] at hpolled
        cases hpolled
    | reads outcome hlabel hreading hfar hreached => simp [hreading] at hwaits
    | forwards task task' hforwarding hfar hreached => simp [hforwarding] at hwaits
    | exits hfar hreached => exact ⟨.inr (.inr hfar), hreached.trans hnone⟩
  · exact h.waits found hfound

/-- Nothing that the port and its ends do changes that, and its target does nothing. -/
theorem Blocked.step {mode : BridgeMode} {index : Nat} {label : PortLabel} {port next : Port}
    (h : port.Blocked index) (hlooped : mode.looped = true)
    (hstep : (alone mode).step port label = some next) :
    next.Blocked index ∧ ∀ action, label ≠ .bridge index (.target action) := by
  obtain ⟨hown, hstep⟩ := Option.ite_none_right_eq_some.mp hstep
  cases label with
  | accept =>
      obtain ⟨-, hnext⟩ := Option.ite_none_right_eq_some.mp hstep
      obtain rfl := Option.some.inj hnext
      refine ⟨⟨h.ahead, fun bridge hget => ?_⟩, fun action heq => by cases heq⟩
      rcases getElem?_concat_cases hget with rfl | hget
      · exact ⟨.inl rfl, rfl⟩
      · exact h.waits bridge hget
  | acceptFailed =>
      obtain ⟨-, hnext⟩ := Option.ite_none_right_eq_some.mp hstep
      obtain rfl := Option.some.inj hnext
      cases mode with
      | localForward => cases hlooped
      | reverseForward => exact ⟨h, fun action heq => by cases heq⟩
  | bridge i label =>
      refine ⟨h.bridgeStep hlooped hstep, fun action heq => ?_⟩
      cases heq
      obtain ⟨bridge, bridge', hget, hmove, -, -⟩ := bridgeStep_cases hstep
      simp [Bridge.step, (h.waits bridge hget).2] at hmove
  | otherOpens | otherPoll | otherRead => cases hown

/-- However long they go on. -/
theorem Blocked.exec {mode : BridgeMode} {index : Nat} (hlooped : mode.looped = true)
    (labels : List PortLabel) :
    ∀ {port next : Port}, port.Blocked index → (alone mode).exec port labels = some next →
      ∀ action, .bridge index (.target action) ∉ labels := by
  induction labels with
  | nil => exact fun _ _ _ => List.not_mem_nil
  | cons label labels ih =>
      intro port next h hrun action hmem
      obtain ⟨mid, hfirst, hrest⟩ := Machine.exec_cons hrun
      obtain ⟨hmid, hnot⟩ := h.step hlooped hfirst
      rcases List.mem_cons.mp hmem with heq | hmem
      · exact hnot action heq.symm
      · exact ih hmid hrest action hmem

/-- Whatever the connections of a port could go on to do and see if they had nothing to do with
each other, in any order, they can do and see at the port, where nobody else does anything;
whichever of them were dropped. -/
def Transparent (mode : BridgeMode) (port : Port) : Prop :=
  ∀ (outer : List (TrunkLabel UInt8)) (trunk : List (Duplex UInt8)),
    (Trunk.steady UInt8).exec port.connections outer = some trunk →
    ∃ further next, (alone mode).exec port further = some next ∧
      further.filterMap PortLabel.seen = outer ∧ Agrees trunk next

/-- A connection that is accepted has nobody else's stream in its way either. -/
theorem ready_accept {mode : BridgeMode} {port : Port} (hready : Ready mode port) :
    Ready mode { port with bridges := port.bridges ++ [{}] } :=
  ⟨good_accept hready.toGood, hready.clear⟩

theorem Ready.transparent {mode : BridgeMode} (hviable : mode.Viable) {port : Port}
    (hready : Ready mode port) (hserving : port.serving = true) : Transparent mode port := by
  intro outer trunk houter
  obtain ⟨further, next, hfurther, hseen, -, hagrees, -⟩ := Machine.answers some PortLabel.seen
    (fun trunk port => Ready mode port ∧ Agrees trunk port ∧ port.serving = true)
    (by
      rintro trunk port label trunk' ⟨hready, hagrees, hserving⟩ hstep
      cases label with
      | «open» =>
          obtain rfl := Option.some.inj hstep
          have haccept : (alone mode).step port .accept =
              some { port with bridges := port.bridges ++ [{}] } := if_pos hserving
          exact ⟨[.accept], _, Machine.exec_cons_of_step haccept [], rfl, ready_accept hready,
            hagrees.accept, hserving⟩
      | act i side action =>
          simp only [Trunk.steady] at hstep
          split at hstep
          · cases hstep
          · rename_i duplex hduplex
            split at hstep
            · rename_i huncut
              obtain ⟨duplex', hact, rfl⟩ := Option.map_eq_some_iff.mp hstep
              obtain ⟨labels, next, hrun, hseen, hready', hagrees', hserving'⟩ :=
                act hviable hready hagrees hduplex huncut hact
              exact ⟨labels, next, hrun, hseen, hready', hagrees', hserving'.trans hserving⟩
            · cases hstep
      | drop i => cases hstep)
    outer ⟨hready, .of_connections port, hserving⟩ houter
  exact ⟨further, next, hfurther, by rw [hseen, List.filterMap_some], hagrees⟩

end Port

end Sape
