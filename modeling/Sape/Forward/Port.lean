/-
  Forward/Port.lean --- the port of `-L` or `-R`, with all the connections it accepts.

  The accept loop gives every connection a task of its own.  With `-L` (`run_local_forward`)
  it ends when an accept fails; with `-R` (`start_reverse_listener`) it goes on.  On the
  connecting side a listener has a task for every stream as well, but a dialer reads the
  requests of all of them in one loop (`run_incoming_reverse_handler`): the next stream
  leaves the queue when the request of the one before has been read.  The loop takes streams
  of any peer, so that what is ahead of a stream in the queue need not belong to the port;
  such a stream is there as `none`, and it is read while the port is `busy`.

  WHAT IS PROVED.

      port_refines             what is seen of the connections of a port could be seen of
                               connections to the target that have nothing to do with each
                               other
      port_delivers            so on each of them what is received is the beginning of what was
                               sent, and behind the end it is all of it
      good_step                the accept queue has the streams that wait in it, each once
-/
import Sape.Forward.Transparency
import Sape.Foundation.Lists

set_option autoImplicit false

namespace Sape

open Sape.Foundation

/-! ## The port -/

/-- A port, and the connections it has accepted. -/
structure Port where
  bridges : List Bridge := []
  /-- the accept loop goes on -/
  serving : Bool := true
  /-- the streams in the accept queue of the connecting side, by connection; those that some
  other peer has opened have none -/
  queue : List (Option Nat) := []
  /-- the loop is reading the request of such a stream -/
  busy : Bool := false
  deriving DecidableEq, Repr, Inhabited

/-- What a label of a port names. -/
inductive PortLabel where
  | accept
  | acceptFailed
  | bridge (index : Nat) (label : BridgeLabel)
  /-- some other peer opens a stream -/
  | otherOpens
  /-- it leaves the accept queue -/
  | otherPoll
  /-- its request is read, or cannot be -/
  | otherRead
  deriving DecidableEq, Repr, Inhabited

/-- Whether a label is one of the port, its connections and their ends. -/
def PortLabel.own : PortLabel → Bool
  | .accept | .acceptFailed | .bridge _ _ => true
  | .otherOpens | .otherPoll | .otherRead => false

/-- What is seen of the connections. -/
def PortLabel.seen : PortLabel → Option (TrunkLabel UInt8)
  | .accept => some .open
  | .acceptFailed => none
  | .bridge index label => label.seen.map fun (side, action) => .act index side action
  | .otherOpens | .otherPoll | .otherRead => none

namespace Port

/-- `listener.accept()` fails. -/
def acceptFailed (mode : BridgeMode) (port : Port) : Port :=
  match mode with
  | .localForward _ _ _ => { port with serving := false }
  | .reverseForward _ _ _ _ _ => port

/-- Whether the connecting side gets to a stream in its queue. -/
def polls (mode : BridgeMode) (port : Port) (stream : Option Nat) : Bool :=
  if mode.looped then
    decide (port.queue.head? = some stream) && !port.busy &&
      port.bridges.all fun bridge => decide (bridge.far ≠ .reading)
  else true

/-- The accept queue, once the connecting side of a connection has moved on. -/
def queueAfter (index : Nat) (before after : FarTask) (queue : List (Option Nat)) :
    List (Option Nat) :=
  if before = .absent ∧ after = .queued then queue ++ [some index]
  else if before = .queued ∧ after ≠ .queued then queue.erase (some index)
  else queue

/-- A step of one of the connections. -/
def bridgeStep (mode : BridgeMode) (port : Port) (index : Nat) (label : BridgeLabel) :
    Option Port :=
  match port.bridges[index]? with
  | none => none
  | some bridge =>
      if label = .poll ∧ port.polls mode (some index) = false then none
      else (bridge.step mode label).map fun next =>
        { port with
          bridges := port.bridges.set index next
          queue := queueAfter index bridge.far next.far port.queue }

/-- The stream of some other peer leaves the accept queue; a loop reads its request. -/
def otherPoll (mode : BridgeMode) (port : Port) : Option Port :=
  if none ∈ port.queue ∧ port.polls mode none = true then
    some { port with queue := port.queue.erase none, busy := mode.looped }
  else none

/-- One step. -/
def step (mode : BridgeMode) (port : Port) : PortLabel → Option Port
  | .accept => if port.serving then some { port with bridges := port.bridges ++ [{}] } else none
  | .acceptFailed => if port.serving then some (port.acceptFailed mode) else none
  | .bridge index label => port.bridgeStep mode index label
  | .otherOpens => some { port with queue := port.queue ++ [none] }
  | .otherPoll => port.otherPoll mode
  | .otherRead => if port.busy then some { port with busy := false } else none

/-- The machine of a port that was just bound. -/
def machine (mode : BridgeMode) : Machine Port PortLabel where
  start := {}
  step := step mode

/-- The connections, as those at their ends see them. -/
def connections (port : Port) : List (Duplex UInt8) := port.bridges.map Bridge.connection

theorem bridgeStep_cases {mode : BridgeMode} {port next : Port} {index : Nat}
    {label : BridgeLabel} (h : port.bridgeStep mode index label = some next) :
    ∃ bridge bridge', port.bridges[index]? = some bridge ∧
      bridge.step mode label = some bridge' ∧
      (label = .poll → port.polls mode (some index) = true) ∧
      next = { port with
        bridges := port.bridges.set index bridge'
        queue := queueAfter index bridge.far bridge'.far port.queue } := by
  unfold bridgeStep at h
  split at h
  · cases h
  · rename_i bridge hget
    split at h
    · cases h
    · rename_i hpolls
      obtain ⟨bridge', hstep, rfl⟩ := Option.map_eq_some_iff.mp h
      exact ⟨bridge, bridge', hget, hstep, fun hpoll =>
        Bool.eq_true_of_not_eq_false fun hfalse => hpolls ⟨hpoll, hfalse⟩, rfl⟩

theorem bridgeStep_of_step {mode : BridgeMode} {port : Port} {index : Nat} {label : BridgeLabel}
    {bridge bridge' : Bridge} (hget : port.bridges[index]? = some bridge)
    (hstep : bridge.step mode label = some bridge')
    (hpolls : label = .poll → port.polls mode (some index) = true) :
    port.bridgeStep mode index label = some { port with
      bridges := port.bridges.set index bridge'
      queue := queueAfter index bridge.far bridge'.far port.queue } := by
  have hguard : ¬ (label = .poll ∧ port.polls mode (some index) = false) := by
    rintro ⟨hpoll, hfalse⟩
    rw [hpolls hpoll] at hfalse
    cases hfalse
  rw [bridgeStep, hget]
  simp only [if_neg hguard, hstep, Option.map_some]

theorem connections_get {port : Port} {index : Nat} {bridge : Bridge}
    (hget : port.bridges[index]? = some bridge) :
    port.connections[index]? = some bridge.connection := by
  rw [connections, List.getElem?_map, hget]
  rfl

theorem connections_set (port : Port) (index : Nat) (bridge : Bridge)
    (queue : List (Option Nat)) :
    { port with
      bridges := port.bridges.set index bridge
      queue := queue }.connections = port.connections.set index bridge.connection :=
  List.map_set

/-- Whatever is seen of the connections of a port in a run could be seen of connections to
the target that have nothing to do with each other, each of which may be dropped; and there
is no other target that they lead to. -/
theorem port_refines (mode : BridgeMode) (labels : List PortLabel) {port : Port}
    (hrun : (machine mode).Reaches labels port) :
    ∃ outer, (Trunk.machine UInt8).Reaches outer port.connections ∧
      outer.filterMap TrunkLabel.seen = labels.filterMap PortLabel.seen ∧
      ∀ bridge ∈ port.bridges, ∀ target, bridge.reached = some target → target = mode.target := by
  obtain ⟨outer, trunk, houter, hseen, rfl, hinv⟩ : ∃ outer trunk,
      (Trunk.machine UInt8).exec [] outer = some trunk ∧
        outer.filterMap TrunkLabel.seen = labels.filterMap PortLabel.seen ∧
        trunk = port.connections ∧ ∀ bridge ∈ port.bridges, Bridge.Inv mode bridge :=
    Machine.answers PortLabel.seen TrunkLabel.seen
      (fun port trunk => trunk = port.connections ∧
        ∀ bridge ∈ port.bridges, Bridge.Inv mode bridge)
      (by
        rintro port _ label next ⟨rfl, hinv⟩ hstep
        cases label with
        | accept =>
            simp only [machine, step] at hstep
            split at hstep
            · obtain rfl := Option.some.inj hstep
              refine ⟨[.open], _, rfl, rfl, ?_, fun bridge hmem => ?_⟩
              · rw [connections, connections, List.map_append]
                rfl
              · rcases List.mem_append.mp hmem with hmem | hmem
                · exact hinv bridge hmem
                · rw [List.mem_singleton.mp hmem]
                  exact Bridge.inv_start mode
            · cases hstep
        | acceptFailed =>
            simp only [machine, step] at hstep
            split at hstep
            · obtain rfl := Option.some.inj hstep
              exact ⟨[], _, rfl, rfl, by cases mode <;> rfl, by cases mode <;> exact hinv⟩
            · cases hstep
        | bridge index label =>
            obtain ⟨bridge, bridge', hget, hmove, -, rfl⟩ := bridgeStep_cases hstep
            obtain ⟨hinv', hanswer⟩ :=
              Bridge.answered (hinv bridge (List.mem_of_getElem? hget)) hmove
            have hkept : ∀ other ∈ port.bridges.set index bridge', Bridge.Inv mode other :=
              fun other hmem => (List.mem_or_eq_of_mem_set hmem).elim (hinv other) (· ▸ hinv')
            have hconn := connections_get hget
            rcases hanswer with ⟨hseen, hsame | hdrop⟩ | ⟨side, action, hseen, hact⟩
            · refine ⟨[], _, rfl, by rw [PortLabel.seen, hseen]; rfl, ?_, hkept⟩
              rw [connections_set, hsame, set_of_get hconn]
            · refine ⟨[.drop index], port.connections.set index bridge.connection.drop, ?_,
                by rw [PortLabel.seen, hseen]; rfl, by rw [connections_set, hdrop], hkept⟩
              refine Machine.exec_cons_of_step ?_ []
              simp only [Trunk.machine, Trunk.step, hconn]
            · refine ⟨[.act index side action], port.connections.set index bridge'.connection, ?_,
                by rw [PortLabel.seen, hseen]; rfl, by rw [connections_set], hkept⟩
              refine Machine.exec_cons_of_step ?_ []
              simp only [Trunk.machine, Trunk.step, hconn, hact, Option.map_some]
        | otherOpens =>
            obtain rfl := Option.some.inj hstep
            exact ⟨[], _, rfl, rfl, rfl, hinv⟩
        | otherPoll =>
            obtain ⟨-, hnext⟩ := Option.ite_none_right_eq_some.mp hstep
            obtain rfl := Option.some.inj hnext
            exact ⟨[], _, rfl, rfl, rfl, hinv⟩
        | otherRead =>
            obtain ⟨-, hnext⟩ := Option.ite_none_right_eq_some.mp hstep
            obtain rfl := Option.some.inj hnext
            exact ⟨[], _, rfl, rfl, rfl, hinv⟩)
      labels ⟨rfl, fun bridge hmem => absurd hmem List.not_mem_nil⟩ hrun
  exact ⟨outer, houter, hseen, fun bridge hmem target hreached =>
    (hinv bridge hmem).reached target hreached⟩

/-- Two connections, of which the first is dropped. -/
theorem port_refines_two :
    ∃ port outer, (Trunk.machine UInt8).Reaches outer (connections port) ∧
      outer.filterMap TrunkLabel.seen = [.open, .open, .act 1 .near (.send [7])] := by
  obtain ⟨outer, houter, hseen, -⟩ := port_refines (.localForward default [] "h:1")
    [.accept, .accept, .bridge 0 (.origin (.refused "")), .acceptFailed,
      .bridge 1 (.client (.send [7]))] rfl
  exact ⟨_, outer, houter, hseen⟩

/-- On every connection of a port, either end has taken the beginning of what the other has
sent, whatever happens on the others; and where it has come to the end of a connection that
nobody dropped, the other end has closed it, and nothing is missing. -/
theorem port_delivers (mode : BridgeMode) (labels : List PortLabel) {port : Port}
    (hrun : (machine mode).Reaches labels port) (index : Nat) {bridge : Bridge}
    (hget : port.bridges[index]? = some bridge) :
    Duplex.Delivers ((labels.filterMap PortLabel.seen).filterMap (Trunk.actOf index))
      (¬ bridge.Uncut) := by
  obtain ⟨outer, houter, hseen, -⟩ := port_refines mode labels hrun
  have hdelivers := Trunk.delivers houter index
  rw [hseen, connections_get hget] at hdelivers
  exact hdelivers

/-- What the target has of two bytes. -/
theorem port_delivers_two :
    ∃ port bridge, (machine (.localForward default [] "h:1")).Reaches
        [.accept, .bridge 0 (.client (.send [7, 8]))] port ∧
      port.bridges[0]? = some bridge ∧
      Duplex.Delivers [(.near, .send [(7 : UInt8), 8])] (¬ Bridge.Uncut bridge) :=
  ⟨_, _, rfl, rfl, port_delivers (.localForward default [] "h:1")
    [.accept, .bridge 0 (.client (.send [7, 8]))] rfl 0 rfl⟩

/-! ## What a port keeps -/

/-- A connecting side gets into the accept queue when its stream is opened. -/
theorem queued_of_move {mode : BridgeMode} {bridge next : Bridge} {label : BridgeLabel}
    (h : Bridge.FarMove mode bridge label next) (hqueued : next.far = .queued) :
    bridge.far = .absent ∨ bridge.far = .queued := by
  cases h with
  | stays hfar hreached => exact .inr (hfar ▸ hqueued)
  | opens habsent hfar hreached => exact .inl habsent
  | polls hlabel hbefore hfar hreached => exact .inr hbefore
  | reads outcome hlabel hreading hfar hreached =>
      rcases hfar with hfar | ⟨target, hfar⟩
      · rw [hfar] at hqueued
        cases hqueued
      · rw [hfar] at hqueued
        cases hqueued
  | forwards task task' hforwarding hfar =>
      rw [hfar] at hqueued
      cases hqueued
  | exits hfar hreached =>
      rw [hfar] at hqueued
      cases hqueued

theorem polled_of_move {mode : BridgeMode} {bridge next : Bridge} {label : BridgeLabel}
    (h : Bridge.FarMove mode bridge label next) (hreading : next.far = .reading) :
    bridge.far = .reading ∨ label = .poll := by
  cases h with
  | stays hfar hreached => exact .inl (hfar ▸ hreading)
  | opens habsent hfar hreached =>
      rw [hfar] at hreading
      cases hreading
  | polls hlabel hbefore hfar hreached => exact .inr hlabel
  | reads outcome hlabel hbefore hfar hreached => exact .inl hbefore
  | forwards task task' hforwarding hfar =>
      rw [hfar] at hreading
      cases hreading
  | exits hfar hreached =>
      rw [hfar] at hreading
      cases hreading

/-- What is in the queue behind a step. -/
theorem mem_queueAfter {index i : Nat} {before after : FarTask} {queue : List (Option Nat)}
    (honce : queue.count (some index) ≤ 1) (hmem : some index ∈ queue ↔ before = .queued)
    (hnew : after = .queued → before = .absent ∨ before = .queued) :
    some i ∈ queueAfter index before after queue ↔
      if i = index then after = .queued else some i ∈ queue := by
  unfold queueAfter
  split
  · rename_i hopens
    rw [List.mem_append, List.mem_singleton]
    by_cases hi : i = index
    · simp [hi, hopens.2]
    · simp [hi]
  · rename_i hopens
    split
    · rename_i hleaves
      by_cases hi : i = index
      · have hgone : (queue.erase (some index)).count (some index) = 0 := by
          rw [List.count_erase_self]
          omega
        simp [hi, hleaves.2, List.count_eq_zero.mp hgone]
      · rw [if_neg hi, List.mem_erase_of_ne (by simpa using hi)]
    · rename_i hstays
      by_cases hi : i = index
      · rw [if_pos hi, hi, hmem]
        constructor
        · intro hbefore
          by_contra hafter
          exact hstays ⟨hbefore, hafter⟩
        · intro hafter
          exact (hnew hafter).resolve_left fun habsent => hopens ⟨habsent, hafter⟩
      · rw [if_neg hi]

theorem count_queueAfter {index : Nat} {before after : FarTask} {queue : List (Option Nat)}
    (honce : ∀ i, queue.count (some i) ≤ 1) (hmem : some index ∈ queue ↔ before = .queued)
    (i : Nat) : (queueAfter index before after queue).count (some i) ≤ 1 := by
  unfold queueAfter
  split
  · rename_i hopens
    have hnone : queue.count (some index) = 0 := List.count_eq_zero.mpr fun hqueued => by
      rw [hmem.mp hqueued] at hopens
      cases hopens.1
    rw [List.count_append, List.count_singleton]
    split
    · rename_i hi
      rw [beq_iff_eq, Option.some.injEq] at hi
      rw [← hi, hnone]
    · exact honce i
  · split
    · exact Nat.le_trans (List.erase_sublist.count_le _) (honce i)
    · exact honce i

/-- The invariant of a port: its connections are in order, of theirs the queue has exactly the
streams that were opened and not polled yet, and a loop reads one request at a time. -/
structure Good (mode : BridgeMode) (port : Port) : Prop where
  kept : ∀ {i : Nat} {bridge : Bridge}, port.bridges[i]? = some bridge →
    Bridge.Inv mode bridge ∧ (bridge.Uncut → Bridge.Intact mode bridge)
  queued : ∀ i, some i ∈ port.queue ↔
    ∃ bridge, port.bridges[i]? = some bridge ∧ bridge.far = .queued
  once : ∀ i, port.queue.count (some i) ≤ 1
  single : mode.looped = true → ∀ {i j : Nat} {bridge other : Bridge},
    port.bridges[i]? = some bridge → port.bridges[j]? = some other →
    bridge.far = .reading → other.far = .reading → i = j

theorem good_start (mode : BridgeMode) : Good mode {} where
  kept h := by cases h
  queued i := ⟨fun h => (by cases h), fun ⟨bridge, h, _⟩ => (by cases h)⟩
  once _ := Nat.zero_le 1
  single _ _ _ _ _ h := by cases h

/-- A connection that is accepted does not touch the others. -/
theorem good_accept {mode : BridgeMode} {port : Port} (hgood : Good mode port) :
    Good mode { port with bridges := port.bridges ++ [{}] } where
  kept h := by
    rcases getElem?_concat_cases h with rfl | h
    · exact ⟨Bridge.inv_start mode, fun _ => Bridge.intact_start mode⟩
    · exact hgood.kept h
  queued i := by
    rw [hgood.queued i]
    constructor
    · rintro ⟨bridge, hget, hfar⟩
      exact ⟨bridge, getElem?_concat_of_get {} hget, hfar⟩
    · rintro ⟨bridge, hget, hfar⟩
      rcases getElem?_concat_cases hget with rfl | hget
      · cases hfar
      · exact ⟨bridge, hget, hfar⟩
  once := hgood.once
  single hlooped i j bridge other hget hget' hfar hfar' := by
    rcases getElem?_concat_cases hget with rfl | hget
    · cases hfar
    rcases getElem?_concat_cases hget' with rfl | hget'
    · cases hfar'
    exact hgood.single hlooped hget hget' hfar hfar'

theorem good_bridgeStep {mode : BridgeMode} {port next : Port} {index : Nat}
    {label : BridgeLabel} (hgood : Good mode port)
    (h : port.bridgeStep mode index label = some next) : Good mode next := by
  obtain ⟨bridge, bridge', hget, hstep, hpolls, rfl⟩ := bridgeStep_cases h
  have hmove := Bridge.far_step hstep
  have hmem : some index ∈ port.queue ↔ bridge.far = .queued := by
    rw [hgood.queued index]
    constructor
    · rintro ⟨other, hother, hfar⟩
      obtain rfl := Option.some.inj (hother.symm.trans hget)
      exact hfar
    · exact fun hfar => ⟨bridge, hget, hfar⟩
  refine ⟨fun hfound => ?_, fun i => ?_, count_queueAfter hgood.once hmem, ?_⟩
  · rcases getElem?_set_cases hget hfound with ⟨-, rfl⟩ | ⟨-, hfound⟩
    · obtain ⟨hinv, hintact⟩ := hgood.kept hget
      exact ⟨(Bridge.answered hinv hstep).1, fun huncut =>
        Bridge.intact_step (hintact (Bridge.uncut_of_step hinv hstep huncut).1) hstep huncut⟩
    · exact hgood.kept hfound
  · rw [mem_queueAfter (hgood.once index) hmem (queued_of_move hmove), getElem?_set_of_get hget]
    by_cases hi : i = index
    · rw [if_pos hi, if_pos hi]
      exact ⟨fun hfar => ⟨bridge', rfl, hfar⟩, fun ⟨other, hother, hfar⟩ =>
        Option.some.inj hother ▸ hfar⟩
    · rw [if_neg hi, if_neg hi]
      exact hgood.queued i
  · intro hlooped i j first second hfirst hsecond hreading hreading'
    -- nothing else is read where a stream is polled
    have hothers : ∀ {k : Nat} {other : Bridge}, port.bridges[k]? = some other →
        other.far = .reading → bridge'.far = .reading → k = index := by
      intro k other hother hfar hfar'
      rcases polled_of_move hmove hfar' with hbefore | hpoll
      · exact hgood.single hlooped hother hget hfar hbefore
      · have hpolled := hpolls hpoll
        rw [polls, if_pos hlooped] at hpolled
        have hnone := (Bool.and_eq_true_iff.mp hpolled).2
        have := List.all_eq_true.mp hnone other (List.mem_of_getElem? hother)
        exact absurd hfar (of_decide_eq_true this)
    rcases getElem?_set_cases hget hfirst with ⟨rfl, rfl⟩ | ⟨-, hfirst'⟩
    · rcases getElem?_set_cases hget hsecond with ⟨rfl, -⟩ | ⟨-, hsecond'⟩
      · rfl
      · exact (hothers hsecond' hreading' hreading).symm
    · rcases getElem?_set_cases hget hsecond with ⟨rfl, rfl⟩ | ⟨-, hsecond'⟩
      · exact hothers hfirst' hreading hreading'
      · exact hgood.single hlooped hfirst' hsecond' hreading hreading'

/-- The streams of other peers take nothing from the queue but themselves. -/
theorem good_queue {mode : BridgeMode} {port : Port} (hgood : Good mode port)
    {queue : List (Option Nat)} (busy : Bool)
    (hsame : ∀ i, queue.count (some i) = port.queue.count (some i)) :
    Good mode { port with queue := queue, busy := busy } where
  kept := hgood.kept
  queued i := by
    rw [← hgood.queued i, ← List.count_pos_iff, ← List.count_pos_iff, hsame i]
  once i := by
    rw [hsame i]
    exact hgood.once i
  single := hgood.single

theorem good_step {mode : BridgeMode} {port next : Port} {label : PortLabel}
    (hgood : Good mode port) (h : port.step mode label = some next) : Good mode next := by
  cases label with
  | accept =>
      obtain ⟨-, hnext⟩ := Option.ite_none_right_eq_some.mp h
      obtain rfl := Option.some.inj hnext
      exact good_accept hgood
  | acceptFailed =>
      obtain ⟨-, hnext⟩ := Option.ite_none_right_eq_some.mp h
      obtain rfl := Option.some.inj hnext
      cases mode with
      | localForward => exact ⟨hgood.kept, hgood.queued, hgood.once, hgood.single⟩
      | reverseForward => exact hgood
  | bridge index label => exact good_bridgeStep hgood h
  | otherOpens =>
      obtain rfl := Option.some.inj h
      exact good_queue hgood port.busy fun i => by simp [List.count_append]
  | otherPoll =>
      obtain ⟨-, hnext⟩ := Option.ite_none_right_eq_some.mp h
      obtain rfl := Option.some.inj hnext
      exact good_queue hgood mode.looped fun i => List.count_erase_of_ne (by simp)
  | otherRead =>
      obtain ⟨-, hnext⟩ := Option.ite_none_right_eq_some.mp h
      obtain rfl := Option.some.inj hnext
      exact good_queue hgood false fun _ => rfl

end Port

end Sape
