/-
  Listener/Netcat.lean --- `src/netcat.rs` inside a listener: the bridges between netcat
  streams and the stdin and stdout of the process.

  `run_listen` spawns a task for every netcat stream, and every one calls `run_netcat`, which
  joins a stdin handle of its own with stdout and runs `copy_bidirectional` between that and
  the stream.  All handles read the one stdin of the process.

  TOKIO.  A stdin handle reads on another thread.  Such a read cannot be called off: when it
  comes back, it has taken its bytes, whatever has become of the bridge.  Reads of several
  handles come back in any order.  `copy_bidirectional` returns `Ok` when both directions have
  reached their ends, and an error when either has failed.

  HISTORY.  `State.reads` lists who has read what from stdin; no step depends on it.

  WHAT IS PROVED.

      move_of_step      what a step does to the bridges and to stdin
      inv_of_reaches    stdin is spread over the bridges, and nothing else is written to a
                        stream
      returned_exec     a bridge that has returned, with no read under way, reads no more
      stdin_shared      what sessions get of stdin, one beside the other
-/
import Sape.Foundation.Lists
import Sape.Foundation.Source
import Sape.Listener.Moves

set_option autoImplicit false

namespace Sape.Netcat

open Sape.Foundation

/-! ## States -/

/-- The stdin handle of a bridge. -/
inductive StdinHandle where
  | idle
  /-- a read is under way -/
  | busy
  /-- a read has come back with nothing -/
  | ended
  deriving DecidableEq, Repr, Inhabited

/-- `run_netcat` on one stream: stdin to the stream, and the stream to stdout. -/
structure Bridge where
  stdin : StdinHandle := .idle
  /-- read from stdin, and not written to the stream yet -/
  buffer : Bytes := []
  /-- written to the stream -/
  sent : Bytes := []
  /-- the stream was shut down behind the last byte of stdin -/
  stdinDone : Bool := false
  /-- how many bytes of the stream were written to stdout -/
  received : Nat := 0
  /-- the end of the stream was reached -/
  remoteDone : Bool := false
  deriving DecidableEq, Repr, Inhabited

/-- A listener with the bridges of its streams, in the order of the traffic. -/
structure State where
  listener : Listener.State
  bridges : List Bridge
  /-- how many bytes were read from stdin -/
  taken : Nat := 0
  stdout : Bytes := []
  reads : List (Reading Nat UInt8) := []
  deriving DecidableEq, Repr, Inhabited

/-- What a label names. -/
inductive Label where
  | listener (label : Listener.Label)
  /-- bridge `i` polls its stdin handle, which begins a read -/
  | poll (i : Nat)
  /-- the read of handle `i` comes back with `count` bytes, or with 0 at the end of stdin -/
  | stdinRead (i count : Nat)
  /-- bridge `i` writes bytes of its buffer to the stream -/
  | write (i count : Nat)
  /-- bridge `i` shuts the stream down behind the end of stdin -/
  | shutdown (i : Nat)
  /-- bridge `i` writes bytes of the stream to stdout -/
  | receive (i count : Nat)
  /-- bridge `i` reaches the end of the stream -/
  | remoteEof (i : Nat)
  deriving DecidableEq, Repr, Inhabited

/-! ## Steps -/

/-- What has arrived of a stream behind its request. -/
def payload (stream : IncomingStream) : Bytes := (readTunnelRequest stream.pipe.unread).2

namespace State

/-- The task of stream `i`. -/
def task (state : State) (i : Nat) : Option StreamTask :=
  state.listener.sessions[i]?.bind Listener.Session.task

/-- Whether the bridge of stream `i` runs. -/
def bridging (state : State) (i : Nat) : Bool :=
  state.listener.running && decide (state.task i = some .netcat)

/-- Whether `copy_bidirectional` may return what a label of the listener says. -/
def returns (state : State) : Listener.Label → Bool
  | .stream i (.netcatDone (.ok ())) =>
      state.bridges[i]?.any fun bridge => bridge.stdinDone && bridge.remoteDone
  | _ => true

/-- Bridge `i` goes on, if it can. -/
def advance (state : State) (i : Nat) (next : Bridge → Option Bridge) : Option State :=
  if state.bridging i then
    (state.bridges[i]?.bind next).map fun bridge =>
      { state with bridges := state.bridges.set i bridge }
  else none

/-- One step. -/
def step (nspace : String) (opt : ListenOpt) (input : Bytes) (state : State) :
    Label → Option State
  | .listener label =>
      if state.returns label then
        (state.listener.step nspace opt label).map fun listener =>
          { state with listener := listener }
      else none
  | .poll i =>
      state.advance i fun bridge =>
        if bridge.stdin = .idle then some { bridge with stdin := .busy } else none
  | .stdinRead i count =>
      match state.bridges[i]? with
      | none => none
      | some bridge =>
          if state.listener.running ∧ bridge.stdin = .busy ∧ state.taken + count ≤ input.length then
            if count = 0 then
              if state.taken = input.length then
                some { state with bridges := state.bridges.set i { bridge with stdin := .ended } }
              else none
            else
              let bytes := (input.drop state.taken).take count
              some { state with
                bridges := state.bridges.set i
                  { bridge with stdin := .idle, buffer := bridge.buffer ++ bytes }
                taken := state.taken + count
                reads := state.reads ++ [{ reader := i, items := bytes }] }
          else none
  | .write i count =>
      state.advance i fun bridge =>
        some
          { bridge with
            buffer := bridge.buffer.drop count
            sent := bridge.sent ++ bridge.buffer.take count }
  | .shutdown i =>
      state.advance i fun bridge =>
        if bridge.stdin = .ended ∧ bridge.buffer = [] then some { bridge with stdinDone := true }
        else none
  | .receive i count =>
      match state.listener.sessions[i]?, state.bridges[i]? with
      | some session, some bridge =>
          if state.bridging i then
            let bytes := ((payload session.stream).drop bridge.received).take count
            some { state with
              bridges := state.bridges.set i
                { bridge with received := bridge.received + bytes.length }
              stdout := state.stdout ++ bytes }
          else none
      | _, _ => none
  | .remoteEof i =>
      match state.listener.sessions[i]? with
      | none => none
      | some session =>
          state.advance i fun bridge =>
            if session.stream.finished ∧ bridge.received = (payload session.stream).length then
              some { bridge with remoteDone := true }
            else none

end State

/-- The machine of a listener that is given `opt`, meets `traffic`, and has `input` on its
stdin. -/
def machine (nspace : String) (opt : ListenOpt) (traffic : List IncomingStream)
    (input : Bytes) : Machine State Label where
  start :=
    { listener := (Listener.machine nspace opt traffic).start
      bridges := traffic.map fun _ => {} }
  step := State.step nspace opt input

/-! ## What a step does -/

/-- What changes at a step. -/
inductive Move (nspace : String) (opt : ListenOpt) (input : Bytes) (state : State) : State → Prop
    where
  | listener {label : Listener.Label} {next : Listener.State}
      (hstep : state.listener.step nspace opt label = some next) :
      Move nspace opt input state { state with listener := next }
  /-- a bridge by itself: nothing is read from stdin, nothing is lost -/
  | own {i : Nat} {bridge next : Bridge} {stdout : Bytes}
      (hget : state.bridges[i]? = some bridge)
      (hcontent : next.sent ++ next.buffer = bridge.sent ++ bridge.buffer)
      (hbusy : next.stdin = .busy → bridge.stdin = .busy ∨ state.bridging i = true) :
      Move nspace opt input state
        { state with bridges := state.bridges.set i next, stdout := stdout }
  | read {i count : Nat} {bridge : Bridge} (hget : state.bridges[i]? = some bridge)
      (hbusy : bridge.stdin = .busy) (hlen : state.taken + count ≤ input.length) :
      Move nspace opt input state
        { state with
          bridges := state.bridges.set i
            { bridge with
              stdin := .idle
              buffer := bridge.buffer ++ (input.drop state.taken).take count }
          taken := state.taken + count
          reads := state.reads ++
            [{ reader := i, items := (input.drop state.taken).take count }] }

theorem advance_cases {state next : State} {i : Nat} {step : Bridge → Option Bridge}
    (h : state.advance i step = some next) :
    ∃ bridge bridge', state.bridging i = true ∧ state.bridges[i]? = some bridge ∧
      step bridge = some bridge' ∧
      next = { state with bridges := state.bridges.set i bridge', stdout := state.stdout } := by
  unfold State.advance at h
  split at h
  · rename_i hbridging
    obtain ⟨bridge', hbind, rfl⟩ := Option.map_eq_some_iff.mp h
    obtain ⟨bridge, hget, hstep⟩ := Option.bind_eq_some_iff.mp hbind
    exact ⟨bridge, bridge', hbridging, hget, hstep, rfl⟩
  · cases h

theorem move_of_step {nspace : String} {opt : ListenOpt} {input : Bytes} {state next : State}
    {label : Label} (h : state.step nspace opt input label = some next) :
    Move nspace opt input state next := by
  cases label with
  | listener label =>
      simp only [State.step] at h
      split at h
      · obtain ⟨listener, hstep, rfl⟩ := Option.map_eq_some_iff.mp h
        exact .listener hstep
      · cases h
  | poll i =>
      obtain ⟨bridge, bridge', hbridging, hget, hstep, rfl⟩ := advance_cases h
      split at hstep
      · obtain rfl := Option.some.inj hstep
        exact .own hget rfl fun _ => .inr hbridging
      · cases hstep
  | stdinRead i count =>
      simp only [State.step] at h
      split at h
      · cases h
      · rename_i bridge hget
        split at h
        · rename_i hallowed
          obtain ⟨-, hbusy, hlen⟩ := hallowed
          split at h
          · split at h
            · obtain rfl := Option.some.inj h
              have hended : Move nspace opt input state
                  { state with
                    bridges := state.bridges.set i { bridge with stdin := .ended }
                    stdout := state.stdout } :=
                .own hget rfl fun heq => (by cases heq)
              exact hended
            · cases h
          · obtain rfl := Option.some.inj h
            exact .read hget hbusy hlen
        · cases h
  | write i count =>
      obtain ⟨bridge, bridge', hbridging, hget, hstep, rfl⟩ := advance_cases h
      obtain rfl := Option.some.inj hstep
      refine .own hget ?_ fun _ => .inr hbridging
      rw [List.append_assoc, List.take_append_drop]
  | shutdown i =>
      obtain ⟨bridge, bridge', hbridging, hget, hstep, rfl⟩ := advance_cases h
      split at hstep
      · obtain rfl := Option.some.inj hstep
        exact .own hget rfl fun _ => .inr hbridging
      · cases hstep
  | receive i count =>
      simp only [State.step] at h
      split at h
      · rename_i session bridge hsession hget
        split at h
        · rename_i hbridging
          obtain rfl := Option.some.inj h
          exact .own hget rfl fun _ => .inr hbridging
        · cases h
      · cases h
  | remoteEof i =>
      simp only [State.step] at h
      split at h
      · cases h
      · rename_i session hsession
        obtain ⟨bridge, bridge', hbridging, hget, hstep, rfl⟩ := advance_cases h
        split at hstep
        · obtain rfl := Option.some.inj hstep
          exact .own hget rfl fun _ => .inr hbridging
        · cases hstep

/-! ## How stdin is spread -/

/-- What holds in every state. -/
structure Inv (input : Bytes) (state : State) : Prop where
  /-- stdin was read from the front, every byte by one bridge -/
  consumed : Reading.total state.reads = input.take state.taken
  /-- what a bridge has read is on its stream, or in its buffer -/
  held : ∀ i bridge, state.bridges[i]? = some bridge →
    bridge.sent ++ bridge.buffer = Reading.ofReader i state.reads

theorem inv_start (nspace : String) (opt : ListenOpt) (traffic : List IncomingStream)
    (input : Bytes) : Inv input (machine nspace opt traffic input).start := by
  refine ⟨rfl, fun i bridge hget => ?_⟩
  obtain ⟨stream, -, rfl⟩ := List.mem_map.mp (List.mem_of_getElem? hget)
  rfl

theorem inv_move {nspace : String} {opt : ListenOpt} {input : Bytes} {state next : State}
    (hinv : Inv input state) (hmove : Move nspace opt input state next) : Inv input next := by
  cases hmove with
  | listener hstep => exact ⟨hinv.consumed, hinv.held⟩
  | own hget hcontent hbusy =>
      refine ⟨hinv.consumed, fun j bridge hfound => ?_⟩
      rcases getElem?_set_cases hget hfound with ⟨rfl, rfl⟩ | ⟨-, hother⟩
      · rw [hcontent]
        exact hinv.held j _ hget
      · exact hinv.held j bridge hother
  | read hget hbusy hlen =>
      rename_i i count bridge
      refine ⟨?_, fun j bridge hfound => ?_⟩
      · rw [Reading.total_append, hinv.consumed, Reading.total_singleton, List.take_add]
      · rw [Reading.ofReader_append, Reading.ofReader_singleton]
        rcases getElem?_set_cases hget hfound with ⟨rfl, rfl⟩ | ⟨hne, hother⟩
        · rw [if_pos rfl, ← List.append_assoc, hinv.held j _ hget]
        · rw [if_neg (Ne.symm hne), List.append_nil]
          exact hinv.held j bridge hother

theorem inv_of_reaches {nspace : String} {opt : ListenOpt} {traffic : List IncomingStream}
    {input : Bytes} {labels : List Label} {state : State}
    (hrun : (machine nspace opt traffic input).Reaches labels state) : Inv input state :=
  Machine.invariant (Inv input) (inv_start nspace opt traffic input)
    (fun hinv hstep => inv_move hinv (move_of_step hstep)) hrun

/-! ## Who can read -/

/-- Bridge `i` can read stdin: it has a read under way, or runs and has not met the end. -/
def State.readsStdin (state : State) (i : Nat) : Bool :=
  state.listener.running &&
    state.bridges[i]?.any fun bridge =>
      decide (bridge.stdin = .busy) || (state.bridging i && decide (bridge.stdin = .idle))

/-- The read of a handle comes back with the next byte. -/
theorem step_stdinRead (nspace : String) (opt : ListenOpt) {input : Bytes} {state : State}
    {i : Nat} {bridge : Bridge} (hrunning : state.listener.running = true)
    (hget : state.bridges[i]? = some bridge) (hbusy : bridge.stdin = .busy)
    (hmore : state.taken < input.length) :
    ∃ next, state.step nspace opt input (.stdinRead i 1) = some next ∧
      next.reads = state.reads ++ [{ reader := i, items := (input.drop state.taken).take 1 }] := by
  have hallowed : state.listener.running ∧ bridge.stdin = .busy ∧
      state.taken + 1 ≤ input.length := ⟨hrunning, hbusy, hmore⟩
  simp only [State.step, hget, if_pos hallowed]
  exact ⟨_, rfl, rfl⟩

/-- A bridge that runs and has not met the end polls its handle. -/
theorem step_poll (nspace : String) (opt : ListenOpt) (input : Bytes) {state : State} {i : Nat}
    {bridge : Bridge} (hbridging : state.bridging i = true)
    (hget : state.bridges[i]? = some bridge) (hidle : bridge.stdin = .idle) :
    state.step nspace opt input (.poll i) =
      some { state with bridges := state.bridges.set i { bridge with stdin := .busy } } := by
  simp only [State.step, State.advance, if_pos hbridging, hget, Option.bind_some, if_pos hidle,
    Option.map_some]

/-- A bridge that can read stdin can take the next byte. -/
theorem takes_of_readsStdin (nspace : String) (opt : ListenOpt) (traffic : List IncomingStream)
    {input : Bytes} {state : State} {i : Nat} (hreads : state.readsStdin i = true)
    (hmore : state.taken < input.length) :
    ∃ labels next, (machine nspace opt traffic input).exec state labels = some next ∧
      next.reads = state.reads ++ [{ reader := i, items := (input.drop state.taken).take 1 }] := by
  unfold State.readsStdin at hreads
  obtain ⟨hrunning, hany⟩ := Bool.and_eq_true_iff.mp hreads
  obtain ⟨bridge, hget, hready⟩ := (Option.any_eq_true _ _).mp hany
  rcases Bool.or_eq_true_iff.mp hready with hbusy | hidle
  · obtain ⟨next, hstep, hnext⟩ :=
      step_stdinRead nspace opt hrunning hget (of_decide_eq_true hbusy) hmore
    have hread : (machine nspace opt traffic input).step state (.stdinRead i 1) = some next := hstep
    exact ⟨_, next, Machine.exec_cons_of_step hread [], hnext⟩
  · -- the bridge polls its handle first
    obtain ⟨hbridging, hidle⟩ := Bool.and_eq_true_iff.mp hidle
    obtain ⟨polled, hpolled, hstate⟩ : ∃ polled : Bridge, polled.stdin = .busy ∧
        (machine nspace opt traffic input).step state (.poll i) =
          some { state with bridges := state.bridges.set i polled } :=
      ⟨_, rfl, step_poll nspace opt input hbridging hget (of_decide_eq_true hidle)⟩
    have hgot : (state.bridges.set i polled)[i]? = some polled := by
      rw [getElem?_set_of_get hget, if_pos rfl]
    have hthen : ∃ next, (machine nspace opt traffic input).step
          { state with bridges := state.bridges.set i polled } (.stdinRead i 1) = some next ∧
        next.reads = state.reads ++
          [{ reader := i, items := (input.drop state.taken).take 1 }] :=
      step_stdinRead nspace opt hrunning hgot hpolled hmore
    obtain ⟨next, hread, hnext⟩ := hthen
    refine ⟨[.poll i, .stdinRead i 1], next, ?_, hnext⟩
    rw [Machine.exec_cons_of_step hstate, Machine.exec_cons_of_step hread, Machine.exec_nil]

/-- Bridge `i` has returned, and has no read under way. -/
structure Retired (i : Nat) (state : State) : Prop where
  ended : state.task i = some .ended
  quiet : ∀ bridge, state.bridges[i]? = some bridge → bridge.stdin ≠ .busy

/-- A task that has returned stays so. -/
theorem ended_of_listenerStep {nspace : String} {opt : ListenOpt} {state next : Listener.State}
    {label : Listener.Label} {i : Nat} (hstep : state.step nspace opt label = some next)
    (hended : state.sessions[i]?.bind Listener.Session.task = some .ended) :
    next.sessions[i]?.bind Listener.Session.task = some .ended := by
  obtain ⟨session, hget, htask⟩ := Option.bind_eq_some_iff.mp hended
  obtain ⟨-, hmove⟩ := Listener.move_of_step hstep
  cases hmove with
  | environment running connected opened => exact hended
  | delivered hget' =>
      rw [getElem?_set_of_get hget']
      split
      · rename_i heq
        obtain rfl := Option.some.inj (hget.symm.trans (heq ▸ hget'))
        exact htask
      · exact hended
  | spawned hget' hnone =>
      rw [getElem?_set_of_get hget']
      split
      · rename_i heq
        obtain rfl := Option.some.inj (hget.symm.trans (heq ▸ hget'))
        cases hnone.symm.trans htask
      · exact hended
  | stream hget' htask' hstream =>
      rw [getElem?_set_of_get hget']
      split
      · rename_i heq
        obtain rfl := Option.some.inj (hget.symm.trans (heq ▸ hget'))
        obtain rfl := Option.some.inj (htask'.symm.trans htask)
        cases hstream with
        | ended htask => rcases htask with htask | htask <;> cases htask
      · exact hended
  | accepted hget' => exact hended
  | inbound hget' hinbound hlabel heffects => exact hended

theorem retired_move {nspace : String} {opt : ListenOpt} {input : Bytes} {state next : State}
    {i : Nat} (hmove : Move nspace opt input state next) (hretired : Retired i state) :
    Retired i next ∧ Reading.ofReader i next.reads = Reading.ofReader i state.reads := by
  cases hmove with
  | listener hstep =>
      exact ⟨⟨ended_of_listenerStep hstep hretired.ended, hretired.quiet⟩, rfl⟩
  | own hget hcontent hbusy =>
      refine ⟨⟨hretired.ended, fun bridge hfound hquiet => ?_⟩, rfl⟩
      rcases getElem?_set_cases hget hfound with ⟨rfl, rfl⟩ | ⟨-, hother⟩
      · rcases hbusy hquiet with hbusy | hbridging
        · exact hretired.quiet _ hget hbusy
        · have htask := of_decide_eq_true (Bool.and_eq_true_iff.mp hbridging).2
          cases hretired.ended.symm.trans htask
      · exact hretired.quiet bridge hother hquiet
  | read hget hbusy hlen =>
      rename_i j count bridge
      have hne : i ≠ j := fun heq => hretired.quiet bridge (heq ▸ hget) hbusy
      refine ⟨⟨hretired.ended, fun other hfound hquiet => ?_⟩, ?_⟩
      · rcases getElem?_set_cases hget hfound with ⟨heq, -⟩ | ⟨-, hother⟩
        · exact hne heq
        · exact hretired.quiet other hother hquiet
      · rw [Reading.ofReader_append, Reading.ofReader_singleton, if_neg (Ne.symm hne),
          List.append_nil]

/-- A bridge that has returned, with no read under way, reads no more. -/
theorem returned_exec {nspace : String} {opt : ListenOpt} {traffic : List IncomingStream}
    {input : Bytes} {labels : List Label} {state final : State} {i : Nat}
    (hrun : (machine nspace opt traffic input).exec state labels = some final)
    (hretired : Retired i state) :
    Reading.ofReader i final.reads = Reading.ofReader i state.reads := by
  have hkept : Retired i state → Retired i final ∧
      Reading.ofReader i final.reads = Reading.ofReader i state.reads := by
    apply Machine.exec_preserves _ _ _ labels hrun
    · intro state hstate
      exact ⟨hstate, rfl⟩
    · intro first second third hfirst hsecond hstate
      obtain ⟨hmid, heq⟩ := hfirst hstate
      obtain ⟨hend, heq'⟩ := hsecond hmid
      exact ⟨hend, heq'.trans heq⟩
    · intro state label next hstep hstate
      exact retired_move (move_of_step hstep) hstate
  exact (hkept hretired).2

/-! ## What a session gets -/

/-- For every listener, traffic, input and run: stdin is read from the front, every byte by one
session.  What a session is sent is, in the order of stdin, what its bridge has read, up to
where it has got; it is one segment of stdin where no other session has read in between.  Any
session whose bridge runs and has not met the end of stdin can take the next byte, whatever
its remote side and the other sessions are at; one whose bridge has returned, with no read
under way, takes no more. -/
theorem stdin_shared {nspace : String} {opt : ListenOpt} {traffic : List IncomingStream}
    {input : Bytes} {labels : List Label} {state : State}
    (hrun : (machine nspace opt traffic input).Reaches labels state) :
    Reading.total state.reads = input.take state.taken ∧
      ∀ i bridge, state.bridges[i]? = some bridge →
        bridge.sent <+: Reading.ofReader i state.reads ∧
        (Reading.ofReader i state.reads).Sublist input ∧
        (Reading.Unbroken i state.reads → bridge.sent <:+: input) ∧
        (state.readsStdin i = true → state.taken < input.length →
          ∃ more next, (machine nspace opt traffic input).exec state more = some next ∧
            next.reads = state.reads ++
              [{ reader := i, items := (input.drop state.taken).take 1 }]) ∧
        (Retired i state → ∀ more final,
          (machine nspace opt traffic input).exec state more = some final →
          Reading.ofReader i final.reads = Reading.ofReader i state.reads) := by
  have hinv := inv_of_reaches hrun
  refine ⟨hinv.consumed, fun i bridge hget => ?_⟩
  have hsent : bridge.sent <+: Reading.ofReader i state.reads := ⟨_, hinv.held i bridge hget⟩
  have htotal : Reading.total state.reads <+: input :=
    hinv.consumed ▸ List.take_prefix state.taken input
  refine ⟨hsent, (Reading.ofReader_sublist i state.reads).trans htotal.sublist, ?_, ?_, ?_⟩
  · intro hunbroken
    exact hsent.isInfix.trans ((Reading.ofReader_infix hunbroken).trans htotal.isInfix)
  · exact takes_of_readsStdin nspace opt traffic
  · intro hretired more final hexec
    exact returned_exec hexec hretired

/-! ## Two sessions at once -/

/-- The streams of peers 1 and 2, each a netcat request and nothing behind it. -/
def twoStreams : List IncomingStream :=
  [{ peer := ⟨[1]⟩, content := [0, 0, 0, 1, 0] }, { peer := ⟨[2]⟩, content := [0, 0, 0, 1, 0] }]

/-- Both sessions run, each takes a byte of stdin, and the remote side of the first ends. -/
def bothReading : List Label :=
  [.listener (.connect ⟨[1]⟩), .listener (.connect ⟨[2]⟩), .listener .openStream,
    .listener .openStream, .listener (.deliver 0 5), .listener (.deliver 1 5), .listener .next,
    .listener .next, .listener (.stream 0 .poll), .listener (.stream 1 .poll),
    .listener (.stream 0 (.read .proceed)), .listener (.stream 1 (.read .proceed)),
    .poll 0, .poll 1, .stdinRead 0 1, .stdinRead 1 1, .write 0 1, .remoteEof 0]

/-- The first session takes another byte, although its remote side has ended. -/
def readOn : List Label := [.poll 0, .stdinRead 0 1, .write 0 1]

theorem stdin_shared_twoStreams :
    ∃ state bridge, (machine "" {} twoStreams [10, 20, 30]).Reaches bothReading state ∧
      state.bridges[0]? = some bridge ∧ bridge.sent = [10] ∧
      bridge.sent <+: Reading.ofReader 0 state.reads ∧
      (Reading.Unbroken 0 state.reads → bridge.sent <:+: [10, 20, 30]) := by
  obtain ⟨state, hrun, htest⟩ :
      ∃ state, (machine "" {} twoStreams [10, 20, 30]).Reaches bothReading state ∧
        (state.bridges[0]?.any fun bridge : Bridge => decide (bridge.sent = [10])) = true :=
    Machine.exists_reaches_of_any (by decide)
  obtain ⟨bridge, hget, hsent⟩ := (Option.any_eq_true _ _).mp htest
  obtain ⟨hfront, -, hunbroken, -⟩ := (stdin_shared hrun).2 0 bridge hget
  exact ⟨state, bridge, hrun, hget, of_decide_eq_true hsent, hfront, hunbroken⟩

/-- Two sessions can read stdin at once; the first is sent bytes from both sides of one that
the second has taken, the latter of them taken when its own remote side had ended. -/
theorem stdin_interleaved :
    ∃ state final, (machine "" {} twoStreams [10, 20, 30]).Reaches bothReading state ∧
      state.readsStdin 0 = true ∧ state.readsStdin 1 = true ∧
      (machine "" {} twoStreams [10, 20, 30]).exec state readOn = some final ∧
      ∃ before after, state.bridges[0]? = some before ∧ before.remoteDone = true ∧
        before.sent = [10] ∧ final.bridges[0]? = some after ∧ after.sent = [10, 30] ∧
        ¬ after.sent <:+: [10, 20, 30] := by
  obtain ⟨state, hrun, htest⟩ :
      ∃ state, (machine "" {} twoStreams [10, 20, 30]).Reaches bothReading state ∧
        (state.readsStdin 0 && state.readsStdin 1 &&
          (state.bridges[0]?.any fun bridge : Bridge =>
            bridge.remoteDone && decide (bridge.sent = [10])) &&
          ((machine "" {} twoStreams [10, 20, 30]).exec state readOn).any fun final : State =>
            final.bridges[0]?.any fun bridge : Bridge => decide (bridge.sent = [10, 30])) = true :=
    Machine.exists_reaches_of_any (by decide)
  simp only [Bool.and_eq_true] at htest
  obtain ⟨⟨⟨hfirst, hsecond⟩, hbefore⟩, hexec⟩ := htest
  obtain ⟨before, hget, hdone⟩ := (Option.any_eq_true _ _).mp hbefore
  obtain ⟨final, hfinal, hany⟩ := (Option.any_eq_true _ _).mp hexec
  obtain ⟨after, hget', hsent⟩ := (Option.any_eq_true _ _).mp hany
  obtain ⟨hdone, hsent'⟩ := Bool.and_eq_true_iff.mp hdone
  have hafter : after.sent = [10, 30] := of_decide_eq_true hsent
  refine ⟨state, final, hrun, hfirst, hsecond, hfinal, before, after, hget, hdone,
    of_decide_eq_true hsent', hget', hafter, ?_⟩
  rw [hafter]
  decide

end Sape.Netcat
