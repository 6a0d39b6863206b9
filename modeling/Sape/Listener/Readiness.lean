/-
  Listener/Readiness.lean --- a stream in the accept queue of a listener waits for no
  other stream.

  `run_listen` spawns a task for each stream before anything is read from it.  From any
  reachable state the accept loop alone gets to a waiting stream, and the task of that
  stream alone gets to its request.

  WHAT IS PROVED.

      queueInv_of_reaches   no stream in the queue has a task yet
      exec_next             the accept loop gets to any stream of the queue
      settles_of_waiting    a request that is here is dispatched by the loop and by the
                            task of its own stream
-/
import Sape.Listener.Moves

set_option autoImplicit false

namespace Sape.Listener

open Sape.Foundation

/-! ## The queue -/

/-- No stream that is still in the queue has a task. -/
def QueueInv (state : State) : Prop :=
  ∀ (k : Nat) (session : Session), state.accepted ≤ k → state.sessions[k]? = some session →
    session.task = none

theorem queueInv_set {state : State} (hinv : QueueInv state) {i : Nat} (moved : Session)
    (htask : state.accepted ≤ i → moved.task = none) {k : Nat} {session : Session}
    (hk : state.accepted ≤ k) (hget : (state.sessions.set i moved)[k]? = some session) :
    session.task = none := by
  rw [List.getElem?_set] at hget
  split at hget
  · rename_i hik
    split at hget
    · obtain rfl := Option.some.inj hget
      exact htask (hik ▸ hk)
    · cases hget
  · exact hinv k session hk hget

theorem queueInv_step {nspace : String} {opt : ListenOpt} {state next : State} {label : Label}
    (hinv : QueueInv state) (hstep : state.step nspace opt label = some next) :
    QueueInv next := by
  rcases (move_of_step hstep).2 with ⟨running, connected, opened⟩ |
    @⟨i, count, session, hget⟩ | ⟨hget, htask⟩ | ⟨hget, htask, hmove⟩ | ⟨hget⟩ |
    ⟨hget, hmove, hlabel, heffects⟩
  · exact hinv
  · intro k other hk hother
    have htask : state.accepted ≤ i → session.task = none := fun hi => hinv i session hi hget
    exact queueInv_set hinv { session with stream := session.stream.deliver count } htask hk hother
  · intro k other hk hother
    -- the stream that leaves the queue is in front of the others
    have hne : state.accepted ≠ k := Nat.ne_of_lt hk
    rw [List.getElem?_set_ne hne] at hother
    exact hinv k other (Nat.le_of_succ_le hk) hother
  · intro k other hk hother
    refine queueInv_set hinv _ (fun hi => ?_) hk hother
    rw [hinv _ _ hi hget] at htask
    cases htask
  · exact hinv
  · exact hinv

theorem queueInv_of_reaches {nspace : String} {opt : ListenOpt} {traffic : List IncomingStream}
    {labels : List Label} {state : State}
    (hrun : (machine nspace opt traffic).Reaches labels state) : QueueInv state := by
  refine Machine.invariant QueueInv ?_ (fun hinv hstep => queueInv_step hinv hstep) hrun
  intro k session _ hget
  simp only [machine, List.getElem?_map, Option.map_eq_some_iff] at hget
  obtain ⟨stream, -, rfl⟩ := hget
  rfl

/-! ## From the queue to the handler -/

/-- The steps that the accept loop and the task of stream `i` take by themselves. -/
inductive Label.Own (i : Nat) : Label → Prop where
  | next : Label.Own i .next
  | poll : Label.Own i (.stream i .poll)
  | read : Label.Own i (.stream i (.read .proceed))

/-- The state in which the stream at the front of the queue has got its task. -/
def State.spawn (state : State) (front : Session) : State :=
  { state with
    accepted := state.accepted + 1
    sessions := state.sessions.set state.accepted { front with task := some .spawned } }

theorem step_next (nspace : String) (opt : ListenOpt) (traffic : List IncomingStream)
    {state : State} {front : Session} (hrunning : state.running = true) (hinv : QueueInv state)
    (hopened : state.accepted < state.opened)
    (hfront : state.sessions[state.accepted]? = some front) :
    (machine nspace opt traffic).step state .next = some (state.spawn front) := by
  have hnone := hinv _ _ (Nat.le_refl _) hfront
  simp only [machine, State.step, hrunning, if_true, State.runningStep, if_pos hopened, hfront,
    hnone, State.spawn]

/-- The accept loop takes streams off the queue without looking at them. -/
theorem exec_next (nspace : String) (opt : ListenOpt) (traffic : List IncomingStream) {i : Nat}
    {session : Session} :
    ∀ (gap : Nat) {state : State}, QueueInv state → state.running = true →
      state.accepted + gap = i → i < state.opened → state.sessions[i]? = some session →
      ∃ next, (machine nspace opt traffic).exec state (List.replicate (gap + 1) .next) =
          some next ∧
        next.running = true ∧
        next.sessions[i]? = some { session with task := some .spawned } := by
  intro gap
  induction gap with
  | zero =>
      intro state hinv hrunning haccepted hopened hget
      obtain rfl : state.accepted = i := haccepted
      have hlt : state.accepted < state.sessions.length := (List.getElem?_eq_some_iff.mp hget).1
      refine ⟨state.spawn session, ?_, hrunning, List.getElem?_set_self hlt⟩
      have hstep := step_next nspace opt traffic hrunning hinv hopened hget
      rw [List.replicate_succ, Machine.exec_cons_of_step hstep]
      rfl
  | succ gap ih =>
      intro state hinv hrunning haccepted hopened hget
      have hlt : i < state.sessions.length := (List.getElem?_eq_some_iff.mp hget).1
      have hfront : state.sessions[state.accepted]? = some state.sessions[state.accepted] :=
        List.getElem?_eq_getElem (by omega)
      have hstep := step_next nspace opt traffic hrunning hinv (by omega) hfront
      have hne : state.accepted ≠ i := by omega
      have hget' : (state.spawn state.sessions[state.accepted]).sessions[i]? = some session :=
        (List.getElem?_set_ne hne).trans hget
      obtain ⟨next, hexec, hnext⟩ := ih (queueInv_step hinv hstep) hrunning
        ((Nat.succ_add_eq_add_succ _ _).trans haccepted) hopened hget'
      refine ⟨next, ?_, hnext⟩
      rw [List.replicate_succ, Machine.exec_cons_of_step hstep]
      exact hexec

/-- A step of a session's task that writes nothing and binds nothing. -/
theorem step_stream (nspace : String) (opt : ListenOpt) (traffic : List IncomingStream)
    {state : State} {i : Nat} {session : Session} {task next : StreamTask} {input : StreamInput}
    {event : StreamEvent} (hrunning : state.running = true)
    (hget : state.sessions[i]? = some session) (htask : session.task = some task)
    (hperform : state.perform i session input = some (event, [], none))
    (hresume : task.resume opt.allowedPeers session.stream.peer event = some next) :
    ∃ after, (machine nspace opt traffic).step state (.stream i input) = some after ∧
      after.running = true ∧
      after.sessions[i]? = some { session with task := some next } := by
  have hlt : i < state.sessions.length := (List.getElem?_eq_some_iff.mp hget).1
  refine ⟨{ state with
      sessions := state.sessions.set i
        { session with task := some next, reply := session.reply ++ [] }
      sockets := state.sockets ++ []
      effects := state.effects ++ effectsOf session.stream.peer next.op ++ [] }, ?_, hrunning, ?_⟩
  · simp only [machine, State.step, hrunning, if_true, State.runningStep, State.streamStep, hget,
      htask, hperform, hresume, Option.toList_none, List.map_nil]
  · rw [List.append_nil, List.getElem?_set_self hlt]

/-- Where the task of a stream stands once the allowlist and the request are behind it. -/
def settledTask (opt : ListenOpt) (peer : PeerId) (req : TunnelRequest) : StreamTask :=
  if !opt.allowedPeers.isEmpty && !opt.allowedPeers.contains peer then .rejected
  else .afterRequest req

/-- The accept loop and the task of stream `i`, by themselves, get the request to its
handler, or the peer to the allowlist that turns it away. -/
def Settles (nspace : String) (opt : ListenOpt) (traffic : List IncomingStream) (state : State)
    (i : Nat) (req : TunnelRequest) : Prop :=
  ∃ labels final session, (∀ label ∈ labels, Label.Own i label) ∧
    (machine nspace opt traffic).exec state labels = some final ∧
    final.sessions[i]? = some session ∧
    session.task = some (settledTask opt session.stream.peer req)

/-- A request that is here is dispatched, whatever the other streams do. -/
theorem settles_of_waiting {nspace : String} {opt : ListenOpt} {traffic : List IncomingStream}
    {labels : List Label} {state : State} {i : Nat} {session : Session} {req : TunnelRequest}
    (hrun : (machine nspace opt traffic).Reaches labels state) (hrunning : state.running = true)
    (hwaiting : state.accepted ≤ i) (hopened : i < state.opened)
    (hget : state.sessions[i]? = some session) (hdelivered : session.stream.Delivered req) :
    Settles nspace opt traffic state i req := by
  obtain ⟨spawned, hexec, hrunning, hget⟩ := exec_next nspace opt traffic (i - state.accepted)
    (queueInv_of_reaches hrun) hrunning (by omega) hopened hget
  have hloop : ∀ label ∈ List.replicate (i - state.accepted + 1) Label.next, Label.Own i label :=
    fun label hmem => (List.mem_replicate.mp hmem).2 ▸ .next
  have hperform : spawned.perform i { session with task := some .spawned } .poll =
      some (.polled, [], none) := rfl
  obtain ⟨polled, hpoll, hrunning, hget⟩ := step_stream nspace opt traffic hrunning hget rfl
    hperform rfl
  have hlabels : ∀ label ∈ List.replicate (i - state.accepted + 1) Label.next ++
      [.stream i .poll], Label.Own i label := by
    intro label hmem
    rcases List.mem_append.mp hmem with hnext | hpolled
    · exact hloop label hnext
    · exact List.mem_singleton.mp hpolled ▸ .poll
  have hpolled := (Machine.exec_append _ _).mpr
    ⟨spawned, hexec, (Machine.exec_cons_of_step hpoll []).trans (Machine.exec_nil _ _)⟩
  by_cases hrejected : (!opt.allowedPeers.isEmpty &&
      !opt.allowedPeers.contains session.stream.peer) = true
  · refine ⟨_, polled, _, hlabels, hpolled, hget, ?_⟩
    simp only [settledTask, StreamTask.afterPoll, if_pos hrejected]
  · simp only [StreamTask.afterPoll, if_neg hrejected] at hget
    have hread : polled.perform i { session with task := some .reading } (.read .proceed) =
        some (.requestRead (.ok req), [], none) := by
      simp only [State.perform, hdelivered.readRequest, Option.map_some]
    obtain ⟨final, hlast, -, hget⟩ := step_stream nspace opt traffic hrunning hget rfl hread rfl
    refine ⟨_, final, _, ?_, (Machine.exec_append _ _).mpr
      ⟨polled, hpolled, (Machine.exec_cons_of_step hlast []).trans (Machine.exec_nil _ _)⟩,
      hget, ?_⟩
    · intro label hmem
      rcases List.mem_append.mp hmem with hbefore | hreads
      · exact hlabels label hbefore
      · exact List.mem_singleton.mp hreads ▸ .read
    · simp only [settledTask, if_neg hrejected]

end Sape.Listener
