/-
  Listener/Allowlist.lean --- the allowlist over whole runs.

  The peer of a stream is checked once, when its task is first polled.  Everything a
  listener does later is done by that task, by the accept loop that the task leaves
  behind, or by the tasks that the loop spawns; each carries the peer along.

  WHAT IS PROVED.

      allowed_of_move     every step keeps the invariant
      effects_allowed     no operation is begun for, or toward, a peer that the
                          allowlist does not admit, and an empty list refuses nobody
-/
import Sape.Listener.Moves

set_option autoImplicit false

namespace Sape.Listener

open Sape.Foundation

/-- What the allowlist has come to in a state: whoever is past it was admitted, and only
who was not is rejected. -/
structure Allowed (allowedPeers : List PeerId) (state : State) : Prop where
  sessions : ∀ session ∈ state.sessions, ∀ task, session.task = some task →
    (task.admitted = true → StreamTask.Admits allowedPeers session.stream.peer) ∧
      (task = .rejected → ¬ StreamTask.Admits allowedPeers session.stream.peer)
  sockets : ∀ socket ∈ state.sockets, StreamTask.Admits allowedPeers socket.remotePeer
  inbounds : ∀ inbound ∈ state.inbounds, StreamTask.Admits allowedPeers inbound.remotePeer
  effects : ∀ effect ∈ state.effects, StreamTask.Admits allowedPeers effect.peer ∧
    ∀ peer, effect.op.toward = some peer → StreamTask.Admits allowedPeers peer

theorem allowed_start (allowedPeers : List PeerId) (traffic : List IncomingStream) :
    Allowed allowedPeers { sessions := traffic.map fun stream => { stream := stream } } where
  sessions session hmem task htask := by
    obtain ⟨stream, -, rfl⟩ := List.mem_map.mp hmem
    cases htask
  sockets socket hmem := by cases hmem
  inbounds inbound hmem := by cases hmem
  effects effect hmem := by cases hmem

/-- A stream's own task stays inside what its peer was admitted for. -/
theorem admits_of_streamMove {opt : ListenOpt} {state : State} {i : Nat} {session : Session}
    {task next : StreamTask} {written : Bytes} {socket : Option ReverseSocket}
    (hmove : StreamMove opt state i session task next written socket)
    (htask : (task.admitted = true → StreamTask.Admits opt.allowedPeers session.stream.peer) ∧
      (task = .rejected → ¬ StreamTask.Admits opt.allowedPeers session.stream.peer)) :
    ((next.admitted = true → StreamTask.Admits opt.allowedPeers session.stream.peer) ∧
      (next = .rejected → ¬ StreamTask.Admits opt.allowedPeers session.stream.peer)) ∧
    ∀ bound, socket = some bound →
      bound.remotePeer = session.stream.peer ∧ task.admitted = true := by
  cases hmove with
  | polled =>
      refine ⟨?_, fun bound h => (by cases h)⟩
      rcases StreamTask.afterPoll_cases opt.allowedPeers session.stream.peer with
        ⟨hadmits, hnext⟩ | ⟨hnot, hnext⟩
      · rw [hnext]
        exact ⟨fun _ => hadmits, fun h => (by cases h)⟩
      · rw [hnext]
        exact ⟨fun h => (by cases h), fun _ => hnot⟩
  | @requested req hrequest =>
      refine ⟨⟨fun _ => htask.1 rfl, fun h => ?_⟩, fun bound h => (by cases h)⟩
      cases req <;> cases h
  | bound hcan =>
      refine ⟨⟨fun _ => htask.1 rfl, fun h => (by cases h)⟩, fun bound h => ?_⟩
      obtain rfl := Option.some.inj h
      exact ⟨rfl, rfl⟩
  | bindFailed =>
      exact ⟨⟨fun _ => htask.1 rfl, fun h => (by cases h)⟩, fun bound h => (by cases h)⟩
  | acked hwritten =>
      exact ⟨⟨fun _ => htask.1 rfl, fun h => (by cases h)⟩, fun bound h => (by cases h)⟩
  | forwarded =>
      exact ⟨⟨fun _ => htask.1 rfl, fun h => (by cases h)⟩, fun bound h => (by cases h)⟩
  | ended hawaiting =>
      refine ⟨⟨fun _ => htask.1 ?_, fun h => (by cases h)⟩, fun bound h => (by cases h)⟩
      rcases hawaiting with rfl | rfl <;> rfl

theorem allowed_of_move {nspace : String} {opt : ListenOpt} {state next : State} {label : Label}
    (hinv : Allowed opt.allowedPeers state) (hmove : Move nspace opt state label next) :
    Allowed opt.allowedPeers next := by
  cases hmove with
  | environment running connected opened =>
      exact ⟨hinv.sessions, hinv.sockets, hinv.inbounds, hinv.effects⟩
  | @delivered i count session hget =>
      refine ⟨?_, hinv.sockets, hinv.inbounds, hinv.effects⟩
      intro session' hmem task htask
      rcases List.mem_or_eq_of_mem_set hmem with hold | rfl
      · exact hinv.sessions session' hold task htask
      · exact hinv.sessions session (List.mem_of_getElem? hget) task htask
  | spawned hget htask =>
      refine ⟨?_, hinv.sockets, hinv.inbounds, hinv.effects⟩
      intro session' hmem task htask'
      rcases List.mem_or_eq_of_mem_set hmem with hold | rfl
      · exact hinv.sessions session' hold task htask'
      · obtain rfl := Option.some.inj htask'
        exact ⟨fun h => (by cases h), fun h => (by cases h)⟩
  | @stream i session task task' written socket hget htask hmove =>
      have hbefore := hinv.sessions session (List.mem_of_getElem? hget) task htask
      obtain ⟨hbehind, hbound⟩ := admits_of_streamMove hmove hbefore
      have hsocket : ∀ bound, socket = some bound →
          bound.remotePeer = session.stream.peer ∧
            StreamTask.Admits opt.allowedPeers session.stream.peer := fun bound h =>
        ⟨(hbound bound h).1, hbefore.1 (hbound bound h).2⟩
      refine ⟨?_, ?_, hinv.inbounds, ?_⟩
      · intro session' hmem task'' htask''
        rcases List.mem_or_eq_of_mem_set hmem with hold | rfl
        · exact hinv.sessions session' hold task'' htask''
        · obtain rfl := Option.some.inj htask''
          exact hbehind
      · intro bound hmem
        rcases List.mem_append.mp hmem with hold | hnew
        · exact hinv.sockets bound hold
        · obtain ⟨hpeer, hadmits⟩ := hsocket bound (Option.mem_toList.mp hnew)
          exact hpeer ▸ hadmits
      · intro effect hmem
        rcases List.mem_append.mp hmem with hmem | haccept
        · rcases List.mem_append.mp hmem with hold | hbegun
          · exact hinv.effects effect hold
          · obtain ⟨hpeer, hop⟩ := mem_effectsOf hbegun
            rw [hpeer, StreamTask.toward_of_op hop]
            exact ⟨hbehind.1 (StreamTask.admitted_of_op hop), fun peer h => (by cases h)⟩
        · obtain ⟨bound, hnew, rfl⟩ := List.mem_map.mp haccept
          exact ⟨(hsocket bound (Option.mem_toList.mp hnew)).2, fun peer h => (by cases h)⟩
  | @accepted k socket hget =>
      have hadmits := hinv.sockets socket (List.mem_of_getElem? hget)
      refine ⟨hinv.sessions, hinv.sockets, ?_, ?_⟩
      · intro inbound hmem
        rcases List.mem_append.mp hmem with hold | hnew
        · exact hinv.inbounds inbound hold
        · obtain rfl := List.mem_singleton.mp hnew
          exact hadmits
      · intro effect hmem
        rcases List.mem_append.mp hmem with hold | hnew
        · exact hinv.effects effect hold
        · rcases List.mem_pair.mp hnew with rfl | rfl
          · refine ⟨hadmits, fun peer htoward => ?_⟩
            obtain rfl := Option.some.inj htoward
            exact hadmits
          · exact ⟨hadmits, fun peer h => (by cases h)⟩
  | @inbound j inbound outcome next opened effects hget hmove hlabel heffects =>
      have hadmits := hinv.inbounds inbound (List.mem_of_getElem? hget)
      refine ⟨hinv.sessions, hinv.sockets, ?_, ?_⟩
      · intro inbound' hmem
        rcases List.mem_or_eq_of_mem_set hmem with hold | rfl
        · exact hinv.inbounds inbound' hold
        · exact hadmits
      · intro effect hmem
        rcases List.mem_append.mp hmem with hold | hnew
        · exact hinv.effects effect hold
        · obtain ⟨hpeer, htoward⟩ := heffects effect hnew
          exact ⟨hpeer ▸ hadmits, fun peer h => htoward peer h ▸ hadmits⟩

theorem allowed_of_reaches {nspace : String} {opt : ListenOpt} {traffic : List IncomingStream}
    {labels : List Label} {state : State}
    (hrun : (machine nspace opt traffic).Reaches labels state) :
    Allowed opt.allowedPeers state :=
  (machine nspace opt traffic).invariant (Allowed opt.allowedPeers)
    (allowed_start opt.allowedPeers traffic)
    (fun hinv hstep => allowed_of_move hinv (move_of_step hstep).2) hrun

/-- A peer that is admitted has its request read once its task is polled. -/
theorem reads_of_admits (nspace : String) {opt : ListenOpt} {state : State} {i : Nat}
    {session : Session} (hrunning : state.running = true)
    (hget : state.sessions[i]? = some session) (htask : session.task = some .spawned)
    (hadmits : StreamTask.Admits opt.allowedPeers session.stream.peer) :
    ∃ next, state.step nspace opt (.stream i .poll) = some next ∧
      next.sessions[i]? = some { session with task := some .reading } ∧
      { peer := session.stream.peer, op := .readTunnelRequest } ∈ next.effects := by
  have hpoll : StreamTask.afterPoll opt.allowedPeers session.stream.peer = .reading := by
    rcases StreamTask.afterPoll_cases opt.allowedPeers session.stream.peer with
      ⟨-, hnext⟩ | ⟨hnot, -⟩
    · exact hnext
    · exact absurd hadmits hnot
  have hresume : StreamTask.resume opt.allowedPeers session.stream.peer .spawned .polled =
      some .reading := congrArg some hpoll
  have hlt : i < state.sessions.length := (List.getElem?_eq_some_iff.mp hget).1
  simp only [State.step, hrunning, if_true, State.runningStep, State.streamStep, hget, htask,
    State.perform, hresume, Option.some.injEq, exists_eq_left']
  refine ⟨?_, ?_⟩
  · rw [List.getElem?_set_self hlt, List.append_nil]
  · simp [effectsOf, StreamTask.op]

/-- A listener with an allowlist begins every operation on behalf of a listed peer, and
opens streams to listed peers only; one without turns no peer away, but goes on to read the
request of every stream whose task is polled. -/
theorem effects_allowed {nspace : String} {opt : ListenOpt} {traffic : List IncomingStream}
    {labels : List Label} {state : State}
    (hrun : (machine nspace opt traffic).Reaches labels state) :
    (opt.allowedPeers ≠ [] → ∀ effect ∈ state.effects,
      effect.peer ∈ opt.allowedPeers ∧
        ∀ peer, effect.op.toward = some peer → peer ∈ opt.allowedPeers) ∧
    (opt.allowedPeers = [] → (∀ session ∈ state.sessions, session.task ≠ some .rejected) ∧
      ∀ i session, state.running = true → state.sessions[i]? = some session →
        session.task = some .spawned →
        ∃ next, state.step nspace opt (.stream i .poll) = some next ∧
          next.sessions[i]? = some { session with task := some .reading } ∧
          { peer := session.stream.peer, op := .readTunnelRequest } ∈ next.effects) := by
  have hinv := allowed_of_reaches hrun
  constructor
  · intro hne effect hmem
    obtain ⟨hpeer, htoward⟩ := hinv.effects effect hmem
    exact ⟨hpeer.resolve_left hne, fun peer h => (htoward peer h).resolve_left hne⟩
  · intro hempty
    refine ⟨fun session hmem hrejected => ?_, fun i session hrunning hget htask => ?_⟩
    · exact (hinv.sessions session hmem .rejected hrejected).2 rfl (.inl hempty)
    · exact reads_of_admits nspace hrunning hget htask (.inl hempty)

/-- Peers 1 and 2 ask for the same, and where only peer 1 is listed a client connects to the
port that is bound. -/
def twoPeersLabels : List Label :=
  [.connect ⟨[1]⟩, .connect ⟨[2]⟩, .openStream, .openStream, .next, .next, .stream 0 .poll,
    .stream 1 .poll, .deliver 0 12, .stream 0 (.read .proceed), .stream 0 (.bind (.ok 9090)),
    .stream 0 (.ack .proceed), .accept 0, .inbound 0 .proceed, .inbound 0 .proceed]

theorem effects_allowed_twoPeers :
    (∃ state, (machine "sape" { allowedPeers := [⟨[1]⟩] }
        [reverseStream ⟨[1]⟩, reverseStream ⟨[2]⟩]).Reaches twoPeersLabels state ∧
      state.effects.length = 8 ∧
      ∀ effect ∈ state.effects, effect.peer ∈ [(⟨[1]⟩ : PeerId)]) ∧
    ∃ state next, (machine "sape" {} [reverseStream ⟨[1]⟩, reverseStream ⟨[2]⟩]).Reaches
        (twoPeersLabels.take 6) state ∧
      state.step "sape" {} (.stream 1 .poll) = some next ∧
      { peer := ⟨[2]⟩, op := .readTunnelRequest } ∈ next.effects := by
  constructor
  · obtain ⟨state, hrun, hlen⟩ := Machine.exists_reaches_of_any (by decide :
      ((machine "sape" { allowedPeers := [⟨[1]⟩] }
        [reverseStream ⟨[1]⟩, reverseStream ⟨[2]⟩]).exec
          (machine "sape" { allowedPeers := [⟨[1]⟩] }
            [reverseStream ⟨[1]⟩, reverseStream ⟨[2]⟩]).start twoPeersLabels).any
        (fun state => decide (state.effects.length = 8)) = true)
    exact ⟨state, hrun, of_decide_eq_true hlen, fun effect hmem =>
      ((effects_allowed hrun).1 (List.cons_ne_nil _ _) effect hmem).1⟩
  · obtain ⟨state, hrun, htest⟩ := Machine.exists_reaches_of_any (by decide :
      ((machine "sape" {} [reverseStream ⟨[1]⟩, reverseStream ⟨[2]⟩]).exec
          (machine "sape" {} [reverseStream ⟨[1]⟩, reverseStream ⟨[2]⟩]).start
          (twoPeersLabels.take 6)).any
        (fun state => decide (state.running = true ∧ state.sessions[1]? =
          some { stream := reverseStream ⟨[2]⟩, task := some .spawned })) = true)
    obtain ⟨hrunning, hget⟩ := of_decide_eq_true htest
    obtain ⟨next, hnext, -, hreads⟩ := ((effects_allowed hrun).2 rfl).2 1 _ hrunning hget rfl
    exact ⟨state, next, hrun, hnext, hreads⟩

end Sape.Listener
