/-
  Listener/Sockets.lean --- which session holds which reverse port.

  A port is bound by the task of one session, between the decoded request and the ack,
  and then handed to an accept loop that never ends.  The invariant ties every socket to
  the session that bound it and every ack to a socket: what a session has written back
  tells whether it holds a port.

  WHAT IS PROVED.

      streamMove_sound    what the task of a stream does to its own session
      socketInv_of_move   every step keeps the invariant
      socketInv_of_reaches
      kept_of_move        a bound socket stays bound, and a session keeps its stream
-/
import Sape.Foundation.Lists
import Sape.Listener.Moves

set_option autoImplicit false

namespace Sape.Listener

open Sape.Foundation

/-! ## The invariant -/

/-- Session `i` has a reverse port. -/
def Holds (sockets : List ReverseSocket) (i : Nat) : Prop :=
  ∃ socket ∈ sockets, socket.session = i

/-- What session `i` has come to, given the sockets. -/
structure SessionSound (sockets : List ReverseSocket) (i : Nat) (session : Session) : Prop where
  /-- the only thing ever written back is an ack, and a task ends behind it -/
  silent : session.task ≠ some .ended → session.reply = []
  binding : ∀ bindPort target gatewayPorts,
    session.task = some (.binding bindPort target gatewayPorts) →
      session.stream.request = .ok (.reverseForward bindPort target gatewayPorts)
  holds : Holds sockets i → session.task = some (.acking (.ok ())) ∨ session.task = some .ended
  acking : session.task = some (.acking (.ok ())) → Holds sockets i
  acked : Holds sockets i → session.reply <+: [reverseOk]
  refused : ¬ Holds sockets i → session.reply.head? ≠ some reverseOk

/-- A socket belongs to a session that asked for it, at the address it asked for. -/
structure SocketSound (sessions : List Session) (socket : ReverseSocket) : Prop where
  bound : ∃ session bindPort gatewayPorts, sessions[socket.session]? = some session ∧
    session.stream.peer = socket.remotePeer ∧
    session.stream.request = .ok (.reverseForward bindPort socket.target gatewayPorts) ∧
    socket.addr.ip = (reverseBindAddr bindPort gatewayPorts).ip ∧
    (bindPort = 0 ∨ socket.addr.port = bindPort)

/-- The sessions and the sockets of a listener agree. -/
structure SocketInv (state : State) : Prop where
  sessions : ∀ i session, state.sessions[i]? = some session →
    SessionSound state.sockets i session
  sockets : ∀ socket ∈ state.sockets, SocketSound state.sessions socket
  session_nodup : (state.sockets.map ReverseSocket.session).Nodup
  addr_nodup : (state.sockets.map ReverseSocket.addr).Nodup

theorem not_holds_nil (i : Nat) : ¬ Holds [] i := by
  rintro ⟨socket, hmem, -⟩
  cases hmem

theorem socketInv_start (traffic : List IncomingStream) :
    SocketInv { sessions := traffic.map fun stream => { stream := stream } } where
  sessions i session hget := by
    have hmem := List.mem_of_getElem? hget
    obtain ⟨stream, -, rfl⟩ := List.mem_map.mp hmem
    refine ⟨fun _ => rfl, fun _ _ _ h => (by cases h), fun h => ?_, fun h => (by cases h),
      fun _ => List.nil_prefix, fun _ h => (by cases h)⟩
    exact absurd h (not_holds_nil i)
  sockets socket hmem := by cases hmem
  session_nodup := List.nodup_nil
  addr_nodup := List.nodup_nil

/-! ## A session's own task -/

theorem holds_append_none (sockets : List ReverseSocket) (i : Nat) :
    Holds (sockets ++ (none : Option ReverseSocket).toList) i ↔ Holds sockets i := by
  rw [Option.toList_none, List.append_nil]

theorem holds_append_some (sockets : List ReverseSocket) (socket : ReverseSocket) (i : Nat) :
    Holds (sockets ++ (some socket).toList) i ↔ Holds sockets i ∨ socket.session = i := by
  simp only [Holds, Option.toList_some, List.mem_append, List.mem_singleton]
  constructor
  · rintro ⟨other, hold | rfl, hi⟩
    · exact .inl ⟨other, hold, hi⟩
    · exact .inr hi
  · rintro (⟨other, hold, hi⟩ | hi)
    · exact ⟨other, .inl hold, hi⟩
    · exact ⟨socket, .inr rfl, hi⟩

/-- A session that has written nothing and holds nothing, and whose task claims neither. -/
theorem sessionSound_idle {sockets : List ReverseSocket} {i : Nat} {session : Session}
    (hreply : session.reply = []) (hholds : ¬ Holds sockets i)
    (hbinding : ∀ bindPort target gatewayPorts,
      session.task = some (.binding bindPort target gatewayPorts) →
        session.stream.request = .ok (.reverseForward bindPort target gatewayPorts))
    (hacking : session.task ≠ some (.acking (.ok ()))) : SessionSound sockets i session where
  silent _ := hreply
  binding := hbinding
  holds h := absurd h hholds
  acking h := absurd h hacking
  acked h := absurd h hholds
  refused _ := by
    rw [hreply]
    exact fun h => (by cases h)

/-- An ack that was begun tells by its first byte which ack it was. -/
theorem head_of_ack {result : Except String Unit} {written : Bytes}
    (hwritten : written <+: (sendReverseAck result).1) (hhead : written.head? = some reverseOk) :
    result = .ok () := by
  obtain ⟨rest, hrest⟩ := hwritten
  have hsent := sendReverseAck_head result
  rw [← hrest, List.head?_append, hhead] at hsent
  by_cases hok : result = .ok ()
  · exact hok
  · rw [if_neg hok] at hsent
    cases hsent

/-- What the task of a stream does to its own session. -/
theorem streamMove_sound {opt : ListenOpt} {state : State} {i : Nat} {session : Session}
    {task next : StreamTask} {written : Bytes} {socket : Option ReverseSocket}
    (hmove : StreamMove opt state i session task next written socket)
    (htask : session.task = some task) (hsound : SessionSound state.sockets i session) :
    SessionSound (state.sockets ++ socket.toList) i
      { session with task := some next, reply := session.reply ++ written } := by
  -- a task that has not come to its ack has neither written nor bound anything
  have hearly : task ≠ .ended → task ≠ .acking (.ok ()) →
      session.reply ++ [] = [] ∧ ¬ Holds (state.sockets ++ (none : Option _).toList) i := by
    intro hended hacking
    have hreply := hsound.silent fun h => hended (Option.some.inj (htask.symm.trans h))
    refine ⟨by rw [hreply]; rfl, fun h => ?_⟩
    rcases hsound.holds ((holds_append_none _ _).mp h) with h | h
    · exact hacking (Option.some.inj (htask.symm.trans h))
    · exact hended (Option.some.inj (htask.symm.trans h))
  cases hmove with
  | polled =>
      obtain ⟨hreply, hholds⟩ := hearly (by simp) (by simp)
      rcases StreamTask.afterPoll_cases opt.allowedPeers session.stream.peer with
        ⟨-, hnext⟩ | ⟨-, hnext⟩
      all_goals
        rw [hnext]
        exact sessionSound_idle hreply hholds (fun _ _ _ h => (by cases h)) (by simp)
  | @requested req hrequest =>
      obtain ⟨hreply, hholds⟩ := hearly (by simp) (by simp)
      refine sessionSound_idle hreply hholds ?_ (by cases req <;> simp [StreamTask.afterRequest])
      intro bindPort target gatewayPorts hbinding
      cases req with
      | netcat => cases hbinding
      | localForward target => cases hbinding
      | reverseForward bindPort target gatewayPorts =>
          cases hbinding
          exact hrequest
  | @bound bindPort port target gatewayPorts hcan =>
      have hreply : session.reply = [] := hsound.silent (by simp [htask])
      have hholds := (holds_append_some state.sockets
        { session := i
          addr := { reverseBindAddr bindPort gatewayPorts with port := port }
          remotePeer := session.stream.peer
          target := target } i).mpr (.inr rfl)
      refine ⟨fun _ => by rw [hreply]; rfl, fun _ _ _ h => (by cases h), fun _ => .inl rfl,
        fun _ => hholds, fun _ => by rw [hreply]; exact List.nil_prefix, fun h => absurd hholds h⟩
  | bindFailed =>
      obtain ⟨hreply, hholds⟩ := hearly (by simp) (by simp)
      exact sessionSound_idle hreply hholds (fun _ _ _ h => (by cases h)) (by simp)
  | @acked result written hwritten =>
      have hreply : session.reply = [] := hsound.silent (by simp [htask])
      rw [hreply, List.nil_append]
      refine ⟨fun h => absurd rfl h, fun _ _ _ h => (by cases h), fun _ => .inr rfl,
        fun h => (by cases h), fun h => ?_, fun hnot hhead => ?_⟩
      · -- whoever holds a port at its ack writes `REVERSE_OK`
        rcases hsound.holds ((holds_append_none _ _).mp h) with hacking | hended
        · obtain rfl := StreamTask.acking.inj (Option.some.inj (htask.symm.trans hacking))
          exact hwritten
        · rw [htask] at hended
          cases hended
      · obtain rfl := head_of_ack hwritten hhead
        exact hnot ((holds_append_none _ _).mpr (hsound.acking htask))
  | forwarded =>
      obtain ⟨hreply, hholds⟩ := hearly (by simp) (by simp)
      exact sessionSound_idle hreply hholds (fun _ _ _ h => (by cases h)) (by simp)
  | ended hawaiting =>
      obtain ⟨hreply, hholds⟩ := hearly (by rcases hawaiting with rfl | rfl <;> simp)
        (by rcases hawaiting with rfl | rfl <;> simp)
      exact sessionSound_idle hreply hholds (fun _ _ _ h => (by cases h)) (by simp)

/-! ## What every step keeps -/

/-- Sessions keep their streams, and bound sockets stay. -/
structure Kept (state next : State) : Prop where
  sessions : ∀ (i : Nat) (session : Session), state.sessions[i]? = some session →
    ∃ session' : Session, next.sessions[i]? = some session' ∧
      session'.stream.peer = session.stream.peer ∧
      session'.stream.request = session.stream.request
  sockets : state.sockets <+: next.sockets

theorem Kept.refl (state : State) : Kept state state :=
  ⟨fun _ session hget => ⟨session, hget, rfl, rfl⟩, List.prefix_rfl⟩

theorem Kept.trans {first second third : State} (h : Kept first second)
    (h' : Kept second third) : Kept first third := by
  refine ⟨fun i session hget => ?_, h.sockets.trans h'.sockets⟩
  obtain ⟨session', hget', hpeer, hrequest⟩ := h.sessions i session hget
  obtain ⟨session'', hget'', hpeer', hrequest'⟩ := h'.sessions i session' hget'
  exact ⟨session'', hget'', hpeer'.trans hpeer, hrequest'.trans hrequest⟩

theorem keeps_set {state : State} {i : Nat} {session updated : Session}
    (hget : state.sessions[i]? = some session)
    (hpeer : updated.stream.peer = session.stream.peer)
    (hrequest : updated.stream.request = session.stream.request) (j : Nat) (other : Session)
    (hother : state.sessions[j]? = some other) :
    ∃ session', (state.sessions.set i updated)[j]? = some session' ∧
      session'.stream.peer = other.stream.peer ∧
      session'.stream.request = other.stream.request := by
  rw [getElem?_set_of_get hget]
  by_cases h : j = i
  · subst h
    obtain rfl := Option.some.inj (hget.symm.trans hother)
    exact ⟨updated, if_pos rfl, hpeer, hrequest⟩
  · exact ⟨other, by rw [if_neg h]; exact hother, rfl, rfl⟩

theorem kept_of_move {nspace : String} {opt : ListenOpt} {state next : State} {label : Label}
    (hmove : Move nspace opt state label next) : Kept state next := by
  cases hmove with
  | environment running connected opened => exact ⟨(Kept.refl state).sessions, List.prefix_rfl⟩
  | delivered hget => exact ⟨keeps_set hget rfl rfl, List.prefix_rfl⟩
  | spawned hget htask => exact ⟨keeps_set hget rfl rfl, List.prefix_rfl⟩
  | stream hget htask hmove => exact ⟨keeps_set hget rfl rfl, List.prefix_append _ _⟩
  | accepted hget => exact ⟨(Kept.refl state).sessions, List.prefix_rfl⟩
  | inbound hget hmove hlabel heffects => exact ⟨(Kept.refl state).sessions, List.prefix_rfl⟩

theorem SocketSound.keep {state next : State} {socket : ReverseSocket}
    (hsound : SocketSound state.sessions socket) (hkept : Kept state next) :
    SocketSound next.sessions socket := by
  obtain ⟨session, bindPort, gatewayPorts, hget, hpeer, hrequest, haddr⟩ := hsound.bound
  obtain ⟨session', hget', hpeer', hrequest'⟩ := hkept.sessions _ session hget
  exact ⟨session', bindPort, gatewayPorts, hget', hpeer'.trans hpeer, hrequest'.trans hrequest,
    haddr⟩

/-- A session that does not bind a socket itself does not notice that one is bound. -/
theorem SessionSound.other {sockets : List ReverseSocket} {i j : Nat} {session : Session}
    {socket : Option ReverseSocket} (hsocket : ∀ bound, socket = some bound → bound.session = i)
    (hne : j ≠ i) (hsound : SessionSound sockets j session) :
    SessionSound (sockets ++ socket.toList) j session := by
  have hholds : Holds (sockets ++ socket.toList) j ↔ Holds sockets j := by
    cases socket with
    | none => exact holds_append_none sockets j
    | some bound =>
        rw [holds_append_some, hsocket bound rfl]
        exact or_iff_left (Ne.symm hne)
  exact ⟨hsound.silent, hsound.binding, fun h => hsound.holds (hholds.mp h),
    fun h => hholds.mpr (hsound.acking h), fun h => hsound.acked (hholds.mp h),
    fun h => hsound.refused fun h' => h (hholds.mpr h')⟩

/-- A move that changes one session and binds no socket keeps the invariant when the
session stays sound. -/
theorem socketInv_set {state next : State} {i : Nat} {session updated : Session}
    (hinv : SocketInv state) (hget : state.sessions[i]? = some session)
    (hkept : Kept state next) (hsessions : next.sessions = state.sessions.set i updated)
    (hsockets : next.sockets = state.sockets)
    (hsound : SessionSound state.sockets i updated) : SocketInv next := by
  refine ⟨fun j other hother => ?_, fun socket hmem => ?_, hsockets ▸ hinv.session_nodup,
    hsockets ▸ hinv.addr_nodup⟩
  · rw [hsessions] at hother
    rw [hsockets]
    rcases getElem?_set_cases hget hother with ⟨rfl, rfl⟩ | ⟨-, hold⟩
    · exact hsound
    · exact hinv.sessions j other hold
  · rw [hsockets] at hmem
    exact (hinv.sockets socket hmem).keep hkept

/-- The socket a session binds is its own, at an address nobody else holds. -/
theorem socketInv_bound {opt : ListenOpt} {state : State} {i : Nat} {session : Session}
    {task next : StreamTask} {written : Bytes} {socket : ReverseSocket}
    (hinv : SocketInv state) (hget : state.sessions[i]? = some session)
    (htask : session.task = some task)
    (hmove : StreamMove opt state i session task next written (some socket)) :
    socket.session = i ∧ ¬ Holds state.sockets i ∧ SocketSound state.sessions socket ∧
      ∀ other ∈ state.sockets, other.addr ≠ socket.addr := by
  cases hmove with
  | @bound bindPort port target gatewayPorts hcan =>
      have hsound := hinv.sessions i session hget
      obtain ⟨-, hport, hfree⟩ := hcan
      refine ⟨rfl, fun h => ?_, ?_, hfree⟩
      · rcases hsound.holds h with hacking | hended
        · rw [htask] at hacking
          cases hacking
        · rw [htask] at hended
          cases hended
      · refine ⟨session, bindPort, gatewayPorts, hget, rfl, hsound.binding _ _ _ htask, rfl, ?_⟩
        exact hport.imp id Eq.symm

theorem socketInv_of_move {nspace : String} {opt : ListenOpt} {state next : State} {label : Label}
    (hinv : SocketInv state) (hmove : Move nspace opt state label next) : SocketInv next := by
  have hkept := kept_of_move hmove
  cases hmove with
  | environment running connected opened =>
      exact ⟨hinv.sessions, hinv.sockets, hinv.session_nodup, hinv.addr_nodup⟩
  | @delivered i count session hget =>
      have hsound := hinv.sessions i session hget
      exact socketInv_set hinv hget hkept rfl rfl
        ⟨hsound.silent, hsound.binding, hsound.holds, hsound.acking, hsound.acked, hsound.refused⟩
  | @spawned session hget htask =>
      have hsound := hinv.sessions state.accepted session hget
      refine socketInv_set hinv hget hkept rfl rfl
        (sessionSound_idle (hsound.silent (by simp [htask])) (fun h => ?_)
          (fun _ _ _ h => (by cases h)) (by simp))
      rcases hsound.holds h with h | h
      · rw [htask] at h
        cases h
      · rw [htask] at h
        cases h
  | @stream i session task task' written socket hget htask hmove =>
      have hsession : ∀ bound, socket = some bound → bound.session = i := by
        rintro bound rfl
        exact (socketInv_bound hinv hget htask hmove).1
      refine ⟨fun j other hother => ?_, fun bound hmem => ?_, ?_, ?_⟩
      · rcases getElem?_set_cases hget hother with ⟨rfl, rfl⟩ | ⟨hne, hold⟩
        · exact streamMove_sound hmove htask (hinv.sessions j session hget)
        · exact (hinv.sessions j other hold).other hsession hne
      · rcases List.mem_append.mp hmem with hold | hnew
        · exact (hinv.sockets bound hold).keep hkept
        · obtain rfl := Option.mem_toList.mp hnew
          exact (socketInv_bound hinv hget htask hmove).2.2.1.keep hkept
      · cases socket with
        | none => simpa using hinv.session_nodup
        | some bound =>
            obtain ⟨hi, hholds, -, -⟩ := socketInv_bound hinv hget htask hmove
            exact nodup_map_concat hinv.session_nodup fun other hmem heq =>
              hholds ⟨other, hmem, heq.trans hi⟩
      · cases socket with
        | none => simpa using hinv.addr_nodup
        | some bound =>
            obtain ⟨-, -, -, hfree⟩ := socketInv_bound hinv hget htask hmove
            exact nodup_map_concat hinv.addr_nodup hfree
  | accepted hget =>
      exact ⟨hinv.sessions, hinv.sockets, hinv.session_nodup, hinv.addr_nodup⟩
  | inbound hget hmove hlabel heffects =>
      exact ⟨hinv.sessions, hinv.sockets, hinv.session_nodup, hinv.addr_nodup⟩

theorem socketInv_of_reaches {nspace : String} {opt : ListenOpt} {traffic : List IncomingStream}
    {labels : List Label} {state : State}
    (hrun : (machine nspace opt traffic).Reaches labels state) : SocketInv state :=
  (machine nspace opt traffic).invariant SocketInv (socketInv_start traffic)
    (fun hinv hstep => socketInv_of_move hinv (move_of_step hstep).2) hrun

theorem kept_of_exec {nspace : String} {opt : ListenOpt} {traffic : List IncomingStream}
    {labels : List Label} {state final : State}
    (hrun : (machine nspace opt traffic).exec state labels = some final) : Kept state final :=
  Machine.exec_preserves Kept.refl Kept.trans
    (fun hstep => kept_of_move (move_of_step hstep).2) labels hrun

end Sape.Listener
