/-
  Listener/Ports.lean --- how long a listener holds a reverse port.

  A bound port is owned by an accept loop that nothing ever ends: neither the session
  that bound it, nor the peer's connection, nor the outcome of the ack is looked at
  again.  While the listener runs, the port stays taken, and the system gives its
  address to nobody else.

  WHAT IS PROVED.

      address_of_socket   a session with a fixed address that holds a socket holds it
                          at this address
      refused_while_held  while a port is held, no other session is acked for it
      ports_held          whose a held port is, and for how long
      redial_never_acked  a dialer that comes back is not acked again
-/
import Sape.Listener.Allowlist
import Sape.Listener.Routing

set_option autoImplicit false

namespace Sape.Listener

open Sape.Foundation

/-- A session asks for a fixed reverse address. -/
def Session.AsksFor (session : Session) (addr : SocketAddr) : Prop :=
  ∃ bindPort target gatewayPorts,
    session.stream.request = .ok (.reverseForward bindPort target gatewayPorts) ∧
      bindPort ≠ 0 ∧ reverseBindAddr bindPort gatewayPorts = addr

/-- A session with a fixed address that holds a socket holds it at this address. -/
theorem address_of_socket {state : State} {socket : ReverseSocket} {session : Session}
    {addr : SocketAddr} (hsound : SocketSound state.sessions socket)
    (hget : state.sessions[socket.session]? = some session) (hasks : session.AsksFor addr) :
    socket.addr = addr := by
  obtain ⟨bindPort, target, gatewayPorts, hrequest, hfixed, rfl⟩ := hasks
  obtain ⟨session', bindPort', gatewayPorts', hget', -, hrequest', hip, hport⟩ := hsound.bound
  obtain rfl := Option.some.inj (hget.symm.trans hget')
  obtain ⟨rfl, -, rfl⟩ := TunnelRequest.reverseForward.inj
    (Except.ok.inj (hrequest.symm.trans hrequest'))
  exact SocketAddr.ext hip (hport.resolve_left hfixed)

/-- While a socket is held, no session but its own is told `REVERSE_OK` for its address. -/
theorem refused_while_held {state : State} (hinv : SocketInv state) {socket : ReverseSocket}
    (hmem : socket ∈ state.sockets) {i : Nat} {session : Session}
    (hget : state.sessions[i]? = some session) (hasks : session.AsksFor socket.addr)
    (hne : i ≠ socket.session) : session.reply.head? ≠ some reverseOk := by
  refine (hinv.sessions i session hget).refused ?_
  rintro ⟨other, hother, rfl⟩
  have haddr := address_of_socket (hinv.sockets other hother) hget hasks
  -- two sockets at one address are one socket
  obtain ⟨k, hk⟩ := List.mem_iff_getElem?.mp hmem
  obtain ⟨k', hk'⟩ := List.mem_iff_getElem?.mp hother
  obtain rfl := socket_unique hinv hk' hk (.inr haddr)
  rw [hk] at hk'
  exact hne (congrArg ReverseSocket.session (Option.some.inj hk'.symm))

/-- Whose a held port is, and what its session has been told: it was bound for a request
of an admitted peer, at the address of this request, and `REVERSE_OK` is the only ack that
the peer has got or will get for it. -/
structure HeldFor (opt : ListenOpt) (state : State) (socket : ReverseSocket) : Prop where
  bound : BoundFor state socket
  admitted : StreamTask.Admits opt.allowedPeers socket.remotePeer
  told : ∃ session, state.sessions[socket.session]? = some session ∧
    (session.task = some (.acking (.ok ())) ∧ session.reply = [] ∨
      session.task = some .ended ∧ session.reply <+: [reverseOk])

theorem heldFor_of_inv {opt : ListenOpt} {state : State} (hinv : SocketInv state)
    (hallowed : Allowed opt.allowedPeers state) {socket : ReverseSocket}
    (hmem : socket ∈ state.sockets) : HeldFor opt state socket := by
  have hbound := hinv.sockets socket hmem
  refine ⟨boundFor_of_sound hbound, hallowed.sockets socket hmem, ?_⟩
  obtain ⟨session, -, -, hget, -⟩ := hbound.bound
  have hsound := hinv.sessions socket.session session hget
  have hholds : Holds state.sockets socket.session := ⟨socket, hmem, rfl⟩
  refine ⟨session, hget, ?_⟩
  rcases hsound.holds hholds with hacking | hended
  · exact .inl ⟨hacking, hsound.silent (by rw [hacking]; simp)⟩
  · exact .inr ⟨hended, hsound.acked hholds⟩

/-- In every reachable state each held port is held for the request that bound it; and in
every later state it is still held, and no other session that asks for its address has
been told `REVERSE_OK`. -/
theorem ports_held {nspace : String} {opt : ListenOpt} {traffic : List IncomingStream}
    {labels : List Label} {state : State}
    (hrun : (machine nspace opt traffic).Reaches labels state) :
    ∀ socket ∈ state.sockets, HeldFor opt state socket ∧
      ∀ more later, (machine nspace opt traffic).exec state more = some later →
        socket ∈ later.sockets ∧
        ∀ (i : Nat) (session : Session), later.sessions[i]? = some session →
          i ≠ socket.session → session.AsksFor socket.addr →
          session.reply.head? ≠ some reverseOk := by
  intro socket hmem
  refine ⟨heldFor_of_inv (socketInv_of_reaches hrun) (allowed_of_reaches hrun) hmem, ?_⟩
  intro more later hmore
  have hlater : (machine nspace opt traffic).Reaches (labels ++ more) later :=
    (Machine.exec_append _ _).mpr ⟨state, hrun, hmore⟩
  have hheld : socket ∈ later.sockets := (kept_of_exec hmore).sockets.subset hmem
  refine ⟨hheld, fun i session hget hne hasks => ?_⟩
  exact refused_while_held (socketInv_of_reaches hlater) hheld hget hasks hne

/-- Peer 1 asks for port 9090, is told `REVERSE_OK`, and disconnects. -/
def hangUpLabels : List Label :=
  [.connect ⟨[1]⟩, .openStream, .deliver 0 12, .next, .stream 0 .poll, .stream 0 (.read .proceed),
    .stream 0 (.bind (.ok 9090)), .stream 0 (.ack .proceed), .disconnect ⟨[1]⟩]

/-- The port that peer 1 has asked for. -/
def hangUpSocket : ReverseSocket where
  session := 0
  addr := { ip := ipv4Localhost, port := 9090 }
  remotePeer := ⟨[1]⟩
  target := "a:1"

theorem ports_held_hangUp :
    ∃ state, (machine "sape" {} [reverseStream ⟨[1]⟩]).Reaches hangUpLabels state ∧
      HeldFor {} state hangUpSocket := by
  obtain ⟨state, hrun, htest⟩ := Machine.exists_reaches_of_any (by decide :
    ((machine "sape" {} [reverseStream ⟨[1]⟩]).exec
      (machine "sape" {} [reverseStream ⟨[1]⟩]).start hangUpLabels).any
      (fun state => decide (state.sockets = [hangUpSocket])) = true)
  have hmem : hangUpSocket ∈ state.sockets := by
    rw [of_decide_eq_true htest]
    exact List.mem_singleton_self _
  exact ⟨state, hrun, (ports_held hrun hangUpSocket hmem).1⟩

/-- Peer 1 is gone, its port is not; and when peer 1 dials again with the same request, no
way the run goes on gets it a `REVERSE_OK`. -/
theorem redial_never_acked :
    ∃ state, (machine "sape" {} [reverseStream ⟨[1]⟩, reverseStream ⟨[1]⟩]).Reaches
        hangUpLabels state ∧
      state.connected = [] ∧ state.sockets = [hangUpSocket] ∧
      ∀ more later (session : Session),
        (machine "sape" {} [reverseStream ⟨[1]⟩, reverseStream ⟨[1]⟩]).exec state more =
          some later →
        later.sessions[1]? = some session → session.reply.head? ≠ some reverseOk := by
  obtain ⟨state, hrun, htest⟩ := Machine.exists_reaches_of_any (by decide :
    ((machine "sape" {} [reverseStream ⟨[1]⟩, reverseStream ⟨[1]⟩]).exec
      (machine "sape" {} [reverseStream ⟨[1]⟩, reverseStream ⟨[1]⟩]).start hangUpLabels).any
      (fun state => decide (state.connected = [] ∧ state.sockets = [hangUpSocket] ∧
        (state.sessions[1]?.map fun session => session.stream) =
          some (reverseStream ⟨[1]⟩))) = true)
  obtain ⟨hconnected, hsockets, hstream⟩ := of_decide_eq_true htest
  refine ⟨state, hrun, hconnected, hsockets, fun more later session hmore hget => ?_⟩
  have hlater : (machine "sape" {} [reverseStream ⟨[1]⟩, reverseStream ⟨[1]⟩]).Reaches
      (hangUpLabels ++ more) later := (Machine.exec_append _ _).mpr ⟨state, hrun, hmore⟩
  have hkept := kept_of_exec hmore
  have hheld : hangUpSocket ∈ later.sockets := by
    refine hkept.sockets.subset ?_
    rw [hsockets]
    exact List.mem_singleton_self _
  obtain ⟨before, hbefore, hsame⟩ := Option.map_eq_some_iff.mp hstream
  obtain ⟨session', hget', -, hrequest⟩ := hkept.sessions 1 before hbefore
  obtain rfl := Option.some.inj (hget.symm.trans hget')
  refine refused_while_held (socketInv_of_reaches hlater) hheld hget ?_ (by decide)
  refine ⟨9090, "a:1", false, ?_, by decide, rfl⟩
  rw [hrequest, hsame]
  decide

end Sape.Listener
