/-
  Listener/Routing.lean --- where connections to a reverse port go.

  A connection's task carries the peer and the target of the socket that accepted it,
  and the socket those of the request that bound it.  The request in front of the
  connection is another one, with port 0 and no flag; it is never longer than the
  request that bound the port, so whoever could send that one can be sent this one.

  WHAT IS PROVED.

      inboundMove_sound   what the task of a connection does to its streams
      inboundInv_of_move  every step keeps the invariant
      reverse_routed      sockets belong to their own requests, and connections go to
                          the peers and targets of these
-/
import Sape.Listener.Sockets

set_option autoImplicit false

namespace Sape.Listener

open Sape.Foundation

/-! ## Connections -/

/-- A stream that a connection has opened: to its peer, and with nothing on it that
disagrees with its request. -/
structure Outgoing.Carries (nspace : String) (inbound : Inbound) (outgoing : Outgoing) :
    Prop where
  peer : outgoing.peer = inbound.remotePeer
  protocol : outgoing.protocol = tunnelProtocol nspace
  agrees : ∀ frame, writeTunnelRequest (InboundTask.request inbound.target) = .ok frame →
    outgoing.pipe.sent <+: frame ∨ frame <+: outgoing.pipe.sent

/-- What the task of a connection has come to. -/
inductive Inbound.Sound (nspace : String) (inbound : Inbound) : Prop where
  | none (htask : inbound.task = .opening ∨ inbound.task = .ended) (hopened : inbound.opened = [])
  | one {outgoing : Outgoing} (hopened : inbound.opened = [outgoing])
      (hcarries : outgoing.Carries nspace inbound) (htask : inbound.task ≠ .opening)
      (hwriting : inbound.task = .writing → outgoing.pipe.sent = [])
      (hcopying : inbound.task = .copying →
        ∃ frame, writeTunnelRequest (InboundTask.request inbound.target) = .ok frame ∧
          frame <+: outgoing.pipe.sent)

/-- A connection that writes or copies has opened exactly one stream. -/
theorem Inbound.Sound.opened {nspace : String} {inbound : Inbound} {outgoing : Outgoing}
    {others : List Outgoing} (hsound : inbound.Sound nspace)
    (hopened : inbound.opened = outgoing :: others) :
    others = [] ∧ outgoing.Carries nspace inbound ∧
      (inbound.task = .writing → outgoing.pipe.sent = []) ∧
      (inbound.task = .copying →
        ∃ frame, writeTunnelRequest (InboundTask.request inbound.target) = .ok frame ∧
          frame <+: outgoing.pipe.sent) := by
  cases hsound with
  | none htask hnil =>
      rw [hnil] at hopened
      cases hopened
  | one hone hcarries htask hwriting hcopying =>
      rw [hone] at hopened
      cases hopened
      exact ⟨rfl, hcarries, hwriting, hcopying⟩

/-- What the task of a connection does to its streams. -/
theorem inboundMove_sound {nspace : String} {inbound : Inbound} {outcome : Outcome}
    {next : InboundTask}
    {opened : List Outgoing} (hmove : InboundMove nspace inbound outcome next opened)
    (hsound : inbound.Sound nspace) :
    Inbound.Sound nspace { inbound with task := next, opened := opened } := by
  cases hmove with
  | opened htask =>
      cases hsound with
      | none _ hopened =>
          rw [hopened]
          exact .one rfl ⟨rfl, rfl, fun frame _ => .inl List.nil_prefix⟩ (by simp) (fun _ => rfl)
            (fun h => (by cases h))
      | one _ _ hne => exact absurd htask hne
  | refused htask houtcome =>
      cases hsound with
      | none _ hopened => exact .none (.inr rfl) hopened
      | one _ _ hne => exact absurd htask hne
  | @written outgoing others bytes htask hopened hwrite =>
      obtain ⟨rfl, hcarries, hwriting, -⟩ := hsound.opened hopened
      have hsent : (outgoing.pipe.put bytes).sent = bytes := by
        rw [Pipe.put_sent, hwriting htask, List.nil_append]
      refine .one rfl ⟨hcarries.peer, hcarries.protocol, fun frame hframe => ?_⟩ (by simp)
        (fun h => (by cases h)) (fun _ => ?_)
      · obtain rfl := Except.ok.inj (hwrite.symm.trans hframe)
        exact .inl ⟨[], by rw [List.append_nil, hsent]⟩
      · exact ⟨bytes, hwrite, [], by rw [List.append_nil, hsent]⟩
  | writeFailed htask hopened hcut =>
      obtain ⟨rfl, hcarries, hwriting, -⟩ := hsound.opened hopened
      refine .one rfl ⟨hcarries.peer, hcarries.protocol, fun frame hframe => .inl ?_⟩ (by simp)
        (fun h => (by cases h)) (fun h => (by cases h))
      rw [Pipe.put_sent, hwriting htask, List.nil_append]
      exact hcut frame hframe
  | @copied outgoing others bytes htask hopened =>
      obtain ⟨rfl, hcarries, -, hcopying⟩ := hsound.opened hopened
      obtain ⟨frame, hwrite, hframe⟩ := hcopying htask
      have hlonger : frame <+: outgoing.pipe.sent ++ bytes :=
        hframe.trans (List.prefix_append _ _)
      refine .one rfl ⟨hcarries.peer, hcarries.protocol, fun frame' hframe' => ?_⟩ (by simp)
        (fun h => (by cases h)) (fun _ => ⟨frame, hwrite, hlonger⟩)
      obtain rfl := Except.ok.inj (hwrite.symm.trans hframe')
      exact .inr hlonger
  | ended htask =>
      cases hsound with
      | none _ hopened => exact .none (.inr rfl) hopened
      | one hopened hcarries _ _ _ =>
          exact .one hopened ⟨hcarries.peer, hcarries.protocol, hcarries.agrees⟩ (by simp)
            (fun h => (by cases h)) (fun h => (by cases h))

/-- Every connection belongs to the socket that accepted it. -/
def InboundInv (nspace : String) (state : State) : Prop :=
  ∀ inbound ∈ state.inbounds, inbound.Sound nspace ∧
    ∃ socket, state.sockets[inbound.socket]? = some socket ∧
      inbound.remotePeer = socket.remotePeer ∧ inbound.target = socket.target

theorem inboundInv_of_move {nspace : String} {opt : ListenOpt} {state next : State} {label : Label}
    (hinv : InboundInv nspace state) (hmove : Move nspace opt state label next) :
    InboundInv nspace next := by
  cases hmove with
  | environment running connected opened => exact hinv
  | delivered hget => exact hinv
  | spawned hget htask => exact hinv
  | stream hget htask hmove =>
      intro inbound hmem
      obtain ⟨hsound, socket, hsocket, hsame⟩ := hinv inbound hmem
      refine ⟨hsound, socket, ?_, hsame⟩
      obtain ⟨hlt, -⟩ := List.getElem?_eq_some_iff.mp hsocket
      rw [List.getElem?_append_left hlt]
      exact hsocket
  | @accepted k socket hget =>
      intro inbound hmem
      rcases List.mem_append.mp hmem with hold | hnew
      · exact hinv inbound hold
      · obtain rfl := List.mem_singleton.mp hnew
        exact ⟨.none (.inl rfl) rfl, socket, hget, rfl, rfl⟩
  | @inbound j inbound outcome next opened effects hget hmove hlabel heffects =>
      intro other hmem
      rcases List.mem_or_eq_of_mem_set hmem with hold | rfl
      · exact hinv other hold
      · obtain ⟨hsound, hsocket⟩ := hinv inbound (List.mem_of_getElem? hget)
        exact ⟨inboundMove_sound hmove hsound, hsocket⟩

theorem inboundInv_of_reaches {nspace : String} {opt : ListenOpt}
    {traffic : List IncomingStream} {labels : List Label} {state : State}
    (hrun : (machine nspace opt traffic).Reaches labels state) : InboundInv nspace state :=
  (machine nspace opt traffic).invariant (InboundInv nspace)
    (fun inbound hmem => (by cases hmem))
    (fun hinv hstep => inboundInv_of_move hinv (move_of_step hstep).2) hrun

/-! ## Streams that open -/

/-- No label refuses the stream of a connection. -/
def OpensSucceed (labels : List Label) : Prop :=
  ∀ label ∈ labels, ∀ j err, label ≠ .inbound j (.refused err)

/-- Where opens succeed, every connection behind its open has one stream. -/
theorem opened_of_move {nspace : String} {opt : ListenOpt} {state next : State} {label : Label}
    (hopened : ∀ inbound ∈ state.inbounds, inbound.task ≠ .opening → inbound.opened ≠ [])
    (hlabel : ∀ j err, label ≠ .inbound j (.refused err))
    (hmove : Move nspace opt state label next) :
    ∀ inbound ∈ next.inbounds, inbound.task ≠ .opening → inbound.opened ≠ [] := by
  cases hmove with
  | environment running connected opened => exact hopened
  | delivered hget => exact hopened
  | spawned hget htask => exact hopened
  | stream hget htask hmove => exact hopened
  | accepted hget =>
      intro inbound hmem htask
      rcases List.mem_append.mp hmem with hold | hnew
      · exact hopened inbound hold htask
      · obtain rfl := List.mem_singleton.mp hnew
        exact absurd rfl htask
  | @inbound j inbound outcome next opened effects hget hmove hrefused heffects =>
      intro other hmem htask
      rcases List.mem_or_eq_of_mem_set hmem with hold | rfl
      · exact hopened other hold htask
      · have hbefore := hopened inbound (List.mem_of_getElem? hget)
        cases hmove with
        | opened htask => exact List.cons_ne_nil _ _
        | refused htask houtcome => exact absurd (hrefused _ houtcome) (hlabel _ _)
        | written htask hopened hwrite => exact List.cons_ne_nil _ _
        | writeFailed htask hopened hcut => exact List.cons_ne_nil _ _
        | copied htask hopened => exact List.cons_ne_nil _ _
        | ended hcopying => exact hbefore (by rw [hcopying]; simp)

theorem opened_of_reaches {nspace : String} {opt : ListenOpt} {traffic : List IncomingStream}
    {labels : List Label} {state : State}
    (hrun : (machine nspace opt traffic).Reaches labels state) (hsucceed : OpensSucceed labels) :
    ∀ inbound ∈ state.inbounds, inbound.task ≠ .opening → inbound.opened ≠ [] :=
  (machine nspace opt traffic).invariant_of_meets
    (fun _ label => ∀ j err, label ≠ .inbound j (.refused err))
    (fun state => ∀ inbound ∈ state.inbounds, inbound.task ≠ .opening → inbound.opened ≠ [])
    (fun inbound hmem => (by cases hmem))
    (fun hopened hlabel hstep => opened_of_move hopened hlabel (move_of_step hstep).2)
    (Machine.meets_of_forall _ labels _ fun label hmem _ => hsucceed label hmem) hrun

/-! ## Routing -/

/-- A socket was bound for the request of its session: for its peer and its target, on all
interfaces exactly when the request says so, else on the loopback one. -/
def BoundFor (state : State) (socket : ReverseSocket) : Prop :=
  ∃ session bindPort gatewayPorts, state.sessions[socket.session]? = some session ∧
    session.stream.peer = socket.remotePeer ∧
    session.stream.request = .ok (.reverseForward bindPort socket.target gatewayPorts) ∧
    (socket.addr.ip = ipv4Unspecified ↔ gatewayPorts = true) ∧
    (socket.addr.ip = ipv4Localhost ↔ gatewayPorts = false) ∧
    (bindPort = 0 ∨ socket.addr.port = bindPort)

/-- A stream as the peer it was opened to gets it. -/
def Outgoing.asIncoming (self : PeerId) (outgoing : Outgoing) : IncomingStream where
  peer := self
  content := outgoing.pipe.sent

/-- What a connection of a socket has caused: no stream, or one to the socket's peer; from
that, no request but the one for the socket's target is read, and this one is read once
the task is past its write. -/
structure Forwarded (nspace : String) (self : PeerId) (socket : ReverseSocket)
    (inbound : Inbound) : Prop where
  streams : inbound.opened = [] ∨ ∃ outgoing, inbound.opened = [outgoing] ∧
    outgoing.peer = socket.remotePeer ∧ outgoing.protocol = tunnelProtocol nspace
  only : ∀ outgoing ∈ inbound.opened, ∀ req, (outgoing.asIncoming self).request = .ok req →
    req = .reverseForward 0 socket.target false
  dispatched : inbound.task = .copying → ∃ outgoing, inbound.opened = [outgoing] ∧
    (outgoing.asIncoming self).request = .ok (.reverseForward 0 socket.target false) ∧
    dispatchIncoming (outgoing.asIncoming self).request = some (.start socket.target)

theorem boundFor_of_sound {state : State} {socket : ReverseSocket}
    (hsound : SocketSound state.sessions socket) : BoundFor state socket := by
  obtain ⟨session, bindPort, gatewayPorts, hget, hpeer, hrequest, hip, hport⟩ := hsound.bound
  refine ⟨session, bindPort, gatewayPorts, hget, hpeer, hrequest, ?_, ?_, hport⟩
  · rw [hip]
    exact reverseBindAddr_unspecified bindPort gatewayPorts
  · rw [hip]
    exact reverseBindAddr_localhost bindPort gatewayPorts

theorem forwarded_of_sound {nspace : String} {self : PeerId} {state : State}
    {socket : ReverseSocket} {inbound : Inbound} (hbound : SocketSound state.sessions socket)
    (hsound : inbound.Sound nspace) (hpeer : inbound.remotePeer = socket.remotePeer)
    (htarget : inbound.target = socket.target) : Forwarded nspace self socket inbound := by
  -- the frame exists and is readable because the request that bound the port was read
  obtain ⟨session, bindPort, gatewayPorts, -, -, hrequest, -⟩ := hbound.bound
  have hread : readTunnelRequest session.stream.content =
      (.ok (.reverseForward bindPort socket.target gatewayPorts),
        (readTunnelRequest session.stream.content).2) := Prod.ext hrequest rfl
  obtain ⟨frame, hwrite, hreadable⟩ := request_readable hread
  have hfits : TunnelRequest.postcard.Fits (InboundTask.request socket.target) := by
    have hwhole := hreadable []
    exact (Frame.read_ok hwhole).1
  cases hsound with
  | none htask hopened =>
      refine ⟨.inl hopened, ?_, fun hcopying => ?_⟩
      · rw [hopened]
        exact fun outgoing hmem => (by cases hmem)
      · rcases htask with h | h
        · rw [h] at hcopying
          cases hcopying
        · rw [h] at hcopying
          cases hcopying
  | @one outgoing hopened hcarries htask hwriting hcopying =>
      refine ⟨.inr ⟨outgoing, hopened, hcarries.peer.trans hpeer, hcarries.protocol⟩, ?_, ?_⟩
      · rw [hopened]
        intro outgoing' hmem req hreq
        obtain rfl := List.mem_singleton.mp hmem
        have hread' : readTunnelRequest outgoing'.pipe.sent =
            (.ok req, (readTunnelRequest outgoing'.pipe.sent).2) := Prod.ext hreq rfl
        exact (Frame.read_comparable hfits hwrite
          (hcarries.agrees frame (htarget.symm ▸ hwrite)) hread').1
      · intro htask'
        obtain ⟨frame', hwrite', following, hsent⟩ := hcopying htask'
        rw [htarget] at hwrite'
        obtain rfl := Except.ok.inj (hwrite.symm.trans hwrite')
        have hreq : (outgoing.asIncoming self).request =
            .ok (.reverseForward 0 socket.target false) := by
          rw [IncomingStream.request, Outgoing.asIncoming, ← hsent, hreadable following]
          rfl
        exact ⟨outgoing, hopened, hreq, by rw [hreq]; rfl⟩

/-! ## A connection gets through -/

/-- Where its stream opens, a connection goes on to its request. -/
theorem step_open {nspace : String} (opt : ListenOpt) {state : State} {j : Nat}
    {inbound : Inbound} (hrunning : state.running = true)
    (hget : state.inbounds[j]? = some inbound) (htask : inbound.task = .opening) :
    ∃ next, state.step nspace opt (.inbound j .proceed) = some next ∧ next.running = true ∧
      next.inbounds[j]? = some { inbound with
        task := .writing
        opened := { peer := inbound.remotePeer, protocol := tunnelProtocol nspace } ::
          inbound.opened } := by
  refine ⟨{ state with
    inbounds := state.inbounds.set j { inbound with
      task := .writing
      opened := { peer := inbound.remotePeer, protocol := tunnelProtocol nspace } ::
        inbound.opened }
    effects := state.effects ++ effectsOf inbound.remotePeer
      ((InboundTask.writing.op nspace inbound.remotePeer inbound.target).map .inbound) },
    ?_, hrunning, ?_⟩
  · simp only [State.step, hrunning, if_true, State.runningStep, State.inboundStep, hget, htask,
      InboundTask.op, State.performInbound, InboundTask.resume]
  · rw [getElem?_set_of_get hget, if_pos rfl]

/-- Where its request has a frame, a connection goes on to its copy loop. -/
theorem step_write {nspace : String} (opt : ListenOpt) {state : State} {j : Nat}
    {inbound : Inbound} {outgoing : Outgoing} {others : List Outgoing} {frame : Bytes}
    (hrunning : state.running = true) (hget : state.inbounds[j]? = some inbound)
    (htask : inbound.task = .writing) (hopened : inbound.opened = outgoing :: others)
    (hwrite : writeTunnelRequest (InboundTask.request inbound.target) = .ok frame) :
    ∃ next, state.step nspace opt (.inbound j .proceed) = some next ∧
      next.inbounds[j]? = some { inbound with
        task := .copying
        opened := { outgoing with pipe := outgoing.pipe.put frame } :: others } := by
  refine ⟨{ state with
    inbounds := state.inbounds.set j { inbound with
      task := .copying
      opened := { outgoing with pipe := outgoing.pipe.put frame } :: others }
    effects := state.effects ++ effectsOf inbound.remotePeer
      ((InboundTask.copying.op nspace inbound.remotePeer inbound.target).map .inbound) }, ?_, ?_⟩
  · simp only [State.step, hrunning, if_true, State.runningStep, State.inboundStep, hget, htask,
      InboundTask.op, State.performInbound, hopened, writeStep, hwrite, Option.map_some,
      InboundTask.resume]
  · rw [getElem?_set_of_get hget, if_pos rfl]

/-- A connection that is still in front of its request gets to its copy loop by steps of
its own task, when the stream opens and takes the request. -/
theorem exists_copying {nspace : String} {opt : ListenOpt} {traffic : List IncomingStream}
    {state : State} {j : Nat} {inbound : Inbound} {frame : Bytes}
    (hrunning : state.running = true) (hget : state.inbounds[j]? = some inbound)
    (hsound : inbound.Sound nspace)
    (htask : inbound.task = .opening ∨ inbound.task = .writing)
    (hwrite : writeTunnelRequest (InboundTask.request inbound.target) = .ok frame) :
    ∃ labels next inbound', (∀ label ∈ labels, label = .inbound j .proceed) ∧
      (machine nspace opt traffic).exec state labels = some next ∧
      next.inbounds[j]? = some inbound' ∧ inbound'.task = .copying ∧
      inbound'.remotePeer = inbound.remotePeer ∧ inbound'.target = inbound.target := by
  rcases htask with hopening | hwriting
  · obtain ⟨mid, hopen, hmid, hgetMid⟩ := step_open opt hrunning hget hopening
    obtain ⟨next, hstep, hnext⟩ := step_write opt hmid hgetMid rfl rfl hwrite
    refine ⟨[.inbound j .proceed, .inbound j .proceed], next, _, ?_, ?_, hnext, rfl, rfl, rfl⟩
    · simp
    · rw [Machine.exec_cons_of_step hopen, Machine.exec_cons_of_step hstep, Machine.exec_nil]
  · cases hsound with
    | none htask _ =>
        rcases htask with h | h
        · rw [h] at hwriting
          cases hwriting
        · rw [h] at hwriting
          cases hwriting
    | one hopened _ _ _ _ =>
        obtain ⟨next, hstep, hnext⟩ := step_write opt hrunning hget hwriting hopened hwrite
        refine ⟨[.inbound j .proceed], next, _, ?_, ?_, hnext, rfl, rfl, rfl⟩
        · simp
        · rw [Machine.exec_cons_of_step hstep, Machine.exec_nil]

theorem socket_unique {state : State} (hinv : SocketInv state) {k k' : Nat}
    {socket socket' : ReverseSocket} (hget : state.sockets[k]? = some socket)
    (hget' : state.sockets[k']? = some socket')
    (hsame : socket.session = socket'.session ∨ socket.addr = socket'.addr) : k = k' := by
  rcases hsame with hsession | haddr
  · exact index_eq_of_nodup hinv.session_nodup hget hget' hsession
  · exact index_eq_of_nodup hinv.addr_nodup hget hget' haddr

/-- In every reachable state, sockets belong to requests of their own and are bound as
these say; and a connection accepted on a socket opens one stream, if that is not refused,
to the peer of the socket's request, from which this peer's handler dispatches to exactly
the target of the request; and the connection's own steps get it there. -/
theorem reverse_routed {nspace : String} {opt : ListenOpt} {traffic : List IncomingStream}
    {labels : List Label} {state : State} (self : PeerId)
    (hrun : (machine nspace opt traffic).Reaches labels state) :
    (∀ socket ∈ state.sockets, BoundFor state socket) ∧
    (∀ (k k' : Nat) (socket socket' : ReverseSocket), state.sockets[k]? = some socket →
      state.sockets[k']? = some socket' →
      socket.session = socket'.session ∨ socket.addr = socket'.addr → k = k') ∧
    ∀ (j : Nat) (inbound : Inbound), state.inbounds[j]? = some inbound →
      ∃ socket, state.sockets[inbound.socket]? = some socket ∧
        Forwarded nspace self socket inbound ∧
        (OpensSucceed labels → inbound.task ≠ .opening → inbound.opened ≠ []) ∧
        (state.running = true → inbound.task = .opening ∨ inbound.task = .writing →
          ∃ more next inbound', (∀ label ∈ more, label = .inbound j .proceed) ∧
            (machine nspace opt traffic).exec state more = some next ∧
            next.inbounds[j]? = some inbound' ∧ inbound'.task = .copying ∧
            Forwarded nspace self socket inbound') := by
  have hsockets := socketInv_of_reaches hrun
  refine ⟨fun socket hmem => boundFor_of_sound (hsockets.sockets socket hmem),
    fun k k' socket socket' hget hget' hsame => socket_unique hsockets hget hget' hsame, ?_⟩
  intro j inbound hget
  obtain ⟨hsound, socket, hsocket, hpeer, htarget⟩ :=
    inboundInv_of_reaches hrun inbound (List.mem_of_getElem? hget)
  have hbound := hsockets.sockets socket (List.mem_of_getElem? hsocket)
  refine ⟨socket, hsocket, forwarded_of_sound hbound hsound hpeer htarget,
    fun hsucceed => opened_of_reaches hrun hsucceed inbound (List.mem_of_getElem? hget), ?_⟩
  intro hrunning htask
  obtain ⟨session, bindPort, gatewayPorts, -, -, hrequest, -⟩ := hbound.bound
  have hread : readTunnelRequest session.stream.content =
      (.ok (.reverseForward bindPort socket.target gatewayPorts),
        (readTunnelRequest session.stream.content).2) := Prod.ext hrequest rfl
  obtain ⟨frame, hwrite, -⟩ := request_readable hread
  obtain ⟨more, next, inbound', hlabels, hexec, hnext, hcopying, hpeer', htarget'⟩ :=
    exists_copying hrunning hget hsound htask (htarget.symm ▸ hwrite)
  have hrun' : (machine nspace opt traffic).Reaches (labels ++ more) next :=
    (Machine.exec_append _ _).mpr ⟨state, hrun, hexec⟩
  obtain ⟨hsound', -⟩ := inboundInv_of_reaches hrun' inbound' (List.mem_of_getElem? hnext)
  exact ⟨more, next, inbound', hlabels, hexec, hnext, hcopying,
    forwarded_of_sound hbound hsound' (hpeer'.trans hpeer) (htarget'.trans htarget)⟩

/-- Peer 1 asks for port 9090, and two clients connect to it. -/
def twoClientsLabels : List Label :=
  [.connect ⟨[1]⟩, .openStream, .deliver 0 12, .next, .stream 0 .poll, .stream 0 (.read .proceed),
    .stream 0 (.bind (.ok 9090)), .stream 0 (.ack .proceed), .accept 0, .accept 0,
    .inbound 1 .proceed, .inbound 1 .proceed, .copy 1 [7]]

theorem reverse_routed_twoClients :
    ∃ state inbound socket,
      (machine "sape" {} [reverseStream ⟨[1]⟩]).Reaches twoClientsLabels state ∧
      state.inbounds[1]? = some inbound ∧ inbound.task = .copying ∧
      state.sockets[inbound.socket]? = some socket ∧ Forwarded "sape" ⟨[9]⟩ socket inbound := by
  obtain ⟨state, hrun, htest⟩ := Machine.exists_reaches_of_any (by decide :
    ((machine "sape" {} [reverseStream ⟨[1]⟩]).exec
      (machine "sape" {} [reverseStream ⟨[1]⟩]).start twoClientsLabels).any
      (fun state => state.inbounds[1]?.any fun inbound => decide (inbound.task = .copying)) = true)
  obtain ⟨inbound, hget, hcopying⟩ := (Option.any_eq_true _ _).mp htest
  obtain ⟨socket, hsocket, hforwarded, -⟩ :=
    (reverse_routed ⟨[9]⟩ hrun).2.2 1 inbound hget
  exact ⟨state, inbound, socket, hrun, hget, of_decide_eq_true hcopying, hsocket, hforwarded⟩

end Sape.Listener
