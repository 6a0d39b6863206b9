/-
  Client/ReverseDial.lean --- a dialer in `-R` mode as one machine: `run_dial`, the
  loop of `run_incoming_reverse_handler`, and the tasks it spawns.

  The accept queue is registered before the listener is asked to bind, and takes
  streams from whatever peer opens one.  `traffic` is the list of these streams in
  the order of the queue; how much of each has arrived when the loop gets to it is
  up to the labels, and so is everything the network decides.

  WHAT IS PROVED.

      connections_dispatched   every outbound connection was made for a stream of the
                               traffic, to the target that the stream names
      exists_connection        every stream whose request is a `ReverseForward` can
                               get its connection
      confined_iff             the dialer is confined to its own target and listener
                               exactly when the traffic is
-/
import Sape.Client.Dial
import Sape.Forward.Reverse
import Sape.Foundation.Machine
import Sape.Incoming

set_option autoImplicit false

namespace Sape.ReverseDial

open Sape.Foundation

/-! ## The machine -/

/-- A spawned `handle_forward_to_target`, with the peer whose stream it bridges. -/
structure Forward where
  peer : PeerId
  task : ForwardTask
  deriving DecidableEq, Repr, Inhabited

/-- An outbound TCP connection, with the peer whose stream it was opened for. -/
structure Connection where
  peer : PeerId
  target : String
  deriving DecidableEq, Repr, Inhabited

/-- The state of a dialer. -/
structure Dialer where
  run : DialTask := .settingUp
  /-- `remote_peer_id`, once `run_dial` knows it -/
  remotePeer : Option PeerId := none
  streams : List IncomingStream
  /-- how many streams `incoming.next()` has returned -/
  accepted : Nat := 0
  /-- the stream whose request is being read -/
  reading : Option Nat := none
  forwards : List Forward := []
  /-- every outbound TCP connection opened so far -/
  connections : List Connection := []
  deriving DecidableEq, Repr, Inhabited

/-- What a label names. -/
inductive Label where
  /-- `run_dial`, up to the incoming handler -/
  | dial (event : DialEvent)
  /-- bytes of stream `i` arrive -/
  | deliver (i count : Nat)
  /-- `incoming.next()` returns a stream -/
  | next
  /-- `incoming.next()` returns `None` -/
  | incomingEnded
  /-- `read_tunnel_request` on the stream that was returned -/
  | read (outcome : Outcome)
  /-- the spawned task `j` -/
  | forward (j : Nat) (event : ForwardEvent)
  deriving DecidableEq, Repr, Inhabited

namespace Dialer

/-- `run_dial` goes on, and knows its remote peer once it has one to accept from. -/
def resumeDial (text : Libp2pText) (opt : DialOpt) (dialer : Dialer) (event : DialEvent) :
    Option Dialer :=
  if dialer.run = .handlingReverse then none
  else
    match dialer.run.resume text opt event with
    | none => none
    | some (.accepting remote) =>
        some { dialer with run := .accepting remote, remotePeer := some remote }
    | some run => some { dialer with run := run }

/-- The loop of `run_incoming_reverse_handler`, from a read that came back to the next
`incoming.next()`. -/
def dispatch (dialer : Dialer) (peer : PeerId) (request : Except IoError TunnelRequest) :
    Dialer :=
  match dispatchIncoming request with
  | none => { dialer with reading := none }
  | some task =>
      { dialer with
        reading := none
        forwards := dialer.forwards ++ [{ peer := peer, task := task }] }

/-- The connection that a task opens when an event reaches it. -/
def opened (forward : Forward) : ForwardEvent → List Connection
  | .connected (.ok ()) =>
      match forward.task with
      | .connecting target => [{ peer := forward.peer, target := target }]
      | _ => []
  | _ => []

/-- One step. -/
def step (text : Libp2pText) (opt : DialOpt) (dialer : Dialer) : Label → Option Dialer
  | .dial event => dialer.resumeDial text opt event
  | .deliver i count =>
      match dialer.streams[i]? with
      | none => none
      | some stream => some { dialer with streams := dialer.streams.set i (stream.deliver count) }
  | .next =>
      if dialer.run = .handlingReverse ∧ dialer.reading = none ∧
          dialer.accepted < dialer.streams.length then
        some { dialer with reading := some dialer.accepted, accepted := dialer.accepted + 1 }
      else none
  | .incomingEnded =>
      if dialer.run = .handlingReverse ∧ dialer.reading = none then
        some { dialer with
          run := DialTask.bail "incoming reverse stream accept loop ended unexpectedly" }
      else none
  | .read outcome =>
      match dialer.reading.bind fun i => dialer.streams[i]? with
      | none => none
      | some stream => (stream.readRequest outcome).map (dialer.dispatch stream.peer)
  | .forward j event =>
      -- the tasks do not survive `run_dial`
      if dialer.run.isEnded then none
      else
        match dialer.forwards[j]? with
        | none => none
        | some forward =>
            (forward.task.resume event).map fun task =>
              { dialer with
                forwards := dialer.forwards.set j { forward with task := task }
                connections := dialer.connections ++ opened forward event }

end Dialer

/-- The machine of a dialer that is given `opt` and meets `traffic`. -/
def machine (text : Libp2pText) (opt : DialOpt) (traffic : List IncomingStream) :
    Machine Dialer Label where
  start := { streams := traffic }
  step := Dialer.step text opt

/-! ## What can be connected to -/

/-- The traffic holds a stream of `peer` whose request is a `ReverseForward` with this
target. -/
def Dispatched (traffic : List IncomingStream) (peer : PeerId) (target : String) : Prop :=
  ∃ stream ∈ traffic, stream.peer = peer ∧
    ∃ bindPort gatewayPorts,
      stream.request = .ok (.reverseForward bindPort target gatewayPorts)

/-- What every reachable state satisfies. -/
structure Inv (traffic : List IncomingStream) (dialer : Dialer) : Prop where
  streams : ∀ stream ∈ dialer.streams, ∃ origin ∈ traffic,
    origin.peer = stream.peer ∧ origin.request = stream.request
  forwards : ∀ forward ∈ dialer.forwards, ∀ target, forward.task = .connecting target →
    Dispatched traffic forward.peer target
  connections : ∀ connection ∈ dialer.connections,
    Dispatched traffic connection.peer connection.target

theorem inv_start (traffic : List IncomingStream) : Inv traffic { streams := traffic } where
  streams stream hmem := ⟨stream, hmem, rfl, rfl⟩
  forwards forward hmem := by cases hmem
  connections connection hmem := by cases hmem

theorem inv_dispatch {traffic : List IncomingStream} {dialer : Dialer} (hinv : Inv traffic dialer)
    {stream : IncomingStream} (hmem : stream ∈ dialer.streams) {outcome : Outcome}
    {request : Except IoError TunnelRequest} (hread : stream.readRequest outcome = some request) :
    Inv traffic (dialer.dispatch stream.peer request) := by
  unfold Dialer.dispatch
  split
  · exact ⟨hinv.streams, hinv.forwards, hinv.connections⟩
  · rename_i task htask
    obtain ⟨bindPort, target, gatewayPorts, rfl, rfl⟩ := dispatchIncoming_eq_some.mp htask
    obtain ⟨origin, horigin, hpeer, hrequest⟩ := hinv.streams stream hmem
    rw [IncomingStream.request_of_readRequest hread] at hrequest
    refine ⟨hinv.streams, ?_, hinv.connections⟩
    intro forward hforward target' hconnecting
    rcases List.mem_append.mp hforward with hold | hnew
    · exact hinv.forwards forward hold target' hconnecting
    · obtain rfl := List.mem_singleton.mp hnew
      obtain rfl : target = target' := ForwardTask.connecting.inj hconnecting
      exact ⟨origin, horigin, hpeer, bindPort, gatewayPorts, hrequest⟩

theorem mem_opened {forward : Forward} {event : ForwardEvent} {connection : Connection}
    (h : connection ∈ Dialer.opened forward event) :
    connection.peer = forward.peer ∧ forward.task = .connecting connection.target := by
  unfold Dialer.opened at h
  split at h
  · split at h
    · rename_i target htask
      obtain rfl := List.mem_singleton.mp h
      exact ⟨rfl, htask⟩
    · cases h
  · cases h

theorem inv_step {text : Libp2pText} {opt : DialOpt} {traffic : List IncomingStream}
    {dialer next : Dialer} {label : Label} (hinv : Inv traffic dialer)
    (hstep : dialer.step text opt label = some next) : Inv traffic next := by
  cases label with
  | dial event =>
      simp only [Dialer.step, Dialer.resumeDial] at hstep
      split at hstep
      · cases hstep
      · split at hstep
        · cases hstep
        · obtain rfl := Option.some.inj hstep
          exact ⟨hinv.streams, hinv.forwards, hinv.connections⟩
        · obtain rfl := Option.some.inj hstep
          exact ⟨hinv.streams, hinv.forwards, hinv.connections⟩
  | deliver i count =>
      simp only [Dialer.step] at hstep
      split at hstep
      · cases hstep
      · rename_i stream hstream
        obtain rfl := Option.some.inj hstep
        refine ⟨?_, hinv.forwards, hinv.connections⟩
        intro stream' hmem
        rcases List.mem_or_eq_of_mem_set hmem with hold | rfl
        · exact hinv.streams stream' hold
        · exact hinv.streams stream (List.mem_of_getElem? hstream)
  | next =>
      simp only [Dialer.step] at hstep
      split at hstep
      · obtain rfl := Option.some.inj hstep
        exact ⟨hinv.streams, hinv.forwards, hinv.connections⟩
      · cases hstep
  | incomingEnded =>
      simp only [Dialer.step] at hstep
      split at hstep
      · obtain rfl := Option.some.inj hstep
        exact ⟨hinv.streams, hinv.forwards, hinv.connections⟩
      · cases hstep
  | read outcome =>
      simp only [Dialer.step] at hstep
      split at hstep
      · cases hstep
      · rename_i stream hstream
        obtain ⟨i, -, hget⟩ := Option.bind_eq_some_iff.mp hstream
        obtain ⟨request, hread, rfl⟩ := Option.map_eq_some_iff.mp hstep
        exact inv_dispatch hinv (List.mem_of_getElem? hget) hread
  | forward j event =>
      simp only [Dialer.step] at hstep
      split at hstep
      · cases hstep
      · split at hstep
        · cases hstep
        · rename_i forward hget
          obtain ⟨task, hresume, rfl⟩ := Option.map_eq_some_iff.mp hstep
          have hmem := List.mem_of_getElem? hget
          refine ⟨hinv.streams, ?_, ?_⟩
          · intro other hother target hconnecting
            rcases List.mem_or_eq_of_mem_set hother with hold | rfl
            · exact hinv.forwards other hold target hconnecting
            · exact absurd hconnecting (ForwardTask.resume_ne_connecting hresume target)
          · intro connection hconnection
            rcases List.mem_append.mp hconnection with hold | hnew
            · exact hinv.connections connection hold
            · obtain ⟨hpeer, htask⟩ := mem_opened hnew
              exact hpeer ▸ hinv.forwards forward hmem connection.target htask

/-- Every outbound connection was made for a stream of the traffic, and to the target
that this stream names. -/
theorem connections_dispatched {text : Libp2pText} {opt : DialOpt}
    {traffic : List IncomingStream} {labels : List Label} {dialer : Dialer}
    (hrun : (machine text opt traffic).Reaches labels dialer) :
    ∀ connection ∈ dialer.connections,
      Dispatched traffic connection.peer connection.target :=
  ((machine text opt traffic).invariant (Inv traffic) (inv_start traffic)
    (fun hinv hstep => inv_step hinv hstep) hrun).connections

/-! ## What is connected to in some run -/

/-- The options lead `run_dial` to this peer without a jump. -/
def DialsPeer (opt : DialOpt) (listener : PeerId) : Prop :=
  opt.jump = [] ∧
    match opt.target with
    | .mdns peer => peer = listener
    | .relayCircuit addr => ∃ base, relayBaseFromCircuitAddress addr = .ok (base, listener)
    | .pairingCode _ => ∃ relayAddress relayPeer,
        opt.relayAddress = some relayAddress ∧ peerIdFromMultiaddr relayAddress = some relayPeer

/-- The state in which the incoming handler has begun. -/
def handling (traffic : List IncomingStream) (listener : PeerId) : Dialer :=
  { run := .handlingReverse, remotePeer := some listener, streams := traffic }

/-- The events of a `run_dial` in which nothing fails: the remote peer is found, and the
queue and the reverse port are there. -/
def dialEvents (listener : PeerId) (target : DialTarget) : List DialEvent :=
  (match target with
    | .mdns _ => [.done (.ok ()), .done (.ok ())]
    | .relayCircuit _ => [.done (.ok ()), .done (.ok ()), .done (.ok ()), .done (.ok ())]
    | .pairingCode _ =>
        [.done (.ok ()), .done (.ok ()), .done (.ok ()), .discovered (.ok listener)]) ++
    [.done (.ok ()), .done (.ok ())]

/-- A dialer in `-R` mode gets to its incoming handler. -/
theorem reaches_handling {text : Libp2pText} {opt : DialOpt} {traffic : List IncomingStream}
    {listener : PeerId} {bindPort : UInt16} {target : String} {gatewayPorts : Bool}
    (hmode : parseDialMode opt = .reverseForward bindPort target gatewayPorts)
    (hdials : DialsPeer opt listener) :
    (machine text opt traffic).Reaches ((dialEvents listener opt.target).map .dial)
      (handling traffic listener) := by
  obtain ⟨hjump, htarget⟩ := hdials
  cases hopt : opt.target with
  | mdns peer =>
      simp only [hopt] at htarget
      subst htarget
      simp [Machine.Reaches, machine, Machine.exec, Dialer.step, Dialer.resumeDial, dialEvents,
        DialTask.resume, DialTask.afterSetUp, DialTask.afterAccept, handling, hjump, hopt, hmode]
  | relayCircuit addr =>
      simp only [hopt] at htarget
      obtain ⟨base, hbase⟩ := htarget
      simp [Machine.Reaches, machine, Machine.exec, Dialer.step, Dialer.resumeDial, dialEvents,
        DialTask.resume, DialTask.afterSetUp, DialTask.afterAccept, handling, hjump, hopt, hmode,
        hbase]
  | pairingCode code =>
      simp only [hopt] at htarget
      obtain ⟨relayAddress, relayPeer, hrelay, hpeer⟩ := htarget
      simp [Machine.Reaches, machine, Machine.exec, Dialer.step, Dialer.resumeDial, dialEvents,
        DialTask.resume, DialTask.afterSetUp, DialTask.afterAccept, handling, hjump, hopt, hmode,
        hrelay, hpeer]

/-- Take streams off the queue and have the read of each request fail. -/
def skipLabels : Nat → List Label
  | 0 => []
  | count + 1 => .next :: .read (.broken 0 .unexpectedEof) :: skipLabels count

/-- The loop goes on behind a request that it could not read. -/
theorem exec_skip (text : Libp2pText) (opt : DialOpt) {traffic : List IncomingStream}
    (listener : PeerId) (count : Nat) {accepted : Nat}
    (hcount : accepted + count ≤ traffic.length) :
    (machine text opt traffic).exec { handling traffic listener with accepted := accepted }
        (skipLabels count) =
      some { handling traffic listener with accepted := accepted + count } := by
  induction count generalizing accepted with
  | zero => rfl
  | succ count ih =>
      have hlt : accepted < traffic.length := by omega
      have hnext : (machine text opt traffic).step
          { handling traffic listener with accepted := accepted } .next =
          some { handling traffic listener with
            accepted := accepted + 1, reading := some accepted } := by
        simp [machine, Dialer.step, handling, hlt]
      have hread : (machine text opt traffic).step
          { handling traffic listener with accepted := accepted + 1, reading := some accepted }
          (.read (.broken 0 .unexpectedEof)) =
          some { handling traffic listener with accepted := accepted + 1 } := by
        simp [machine, Dialer.step, Dialer.dispatch, dispatchIncoming, handling, hlt]
      rw [skipLabels, Machine.exec_cons_of_step hnext, Machine.exec_cons_of_step hread,
        ih (by omega), Nat.add_assoc, Nat.add_comm 1]

/-- The loop dispatches the stream at the front of the queue once all of it is there. -/
theorem exec_dispatch (text : Libp2pText) (opt : DialOpt) {traffic : List IncomingStream}
    (listener : PeerId) {k : Nat} {stream : IncomingStream} {bindPort : UInt16} {target : String}
    {gatewayPorts : Bool} (hget : traffic[k]? = some stream)
    (hrequest : stream.request = .ok (.reverseForward bindPort target gatewayPorts)) :
    ∃ dialer, (machine text opt traffic).exec { handling traffic listener with accepted := k }
        [.deliver k stream.content.length, .next, .read .proceed,
          .forward 0 (.connected (.ok ()))] = some dialer ∧
      dialer.remotePeer = some listener ∧
      dialer.connections = [{ peer := stream.peer, target := target }] := by
  obtain ⟨hlt, rfl⟩ := List.getElem?_eq_some_iff.mp hget
  have hread : (traffic[k].deliver traffic[k].content.length).readRequest .proceed =
      some (.ok (.reverseForward bindPort target gatewayPorts)) :=
    IncomingStream.readRequest_of_arrived hrequest (Nat.le_add_left _ _)
  refine ⟨{ handling traffic listener with
      streams := traffic.set k (traffic[k].deliver traffic[k].content.length)
      accepted := k + 1
      forwards := [{ peer := traffic[k].peer, task := .copying target }]
      connections := [{ peer := traffic[k].peer, target := target }] }, ?_, rfl, rfl⟩
  simp [machine, Machine.exec, Dialer.step, handling, hlt, hread, Dialer.dispatch,
    dispatchIncoming, ForwardTask.start, ForwardTask.resume, Dialer.opened, DialTask.isEnded]

/-- Whoever gets a `ReverseForward` through to the dialer can get its connection. -/
theorem exists_connection (text : Libp2pText) {opt : DialOpt} {traffic : List IncomingStream}
    {listener : PeerId} {bindPort : UInt16} {target : String} {gatewayPorts : Bool}
    (hmode : parseDialMode opt = .reverseForward bindPort target gatewayPorts)
    (hdials : DialsPeer opt listener) {peer : PeerId} {target' : String}
    (hdispatched : Dispatched traffic peer target') :
    ∃ labels dialer, (machine text opt traffic).Reaches labels dialer ∧
      dialer.remotePeer = some listener ∧
      { peer := peer, target := target' } ∈ dialer.connections := by
  obtain ⟨stream, hmem, rfl, bindPort', gatewayPorts', hrequest⟩ := hdispatched
  obtain ⟨k, hlt, hget⟩ := List.getElem_of_mem hmem
  obtain ⟨dialer, hexec, hremote, hconnections⟩ :=
    exec_dispatch text opt listener (List.getElem?_eq_some_iff.mpr ⟨hlt, hget⟩) hrequest
  have hskip : (machine text opt traffic).exec (handling traffic listener) (skipLabels k) =
      some { handling traffic listener with accepted := 0 + k } :=
    exec_skip text opt listener k (by omega)
  rw [Nat.zero_add] at hskip
  have hrun := (Machine.exec_append _ _).mpr ⟨_, hskip, hexec⟩
  have hmem : { peer := stream.peer, target := target' } ∈ dialer.connections := by
    rw [hconnections]
    exact List.mem_singleton_self _
  exact ⟨_, dialer, (Machine.exec_append _ _).mpr ⟨_, reaches_handling hmode hdials, hrun⟩,
    hremote, hmem⟩

/-! ## Confinement -/

/-- Every outbound connection goes to the dialer's own target, and was opened for a stream
of the listener it dialed. -/
def Confined (listener : PeerId) (target : String) (dialer : Dialer) : Prop :=
  ∀ connection ∈ dialer.connections,
    connection.target = target ∧ connection.peer = listener

instance (listener : PeerId) (target : String) (dialer : Dialer) :
    Decidable (Confined listener target dialer) :=
  inferInstanceAs (Decidable (∀ connection ∈ dialer.connections, _))

/-- A dialer in `-R` mode is confined, in every run on this traffic, exactly when every
`ReverseForward` in the traffic comes from the listener and names the dialer's target. -/
theorem confined_iff {text : Libp2pText} {opt : DialOpt} {traffic : List IncomingStream}
    {listener : PeerId} {bindPort : UInt16} {target : String} {gatewayPorts : Bool}
    (hmode : parseDialMode opt = .reverseForward bindPort target gatewayPorts)
    (hdials : DialsPeer opt listener) :
    (∀ labels dialer, (machine text opt traffic).Reaches labels dialer →
        dialer.remotePeer = some listener → Confined listener target dialer) ↔
      ∀ stream ∈ traffic, ∀ port target' gateway,
        stream.request = .ok (.reverseForward port target' gateway) →
          target' = target ∧ stream.peer = listener := by
  constructor
  · intro hconfined stream hmem port target' gateway hrequest
    obtain ⟨labels, dialer, hrun, hremote, hconnection⟩ :=
      exists_connection text hmode hdials ⟨stream, hmem, rfl, port, gateway, hrequest⟩
    exact hconfined labels dialer hrun hremote _ hconnection
  · intro htraffic labels dialer hrun _ connection hconnection
    obtain ⟨stream, hmem, hpeer, port, gateway, hrequest⟩ :=
      connections_dispatched hrun connection hconnection
    rw [← hpeer]
    exact htraffic stream hmem port connection.target gateway hrequest

/-- `sape dial -R 9090:a:1 /mdns/9`. -/
def nineOpt : DialOpt where
  target := .mdns ⟨[9]⟩
  remoteForward := some { bindPort := 9090, target := "a:1" }

/-- The stream that listener 9 opens for a connection to its port 9090. -/
def honestStream : IncomingStream where
  peer := ⟨[9]⟩
  content := [0, 0, 0, 7, 2, 0, 3, 97, 58, 49, 0]

/-- A stream that peer 3 opens, with a target of its own. -/
def strangeStream : IncomingStream where
  peer := ⟨[3]⟩
  content := [0, 0, 0, 8, 2, 0, 4, 120, 58, 50, 50, 0]

theorem confined_iff_honestStream :
    ∃ labels dialer, (machine (.ofTable []) nineOpt [honestStream]).Reaches labels dialer ∧
      dialer.connections = [{ peer := ⟨[9]⟩, target := "a:1" }] ∧
      Confined ⟨[9]⟩ "a:1" dialer := by
  obtain ⟨dialer, hrun, htest⟩ := Machine.exists_reaches_of_any (by decide :
    ((machine (.ofTable []) nineOpt [honestStream]).exec
      (machine (.ofTable []) nineOpt [honestStream]).start
      ((dialEvents ⟨[9]⟩ nineOpt.target).map .dial ++
        [.next, .deliver 0 11, .read .proceed, .forward 0 (.connected (.ok ()))])).any
      (fun dialer => decide (dialer.remotePeer = some ⟨[9]⟩ ∧
        dialer.connections = [{ peer := ⟨[9]⟩, target := "a:1" }])) = true)
  obtain ⟨hremote, hconnections⟩ := of_decide_eq_true htest
  refine ⟨_, dialer, hrun, hconnections, (confined_iff (by rfl) ⟨rfl, rfl⟩).mpr ?_ _ dialer hrun
    hremote⟩
  intro stream hmem port target' gateway hrequest
  obtain rfl := List.mem_singleton.mp hmem
  have hhonest : honestStream.request = .ok (.reverseForward 0 "a:1" false) := by decide
  rw [hhonest] at hrequest
  obtain ⟨-, rfl, -⟩ := TunnelRequest.reverseForward.inj (Except.ok.inj hrequest)
  exact ⟨rfl, rfl⟩

/-- Peer 3 gets the dialer of listener 9 to connect to `x:22`, which nobody but peer 3 has
named. -/
theorem strangeStream_not_confined :
    ∃ labels dialer, (machine (.ofTable []) nineOpt [strangeStream]).Reaches labels dialer ∧
      dialer.remotePeer = some ⟨[9]⟩ ∧
      dialer.connections = [{ peer := ⟨[3]⟩, target := "x:22" }] ∧
      ¬ Confined ⟨[9]⟩ "a:1" dialer := by
  obtain ⟨dialer, hrun, htest⟩ := Machine.exists_reaches_of_any (by decide :
    ((machine (.ofTable []) nineOpt [strangeStream]).exec
      (machine (.ofTable []) nineOpt [strangeStream]).start
      ((dialEvents ⟨[9]⟩ nineOpt.target).map .dial ++
        [.next, .deliver 0 12, .read .proceed, .forward 0 (.connected (.ok ()))])).any
      (fun dialer => decide (dialer.remotePeer = some ⟨[9]⟩ ∧
        dialer.connections = [{ peer := ⟨[3]⟩, target := "x:22" }] ∧
        ¬ Confined ⟨[9]⟩ "a:1" dialer)) = true)
  exact ⟨_, dialer, hrun, of_decide_eq_true htest⟩

end Sape.ReverseDial
