/-
  Listener/Machine.lean --- a running listener as one machine: the accept loop of
  `run_listen`, the task of every incoming stream, the reverse accept loops that
  these leave behind, and the task of every connection that those accept.

  `traffic` is the list of the streams that peers open, in the order of the accept
  queue.  Which task is polled next, what arrives when, who connects, and what the
  network and the operating system answer, is up to the labels.

  THE OPERATING SYSTEM.  A bind to a fixed port gets that port, a bind to port 0 any
  other; no two sockets listen on one address at a time.  A bind may always fail: other
  processes hold ports too.

  HISTORY.  `Listener.effects` lists every operation that was begun, with the peer on
  whose behalf, and `Inbound.opened` the streams that were opened; no step depends on
  the first.
-/
import Sape.Client.Listen
import Sape.Foundation.Machine
import Sape.Incoming

set_option autoImplicit false

namespace Sape.Listener

open Sape.Foundation

/-! ## States -/

/-- An incoming stream, and the task that `run_listen` has spawned for it. -/
structure Session where
  stream : IncomingStream
  /-- `none`: still in the queue -/
  task : Option StreamTask := none
  /-- what the task has written back on the stream -/
  reply : Bytes := []
  deriving DecidableEq, Repr, Inhabited

/-- A bound reverse port, with what its accept loop has captured. -/
structure ReverseSocket where
  /-- the session that bound it -/
  session : Nat
  /-- the address it is bound to, its port never 0 -/
  addr : SocketAddr
  remotePeer : PeerId
  target : String
  deriving DecidableEq, Repr, Inhabited

/-- A stream opened back to a peer, and what was written on it. -/
structure Outgoing where
  peer : PeerId
  protocol : StreamProtocol
  pipe : Pipe := {}
  deriving DecidableEq, Repr, Inhabited

/-- A connection accepted on a reverse port, with what its task has captured. -/
structure Inbound where
  /-- the socket that accepted it -/
  socket : Nat
  remotePeer : PeerId
  target : String
  task : InboundTask := .opening
  /-- the streams the task has opened, the current one in front -/
  opened : List Outgoing := []
  deriving DecidableEq, Repr, Inhabited

/-- An operation that was begun, and the peer on whose behalf. -/
structure Effect where
  peer : PeerId
  op : ListenOp
  deriving DecidableEq, Repr, Inhabited

/-- The state of a listener. -/
structure State where
  /-- `false` behind ctrl-c -/
  running : Bool := true
  /-- the peers with a connection to the swarm -/
  connected : List PeerId := []
  sessions : List Session
  /-- how many streams of the traffic have been opened -/
  opened : Nat := 0
  /-- how many of them `incoming.next()` has returned -/
  accepted : Nat := 0
  sockets : List ReverseSocket := []
  inbounds : List Inbound := []
  effects : List Effect := []
  deriving DecidableEq, Repr, Inhabited

/-! ## Labels -/

/-- What a stream's task meets. -/
inductive StreamInput where
  | poll
  | read (outcome : Outcome)
  | netcatDone (result : Except IoError Unit)
  | forward (event : ForwardEvent)
  /-- the port that the system gives, or its error -/
  | bind (result : Except String UInt16)
  | ack (outcome : Outcome)
  deriving DecidableEq, Repr, Inhabited

/-- What a label names. -/
inductive Label where
  | connect (peer : PeerId)
  | disconnect (peer : PeerId)
  /-- the next stream of the traffic is opened by its peer -/
  | openStream
  /-- bytes of stream `i` arrive -/
  | deliver (i count : Nat)
  /-- `incoming.next()` returns a stream, and its task is spawned -/
  | next
  /-- the task of stream `i` -/
  | stream (i : Nat) (input : StreamInput)
  /-- the accept loop of socket `k` gets a connection -/
  | accept (k : Nat)
  /-- the task of connection `j` -/
  | inbound (j : Nat) (outcome : Outcome)
  /-- the copy loop of connection `j` passes on what its client sent -/
  | copy (j : Nat) (bytes : Bytes)
  | ctrlC
  deriving DecidableEq, Repr, Inhabited

/-! ## Steps -/

/-- The effect of beginning an awaited operation. -/
def effectsOf (peer : PeerId) (op : Option ListenOp) : List Effect :=
  op.toList.map fun op => { peer := peer, op := op }

namespace State

/-- Whether the system may bind `addr` as `port`. -/
def CanBind (state : State) (addr : SocketAddr) (port : UInt16) : Prop :=
  port ≠ 0 ∧ (addr.port = 0 ∨ addr.port = port) ∧
    ∀ socket ∈ state.sockets, socket.addr ≠ { addr with port := port }

instance (state : State) (addr : SocketAddr) (port : UInt16) :
    Decidable (state.CanBind addr port) :=
  inferInstanceAs (Decidable (_ ∧ _ ∧ _))

/-- The socket of a bind that succeeded: `start_reverse_listener` spawns its accept loop. -/
def boundSocket (i : Nat) (session : Session) (port : UInt16) : Option ReverseSocket :=
  match session.task with
  | some (.binding bindPort target gatewayPorts) =>
      some
        { session := i
          addr := { reverseBindAddr bindPort gatewayPorts with port := port }
          remotePeer := session.stream.peer
          target := target }
  | _ => none

/-- `send_reverse_ack` on the session's stream. -/
def sendAck (result : Except String Unit) : Outcome → Option (Except IoError Unit × Bytes)
  | .proceed => some ((sendReverseAck result).2, (sendReverseAck result).1)
  | .broken cut err => some (.error err, (sendReverseAck result).1.take cut)
  | _ => none

/-- What the awaited operation of session `i` comes back with: the event, what was written
on the stream, and the socket that was bound. -/
def perform (state : State) (i : Nat) (session : Session) :
    StreamInput → Option (StreamEvent × Bytes × Option ReverseSocket)
  | .poll => some (.polled, [], none)
  | .read outcome =>
      (session.stream.readRequest outcome).map fun result => (.requestRead result, [], none)
  | .netcatDone result => some (.netcatDone result, [], none)
  | .forward event => some (.forward event, [], none)
  | .bind (.error err) => some (.bound (.error err), [], none)
  | .bind (.ok port) =>
      match session.task with
      | some (.binding bindPort _ gatewayPorts) =>
          if state.CanBind (reverseBindAddr bindPort gatewayPorts) port then
            some (.bound (.ok ()), [], boundSocket i session port)
          else none
      | _ => none
  | .ack outcome =>
      match session.task with
      | some (.acking result) =>
          (sendAck result outcome).map fun (sent, written) => (.ackSent sent, written, none)
      | _ => none

/-- The task of session `i` goes from one await to the next. -/
def streamStep (opt : ListenOpt) (state : State) (i : Nat) (input : StreamInput) :
    Option State :=
  match state.sessions[i]? with
  | none => none
  | some session =>
      match session.task, state.perform i session input with
      | some task, some (event, written, socket) =>
          match task.resume opt.allowedPeers session.stream.peer event with
          | none => none
          | some next =>
              some { state with
                sessions := state.sessions.set i
                  { session with task := some next, reply := session.reply ++ written }
                sockets := state.sockets ++ socket.toList
                effects := state.effects ++ effectsOf session.stream.peer next.op ++
                  socket.toList.map fun socket =>
                    { peer := session.stream.peer, op := .accept socket.addr } }
      | _, _ => none

/-- The accept loop of socket `k` gets a connection, and spawns its task. -/
def acceptStep (nspace : String) (state : State) (k : Nat) : Option State :=
  match state.sockets[k]? with
  | none => none
  | some socket =>
      let inbound : Inbound :=
        { socket := k, remotePeer := socket.remotePeer, target := socket.target }
      some { state with
        inbounds := state.inbounds ++ [inbound]
        effects := state.effects ++
          effectsOf socket.remotePeer
            ((inbound.task.op nspace socket.remotePeer socket.target).map .inbound) ++
          [{ peer := socket.remotePeer, op := .accept socket.addr }] }

/-- What the awaited operation of a connection comes back with, and the streams behind
it. -/
def performInbound (inbound : Inbound) (outcome : Outcome) :
    InboundOp → Option (InboundEvent × List Outgoing)
  | .openStream peer protocol =>
      match outcome with
      | .proceed =>
          some (.streamOpened (.ok ()), { peer := peer, protocol := protocol } :: inbound.opened)
      | .refused err => some (.streamOpened (.error err), inbound.opened)
      | _ => none
  | .writeTunnelRequest req =>
      match inbound.opened with
      | [] => none
      | outgoing :: others =>
          (writeStep (Sape.writeTunnelRequest req) outgoing.pipe outcome).map fun (done, pipe) =>
            (.requestWritten done, { outgoing with pipe := pipe } :: others)
  | .tunnelCopy =>
      match outcome with
      | .proceed => some (.copied, inbound.opened)
      | _ => none

/-- The task of connection `j` goes from one await to the next. -/
def inboundStep (nspace : String) (state : State) (j : Nat) (outcome : Outcome) :
    Option State :=
  match state.inbounds[j]? with
  | none => none
  | some inbound =>
      match inbound.task.op nspace inbound.remotePeer inbound.target with
      | none => none
      | some op =>
          match performInbound inbound outcome op with
          | none => none
          | some (event, opened) =>
              match inbound.task.resume event with
              | none => none
              | some next =>
                  some { state with
                    inbounds := state.inbounds.set j
                      { inbound with task := next, opened := opened }
                    effects := state.effects ++
                      effectsOf inbound.remotePeer
                        ((next.op nspace inbound.remotePeer inbound.target).map .inbound) }

/-- Connection `j` passes on what its client sent. -/
def copyStep (state : State) (j : Nat) (bytes : Bytes) : Option State :=
  match state.inbounds[j]? with
  | none => none
  | some inbound =>
      match inbound.task, inbound.opened with
      | .copying, outgoing :: others =>
          some { state with
            inbounds := state.inbounds.set j
              { inbound with
                opened := { outgoing with pipe := outgoing.pipe.put bytes } :: others } }
      | _, _ => none

/-- One step of a running listener. -/
def runningStep (nspace : String) (opt : ListenOpt) (state : State) : Label → Option State
  | .connect peer => some { state with connected := peer :: state.connected }
  | .disconnect peer =>
      some { state with connected := state.connected.filter fun other => decide (other ≠ peer) }
  | .openStream =>
      match state.sessions[state.opened]? with
      | none => none
      | some session =>
          if session.stream.peer ∈ state.connected then
            some { state with opened := state.opened + 1 }
          else none
  | .deliver i count =>
      match state.sessions[i]? with
      | none => none
      | some session =>
          some { state with
            sessions := state.sessions.set i
              { session with stream := session.stream.deliver count } }
  | .next =>
      if state.accepted < state.opened then
        match state.sessions[state.accepted]? with
        | none => none
        | some session =>
            match session.task with
            | some _ => none
            | none =>
                some { state with
                  accepted := state.accepted + 1
                  sessions := state.sessions.set state.accepted
                    { session with task := some .spawned } }
      else none
  | .stream i input => state.streamStep opt i input
  | .accept k => state.acceptStep nspace k
  | .inbound j outcome => state.inboundStep nspace j outcome
  | .copy j bytes => state.copyStep j bytes
  | .ctrlC => some { state with running := false }

/-- One step. -/
def step (nspace : String) (opt : ListenOpt) (state : State) (label : Label) : Option State :=
  if state.running then state.runningStep nspace opt label else none

end State

/-- The machine of a listener that is given `opt` and meets `traffic`. -/
def machine (nspace : String) (opt : ListenOpt) (traffic : List IncomingStream) :
    Machine State Label where
  start := { sessions := traffic.map fun stream => { stream := stream } }
  step := State.step nspace opt

/-- A stream on which a peer asks for port 9090 to be forwarded to its `a:1`. -/
def reverseStream (peer : PeerId) : IncomingStream where
  peer := peer
  content := [0, 0, 0, 8, 2, 130, 71, 3, 97, 58, 49, 0]

end Sape.Listener
