/-
  Forward/Bridge.lean --- a forwarded connection from end to end: the connection that the
  accepting side takes off its port, the tunnel stream, and the connection that the other
  side makes to the target.

  With `-L` the dialer accepts (`run_local_forward`) and the listener connects
  (`run_listen`, `handle_forward_to_target`); with `-R` the listener accepts
  (`start_reverse_listener`), on a port that the dialer has asked it for
  (`request_reverse_forward`), and the dialer connects (`run_incoming_reverse_handler`).  The
  task of the accepted connection does the same in both (`InboundTask`): it opens a stream,
  writes a request that names the target, and copies.

  THE ACCEPT QUEUE.  A listener spawns a task for every stream, which gets to its request by
  itself.  A dialer reads the requests of all of them in one loop (`BridgeMode.looped`), so
  that with `-R` a stream leaves the queue (`poll`) when the loop has come to it.  What is
  ahead of it there is in `Forward/Port.lean`; here it is up to the labels, and a result about
  what a connection can do asks for a stream that the loop has come to (`BridgeMode.InTurn`).

  THE COPY.  `tunnel_copy` is `copy_bidirectional`: a `Splice` in each direction.  A
  direction is over when its reader comes to the end, which it then passes on by shutting
  down its writer; the call returns when both are over, or at once when one fails.  A task
  that returns drops what it holds: after a failure that cuts a connection which may still
  carry data.  So does a process that exits, wherever its tasks are suspended.

  `Bridge.connection` is what the application at the port and the target see of all this:
  one connection between the two.
-/
import Sape.Client.Listen
import Sape.Forward.Spec
import Sape.Foundation.Duplex
import Sape.Stream

set_option autoImplicit false

namespace Sape

open Sape.Foundation

/-! ## The two modes -/

/-- Who accepts, who connects, and to what. -/
inductive BridgeMode where
  /-- `-L`: this dialer accepts, and a listener with this allowlist connects -/
  | localForward (dialer : PeerId) (allowedPeers : List PeerId) (target : String)
  /-- `-R`: a listener with this allowlist accepts, on the port that this dialer has asked it
  to bind, and the dialer connects -/
  | reverseForward (dialer : PeerId) (allowedPeers : List PeerId) (bindPort : UInt16)
      (gatewayPorts : Bool) (target : String)
  deriving DecidableEq, Repr, Inhabited

/-- Where the connecting side is with the stream. -/
inductive FarTask where
  /-- it has not been opened yet -/
  | absent
  /-- it is in the accept queue -/
  | queued
  | reading
  | forwarding (task : ForwardTask)
  /-- it was given up in front of a connection to the target -/
  | dropped
  /-- its process has exited -/
  | exited
  deriving DecidableEq, Repr, Inhabited

namespace BridgeMode

def target : BridgeMode → String
  | .localForward _ _ target => target
  | .reverseForward _ _ _ _ target => target

/-- `req`, in front of every connection. -/
def request : BridgeMode → TunnelRequest
  | .localForward _ _ target => .localForward target
  | .reverseForward _ _ _ _ target => InboundTask.request target

/-- The port is there.  With `-R` the listener has let the dialer's request to bind it past its
allowlist, and has read it. -/
def Bound : BridgeMode → Prop
  | .localForward _ _ _ => True
  | .reverseForward dialer allowedPeers bindPort gatewayPorts target =>
      StreamTask.spawned.resume allowedPeers dialer .polled = some .reading ∧
      ∃ frame, writeTunnelRequest (.reverseForward bindPort target gatewayPorts) = .ok frame ∧
        StreamTask.reading.resume allowedPeers dialer (.requestRead (readTunnelRequest frame).1) =
          some (.binding bindPort target gatewayPorts)

/-- Whether the connecting side reads its requests in one loop. -/
def looped : BridgeMode → Bool
  | .localForward _ _ _ => false
  | .reverseForward _ _ _ _ _ => true

/-- From the accept queue to the read of the request. -/
def poll : BridgeMode → FarTask
  | .localForward dialer allowedPeers _ =>
      match StreamTask.spawned.resume allowedPeers dialer .polled with
      | some .reading => .reading
      | _ => .dropped
  | .reverseForward _ _ _ _ _ => .reading

/-- Whether the listener's allowlist admits the dialer. -/
def Admitted : BridgeMode → Prop
  | .localForward dialer allowedPeers _ => StreamTask.Admits allowedPeers dialer
  | .reverseForward dialer allowedPeers _ _ _ => StreamTask.Admits allowedPeers dialer

/-- The loop, where there is one, has come to a stream that has got this far. -/
def InTurn (mode : BridgeMode) (far : FarTask) : Prop :=
  mode.looped = true → far ≠ .absent ∧ far ≠ .queued

theorem poll_localForward (dialer : PeerId) (allowedPeers : List PeerId) (target : String) :
    (StreamTask.Admits allowedPeers dialer ∧
        (BridgeMode.localForward dialer allowedPeers target).poll = .reading) ∨
      (¬ StreamTask.Admits allowedPeers dialer ∧
        (BridgeMode.localForward dialer allowedPeers target).poll = .dropped) := by
  rcases StreamTask.afterPoll_cases allowedPeers dialer with ⟨hadmits, hpoll⟩ | ⟨hadmits, hpoll⟩
  · exact .inl ⟨hadmits, by simp only [poll, StreamTask.resume, hpoll]⟩
  · exact .inr ⟨hadmits, by simp only [poll, StreamTask.resume, hpoll]⟩

theorem poll_of_admitted {mode : BridgeMode} (h : mode.Admitted) : mode.poll = .reading := by
  cases mode with
  | localForward dialer allowedPeers target =>
      exact ((poll_localForward dialer allowedPeers target).resolve_right fun hnot =>
        hnot.1 h).2
  | reverseForward => rfl

theorem poll_cases (mode : BridgeMode) : mode.poll = .reading ∨ mode.poll = .dropped := by
  cases mode with
  | localForward dialer allowedPeers target =>
      exact (poll_localForward dialer allowedPeers target).imp And.right And.right
  | reverseForward => exact .inl rfl

/-- A port that is there, and whose streams get to their requests, is one of a dialer that the
allowlist admits. -/
theorem admitted_of_bound {mode : BridgeMode} (hbound : mode.Bound) (hpoll : mode.poll = .reading) :
    mode.Admitted := by
  cases mode with
  | localForward dialer allowedPeers target =>
      refine ((poll_localForward dialer allowedPeers target).resolve_right fun hnot => ?_).1
      rw [hnot.2] at hpoll
      cases hpoll
  | reverseForward dialer allowedPeers bindPort gatewayPorts target =>
      refine ((StreamTask.afterPoll_cases allowedPeers dialer).resolve_right fun hnot => ?_).1
      have hreading : some (StreamTask.afterPoll allowedPeers dialer) = some .reading := hbound.1
      rw [hnot.2] at hreading
      cases hreading

/-- From the read to `handle_forward_to_target`. -/
def dispatch (result : Except IoError TunnelRequest) : BridgeMode → FarTask
  | .localForward dialer allowedPeers _ =>
      match StreamTask.reading.resume allowedPeers dialer (.requestRead result) with
      | some (.forwarding task) => .forwarding task
      | _ => .dropped
  | .reverseForward _ _ _ _ _ =>
      match dispatchIncoming result with
      | some task => .forwarding task
      | none => .dropped

end BridgeMode

/-! ## States -/

/-- The two directions of a `tunnel_copy`. -/
structure Copying where
  /-- from the application to the target -/
  forth : Splice UInt8 := {}
  back : Splice UInt8 := {}
  deriving DecidableEq, Repr, Inhabited

/-- A forwarded connection. -/
structure Bridge where
  /-- the task of the accepted connection -/
  origin : InboundTask := .opening
  far : FarTask := .absent
  /-- from the application to the port -/
  client : Duplex UInt8 := {}
  stream : Duplex UInt8 := {}
  /-- from the connecting side to the target -/
  target : Duplex UInt8 := {}
  nearCopy : Copying := {}
  farCopy : Copying := {}
  /-- the target that was connected to -/
  reached : Option String := none
  deriving DecidableEq, Repr, Inhabited

/-- A direction of the copy. -/
inductive Way where
  | forth
  | back
  deriving DecidableEq, Repr, Inhabited

/-- What a label of a forwarded connection names. -/
inductive BridgeLabel where
  /-- an act of the application -/
  | client (action : ConduitAct UInt8)
  /-- an act of the target -/
  | target (action : ConduitAct UInt8)
  /-- the task of the accepted connection, in front of its copy -/
  | origin (outcome : Outcome)
  | nearCopy (way : Way) (move : SpliceMove)
  /-- its `tunnel_copy` returns -/
  | nearDone
  | nearFail
  /-- the stream leaves the accept queue; with `-R`, the loop has come to it -/
  | poll
  | read (outcome : Outcome)
  | connect (result : Except IoError Unit)
  | farCopy (way : Way) (move : SpliceMove)
  | farDone
  | farFail (err : IoError)
  /-- the process of the accepting side exits -/
  | nearExit
  | farExit
  deriving DecidableEq, Repr, Inhabited

/-- A conduit, as a frame is read or written on it. -/
def pipeOf (conduit : Conduit UInt8) : Pipe := { sent := conduit.sent, taken := conduit.taken }

/-- The conduit behind that. -/
def withPipe (conduit : Conduit UInt8) (pipe : Pipe) : Conduit UInt8 :=
  { conduit with sent := pipe.sent, taken := pipe.taken }

namespace Bridge

/-! ## Steps -/

/-- The connection between the application and the target. -/
def connection (bridge : Bridge) : Duplex UInt8 where
  forth := .through bridge.client.forth bridge.stream.forth bridge.target.forth
  back := .through bridge.target.back bridge.stream.back bridge.client.back

/-- The task of the accepted connection goes on; where it gives up, it drops what it
holds. -/
def originTo (bridge : Bridge) (event : InboundEvent) : Option Bridge :=
  (bridge.origin.resume event).map fun task =>
    if task = .ended then
      { bridge with origin := task, client := bridge.client.drop, stream := bridge.stream.drop }
    else { bridge with origin := task }

/-- In front of its copy. -/
def originStep (mode : BridgeMode) (bridge : Bridge) (outcome : Outcome) : Option Bridge :=
  match bridge.origin with
  | .opening =>
      match outcome with
      | .proceed =>
          if bridge.far = .absent then
            { bridge with far := .queued }.originTo (.streamOpened (.ok ()))
          else none
      | .refused err => bridge.originTo (.streamOpened (.error err))
      | _ => none
  | .writing =>
      match writeStep (writeTunnelRequest mode.request) (pipeOf bridge.stream.forth) outcome with
      | none => none
      | some (done, pipe) =>
          { bridge with
            stream := { bridge.stream with
              forth := withPipe bridge.stream.forth pipe } }.originTo (.requestWritten done)
  | _ => none

/-- A move of the copy on the accepting side. -/
def nearCopyStep (bridge : Bridge) (way : Way) (move : SpliceMove) : Option Bridge :=
  if bridge.origin = .copying then
    match way with
    | .forth =>
        (bridge.nearCopy.forth.step bridge.client.forth bridge.stream.forth move).map
          fun (splice, source, sink) =>
            { bridge with
              nearCopy := { bridge.nearCopy with forth := splice }
              client := { bridge.client with forth := source }
              stream := { bridge.stream with forth := sink } }
    | .back =>
        (bridge.nearCopy.back.step bridge.stream.back bridge.client.back move).map
          fun (splice, source, sink) =>
            { bridge with
              nearCopy := { bridge.nearCopy with back := splice }
              stream := { bridge.stream with back := source }
              client := { bridge.client with back := sink } }
  else none

/-- The copy on the accepting side has passed both ends on. -/
def nearDoneStep (bridge : Bridge) : Option Bridge :=
  if bridge.nearCopy.forth.done = true ∧ bridge.nearCopy.back.done = true then
    (bridge.origin.resume .copied).map fun task => { bridge with origin := task }
  else none

/-- The connecting side goes on with the stream; where it gives up, it drops it. -/
def farTo (bridge : Bridge) (far : FarTask) : Bridge :=
  if far = .dropped then { bridge with far := far, stream := bridge.stream.drop }
  else { bridge with far := far }

/-- `read_tunnel_request`. -/
def readStep (mode : BridgeMode) (bridge : Bridge) (outcome : Outcome) : Option Bridge :=
  if bridge.far = .reading then
    match Sape.readStep readTunnelRequest (pipeOf bridge.stream.forth)
        (bridge.stream.forth.closed || bridge.stream.forth.cut) outcome with
    | none => none
    | some (result, pipe) =>
        some ({ bridge with
          stream := { bridge.stream with
            forth := withPipe bridge.stream.forth pipe } }.farTo (mode.dispatch result))
  else none

/-- `TcpStream::connect`, which fails for a target that does not name a host and a port. -/
def connectStep (bridge : Bridge) (result : Except IoError Unit) : Option Bridge :=
  match bridge.far with
  | .forwarding task =>
      match task.op, task.resume (.connected result) with
      | some (.connect target), some (.copying named) =>
          if (hostPort target).isSome then
            some { bridge with far := .forwarding (.copying named), reached := some target }
          else none
      | _, some next =>
          some { bridge with far := .forwarding next, stream := bridge.stream.drop }
      | _, none => none
  | _ => none

/-- A move of the copy on the connecting side. -/
def farCopyStep (bridge : Bridge) (way : Way) (move : SpliceMove) : Option Bridge :=
  match bridge.far with
  | .forwarding (.copying _) =>
      match way with
      | .forth =>
          (bridge.farCopy.forth.step bridge.stream.forth bridge.target.forth move).map
            fun (splice, source, sink) =>
              { bridge with
                farCopy := { bridge.farCopy with forth := splice }
                stream := { bridge.stream with forth := source }
                target := { bridge.target with forth := sink } }
      | .back =>
          (bridge.farCopy.back.step bridge.target.back bridge.stream.back move).map
            fun (splice, source, sink) =>
              { bridge with
                farCopy := { bridge.farCopy with back := splice }
                target := { bridge.target with back := source }
                stream := { bridge.stream with back := sink } }
  | _ => none

/-- The copy on the connecting side returns. -/
def farReturnStep (bridge : Bridge) (result : Except IoError Unit) : Option Bridge :=
  match bridge.far with
  | .forwarding task => (task.resume (.copied result)).map fun next =>
      match result with
      | .ok _ => { bridge with far := .forwarding next }
      | .error _ =>
          { bridge with
            far := .forwarding next
            stream := bridge.stream.drop
            target := bridge.target.drop }
  | _ => none

/-- The process of the connecting side exits. -/
def farExitStep (bridge : Bridge) : Bridge :=
  match bridge.reached with
  | none => { bridge with far := .exited, stream := bridge.stream.drop }
  | some _ =>
      { bridge with
        far := .exited, stream := bridge.stream.drop, target := bridge.target.drop }

/-- One step. -/
def step (mode : BridgeMode) (bridge : Bridge) : BridgeLabel → Option Bridge
  | .client action =>
      (bridge.client.act .near action).map fun client => { bridge with client := client }
  | .target action =>
      if bridge.reached.isSome then
        (bridge.target.act .far action).map fun target => { bridge with target := target }
      else none
  | .origin outcome => bridge.originStep mode outcome
  | .nearCopy way move => bridge.nearCopyStep way move
  | .nearDone => bridge.nearDoneStep
  | .nearFail => if bridge.origin = .copying then bridge.originTo .copied else none
  | .poll => if bridge.far = .queued then some (bridge.farTo mode.poll) else none
  | .read outcome => bridge.readStep mode outcome
  | .connect result => bridge.connectStep result
  | .farCopy way move => bridge.farCopyStep way move
  | .farDone =>
      if bridge.farCopy.forth.done = true ∧ bridge.farCopy.back.done = true then
        bridge.farReturnStep (.ok ())
      else none
  | .farFail err => bridge.farReturnStep (.error err)
  | .nearExit =>
      some { bridge with
        origin := .ended, client := bridge.client.drop, stream := bridge.stream.drop }
  | .farExit => some bridge.farExitStep

/-- The machine of a connection that has just been accepted. -/
def machine (mode : BridgeMode) : Machine Bridge BridgeLabel where
  start := {}
  step := step mode

/-! ## The connecting side -/

/-- What either mode makes of its own request, and of none. -/
theorem dispatch_request (mode : BridgeMode) :
    mode.dispatch (.ok mode.request) = .forwarding (.start mode.target) := by
  cases mode <;> rfl

theorem dispatch_error (mode : BridgeMode) (err : IoError) :
    mode.dispatch (.error err) = .dropped := by
  cases mode <;> rfl

theorem dispatch_cases (mode : BridgeMode) (result : Except IoError TunnelRequest) :
    mode.dispatch result = .dropped ∨
      ∃ target, mode.dispatch result = .forwarding (.start target) := by
  cases result with
  | error err => exact .inl (dispatch_error mode err)
  | ok req => cases mode <;> cases req <;> first | exact .inl rfl | exact .inr ⟨_, rfl⟩

/-- What a step does to the connecting side. -/
inductive FarMove (mode : BridgeMode) (bridge : Bridge) (label : BridgeLabel) (next : Bridge) :
    Prop where
  | stays (hfar : next.far = bridge.far) (hreached : next.reached = bridge.reached)
  | opens (habsent : bridge.far = .absent) (hfar : next.far = .queued)
      (hreached : next.reached = bridge.reached)
  | polls (hlabel : label = .poll) (hqueued : bridge.far = .queued)
      (hfar : next.far = mode.poll) (hreached : next.reached = bridge.reached)
  | reads (outcome : Outcome) (hlabel : label = .read outcome) (hreading : bridge.far = .reading)
      (hfar : next.far = .dropped ∨ ∃ target, next.far = .forwarding (.start target))
      (hreached : next.reached = bridge.reached)
  | forwards (task task' : ForwardTask) (hforwarding : bridge.far = .forwarding task)
      (hfar : next.far = .forwarding task')
      (hreached : next.reached = bridge.reached ∨
        ∃ target, next.reached = some target ∧ (hostPort target).isSome = true)
  | exits (hfar : next.far = .exited) (hreached : next.reached = bridge.reached)

theorem originTo_same {bridge next : Bridge} {event : InboundEvent}
    (h : bridge.originTo event = some next) :
    next.far = bridge.far ∧ next.reached = bridge.reached := by
  obtain ⟨task, -, rfl⟩ := Option.map_eq_some_iff.mp h
  by_cases hended : task = .ended
  · rw [if_pos hended]
    exact ⟨rfl, rfl⟩
  · rw [if_neg hended]
    exact ⟨rfl, rfl⟩

theorem farTo_same (bridge : Bridge) (far : FarTask) :
    (bridge.farTo far).far = far ∧ (bridge.farTo far).reached = bridge.reached := by
  unfold farTo
  split
  · exact ⟨rfl, rfl⟩
  · exact ⟨rfl, rfl⟩

theorem farReturnStep_forwards {mode : BridgeMode} {bridge next : Bridge} {label : BridgeLabel}
    {result : Except IoError Unit} (h : bridge.farReturnStep result = some next) :
    FarMove mode bridge label next := by
  unfold farReturnStep at h
  split at h
  · rename_i task hforwarding
    obtain ⟨task', -, rfl⟩ := Option.map_eq_some_iff.mp h
    cases result with
    | ok done => exact .forwards task task' hforwarding rfl (.inl rfl)
    | error err => exact .forwards task task' hforwarding rfl (.inl rfl)
  · cases h

theorem far_step {mode : BridgeMode} {bridge next : Bridge} {label : BridgeLabel}
    (h : bridge.step mode label = some next) : FarMove mode bridge label next := by
  cases label with
  | client action =>
      obtain ⟨client, -, rfl⟩ := Option.map_eq_some_iff.mp h
      exact .stays rfl rfl
  | target action =>
      simp only [step] at h
      split at h
      · obtain ⟨target, -, rfl⟩ := Option.map_eq_some_iff.mp h
        exact .stays rfl rfl
      · cases h
  | origin outcome =>
      simp only [step, originStep] at h
      split at h
      · split at h
        · split at h
          · rename_i habsent
            obtain ⟨hfar, hreached⟩ := originTo_same h
            exact .opens habsent hfar hreached
          · cases h
        · obtain ⟨hfar, hreached⟩ := originTo_same h
          exact .stays hfar hreached
        · cases h
      · split at h
        · cases h
        · obtain ⟨hfar, hreached⟩ := originTo_same h
          exact .stays hfar hreached
      · cases h
  | nearCopy way move =>
      simp only [step, nearCopyStep] at h
      split at h
      · cases way with
        | forth | back =>
            obtain ⟨_, _, rfl⟩ := Option.map_eq_some_iff.mp h
            exact .stays rfl rfl
      · cases h
  | nearDone =>
      simp only [step, nearDoneStep] at h
      split at h
      · obtain ⟨task, -, rfl⟩ := Option.map_eq_some_iff.mp h
        exact .stays rfl rfl
      · cases h
  | nearFail =>
      simp only [step] at h
      split at h
      · obtain ⟨hfar, hreached⟩ := originTo_same h
        exact .stays hfar hreached
      · cases h
  | poll =>
      simp only [step] at h
      split at h
      · rename_i hqueued
        obtain rfl := Option.some.inj h
        obtain ⟨hfar, hreached⟩ := farTo_same bridge mode.poll
        exact .polls rfl hqueued hfar hreached
      · cases h
  | read outcome =>
      simp only [step, readStep] at h
      split at h
      · rename_i hreading
        split at h
        · cases h
        · rename_i result pipe _
          obtain rfl := Option.some.inj h
          obtain ⟨hfar, hreached⟩ := farTo_same { bridge with
            stream := { bridge.stream with forth := withPipe bridge.stream.forth pipe } }
            (mode.dispatch result)
          refine .reads outcome rfl hreading ?_ hreached
          rw [hfar]
          exact dispatch_cases mode result
      · cases h
  | connect result =>
      simp only [step, connectStep] at h
      split at h
      · rename_i task hforwarding
        split at h
        · split at h
          · rename_i hhost
            obtain rfl := Option.some.inj h
            exact .forwards _ _ hforwarding rfl (.inr ⟨_, rfl, hhost⟩)
          · cases h
        · obtain rfl := Option.some.inj h
          exact .forwards _ _ hforwarding rfl (.inl rfl)
        · cases h
      · cases h
  | farCopy way move =>
      simp only [step, farCopyStep] at h
      split at h
      · cases way with
        | forth | back =>
            obtain ⟨_, _, rfl⟩ := Option.map_eq_some_iff.mp h
            exact .stays rfl rfl
      · cases h
  | farDone =>
      simp only [step] at h
      split at h
      · exact farReturnStep_forwards h
      · cases h
  | farFail err => exact farReturnStep_forwards h
  | nearExit =>
      obtain rfl := Option.some.inj h
      exact .stays rfl rfl
  | farExit =>
      obtain rfl := Option.some.inj h
      unfold farExitStep
      split
      · exact .exits rfl rfl
      · exact .exits rfl rfl

end Bridge

/-- What the application and the target do. -/
def BridgeLabel.seen : BridgeLabel → Option (Side × ConduitAct UInt8)
  | .client action => some (.near, action)
  | .target action => some (.far, action)
  | _ => none

end Sape
