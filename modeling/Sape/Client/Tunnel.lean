/-
  Client/Tunnel.lean --- `run_dial` with the loops it runs over its swarm, and with the
  tasks that open its tunnel streams.

  `DialTask` says what `run_dial` waits for; here the wait for a loop of
  `client/swarm.rs` is that loop, the wait for `request_reverse_forward` is that function,
  and the connections on a forwarded port or on the proxy port have their sessions.

  HISTORY.  `DialRun.seen` lists the events taken off the swarm, `waited` those that a loop
  took while it waited for the connection of a peer, with that peer, and `proceeded` those
  that changed what `run_dial` waits for, with the party that it was waiting for.  No step
  depends on them.
-/
import Sape.Client.Swarm
import Sape.Forward.Session

set_option autoImplicit false

namespace Sape

open Sape.Foundation

/-! ## Sessions -/

/-- The task of a connection on a local port. -/
inductive PortTask where
  /-- spawned by `run_local_forward` -/
  | localForward (target : String) (task : InboundTask)
  /-- spawned by `run_socks5` -/
  | proxy (task : Proxy.ProxyTask)
  deriving DecidableEq, Repr, Inhabited

/-- What an operation of it came back with. -/
inductive PortEvent where
  | localForward (event : InboundEvent)
  | proxy (event : Proxy.ProxyEvent)
  deriving DecidableEq, Repr

/-- An operation on a tunnel stream that decides who is talked to. -/
inductive TunnelOp where
  | openStream (peer : PeerId) (protocol : StreamProtocol)
  /-- the write of a request on a stream opened to a peer -/
  | writeTunnelRequest (peer : PeerId) (req : TunnelRequest)
  deriving DecidableEq, Repr, Inhabited

/-- The peer at the other end. -/
def TunnelOp.peer : TunnelOp → PeerId
  | .openStream peer _ => peer
  | .writeTunnelRequest peer _ => peer

namespace PortTask

/-- The awaited operation, if it is on a tunnel stream. -/
def tunnelOp (nspace : String) (remotePeer : PeerId) : PortTask → Option TunnelOp
  | .localForward _ .opening => some (.openStream remotePeer (tunnelProtocol nspace))
  | .localForward target .writing =>
      some (.writeTunnelRequest remotePeer (.localForward target))
  | .localForward _ _ => none
  | .proxy task =>
      match task.op nspace remotePeer with
      | some (.openStream peer protocol) => some (.openStream peer protocol)
      | some (.writeTunnelRequest req) => some (.writeTunnelRequest remotePeer req)
      | _ => none

/-- The code between the await a task is suspended on and the next one. -/
def resume : PortTask → PortEvent → Option PortTask
  | .localForward target task, .localForward event =>
      (task.resume event).map (.localForward target)
  | .proxy task, .proxy event => (task.resume event).map .proxy
  | _, _ => none

end PortTask

/-- A session, and the peer its streams go to. -/
structure PortSession where
  remotePeer : PeerId
  task : PortTask
  deriving DecidableEq, Repr, Inhabited

/-! ## The run -/

/-- `run_dial`. -/
structure DialRun where
  run : DialTask := .settingUp
  /-- the loop that it runs -/
  loop : Option SwarmTask := none
  /-- the call of `request_reverse_forward` that it runs -/
  request : Option RequestTask := none
  /-- the peer of the stream it has opened itself -/
  stream : Option PeerId := none
  sessions : List PortSession := []
  seen : List SwarmEvent := []
  waited : List (PeerId × SwarmEvent) := []
  proceeded : List (Option PeerId × SwarmEvent) := []
  deriving DecidableEq, Repr, Inhabited

/-- What a label names. -/
inductive DialLabel where
  /-- a loop wakes up -/
  | wake (wake : Wake)
  /-- an operation that is not a loop comes back -/
  | event (event : DialEvent)
  | request (event : RequestEvent)
  /-- a connection on the forwarded port or the proxy port -/
  | accept
  | session (i : Nat) (event : PortEvent)
  deriving DecidableEq, Repr

/-- The relay that `connect_and_identify` is called for. -/
def DialTask.relay : DialTask → Option PeerId
  | .connectingJump firstJump _ => peerIdFromMultiaddr firstJump
  | .connectingRelay relayAddress _ _ => peerIdFromMultiaddr relayAddress
  | .connectingRendezvous relayAddress _ _ => peerIdFromMultiaddr relayAddress
  | _ => none

/-- The peer whose connection a loop waits for. -/
def SwarmTask.expected : SwarmTask → Option PeerId
  | .waitingPeer expected => some expected
  | .waitingMdns expected => some expected
  | .connectingMdns expected => some expected
  | .connectingRendezvous _ peer => some peer
  | _ => none

namespace DialRun

/-- Who is waited for: the relay, the rendezvous point, or the peer to connect to. -/
def party (state : DialRun) : Option PeerId :=
  match state.loop with
  | some (.dialingRelay _) => state.run.relay
  | some (.identifying _ _) => state.run.relay
  | some (.waitingRendezvous point) => some point
  | some task => task.expected
  | none => none

/-- The run goes on to the next wait. -/
def enter (nspace : String) (state : DialRun) (next : DialTask) : DialRun :=
  { state with
    run := next
    loop := (next.op nspace).bind SwarmTask.ofOp
    request :=
      match next with
      | .requestingReverse _ _ _ _ => some .opening
      | _ => none }

/-- The peer of the stream that an operation of the run itself has opened. -/
def opened (state : DialRun) (event : DialEvent) : Option PeerId :=
  match state.run, event with
  | .openingNetcat remote, .streamOpened (.ok ()) => some remote
  | .openingJump firstPeer _, .streamOpened (.ok ()) => some firstPeer
  | _, _ => state.stream

/-- An event is taken off the swarm, and leads on to `next`. -/
def record (state next : DialRun) (wake : Wake) : DialRun :=
  { next with
    seen := state.seen ++ wake.seen
    waited := state.waited ++
      (state.loop.bind SwarmTask.expected).toList.flatMap fun peer => wake.seen.map (peer, ·)
    proceeded := state.proceeded ++
      if next.run = state.run ∧ next.loop = state.loop then []
      else wake.seen.map (state.party, ·) }

/-- The session of a connection on the port that the run serves. -/
def accepted : DialTask → Option PortSession
  | .localForwarding remote _ target =>
      some { remotePeer := remote, task := .localForward target .opening }
  | .proxying remote _ => some { remotePeer := remote, task := .proxy .peeking }
  | _ => none

/-- One step. -/
def step (text : Libp2pText) (opt : DialOpt) (nspace : String) (state : DialRun) :
    DialLabel → Option DialRun
  | .wake wake =>
      match state.loop with
      | none => none
      | some task =>
          match task.turn wake with
          | none => none
          | some (.wait task) => some (state.record { state with loop := some task } wake)
          | some (.leave event) =>
              (state.run.resume text opt event).map fun next =>
                state.record (state.enter nspace next) wake
  | .event event =>
      if state.loop.isSome || state.request.isSome then none
      else
        (state.run.resume text opt event).map fun next =>
          { state.enter nspace next with stream := state.opened event }
  | .request event =>
      match state.request with
      | none => none
      | some task =>
          match task.resume event with
          | none => none
          | some (.ended result) =>
              (state.run.resume text opt (.done result)).map (state.enter nspace)
          | some task => some { state with request := some task }
  | .accept =>
      (accepted state.run).map fun session =>
        { state with sessions := state.sessions ++ [session] }
  | .session i event =>
      match state.sessions[i]? with
      | none => none
      | some session =>
          (session.task.resume event).map fun task =>
            { state with sessions := state.sessions.set i { session with task := task } }

/-- The machine of a call of `run_dial`. -/
def machine (text : Libp2pText) (opt : DialOpt) (nspace : String) :
    Machine DialRun DialLabel where
  start := {}
  step := step text opt nspace

/-- What a step of a run is. -/
inductive Move (text : Libp2pText) (opt : DialOpt) (nspace : String) (state : DialRun) :
    DialLabel → DialRun → Prop where
  | waited {wake : Wake} {task task' : SwarmTask} (hloop : state.loop = some task)
      (hturn : task.turn wake = some (.wait task')) :
      Move text opt nspace state (.wake wake) (state.record { state with loop := some task' } wake)
  | left {wake : Wake} {task : SwarmTask} {event : DialEvent} {run : DialTask}
      (hloop : state.loop = some task) (hturn : task.turn wake = some (.leave event))
      (hresume : state.run.resume text opt event = some run) :
      Move text opt nspace state (.wake wake) (state.record (state.enter nspace run) wake)
  | resumed {event : DialEvent} {run : DialTask} (hloop : state.loop = none)
      (hrequest : state.request = none) (hresume : state.run.resume text opt event = some run) :
      Move text opt nspace state (.event event)
        { state.enter nspace run with stream := state.opened event }
  | requesting {event : RequestEvent} {task task' : RequestTask}
      (hrequest : state.request = some task) (htask : task.resume event = some task') :
      Move text opt nspace state (.request event) { state with request := some task' }
  | requested {event : RequestEvent} {task : RequestTask} {result : Except Report Unit}
      {run : DialTask} (hrequest : state.request = some task)
      (htask : task.resume event = some (.ended result))
      (hresume : state.run.resume text opt (.done result) = some run) :
      Move text opt nspace state (.request event) (state.enter nspace run)
  | accepted {session : PortSession} (hsession : accepted state.run = some session) :
      Move text opt nspace state .accept { state with sessions := state.sessions ++ [session] }
  | session {i : Nat} {event : PortEvent} {session : PortSession} {task : PortTask}
      (hget : state.sessions[i]? = some session) (htask : session.task.resume event = some task) :
      Move text opt nspace state (.session i event)
        { state with sessions := state.sessions.set i { session with task := task } }

theorem move_of_step {text : Libp2pText} {opt : DialOpt} {nspace : String}
    {state next : DialRun} {label : DialLabel}
    (h : state.step text opt nspace label = some next) :
    state.Move text opt nspace label next := by
  cases label with
  | wake wake =>
      simp only [step] at h
      split at h
      · cases h
      · rename_i task hloop
        split at h
        · cases h
        · rename_i task' hturn
          obtain rfl := Option.some.inj h
          exact .waited hloop hturn
        · rename_i event hturn
          obtain ⟨run, hresume, rfl⟩ := Option.map_eq_some_iff.mp h
          exact .left hloop hturn hresume
  | event event =>
      simp only [step] at h
      split at h
      · cases h
      · rename_i hfree
        obtain ⟨run, hresume, rfl⟩ := Option.map_eq_some_iff.mp h
        simp only [Bool.or_eq_true, not_or, Option.not_isSome_iff_eq_none] at hfree
        exact .resumed hfree.1 hfree.2 hresume
  | request event =>
      simp only [step] at h
      split at h
      · cases h
      · rename_i task hrequest
        split at h
        · cases h
        · rename_i result htask
          obtain ⟨run, hresume, rfl⟩ := Option.map_eq_some_iff.mp h
          exact .requested hrequest htask hresume
        · rename_i task' _ htask
          obtain rfl := Option.some.inj h
          exact .requesting hrequest htask
  | accept =>
      obtain ⟨session, hsession, rfl⟩ := Option.map_eq_some_iff.mp h
      exact .accepted hsession
  | session i event =>
      simp only [step] at h
      split at h
      · cases h
      · rename_i session hget
        obtain ⟨task, htask, rfl⟩ := Option.map_eq_some_iff.mp h
        exact .session hget htask

/-! ## Who is talked to -/

/-- The operation on a tunnel stream that `run_dial` awaits itself. -/
def ownOp (nspace : String) (state : DialRun) : Option TunnelOp :=
  match state.run with
  | .requestingReverse remote bindPort target gatewayPorts =>
      match state.request.bind
        (RequestTask.op nspace remote (.reverseForward bindPort target gatewayPorts)) with
      | some (.openStream peer protocol) => some (.openStream peer protocol)
      | some (.writeTunnelRequest req) => some (.writeTunnelRequest remote req)
      | _ => none
  | run =>
      match run.op nspace with
      | some (.openStream peer protocol) => some (.openStream peer protocol)
      | some (.writeTunnelRequest req) => state.stream.map (.writeTunnelRequest · req)
      | _ => none

/-- Every operation on a tunnel stream that is awaited. -/
def tunnelOps (nspace : String) (state : DialRun) : List TunnelOp :=
  (state.ownOp nspace).toList ++
    state.sessions.filterMap fun session => session.task.tunnelOp nspace session.remotePeer

end DialRun

end Sape
