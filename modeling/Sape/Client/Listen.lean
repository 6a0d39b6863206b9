/-
  Client/Listen.lean --- `src/client/listen.rs`: the accept loop of `run_listen` and
  the task it spawns for every incoming stream.

  As in `Relay.lean`, `StreamTask` has one constructor for each await of the spawned
  task, `StreamTask.op` is the awaited operation, and `StreamTask.resume` the code
  from there to the next await.
-/
import Sape.Forward.Reverse

set_option autoImplicit false

namespace Sape

/-- `struct ListenOpt`, as far as the accept loop looks at it. -/
structure ListenOpt where
  allowedPeers : List PeerId := []
  deriving DecidableEq, Repr, Inhabited

/-- The operations of a listener: those of the tasks of its streams, of its reverse
accept loops, and of the connections these accept. -/
inductive ListenOp where
  /-- `read_tunnel_request(&mut stream)` -/
  | readTunnelRequest
  /-- `run_netcat(&mut stream)`: stdin and stdout -/
  | runNetcat
  /-- inside `handle_forward_to_target` -/
  | forward (op : ForwardOp)
  /-- `TcpListener::bind` -/
  | bind (addr : SocketAddr)
  /-- `send_reverse_ack(&mut stream, ack_result)` -/
  | sendReverseAck (result : Except String Unit)
  /-- `listener.accept()` -/
  | accept (addr : SocketAddr)
  /-- inside the task of an accepted connection -/
  | inbound (op : InboundOp)
  deriving DecidableEq, Repr, Inhabited

/-- The peer that an operation opens a stream to. -/
def ListenOp.toward : ListenOp → Option PeerId
  | .inbound (.openStream peer _) => some peer
  | _ => none

/-- Where the task of an incoming stream is. -/
inductive StreamTask where
  /-- before its first poll -/
  | spawned
  /-- it returned at the allowlist -/
  | rejected
  | reading
  | netcat
  | forwarding (task : ForwardTask)
  | binding (bindPort : UInt16) (target : String) (gatewayPorts : Bool)
  | acking (result : Except String Unit)
  | ended
  deriving DecidableEq, Repr, Inhabited

/-- What an awaited operation came back with. -/
inductive StreamEvent where
  /-- the first poll -/
  | polled
  | requestRead (result : Except IoError TunnelRequest)
  | netcatDone (result : Except IoError Unit)
  | forward (event : ForwardEvent)
  | bound (result : Except String Unit)
  | ackSent (result : Except IoError Unit)
  deriving DecidableEq, Repr, Inhabited

/-- Whether the operation behind an event neither bound a socket nor wrote an ack. -/
def StreamEvent.quiet : StreamEvent → Bool
  | .bound (.ok ()) => false
  | .ackSent _ => false
  | _ => true

namespace StreamTask

/-- The awaited operation. -/
def op : StreamTask → Option ListenOp
  | .spawned => none
  | .rejected => none
  | .reading => some .readTunnelRequest
  | .netcat => some .runNetcat
  | .forwarding task => task.op.map .forward
  | .binding bindPort _ gatewayPorts => some (.bind (reverseBindAddr bindPort gatewayPorts))
  | .acking result => some (.sendReverseAck result)
  | .ended => none

/-- From the first poll to the next await: the allowlist. -/
def afterPoll (allowedPeers : List PeerId) (peer : PeerId) : StreamTask :=
  if !allowedPeers.isEmpty && !allowedPeers.contains peer then .rejected else .reading

/-- From the decoded request to the next await. -/
def afterRequest : TunnelRequest → StreamTask
  | .netcat => .netcat
  | .localForward target => .forwarding (.start target)
  | .reverseForward bindPort target gatewayPorts => .binding bindPort target gatewayPorts

/-- The code between the await a task is suspended on and the next one. -/
def resume (allowedPeers : List PeerId) (peer : PeerId) :
    StreamTask → StreamEvent → Option StreamTask
  | .spawned, .polled => some (afterPoll allowedPeers peer)
  | .reading, .requestRead (.ok req) => some (afterRequest req)
  | .reading, .requestRead (.error _) => some .ended
  | .netcat, .netcatDone _ => some .ended
  | .forwarding task, .forward event => (task.resume event).map .forwarding
  | .binding _ _ _, .bound (.ok ()) => some (.acking (.ok ()))
  | .binding bindPort _ gatewayPorts, .bound (.error err) =>
      some (.acking (.error (bindError (reverseBindAddr bindPort gatewayPorts) err)))
  | .acking _, .ackSent _ => some .ended
  | _, _ => none

/-- The allowlist admits a peer when it is empty or lists the peer. -/
def Admits (allowedPeers : List PeerId) (peer : PeerId) : Prop :=
  allowedPeers = [] ∨ peer ∈ allowedPeers

/-- The first poll gets to the read exactly for the peers that the allowlist admits. -/
theorem afterPoll_cases (allowedPeers : List PeerId) (peer : PeerId) :
    (Admits allowedPeers peer ∧ afterPoll allowedPeers peer = .reading) ∨
      (¬ Admits allowedPeers peer ∧ afterPoll allowedPeers peer = .rejected) := by
  unfold afterPoll Admits
  cases allowedPeers with
  | nil => exact .inl ⟨.inl rfl, rfl⟩
  | cons first others =>
      by_cases hmem : peer ∈ first :: others
      · have hcontains : (first :: others).contains peer = true := List.contains_iff_mem.mpr hmem
        refine .inl ⟨.inr hmem, ?_⟩
        simp only [List.isEmpty_cons, hcontains, Bool.not_false, Bool.not_true, Bool.and_false,
          Bool.false_eq_true, if_false]
      · refine .inr ⟨fun h => h.elim (fun h => (by cases h)) hmem, ?_⟩
        have hcontains : (first :: others).contains peer = false :=
          Bool.eq_false_iff.mpr fun h => hmem (List.contains_iff_mem.mp h)
        simp only [List.isEmpty_cons, hcontains, Bool.not_false, Bool.and_self, if_true]

/-- Whether a task has got past the allowlist. -/
def admitted : StreamTask → Bool
  | .spawned => false
  | .rejected => false
  | _ => true

theorem admitted_of_op {task : StreamTask} {op : ListenOp} (h : task.op = some op) :
    task.admitted = true := by
  cases task with
  | spawned => cases h
  | rejected => cases h
  | _ => rfl

theorem toward_of_op {task : StreamTask} {op : ListenOp} (h : task.op = some op) :
    op.toward = none := by
  cases task with
  | forwarding task =>
      obtain ⟨forwardOp, -, rfl⟩ := Option.map_eq_some_iff.mp h
      rfl
  | spawned => cases h
  | rejected => cases h
  | ended => cases h
  | _ =>
      obtain rfl := Option.some.inj h
      rfl

theorem resume_cases {allowedPeers : List PeerId} {peer : PeerId} {task next : StreamTask}
    {event : StreamEvent} (h : task.resume allowedPeers peer event = some next) :
    (task = .spawned ∧ event = .polled ∧ next = afterPoll allowedPeers peer) ∨
    (∃ req, task = .reading ∧ event = .requestRead (.ok req) ∧ next = afterRequest req) ∨
    (∃ bindPort target gatewayPorts, task = .binding bindPort target gatewayPorts ∧
      ((event = .bound (.ok ()) ∧ next = .acking (.ok ())) ∨
        ∃ err reason, event = .bound (.error err) ∧ next = .acking (.error reason))) ∨
    (∃ forward forward', task = .forwarding forward ∧ event.quiet = true ∧
      next = .forwarding forward') ∨
    ((∃ result, task = .acking result) ∧ (∃ sent, event = .ackSent sent) ∧ next = .ended) ∨
    ((task = .reading ∨ task = .netcat) ∧ event.quiet = true ∧ next = .ended) := by
  cases task with
  | spawned =>
      cases event with
      | polled => exact .inl ⟨rfl, rfl, (Option.some.inj h).symm⟩
      | _ => cases h
  | rejected => cases event <;> cases h
  | reading =>
      cases event with
      | requestRead result =>
          cases result with
          | ok req => exact .inr (.inl ⟨req, rfl, rfl, (Option.some.inj h).symm⟩)
          | error err =>
              exact .inr (.inr (.inr (.inr (.inr ⟨.inl rfl, rfl, (Option.some.inj h).symm⟩))))
      | _ => cases h
  | netcat =>
      cases event with
      | netcatDone result =>
          exact .inr (.inr (.inr (.inr (.inr ⟨.inr rfl, rfl, (Option.some.inj h).symm⟩))))
      | _ => cases h
  | forwarding forward =>
      cases event with
      | forward event =>
          obtain ⟨forward', -, rfl⟩ := Option.map_eq_some_iff.mp h
          exact .inr (.inr (.inr (.inl ⟨forward, forward', rfl, rfl, rfl⟩)))
      | _ => cases h
  | binding bindPort target gatewayPorts =>
      cases event with
      | bound result =>
          refine .inr (.inr (.inl ⟨bindPort, target, gatewayPorts, rfl, ?_⟩))
          cases result with
          | ok done => exact .inl ⟨rfl, (Option.some.inj h).symm⟩
          | error err => exact .inr ⟨err, _, rfl, (Option.some.inj h).symm⟩
      | _ => cases h
  | acking result =>
      cases event with
      | ackSent sent =>
          exact .inr (.inr (.inr (.inr (.inl
            ⟨⟨result, rfl⟩, ⟨sent, rfl⟩, (Option.some.inj h).symm⟩))))
      | _ => cases h
  | ended => cases event <;> cases h

end StreamTask

end Sape
