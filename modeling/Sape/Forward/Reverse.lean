/-
  Forward/Reverse.lean --- `src/forward/reverse.rs` and the ack of
  `src/forward/mod.rs`: reverse forwarding, on both sides.

  On the listener, `start_reverse_listener` binds a port and leaves an accept loop
  behind; every connection it accepts gets a task of its own (`InboundTask`) that
  opens a stream back to the peer.  On the dialer, `run_incoming_reverse_handler`
  reads the request of each incoming stream and spawns a `handle_forward_to_target`
  for it (`Forward/Local.lean`).
-/
import Sape.Forward.Local
import Sape.Protocol
import Sape.Tunnel

set_option autoImplicit false

namespace Sape

open Sape.Foundation

/-! ## The bound port -/

/-- `SocketAddr::new(Ipv4Addr, port)`. -/
@[ext] structure SocketAddr where
  ip : UInt32
  port : UInt16
  deriving DecidableEq, Repr, Inhabited

/-- `Ipv4Addr::UNSPECIFIED`. -/
def ipv4Unspecified : UInt32 := 0
/-- `Ipv4Addr::LOCALHOST`. -/
def ipv4Localhost : UInt32 := 0x7f000001

/-- The text of a socket address. -/
def SocketAddr.text (addr : SocketAddr) : String :=
  let ip := addr.ip.toNat
  s!"{ip / 2 ^ 24}.{ip / 2 ^ 16 % 2 ^ 8}.{ip / 2 ^ 8 % 2 ^ 8}.{ip % 2 ^ 8}:{addr.port.toNat}"

/-- `bind_addr` of `start_reverse_listener`. -/
def reverseBindAddr (bindPort : UInt16) (gatewayPorts : Bool) : SocketAddr :=
  { ip := if gatewayPorts then ipv4Unspecified else ipv4Localhost, port := bindPort }

theorem reverseBindAddr_unspecified (bindPort : UInt16) (gatewayPorts : Bool) :
    (reverseBindAddr bindPort gatewayPorts).ip = ipv4Unspecified ↔ gatewayPorts = true := by
  cases gatewayPorts with
  | true => exact ⟨fun _ => rfl, fun _ => rfl⟩
  | false =>
      have hne : ipv4Localhost ≠ ipv4Unspecified := by decide
      exact ⟨fun h => absurd h hne, fun h => (by cases h)⟩

theorem reverseBindAddr_localhost (bindPort : UInt16) (gatewayPorts : Bool) :
    (reverseBindAddr bindPort gatewayPorts).ip = ipv4Localhost ↔ gatewayPorts = false := by
  cases gatewayPorts with
  | true =>
      have hne : ipv4Unspecified ≠ ipv4Localhost := by decide
      exact ⟨fun h => absurd h hne, fun h => (by cases h)⟩
  | false => exact ⟨fun _ => rfl, fun _ => rfl⟩

/-- The error of a bind that failed, as `format!("{err:#}")` prints it. -/
def bindError (addr : SocketAddr) (err : String) : String :=
  s!"failed to bind reverse forward on {addr.text}: {err}"

/-! ## The ack -/

/-- `u16::to_be_bytes`. -/
def toBeBytes16 (n : Nat) : Bytes := [UInt8.ofNat (n / 2 ^ 8), UInt8.ofNat n]

/-- `send_reverse_ack`: what it puts on the stream, and what it returns. -/
def sendReverseAck : Except String Unit → Bytes × Except IoError Unit
  | .ok () => ([reverseOk], .ok ())
  | .error reason =>
      let bytes := Postcard.utf8Bytes reason
      if bytes.length < 2 ^ 16 then (reverseFailed :: (toBeBytes16 bytes.length ++ bytes), .ok ())
      else ([reverseFailed], .error (.invalidData "reverse error too long"))

/-- The first byte of an ack tells the two results apart. -/
theorem sendReverseAck_head (result : Except String Unit) :
    (sendReverseAck result).1.head? =
      some (if result = .ok () then reverseOk else reverseFailed) := by
  cases result with
  | ok done => rfl
  | error reason =>
      simp only [sendReverseAck, reduceCtorEq, if_false]
      split <;> rfl

/-! ## The request that binds a port -/

/-- The operations `request_reverse_forward` awaits. -/
inductive RequestOp where
  | openStream (peer : PeerId) (protocol : StreamProtocol)
  | writeTunnelRequest (req : TunnelRequest)
  /-- the ack, and the reason behind one that refuses -/
  | readReverseAck
  deriving DecidableEq, Repr, Inhabited

/-- Where `request_reverse_forward` is suspended. -/
inductive RequestTask where
  | opening
  | writing
  | readingAck
  | ended (result : Except Report Unit)
  deriving DecidableEq, Repr, Inhabited

/-- What an awaited operation came back with. -/
inductive RequestEvent where
  | streamOpened (result : Except String Unit)
  | requestWritten (result : Except IoError Unit)
  | ackRead (result : Except IoError (Except String Unit))
  deriving DecidableEq, Repr, Inhabited

namespace RequestTask

/-- The awaited operation, given the arguments of the call. -/
def op (nspace : String) (remotePeer : PeerId) (req : TunnelRequest) :
    RequestTask → Option RequestOp
  | .opening => some (.openStream remotePeer (tunnelProtocol nspace))
  | .writing => some (.writeTunnelRequest req)
  | .readingAck => some .readReverseAck
  | .ended _ => none

/-- The code between the await it is suspended on and the next one. -/
def resume : RequestTask → RequestEvent → Option RequestTask
  | .opening, .streamOpened (.ok ()) => some .writing
  | .opening, .streamOpened (.error err) =>
      some (.ended (.error (.wrap "failed to open p2p stream for reverse-forward request"
        (.io (.transport err)))))
  | .writing, .requestWritten (.ok ()) => some .readingAck
  | .writing, .requestWritten (.error err) =>
      some (.ended (.error (.wrap "failed to send reverse-forward request" (.io err))))
  | .readingAck, .ackRead (.ok (.ok ())) => some (.ended (.ok ()))
  | .readingAck, .ackRead (.ok (.error reason)) =>
      some (.ended (.error (.msg s!"reverse forward rejected by listener: {reason}")))
  | .readingAck, .ackRead (.error err) => some (.ended (.error (.io err)))
  | _, _ => none

end RequestTask

/-! ## A connection accepted on the bound port -/

/-- The operations the task of an accepted connection awaits. -/
inductive InboundOp where
  /-- `open_stream(control, remote_peer, protocol)` -/
  | openStream (peer : PeerId) (protocol : StreamProtocol)
  /-- `write_tunnel_request(&mut stream, &req)` -/
  | writeTunnelRequest (req : TunnelRequest)
  /-- `tunnel_copy` between the connection and the stream -/
  | tunnelCopy
  deriving DecidableEq, Repr, Inhabited

/-- Where the task of an accepted connection is suspended. -/
inductive InboundTask where
  | opening
  | writing
  | copying
  | ended
  deriving DecidableEq, Repr, Inhabited

/-- What an awaited operation came back with. -/
inductive InboundEvent where
  | streamOpened (result : Except String Unit)
  | requestWritten (result : Except IoError Unit)
  /-- the outcome of the copy is only logged -/
  | copied
  deriving DecidableEq, Repr, Inhabited

namespace InboundTask

/-- The request in front of a connection that goes back to the peer. -/
def request (target : String) : TunnelRequest := .reverseForward 0 target false

/-- The awaited operation, given what the accept loop has captured. -/
def op (nspace : String) (remotePeer : PeerId) (target : String) : InboundTask → Option InboundOp
  | .opening => some (.openStream remotePeer (tunnelProtocol nspace))
  | .writing => some (.writeTunnelRequest (request target))
  | .copying => some .tunnelCopy
  | .ended => none

/-- The code between the await a task is suspended on and the next one. -/
def resume : InboundTask → InboundEvent → Option InboundTask
  | .opening, .streamOpened (.ok ()) => some .writing
  | .opening, .streamOpened (.error _) => some .ended
  | .writing, .requestWritten (.ok ()) => some .copying
  | .writing, .requestWritten (.error _) => some .ended
  | .copying, .copied => some .ended
  | _, _ => none

end InboundTask

/-- The request in front of a returning connection is no longer than the request that
bound the port, and so passes every reader's bound that one passed. -/
theorem length_encode_request_le (bindPort : UInt16) (target : String) (gatewayPorts : Bool) :
    (TunnelRequest.postcard.encode (InboundTask.request target)).length ≤
      (TunnelRequest.postcard.encode (.reverseForward bindPort target gatewayPorts)).length := by
  have hport : (Postcard.u16.encode 0).length ≤ (Postcard.u16.encode bindPort).length :=
    Varint.length_encodeGroups_pos 2 bindPort.toNat
  have hflag : (Postcard.bool.encode false).length = (Postcard.bool.encode gatewayPorts).length :=
    rfl
  simp only [InboundTask.request, TunnelRequest.encode_reverseForward, List.length_cons,
    List.length_append]
  omega

/-- Behind a request that was accepted, the request in front of every returning connection
is written, and accepted by the reader it goes to. -/
theorem request_readable {stream rest : Bytes} {bindPort : UInt16} {target : String}
    {gatewayPorts : Bool}
    (hread : readTunnelRequest stream =
      (.ok (.reverseForward bindPort target gatewayPorts), rest)) :
    ∃ frame, writeTunnelRequest (InboundTask.request target) = .ok frame ∧
      ∀ following, readTunnelRequest (frame ++ following) =
        (.ok (InboundTask.request target), following) := by
  obtain ⟨-, hmax, -⟩ := Frame.read_ok hread
  have hle : (TunnelRequest.postcard.encode (InboundTask.request target)).length ≤
      TunnelRequest.frame.max :=
    Nat.le_trans (length_encode_request_le bindPort target gatewayPorts) hmax
  have hfits : TunnelRequest.postcard.Fits (InboundTask.request target) :=
    TunnelRequest.postcard_fits (Nat.lt_of_le_of_lt hle (by decide))
  obtain ⟨frame, hwrite, -, hback⟩ :=
    TunnelRequest.frame.exists_frame hfits hle (by decide)
  exact ⟨frame, hwrite, hback⟩

/-! ## What the dialer makes of an incoming stream -/

/-- The body of the loop of `run_incoming_reverse_handler`, behind the read: the task it
spawns, if any.  Neither the peer nor the target is looked at. -/
def dispatchIncoming : Except IoError TunnelRequest → Option ForwardTask
  | .ok (.reverseForward _ target _) => some (.start target)
  | .ok .netcat => none
  | .ok (.localForward _) => none
  | .error _ => none

theorem dispatchIncoming_eq_some {result : Except IoError TunnelRequest} {task : ForwardTask} :
    dispatchIncoming result = some task ↔
      ∃ bindPort target gatewayPorts,
        result = .ok (.reverseForward bindPort target gatewayPorts) ∧ task = .start target := by
  constructor
  · intro h
    cases result with
    | error err => cases h
    | ok req =>
        cases req with
        | netcat => cases h
        | localForward target => cases h
        | reverseForward bindPort target gatewayPorts =>
            exact ⟨bindPort, target, gatewayPorts, rfl, (Option.some.inj h).symm⟩
  · rintro ⟨bindPort, target, gatewayPorts, rfl, rfl⟩
    rfl

end Sape
