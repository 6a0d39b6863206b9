/-
  Forward/Session.lean --- `src/forward/socks5.rs`: a session of the proxy port, from the
  first byte of its client to the end of the bridge.

  As in `Relay.lean`, `ProxyTask` has one constructor for each await of the task that
  `run_socks5` spawns, `ProxyTask.op` is the awaited operation, and `ProxyTask.resume` the
  code from there to the next await.  The SOCKS5 handshake is the `fast_socks5` crate's:
  its two calls are operations with any result.

  WHAT IS PROVED.

      ended_of_connectEvents     the task returns what `handleHttpConnect` does
-/
import Sape.Forward.Reverse
import Sape.Forward.Socks5
import Sape.Foundation.Machine

set_option autoImplicit false

namespace Sape.Proxy

open Sape.Foundation

/-- The two protocols on the port. -/
inductive ProxyKind where
  | socks5
  | httpConnect
  deriving DecidableEq, Repr, Inhabited

/-- The name in the texts of its errors. -/
def ProxyKind.name : ProxyKind → String
  | .socks5 => "socks5"
  | .httpConnect => "http-connect"

/-- `Socks5Command`. -/
inductive Socks5Command where
  | tcpConnect
  | tcpBind
  | udpAssociate
  deriving DecidableEq, Repr, Inhabited

/-- The `Debug` text of a command. -/
def Socks5Command.text : Socks5Command → String
  | .tcpConnect => "TCPConnect"
  | .tcpBind => "TCPBind"
  | .udpAssociate => "UDPAssociate"

/-- The replies that the code sends to a client. -/
inductive ProxyReply where
  /-- `reply_success`, or `HTTP/1.1 200 Connection established` -/
  | success (kind : ProxyKind)
  /-- `HTTP/1.1 400 Bad Request` -/
  | badRequest
  deriving DecidableEq, Repr, Inhabited

/-- The operations a session awaits. -/
inductive ProxyOp where
  | peek
  | acceptNoAuth
  | readCommand
  | readHead
  | reply (reply : ProxyReply)
  | openStream (peer : PeerId) (protocol : StreamProtocol)
  | writeTunnelRequest (req : TunnelRequest)
  | tunnelCopy
  deriving DecidableEq, Repr, Inhabited

/-- Where a session is suspended. -/
inductive ProxyTask where
  | peeking
  | greeting
  | readingCommand
  | readingHead
  | refusing (firstLine : String)
  | opening (kind : ProxyKind) (target : String)
  | writing (kind : ProxyKind) (target : String)
  | replying (kind : ProxyKind) (target : String)
  | copying (kind : ProxyKind) (target : String)
  | ended (result : Except Report Unit)
  deriving DecidableEq, Repr, Inhabited

/-- What an awaited operation came back with. -/
inductive ProxyEvent where
  | peeked (result : Except IoError UInt8)
  | greeted (result : Except String Unit)
  | commandRead (result : Except String (Socks5Command × String))
  | headRead (result : Except HeadError String)
  | replied (result : Except IoError Unit)
  | streamOpened (result : Except String Unit)
  | requestWritten (result : Except IoError Unit)
  | copied (result : Except IoError Unit)
  deriving DecidableEq, Repr

namespace ProxyTask

/-- The awaited operation, given the peer that the proxy forwards to. -/
def op (nspace : String) (remotePeer : PeerId) : ProxyTask → Option ProxyOp
  | .peeking => some .peek
  | .greeting => some .acceptNoAuth
  | .readingCommand => some .readCommand
  | .readingHead => some .readHead
  | .refusing _ => some (.reply .badRequest)
  | .opening _ _ => some (.openStream remotePeer (tunnelProtocol nspace))
  | .writing _ target => some (.writeTunnelRequest (.localForward target))
  | .replying kind _ => some (.reply (.success kind))
  | .copying _ _ => some .tunnelCopy
  | .ended _ => none

/-- From the first byte to the next await. -/
def afterPeek (byte : UInt8) : ProxyTask :=
  if byte = 0x05 then .greeting
  else if byte = 67 then .readingHead
  -- "unknown proxy protocol, expected SOCKS5 or HTTP CONNECT"
  else .ended (.ok ())

/-- From the SOCKS5 command to the next await. -/
def afterCommand (cmd : Socks5Command) (target : String) : ProxyTask :=
  if cmd = .tcpConnect then .opening .socks5 target
  else .ended (.error (.msg s!"SOCKS5: only CONNECT supported, got {cmd.text}"))

/-- The code between the await a session is suspended on and the next one. -/
def resume : ProxyTask → ProxyEvent → Option ProxyTask
  | .peeking, .peeked (.ok byte) => some (afterPeek byte)
  | .peeking, .peeked (.error err) => some (.ended (.error (.io err)))
  | .greeting, .greeted (.ok ()) => some .readingCommand
  | .greeting, .greeted (.error err) => some (.ended (.error (.msg err)))
  | .readingCommand, .commandRead (.ok (cmd, target)) => some (afterCommand cmd target)
  | .readingCommand, .commandRead (.error err) => some (.ended (.error (.msg err)))
  | .readingHead, .headRead (.ok target) => some (.opening .httpConnect target)
  | .readingHead, .headRead (.error (.io err)) => some (.ended (.error (.io err)))
  | .readingHead, .headRead (.error (.badRequest firstLine)) => some (.refusing firstLine)
  | .refusing firstLine, .replied (.ok ()) =>
      some (.ended (.error (.msg s!"invalid HTTP CONNECT request: {firstLine}")))
  | .refusing _, .replied (.error err) => some (.ended (.error (.io err)))
  | .opening kind target, .streamOpened (.ok ()) => some (.writing kind target)
  | .opening kind _, .streamOpened (.error err) =>
      some (.ended (.error (.wrap s!"p2p tunnel broken, cannot open stream for {kind.name}"
        (.io (.transport err)))))
  | .writing kind target, .requestWritten (.ok ()) => some (.replying kind target)
  | .writing kind _, .requestWritten (.error err) =>
      some (.ended (.error (.wrap s!"failed to send {kind.name} tunnel request" (.io err))))
  | .replying kind target, .replied (.ok ()) => some (.copying kind target)
  | .replying _ _, .replied (.error err) => some (.ended (.error (.io err)))
  | .copying _ _, .copied (.ok ()) => some (.ended (.ok ()))
  | .copying _ _, .copied (.error err) => some (.ended (.error (.io err)))
  | _, _ => none

/-- Whether a session has returned. -/
def isEnded : ProxyTask → Bool
  | .ended _ => true
  | _ => false

/-- Whether a session is still in the handshake with its client. -/
def handshaking : ProxyTask → Bool
  | .peeking | .greeting | .readingCommand | .readingHead | .refusing _ => true
  | _ => false

end ProxyTask

/-- What the block that reads the request line and the headers returns. -/
def headOf (segments : List Bytes) : Except HeadError String :=
  (readHead { pending := readsOf segments }).map Prod.fst

/-! ## A session as one call -/

/-- The machine of a session by itself: what its operations come back with is up to the
labels. -/
def ProxyTask.machine : Machine ProxyTask ProxyEvent where
  start := .peeking
  step := ProxyTask.resume

/-- What an HTTP CONNECT session meets where its client takes the replies and the copy comes to
its end. -/
def connectEvents (opened : Except String Unit) (segments : List Bytes) : List ProxyEvent :=
  .headRead (headOf segments) ::
    match headOf segments with
    | .error (.io _) => []
    | .error (.badRequest _) => [.replied (.ok ())]
    | .ok target =>
        .streamOpened opened ::
          match opened with
          | .error _ => []
          | .ok () =>
              match writeTunnelRequest (.localForward target) with
              | .error err => [.requestWritten (.error err)]
              | .ok _ => [.requestWritten (.ok ()), .replied (.ok ()), .copied (.ok ())]

/-- A session over HTTP CONNECT, await by await, returns what `handle_http_connect` returns as one
call. -/
theorem ended_of_connectEvents (opened : Except String Unit) (segments : List Bytes) :
    ProxyTask.machine.exec .readingHead (connectEvents opened segments) =
      some (.ended (handleHttpConnect opened segments).result) := by
  unfold connectEvents handleHttpConnect headOf
  cases readHead { pending := readsOf segments } with
  | error err =>
      cases err with
      | io err => rfl
      | badRequest firstLine => rfl
  | ok found =>
      cases opened with
      | error err => rfl
      | ok done =>
          simp only [Except.map]
          cases writeTunnelRequest (.localForward found.1) with
          | error err => rfl
          | ok frame => rfl

end Sape.Proxy
