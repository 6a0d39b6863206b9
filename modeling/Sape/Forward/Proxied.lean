/-
  Forward/Proxied.lean --- a proxied connection from end to end: the client of the proxy port,
  its session on the dialer (`run_socks5`, `handle_socks5_client`, `handle_http_connect`), the
  tunnel stream, and the listener's connection to the target.

  The client first says where to, and is told that it is connected.  What is behind that is a
  forwarded connection: the session opens a stream, writes the same request as with `-L`, and
  copies, and the listener does with the stream what it does with any other.  The dialer's
  session is `ProxyTask`; everything else is `Bridge`, as in `Forward/Bridge.lean`.

  THE HANDSHAKE.  `handle_http_connect` reads through a `BufReader`: it asks for more exactly
  while it needs more (`HeadRead`), and what it has asked for is gone with it, with what was
  behind the head (`overRead`).  How many bytes the SOCKS5 crate takes and sends in either of
  its calls is up to the labels, and so is what its reply consists of.

  `Proxied.behind` is the forwarded connection behind the handshake, and behind what was lost
  with it; `Proxied.connection` is what the client and the target see behind the handshake
  alone.  `Proxied.named` records what the client has named; no step depends on it.

  `Forward/Handshake.lean` is about the runs up to the choice of a target,
  `Forward/Handover.lean` about the steps from there on, and `Forward/Passage.lean` about what
  the two ends can still do.
-/
import Sape.Foundation.Behind
import Sape.Forward.Session
import Sape.Forward.Transparency

set_option autoImplicit false

namespace Sape.Proxy

open Sape.Foundation

/-! ## Reading a head -/

/-- Whether the loop over the headers needs more than it has. -/
def headersMissing : Nat → BufReader UInt8 → Bool
  | 0, _ => true
  | fuel + 1, reader =>
      if reader.rest.contains newline then
        match readLine reader with
        | (.error _, _) => false
        | (.ok line, next) => if isBlank line then false else headersMissing fuel next
      else true

/-- Whether the block that reads the request line and the headers does. -/
def headMissing (reader : BufReader UInt8) : Bool :=
  if reader.rest.contains newline then
    match readLine reader with
    | (.error _, _) => false
    | (.ok firstLine, next) =>
        match connectTarget firstLine with
        | none => false
        | some _ => headersMissing (next.rest.length + 1) next
  else true

/-- What the reads of a head return: what is there, at most what a `BufReader` has room for,
until the head is complete or the client has no more. -/
structure HeadRead (client : Conduit UInt8) (reads : List Bytes) : Prop where
  pieces : ∀ piece ∈ reads, piece ≠ [] ∧ piece.length ≤ bufReaderCapacity
  there : reads.flatten <+: client.unread
  needed : reads ≠ [] → headMissing { pending := reads.dropLast } = true
  enough : headMissing { pending := reads } = false ∨
    (client.closed = true ∧ reads.flatten = client.unread)

instance (client : Conduit UInt8) (reads : List Bytes) : Decidable (HeadRead client reads) :=
  decidable_of_iff
    ((∀ piece ∈ reads, piece ≠ [] ∧ piece.length ≤ bufReaderCapacity) ∧
      reads.flatten <+: client.unread ∧
      (reads ≠ [] → headMissing { pending := reads.dropLast } = true) ∧
      (headMissing { pending := reads } = false ∨
        (client.closed = true ∧ reads.flatten = client.unread)))
    ⟨fun h => ⟨h.1, h.2.1, h.2.2.1, h.2.2.2⟩, fun h => ⟨h.pieces, h.there, h.needed, h.enough⟩⟩

/-- How much of what the reads of a head returned is behind the head, and gone with the
reader. -/
def overRead (reads : List Bytes) : Nat :=
  match readHead { pending := reads } with
  | .ok (_, reader) => reader.rest.length
  | .error _ => 0

theorem readLine_rest_le {reader next : BufReader UInt8} {result : Except IoError String}
    (h : readLine reader = (result, next)) : next.rest.length ≤ reader.rest.length := by
  have hnext : next = (reader.readUntil newline).2 := by
    have hsnd := congrArg Prod.snd h
    simp only [readLine] at hsnd
    split at hsnd
    · exact hsnd.symm
    · exact hsnd.symm
  have hrest := congrArg List.length (readUntil_rest newline reader.buffer reader.pending)
  rw [List.length_append] at hrest
  rw [hnext]
  exact Nat.le_trans (Nat.le_add_left _ _) (Nat.le_of_eq hrest)

theorem skipHeadersFuel_rest_le (fuel : Nat) :
    ∀ {reader next : BufReader UInt8}, skipHeadersFuel fuel reader = .ok next →
      next.rest.length ≤ reader.rest.length := by
  induction fuel with
  | zero =>
      intro reader next h
      rw [← Except.ok.inj h]
  | succ fuel ih =>
      intro reader next h
      simp only [skipHeadersFuel] at h
      split at h
      · cases h
      · rename_i line mid hline
        have hle := readLine_rest_le hline
        split at h
        · rw [← Except.ok.inj h]
          exact hle
        · exact Nat.le_trans (ih h) hle

theorem overRead_le (reads : List Bytes) : overRead reads ≤ reads.flatten.length := by
  unfold overRead
  split
  · rename_i target reader hread
    simp only [readHead] at hread
    split at hread
    · cases hread
    · rename_i firstLine mid hline
      have hle := readLine_rest_le hline
      split at hread
      · cases hread
      · split at hread
        · cases hread
        · rename_i final hskip
          obtain ⟨-, rfl⟩ := Prod.mk.inj (Except.ok.inj hread)
          exact Nat.le_trans (skipHeadersFuel_rest_le _ hskip) hle
  · exact Nat.zero_le _

/-! ## States -/

/-- Where the task of a forwarded connection would be. -/
def ProxyTask.origin : ProxyTask → InboundTask
  | .writing _ _ => .writing
  | .replying _ _ => .copying
  | .copying _ _ => .copying
  | .ended _ => .ended
  | _ => .opening

/-- The target that a session is about to open a stream for. -/
def ProxyTask.target : ProxyTask → Option String
  | .opening _ target => some target
  | _ => none

/-- The bytes of a reply, as far as they are the code's own. -/
def ProxyReply.bytes : ProxyReply → Option Bytes
  | .success .httpConnect =>
      some (Postcard.utf8Bytes "HTTP/1.1 200 Connection established\r\n\r\n")
  | .success .socks5 => none
  | .badRequest => some (Postcard.utf8Bytes "HTTP/1.1 400 Bad Request\r\n\r\n")

/-- A proxied connection. -/
structure Proxied where
  task : ProxyTask := .peeking
  /-- how much of what the client has sent was its part of the handshake -/
  head : Nat := 0
  /-- how much behind that was lost with the reader of the head -/
  lost : Nat := 0
  /-- how much the client was sent in replies -/
  replied : Nat := 0
  /-- the target that the client has named, in its command or on its request line -/
  named : Option String := none
  /-- the target that the session goes for -/
  chosen : Option String := none
  /-- the client's connection, and everything behind the session -/
  tunnel : Bridge := {}
  deriving DecidableEq, Repr

/-- What a label of a proxied connection names. -/
inductive ProxiedLabel where
  /-- an act of the client -/
  | client (action : ConduitAct UInt8)
  | peek (result : Except IoError UInt8)
  /-- `accept_no_auth`, which takes `count` bytes and sends `reply` -/
  | greet (result : Except String Unit) (count : Nat) (reply : Bytes)
  /-- `read_command` -/
  | command (result : Except String (Socks5Command × String)) (count : Nat) (reply : Bytes)
  /-- the request line and the headers -/
  | head (reads : List Bytes)
  | headFail (err : IoError) (count : Nat)
  /-- a reply of the code, of these bytes -/
  | reply (bytes : Bytes) (outcome : Outcome)
  /-- the stream is opened, or its request written -/
  | origin (outcome : Outcome)
  | nearCopy (way : Way) (move : SpliceMove)
  /-- `tunnel_copy` returns -/
  | nearDone
  | nearFail (err : IoError)
  /-- the dialer's process exits -/
  | nearExit
  /-- a step of the listener, or of the target -/
  | far (label : BridgeLabel)
  deriving DecidableEq, Repr

/-- The target that a label has the client name. -/
def ProxiedLabel.names : ProxiedLabel → Option String
  | .command result _ _ => result.toOption.map Prod.snd
  | .head reads => ((readHead { pending := reads }).map Prod.fst).toOption
  | _ => none

/-- Whether a step of a forwarded connection is the connecting side's, or the target's. -/
def farLabel : BridgeLabel → Bool
  | .target _ => true
  | .poll => true
  | .read _ => true
  | .connect _ => true
  | .farCopy _ _ => true
  | .farDone => true
  | .farFail _ => true
  | .farExit => true
  | _ => false

namespace Proxied

/-! ## Steps -/

/-- The client's connection. -/
abbrev client (session : Proxied) : Duplex UInt8 := session.tunnel.client

/-- What the handshake takes, what is lost with it, and what it sends. -/
def exchange (session : Proxied) (count lost : Nat) (reply : Bytes) : Proxied :=
  { session with
    head := session.head + count
    lost := session.lost + lost
    replied := session.replied + reply.length
    tunnel := { session.tunnel with
      client :=
        { forth := session.client.forth.skip (count + lost)
          back := session.client.back.put reply } } }

/-- The session goes on; where it returns, it drops what it holds. -/
def taskTo (session : Proxied) (event : ProxyEvent) : Option Proxied :=
  (session.task.resume event).map fun task =>
    if task.isEnded then
      { session with
        task := task
        tunnel := { session.tunnel with
          origin := .ended
          client := session.tunnel.client.drop
          stream := session.tunnel.stream.drop } }
    else
      { session with
        task := task
        chosen := task.target.or session.chosen
        tunnel := { session.tunnel with origin := task.origin } }

/-- `socket.peek`; nothing is there at the end of what the client sends. -/
def peekStep (session : Proxied) (result : Except IoError UInt8) : Option Proxied :=
  match result with
  | .ok byte =>
      if session.client.forth.unread.head? = some byte ∨
          (byte = 0 ∧ session.client.forth.closed = true ∧ session.client.forth.unread = []) then
        session.taskTo (.peeked (.ok byte))
      else none
  | .error err => session.taskTo (.peeked (.error err))

/-- A call of the SOCKS5 crate, or a read of a head that fails. -/
def handshakeStep (session : Proxied) (event : ProxyEvent) (count lost : Nat) (reply : Bytes) :
    Option Proxied :=
  if session.task.handshaking = true ∧ count + lost ≤ session.client.forth.unread.length then
    (session.exchange count lost reply).taskTo event
  else none

/-- The reply that a session is about to send. -/
def sending (session : Proxied) : Option ProxyReply :=
  match session.task with
  | .refusing _ => some .badRequest
  | .replying kind _ => some (.success kind)
  | _ => none

/-- `write_all` of a reply, or `reply_success`. -/
def replyStep (session : Proxied) (bytes : Bytes) (outcome : Outcome) : Option Proxied :=
  match session.sending with
  | none => none
  | some reply =>
      if reply.bytes = none ∨ reply.bytes = some bytes then
        match writeStep (.ok bytes) (pipeOf session.client.back) outcome with
        | none => none
        | some (done, pipe) =>
            (session.exchange 0 0 (pipe.sent.drop session.client.back.sent.length)).taskTo
              (.replied done)
      else none

/-- The stream is opened, or its request written. -/
def originStep (session : Proxied) (outcome : Outcome) : Option Proxied :=
  match session.task with
  | .opening _ _ =>
      match outcome with
      | .proceed =>
          if session.tunnel.far = .absent then
            { session with tunnel := { session.tunnel with far := .queued } }.taskTo
              (.streamOpened (.ok ()))
          else none
      | .refused err => session.taskTo (.streamOpened (.error err))
      | _ => none
  | .writing _ target =>
      match writeStep (writeTunnelRequest (.localForward target))
          (pipeOf session.tunnel.stream.forth) outcome with
      | none => none
      | some (done, pipe) =>
          { session with
            tunnel := { session.tunnel with
              stream := { session.tunnel.stream with
                forth := withPipe session.tunnel.stream.forth pipe } } }.taskTo
            (.requestWritten done)
  | _ => none

/-- Whether the session is in its `tunnel_copy`. -/
def copies (session : Proxied) : Bool :=
  match session.task with
  | .copying _ _ => true
  | _ => false

/-- `tunnel_copy` has passed both ends on. -/
def nearDoneStep (session : Proxied) : Option Proxied :=
  if session.tunnel.nearCopy.forth.done = true ∧ session.tunnel.nearCopy.back.done = true then
    (session.task.resume (.copied (.ok ()))).map fun task =>
      { session with task := task, tunnel := { session.tunnel with origin := task.origin } }
  else none

/-- The mode of the forwarded connection behind a session. -/
abbrev mode (dialer : PeerId) (allowedPeers : List PeerId) (session : Proxied) : BridgeMode :=
  .localForward dialer allowedPeers (session.chosen.getD "")

/-- One step. -/
def step (dialer : PeerId) (allowedPeers : List PeerId) (session : Proxied) :
    ProxiedLabel → Option Proxied
  | .client action =>
      (session.tunnel.client.act .near action).map fun client =>
        { session with tunnel := { session.tunnel with client := client } }
  | .peek result => session.peekStep result
  | .greet result count reply => session.handshakeStep (.greeted result) count 0 reply
  | .command result count reply =>
      { session with named := (result.toOption.map Prod.snd).or session.named }.handshakeStep
        (.commandRead result) count 0 reply
  | .head reads =>
      if HeadRead session.client.forth reads then
        let result := (readHead { pending := reads }).map Prod.fst
        { session with named := result.toOption.or session.named }.handshakeStep
          (.headRead result) (reads.flatten.length - overRead reads) (overRead reads) []
      else none
  | .headFail err count => session.handshakeStep (.headRead (.error (.io err))) count 0 []
  | .reply bytes outcome => session.replyStep bytes outcome
  | .origin outcome => session.originStep outcome
  | .nearCopy way move =>
      if session.copies then
        (session.tunnel.nearCopyStep way move).map fun tunnel => { session with tunnel := tunnel }
      else none
  | .nearDone => session.nearDoneStep
  | .nearFail err => session.taskTo (.copied (.error err))
  | .nearExit =>
      some { session with
        task := .ended (.ok ())
        tunnel := { session.tunnel with
          origin := .ended
          client := session.tunnel.client.drop
          stream := session.tunnel.stream.drop } }
  | .far label =>
      if farLabel label then
        (session.tunnel.step (session.mode dialer allowedPeers) label).map fun tunnel =>
          { session with tunnel := tunnel }
      else none

/-- The machine of a connection that the proxy port has just accepted. -/
def machine (dialer : PeerId) (allowedPeers : List PeerId) : Machine Proxied ProxiedLabel where
  start := {}
  step := step dialer allowedPeers

/-- How much of what the client has sent is not there any more behind the handshake. -/
abbrev taken (session : Proxied) : Nat := session.head + session.lost

/-- The forwarded connection behind the handshake, and behind what was lost with it. -/
def behind (session : Proxied) : Bridge :=
  { session.tunnel with
    client := session.tunnel.client.behind session.taken session.replied }

/-- The connection between the client and the target, behind the handshake. -/
def connection (session : Proxied) : Duplex UInt8 :=
  { session.tunnel with
    client := session.tunnel.client.behind session.head session.replied }.connection

/-- Where nothing was lost, they are behind the handshake as far as either can see. -/
theorem connection_of_lost {session : Proxied} (h : session.lost = 0) :
    session.connection = session.behind.connection := by
  rw [connection, behind, taken, h, Nat.add_zero]

end Proxied

end Sape.Proxy
