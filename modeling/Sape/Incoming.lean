/-
  Incoming.lean --- the streams that other peers open to us.

  `p2pstream::IncomingStreams` is a queue of streams, each with the peer that
  opened it; which peer that is, libp2p authenticates.  What the peer sends is
  outside our control and arrives whenever it arrives: a stream is given by
  everything its peer will ever send on it, together with how much of that is here.
-/
import Sape.Stream
import Sape.Tunnel
import Sape.Types

set_option autoImplicit false

namespace Sape

open Sape.Foundation

/-- A stream that a peer opened to us. -/
structure IncomingStream where
  peer : PeerId
  /-- all the peer will ever send on it -/
  content : Bytes
  /-- whether the peer closes its side behind that -/
  finishes : Bool := true
  /-- how much of it is here -/
  arrived : Nat := 0
  deriving DecidableEq, Repr, Inhabited

namespace IncomingStream

/-- What can be read. -/
def pipe (stream : IncomingStream) : Pipe := { sent := stream.content.take stream.arrived }

/-- Whether the end of the stream has been reached. -/
def finished (stream : IncomingStream) : Bool :=
  stream.finishes && decide (stream.content.length ≤ stream.arrived)

/-- More bytes arrive. -/
def deliver (stream : IncomingStream) (count : Nat) : IncomingStream :=
  { stream with arrived := stream.arrived + count }

@[simp] theorem deliver_peer (stream : IncomingStream) (count : Nat) :
    (stream.deliver count).peer = stream.peer := rfl

/-- The request that the stream begins with. -/
def request (stream : IncomingStream) : Except IoError TunnelRequest :=
  (readTunnelRequest stream.content).1

/-- `read_tunnel_request(&mut stream)`. -/
def readRequest (stream : IncomingStream) (outcome : Outcome) :
    Option (Except IoError TunnelRequest) :=
  (readStep readTunnelRequest stream.pipe stream.finished outcome).map Prod.fst

/-- A request that was read is the one the stream begins with, however the stream was
cut up on its way. -/
theorem request_of_readRequest {stream : IncomingStream} {outcome : Outcome}
    {req : TunnelRequest} (h : stream.readRequest outcome = some (.ok req)) :
    stream.request = .ok req := by
  simp only [readRequest, Option.map_eq_some_iff] at h
  obtain ⟨⟨result, next⟩, hstep, rfl⟩ := h
  obtain ⟨rest, hread, -⟩ := readStep_ok hstep
  have hlong := Frame.read_append hread (.inl ⟨req, rfl⟩) (stream.content.drop stream.arrived)
  rw [pipe, Pipe.unread, List.drop_zero, List.take_append_drop] at hlong
  exact congrArg Prod.fst hlong

/-- Once everything has arrived, the request is read. -/
theorem readRequest_of_arrived {stream : IncomingStream} {req : TunnelRequest}
    (hrequest : stream.request = .ok req) (harrived : stream.content.length ≤ stream.arrived) :
    stream.readRequest .proceed = some (.ok req) := by
  have hread : readTunnelRequest stream.content = (.ok req, (readTunnelRequest stream.content).2) :=
    Prod.ext hrequest rfl
  have hpipe : stream.pipe.sent = stream.content := List.take_of_length_le harrived
  obtain ⟨next, hframe⟩ : ∃ next, stream.pipe.readFrame readTunnelRequest = some (.ok req, next) :=
    Pipe.readFrame_of_ok rfl (hpipe.symm ▸ hread)
  simp only [readRequest, readStep, hframe, Option.map_some]

/-- All of a well-formed request is here. -/
def Delivered (stream : IncomingStream) (req : TunnelRequest) : Prop :=
  ∃ rest, readTunnelRequest stream.pipe.unread = (.ok req, rest)

/-- A request that is here is read. -/
theorem Delivered.readRequest {stream : IncomingStream} {req : TunnelRequest}
    (h : stream.Delivered req) : stream.readRequest .proceed = some (.ok req) := by
  obtain ⟨rest, hread⟩ := h
  have hframe := Pipe.readFrame_of_read hread (fun h => by cases h)
  simp only [IncomingStream.readRequest, readStep, hframe, Option.map_some]

/-- Whether the read of the request comes back with what is here: with a value, with an
error, or with the end of the stream. -/
def settled (stream : IncomingStream) : Bool :=
  (stream.readRequest .proceed).isSome || (stream.readRequest .eof).isSome

@[simp] theorem readRequest_broken (stream : IncomingStream) (cut : Nat) (err : IoError) :
    stream.readRequest (.broken cut err) = some (.error err) := rfl

end IncomingStream

end Sape
