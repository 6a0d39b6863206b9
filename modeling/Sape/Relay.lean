/-
  Relay.lean --- `src/relay.rs`: `handle_jump_request`, the task a relay runs for
  every incoming jump stream.

  An async function runs from one await to the next.  `JumpTask` has one
  constructor for each await of `handle_jump_request`, holding the locals that are
  still needed; `JumpTask.op` is the awaited operation and `JumpTask.resume` the
  code from there to the next await.  What an operation comes back with is a
  `JumpEvent`: the task itself decides nothing that the stream, the swarm or the
  other relays decide.

  A call that returns early (`?`, `bail!`) ends in `ended` with its report.
-/
import Sape.Jump
import Sape.Protocol
import Sape.Types

set_option autoImplicit false

namespace Sape

/-- The operations `handle_jump_request` awaits. -/
inductive JumpOp where
  /-- `read_jump_chain(&mut inbound)` -/
  | readChain
  /-- `write_jump_result(&mut inbound, ..)` -/
  | writeResult (result : JumpResult)
  /-- `dial_tx.send(SwarmCommand::Dial(..))` -/
  | sendDial (addr : Multiaddr)
  /-- `open_control.open_stream(..)` -/
  | openStream (peer : PeerId) (protocol : StreamProtocol)
  /-- `tokio::time::sleep` -/
  | sleep (millis : Nat)
  /-- `write_jump_chain(&mut outbound, ..)` -/
  | writeChain (chain : JumpChain)
  /-- `read_jump_result(&mut outbound)` -/
  | readResult
  /-- `copy_bidirectional` between the two streams -/
  | copyBidirectional
  deriving DecidableEq, Repr, Inhabited

/-- Where `handle_jump_request` is suspended. -/
inductive JumpTask where
  | readingChain
  /-- reporting a failure upstream, then giving up with `report` -/
  | replying (message : String) (report : Report)
  | dialing (nextHop : Multiaddr) (nextPeer : PeerId) (remaining : List String)
  | opening (nextPeer : PeerId) (remaining : List String) (attempt : Nat)
  | sleeping (nextPeer : PeerId) (remaining : List String) (attempt : Nat)
  | writingChain (remaining : List String)
  | readingResult
  | writingOk
  | bridging
  | ended (result : Except Report Unit)
  deriving DecidableEq, Repr, Inhabited

/-- What an awaited operation came back with. -/
inductive JumpEvent where
  | chainRead (result : Except IoError JumpChain)
  | resultWritten (result : Except IoError Unit)
  /-- `false`: the swarm's end of the dial channel is gone -/
  | dialSent (delivered : Bool)
  | streamOpened (result : Except String Unit)
  | slept
  | chainWritten (result : Except IoError Unit)
  | resultRead (result : Except IoError JumpResult)
  /-- the outcome of the copy is discarded -/
  | copied
  deriving DecidableEq, Repr, Inhabited

namespace JumpTask

/-- `outbound_protocol`: jump while hops remain, tunnel behind the last relay. -/
def outboundProtocol (nspace : String) (remaining : List String) : StreamProtocol :=
  if remaining.isEmpty then tunnelProtocol nspace else jumpProtocol nspace

/-- The awaited operation. -/
def op (nspace : String) : JumpTask → Option JumpOp
  | .readingChain => some .readChain
  | .replying message _ => some (.writeResult (.error message))
  | .dialing nextHop _ _ => some (.sendDial nextHop)
  | .opening nextPeer remaining _ =>
      some (.openStream nextPeer (outboundProtocol nspace remaining))
  | .sleeping _ _ attempt => some (.sleep (500 * (attempt + 1)))
  | .writingChain remaining => some (.writeChain ⟨remaining⟩)
  | .readingResult => some .readResult
  | .writingOk => some (.writeResult .ok)
  | .bridging => some .copyBidirectional
  | .ended _ => none

/-- Whether `handle_jump_request` has returned. -/
def isEnded : JumpTask → Bool
  | .ended _ => true
  | _ => false

/-- The address and peer of a hop. -/
def parseHop (text : Libp2pText) (hop : String) : Except Report (Multiaddr × PeerId) :=
  match text.parseMultiaddr hop with
  | .error e => .error (.msg s!"invalid multiaddr in jump chain: {e}")
  | .ok nextHop =>
      match peerIdFromMultiaddr nextHop with
      | none => .error (.msg s!"missing peer id in jump hop: {hop}")
      | some nextPeer => .ok (nextHop, nextPeer)

/-- From the decoded chain to the next await. -/
def afterChain (text : Libp2pText) (peer : PeerId) (chain : JumpChain) : JumpTask :=
  match chain.hops with
  | [] =>
      .replying "empty hop chain" (.msg s!"empty jump chain from {text.printPeerId peer}")
  | nextHopStr :: remainingHops =>
      match parseHop text nextHopStr with
      | .error report => .ended (.error report)
      | .ok (nextHop, nextPeer) => .dialing nextHop nextPeer remainingHops

/-- A chain is refused with a reply, given up on silently, or taken on. -/
theorem afterChain_cases (text : Libp2pText) (peer : PeerId) (chain : JumpChain) :
    (chain.hops = [] ∧ ∃ report, afterChain text peer chain = .replying "empty hop chain" report) ∨
      ∃ hop remaining, chain.hops = hop :: remaining ∧
        ((∃ report, parseHop text hop = .error report ∧
            afterChain text peer chain = .ended (.error report)) ∨
          ∃ addr next, parseHop text hop = .ok (addr, next) ∧
            afterChain text peer chain = .dialing addr next remaining) := by
  unfold afterChain
  split
  · rename_i heq
    exact .inl ⟨heq, _, rfl⟩
  · rename_i hop remaining heq
    refine .inr ⟨hop, remaining, heq, ?_⟩
    split
    · rename_i report hparse
      exact .inl ⟨report, hparse, rfl⟩
    · rename_i addr next hparse
      exact .inr ⟨addr, next, hparse, rfl⟩

/-- From the opened outbound stream to the next await. -/
def afterOpen (remaining : List String) : JumpTask :=
  if remaining.isEmpty then .writingOk else .writingChain remaining

/-- The code between the await a task is suspended on and the next one. -/
def resume (text : Libp2pText) (peer : PeerId) : JumpTask → JumpEvent → Option JumpTask
  | .readingChain, .chainRead (.error err) =>
      some (.ended (.error (.wrap "failed reading jump chain" (.io err))))
  | .readingChain, .chainRead (.ok chain) => some (afterChain text peer chain)
  | .replying _ report, .resultWritten (.ok ()) => some (.ended (.error report))
  | .replying _ _, .resultWritten (.error err) => some (.ended (.error (.io err)))
  | .dialing _ nextPeer remaining, .dialSent true => some (.opening nextPeer remaining 0)
  | .dialing _ _ _, .dialSent false =>
      some (.ended (.error (.msg "swarm dial channel closed")))
  | .opening _ remaining _, .streamOpened (.ok ()) => some (afterOpen remaining)
  | .opening nextPeer remaining attempt, .streamOpened (.error err) =>
      if attempt < 9 then some (.sleeping nextPeer remaining attempt)
      else
        let errorMsg := s!"failed to connect to hop {text.printPeerId nextPeer}: {err}"
        some (.replying errorMsg (.msg errorMsg))
  | .sleeping nextPeer remaining attempt, .slept =>
      some (.opening nextPeer remaining (attempt + 1))
  | .writingChain _, .chainWritten (.ok ()) => some .readingResult
  | .writingChain _, .chainWritten (.error err) => some (.ended (.error (.io err)))
  | .readingResult, .resultRead (.ok .ok) => some .writingOk
  | .readingResult, .resultRead (.ok (.error e)) =>
      some (.replying e (.msg s!"downstream jump failed: {e}"))
  | .readingResult, .resultRead (.error err) => some (.ended (.error (.io err)))
  | .writingOk, .resultWritten (.ok ()) => some .bridging
  | .writingOk, .resultWritten (.error err) => some (.ended (.error (.io err)))
  | .bridging, .copied => some (.ended (.ok ()))
  | _, _ => none

end JumpTask

end Sape
