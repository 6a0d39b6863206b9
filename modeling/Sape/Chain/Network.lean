/-
  Chain/Network.lean --- a jump chain as one machine: the dialer, the relays, the
  peer behind the last relay, and the streams between them.

  Node 0 is the relay the dialer opens its stream to; node `i + 1` is whatever
  accepts the stream that node `i` opens: another run of `handle_jump_request`
  when the stream is a jump stream, the tunnel handler of a listener when it is a
  tunnel stream.  Nodes come into being when they are opened, so the chain has no
  length fixed in advance.  Link `i` is the stream into node `i`.

  LABELS.  A label names who moves and what its operation meets: it completes, the
  other end has finished, the stream breaks after a write has got rid of some of
  its bytes, an open is refused.  A frame read completes only when the whole frame
  is there; until then it is not enabled, so a half-written frame is seen exactly
  as an await sees it.  `copy_bidirectional` reads into and writes out of one
  buffer for each direction, any number of bytes at a time.

  HISTORY.  `RelayNode.received`, `RelayNode.opened` and `Net.answer` record what a
  task read or opened; no step depends on them.
-/
import Sape.Client.Dial
import Sape.Foundation.Machine
import Sape.Relay
import Sape.Stream

set_option autoImplicit false

namespace Sape.Chain

open Sape.Foundation

/-! ## The network -/

/-- A stream; `down` leads away from the dialer. -/
structure Link where
  down : Pipe := {}
  up : Pipe := {}
  deriving DecidableEq, Repr, Inhabited

/-- One run of `handle_jump_request`. -/
structure RelayNode where
  /-- the relay it runs on -/
  self : PeerId
  /-- the peer that opened the inbound stream -/
  peer : PeerId
  task : JumpTask := .readingChain
  received : Option JumpChain := none
  opened : Option (PeerId × StreamProtocol) := none
  /-- bytes read from the inbound stream, not yet written to the outbound one -/
  downBuf : Bytes := []
  /-- bytes read from the outbound stream, not yet written to the inbound one -/
  upBuf : Bytes := []
  deriving DecidableEq, Repr, Inhabited

/-- Who accepted the stream into this place of the chain. -/
inductive Node where
  | absent
  | relay (relay : RelayNode)
  /-- the tunnel handler of a peer -/
  | acceptor (self : PeerId)
  deriving DecidableEq, Repr, Inhabited

/-- The stream a node has opened further down. -/
def Node.opened : Node → Option (PeerId × StreamProtocol)
  | .relay node => node.opened
  | _ => none

/-- What a chain is set up from. -/
structure Setup where
  text : Libp2pText
  nspace : String
  /-- the dialer's options; only its tunnel mode is still looked at -/
  opt : DialOpt
  dialerPeer : PeerId
  firstPeer : PeerId
  hops : List String
  /-- what the dialer's user types into the tunnel -/
  fromDialer : Bytes := []
  /-- what the accepting peer sends back -/
  fromListener : Bytes := []

/-- The state of a chain. -/
structure Net where
  dialer : DialTask
  /-- what the dialer's `read_jump_result` returned -/
  answer : Option (Except IoError JumpResult) := none
  node : Nat → Node := fun _ => .absent
  link : Nat → Link := fun _ => {}
  /-- how much of `fromDialer` is on the stream -/
  dialerSent : Nat := 0
  /-- how much of `fromListener` is on the stream -/
  listenerSent : Nat := 0

namespace Net

def setNode (net : Net) (i : Nat) (node : Node) : Net :=
  { net with node := fun j => if j = i then node else net.node j }

def setLink (net : Net) (i : Nat) (link : Link) : Net :=
  { net with link := fun j => if j = i then link else net.link j }

@[simp] theorem setNode_node_self (net : Net) (i : Nat) (node : Node) :
    (net.setNode i node).node i = node := if_pos rfl
@[simp] theorem setNode_node_ne (net : Net) {i j : Nat} (node : Node) (h : j ≠ i) :
    (net.setNode i node).node j = net.node j := if_neg h
@[simp] theorem setNode_link (net : Net) (i : Nat) (node : Node) :
    (net.setNode i node).link = net.link := rfl
@[simp] theorem setNode_dialer (net : Net) (i : Nat) (node : Node) :
    (net.setNode i node).dialer = net.dialer := rfl
@[simp] theorem setNode_answer (net : Net) (i : Nat) (node : Node) :
    (net.setNode i node).answer = net.answer := rfl
@[simp] theorem setLink_link_self (net : Net) (i : Nat) (link : Link) :
    (net.setLink i link).link i = link := if_pos rfl
@[simp] theorem setLink_link_ne (net : Net) {i j : Nat} (link : Link) (h : j ≠ i) :
    (net.setLink i link).link j = net.link j := if_neg h
@[simp] theorem setLink_node (net : Net) (i : Nat) (link : Link) :
    (net.setLink i link).node = net.node := rfl
@[simp] theorem setLink_dialer (net : Net) (i : Nat) (link : Link) :
    (net.setLink i link).dialer = net.dialer := rfl
@[simp] theorem setLink_answer (net : Net) (i : Nat) (link : Link) :
    (net.setLink i link).answer = net.answer := rfl

/-- Write to, or read from, one direction of a link. -/
def setDown (net : Net) (i : Nat) (pipe : Pipe) : Net :=
  net.setLink i { net.link i with down := pipe }

def setUp (net : Net) (i : Nat) (pipe : Pipe) : Net :=
  net.setLink i { net.link i with up := pipe }

/-- Whether the peer at the upper end of link `i` is done with it. -/
def upperGone (net : Net) : Nat → Bool
  | 0 => net.dialer.isEnded
  | i + 1 => match net.node i with
    | .relay relay => relay.task.isEnded
    | _ => false

/-- Whether the peer at the lower end of link `i` is done with it. -/
def lowerGone (net : Net) (i : Nat) : Bool :=
  match net.node i with
  | .relay relay => relay.task.isEnded
  | _ => false

/-- A stream of the given protocol is accepted at place `i`. -/
def spawn (setup : Setup) (net : Net) (i : Nat) (opener self : PeerId)
    (protocol : StreamProtocol) : Net :=
  (net.setNode i
    (if protocol = jumpProtocol setup.nspace then .relay { self := self, peer := opener }
      else .acceptor self)).setLink i {}

/-! ## Steps -/

/-- The awaited operation of relay `i` comes back: the event, the relay's history,
and the streams behind it. -/
def perform (setup : Setup) (net : Net) (i : Nat) (relay : RelayNode) (outcome : Outcome) :
    JumpOp → Option (JumpEvent × RelayNode × Net)
  | .readChain =>
      (readStep readJumpChain (net.link i).down (net.upperGone i) outcome).map
        fun (result, pipe) =>
          (.chainRead result, { relay with received := result.toOption }, net.setDown i pipe)
  | .writeResult result =>
      (writeStep (writeJumpResult result) (net.link i).up outcome).map
        fun (done, pipe) => (.resultWritten done, relay, net.setUp i pipe)
  | .sendDial _ =>
      match outcome with
      | .proceed => some (.dialSent true, relay, net)
      | .refused _ => some (.dialSent false, relay, net)
      | _ => none
  | .openStream peer protocol =>
      match outcome with
      | .proceed =>
          some (.streamOpened (.ok ()), { relay with opened := some (peer, protocol) },
            net.spawn setup (i + 1) relay.self peer protocol)
      | .refused err => some (.streamOpened (.error err), relay, net)
      | _ => none
  | .sleep _ =>
      match outcome with
      | .proceed => some (.slept, relay, net)
      | _ => none
  | .writeChain chain =>
      (writeStep (writeJumpChain chain) (net.link (i + 1)).down outcome).map
        fun (done, pipe) => (.chainWritten done, relay, net.setDown (i + 1) pipe)
  | .readResult =>
      (readStep readJumpResult (net.link (i + 1)).up (net.lowerGone (i + 1)) outcome).map
        fun (result, pipe) => (.resultRead result, relay, net.setUp (i + 1) pipe)
  -- the copy loop has labels of its own
  | .copyBidirectional => none

/-- Relay `i` goes from one await to the next. -/
def relayStep (setup : Setup) (net : Net) (i : Nat) (outcome : Outcome) : Option Net :=
  match net.node i with
  | .relay relay =>
      match relay.task.op setup.nspace with
      | none => none
      | some op =>
          match net.perform setup i relay outcome op with
          | none => none
          | some (event, history, behind) =>
              match relay.task.resume setup.text relay.peer event with
              | none => none
              | some task => some (behind.setNode i (.relay { history with task := task }))
  | _ => none

/-- One move of `copy_bidirectional`. -/
inductive CopyMove where
  | readDown (count : Nat)
  | writeDown (count : Nat)
  | readUp (count : Nat)
  | writeUp (count : Nat)
  | finish
  deriving DecidableEq, Repr, Inhabited

/-- Relay `i` moves payload. -/
def copyStep (net : Net) (i : Nat) (move : CopyMove) : Option Net :=
  match net.node i with
  | .relay relay =>
      if relay.task = .bridging then
        match move with
        | .readDown count =>
            let pipe := (net.link i).down
            if count ≤ pipe.unread.length then
              some ((net.setDown i (pipe.skip count)).setNode i
                (.relay { relay with downBuf := relay.downBuf ++ pipe.unread.take count }))
            else none
        | .writeDown count =>
            let pipe := (net.link (i + 1)).down
            if count ≤ relay.downBuf.length then
              some ((net.setDown (i + 1) (pipe.put (relay.downBuf.take count))).setNode i
                (.relay { relay with downBuf := relay.downBuf.drop count }))
            else none
        | .readUp count =>
            let pipe := (net.link (i + 1)).up
            if count ≤ pipe.unread.length then
              some ((net.setUp (i + 1) (pipe.skip count)).setNode i
                (.relay { relay with upBuf := relay.upBuf ++ pipe.unread.take count }))
            else none
        | .writeUp count =>
            let pipe := (net.link i).up
            if count ≤ relay.upBuf.length then
              some ((net.setUp i (pipe.put (relay.upBuf.take count))).setNode i
                (.relay { relay with upBuf := relay.upBuf.drop count }))
            else none
        | .finish => some (net.setNode i (.relay { relay with task := .ended (.ok ()) }))
      else none
  | _ => none

/-- The dialer goes from one wait to the next. -/
def dialerStep (setup : Setup) (net : Net) (outcome : Outcome) : Option Net :=
  let resumeWith (event : DialEvent) (behind : Net) : Option Net :=
    (net.dialer.resume setup.text setup.opt event).map fun task => { behind with dialer := task }
  match net.dialer.op setup.nspace with
  | some (.openStream peer protocol) =>
      match outcome with
      | .proceed =>
          resumeWith (.streamOpened (.ok ()))
            (net.spawn setup 0 setup.dialerPeer peer protocol)
      | .refused err => resumeWith (.streamOpened (.error err)) net
      | _ => none
  | some (.writeJumpChain chain) =>
      match writeStep (writeJumpChain chain) (net.link 0).down outcome with
      | none => none
      | some (done, pipe) => resumeWith (.ioDone done) (net.setDown 0 pipe)
  | some .readJumpResult =>
      match readStep readJumpResult (net.link 0).up (net.lowerGone 0) outcome with
      | none => none
      | some (result, pipe) =>
          resumeWith (.resultRead result) { net.setUp 0 pipe with answer := some result }
  | some (.writeTunnelRequest req) =>
      match writeStep (writeTunnelRequest req) (net.link 0).down outcome with
      | none => none
      | some (done, pipe) => resumeWith (.ioDone done) (net.setDown 0 pipe)
  | some .runNetcat =>
      match outcome with
      | .proceed => resumeWith (.ioDone (.ok ())) net
      | .broken _ err => resumeWith (.ioDone (.error err)) net
      | _ => none
  | _ => none

/-- What a label of the chain machine names. -/
inductive Label where
  | dialer (outcome : Outcome)
  /-- the dialer's netcat copies stdin to the stream -/
  | stdin (count : Nat)
  /-- the dialer's netcat copies the stream to stdout -/
  | stdout (count : Nat)
  | relay (i : Nat) (outcome : Outcome)
  | copy (i : Nat) (move : CopyMove)
  /-- the accepting peer at place `i` sends payload -/
  | send (i : Nat) (count : Nat)
  /-- the accepting peer at place `i` reads payload -/
  | receive (i : Nat) (count : Nat)
  deriving DecidableEq, Repr, Inhabited

/-- One step of the chain. -/
def step (setup : Setup) (net : Net) : Label → Option Net
  | .dialer outcome => net.dialerStep setup outcome
  | .stdin count =>
      if net.dialer = .jumpNetcat then
        some { net.setDown 0 ((net.link 0).down.put
            ((setup.fromDialer.drop net.dialerSent).take count)) with
          dialerSent := net.dialerSent + count }
      else none
  | .stdout count =>
      if net.dialer = .jumpNetcat ∧ count ≤ (net.link 0).up.unread.length then
        some (net.setUp 0 ((net.link 0).up.skip count))
      else none
  | .relay i outcome => net.relayStep setup i outcome
  | .copy i move => net.copyStep i move
  | .send i count =>
      match net.node i with
      | .acceptor _ =>
          some { net.setUp i ((net.link i).up.put
              ((setup.fromListener.drop net.listenerSent).take count)) with
            listenerSent := net.listenerSent + count }
      | _ => none
  | .receive i count =>
      match net.node i with
      | .acceptor _ =>
          if count ≤ (net.link i).down.unread.length then
            some (net.setDown i ((net.link i).down.skip count))
          else none
      | _ => none

end Net

/-- The chain machine: it starts where the dialer opens its jump stream. -/
def machine (setup : Setup) : Machine Net Net.Label where
  start := { dialer := .openingJump setup.firstPeer setup.hops }
  step := Net.step setup

end Sape.Chain
