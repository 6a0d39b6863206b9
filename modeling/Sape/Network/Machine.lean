/-
  Network/Machine.lean --- relays, listeners and dialers of any namespaces on one
  network.

  Every member runs one command, with the machine that its module has for it: a relay
  its jump tasks, a listener the registration and then the accept loop, a dialer
  `run_dial`.  Three things pass between members.  A relay keeps the registrations of
  listeners, each under its pairing code; it answers the lookups of dialers with them; and
  a stream opens where its protocol is one that the other end accepts.

  LIBP2P.  Stream protocols and rendezvous namespaces are matched by equality.  An address
  leads to the peer of its last `/p2p`, and an mDNS event gives every address with the
  peer at the end.  A registration can be given up, and can be made again, at any time.

  HISTORY.  `State.meetings` lists who has discovered, dialed, or opened a stream to whom;
  no step depends on it.
-/
import Sape.Client.Announce
import Sape.Client.Tunnel
import Sape.Listener.Machine
import Sape.Namespace
import Sape.Relay

set_option autoImplicit false

namespace Sape

open Sape.Foundation

/-! ## What a dialer does towards others -/

/-- The peer that an address leads to. -/
def dialTarget (addr : Multiaddr) : Option PeerId := addr.getLast?.bind Protocol.p2pPeer

/-- The stream of an operation that opens one. -/
def TunnelOp.stream : TunnelOp → Option (PeerId × StreamProtocol)
  | .openStream peer protocol => some (peer, protocol)
  | .writeTunnelRequest _ _ => none

/-- Whether `run_dial` has registered its accept queue. -/
def DialTask.accepts : DialTask → Bool
  | .openingNetcat _ | .writingNetcat | .netcat | .localForwarding _ _ _
  | .requestingReverse _ _ _ _ | .handlingReverse | .proxying _ _ => true
  | _ => false

namespace DialRun

/-- The stream that a step opens. -/
def opening (nspace : String) (state : DialRun) : DialLabel → Option (PeerId × StreamProtocol)
  | .event (.streamOpened (.ok ())) => (state.ownOp nspace).bind TunnelOp.stream
  | .request (.streamOpened (.ok ())) => (state.ownOp nspace).bind TunnelOp.stream
  | .session i (.localForward (.streamOpened (.ok ()))) =>
      state.sessions[i]?.bind fun session =>
        (session.task.tunnelOp nspace session.remotePeer).bind TunnelOp.stream
  | .session i (.proxy (.streamOpened (.ok ()))) =>
      state.sessions[i]?.bind fun session =>
        (session.task.tunnelOp nspace session.remotePeer).bind TunnelOp.stream
  | _ => none

/-- The addresses that a step passes to `swarm.dial`. -/
def dials (state : DialRun) : DialLabel → List Multiaddr
  | .wake wake => state.loop.toList.flatMap (SwarmTask.dials · wake)
  | .event (.done _) =>
      match state.run with
      | .dialingCircuit addr _ => [addr]
      | _ => []
  | _ => []

end DialRun

end Sape

namespace Sape.Network

open Sape.Foundation

/-! ## Members -/

/-- A peer in its namespace. -/
structure Party where
  peer : PeerId
  nspace : Namespace
  deriving DecidableEq

/-- `run_relay`. -/
structure RelayRun where
  /-- what the rendezvous server holds, and under which code -/
  registrations : List (String × Registration) := []
  /-- the tasks of its jump streams, with the peers that opened them -/
  jumps : List (PeerId × JumpTask) := []
  deriving DecidableEq, Repr, Inhabited

/-- `run_listen`. -/
structure ListenRun where
  registerOpt : RegisterOpt
  draw : CodeDraw
  listenOpt : ListenOpt
  register : RegisterTask
  listener : Listener.State
  deriving DecidableEq, Repr

/-- What a member runs. -/
inductive Role where
  | relay (run : RelayRun)
  | listener (run : ListenRun)
  | dialer (opt : DialOpt) (run : DialRun)
  deriving DecidableEq, Repr

/-- `enum CliCommand`, with what a listener will draw for a code and meet as traffic. -/
inductive CliCommand where
  | relay
  | listen (registerOpt : RegisterOpt) (draw : CodeDraw) (listenOpt : ListenOpt)
      (traffic : List IncomingStream)
  | dial (opt : DialOpt)
  deriving DecidableEq, Repr

/-- The `match` at the end of `run`. -/
def CliCommand.start (text : Libp2pText) (nspace : String) : CliCommand → Role
  | .relay => .relay {}
  | .listen registerOpt draw listenOpt traffic =>
      .listener
        { registerOpt := registerOpt
          draw := draw
          listenOpt := listenOpt
          register := RegisterTask.start text registerOpt
          listener := (Listener.machine nspace listenOpt traffic).start }
  | .dial opt => .dialer opt {}

/-- A step of one member. -/
inductive RoleLabel where
  /-- jump task `n` -/
  | jump (n : Nat) (event : JumpEvent)
  /-- in front of the accept loop of a listener -/
  | register (result : Except Report Unit)
  | listener (label : Listener.Label)
  | dialer (label : DialLabel)
  deriving DecidableEq, Repr

namespace ListenRun

/-- Whether it has come as far as its accept loop. -/
def accepting (run : ListenRun) : Bool :=
  match run.register with
  | .accepting _ => true
  | _ => false

/-- What it has registered and announced. -/
def announced (run : ListenRun) : Option Announcement :=
  match run.register with
  | .accepting announced => announced
  | _ => none

end ListenRun

/-- What the rendezvous server answers to a lookup of a code. -/
def RelayRun.lookup (run : RelayRun) (code : String) : List Registration :=
  (run.registrations.filter fun entry => decide (entry.1 = code)).map Prod.snd

namespace Role

/-- What happens by itself. -/
def step (text : Libp2pText) (nspace : String) : Role → RoleLabel → Option Role
  | .relay run, .jump n event =>
      match run.jumps[n]? with
      | none => none
      | some (peer, task) =>
          (task.resume text peer event).map fun next =>
            .relay { run with jumps := run.jumps.set n (peer, next) }
  | .listener run, .register result =>
      (run.register.resume run.registerOpt run.draw result).map fun next =>
        .listener { run with register := next }
  | .listener run, .listener label =>
      if run.accepting then
        (run.listener.step nspace run.listenOpt label).map fun next =>
          .listener { run with listener := next }
      else none
  | .dialer opt run, .dialer label =>
      (run.step text opt nspace label).map (.dialer opt)
  | _, _ => none

/-- The stream that a step opens. -/
def opening (nspace : String) : Role → RoleLabel → Option (PeerId × StreamProtocol)
  | .relay run, .jump n (.streamOpened (.ok ())) =>
      match run.jumps[n]?.bind fun entry => entry.2.op nspace with
      | some (.openStream peer protocol) => some (peer, protocol)
      | _ => none
  | .listener run, .listener (.inbound j .proceed) =>
      match run.listener.inbounds[j]?.bind fun inbound =>
          inbound.task.op nspace inbound.remotePeer inbound.target with
      | some (.openStream peer protocol) => some (peer, protocol)
      | _ => none
  | .dialer _ run, .dialer label => run.opening nspace label
  | _, _ => none

/-- The protocols that it has registered accept queues for. -/
def accepts (nspace : String) : Role → List StreamProtocol
  | .relay _ => [jumpProtocol nspace]
  | .listener run => if run.accepting then [tunnelProtocol nspace] else []
  | .dialer _ run => if run.run.accepts then [tunnelProtocol nspace] else []

/-- The addresses that a step of a dialer passes to `swarm.dial`. -/
def dials : Role → RoleLabel → List Multiaddr
  | .dialer _ run, .dialer label => run.dials label
  | _, _ => []

/-- Whether it is a listener that has registered. -/
def registered : Role → Bool
  | .listener run => run.announced.isSome
  | _ => false

end Role

/-- A member of the network. -/
structure Member where
  party : Party
  role : Role
  deriving DecidableEq

/-! ## States -/

/-- How one member meets another. -/
inductive Channel where
  | discovery
  | dial
  | stream (protocol : StreamProtocol)
  deriving DecidableEq, Repr, Inhabited

/-- `active` has discovered or dialed `passive`, or opened a stream to it. -/
structure Meeting where
  channel : Channel
  active : Party
  passive : Party
  deriving DecidableEq

/-- The state of the network. -/
structure State where
  members : List Member := []
  meetings : List Meeting := []
  deriving DecidableEq

/-- What a label names. -/
inductive Label where
  /-- somebody runs a command in an admitted namespace -/
  | join (party : Party) (command : CliCommand)
  /-- the registration of listener `i` takes effect at relay `r`, with the addresses that the
  listener has -/
  | registered (i r : Nat) (addresses : List Multiaddr)
  /-- relay `r` drops its `n`-th registration -/
  | expired (r n : Nat)
  /-- relay `r` answers the lookup of dialer `i`, with the registrations in some order; `dialed`
  is what the `swarm.dial`s made because of it come back with -/
  | discovered (i r : Nat) (order : List Registration) (dialed : Except String Unit)
  /-- a jump stream reaches relay `r`, from whoever opened it -/
  | jumpStream (r : Nat) (peer : PeerId)
  /-- a step of member `i`; where it opens a stream, `acceptor` is at the other end -/
  | act (i : Nat) (label : RoleLabel) (acceptor : Option Nat)

/-- What libp2p tells a dialer by itself: no answers of a rendezvous server, and mDNS
addresses that end in their peers. -/
def Role.told : RoleLabel → Bool
  | .dialer (.wake (.event (.discovered _ _) _)) => false
  | .dialer (.wake (.event (.mdnsDiscovered peers) _)) =>
      peers.all fun entry => decide (dialTarget entry.2 = some entry.1)
  | _ => true

/-- The meetings of one party with others. -/
def meetAll (channel : Channel) (active : Party) (others : List Party) : List Meeting :=
  others.map fun passive => { channel := channel, active := active, passive := passive }

/-- A lookup of a code, and what the relay has under it. -/
structure Lookup where
  dialer : Party
  opt : DialOpt
  run : DialRun
  relay : PeerId
  registrations : List Registration
  deriving DecidableEq

/-- What the dialer wakes up to. -/
def Lookup.answer (lookup : Lookup) (dialed : Except String Unit) : DialLabel :=
  .wake (.event (.discovered lookup.relay lookup.registrations) dialed)

namespace State

/-- The dialer at `i`. -/
def dialer (state : State) (i : Nat) : Option (Party × DialOpt × DialRun) :=
  match state.members[i]? with
  | some { party := party, role := .dialer opt run } => some (party, opt, run)
  | _ => none

/-- The relay at `r`. -/
def relay (state : State) (r : Nat) : Option (Party × RelayRun) :=
  match state.members[r]? with
  | some { party := party, role := .relay run } => some (party, run)
  | _ => none

/-- The listener at `i`. -/
def listener (state : State) (i : Nat) : Option (Party × ListenRun) :=
  match state.members[i]? with
  | some { party := party, role := .listener run } => some (party, run)
  | _ => none

/-- The registered listeners of a peer. -/
def listenersOf (state : State) (peer : PeerId) : List Party :=
  (state.members.filter fun member =>
    decide (member.party.peer = peer) && member.role.registered).map Member.party

/-- The lookup that dialer `i` has sent to relay `r`, answered in an order: the dialer waits for
that relay, and asks for the code of its target. -/
def lookup (state : State) (i r : Nat) (order : List Registration) : Option Lookup :=
  match state.dialer i, state.relay r with
  | some (party, opt, run), some (relay, relayRun) =>
      match opt.target with
      | .pairingCode code =>
          if run.run = .waitingRendezvous relay.peer ∧ order.isPerm (relayRun.lookup code) then
            some
              { dialer := party
                opt := opt
                run := run
                relay := relay.peer
                registrations := order }
          else none
      | _ => none
  | _, _ => none

/-- Whether `acceptor` can be at the other end of what a step opens. -/
def negotiates (state : State) (opened : Option (PeerId × StreamProtocol)) :
    Option Nat → Bool
  | none => opened.isNone
  | some k =>
      match opened, state.members[k]? with
      | some (peer, protocol), some member =>
          decide (member.party.peer = peer) &&
            (member.role.accepts member.party.nspace.name).contains protocol
      | _, _ => false

/-- The meeting over the stream that a step opens. -/
def streamed (state : State) (member : Member) (opened : Option (PeerId × StreamProtocol))
    (acceptor : Option Nat) : List Meeting :=
  match opened, acceptor.bind (state.members[·]?) with
  | some (_, protocol), some other => meetAll (.stream protocol) member.party [other.party]
  | _, _ => []

/-- The members behind a step. -/
def moved (text : Libp2pText) (state : State) : Label → Option (List Member)
  | .join party command =>
      some (state.members ++ [{ party := party, role := command.start text party.nspace.name }])
  | .registered i r addresses =>
      match state.listener i, state.relay r with
      | some (party, run), some (relay, relayRun) =>
          match run.announced with
          | some announcement =>
              if announcement.relayPeer = relay.peer then
                let entry := (announcement.code,
                  { peer := party.peer, addresses := addresses : Registration })
                -- a peer has one registration under a code
                let others := relayRun.registrations.filter fun other =>
                  !decide (other.1 = entry.1 ∧ other.2.peer = entry.2.peer)
                some (state.members.set r
                  { party := relay
                    role := .relay { relayRun with registrations := others ++ [entry] } })
              else none
          | none => none
      | _, _ => none
  | .expired r n =>
      (state.relay r).map fun (relay, relayRun) =>
        state.members.set r
          { party := relay
            role := .relay
              { relayRun with registrations := relayRun.registrations.eraseIdx n } }
  | .discovered i r order dialed =>
      match state.lookup i r order with
      | none => none
      | some lookup =>
          (lookup.run.step text lookup.opt lookup.dialer.nspace.name (lookup.answer dialed)).map
            fun next =>
              state.members.set i { party := lookup.dialer, role := .dialer lookup.opt next }
  | .jumpStream r peer =>
      (state.relay r).map fun (relay, relayRun) =>
        state.members.set r
          { party := relay
            role := .relay { relayRun with jumps := relayRun.jumps ++ [(peer, .readingChain)] } }
  | .act i label acceptor =>
      match state.members[i]? with
      | none => none
      | some member =>
          if Role.told label ∧
              state.negotiates (member.role.opening member.party.nspace.name label) acceptor then
            (member.role.step text member.party.nspace.name label).map fun next =>
              state.members.set i { member with role := next }
          else none

/-- The meetings that a step makes. -/
def meets (state : State) : Label → List Meeting
  | .discovered i r order dialed =>
      match state.lookup i r order with
      | none => []
      | some lookup =>
          meetAll .discovery lookup.dialer
              ((lookup.registrations.map Registration.peer).flatMap state.listenersOf) ++
            meetAll .dial lookup.dialer
              (((lookup.run.dials (lookup.answer dialed)).filterMap dialTarget).flatMap
                state.listenersOf)
  | .act i label acceptor =>
      match state.members[i]? with
      | none => []
      | some member =>
          meetAll .dial member.party
              (((member.role.dials label).filterMap dialTarget).flatMap state.listenersOf) ++
            state.streamed member (member.role.opening member.party.nspace.name label) acceptor
  | _ => []

/-- One step. -/
def step (text : Libp2pText) (state : State) (label : Label) : Option State :=
  (state.moved text label).map fun members =>
    { members := members, meetings := state.meetings ++ state.meets label }

end State

/-- The machine of a network that nobody has joined yet. -/
def machine (text : Libp2pText) : Machine State Label where
  start := {}
  step := State.step text

end Sape.Network
