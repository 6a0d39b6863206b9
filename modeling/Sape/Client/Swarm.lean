/-
  Client/Swarm.lean --- `src/client/swarm.rs`: the loops that `run_dial` and
  `run_listen` run over the events of their swarm.

  All of them take events off one swarm, whoever they are about; what a loop does not
  look at it drops.  `SwarmTask` has one constructor for each place where one of the
  four functions waits for `swarm.next()`, and one for the `swarm.dial` in front of
  `connect_and_identify`.  What comes next, which timer fires when, and what
  `swarm.dial` answers, is up to the labels.

  HISTORY.  `Loop.dialed` lists what was passed to `swarm.dial`, `Loop.seen` the events
  that were taken off the swarm; no step depends on them.
-/
import Sape.Client.Dial
import Sape.Foundation.Machine

set_option autoImplicit false

namespace Sape

open Sape.Foundation

/-! ## Events -/

/-- `rendezvous::Registration`: the peer record in it. -/
structure Registration where
  peer : PeerId
  addresses : List Multiaddr
  deriving DecidableEq, Repr, Inhabited

/-- `SwarmEvent<ClientBehaviourEvent>`, as far as a loop looks at it. -/
inductive SwarmEvent where
  | newListenAddr (addr : Multiaddr)
  | connectionEstablished (peer : PeerId)
  | outgoingConnectionError (peer : Option PeerId) (err : String)
  | identifySent (peer : PeerId)
  | identifyReceived (peer : PeerId) (observedAddr : Multiaddr)
  | mdnsDiscovered (peers : List (PeerId × Multiaddr))
  | mdnsExpired (peers : List (PeerId × Multiaddr))
  | discovered (node : PeerId) (registrations : List Registration)
  | discoverFailed (node : PeerId) (code err : String)
  /-- any other event -/
  | other
  deriving DecidableEq, Repr, Inhabited

/-- What a loop wakes up to. -/
inductive Wake where
  /-- `swarm.dial` in front of a loop comes back -/
  | called (dialed : Except String Unit)
  /-- an event, and what a `swarm.dial` made because of it answers -/
  | event (event : SwarmEvent) (dialed : Except String Unit)
  | streamEnded
  /-- the timeout around the function -/
  | timedOut
  /-- the timeout of `wait_for_peer_connection` -/
  | connectTimedOut
  deriving DecidableEq, Repr, Inhabited

/-- The event taken off the swarm. -/
def Wake.seen : Wake → List SwarmEvent
  | .event swarmEvent _ => [swarmEvent]
  | _ => []

/-! ## The loops -/

/-- Where a loop waits. -/
inductive SwarmTask where
  /-- `connect_and_identify`, in front of `swarm.dial` -/
  | dialingRelay (relayAddress : Multiaddr)
  /-- its loop -/
  | identifying (learnedObservedAddr toldRelayObservedAddr : Bool)
  /-- `wait_for_peer_connection` -/
  | waitingPeer (expected : PeerId)
  /-- `wait_for_mdns_and_connect` -/
  | waitingMdns (expected : PeerId)
  /-- the `wait_for_peer_connection` in it -/
  | connectingMdns (expected : PeerId)
  /-- `wait_for_rendezvous_discovery` -/
  | waitingRendezvous (point : PeerId)
  /-- the `wait_for_peer_connection` in it -/
  | connectingRendezvous (point peer : PeerId)
  deriving DecidableEq, Repr, Inhabited

/-- Where a turn of a loop leads. -/
inductive Turn where
  | wait (task : SwarmTask)
  | leave (event : DialEvent)
  deriving DecidableEq, Repr, Inhabited

/-- A function of type `Result<()>` fails with a message. -/
def Turn.bail (text : String) : Turn := .leave (.done (.error (.msg text)))

/-- `while !(learned_observed_addr && told_relay_observed_addr)`. -/
def Turn.identified (learned told : Bool) : Turn :=
  if learned && told then .leave (.done (.ok ())) else .wait (.identifying learned told)

/-- One turn of the loop of `connect_and_identify`. -/
def connectAndIdentify (learned told : Bool) : Wake → Option Turn
  | .event (.identifySent _) _ => some (.identified learned true)
  | .event (.identifyReceived _ _) _ => some (.identified true told)
  | .event _ _ => some (.wait (.identifying learned told))
  | .streamEnded => some (.bail "client setup swarm stream ended unexpectedly")
  | .timedOut => some (.bail "relay connect timed out after 30s")
  | _ => none

/-- One turn of the loop of `wait_for_peer_connection`: `none` in it means that the loop goes
on. -/
def waitForPeerConnection (expected : PeerId) : Wake → Option (Option (Except Report Unit))
  | .event (.connectionEstablished peer) _ =>
      some (if peer = expected then some (.ok ()) else none)
  | .event _ _ => some none
  | .streamEnded => some (some (.error (.msg "client dial swarm stream ended unexpectedly")))
  | .connectTimedOut => some (some (.error (.msg "peer dial timed out after 30s")))
  | _ => none

/-- The first address of an mDNS event that belongs to the expected peer. -/
def firstOf (expected : PeerId) (peers : List (PeerId × Multiaddr)) : Option Multiaddr :=
  (peers.find? fun entry => decide (entry.1 = expected)).map Prod.snd

theorem mem_of_firstOf {expected : PeerId} {peers : List (PeerId × Multiaddr)} {addr : Multiaddr}
    (h : firstOf expected peers = some addr) : (expected, addr) ∈ peers := by
  obtain ⟨⟨peer, addr'⟩, hfind, rfl⟩ := Option.map_eq_some_iff.mp h
  have hpeer := List.find?_some hfind
  rw [decide_eq_true_eq] at hpeer
  exact hpeer ▸ List.mem_of_find?_eq_some hfind

/-- One turn of the loop of `wait_for_mdns_and_connect`. -/
def waitForMdnsAndConnect (expected : PeerId) : Wake → Option Turn
  | .event (.mdnsDiscovered peers) dialed =>
      match firstOf expected peers with
      | none => some (.wait (.waitingMdns expected))
      | some _ =>
          match dialed with
          | .ok () => some (.wait (.connectingMdns expected))
          | .error err => some (.bail err)
  | .event (.connectionEstablished peer) _ =>
      if peer = expected then some (.leave (.done (.ok ())))
      else some (.wait (.waitingMdns expected))
  | .event _ _ => some (.wait (.waitingMdns expected))
  | .streamEnded => some (.bail "swarm stream ended while waiting for mDNS discovery")
  | _ => none

/-- One turn of the loop of `wait_for_rendezvous_discovery`. -/
def waitForRendezvousDiscovery (point : PeerId) : Wake → Option Turn
  | .event (.discovered node registrations) _ =>
      if node = point then
        match registrations.head? with
        | none => some (.wait (.waitingRendezvous point))
        | some registration => some (.wait (.connectingRendezvous point registration.peer))
      else some (.wait (.waitingRendezvous point))
  | .event (.discoverFailed node code err) _ =>
      if node = point then
        some (.leave (.discovered (.error
          (.msg s!"rendezvous discovery failed for namespace {code}: {err}"))))
      else some (.wait (.waitingRendezvous point))
  | .event _ _ => some (.wait (.waitingRendezvous point))
  | .streamEnded =>
      some (.leave (.discovered (.error
        (.msg "swarm stream ended while waiting for rendezvous discovery"))))
  | .timedOut =>
      some (.leave (.discovered (.error (.msg "rendezvous discovery timed out after 30s"))))
  | _ => none

/-- `address`, or `address.with(Protocol::P2p(peer))` where it does not end so. -/
def withPeer (peer : PeerId) (address : Multiaddr) : Multiaddr :=
  if address.getLast? = some (.p2p peer) then address else address ++ [.p2p peer]

/-- What is dialed for a registration. -/
def Registration.dialable (registration : Registration) : List Multiaddr :=
  registration.addresses.map (withPeer registration.peer)

namespace SwarmTask

/-- One turn. -/
def turn : SwarmTask → Wake → Option Turn
  | .dialingRelay _, .called (.ok ()) => some (.identified false false)
  | .dialingRelay _, .called (.error err) => some (.bail err)
  | .dialingRelay _, _ => none
  | .identifying learned told, wake => connectAndIdentify learned told wake
  | .waitingPeer expected, wake =>
      (waitForPeerConnection expected wake).map fun
        | none => .wait (.waitingPeer expected)
        | some result => .leave (.done result)
  | .waitingMdns expected, wake => waitForMdnsAndConnect expected wake
  | .connectingMdns expected, wake =>
      (waitForPeerConnection expected wake).map fun
        | none => .wait (.connectingMdns expected)
        | some result => .leave (.done result)
  | .waitingRendezvous point, wake => waitForRendezvousDiscovery point wake
  -- the timeout of the discovery runs on during the wait for the connection
  | .connectingRendezvous _ _, .timedOut =>
      some (.leave (.discovered (.error (.msg "rendezvous discovery timed out after 30s"))))
  | .connectingRendezvous point peer, wake =>
      (waitForPeerConnection peer wake).map fun
        | none => .wait (.connectingRendezvous point peer)
        | some result => .leave (.discovered (result.map fun _ => peer))

/-- The addresses that a turn passes to `swarm.dial`. -/
def dials : SwarmTask → Wake → List Multiaddr
  | .dialingRelay relayAddress, .called _ => [relayAddress]
  | .waitingMdns expected, .event (.mdnsDiscovered peers) _ => (firstOf expected peers).toList
  | .waitingRendezvous point, .event (.discovered node registrations) _ =>
      if node = point then registrations.head?.toList.flatMap Registration.dialable else []
  | _, _ => []

/-- The loop behind an operation of `run_dial`. -/
def ofOp : DialOp → Option SwarmTask
  | .connectAndIdentify relayAddress => some (.dialingRelay relayAddress)
  | .waitForPeerConnection peer => some (.waitingPeer peer)
  | .waitForMdnsAndConnect peer => some (.waitingMdns peer)
  | .waitForRendezvousDiscovery point => some (.waitingRendezvous point)
  | _ => none

end SwarmTask

/-! ## A loop as a machine -/

/-- A call of one of the four functions. -/
structure Loop where
  turn : Turn
  dialed : List Multiaddr := []
  seen : List SwarmEvent := []
  deriving DecidableEq, Repr, Inhabited

/-- One step. -/
def Loop.step (loop : Loop) (wake : Wake) : Option Loop :=
  match loop.turn with
  | .leave _ => none
  | .wait task =>
      (task.turn wake).map fun turn =>
        { turn := turn
          dialed := loop.dialed ++ task.dials wake
          seen := loop.seen ++ wake.seen }

/-- The machine of a call. -/
def SwarmTask.machine (task : SwarmTask) : Machine Loop Wake where
  start := { turn := .wait task }
  step := Loop.step

theorem Loop.step_cases {loop next : Loop} {wake : Wake} (h : loop.step wake = some next) :
    ∃ task turn, loop.turn = .wait task ∧ task.turn wake = some turn ∧
      next = { turn := turn
               dialed := loop.dialed ++ task.dials wake
               seen := loop.seen ++ wake.seen } := by
  unfold Loop.step at h
  split at h
  · cases h
  · rename_i task htask
    obtain ⟨turn, hturn, rfl⟩ := Option.map_eq_some_iff.mp h
    exact ⟨task, turn, htask, hturn, rfl⟩

/-- `wait_for_peer_connection` returns `Ok` for the expected peer only. -/
theorem established_of_wait {expected : PeerId} {wake : Wake}
    (h : waitForPeerConnection expected wake = some (some (.ok ()))) :
    ∃ dialed, wake = .event (.connectionEstablished expected) dialed := by
  cases wake with
  | event event dialed =>
      cases event with
      | connectionEstablished peer =>
          simp only [waitForPeerConnection, Option.some.injEq] at h
          split at h
          · rename_i hpeer
            exact ⟨dialed, by rw [hpeer]⟩
          · cases h
      | _ => cases h
  | _ => cases h

end Sape
