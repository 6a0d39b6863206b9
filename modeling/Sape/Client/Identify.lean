/-
  Client/Identify.lean --- whose identify events `connect_and_identify` goes by.

  The loop waits until an identify exchange has gone both ways, "with the relay" by its
  messages, but it looks at the peer of neither event.  mDNS and the listeners of the
  client run by then, so any peer may have connected.

  WHAT IS PROVED.

      told_of_ok, learned_of_ok   an `Ok` stands for both events, of some peer each
      exists_ok                   and any peer's events will do
      connectAndIdentify_iff      so `Ok` is about the relay exactly where no other peer
                                  exchanges identify messages
-/
import Sape.Client.Swarm

set_option autoImplicit false

namespace Sape

open Sape.Foundation

/-- The peer that an identify event is about. -/
def SwarmEvent.identifyPeer : SwarmEvent → Option PeerId
  | .identifySent peer => some peer
  | .identifyReceived peer _ => some peer
  | _ => none

/-- Some peer was told its observed address. -/
def Told (seen : List SwarmEvent) : Prop := ∃ peer, .identifySent peer ∈ seen

/-- Some peer has told us ours. -/
def Learned (seen : List SwarmEvent) : Prop := ∃ peer addr, .identifyReceived peer addr ∈ seen

/-- An identify exchange with one peer went both ways. -/
def IdentifiedWith (peer : PeerId) (seen : List SwarmEvent) : Prop :=
  .identifySent peer ∈ seen ∧ ∃ addr, .identifyReceived peer addr ∈ seen

theorem Told.append {seen : List SwarmEvent} (h : Told seen) (more : List SwarmEvent) :
    Told (seen ++ more) := by
  obtain ⟨peer, hmem⟩ := h
  exact ⟨peer, List.mem_append_left _ hmem⟩

theorem Learned.append {seen : List SwarmEvent} (h : Learned seen) (more : List SwarmEvent) :
    Learned (seen ++ more) := by
  obtain ⟨peer, addr, hmem⟩ := h
  exact ⟨peer, addr, List.mem_append_left _ hmem⟩

/-- What the flags stand for. -/
structure Flags (learned told : Bool) (seen : List SwarmEvent) : Prop where
  learned : learned = true → Learned seen
  told : told = true → Told seen

theorem Flags.start (seen : List SwarmEvent) : Flags false false seen :=
  ⟨fun h => absurd h Bool.false_ne_true, fun h => absurd h Bool.false_ne_true⟩

/-- What holds of a call of `connect_and_identify`. -/
def IdentifyInv (loop : Loop) : Prop :=
  match loop.turn with
  | .wait (.dialingRelay _) => True
  | .wait (.identifying learned told) => Flags learned told loop.seen
  | .wait _ => False
  | .leave (.done (.ok ())) => Learned loop.seen ∧ Told loop.seen
  | .leave _ => True

theorem identifyInv_identified {learned told : Bool} {loop : Loop}
    (hturn : loop.turn = .identified learned told) (hflags : Flags learned told loop.seen) :
    IdentifyInv loop := by
  unfold IdentifyInv
  rw [hturn]
  unfold Turn.identified
  by_cases hboth : (learned && told) = true
  · rw [if_pos hboth]
    obtain ⟨hlearned, htold⟩ := Bool.and_eq_true_iff.mp hboth
    exact ⟨hflags.learned hlearned, hflags.told htold⟩
  · rw [if_neg hboth]
    exact hflags

theorem identifyInv_step {loop next : Loop} {wake : Wake} (hinv : IdentifyInv loop)
    (h : loop.step wake = some next) : IdentifyInv next := by
  obtain ⟨task, turn, htask, hturn, rfl⟩ := Loop.step_cases h
  unfold IdentifyInv at hinv
  rw [htask] at hinv
  cases task with
  | dialingRelay relayAddress =>
      cases wake with
      | called dialed =>
          cases dialed with
          | ok done =>
              obtain rfl := Option.some.inj hturn
              exact identifyInv_identified rfl (.start _)
          | error err =>
              obtain rfl := Option.some.inj hturn
              trivial
      | _ => cases hturn
  | identifying learned told =>
      have hflags : Flags learned told loop.seen := hinv
      have hmore : Flags learned told (loop.seen ++ wake.seen) :=
        ⟨fun h => (hflags.learned h).append _, fun h => (hflags.told h).append _⟩
      cases wake with
      | event event dialed =>
          cases event with
          | identifySent peer =>
              obtain rfl := Option.some.inj hturn
              refine identifyInv_identified rfl ⟨hmore.learned, fun _ => ⟨peer, ?_⟩⟩
              exact List.mem_append_right _ List.mem_cons_self
          | identifyReceived peer addr =>
              obtain rfl := Option.some.inj hturn
              refine identifyInv_identified rfl ⟨fun _ => ⟨peer, addr, ?_⟩, hmore.told⟩
              exact List.mem_append_right _ List.mem_cons_self
          | _ =>
              obtain rfl := Option.some.inj hturn
              exact hmore
      | streamEnded =>
          obtain rfl := Option.some.inj hturn
          trivial
      | timedOut =>
          obtain rfl := Option.some.inj hturn
          trivial
      | called dialed => cases hturn
      | connectTimedOut => cases hturn
  | waitingPeer expected => exact hinv.elim
  | waitingMdns expected => exact hinv.elim
  | connectingMdns expected => exact hinv.elim
  | waitingRendezvous point => exact hinv.elim
  | connectingRendezvous point peer => exact hinv.elim

/-- A call that returned `Ok` has seen both events, of some peer each. -/
theorem flags_of_ok {relayAddress : Multiaddr} {wakes : List Wake} {loop : Loop}
    (hrun : (SwarmTask.dialingRelay relayAddress).machine.Reaches wakes loop)
    (hok : loop.turn = .leave (.done (.ok ()))) : Learned loop.seen ∧ Told loop.seen := by
  have hstart : IdentifyInv (SwarmTask.dialingRelay relayAddress).machine.start := trivial
  have hinv : IdentifyInv loop := Machine.invariant IdentifyInv hstart
    (fun hinv hstep => identifyInv_step hinv hstep) hrun
  unfold IdentifyInv at hinv
  rwa [hok] at hinv

/-- An exchange with any peer makes the call return `Ok`. -/
theorem exists_ok (relayAddress : Multiaddr) (peer : PeerId) :
    ∃ loop, (SwarmTask.dialingRelay relayAddress).machine.Reaches
        [.called (.ok ()), .event (.identifySent peer) (.ok ()),
          .event (.identifyReceived peer []) (.ok ())] loop ∧
      loop.turn = .leave (.done (.ok ())) ∧
      loop.seen = [.identifySent peer, .identifyReceived peer []] :=
  ⟨_, rfl, rfl, rfl⟩

/-- For every set of peers that exchange identify messages with the client while
`connect_and_identify` runs: an `Ok` means, whatever the order of events, that both events
of the relay were seen, exactly when no peer but the relay is in the set. -/
theorem connectAndIdentify_iff {relayAddress : Multiaddr} {relay : PeerId}
    (hrelay : peerIdFromMultiaddr relayAddress = some relay) (peers : PeerId → Prop) :
    (∀ wakes loop, (SwarmTask.dialingRelay relayAddress).machine.Reaches wakes loop →
        (∀ event ∈ loop.seen, ∀ peer, event.identifyPeer = some peer → peers peer) →
        loop.turn = .leave (.done (.ok ())) →
        ∃ named, peerIdFromMultiaddr relayAddress = some named ∧
          IdentifiedWith named loop.seen) ↔
      ∀ peer, peers peer → peer = relay := by
  constructor
  · intro hlaw peer hpeer
    obtain ⟨loop, hrun, hok, hseen⟩ := exists_ok relayAddress peer
    have hpeers : ∀ event ∈ loop.seen, ∀ other, event.identifyPeer = some other → peers other := by
      rw [hseen]
      simp [SwarmEvent.identifyPeer, hpeer]
    obtain ⟨named, hnamed, hsent, -⟩ := hlaw _ loop hrun hpeers hok
    obtain rfl : relay = named := Option.some.inj (hrelay.symm.trans hnamed)
    rw [hseen] at hsent
    simpa [eq_comm] using hsent
  · intro honly wakes loop hrun hpeers hok
    obtain ⟨⟨peer, addr, hreceived⟩, peer', hsent⟩ := flags_of_ok hrun hok
    obtain rfl := honly peer (hpeers _ hreceived peer rfl)
    obtain rfl := honly peer' (hpeers _ hsent peer' rfl)
    exact ⟨_, hrelay, hsent, addr, hreceived⟩

/-- The address of relay 1. -/
def relayOne : Multiaddr := [.ip4 1, .tcp 4001, .p2p ⟨[1]⟩]

theorem connectAndIdentify_iff_relayOne :
    ∃ loop, (SwarmTask.dialingRelay relayOne).machine.Reaches
        [.called (.ok ()), .event (.identifySent ⟨[1]⟩) (.ok ()),
          .event (.identifyReceived ⟨[1]⟩ []) (.ok ())] loop ∧
      ∃ named, peerIdFromMultiaddr relayOne = some named ∧ IdentifiedWith named loop.seen := by
  obtain ⟨loop, hrun, hok, hseen⟩ := exists_ok relayOne ⟨[1]⟩
  refine ⟨loop, hrun, (connectAndIdentify_iff rfl fun peer => peer = ⟨[1]⟩).mpr
    (fun peer h => h) _ loop hrun ?_ hok⟩
  rw [hseen]
  simp [SwarmEvent.identifyPeer]

/-- With peer 7's identify exchange, and nothing of relay 1, the call returns `Ok`. -/
theorem strangerIdentified :
    ∃ loop, (SwarmTask.dialingRelay relayOne).machine.Reaches
        [.called (.ok ()), .event (.identifySent ⟨[7]⟩) (.ok ()),
          .event (.identifyReceived ⟨[7]⟩ []) (.ok ())] loop ∧
      loop.turn = .leave (.done (.ok ())) ∧ peerIdFromMultiaddr relayOne = some ⟨[1]⟩ ∧
      ¬ IdentifiedWith ⟨[1]⟩ loop.seen := by
  obtain ⟨loop, hrun, hok, hseen⟩ := exists_ok relayOne ⟨[7]⟩
  refine ⟨loop, hrun, hok, rfl, fun h => ?_⟩
  have hsent := h.1
  rw [hseen] at hsent
  simp at hsent

end Sape
