/-
  Chain/Soundness.lean --- what an `Ok` that reaches the dialer stands for.

  The `Ok` travels up the chain one relay at a time, so a dialer that holds it has
  an established relay at every place.  The same induction, started at a relay that
  has become a bridge, says that nobody bridges ahead of the relays below.
-/
import Sape.Chain.Progress

set_option autoImplicit false

namespace Sape.Chain

open Sape.Foundation

/-- Everywhere on the chain of a dialer that holds `Ok` there is an established
relay. -/
theorem established_of_answer {setup : Setup} {net : Net} (hinv : Inv setup net)
    (hanswer : net.answer = some (.ok .ok)) :
    0 < setup.hops.length ∧ ∀ i, i < setup.hops.length →
      ∃ relay, net.node i = .relay relay ∧ Established setup net i relay := by
  have hreported := hinv.answered hanswer
  obtain ⟨relay, hnode, hestablished⟩ := established_of_reported hinv (.inl rfl) hreported
  obtain ⟨-, peer, protocol, -, hop, addr, hget, -⟩ := hestablished.opened
  have hpos : 0 < setup.hops.length := (List.getElem?_eq_some_iff.mp hget).1
  refine ⟨hpos, fun i hi => ?_⟩
  by_cases hzero : i = 0
  · subst hzero
    exact ⟨relay, hnode, hestablished⟩
  · exact established_of_reported hinv (.inr hi)
      (reported_of_established hinv hestablished i (by omega) hi)

/-- A dialer that reads `Ok` has a chain on which every relay received the hops left
for it and opened its outbound stream, the last one with the tunnel protocol and the
others with the jump protocol; and in no state can a relay move payload before all
the relays below it have reported `Ok`. -/
theorem jumpOk_sound {setup : Setup} {labels : List Net.Label} {net : Net}
    (hrun : (machine setup).Reaches labels net) :
    (net.answer = some (.ok .ok) → 0 < setup.hops.length ∧ ∀ i, i < setup.hops.length →
      ∃ relay peer, net.node i = .relay relay ∧
        relay.received = some ⟨setup.hops.drop i⟩ ∧
        relay.opened = some (peer,
          if i + 1 < setup.hops.length then jumpProtocol setup.nspace
          else tunnelProtocol setup.nspace)) ∧
    ∀ i move next, net.copyStep i move = some next →
      ∀ j, i < j → j < setup.hops.length → Reported net j := by
  have hinv := inv_of_reaches hrun
  constructor
  · intro hanswer
    obtain ⟨hpos, hall⟩ := established_of_answer hinv hanswer
    refine ⟨hpos, fun i hi => ?_⟩
    obtain ⟨relay, hnode, hestablished⟩ := hall i hi
    obtain ⟨hreceived, peer, protocol, hopened, hop, addr, -, -, rfl⟩ := hestablished.opened
    exact ⟨relay, peer, hnode, hreceived, by rw [hopened, outboundProtocol_drop]⟩
  · intro i move next hcopy
    obtain ⟨relay, behind, moved, hnode, htask, -⟩ := copyStep_cases hcopy
    have hbridging := hinv.task hnode
    unfold TaskInv at hbridging
    rw [htask] at hbridging
    exact reported_of_established hinv hbridging.1

/-- A chain of two relays, and the run that sets it up. -/
def twoRelays : Setup where
  text := .ofTable [("b", [.tcp 1, .p2p ⟨[2]⟩]), ("t", [.tcp 1, .p2p ⟨[9]⟩])]
  nspace := "sape"
  opt := { target := .mdns ⟨[9]⟩ }
  dialerPeer := ⟨[0]⟩
  firstPeer := ⟨[1]⟩
  hops := ["b", "t"]

def twoRelaysRun : List Net.Label :=
  [.dialer .proceed, .dialer .proceed] ++ List.replicate 4 (.relay 0 .proceed) ++
    List.replicate 4 (.relay 1 .proceed) ++ List.replicate 2 (.relay 0 .proceed) ++
    [.dialer .proceed]

theorem jumpOk_sound_twoRelays :
    ∃ net, (machine twoRelays).Reaches twoRelaysRun net ∧ ∀ i, i < 2 →
      ∃ relay peer, net.node i = .relay relay ∧ relay.received = some ⟨["b", "t"].drop i⟩ ∧
        relay.opened = some (peer,
          if i + 1 < 2 then jumpProtocol "sape" else tunnelProtocol "sape") := by
  have hsome : ((machine twoRelays).exec (machine twoRelays).start twoRelaysRun).any
      (fun net => net.answer = some (.ok .ok)) = true := by
    decide
  obtain ⟨net, hrun, hanswer⟩ := Machine.exists_reaches_of_any hsome
  exact ⟨net, hrun, ((jumpOk_sound hrun).1 (of_decide_eq_true hanswer)).2⟩

end Sape.Chain
