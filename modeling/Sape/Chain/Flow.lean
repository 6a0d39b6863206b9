/-
  Chain/Flow.lean --- where every payload byte is, in every run.

  A stream of the chain begins with a head, the frame that its two ends exchange
  about the jump, and goes on with the tunnel: away from the dialer the frame of the
  tunnel request and what the dialer's user types, towards it what the accepting
  peer answers.  A bridging relay is a copier behind the heads of its two streams,
  once for each direction.

  WHAT IS PROVED.

      flow_of_moves    a relay's step keeps the invariant if it keeps the relay's own
                       part of it
-/
import Sape.Chain.Opening
import Sape.Foundation.Copy

set_option autoImplicit false

namespace Sape.Chain

open Sape.Foundation

/-! ## Heads and tunnels -/

/-- `TunnelRequest::Netcat` as a frame. -/
def netcatFrame : Bytes := [0, 0, 0, 1, 0]

theorem writeTunnelRequest_netcat : writeTunnelRequest .netcat = .ok netcatFrame := rfl

/-- What goes ahead of the tunnel on the stream into place `i`: the frame of the hops
left for it, and nothing on the tunnel stream behind the last relay. -/
def headDown (setup : Setup) (i : Nat) : Bytes :=
  if i = 0 ∨ i < setup.hops.length then
    match writeJumpChain ⟨setup.hops.drop i⟩ with
    | .ok written => written
    | .error _ => []
  else []

/-- What goes ahead of the answers: `JumpResult::Ok`, and nothing on the tunnel
stream. -/
def headUp (setup : Setup) (i : Nat) : Bytes :=
  if i = 0 ∨ i < setup.hops.length then [0, 0, 0, 1, 0] else []

/-- The tunnel, away from the dialer. -/
def tunnelDown (setup : Setup) : Bytes := netcatFrame ++ setup.fromDialer

theorem headDown_of_write {setup : Setup} {i : Nat} {written : Bytes}
    (hplace : i = 0 ∨ i < setup.hops.length)
    (hwrite : writeJumpChain ⟨setup.hops.drop i⟩ = .ok written) :
    headDown setup i = written := by
  unfold headDown
  rw [if_pos hplace, hwrite]

theorem headDown_of_le {setup : Setup} {i : Nat} (hlast : 0 < i ∧ setup.hops.length ≤ i) :
    headDown setup i = [] := if_neg (by omega)

theorem headUp_of_place {setup : Setup} {i : Nat} (hplace : i = 0 ∨ i < setup.hops.length) :
    headUp setup i = [0, 0, 0, 1, 0] := if_pos hplace

theorem headUp_of_le {setup : Setup} {i : Nat} (hlast : 0 < i ∧ setup.hops.length ≤ i) :
    headUp setup i = [] := if_neg (by omega)

/-! ## The flow invariant -/

/-- Relay `i` has taken the head off its inbound stream and holds no payload. -/
structure HeadTaken (setup : Setup) (net : Net) (i : Nat) (relay : RelayNode) : Prop where
  head : headDown setup i <+: (net.link i).down.sent
  taken : (net.link i).down.taken = (headDown setup i).length
  downBuf : relay.downBuf = []
  upBuf : relay.upBuf = []

/-- Relay `i` copies in both directions, behind the heads. -/
structure Bridged (setup : Setup) (net : Net) (i : Nat) (relay : RelayNode) : Prop where
  down : Copied (headDown setup i) (net.link i).down.sent (net.link i).down.taken
    relay.downBuf (headDown setup (i + 1)) (net.link (i + 1)).down.sent
  up : Copied (headUp setup (i + 1)) (net.link (i + 1)).up.sent (net.link (i + 1)).up.taken
    relay.upBuf (headUp setup i) (net.link i).up.sent

/-- What relay `i` has taken and passed on, by the await it is suspended on. -/
def TaskFlow (setup : Setup) (net : Net) (i : Nat) (relay : RelayNode) : Prop :=
  match relay.task with
  | .readingChain => relay.downBuf = [] ∧ relay.upBuf = []
  | .dialing _ _ _ | .opening _ _ _ | .sleeping _ _ _ | .writingChain _ =>
      HeadTaken setup net i relay
  | .readingResult =>
      HeadTaken setup net i relay ∧ (net.link (i + 1)).down.sent = headDown setup (i + 1)
  | .writingOk =>
      HeadTaken setup net i relay ∧ (net.link (i + 1)).down.sent = headDown setup (i + 1) ∧
        headUp setup (i + 1) <+: (net.link (i + 1)).up.sent ∧
        (net.link (i + 1)).up.taken = (headUp setup (i + 1)).length
  | .bridging | .ended (.ok _) => Bridged setup net i relay
  | .replying _ _ | .ended (.error _) => True

/-- What the dialer has put on the first stream. -/
def DialerFlow (setup : Setup) (net : Net) : Prop :=
  match net.dialer with
  | .openingJump _ _ | .writingChain _ => net.dialerSent = 0
  | .readingResult | .writingJumpRequest =>
      net.dialerSent = 0 ∧ (net.link 0).down.sent = headDown setup 0
  | .jumpNetcat =>
      (net.link 0).down.sent =
        headDown setup 0 ++ (netcatFrame ++ setup.fromDialer.take net.dialerSent)
  | _ => True

/-- The flow invariant. -/
structure Flow (setup : Setup) (net : Net) : Prop where
  down : ∀ i, (net.link i).down.sent <+: headDown setup i ++ tunnelDown setup
  up : ∀ i, (i = 0 ∨ i < setup.hops.length → Reported net i) →
    (net.link i).up.sent <+: headUp setup i ++ setup.fromListener
  task : ∀ {i relay}, net.node i = .relay relay → TaskFlow setup net i relay
  dialer : DialerFlow setup net
  acceptor : ∀ {i self}, net.node i = .acceptor self → i = setup.hops.length ∧
    (net.link i).up.sent = setup.fromListener.take net.listenerSent
  unanswered : (∀ self, net.node setup.hops.length ≠ .acceptor self) → net.listenerSent = 0

/-! ## Places that do not move -/

theorem HeadTaken.keep {setup : Setup} {net next : Net} {i : Nat} {relay : RelayNode}
    (h : HeadTaken setup net i relay) (hlower : LowerIdle (net.link i) (next.link i)) :
    HeadTaken setup next i relay :=
  ⟨h.head.trans hlower.downSent, hlower.downTaken.trans h.taken, h.downBuf, h.upBuf⟩

theorem HeadTaken.congr {setup : Setup} {net : Net} {i : Nat} {relay moved : RelayNode}
    (h : HeadTaken setup net i relay) (hdown : moved.downBuf = relay.downBuf)
    (hup : moved.upBuf = relay.upBuf) : HeadTaken setup net i moved :=
  ⟨h.head, h.taken, hdown.trans h.downBuf, hup.trans h.upBuf⟩

theorem Bridged.keep {setup : Setup} {net next : Net} {i : Nat} {relay : RelayNode}
    (h : Bridged setup net i relay) (hlower : LowerIdle (net.link i) (next.link i))
    (hupper : UpperIdle (net.link (i + 1)) (next.link (i + 1))) :
    Bridged setup next i relay where
  down := by
    rw [hlower.downTaken, hupper.downSent]
    exact h.down.grow hlower.downSent
  up := by
    rw [hupper.upTaken, hlower.upSent]
    exact h.up.grow hupper.upSent

theorem TaskFlow.keep {setup : Setup} {net next : Net} {i : Nat} {relay : RelayNode}
    (h : TaskFlow setup net i relay) (hlower : LowerIdle (net.link i) (next.link i))
    (hupper : UpperIdle (net.link (i + 1)) (next.link (i + 1))) :
    TaskFlow setup next i relay := by
  unfold TaskFlow at h ⊢
  split <;> rename_i htask <;> rw [htask] at h
  · exact h
  · exact h.keep hlower
  · exact h.keep hlower
  · exact h.keep hlower
  · exact h.keep hlower
  · exact ⟨h.1.keep hlower, hupper.downSent.trans h.2⟩
  · obtain ⟨hhead, hsent, hup, htaken⟩ := h
    exact ⟨hhead.keep hlower, hupper.downSent.trans hsent, hup.trans hupper.upSent,
      hupper.upTaken.trans htaken⟩
  · exact h.keep hlower hupper
  · exact h.keep hlower hupper
  · trivial
  · trivial

theorem DialerFlow.keep {setup : Setup} {net next : Net} (h : DialerFlow setup net)
    (hdialer : next.dialer = net.dialer) (hcount : next.dialerSent = net.dialerSent)
    (hsent : (next.link 0).down.sent = (net.link 0).down.sent) : DialerFlow setup next := by
  unfold DialerFlow at h ⊢
  rwa [hdialer, hcount, hsent]

/-- A relay's step keeps the invariant if it keeps the relay's part of it and what the
relay puts on its two streams. -/
theorem flow_of_moves {setup : Setup} {net next : Net} {i : Nat} {relay moved : RelayNode}
    (hflow : Flow setup net) (hnode : net.node i = .relay relay)
    (hmoved : next.node i = .relay moved) (hmoves : Moves net next i)
    (hcounts : next.dialerSent = net.dialerSent ∧ next.listenerSent = net.listenerSent)
    (hdown : (next.link (i + 1)).down.sent <+: headDown setup (i + 1) ++ tunnelDown setup)
    (hup : (i = 0 ∨ i < setup.hops.length → Reported next i) →
      (next.link i).up.sent <+: headUp setup i ++ setup.fromListener)
    (htask : TaskFlow setup next i moved) : Flow setup next where
  down j := by
    by_cases hj : j = i
    · rw [hj, hmoves.upper.downSent]
      exact hflow.down i
    · by_cases hj' : j = i + 1
      · exact hj' ▸ hdown
      · rw [hmoves.link j hj hj']
        exact hflow.down j
  up j hreported := by
    by_cases hj : j = i
    · subst hj
      exact hup hreported
    · have hsent := (hmoves.lower_ne hj).upSent
      rw [hsent]
      exact hflow.up j fun hplace => (hreported hplace).mono (hsent ▸ List.prefix_rfl)
  task {j other} hother := by
    by_cases hj : j = i
    · subst hj
      exact Node.relay.inj (hmoved.symm.trans hother) ▸ htask
    · rw [hmoves.node j hj] at hother
      exact (hflow.task hother).keep (hmoves.lower_ne hj) (hmoves.upper_ne hj)
  dialer := hflow.dialer.keep hmoves.dialer hcounts.1 hmoves.upper_zero.downSent
  acceptor {j self} hself := by
    by_cases hj : j = i
    · rw [hj, hmoved] at hself
      cases hself
    · rw [hmoves.node j hj] at hself
      rw [(hmoves.lower_ne hj).upSent, hcounts.2]
      exact hflow.acceptor hself
  unanswered hnone := by
    rw [hcounts.2]
    refine hflow.unanswered fun self hself => ?_
    by_cases hj : setup.hops.length = i
    · rw [hj, hnode] at hself
      cases hself
    · exact hnone self ((hmoves.node _ hj).trans hself)

/-- A step of a relay that puts nothing on its streams. -/
theorem flow_of_quiet {setup : Setup} {net behind : Net} {i : Nat} {relay moved : RelayNode}
    (hflow : Flow setup net) (hnode : net.node i = .relay relay) (hmoves : Moves net behind i)
    (hcounts : behind.dialerSent = net.dialerSent ∧ behind.listenerSent = net.listenerSent)
    (hdown : (behind.link (i + 1)).down.sent = (net.link (i + 1)).down.sent)
    (hnil : (behind.link i).up.sent = []) (htask : TaskFlow setup behind i moved) :
    Flow setup (behind.setNode i (.relay moved)) := by
  refine flow_of_moves hflow hnode (Net.setNode_node_self ..) (hmoves.setNode _) hcounts ?_ ?_
    (htask.keep (LowerIdle.refl _) (UpperIdle.refl _))
  · rw [Net.setNode_link, hdown]
    exact hflow.down (i + 1)
  · intro _
    rw [Net.setNode_link, hnil]
    exact List.nil_prefix

end Sape.Chain
