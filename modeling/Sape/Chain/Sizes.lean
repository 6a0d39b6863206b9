/-
  Chain/Sizes.lean --- no relay of a chain refuses a frame for its size or its form.

  What a relay has read was inside the bound, and what it holds of the dialer's hops is
  a suffix of them.  So once the first relay has read its chain, every frame further
  down is inside the bound too.

  WHAT IS PROVED.

      sized_of_reaches         what was read is inside the bound, in every run
      jump_frames_accepted     a relay's frames fit the next reader, along a chain of
                               any length, and so do the results that come back
-/
import Sape.Chain.Opening
import Sape.Relay.Onward

set_option autoImplicit false

namespace Sape.Chain

open Sape.Foundation

/-- What every relay has read was inside the bound. -/
def Sized (net : Net) : Prop :=
  ∀ ⦃i relay chain⦄, net.node i = .relay relay → relay.received = some chain →
    (JumpChain.postcard.encode chain).length ≤ maxJumpRequestSize

theorem Sized.congr {net next : Net} (h : Sized net) (hnode : next.node = net.node) :
    Sized next := by
  intro i relay chain hrelay
  rw [hnode] at hrelay
  exact h hrelay

/-- Only the place that moves has to be looked at. -/
theorem Sized.of_relay {net next : Net} {i : Nat} {moved : RelayNode} (h : Sized net)
    (hself : next.node i = .relay moved) (hother : ∀ j, j ≠ i → next.node j = net.node j)
    (hmoved : ∀ chain, moved.received = some chain →
      (JumpChain.postcard.encode chain).length ≤ maxJumpRequestSize) : Sized next := by
  intro j relay chain hrelay
  by_cases hj : j = i
  · subst hj
    obtain rfl : relay = moved := Node.relay.inj (hrelay.symm.trans hself)
    exact hmoved chain
  · rw [hother j hj] at hrelay
    exact h hrelay

/-- A place that has just been opened has read nothing. -/
theorem Sized.of_opens {setup : Setup} {net next : Net} {i : Nat} {opener peer : PeerId}
    {protocol : StreamProtocol} (h : Sized net)
    (hopens : Opens setup net next i opener peer protocol)
    (hopener : ∀ j, j + 1 = i → ∀ {relay chain}, next.node j = .relay relay →
      relay.received = some chain →
      (JumpChain.postcard.encode chain).length ≤ maxJumpRequestSize) : Sized next := by
  intro j relay chain hrelay hreceived
  by_cases hj : j = i
  · subst hj
    rw [hopens.relay_eq hrelay] at hreceived
    cases hreceived
  · by_cases hup : j + 1 = i
    · exact hopener j hup hrelay hreceived
    · rw [hopens.node j hj hup] at hrelay
      exact h hrelay hreceived

/-- An operation that comes back leaves what a relay has read as it is, or has read it. -/
theorem received_of_perform {setup : Setup} {net behind : Net} {i : Nat}
    {relay history : RelayNode} {outcome : Outcome} {op : JumpOp} {event : JumpEvent}
    {chain : JumpChain}
    (h : net.perform setup i relay outcome op = some (event, history, behind))
    (hreceived : history.received = some chain) :
    relay.received = some chain ∨
      (JumpChain.postcard.encode chain).length ≤ maxJumpRequestSize := by
  cases op with
  | readChain =>
      simp only [Net.perform, Option.map_eq_some_iff, Prod.mk.injEq] at h
      obtain ⟨⟨result, pipe⟩, hstep, -, rfl, -⟩ := h
      cases result with
      | error err => cases hreceived
      | ok read =>
          obtain rfl : read = chain := Option.some.inj hreceived
          obtain ⟨rest, hread, -⟩ := readStep_ok hstep
          exact .inr (Frame.read_ok hread).2.1
  | writeResult result | writeChain result | readResult =>
      simp only [Net.perform, Option.map_eq_some_iff, Prod.mk.injEq] at h
      obtain ⟨⟨done, pipe⟩, -, -, rfl, -⟩ := h
      exact .inl hreceived
  | sendDial addr | openStream peer protocol | sleep millis =>
      cases outcome <;> simp only [Net.perform, Option.some.injEq, Prod.mk.injEq, reduceCtorEq] at h
      all_goals
        obtain ⟨-, rfl, -⟩ := h
        exact .inl hreceived
  | copyBidirectional => cases h

theorem sized_relayStep {setup : Setup} {net next : Net} {i : Nat} {outcome : Outcome}
    (hsized : Sized net) (h : net.relayStep setup i outcome = some next) : Sized next := by
  obtain ⟨relay, op, event, history, behind, task, hnode, -, hperform, -, rfl⟩ := relayStep_cases h
  have hmoved : ∀ chain, history.received = some chain →
      (JumpChain.postcard.encode chain).length ≤ maxJumpRequestSize := by
    intro chain hreceived
    obtain hold | hread := received_of_perform hperform hreceived
    · exact hsized hnode hold
    · exact hread
  obtain ⟨hmoves, -⟩ | ⟨peer, protocol, -, -, rfl, rfl⟩ := perform_moves hperform
  · have hself : (behind.setNode i (.relay { history with task := task })).node i =
        .relay { history with task := task } := Net.setNode_node_self ..
    refine hsized.of_relay hself (fun j hj => ?_) hmoved
    rw [Net.setNode_node_ne _ _ hj]
    exact hmoves.node j hj
  · apply hsized.of_opens (opens_relay setup net i relay.self peer protocol
      { relay with opened := some (peer, protocol), task := task })
    intro j hj opener chain hopener
    obtain rfl : j = i := Nat.succ.inj hj
    rw [Net.setNode_node_self] at hopener
    obtain rfl := Node.relay.inj hopener
    exact hmoved chain

theorem sized_step {setup : Setup} {net next : Net} {label : Net.Label} (hinv : Inv setup net)
    (hsized : Sized net) (h : net.step setup label = some next) : Sized next := by
  cases move_of_step h with
  | dialer h =>
      obtain ⟨hnode, -⟩ | ⟨peer, hops, -, rfl⟩ := dialerStep_node hinv h
      · exact hsized.congr hnode
      · exact hsized.of_opens (opens_dialer setup net peer (.writingChain hops))
          fun j hj => absurd hj (Nat.succ_ne_zero j)
  | relay h => exact sized_relayStep hsized h
  | copy h =>
      obtain ⟨relay, behind, moved, hnode, -, hmoves, rfl, -, -, hreceived, -⟩ := copyStep_cases h
      refine hsized.of_relay (Net.setNode_node_self ..) (fun j hj => ?_) fun chain hsome => ?_
      · rw [Net.setNode_node_ne _ _ hj]
        exact hmoves.node j hj
      · rw [hreceived] at hsome
        exact hsized hnode hsome
  | stdin | stdout | send | receive => exact hsized.congr rfl

theorem sized_of_reaches {setup : Setup} {labels : List Net.Label} {net : Net}
    (hrun : (machine setup).Reaches labels net) : Sized net := by
  have hboth : Inv setup net ∧ Sized net := by
    apply Machine.invariant (fun net => Inv setup net ∧ Sized net) _ _ hrun
    · exact ⟨inv_start setup, fun i relay chain hrelay => (by cases hrelay)⟩
    · rintro net label next ⟨hinv, hsized⟩ hstep
      exact ⟨inv_step hinv hstep, sized_step hinv hsized hstep⟩
  exact hboth.2

/-! ## Frames -/

/-- A relay of a chain whose first relay has read its hops is one of the places that the
hops lead to, and reads the hops that are left for it, or waits for the rest of its frame. -/
theorem read_of_reaches {setup : Setup} {labels : List Net.Label} {net : Net}
    (hrun : (machine setup).Reaches labels net) {first relay : RelayNode} {chain : JumpChain}
    (hfirst : net.node 0 = .relay first) (hreceived : first.received = some chain) {i : Nat}
    (hnode : net.node i = .relay relay) :
    i + 1 ≤ max 1 chain.hops.length ∧
      (relay.task = .readingChain →
        (net.link i).down.readFrame readJumpChain = none ∨
          ∃ next, (net.link i).down.readFrame readJumpChain =
            some (.ok ⟨chain.hops.drop i⟩, next)) := by
  have hinv := inv_of_reaches hrun
  have hrelay := hinv.relay hnode
  obtain rfl : chain = ⟨setup.hops⟩ := (hinv.relay hfirst).received chain hreceived
  have hsize := sized_of_reaches hrun hfirst hreceived
  constructor
  · have hplace := hrelay.place
    show i + 1 ≤ max 1 setup.hops.length
    omega
  · intro htask
    have htaken := hrelay.task
    unfold TaskInv at htaken
    rw [htask] at htaken
    exact readFrame_of_fed hsize hrelay.fed htaken.1

/-- Relayed frames are accepted by whoever reads them next. -/
structure FramesAccepted (text : Libp2pText) (nspace : String) : Prop where
  /-- Behind any stream that a chain of two hops or more was read from, the hops behind the
  first one fit. -/
  fits : ∀ {stream rest : Bytes} {chain : JumpChain}, readJumpChain stream = (.ok chain, rest) →
    2 ≤ chain.hops.length → FitsBehind stream rest ⟨chain.hops.tail⟩
  /-- These are what the relay writes, and it writes nothing for a shorter chain. -/
  onward : ∀ {peer : PeerId} {chain next : JumpChain} {events : List JumpEvent}
    {handler : Handler},
    (Handler.machine text nspace peer).Reaches (.chainRead (.ok chain) :: events) handler →
    handler.task.op nspace = some (.writeChain next) →
    next = ⟨chain.hops.tail⟩ ∧ 2 ≤ chain.hops.length
  /-- Whatever stream a dialer has its chain read from, no relay further down refuses a
  frame, and no more relays are visited than there are hops.  An empty chain gets as far as
  the relay that refuses it. -/
  handed : ∀ {stream rest inbound : Bytes} {chain : JumpChain} {i : Nat},
    readJumpChain stream = (.ok chain, rest) → Handed text nspace stream i inbound →
    i + 1 ≤ max 1 chain.hops.length ∧
      (readJumpChain inbound = (.error .unexpectedEof, []) ∨
        ∃ left, readJumpChain inbound = (.ok ⟨chain.hops.drop i⟩, left))
  /-- The same, for the relays of the network behind a dialer of this program. -/
  network : ∀ {setup : Setup} {labels : List Net.Label} {net : Net} {first relay : RelayNode}
    {chain : JumpChain} {i : Nat}, (machine setup).Reaches labels net →
    net.node 0 = .relay first → first.received = some chain → net.node i = .relay relay →
    i + 1 ≤ max 1 chain.hops.length ∧
      (relay.task = .readingChain →
        (net.link i).down.readFrame readJumpChain = none ∨
          ∃ next, (net.link i).down.readFrame readJumpChain =
            some (.ok ⟨chain.hops.drop i⟩, next))
  /-- A result that was read from downstream is what goes upstream, and is accepted there. -/
  upstream : ∀ {stream rest : Bytes} {result : JumpResult},
    readJumpResult stream = (.ok result, rest) →
    PassesOn stream rest result ∧
      ∀ {peer : PeerId} {task next : JumpTask}, task.op nspace = some .readResult →
        task.resume text peer (.resultRead (.ok result)) = some next →
        next.op nspace = some (.writeResult result)

/-- Relayed frames always fit the next reader. -/
theorem jump_frames_accepted (text : Libp2pText) (nspace : String) :
    FramesAccepted text nspace where
  fits hread htwo := by
    rename_i stream rest chain
    obtain ⟨hops⟩ := chain
    cases hops with
    | nil => cases htwo
    | cons hop hops => exact fitsBehind_of_read hread
  onward hrun hop := by
    rename_i peer chain next events handler
    obtain ⟨⟨first, hhops⟩, hne⟩ := JumpTask.onward_of_run hrun hop
    have hpos := List.length_pos_iff.mpr hne
    rw [hhops, List.tail_cons, List.length_cons]
    exact ⟨rfl, by omega⟩
  handed hread hhanded := by
    obtain ⟨hplace, hframe⟩ := read_handed hread hhanded
    exact ⟨by omega, hframe⟩
  network hrun hfirst hreceived hnode := read_of_reaches hrun hfirst hreceived hnode
  upstream hread := ⟨passesOn_of_read hread, fun hop h => JumpTask.writes_result hop h⟩

/-- The hops `b` and `t`, their count in two groups where one would do, and two bytes that
nothing reads; and the payload behind the frame. -/
def paddedChain : Bytes := [0, 0, 0, 8, 0x82, 0, 1, 98, 1, 116, 7, 7, 9]

theorem jump_frames_accepted_padded :
    readJumpChain paddedChain = (.ok ⟨["b", "t"]⟩, [9]) ∧
      FitsBehind paddedChain [9] ⟨["t"]⟩ := by
  have hread : readJumpChain paddedChain = (.ok ⟨["b", "t"]⟩, [9]) := by decide
  exact ⟨hread, (jump_frames_accepted (.ofTable []) "sape").fits hread (Nat.le_refl 2)⟩

end Sape.Chain
