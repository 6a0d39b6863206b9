/-
  Network/Isolation.lean --- what a namespace keeps apart.

  The namespace is part of the names of the stream protocols, so a stream opens within a
  namespace only.  It is no part of the rendezvous namespace, which is the bare pairing
  code, nor of anything that `swarm.dial` looks at: a dialer finds and dials whatever its
  code, or the address that it was given, leads to.

  WHAT IS PROVED.

      opening_own           a member opens streams of its own namespace's protocols
      accepts_own           and accepts no others
      within_meets_iff      one step keeps to the namespace exactly if what the dialer asks
                            for does
      asked_of_reaches      and what it asks for by itself, its options give
      namespaces_isolated   a run keeps to the namespaces exactly if its dialers ask for
                            nothing else
-/
import Sape.Client.Identify
import Sape.Network.Dialer

set_option autoImplicit false

namespace Sape.Network

open Sape.Foundation

/-! ## Streams between members -/

theorem opening_own {nspace : String} {role : Role} {label : RoleLabel} {peer : PeerId}
    {protocol : StreamProtocol} (h : role.opening nspace label = some (peer, protocol)) :
    protocol ∈ streamProtocols nspace := by
  unfold Role.opening at h
  split at h
  · split at h
    · rename_i peer' protocol' hop
      obtain ⟨-, rfl⟩ := Prod.mk.inj (Option.some.inj h)
      obtain ⟨entry, -, htask⟩ := Option.bind_eq_some_iff.mp hop
      exact JumpTask.protocol_own htask
    · cases h
  · split at h
    · rename_i peer' protocol' hop
      obtain ⟨-, rfl⟩ := Prod.mk.inj (Option.some.inj h)
      obtain ⟨inbound, -, htask⟩ := Option.bind_eq_some_iff.mp hop
      exact InboundTask.protocol_own htask
    · cases h
  · exact DialRun.opening_own h
  · cases h

theorem accepts_own {nspace : String} {role : Role} {protocol : StreamProtocol}
    (hmem : protocol ∈ role.accepts nspace) : protocol ∈ streamProtocols nspace := by
  cases role with
  | relay run =>
      obtain rfl := List.mem_singleton.mp hmem
      exact jumpProtocol_mem nspace
  | listener run =>
      simp only [Role.accepts] at hmem
      split at hmem
      · obtain rfl := List.mem_singleton.mp hmem
        exact tunnelProtocol_mem nspace
      · cases hmem
  | dialer opt run =>
      simp only [Role.accepts] at hmem
      split at hmem
      · obtain rfl := List.mem_singleton.mp hmem
        exact tunnelProtocol_mem nspace
      · cases hmem

/-! ## One step -/

/-- A meeting inside one namespace. -/
def Meeting.Within (meeting : Meeting) : Prop := meeting.active.nspace = meeting.passive.nspace

instance (meeting : Meeting) : Decidable meeting.Within := inferInstanceAs (Decidable (_ = _))

/-- A meeting over a stream. -/
def Meeting.Streamed (meeting : Meeting) : Prop :=
  ∃ protocol, meeting.channel = .stream protocol

/-- No registered listener of a peer is in another namespace. -/
def State.Own (state : State) (nspace : Namespace) (peer : PeerId) : Prop :=
  ∀ other ∈ state.listenersOf peer, other.nspace = nspace

/-- What the dialer asks for at a step is of its own namespace: no listener of another one is
registered under the code that it looks up, and neither the relay address, nor the circuit
address, nor the mDNS peer that it was given leads to one. -/
def State.AsksOwn (state : State) : Label → Prop
  | .discovered i r order _ =>
      ∀ lookup, state.lookup i r order = some lookup →
        ∀ registration ∈ lookup.registrations,
          state.Own lookup.dialer.nspace registration.peer
  | .act i (.dialer label) _ =>
      ∀ party opt run, state.dialer i = some (party, opt, run) →
        ∀ peer ∈ run.asked label, state.Own party.nspace peer
  | _ => True

theorem forall_meetAll_iff {channel : Channel} {active : Party} {others : List Party} :
    (∀ meeting ∈ meetAll channel active others, meeting.Within) ↔
      ∀ other ∈ others, other.nspace = active.nspace := by
  simp only [meetAll, List.forall_mem_map]
  exact forall₂_congr fun other _ => eq_comm

theorem forall_meetAll_listeners_iff {state : State} {channel : Channel} {active : Party}
    {peers : List PeerId} :
    (∀ meeting ∈ meetAll channel active (peers.flatMap state.listenersOf), meeting.Within) ↔
      ∀ peer ∈ peers, state.Own active.nspace peer := by
  rw [forall_meetAll_iff]
  simp only [List.mem_flatMap, forall_exists_index, and_imp]
  exact ⟨fun h peer hpeer other hother => h other peer hpeer hother,
    fun h other peer hpeer hother => h peer hpeer other hother⟩

/-- A stream opens within a namespace. -/
theorem streamed_within {state : State} {member : Member} {label : RoleLabel}
    {acceptor : Option Nat}
    (hnegotiates : state.negotiates (member.role.opening member.party.nspace.name label)
      acceptor = true) :
    ∀ meeting ∈ state.streamed member (member.role.opening member.party.nspace.name label) acceptor,
      meeting.Within := by
  intro meeting hmem
  unfold State.streamed at hmem
  split at hmem
  · rename_i peer protocol other hopening hacceptor
    obtain ⟨k, rfl, hother⟩ := Option.bind_eq_some_iff.mp hacceptor
    obtain rfl := List.mem_singleton.mp hmem
    simp only [State.negotiates, hopening, hother, Bool.and_eq_true, List.contains_iff_mem]
      at hnegotiates
    exact eq_of_mem_streamProtocols (opening_own hopening) (accepts_own hnegotiates.2)
  · cases hmem

/-- What a member dials by itself is of its own namespace exactly if what it asks for is. -/
theorem dials_own_iff {state : State} {i : Nat} {member : Member} {label : RoleLabel}
    {acceptor : Option Nat} (hget : state.members[i]? = some member)
    (htold : Role.told label = true) :
    (∀ peer ∈ (member.role.dials label).filterMap dialTarget,
        state.Own member.party.nspace peer) ↔ state.AsksOwn (.act i label acceptor) := by
  obtain ⟨party, role⟩ := member
  cases label with
  | dialer label =>
      cases role with
      | dialer opt run =>
          have hdialer : state.dialer i = some (party, opt, run) := by
            unfold State.dialer
            rw [hget]
          have hdials : ((Role.dialer opt run).dials (.dialer label)).filterMap dialTarget =
              run.asked label := DialRun.dials_asked htold
          rw [hdials]
          constructor
          · intro hown party' opt' run' hdialer'
            cases hdialer.symm.trans hdialer'
            exact hown
          · intro hasks
            exact hasks party opt run hdialer
      | relay run =>
          have hdialer : state.dialer i = none := by
            unfold State.dialer
            rw [hget]
          exact ⟨fun _ _ _ _ hsome => (by cases hdialer.symm.trans hsome),
            fun _ peer hmem => (by cases hmem)⟩
      | listener run =>
          have hdialer : state.dialer i = none := by
            unfold State.dialer
            rw [hget]
          exact ⟨fun _ _ _ _ hsome => (by cases hdialer.symm.trans hsome),
            fun _ peer hmem => (by cases hmem)⟩
  | _ =>
      refine ⟨fun _ => trivial, fun _ peer hmem => ?_⟩
      cases role <;> cases hmem

/-- What an answer makes a dialer discover and dial is of its own namespace exactly if the
registrations in it are. -/
theorem answered_iff {state : State} {i r : Nat} {order : List Registration} {lookup : Lookup}
    {dialed : Except String Unit} (hlookup : state.lookup i r order = some lookup) :
    (∀ meeting ∈ state.meets (.discovered i r order dialed), meeting.Within) ↔
      state.AsksOwn (.discovered i r order dialed) := by
  simp only [State.meets, hlookup, List.forall_mem_append, forall_meetAll_listeners_iff]
  constructor
  · rintro ⟨hdiscovered, -⟩ lookup' hlookup' registration hmem
    cases hlookup.symm.trans hlookup'
    exact hdiscovered _ (List.mem_map_of_mem hmem)
  · intro hasks
    have hown : ∀ peer ∈ lookup.registrations.map Registration.peer,
        state.Own lookup.dialer.nspace peer := by
      intro peer hmem
      obtain ⟨registration, hregistration, rfl⟩ := List.mem_map.mp hmem
      exact hasks lookup hlookup registration hregistration
    exact ⟨hown, fun peer hmem => hown peer (DialRun.dials_told hmem)⟩

/-- What a member may do by itself. -/
theorem act_of_moved {text : Libp2pText} {state : State} {i : Nat} {label : RoleLabel}
    {acceptor : Option Nat} {members : List Member}
    (h : state.moved text (.act i label acceptor) = some members) :
    ∃ member, state.members[i]? = some member ∧ Role.told label = true ∧
      state.negotiates (member.role.opening member.party.nspace.name label) acceptor = true := by
  simp only [State.moved] at h
  split at h
  · cases h
  · rename_i member hget
    split at h
    · rename_i hallowed
      exact ⟨member, hget, hallowed.1, hallowed.2⟩
    · cases h

/-- A step keeps to the namespaces exactly if what is asked for at it does. -/
theorem within_meets_iff {text : Libp2pText} {state : State} {label : Label}
    {members : List Member} (h : state.moved text label = some members) :
    (∀ meeting ∈ state.meets label, meeting.Within) ↔ state.AsksOwn label := by
  cases label with
  | discovered i r order dialed =>
      cases hlookup : state.lookup i r order with
      | none => simp only [State.moved, hlookup, reduceCtorEq] at h
      | some lookup => exact answered_iff hlookup
  | act i label acceptor =>
      obtain ⟨member, hget, htold, hnegotiates⟩ := act_of_moved h
      rw [← dials_own_iff hget htold]
      simp only [State.meets, hget, List.forall_mem_append, forall_meetAll_listeners_iff]
      exact and_iff_left (streamed_within hnegotiates)
  | join party command => exact ⟨fun _ => trivial, fun _ meeting hmem => (by cases hmem)⟩
  | registered i r addresses => exact ⟨fun _ => trivial, fun _ meeting hmem => (by cases hmem)⟩
  | expired r n => exact ⟨fun _ => trivial, fun _ meeting hmem => (by cases hmem)⟩
  | jumpStream r peer => exact ⟨fun _ => trivial, fun _ meeting hmem => (by cases hmem)⟩

/-- The meetings over streams that a step makes are within a namespace. -/
theorem meets_streamed {text : Libp2pText} {state : State} {label : Label}
    {members : List Member} (h : state.moved text label = some members) {meeting : Meeting}
    (hmem : meeting ∈ state.meets label) (hstream : meeting.Streamed) : meeting.Within := by
  obtain ⟨protocol, hprotocol⟩ := hstream
  have hother : ∀ {channel : Channel} {active : Party} {others : List Party},
      meeting ∈ meetAll channel active others → channel = .stream protocol := by
    intro channel active others hmem
    obtain ⟨other, -, rfl⟩ := List.mem_map.mp hmem
    exact hprotocol
  cases label with
  | discovered i r order dialed =>
      simp only [State.meets] at hmem
      split at hmem
      · cases hmem
      · rcases List.mem_append.mp hmem with hmem | hmem
        · cases hother hmem
        · cases hother hmem
  | act i label acceptor =>
      obtain ⟨member, hget, -, hnegotiates⟩ := act_of_moved h
      simp only [State.meets, hget] at hmem
      rcases List.mem_append.mp hmem with hmem | hmem
      · cases hother hmem
      · exact streamed_within hnegotiates meeting hmem
  | join party command => cases hmem
  | registered i r addresses => cases hmem
  | expired r n => cases hmem
  | jumpStream r peer => cases hmem

/-! ## Runs -/

theorem step_cases {text : Libp2pText} {state next : State} {label : Label}
    (h : state.step text label = some next) :
    ∃ members, state.moved text label = some members ∧
      next = { members := members, meetings := state.meetings ++ state.meets label } := by
  obtain ⟨members, hmoved, rfl⟩ := Option.map_eq_some_iff.mp h
  exact ⟨members, hmoved, rfl⟩

/-- A dialer has what it is asked to dial from its options. -/
def Member.Given (member : Member) : Prop :=
  ∀ opt run, member.role = .dialer opt run → run.Given opt member.party.nspace.name

theorem given_relay (party : Party) (run : RelayRun) :
    Member.Given { party := party, role := .relay run } := fun opt run' heq => by cases heq

theorem member_of_dialer {state : State} {i : Nat} {party : Party} {opt : DialOpt}
    {run : DialRun} (h : state.dialer i = some (party, opt, run)) :
    state.members[i]? = some { party := party, role := .dialer opt run } := by
  unfold State.dialer at h
  split at h
  · rename_i party' opt' run' hget
    cases h
    exact hget
  · cases h

theorem dialer_of_lookup {state : State} {i r : Nat} {order : List Registration}
    {lookup : Lookup} (h : state.lookup i r order = some lookup) :
    state.dialer i = some (lookup.dialer, lookup.opt, lookup.run) := by
  unfold State.lookup at h
  split at h
  · rename_i party opt run relay relayRun hdialer hrelay
    split at h
    · split at h
      · cases h
        exact hdialer
      · cases h
    · cases h
  · cases h

theorem dialer_of_step {text : Libp2pText} {nspace : String} {role : Role} {label : RoleLabel}
    {opt : DialOpt} {run : DialRun} (h : role.step text nspace label = some (.dialer opt run)) :
    ∃ before label', role = .dialer opt before ∧ label = .dialer label' ∧
      before.step text opt nspace label' = some run := by
  unfold Role.step at h
  split at h
  · split at h
    · cases h
    · obtain ⟨task, -, heq⟩ := Option.map_eq_some_iff.mp h
      cases heq
  · obtain ⟨task, -, heq⟩ := Option.map_eq_some_iff.mp h
    cases heq
  · split at h
    · obtain ⟨listener, -, heq⟩ := Option.map_eq_some_iff.mp h
      cases heq
    · cases h
  · rename_i opt' before label'
    obtain ⟨next, hstep, heq⟩ := Option.map_eq_some_iff.mp h
    cases heq
    exact ⟨before, label', rfl, rfl, hstep⟩
  · cases h

/-- Every step keeps what the dialers have from their options. -/
theorem given_moved {text : Libp2pText} {state : State} {label : Label} {members : List Member}
    (hgiven : ∀ member ∈ state.members, member.Given)
    (h : state.moved text label = some members) : ∀ member ∈ members, member.Given := by
  have hset : ∀ {i : Nat} {moved : Member}, moved.Given →
      ∀ member ∈ state.members.set i moved, member.Given := by
    intro i moved hmoved member hmem
    rcases List.mem_or_eq_of_mem_set hmem with hmem | rfl
    · exact hgiven member hmem
    · exact hmoved
  cases label with
  | join party command =>
      obtain rfl := Option.some.inj h
      intro member hmem
      rcases List.mem_append.mp hmem with hmem | hmem
      · exact hgiven member hmem
      · obtain rfl := List.mem_singleton.mp hmem
        intro opt run heq
        cases command with
        | dial opt' =>
            cases heq
            exact given_start opt _
        | relay => cases heq
        | listen registerOpt draw listenOpt traffic => cases heq
  | registered i r addresses =>
      simp only [State.moved] at h
      split at h
      · split at h
        · split at h
          · obtain rfl := Option.some.inj h
            exact hset (given_relay _ _)
          · cases h
        · cases h
      · cases h
  | expired r n =>
      obtain ⟨relay, -, rfl⟩ := Option.map_eq_some_iff.mp h
      exact hset (given_relay _ _)
  | discovered i r order dialed =>
      simp only [State.moved] at h
      split at h
      · cases h
      · rename_i lookup hlookup
        obtain ⟨next, hstep, rfl⟩ := Option.map_eq_some_iff.mp h
        have hmember := member_of_dialer (dialer_of_lookup hlookup)
        have hbefore := hgiven _ (List.mem_of_getElem? hmember) _ _ rfl
        refine hset fun opt run heq => ?_
        cases heq
        exact given_step hbefore hstep
  | jumpStream r peer =>
      obtain ⟨relay, -, rfl⟩ := Option.map_eq_some_iff.mp h
      exact hset (given_relay _ _)
  | act i label acceptor =>
      simp only [State.moved] at h
      split at h
      · cases h
      · rename_i member hget
        split at h
        · obtain ⟨next, hstep, rfl⟩ := Option.map_eq_some_iff.mp h
          refine hset fun opt run heq => ?_
          obtain rfl : next = .dialer opt run := heq
          obtain ⟨before, label', hrole, rfl, hrun⟩ := dialer_of_step hstep
          exact given_step (hgiven member (List.mem_of_getElem? hget) opt before hrole) hrun
        · cases h

theorem asked_of_reaches {text : Libp2pText} {labels : List Label} {state : State}
    (hrun : (machine text).Reaches labels state) {i : Nat} {party : Party} {opt : DialOpt}
    {run : DialRun} (hdialer : state.dialer i = some (party, opt, run)) {label : DialLabel}
    {peer : PeerId} (hmem : peer ∈ run.asked label) : opt.Gives peer := by
  have hgiven : ∀ member ∈ state.members, member.Given := by
    apply Machine.invariant (fun state : State => ∀ member ∈ state.members, member.Given) _ _ hrun
    · intro member hmem
      cases hmem
    · intro state label next hinv hstep
      obtain ⟨members, hmoved, rfl⟩ := step_cases hstep
      exact given_moved hinv hmoved
  have hmember := List.mem_of_getElem? (member_of_dialer hdialer)
  exact given_of_asked (hgiven _ hmember opt run rfl) hmem

/-- For every network of relays, listeners and dialers in admitted namespaces: streams open
within a namespace only; and dialers discover and dial within their namespace exactly in the
runs in which, at every step, what they ask for is of their namespace.  What a dialer asks for
besides its pairing code, its options give. -/
theorem namespaces_isolated (text : Libp2pText) {labels : List Label} {state : State}
    (hrun : (machine text).Reaches labels state) :
    (∀ meeting ∈ state.meetings, meeting.Streamed → meeting.Within) ∧
      ((∀ meeting ∈ state.meetings, meeting.Within) ↔
        (machine text).Meets State.AsksOwn (machine text).start labels) ∧
      ∀ i party opt run label peer, state.dialer i = some (party, opt, run) →
        peer ∈ run.asked label → opt.Gives peer := by
  refine ⟨?_, ?_, fun i party opt run label peer hdialer hmem =>
    asked_of_reaches hrun hdialer hmem⟩
  · apply Machine.invariant (fun state : State =>
      ∀ meeting ∈ state.meetings, meeting.Streamed → meeting.Within) _ _ hrun
    · intro meeting hmem
      cases hmem
    · intro state label next hinv hstep meeting hmem hstream
      obtain ⟨members, hmoved, rfl⟩ := step_cases hstep
      rcases List.mem_append.mp hmem with hmem | hmem
      · exact hinv meeting hmem hstream
      · exact meets_streamed hmoved hmem hstream
  · have hstep : ∀ {state : State} {label : Label} {next : State}, True →
        (machine text).step state label = some next →
        ((∀ meeting ∈ next.meetings, meeting.Within) ↔
          (∀ meeting ∈ state.meetings, meeting.Within) ∧ state.AsksOwn label) := by
      intro state label next _ hstep
      obtain ⟨members, hmoved, rfl⟩ := step_cases hstep
      rw [List.forall_mem_append, within_meets_iff hmoved]
    have hiff := Machine.exec_iff_meets State.AsksOwn (fun _ => True)
      (fun state => ∀ meeting ∈ state.meetings, meeting.Within) (fun _ _ => trivial) hstep
      labels hrun trivial
    rw [hiff]
    exact ⟨And.right, fun hmeets => ⟨fun meeting hmem => (by cases hmem), hmeets⟩⟩

/-! ## Two namespaces at one relay -/

/-- Two admitted namespaces. -/
def namespaceA : Namespace := ⟨"a", by decide⟩
def namespaceB : Namespace := ⟨"b", by decide⟩

/-- Listener 9, in namespace a. -/
def listenerNine : Party := { peer := ⟨[9]⟩, nspace := namespaceA }

/-- The registration of listener 9: the circuit behind relay 1. -/
def nineRegistered : Registration :=
  { peer := ⟨[9]⟩, addresses := [relayOne ++ [.p2pCircuit, .p2p ⟨[9]⟩]] }

/-- Relay 1 is there for everybody.  Listener 9 registers under the code `7-river-ocean`, and
a dialer looks that code up. -/
def lookedUp (dialer : Party) : List Label :=
  [.join { peer := ⟨[1]⟩, nspace := namespaceA } .relay,
    .join listenerNine
      (.listen { relayAddress := some relayOne, code := some "7-river-ocean" } default {} []),
    .act 1 (.register (.ok ())) none, .act 1 (.register (.ok ())) none,
    .act 1 (.register (.ok ())) none, .act 1 (.register (.ok ())) none,
    .registered 1 0 nineRegistered.addresses,
    .join dialer (.dial
      { target := .pairingCode "7-river-ocean", relayAddress := some relayOne }),
    .act 2 (.dialer (.event (.done (.ok ())))) none,
    .act 2 (.dialer (.wake (.called (.ok ())))) none,
    .act 2 (.dialer (.wake (.event (.identifySent ⟨[1]⟩) (.ok ())))) none,
    .act 2 (.dialer (.wake (.event (.identifyReceived ⟨[1]⟩ []) (.ok ())))) none,
    .act 2 (.dialer (.event (.done (.ok ())))) none,
    .discovered 2 0 [nineRegistered] (.ok ())]

/-- The circuit is up, and the dialer's tunnel stream opens. -/
def tunneled (dialer : Party) : List Label :=
  lookedUp dialer ++
    [.act 2 (.dialer (.wake (.event (.connectionEstablished ⟨[9]⟩) (.ok ())))) none,
      .act 2 (.dialer (.event (.done (.ok ())))) none,
      .act 2 (.dialer (.event (.streamOpened (.ok ())))) (some 1)]

/-- Dialer 2, in the namespace of the listener. -/
def dialerTwo : Party := { peer := ⟨[2]⟩, nspace := namespaceA }

/-- Dialer 3, in namespace b. -/
def dialerThree : Party := { peer := ⟨[3]⟩, nspace := namespaceB }

/-- Listener 8, in the namespace of dialer 3. -/
def listenerEight : Party := { peer := ⟨[8]⟩, nspace := namespaceB }

/-- The registration of listener 8: the circuit behind relay 1. -/
def eightRegistered : Registration :=
  { peer := ⟨[8]⟩, addresses := [relayOne ++ [.p2pCircuit, .p2p ⟨[8]⟩]] }

/-- Two tunnels through one relay: in namespace a dialer 2 has one to listener 9, in namespace
b dialer 3 to listener 8, which registers under another code. -/
def tunneledTwice : List Label :=
  tunneled dialerTwo ++
    [.join listenerEight
      (.listen { relayAddress := some relayOne, code := some "8-river-ocean" } default {} []),
    .act 3 (.register (.ok ())) none, .act 3 (.register (.ok ())) none,
    .act 3 (.register (.ok ())) none, .act 3 (.register (.ok ())) none,
    .registered 3 0 eightRegistered.addresses,
    .join dialerThree (.dial
      { target := .pairingCode "8-river-ocean", relayAddress := some relayOne }),
    .act 4 (.dialer (.event (.done (.ok ())))) none,
    .act 4 (.dialer (.wake (.called (.ok ())))) none,
    .act 4 (.dialer (.wake (.event (.identifySent ⟨[1]⟩) (.ok ())))) none,
    .act 4 (.dialer (.wake (.event (.identifyReceived ⟨[1]⟩ []) (.ok ())))) none,
    .act 4 (.dialer (.event (.done (.ok ())))) none,
    .discovered 4 0 [eightRegistered] (.ok ()),
    .act 4 (.dialer (.wake (.event (.connectionEstablished ⟨[8]⟩) (.ok ())))) none,
    .act 4 (.dialer (.event (.done (.ok ())))) none,
    .act 4 (.dialer (.event (.streamOpened (.ok ())))) (some 3)]

theorem namespaces_isolated_twoNamespaces :
    ∃ state, (machine (.ofTable [])).Reaches tunneledTwice state ∧
      { channel := .stream (tunnelProtocol "a"), active := dialerTwo, passive := listenerNine }
        ∈ state.meetings ∧
      { channel := .stream (tunnelProtocol "b"), active := dialerThree, passive := listenerEight }
        ∈ state.meetings ∧
      (∀ meeting ∈ state.meetings, meeting.Streamed → meeting.Within) ∧
      (machine (.ofTable [])).Meets State.AsksOwn {} tunneledTwice := by
  obtain ⟨state, hrun, htest⟩ :
      ∃ state, (machine (.ofTable [])).Reaches tunneledTwice state ∧
        decide ({ channel := .stream (tunnelProtocol "a"), active := dialerTwo,
                  passive := listenerNine } ∈ state.meetings ∧
          { channel := .stream (tunnelProtocol "b"), active := dialerThree,
            passive := listenerEight } ∈ state.meetings ∧
          ∀ meeting ∈ state.meetings, meeting.Within) = true :=
    Machine.exists_reaches_of_any (by decide +kernel)
  obtain ⟨hnine, height, hwithin⟩ := of_decide_eq_true htest
  obtain ⟨hstreams, hiff, -⟩ := namespaces_isolated (.ofTable []) hrun
  exact ⟨state, hrun, hnine, height, hstreams, hiff.mp hwithin⟩

/-- With the code of a listener in namespace a, a dialer in namespace b discovers and dials
that listener. -/
theorem otherNamespace_dialed :
    ∃ state, (machine (.ofTable [])).Reaches (lookedUp dialerThree) state ∧
      { channel := .discovery, active := dialerThree, passive := listenerNine }
        ∈ state.meetings ∧
      { channel := .dial, active := dialerThree, passive := listenerNine } ∈ state.meetings ∧
      dialerThree.nspace ≠ listenerNine.nspace := by
  obtain ⟨state, hrun, htest⟩ :
      ∃ state, (machine (.ofTable [])).Reaches (lookedUp dialerThree) state ∧
        decide ({ channel := .discovery, active := dialerThree, passive := listenerNine }
            ∈ state.meetings ∧
          { channel := .dial, active := dialerThree, passive := listenerNine }
            ∈ state.meetings) = true :=
    Machine.exists_reaches_of_any (by decide +kernel)
  obtain ⟨hdiscovered, hdialed⟩ := of_decide_eq_true htest
  refine ⟨state, hrun, hdiscovered, hdialed, fun heq => ?_⟩
  have hname := congrArg Namespace.name heq
  exact absurd hname (by decide)

end Sape.Network
