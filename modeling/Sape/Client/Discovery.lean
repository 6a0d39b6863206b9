/-
  Client/Discovery.lean --- which of the addresses that were discovered are tried.

  `wait_for_mdns_and_connect` dials the first address of the expected peer that it is
  told and waits for a connection; `wait_for_rendezvous_discovery` dials all addresses of
  the first registration that it is told and does the same.  What else an event lists,
  and what later events bring, is not looked at again.

  WHAT IS PROVED.

      mdnsInv_of_reaches         the mDNS loop has dialed the first candidate, and no other
      rendezvousInv_of_reaches   the rendezvous loop has dialed the first registration
      discovery_exhausted_iff    so a call that fails has tried everything exactly where
                                 there was nothing else
-/
import Sape.Client.Swarm

set_option autoImplicit false

namespace Sape

open Sape.Foundation

/-! ## What was discovered -/

/-- The addresses of the expected peer in an event. -/
def SwarmEvent.candidates (expected : PeerId) : SwarmEvent → List Multiaddr
  | .mdnsDiscovered peers =>
      (peers.filter fun entry => decide (entry.1 = expected)).map Prod.snd
  | _ => []

/-- The addresses of the expected peer in the mDNS events that were received. -/
def candidates (expected : PeerId) (seen : List SwarmEvent) : List Multiaddr :=
  seen.flatMap (SwarmEvent.candidates expected)

/-- The registrations that an event of the rendezvous point lists. -/
def SwarmEvent.registrations (point : PeerId) : SwarmEvent → List Registration
  | .discovered node registrations => if node = point then registrations else []
  | _ => []

/-- The registrations that were received from the rendezvous point. -/
def registrations (point : PeerId) (seen : List SwarmEvent) : List Registration :=
  seen.flatMap (SwarmEvent.registrations point)

@[simp] theorem candidates_append (expected : PeerId) (seen more : List SwarmEvent) :
    candidates expected (seen ++ more) = candidates expected seen ++ candidates expected more :=
  List.flatMap_append

@[simp] theorem registrations_append (point : PeerId) (seen more : List SwarmEvent) :
    registrations point (seen ++ more) = registrations point seen ++ registrations point more :=
  List.flatMap_append

theorem firstOf_eq_head (expected : PeerId) (peers : List (PeerId × Multiaddr)) :
    firstOf expected peers =
      ((peers.filter fun entry => decide (entry.1 = expected)).map Prod.snd).head? := by
  unfold firstOf
  rw [List.head?_map, List.head?_filter]

theorem head_append_of_ne_nil {α : Type} {front : List α} (back : List α) (h : front ≠ []) :
    (front ++ back).head? = front.head? := by
  cases front with
  | nil => exact absurd rfl h
  | cons a front => rfl

theorem waits_of_turn {task : SwarmTask} {turn : Turn} (h : some (Turn.wait task) = some turn) :
    ∀ task', turn = .wait task' → task' = task := by
  rintro task' rfl
  exact (Turn.wait.inj (Option.some.inj h)).symm

/-! ## mDNS -/

/-- What holds of a call of `wait_for_mdns_and_connect`. -/
structure MdnsInv (expected : PeerId) (loop : Loop) : Prop where
  dialed : loop.dialed = (candidates expected loop.seen).head?.toList
  task : ∀ task, loop.turn = .wait task →
    (task = .waitingMdns expected ∧ candidates expected loop.seen = []) ∨
      (task = .connectingMdns expected ∧ candidates expected loop.seen ≠ [])

/-- An event without a candidate leaves the call where it was. -/
theorem MdnsInv.quiet {expected : PeerId} {loop : Loop} {wake : Wake} {turn : Turn}
    (hdialed : loop.dialed = (candidates expected loop.seen).head?.toList)
    (hnone : candidates expected loop.seen = []) (hquiet : candidates expected wake.seen = [])
    (hturn : ∀ task, turn = .wait task → task = .waitingMdns expected) :
    MdnsInv expected
      { turn := turn, dialed := loop.dialed ++ [], seen := loop.seen ++ wake.seen } := by
  refine ⟨?_, fun task htask => .inl ⟨hturn task htask, ?_⟩⟩
  · show loop.dialed ++ [] = _
    rw [candidates_append, hquiet, List.append_nil, List.append_nil, hdialed]
  · rw [candidates_append, hnone, hquiet]
    rfl

theorem mdnsInv_waiting {expected : PeerId} {loop : Loop} {wake : Wake} {turn : Turn}
    (hdialed : loop.dialed = (candidates expected loop.seen).head?.toList)
    (hnone : candidates expected loop.seen = [])
    (hturn : (SwarmTask.waitingMdns expected).turn wake = some turn) :
    MdnsInv expected
      { turn := turn
        dialed := loop.dialed ++ (SwarmTask.waitingMdns expected).dials wake
        seen := loop.seen ++ wake.seen } := by
  cases wake with
  | event event dialed =>
      cases event with
      | mdnsDiscovered peers =>
          simp only [SwarmTask.turn, waitForMdnsAndConnect] at hturn
          have hseen : candidates expected (Wake.event (.mdnsDiscovered peers) dialed).seen =
              (peers.filter fun entry => decide (entry.1 = expected)).map Prod.snd :=
            List.append_nil _
          have hfirst := firstOf_eq_head expected peers
          rw [← hseen] at hfirst
          cases hcandidate : firstOf expected peers with
          | none =>
              rw [hcandidate] at hturn hfirst
              simp only [SwarmTask.dials, hcandidate, Option.toList_none]
              exact .quiet hdialed hnone (List.head?_eq_none_iff.mp hfirst.symm)
                (waits_of_turn hturn)
          | some addr =>
              -- the first candidate of all
              rw [hcandidate] at hturn hfirst
              have hne : candidates expected
                  (Wake.event (.mdnsDiscovered peers) dialed).seen ≠ [] := by
                intro hnil
                rw [hnil] at hfirst
                cases hfirst
              refine ⟨?_, fun task htask => .inr ⟨?_, ?_⟩⟩
              · show loop.dialed ++ _ = _
                rw [candidates_append, hnone, List.nil_append, ← hfirst, hdialed, hnone]
                simp only [SwarmTask.dials, hcandidate]
                rfl
              · cases dialed with
                | ok done =>
                    obtain rfl := Option.some.inj hturn
                    exact (Turn.wait.inj htask).symm
                | error err =>
                    obtain rfl := Option.some.inj hturn
                    cases htask
              · rw [candidates_append, hnone]
                exact hne
      | connectionEstablished peer =>
          refine .quiet hdialed hnone rfl ?_
          simp only [SwarmTask.turn, waitForMdnsAndConnect] at hturn
          split at hturn
          · obtain rfl := Option.some.inj hturn
            intro task htask
            cases htask
          · exact waits_of_turn hturn
      | _ => exact .quiet hdialed hnone rfl (waits_of_turn hturn)
  | streamEnded =>
      obtain rfl := Option.some.inj hturn
      exact .quiet hdialed hnone rfl fun task htask => (by cases htask)
  | called dialed => cases hturn
  | timedOut => cases hturn
  | connectTimedOut => cases hturn

theorem mdnsInv_step {expected : PeerId} {loop next : Loop} {wake : Wake}
    (hinv : MdnsInv expected loop) (h : loop.step wake = some next) : MdnsInv expected next := by
  obtain ⟨task, turn, htask, hturn, rfl⟩ := Loop.step_cases h
  rcases hinv.task task htask with ⟨rfl, hnone⟩ | ⟨rfl, hsome⟩
  · exact mdnsInv_waiting hinv.dialed hnone hturn
  · -- nothing more is dialed, whatever is discovered
    refine ⟨?_, fun task htask => .inr ⟨?_, ?_⟩⟩
    · show loop.dialed ++ [] = _
      rw [candidates_append, head_append_of_ne_nil _ hsome, List.append_nil, hinv.dialed]
    · obtain ⟨result, -, hresult⟩ := Option.map_eq_some_iff.mp hturn
      cases result with
      | none =>
          rw [← hresult] at htask
          exact (Turn.wait.inj htask).symm
      | some result =>
          rw [← hresult] at htask
          cases htask
    · rw [candidates_append]
      exact fun hnil => hsome (List.append_eq_nil_iff.mp hnil).1

theorem mdnsInv_of_reaches {expected : PeerId} {wakes : List Wake} {loop : Loop}
    (hrun : (SwarmTask.waitingMdns expected).machine.Reaches wakes loop) :
    MdnsInv expected loop :=
  Machine.invariant (MdnsInv expected)
    ⟨rfl, fun _ htask => .inl ⟨(Turn.wait.inj htask).symm, rfl⟩⟩
    (fun hinv hstep => mdnsInv_step hinv hstep) hrun

/-! ## Rendezvous -/

/-- What holds of a call of `wait_for_rendezvous_discovery`. -/
structure RendezvousInv (point : PeerId) (loop : Loop) : Prop where
  dialed : loop.dialed =
    (registrations point loop.seen).head?.toList.flatMap Registration.dialable
  task : ∀ task, loop.turn = .wait task →
    (task = .waitingRendezvous point ∧ registrations point loop.seen = []) ∨
      ∃ first, task = .connectingRendezvous point first.peer ∧
        (registrations point loop.seen).head? = some first

/-- An event without a registration leaves the call where it was. -/
theorem RendezvousInv.quiet {point : PeerId} {loop : Loop} {wake : Wake} {turn : Turn}
    (hdialed : loop.dialed =
      (registrations point loop.seen).head?.toList.flatMap Registration.dialable)
    (hnone : registrations point loop.seen = []) (hquiet : registrations point wake.seen = [])
    (hturn : ∀ task, turn = .wait task → task = .waitingRendezvous point) :
    RendezvousInv point
      { turn := turn, dialed := loop.dialed ++ [], seen := loop.seen ++ wake.seen } := by
  refine ⟨?_, fun task htask => .inl ⟨hturn task htask, ?_⟩⟩
  · show loop.dialed ++ [] = _
    rw [registrations_append, hquiet, List.append_nil, List.append_nil, hdialed]
  · rw [registrations_append, hnone, hquiet]
    rfl

theorem rendezvousInv_waiting {point : PeerId} {loop : Loop} {wake : Wake} {turn : Turn}
    (hdialed : loop.dialed =
      (registrations point loop.seen).head?.toList.flatMap Registration.dialable)
    (hnone : registrations point loop.seen = [])
    (hturn : (SwarmTask.waitingRendezvous point).turn wake = some turn) :
    RendezvousInv point
      { turn := turn
        dialed := loop.dialed ++ (SwarmTask.waitingRendezvous point).dials wake
        seen := loop.seen ++ wake.seen } := by
  cases wake with
  | event event dialed =>
      cases event with
      | discovered node found =>
          simp only [SwarmTask.turn, waitForRendezvousDiscovery] at hturn
          by_cases hnode : node = point
          · subst hnode
            rw [if_pos rfl] at hturn
            have hseen : registrations node (Wake.event (.discovered node found) dialed).seen =
                found := by
              show (if node = node then found else []) ++ [] = found
              rw [if_pos rfl, List.append_nil]
            cases hfound : found.head? with
            | none =>
                rw [hfound] at hturn
                simp only [SwarmTask.dials, if_true, hfound, Option.toList_none,
                  List.flatMap_nil]
                exact .quiet hdialed hnone (hseen.trans (List.head?_eq_none_iff.mp hfound))
                  (waits_of_turn hturn)
            | some first =>
                -- the first registration of all
                rw [hfound] at hturn
                obtain rfl := Option.some.inj hturn
                refine ⟨?_, fun task htask => .inr ⟨first, (Turn.wait.inj htask).symm, ?_⟩⟩
                · show loop.dialed ++ _ = _
                  rw [registrations_append, hnone, List.nil_append, hseen, hdialed, hnone]
                  simp only [SwarmTask.dials, if_true]
                  rfl
                · rw [registrations_append, hnone, List.nil_append, hseen, hfound]
          · rw [if_neg hnode] at hturn
            simp only [SwarmTask.dials, if_neg hnode]
            refine .quiet hdialed hnone ?_ (waits_of_turn hturn)
            show (if node = point then found else []) ++ [] = []
            rw [if_neg hnode]
            rfl
      | discoverFailed node code err =>
          refine .quiet hdialed hnone rfl ?_
          simp only [SwarmTask.turn, waitForRendezvousDiscovery] at hturn
          split at hturn
          · obtain rfl := Option.some.inj hturn
            intro task htask
            cases htask
          · exact waits_of_turn hturn
      | _ => exact .quiet hdialed hnone rfl (waits_of_turn hturn)
  | streamEnded =>
      obtain rfl := Option.some.inj hturn
      exact .quiet hdialed hnone rfl fun task htask => (by cases htask)
  | timedOut =>
      obtain rfl := Option.some.inj hturn
      exact .quiet hdialed hnone rfl fun task htask => (by cases htask)
  | called dialed => cases hturn
  | connectTimedOut => cases hturn

/-- The wait for the connection goes on, or the call returns. -/
theorem turn_connectingRendezvous {point peer : PeerId} {wake : Wake} {turn : Turn}
    (h : (SwarmTask.connectingRendezvous point peer).turn wake = some turn) :
    turn = .wait (.connectingRendezvous point peer) ∨
      ∃ result, turn = .leave (.discovered result) := by
  cases wake with
  | timedOut => exact .inr ⟨_, (Option.some.inj h).symm⟩
  | _ =>
      simp only [SwarmTask.turn, Option.map_eq_some_iff] at h
      obtain ⟨result, -, rfl⟩ := h
      cases result with
      | none => exact .inl rfl
      | some result => exact .inr ⟨_, rfl⟩

theorem rendezvousInv_step {point : PeerId} {loop next : Loop} {wake : Wake}
    (hinv : RendezvousInv point loop) (h : loop.step wake = some next) :
    RendezvousInv point next := by
  obtain ⟨task, turn, htask, hturn, rfl⟩ := Loop.step_cases h
  rcases hinv.task task htask with ⟨rfl, hnone⟩ | ⟨first, rfl, hfirst⟩
  · exact rendezvousInv_waiting hinv.dialed hnone hturn
  · have hsome : registrations point loop.seen ≠ [] := by
      intro hnil
      rw [hnil] at hfirst
      cases hfirst
    have hhead : (registrations point (loop.seen ++ wake.seen)).head? = some first := by
      rw [registrations_append, head_append_of_ne_nil _ hsome, hfirst]
    refine ⟨?_, fun task htask => .inr ⟨first, ?_, hhead⟩⟩
    · show loop.dialed ++ [] = _
      rw [hhead, List.append_nil, hinv.dialed, hfirst]
    · rcases turn_connectingRendezvous hturn with rfl | ⟨result, rfl⟩
      · exact (Turn.wait.inj htask).symm
      · cases htask

theorem rendezvousInv_of_reaches {point : PeerId} {wakes : List Wake} {loop : Loop}
    (hrun : (SwarmTask.waitingRendezvous point).machine.Reaches wakes loop) :
    RendezvousInv point loop :=
  Machine.invariant (RendezvousInv point)
    ⟨rfl, fun _ htask => .inl ⟨(Turn.wait.inj htask).symm, rfl⟩⟩
    (fun hinv hstep => rendezvousInv_step hinv hstep) hrun

/-! ## What a call that fails has tried -/

theorem head_only_iff {α : Type} (l : List α) :
    (∀ a ∈ l, a ∈ l.head?.toList) ↔ ∀ a ∈ l, ∀ b ∈ l, a = b := by
  cases l with
  | nil => simp
  | cons first rest =>
      simp only [List.head?_cons, Option.toList_some, List.mem_singleton]
      constructor
      · intro h a ha b hb
        rw [h a ha, h b hb]
      · intro h a ha
        exact h a ha first List.mem_cons_self

/-- A call of `wait_for_mdns_and_connect` that failed has dialed every address of the
expected peer that it was told, exactly when it was told one address at most.  A call of
`wait_for_rendezvous_discovery` that failed has dialed every address of every registration
that it was told, exactly when the first registration lists all of them. -/
theorem discovery_exhausted_iff (expected point : PeerId) :
    (∀ wakes loop report, (SwarmTask.waitingMdns expected).machine.Reaches wakes loop →
      loop.turn = .leave (.done (.error report)) →
      ((∀ addr ∈ candidates expected loop.seen, addr ∈ loop.dialed) ↔
        ∀ addr ∈ candidates expected loop.seen, ∀ other ∈ candidates expected loop.seen,
          addr = other)) ∧
    ∀ wakes loop report, (SwarmTask.waitingRendezvous point).machine.Reaches wakes loop →
      loop.turn = .leave (.discovered (.error report)) →
      ((∀ registration ∈ registrations point loop.seen, ∀ addr ∈ registration.dialable,
          addr ∈ loop.dialed) ↔
        ∀ first, (registrations point loop.seen).head? = some first →
          ∀ registration ∈ registrations point loop.seen, ∀ addr ∈ registration.dialable,
            addr ∈ first.dialable) := by
  constructor
  · intro wakes loop report hrun _
    rw [(mdnsInv_of_reaches hrun).dialed]
    exact head_only_iff _
  · intro wakes loop report hrun _
    rw [(rendezvousInv_of_reaches hrun).dialed]
    cases hregistrations : registrations point loop.seen with
    | nil => simp
    | cons first rest => simp

/-- A peer with two addresses, of which the first does not answer. -/
def twoAddresses : List Wake :=
  [.event (.mdnsDiscovered [(⟨[9]⟩, [.ip4 1, .tcp 1]), (⟨[9]⟩, [.ip4 2, .tcp 1])]) (.ok ()),
    .connectTimedOut]

/-- A peer with one address, that does not answer. -/
def oneAddress : List Wake :=
  [.event (.mdnsDiscovered [(⟨[9]⟩, [.ip4 1, .tcp 1])]) (.ok ()), .connectTimedOut]

/-- A peer that is found by its code, with one address. -/
def oneRegistration : List Wake :=
  [.event (.discovered ⟨[1]⟩ [{ peer := ⟨[9]⟩, addresses := [[.ip4 1, .tcp 1]] }]) (.ok ()),
    .connectTimedOut]

theorem discovery_exhausted_iff_oneAddress :
    (∃ loop, (SwarmTask.waitingMdns ⟨[9]⟩).machine.Reaches oneAddress loop ∧
      ∀ addr ∈ candidates ⟨[9]⟩ loop.seen, addr ∈ loop.dialed) ∧
    ∃ loop, (SwarmTask.waitingRendezvous ⟨[1]⟩).machine.Reaches oneRegistration loop ∧
      ∀ registration ∈ registrations ⟨[1]⟩ loop.seen, ∀ addr ∈ registration.dialable,
        addr ∈ loop.dialed := by
  obtain ⟨byMdns, hmdns, hleft⟩ : ∃ loop,
      (SwarmTask.waitingMdns ⟨[9]⟩).machine.Reaches oneAddress loop ∧
        loop.turn = .bail "peer dial timed out after 30s" ∧
        candidates ⟨[9]⟩ loop.seen = [[.ip4 1, .tcp 1]] := ⟨_, rfl, rfl, rfl⟩
  obtain ⟨byCode, hcode, hreturned, hlist⟩ : ∃ loop,
      (SwarmTask.waitingRendezvous ⟨[1]⟩).machine.Reaches oneRegistration loop ∧
        loop.turn = .leave (.discovered (.error (.msg "peer dial timed out after 30s"))) ∧
        registrations ⟨[1]⟩ loop.seen = [{ peer := ⟨[9]⟩, addresses := [[.ip4 1, .tcp 1]] }] :=
    ⟨_, rfl, rfl, rfl⟩
  refine ⟨⟨byMdns, hmdns,
    ((discovery_exhausted_iff ⟨[9]⟩ ⟨[1]⟩).1 _ _ _ hmdns hleft.1).mpr ?_⟩,
    ⟨byCode, hcode, ((discovery_exhausted_iff ⟨[9]⟩ ⟨[1]⟩).2 _ _ _ hcode hreturned).mpr ?_⟩⟩
  · rw [hleft.2]
    simp
  · rw [hlist]
    rintro first hfirst registration hmem addr haddr
    obtain rfl := List.mem_singleton.mp hmem
    obtain rfl := Option.some.inj hfirst
    exact haddr

/-- The second address of the peer is not tried. -/
theorem twoAddresses_untried :
    ∃ loop report, (SwarmTask.waitingMdns ⟨[9]⟩).machine.Reaches twoAddresses loop ∧
      loop.turn = .leave (.done (.error report)) ∧
      [.ip4 2, .tcp 1] ∈ candidates ⟨[9]⟩ loop.seen ∧ [.ip4 2, .tcp 1] ∉ loop.dialed :=
  ⟨_, _, rfl, rfl, by decide, by decide⟩

end Sape
