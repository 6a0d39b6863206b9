/-
  Client/Named.lean --- the tunnel goes to the peer that the user named.

  The four loops share one stream of events, and most of what they take off it is not
  theirs.  What counts is kept in two facts: whom a waiting loop expects (`Expects`), and that
  a peer beyond the wait was named and has been connected to (`Reached`).

  WHAT IS PROVED.

      established_of_mdns      `Ok` stands for a connection to the expected peer
      runInv_step              every step keeps the two facts
      about_of_proceeds        what makes a loop proceed is about its party, but for the
                               identify events, whose peer `connect_and_identify` ignores
      tunnel_to_named          streams and requests go to the named peer only, and events
                               about others are without effect exactly where no other peer's
                               identify events count
-/
import Sape.Client.Identify
import Sape.Client.Tunnel

set_option autoImplicit false

namespace Sape

open Sape.Foundation

/-! ## Who was named -/

/-- The peer that the user named: in an mDNS target, at the end of a circuit address, or
through a pairing code, as the first registration that the relay has for it. -/
def Named (opt : DialOpt) (seen : List SwarmEvent) (peer : PeerId) : Prop :=
  match opt.target with
  | .mdns target => peer = target
  | .relayCircuit addr => ∃ base, relayBaseFromCircuitAddress addr = .ok (base, peer)
  | .pairingCode _ =>
      ∃ relayAddress point registration others, opt.relayAddress = some relayAddress ∧
        peerIdFromMultiaddr relayAddress = some point ∧
        .discovered point (registration :: others) ∈ seen ∧ registration.peer = peer

/-- A peer that was named, and whose connection a loop that waits for it has seen. -/
def Reached (opt : DialOpt) (state : DialRun) (peer : PeerId) : Prop :=
  Named opt state.seen peer ∧ (peer, .connectionEstablished peer) ∈ state.waited

theorem Named.append {opt : DialOpt} {seen : List SwarmEvent} {peer : PeerId}
    (h : Named opt seen peer) (more : List SwarmEvent) : Named opt (seen ++ more) peer := by
  unfold Named at h ⊢
  split at h
  · exact h
  · exact h
  · obtain ⟨relayAddress, point, registration, others, hopt, hpoint, hmem, hpeer⟩ := h
    exact ⟨relayAddress, point, registration, others, hopt, hpoint,
      List.mem_append_left _ hmem, hpeer⟩

theorem Reached.mono {opt : DialOpt} {state next : DialRun} {peer : PeerId}
    (h : Reached opt state peer) {events : List SwarmEvent}
    {entries : List (PeerId × SwarmEvent)} (hseen : next.seen = state.seen ++ events)
    (hwaited : next.waited = state.waited ++ entries) : Reached opt next peer := by
  refine ⟨?_, ?_⟩
  · rw [hseen]
    exact h.1.append events
  · rw [hwaited]
    exact List.mem_append_left _ h.2

/-! ## What the loops return -/

/-- `wait_for_mdns_and_connect` returns `Ok` for the expected peer only. -/
theorem established_of_mdns {expected : PeerId} {wake : Wake}
    (h : waitForMdnsAndConnect expected wake = some (.leave (.done (.ok ())))) :
    ∃ dialed, wake = .event (.connectionEstablished expected) dialed := by
  cases wake with
  | event event dialed =>
      cases event with
      | connectionEstablished peer =>
          simp only [waitForMdnsAndConnect] at h
          split at h
          · rename_i hpeer
            exact ⟨dialed, by rw [hpeer]⟩
          · cases h
      | mdnsDiscovered peers =>
          simp only [waitForMdnsAndConnect] at h
          split at h
          · cases h
          · split at h
            · cases h
            · cases h
      | _ => cases h
  | streamEnded => cases h
  | _ => cases h

/-! ## What is known of a run -/

/-- The rendezvous point of a pairing code: the peer id of the relay address. -/
def Point (opt : DialOpt) (point : PeerId) : Prop :=
  (∃ code, opt.target = .pairingCode code) ∧
    ∃ relayAddress, opt.relayAddress = some relayAddress ∧
      peerIdFromMultiaddr relayAddress = some point

/-- What is known of the place where a run waits: on the way to the named peer, or beyond
the wait for it. -/
def TaskOk (opt : DialOpt) (state : DialRun) : DialTask → Prop
  | .connectingRelay _ _ remote | .dialingCircuit _ remote | .waitingPeer remote
  | .waitingMdns remote => Named opt state.seen remote
  | .connectingRendezvous _ point _ | .discovering _ point | .waitingRendezvous point =>
      Point opt point
  | .accepting remote | .openingNetcat remote | .localForwarding remote _ _
  | .requestingReverse remote _ _ _ | .proxying remote _ => Reached opt state remote
  | .writingNetcat => ∃ remote, state.stream = some remote ∧ Reached opt state remote
  | .settingUp | .netcat | .handlingReverse | .ended _ => True
  | .connectingJump _ _ | .openingJump _ _ | .writingChain _ | .readingResult
  | .writingJumpRequest | .jumpNetcat => False

/-- A call of `connect_and_identify` that has not returned. -/
def Identifies (loop : Option SwarmTask) : Prop :=
  (∃ relayAddress, loop = some (.dialingRelay relayAddress)) ∨
    ∃ learned told, loop = some (.identifying learned told) ∧ (learned && told) = false

/-- Whom a loop expects, given where the run waits. -/
def Expects (opt : DialOpt) (seen : List SwarmEvent) (loop : Option SwarmTask) :
    DialTask → Prop
  | .connectingJump _ _ | .connectingRelay _ _ _ | .connectingRendezvous _ _ _ =>
      Identifies loop
  | .waitingPeer remote => loop = some (.waitingPeer remote)
  | .waitingMdns peer => loop = some (.waitingMdns peer) ∨ loop = some (.connectingMdns peer)
  | .waitingRendezvous point =>
      loop = some (.waitingRendezvous point) ∨
        ∃ peer, loop = some (.connectingRendezvous point peer) ∧ Named opt seen peer
  | _ => loop = none

/-- What holds in every state. -/
structure RunInv (opt : DialOpt) (state : DialRun) : Prop where
  task : TaskOk opt state state.run
  expects : Expects opt state.seen state.loop state.run
  request : state.request.isSome = true →
    ∃ remote bindPort target gatewayPorts,
      state.run = .requestingReverse remote bindPort target gatewayPorts
  sessions : ∀ session ∈ state.sessions, Reached opt state session.remotePeer

theorem TaskOk.mono {opt : DialOpt} {state next : DialRun} {task : DialTask}
    (h : TaskOk opt state task) {events : List SwarmEvent}
    {entries : List (PeerId × SwarmEvent)} (hseen : next.seen = state.seen ++ events)
    (hwaited : next.waited = state.waited ++ entries) (hstream : next.stream = state.stream) :
    TaskOk opt next task := by
  have hreached : ∀ {peer}, Reached opt state peer → Reached opt next peer :=
    fun hpeer => hpeer.mono hseen hwaited
  have hnamed : ∀ {peer}, Named opt state.seen peer → Named opt next.seen peer :=
    fun hpeer => hseen ▸ hpeer.append events
  cases task with
  | connectingRelay _ _ remote => exact hnamed h
  | dialingCircuit _ remote => exact hnamed h
  | waitingPeer remote => exact hnamed h
  | waitingMdns peer => exact hnamed h
  | accepting remote => exact hreached h
  | openingNetcat remote => exact hreached h
  | localForwarding remote _ _ => exact hreached h
  | requestingReverse remote _ _ _ => exact hreached h
  | proxying remote _ => exact hreached h
  | writingNetcat =>
      obtain ⟨remote, hopened, hpeer⟩ := h
      exact ⟨remote, hstream.trans hopened, hreached hpeer⟩
  | _ => exact h

/-- What a run waits for next is what its loop starts with. -/
theorem expects_enter (opt : DialOpt) (nspace : String) (seen : List SwarmEvent)
    (state : DialRun) (next : DialTask) :
    Expects opt seen (state.enter nspace next).loop next := by
  cases next with
  | connectingJump firstJump _ => exact .inl ⟨firstJump, rfl⟩
  | connectingRelay relayAddress _ _ => exact .inl ⟨relayAddress, rfl⟩
  | connectingRendezvous relayAddress _ _ => exact .inl ⟨relayAddress, rfl⟩
  | waitingMdns peer => exact .inl rfl
  | waitingRendezvous point => exact .inl rfl
  | _ => rfl

theorem request_enter {nspace : String} {state : DialRun} {next : DialTask}
    (h : (state.enter nspace next).request.isSome = true) :
    ∃ remote bindPort target gatewayPorts,
      next = .requestingReverse remote bindPort target gatewayPorts := by
  cases next with
  | requestingReverse remote bindPort target gatewayPorts => exact ⟨_, _, _, _, rfl⟩
  | _ => cases h

/-! ## What a run goes on to -/

/-- The peer that a loop has found and connected to. -/
def DialTask.found : DialTask → DialEvent → Option PeerId
  | .waitingPeer remote, .done (.ok ()) => some remote
  | .waitingMdns peer, .done (.ok ()) => some peer
  | .waitingRendezvous _, .discovered (.ok remote) => some remote
  | _, _ => none

/-- From the running swarm a run sets out for the named peer. -/
theorem taskOk_afterSetUp (text : Libp2pText) {opt : DialOpt} (hjump : opt.jump = [])
    (state : DialRun) : TaskOk opt state (DialTask.afterSetUp text opt) := by
  unfold DialTask.afterSetUp
  rw [hjump]
  cases htarget : opt.target with
  | mdns peer => simp [TaskOk, Named, htarget]
  | relayCircuit addr =>
      simp only
      cases hbase : relayBaseFromCircuitAddress addr with
      | error err => exact trivial
      | ok pair =>
          obtain ⟨base, remote⟩ := pair
          simp [TaskOk, Named, htarget, hbase]
  | pairingCode code =>
      simp only
      cases haddress : opt.relayAddress with
      | none => exact trivial
      | some relayAddress =>
          simp only
          cases hpoint : peerIdFromMultiaddr relayAddress with
          | none => exact trivial
          | some point => exact ⟨⟨code, htarget⟩, relayAddress, haddress, hpoint⟩

theorem taskOk_afterAccept {opt : DialOpt} {state : DialRun} {remote : PeerId}
    (h : Reached opt state remote) (mode : DialMode) :
    TaskOk opt state (DialTask.afterAccept remote mode) := by
  cases mode <;> exact h

theorem taskOk_resume {text : Libp2pText} {opt : DialOpt} (hjump : opt.jump = [])
    {state : DialRun} {task next : DialTask} {event : DialEvent} (htask : TaskOk opt state task)
    (h : task.resume text opt event = some next)
    (hfound : ∀ peer, task.found event = some peer → Reached opt state peer)
    (hstream : ∀ remote, task = .openingNetcat remote → event = .streamOpened (.ok ()) →
      state.stream = some remote) : TaskOk opt state next := by
  cases DialTask.move_of_resume h with
  | setUp => exact taskOk_afterSetUp text hjump state
  -- on the way to the named peer
  | relayConnected => exact htask
  | dialed => exact htask
  | rendezvousConnected => exact htask
  | discoverSent => exact htask
  -- it is reached
  | peerConnected => exact hfound _ rfl
  | mdnsConnected => exact hfound _ rfl
  | found => exact hfound _ rfl
  | accepted => exact taskOk_afterAccept htask _
  | netcatOpened => exact ⟨_, hstream _ rfl rfl, htask⟩
  | netcatRequested => trivial
  | reverseRequested => trivial
  | ended => trivial
  -- there is no jump
  | jumpConnected => exact htask.elim
  | jumpOpened => exact htask.elim
  | chainWritten => exact htask.elim
  | jumpOk => exact htask.elim
  | jumpRequested => exact htask.elim

/-! ## Turns of a loop -/

theorem Turn.identified_wait {learned told : Bool} {task : SwarmTask}
    (h : Turn.identified learned told = .wait task) :
    task = .identifying learned told ∧ (learned && told) = false := by
  unfold Turn.identified at h
  split at h
  · cases h
  · rename_i hnot
    exact ⟨(Turn.wait.inj h).symm, Bool.eq_false_iff.mpr hnot⟩

theorem identifying_turn {task next : SwarmTask} {wake : Wake} (h : Identifies (some task))
    (hturn : task.turn wake = some (.wait next)) :
    ∃ learned told, next = .identifying learned told ∧ (learned && told) = false := by
  obtain ⟨relayAddress, hloop⟩ | ⟨learned, told, hloop, hflags⟩ := h
  · obtain rfl := Option.some.inj hloop
    cases wake with
    | called dialed =>
        cases dialed with
        | ok done => exact ⟨_, _, Turn.identified_wait (Option.some.inj hturn)⟩
        | error err => cases hturn
    | _ => cases hturn
  · obtain rfl := Option.some.inj hloop
    cases wake with
    | event event dialed =>
        cases event with
        | identifySent peer => exact ⟨_, _, Turn.identified_wait (Option.some.inj hturn)⟩
        | identifyReceived peer addr => exact ⟨_, _, Turn.identified_wait (Option.some.inj hturn)⟩
        | _ => exact ⟨_, _, (Turn.wait.inj (Option.some.inj hturn)).symm, hflags⟩
    | _ => cases hturn

theorem identifies_turn {task next : SwarmTask} {wake : Wake} (h : Identifies (some task))
    (hturn : task.turn wake = some (.wait next)) : Identifies (some next) := by
  obtain ⟨learned, told, rfl, hflags⟩ := identifying_turn h hturn
  exact .inr ⟨learned, told, rfl, hflags⟩

/-- The wait for a peer's connection goes on as it is. -/
theorem connect_wait {expected : PeerId} {wake : Wake} {task next : SwarmTask}
    {lead : Option (Except Report Unit) → Turn} (hwait : lead none = .wait task)
    (hleave : ∀ result, ∃ event, lead (some result) = .leave event)
    (hturn : (waitForPeerConnection expected wake).map lead = some (.wait next)) :
    next = task := by
  obtain ⟨result, -, heq⟩ := Option.map_eq_some_iff.mp hturn
  cases result with
  | none =>
      rw [hwait] at heq
      exact (Turn.wait.inj heq).symm
  | some result =>
      obtain ⟨event, hevent⟩ := hleave result
      rw [hevent] at heq
      cases heq

theorem connect_leave {expected : PeerId} {wake : Wake} {task : SwarmTask} {event : DialEvent}
    {lead : Option (Except Report Unit) → Turn} (hwait : lead none = .wait task)
    (hturn : (waitForPeerConnection expected wake).map lead = some (.leave event)) :
    ∃ result, waitForPeerConnection expected wake = some (some result) ∧
      lead (some result) = .leave event := by
  obtain ⟨result, hresult, heq⟩ := Option.map_eq_some_iff.mp hturn
  cases result with
  | none =>
      rw [hwait] at heq
      cases heq
  | some result => exact ⟨result, hresult, heq⟩

theorem mdns_turn {expected : PeerId} {wake : Wake} {next : SwarmTask}
    (hturn : waitForMdnsAndConnect expected wake = some (.wait next)) :
    next = .waitingMdns expected ∨ next = .connectingMdns expected := by
  cases wake with
  | event event dialed =>
      cases event with
      | mdnsDiscovered peers =>
          simp only [waitForMdnsAndConnect] at hturn
          split at hturn
          · exact .inl (Turn.wait.inj (Option.some.inj hturn)).symm
          · split at hturn
            · exact .inr (Turn.wait.inj (Option.some.inj hturn)).symm
            · cases hturn
      | connectionEstablished peer =>
          simp only [waitForMdnsAndConnect] at hturn
          split at hturn
          · cases hturn
          · exact .inl (Turn.wait.inj (Option.some.inj hturn)).symm
      | _ => exact .inl (Turn.wait.inj (Option.some.inj hturn)).symm
  | _ => cases hturn

theorem rendezvous_turn {point : PeerId} {wake : Wake} {next : SwarmTask}
    (hturn : waitForRendezvousDiscovery point wake = some (.wait next)) :
    next = .waitingRendezvous point ∨
      ∃ registration others, next = .connectingRendezvous point registration.peer ∧
        .discovered point (registration :: others) ∈ wake.seen := by
  cases wake with
  | event event dialed =>
      cases event with
      | discovered node registrations =>
          simp only [waitForRendezvousDiscovery] at hturn
          split at hturn
          · rename_i hnode
            cases registrations with
            | nil => exact .inl (Turn.wait.inj (Option.some.inj hturn)).symm
            | cons registration others =>
                refine .inr ⟨registration, others, (Turn.wait.inj (Option.some.inj hturn)).symm, ?_⟩
                rw [hnode]
                exact List.mem_cons_self
          · exact .inl (Turn.wait.inj (Option.some.inj hturn)).symm
      | discoverFailed node code err =>
          simp only [waitForRendezvousDiscovery] at hturn
          split at hturn
          · cases hturn
          · exact .inl (Turn.wait.inj (Option.some.inj hturn)).symm
      | _ => exact .inl (Turn.wait.inj (Option.some.inj hturn)).symm
  | _ => cases hturn

theorem rendezvous_returns (point : PeerId) (wake : Wake) (remote : PeerId) :
    waitForRendezvousDiscovery point wake ≠ some (.leave (.discovered (.ok remote))) := by
  intro h
  cases wake with
  | event event dialed =>
      cases event with
      | discovered node registrations =>
          simp only [waitForRendezvousDiscovery] at h
          split at h
          · cases registrations with
            | nil => cases h
            | cons registration others => cases h
          · cases h
      | discoverFailed node code err =>
          simp only [waitForRendezvousDiscovery] at h
          split at h
          · cases h
          · cases h
      | _ => cases h
  | _ => cases h

theorem expects_turn {opt : DialOpt} {state : DialRun} {task next : SwarmTask} {wake : Wake}
    (htask : TaskOk opt state state.run) (h : Expects opt state.seen (some task) state.run)
    (hturn : task.turn wake = some (.wait next)) :
    Expects opt (state.seen ++ wake.seen) (some next) state.run := by
  cases hrun : state.run with
  | connectingJump _ _ => exact identifies_turn (by rwa [hrun] at h) hturn
  | connectingRelay _ _ _ => exact identifies_turn (by rwa [hrun] at h) hturn
  | connectingRendezvous _ _ _ => exact identifies_turn (by rwa [hrun] at h) hturn
  | waitingPeer remote =>
      rw [hrun] at h
      obtain rfl := Option.some.inj h
      exact congrArg some (connect_wait rfl (fun result => ⟨_, rfl⟩) hturn)
  | waitingMdns peer =>
      rw [hrun] at h
      rcases h with h | h
      · obtain rfl := Option.some.inj h
        rcases mdns_turn hturn with rfl | rfl
        · exact .inl rfl
        · exact .inr rfl
      · obtain rfl := Option.some.inj h
        exact .inr (congrArg some (connect_wait rfl (fun result => ⟨_, rfl⟩) hturn))
  | waitingRendezvous point =>
      rw [hrun] at h htask
      rcases h with h | ⟨peer, h, hnamed⟩
      · obtain rfl := Option.some.inj h
        rcases rendezvous_turn hturn with rfl | ⟨registration, others, rfl, hmem⟩
        · exact .inl rfl
        · obtain ⟨⟨code, htarget⟩, relayAddress, haddress, hpoint⟩ := htask
          refine .inr ⟨registration.peer, rfl, ?_⟩
          unfold Named
          rw [htarget]
          exact ⟨relayAddress, point, registration, others, haddress, hpoint,
            List.mem_append_right _ hmem, rfl⟩
      · obtain rfl := Option.some.inj h
        cases wake with
        | timedOut => cases hturn
        | _ =>
            simp only [SwarmTask.turn] at hturn
            exact .inr ⟨peer, congrArg some (connect_wait rfl (fun result => ⟨_, rfl⟩) hturn),
              hnamed.append _⟩
  | _ => rw [hrun] at h; cases h

/-- A loop that returns a peer has just seen the connection to it, and the peer was
named. -/
theorem found_turn {opt : DialOpt} {state : DialRun} {task : SwarmTask} {wake : Wake}
    {event : DialEvent} {peer : PeerId} (htask : TaskOk opt state state.run)
    (h : Expects opt state.seen (some task) state.run)
    (hturn : task.turn wake = some (.leave event)) (hfound : state.run.found event = some peer) :
    Named opt state.seen peer ∧ task.expected = some peer ∧
      .connectionEstablished peer ∈ wake.seen := by
  cases hrun : state.run with
  | waitingPeer remote =>
      rw [hrun] at h htask hfound
      obtain rfl := Option.some.inj h
      obtain ⟨result, hresult, heq⟩ := connect_leave rfl hturn
      cases heq
      cases result with
      | error report => cases hfound
      | ok done =>
          obtain rfl := Option.some.inj hfound
          obtain ⟨dialed, rfl⟩ := established_of_wait hresult
          exact ⟨htask, rfl, List.mem_cons_self⟩
  | waitingMdns expected =>
      rw [hrun] at h htask hfound
      cases event with
      | done result =>
          cases result with
          | error report => cases hfound
          | ok done =>
              obtain rfl := Option.some.inj hfound
              rcases h with h | h
              · obtain rfl := Option.some.inj h
                obtain ⟨dialed, rfl⟩ := established_of_mdns hturn
                exact ⟨htask, rfl, List.mem_cons_self⟩
              · obtain rfl := Option.some.inj h
                obtain ⟨result, hresult, heq⟩ := connect_leave rfl hturn
                cases heq
                obtain ⟨dialed, rfl⟩ := established_of_wait hresult
                exact ⟨htask, rfl, List.mem_cons_self⟩
      | _ => cases hfound
  | waitingRendezvous point =>
      rw [hrun] at h htask hfound
      cases event with
      | discovered result =>
          cases result with
          | error report => cases hfound
          | ok remote =>
              obtain rfl := Option.some.inj hfound
              rcases h with h | ⟨expected, h, hnamed⟩
              · obtain rfl := Option.some.inj h
                exact absurd hturn (rendezvous_returns point wake remote)
              · obtain rfl := Option.some.inj h
                cases wake with
                | event swarmEvent dialed =>
                    simp only [SwarmTask.turn] at hturn
                    obtain ⟨result, hresult, heq⟩ := connect_leave rfl hturn
                    cases result with
                    | error report => cases heq
                    | ok done =>
                        cases heq
                        obtain ⟨_, ⟨⟩⟩ := established_of_wait hresult
                        exact ⟨hnamed, rfl, List.mem_cons_self⟩
                | _ => cases hturn
      | _ => cases hfound
  | _ => rw [hrun] at hfound; cases hfound

/-! ## Every step -/

/-- The run goes on by itself: what it knows of its peers stays. -/
theorem RunInv.move {opt : DialOpt} {state next : DialRun} {task : DialTask}
    (inv : RunInv opt state) (nspace : String) (htask : TaskOk opt next task)
    (hrun : next.run = task)
    (hloop : next.loop = (state.enter nspace task).loop)
    (hrequest : next.request = (state.enter nspace task).request)
    {events : List SwarmEvent} {entries : List (PeerId × SwarmEvent)}
    (hseen : next.seen = state.seen ++ events) (hwaited : next.waited = state.waited ++ entries)
    (hsessions : next.sessions = state.sessions) : RunInv opt next where
  task := hrun ▸ htask
  expects := by
    rw [hloop, hrun]
    exact expects_enter opt nspace next.seen state task
  request h := by
    rw [hrun]
    exact request_enter (hrequest ▸ h)
  sessions session hmem := (inv.sessions session (hsessions ▸ hmem)).mono hseen hwaited

/-- A loop returns to the run. -/
theorem runInv_left {text : Libp2pText} {opt : DialOpt} {nspace : String} (hjump : opt.jump = [])
    {state : DialRun} {wake : Wake} {task : SwarmTask} {event : DialEvent} {run : DialTask}
    (inv : RunInv opt state) (hloop : state.loop = some task)
    (hturn : task.turn wake = some (.leave event))
    (hresume : state.run.resume text opt event = some run) :
    RunInv opt (state.record (state.enter nspace run) wake) := by
  have hexpects := inv.expects
  rw [hloop] at hexpects
  refine inv.move nspace ?_ rfl rfl rfl rfl rfl rfl
  refine taskOk_resume hjump (inv.task.mono rfl rfl rfl) hresume ?_ ?_
  · intro peer hfound
    obtain ⟨hnamed, hpeer, hmem⟩ := found_turn inv.task hexpects hturn hfound
    refine ⟨hnamed.append _, List.mem_append_right _ ?_⟩
    rw [hloop, Option.bind_some, hpeer]
    simpa using hmem
  · intro remote hopening _
    rw [hopening] at hexpects
    cases hexpects

theorem opened_cases {opt : DialOpt} {state : DialRun} (h : TaskOk opt state state.run)
    (event : DialEvent) :
    (∃ remote, state.run = .openingNetcat remote ∧
      (event = .streamOpened (.ok ()) → state.opened event = some remote)) ∨
      (∀ remote, state.run ≠ .openingNetcat remote) ∧ state.opened event = state.stream := by
  unfold DialRun.opened
  cases hrun : state.run with
  | openingNetcat remote =>
      refine .inl ⟨remote, rfl, ?_⟩
      rintro rfl
      rfl
  | openingJump _ _ => rw [hrun] at h; exact h.elim
  | _ => exact .inr ⟨(fun remote h => by cases h), rfl⟩

/-- An operation that is not a loop comes back. -/
theorem runInv_resumed {text : Libp2pText} {opt : DialOpt} {nspace : String}
    (hjump : opt.jump = []) {state : DialRun} {event : DialEvent} {run : DialTask}
    (inv : RunInv opt state) (hloop : state.loop = none)
    (hresume : state.run.resume text opt event = some run) :
    RunInv opt { state.enter nspace run with stream := state.opened event } := by
  have hexpects := inv.expects
  rw [hloop] at hexpects
  -- the run waits for no loop, so `run` is reached without one
  have hfound : ∀ peer, state.run.found event = some peer → Reached opt state peer := by
    intro peer hfound
    cases hrun : state.run with
    | waitingPeer remote => rw [hrun] at hexpects; cases hexpects
    | waitingMdns expected =>
        rw [hrun] at hexpects
        rcases hexpects with hexpects | hexpects <;> cases hexpects
    | waitingRendezvous point =>
        rw [hrun] at hexpects
        rcases hexpects with hexpects | ⟨peer, hexpects, -⟩ <;> cases hexpects
    | _ => rw [hrun] at hfound; cases hfound
  refine inv.move nspace ?_ rfl rfl rfl (List.append_nil _).symm (List.append_nil _).symm rfl
  rcases opened_cases inv.task event with ⟨remote, hopening, hopened⟩ | ⟨hnot, hopened⟩
  · have htask := inv.task
    rw [hopening] at htask hresume
    refine taskOk_resume hjump ?_ hresume (fun peer hpeer => by cases hpeer) ?_
    · exact htask
    · rintro remote' ⟨⟩ hevent
      exact hopened hevent
  · have htask : TaskOk opt { state.enter nspace run with stream := state.opened event }
        state.run := inv.task.mono (List.append_nil _).symm (List.append_nil _).symm hopened
    exact taskOk_resume hjump htask hresume hfound
      fun remote hopening => absurd hopening (hnot remote)

/-- `request_reverse_forward` returns to the run. -/
theorem runInv_requested {text : Libp2pText} {opt : DialOpt} {nspace : String}
    {state : DialRun} {task : RequestTask} {result : Except Report Unit} {run : DialTask}
    (inv : RunInv opt state) (hrequest : state.request = some task)
    (hresume : state.run.resume text opt (.done result) = some run) :
    RunInv opt (state.enter nspace run) := by
  obtain ⟨remote, bindPort, target, gatewayPorts, hrun⟩ := inv.request (by rw [hrequest]; rfl)
  have htask : TaskOk opt (state.enter nspace run) run := by
    rw [hrun] at hresume
    cases result with
    | ok done =>
        obtain rfl := Option.some.inj hresume
        trivial
    | error report =>
        obtain rfl := Option.some.inj hresume
        trivial
  exact inv.move nspace htask rfl rfl rfl (List.append_nil _).symm (List.append_nil _).symm rfl

/-- A session on a port goes to the peer that its run serves. -/
theorem reached_of_accepted {opt : DialOpt} {state : DialRun} {session : PortSession}
    (inv : RunInv opt state) (h : DialRun.accepted state.run = some session) :
    Reached opt state session.remotePeer := by
  have htask := inv.task
  cases hrun : state.run with
  | localForwarding remote bindPort target =>
      rw [hrun] at h htask
      obtain rfl := Option.some.inj h
      exact htask
  | proxying remote bindPort =>
      rw [hrun] at h htask
      obtain rfl := Option.some.inj h
      exact htask
  | _ => rw [hrun] at h; cases h

theorem runInv_step {text : Libp2pText} {opt : DialOpt} {nspace : String} (hjump : opt.jump = [])
    {state next : DialRun} {label : DialLabel} (inv : RunInv opt state)
    (h : state.step text opt nspace label = some next) : RunInv opt next := by
  cases DialRun.move_of_step h with
  | waited hloop hturn =>
      have hexpects := inv.expects
      rw [hloop] at hexpects
      exact {
        task := inv.task.mono rfl rfl rfl
        expects := expects_turn inv.task hexpects hturn
        request := inv.request
        sessions session hmem := (inv.sessions session hmem).mono rfl rfl }
  | left hloop hturn hresume => exact runInv_left hjump inv hloop hturn hresume
  | resumed hloop hrequest hresume => exact runInv_resumed hjump inv hloop hresume
  | requesting hrequest htask =>
      exact ⟨inv.task, inv.expects, fun _ => inv.request (by rw [hrequest]; rfl), inv.sessions⟩
  | requested hrequest htask hresume => exact runInv_requested inv hrequest hresume
  | accepted hsession =>
      have hreached := reached_of_accepted inv hsession
      refine ⟨inv.task, inv.expects, inv.request, ?_⟩
      intro other hother
      rcases List.mem_append.mp hother with hmem | hmem
      · exact inv.sessions other hmem
      · obtain rfl := List.mem_singleton.mp hmem
        exact hreached
  | session hget htask =>
      have hreached := inv.sessions _ (List.mem_of_getElem? hget)
      refine ⟨inv.task, inv.expects, inv.request, ?_⟩
      intro other hother
      rcases List.mem_or_eq_of_mem_set hother with hmem | rfl
      · exact inv.sessions other hmem
      · exact hreached

theorem runInv_of_reaches {text : Libp2pText} {opt : DialOpt} {nspace : String}
    (hjump : opt.jump = []) {labels : List DialLabel} {state : DialRun}
    (hrun : (DialRun.machine text opt nspace).Reaches labels state) : RunInv opt state := by
  apply Machine.invariant (RunInv opt) _ _ hrun
  · exact ⟨trivial, rfl, fun h => (by cases h), fun session hmem => (by cases hmem)⟩
  · intro state label next inv hstep
    exact runInv_step hjump inv hstep

/-! ## Who is talked to -/

/-- The operations of a session are on streams to its peer. -/
theorem peer_of_tunnelOp {nspace : String} {remote : PeerId} {task : PortTask} {op : TunnelOp}
    (h : task.tunnelOp nspace remote = some op) : op.peer = remote := by
  cases task with
  | localForward target task =>
      cases task with
      | opening =>
          obtain rfl := Option.some.inj h
          rfl
      | writing =>
          obtain rfl := Option.some.inj h
          rfl
      | _ => cases h
  | proxy task =>
      cases task with
      | opening kind target =>
          obtain rfl := Option.some.inj h
          rfl
      | writing kind target =>
          obtain rfl := Option.some.inj h
          rfl
      | _ => cases h

/-- The operations of the run itself are on streams to a peer that it has reached. -/
theorem reached_of_ownOp {opt : DialOpt} {nspace : String} {state : DialRun} {op : TunnelOp}
    (inv : RunInv opt state) (h : state.ownOp nspace = some op) : Reached opt state op.peer := by
  have htask := inv.task
  unfold DialRun.ownOp at h
  cases hrun : state.run with
  | requestingReverse remote bindPort target gatewayPorts =>
      rw [hrun] at h htask
      simp only at h
      cases hrequest : state.request with
      | none => rw [hrequest] at h; cases h
      | some task =>
          rw [hrequest] at h
          cases task with
          | opening =>
              obtain rfl := Option.some.inj h
              exact htask
          | writing =>
              obtain rfl := Option.some.inj h
              exact htask
          | _ => cases h
  | openingNetcat remote =>
      rw [hrun] at h htask
      obtain rfl := Option.some.inj h
      exact htask
  | writingNetcat =>
      rw [hrun] at h htask
      obtain ⟨remote, hstream, hreached⟩ := htask
      simp only [DialTask.op, hstream, Option.map_some, Option.some.injEq] at h
      rw [← h]
      exact hreached
  | openingJump _ _ => rw [hrun] at htask; exact htask.elim
  | writingJumpRequest => rw [hrun] at htask; exact htask.elim
  | _ => rw [hrun] at h; cases h

theorem reached_of_tunnelOp {opt : DialOpt} {nspace : String} {state : DialRun} {op : TunnelOp}
    (inv : RunInv opt state) (h : op ∈ state.tunnelOps nspace) : Reached opt state op.peer := by
  rcases List.mem_append.mp h with hown | hsession
  · exact reached_of_ownOp inv (Option.mem_toList.mp hown)
  · obtain ⟨session, hmem, hop⟩ := List.mem_filterMap.mp hsession
    rw [peer_of_tunnelOp hop]
    exact inv.sessions session hmem

/-! ## What makes a run proceed -/

/-- An event that names a peer or a rendezvous point. -/
def SwarmEvent.About (peer : PeerId) : SwarmEvent → Prop
  | .connectionEstablished named => named = peer
  | .outgoingConnectionError named _ => named = some peer
  | .identifySent named => named = peer
  | .identifyReceived named _ => named = peer
  | .mdnsDiscovered peers => ∃ addr, (peer, addr) ∈ peers
  | .mdnsExpired peers => ∃ addr, (peer, addr) ∈ peers
  | .discovered node _ => node = peer
  | .discoverFailed node _ _ => node = peer
  | .newListenAddr _ => False
  | .other => False

/-- An event that made the run proceed was about the party it was waiting for. -/
def OfParty (entry : Option PeerId × SwarmEvent) : Prop :=
  ∃ peer, entry.1 = some peer ∧ entry.2.About peer

/-- The peer whose identify event sets a flag of `connect_and_identify`. -/
def SwarmEvent.flags (learned told : Bool) : SwarmEvent → Option PeerId
  | .identifySent peer => if told then none else some peer
  | .identifyReceived peer _ => if learned then none else some peer
  | _ => none

/-- A step at which no identify event of a peer other than the relay sets a flag of
`connect_and_identify`. -/
def Undiverted (state : DialRun) (label : DialLabel) : Prop :=
  ∀ event dialed learned told, label = .wake (.event event dialed) →
    state.loop = some (.identifying learned told) →
    ∀ peer, event.flags learned told = some peer → state.run.relay = some peer

/-- A wait for a peer's connection ends by an event of that peer only. -/
theorem about_of_connect {expected : PeerId} {event : SwarmEvent} {dialed : Except String Unit}
    {result : Except Report Unit}
    (h : waitForPeerConnection expected (.event event dialed) = some (some result)) :
    event.About expected := by
  cases event with
  | connectionEstablished peer =>
      simp only [waitForPeerConnection, Option.some.injEq] at h
      split at h
      · rename_i hpeer
        exact hpeer
      · cases h
  | _ => cases h

/-- The waiting loops ignore every event that is not about their party. -/
theorem about_of_proceeds {task : SwarmTask} {turn : Turn} {event : SwarmEvent}
    {dialed : Except String Unit}
    (hnot : ∀ learned told, task ≠ .identifying learned told)
    (h : task.turn (.event event dialed) = some turn) (hmoves : turn ≠ .wait task) :
    ∃ peer, event.About peer ∧
      (task.expected = some peer ∨ task = .waitingRendezvous peer) := by
  cases task with
  | dialingRelay relayAddress => cases h
  | identifying learned told => exact absurd rfl (hnot learned told)
  | waitingPeer expected =>
      obtain ⟨result, hresult, rfl⟩ := Option.map_eq_some_iff.mp h
      cases result with
      | none => exact absurd rfl hmoves
      | some result => exact ⟨expected, about_of_connect hresult, .inl rfl⟩
  | connectingMdns expected =>
      obtain ⟨result, hresult, rfl⟩ := Option.map_eq_some_iff.mp h
      cases result with
      | none => exact absurd rfl hmoves
      | some result => exact ⟨expected, about_of_connect hresult, .inl rfl⟩
  | connectingRendezvous point peer =>
      simp only [SwarmTask.turn] at h
      obtain ⟨result, hresult, rfl⟩ := Option.map_eq_some_iff.mp h
      cases result with
      | none => exact absurd rfl hmoves
      | some result => exact ⟨peer, about_of_connect hresult, .inl rfl⟩
  | waitingMdns expected =>
      refine ⟨expected, ?_, .inl rfl⟩
      cases event with
      | mdnsDiscovered peers =>
          simp only [SwarmTask.turn, waitForMdnsAndConnect] at h
          split at h
          · exact absurd (Option.some.inj h).symm hmoves
          · rename_i addr hfirst
            exact ⟨addr, mem_of_firstOf hfirst⟩
      | connectionEstablished peer =>
          simp only [SwarmTask.turn, waitForMdnsAndConnect] at h
          split at h
          · rename_i hpeer
            exact hpeer
          · exact absurd (Option.some.inj h).symm hmoves
      | _ => exact absurd (Option.some.inj h).symm hmoves
  | waitingRendezvous point =>
      refine ⟨point, ?_, .inr rfl⟩
      cases event with
      | discovered node registrations =>
          simp only [SwarmTask.turn, waitForRendezvousDiscovery] at h
          split at h
          · rename_i hpeer
            exact hpeer
          · exact absurd (Option.some.inj h).symm hmoves
      | discoverFailed node code err =>
          simp only [SwarmTask.turn, waitForRendezvousDiscovery] at h
          split at h
          · rename_i hpeer
            exact hpeer
          · exact absurd (Option.some.inj h).symm hmoves
      | _ => exact absurd (Option.some.inj h).symm hmoves

/-- An identify event that sets no flag leaves `connect_and_identify` as it was. -/
theorem identifying_of_flags_none {learned told : Bool} {event : SwarmEvent}
    (dialed : Except String Unit) (hflags : (learned && told) = false)
    (h : event.flags learned told = none) :
    connectAndIdentify learned told (.event event dialed) =
      some (.wait (.identifying learned told)) := by
  cases event with
  | identifySent peer =>
      cases told with
      | false => cases h
      | true => simp [connectAndIdentify, Turn.identified, hflags]
  | identifyReceived peer addr =>
      cases learned with
      | false => cases h
      | true => simp [connectAndIdentify, Turn.identified, hflags]
  | _ => rfl

/-- One that sets a flag leads on, whoever it is about. -/
theorem identifying_of_flags_some {learned told : Bool} {event : SwarmEvent} {peer : PeerId}
    (dialed : Except String Unit) (h : event.flags learned told = some peer) :
    (∀ named, event.About named ↔ peer = named) ∧
      (connectAndIdentify learned told (.event event dialed) = some (.leave (.done (.ok ()))) ∨
        ∃ task, connectAndIdentify learned told (.event event dialed) = some (.wait task) ∧
          task ≠ .identifying learned told) := by
  cases event with
  | identifySent named =>
      cases told with
      | true => cases h
      | false =>
          obtain rfl := Option.some.inj h
          refine ⟨fun _ => Iff.rfl, ?_⟩
          cases learned with
          | true => exact .inl rfl
          | false => exact .inr ⟨_, rfl, fun heq => by cases heq⟩
  | identifyReceived named addr =>
      cases learned with
      | true => cases h
      | false =>
          obtain rfl := Option.some.inj h
          refine ⟨fun _ => Iff.rfl, ?_⟩
          cases told with
          | true => exact .inl rfl
          | false => exact .inr ⟨_, rfl, fun heq => by cases heq⟩
  | _ => cases h

/-- Behind `connect_and_identify` a run runs no loop. -/
theorem loop_of_identified {text : Libp2pText} {opt : DialOpt} (nspace : String)
    {state : DialRun} {task : DialTask} {learned told : Bool}
    (h : Expects opt state.seen (some (.identifying learned told)) state.run)
    (hresume : state.run.resume text opt (.done (.ok ())) = some task) :
    (state.enter nspace task).loop = none := by
  generalize state.run = run at h hresume
  cases DialTask.move_of_resume hresume with
  | jumpConnected => rfl
  | relayConnected => rfl
  | rendezvousConnected => rfl
  | ended => rfl
  | mdnsConnected => rcases h with h | h <;> cases h
  | _ => cases h

theorem forall_record_iff (state moved : DialRun) (event : SwarmEvent)
    (dialed : Except String Unit) :
    (∀ entry ∈ (state.record moved (.event event dialed)).proceeded, OfParty entry) ↔
      (∀ entry ∈ state.proceeded, OfParty entry) ∧
        (¬ (moved.run = state.run ∧ moved.loop = state.loop) → OfParty (state.party, event)) := by
  simp only [DialRun.record, Wake.seen]
  split
  · rename_i hsame
    simp [hsame]
  · rename_i hmoved
    simp [hmoved, or_imp, forall_and]

/-- The flags of a call that has not returned are not both set. -/
theorem flags_of_expects {opt : DialOpt} {seen : List SwarmEvent} {run : DialTask}
    {learned told : Bool} (h : Expects opt seen (some (.identifying learned told)) run) :
    (learned && told) = false := by
  have hidentifies : Identifies (some (.identifying learned told)) := by
    cases run with
    | connectingJump _ _ => exact h
    | connectingRelay _ _ _ => exact h
    | connectingRendezvous _ _ _ => exact h
    | waitingMdns peer => rcases h with h | h <;> cases h
    | waitingRendezvous point => rcases h with h | ⟨peer, h, -⟩ <;> cases h
    | _ => cases h
  rcases hidentifies with ⟨relayAddress, h⟩ | ⟨learned', told', heq, hflags⟩
  · cases h
  · cases heq
    exact hflags

theorem party_of_expected {state : DialRun} {task : SwarmTask} {peer : PeerId}
    (hloop : state.loop = some task)
    (h : task.expected = some peer ∨ task = .waitingRendezvous peer) :
    state.party = some peer := by
  rcases h with h | rfl
  · cases task with
    | dialingRelay relayAddress => cases h
    | identifying learned told => cases h
    | waitingRendezvous point => cases h
    | _ => rw [DialRun.party, hloop]; exact h
  · rw [DialRun.party, hloop]

theorem wake_cases {text : Libp2pText} {opt : DialOpt} {nspace : String} {state next : DialRun}
    {wake : Wake} (h : state.step text opt nspace (.wake wake) = some next) :
    ∃ task moved, state.loop = some task ∧ next = state.record moved wake ∧
      ((∃ task', task.turn wake = some (.wait task') ∧ moved = { state with loop := some task' }) ∨
        ∃ event run, task.turn wake = some (.leave event) ∧
          state.run.resume text opt event = some run ∧ moved = state.enter nspace run) := by
  cases DialRun.move_of_step h with
  | waited hloop hturn => exact ⟨_, _, hloop, rfl, .inl ⟨_, hturn, rfl⟩⟩
  | left hloop hturn hresume => exact ⟨_, _, hloop, rfl, .inr ⟨_, _, hturn, hresume, rfl⟩⟩

/-- An event makes the run proceed only if it is about its party, but for the identify
events that set a flag. -/
theorem proceeds_iff {text : Libp2pText} {opt : DialOpt} {nspace : String}
    {state next : DialRun} {event : SwarmEvent} {dialed : Except String Unit}
    (inv : RunInv opt state)
    (h : state.step text opt nspace (.wake (.event event dialed)) = some next) :
    (∀ entry ∈ next.proceeded, OfParty entry) ↔
      (∀ entry ∈ state.proceeded, OfParty entry) ∧
        Undiverted state (.wake (.event event dialed)) := by
  obtain ⟨task, moved, hloop, rfl, hmoved⟩ := wake_cases h
  rw [forall_record_iff]
  refine and_congr_right fun _ => ?_
  by_cases hidentifying : ∃ learned told, task = .identifying learned told
  · obtain ⟨learned, told, rfl⟩ := hidentifying
    have hexpects := inv.expects
    rw [hloop] at hexpects
    have hparty : state.party = state.run.relay := by rw [DialRun.party, hloop]
    have hundiverted : Undiverted state (.wake (.event event dialed)) ↔
        ∀ peer, event.flags learned told = some peer → state.run.relay = some peer := by
      constructor
      · exact fun hall => hall event dialed learned told rfl hloop
      · intro hall event' dialed' learned' told' hlabel hloop'
        cases hlabel
        cases hloop.symm.trans hloop'
        exact hall
    rw [hundiverted]
    cases hflags : event.flags learned told with
    | none =>
        have hturn' := identifying_of_flags_none dialed (flags_of_expects hexpects) hflags
        have hsame : moved.run = state.run ∧ moved.loop = state.loop := by
          obtain ⟨task', hturn, rfl⟩ | ⟨_, _, hturn, -⟩ := hmoved
          · cases hturn'.symm.trans hturn
            exact ⟨rfl, hloop.symm⟩
          · cases hturn'.symm.trans hturn
        exact ⟨fun _ peer hpeer => (by cases hpeer), fun _ hmoves => absurd hsame hmoves⟩
    | some peer =>
        obtain ⟨habout, hleads⟩ := identifying_of_flags_some dialed hflags
        have hmoves : ¬ (moved.run = state.run ∧ moved.loop = state.loop) := by
          rintro ⟨-, hsame⟩
          rw [hloop] at hsame
          obtain ⟨task', hturn, rfl⟩ | ⟨_, run, hturn, hresume, rfl⟩ := hmoved
          · obtain hleave | ⟨task'', hwait, hne⟩ := hleads
            · cases hleave.symm.trans hturn
            · cases hwait.symm.trans hturn
              exact hne (Option.some.inj hsame)
          · obtain hleave | ⟨task'', hwait, -⟩ := hleads
            · cases hleave.symm.trans hturn
              rw [loop_of_identified nspace hexpects hresume] at hsame
              cases hsame
            · cases hwait.symm.trans hturn
        constructor
        · intro hparty' peer' hpeer'
          obtain rfl := Option.some.inj hpeer'
          obtain ⟨named, hnamed, hevent⟩ := hparty' hmoves
          rw [(habout named).mp hevent, ← hparty]
          exact hnamed
        · exact fun hrelay _ => ⟨peer, hparty.trans (hrelay peer rfl), (habout peer).mpr rfl⟩
  · have hundiverted : Undiverted state (.wake (.event event dialed)) := by
      intro _ _ learned told _ hloop'
      exact absurd ⟨learned, told, Option.some.inj (hloop.symm.trans hloop')⟩ hidentifying
    refine ⟨fun _ => hundiverted, fun _ hmoves => ?_⟩
    have hnot : ∀ learned told, task ≠ .identifying learned told :=
      fun learned told heq => hidentifying ⟨learned, told, heq⟩
    obtain ⟨turn, hturn, hne⟩ : ∃ turn, task.turn (.event event dialed) = some turn ∧
        turn ≠ .wait task := by
      obtain ⟨task', hturn, rfl⟩ | ⟨_, _, hturn, -⟩ := hmoved
      · refine ⟨_, hturn, ?_⟩
        rintro ⟨⟩
        exact hmoves ⟨rfl, hloop.symm⟩
      · exact ⟨_, hturn, fun heq => by cases heq⟩
    obtain ⟨peer, habout, hparty⟩ := about_of_proceeds hnot hturn hne
    exact ⟨peer, party_of_expected hloop hparty, habout⟩

/-- Only an event goes on record. -/
theorem proceeded_of_quiet {text : Libp2pText} {opt : DialOpt} {nspace : String}
    {state next : DialRun} {label : DialLabel}
    (hquiet : ∀ event dialed, label ≠ .wake (.event event dialed))
    (h : state.step text opt nspace label = some next) : next.proceeded = state.proceeded := by
  have hrecord : ∀ wake moved, label = .wake wake →
      (state.record moved wake).proceeded = state.proceeded := by
    rintro wake moved rfl
    cases wake with
    | event event dialed => exact absurd rfl (hquiet event dialed)
    | _ => simp [DialRun.record, Wake.seen]
  cases DialRun.move_of_step h with
  | waited hloop hturn => exact hrecord _ _ rfl
  | left hloop hturn hresume => exact hrecord _ _ rfl
  | _ => rfl

theorem ofParty_step {text : Libp2pText} {opt : DialOpt} {nspace : String}
    {state next : DialRun} {label : DialLabel} (inv : RunInv opt state)
    (h : state.step text opt nspace label = some next) :
    (∀ entry ∈ next.proceeded, OfParty entry) ↔
      (∀ entry ∈ state.proceeded, OfParty entry) ∧ Undiverted state label := by
  by_cases hevent : ∃ event dialed, label = .wake (.event event dialed)
  · obtain ⟨event, dialed, rfl⟩ := hevent
    exact proceeds_iff inv h
  · have hquiet : ∀ event dialed, label ≠ .wake (.event event dialed) :=
      fun event dialed heq => hevent ⟨event, dialed, heq⟩
    have hundiverted : Undiverted state label :=
      fun event dialed _ _ heq => absurd heq (hquiet event dialed)
    rw [proceeded_of_quiet hquiet h]
    exact ⟨fun hall => ⟨hall, hundiverted⟩, And.left⟩

/-- In every run of `run_dial` without a jump, whatever the order of events: tunnel streams
are opened and requests written only to the peer that the user named, once a loop that
waited for that peer has seen its connection; and no event about another peer or another
rendezvous node has made the run proceed, exactly where none of its steps lets the identify
event of a peer other than the relay set a flag of `connect_and_identify`. -/
theorem tunnel_to_named (text : Libp2pText) {opt : DialOpt} (nspace : String)
    (hjump : opt.jump = []) {labels : List DialLabel} {state : DialRun}
    (hrun : (DialRun.machine text opt nspace).Reaches labels state) :
    (∀ op ∈ state.tunnelOps nspace,
      Named opt state.seen op.peer ∧
        (op.peer, .connectionEstablished op.peer) ∈ state.waited) ∧
    ((∀ entry ∈ state.proceeded, OfParty entry) ↔
      (DialRun.machine text opt nspace).Meets Undiverted {} labels) := by
  constructor
  · intro op hop
    exact reached_of_tunnelOp (runInv_of_reaches hjump hrun) hop
  · have hempty : (DialRun.machine text opt nspace).Reaches [] {} := rfl
    have hstart : RunInv opt {} := runInv_of_reaches hjump hempty
    have hiff := Machine.exec_iff_meets Undiverted (RunInv opt)
      (fun state => ∀ entry ∈ state.proceeded, OfParty entry)
      (fun inv hstep => runInv_step hjump inv hstep) (fun inv hstep => ofParty_step inv hstep)
      labels hrun hstart
    rw [hiff]
    exact ⟨And.right, fun hmeets => ⟨fun entry hmem => (by cases hmem), hmeets⟩⟩

/-- `sape dial` on the circuit of listener 9 behind relay 1. -/
def circuitNine : DialOpt := { target := .relayCircuit (relayOne ++ [.p2pCircuit, .p2p ⟨[9]⟩]) }

/-- Its relay is connected to, and identified by the events of a peer. -/
def identifiedBy (peer : PeerId) : List DialLabel :=
  [.event (.done (.ok ())), .wake (.called (.ok ())),
    .wake (.event (.identifySent peer) (.ok ())),
    .wake (.event (.identifyReceived peer []) (.ok ()))]

/-- Behind relay 1 the circuit is dialed, peer 5 and listener 9 connect, and the tunnel starts. -/
def nineConnected : List DialLabel :=
  identifiedBy ⟨[1]⟩ ++ [.event (.done (.ok ())),
    .wake (.event (.connectionEstablished ⟨[5]⟩) (.ok ())),
    .wake (.event (.connectionEstablished ⟨[9]⟩) (.ok ())), .event (.done (.ok ()))]

theorem tunnel_to_named_nine :
    ∃ state, (DialRun.machine (.ofTable []) circuitNine "").Reaches nineConnected state ∧
      .openStream ⟨[9]⟩ (tunnelProtocol "") ∈ state.tunnelOps "" ∧
      Named circuitNine state.seen ⟨[9]⟩ ∧
      (⟨[9]⟩, .connectionEstablished ⟨[9]⟩) ∈ state.waited ∧
      ((∀ entry ∈ state.proceeded, OfParty entry) ↔
        (DialRun.machine (.ofTable []) circuitNine "").Meets Undiverted {} nineConnected) := by
  obtain ⟨state, hrun, htest⟩ :
      ∃ state, (DialRun.machine (.ofTable []) circuitNine "").Reaches nineConnected state ∧
        decide (.openStream ⟨[9]⟩ (tunnelProtocol "") ∈ state.tunnelOps "") = true :=
    Machine.exists_reaches_of_any (by decide)
  have hop := of_decide_eq_true htest
  obtain ⟨hops, hiff⟩ := tunnel_to_named (.ofTable []) "" rfl hrun
  obtain ⟨hnamed, hwaited⟩ := hops _ hop
  exact ⟨state, hrun, hop, hnamed, hwaited, hiff⟩

/-- Peer 7's identify exchange makes the run go on to dial the circuit, with nothing seen
of relay 1. -/
theorem stranger_proceeds :
    ∃ state, (DialRun.machine (.ofTable []) circuitNine "").Reaches (identifiedBy ⟨[7]⟩) state ∧
      state.run = .dialingCircuit (relayOne ++ [.p2pCircuit, .p2p ⟨[9]⟩]) ⟨[9]⟩ ∧
      state.seen = [.identifySent ⟨[7]⟩, .identifyReceived ⟨[7]⟩ []] ∧
      ¬ ∀ entry ∈ state.proceeded, OfParty entry := by
  obtain ⟨state, hrun, htest⟩ :
      ∃ state, (DialRun.machine (.ofTable []) circuitNine "").Reaches
          (identifiedBy ⟨[7]⟩) state ∧
        decide (state.run = .dialingCircuit (relayOne ++ [.p2pCircuit, .p2p ⟨[9]⟩]) ⟨[9]⟩ ∧
          state.seen = [.identifySent ⟨[7]⟩, .identifyReceived ⟨[7]⟩ []] ∧
          (some ⟨[1]⟩, .identifySent ⟨[7]⟩) ∈ state.proceeded) = true :=
    Machine.exists_reaches_of_any (by decide)
  obtain ⟨hcircuit, hseen, hmem⟩ := of_decide_eq_true htest
  refine ⟨state, hrun, hcircuit, hseen, fun hall => ?_⟩
  obtain ⟨peer, hparty, habout⟩ := hall _ hmem
  cases hparty
  cases habout

end Sape
