/-
  Client/Announce.lean --- `run_listen` in front of its accept loop: the registration on
  the relay, and the pairing code that it announces.

  `Namespace::new` takes any string that is not too long, so `--code` is registered and
  announced as it is; `sape dial` only takes the codes of `Pairing.lean` for codes.

  WHAT IS PROVED.

      registered_of_reaches      the announced code is the one that was registered
      discovers_of_dial          a dial with a code discovers that code, and no other
      announced_dialable_iff     an announced code can be dialed exactly if it is a code
-/
import Sape.Client.Options
import Sape.Pairing

set_option autoImplicit false

namespace Sape

open Sape.Foundation

/-! ## The registration -/

/-- `struct ListenOpt`, as far as the code in front of the accept loop looks at it. -/
structure RegisterOpt where
  relayAddress : Option Multiaddr := none
  code : Option String := none
  deriving DecidableEq, Repr, Inhabited

/-- The operations `run_listen` waits for there. -/
inductive RegisterOp where
  /-- `resolve_identity`, `build_client_swarm` and `start_listeners` -/
  | setUp
  | connectAndIdentify (addr : Multiaddr)
  /-- `swarm.listen_on` -/
  | listenOn (addr : Multiaddr)
  /-- `Namespace::new` and `rendezvous.register` -/
  | register (code : String) (relayPeer : PeerId)
  deriving DecidableEq, Repr, Inhabited

/-- What a listener prints once it is registered. -/
structure Announcement where
  relayAddress : Multiaddr
  relayPeer : PeerId
  code : String
  deriving DecidableEq, Repr, Inhabited

/-- Where `run_listen` is, up to its accept loop. -/
inductive RegisterTask where
  | settingUp
  | connecting (relayAddress : Multiaddr)
  | listeningOn (relayAddress : Multiaddr)
  | registering (announcement : Announcement)
  /-- at the accept loop, behind what it has announced -/
  | accepting (announced : Option Announcement)
  | ended (report : Report)
  deriving DecidableEq, Repr, Inhabited

namespace RegisterTask

/-- The operation that is waited for. -/
def op : RegisterTask → Option RegisterOp
  | .settingUp => some .setUp
  | .connecting relayAddress => some (.connectAndIdentify relayAddress)
  | .listeningOn relayAddress => some (.listenOn (relayAddress ++ [.p2pCircuit]))
  | .registering announcement => some (.register announcement.code announcement.relayPeer)
  | .accepting _ => none
  | .ended _ => none

/-- `run_listen`, up to its first wait. -/
def start (text : Libp2pText) (opt : RegisterOpt) : RegisterTask :=
  match opt.relayAddress with
  | none => .settingUp
  | some addr =>
      match validateRelayAddress addr with
      | .ok () => .settingUp
      | .error err =>
          .ended (.wrap s!"invalid --relay-address '{text.printMultiaddr addr}'" (.msg err.text))

/-- From the circuit listener to the next wait: `draw` is what `generate_code` draws. -/
def afterListenOn (opt : RegisterOpt) (draw : CodeDraw) (relayAddress : Multiaddr) :
    RegisterTask :=
  match peerIdFromMultiaddr relayAddress with
  | none => .ended (.msg "missing relay peer id in --relay-address")
  | some relayPeer =>
      .registering
        { relayAddress := relayAddress
          relayPeer := relayPeer
          code := opt.code.getD (generateCode draw) }

/-- The code between a wait and the next one. -/
def resume (opt : RegisterOpt) (draw : CodeDraw) :
    RegisterTask → Except Report Unit → Option RegisterTask
  | .settingUp, .ok () =>
      match opt.relayAddress with
      | none => some (.accepting none)
      | some relayAddress => some (.connecting relayAddress)
  | .connecting relayAddress, .ok () => some (.listeningOn relayAddress)
  | .listeningOn relayAddress, .ok () => some (afterListenOn opt draw relayAddress)
  | .registering announcement, .ok () => some (.accepting (some announcement))
  | .settingUp, .error report
  | .connecting _, .error report
  | .listeningOn _, .error report
  | .registering _, .error report => some (.ended report)
  | .accepting _, _ => none
  | .ended _, _ => none

/-- The machine of a registration. -/
def machine (text : Libp2pText) (opt : RegisterOpt) (draw : CodeDraw) :
    Machine RegisterTask (Except Report Unit) where
  start := start text opt
  step := resume opt draw

end RegisterTask

/-- What is announced is about the relay and the code of the options. -/
def Announces (opt : RegisterOpt) (draw : CodeDraw) (announcement : Announcement) : Prop :=
  opt.relayAddress = some announcement.relayAddress ∧
    peerIdFromMultiaddr announcement.relayAddress = some announcement.relayPeer ∧
    announcement.code = opt.code.getD (generateCode draw)

/-- What holds on the way to the announcement. -/
def RegisterInv (opt : RegisterOpt) (draw : CodeDraw) : RegisterTask → Prop
  | .connecting relayAddress => opt.relayAddress = some relayAddress
  | .listeningOn relayAddress => opt.relayAddress = some relayAddress
  | .registering announcement => Announces opt draw announcement
  | .accepting announced => ∀ announcement, announced = some announcement →
      Announces opt draw announcement
  | .settingUp => True
  | .ended _ => True

theorem registerInv_start (text : Libp2pText) (opt : RegisterOpt) (draw : CodeDraw) :
    RegisterInv opt draw (RegisterTask.start text opt) := by
  unfold RegisterTask.start
  split
  · trivial
  · split
    · trivial
    · trivial

theorem registerInv_step {opt : RegisterOpt} {draw : CodeDraw} {task next : RegisterTask}
    {result : Except Report Unit} (hinv : RegisterInv opt draw task)
    (h : task.resume opt draw result = some next) : RegisterInv opt draw next := by
  cases result with
  | error report => cases task <;> cases h <;> trivial
  | ok done =>
      cases task with
      | settingUp =>
          rw [RegisterTask.resume] at h
          split at h
          · obtain rfl := Option.some.inj h
            intro announcement heq
            cases heq
          · rename_i relayAddress hrelay
            obtain rfl := Option.some.inj h
            exact hrelay
      | connecting relayAddress =>
          obtain rfl := Option.some.inj h
          exact hinv
      | listeningOn relayAddress =>
          obtain rfl := Option.some.inj h
          unfold RegisterTask.afterListenOn
          split
          · trivial
          · rename_i relayPeer hpeer
            exact ⟨hinv, hpeer, rfl⟩
      | registering announcement =>
          obtain rfl := Option.some.inj h
          intro announcement' heq
          obtain rfl := Option.some.inj heq
          exact hinv
      | accepting announced => cases h
      | ended report => cases h

/-- The announced code is `--code`, or a generated one. -/
theorem announced_of_reaches {text : Libp2pText} {opt : RegisterOpt} {draw : CodeDraw}
    {results : List (Except Report Unit)} {announcement : Announcement}
    (hrun : (RegisterTask.machine text opt draw).Reaches results (.accepting (some announcement))) :
    Announces opt draw announcement := by
  have hinv : RegisterInv opt draw (.accepting (some announcement)) :=
    Machine.invariant (RegisterInv opt draw) (registerInv_start text opt draw)
      (fun hinv hstep => registerInv_step hinv hstep) hrun
  exact hinv announcement rfl

/-- What is announced has just been registered: the run has come back from `register` with the
code that it prints, at the relay that it prints. -/
def Registered (text : Libp2pText) (opt : RegisterOpt) (draw : CodeDraw)
    (results : List (Except Report Unit)) (announcement : Announcement) : Prop :=
  ∃ before task, results = before ++ [.ok ()] ∧
    (RegisterTask.machine text opt draw).Reaches before task ∧
    task.op = some (.register announcement.code announcement.relayPeer)

theorem registering_of_resume {opt : RegisterOpt} {draw : CodeDraw} {task : RegisterTask}
    {result : Except Report Unit} {announcement : Announcement}
    (h : task.resume opt draw result = some (.accepting (some announcement))) :
    task = .registering announcement ∧ result = .ok () := by
  cases result with
  | error report => cases task <;> cases h
  | ok done =>
      cases task with
      | registering announced =>
          obtain rfl := Option.some.inj (RegisterTask.accepting.inj (Option.some.inj h))
          exact ⟨rfl, rfl⟩
      | settingUp =>
          rw [RegisterTask.resume] at h
          split at h
          · cases h
          · cases h
      | listeningOn relayAddress =>
          rw [RegisterTask.resume, RegisterTask.afterListenOn] at h
          split at h
          · cases h
          · cases h
      | _ => cases h

theorem registered_of_reaches {text : Libp2pText} {opt : RegisterOpt} {draw : CodeDraw}
    {results : List (Except Report Unit)} {announcement : Announcement}
    (hrun : (RegisterTask.machine text opt draw).Reaches results (.accepting (some announcement))) :
    Registered text opt draw results announcement := by
  rcases List.eq_nil_or_concat results with rfl | ⟨before, result, rfl⟩
  · have hstart : RegisterTask.start text opt = .accepting (some announcement) :=
      Option.some.inj hrun
    unfold RegisterTask.start at hstart
    split at hstart
    · cases hstart
    · split at hstart
      · cases hstart
      · cases hstart
  · rw [List.concat_eq_append] at hrun ⊢
    obtain ⟨task, hbefore, hlast⟩ := (Machine.exec_append _ _).mp hrun
    obtain ⟨next, hstep, hend⟩ := Machine.exec_cons hlast
    obtain rfl := Option.some.inj hend
    obtain ⟨rfl, rfl⟩ := registering_of_resume hstep
    exact ⟨before, _, rfl, hbefore, rfl⟩

/-! ## The dial -/

/-- What a run with a pairing code knows of its code and its relay. -/
def CodeInv (opt : DialOpt) : DialTask → Prop
  | .connectingRendezvous relayAddress relayPeer code =>
      opt.target = .pairingCode code ∧ opt.relayAddress = some relayAddress ∧
        peerIdFromMultiaddr relayAddress = some relayPeer
  | .discovering code relayPeer =>
      opt.target = .pairingCode code ∧
        ∃ relayAddress, opt.relayAddress = some relayAddress ∧
          peerIdFromMultiaddr relayAddress = some relayPeer
  | _ => True

theorem codeInv_afterSetUp (text : Libp2pText) (opt : DialOpt) :
    CodeInv opt (DialTask.afterSetUp text opt) := by
  unfold DialTask.afterSetUp
  cases hjump : opt.jump with
  | cons first rest =>
      cases htarget : opt.target with
      | relayCircuit addr => trivial
      | mdns peer => trivial
      | pairingCode code => trivial
  | nil =>
      cases htarget : opt.target with
      | mdns peer => trivial
      | relayCircuit addr =>
          simp only
          split
          · trivial
          · trivial
      | pairingCode code =>
          simp only
          split
          · trivial
          · rename_i relayAddress hrelay
            split
            · trivial
            · rename_i relayPeer hpeer
              exact ⟨htarget, hrelay, hpeer⟩

theorem codeInv_step {text : Libp2pText} {opt : DialOpt} {task next : DialTask}
    {event : DialEvent} (hinv : CodeInv opt task) (h : task.resume text opt event = some next) :
    CodeInv opt next := by
  cases DialTask.move_of_resume h with
  | setUp => exact codeInv_afterSetUp text opt
  | rendezvousConnected => exact ⟨hinv.1, _, hinv.2⟩
  | jumpOk => cases parseDialMode opt <;> trivial
  | accepted => cases parseDialMode opt <;> trivial
  | _ => trivial

/-- A dial with a code discovers that code at its relay, and nothing else. -/
theorem discovers_of_dial {text : Libp2pText} {nspace : String} {opt : DialOpt} {code : String}
    {addr : Multiaddr} {relayPeer : PeerId} (htarget : opt.target = .pairingCode code)
    (hrelay : opt.relayAddress = some addr) (hpeer : peerIdFromMultiaddr addr = some relayPeer)
    {events : List DialEvent} {task : DialTask} {name : String} {point : PeerId}
    (hrun : (DialTask.machine text opt).Reaches events task)
    (hop : task.op nspace = some (.discover name point)) : name = code ∧ point = relayPeer := by
  have hstart : CodeInv opt (DialTask.machine text opt).start := trivial
  have hinv : CodeInv opt task :=
    Machine.invariant (CodeInv opt) hstart (fun hinv hstep => codeInv_step hinv hstep) hrun
  cases task with
  | discovering code' relayPeer' =>
      cases hop
      obtain ⟨htarget', addr', hrelay', hpeer'⟩ := hinv
      cases htarget.symm.trans htarget'
      cases hrelay.symm.trans hrelay'
      cases hpeer.symm.trans hpeer'
      exact ⟨rfl, rfl⟩
  | _ => cases hop

theorem reaches_discovering {text : Libp2pText} {opt : DialOpt} {code : String}
    {addr : Multiaddr} {relayPeer : PeerId} (hjump : opt.jump = [])
    (htarget : opt.target = .pairingCode code) (hrelay : opt.relayAddress = some addr)
    (hpeer : peerIdFromMultiaddr addr = some relayPeer) :
    (DialTask.machine text opt).Reaches [.done (.ok ()), .done (.ok ())]
      (.discovering code relayPeer) := by
  have hsetUp : DialTask.afterSetUp text opt = .connectingRendezvous addr relayPeer code := by
    unfold DialTask.afterSetUp
    simp only [hjump, htarget, hrelay, hpeer]
  have hstep : (DialTask.machine text opt).step .settingUp (.done (.ok ())) =
      some (.connectingRendezvous addr relayPeer code) := congrArg some hsetUp
  show (DialTask.machine text opt).exec .settingUp _ = _
  rw [Machine.exec_cons_of_step hstep]
  rfl

/-! ## Announced codes -/

/-- `sape dial` with the announced code and the relay address: the code is taken for a code,
and the run discovers exactly the namespace that was registered. -/
def Dialable (text : Libp2pText) (nspace : String) (announcement : Announcement) : Prop :=
  DialTarget.fromStr text announcement.code = .ok (.pairingCode announcement.code) ∧
    ∀ opt : DialOpt, DialTarget.fromStr text announcement.code = .ok opt.target →
      opt.relayAddress = some announcement.relayAddress → opt.jump = [] →
      (∃ events task, (DialTask.machine text opt).Reaches events task ∧
        task.op nspace = some (.discover announcement.code announcement.relayPeer)) ∧
      ∀ events task name point, (DialTask.machine text opt).Reaches events task →
        task.op nspace = some (.discover name point) →
        name = announcement.code ∧ point = announcement.relayPeer

/-- For every listener, whatever its options and whatever is drawn: the code that it announces
is the one it has registered; it can be dialed exactly when it is a number of at most 99 and two
words of the list, and a code that it generates always can. -/
theorem announced_dialable_iff (text : Libp2pText) (nspace : String) {opt : RegisterOpt}
    {draw : CodeDraw} {results : List (Except Report Unit)} {announcement : Announcement}
    (hrun : (RegisterTask.machine text opt draw).Reaches results
      (.accepting (some announcement))) :
    Registered text opt draw results announcement ∧
      (Dialable text nspace announcement ↔ WordCode announcement.code) ∧
      (opt.code = none → Dialable text nspace announcement) := by
  obtain ⟨-, hpeer, hcode⟩ := announced_of_reaches hrun
  have hiff : Dialable text nspace announcement ↔ WordCode announcement.code := by
    constructor
    · rintro ⟨htarget, -⟩
      exact ((fromStr_eq_pairingCode text).mp htarget).1
    · intro hword
      have htarget := (fromStr_eq_pairingCode text).mpr ⟨hword, rfl⟩
      refine ⟨htarget, fun dialOpt hdial hrelay hjump => ?_⟩
      have hdial' : dialOpt.target = .pairingCode announcement.code :=
        (Except.ok.inj (htarget.symm.trans hdial)).symm
      refine ⟨⟨_, _, reaches_discovering hjump hdial' hrelay hpeer, rfl⟩, ?_⟩
      intro events task name point hreaches hop
      exact discovers_of_dial hdial' hrelay hpeer hreaches hop
  refine ⟨registered_of_reaches hrun, hiff, fun hnone => hiff.mpr ?_⟩
  rw [hcode, hnone]
  exact wordCode_generateCode draw

/-- A listener behind relay 1 with a code of its own. -/
def listenWith (code : String) : RegisterOpt where
  relayAddress := some [.ip4 1, .tcp 4001, .p2p ⟨[1]⟩]
  code := some code

/-- What it announces. -/
def announcementOf (code : String) : Announcement where
  relayAddress := [.ip4 1, .tcp 4001, .p2p ⟨[1]⟩]
  relayPeer := ⟨[1]⟩
  code := code

theorem reaches_announcement (text : Libp2pText) (draw : CodeDraw) (code : String) :
    (RegisterTask.machine text (listenWith code) draw).Reaches
      [.ok (), .ok (), .ok (), .ok ()] (.accepting (some (announcementOf code))) := rfl

theorem announced_dialable_iff_riverOcean :
    (RegisterTask.machine (.ofTable []) (listenWith "42-river-ocean") default).Reaches
        [.ok (), .ok (), .ok (), .ok ()]
        (.accepting (some (announcementOf "42-river-ocean"))) ∧
      Dialable (.ofTable []) "" (announcementOf "42-river-ocean") := by
  have hrun := reaches_announcement (.ofTable []) default "42-river-ocean"
  refine ⟨hrun, (announced_dialable_iff (.ofTable []) "" hrun).2.1.mpr ?_⟩
  exact isPairingCode_iff.mp (by decide +kernel)

/-- `--code my-secret` is announced, and no dialer takes it for a code. -/
theorem secret_not_dialable :
    (RegisterTask.machine (.ofTable []) (listenWith "my-secret") default).Reaches
        [.ok (), .ok (), .ok (), .ok ()] (.accepting (some (announcementOf "my-secret"))) ∧
      DialTarget.fromStr (.ofTable []) "my-secret" =
        .error (.invalidMultiaddr "not in the table") ∧
      ¬ Dialable (.ofTable []) "" (announcementOf "my-secret") := by
  refine ⟨reaches_announcement _ _ _, by decide +kernel, ?_⟩
  rintro ⟨htarget, -⟩
  have hcode := isPairingCode_iff.mpr ((fromStr_eq_pairingCode _).mp htarget).1
  have hnot : isPairingCode "my-secret" = false := by decide +kernel
  rw [announcementOf, hnot] at hcode
  cases hcode

end Sape
