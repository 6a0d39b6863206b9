/-
  Client/Options.lean --- which bad options `run_dial` rejects before it touches the
  network.

  The checks stand where their values are first needed.  On the way to a rendezvous or
  a circuit that is in front of the first dial; on the jump path the mode is looked at
  behind the whole chain, and neither the jump addresses nor the circuit address are.

  WHAT IS PROVED.

      connecting_of_resume       a relay is dialed right behind the set-up or never
      rejects_of_bail            what fails there fails before any network operation
      badOptions_rejected_iff    bad options are rejected, and relays validated, exactly
                                 for the options that `Checked` describes
-/
import Sape.Client.Dial
import Sape.Foundation.Machine

set_option autoImplicit false

namespace Sape

open Sape.Foundation

/-! ## Bad options -/

/-- What is bad about the jumps, the mode or the addresses of the options, and the text that
the code has for it.  Whether a code can be the name of a namespace is not looked at here. -/
inductive BadOption (opt : DialOpt) : String → Prop where
  | jumpMdns {peer : PeerId} (hjump : opt.jump ≠ []) (htarget : opt.target = .mdns peer) :
      BadOption opt "cannot use --jump with mDNS targets"
  | jumpCode {code : String} (hjump : opt.jump ≠ []) (htarget : opt.target = .pairingCode code) :
      BadOption opt "cannot use --jump with pairing codes (resolve the code first)"
  | jumpMode {text : String} (hjump : opt.jump ≠ [])
      (hmode : DialTask.afterJumpOk (parseDialMode opt) = DialTask.bail text) :
      BadOption opt text
  | jumpPeer {addr : Multiaddr} (hmem : addr ∈ opt.jump)
      (hpeer : peerIdFromMultiaddr addr = none) :
      BadOption opt "missing peer id in --jump address"
  | jumpAddress {addr : Multiaddr} {err : AddressError} (hmem : addr ∈ opt.jump)
      (hinvalid : validateRelayAddress addr = .error err) : BadOption opt err.text
  | circuit {addr : Multiaddr} {err : AddressError} (htarget : opt.target = .relayCircuit addr)
      (hinvalid : relayBaseFromCircuitAddress addr = .error err) : BadOption opt err.text
  | noRelay {code : String} (hjump : opt.jump = []) (htarget : opt.target = .pairingCode code)
      (hrelay : opt.relayAddress = none) :
      BadOption opt "--relay-address is required when using pairing codes"
  | relayPeer {code : String} {addr : Multiaddr} (hjump : opt.jump = [])
      (htarget : opt.target = .pairingCode code) (hrelay : opt.relayAddress = some addr)
      (hpeer : peerIdFromMultiaddr addr = none) :
      BadOption opt "missing relay peer id in --relay-address"
  | relayAddress {code : String} {addr : Multiaddr} {err : AddressError} (hjump : opt.jump = [])
      (htarget : opt.target = .pairingCode code) (hrelay : opt.relayAddress = some addr)
      (hinvalid : validateRelayAddress addr = .error err) : BadOption opt err.text

/-- The machine of `run_dial` by itself: what its operations come back with is up to the
labels. -/
def DialTask.machine (text : Libp2pText) (opt : DialOpt) : Machine DialTask DialEvent where
  start := .settingUp
  step := DialTask.resume text opt

/-- No run gets as far as an operation on the network, and behind the set-up it is over,
with the text of a bad option. -/
def Rejects (text : Libp2pText) (nspace : String) (opt : DialOpt) : Prop :=
  ∀ events task, (DialTask.machine text opt).Reaches events task →
    (∀ op, task.op nspace = some op → op = .setUp) ∧
      (events.head? = some (.done (.ok ())) →
        ∃ reason, BadOption opt reason ∧ task = DialTask.bail reason)

/-- Every address dialed as a relay or as the first jump hop passes
`validate_relay_address`. -/
def DialsValid (text : Libp2pText) (nspace : String) (opt : DialOpt) : Prop :=
  ∀ events task addr, (DialTask.machine text opt).Reaches events task →
    task.op nspace = some (.connectAndIdentify addr) → validateRelayAddress addr = .ok ()

/-- With a jump to a circuit address: the mode is netcat, and the jump addresses and the
circuit address pass the functions that check them elsewhere.  With a pairing code: so does
a relay address that names a peer. -/
def Checked (opt : DialOpt) : Prop :=
  match opt.jump, opt.target with
  | [], .pairingCode _ =>
      ∀ addr, opt.relayAddress = some addr → (peerIdFromMultiaddr addr).isSome = true →
        validateRelayAddress addr = .ok ()
  | [], _ => True
  | _ :: _, .relayCircuit addr =>
      parseDialMode opt = .netcat ∧ (∀ hop ∈ opt.jump, validateRelayAddress hop = .ok ()) ∧
        ∃ base remote, relayBaseFromCircuitAddress addr = .ok (base, remote)
  | _ :: _, _ => True

/-! ## When a relay is dialed -/

/-- A relay is dialed right behind the set-up or never. -/
theorem connecting_of_resume {text : Libp2pText} {opt : DialOpt} {nspace : String}
    {task next : DialTask} {event : DialEvent} {addr : Multiaddr}
    (h : task.resume text opt event = some next)
    (hop : next.op nspace = some (.connectAndIdentify addr)) :
    task = .settingUp ∧ event = .done (.ok ()) ∧ next = DialTask.afterSetUp text opt := by
  cases DialTask.move_of_resume h with
  | setUp => exact ⟨rfl, rfl, rfl⟩
  | jumpOk => cases hmode : parseDialMode opt <;> rw [hmode] at hop <;> cases hop
  | accepted => cases hmode : parseDialMode opt <;> rw [hmode] at hop <;> cases hop
  | _ => cases hop

theorem connecting_of_reaches {text : Libp2pText} {opt : DialOpt} {nspace : String}
    {events : List DialEvent} {task : DialTask} {addr : Multiaddr}
    (hrun : (DialTask.machine text opt).Reaches events task)
    (hop : task.op nspace = some (.connectAndIdentify addr)) :
    task = DialTask.afterSetUp text opt := by
  have hkept : ∀ addr, task.op nspace = some (.connectAndIdentify addr) →
      task = DialTask.afterSetUp text opt := by
    apply Machine.invariant (fun task => ∀ addr, task.op nspace = some (.connectAndIdentify addr) →
      task = DialTask.afterSetUp text opt) _ _ hrun
    · intro addr hstart
      cases hstart
    · intro state event next _ hstep addr hnext
      exact (connecting_of_resume hstep hnext).2.2
  exact hkept addr hop

/-- `run_dial` is past its set-up after one event. -/
theorem reaches_afterSetUp (text : Libp2pText) (opt : DialOpt) :
    (DialTask.machine text opt).Reaches [.done (.ok ())] (DialTask.afterSetUp text opt) := rfl

/-- Nothing comes behind the end. -/
theorem exec_ended {text : Libp2pText} {opt : DialOpt} {result : Except Report Unit}
    {events : List DialEvent} {task : DialTask}
    (hrun : (DialTask.machine text opt).exec (.ended result) events = some task) :
    task = .ended result := by
  cases events with
  | nil => exact (Option.some.inj hrun).symm
  | cons event events =>
      obtain ⟨next, hstep, -⟩ := Machine.exec_cons hrun
      cases hstep

/-- What fails behind the set-up fails before any operation on the network. -/
theorem rejects_of_bail {text : Libp2pText} {nspace : String} {opt : DialOpt} {reason : String}
    (hbad : BadOption opt reason)
    (hsetUp : DialTask.afterSetUp text opt = DialTask.bail reason) : Rejects text nspace opt := by
  intro events task hrun
  cases events with
  | nil =>
      obtain rfl := Option.some.inj hrun
      exact ⟨fun op hop => (Option.some.inj hop).symm, fun hhead => by cases hhead⟩
  | cons event events =>
      obtain ⟨next, hstep, hrest⟩ := Machine.exec_cons hrun
      have hended : ∃ result, next = .ended result ∧
          (event = .done (.ok ()) → next = DialTask.bail reason) := by
        cases event with
        | done result =>
            cases result with
            | ok done =>
                obtain rfl := Option.some.inj hstep
                exact ⟨_, hsetUp, fun _ => hsetUp⟩
            | error report =>
                obtain rfl := Option.some.inj hstep
                exact ⟨_, rfl, fun heq => by cases heq⟩
        | _ => cases hstep
      obtain ⟨result, rfl, hbail⟩ := hended
      obtain rfl := exec_ended hrest
      refine ⟨fun op hop => (by cases hop), fun hhead => ⟨reason, hbad, hbail ?_⟩⟩
      exact Option.some.inj hhead

/-- What goes on to dial a relay is not rejected. -/
theorem not_rejects_of_connecting {text : Libp2pText} {nspace : String} {opt : DialOpt}
    {addr : Multiaddr}
    (hop : (DialTask.afterSetUp text opt).op nspace = some (.connectAndIdentify addr)) :
    ¬ Rejects text nspace opt := by
  intro hrejects
  have hsetUp := (hrejects _ _ (reaches_afterSetUp text opt)).1 _ hop
  cases hsetUp

/-! ## Where the checks stand -/

/-- Addresses that pass their checks, and a mode that goes through a jump, are no bad
options. -/
theorem not_bad_jump {opt : DialOpt} {addr : Multiaddr} (hjump : opt.jump ≠ [])
    (htarget : opt.target = .relayCircuit addr) (hmode : parseDialMode opt = .netcat)
    (hhops : ∀ hop ∈ opt.jump, validateRelayAddress hop = .ok ()) {base : Multiaddr}
    {remote : PeerId} (hbase : relayBaseFromCircuitAddress addr = .ok (base, remote))
    (reason : String) : ¬ BadOption opt reason := by
  intro hbad
  cases hbad with
  | jumpMdns _ htarget' => cases htarget.symm.trans htarget'
  | jumpCode _ htarget' => cases htarget.symm.trans htarget'
  | jumpMode _ hmode' => rw [hmode] at hmode'; cases hmode'
  | jumpPeer hmem hpeer =>
      obtain ⟨peer, hsome⟩ := peerId_of_validateRelayAddress (hhops _ hmem)
      cases hpeer.symm.trans hsome
  | jumpAddress hmem hinvalid => cases (hhops _ hmem).symm.trans hinvalid
  | circuit htarget' hinvalid =>
      cases htarget.symm.trans htarget'
      cases hbase.symm.trans hinvalid
  | noRelay hjump' => exact hjump hjump'
  | relayPeer hjump' => exact hjump hjump'
  | relayAddress hjump' => exact hjump hjump'

/-- Without a jump, a bad option is the circuit address or the relay of a pairing code. -/
theorem bad_without_jump {opt : DialOpt} (hjump : opt.jump = []) {reason : String}
    (hbad : BadOption opt reason) :
    (∃ addr err, opt.target = .relayCircuit addr ∧
      relayBaseFromCircuitAddress addr = .error err) ∨
      ∃ code, opt.target = .pairingCode code ∧
        ∀ addr, opt.relayAddress = some addr → validateRelayAddress addr ≠ .ok () := by
  cases hbad with
  | jumpMdns hne => exact absurd hjump hne
  | jumpCode hne => exact absurd hjump hne
  | jumpMode hne => exact absurd hjump hne
  | jumpPeer hmem => rw [hjump] at hmem; cases hmem
  | jumpAddress hmem => rw [hjump] at hmem; cases hmem
  | circuit htarget hinvalid => exact .inl ⟨_, _, htarget, hinvalid⟩
  | noRelay _ htarget hrelay =>
      refine .inr ⟨_, htarget, fun addr hsome => ?_⟩
      cases hrelay.symm.trans hsome
  | relayPeer _ htarget hrelay hpeer =>
      refine .inr ⟨_, htarget, fun addr hsome hvalid => ?_⟩
      cases hrelay.symm.trans hsome
      obtain ⟨peer, hpeer'⟩ := peerId_of_validateRelayAddress hvalid
      cases hpeer.symm.trans hpeer'
  | relayAddress _ htarget hrelay hinvalid =>
      refine .inr ⟨_, htarget, fun addr hsome hvalid => ?_⟩
      cases hrelay.symm.trans hsome
      cases hinvalid.symm.trans hvalid

/-- With a jump to a circuit address the first jump is dialed, whatever else the options
say. -/
theorem op_of_jump (text : Libp2pText) (nspace : String) {opt : DialOpt} {first : Multiaddr}
    {rest : List Multiaddr} {addr : Multiaddr} (hjump : opt.jump = first :: rest)
    (htarget : opt.target = .relayCircuit addr) :
    (DialTask.afterSetUp text opt).op nspace = some (.connectAndIdentify first) := by
  unfold DialTask.afterSetUp
  rw [hjump, htarget]
  rfl

/-- With a pairing code a relay address that names a peer is dialed. -/
theorem op_of_code (text : Libp2pText) (nspace : String) {opt : DialOpt} {code : String}
    {addr : Multiaddr} {peer : PeerId} (hjump : opt.jump = [])
    (htarget : opt.target = .pairingCode code) (hrelay : opt.relayAddress = some addr)
    (hpeer : peerIdFromMultiaddr addr = some peer) :
    (DialTask.afterSetUp text opt).op nspace = some (.connectAndIdentify addr) := by
  unfold DialTask.afterSetUp
  simp only [hjump, htarget, hrelay, hpeer]
  rfl

theorem op_bail (nspace reason : String) : (DialTask.bail reason).op nspace = none := rfl

/-- Options that are rejected where they are bad, and whose relay is validated, pass the
checks. -/
theorem checked_of_rejects {text : Libp2pText} {nspace : String} {opt : DialOpt}
    (hrejects : (∃ reason, BadOption opt reason) → Rejects text nspace opt)
    (hvalid : DialsValid text nspace opt) : Checked opt := by
  unfold Checked
  cases hjump : opt.jump with
  | nil =>
      cases htarget : opt.target with
      | mdns peer => trivial
      | relayCircuit addr => trivial
      | pairingCode code =>
          intro addr hrelay hpeer
          obtain ⟨peer, hpeer⟩ := Option.isSome_iff_exists.mp hpeer
          exact hvalid _ _ addr (reaches_afterSetUp text opt)
            (op_of_code text nspace hjump htarget hrelay hpeer)
  | cons first rest =>
      cases htarget : opt.target with
      | mdns peer => trivial
      | pairingCode code => trivial
      | relayCircuit addr =>
          have hne : opt.jump ≠ [] := by rw [hjump]; exact List.cons_ne_nil _ _
          have hgood : ∀ reason, ¬ BadOption opt reason := fun reason hbad =>
            not_rejects_of_connecting (op_of_jump text nspace hjump htarget)
              (hrejects ⟨reason, hbad⟩)
          refine ⟨?_, ?_, ?_⟩
          · cases hmode : parseDialMode opt with
            | netcat => rfl
            | localForward bindPort target =>
                exact absurd (.jumpMode hne (by rw [hmode]; rfl)) (hgood _)
            | reverseForward bindPort target gatewayPorts =>
                exact absurd (.jumpMode hne (by rw [hmode]; rfl)) (hgood _)
            | socks5 bindPort => exact absurd (.jumpMode hne (by rw [hmode]; rfl)) (hgood _)
          · intro hop hmem
            cases hinvalid : validateRelayAddress hop with
            | ok done => rfl
            | error err => exact absurd (.jumpAddress (hjump ▸ hmem) hinvalid) (hgood _)
          · cases hbase : relayBaseFromCircuitAddress addr with
            | ok pair => exact ⟨pair.1, pair.2, rfl⟩
            | error err => exact absurd (.circuit htarget hbase) (hgood _)

/-- A relay that is dialed for options that pass the checks is validated. -/
theorem dialsValid_of_checked {text : Libp2pText} {nspace : String} {opt : DialOpt}
    (hchecked : Checked opt) : DialsValid text nspace opt := by
  intro events task addr hrun hop
  obtain rfl := connecting_of_reaches hrun hop
  unfold Checked at hchecked
  cases hjump : opt.jump with
  | nil =>
      cases htarget : opt.target with
      | mdns peer =>
          simp only [DialTask.afterSetUp, hjump, htarget] at hop
          cases hop
      | relayCircuit circuit =>
          cases hbase : relayBaseFromCircuitAddress circuit with
          | error err =>
              simp only [DialTask.afterSetUp, hjump, htarget, hbase, op_bail] at hop
              cases hop
          | ok pair =>
              obtain ⟨base, remote⟩ := pair
              simp only [DialTask.afterSetUp, hjump, htarget, hbase] at hop
              cases hop
              exact (relayBase_spec hbase).2
      | pairingCode code =>
          simp only [hjump, htarget] at hchecked
          cases hrelay : opt.relayAddress with
          | none =>
              simp only [DialTask.afterSetUp, hjump, htarget, hrelay, op_bail] at hop
              cases hop
          | some relayAddress =>
              cases hpeer : peerIdFromMultiaddr relayAddress with
              | none =>
                  simp only [DialTask.afterSetUp, hjump, htarget, hrelay, hpeer, op_bail] at hop
                  cases hop
              | some peer =>
                  rw [op_of_code text nspace hjump htarget hrelay hpeer] at hop
                  cases hop
                  exact hchecked addr hrelay (by rw [hpeer]; rfl)
  | cons first rest =>
      cases htarget : opt.target with
      | mdns peer =>
          simp only [DialTask.afterSetUp, hjump, htarget, op_bail] at hop
          cases hop
      | pairingCode code =>
          simp only [DialTask.afterSetUp, hjump, htarget, op_bail] at hop
          cases hop
      | relayCircuit circuit =>
          simp only [hjump, htarget] at hchecked
          rw [op_of_jump text nspace hjump htarget] at hop
          cases hop
          exact hchecked.2.1 addr List.mem_cons_self

/-- Bad options among those that pass the checks are rejected behind the set-up. -/
theorem rejects_of_checked {text : Libp2pText} {nspace : String} {opt : DialOpt}
    (hchecked : Checked opt) {reason : String} (hbad : BadOption opt reason) :
    Rejects text nspace opt := by
  unfold Checked at hchecked
  cases hjump : opt.jump with
  | nil =>
      rcases bad_without_jump hjump hbad with ⟨addr, err, htarget, hbase⟩ | ⟨code, htarget, hnot⟩
      · apply rejects_of_bail (.circuit htarget hbase)
        simp only [DialTask.afterSetUp, hjump, htarget, hbase]
      · simp only [hjump, htarget] at hchecked
        cases hrelay : opt.relayAddress with
        | none =>
            apply rejects_of_bail (.noRelay hjump htarget hrelay)
            simp only [DialTask.afterSetUp, hjump, htarget, hrelay]
        | some relayAddress =>
            cases hpeer : peerIdFromMultiaddr relayAddress with
            | none =>
                apply rejects_of_bail (.relayPeer hjump htarget hrelay hpeer)
                simp only [DialTask.afterSetUp, hjump, htarget, hrelay, hpeer]
            | some peer =>
                exact absurd (hchecked _ hrelay (by rw [hpeer]; rfl)) (hnot _ hrelay)
  | cons first rest =>
      have hne : opt.jump ≠ [] := by rw [hjump]; exact List.cons_ne_nil _ _
      cases htarget : opt.target with
      | mdns peer =>
          apply rejects_of_bail (.jumpMdns hne htarget)
          simp only [DialTask.afterSetUp, hjump, htarget]
      | pairingCode code =>
          apply rejects_of_bail (.jumpCode hne htarget)
          simp only [DialTask.afterSetUp, hjump, htarget]
      | relayCircuit circuit =>
          simp only [hjump, htarget] at hchecked
          obtain ⟨hmode, hhops, base, remote, hbase⟩ := hchecked
          exact absurd hbad (not_bad_jump hne htarget hmode (hjump ▸ hhops) hbase reason)

/-- For all options: those that are bad are rejected before any operation on the network,
and every relay and first jump hop that is dialed passes `validate_relay_address`, exactly
when the options pass the checks that `run_dial` leaves out or makes too late. -/
theorem badOptions_rejected_iff (text : Libp2pText) (nspace : String) (opt : DialOpt) :
    (((∃ reason, BadOption opt reason) → Rejects text nspace opt) ∧
      DialsValid text nspace opt) ↔ Checked opt := by
  constructor
  · rintro ⟨hrejects, hvalid⟩
    exact checked_of_rejects hrejects hvalid
  · intro hchecked
    refine ⟨?_, dialsValid_of_checked hchecked⟩
    rintro ⟨reason, hbad⟩
    exact rejects_of_checked hchecked hbad

/-- `sape dial -L` through jump host 1 to listener 9. -/
def forwardThroughJump : DialOpt where
  target := .relayCircuit
    [.ip4 1, .tcp 4001, .p2p ⟨[2]⟩, .p2pCircuit, .p2p ⟨[9]⟩]
  jump := [[.ip4 1, .tcp 4001, .p2p ⟨[1]⟩]]
  localForward := some { bindPort := 8080, target := "a:1" }

/-- The mode that no jump supports is found out behind the established chain. -/
theorem forwardThroughJump_late :
    BadOption forwardThroughJump ("local forward through jump chains is not supported yet; " ++
        "use direct relay circuit or pairing code") ∧
      (DialTask.machine (.ofTable []) forwardThroughJump).Reaches
        [.done (.ok ()), .done (.ok ()), .streamOpened (.ok ()), .ioDone (.ok ()),
          .resultRead (.ok .ok)]
        (DialTask.bail ("local forward through jump chains is not supported yet; " ++
          "use direct relay circuit or pairing code")) ∧
      ¬ ((∃ reason, BadOption forwardThroughJump reason) →
        Rejects (.ofTable []) "" forwardThroughJump) := by
  have hbad : BadOption forwardThroughJump
      ("local forward through jump chains is not supported yet; " ++
        "use direct relay circuit or pairing code") := .jumpMode (by decide) rfl
  refine ⟨hbad, rfl, fun hrejects => ?_⟩
  have hop : (DialTask.afterSetUp (.ofTable []) forwardThroughJump).op "" =
      some (.connectAndIdentify [.ip4 1, .tcp 4001, .p2p ⟨[1]⟩]) := rfl
  exact not_rejects_of_connecting hop (hrejects ⟨_, hbad⟩)

end Sape
