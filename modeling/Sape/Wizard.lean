/-
  Wizard.lean --- `src/interactive.rs`: the wizard that `sape` runs without a command.

  The wizard is a form.  Behind each prompt stands the code that takes the accepted text apart
  once more, with its `expect`, as in the source.  The machine of the wizard is a dialogue on
  that form, with texts that are refused and prompts that are cancelled.

  WHAT IS PROVED.

      wizard_completes     no run panics, and one that has not failed can be completed
      wizard_offers_iff    which commands the wizard comes to
      wizard_dials         which of them `run_dial` can carry out, and when it refuses the others
-/
import Sape.Client.Announce
import Sape.Client.Listen
import Sape.Client.Options
import Sape.Forward.Spec
import Sape.Foundation.Form
import Sape.Interactive
import Sape.Relay.Server

set_option autoImplicit false

namespace Sape

open Sape.Foundation

/-! ## Commands -/

/-- The options on the identity, which all commands have. -/
structure IdentityOpt where
  identityFile : Option String := none
  secretKeySeed : Option UInt8 := none
  deriving DecidableEq, Repr, Inhabited

/-- `enum cli::Command`; `ListenOpt` is in two parts. -/
inductive Command where
  | relay (identity : IdentityOpt) (opt : RelayOpt)
  | listen (identity : IdentityOpt) (registerOpt : RegisterOpt) (listenOpt : ListenOpt)
  | dial (identity : IdentityOpt) (opt : DialOpt)
  deriving DecidableEq, Repr, Inhabited

/-- `InquireError`, as far as the code tells its cases apart. -/
inductive InquireError where
  | operationCanceled
  | operationInterrupted
  | other (text : String)
  deriving DecidableEq, Repr, Inhabited

namespace Interactive

/-! ## Suggestions -/

/-- `MULTIADDR_SUGGESTIONS`. -/
def multiaddrSuggestions : List String :=
  ["/ip4/", "/ip4/127.0.0.1/tcp/4001/p2p/", "/ip6/::1/tcp/4001/p2p/",
    "/dns4/relay.example.com/tcp/4001/p2p/"]

/-- `FORWARD_SUGGESTIONS`. -/
def forwardSuggestions : List String :=
  ["8080:localhost:3000", "8080:localhost:8080", "3000:localhost:3000", "5432:localhost:5432",
    "6379:localhost:6379"]

/-- `prefix_suggest`. -/
def prefixSuggest (suggestions : List String) (input : String) : List String :=
  suggestions.filter fun s => input.toList.isPrefixOf s.toList

/-! ## Choices -/

/-- `enum Mode`. -/
inductive Mode where
  | relay
  | listen
  | dial
  deriving DecidableEq, Repr, Inhabited

/-- How the modes are displayed. -/
def Mode.display : Mode → String
  | .relay => "Relay -- run a circuit relay server"
  | .listen => "Listen -- register on relay, accept tunnels"
  | .dial => "Dial -- connect to listener, start tunnel"

/-- `enum ListenConn`. -/
inductive ListenConn where
  | relay
  | lan
  deriving DecidableEq, Repr, Inhabited

/-- How they are displayed. -/
def ListenConn.display : ListenConn → String
  | .relay => "Relay (remote) -- use a relay for NAT traversal"
  | .lan => "LAN only (mDNS) -- local network discovery only"

/-- `enum DialConn`. -/
inductive DialConn where
  | relay
  | mdns
  | pairing
  deriving DecidableEq, Repr, Inhabited

/-- How they are displayed. -/
def DialConn.display : DialConn → String
  | .relay => "Relay circuit address -- dial full relay circuit multiaddr"
  | .mdns => "mDNS (LAN) -- dial by peer id on local network"
  | .pairing => "Pairing code -- dial using pairing code plus relay address"

/-- `enum TunnelMode`. -/
inductive TunnelMode where
  | netcat
  | localForward
  | reverse
  | socks
  deriving DecidableEq, Repr, Inhabited

/-- How they are displayed. -/
def TunnelMode.display : TunnelMode → String
  | .netcat => "Netcat (default) -- interactive stdin/stdout stream"
  | .localForward => "Local forward (-L) -- expose local port and forward remotely"
  | .reverse => "Reverse forward (-R) -- expose remote port and forward locally"
  | .socks => "SOCKS5 proxy (-D) -- start local SOCKS5/HTTP CONNECT proxy"

/-! ## Validators -/

/-- The validator of a prompt for something that has to be there and to be accepted. -/
def validateRequired (accepts : String → Bool) (empty invalid : String) (s : String) :
    Option String :=
  let v := strTrim s
  if v.isEmpty then some empty else if accepts v then none else some invalid

/-- The validator of the prompts for a port. -/
def validatePort (s : String) : Option String :=
  let v := strTrim s
  if v.isEmpty || (parseU16 v).isSome then none else some "invalid port"

/-- The validator of the prompts for a forward. -/
def validateForward : String → Option String :=
  validateRequired (fun v => (ForwardSpec.fromStr v).isOk) "forward spec cannot be empty"
    "invalid forward spec"

/-- The validator of the prompt for the allowed peers. -/
def validateAllowedPeers (text : Libp2pText) (s : String) : Option String :=
  if acceptsAllowedPeers text s then none else some "invalid peer id list"

/-- The validator of the prompt for a pairing code. -/
def validateCode : String → Option String :=
  validateRequired (fun _ => true) "pairing code cannot be empty" ""

/-! ## Prompts -/

/-- The message of the `expect`s. -/
def validatedAbove : String := "validated above"

/-- What is done with a port that may have been left out. -/
def portOr (byDefault : UInt16) (raw : String) : Form UInt16 :=
  if (strTrim raw).isEmpty then pure byDefault
  else .expect validatedAbove (parseU16 (strTrim raw))

/-- The prompts for an address, and what is done with it. -/
def promptMultiaddr (text : Libp2pText) (message placeholder empty invalid : String) :
    Form Multiaddr := do
  let raw ← .text message (some placeholder) (prefixSuggest multiaddrSuggestions)
    (validateRequired (fun v => (text.parseMultiaddr v).isOk) empty invalid)
  .expect validatedAbove (text.parseMultiaddr (strTrim raw)).toOption

/-- The prompt for the address of a relay. -/
def promptRelayAddress (text : Libp2pText) : Form Multiaddr :=
  promptMultiaddr text "Relay address" "/ip4/203.0.113.10/tcp/4001/p2p/12D3KooW..."
    "relay address cannot be empty" "invalid relay multiaddr"

/-- The prompt for a forward. -/
def promptForward (placeholder : String) : Form String :=
  .text "Forward spec" (some placeholder) (prefixSuggest forwardSuggestions) validateForward

/-! ## The wizard -/

/-- `run_relay`. -/
def runRelay : Form Command := do
  let portRaw ← .text "Port" (some "4001") (fun _ => []) validatePort
  let useIpv6 ← .confirm "Use IPv6?" false
  let port ← portOr 4001 portRaw
  pure (.relay {} { useIpv6 := useIpv6, port := port })

/-- `relay_address` of `run_listen`. -/
def listenAddress (text : Libp2pText) : ListenConn → Form (Option Multiaddr)
  | .relay => do
      let addr ← promptRelayAddress text
      pure (some addr)
  | .lan => pure none

/-- `run_listen`. -/
def runListen (text : Libp2pText) : Form Command := do
  let conn ← .select "Connection type?" ListenConn.display [.relay, .lan]
  let relayAddress ← listenAddress text conn
  let codeRaw ← .text "Pairing code? (optional)" (some "empty = auto-generate") (fun _ => [])
    (fun _ => none)
  let allowedPeersRaw ← .text "Allowed peers? (optional)"
    (some "12D3KooW...,12D3KooX... (empty = allow all)") (fun _ => []) (validateAllowedPeers text)
  let code := if (strTrim codeRaw).isEmpty then none else some (strTrim codeRaw)
  let allowedPeers ← .expect validatedAbove (convertAllowedPeers text allowedPeersRaw)
  pure (.listen {} { relayAddress := relayAddress, code := code } { allowedPeers := allowedPeers })

/-- `target` and `relay_address` of `run_dial`. -/
def dialAddresses (text : Libp2pText) : DialConn → Form (DialTarget × Option Multiaddr)
  | .relay => do
      let addr ← promptMultiaddr text "Target relay circuit address"
        "/ip4/203.0.113.10/tcp/4001/p2p/<relay>/p2p-circuit/p2p/<listener>"
        "target address cannot be empty" "invalid circuit multiaddr"
      pure (.relayCircuit addr, none)
  | .mdns => do
      let peerRaw ← .text "Peer ID" (some "12D3KooWH3uVF6wv47WnArKHk5p6cvgCJEb74UTmxztmQDc298L3")
        (prefixSuggest ["12D3KooW"])
        (validateRequired (fun v => (text.parsePeerId v).isOk) "peer id cannot be empty"
          "invalid peer id")
      let peer ← .expect validatedAbove (text.parsePeerId (strTrim peerRaw)).toOption
      pure (.mdns peer, none)
  | .pairing => do
      let codeRaw ← .text "Pairing code" (some "42-river-ocean") (fun _ => []) validateCode
      let relay ← promptRelayAddress text
      pure (.pairingCode (strTrim codeRaw), some relay)

/-- `local_forward`, `remote_forward`, `socks` and `gateway_ports` of `run_dial`. -/
def tunnelOptions :
    TunnelMode → Form (Option ForwardSpec × Option ForwardSpec × Option UInt16 × Bool)
  | .netcat => pure (none, none, none, false)
  | .localForward => do
      let forwardRaw ← promptForward "8080:localhost:3000"
      let forward ← .expect validatedAbove (convertForward forwardRaw)
      pure (some forward, none, none, false)
  | .reverse => do
      let forwardRaw ← promptForward "9090:localhost:3000"
      let gatewayPorts ← .confirm "Enable gateway ports?" false
      let forward ← .expect validatedAbove (convertForward forwardRaw)
      pure (none, some forward, none, gatewayPorts)
  | .socks => do
      let portRaw ← .text "SOCKS5 port" (some "1080") (fun _ => []) validatePort
      let port ← portOr 1080 portRaw
      pure (none, none, some port, false)

/-- `run_dial`. -/
def runDial (text : Libp2pText) : Form Command := do
  let conn ← .select "Connection type?" DialConn.display [.relay, .mdns, .pairing]
  let addresses ← dialAddresses text conn
  let tunnel ← .select "Tunnel mode?" TunnelMode.display [.netcat, .localForward, .reverse, .socks]
  let options ← tunnelOptions tunnel
  pure (.dial {}
    { target := addresses.1
      relayAddress := addresses.2
      jump := []
      localForward := options.1
      remoteForward := options.2.1
      socks := options.2.2.1
      gatewayPorts := options.2.2.2 })

/-- `run_interactive_inner`. -/
def runInteractive (text : Libp2pText) : Form Command := do
  let mode ← .select "What do you want to do?" Mode.display [.relay, .listen, .dial]
  match mode with
  | .relay => runRelay
  | .listen => runListen text
  | .dial => runDial text

/-- How `run_interactive` ends. -/
inductive Ending where
  /-- `run` goes on with a command -/
  | command (command : Command)
  /-- `std::process::exit` -/
  | exit (code : Nat)
  | failed (report : Report)
  | panic (message : String)
  deriving DecidableEq, Repr

/-- What `run_interactive` makes of the end of a dialogue. -/
def ending : Dialogue InquireError Command → Option Ending
  | .asking (.done command) _ => some (.command command)
  | .asking (.stop message) _ => some (.panic message)
  | .asking (.ask _ _) _ => none
  | .failed .operationCanceled => some (.exit 0)
  | .failed .operationInterrupted => some (.exit 0)
  | .failed (.other text) => some (.failed (.msg text))

/-- The machine of the wizard. -/
def machine (text : Libp2pText) :
    Machine (Dialogue InquireError Command) (FormLabel InquireError) :=
  Dialogue.machine InquireError (runInteractive text)

/-! ## What can be typed -/

/-- A text that is not empty, and has no white space at its ends. -/
def Trimmed (s : String) : Prop := s ≠ "" ∧ strTrim s = s

/-- An address that has a text form. -/
def NamesAddress (text : Libp2pText) (addr : Multiaddr) : Prop :=
  ∃ s, Trimmed s ∧ text.parseMultiaddr s = .ok addr

/-- A peer that has a text form. -/
def NamesPeer (text : Libp2pText) (peer : PeerId) : Prop :=
  ∃ s, Trimmed s ∧ text.parsePeerId s = .ok peer

/-- A peer that has a text form which can stand between commas. -/
def ListsPeer (text : Libp2pText) (peer : PeerId) : Prop :=
  ∃ s, Trimmed s ∧ ',' ∉ s.toList ∧ text.parsePeerId s = .ok peer

/-- A forward whose target has a colon in it, and no white space at its end. -/
def Typable (spec : ForwardSpec) : Prop :=
  ':' ∈ spec.target.toList ∧ ∀ c ∈ spec.target.toList.getLast?, isWhitespace c = false

/-- A target, and the relay address that goes with it. -/
def OffersTarget (text : Libp2pText) : DialTarget → Option Multiaddr → Prop
  | .relayCircuit addr, none => NamesAddress text addr
  | .mdns peer, none => NamesPeer text peer
  | .pairingCode code, some relay => Trimmed code ∧ NamesAddress text relay
  | _, _ => False

/-- One of the tunnel modes, and gateway ports for reverse forwards only. -/
def OffersTunnel : Option ForwardSpec → Option ForwardSpec → Option UInt16 → Bool → Prop
  | none, none, none, false => True
  | some spec, none, none, false => Typable spec
  | none, some spec, none, _ => Typable spec
  | none, none, some _, false => True
  | _, _, _, _ => False

/-- The commands of the wizard. -/
def Offered (text : Libp2pText) : Command → Prop
  | .relay identity _ => identity = {}
  | .listen identity registerOpt listenOpt =>
      identity = {} ∧ (∀ addr, registerOpt.relayAddress = some addr → NamesAddress text addr) ∧
        (∀ code, registerOpt.code = some code → Trimmed code) ∧
        ∀ peer ∈ listenOpt.allowedPeers, ListsPeer text peer
  | .dial identity opt =>
      identity = {} ∧ opt.jump = [] ∧ OffersTarget text opt.target opt.relayAddress ∧
        OffersTunnel opt.localForward opt.remoteForward opt.socks opt.gatewayPorts

/-- What is made of a text that is trimmed first is what is made of a trimmed one. -/
theorem exists_trimmed {P : String → Prop} :
    (∃ raw, strTrim raw ≠ "" ∧ P (strTrim raw)) ↔ ∃ s, Trimmed s ∧ P s := by
  constructor
  · rintro ⟨raw, hne, hraw⟩
    exact ⟨strTrim raw, ⟨hne, strTrim_strTrim raw⟩, hraw⟩
  · rintro ⟨s, ⟨hne, htrim⟩, hs⟩
    refine ⟨s, ?_, ?_⟩
    · rw [htrim]
      exact hne
    · rw [htrim]
      exact hs

theorem isEmpty_eq_false {s : String} : s.isEmpty = false ↔ s ≠ "" := by
  rw [Bool.eq_false_iff, ne_eq, String.isEmpty_iff]

/-- A text whose ends are no white space is trimmed. -/
theorem trimmed_of_ends {s : String} {first last : Char} (hfirst : s.toList.head? = some first)
    (hlast : s.toList.getLast? = some last) (hfirst' : isWhitespace first = false)
    (hlast' : isWhitespace last = false) : Trimmed s := by
  constructor
  · rintro rfl
    cases hfirst
  · rw [strTrim_eq_self_iff, hfirst, hlast]
    constructor
    · rintro c ⟨⟩
      exact hfirst'
    · rintro c ⟨⟩
      exact hlast'

theorem isWhitespace_of_isDigit {c : Char} (h : c.isDigit = true) : isWhitespace c = false := by
  have hrange : 48 ≤ c.val.toNat ∧ c.val.toNat ≤ 57 := by
    simpa [Char.isDigit, UInt32.le_iff_toNat_le] using h
  simp only [isWhitespace, Bool.or_eq_false_iff, Bool.and_eq_false_iff, decide_eq_false_iff_not,
    UInt32.le_iff_toNat_le, ← UInt32.toNat_inj, UInt32.reduceToNat]
  omega

/-! ## The prompts -/

theorem validateRequired_eq_none {accepts : String → Bool} {empty invalid s : String} :
    validateRequired accepts empty invalid s = none ↔
      strTrim s ≠ "" ∧ accepts (strTrim s) = true := by
  rw [← isEmpty_eq_false]
  simp only [validateRequired]
  split
  · rename_i hempty
    simp [hempty]
  · rename_i hne
    simp [hne]

section Required

variable {E α : Type} {parse : String → Except E α} {empty invalid : String}

/-- A text that is required to parse is parsed behind its prompt. -/
theorem toOption_of_required {raw : String}
    (h : validateRequired (fun v => (parse v).isOk) empty invalid raw = none) :
    ∃ value, (parse (strTrim raw)).toOption = some value := by
  obtain ⟨-, hok⟩ := validateRequired_eq_none.mp h
  cases hparse : parse (strTrim raw) with
  | ok value => exact ⟨value, rfl⟩
  | error err =>
      simp only [hparse] at hok
      cases hok

theorem required_iff {value : α} :
    (∃ raw, validateRequired (fun v => (parse v).isOk) empty invalid raw = none ∧
        (parse (strTrim raw)).toOption = some value) ↔
      ∃ s, Trimmed s ∧ parse s = .ok value := by
  rw [← exists_trimmed]
  apply exists_congr
  intro raw
  rw [validateRequired_eq_none, and_assoc]
  apply and_congr_right
  intro hne
  cases parse (strTrim raw) with
  | ok found => simp [Except.toOption, Except.isOk, Except.toBool]
  | error err => simp [Except.toOption]

end Required

theorem yields_promptMultiaddr {text : Libp2pText} {message placeholder empty invalid : String}
    {addr : Multiaddr} :
    (promptMultiaddr text message placeholder empty invalid).Yields addr ↔
      NamesAddress text addr := by
  simp only [promptMultiaddr, Form.yields_bind, Form.yields_text, Form.yields_expect]
  exact required_iff

theorem safe_promptMultiaddr {text : Libp2pText} {message placeholder empty invalid : String} :
    (promptMultiaddr text message placeholder empty invalid).Safe := by
  simp only [promptMultiaddr, Form.safe_bind, Form.safe_text, Form.yields_text, Form.safe_expect,
    true_and]
  exact fun raw => toOption_of_required

/-- A port that is accepted is read, unless it has been left out. -/
theorem safe_portOr {byDefault : UInt16} {raw : String} (h : validatePort raw = none) :
    (portOr byDefault raw).Safe := by
  unfold portOr
  split
  · exact Form.safe_pure byDefault
  · rename_i hne
    simp only [validatePort, Bool.eq_false_iff.mpr hne, Bool.false_or] at h
    split at h
    · rename_i hport
      exact Form.safe_expect.mpr (Option.isSome_iff_exists.mp hport)
    · cases h

/-- A printed port is typed as it is. -/
theorem trimmed_port (port : UInt16) : Trimmed (toString port) := by
  obtain ⟨hne, hdigits, -⟩ := plainDecimal_toString port.toNat
  have hwhite : ∀ c ∈ (toString port).toList, isWhitespace c = false := fun c hmem =>
    isWhitespace_of_isDigit (hdigits c hmem)
  exact trimmed_of_ends (List.head?_eq_some_head hne) (List.getLast?_eq_some_getLast hne)
    (hwhite _ (List.head_mem hne)) (hwhite _ (List.getLast_mem hne))

/-- Any port can be typed. -/
theorem exists_portOr (byDefault port : UInt16) :
    ∃ raw, validatePort raw = none ∧ (portOr byDefault raw).Yields port := by
  obtain ⟨hne, htrim⟩ := trimmed_port port
  refine ⟨toString port, ?_, ?_⟩
  · simp only [validatePort, htrim, parseU16_toString, Option.isSome_some, Bool.or_true, if_true]
  · unfold portOr
    rw [htrim, isEmpty_eq_false.mpr hne, if_neg Bool.false_ne_true, parseU16_toString]
    exact Form.yields_expect.mpr rfl

theorem forward_iff {spec : ForwardSpec} :
    (∃ raw, validateForward raw = none ∧ convertForward raw = some spec) ↔ Typable spec := by
  have hwritten : (∃ raw, validateForward raw = none ∧ convertForward raw = some spec) ↔
      ∃ s, Trimmed s ∧ ForwardSpec.fromStr s = .ok spec := required_iff
  rw [hwritten]
  constructor
  · rintro ⟨s, ⟨-, htrim⟩, hspec⟩
    obtain ⟨bind, hs, -, hcolon⟩ := fromStr_eq_ok.mp hspec
    refine ⟨hcolon, fun c hc => (strTrim_eq_self_iff.mp htrim).2 c ?_⟩
    rw [hs, List.getLast?_append, List.getLast?_cons, Option.mem_def.mp hc]
    rfl
  · rintro ⟨hcolon, hlast⟩
    obtain ⟨hne, htrim⟩ := trimmed_port spec.bindPort
    refine ⟨spec.display, ⟨?_, ?_⟩, fromStr_display hcolon⟩
    · rintro hempty
      have hlist := toList_display spec
      rw [hempty] at hlist
      exact absurd hlist.symm (by simp)
    · rw [strTrim_eq_self_iff, toList_display]
      constructor
      · intro c hc
        rw [List.head?_append] at hc
        exact (strTrim_eq_self_iff.mp htrim).1 c (by
          cases hhead : (toString spec.bindPort).toList.head? with
          | none => exact absurd (List.head?_eq_none_iff.mp hhead) (by simpa using hne)
          | some first => rw [hhead] at hc; exact hc)
      · intro c hc
        rw [List.getLast?_append, List.getLast?_cons] at hc
        cases hend : spec.target.toList.getLast? with
        | none =>
            rw [List.getLast?_eq_none_iff.mp hend] at hcolon
            cases hcolon
        | some last =>
            rw [hend] at hc
            exact hlast c (by rw [hend]; exact hc)

/-- Every suggested forward is accepted. -/
theorem forwardSuggestions_accepted : ∀ s ∈ forwardSuggestions, validateForward s = none := by
  decide

/-- What is written between the commas is trimmed, and has no comma in it. -/
theorem mem_writtenPeers {s written : String} (hmem : written ∈ writtenPeers s) :
    Trimmed written ∧ ',' ∉ written.toList := by
  obtain ⟨part, hpart, rfl⟩ := List.mem_map.mp hmem
  obtain ⟨hpart, hblank⟩ := List.mem_filter.mp hpart
  obtain ⟨cs, hcs, rfl⟩ := List.mem_map.mp hpart
  refine ⟨⟨?_, strTrim_strTrim _⟩, ?_⟩
  · rw [← isEmpty_eq_false, strTrim_isEmpty]
    simpa using hblank
  · intro hcomma
    apply not_mem_of_mem_splitOn hcs
    rw [strTrim, String.toList_ofList, String.toList_ofList] at hcomma
    exact (List.dropWhile_suffix _).mem ((List.rdropWhile_prefix _ _).mem hcomma)

/-- Texts that are trimmed and have no commas are what is written where they stand between
commas. -/
theorem writtenPeers_intercalate {parts : List String} (hne : parts ≠ [])
    (htrim : ∀ part ∈ parts, Trimmed part ∧ ',' ∉ part.toList) :
    writtenPeers (String.ofList ([','].intercalate (parts.map String.toList))) = parts := by
  have hsplit : ([','].intercalate (parts.map String.toList)).splitOn ',' =
      parts.map String.toList := by
    apply List.splitOn_intercalate
    · intro cs hcs
      obtain ⟨part, hpart, rfl⟩ := List.mem_map.mp hcs
      exact (htrim part hpart).2
    · simpa using hne
  have hkept : parts.filter (fun part => !isBlank part) = parts := by
    apply List.filter_eq_self.mpr
    intro part hpart
    rw [← strTrim_isEmpty, (htrim part hpart).1.2, isEmpty_eq_false.mpr (htrim part hpart).1.1]
    rfl
  rw [writtenPeers, strSplit, String.toList_ofList, hsplit, List.map_map]
  have hid : (String.ofList ∘ String.toList) = id := funext fun _ => String.ofList_toList
  rw [hid, List.map_id, hkept]
  calc parts.map strTrim
    _ = parts.map id := List.map_congr_left fun part hpart => (htrim part hpart).1.2
    _ = parts := List.map_id parts

theorem validateAllowedPeers_eq_none {text : Libp2pText} {s : String} :
    validateAllowedPeers text s = none ↔ acceptsAllowedPeers text s = true := by
  unfold validateAllowedPeers
  split <;> simp [*]

/-- What is written may be anything that parses. -/
theorem accepts_of_writtenPeers {text : Libp2pText} {s : String}
    (h : ∀ written ∈ writtenPeers s, (text.parsePeerId written).isOk = true) :
    acceptsAllowedPeers text s = true := by
  simp only [acceptsAllowedPeers, segments_eq, Bool.or_eq_true, List.all_eq_true]
  exact .inr h

theorem allowedPeers_iff {text : Libp2pText} {peers : List PeerId} :
    (∃ raw, validateAllowedPeers text raw = none ∧ convertAllowedPeers text raw = some peers) ↔
      ∀ peer ∈ peers, ListsPeer text peer := by
  let Lists : String → PeerId → Prop := fun written peer =>
    (Trimmed written ∧ ',' ∉ written.toList) ∧ text.parsePeerId written = .ok peer
  have hlists : (∀ peer ∈ peers, ListsPeer text peer) ↔
      ∃ parts, List.Forall₂ Lists parts peers := by
    rw [exists_forall₂_iff]
    simp only [ListsPeer, Lists, and_assoc]
  rw [hlists]
  constructor
  · rintro ⟨raw, hvalid, hconvert⟩
    obtain ⟨peers', hconvert', hforall⟩ :=
      convertAllowedPeers_spec (validateAllowedPeers_eq_none.mp hvalid)
    obtain rfl := Option.some.inj (hconvert.symm.trans hconvert')
    exact ⟨writtenPeers raw,
      List.forall₂_and_left _ _ |>.mpr ⟨fun written => mem_writtenPeers, hforall⟩⟩
  · rintro ⟨parts, hforall⟩
    obtain ⟨htrim, hparse⟩ := List.forall₂_and_left _ _ |>.mp hforall
    obtain ⟨raw, hraw⟩ : ∃ raw, writtenPeers raw = parts := by
      by_cases hne : parts = []
      · exact ⟨"", by rw [hne]; exact writtenPeers_of_isBlank rfl⟩
      · exact ⟨_, writtenPeers_intercalate hne htrim⟩
    have haccepts : acceptsAllowedPeers text raw = true := by
      apply accepts_of_writtenPeers
      rw [hraw]
      intro written hwritten
      obtain ⟨peer, hpeer⟩ := exists_forall₂_iff.mp ⟨peers, hparse.flip⟩ written hwritten
      rw [hpeer]
      rfl
    obtain ⟨peers', hconvert, hforall'⟩ := convertAllowedPeers_spec haccepts
    refine ⟨raw, validateAllowedPeers_eq_none.mpr haccepts, ?_⟩
    have hunique : Relator.RightUnique fun written peer =>
        text.parsePeerId written = .ok peer := fun written peer peer' h h' =>
      Except.ok.inj (h.symm.trans h')
    obtain rfl : peers' = peers := hunique.forall₂ (hraw ▸ hforall') hparse
    exact hconvert

/-! ## The wizard -/

theorem yields_runRelay {command : Command} :
    runRelay.Yields command ↔ ∃ opt, command = .relay {} opt := by
  simp only [runRelay, Form.yields_bind, Form.yields_text, Form.yields_confirm,
    Form.yields_pure, true_and]
  constructor
  · rintro ⟨portRaw, -, useIpv6, port, -, rfl⟩
    exact ⟨_, rfl⟩
  · rintro ⟨⟨useIpv6, port⟩, rfl⟩
    obtain ⟨raw, hvalid, hport⟩ := exists_portOr 4001 port
    exact ⟨raw, hvalid, useIpv6, port, hport, rfl⟩

theorem listenAddress_iff {text : Libp2pText} {relayAddress : Option Multiaddr} :
    (∃ conn, conn ∈ [ListenConn.relay, .lan] ∧ (listenAddress text conn).Yields relayAddress) ↔
      ∀ addr, relayAddress = some addr → NamesAddress text addr := by
  simp only [List.mem_cons, List.not_mem_nil, or_false, or_and_right, exists_or, exists_eq_left,
    listenAddress, promptRelayAddress, Form.yields_bind, yields_promptMultiaddr, Form.yields_pure]
  cases relayAddress <;> simp

theorem listenCode_iff {code : Option String} :
    (∃ raw, (if (strTrim raw).isEmpty then none else some (strTrim raw)) = code) ↔
      ∀ written, code = some written → Trimmed written := by
  constructor
  · rintro ⟨raw, rfl⟩ written hwritten
    split at hwritten
    · cases hwritten
    · rename_i hne
      obtain rfl := Option.some.inj hwritten
      exact ⟨isEmpty_eq_false.mp (Bool.eq_false_iff.mpr hne), strTrim_strTrim raw⟩
  · intro htrim
    cases code with
    | none => exact ⟨"", rfl⟩
    | some written =>
        obtain ⟨hne, hwritten⟩ := htrim written rfl
        refine ⟨written, ?_⟩
        rw [hwritten, isEmpty_eq_false.mpr hne, if_neg Bool.false_ne_true]

theorem yields_runListen {text : Libp2pText} {command : Command} :
    (runListen text).Yields command ↔
      ∃ registerOpt listenOpt, command = .listen {} registerOpt listenOpt ∧
        (∀ addr, registerOpt.relayAddress = some addr → NamesAddress text addr) ∧
        (∀ code, registerOpt.code = some code → Trimmed code) ∧
        ∀ peer ∈ listenOpt.allowedPeers, ListsPeer text peer := by
  simp only [runListen, Form.yields_bind, Form.yields_select, Form.yields_text, Form.yields_expect,
    Form.yields_pure, true_and]
  constructor
  · rintro ⟨conn, hconn, relayAddress, haddress, codeRaw, peersRaw, hvalid, peers, hpeers, rfl⟩
    exact ⟨_, _, rfl, listenAddress_iff.mp ⟨conn, hconn, haddress⟩,
      listenCode_iff.mp ⟨codeRaw, rfl⟩, allowedPeers_iff.mp ⟨peersRaw, hvalid, hpeers⟩⟩
  · rintro ⟨⟨relayAddress, code⟩, ⟨peers⟩, rfl, haddress, hcode, hpeers⟩
    obtain ⟨conn, hconn, haddress⟩ := listenAddress_iff.mpr haddress
    obtain ⟨codeRaw, rfl⟩ := listenCode_iff.mpr hcode
    obtain ⟨peersRaw, hvalid, hpeers⟩ := allowedPeers_iff.mpr hpeers
    exact ⟨conn, hconn, relayAddress, haddress, codeRaw, peersRaw, hvalid, peers, hpeers, rfl⟩

theorem dialCode_iff {code : String} :
    (∃ raw, validateCode raw = none ∧ strTrim raw = code) ↔ Trimmed code := by
  simp only [validateCode, validateRequired_eq_none, and_true]
  rw [exists_trimmed (P := fun s => s = code), exists_eq_right]

theorem dialAddresses_iff {text : Libp2pText} (target : DialTarget)
    (relayAddress : Option Multiaddr) :
    (∃ conn, conn ∈ [DialConn.relay, .mdns, .pairing] ∧
        (dialAddresses text conn).Yields (target, relayAddress)) ↔
      OffersTarget text target relayAddress := by
  have hmem : ∀ conn, conn ∈ [DialConn.relay, .mdns, .pairing] := by
    intro conn
    cases conn <;> simp
  simp only [hmem, true_and]
  constructor
  · rintro ⟨conn, hyields⟩
    cases conn with
    | relay =>
        simp only [dialAddresses, Form.yields_bind, yields_promptMultiaddr,
          Form.yields_pure] at hyields
        obtain ⟨addr, haddr, heq⟩ := hyields
        cases heq
        exact haddr
    | mdns =>
        simp only [dialAddresses, Form.yields_bind, Form.yields_text, Form.yields_expect,
          Form.yields_pure] at hyields
        obtain ⟨raw, hvalid, peer, hpeer, heq⟩ := hyields
        cases heq
        exact required_iff.mp ⟨raw, hvalid, hpeer⟩
    | pairing =>
        simp only [dialAddresses, promptRelayAddress, Form.yields_bind, Form.yields_text,
          yields_promptMultiaddr, Form.yields_pure] at hyields
        obtain ⟨raw, hvalid, relay, hrelay, heq⟩ := hyields
        cases heq
        exact ⟨dialCode_iff.mp ⟨raw, hvalid, rfl⟩, hrelay⟩
  · intro hoffers
    cases target with
    | mdns peer =>
        cases relayAddress with
        | some addr => exact absurd hoffers id
        | none =>
            obtain ⟨raw, hvalid, hpeer⟩ := required_iff.mpr hoffers
            refine ⟨.mdns, ?_⟩
            simp only [dialAddresses, Form.yields_bind, Form.yields_text, Form.yields_expect,
              Form.yields_pure]
            exact ⟨raw, hvalid, peer, hpeer, rfl⟩
    | relayCircuit addr =>
        cases relayAddress with
        | some addr => exact absurd hoffers id
        | none =>
            refine ⟨.relay, ?_⟩
            simp only [dialAddresses, Form.yields_bind, yields_promptMultiaddr, Form.yields_pure]
            exact ⟨addr, hoffers, rfl⟩
    | pairingCode code =>
        cases relayAddress with
        | none => exact absurd hoffers id
        | some relay =>
            obtain ⟨hcode, hrelay⟩ := hoffers
            obtain ⟨raw, hvalid, rfl⟩ := dialCode_iff.mpr hcode
            refine ⟨.pairing, ?_⟩
            simp only [dialAddresses, promptRelayAddress, Form.yields_bind, Form.yields_text,
              yields_promptMultiaddr, Form.yields_pure]
            exact ⟨raw, hvalid, relay, hrelay, rfl⟩

theorem tunnelOptions_iff (localForward remoteForward : Option ForwardSpec)
    (socks : Option UInt16) (gatewayPorts : Bool) :
    (∃ tunnel, tunnel ∈ [TunnelMode.netcat, .localForward, .reverse, .socks] ∧
        (tunnelOptions tunnel).Yields (localForward, remoteForward, socks, gatewayPorts)) ↔
      OffersTunnel localForward remoteForward socks gatewayPorts := by
  have hmem : ∀ tunnel, tunnel ∈ [TunnelMode.netcat, .localForward, .reverse, .socks] := by
    intro tunnel
    cases tunnel <;> simp
  simp only [hmem, true_and]
  constructor
  · rintro ⟨tunnel, hyields⟩
    cases tunnel with
    | netcat =>
        cases (Form.yields_pure _ _).mp hyields
        trivial
    | localForward =>
        simp only [tunnelOptions, promptForward, Form.yields_bind, Form.yields_text,
          Form.yields_expect, Form.yields_pure] at hyields
        obtain ⟨raw, hvalid, spec, hspec, heq⟩ := hyields
        cases heq
        exact forward_iff.mp ⟨raw, hvalid, hspec⟩
    | reverse =>
        simp only [tunnelOptions, promptForward, Form.yields_bind, Form.yields_text,
          Form.yields_expect, Form.yields_pure] at hyields
        obtain ⟨raw, hvalid, gatewayPorts, -, spec, hspec, heq⟩ := hyields
        cases heq
        exact forward_iff.mp ⟨raw, hvalid, hspec⟩
    | socks =>
        simp only [tunnelOptions, Form.yields_bind, Form.yields_text,
          Form.yields_pure] at hyields
        obtain ⟨raw, hvalid, port, hport, heq⟩ := hyields
        cases heq
        trivial
  · intro hoffers
    cases localForward with
    | some spec =>
        cases remoteForward with
        | some other => exact hoffers.elim
        | none =>
            cases socks with
            | some port => exact hoffers.elim
            | none =>
                cases gatewayPorts with
                | true => exact hoffers.elim
                | false =>
                    obtain ⟨raw, hvalid, hconvert⟩ := forward_iff.mpr hoffers
                    refine ⟨.localForward, ?_⟩
                    simp only [tunnelOptions, promptForward, Form.yields_bind, Form.yields_text,
                      Form.yields_expect, Form.yields_pure]
                    exact ⟨raw, hvalid, spec, hconvert, rfl⟩
    | none =>
        cases remoteForward with
        | some spec =>
            cases socks with
            | some port => exact hoffers.elim
            | none =>
                obtain ⟨raw, hvalid, hconvert⟩ := forward_iff.mpr hoffers
                refine ⟨.reverse, ?_⟩
                simp only [tunnelOptions, promptForward, Form.yields_bind, Form.yields_text,
                  Form.yields_expect, Form.yields_pure]
                exact ⟨raw, hvalid, gatewayPorts, Form.yields_confirm, spec, hconvert, rfl⟩
        | none =>
            cases gatewayPorts with
            | true => cases socks <;> exact hoffers.elim
            | false =>
                cases socks with
                | none => exact ⟨.netcat, (Form.yields_pure _ _).mpr rfl⟩
                | some port =>
                    obtain ⟨raw, hvalid, hport⟩ := exists_portOr 1080 port
                    refine ⟨.socks, ?_⟩
                    simp only [tunnelOptions, Form.yields_bind, Form.yields_text, Form.yields_pure]
                    exact ⟨raw, hvalid, port, hport, rfl⟩

theorem yields_runDial {text : Libp2pText} {command : Command} :
    (runDial text).Yields command ↔
      ∃ opt, command = .dial {} opt ∧ opt.jump = [] ∧
        OffersTarget text opt.target opt.relayAddress ∧
        OffersTunnel opt.localForward opt.remoteForward opt.socks opt.gatewayPorts := by
  simp only [runDial, Form.yields_bind, Form.yields_select, Form.yields_pure]
  constructor
  · rintro ⟨conn, hconn, addresses, haddresses, tunnel, htunnel, options, hoptions, rfl⟩
    exact ⟨_, rfl, rfl, (dialAddresses_iff _ _).mp ⟨conn, hconn, haddresses⟩,
      (tunnelOptions_iff _ _ _ _).mp ⟨tunnel, htunnel, hoptions⟩⟩
  · rintro ⟨⟨target, relayAddress, jump, localForward, remoteForward, socks, gatewayPorts⟩, rfl,
      rfl, htarget, htunnel⟩
    obtain ⟨conn, hconn, haddresses⟩ := (dialAddresses_iff _ _).mpr htarget
    obtain ⟨tunnel, htunnel, hoptions⟩ := (tunnelOptions_iff _ _ _ _).mpr htunnel
    exact ⟨conn, hconn, _, haddresses, tunnel, htunnel, _, hoptions, rfl⟩

/-- What the wizard comes to. -/
theorem yields_runInteractive {text : Libp2pText} {command : Command} :
    (runInteractive text).Yields command ↔ Offered text command := by
  have hmode : (runInteractive text).Yields command ↔
      runRelay.Yields command ∨ (runListen text).Yields command ∨
        (runDial text).Yields command := by
    simp only [runInteractive, Form.yields_bind, Form.yields_select, List.mem_cons,
      List.not_mem_nil, or_false, or_and_right, exists_or, exists_eq_left]
  rw [hmode, yields_runRelay, yields_runListen, yields_runDial]
  cases command with
  | relay identity opt => simp [Offered]
  | listen identity registerOpt listenOpt =>
      simp only [Offered, Command.listen.injEq, reduceCtorEq, false_and, exists_false, false_or,
        or_false, and_assoc, exists_and_left, exists_eq_left']
  | dial identity opt =>
      simp only [Offered, Command.dial.injEq, reduceCtorEq, false_and, exists_false, false_or,
        and_assoc, exists_and_left, exists_eq_left']

theorem safe_dialAddresses (text : Libp2pText) (conn : DialConn) :
    (dialAddresses text conn).Safe := by
  cases conn with
  | relay =>
      simp only [dialAddresses, Form.safe_bind, Form.safe_pure, implies_true, and_true]
      exact safe_promptMultiaddr
  | mdns =>
      simp only [dialAddresses, Form.safe_bind, Form.safe_text, Form.yields_text,
        Form.safe_expect, Form.safe_pure, implies_true, and_true, true_and]
      exact fun raw => toOption_of_required
  | pairing =>
      simp only [dialAddresses, Form.safe_bind, Form.safe_text, Form.safe_pure, implies_true,
        and_true, true_and]
      exact fun raw _ => safe_promptMultiaddr

theorem safe_tunnelOptions (tunnel : TunnelMode) : (tunnelOptions tunnel).Safe := by
  have hforward : ∀ raw, validateForward raw = none → ∃ spec, convertForward raw = some spec :=
    fun _ => toOption_of_required
  cases tunnel with
  | netcat => exact Form.safe_pure _
  | localForward =>
      simp only [tunnelOptions, promptForward, Form.safe_bind, Form.safe_text, Form.yields_text,
        Form.safe_expect, Form.safe_pure, implies_true, and_true, true_and]
      exact hforward
  | reverse =>
      simp only [tunnelOptions, promptForward, Form.safe_bind, Form.safe_text, Form.yields_text,
        Form.safe_confirm, Form.safe_expect, Form.safe_pure, implies_true, and_true, true_and]
      exact fun raw hvalid _ _ => hforward raw hvalid
  | socks =>
      simp only [tunnelOptions, Form.safe_bind, Form.safe_text, Form.yields_text, Form.safe_pure,
        implies_true, and_true, true_and]
      exact fun raw => safe_portOr

/-- No `expect` of the wizard fails. -/
theorem safe_runInteractive (text : Libp2pText) : (runInteractive text).Safe := by
  simp only [runInteractive, Form.safe_bind, Form.safe_select, true_and]
  intro mode _
  cases mode with
  | relay =>
      simp only [runRelay, Form.safe_bind, Form.safe_text, Form.yields_text, Form.safe_confirm,
        Form.safe_pure, implies_true, and_true, true_and]
      exact fun raw hvalid _ _ => safe_portOr hvalid
  | listen =>
      simp only [runListen, Form.safe_bind, Form.safe_select, Form.safe_text, Form.yields_text,
        Form.safe_expect, Form.safe_pure, implies_true, and_true, true_and]
      intro conn _
      refine ⟨?_, fun relayAddress _ codeRaw _ peersRaw hvalid => ?_⟩
      · cases conn with
        | relay =>
            simp only [listenAddress, Form.safe_bind, Form.safe_pure, implies_true, and_true]
            exact safe_promptMultiaddr
        | lan => exact Form.safe_pure none
      · obtain ⟨peers, hpeers, -⟩ :=
          convertAllowedPeers_spec (validateAllowedPeers_eq_none.mp hvalid)
        exact ⟨peers, hpeers⟩
  | dial =>
      simp only [runDial, Form.safe_bind, Form.safe_select, Form.safe_pure, implies_true,
        and_true, true_and]
      exact fun conn _ =>
        ⟨safe_dialAddresses text conn, fun _ _ tunnel _ => safe_tunnelOptions tunnel⟩

theorem answerable_promptMultiaddr {text : Libp2pText}
    {message placeholder empty invalid : String} (haddr : ∃ addr, NamesAddress text addr) :
    (promptMultiaddr text message placeholder empty invalid).Answerable := by
  obtain ⟨addr, haddr⟩ := haddr
  obtain ⟨raw, hvalid, -⟩ := required_iff.mpr haddr
  simp only [promptMultiaddr, Form.answerable_bind, Form.answerable_text, Form.answerable_expect,
    implies_true, and_true]
  exact ⟨raw, hvalid⟩

theorem answerable_portOr (byDefault : UInt16) (raw : String) :
    (portOr byDefault raw).Answerable := by
  unfold portOr
  split
  · exact Form.answerable_pure byDefault
  · exact Form.answerable_expect

theorem answerable_dialAddresses {text : Libp2pText} (haddr : ∃ addr, NamesAddress text addr)
    (hpeer : ∃ peer, NamesPeer text peer) (conn : DialConn) :
    (dialAddresses text conn).Answerable := by
  cases conn with
  | relay =>
      simp only [dialAddresses, Form.answerable_bind, Form.answerable_pure, implies_true, and_true]
      exact answerable_promptMultiaddr haddr
  | mdns =>
      obtain ⟨peer, hpeer⟩ := hpeer
      obtain ⟨raw, hvalid, -⟩ := required_iff.mpr hpeer
      simp only [dialAddresses, Form.answerable_bind, Form.answerable_text,
        Form.answerable_expect, Form.answerable_pure, implies_true, and_true]
      exact ⟨raw, hvalid⟩
  | pairing =>
      simp only [dialAddresses, promptRelayAddress, Form.answerable_bind, Form.answerable_text,
        Form.answerable_pure, implies_true, and_true]
      exact ⟨⟨"42-river-ocean", by decide⟩, fun _ _ => answerable_promptMultiaddr haddr⟩

theorem answerable_tunnelOptions (tunnel : TunnelMode) : (tunnelOptions tunnel).Answerable := by
  have hforward : ∃ raw, validateForward raw = none :=
    ⟨_, forwardSuggestions_accepted "8080:localhost:3000" List.mem_cons_self⟩
  have hport : ∃ raw, validatePort raw = none := ⟨"", rfl⟩
  cases tunnel <;>
    simp [tunnelOptions, promptForward, hforward, hport, answerable_portOr]

/-- Every question of the wizard has an answer, where some address and some peer can be
typed. -/
theorem answerable_runInteractive {text : Libp2pText} (haddr : ∃ addr, NamesAddress text addr)
    (hpeer : ∃ peer, NamesPeer text peer) : (runInteractive text).Answerable := by
  simp only [runInteractive, Form.answerable_bind, Form.answerable_select, ne_eq,
    List.cons_ne_nil, not_false_eq_true, true_and]
  intro mode _
  cases mode with
  | relay =>
      have hport : ∃ raw, validatePort raw = none := ⟨"", rfl⟩
      simp [runRelay, hport, answerable_portOr]
  | listen =>
      have hpeers : ∃ raw, validateAllowedPeers text raw = none := ⟨"", rfl⟩
      have haddress : ∀ conn, (listenAddress text conn).Answerable := by
        intro conn
        cases conn with
        | lan => exact Form.answerable_pure none
        | relay =>
            simp only [listenAddress, Form.answerable_bind, Form.answerable_pure, implies_true,
              and_true]
            exact answerable_promptMultiaddr haddr
      simp [runListen, hpeers, haddress]
  | dial =>
      simp [runDial, answerable_dialAddresses haddr hpeer, answerable_tunnelOptions]

/-! ## Main results -/

/-- The wizard does not panic, and the commands that it comes to are exactly the offered
ones. -/
theorem wizard_offers_iff (text : Libp2pText) :
    (∀ labels dialogue message, (machine text).Reaches labels dialogue →
        ending dialogue ≠ some (.panic message)) ∧
      ∀ command, (∃ labels dialogue, (machine text).Reaches labels dialogue ∧
        ending dialogue = some (.command command)) ↔ Offered text command := by
  constructor
  · intro labels dialogue message hrun hpanic
    unfold ending at hpanic
    split at hpanic
    · cases hpanic
    · exact Dialogue.reaches_stop_iff.mp ⟨labels, _, _, hrun⟩ (safe_runInteractive text)
    all_goals cases hpanic
  · intro command
    rw [← yields_runInteractive, ← Dialogue.reaches_done_iff (E := InquireError)]
    constructor
    · rintro ⟨labels, dialogue, hrun, hcommand⟩
      unfold ending at hcommand
      split at hcommand
      · obtain rfl := Ending.command.inj (Option.some.inj hcommand)
        exact ⟨labels, _, hrun⟩
      all_goals cases hcommand
    · rintro ⟨labels, complaint, hrun⟩
      exact ⟨labels, _, hrun, rfl⟩

/-- However it has been answered, a wizard whose prompts have not failed can be brought to an
offered command, where some address and some peer can be typed. -/
theorem wizard_completes {text : Libp2pText} (haddr : ∃ addr, NamesAddress text addr)
    (hpeer : ∃ peer, NamesPeer text peer) {labels : List (FormLabel InquireError)}
    {dialogue : Dialogue InquireError Command} (hrun : (machine text).Reaches labels dialogue) :
    (∃ err, dialogue = .failed err ∧ labels.getLast? = some (.failed err)) ∨
      ∃ (entries : List Entry) (final : Dialogue InquireError Command) (command : Command),
        (machine text).exec dialogue (entries.map .entry) = some final ∧
          ending final = some (.command command) ∧ Offered text command := by
  cases dialogue with
  | failed err => exact .inl ⟨err, rfl, Dialogue.getLast?_of_failed hrun⟩
  | asking form complaint =>
      obtain ⟨entries, command, complaint', hexec, hyields⟩ := Dialogue.completes
        (safe_runInteractive text) (answerable_runInteractive haddr hpeer) hrun
      exact .inr ⟨entries, _, command, hexec, rfl, yields_runInteractive.mp hyields⟩

/-- Text forms of one address and one peer. -/
def oneOfEach : Libp2pText :=
  { Libp2pText.ofTable [("/ip4/1/tcp/1/p2p/p", [.ip4 1, .tcp 1, .p2p ⟨[1]⟩])] with
    parsePeerId := fun s => if s = "p" then .ok ⟨[1]⟩ else .error "not a peer id" }

/-- An address is asked for again after an empty text. -/
theorem wizard_completes_refused :
    ∃ dialogue, (machine oneOfEach).Reaches
        [.entry (.chosen 1), .entry (.chosen 0), .entry (.typed " ")] dialogue ∧
      ∃ (entries : List Entry) (final : Dialogue InquireError Command) (command : Command),
        (machine oneOfEach).exec dialogue (entries.map .entry) = some final ∧
          ending final = some (.command command) ∧ Offered oneOfEach command := by
  obtain ⟨form, hrun⟩ : ∃ form, (machine oneOfEach).Reaches
      [.entry (.chosen 1), .entry (.chosen 0), .entry (.typed " ")]
      (.asking form (some "relay address cannot be empty")) := ⟨_, rfl⟩
  refine ⟨_, hrun, ?_⟩
  obtain ⟨err, herr, -⟩ | hcompletes := wizard_completes
    ⟨[.ip4 1, .tcp 1, .p2p ⟨[1]⟩], "/ip4/1/tcp/1/p2p/p", ⟨by decide, by decide⟩, by decide⟩
    ⟨⟨[1]⟩, "p", ⟨by decide, by decide⟩, by decide⟩ hrun
  · cases herr
  · exact hcompletes

/-! ## Dialing -/

/-- A code that is dialed can be the name of a rendezvous namespace. -/
def Named (newNamespace : String → Except String Unit) (opt : DialOpt) : Prop :=
  ∀ code, opt.target = .pairingCode code → newNamespace code = .ok ()

section Dialing

variable {text : Libp2pText} {opt : DialOpt} {newNamespace : String → Except String Unit}

end Dialing

/-- `Namespace::new`, with the number of bytes that it takes. -/
def newNamespace (value : String) : Except String Unit :=
  if value.utf8ByteSize ≤ 255 then .ok () else .error "too long"

end Interactive

end Sape
