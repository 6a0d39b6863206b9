/-
  Client/Dial.lean --- `src/client/dial.rs`: `run_dial`.

  As in `Relay.lean`, `DialTask` has one constructor for each place where
  `run_dial` waits for something it does not decide: an await, or a call into the
  swarm that may fail.  `DialTask.op` names the operation and `DialTask.resume`
  the code from there to the next one.
-/
import Sape.Jump
import Sape.Protocol
import Sape.Tunnel
import Sape.Types

set_option autoImplicit false

namespace Sape

/-! ## Options -/

/-- `enum DialTarget`. -/
inductive DialTarget where
  | mdns (peer : PeerId)
  | relayCircuit (addr : Multiaddr)
  | pairingCode (code : String)
  deriving DecidableEq, Repr, Inhabited

/-- `struct ForwardSpec`. -/
structure ForwardSpec where
  bindPort : UInt16
  target : String
  deriving DecidableEq, Repr, Inhabited

/-- `struct DialOpt`, less the two identity options. -/
structure DialOpt where
  target : DialTarget
  relayAddress : Option Multiaddr := none
  jump : List Multiaddr := []
  localForward : Option ForwardSpec := none
  remoteForward : Option ForwardSpec := none
  socks : Option UInt16 := none
  gatewayPorts : Bool := false
  deriving DecidableEq, Repr, Inhabited

/-- `enum DialMode`. -/
inductive DialMode where
  | netcat
  | localForward (bindPort : UInt16) (target : String)
  | reverseForward (bindPort : UInt16) (target : String) (gatewayPorts : Bool)
  | socks5 (bindPort : UInt16)
  deriving DecidableEq, Repr, Inhabited

/-- `parse_dial_mode`. -/
def parseDialMode (opt : DialOpt) : DialMode :=
  match opt.localForward with
  | some spec => .localForward spec.bindPort spec.target
  | none =>
      match opt.remoteForward with
      | some spec => .reverseForward spec.bindPort spec.target opt.gatewayPorts
      | none =>
          match opt.socks with
          | some bindPort => .socks5 bindPort
          | none => .netcat

/-! ## The task -/

/-- The operations `run_dial` waits for. -/
inductive DialOp where
  /-- `resolve_identity`, `build_client_swarm` and `start_listeners` -/
  | setUp
  | connectAndIdentify (addr : Multiaddr)
  | openStream (peer : PeerId) (protocol : StreamProtocol)
  | writeJumpChain (chain : JumpChain)
  | readJumpResult
  | writeTunnelRequest (req : TunnelRequest)
  | runNetcat
  /-- `swarm.dial` -/
  | dial (addr : Multiaddr)
  | waitForPeerConnection (peer : PeerId)
  | waitForMdnsAndConnect (peer : PeerId)
  /-- `Namespace::new` and `rendezvous.discover` -/
  | discover (code : String) (relayPeer : PeerId)
  | waitForRendezvousDiscovery (relayPeer : PeerId)
  /-- `new_control().accept` -/
  | accept (protocol : StreamProtocol)
  | runLocalForward (remote : PeerId) (bindPort : UInt16) (target : String)
  | requestReverseForward (remote : PeerId) (bindPort : UInt16) (target : String)
      (gatewayPorts : Bool)
  | runIncomingReverseHandler
  | runSocks5 (remote : PeerId) (bindPort : UInt16)
  deriving DecidableEq, Repr, Inhabited

/-- Where `run_dial` is suspended. -/
inductive DialTask where
  | settingUp
  -- the jump path
  | connectingJump (firstJump : Multiaddr) (hops : List String)
  | openingJump (firstPeer : PeerId) (hops : List String)
  | writingChain (hops : List String)
  | readingResult
  | writingJumpRequest
  | jumpNetcat
  -- finding and connecting to the remote peer
  | connectingRelay (relayAddress addr : Multiaddr) (remote : PeerId)
  | dialingCircuit (addr : Multiaddr) (remote : PeerId)
  | waitingPeer (remote : PeerId)
  | waitingMdns (peer : PeerId)
  | connectingRendezvous (relayAddress : Multiaddr) (relayPeer : PeerId) (code : String)
  | discovering (code : String) (relayPeer : PeerId)
  | waitingRendezvous (relayPeer : PeerId)
  | accepting (remote : PeerId)
  -- the tunnel
  | openingNetcat (remote : PeerId)
  | writingNetcat
  | netcat
  | localForwarding (remote : PeerId) (bindPort : UInt16) (target : String)
  | requestingReverse (remote : PeerId) (bindPort : UInt16) (target : String)
      (gatewayPorts : Bool)
  | handlingReverse
  | proxying (remote : PeerId) (bindPort : UInt16)
  | ended (result : Except Report Unit)
  deriving DecidableEq, Repr, Inhabited

/-- What an operation came back with. -/
inductive DialEvent where
  | done (result : Except Report Unit)
  | ioDone (result : Except IoError Unit)
  | streamOpened (result : Except String Unit)
  | resultRead (result : Except IoError JumpResult)
  | discovered (result : Except Report PeerId)
  deriving DecidableEq, Repr, Inhabited

namespace DialTask

/-- The operation `run_dial` waits for. -/
def op (nspace : String) : DialTask → Option DialOp
  | .settingUp => some .setUp
  | .connectingJump firstJump _ => some (.connectAndIdentify firstJump)
  | .openingJump firstPeer _ => some (.openStream firstPeer (jumpProtocol nspace))
  | .writingChain hops => some (.writeJumpChain ⟨hops⟩)
  | .readingResult => some .readJumpResult
  | .writingJumpRequest => some (.writeTunnelRequest .netcat)
  | .jumpNetcat => some .runNetcat
  | .connectingRelay relayAddress _ _ => some (.connectAndIdentify relayAddress)
  | .dialingCircuit addr _ => some (.dial addr)
  | .waitingPeer remote => some (.waitForPeerConnection remote)
  | .waitingMdns peer => some (.waitForMdnsAndConnect peer)
  | .connectingRendezvous relayAddress _ _ => some (.connectAndIdentify relayAddress)
  | .discovering code relayPeer => some (.discover code relayPeer)
  | .waitingRendezvous relayPeer => some (.waitForRendezvousDiscovery relayPeer)
  | .accepting _ => some (.accept (tunnelProtocol nspace))
  | .openingNetcat remote => some (.openStream remote (tunnelProtocol nspace))
  | .writingNetcat => some (.writeTunnelRequest .netcat)
  | .netcat => some .runNetcat
  | .localForwarding remote bindPort target => some (.runLocalForward remote bindPort target)
  | .requestingReverse remote bindPort target gatewayPorts =>
      some (.requestReverseForward remote bindPort target gatewayPorts)
  | .handlingReverse => some .runIncomingReverseHandler
  | .proxying remote bindPort => some (.runSocks5 remote bindPort)
  | .ended _ => none

/-- Whether `run_dial` has returned. -/
def isEnded : DialTask → Bool
  | .ended _ => true
  | _ => false

/-- `run_dial` fails with a message. -/
def bail (text : String) : DialTask := .ended (.error (.msg text))

/-- The hops of the `JumpChain` the dialer sends: every jump address but the first,
then the target. -/
def jumpHops (text : Libp2pText) (jump : List Multiaddr) (target : Multiaddr) : List String :=
  jump.tail.map text.printMultiaddr ++ [text.printMultiaddr target]

/-- From the running swarm to the next wait. -/
def afterSetUp (text : Libp2pText) (opt : DialOpt) : DialTask :=
  match opt.jump with
  | firstJump :: _ =>
      match opt.target with
      | .relayCircuit addr => .connectingJump firstJump (jumpHops text opt.jump addr)
      | .mdns _ => bail "cannot use --jump with mDNS targets"
      | .pairingCode _ => bail "cannot use --jump with pairing codes (resolve the code first)"
  | [] =>
      match opt.target with
      | .relayCircuit addr =>
          match relayBaseFromCircuitAddress addr with
          | .error err => bail err.text
          | .ok (relayAddress, remote) => .connectingRelay relayAddress addr remote
      | .mdns peer => .waitingMdns peer
      | .pairingCode code =>
          match opt.relayAddress with
          | none => bail "--relay-address is required when using pairing codes"
          | some relayAddress =>
              match peerIdFromMultiaddr relayAddress with
              | none => bail "missing relay peer id in --relay-address"
              | some relayPeer => .connectingRendezvous relayAddress relayPeer code

/-- From the established jump chain to the next wait. -/
def afterJumpOk : DialMode → DialTask
  | .netcat => .writingJumpRequest
  | .localForward _ _ =>
      bail ("local forward through jump chains is not supported yet; " ++
        "use direct relay circuit or pairing code")
  | .reverseForward _ _ _ =>
      bail ("reverse forward through jump chains is not supported yet; " ++
        "use direct relay circuit or pairing code")
  | .socks5 _ =>
      bail ("socks5 through jump chains is not supported yet; " ++
        "use direct relay circuit or pairing code")

/-- From the registered accept queue to the next wait. -/
def afterAccept (remote : PeerId) : DialMode → DialTask
  | .netcat => .openingNetcat remote
  | .localForward bindPort target => .localForwarding remote bindPort target
  | .reverseForward bindPort target gatewayPorts =>
      .requestingReverse remote bindPort target gatewayPorts
  | .socks5 bindPort => .proxying remote bindPort

/-- The code between the operation `run_dial` waits for and the next one. -/
def resume (text : Libp2pText) (opt : DialOpt) : DialTask → DialEvent → Option DialTask
  | .settingUp, .done (.ok ()) => some (afterSetUp text opt)
  | .connectingJump firstJump hops, .done (.ok ()) =>
      match peerIdFromMultiaddr firstJump with
      | none => some (bail "missing peer id in --jump address")
      | some firstPeer => some (.openingJump firstPeer hops)
  | .openingJump _ hops, .streamOpened (.ok ()) => some (.writingChain hops)
  | .openingJump _ _, .streamOpened (.error err) =>
      some (bail s!"failed to open jump stream: {err}")
  | .writingChain _, .ioDone (.ok ()) => some .readingResult
  | .readingResult, .resultRead (.ok .ok) => some (afterJumpOk (parseDialMode opt))
  | .readingResult, .resultRead (.ok (.error e)) => some (bail s!"jump chain failed: {e}")
  | .readingResult, .resultRead (.error err) => some (.ended (.error (.io err)))
  | .writingJumpRequest, .ioDone (.ok ()) => some .jumpNetcat
  | .jumpNetcat, .ioDone (.ok ()) => some (.ended (.ok ()))
  | .connectingRelay _ addr remote, .done (.ok ()) => some (.dialingCircuit addr remote)
  | .dialingCircuit _ remote, .done (.ok ()) => some (.waitingPeer remote)
  | .waitingPeer remote, .done (.ok ()) => some (.accepting remote)
  | .waitingMdns peer, .done (.ok ()) => some (.accepting peer)
  | .connectingRendezvous _ relayPeer code, .done (.ok ()) =>
      some (.discovering code relayPeer)
  | .discovering _ relayPeer, .done (.ok ()) => some (.waitingRendezvous relayPeer)
  | .waitingRendezvous _, .discovered (.ok remote) => some (.accepting remote)
  | .waitingRendezvous _, .discovered (.error report) => some (.ended (.error report))
  | .accepting remote, .done (.ok ()) => some (afterAccept remote (parseDialMode opt))
  | .openingNetcat _, .streamOpened (.ok ()) => some .writingNetcat
  | .openingNetcat _, .streamOpened (.error err) =>
      some (.ended (.error (.io (.transport err))))
  | .writingNetcat, .ioDone (.ok ()) => some .netcat
  | .netcat, .ioDone (.ok ()) => some (.ended (.ok ()))
  | .localForwarding _ _ _, .done (.ok ()) => some (.ended (.ok ()))
  | .requestingReverse _ _ _ _, .done (.ok ()) => some .handlingReverse
  | .handlingReverse, .done (.ok ()) => some (.ended (.ok ()))
  | .proxying _ _, .done (.ok ()) => some (.ended (.ok ()))
  -- every other failure leaves through `?`
  | .settingUp, .done (.error report)
  | .connectingJump _ _, .done (.error report)
  | .connectingRelay _ _ _, .done (.error report)
  | .dialingCircuit _ _, .done (.error report)
  | .waitingPeer _, .done (.error report)
  | .waitingMdns _, .done (.error report)
  | .connectingRendezvous _ _ _, .done (.error report)
  | .discovering _ _, .done (.error report)
  | .accepting _, .done (.error report)
  | .localForwarding _ _ _, .done (.error report)
  | .requestingReverse _ _ _ _, .done (.error report)
  | .handlingReverse, .done (.error report)
  | .proxying _ _, .done (.error report) => some (.ended (.error report))
  | .writingChain _, .ioDone (.error err)
  | .writingJumpRequest, .ioDone (.error err)
  | .jumpNetcat, .ioDone (.error err)
  | .writingNetcat, .ioDone (.error err)
  | .netcat, .ioDone (.error err) => some (.ended (.error (.io err)))
  | _, _ => none

/-! ## What a resumption does -/

/-- Where `run_dial` goes from one wait to the next, unless it returns. -/
inductive Move (text : Libp2pText) (opt : DialOpt) : DialTask → DialEvent → DialTask → Prop where
  | setUp : Move text opt .settingUp (.done (.ok ())) (afterSetUp text opt)
  | jumpConnected {firstJump : Multiaddr} {hops : List String} {firstPeer : PeerId}
      (hpeer : peerIdFromMultiaddr firstJump = some firstPeer) :
      Move text opt (.connectingJump firstJump hops) (.done (.ok ())) (.openingJump firstPeer hops)
  | jumpOpened {firstPeer : PeerId} {hops : List String} :
      Move text opt (.openingJump firstPeer hops) (.streamOpened (.ok ())) (.writingChain hops)
  | chainWritten {hops : List String} :
      Move text opt (.writingChain hops) (.ioDone (.ok ())) .readingResult
  | jumpOk :
      Move text opt .readingResult (.resultRead (.ok .ok)) (afterJumpOk (parseDialMode opt))
  | jumpRequested : Move text opt .writingJumpRequest (.ioDone (.ok ())) .jumpNetcat
  | relayConnected {relayAddress addr : Multiaddr} {remote : PeerId} :
      Move text opt (.connectingRelay relayAddress addr remote) (.done (.ok ()))
        (.dialingCircuit addr remote)
  | dialed {addr : Multiaddr} {remote : PeerId} :
      Move text opt (.dialingCircuit addr remote) (.done (.ok ())) (.waitingPeer remote)
  | peerConnected {remote : PeerId} :
      Move text opt (.waitingPeer remote) (.done (.ok ())) (.accepting remote)
  | mdnsConnected {peer : PeerId} :
      Move text opt (.waitingMdns peer) (.done (.ok ())) (.accepting peer)
  | rendezvousConnected {relayAddress : Multiaddr} {relayPeer : PeerId} {code : String} :
      Move text opt (.connectingRendezvous relayAddress relayPeer code) (.done (.ok ()))
        (.discovering code relayPeer)
  | discoverSent {code : String} {relayPeer : PeerId} :
      Move text opt (.discovering code relayPeer) (.done (.ok ())) (.waitingRendezvous relayPeer)
  | found {relayPeer remote : PeerId} :
      Move text opt (.waitingRendezvous relayPeer) (.discovered (.ok remote)) (.accepting remote)
  | accepted {remote : PeerId} :
      Move text opt (.accepting remote) (.done (.ok ())) (afterAccept remote (parseDialMode opt))
  | netcatOpened {remote : PeerId} :
      Move text opt (.openingNetcat remote) (.streamOpened (.ok ())) .writingNetcat
  | netcatRequested : Move text opt .writingNetcat (.ioDone (.ok ())) .netcat
  | reverseRequested {remote : PeerId} {bindPort : UInt16} {target : String}
      {gatewayPorts : Bool} :
      Move text opt (.requestingReverse remote bindPort target gatewayPorts) (.done (.ok ()))
        .handlingReverse
  | ended {task : DialTask} {event : DialEvent} {result : Except Report Unit} :
      Move text opt task event (.ended result)

theorem move_of_resume {text : Libp2pText} {opt : DialOpt} {task next : DialTask}
    {event : DialEvent} (h : task.resume text opt event = some next) :
    Move text opt task event next := by
  unfold resume at h
  split at h
  all_goals try (obtain rfl := Option.some.inj h; constructor)
  · split at h
    · obtain rfl := Option.some.inj h
      exact .ended
    · rename_i hpeer
      obtain rfl := Option.some.inj h
      exact .jumpConnected hpeer
  · cases h

end DialTask

end Sape
