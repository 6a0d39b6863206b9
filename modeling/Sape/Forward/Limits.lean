/-
  Forward/Limits.lean --- how long a target may be for the far side to read it.

  The readers of `src/tunnel.rs` and `src/jump.rs` refuse a payload of more than 65536
  bytes, and the writers one of `2 ^ 32` bytes or more.  What is written comes from a
  `-L` or `-R` spec, from the head of an HTTP CONNECT request, or from `--jump`, and none
  of these is bounded.

  WHAT IS PROVED.

      targets_readable     what is written for each of them is read exactly up to the
                           reader's bound, and refused behind its length field above it
-/
import Sape.Client.Options
import Sape.Forward.Session
import Sape.Forward.Spec

set_option autoImplicit false

namespace Sape

open Sape.Foundation

/-! ## Sizes -/

theorem length_varintUsize_le {n : Nat} (hn : n ≤ 65532) :
    (Postcard.varintUsize.encode n).length ≤ 3 :=
  Varint.length_encodeGroups_mono 9 hn

theorem le_length_varintUsize {n : Nat} (hn : 16384 ≤ n) :
    3 ≤ (Postcard.varintUsize.encode n).length :=
  Varint.length_encodeGroups_mono 9 hn

/-- A port takes one group at least, and three at most. -/
theorem length_u16_encode (n : UInt16) :
    0 < (Postcard.u16.encode n).length ∧ (Postcard.u16.encode n).length ≤ 3 :=
  ⟨Varint.length_encodeGroups_pos 2 n.toNat,
    Varint.length_encodeGroups_mono 2 (Nat.le_of_lt_succ n.toNat_lt)⟩

/-- Where there is this much room, a string fits into it behind a length of three groups. -/
theorem length_string_le_iff (room : Nat) (hlow : 16387 ≤ room) (hhigh : room ≤ 65535)
    (s : String) :
    (Postcard.string.encode s).length ≤ room ↔ (Postcard.utf8Bytes s).length + 3 ≤ room := by
  rw [Postcard.length_string_encode]
  constructor
  · intro hle
    by_contra hlong
    have := le_length_varintUsize (n := (Postcard.utf8Bytes s).length) (by omega)
    omega
  · intro hle
    have := length_varintUsize_le (n := (Postcard.utf8Bytes s).length) (by omega)
    omega

/-- Which targets of a `LocalForward` are inside the bound. -/
theorem localForward_le_iff (target : String) :
    (TunnelRequest.postcard.encode (.localForward target)).length ≤ maxRequestSize ↔
      (Postcard.utf8Bytes target).length ≤ 65532 := by
  have hmax : maxRequestSize = 65536 := rfl
  have hstring := length_string_le_iff 65535 (by omega) (by omega) target
  rw [TunnelRequest.encode_localForward, List.length_cons, hmax]
  omega

/-- Which targets of a `ReverseForward` are: its bind port takes some of the room. -/
theorem reverseForward_le_iff (bindPort : UInt16) (target : String) (gatewayPorts : Bool) :
    (TunnelRequest.postcard.encode (.reverseForward bindPort target gatewayPorts)).length ≤
        maxRequestSize ↔
      (Postcard.u16.encode bindPort).length + (Postcard.utf8Bytes target).length ≤ 65531 := by
  have hmax : maxRequestSize = 65536 := rfl
  have hport := length_u16_encode bindPort
  have hflag : (Postcard.bool.encode gatewayPorts).length = 1 := rfl
  have hstring := length_string_le_iff (65534 - (Postcard.u16.encode bindPort).length) (by omega)
    (by omega) target
  rw [TunnelRequest.encode_reverseForward, List.length_cons, List.length_append,
    List.length_append, hflag, hmax]
  omega

/-! ## What the far side accepts -/

/-- Wherever it stands in a stream, what is written for the value is read back if `small`
holds, and is refused as too large behind its length field if not. -/
def AcceptedIff {α : Type} (write : α → Except IoError Bytes)
    (read : Bytes → Except IoError α × Bytes) (tooLarge : Nat → IoError) (a : α)
    (small : Prop) : Prop :=
  ∀ written, write a = .ok written → ∀ following,
    (small → read (written ++ following) = (.ok a, following)) ∧
      (¬ small → ∃ len, read (written ++ following) =
        (.error (tooLarge len), (written ++ following).drop 4))

/-- A frame is read back up to the bound of its reader. -/
theorem acceptedIff_frame {κ α : Type} {frame : Frame κ IoError α} {a : α} {small : Prop}
    (hfits : (frame.payload.encode a).length < 2 ^ 64 → frame.payload.Fits a)
    (hsmall : (frame.payload.encode a).length ≤ frame.max ↔ small) :
    AcceptedIff frame.write frame.read frame.tooLarge a small := by
  intro written hwrite following
  obtain ⟨hlen, -⟩ := Frame.write_ok hwrite
  constructor
  · intro h
    exact Frame.read_write (hfits (by omega)) (hsmall.mpr h) hwrite following
  · intro h
    have hlarge : frame.max < (frame.payload.encode a).length :=
      Nat.lt_of_not_le (mt hsmall.mp h)
    exact ⟨_, Frame.read_write_tooLarge hlarge hwrite following⟩

/-- The reader of a tunnel request accepts what is written for the request exactly in this
case. -/
abbrev RequestAcceptedIff (req : TunnelRequest) (small : Prop) : Prop :=
  AcceptedIff writeTunnelRequest readTunnelRequest TunnelRequest.frame.tooLarge req small

theorem localForward_acceptedIff (target : String) :
    RequestAcceptedIff (.localForward target) ((Postcard.utf8Bytes target).length ≤ 65532) :=
  acceptedIff_frame TunnelRequest.postcard_fits (localForward_le_iff target)

theorem reverseForward_acceptedIff (bindPort : UInt16) (target : String) (gatewayPorts : Bool) :
    RequestAcceptedIff (.reverseForward bindPort target gatewayPorts)
      ((Postcard.u16.encode bindPort).length + (Postcard.utf8Bytes target).length ≤ 65531) :=
  acceptedIff_frame TunnelRequest.postcard_fits
    (reverseForward_le_iff bindPort target gatewayPorts)

theorem jumpChain_acceptedIff (chain : JumpChain) :
    AcceptedIff writeJumpChain readJumpChain JumpChain.frame.tooLarge chain
      ((JumpChain.postcard.encode chain).length ≤ 65536) :=
  acceptedIff_frame JumpChain.postcard_fits Iff.rfl

/-! ## The hop list of a run -/

/-- The hops on the jump path are those of the options. -/
def HopsOf (text : Libp2pText) (opt : DialOpt) : DialTask → Prop
  | .connectingJump _ hops | .openingJump _ hops | .writingChain hops =>
      ∃ addr, opt.target = .relayCircuit addr ∧ hops = DialTask.jumpHops text opt.jump addr
  | _ => True

theorem hopsOf_afterSetUp (text : Libp2pText) (opt : DialOpt) :
    HopsOf text opt (DialTask.afterSetUp text opt) := by
  unfold DialTask.afterSetUp
  split
  · split
    · rename_i addr htarget
      exact ⟨addr, htarget, rfl⟩
    · trivial
    · trivial
  · split
    · split <;> trivial
    · trivial
    · split
      · trivial
      · split <;> trivial

theorem hopsOf_step {text : Libp2pText} {opt : DialOpt} {task next : DialTask}
    {event : DialEvent} (hinv : HopsOf text opt task)
    (h : task.resume text opt event = some next) : HopsOf text opt next := by
  cases DialTask.move_of_resume h with
  | setUp => exact hopsOf_afterSetUp text opt
  | jumpConnected hpeer => exact hinv
  | jumpOpened => exact hinv
  | jumpOk => cases parseDialMode opt <;> trivial
  | accepted => cases parseDialMode opt <;> trivial
  | _ => trivial

/-- The chain that a dialer writes: its jump addresses but the first, and its target. -/
theorem hops_of_reaches {text : Libp2pText} {opt : DialOpt} {events : List DialEvent}
    {hops : List String}
    (hrun : (DialTask.machine text opt).Reaches events (.writingChain hops)) :
    ∃ addr, opt.target = .relayCircuit addr ∧ hops = DialTask.jumpHops text opt.jump addr := by
  have hstart : HopsOf text opt (DialTask.machine text opt).start := trivial
  exact Machine.invariant (HopsOf text opt) hstart (fun hinv hstep => hopsOf_step hinv hstep) hrun

/-! ## What is admitted and what is read -/

/-- Each of the places that a target or a hop list comes from, with what of it the far side
reads. -/
structure TargetsReadable (text : Libp2pText) : Prop where
  /-- `-L`: the request in front of every connection. -/
  localForward : ∀ {s spec}, ForwardSpec.fromStr s = .ok spec →
    RequestAcceptedIff (.localForward spec.target) ((Postcard.utf8Bytes spec.target).length ≤ 65532)
  /-- `-R`: the request that binds the port. -/
  reverseForward : ∀ {s spec}, ForwardSpec.fromStr s = .ok spec → ∀ gatewayPorts,
    RequestAcceptedIff (.reverseForward spec.bindPort spec.target gatewayPorts)
      ((Postcard.u16.encode spec.bindPort).length + (Postcard.utf8Bytes spec.target).length ≤ 65531)
  /-- HTTP CONNECT: the request for what a client has asked for. -/
  httpConnect : ∀ {segments target}, Proxy.headOf segments = .ok target →
    RequestAcceptedIff (.localForward target) ((Postcard.utf8Bytes target).length ≤ 65532)
  /-- `--jump`: the chain of a run. -/
  jump : ∀ {opt events hops}, (DialTask.machine text opt).Reaches events (.writingChain hops) →
    (∃ addr, opt.target = .relayCircuit addr ∧ hops = DialTask.jumpHops text opt.jump addr) ∧
      AcceptedIff writeJumpChain readJumpChain JumpChain.frame.tooLarge ⟨hops⟩
        ((JumpChain.postcard.encode ⟨hops⟩).length ≤ 65536)

/-- What is admitted on the sending side is read on the receiving side exactly up to the
bound of the reader. -/
theorem targets_readable (text : Libp2pText) : TargetsReadable text where
  localForward _ := localForward_acceptedIff _
  reverseForward _ gatewayPorts := reverseForward_acceptedIff _ _ gatewayPorts
  httpConnect _ := localForward_acceptedIff _
  jump hrun := ⟨hops_of_reaches hrun, jumpChain_acceptedIff _⟩

/-- The target of `8080:a:1` is read. -/
theorem targets_readable_short :
    ForwardSpec.fromStr "8080:a:1" = .ok ⟨8080, "a:1"⟩ ∧
      readTunnelRequest [0, 0, 0, 5, 1, 3, 97, 58, 49, 7] = (.ok (.localForward "a:1"), [7]) := by
  have hspec : ForwardSpec.fromStr "8080:a:1" = .ok ⟨8080, "a:1"⟩ := by decide
  have hread := (targets_readable (.ofTable [])).localForward hspec
    [0, 0, 0, 5, 1, 3, 97, 58, 49] (by decide) [7]
  exact ⟨hspec, hread.1 (by decide)⟩

/-! ## A target that is not read -/

theorem length_utf8Bytes_append (s t : String) :
    (Postcard.utf8Bytes (s ++ t)).length =
      (Postcard.utf8Bytes s).length + (Postcard.utf8Bytes t).length := by
  unfold Postcard.utf8Bytes
  rw [String.toByteArray_append, ByteArray.data_append, Array.toList_append, List.length_append]

/-- As many `a`s in front of a text are as many bytes. -/
theorem length_utf8Bytes_replicate (n : Nat) (cs : List Char) :
    (Postcard.utf8Bytes (String.ofList (List.replicate n 'a' ++ cs))).length =
      n + (Postcard.utf8Bytes (String.ofList cs)).length := by
  have hone : (Postcard.utf8Bytes (String.ofList ['a'])).length = 1 := by decide
  induction n with
  | zero => simp
  | succ n ih =>
      rw [List.replicate_succ, List.cons_append, ← List.singleton_append, String.ofList_append,
        length_utf8Bytes_append, ih, hone]
      omega

/-- A host of `n` characters, and a port. -/
def hostOf (n : Nat) : String := String.ofList (List.replicate n 'a' ++ [':', '1'])

/-- The spec that forwards port 1 to a host of `n` characters. -/
def specOf (n : Nat) : String := String.ofList ('1' :: ':' :: (hostOf n).toList)

theorem length_hostOf (n : Nat) : (Postcard.utf8Bytes (hostOf n)).length = n + 2 :=
  length_utf8Bytes_replicate n [':', '1']

theorem fromStr_specOf (n : Nat) : ForwardSpec.fromStr (specOf n) = .ok ⟨1, hostOf n⟩ := by
  have hport : parseU16 "1" = some 1 := by decide
  refine fromStr_eq_ok.mpr ⟨"1", ?_, hport, ?_⟩
  · rw [specOf, String.toList_ofList]
    rfl
  · rw [hostOf, String.toList_ofList]
    exact List.mem_append_right _ List.mem_cons_self

/-- A request for a long host is written, up to the bound of the writer. -/
theorem write_hostOf {n : Nat} (hn : n < 2 ^ 31) :
    ∃ written, writeTunnelRequest (.localForward (hostOf n)) = .ok written := by
  have hgroups : (Postcard.varintUsize.encode (n + 2)).length ≤ 5 :=
    Varint.length_encodeGroups_mono 9 (show n + 2 ≤ 2 ^ 31 + 2 by omega)
  refine ⟨_, TunnelRequest.frame.write_of_lt ?_⟩
  show (TunnelRequest.postcard.encode (.localForward (hostOf n))).length < 2 ^ 32
  rw [TunnelRequest.encode_localForward, List.length_cons, Postcard.length_string_encode,
    length_hostOf]
  omega

/-- With a host of 65536 characters, the spec is accepted, its request is written, and the
far side refuses it. -/
theorem longHost_refused :
    ForwardSpec.fromStr (specOf 65536) = .ok ⟨1, hostOf 65536⟩ ∧
      ∃ written, writeTunnelRequest (.localForward (hostOf 65536)) = .ok written ∧
        ∀ following, ∃ len, readTunnelRequest (written ++ following) =
          (.error (TunnelRequest.frame.tooLarge len), (written ++ following).drop 4) := by
  obtain ⟨written, hwrite⟩ := write_hostOf (show 65536 < 2 ^ 31 by decide)
  have hlong : ¬ (Postcard.utf8Bytes (hostOf 65536)).length ≤ 65532 := by
    rw [length_hostOf]
    decide
  exact ⟨fromStr_specOf 65536, written, hwrite, fun following =>
    (localForward_acceptedIff (hostOf 65536) written hwrite following).2 hlong⟩

end Sape
