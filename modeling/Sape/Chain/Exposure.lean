/-
  Chain/Exposure.lean --- what the relays of an established chain see.

  Encryption is hop by hop: a libp2p stream is secured between its two ends, and each
  relay of a jump chain is an end of two of them.  What a relay's code reads and
  writes there is plaintext.  A guarantee of end-to-end secrecy is a statement about
  two runs: runs that differ only in the payload look the same to every relay.

  WHAT IS PROVED.

      hidesPayload_iff    a bridging relay sees the same in all such runs only as long
                          as it has not taken a payload byte off a stream
-/
import Sape.Chain.Lockstep

set_option autoImplicit false

namespace Sape.Chain

open Sape.Foundation

/-- What the code of a relay has read from and written to its two streams. -/
structure View where
  fromAbove : Bytes
  toAbove : Bytes
  toBelow : Bytes
  fromBelow : Bytes
  deriving DecidableEq, Repr

/-- The view of the relay at place `i`. -/
def Net.view (net : Net) (i : Nat) : View where
  fromAbove := (net.link i).down.sent.take (net.link i).down.taken
  toAbove := (net.link i).up.sent
  toBelow := (net.link (i + 1)).down.sent
  fromBelow := (net.link (i + 1)).up.sent.take (net.link (i + 1)).up.taken

/-- The relay at place `i` sees the same whatever the payload of the run is. -/
def HidesPayload (setup : Setup) (labels : List Net.Label) (i : Nat) : Prop :=
  ∀ fromDialer fromListener net other,
    fromDialer.length = setup.fromDialer.length →
    fromListener.length = setup.fromListener.length →
    (machine setup).Reaches labels net →
    (machine (setup.withPayload fromDialer fromListener)).Reaches labels other →
    other.view i = net.view i

/-- The relay at place `i` has taken a payload byte off one of its streams: it has read
on behind the frames of the jump and of the tunnel request. -/
def ReadsPayload (setup : Setup) (net : Net) (i : Nat) : Prop :=
  (headDown setup i).length + netcatFrame.length < (net.link i).down.taken ∨
    (headUp setup (i + 1)).length < (net.link (i + 1)).up.taken

instance (setup : Setup) (net : Net) (i : Nat) : Decidable (ReadsPayload setup net i) :=
  inferInstanceAs (Decidable (_ ∨ _))

/-! ## A view, as a function of the payload and of counts -/

/-- What a bridging relay sees. -/
structure Seen (setup : Setup) (net : Net) (i : Nat) : Prop where
  fromAbove : (net.view i).fromAbove =
    (headDown setup i ++ tunnelDown setup).take (net.link i).down.taken
  toBelow : (net.view i).toBelow = (headDown setup (i + 1) ++ (tunnelDown setup).take
    ((net.link i).down.taken - (headDown setup i).length)).take (net.view i).toBelow.length
  fromBelow : (net.view i).fromBelow =
    (headUp setup (i + 1) ++ setup.fromListener).take (net.link (i + 1)).up.taken
  toAbove : (net.view i).toAbove = (headUp setup i ++ setup.fromListener.take
    ((net.link (i + 1)).up.taken - (headUp setup (i + 1)).length)).take (net.view i).toAbove.length
  takenDown : (net.link i).down.taken ≤ (headDown setup i ++ tunnelDown setup).length
  takenUp : (net.link (i + 1)).up.taken ≤ (headUp setup (i + 1) ++ setup.fromListener).length

/-- Below a bridging relay, the next one has reported `Ok`. -/
theorem Bridged.reported {setup : Setup} {net : Net} {i : Nat} {relay : RelayNode}
    (h : Bridged setup net i relay) (hlt : i + 1 < setup.hops.length) : Reported net (i + 1) := by
  obtain ⟨moved, hmoved, -⟩ := h.up
  rw [headUp_of_place (.inr hlt)] at hmoved
  exact ⟨_, writeJumpResult_ok, (List.prefix_append _ moved).trans hmoved⟩

theorem Bridged.seen {setup : Setup} {net : Net} {i : Nat} {relay : RelayNode}
    (h : Bridged setup net i relay) (hflow : Flow setup net) : Seen setup net i := by
  have hdown := hflow.down i
  have hup := hflow.up (i + 1) fun hplace => h.reported (by omega)
  obtain ⟨hfromAbove, htakenDown⟩ := h.down.take_sent hdown
  obtain ⟨hfromBelow, htakenUp⟩ := h.up.take_sent hup
  exact ⟨hfromAbove, h.down.written_eq hdown, hfromBelow, h.up.written_eq hup, htakenDown,
    htakenUp⟩

/-- A relay that copies, or has done so. -/
def HasBridged (relay : RelayNode) : Prop :=
  relay.task = .bridging ∨ relay.task = .ended (.ok ())

theorem Flow.bridged {setup : Setup} {net : Net} {i : Nat} {relay : RelayNode}
    (hflow : Flow setup net) (hnode : net.node i = .relay relay) (h : HasBridged relay) :
    Bridged setup net i relay := by
  have htask := hflow.task hnode
  unfold TaskFlow at htask
  obtain heq | heq := h <;> rw [heq] at htask
  · exact htask
  · exact htask

/-! ## Another payload -/

/-- A byte other than the given one. -/
def otherByte (byte : UInt8) : UInt8 := if byte = 0 then 1 else 0

theorem otherByte_ne (byte : UInt8) : otherByte byte ≠ byte := by
  unfold otherByte
  split
  · rename_i hzero
    rw [hzero]
    decide
  · rename_i hne
    exact fun heq => hne heq.symm

/-- A nonempty beginning changes with its bytes. -/
theorem take_map_otherByte {payload : Bytes} {count : Nat} (hcount : 0 < count)
    (hpayload : 0 < payload.length) : (payload.map otherByte).take count ≠ payload.take count := by
  obtain ⟨count, rfl⟩ := Nat.exists_eq_succ_of_ne_zero (Nat.pos_iff_ne_zero.mp hcount)
  cases payload with
  | nil => cases hpayload
  | cons byte rest =>
      intro heq
      simp only [List.map_cons, List.take_succ_cons, List.cons.injEq] at heq
      exact otherByte_ne byte heq.1

/-- A beginning that reaches behind the head tells two payloads apart. -/
theorem take_append_otherByte (head payload : Bytes) {count : Nat}
    (hcount : head.length < count) (hfits : count ≤ (head ++ payload).length) :
    (head ++ payload.map otherByte).take count ≠ (head ++ payload).take count := by
  intro heq
  rw [List.take_append, List.take_append] at heq
  rw [List.length_append] at hfits
  exact take_map_otherByte (by omega) (by omega) (List.append_cancel_left heq)

theorem take_append_of_le (head payload other : Bytes) {count : Nat}
    (hcount : count ≤ head.length) :
    (head ++ other).take count = (head ++ payload).take count := by
  rw [List.take_append_of_le_length hcount, List.take_append_of_le_length hcount]

/-! ## What relays see -/

/-- In every run, a relay that bridges, or has bridged, hides the payload exactly as
long as it has not taken a byte of it off a stream. -/
theorem hidesPayload_iff {setup : Setup} {labels : List Net.Label} {net : Net} {i : Nat}
    {relay : RelayNode} (hrun : (machine setup).Reaches labels net)
    (hnode : net.node i = .relay relay) (hbridged : HasBridged relay) :
    HidesPayload setup labels i ↔ ¬ ReadsPayload setup net i := by
  have hseen := ((flow_of_reaches hrun).bridged hnode hbridged).seen (flow_of_reaches hrun)
  -- the same relay, in a run around another payload
  have hother : ∀ fromDialer fromListener : Bytes,
      fromDialer.length = setup.fromDialer.length →
      fromListener.length = setup.fromListener.length →
      ∃ other, (machine (setup.withPayload fromDialer fromListener)).Reaches labels other ∧
        NetAlike setup net other ∧ Seen (setup.withPayload fromDialer fromListener) other i := by
    intro fromDialer fromListener hdialer hlistener
    obtain ⟨other, hrun', halike⟩ := alike_of_reaches hdialer hlistener hrun
    obtain ⟨downBuf, upBuf, hnode', -, -⟩ := halike.relay hnode
    exact ⟨other, hrun', halike,
      ((flow_of_reaches hrun').bridged hnode' hbridged).seen (flow_of_reaches hrun')⟩
  constructor
  · rintro hhides (hdown | hup)
    · obtain ⟨other, hrun', halike, hseen'⟩ :=
        hother (setup.fromDialer.map otherByte) setup.fromListener (List.length_map _) rfl
      have hview := congrArg View.fromAbove
        (hhides _ _ net other (List.length_map _) rfl hrun hrun')
      rw [hseen'.fromAbove, hseen.fromAbove, (halike.down i).taken] at hview
      have hfits := hseen.takenDown
      have hne := take_append_otherByte (headDown setup i ++ netcatFrame) setup.fromDialer
        (by rwa [List.length_append]) (by rwa [List.append_assoc])
      rw [List.append_assoc, List.append_assoc] at hne
      exact hne hview
    · obtain ⟨other, hrun', halike, hseen'⟩ :=
        hother setup.fromDialer (setup.fromListener.map otherByte) rfl (List.length_map _)
      have hview := congrArg View.fromBelow
        (hhides _ _ net other rfl (List.length_map _) hrun hrun')
      rw [hseen'.fromBelow, hseen.fromBelow, (halike.up (i + 1)).taken] at hview
      exact take_append_otherByte _ _ hup hseen.takenUp hview
  · intro hnot fromDialer fromListener net' other hdialer hlistener hrun' hrunOther
    obtain rfl : net = net' := Option.some.inj (hrun.symm.trans hrun')
    obtain ⟨other', hrunOther', halike, hseen'⟩ :=
      hother fromDialer fromListener hdialer hlistener
    obtain rfl : other = other' := Option.some.inj (hrunOther.symm.trans hrunOther')
    obtain ⟨hdown, hup⟩ := not_or.mp hnot
    rw [Nat.not_lt] at hdown hup
    have hdown' : (net.link i).down.taken - (headDown setup i).length ≤ netcatFrame.length := by
      omega
    have hup' : (net.link (i + 1)).up.taken - (headUp setup (i + 1)).length = 0 := by omega
    have hfromAbove : (other.view i).fromAbove = (net.view i).fromAbove := by
      rw [hseen'.fromAbove, hseen.fromAbove, (halike.down i).taken]
      have hcount : (net.link i).down.taken ≤ (headDown setup i ++ netcatFrame).length := by
        rwa [List.length_append]
      have hsame := take_append_of_le _ setup.fromDialer fromDialer hcount
      rwa [List.append_assoc, List.append_assoc] at hsame
    have hfromBelow : (other.view i).fromBelow = (net.view i).fromBelow := by
      rw [hseen'.fromBelow, hseen.fromBelow, (halike.up (i + 1)).taken]
      exact take_append_of_le (headUp setup (i + 1)) setup.fromListener fromListener hup
    have htoBelow : (other.view i).toBelow = (net.view i).toBelow := by
      refine hseen'.toBelow.trans (Eq.trans ?_ hseen.toBelow.symm)
      have hlen : (other.view i).toBelow.length = (net.view i).toBelow.length :=
        (halike.down (i + 1)).length
      have hsame := take_append_of_le netcatFrame setup.fromDialer fromDialer hdown'
      rw [hlen, (halike.down i).taken]
      exact congrArg (fun moved => (headDown setup (i + 1) ++ moved).take _) hsame
    have htoAbove : (other.view i).toAbove = (net.view i).toAbove := by
      refine hseen'.toAbove.trans (Eq.trans ?_ hseen.toAbove.symm)
      have hlen : (other.view i).toAbove.length = (net.view i).toAbove.length :=
        (halike.up i).length
      have hzero : (net.link (i + 1)).up.taken -
          (headUp (setup.withPayload fromDialer fromListener) (i + 1)).length = 0 := hup'
      rw [hlen, (halike.up (i + 1)).taken, hzero, hup', List.take_zero, List.take_zero]
      rfl
    calc other.view i
        = ⟨(other.view i).fromAbove, (other.view i).toAbove, (other.view i).toBelow,
            (other.view i).fromBelow⟩ := rfl
      _ = net.view i := by rw [hfromAbove, htoAbove, htoBelow, hfromBelow]

/-- One relay in front of the listener, and one byte of payload. -/
def oneByte : Setup where
  text := .ofTable [("listener", [.tcp 1, .p2p ⟨[9]⟩])]
  nspace := "sape"
  opt := { target := .mdns ⟨[9]⟩ }
  dialerPeer := ⟨[0]⟩
  firstPeer := ⟨[1]⟩
  hops := ["listener"]
  fromDialer := [7]

/-- The chain is established and the tunnel request written. -/
def oneByteEstablished : List Net.Label :=
  [.dialer .proceed, .dialer .proceed] ++ List.replicate 4 (.relay 0 .proceed) ++
    [.dialer .proceed, .dialer .proceed]

/-- The relay of `oneByte`, copying. -/
def oneByteRelay : RelayNode where
  self := ⟨[1]⟩
  peer := ⟨[0]⟩
  task := .bridging
  received := some ⟨["listener"]⟩
  opened := some (⟨[9]⟩, tunnelProtocol "sape")

theorem hidesPayload_iff_oneByte : HidesPayload oneByte oneByteEstablished 0 := by
  obtain ⟨net, hrun, htest⟩ := Machine.exists_reaches_of_any (by decide :
    ((machine oneByte).exec (machine oneByte).start oneByteEstablished).any
      (fun net => decide (net.node 0 = .relay oneByteRelay ∧ ¬ ReadsPayload oneByte net 0)) = true)
  obtain ⟨hnode, hnot⟩ := of_decide_eq_true htest
  exact (hidesPayload_iff hrun hnode (.inl rfl)).mpr hnot

/-- The one byte, typed by the dialer's user, reaches the relay's copy loop: in the run
around another byte the relay reads another byte. -/
theorem oneByte_exposed :
    ∃ net, (machine oneByte).Reaches
      (oneByteEstablished ++ [.stdin 1, .copy 0 (.readDown 6)]) net ∧
      net.answer = some (.ok .ok) ∧
      ¬ HidesPayload oneByte (oneByteEstablished ++ [.stdin 1, .copy 0 (.readDown 6)]) 0 := by
  obtain ⟨net, hrun, htest⟩ := Machine.exists_reaches_of_any (by decide :
    ((machine oneByte).exec (machine oneByte).start
      (oneByteEstablished ++ [.stdin 1, .copy 0 (.readDown 6)])).any
      (fun net => decide (net.answer = some (.ok .ok) ∧
        (net.view 0).fromAbove.getLast? = some 7)) = true)
  obtain ⟨other, hrun', htest'⟩ := Machine.exists_reaches_of_any (by decide :
    ((machine (oneByte.withPayload [8] [])).exec (machine (oneByte.withPayload [8] [])).start
      (oneByteEstablished ++ [.stdin 1, .copy 0 (.readDown 6)])).any
      (fun net => decide ((net.view 0).fromAbove.getLast? = some 8)) = true)
  obtain ⟨hanswer, hseven⟩ := of_decide_eq_true htest
  refine ⟨net, hrun, hanswer, fun hhides => ?_⟩
  have hview := hhides [8] [] net other rfl rfl hrun hrun'
  have height := of_decide_eq_true htest'
  rw [hview, hseven] at height
  cases height

end Sape.Chain
