/-
  Forward/Ack.lean --- the ack of a reverse forward as `request_reverse_forward` of
  `src/forward/reverse.rs` reads it: a status byte, and behind one that is not
  `REVERSE_OK` a big-endian `u16` length and as many bytes of text.

  The listener may end its stream anywhere in the ack that it writes
  (`Forward/Reverse.lean`), so what is there to be read is some front of it.

  WHAT IS PROVED.

      readReverseAck_spec     a whole ack is read back, and any other front ends in `eof`
      reverseAck_exact        what a run of `request_reverse_forward` returns
-/
import Sape.Forward.Reverse
import Sape.Foundation.Machine

set_option autoImplicit false

namespace Sape

open Sape.Foundation

/-! ## Lossy text -/

/-- The bounds of the bytes that go on with a UTF-8 sequence, by its first byte. -/
def utf8Bounds (lead : UInt8) : Option (List (UInt8 × UInt8)) :=
  let tail : UInt8 × UInt8 := (0x80, 0xbf)
  if lead < 0x80 then some []
  else if 0xc2 ≤ lead && lead ≤ 0xdf then some [tail]
  else if lead = 0xe0 then some [(0xa0, 0xbf), tail]
  else if lead = 0xed then some [(0x80, 0x9f), tail]
  else if 0xe1 ≤ lead && lead ≤ 0xef then some [tail, tail]
  else if lead = 0xf0 then some [(0x90, 0xbf), tail, tail]
  else if 0xf1 ≤ lead && lead ≤ 0xf3 then some [tail, tail, tail]
  else if lead = 0xf4 then some [(0x80, 0x8f), tail, tail]
  else none

/-- How many bytes go on with the sequence. -/
def utf8Matched : List (UInt8 × UInt8) → Bytes → Nat
  | (low, high) :: bounds, b :: bs =>
      if low ≤ b && b ≤ high then utf8Matched bounds bs + 1 else 0
  | _, _ => 0

/-- The characters of a text; a sequence that is broken off is one U+FFFD.  The first
`skip` bytes belong to the sequence in front. -/
def lossyChars : Nat → Bytes → List Char
  | _, [] => []
  | skip + 1, _ :: bs => lossyChars skip bs
  | 0, b :: bs =>
      match utf8Bounds b with
      | none => '\uFFFD' :: lossyChars 0 bs
      | some bounds =>
          let count := utf8Matched bounds bs
          if count = bounds.length then
            ((Postcard.fromUtf8 (b :: bs.take count)).getD "\uFFFD").toList ++ lossyChars count bs
          else '\uFFFD' :: lossyChars count bs

/-- `String::from_utf8_lossy`. -/
def fromUtf8Lossy (bytes : Bytes) : String :=
  match Postcard.fromUtf8 bytes with
  | some s => s
  | none => String.ofList (lossyChars 0 bytes)

@[simp] theorem fromUtf8Lossy_utf8Bytes (s : String) :
    fromUtf8Lossy (Postcard.utf8Bytes s) = s := by
  rw [fromUtf8Lossy, Postcard.fromUtf8_utf8Bytes]

/-! ## Reading an ack -/

/-- The reads of `request_reverse_forward`: whether the listener has bound the port, or the
reason why not. -/
def readReverseAck (stream : Bytes) : Except IoError (Except String Unit) × Bytes :=
  match readExact .unexpectedEof 1 stream with
  | (.error err, stream) => (.error err, stream)
  | (.ok ack, stream) =>
      if ack = [reverseOk] then (.ok (.ok ()), stream)
      else
        match readExact .unexpectedEof 2 stream with
        | (.error err, stream) => (.error err, stream)
        | (.ok lenBuf, stream) =>
            match readExact .unexpectedEof (fromBeBytes lenBuf) stream with
            | (.error err, stream) => (.error err, stream)
            | (.ok reasonBuf, stream) => (.ok (.error (fromUtf8Lossy reasonBuf)), stream)

@[simp] theorem length_toBeBytes16 (n : Nat) : (toBeBytes16 n).length = 2 := rfl

theorem fromBeBytes_toBeBytes16 {n : Nat} (hn : n < 2 ^ 16) :
    fromBeBytes (toBeBytes16 n) = n := by
  simp only [fromBeBytes, toBeBytes16, List.foldl_cons, List.foldl_nil, UInt8.toNat_ofNat']
  omega

/-- What is written for a refusal. -/
theorem sendReverseAck_short {reason : String}
    (hlen : (Postcard.utf8Bytes reason).length < 2 ^ 16) :
    sendReverseAck (.error reason) =
      (reverseFailed ::
        (toBeBytes16 (Postcard.utf8Bytes reason).length ++ Postcard.utf8Bytes reason), .ok ()) :=
  if_pos hlen

/-- A reason that is too long stops the ack behind its status byte. -/
theorem sendReverseAck_long {reason : String}
    (hlen : ¬ (Postcard.utf8Bytes reason).length < 2 ^ 16) :
    sendReverseAck (.error reason) =
      ([reverseFailed], .error (.invalidData "reverse error too long")) :=
  if_neg hlen

/-- Behind the status byte of a refusal, its reason is read as far as it is there. -/
theorem readReverseAck_failed (stream : Bytes) :
    readReverseAck (reverseFailed :: stream) =
      match readExact .unexpectedEof 2 stream with
      | (.error err, stream) => (.error err, stream)
      | (.ok lenBuf, stream) =>
          match readExact .unexpectedEof (fromBeBytes lenBuf) stream with
          | (.error err, stream) => (.error err, stream)
          | (.ok reasonBuf, stream) => (.ok (.error (fromUtf8Lossy reasonBuf)), stream) := by
  have hread : readExact IoError.unexpectedEof 1 (reverseFailed :: stream) =
      (.ok [reverseFailed], stream) := readExact_append _ [reverseFailed] stream
  have hne : [reverseFailed] ≠ [reverseOk] := by decide
  unfold readReverseAck
  simp only [hread, if_neg hne]

/-- A refusal is read back; one that is cut short ends in `eof`. -/
theorem readReverseAck_reason {reason delivered : Bytes} (hlen : reason.length < 2 ^ 16)
    (h : delivered <+: toBeBytes16 reason.length ++ reason) :
    readReverseAck (reverseFailed :: delivered) =
      if delivered = toBeBytes16 reason.length ++ reason then
        (.ok (.error (fromUtf8Lossy reason)), [])
      else (.error .unexpectedEof, []) := by
  rw [readReverseAck_failed]
  by_cases hshort : delivered.length < 2
  · rw [readExact_short _ hshort, if_neg]
    rintro rfl
    rw [List.length_append, length_toBeBytes16] at hshort
    omega
  · obtain ⟨cut, rfl⟩ : toBeBytes16 reason.length <+: delivered :=
      List.prefix_of_prefix_length_le (List.prefix_append _ _) h
        (by rw [length_toBeBytes16]; omega)
    have hcut := (List.prefix_append_right_inj _).mp h
    have hread : readExact IoError.unexpectedEof 2 (toBeBytes16 reason.length ++ cut) =
        (.ok (toBeBytes16 reason.length), cut) := readExact_append _ (toBeBytes16 _) cut
    simp only [hread, fromBeBytes_toBeBytes16 hlen, List.append_cancel_left_eq]
    by_cases hwhole : cut = reason
    · subst hwhole
      have hreason := readExact_append IoError.unexpectedEof cut []
      rw [List.append_nil] at hreason
      simp only [hreason, if_true]
    · have hlt : cut.length < reason.length := by
        refine Nat.lt_of_le_of_ne hcut.length_le fun heq => hwhole ?_
        exact hcut.eq_of_length heq
      simp only [readExact_short IoError.unexpectedEof hlt, if_neg hwhole]

/-- A whole ack is read back, and nothing behind it; any other front of one ends in `eof`. -/
theorem readReverseAck_spec {result : Except String Unit} {delivered : Bytes}
    (h : delivered <+: (sendReverseAck result).1) :
    readReverseAck delivered =
      if (sendReverseAck result).2 = .ok () ∧ delivered = (sendReverseAck result).1 then
        (.ok result, [])
      else (.error .unexpectedEof, []) := by
  cases delivered with
  | nil =>
      have hne : ¬ ([] : Bytes) = (sendReverseAck result).1 := by
        intro heq
        have hhead := sendReverseAck_head result
        rw [← heq] at hhead
        cases hhead
      rw [if_neg (fun hwhole => hne hwhole.2)]
      rfl
  | cons status delivered =>
      cases result with
      | ok done =>
          obtain ⟨rfl, hdelivered⟩ := List.cons_prefix_cons.mp h
          rw [List.prefix_nil.mp hdelivered]
          rfl
      | error reason =>
          by_cases hlen : (Postcard.utf8Bytes reason).length < 2 ^ 16
          · rw [sendReverseAck_short hlen] at h
            obtain ⟨rfl, hdelivered⟩ := List.cons_prefix_cons.mp h
            rw [readReverseAck_reason hlen hdelivered]
            simp [sendReverseAck_short hlen]
          · rw [sendReverseAck_long hlen] at h
            obtain ⟨rfl, hdelivered⟩ := List.cons_prefix_cons.mp h
            rw [List.prefix_nil.mp hdelivered]
            simp only [sendReverseAck_long hlen, reduceCtorEq, false_and, if_false]
            rfl

/-! ## What the request returns -/

namespace RequestTask

/-- The machine of a request for a reverse port. -/
def machine : Machine RequestTask RequestEvent where
  start := .opening
  step := resume

/-- A request that has returned takes no more events. -/
theorem exec_ended {result : Except Report Unit} {events : List RequestEvent}
    {task : RequestTask} (h : machine.exec (.ended result) events = some task) :
    events = [] ∧ task = .ended result := by
  cases events with
  | nil => exact ⟨rfl, (Option.some.inj h).symm⟩
  | cons event events =>
      obtain ⟨next, hstep, -⟩ := Machine.exec_cons h
      cases hstep

/-- The ack that it waits for is the last event. -/
theorem exec_readingAck {events : List RequestEvent} {outcome : Except Report Unit}
    (h : machine.exec .readingAck events = some (.ended outcome)) :
    ∃ read, events = [.ackRead read] ∧
      resume .readingAck (.ackRead read) = some (.ended outcome) := by
  cases events with
  | nil => cases h
  | cons event events =>
      obtain ⟨next, hstep, hrest⟩ := Machine.exec_cons h
      cases event with
      | streamOpened result => cases hstep
      | requestWritten result => cases hstep
      | ackRead read =>
          have hended : ∃ result, next = .ended result := by
            rcases read with err | reason | done <;> exact ⟨_, (Option.some.inj hstep).symm⟩
          obtain ⟨result, rfl⟩ := hended
          obtain ⟨rfl, hnext⟩ := exec_ended hrest
          exact ⟨read, rfl, hnext ▸ hstep⟩

theorem exec_writing {events : List RequestEvent} {outcome : Except Report Unit}
    (h : machine.exec .writing events = some (.ended outcome)) :
    (∃ err, events = [.requestWritten (.error err)] ∧ ∃ report, outcome = .error report) ∨
      ∃ rest, events = .requestWritten (.ok ()) :: rest ∧
        machine.exec .readingAck rest = some (.ended outcome) := by
  cases events with
  | nil => cases h
  | cons event events =>
      obtain ⟨next, hstep, hrest⟩ := Machine.exec_cons h
      cases event with
      | streamOpened result => cases hstep
      | ackRead read => cases hstep
      | requestWritten result =>
          cases result with
          | error err =>
              obtain rfl := Option.some.inj hstep
              obtain ⟨rfl, hnext⟩ := exec_ended hrest
              cases hnext
              exact .inl ⟨err, rfl, _, rfl⟩
          | ok done =>
              obtain rfl := Option.some.inj hstep
              exact .inr ⟨events, rfl, hrest⟩

/-- A request returns an error before it has an ack to read, or what it makes of the ack. -/
theorem ended_of_reaches {events : List RequestEvent} {outcome : Except Report Unit}
    (h : machine.Reaches events (.ended outcome)) :
    ((∃ report, outcome = .error report) ∧ ∀ read, .ackRead read ∉ events) ∨
      ∃ read, .ackRead read ∈ events ∧
        resume .readingAck (.ackRead read) = some (.ended outcome) := by
  cases events with
  | nil => cases h
  | cons event events =>
      obtain ⟨next, hstep, hrest⟩ := Machine.exec_cons h
      cases event with
      | requestWritten result => cases hstep
      | ackRead read => cases hstep
      | streamOpened result =>
          cases result with
          | error err =>
              obtain rfl := Option.some.inj hstep
              obtain ⟨rfl, hnext⟩ := exec_ended hrest
              cases hnext
              exact .inl ⟨⟨_, rfl⟩, by simp⟩
          | ok done =>
              obtain rfl := Option.some.inj hstep
              rcases exec_writing hrest with ⟨err, rfl, herror⟩ | ⟨rest, rfl, hread⟩
              · exact .inl ⟨herror, by simp⟩
              · obtain ⟨read, rfl, hack⟩ := exec_readingAck hread
                exact .inr ⟨read, by simp, hack⟩

end RequestTask

/-- A run of the request that has returned, with this much of an ack to read. -/
structure AckRun (delivered : Bytes) (events : List RequestEvent) (outcome : Except Report Unit) :
    Prop where
  reaches : RequestTask.machine.Reaches events (.ended outcome)
  ack : ∀ read, .ackRead read ∈ events → read = (readReverseAck delivered).1

theorem AckRun.cases {delivered : Bytes} {events : List RequestEvent}
    {outcome : Except Report Unit} (h : AckRun delivered events outcome) :
    ((∃ report, outcome = .error report) ∧ ∀ read, .ackRead read ∉ events) ∨
      RequestTask.readingAck.resume (.ackRead (readReverseAck delivered).1) =
        some (.ended outcome) := by
  rcases RequestTask.ended_of_reaches h.reaches with hearly | ⟨read, hmem, hresume⟩
  · exact .inl hearly
  · rw [h.ack read hmem] at hresume
    exact .inr hresume

/-- The ack is not misread. -/
structure AckExact (result : Except String Unit) (delivered : Bytes) : Prop where
  /-- However much of the ack there is, a request that has been written returns. -/
  returns : ∃ outcome, AckRun delivered
    [.streamOpened (.ok ()), .requestWritten (.ok ()), .ackRead (readReverseAck delivered).1]
    outcome
  /-- It succeeds only if the listener has bound the port and said so. -/
  accepted : ∀ {events outcome}, AckRun delivered events outcome → outcome = .ok () →
    result = .ok () ∧ delivered = [reverseOk]
  /-- A whole refusal is reported with its reason, and read to its end. -/
  refused : ∀ {events outcome reason}, AckRun delivered events outcome →
    result = .error reason → (Postcard.utf8Bytes reason).length ≤ 65535 →
    delivered = (sendReverseAck result).1 → (∃ read, .ackRead read ∈ events) →
    outcome = .error (.msg s!"reverse forward rejected by listener: {reason}") ∧
      (readReverseAck delivered).2 = []
  /-- An ack that is cut short, or was not written to its end, is an error. -/
  cut : ∀ {events outcome}, AckRun delivered events outcome →
    delivered ≠ (sendReverseAck result).1 ∨ (sendReverseAck result).2 ≠ .ok () →
    ∃ report, outcome = .error report

/-- Whatever the result that is sent, and wherever its ack is cut. -/
theorem reverseAck_exact {result : Except String Unit} {delivered : Bytes}
    (h : delivered <+: (sendReverseAck result).1) : AckExact result delivered := by
  have hspec := readReverseAck_spec h
  by_cases hwhole : (sendReverseAck result).2 = .ok () ∧ delivered = (sendReverseAck result).1
  · rw [if_pos hwhole] at hspec
    refine ⟨?_, ?_, ?_, ?_⟩
    · rw [hspec]
      cases result with
      | ok done => exact ⟨.ok (), rfl, by simp [hspec]⟩
      | error reason => exact ⟨_, rfl, by simp [hspec]⟩
    · rintro events outcome hrun rfl
      rcases hrun.cases with ⟨⟨report, hreport⟩, -⟩ | hresume
      · cases hreport
      · rw [hspec] at hresume
        cases result with
        | error reason => cases hresume
        | ok done => exact ⟨rfl, hwhole.2⟩
    · rintro events outcome reason hrun rfl - - ⟨read, hmem⟩
      rcases hrun.cases with ⟨-, hnone⟩ | hresume
      · exact absurd hmem (hnone read)
      · rw [hspec] at hresume ⊢
        obtain rfl := RequestTask.ended.inj (Option.some.inj hresume)
        exact ⟨rfl, rfl⟩
    · rintro events outcome - (hnot | hnot)
      · exact absurd hwhole.2 hnot
      · exact absurd hwhole.1 hnot
  · rw [if_neg hwhole] at hspec
    have herror : ∀ {events outcome}, AckRun delivered events outcome →
        ∃ report, outcome = .error report := by
      intro events outcome hrun
      rcases hrun.cases with ⟨hreport, -⟩ | hresume
      · exact hreport
      · rw [hspec] at hresume
        exact ⟨_, (RequestTask.ended.inj (Option.some.inj hresume)).symm⟩
    refine ⟨⟨.error (.io .unexpectedEof), ?_, by simp⟩, ?_, ?_, fun hrun _ => herror hrun⟩
    · rw [hspec]
      rfl
    · rintro events outcome hrun rfl
      obtain ⟨report, hreport⟩ := herror hrun
      cases hreport
    · rintro events outcome reason hrun rfl hlen hdelivered -
      exact absurd ⟨(congrArg Prod.snd (sendReverseAck_short (by omega))), hdelivered⟩ hwhole

theorem reverseAck_exact_inUse :
    AckRun (sendReverseAck (.error "in use")).1
        [.streamOpened (.ok ()), .requestWritten (.ok ()),
          .ackRead (readReverseAck (sendReverseAck (.error "in use")).1).1]
        (.error (.msg "reverse forward rejected by listener: in use")) ∧
      (readReverseAck (sendReverseAck (.error "in use")).1).2 = [] := by
  have hexact := reverseAck_exact (List.prefix_refl (sendReverseAck (.error "in use")).1)
  obtain ⟨outcome, hrun⟩ := hexact.returns
  have hlen : (Postcard.utf8Bytes "in use").length ≤ 65535 := by decide
  obtain ⟨rfl, hleft⟩ := hexact.refused hrun rfl hlen rfl ⟨_, List.mem_cons_of_mem _
    (List.mem_cons_of_mem _ List.mem_cons_self)⟩
  exact ⟨hrun, hleft⟩

end Sape
