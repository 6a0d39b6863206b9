/-
  Stream.lean --- libp2p streams, and what the operations on them meet.

  A frame read completes only when the whole frame is there; until then it is not
  enabled, so a half-written frame is seen exactly as an await sees it.  A write
  may have put any part of its bytes on the stream before it fails.

  WHAT IS PROVED.

      readStep_ok        a value that was read stood at the front of what was unread
      readStep_sent      a read leaves what was sent as it is
      writeStep_cases    a write puts all, some or none of its bytes on the stream
-/
import Sape.Wire

set_option autoImplicit false

namespace Sape

open Sape.Foundation

/-! ## Pipes -/

/-- One direction of a stream: all that was written to it, and how much of that has
been read. -/
structure Pipe where
  sent : Bytes := []
  taken : Nat := 0
  deriving DecidableEq, Repr, Inhabited

namespace Pipe

/-- What is there to be read. -/
def unread (pipe : Pipe) : Bytes := pipe.sent.drop pipe.taken

/-- Write bytes. -/
def put (pipe : Pipe) (bytes : Bytes) : Pipe := { pipe with sent := pipe.sent ++ bytes }

/-- Read a number of bytes off. -/
def skip (pipe : Pipe) (count : Nat) : Pipe := { pipe with taken := pipe.taken + count }

/-- Read one frame, if all of it is there. -/
def readFrame {α : Type} (read : Bytes → Except IoError α × Bytes) (pipe : Pipe) :
    Option (Except IoError α × Pipe) :=
  match read pipe.unread with
  | (.error .unexpectedEof, _) => none
  | (result, rest) => some (result, { pipe with taken := pipe.sent.length - rest.length })

@[simp] theorem put_taken (pipe : Pipe) (bytes : Bytes) :
    (pipe.put bytes).taken = pipe.taken := rfl
@[simp] theorem put_sent (pipe : Pipe) (bytes : Bytes) :
    (pipe.put bytes).sent = pipe.sent ++ bytes := rfl
@[simp] theorem skip_sent (pipe : Pipe) (count : Nat) : (pipe.skip count).sent = pipe.sent := rfl
@[simp] theorem skip_taken (pipe : Pipe) (count : Nat) :
    (pipe.skip count).taken = pipe.taken + count := rfl

end Pipe

/-! ## What an operation meets -/

/-- What happens to an awaited operation. -/
inductive Outcome where
  /-- it completes -/
  | proceed
  /-- the other end of the stream has finished -/
  | eof
  /-- the stream breaks; a write has put `cut` bytes on it -/
  | broken (cut : Nat) (err : IoError)
  /-- the swarm refuses -/
  | refused (err : String)
  deriving DecidableEq, Repr, Inhabited

/-- A frame read on a pipe. -/
def readStep {α : Type} (read : Bytes → Except IoError α × Bytes) (pipe : Pipe)
    (writerGone : Bool) : Outcome → Option (Except IoError α × Pipe)
  | .proceed => pipe.readFrame read
  | .eof =>
      if writerGone && (pipe.readFrame read).isNone then some (.error .unexpectedEof, pipe)
      else none
  | .broken _ err => some (.error err, pipe)
  | .refused _ => none

/-- A frame write on a pipe. -/
def writeStep (written : Except IoError Bytes) (pipe : Pipe) :
    Outcome → Option (Except IoError Unit × Pipe)
  | .proceed =>
      match written with
      | .error err => some (.error err, pipe)
      | .ok bytes => some (.ok (), pipe.put bytes)
  | .broken cut err =>
      match written with
      | .error _ => none
      | .ok bytes => some (.error err, pipe.put (bytes.take cut))
  | _ => none

/-! ## Reads and writes -/

theorem Pipe.readFrame_ok {α : Type} {read : Bytes → Except IoError α × Bytes}
    {pipe next : Pipe} {result : Except IoError α}
    (h : pipe.readFrame read = some (result, next)) :
    ∃ rest, read pipe.unread = (result, rest) ∧
      next = { pipe with taken := pipe.sent.length - rest.length } := by
  unfold Pipe.readFrame at h
  split at h
  · cases h
  · rename_i result' rest _ heq
    simp only [Option.some.injEq, Prod.mk.injEq] at h
    obtain ⟨rfl, rfl⟩ := h
    exact ⟨rest, heq, rfl⟩

theorem Pipe.readFrame_of_read {α : Type} {read : Bytes → Except IoError α × Bytes}
    {pipe : Pipe} {result : Except IoError α} {rest : Bytes}
    (hread : read pipe.unread = (result, rest)) (hne : result ≠ .error .unexpectedEof) :
    pipe.readFrame read = some (result, { pipe with taken := pipe.sent.length - rest.length }) := by
  unfold Pipe.readFrame
  rw [hread]
  split
  · rename_i heq
    exact absurd (congrArg Prod.fst heq) hne
  · rename_i heq
    obtain ⟨rfl, rfl⟩ := Prod.mk.inj heq
    rfl

/-- Where nothing has been taken yet, a value at the front of the stream is what a
frame read returns. -/
theorem Pipe.readFrame_of_ok {α : Type} {read : Bytes → Except IoError α × Bytes} {pipe : Pipe}
    {a : α} {rest : Bytes} (htaken : pipe.taken = 0) (hread : read pipe.sent = (.ok a, rest)) :
    ∃ next, pipe.readFrame read = some (.ok a, next) := by
  refine ⟨{ pipe with taken := pipe.sent.length - rest.length }, ?_⟩
  simp only [Pipe.readFrame, Pipe.unread, htaken, List.drop_zero, hread]

/-- Where the reader would have to wait, nothing is returned. -/
theorem Pipe.readFrame_of_eof {α : Type} {read : Bytes → Except IoError α × Bytes} {pipe : Pipe}
    {rest : Bytes} (htaken : pipe.taken = 0)
    (hread : read pipe.sent = (.error .unexpectedEof, rest)) : pipe.readFrame read = none := by
  simp only [Pipe.readFrame, Pipe.unread, htaken, List.drop_zero, hread]

/-- A value that was read stood at the front of what was unread. -/
theorem readStep_ok {α : Type} {read : Bytes → Except IoError α × Bytes} {pipe next : Pipe}
    {writerGone : Bool} {outcome : Outcome} {a : α}
    (h : readStep read pipe writerGone outcome = some (.ok a, next)) :
    ∃ rest, read pipe.unread = (.ok a, rest) ∧
      next.taken = pipe.sent.length - rest.length := by
  cases outcome with
  | proceed =>
      obtain ⟨rest, hread, rfl⟩ := Pipe.readFrame_ok h
      exact ⟨rest, hread, rfl⟩
  | eof =>
      simp only [readStep] at h
      split at h
      · simp at h
      · cases h
  | broken cut err => simp [readStep] at h
  | refused err => simp [readStep] at h

/-- A read leaves what was sent as it is. -/
theorem readStep_sent {α : Type} {read : Bytes → Except IoError α × Bytes} {pipe next : Pipe}
    {writerGone : Bool} {outcome : Outcome} {result : Except IoError α}
    (h : readStep read pipe writerGone outcome = some (result, next)) :
    next.sent = pipe.sent := by
  cases outcome with
  | proceed =>
      obtain ⟨rest, -, hnext⟩ := Pipe.readFrame_ok h
      rw [hnext]
  | eof =>
      simp only [readStep] at h
      split at h
      · simp only [Option.some.injEq, Prod.mk.injEq] at h
        rw [← h.2]
      · cases h
  | broken cut err =>
      simp only [readStep, Option.some.injEq, Prod.mk.injEq] at h
      rw [← h.2]
  | refused err => simp [readStep] at h

/-- A write that completes puts all its bytes on the stream; one that fails puts a
part of them there. -/
theorem writeStep_cases {written : Except IoError Bytes} {pipe next : Pipe}
    {outcome : Outcome} {done : Except IoError Unit}
    (h : writeStep written pipe outcome = some (done, next)) :
    next.taken = pipe.taken ∧
      ((done = .ok () ∧ ∃ bytes, written = .ok bytes ∧ next.sent = pipe.sent ++ bytes) ∨
        (∃ err, done = .error err) ∧
          (next.sent = pipe.sent ∨
            ∃ bytes cut, written = .ok bytes ∧ next.sent = pipe.sent ++ bytes.take cut)) := by
  cases outcome with
  | proceed =>
      cases written with
      | error err =>
          simp only [writeStep, Option.some.injEq, Prod.mk.injEq] at h
          obtain ⟨rfl, rfl⟩ := h
          exact ⟨rfl, .inr ⟨⟨err, rfl⟩, .inl rfl⟩⟩
      | ok bytes =>
          simp only [writeStep, Option.some.injEq, Prod.mk.injEq] at h
          obtain ⟨rfl, rfl⟩ := h
          exact ⟨rfl, .inl ⟨rfl, bytes, rfl, rfl⟩⟩
  | broken cut err =>
      cases written with
      | error err' => simp [writeStep] at h
      | ok bytes =>
          simp only [writeStep, Option.some.injEq, Prod.mk.injEq] at h
          obtain ⟨rfl, rfl⟩ := h
          exact ⟨rfl, .inr ⟨⟨err, rfl⟩, .inr ⟨bytes, cut, rfl, rfl⟩⟩⟩
  | eof => simp [writeStep] at h
  | refused err => simp [writeStep] at h

theorem writeStep_extends {written : Except IoError Bytes} {pipe next : Pipe}
    {outcome : Outcome} {done : Except IoError Unit}
    (h : writeStep written pipe outcome = some (done, next)) : pipe.sent <+: next.sent := by
  obtain ⟨-, ⟨-, bytes, -, hsent⟩ | ⟨-, hsent | ⟨bytes, cut, -, hsent⟩⟩⟩ := writeStep_cases h
  · exact hsent ▸ List.prefix_append _ _
  · exact hsent ▸ List.prefix_rfl
  · exact hsent ▸ List.prefix_append _ _

theorem writeStep_put {written : Except IoError Bytes} {pipe next : Pipe} {outcome : Outcome}
    {done : Except IoError Unit} (h : writeStep written pipe outcome = some (done, next)) :
    ∃ bytes, next = pipe.put bytes ∧
      ((done = .ok () ∧ written = .ok bytes) ∨
        ((∃ err, done = .error err) ∧ ∀ whole, written = .ok whole → bytes <+: whole)) := by
  obtain ⟨htaken, ⟨rfl, bytes, hbytes, hsent⟩ | ⟨herr, hsent | ⟨bytes, cut, hbytes, hsent⟩⟩⟩ :=
    writeStep_cases h
  · exact ⟨bytes, by simp [Pipe.put, ← htaken, ← hsent], .inl ⟨rfl, hbytes⟩⟩
  · refine ⟨[], by simp [Pipe.put, ← htaken, ← hsent], .inr ⟨herr, ?_⟩⟩
    exact fun whole _ => List.nil_prefix
  · refine ⟨bytes.take cut, by simp [Pipe.put, ← htaken, ← hsent], .inr ⟨herr, ?_⟩⟩
    intro whole hwhole
    obtain rfl := Except.ok.inj (hbytes.symm.trans hwhole)
    exact List.take_prefix _ _

end Sape
