/-
  Identity.lean --- `load_or_create_identity` of `src/types.rs`: the identity file, and any
  number of calls on it.

  The calls of several processes interleave between their operations: the check, the read,
  the create of `fs::write`, which truncates, and each `write(2)` of it.  Keys and their
  encoding are the `libp2p` crate's and parameters.

  WHAT IS PROVED.

      phase_step            an orderly history goes through three phases: no file, one
                            call that stores it, and a whole file
      alone_step            a call that runs alone on working I/O does not fail
      identity_stable       in orderly histories all calls agree on the key
-/
import Sape.Foundation.File
import Sape.Foundation.Lists
import Sape.Foundation.Machine
import Sape.Wire

set_option autoImplicit false

namespace Sape

open Sape.Foundation

/-! ## A call -/

/-- `to_protobuf_encoding` and `from_protobuf_encoding` of a keypair: inverse, and an encoding
that is cut short is no encoding. -/
structure KeyCodec (Key : Type) where
  encode : Key → Bytes
  decode : Bytes → Except String Key
  decode_encode : ∀ key, decode (encode key) = .ok key
  decode_take : ∀ key n other, n < (encode key).length →
    decode ((encode key).take n) ≠ .ok other

/-- Where a call of `load_or_create_identity` is. -/
inductive IdentityTask (Key : Type) where
  /-- `path.exists()` -/
  | checking
  /-- `fs::read` -/
  | reading
  /-- the create in `fs::write` -/
  | creating (key : Key)
  /-- its `write_all`, with `offset` bytes written -/
  | writing (key : Key) (offset : Nat)
  | ended (result : Except IoError Key)
  deriving DecidableEq, Repr, Inhabited

/-- What an operation of the file system came back with. -/
inductive IdentityEvent (Key : Type) where
  /-- `drawn` is the key that `generate_ed25519` draws if it is needed -/
  | checked (found : Bool) (drawn : Key)
  | fileRead (result : Except IoError Bytes)
  | created (result : Except IoError Unit)
  | stored (count : Nat)
  | storeFailed (err : IoError)
  deriving DecidableEq, Repr

namespace IdentityTask

variable {Key : Type}

/-- From a write to the next one, or to the end. -/
def afterWrite (codec : KeyCodec Key) (key : Key) (offset : Nat) : IdentityTask Key :=
  if (codec.encode key).length ≤ offset then .ended (.ok key) else .writing key offset

/-- From the bytes of the file to the end. -/
def afterRead (codec : KeyCodec Key) (bytes : Bytes) : IdentityTask Key :=
  match codec.decode bytes with
  | .ok key => .ended (.ok key)
  | .error err => .ended (.error (.invalidData err))

/-- The code between two operations. -/
def resume (codec : KeyCodec Key) : IdentityTask Key → IdentityEvent Key → Option (IdentityTask Key)
  | .checking, .checked true _ => some .reading
  | .checking, .checked false drawn => some (.creating drawn)
  | .reading, .fileRead (.ok bytes) => some (afterRead codec bytes)
  | .reading, .fileRead (.error err) => some (.ended (.error err))
  | .creating key, .created (.ok ()) => some (afterWrite codec key 0)
  | .creating _, .created (.error err) => some (.ended (.error err))
  | .writing key offset, .stored count => some (afterWrite codec key (offset + count))
  | .writing _ _, .storeFailed err => some (.ended (.error err))
  | _, _ => none

end IdentityTask

/-! ## A history -/

/-- The file at the path, and the calls on it. -/
structure IdentityState (Key : Type) where
  file : Option Bytes := none
  calls : List (IdentityTask Key) := []
  deriving DecidableEq, Repr, Inhabited

/-- What a label names. -/
inductive IdentityLabel (Key : Type) where
  | call
  /-- `path.exists()` is `false` also where it does not work -/
  | check (i : Nat) (working : Bool) (drawn : Key)
  | read (i : Nat) (failure : Option IoError)
  | create (i : Nat) (failure : Option IoError)
  /-- a `write(2)` that stores `count` bytes -/
  | store (i count : Nat)
  /-- one that fails -/
  | fail (i : Nat) (err : IoError)
  deriving DecidableEq, Repr

namespace IdentityState

variable {Key : Type}

/-- An operation of call `i` comes back. -/
def advance (codec : KeyCodec Key) (state : IdentityState Key) (i : Nat) (file : Option Bytes)
    (event : IdentityEvent Key) : Option (IdentityState Key) :=
  match state.calls[i]? with
  | none => none
  | some task =>
      (task.resume codec event).map fun next =>
        { file := file
          calls := state.calls.set i next }

/-- What a read of the file returns. -/
def contents (state : IdentityState Key) : Except IoError Bytes :=
  match state.file with
  | some bytes => .ok bytes
  | none => .error (.transport "No such file or directory")

/-- One step. -/
def step (codec : KeyCodec Key) (state : IdentityState Key) :
    IdentityLabel Key → Option (IdentityState Key)
  | .call => some { state with calls := state.calls ++ [.checking] }
  | .check i working drawn =>
      state.advance codec i state.file (.checked (working && state.file.isSome) drawn)
  | .read i none => state.advance codec i state.file (.fileRead state.contents)
  | .read i (some err) => state.advance codec i state.file (.fileRead (.error err))
  | .create i none => state.advance codec i (some []) (.created (.ok ()))
  | .create i (some err) => state.advance codec i state.file (.created (.error err))
  | .store i count =>
      match state.calls[i]? with
      | some (.writing key offset) =>
          let rest := (codec.encode key).drop offset
          if 0 < count ∧ count ≤ rest.length then
            state.advance codec i (some (writeAt (state.file.getD []) offset (rest.take count)))
              (.stored count)
          else none
      | _ => none
  | .fail i err => state.advance codec i state.file (.storeFailed err)

/-- The machine of the calls on a path where there is no file yet. -/
def machine (codec : KeyCodec Key) : Machine (IdentityState Key) (IdentityLabel Key) where
  start := {}
  step := step codec

end IdentityState

/-! ## Orderly histories -/

namespace IdentityTask

variable {Key : Type}

/-- Whether a call has found no file, and is about to create one. -/
def creates : IdentityTask Key → Bool
  | .creating _ => true
  | _ => false

/-- Whether a call has created the file, and not stored all of it yet. -/
def stores : IdentityTask Key → Bool
  | .writing _ _ => true
  | _ => false

/-- The key that a call has returned. -/
def returned : IdentityTask Key → Option Key
  | .ended (.ok key) => some key
  | _ => none

/-- Whether a call is over. -/
def isEnded : IdentityTask Key → Bool
  | .ended _ => true
  | _ => false

end IdentityTask

/-- A step of an orderly history: a call finds the file absent only where there is none and
no other call is about to create it, and no write fails. -/
def Orderly {Key : Type} (state : IdentityState Key) : IdentityLabel Key → Prop
  | .check _ working _ =>
      (working && state.file.isSome) = true ∨
        state.file = none ∧ ∀ task ∈ state.calls, task.creates = false
  | .fail _ _ => False
  | _ => True

instance {Key : Type} (state : IdentityState Key) : DecidablePred (Orderly state)
  | .check _ _ _ => inferInstanceAs (Decidable (_ ∨ _ ∧ _))
  | .fail _ _ => isFalse id
  | .call | .read _ _ | .create _ _ | .store _ _ => isTrue trivial

/-- A call that neither creates nor stores the file. -/
def IdentityTask.Passive {Key : Type} (task : IdentityTask Key) : Prop :=
  task.creates = false ∧ task.stores = false

/-- The phases of an orderly history. -/
inductive Phase {Key : Type} (codec : KeyCodec Key) (state : IdentityState Key) : Prop where
  /-- there is no file, and at most one call is about to create it -/
  | absent (hfile : state.file = none)
      (hone : ∀ (i j : Nat) (a b : IdentityTask Key), state.calls[i]? = some a →
        state.calls[j]? = some b → a.creates = true → b.creates = true → i = j)
      (hcalls : ∀ task ∈ state.calls, task.stores = false ∧ task.returned = none)
  /-- one call stores it -/
  | storing {i : Nat} {key : Key} {offset : Nat}
      (hget : state.calls[i]? = some (.writing key offset))
      (hlt : offset < (codec.encode key).length)
      (hfile : state.file = some ((codec.encode key).take offset))
      (hothers : ∀ j task, j ≠ i → state.calls[j]? = some task →
        task.Passive ∧ task.returned = none)
  /-- it is whole -/
  | settled {key : Key} (hfile : state.file = some (codec.encode key))
      (hcalls : ∀ task ∈ state.calls, task.Passive ∧
        ∀ other, task.returned = some other → other = key)

theorem advance_some {Key : Type} {codec : KeyCodec Key} {state next : IdentityState Key}
    {i : Nat} {file : Option Bytes} {event : IdentityEvent Key}
    (h : state.advance codec i file event = some next) :
    ∃ task task', state.calls[i]? = some task ∧ task.resume codec event = some task' ∧
      next = { file := file
               calls := state.calls.set i task' } := by
  unfold IdentityState.advance at h
  split at h
  · cases h
  · rename_i task hget
    obtain ⟨task', hresume, rfl⟩ := Option.map_eq_some_iff.mp h
    exact ⟨task, task', hget, hresume, rfl⟩

/-- What a step of the history is, by the operation that call `i` was suspended on. -/
inductive IdentityState.Move {Key : Type} (codec : KeyCodec Key) (state : IdentityState Key) :
    IdentityLabel Key → IdentityState Key → Prop where
  | call : Move codec state .call { state with calls := state.calls ++ [.checking] }
  | found {i : Nat} {working : Bool} {drawn : Key} (hget : state.calls[i]? = some .checking)
      (hfound : (working && state.file.isSome) = true) :
      Move codec state (.check i working drawn)
        { file := state.file, calls := state.calls.set i .reading }
  | missed {i : Nat} {working : Bool} {drawn : Key} (hget : state.calls[i]? = some .checking)
      (hmissed : (working && state.file.isSome) = false) :
      Move codec state (.check i working drawn)
        { file := state.file, calls := state.calls.set i (.creating drawn) }
  | read {i : Nat} {bytes : Bytes} (hget : state.calls[i]? = some .reading)
      (hfile : state.file = some bytes) :
      Move codec state (.read i none)
        { file := state.file, calls := state.calls.set i (.afterRead codec bytes) }
  | readFailed {i : Nat} {failure : Option IoError} {err : IoError}
      (hget : state.calls[i]? = some .reading) (hfailure : failure = none → state.file = none) :
      Move codec state (.read i failure)
        { file := state.file, calls := state.calls.set i (.ended (.error err)) }
  | created {i : Nat} {key : Key} (hget : state.calls[i]? = some (.creating key)) :
      Move codec state (.create i none)
        { file := some [], calls := state.calls.set i (.afterWrite codec key 0) }
  | createFailed {i : Nat} {err : IoError} {key : Key}
      (hget : state.calls[i]? = some (.creating key)) :
      Move codec state (.create i (some err))
        { file := state.file, calls := state.calls.set i (.ended (.error err)) }
  | stored {i count : Nat} {key : Key} {offset : Nat}
      (hget : state.calls[i]? = some (.writing key offset)) :
      Move codec state (.store i count)
        { file := some (writeAt (state.file.getD []) offset
            (((codec.encode key).drop offset).take count))
          calls := state.calls.set i (.afterWrite codec key (offset + count)) }
  | failed {i : Nat} {err : IoError} {key : Key} {offset : Nat}
      (hget : state.calls[i]? = some (.writing key offset)) :
      Move codec state (.fail i err)
        { file := state.file, calls := state.calls.set i (.ended (.error err)) }

theorem IdentityState.move_of_step {Key : Type} {codec : KeyCodec Key}
    {state next : IdentityState Key} {label : IdentityLabel Key}
    (h : state.step codec label = some next) : IdentityState.Move codec state label next := by
  cases label with
  | call =>
      obtain rfl := Option.some.inj h
      exact .call
  | check i working drawn =>
      obtain ⟨task, task', hget, hresume, rfl⟩ := advance_some h
      cases task with
      | checking =>
          cases hfound : (working && state.file.isSome) with
          | true =>
              rw [hfound] at hresume
              obtain rfl := Option.some.inj hresume
              exact .found hget hfound
          | false =>
              rw [hfound] at hresume
              obtain rfl := Option.some.inj hresume
              exact .missed hget hfound
      | _ => cases hresume
  | read i failure =>
      cases failure with
      | some err =>
          obtain ⟨task, task', hget, hresume, rfl⟩ := advance_some h
          cases task with
          | reading =>
              obtain rfl := Option.some.inj hresume
              exact .readFailed hget fun hnone => by cases hnone
          | _ => cases hresume
      | none =>
          obtain ⟨task, task', hget, hresume, rfl⟩ := advance_some h
          cases task with
          | reading =>
              cases hfile : state.file with
              | none =>
                  rw [IdentityState.contents, hfile] at hresume
                  obtain rfl := Option.some.inj hresume
                  exact hfile ▸ .readFailed hget fun _ => hfile
              | some bytes =>
                  rw [IdentityState.contents, hfile] at hresume
                  obtain rfl := Option.some.inj hresume
                  exact hfile ▸ .read hget hfile
          | _ => cases hresume
  | create i failure =>
      cases failure with
      | some err =>
          obtain ⟨task, task', hget, hresume, rfl⟩ := advance_some h
          cases task with
          | creating key =>
              obtain rfl := Option.some.inj hresume
              exact .createFailed hget
          | _ => cases hresume
      | none =>
          obtain ⟨task, task', hget, hresume, rfl⟩ := advance_some h
          cases task with
          | creating key =>
              obtain rfl := Option.some.inj hresume
              exact .created hget
          | _ => cases hresume
  | store i count =>
      simp only [IdentityState.step] at h
      split at h
      · rename_i key offset hget
        split at h
        · obtain ⟨task, task', hget', hresume, rfl⟩ := advance_some h
          cases hget.symm.trans hget'
          obtain rfl := Option.some.inj hresume
          exact .stored hget
        · cases h
      · cases h
  | fail i err =>
      obtain ⟨task, task', hget, hresume, rfl⟩ := advance_some h
      cases task with
      | writing key offset =>
          obtain rfl := Option.some.inj hresume
          exact .failed hget
      | _ => cases hresume

theorem KeyCodec.encode_injective {Key : Type} (codec : KeyCodec Key) {a b : Key}
    (h : codec.encode a = codec.encode b) : a = b := by
  have hdecode := codec.decode_encode a
  rw [h, codec.decode_encode] at hdecode
  exact (Except.ok.inj hdecode).symm

/-- A part of a key is no key. -/
theorem take_ne_encode {Key : Type} {codec : KeyCodec Key} {key other : Key} {n : Nat}
    (hlt : n < (codec.encode key).length) : (codec.encode key).take n ≠ codec.encode other := by
  intro heq
  have hdecode := codec.decode_take key n other hlt
  rw [heq, codec.decode_encode] at hdecode
  exact hdecode rfl

/-- A call goes on, or returns what is in the file. -/
theorem Phase.advance_passive {Key : Type} {codec : KeyCodec Key} {state : IdentityState Key}
    (phase : Phase codec state) {i : Nat} {task next : IdentityTask Key}
    (hget : state.calls[i]? = some task) (hfrom : task.stores = false) (hto : next.Passive)
    (hreturned : ∀ key, next.returned = some key → state.file = some (codec.encode key)) :
    Phase codec { file := state.file, calls := state.calls.set i next } := by
  cases phase with
  | absent hfile hone hcalls =>
      refine .absent hfile ?_ ?_
      · intro j j' a b ha hb hacreates hbcreates
        rcases getElem?_set_cases hget ha with ⟨-, rfl⟩ | ⟨-, ha⟩
        · rw [hto.1] at hacreates
          cases hacreates
        · rcases getElem?_set_cases hget hb with ⟨-, rfl⟩ | ⟨-, hb⟩
          · rw [hto.1] at hbcreates
            cases hbcreates
          · exact hone j j' a b ha hb hacreates hbcreates
      · intro other hmem
        rcases List.mem_or_eq_of_mem_set hmem with hmem | rfl
        · exact hcalls other hmem
        · refine ⟨hto.2, ?_⟩
          cases hkey : other.returned with
          | none => rfl
          | some key => cases hfile.symm.trans (hreturned key hkey)
  | @storing i' key offset hget' hlt hfile hothers =>
      have hne : i' ≠ i := by
        rintro rfl
        cases hget.symm.trans hget'
        cases hfrom
      have hstored : (state.calls.set i next)[i']? = some (.writing key offset) := by
        rw [getElem?_set_of_get hget, if_neg hne]
        exact hget'
      refine .storing hstored hlt hfile ?_
      intro j other hj hother
      rcases getElem?_set_cases hget hother with ⟨-, rfl⟩ | ⟨-, hother⟩
      · refine ⟨hto, ?_⟩
        cases hkey : other.returned with
        | none => rfl
        | some key' =>
            have hwhole := hfile.symm.trans (hreturned key' hkey)
            exact absurd (Option.some.inj hwhole) (take_ne_encode hlt)
      · exact hothers j other hj hother
  | @settled key hfile hcalls =>
      refine .settled hfile ?_
      intro other hmem
      rcases List.mem_or_eq_of_mem_set hmem with hmem | rfl
      · exact hcalls other hmem
      · refine ⟨hto, fun key' hkey => ?_⟩
        have hsame := hfile.symm.trans (hreturned key' hkey)
        exact (codec.encode_injective (Option.some.inj hsame)).symm

/-- A call that creates the file is the only one to touch it. -/
theorem Phase.of_creating {Key : Type} {codec : KeyCodec Key} {state : IdentityState Key}
    (phase : Phase codec state) {i : Nat} {key : Key}
    (hget : state.calls[i]? = some (.creating key)) :
    ∀ j task, j ≠ i → state.calls[j]? = some task → task.Passive ∧ task.returned = none := by
  cases phase with
  | absent hfile hone hcalls =>
      intro j task hj hother
      obtain ⟨hstores, hreturned⟩ := hcalls task (List.mem_of_getElem? hother)
      refine ⟨⟨?_, hstores⟩, hreturned⟩
      cases hcreates : task.creates with
      | false => rfl
      | true => exact absurd (hone j i task _ hother hget hcreates rfl) hj
  | @storing i' key' offset hget' hlt hfile hothers =>
      by_cases hne : i = i'
      · subst hne
        cases hget.symm.trans hget'
      · have hpassive := (hothers i _ hne hget).1.1
        cases hpassive
  | settled hfile hcalls =>
      have hpassive := (hcalls _ (List.mem_of_getElem? hget)).1.1
      cases hpassive

/-- A call that has written part of its key stores it all, or is on its way to. -/
theorem phase_afterWrite {Key : Type} {codec : KeyCodec Key} {calls : List (IdentityTask Key)}
    {i : Nat} {key : Key} {offset : Nat} {task : IdentityTask Key} (hget : calls[i]? = some task)
    (hothers : ∀ j task, j ≠ i → calls[j]? = some task → task.Passive ∧ task.returned = none) :
    Phase codec
      { file := some ((codec.encode key).take offset)
        calls := calls.set i (.afterWrite codec key offset) } := by
  unfold IdentityTask.afterWrite
  split
  · rename_i hle
    have hwhole : some ((codec.encode key).take offset) = some (codec.encode key) :=
      congrArg some (List.take_of_length_le hle)
    refine .settled hwhole ?_
    intro task hmem
    obtain ⟨j, hj⟩ := List.mem_iff_getElem?.mp hmem
    rcases getElem?_set_cases hget hj with ⟨-, rfl⟩ | ⟨hne, hj⟩
    · exact ⟨⟨rfl, rfl⟩, fun other hkey => (Option.some.inj hkey).symm⟩
    · obtain ⟨hpassive, hnone⟩ := hothers j task hne hj
      refine ⟨hpassive, fun other hkey => ?_⟩
      cases hnone.symm.trans hkey
  · rename_i hlt
    have hstored : (calls.set i (.writing key offset))[i]? = some (.writing key offset) := by
      rw [getElem?_set_of_get hget, if_pos rfl]
    refine .storing hstored (Nat.not_le.mp hlt) rfl ?_
    intro j task hne hj
    rcases getElem?_set_cases hget hj with ⟨heq, -⟩ | ⟨-, hj⟩
    · exact absurd heq hne
    · exact hothers j task hne hj

/-- One more call changes nothing. -/
theorem Phase.call {Key : Type} {codec : KeyCodec Key} {state : IdentityState Key}
    (phase : Phase codec state) :
    Phase codec { state with calls := state.calls ++ [.checking] } := by
  cases phase with
  | absent hfile hone hcalls =>
      refine .absent hfile ?_ ?_
      · intro i j a b ha hb hacreates hbcreates
        rcases getElem?_concat_cases ha with rfl | ha
        · cases hacreates
        · rcases getElem?_concat_cases hb with rfl | hb
          · cases hbcreates
          · exact hone i j a b ha hb hacreates hbcreates
      · intro task hmem
        rcases List.mem_append.mp hmem with hmem | hmem
        · exact hcalls task hmem
        · obtain rfl := List.mem_singleton.mp hmem
          exact ⟨rfl, rfl⟩
  | storing hget hlt hfile hothers =>
      refine .storing (getElem?_concat_of_get _ hget) hlt hfile ?_
      intro j task hne hj
      rcases getElem?_concat_cases hj with rfl | hj
      · exact ⟨⟨rfl, rfl⟩, rfl⟩
      · exact hothers j task hne hj
  | settled hfile hcalls =>
      refine .settled hfile ?_
      intro task hmem
      rcases List.mem_append.mp hmem with hmem | hmem
      · exact hcalls task hmem
      · obtain rfl := List.mem_singleton.mp hmem
        exact ⟨⟨rfl, rfl⟩, fun other hkey => by cases hkey⟩

/-- The first call that finds no file goes on to create it. -/
theorem Phase.create {Key : Type} {codec : KeyCodec Key} {state : IdentityState Key}
    (phase : Phase codec state) (hfile : state.file = none)
    (hnone : ∀ task ∈ state.calls, task.creates = false) {i : Nat} {task : IdentityTask Key}
    (hget : state.calls[i]? = some task) (drawn : Key) :
    Phase codec { file := state.file, calls := state.calls.set i (.creating drawn) } := by
  have hcalls : ∀ task ∈ state.calls, task.stores = false ∧ task.returned = none := by
    cases phase with
    | absent _ _ hcalls => exact hcalls
    | storing _ _ hstored => cases hfile.symm.trans hstored
    | settled hstored => cases hfile.symm.trans hstored
  refine .absent hfile ?_ ?_
  · intro j j' a b ha hb hacreates hbcreates
    rcases getElem?_set_cases hget ha with ⟨rfl, -⟩ | ⟨-, ha⟩
    · rcases getElem?_set_cases hget hb with ⟨rfl, -⟩ | ⟨-, hb⟩
      · rfl
      · cases (hnone b (List.mem_of_getElem? hb)).symm.trans hbcreates
    · cases (hnone a (List.mem_of_getElem? ha)).symm.trans hacreates
  · intro other hmem
    rcases List.mem_or_eq_of_mem_set hmem with hmem | rfl
    · exact hcalls other hmem
    · exact ⟨rfl, rfl⟩

/-- What a call returns from a file is the key in it. -/
theorem Phase.returned_of_read {Key : Type} {codec : KeyCodec Key} {state : IdentityState Key}
    (phase : Phase codec state) {bytes : Bytes} (hfile : state.file = some bytes) {key : Key}
    (hkey : (IdentityTask.afterRead codec bytes).returned = some key) :
    state.file = some (codec.encode key) := by
  have hdecode : codec.decode bytes = .ok key := by
    unfold IdentityTask.afterRead at hkey
    split at hkey
    · rename_i hok
      rw [hok, Option.some.inj hkey]
    · cases hkey
  cases phase with
  | absent hnone => cases hfile.symm.trans hnone
  | @storing i stored offset _ hlt hpart =>
      cases hfile.symm.trans hpart
      exact absurd hdecode (codec.decode_take stored offset key hlt)
  | @settled stored hwhole =>
      cases hfile.symm.trans hwhole
      rw [codec.decode_encode] at hdecode
      rw [hwhole, Except.ok.inj hdecode]

/-- The call that stores the file lays down the next bytes of its key. -/
theorem Phase.store {Key : Type} {codec : KeyCodec Key} {state : IdentityState Key}
    (phase : Phase codec state) {i : Nat} {key : Key} {offset : Nat}
    (hget : state.calls[i]? = some (.writing key offset)) (count : Nat) :
    Phase codec
      { file := some (writeAt (state.file.getD []) offset
          (((codec.encode key).drop offset).take count))
        calls := state.calls.set i (.afterWrite codec key (offset + count)) } := by
  cases phase with
  | absent _ _ hcalls => cases (hcalls _ (List.mem_of_getElem? hget)).1
  | settled _ hcalls => cases (hcalls _ (List.mem_of_getElem? hget)).1.2
  | @storing i' key' offset' hget' hlt hfile hothers =>
      by_cases hne : i = i'
      · subst hne
        cases hget.symm.trans hget'
        rw [hfile, Option.getD_some, writeAt_take (Nat.le_of_lt hlt)]
        exact phase_afterWrite hget hothers
      · cases (hothers i _ hne hget).1.2

theorem phase_step {Key : Type} {codec : KeyCodec Key} {state next : IdentityState Key}
    {label : IdentityLabel Key} (phase : Phase codec state) (horderly : Orderly state label)
    (h : state.step codec label = some next) : Phase codec next := by
  cases IdentityState.move_of_step h with
  | call => exact phase.call
  | found hget hfound =>
      exact phase.advance_passive hget rfl ⟨rfl, rfl⟩ fun key hkey => by cases hkey
  | missed hget hmissed =>
      obtain hpresent | ⟨hfile, hnone⟩ := horderly
      · cases hmissed.symm.trans hpresent
      · exact phase.create hfile hnone hget _
  | read hget hfile =>
      refine phase.advance_passive hget rfl ?_ fun key hkey => phase.returned_of_read hfile hkey
      unfold IdentityTask.afterRead
      split
      · exact ⟨rfl, rfl⟩
      · exact ⟨rfl, rfl⟩
  | readFailed hget hfailure =>
      exact phase.advance_passive hget rfl ⟨rfl, rfl⟩ fun key hkey => by cases hkey
  | @created i key hget =>
      have hstart : Phase codec
          { file := some ((codec.encode key).take 0)
            calls := state.calls.set i (.afterWrite codec key 0) } :=
        phase_afterWrite hget (phase.of_creating hget)
      rwa [List.take_zero] at hstart
  | createFailed hget =>
      exact phase.advance_passive hget rfl ⟨rfl, rfl⟩ fun key hkey => by cases hkey
  | stored hget => exact phase.store hget _
  | failed hget => exact horderly.elim

theorem phase_of_meets {Key : Type} {codec : KeyCodec Key} {labels : List (IdentityLabel Key)}
    {state : IdentityState Key} (hrun : (IdentityState.machine codec).Reaches labels state)
    (hmeets : (IdentityState.machine codec).Meets Orderly {} labels) : Phase codec state := by
  apply Machine.invariant_of_meets Orderly (Phase codec) _ _ hmeets hrun
  · refine .absent rfl ?_ fun task hmem => by cases hmem
    intro i j a b ha
    cases ha
  · intro state label next phase horderly hstep
    exact phase_step phase horderly hstep

/-- All keys that were returned are one. -/
theorem Phase.agree {Key : Type} {codec : KeyCodec Key} {state : IdentityState Key}
    (phase : Phase codec state) {task other : IdentityTask Key} (htask : task ∈ state.calls)
    (hother : other ∈ state.calls) {a b : Key} (ha : task.returned = some a)
    (hb : other.returned = some b) : a = b := by
  cases phase with
  | absent _ _ hcalls => cases (hcalls task htask).2.symm.trans ha
  | @storing i key offset hget _ _ hothers =>
      obtain ⟨j, hj⟩ := List.mem_iff_getElem?.mp htask
      by_cases hne : j = i
      · subst hne
        cases hj.symm.trans hget
        cases ha
      · cases (hothers j task hne hj).2.symm.trans ha
  | settled _ hcalls => rw [(hcalls task htask).2 a ha, (hcalls other hother).2 b hb]

/-! ## One more call -/

/-- A step of call `i`, on working I/O. -/
def Works {Key : Type} (i : Nat) : IdentityLabel Key → Prop
  | .call => False
  | .check j working _ => j = i ∧ working = true
  | .read j failure => j = i ∧ failure = none
  | .create j failure => j = i ∧ failure = none
  | .store j _ => j = i
  | .fail _ _ => False

/-- A call behind `others` that has not failed. -/
def Alone {Key : Type} (others : List (IdentityTask Key)) (state : IdentityState Key) : Prop :=
  ∃ task, state.calls = others ++ [task] ∧ (∀ err, task ≠ .ended (.error err)) ∧
    (task = .reading → state.file.isSome = true)

theorem advance_last {Key : Type} (codec : KeyCodec Key) {state : IdentityState Key}
    {others : List (IdentityTask Key)} {task : IdentityTask Key}
    (hcalls : state.calls = others ++ [task]) (file : Option Bytes) (event : IdentityEvent Key) :
    state.advance codec others.length file event =
      (task.resume codec event).map fun next =>
        { file := file
          calls := others ++ [next] } := by
  have hget : state.calls[others.length]? = some task := by
    rw [hcalls, List.getElem?_concat_length]
  unfold IdentityState.advance
  rw [hget]
  simp [hcalls]

/-- A file that is read by a call behind others that are over is whole. -/
theorem Phase.whole {Key : Type} {codec : KeyCodec Key} {state : IdentityState Key}
    (phase : Phase codec state) (hfile : state.file.isSome = true)
    (hcalls : ∀ task ∈ state.calls, task.stores = false) :
    ∃ key, state.file = some (codec.encode key) := by
  cases phase with
  | absent hnone => rw [hnone] at hfile; cases hfile
  | storing hget => cases hcalls _ (List.mem_of_getElem? hget)
  | settled hwhole => exact ⟨_, hwhole⟩

/-- A write that goes through does not fail. -/
theorem alone_afterWrite {Key : Type} {others : List (IdentityTask Key)}
    {state : IdentityState Key} {codec : KeyCodec Key} {key : Key} {offset : Nat}
    (hcalls : state.calls = others ++ [.afterWrite codec key offset]) : Alone others state := by
  refine ⟨_, hcalls, ?_, ?_⟩
  · intro err heq
    unfold IdentityTask.afterWrite at heq
    split at heq <;> cases heq
  · intro heq
    unfold IdentityTask.afterWrite at heq
    split at heq <;> cases heq

/-- A call that runs alone on working I/O does not fail. -/
theorem alone_step {Key : Type} {codec : KeyCodec Key} {others : List (IdentityTask Key)}
    (hothers : ∀ task ∈ others, task.isEnded = true) {state next : IdentityState Key}
    {label : IdentityLabel Key} (phase : Phase codec state) (halone : Alone others state)
    (hworks : Works others.length label) (h : state.step codec label = some next) :
    Alone others next ∧ Orderly state label := by
  obtain ⟨task, hcalls, hok, hreading⟩ := halone
  have hset : ∀ task', state.calls.set others.length task' = others ++ [task'] := by
    intro task'
    simp [hcalls]
  have hlast : ∀ {other}, state.calls[others.length]? = some other → task = other := by
    intro other hget
    rw [hcalls, List.getElem?_concat_length] at hget
    exact Option.some.inj hget
  have hpassive : task.Passive → ∀ other ∈ state.calls, other.Passive := by
    intro htask other hmem
    rw [hcalls] at hmem
    rcases List.mem_append.mp hmem with hmem | hmem
    · cases other with
      | ended result => exact ⟨rfl, rfl⟩
      | _ => cases hothers _ hmem
    · exact List.mem_singleton.mp hmem ▸ htask
  cases IdentityState.move_of_step h with
  | call => exact hworks.elim
  | failed hget => exact hworks.elim
  | found hget hfound =>
      obtain ⟨rfl, rfl⟩ := hworks
      exact ⟨⟨_, hset _, fun err heq => (by cases heq), fun _ => hfound⟩, .inl hfound⟩
  | missed hget hmissed =>
      obtain ⟨rfl, rfl⟩ := hworks
      obtain rfl := hlast hget
      have hnone : state.file = none :=
        Option.isNone_iff_eq_none.mp (Option.isSome_eq_false_iff.mp hmissed)
      exact ⟨⟨_, hset _, fun err heq => (by cases heq), fun heq => (by cases heq)⟩,
        .inr ⟨hnone, fun other hmem => (hpassive ⟨rfl, rfl⟩ other hmem).1⟩⟩
  | read hget hfile =>
      obtain ⟨rfl, -⟩ := hworks
      obtain rfl := hlast hget
      obtain ⟨key, hwhole⟩ := phase.whole (hreading rfl) fun other hmem =>
        (hpassive ⟨rfl, rfl⟩ other hmem).2
      obtain rfl := Option.some.inj (hfile.symm.trans hwhole)
      refine ⟨⟨_, hset _, ?_, ?_⟩, trivial⟩
      · intro err heq
        rw [IdentityTask.afterRead, codec.decode_encode] at heq
        cases heq
      · intro heq
        rw [IdentityTask.afterRead, codec.decode_encode] at heq
        cases heq
  | readFailed hget hfailure =>
      obtain ⟨rfl, hfailure'⟩ := hworks
      obtain rfl := hlast hget
      have hsome := hreading rfl
      rw [hfailure hfailure'] at hsome
      cases hsome
  | created hget =>
      obtain ⟨rfl, -⟩ := hworks
      exact ⟨alone_afterWrite (hset _), trivial⟩
  | createFailed hget => cases hworks.2
  | stored hget =>
      obtain rfl := hworks
      exact ⟨alone_afterWrite (hset _), trivial⟩

/-- A whole run of it. -/
theorem alone_exec {Key : Type} {codec : KeyCodec Key} {others : List (IdentityTask Key)}
    (hothers : ∀ task ∈ others, task.isEnded = true) {labels : List (IdentityLabel Key)}
    {state final : IdentityState Key} (phase : Phase codec state) (halone : Alone others state)
    (hworks : ∀ label ∈ labels, Works others.length label)
    (hrun : (IdentityState.machine codec).exec state labels = some final) :
    Phase codec final ∧ Alone others final := by
  apply Machine.exec_invariant_of_meets (fun _ label => Works others.length label)
    (fun state => Phase codec state ∧ Alone others state) _ labels _ hrun ⟨phase, halone⟩
  · rintro state label next ⟨phase, halone⟩ hlabel hstep
    obtain ⟨hnext, horderly⟩ := alone_step hothers phase halone hlabel hstep
    exact ⟨phase_step phase horderly hstep, hnext⟩
  · exact Machine.meets_of_forall _ labels state fun label hmem _ => hworks label hmem

/-- A further call with working I/O comes to its end, and returns the key that the earlier
calls have returned. -/
def Recovers {Key : Type} (codec : KeyCodec Key) (state : IdentityState Key) : Prop :=
  ∃ begun, state.step codec .call = some begun ∧
    (∀ labels final result, (∀ label ∈ labels, Works state.calls.length label) →
      (IdentityState.machine codec).exec begun labels = some final →
      final.calls[state.calls.length]? = some (.ended result) →
      ∃ key, result = .ok key ∧
        ∀ task ∈ state.calls, ∀ other, task.returned = some other → other = key) ∧
    ∀ drawn, ∃ labels final result, (∀ label ∈ labels, Works state.calls.length label) ∧
      .check state.calls.length true drawn ∈ labels ∧
      (IdentityState.machine codec).exec begun labels = some final ∧
      final.calls[state.calls.length]? = some (.ended result)

/-- Where the file is whole, the call reads it. -/
theorem exec_whole {Key : Type} (codec : KeyCodec Key) {calls : List (IdentityTask Key)}
    {key : Key} (drawn : Key) :
    (IdentityState.machine codec).exec
        { file := some (codec.encode key)
          calls := calls ++ [.checking] }
        [.check calls.length true drawn, .read calls.length none] =
      some { file := some (codec.encode key)
             calls := calls ++ [.ended (.ok key)] } := by
  have hcheck : (IdentityState.machine codec).step
      { file := some (codec.encode key), calls := calls ++ [.checking] }
      (.check calls.length true drawn) =
      some { file := some (codec.encode key), calls := calls ++ [.reading] } :=
    (advance_last codec rfl _ _).trans rfl
  have hread : (IdentityState.machine codec).step
      { file := some (codec.encode key), calls := calls ++ [.reading] }
      (.read calls.length none) =
      some { file := some (codec.encode key), calls := calls ++ [.ended (.ok key)] } := by
    refine (advance_last codec rfl _ _).trans ?_
    simp [IdentityTask.resume, IdentityState.contents, IdentityTask.afterRead, codec.decode_encode]
  rw [Machine.exec_cons_of_step hcheck, Machine.exec_cons_of_step hread]
  rfl

/-- Where there is no file, it creates one and stores its key. -/
theorem exec_absent {Key : Type} (codec : KeyCodec Key) (calls : List (IdentityTask Key))
    (drawn : Key) :
    ∃ labels final, (∀ label ∈ labels, Works calls.length label) ∧
      (IdentityState.machine codec).exec { file := none, calls := calls ++ [.checking] }
        (.check calls.length true drawn :: .create calls.length none :: labels) = some final ∧
      final.calls[calls.length]? = some (.ended (.ok drawn)) := by
  have hcheck : (IdentityState.machine codec).step
      { file := none, calls := calls ++ [.checking] } (.check calls.length true drawn) =
      some { file := none, calls := calls ++ [.creating drawn] } :=
    (advance_last codec rfl _ _).trans rfl
  have hcreate : (IdentityState.machine codec).step
      { file := none, calls := calls ++ [.creating drawn] } (.create calls.length none) =
      some { file := some [], calls := calls ++ [.afterWrite codec drawn 0] } :=
    (advance_last codec rfl _ _).trans rfl
  by_cases hempty : (codec.encode drawn).length ≤ 0
  · refine ⟨[], { file := some [], calls := calls ++ [.afterWrite codec drawn 0] },
      fun label hmem => (by cases hmem), ?_, ?_⟩
    · rw [Machine.exec_cons_of_step hcheck, Machine.exec_cons_of_step hcreate]
      rfl
    · rw [List.getElem?_concat_length, IdentityTask.afterWrite, if_pos hempty]
  · have hwriting : IdentityTask.afterWrite codec drawn 0 = .writing drawn 0 := by
      rw [IdentityTask.afterWrite, if_neg hempty]
    have hstore : ∃ file, (IdentityState.machine codec).step
        { file := some [], calls := calls ++ [.writing drawn 0] }
        (.store calls.length (codec.encode drawn).length) =
        some { file := file, calls := calls ++ [.ended (.ok drawn)] } := by
      refine ⟨some (writeAt [] 0 ((codec.encode drawn).take (codec.encode drawn).length)), ?_⟩
      simp only [IdentityState.machine, IdentityState.step, List.getElem?_concat_length,
        List.drop_zero, Nat.le_refl, and_true, if_pos (Nat.not_le.mp hempty)]
      refine (advance_last codec rfl _ _).trans ?_
      simp [IdentityTask.resume, IdentityTask.afterWrite]
    obtain ⟨file, hstore⟩ := hstore
    refine ⟨[.store calls.length (codec.encode drawn).length],
      { file := file, calls := calls ++ [.ended (.ok drawn)] }, ?_, ?_, ?_⟩
    · intro label hmem
      obtain rfl := List.mem_singleton.mp hmem
      rfl
    · rw [Machine.exec_cons_of_step hcheck, Machine.exec_cons_of_step hcreate, hwriting,
        Machine.exec_cons_of_step hstore]
      rfl
    · exact List.getElem?_concat_length

/-- A call on its own comes to its end. -/
theorem recovers_of_phase {Key : Type} {codec : KeyCodec Key} {state : IdentityState Key}
    (phase : Phase codec state) (hended : ∀ task ∈ state.calls, task.isEnded = true) :
    Recovers codec state := by
  refine ⟨{ state with calls := state.calls ++ [.checking] }, rfl, ?_, ?_⟩
  · intro labels final result hworks hrun hget
    have halone : Alone state.calls { state with calls := state.calls ++ [.checking] } :=
      ⟨.checking, rfl, fun err heq => (by cases heq), fun heq => (by cases heq)⟩
    obtain ⟨hphase, task, hcalls, hok, -⟩ := alone_exec hended phase.call halone hworks hrun
    rw [hcalls, List.getElem?_concat_length] at hget
    obtain rfl := Option.some.inj hget
    cases result with
    | error err => exact absurd rfl (hok err)
    | ok key =>
        refine ⟨key, rfl, fun task hmem other hother => ?_⟩
        have hold : task ∈ final.calls := hcalls ▸ List.mem_append_left _ hmem
        have hnew : .ended (.ok key) ∈ final.calls :=
          hcalls ▸ List.mem_append_right _ (List.mem_singleton_self _)
        exact hphase.agree hold hnew hother rfl
  · intro drawn
    cases phase with
    | storing hget =>
        have hover := hended _ (List.mem_of_getElem? hget)
        cases hover
    | absent hfile =>
        obtain ⟨labels, final, hworks, hrun, hget⟩ := exec_absent codec state.calls drawn
        refine ⟨.check state.calls.length true drawn :: .create state.calls.length none :: labels,
          final, .ok drawn, ?_, List.mem_cons_self, ?_, hget⟩
        · intro label hmem
          rcases List.mem_cons.mp hmem with rfl | hmem
          · exact ⟨rfl, rfl⟩
          · rcases List.mem_cons.mp hmem with rfl | hmem
            · exact ⟨rfl, rfl⟩
            · exact hworks label hmem
        · rw [hfile]
          exact hrun
    | @settled key hfile =>
        refine ⟨[.check state.calls.length true drawn, .read state.calls.length none],
          { file := some (codec.encode key), calls := state.calls ++ [.ended (.ok key)] },
          .ok key, ?_, List.mem_cons_self, ?_, List.getElem?_concat_length⟩
        · intro label hmem
          rcases List.mem_cons.mp hmem with rfl | hmem
          · exact ⟨rfl, rfl⟩
          · obtain rfl := List.mem_singleton.mp hmem
            exact ⟨rfl, rfl⟩
        · rw [hfile]
          exact exec_whole codec drawn

/-- In every history of calls on a path without a file whose steps are orderly: all calls
that return `Ok` return the same key, and once all have returned, a further call with working
I/O returns `Ok`, with that key if there is one. -/
theorem identity_stable {Key : Type} (codec : KeyCodec Key) {labels : List (IdentityLabel Key)}
    {state : IdentityState Key} (hrun : (IdentityState.machine codec).Reaches labels state)
    (hmeets : (IdentityState.machine codec).Meets Orderly {} labels) :
    (∀ task ∈ state.calls, ∀ other ∈ state.calls, ∀ a b, task.returned = some a →
      other.returned = some b → a = b) ∧
    ((∀ task ∈ state.calls, task.isEnded = true) → Recovers codec state) := by
  have phase := phase_of_meets hrun hmeets
  refine ⟨?_, fun hended => recovers_of_phase phase hended⟩
  intro task htask other hother a b ha hb
  exact phase.agree htask hother ha hb

/-- One byte in front of a byte. -/
def byteCodec : KeyCodec UInt8 where
  encode key := [8, key]
  decode
    | [8, key] => .ok key
    | _ => .error "invalid"
  decode_encode _ := rfl
  decode_take key n other hlt := by
    rcases n with _ | _ | n
    · intro heq
      cases heq
    · intro heq
      cases heq
    · exact absurd (show n + 2 < 2 from hlt) (by omega)

/-- Three calls at once: the first creates the file, the second reads half of it, the third
all of it. -/
def threeCalls : List (IdentityLabel UInt8) :=
  [.call, .call, .call, .check 0 true 5, .create 0 none, .check 1 true 6, .store 0 1,
    .read 1 none, .check 2 true 7, .store 0 1, .read 2 none]

theorem identity_stable_threeCalls :
    ∃ state, (IdentityState.machine byteCodec).Reaches threeCalls state ∧
      state.calls = [.ended (.ok 5), .ended (.error (.invalidData "invalid")), .ended (.ok 5)] ∧
      (∀ task ∈ state.calls, ∀ key, task.returned = some key → key = 5) ∧
      Recovers byteCodec state := by
  have hrun : (IdentityState.machine byteCodec).Reaches threeCalls
      { file := some [8, 5], calls := [.ended (.ok 5), .ended (.error (.invalidData "invalid")),
        .ended (.ok 5)] } := rfl
  have hmeets : (IdentityState.machine byteCodec).Meets Orderly {} threeCalls := by decide
  obtain ⟨hagree, hrecovers⟩ := identity_stable byteCodec hrun hmeets
  refine ⟨_, hrun, rfl, fun task hmem key hkey => ?_, hrecovers (by decide)⟩
  exact hagree task hmem (.ended (.ok 5)) List.mem_cons_self key 5 hkey rfl

/-- Two calls find no file, and each creates it. -/
def twoCalls : List (IdentityLabel UInt8) :=
  [.call, .call, .check 0 true 5, .check 1 true 6, .create 0 none, .store 0 2,
    .create 1 none, .store 1 2]

/-- One call creates the file, and its write fails behind the first byte. -/
def tornCall : List (IdentityLabel UInt8) :=
  [.call, .check 0 true 5, .create 0 none, .store 0 1, .fail 0 (.transport "disk full")]

/-- Two calls return two keys; and behind a write that fails a further call with working I/O
does not return `Ok`. -/
theorem identity_unstable :
    (∃ state, (IdentityState.machine byteCodec).Reaches twoCalls state ∧
      .ended (.ok 5) ∈ state.calls ∧ .ended (.ok 6) ∈ state.calls) ∧
    ∃ state, (IdentityState.machine byteCodec).Reaches tornCall state ∧
      (∀ task ∈ state.calls, task.isEnded = true) ∧ ¬ Recovers byteCodec state := by
  refine ⟨⟨{ file := some [8, 6], calls := [.ended (.ok 5), .ended (.ok 6)] }, rfl, ?_, ?_⟩, ?_⟩
  · exact List.mem_cons_self
  · exact List.mem_cons_of_mem _ List.mem_cons_self
  · refine ⟨{ file := some [8], calls := [.ended (.error (.transport "disk full"))] }, rfl, ?_, ?_⟩
    · intro task hmem
      obtain rfl := List.mem_singleton.mp hmem
      rfl
    · rintro ⟨begun, hbegun, hreturns, -⟩
      obtain rfl := Option.some.inj hbegun
      obtain ⟨key, hkey, -⟩ := hreturns [.check 1 true 7, .read 1 none]
        { file := some [8]
          calls := [.ended (.error (.transport "disk full")),
            .ended (.error (.invalidData "invalid"))] }
        (.error (.invalidData "invalid"))
        (by
          intro label hmem
          rcases List.mem_cons.mp hmem with rfl | hmem
          · exact ⟨rfl, rfl⟩
          · obtain rfl := List.mem_singleton.mp hmem
            exact ⟨rfl, rfl⟩)
        rfl rfl
      cases hkey

end Sape
