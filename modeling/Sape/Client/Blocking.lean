/-
  Client/Blocking.lean --- a stream in the accept queue of a dialer in `-R` mode waits
  for every stream in front of it.

  `run_incoming_reverse_handler` reads the request of a stream inside its accept loop, so
  the loop stands still while that request is not there.  `run_listen` reads it in a task
  of its own (`Listener/Readiness.lean`).

  WHAT IS PROVED.

      dispatches_of_settled     the loop gets to a stream behind streams that need nothing
                                further
      not_dispatches_of_stuck   it does not get past one that does
      waiting_dispatched        both accept loops side by side
-/
import Sape.Client.ReverseDial
import Sape.Listener.Readiness

set_option autoImplicit false

namespace Sape.ReverseDial

open Sape.Foundation

/-! ## The loop -/

/-- The steps that the incoming handler and its tasks take by themselves. -/
inductive Label.Own : Label → Prop where
  | next : Label.Own .next
  | read : Label.Own (.read .proceed)
  | readEnd : Label.Own (.read .eof)
  | forward (j : Nat) (event : ForwardEvent) : Label.Own (.forward j event)

/-- The stream whose request is being read is the last one that left the queue. -/
def ReadingInv (dialer : Dialer) : Prop :=
  ∀ r, dialer.reading = some r → dialer.accepted = r + 1

@[simp] theorem dispatch_run (dialer : Dialer) (peer : PeerId)
    (request : Except IoError TunnelRequest) : (dialer.dispatch peer request).run = dialer.run := by
  unfold Dialer.dispatch
  split <;> rfl

@[simp] theorem dispatch_reading (dialer : Dialer) (peer : PeerId)
    (request : Except IoError TunnelRequest) : (dialer.dispatch peer request).reading = none := by
  unfold Dialer.dispatch
  split <;> rfl

@[simp] theorem dispatch_accepted (dialer : Dialer) (peer : PeerId)
    (request : Except IoError TunnelRequest) :
    (dialer.dispatch peer request).accepted = dialer.accepted := by
  unfold Dialer.dispatch
  split <;> rfl

@[simp] theorem dispatch_streams (dialer : Dialer) (peer : PeerId)
    (request : Except IoError TunnelRequest) :
    (dialer.dispatch peer request).streams = dialer.streams := by
  unfold Dialer.dispatch
  split <;> rfl

theorem queue_of_step {text : Libp2pText} {opt : DialOpt} {dialer next : Dialer} {label : Label}
    (hstep : dialer.step text opt label = some next)
    (hlabel : (∃ event, label = .dial event) ∨ label = .incomingEnded ∨
      ∃ j event, label = .forward j event) :
    next.reading = dialer.reading ∧ next.accepted = dialer.accepted ∧
      next.streams = dialer.streams := by
  rcases hlabel with ⟨event, rfl⟩ | rfl | ⟨j, event, rfl⟩
  · simp only [Dialer.step, Dialer.resumeDial] at hstep
    split at hstep
    · cases hstep
    · split at hstep
      · cases hstep
      · obtain rfl := Option.some.inj hstep
        exact ⟨rfl, rfl, rfl⟩
      · obtain rfl := Option.some.inj hstep
        exact ⟨rfl, rfl, rfl⟩
  · simp only [Dialer.step, Option.ite_none_right_eq_some, Option.some.injEq] at hstep
    obtain ⟨-, rfl⟩ := hstep
    exact ⟨rfl, rfl, rfl⟩
  · simp only [Dialer.step] at hstep
    split at hstep
    · cases hstep
    · split at hstep
      · cases hstep
      · obtain ⟨task, -, rfl⟩ := Option.map_eq_some_iff.mp hstep
        exact ⟨rfl, rfl, rfl⟩

theorem read_of_step {text : Libp2pText} {opt : DialOpt} {dialer next : Dialer}
    {outcome : Outcome} (hstep : dialer.step text opt (.read outcome) = some next) :
    ∃ r stream request, dialer.reading = some r ∧ dialer.streams[r]? = some stream ∧
      stream.readRequest outcome = some request ∧ next = dialer.dispatch stream.peer request := by
  simp only [Dialer.step] at hstep
  split at hstep
  · cases hstep
  · rename_i stream hstream
    obtain ⟨r, hreading, hget⟩ := Option.bind_eq_some_iff.mp hstream
    obtain ⟨request, hread, rfl⟩ := Option.map_eq_some_iff.mp hstep
    exact ⟨r, stream, request, hreading, hget, hread, rfl⟩

theorem readingInv_step {text : Libp2pText} {opt : DialOpt} {dialer next : Dialer}
    {label : Label} (hinv : ReadingInv dialer) (hstep : dialer.step text opt label = some next) :
    ReadingInv next := by
  intro r hreading
  cases label with
  | dial event =>
      obtain ⟨hr, ha, -⟩ := queue_of_step hstep (.inl ⟨event, rfl⟩)
      rw [hr] at hreading
      rw [ha, hinv r hreading]
  | incomingEnded =>
      obtain ⟨hr, ha, -⟩ := queue_of_step hstep (.inr (.inl rfl))
      rw [hr] at hreading
      rw [ha, hinv r hreading]
  | forward j event =>
      obtain ⟨hr, ha, -⟩ := queue_of_step hstep (.inr (.inr ⟨j, event, rfl⟩))
      rw [hr] at hreading
      rw [ha, hinv r hreading]
  | deliver i count =>
      simp only [Dialer.step] at hstep
      split at hstep
      · cases hstep
      · obtain rfl := Option.some.inj hstep
        exact hinv r hreading
  | next =>
      simp only [Dialer.step, Option.ite_none_right_eq_some, Option.some.injEq] at hstep
      obtain ⟨-, rfl⟩ := hstep
      rw [← Option.some.inj hreading]
  | read outcome =>
      obtain ⟨r', stream, request, -, -, -, rfl⟩ := read_of_step hstep
      rw [dispatch_reading] at hreading
      cases hreading

theorem readingInv_of_reaches {text : Libp2pText} {opt : DialOpt} {traffic : List IncomingStream}
    {labels : List Label} {dialer : Dialer}
    (hrun : (machine text opt traffic).Reaches labels dialer) : ReadingInv dialer :=
  Machine.invariant ReadingInv (fun _ h => by cases h)
    (fun hinv hstep => readingInv_step hinv hstep) hrun

/-! ## Getting to a stream -/

/-- Stream `j` is between the loop and stream `i`: it is being read, or in front in the
queue. -/
def Dialer.Ahead (dialer : Dialer) (i j : Nat) : Prop :=
  (dialer.reading = some j ∨ dialer.accepted ≤ j) ∧ j < i

/-- The handler, by itself, gets to stream `i` and dispatches its request. -/
def Dispatches (text : Libp2pText) (opt : DialOpt) (traffic : List IncomingStream)
    (dialer : Dialer) (i : Nat) (peer : PeerId) (req : TunnelRequest) : Prop :=
  ∃ labels mid, (∀ label ∈ labels, Label.Own label) ∧
    (machine text opt traffic).exec dialer labels = some mid ∧ mid.reading = some i ∧
    (machine text opt traffic).step mid (.read .proceed) = some (mid.dispatch peer (.ok req))

/-- The read of a request that needs nothing further comes back. -/
theorem step_read (text : Libp2pText) (opt : DialOpt) (traffic : List IncomingStream)
    {dialer : Dialer} {j : Nat} {stream : IncomingStream} (hreading : dialer.reading = some j)
    (hget : dialer.streams[j]? = some stream) (hsettled : stream.settled = true) :
    ∃ label next, Label.Own label ∧ (machine text opt traffic).step dialer label = some next ∧
      next.run = dialer.run ∧ next.reading = none ∧ next.accepted = dialer.accepted ∧
      next.streams = dialer.streams := by
  have hread : ∀ {outcome request}, stream.readRequest outcome = some request →
      (machine text opt traffic).step dialer (.read outcome) =
        some (dialer.dispatch stream.peer request) := by
    intro outcome request hrequest
    simp only [machine, Dialer.step, hreading, Option.bind_some, hget, hrequest, Option.map_some]
  rcases Bool.or_eq_true_iff.mp hsettled with hhere | hend
  · obtain ⟨request, hrequest⟩ := Option.isSome_iff_exists.mp hhere
    exact ⟨_, _, .read, hread hrequest, by simp⟩
  · obtain ⟨request, hrequest⟩ := Option.isSome_iff_exists.mp hend
    exact ⟨_, _, .readEnd, hread hrequest, by simp⟩

/-- An idle loop gets past streams that need nothing further. -/
theorem exec_settled (text : Libp2pText) (opt : DialOpt) (traffic : List IncomingStream) {i : Nat} :
    ∀ (gap : Nat) {dialer : Dialer}, dialer.run = .handlingReverse → dialer.reading = none →
      dialer.accepted + gap = i → i < dialer.streams.length →
      (∀ j other, dialer.accepted ≤ j → j < i → dialer.streams[j]? = some other →
        other.settled = true) →
      ∃ labels next, (∀ label ∈ labels, Label.Own label) ∧
        (machine text opt traffic).exec dialer labels = some next ∧
        next.reading = some i ∧ next.streams = dialer.streams := by
  intro gap
  induction gap with
  | zero =>
      intro dialer hrun hreading haccepted hlt _
      obtain rfl : dialer.accepted = i := haccepted
      refine ⟨[.next], { dialer with
          reading := some dialer.accepted
          accepted := dialer.accepted + 1 }, ?_, ?_, rfl, rfl⟩
      · exact fun label hmem => List.mem_singleton.mp hmem ▸ .next
      · simp only [Machine.exec, machine, Dialer.step, hrun, hreading, hlt, and_self, if_true]
  | succ gap ih =>
      intro dialer hrun hreading haccepted hlt hsettled
      let taken : Dialer := { dialer with
        reading := some dialer.accepted
        accepted := dialer.accepted + 1 }
      have hfront : dialer.accepted < dialer.streams.length := by omega
      have hnext : (machine text opt traffic).step dialer .next = some taken := by
        simp only [machine, Dialer.step, hrun, hreading, hfront, and_self, if_true, taken]
      have hget : taken.streams[dialer.accepted]? = some dialer.streams[dialer.accepted] :=
        List.getElem?_eq_getElem hfront
      obtain ⟨label, read, hown, hread, hrun', hreading', haccepted', hstreams⟩ :=
        step_read text opt traffic rfl hget (hsettled _ _ (Nat.le_refl _) (by omega) hget)
      have hrest : read.accepted = dialer.accepted + 1 := haccepted'
      have hsettled' : ∀ j other, read.accepted ≤ j → j < i → read.streams[j]? = some other →
          other.settled = true :=
        fun j other hj hji hother => hsettled j other (by omega) hji (hstreams ▸ hother)
      obtain ⟨labels, next, howns, hexec, hlast, hkept⟩ := ih (hrun'.trans hrun) hreading'
        (by omega) (by rw [hstreams]; exact hlt) hsettled'
      refine ⟨.next :: label :: labels, next, ?_, ?_, hlast, hkept.trans hstreams⟩
      · intro other hmem
        rcases List.mem_cons.mp hmem with rfl | hmem
        · exact .next
        · rcases List.mem_cons.mp hmem with rfl | hmem
          · exact hown
          · exact howns other hmem
      · rw [Machine.exec_cons_of_step hnext, Machine.exec_cons_of_step hread, hexec]

/-- Behind streams that need nothing further, a request that is here is dispatched. -/
theorem dispatches_of_settled {text : Libp2pText} {opt : DialOpt} {traffic : List IncomingStream}
    {dialer : Dialer} {i : Nat} {stream : IncomingStream} {req : TunnelRequest}
    (hinv : ReadingInv dialer) (hrun : dialer.run = .handlingReverse)
    (hwaiting : dialer.accepted ≤ i) (hget : dialer.streams[i]? = some stream)
    (hdelivered : stream.Delivered req)
    (hsettled : ∀ j other, dialer.Ahead i j → dialer.streams[j]? = some other →
      other.settled = true) :
    Dispatches text opt traffic dialer i stream.peer req := by
  have hlt : i < dialer.streams.length := (List.getElem?_eq_some_iff.mp hget).1
  have hreads : ∀ {mid : Dialer}, mid.reading = some i → mid.streams = dialer.streams →
      (machine text opt traffic).step mid (.read .proceed) =
        some (mid.dispatch stream.peer (.ok req)) := by
    intro mid hreading hstreams
    simp only [machine, Dialer.step, hreading, Option.bind_some, hstreams, hget,
      hdelivered.readRequest, Option.map_some]
  cases hreading : dialer.reading with
  | none =>
      obtain ⟨labels, mid, howns, hexec, hmid, hstreams⟩ :=
        exec_settled text opt traffic (i - dialer.accepted) hrun hreading (by omega) hlt
          (fun j other hj hji hother => hsettled j other ⟨.inr hj, hji⟩ hother)
      exact ⟨labels, mid, howns, hexec, hmid, hreads hmid hstreams⟩
  | some r =>
      -- the stream that is being read comes first
      have hr : dialer.accepted = r + 1 := hinv r hreading
      have hrlt : r < dialer.streams.length := by omega
      have hgetr : dialer.streams[r]? = some dialer.streams[r] := List.getElem?_eq_getElem hrlt
      obtain ⟨label, read, hown, hread, hrun', hreading', haccepted, hstreams⟩ :=
        step_read text opt traffic hreading hgetr
          (hsettled r _ ⟨.inl hreading, by omega⟩ hgetr)
      obtain ⟨labels, mid, howns, hexec, hmid, hkept⟩ :=
        exec_settled text opt traffic (i - dialer.accepted) (hrun'.trans hrun) hreading'
          (by omega) (by rw [hstreams]; exact hlt)
          (fun j other hj hji hother => hsettled j other ⟨.inr (haccepted ▸ hj), hji⟩
            (hstreams ▸ hother))
      refine ⟨label :: labels, mid, ?_, ?_, hmid, hreads hmid (hkept.trans hstreams)⟩
      · intro other hmem
        rcases List.mem_cons.mp hmem with rfl | hmem
        · exact hown
        · exact howns other hmem
      · rw [Machine.exec_cons_of_step hread, hexec]

/-! ## Not getting past one -/

/-- The loop is at stream `j` or in front of it, and the request of `j` is not there. -/
structure Stuck (j : Nat) (dialer : Dialer) : Prop where
  reading : ReadingInv dialer
  ahead : dialer.reading = some j ∨ dialer.accepted ≤ j
  unsettled : ∃ other, dialer.streams[j]? = some other ∧ other.settled = false

theorem stuck_step {text : Libp2pText} {opt : DialOpt} {dialer next : Dialer} {label : Label}
    {j : Nat} (hstuck : Stuck j dialer) (hown : Label.Own label)
    (hstep : dialer.step text opt label = some next) : Stuck j next := by
  have hinv := readingInv_step hstuck.reading hstep
  have hread : ∀ {outcome}, outcome = .proceed ∨ outcome = .eof →
      dialer.step text opt (.read outcome) = some next → Stuck j next := by
    intro outcome houtcome hstep
    obtain ⟨r, stream, request, hreading, hget, hrequest, rfl⟩ := read_of_step hstep
    obtain ⟨other, hother, hnot⟩ := hstuck.unsettled
    rcases hstuck.ahead with hj | hj
    · -- the read that would come back is the one that does not
      obtain rfl := Option.some.inj (hreading.symm.trans hj)
      obtain rfl := Option.some.inj (hget.symm.trans hother)
      have hsome : stream.settled = true := by
        rcases houtcome with rfl | rfl
        · exact Bool.or_eq_true_iff.mpr (.inl (by rw [hrequest]; rfl))
        · exact Bool.or_eq_true_iff.mpr (.inr (by rw [hrequest]; rfl))
      rw [hsome] at hnot
      cases hnot
    · exact ⟨hinv, .inr ((dispatch_accepted ..).trans_le hj), other,
        by rw [dispatch_streams]; exact hother, hnot⟩
  cases hown with
  | next =>
      simp only [Dialer.step, Option.ite_none_right_eq_some, Option.some.injEq] at hstep
      obtain ⟨⟨-, hnone, -⟩, rfl⟩ := hstep
      refine ⟨hinv, ?_, hstuck.unsettled⟩
      rcases hstuck.ahead with hj | hj
      · rw [hnone] at hj
        cases hj
      · rcases Nat.eq_or_lt_of_le hj with rfl | hlt
        · exact .inl rfl
        · exact .inr hlt
  | read => exact hread (.inl rfl) hstep
  | readEnd => exact hread (.inr rfl) hstep
  | forward k event =>
      obtain ⟨hreading, haccepted, hstreams⟩ := queue_of_step hstep (.inr (.inr ⟨k, event, rfl⟩))
      exact ⟨hinv, by rw [hreading, haccepted]; exact hstuck.ahead,
        by rw [hstreams]; exact hstuck.unsettled⟩

/-- Behind a stream that needs something further, nothing is dispatched. -/
theorem not_dispatches_of_stuck {text : Libp2pText} {opt : DialOpt}
    {traffic : List IncomingStream} {dialer : Dialer} {i j : Nat} {peer : PeerId}
    {req : TunnelRequest} (hstuck : Stuck j dialer) (hlt : j < i) :
    ¬ Dispatches text opt traffic dialer i peer req := by
  rintro ⟨labels, mid, howns, hexec, hreading, -⟩
  have hmid : Stuck j mid :=
    Machine.exec_invariant_of_meets (fun _ label => Label.Own label) (Stuck j)
      (fun hstuck hown hstep => stuck_step hstuck hown hstep) labels
      (Machine.meets_of_forall _ labels dialer fun label hmem _ => howns label hmem) hexec hstuck
  have haccepted := hmid.reading i hreading
  rcases hmid.ahead with hj | hj
  · obtain rfl := Option.some.inj (hreading.symm.trans hj)
    exact absurd hlt (Nat.lt_irrefl _)
  · omega

/-! ## Both loops -/

/-- In every reachable state of a listener, a request that is here is dispatched by the
accept loop and by the task of its own stream.  In every reachable state of a dialer's
incoming handler, it is dispatched by the handler itself exactly when no stream between the
loop and it needs anything further. -/
theorem waiting_dispatched (nspace : String) (listenOpt : ListenOpt) (text : Libp2pText)
    (dialOpt : DialOpt) (traffic : List IncomingStream) :
    (∀ {labels state i session req},
      (Listener.machine nspace listenOpt traffic).Reaches labels state → state.running = true →
      state.accepted ≤ i → i < state.opened → state.sessions[i]? = some session →
      session.stream.Delivered req →
      Listener.Settles nspace listenOpt traffic state i req) ∧
    ∀ {labels dialer i stream req},
      (machine text dialOpt traffic).Reaches labels dialer → dialer.run = .handlingReverse →
      dialer.accepted ≤ i → dialer.streams[i]? = some stream → stream.Delivered req →
      (Dispatches text dialOpt traffic dialer i stream.peer req ↔
        ∀ j other, dialer.Ahead i j → dialer.streams[j]? = some other →
          other.settled = true) := by
  refine ⟨fun hrun hrunning hwaiting hopened hget hdelivered =>
    Listener.settles_of_waiting hrun hrunning hwaiting hopened hget hdelivered, ?_⟩
  intro labels dialer i stream req hrun hhandling hwaiting hget hdelivered
  have hinv := readingInv_of_reaches hrun
  constructor
  · intro hdispatches j other hahead hother
    by_contra hnot
    exact not_dispatches_of_stuck
      ⟨hinv, hahead.1, other, hother, Bool.eq_false_iff.mpr hnot⟩ hahead.2 hdispatches
  · exact dispatches_of_settled hinv hhandling hwaiting hget hdelivered

/-- A stream on which nothing is ever sent, and which stays open. -/
def silentStream : IncomingStream where
  peer := ⟨[3]⟩
  content := []
  finishes := false

/-- The run in which all of the second stream is here, and the loop has taken the first. -/
def behindLabels : List Label :=
  (dialEvents ⟨[9]⟩ nineOpt.target).map .dial ++ [.deliver 1 11, .next]

/-- The run of a listener in which all of the second stream is here. -/
def besideLabels : List Listener.Label :=
  [.connect ⟨[3]⟩, .connect ⟨[9]⟩, .openStream, .openStream, .deliver 1 11]

theorem waiting_dispatched_honestStream :
    (∃ state, (Listener.machine "sape" {} [silentStream, honestStream]).Reaches
        besideLabels state ∧
      Listener.Settles "sape" {} [silentStream, honestStream] state 1
        (.reverseForward 0 "a:1" false)) ∧
    ∃ dialer, (machine (.ofTable []) nineOpt [honestStream, honestStream]).Reaches
        ((dialEvents ⟨[9]⟩ nineOpt.target).map .dial ++ [.deliver 0 11, .deliver 1 11]) dialer ∧
      Dispatches (.ofTable []) nineOpt [honestStream, honestStream] dialer 1 ⟨[9]⟩
        (.reverseForward 0 "a:1" false) := by
  constructor
  · obtain ⟨state, hrun, htest⟩ := Machine.exists_reaches_of_any (by decide :
      ((Listener.machine "sape" {} [silentStream, honestStream]).exec
        (Listener.machine "sape" {} [silentStream, honestStream]).start besideLabels).any
        (fun state => decide (state.running = true ∧ state.accepted = 0 ∧ state.opened = 2 ∧
          state.sessions[1]? = some { stream := honestStream.deliver 11 })) = true)
    obtain ⟨hrunning, haccepted, hopened, hget⟩ := of_decide_eq_true htest
    exact ⟨state, hrun, (waiting_dispatched "sape" {} (.ofTable []) nineOpt _).1 hrun hrunning
      (by omega) (by omega) hget ⟨[], by decide⟩⟩
  · obtain ⟨dialer, hrun, htest⟩ := Machine.exists_reaches_of_any (by decide :
      ((machine (.ofTable []) nineOpt [honestStream, honestStream]).exec
        (machine (.ofTable []) nineOpt [honestStream, honestStream]).start
        ((dialEvents ⟨[9]⟩ nineOpt.target).map .dial ++ [.deliver 0 11, .deliver 1 11])).any
        (fun dialer => decide (dialer.run = .handlingReverse ∧ dialer.accepted = 0 ∧
          dialer.streams = [honestStream.deliver 11, honestStream.deliver 11])) = true)
    obtain ⟨hhandling, haccepted, hstreams⟩ := of_decide_eq_true htest
    have hget : dialer.streams[1]? = some (honestStream.deliver 11) := by rw [hstreams]; rfl
    refine ⟨dialer, hrun, ((waiting_dispatched "sape" {} (.ofTable []) nineOpt _).2 hrun hhandling
      (by omega) hget ⟨[], by decide⟩).mpr ?_⟩
    intro j other _ hother
    rw [hstreams] at hother
    obtain rfl : other = honestStream.deliver 11 := by
      simpa using List.mem_of_getElem? hother
    decide

/-- The request of the second stream is here, and the handler never gets to it: the first
stream sends nothing. -/
theorem silentStream_blocks :
    ∃ dialer, (machine (.ofTable []) nineOpt [silentStream, honestStream]).Reaches
        behindLabels dialer ∧
      dialer.run = .handlingReverse ∧ dialer.accepted = 1 ∧
      dialer.streams[1]? = some (honestStream.deliver 11) ∧
      (honestStream.deliver 11).Delivered (.reverseForward 0 "a:1" false) ∧
      ¬ Dispatches (.ofTable []) nineOpt [silentStream, honestStream] dialer 1 ⟨[9]⟩
        (.reverseForward 0 "a:1" false) := by
  obtain ⟨dialer, hrun, htest⟩ := Machine.exists_reaches_of_any (by decide :
    ((machine (.ofTable []) nineOpt [silentStream, honestStream]).exec
      (machine (.ofTable []) nineOpt [silentStream, honestStream]).start behindLabels).any
      (fun dialer => decide (dialer.run = .handlingReverse ∧ dialer.accepted = 1 ∧
        dialer.reading = some 0 ∧
        dialer.streams = [silentStream, honestStream.deliver 11])) = true)
  obtain ⟨hhandling, haccepted, hreading, hstreams⟩ := of_decide_eq_true htest
  have hstuck : Stuck 0 dialer :=
    ⟨readingInv_of_reaches hrun, .inl hreading, silentStream, by rw [hstreams]; rfl, by decide⟩
  exact ⟨dialer, hrun, hhandling, haccepted, by rw [hstreams]; rfl, ⟨[], by decide⟩,
    not_dispatches_of_stuck hstuck (by decide)⟩

end Sape.ReverseDial
