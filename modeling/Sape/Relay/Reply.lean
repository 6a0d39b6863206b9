/-
  Relay/Reply.lean --- which runs of `handle_jump_request` answer the inbound stream.

  The handler is run against everything its operations may come back with, and the
  results it has written on the inbound stream are counted.  Five of its exits
  return through `?` without a result; all the others write one first.

  WHAT IS PROVED.

      replies_iff    a run that ends, and whose inbound stream stayed writable, has
                     written exactly one result, an error unless the chain was
                     established, if and only if it took none of the five exits
-/
import Sape.Foundation.Machine
import Sape.Relay

set_option autoImplicit false

namespace Sape

open Sape.Foundation

/-- A run of `handle_jump_request`: where it is, what it has written on the inbound
stream, and what its operations came back with. -/
structure Handler where
  task : JumpTask := .readingChain
  results : List JumpResult := []
  seen : List JumpEvent := []
  deriving DecidableEq, Repr, Inhabited

namespace Handler

/-- The result that an event puts on the inbound stream. -/
def written : Option JumpOp → JumpEvent → List JumpResult
  | some (.writeResult result), .resultWritten (.ok ()) => [result]
  | _, _ => []

/-- One operation of the handler comes back. -/
def step (text : Libp2pText) (nspace : String) (peer : PeerId) (handler : Handler)
    (event : JumpEvent) : Option Handler :=
  (handler.task.resume text peer event).map fun task =>
    { task := task
      results := handler.results ++ written (handler.task.op nspace) event
      seen := handler.seen ++ [event] }

/-- The handler as a machine over what its operations come back with. -/
def machine (text : Libp2pText) (nspace : String) (peer : PeerId) : Machine Handler JumpEvent where
  start := {}
  step := step text nspace peer

end Handler

/-- The events after which `handle_jump_request` returns without writing a result:
the dial channel is closed, the remaining chain cannot be written, no result
arrives from downstream. -/
def JumpEvent.silent : JumpEvent → Bool
  | .dialSent false => true
  | .chainWritten (.error _) => true
  | .resultRead (.error _) => true
  | _ => false

namespace JumpTask

/-- The chain is empty, or its first hop is a multiaddr with a peer id. -/
def HopOk (text : Libp2pText) (chain : JumpChain) : Prop :=
  chain.hops = [] ∨ ∃ hop remaining addr next, chain.hops = hop :: remaining ∧
    text.parseMultiaddr hop = .ok addr ∧ peerIdFromMultiaddr addr = some next

/-- The outbound stream was opened and, where hops remain, the next relay said `Ok`. -/
def Established (chain : JumpChain) (events : List JumpEvent) : Prop :=
  .streamOpened (.ok ()) ∈ events ∧ (chain.hops.tail ≠ [] → .resultRead (.ok .ok) ∈ events)

theorem parseHop_ok {text : Libp2pText} {hop : String} {addr : Multiaddr} {next : PeerId} :
    parseHop text hop = .ok (addr, next) ↔
      text.parseMultiaddr hop = .ok addr ∧ peerIdFromMultiaddr addr = some next := by
  unfold parseHop
  split
  · rename_i e hparse
    simp [hparse]
  · rename_i parsed hparse
    split
    · rename_i hpeer
      simp only [hparse, Except.ok.injEq, reduceCtorEq, false_iff, not_and]
      rintro rfl
      simp [hpeer]
    · rename_i peer hpeer
      simp only [hparse, Except.ok.injEq, Prod.mk.injEq]
      constructor
      · rintro ⟨rfl, rfl⟩
        exact ⟨rfl, hpeer⟩
      · rintro ⟨rfl, h⟩
        exact ⟨rfl, Option.some.inj (hpeer.symm.trans h)⟩

/-- None of the silent exits was taken. -/
def Loud (text : Libp2pText) (chain : JumpChain) (events : List JumpEvent) : Prop :=
  HopOk text chain ∧ ∀ event ∈ events, event.silent = false

theorem Loud.snoc {text : Libp2pText} {chain : JumpChain} {events : List JumpEvent}
    (h : Loud text chain events) {event : JumpEvent} (hevent : event.silent = false) :
    Loud text chain (events ++ [event]) := by
  refine ⟨h.1, fun e he => ?_⟩
  cases List.mem_append.mp he with
  | inl hold => exact h.2 e hold
  | inr hnew => exact List.mem_singleton.mp hnew ▸ hevent

theorem not_loud_snoc {text : Libp2pText} {chain : JumpChain} {events : List JumpEvent}
    {event : JumpEvent} (hevent : event.silent = true) :
    ¬ Loud text chain (events ++ [event]) := by
  intro h
  have := h.2 event (List.mem_append_right _ (List.mem_singleton_self event))
  rw [hevent] at this
  cases this

theorem Established.snoc {chain : JumpChain} {events : List JumpEvent}
    (h : Established chain events) (event : JumpEvent) :
    Established chain (events ++ [event]) :=
  ⟨List.mem_append_left _ h.1, fun hne => List.mem_append_left _ (h.2 hne)⟩

/-- What holds of a handler that has decoded `chain`. -/
def ReplyInv (text : Libp2pText) (chain : JumpChain) (handler : Handler) : Prop :=
  match handler.task with
  | .readingChain => False
  | .replying _ _ => handler.results = [] ∧ Loud text chain handler.seen
  | .dialing _ _ remaining | .opening _ remaining _ | .sleeping _ remaining _ =>
      handler.results = [] ∧ Loud text chain handler.seen ∧ remaining = chain.hops.tail
  | .writingChain _ | .readingResult =>
      handler.results = [] ∧ Loud text chain handler.seen ∧
        .streamOpened (.ok ()) ∈ handler.seen
  | .writingOk =>
      handler.results = [] ∧ Loud text chain handler.seen ∧ Established chain handler.seen
  | .bridging =>
      handler.results = [.ok] ∧ Loud text chain handler.seen ∧ Established chain handler.seen
  | .ended _ =>
      (handler.results = [] ∧
        (¬ Loud text chain handler.seen ∨ ∃ err, .resultWritten (.error err) ∈ handler.seen)) ∨
      Loud text chain handler.seen ∧ ((∃ message, handler.results = [.error message]) ∨
        handler.results = [.ok] ∧ Established chain handler.seen)

/-- The decoded chain brings the handler into the invariant. -/
theorem replyInv_afterChain (text : Libp2pText) (peer : PeerId) (chain : JumpChain) :
    ReplyInv text chain
      { task := afterChain text peer chain, seen := [.chainRead (.ok chain)] } := by
  have hquiet : ∀ event ∈ [JumpEvent.chainRead (.ok chain)], event.silent = false := by
    intro event hevent
    rw [List.mem_singleton.mp hevent]
    rfl
  obtain ⟨hhops, report, heq⟩ | ⟨hop, remaining, hhops, ⟨report, hparse, heq⟩ |
    ⟨addr, next, hparse, heq⟩⟩ := afterChain_cases text peer chain
  · rw [heq]
    exact ⟨rfl, .inl hhops, hquiet⟩
  · rw [heq]
    refine .inl ⟨rfl, .inl fun h => ?_⟩
    obtain hempty | ⟨hop', remaining', addr, next, hhops', hmultiaddr, hpeer⟩ := h.1
    · rw [hempty] at hhops
      cases hhops
    · rw [hhops] at hhops'
      obtain ⟨rfl, rfl⟩ := List.cons.inj hhops'
      rw [parseHop_ok.mpr ⟨hmultiaddr, hpeer⟩] at hparse
      cases hparse
  · rw [heq]
    obtain ⟨hmultiaddr, hpeer⟩ := parseHop_ok.mp hparse
    exact ⟨rfl, ⟨.inr ⟨hop, remaining, addr, next, hhops, hmultiaddr, hpeer⟩, hquiet⟩,
      by rw [hhops, List.tail_cons]⟩

theorem replyInv_step {text : Libp2pText} {nspace : String} {peer : PeerId} {chain : JumpChain}
    {handler next : Handler} {event : JumpEvent} (hinv : ReplyInv text chain handler)
    (h : Handler.step text nspace peer handler event = some next) :
    ReplyInv text chain next := by
  obtain ⟨task, hresume, rfl⟩ := Option.map_eq_some_iff.mp h
  obtain ⟨task₀, results, seen⟩ := handler
  unfold ReplyInv at hinv
  simp only at hresume hinv
  unfold ReplyInv
  simp only
  match task₀, event, hresume with
  | .replying message report, .resultWritten (.ok ()), hresume =>
      obtain rfl := Option.some.inj hresume
      obtain ⟨rfl, hloud⟩ := hinv
      exact .inr ⟨hloud.snoc rfl, .inl ⟨message, rfl⟩⟩
  | .replying message report, .resultWritten (.error err), hresume =>
      obtain rfl := Option.some.inj hresume
      obtain ⟨rfl, hloud⟩ := hinv
      exact .inl ⟨rfl, .inr ⟨err, by simp⟩⟩
  | .dialing addr nextPeer remaining, .dialSent true, hresume =>
      obtain rfl := Option.some.inj hresume
      obtain ⟨rfl, hloud, hremaining⟩ := hinv
      exact ⟨rfl, hloud.snoc rfl, hremaining⟩
  | .dialing addr nextPeer remaining, .dialSent false, hresume =>
      obtain rfl := Option.some.inj hresume
      exact .inl ⟨by rw [hinv.1]; rfl, .inl (not_loud_snoc rfl)⟩
  | .opening nextPeer remaining attempt, .streamOpened (.ok ()), hresume =>
      obtain rfl := Option.some.inj hresume
      obtain ⟨rfl, hloud, rfl⟩ := hinv
      have hopened : JumpEvent.streamOpened (.ok ()) ∈ seen ++ [.streamOpened (.ok ())] := by simp
      unfold afterOpen
      by_cases hempty : chain.hops.tail.isEmpty = true
      · rw [if_pos hempty]
        exact ⟨rfl, hloud.snoc rfl, hopened, fun hne => absurd (List.isEmpty_iff.mp hempty) hne⟩
      · rw [if_neg hempty]
        exact ⟨rfl, hloud.snoc rfl, hopened⟩
  | .opening nextPeer remaining attempt, .streamOpened (.error err), hresume =>
      obtain ⟨rfl, hloud, hremaining⟩ := hinv
      simp only [resume] at hresume
      split at hresume <;> obtain rfl := Option.some.inj hresume
      · exact ⟨rfl, hloud.snoc rfl, hremaining⟩
      · exact ⟨rfl, hloud.snoc rfl⟩
  | .sleeping nextPeer remaining attempt, .slept, hresume =>
      obtain rfl := Option.some.inj hresume
      obtain ⟨rfl, hloud, hremaining⟩ := hinv
      exact ⟨rfl, hloud.snoc rfl, hremaining⟩
  | .writingChain remaining, .chainWritten (.ok ()), hresume =>
      obtain rfl := Option.some.inj hresume
      obtain ⟨rfl, hloud, hopened⟩ := hinv
      exact ⟨rfl, hloud.snoc rfl, List.mem_append_left _ hopened⟩
  | .writingChain remaining, .chainWritten (.error err), hresume =>
      obtain rfl := Option.some.inj hresume
      exact .inl ⟨by rw [hinv.1]; rfl, .inl (not_loud_snoc rfl)⟩
  | .readingResult, .resultRead (.ok .ok), hresume =>
      obtain rfl := Option.some.inj hresume
      obtain ⟨rfl, hloud, hopened⟩ := hinv
      exact ⟨rfl, hloud.snoc rfl, List.mem_append_left _ hopened, fun _ => by simp⟩
  | .readingResult, .resultRead (.ok (.error message)), hresume =>
      obtain rfl := Option.some.inj hresume
      obtain ⟨rfl, hloud, -⟩ := hinv
      exact ⟨rfl, hloud.snoc rfl⟩
  | .readingResult, .resultRead (.error err), hresume =>
      obtain rfl := Option.some.inj hresume
      exact .inl ⟨by rw [hinv.1]; rfl, .inl (not_loud_snoc rfl)⟩
  | .writingOk, .resultWritten (.ok ()), hresume =>
      obtain rfl := Option.some.inj hresume
      obtain ⟨rfl, hloud, hestablished⟩ := hinv
      exact ⟨rfl, hloud.snoc rfl, hestablished.snoc _⟩
  | .writingOk, .resultWritten (.error err), hresume =>
      obtain rfl := Option.some.inj hresume
      obtain ⟨rfl, hloud, hestablished⟩ := hinv
      exact .inl ⟨rfl, .inr ⟨err, by simp⟩⟩
  | .bridging, .copied, hresume =>
      obtain rfl := Option.some.inj hresume
      obtain ⟨rfl, hloud, hestablished⟩ := hinv
      exact .inr ⟨hloud.snoc rfl, .inr ⟨rfl, hestablished.snoc _⟩⟩

theorem seen_of_exec {text : Libp2pText} {nspace : String} {peer : PeerId} :
    ∀ (events : List JumpEvent) {handler final : Handler},
      (Handler.machine text nspace peer).exec handler events = some final →
      final.seen = handler.seen ++ events := by
  intro events
  induction events with
  | nil =>
      intro handler final h
      simp only [Machine.exec_nil, Option.some.injEq] at h
      rw [← h, List.append_nil]
  | cons event events ih =>
      intro handler final h
      obtain ⟨next, hstep, hrest⟩ := Machine.exec_cons h
      obtain ⟨task, -, rfl⟩ := Option.map_eq_some_iff.mp hstep
      rw [ih hrest, List.append_assoc]
      rfl

/-- The handler writes exactly one result on its inbound stream, an error unless the
chain was established. -/
def Replies (chain : JumpChain) (events : List JumpEvent) (results : List JumpResult) : Prop :=
  ∃ result, results = [result] ∧
    (¬ Established chain events → ∃ message, result = .error message)

/-- A finished run that decoded `chain`, and whose inbound stream stayed writable,
replies if and only if its first hop was well formed and none of the silent events
happened. -/
theorem replies_iff {text : Libp2pText} {nspace : String} {peer : PeerId} {chain : JumpChain}
    {events : List JumpEvent} {final : Handler} {result : Except Report Unit}
    (hrun : (Handler.machine text nspace peer).Reaches (.chainRead (.ok chain) :: events) final)
    (hended : final.task = .ended result)
    (hwritable : ∀ err, JumpEvent.resultWritten (.error err) ∉ events) :
    Replies chain events final.results ↔
      HopOk text chain ∧ ∀ event ∈ events, event.silent = false := by
  obtain ⟨first, hfirst, hrest⟩ := Machine.exec_cons hrun
  obtain rfl : first = { task := afterChain text peer chain, seen := [.chainRead (.ok chain)] } :=
    (Option.some.inj hfirst).symm
  have hinv : ReplyInv text chain final :=
    Machine.exec_invariant (ReplyInv text chain) (fun h hstep => replyInv_step h hstep) events hrest
      (replyInv_afterChain text peer chain)
  have hseen : final.seen = .chainRead (.ok chain) :: events := seen_of_exec events hrest
  unfold ReplyInv at hinv
  rw [hended, hseen] at hinv
  -- the event that brought the chain is neither silent nor a step towards the next hop
  have hloud : Loud text chain (.chainRead (.ok chain) :: events) ↔
      HopOk text chain ∧ ∀ event ∈ events, event.silent = false := by
    simp [Loud, JumpEvent.silent]
  have hestablished : Established chain (.chainRead (.ok chain) :: events) →
      Established chain events := by
    simp [Established]
  rw [← hloud]
  obtain ⟨hnone, hquiet | ⟨err, herr⟩⟩ | ⟨h, ⟨message, hmessage⟩ | ⟨hok, hchain⟩⟩ := hinv
  · refine ⟨?_, fun h => absurd h hquiet⟩
    rintro ⟨reply, hreply, -⟩
    rw [hnone] at hreply
    cases hreply
  · have hmem : JumpEvent.resultWritten (.error err) ∈ events := by simpa using herr
    exact absurd hmem (hwritable err)
  · exact ⟨fun _ => h, fun _ => ⟨_, hmessage, fun _ => ⟨message, rfl⟩⟩⟩
  · exact ⟨fun _ => h, fun _ => ⟨_, hok, fun hnot => absurd (hestablished hchain) hnot⟩⟩

end JumpTask

end Sape
