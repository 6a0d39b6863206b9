/-
  Relay/Retry.lean --- how often `handle_jump_request` tries to open its outbound stream, and
  how long it waits.

  The attempts and the pauses between them are fixed beforehand, all but where they end.  What
  has been done of them is told from the place in that schedule and from what the attempts have
  come back with.

  WHAT IS PROVED.

      phase_step         an operation that comes back leads on in the schedule, or out of it
      attempts_follow    a run has followed the schedule, to its end only if every attempt
                         has failed
-/
import Mathlib.Tactic.IntervalCases
import Sape.Relay.Reply

set_option autoImplicit false

namespace Sape

open Sape.Foundation

/-- An attempt to open a stream, or the pause behind one. -/
def JumpOp.isAttempt : JumpOp → Bool
  | .openStream _ _ => true
  | .sleep _ => true
  | _ => false

/-- How long an operation is a pause. -/
def JumpOp.millis : JumpOp → Nat
  | .sleep millis => millis
  | _ => 0

/-- An attempt that has failed. -/
def JumpEvent.failed : JumpEvent → Bool
  | .streamOpened (.error _) => true
  | _ => false

/-- Whether the loop is over. -/
def JumpTask.isPast : JumpTask → Bool
  | .readingChain => false
  | .dialing _ _ _ => false
  | .opening _ _ _ => false
  | .sleeping _ _ _ => false
  | _ => true

/-- The loop of `handle_jump_request` where no attempt succeeds. -/
def schedule (nextPeer : PeerId) (protocol : StreamProtocol) : List JumpOp :=
  ((List.range 9).flatMap fun attempt =>
    [.openStream nextPeer protocol, .sleep (500 * (attempt + 1))]) ++
      [.openStream nextPeer protocol]

namespace Handler

/-- The attempts and pauses that have come back along a run. -/
def attempts (text : Libp2pText) (nspace : String) (peer : PeerId) :
    Handler → List JumpEvent → List JumpOp
  | _, [] => []
  | handler, event :: events =>
      match handler.step text nspace peer event with
      | none => []
      | some next =>
          (handler.task.op nspace).toList.filter JumpOp.isAttempt ++
            attempts text nspace peer next events

/-- How many attempts have failed. -/
def failures (handler : Handler) : Nat := handler.seen.countP JumpEvent.failed

/-- Whether a stream has been opened. -/
def Opened (handler : Handler) : Prop := .streamOpened (.ok ()) ∈ handler.seen

/-- Whether the loop is over, or has not been reached. -/
def Idle (nspace : String) (handler : Handler) : Prop :=
  ∀ op, handler.task.op nspace = some op → op.isAttempt = false

/-- How far a handler is in the schedule for the hops it has read. -/
inductive Phase (nspace : String) (nextPeer : PeerId) (remaining : List String)
    (handler : Handler) : Nat → Prop where
  | dialing {addr : Multiaddr} (htask : handler.task = .dialing addr nextPeer remaining)
      (hsent : .dialSent true ∉ handler.seen) (hopened : ¬ handler.Opened)
      (hfailed : handler.failures = 0) : Phase nspace nextPeer remaining handler 0
  | opening {attempt : Nat} (hlt : attempt < 10)
      (htask : handler.task = .opening nextPeer remaining attempt)
      (hsent : .dialSent true ∈ handler.seen) (hopened : ¬ handler.Opened)
      (hfailed : handler.failures = attempt) :
      Phase nspace nextPeer remaining handler (2 * attempt)
  | sleeping {attempt : Nat} (hlt : attempt < 9)
      (htask : handler.task = .sleeping nextPeer remaining attempt)
      (hsent : .dialSent true ∈ handler.seen) (hopened : ¬ handler.Opened)
      (hfailed : handler.failures = attempt + 1) :
      Phase nspace nextPeer remaining handler (2 * attempt + 1)
  | opened {attempt : Nat} (hlt : attempt < 10) (hpast : handler.task.isPast = true)
      (hopened : handler.Opened) (hfailed : handler.failures = attempt) :
      Phase nspace nextPeer remaining handler (2 * attempt + 1)
  | gaveUp (hpast : handler.task.isPast = true) (hopened : ¬ handler.Opened)
      (hfailed : handler.failures = 10) : Phase nspace nextPeer remaining handler 19
  | closed (hpast : handler.task.isPast = true) (hsent : .dialSent true ∉ handler.seen)
      (hopened : ¬ handler.Opened) (hfailed : handler.failures = 0) :
      Phase nspace nextPeer remaining handler 0

end Handler

/-! ## One step -/

theorem schedule_opening (nextPeer : PeerId) (protocol : StreamProtocol) {attempt : Nat}
    (hlt : attempt < 10) :
    (schedule nextPeer protocol).take (2 * attempt) ++ [.openStream nextPeer protocol] =
      (schedule nextPeer protocol).take (2 * attempt + 1) := by
  interval_cases attempt <;> rfl

theorem schedule_sleeping (nextPeer : PeerId) (protocol : StreamProtocol) {attempt : Nat}
    (hlt : attempt < 9) :
    (schedule nextPeer protocol).take (2 * attempt + 1) ++ [.sleep (500 * (attempt + 1))] =
      (schedule nextPeer protocol).take (2 * (attempt + 1)) := by
  interval_cases attempt <;> rfl

theorem JumpTask.isPast_resume {text : Libp2pText} {peer : PeerId} {task next : JumpTask}
    {event : JumpEvent} (hpast : task.isPast = true)
    (h : task.resume text peer event = some next) :
    next.isPast = true ∧ event.failed = false ∧ event ≠ .dialSent true ∧
      event ≠ .streamOpened (.ok ()) := by
  unfold JumpTask.resume at h
  split at h
  all_goals first
    | cases h
      done
    | cases hpast
      done
    | obtain rfl := Option.some.inj h
      exact ⟨rfl, rfl, nofun, nofun⟩

theorem JumpTask.not_attempt_of_isPast {task : JumpTask} (nspace : String)
    (hpast : task.isPast = true) : (task.op nspace).toList.filter JumpOp.isAttempt = [] := by
  cases task with
  | readingChain => cases hpast
  | dialing addr nextPeer remaining => cases hpast
  | opening nextPeer remaining attempt => cases hpast
  | sleeping nextPeer remaining attempt => cases hpast
  | _ => rfl

namespace Handler

variable {text : Libp2pText} {nspace : String} {peer nextPeer : PeerId} {remaining : List String}

theorem not_opened_snoc {task task' : JumpTask} {results results' : List JumpResult}
    {seen : List JumpEvent} {event : JumpEvent} (hevent : event ≠ .streamOpened (.ok ()))
    (h : ¬ Opened ⟨task, results, seen⟩) : ¬ Opened ⟨task', results', seen ++ [event]⟩ := by
  simpa [Opened, hevent.symm] using h

theorem failures_snoc {task : JumpTask} {results : List JumpResult} {seen : List JumpEvent}
    {event : JumpEvent} :
    failures ⟨task, results, seen ++ [event]⟩ =
      failures ⟨task, results, seen⟩ + if event.failed then 1 else 0 := by
  simp [failures, List.countP_append, List.countP_cons]

theorem phase_step {handler next : Handler} {event : JumpEvent} {count : Nat}
    (hphase : Phase nspace nextPeer remaining handler count)
    (h : handler.step text nspace peer event = some next) :
    ∃ count', Phase nspace nextPeer remaining next count' ∧
      (schedule nextPeer (JumpTask.outboundProtocol nspace remaining)).take count ++
          (handler.task.op nspace).toList.filter JumpOp.isAttempt =
        (schedule nextPeer (JumpTask.outboundProtocol nspace remaining)).take count' := by
  obtain ⟨task, hresume, rfl⟩ := Option.map_eq_some_iff.mp h
  obtain ⟨task₀, results, seen⟩ := handler
  cases hphase with
  | dialing htask hsent hopened hfailed =>
      obtain rfl : task₀ = _ := htask
      cases event with
      | dialSent sent =>
          cases sent with
          | true =>
              obtain rfl := Option.some.inj hresume
              exact ⟨2 * 0, .opening (by omega) rfl (List.mem_append_right _ List.mem_cons_self)
                (not_opened_snoc (by simp) hopened) (failures_snoc.trans hfailed), rfl⟩
          | false =>
              obtain rfl := Option.some.inj hresume
              exact ⟨0, .closed rfl (by simpa using hsent) (not_opened_snoc (by simp) hopened)
                (failures_snoc.trans hfailed), rfl⟩
      | _ => cases hresume
  | @opening attempt hlt htask hsent hopened hfailed =>
      obtain rfl : task₀ = _ := htask
      have hsent' : ∀ event, JumpEvent.dialSent true ∈ seen ++ [event] := fun event =>
        List.mem_append_left _ hsent
      cases event with
      | streamOpened result =>
          cases result with
          | ok =>
              obtain rfl := Option.some.inj hresume
              refine ⟨2 * attempt + 1, .opened hlt ?_ ?_ (failures_snoc.trans hfailed),
                schedule_opening _ _ hlt⟩
              · unfold JumpTask.afterOpen
                split <;> rfl
              · exact List.mem_append_right _ List.mem_cons_self
          | error err =>
              have hfailed' : failures ⟨task, results, seen ++ [.streamOpened (.error err)]⟩ =
                  attempt + 1 := failures_snoc.trans (congrArg (· + 1) hfailed)
              refine ⟨2 * attempt + 1, ?_, schedule_opening _ _ hlt⟩
              simp only [JumpTask.resume] at hresume
              split at hresume
              · rename_i hlt'
                obtain rfl := Option.some.inj hresume
                exact .sleeping hlt' rfl (hsent' _) (not_opened_snoc (by simp) hopened) hfailed'
              · rename_i hge
                obtain rfl := Option.some.inj hresume
                obtain rfl : attempt = 9 := by omega
                exact .gaveUp rfl (not_opened_snoc (by simp) hopened) hfailed'
      | _ => cases hresume
  | sleeping hlt htask hsent hopened hfailed =>
      obtain rfl : task₀ = _ := htask
      cases event with
      | slept =>
          obtain rfl := Option.some.inj hresume
          exact ⟨_, .opening (by omega) rfl (List.mem_append_left _ hsent)
            (not_opened_snoc (by simp) hopened) (failures_snoc.trans hfailed),
            schedule_sleeping _ _ hlt⟩
      | _ => cases hresume
  | opened hlt hpast hopened hfailed =>
      obtain ⟨hpast', hevent, -, -⟩ := JumpTask.isPast_resume hpast hresume
      refine ⟨_, .opened hlt hpast' (List.mem_append_left _ hopened) ?_, ?_⟩
      · rw [failures_snoc, hevent]
        exact hfailed
      · rw [JumpTask.not_attempt_of_isPast nspace hpast, List.append_nil]
  | gaveUp hpast hopened hfailed =>
      obtain ⟨hpast', hevent, -, hnot⟩ := JumpTask.isPast_resume hpast hresume
      refine ⟨_, .gaveUp hpast' (not_opened_snoc hnot hopened) ?_, ?_⟩
      · rw [failures_snoc, hevent]
        exact hfailed
      · rw [JumpTask.not_attempt_of_isPast nspace hpast, List.append_nil]
  | closed hpast hsent hopened hfailed =>
      obtain ⟨hpast', hevent, hsend, hnot⟩ := JumpTask.isPast_resume hpast hresume
      refine ⟨_, .closed hpast' ?_ (not_opened_snoc hnot hopened) ?_, ?_⟩
      · simpa [hsend.symm] using hsent
      · rw [failures_snoc, hevent]
        exact hfailed
      · rw [JumpTask.not_attempt_of_isPast nspace hpast, List.append_nil]

/-! ## Runs -/

theorem attempts_cons {handler next : Handler} {event : JumpEvent}
    (h : handler.step text nspace peer event = some next) (events : List JumpEvent) :
    attempts text nspace peer handler (event :: events) =
      (handler.task.op nspace).toList.filter JumpOp.isAttempt ++
        attempts text nspace peer next events := by
  rw [attempts, h]

theorem phase_exec (events : List JumpEvent) :
    ∀ {handler final : Handler} {count : Nat}, Phase nspace nextPeer remaining handler count →
      (machine text nspace peer).exec handler events = some final →
      ∃ count', Phase nspace nextPeer remaining final count' ∧
        (schedule nextPeer (JumpTask.outboundProtocol nspace remaining)).take count ++
            attempts text nspace peer handler events =
          (schedule nextPeer (JumpTask.outboundProtocol nspace remaining)).take count' := by
  induction events with
  | nil =>
      intro handler final count hphase hrun
      obtain rfl := Option.some.inj hrun
      exact ⟨count, hphase, List.append_nil _⟩
  | cons event events ih =>
      intro handler final count hphase hrun
      obtain ⟨next, hstep, hrest⟩ := Machine.exec_cons hrun
      obtain ⟨mid, hmid, htake⟩ := phase_step hphase hstep
      obtain ⟨count', hphase', htake'⟩ := ih hmid hrest
      refine ⟨count', hphase', ?_⟩
      rw [attempts_cons hstep, ← List.append_assoc, htake, htake']

theorem millis_take_le (nextPeer : PeerId) (protocol : StreamProtocol) (count : Nat) :
    (((schedule nextPeer protocol).take count).map JumpOp.millis).sum ≤ 22500 := by
  have hall : ((schedule nextPeer protocol).map JumpOp.millis).sum = 22500 := by
    simp [schedule, JumpOp.millis, List.range_succ]
  rw [← hall]
  conv_rhs => rw [← List.take_append_drop count (schedule nextPeer protocol)]
  rw [List.map_append, List.sum_append]
  exact Nat.le_add_right _ _

/-- A handler that has read a chain with a hop to dial tries at most ten times, and always the
same peer and protocol; its pauses grow by half a second and take 22.5 seconds at most.  It
tries no more once a stream is open, and goes on without one only after ten failures. -/
theorem attempts_follow {hop : String} {addr : Multiaddr} {events : List JumpEvent}
    {handler : Handler} (hparse : JumpTask.parseHop text hop = .ok (addr, nextPeer))
    (hrun : (machine text nspace peer).Reaches
      (.chainRead (.ok ⟨hop :: remaining⟩) :: events) handler) :
    ∃ count,
      attempts text nspace peer {} (.chainRead (.ok ⟨hop :: remaining⟩) :: events) =
          (schedule nextPeer (JumpTask.outboundProtocol nspace remaining)).take count ∧
        ((attempts text nspace peer {} (.chainRead (.ok ⟨hop :: remaining⟩) :: events)).map
          JumpOp.millis).sum ≤ 22500 ∧
        (handler.Opened → handler.failures < 10 ∧ count = 2 * handler.failures + 1) ∧
        (.dialSent true ∈ handler.seen → ¬ handler.Opened → handler.Idle nspace →
          handler.failures = 10 ∧ count = 19) := by
  have hstep : Handler.step text nspace peer {} (.chainRead (.ok ⟨hop :: remaining⟩)) =
      some { task := .dialing addr nextPeer remaining, results := [],
             seen := [.chainRead (.ok ⟨hop :: remaining⟩)] } := by
    simp only [Handler.step, JumpTask.resume, JumpTask.afterChain, hparse]
    rfl
  obtain ⟨next, hstep', hrest⟩ := Machine.exec_cons hrun
  obtain rfl := Option.some.inj (hstep.symm.trans hstep')
  obtain ⟨count, hphase, htake⟩ := phase_exec events
    (.dialing rfl (by simp) (by simp [Opened]) rfl) hrest
  rw [attempts_cons hstep]
  refine ⟨count, htake, ?_, ?_, ?_⟩
  · exact htake ▸ millis_take_le _ _ count
  · intro hopened
    cases hphase with
    | opened hlt _ _ hfailed => exact ⟨hfailed ▸ hlt, by rw [hfailed]⟩
    | dialing _ _ hnot => exact absurd hopened hnot
    | opening _ _ _ hnot => exact absurd hopened hnot
    | sleeping _ _ _ hnot => exact absurd hopened hnot
    | gaveUp _ hnot => exact absurd hopened hnot
    | closed _ _ hnot => exact absurd hopened hnot
  · intro hsent hnot hidle
    cases hphase with
    | gaveUp _ _ hfailed => exact ⟨hfailed, rfl⟩
    | dialing _ hunsent => exact absurd hsent hunsent
    | closed _ hunsent => exact absurd hsent hunsent
    | opened _ _ hopened => exact absurd hopened hnot
    | opening _ htask =>
        have hattempt := hidle _ (by rw [htask]; rfl)
        cases hattempt
    | sleeping _ htask =>
        have hattempt := hidle _ (by rw [htask]; rfl)
        cases hattempt

/-- One hop. -/
def oneHop : Libp2pText := .ofTable [("a", [.p2p ⟨[1]⟩])]

/-- The third attempt succeeds. -/
theorem attempts_follow_third :
    ∃ count,
      attempts oneHop "" ⟨[9]⟩ {} [.chainRead (.ok ⟨["a"]⟩), .dialSent true,
        .streamOpened (.error "refused"), .slept, .streamOpened (.error "refused"), .slept,
        .streamOpened (.ok ())] = (schedule ⟨[1]⟩ (tunnelProtocol "")).take count ∧ count = 5 := by
  obtain ⟨handler, hrun, hopened, hfailed⟩ : ∃ handler,
      (machine oneHop "" ⟨[9]⟩).Reaches [.chainRead (.ok ⟨["a"]⟩), .dialSent true,
        .streamOpened (.error "refused"), .slept, .streamOpened (.error "refused"), .slept,
        .streamOpened (.ok ())] handler ∧ handler.Opened ∧ handler.failures = 2 :=
    ⟨_, rfl, by simp [Opened], rfl⟩
  have hparse : JumpTask.parseHop oneHop "a" = .ok ([.p2p ⟨[1]⟩], ⟨[1]⟩) := by decide
  obtain ⟨count, htake, -, hcount, -⟩ := attempts_follow hparse hrun
  refine ⟨count, htake, ?_⟩
  rw [(hcount hopened).2, hfailed]

end Handler

end Sape
