/-
  Forward/Handover.lean --- a proxied connection behind the choice of a target.

  `Tunnelled` is what holds of a session from the end of its handshake on: what it took of the
  client's bytes was the request, what the client was sent before the copy were replies.  Behind
  both the client's connection is one that a forwarded port has accepted, so that every step of
  the session, of the listener or of the two ends is a step of the forwarded connection, and the
  reply alone is nothing to it.

  WHAT IS PROVED.

      behind_far ...    the same step on either side, as one equation for each kind of label
      tunnel_step       every step of a session with a target
-/
import Sape.Forward.Proxied

set_option autoImplicit false

namespace Sape.Proxy

open Sape.Foundation

theorem far_step_with (mode : BridgeMode) (bridge : Bridge) (client : Duplex UInt8)
    (origin : InboundTask) {label : BridgeLabel} (hlabel : farLabel label = true) :
    ({ bridge with client := client, origin := origin } : Bridge).step mode label =
      (bridge.step mode label).map fun next =>
        { next with client := client, origin := origin } := by
  cases label with
  | target action =>
      by_cases hreached : bridge.reached.isSome = true
      · simp [Bridge.step, hreached, Function.comp_def]
      · simp [Bridge.step, hreached]
  | poll =>
      by_cases hqueued : bridge.far = .queued
      · by_cases hdropped : mode.poll = .dropped
        · simp [Bridge.step, Bridge.farTo, hqueued, hdropped]
        · simp [Bridge.step, Bridge.farTo, hqueued, hdropped]
      · simp [Bridge.step, hqueued]
  | read outcome =>
      by_cases hreading : bridge.far = .reading
      · simp only [Bridge.step, Bridge.readStep, hreading, if_true]
        cases Sape.readStep readTunnelRequest (pipeOf bridge.stream.forth)
          (bridge.stream.forth.closed || bridge.stream.forth.cut) outcome with
        | none => rfl
        | some done =>
            by_cases hdropped : mode.dispatch done.1 = .dropped
            · simp [Bridge.farTo, hdropped]
            · simp [Bridge.farTo, hdropped]
      · simp [Bridge.step, Bridge.readStep, hreading]
  | connect result =>
      simp only [Bridge.step, Bridge.connectStep]
      split
      · split
        · split
          · rfl
          · rfl
        · rfl
        · rfl
      · rfl
  | farCopy way move =>
      simp only [Bridge.step, Bridge.farCopyStep]
      split
      · cases way with
        | forth | back => simp only [Option.map_map, Function.comp_def]
      · rfl
  | farDone =>
      simp only [Bridge.step, Bridge.farReturnStep]
      split
      · split
        · simp only [Option.map_map, Function.comp_def]
        · rfl
      · rfl
  | farFail err =>
      simp only [Bridge.step, Bridge.farReturnStep]
      split
      · simp only [Option.map_map, Function.comp_def]
      · rfl
  | farExit =>
      simp only [Bridge.step, Bridge.farExitStep]
      split
      · rfl
      · rfl
  | client | origin | nearCopy | nearDone | nearFail | nearExit => cases hlabel

/-- Neither does anything to the client's connection, or to the task of the session. -/
theorem far_step_leaves {mode : BridgeMode} {bridge next : Bridge} {label : BridgeLabel}
    (hlabel : farLabel label = true) (h : bridge.step mode label = some next) :
    next.client = bridge.client ∧ next.origin = bridge.origin := by
  have hsame := far_step_with mode bridge bridge.client bridge.origin hlabel
  rw [show ({ bridge with client := bridge.client, origin := bridge.origin } : Bridge) = bridge
    from rfl, h, Option.map_some] at hsame
  have hnext := Option.some.inj hsame
  exact ⟨by rw [hnext], by rw [hnext]⟩

namespace ProxyTask

/-- A session that is done with the client's request, for this target. -/
def For (target : String) : ProxyTask → Prop
  | .opening _ named => named = target
  | .writing _ named => named = target
  | .replying _ _ => True
  | .copying _ _ => True
  | .ended _ => True
  | _ => False

/-- A session between the client's request and the copy. -/
def connecting : ProxyTask → Bool
  | .opening _ _ | .writing _ _ | .replying _ _ => true
  | _ => false

/-- What is known of the client's bytes while a session is in its handshake. -/
def Heard (sent : Bytes) (head : Nat) : ProxyTask → Prop
  | .peeking => head = 0
  | .readingHead => head = 0
  | .greeting => sent.head? = some 0x05
  | .readingCommand => sent.head? = some 0x05
  | _ => True

/-- What a client has said first stays what it has said first. -/
theorem Heard.append {sent : Bytes} {head : Nat} {task : ProxyTask} (h : task.Heard sent head)
    (items : Bytes) : task.Heard (sent ++ items) head := by
  have hfirst : sent.head? = some 0x05 → (sent ++ items).head? = some 0x05 := by
    intro hhead
    cases sent with
    | nil => cases hhead
    | cons byte sent => exact hhead
  cases task with
  | greeting | readingCommand => exact hfirst h
  | _ => exact h

theorem For.resume {target : String} {task task' : ProxyTask} {event : ProxyEvent}
    (h : task.For target) (hresume : task.resume event = some task') :
    task'.For target ∧ task'.target = none ∧
      (task'.connecting = true → task.connecting = true) := by
  cases task with
  | opening kind named =>
      cases event with
      | streamOpened result =>
          cases result with
          | ok =>
              obtain rfl := Option.some.inj hresume
              exact ⟨h, rfl, fun _ => rfl⟩
          | error err =>
              obtain rfl := Option.some.inj hresume
              exact ⟨trivial, rfl, fun _ => rfl⟩
      | _ => cases hresume
  | writing kind named =>
      cases event with
      | requestWritten result =>
          cases result with
          | ok | error =>
              obtain rfl := Option.some.inj hresume
              exact ⟨trivial, rfl, fun _ => rfl⟩
      | _ => cases hresume
  | replying kind named =>
      cases event with
      | replied result =>
          cases result with
          | ok | error =>
              obtain rfl := Option.some.inj hresume
              exact ⟨trivial, rfl, fun _ => rfl⟩
      | _ => cases hresume
  | copying kind named =>
      cases event with
      | copied result =>
          cases result with
          | ok | error =>
              obtain rfl := Option.some.inj hresume
              exact ⟨trivial, rfl, id⟩
      | _ => cases hresume
  | ended result => cases hresume
  | peeking | greeting | readingCommand | readingHead | refusing => exact h.elim

end ProxyTask

/-- The client has named a target: over SOCKS5 in its command, and otherwise in a head, with
which the dialer has taken what it took, and lost what its reader still had. -/
def Asked (target : String) (session : Proxied) : Prop :=
  session.named = some target ∧
    (session.client.forth.sent.head? = some 0x05 ∧ session.lost = 0 ∨
      ∃ reads rest, readHead { pending := reads } = .ok (target, rest) ∧
        reads.flatten = session.client.forth.sent.take session.taken ∧
        session.lost = rest.rest.length)

/-- What a client sends later does not change what it has asked for. -/
theorem Asked.append {target : String} {session : Proxied} (h : Asked target session)
    (hthere : session.taken ≤ session.client.forth.sent.length) {tunnel : Bridge} {items : Bytes}
    (hsent : tunnel.client.forth.sent = session.client.forth.sent ++ items) :
    Asked target { session with tunnel := tunnel } := by
  refine ⟨h.1, h.2.imp (fun ⟨hfirst, hlost⟩ => ⟨?_, hlost⟩)
    fun ⟨reads, rest, hread, htook, hlost⟩ => ⟨reads, rest, hread, ?_, hlost⟩⟩
  · show tunnel.client.forth.sent.head? = some 0x05
    rw [hsent]
    cases hbytes : session.client.forth.sent with
    | nil =>
        rw [hbytes] at hfirst
        cases hfirst
    | cons byte sent =>
        rw [hbytes] at hfirst
        exact hfirst
  · show reads.flatten = tunnel.client.forth.sent.take session.taken
    rw [htook, hsent, List.take_append_of_le_length hthere]

namespace Proxied

variable {dialer : PeerId} {allowedPeers : List PeerId} {target : String} {session next : Proxied}

/-! ### What a step was -/

theorem head_of_step {reads : List Bytes}
    (h : session.step dialer allowedPeers (.head reads) = some next) :
    HeadRead session.client.forth reads ∧
      { session with
        named := ((readHead { pending := reads }).map Prod.fst).toOption.or session.named
      }.handshakeStep (.headRead ((readHead { pending := reads }).map Prod.fst))
        (reads.flatten.length - overRead reads) (overRead reads) [] = some next := by
  simp only [step] at h
  split at h
  · rename_i hread
    exact ⟨hread, h⟩
  · cases h

theorem nearCopy_of_step {way : Way} {move : SpliceMove}
    (h : session.step dialer allowedPeers (.nearCopy way move) = some next) :
    (∃ kind named, session.task = .copying kind named) ∧
      ∃ tunnel, session.tunnel.nearCopyStep way move = some tunnel ∧
        next = { session with tunnel := tunnel } := by
  simp only [step] at h
  split at h
  · rename_i hcopies
    obtain ⟨tunnel, htunnel, rfl⟩ := Option.map_eq_some_iff.mp h
    refine ⟨?_, tunnel, htunnel, rfl⟩
    unfold copies at hcopies
    split at hcopies
    · rename_i kind named hcase
      exact ⟨kind, named, hcase⟩
    · cases hcopies
  · cases h

theorem nearDone_of_step (h : session.step dialer allowedPeers .nearDone = some next) :
    ∃ task, session.task.resume (.copied (.ok ())) = some task ∧
      next = { session with
        task := task, tunnel := { session.tunnel with origin := task.origin } } := by
  simp only [step, nearDoneStep] at h
  split at h
  · obtain ⟨task, hresume, rfl⟩ := Option.map_eq_some_iff.mp h
    exact ⟨task, hresume, rfl⟩
  · cases h

theorem far_of_step {label : BridgeLabel}
    (h : session.step dialer allowedPeers (.far label) = some next) :
    farLabel label = true ∧
      ∃ tunnel, session.tunnel.step (session.mode dialer allowedPeers) label = some tunnel ∧
        next = { session with tunnel := tunnel } := by
  simp only [step] at h
  split at h
  · rename_i hlabel
    obtain ⟨tunnel, htunnel, rfl⟩ := Option.map_eq_some_iff.mp h
    exact ⟨hlabel, tunnel, htunnel, rfl⟩
  · cases h

/-- A session that has a target, and has told its client nothing but replies until it copies. -/
structure Tunnelled (target : String) (session : Proxied) : Prop where
  chosen : session.chosen = some target
  task : session.task.For target
  asked : Asked target session
  origin : session.tunnel.origin = session.task.origin
  head : session.taken ≤ session.client.forth.taken
  there : session.taken ≤ session.client.forth.sent.length
  replied : session.replied ≤ session.client.back.sent.length
  quiet : session.task.connecting = true →
    session.replied = session.client.back.sent.length ∧
      session.client.back.taken ≤ session.replied

/-- The mode of the forwarded connection to a target. -/
abbrev modeTo (dialer : PeerId) (allowedPeers : List PeerId) (target : String) : BridgeMode :=
  .localForward dialer allowedPeers target

/-! ### One step of either is one of the other -/

theorem behind_far (h : Tunnelled target session) {label : BridgeLabel}
    (hlabel : farLabel label = true) :
    (session.step dialer allowedPeers (.far label)).map behind =
      session.behind.step (modeTo dialer allowedPeers target) label := by
  have hmode : session.mode dialer allowedPeers = modeTo dialer allowedPeers target := by
    rw [mode, h.chosen, Option.getD_some]
  show ((if farLabel label then _ else none : Option Proxied).map behind) = _
  rw [if_pos hlabel, hmode, Option.map_map]
  refine Eq.trans ?_ (far_step_with _ session.tunnel
    (session.tunnel.client.behind session.taken session.replied) session.tunnel.origin hlabel).symm
  refine Option.map_congr fun tunnel htunnel => ?_
  obtain ⟨hclient, horigin⟩ := far_step_leaves hlabel htunnel
  simp only [Function.comp_apply, behind, hclient, ← horigin]

theorem behind_nearExit :
    (session.step dialer allowedPeers .nearExit).map behind =
      session.behind.step (modeTo dialer allowedPeers target) .nearExit := rfl

theorem behind_client (h : Tunnelled target session) {action : ConduitAct UInt8}
    (hread : action.writes = true ∨ session.replied ≤ session.client.back.taken) :
    (session.step dialer allowedPeers (.client action)).map behind =
      session.behind.step (modeTo dialer allowedPeers target) (.client action) := by
  show (Option.map _ _).map behind = Option.map _ _
  cases hwrites : action.writes with
  | true =>
      have hforth := Conduit.step_behind_of_writes h.there hwrites
      simp only [Duplex.act, Duplex.onForth, hwrites, if_true, behind, Duplex.behind, hforth,
        Option.map_map, client] 
      rfl
  | false =>
      have htaken : session.replied ≤ session.client.back.taken := by
        simpa [hwrites] using hread
      have hback := Conduit.step_behind_of_read htaken hwrites
      simp only [Duplex.act, Duplex.onForth, hwrites, Bool.false_eq_true, if_false, behind,
        Duplex.behind, hback, Option.map_map, client]
      rfl

theorem behind_nearCopy (h : Tunnelled target session) {kind : ProxyKind} {named : String}
    (htask : session.task = .copying kind named) (way : Way) (move : SpliceMove) :
    (session.step dialer allowedPeers (.nearCopy way move)).map behind =
      session.behind.step (modeTo dialer allowedPeers target) (.nearCopy way move) := by
  have hcopies : session.copies = true := by rw [copies, htask]
  have horigin : session.tunnel.origin = .copying := by rw [h.origin, htask]; rfl
  show (if session.copies then _ else none : Option Proxied).map behind = _
  rw [if_pos hcopies]
  cases way with
  | forth =>
      have hsplice := session.tunnel.nearCopy.forth.step_behind session.tunnel.stream.forth h.head
        move
      simp only [Bridge.step, Bridge.nearCopyStep, behind, Duplex.behind, horigin, if_true,
        Option.map_map, client] at hsplice ⊢
      rw [hsplice, Option.map_map]
      rfl
  | back =>
      have hsplice := session.tunnel.nearCopy.back.step_into_behind session.tunnel.stream.back
        h.replied move
      simp only [Bridge.step, Bridge.nearCopyStep, behind, Duplex.behind, horigin, if_true,
        Option.map_map, client] at hsplice ⊢
      rw [hsplice, Option.map_map]
      rfl


/-- A session that is past its request and its reply. -/
theorem behind_nearDone (h : Tunnelled target session)
    (hreplying : ∀ kind named, session.task ≠ .replying kind named) :
    (session.step dialer allowedPeers .nearDone).map behind =
      session.behind.step (modeTo dialer allowedPeers target) .nearDone := by
  have horigin : session.behind.origin = session.task.origin := h.origin
  have htask := h.task
  show session.nearDoneStep.map behind = session.behind.nearDoneStep
  unfold nearDoneStep Bridge.nearDoneStep
  by_cases hdone : session.tunnel.nearCopy.forth.done = true ∧
      session.tunnel.nearCopy.back.done = true
  · have hdone' : session.behind.nearCopy.forth.done = true ∧
        session.behind.nearCopy.back.done = true := hdone
    rw [if_pos hdone, if_pos hdone', horigin]
    cases hcase : session.task with
    | replying kind named => exact absurd hcase (hreplying kind named)
    | opening | writing | copying | ended => rfl
    | peeking | greeting | readingCommand | readingHead | refusing =>
        rw [hcase] at htask
        exact htask.elim
  · have hdone' : ¬ (session.behind.nearCopy.forth.done = true ∧
        session.behind.nearCopy.back.done = true) := hdone
    rw [if_neg hdone, if_neg hdone']
    rfl

theorem behind_nearFail (h : Tunnelled target session)
    (hreplying : ∀ kind named, session.task ≠ .replying kind named) (err : IoError) :
    (session.step dialer allowedPeers (.nearFail err)).map behind =
      session.behind.step (modeTo dialer allowedPeers target) .nearFail := by
  have horigin : session.behind.origin = session.task.origin := h.origin
  have htask := h.task
  show (session.taskTo (.copied (.error err))).map behind =
    if session.behind.origin = .copying then session.behind.originTo .copied else none
  unfold taskTo Bridge.originTo
  rw [horigin]
  cases hcase : session.task with
  | replying kind named => exact absurd hcase (hreplying kind named)
  | opening | writing | copying | ended => rfl
  | peeking | greeting | readingCommand | readingHead | refusing =>
      rw [hcase] at htask
      exact htask.elim

theorem behind_origin (h : Tunnelled target session) (outcome : Outcome) :
    (session.step dialer allowedPeers (.origin outcome)).map behind =
      session.behind.step (modeTo dialer allowedPeers target) (.origin outcome) := by
  have horigin : session.behind.origin = session.task.origin := h.origin
  have htask := h.task
  show (session.originStep outcome).map behind = session.behind.originStep _ outcome
  unfold originStep Bridge.originStep
  rw [horigin]
  cases hcase : session.task with
  | opening kind named =>
      cases outcome with
      | proceed =>
          by_cases habsent : session.tunnel.far = .absent
          · have habsent' : session.behind.far = .absent := habsent
            simp only [habsent, habsent', if_true, taskTo, Bridge.originTo]
            rfl
          · have habsent' : session.behind.far ≠ .absent := habsent
            simp only [habsent, habsent', if_false, ProxyTask.origin]
            rfl
      | refused err =>
          simp only [taskTo, Bridge.originTo, ProxyTask.origin, hcase, horigin]
          rfl
      | eof | broken => rfl
  | writing kind named =>
      rw [hcase] at htask
      obtain rfl : named = target := htask
      have hstream : session.behind.stream = session.tunnel.stream := rfl
      have hrequest : (modeTo dialer allowedPeers named).request = .localForward named := rfl
      simp only [ProxyTask.origin, hstream, hrequest]
      cases writeStep (writeTunnelRequest (.localForward named))
        (pipeOf session.tunnel.stream.forth) outcome with
      | none => rfl
      | some done =>
          obtain ⟨result, pipe⟩ := done
          cases result with
          | ok =>
            simp only [taskTo, Bridge.originTo]
            rfl
          | error =>
            simp only [taskTo, Bridge.originTo]
            rfl
  | replying | copying | ended => rfl
  | peeking | greeting | readingCommand | readingHead | refusing =>
      rw [hcase] at htask
      exact htask.elim


/-- What is said in the handshake is not there behind it. -/
theorem behind_exchange
    (hquiet : session.replied = session.client.back.sent.length ∧
      session.client.back.taken ≤ session.replied) (said : Bytes) :
    (session.exchange 0 0 said).behind = session.behind := by
  have hback := Conduit.behind_put_head hquiet.1 said hquiet.2
  simp only [behind, exchange, Duplex.behind, taken, hback, Nat.add_zero]
  rfl

/-- The session goes on, or returns. -/
theorem Tunnelled.taskTo (h : Tunnelled target session) {event : ProxyEvent}
    (hstep : session.taskTo event = some next) : Tunnelled target next := by
  obtain ⟨task, hresume, rfl⟩ := Option.map_eq_some_iff.mp hstep
  obtain ⟨hfor, htarget, hconnecting⟩ := h.task.resume hresume
  by_cases hended : task.isEnded = true
  · rw [if_pos hended]
    cases task with
    | ended result =>
        exact ⟨h.chosen, hfor, h.asked, rfl, h.head, h.there, h.replied, fun hquiet => by
          cases hquiet⟩
    | _ => cases hended
  · rw [if_neg hended]
    refine ⟨?_, hfor, h.asked, rfl, h.head, h.there, h.replied, fun hquiet =>
      h.quiet (hconnecting hquiet)⟩
    show task.target.or session.chosen = some target
    rw [htarget, Option.none_or, h.chosen]

theorem reply_step (h : Tunnelled target session) {bytes : Bytes} {outcome : Outcome}
    (hstep : session.step dialer allowedPeers (.reply bytes outcome) = some next) :
    Tunnelled target next ∧
      (next.behind = session.behind ∨ next.task.isEnded = true ∧
        session.behind.step (modeTo dialer allowedPeers target) .nearFail = some next.behind) := by
  have htask := h.task
  have hstep' : session.replyStep bytes outcome = some next := hstep
  unfold replyStep at hstep'
  split at hstep'
  · cases hstep'
  · rename_i reply hsending
    obtain ⟨kind, named, hcase⟩ : ∃ kind named, session.task = .replying kind named := by
      unfold sending at hsending
      split at hsending
      · rename_i line hcase
        rw [hcase] at htask
        exact htask.elim
      · rename_i kind named hcase
        exact ⟨kind, named, hcase⟩
      · cases hsending
    have hquiet := h.quiet (by rw [hcase]; rfl)
    split at hstep'
    · split at hstep'
      · cases hstep'
      · rename_i done pipe hwrite
        generalize pipe.sent.drop session.client.back.sent.length = said at hstep'
        have hsaid := behind_exchange hquiet said
        have hexchange : Tunnelled target (session.exchange 0 0 said) := by
          refine ⟨h.chosen, h.task, h.asked, h.origin, h.head, h.there, ?_, fun _ => ⟨?_, ?_⟩⟩
          · show session.replied + said.length ≤ (session.client.back.sent ++ said).length
            rw [List.length_append, hquiet.1]
          · show session.replied + said.length = (session.client.back.sent ++ said).length
            rw [List.length_append, hquiet.1]
          · exact Nat.le_trans hquiet.2 (Nat.le_add_right _ _)
        refine ⟨hexchange.taskTo hstep', ?_⟩
        have horigin : session.behind.origin = .copying := by
          show session.tunnel.origin = .copying
          rw [h.origin, hcase]
          rfl
        obtain ⟨task, hresume, rfl⟩ := Option.map_eq_some_iff.mp hstep'
        have hresume' : session.task.resume (.replied done) = some task := hresume
        rw [hcase] at hresume'
        cases done with
        | ok =>
            obtain rfl := Option.some.inj hresume'
            left
            rw [← hsaid]
            simp only [behind, exchange, ProxyTask.isEnded, Bool.false_eq_true, if_false,
              ProxyTask.origin, h.origin, hcase]
        | error err =>
            obtain rfl := Option.some.inj hresume'
            refine .inr ⟨rfl, ?_⟩
            rw [← hsaid] at horigin ⊢
            simp only [Bridge.step, Bridge.originTo, horigin, if_true, InboundTask.resume,
              Option.map_some, ProxyTask.isEnded]
            rfl
    · cases hstep'


/-- What the client does on its connection, and the dialer by copying. -/
theorem Tunnelled.withClient (h : Tunnelled target session) {tunnel : Bridge}
    (horigin : tunnel.origin = session.tunnel.origin)
    (hsent : ∃ items, tunnel.client.forth.sent = session.client.forth.sent ++ items)
    (htaken : session.client.forth.taken ≤ tunnel.client.forth.taken)
    (hback : session.client.back.sent.length ≤ tunnel.client.back.sent.length)
    (hquiet : session.task.connecting = true →
      tunnel.client.back.sent = session.client.back.sent ∧
        tunnel.client.back.taken ≤ session.replied) :
    Tunnelled target { session with tunnel := tunnel } := by
  obtain ⟨items, hitems⟩ := hsent
  refine ⟨h.chosen, h.task, h.asked.append h.there hitems, horigin.trans h.origin,
    Nat.le_trans h.head htaken, ?_, Nat.le_trans h.replied hback, fun hconnecting => ?_⟩
  · show session.taken ≤ tunnel.client.forth.sent.length
    rw [hitems, List.length_append]
    exact Nat.le_trans h.there (Nat.le_add_right _ _)
  · obtain ⟨hsame, hle⟩ := hquiet hconnecting
    refine ⟨?_, hle⟩
    show session.replied = tunnel.client.back.sent.length
    rw [hsame, (h.quiet hconnecting).1]

theorem Tunnelled.sameClient (h : Tunnelled target session) {tunnel : Bridge}
    (horigin : tunnel.origin = session.tunnel.origin) (hclient : tunnel.client = session.client) :
    Tunnelled target { session with tunnel := tunnel } := by
  refine h.withClient horigin ⟨[], ?_⟩ ?_ ?_ fun hconnecting => ⟨?_, ?_⟩
  · rw [hclient, List.append_nil]
  · rw [hclient]
  · rw [hclient]
  · rw [hclient]
  · rw [hclient]
    exact (h.quiet hconnecting).2

/-- An act of the client is one behind the handshake, less what it still takes of the reply. -/
theorem client_step (h : Tunnelled target session) {action : ConduitAct UInt8}
    (hstep : session.step dialer allowedPeers (.client action) = some next) :
    Tunnelled target next ∧
      ∃ action', session.behind.step (modeTo dialer allowedPeers target) (.client action') =
        some next.behind := by
  have hbehind : action.writes = true ∨ session.replied ≤ session.client.back.taken →
      some next.behind =
        session.behind.step (modeTo dialer allowedPeers target) (.client action) := fun hread => by
    rw [← behind_client h hread, hstep, Option.map_some]
  obtain ⟨client, hact, rfl⟩ := Option.map_eq_some_iff.mp hstep
  obtain ⟨hon, hforth, hback⟩ | ⟨hoff, hback, hforth⟩ := Duplex.act_cases hact
  · obtain ⟨htaken, -, hsent⟩ := Conduit.sent_of_writes hforth hon
    refine ⟨h.withClient rfl hsent (Nat.le_of_eq htaken.symm) (hback ▸ Nat.le_refl _)
      fun hconnecting => ?_, action, (hbehind (.inl hon)).symm⟩
    exact ⟨by rw [← hback], hback ▸ (h.quiet hconnecting).2⟩
  · obtain ⟨hsent, -, ⟨-, hwithin⟩, -⟩ := Conduit.taken_of_read hback hoff
    have hnext : Tunnelled target { session with tunnel := { session.tunnel with
        client := client } } := by
      refine h.withClient rfl ⟨[], by rw [hforth, List.append_nil]⟩ (hforth ▸ Nat.le_refl _)
        (hsent ▸ Nat.le_refl _) fun hconnecting => ⟨hsent, ?_⟩
      obtain ⟨hreplied, htaken⟩ := h.quiet hconnecting
      rw [hreplied] at htaken ⊢
      exact hwithin htaken
    refine ⟨hnext, ?_⟩
    by_cases htaken : session.replied ≤ session.client.back.taken
    · exact ⟨action, (hbehind (.inr htaken)).symm⟩
    have hle := Nat.le_of_not_le htaken
    have hclient : client = { forth := session.tunnel.client.forth, back := client.back } := by
      rw [← hforth]
    cases action with
    | send | close => cases hoff
    | receive items =>
        refine ⟨.receive (items.drop (session.replied - session.client.back.taken)), ?_⟩
        have hreceive := Conduit.receive_behind hback hle
        simp only [Bridge.step, Duplex.act, Duplex.onForth, ConduitAct.writes, behind,
          Duplex.behind, Bool.false_eq_true, if_false]
        rw [hreceive, hclient]
        rfl
    | finish =>
        refine ⟨.finish, ?_⟩
        have hfinish := Conduit.finish_behind_of_step hback session.replied
        simp only [Bridge.step, Duplex.act, Duplex.onForth, ConduitAct.writes, behind,
          Duplex.behind, Bool.false_eq_true, if_false]
        rw [hfinish, hclient]
        rfl

theorem nearCopy_step (h : Tunnelled target session) {way : Way} {move : SpliceMove}
    (hstep : session.step dialer allowedPeers (.nearCopy way move) = some next) :
    Tunnelled target next ∧
      session.behind.step (modeTo dialer allowedPeers target) (.nearCopy way move) =
        some next.behind := by
  obtain ⟨⟨kind, named, hcase⟩, tunnel, htunnel, rfl⟩ := nearCopy_of_step hstep
  refine ⟨?_, by rw [← behind_nearCopy h hcase, hstep, Option.map_some]⟩
  have hquiet : session.task.connecting ≠ true := by
    rw [hcase]
    exact Bool.false_ne_true
  unfold Bridge.nearCopyStep at htunnel
  split at htunnel
  · cases way with
    | forth =>
        obtain ⟨⟨splice, source, sink⟩, hsplice, rfl⟩ := Option.map_eq_some_iff.mp htunnel
        have hleaves := Splice.step_leaves hsplice
        exact h.withClient rfl ⟨[], by simp only [hleaves.sent, List.append_nil]⟩
          (Splice.step_grows hsplice).1 (Nat.le_refl _) fun hc => absurd hc hquiet
    | back =>
        obtain ⟨⟨splice, source, sink⟩, hsplice, rfl⟩ := Option.map_eq_some_iff.mp htunnel
        exact h.withClient rfl ⟨[], (List.append_nil _).symm⟩ (Nat.le_refl _)
          (Splice.step_grows hsplice).2 fun hc => absurd hc hquiet
  · cases htunnel

/-- The labels of the handshake. -/
def ofHandshake : ProxiedLabel → Bool
  | .peek _ | .greet _ _ _ | .command _ _ _ | .head _ | .headFail _ _ => true
  | _ => false

theorem handshaking_of_step {label : ProxiedLabel} (hlabel : ofHandshake label = true)
    (hstep : session.step dialer allowedPeers label = some next) :
    session.task.handshaking = true := by
  have hshake : ∀ {session : Proxied} {event : ProxyEvent} {count lost : Nat} {reply : Bytes},
      session.handshakeStep event count lost reply = some next →
      session.task.handshaking = true := by
    intro session event count lost reply h
    unfold handshakeStep at h
    split at h
    · rename_i hhand
      exact hhand.1
    · cases h
  have hpeek : ∀ {result : Except IoError UInt8}, session.taskTo (.peeked result) = some next →
      session.task.handshaking = true := by
    intro result h
    obtain ⟨task, hresume, -⟩ := Option.map_eq_some_iff.mp h
    cases hcase : session.task with
    | peeking => rfl
    | _ =>
        rw [hcase] at hresume
        cases hresume
  cases label with
  | peek result =>
      have hstep' : session.peekStep result = some next := hstep
      unfold peekStep at hstep'
      split at hstep'
      · split at hstep'
        · exact hpeek hstep'
        · cases hstep'
      · exact hpeek hstep'
  | greet | headFail => exact hshake hstep
  | command result count reply =>
      have hcommand : { session with
          named := (result.toOption.map Prod.snd).or session.named }.task.handshaking = true :=
        hshake hstep
      exact hcommand
  | head reads =>
      have hhead : { session with
          named := ((readHead { pending := reads }).map Prod.fst).toOption.or session.named
        }.task.handshaking = true := hshake (head_of_step hstep).2
      exact hhead
  | _ => cases hlabel

/-- In front of the copy. -/
theorem origin_tunnelled (h : Tunnelled target session) {outcome : Outcome}
    (hstep : session.originStep outcome = some next) : Tunnelled target next := by
  unfold originStep at hstep
  split at hstep
  · split at hstep
    · split at hstep
      · refine Tunnelled.taskTo ?_ hstep
        exact h.sameClient rfl rfl
      · cases hstep
    · exact h.taskTo hstep
    · cases hstep
  · split at hstep
    · cases hstep
    · refine Tunnelled.taskTo ?_ hstep
      exact h.sameClient rfl rfl
  · cases hstep

/-- The copy passes both ends on. -/
theorem nearDone_tunnelled (h : Tunnelled target session)
    (hstep : session.step dialer allowedPeers .nearDone = some next) :
    Tunnelled target next ∧ ∀ kind named, session.task ≠ .replying kind named := by
  obtain ⟨task, hresume, rfl⟩ := nearDone_of_step hstep
  obtain ⟨hfor, -, hconnecting⟩ := h.task.resume hresume
  refine ⟨⟨h.chosen, hfor, h.asked, rfl, h.head, h.there, h.replied, fun hc =>
    h.quiet (hconnecting hc)⟩, fun kind named hcase => ?_⟩
  rw [hcase] at hresume
  cases hresume

/-- Behind the choice of a target the handshake is over. -/
theorem not_ofHandshake (h : Tunnelled target session) {label : ProxiedLabel}
    (hstep : session.step dialer allowedPeers label = some next) : ofHandshake label ≠ true := by
  intro hlabel
  have htask := h.task
  have hhand := handshaking_of_step hlabel hstep
  cases hcase : session.task with
  | peeking | greeting | readingCommand | readingHead | refusing =>
      rw [hcase] at htask
      exact htask
  | _ =>
      rw [hcase] at hhand
      cases hhand

/-- Behind the choice of a target, a step is one of the forwarded connection to it, or nothing
to it. -/
theorem tunnel_step (h : Tunnelled target session) {label : ProxiedLabel}
    (hstep : session.step dialer allowedPeers label = some next) :
    Tunnelled target next ∧
      (next.behind = session.behind ∨
        ∃ label', session.behind.step (modeTo dialer allowedPeers target) label' =
          some next.behind) := by
  have hdone := not_ofHandshake h hstep
  cases label with
  | peek | greet | command | head | headFail => exact absurd rfl hdone
  | client action =>
      obtain ⟨hnext, action', hbehind⟩ := client_step h hstep
      exact ⟨hnext, .inr ⟨_, hbehind⟩⟩
  | reply bytes outcome =>
      obtain ⟨hnext, hbehind⟩ := reply_step h hstep
      exact ⟨hnext, hbehind.imp_right fun hfail => ⟨_, hfail.2⟩⟩
  | origin outcome =>
      exact ⟨origin_tunnelled h hstep,
        .inr ⟨.origin outcome, by rw [← behind_origin h, hstep, Option.map_some]⟩⟩
  | nearCopy way move =>
      obtain ⟨hnext, hbehind⟩ := nearCopy_step h hstep
      exact ⟨hnext, .inr ⟨_, hbehind⟩⟩
  | nearDone =>
      obtain ⟨hnext, hreplying⟩ := nearDone_tunnelled h hstep
      exact ⟨hnext, .inr ⟨.nearDone, by rw [← behind_nearDone h hreplying, hstep,
        Option.map_some]⟩⟩
  | nearFail err =>
      refine ⟨h.taskTo hstep, .inr ⟨.nearFail, ?_⟩⟩
      rw [← behind_nearFail h _ err, hstep, Option.map_some]
      intro kind named hcase
      obtain ⟨task, hresume, -⟩ := Option.map_eq_some_iff.mp hstep
      rw [hcase] at hresume
      cases hresume
  | nearExit =>
      obtain rfl := Option.some.inj hstep
      exact ⟨⟨h.chosen, trivial, h.asked, rfl, h.head, h.there, h.replied, fun hc => by cases hc⟩,
        .inr ⟨.nearExit, rfl⟩⟩
  | far label =>
      obtain ⟨hlabel, tunnel, htunnel, rfl⟩ := far_of_step hstep
      obtain ⟨hclient, horigin⟩ := far_step_leaves hlabel htunnel
      exact ⟨h.sameClient horigin hclient,
        .inr ⟨label, by rw [← behind_far h hlabel, hstep, Option.map_some]⟩⟩

end Proxied

end Sape.Proxy
