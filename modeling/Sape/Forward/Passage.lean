/-
  Forward/Passage.lean --- a proxied connection whose request was read without a loss does what
  one connection could.

  `Forward/Transparency.lean` says this of a forwarded connection; here its runs are done by a
  session.  There are two differences: a session that has written its request still owes its
  client the reply, and the client takes that before it takes anything else.

  WHAT IS PROVED.

      lift_step              a step behind the handshake is one of the session, once the reply
                             is sent and taken
      proxied_transparent    whatever the client and the target could do over one connection
-/
import Sape.Forward.Handshake

set_option autoImplicit false

namespace Sape.Proxy

open Sape.Foundation

/-- What the client and the target do. -/
def ProxiedLabel.seen : ProxiedLabel → Option (Side × ConduitAct UInt8)
  | .client action => some (.near, action)
  | .far label => label.seen
  | _ => none

namespace Proxied

variable {dialer : PeerId} {allowedPeers : List PeerId} {target : String} {session : Proxied}

/-! ## The reply -/

/-- The reply is sent. -/
theorem replies (h : Tunnelled target session) {kind : ProxyKind} {named : String}
    (hcase : session.task = .replying kind named) :
    ∃ label next, session.step dialer allowedPeers label = some next ∧ label.seen = none ∧
      Tunnelled target next ∧ next.behind = session.behind ∧ next.task = .copying kind named := by
  obtain ⟨bytes, hbytes⟩ : ∃ bytes, (ProxyReply.success kind).bytes = none ∨
      (ProxyReply.success kind).bytes = some bytes := by
    cases kind with
    | socks5 => exact ⟨[], .inl rfl⟩
    | httpConnect => exact ⟨_, .inr rfl⟩
  have hstep : ∃ next, session.step dialer allowedPeers (.reply bytes .proceed) = some next ∧
      next.task = .copying kind named := by
    have hresume : (ProxyTask.replying kind named).resume (.replied (.ok ())) =
        some (.copying kind named) := rfl
    simp only [step, replyStep, sending, hcase, if_pos hbytes, writeStep, taskTo, exchange,
      hresume, Option.map_some, ProxyTask.isEnded, Bool.false_eq_true, if_false]
    exact ⟨_, rfl, rfl⟩
  obtain ⟨next, hstep, htask⟩ := hstep
  obtain ⟨hnext, hsame | hfail⟩ := reply_step h hstep
  · exact ⟨_, next, hstep, rfl, hnext, hsame, htask⟩
  · rw [htask] at hfail
    cases hfail.1

/-- The client has taken the replies, or has come to the end. -/
def Ready (session : Proxied) : Prop :=
  session.replied ≤ session.client.back.taken ∨ session.client.back.finished = true

/-- The client takes what is left of the reply. -/
theorem takes (dialer : PeerId) (allowedPeers : List PeerId) (h : Tunnelled target session)
    (hready : ¬ session.Ready) :
    ∃ bytes next, session.step dialer allowedPeers (.client (.receive bytes)) = some next ∧
      Tunnelled target next ∧ next.behind = session.behind ∧ next.task = session.task ∧
      next.Ready := by
  obtain ⟨hleft, hfinished⟩ := not_or.mp hready
  have hlt := Nat.lt_of_not_le hleft
  have hlen : (session.client.back.unread.take
      (session.replied - session.client.back.taken)).length =
        session.replied - session.client.back.taken := by
    have := h.replied
    rw [List.length_take, Conduit.unread, List.length_drop]
    omega
  generalize hbytes : session.client.back.unread.take
    (session.replied - session.client.back.taken) = bytes at hlen
  have hitems : bytes <+: session.client.back.unread ∧ session.client.back.finished = false :=
    ⟨hbytes ▸ List.take_prefix _ _, Bool.not_eq_true _ ▸ hfinished⟩
  have hstep : session.step dialer allowedPeers (.client (.receive bytes)) =
      some { session with tunnel := { session.tunnel with
        client := { session.client with back := session.client.back.skip bytes.length } } } := by
    simp only [step, Duplex.act, Duplex.onForth, ConduitAct.writes, Bool.false_eq_true, if_false,
      Conduit.step, if_pos hitems, Option.map_some]
  refine ⟨bytes, _, hstep, (client_step h hstep).1, ?_, rfl, .inl ?_⟩
  · have hback : (session.client.back.skip bytes.length).behind session.replied =
        session.client.back.behind session.replied := Conduit.behind_skip_head (by omega)
    simp only [behind, Duplex.behind, client, hback]
  · show session.replied ≤ session.client.back.taken + bytes.length
    omega

/-! ## The labels of a forwarded connection -/

theorem lift_step {label : BridgeLabel} {bridge : Bridge} (h : Tunnelled target session)
    (hlifts : ∀ kind named, session.task ≠ .replying kind named)
    (hready : label.seen = none ∨ session.Ready)
    (hstep : session.behind.step (modeTo dialer allowedPeers target) label = some bridge) :
    ∃ label' next, session.step dialer allowedPeers label' = some next ∧
      label'.seen = label.seen ∧ Tunnelled target next ∧ next.behind = bridge := by
  obtain ⟨label', hseen, heq⟩ : ∃ label', label'.seen = label.seen ∧
      (session.step dialer allowedPeers label').map behind =
        session.behind.step (modeTo dialer allowedPeers target) label := by
    cases label with
    | client action =>
        refine ⟨.client action, rfl, behind_client h ?_⟩
        cases hwrites : action.writes with
        | true => exact .inl rfl
        | false =>
            rcases hready.resolve_left (by simp [BridgeLabel.seen]) with hle | hfinished
            · exact .inr hle
            · obtain ⟨client, hact, -⟩ := Option.map_eq_some_iff.mp hstep
              obtain ⟨hon, -⟩ | ⟨hoff, hback, -⟩ := Duplex.act_cases hact
              · rw [show action.writes = true from hon] at hwrites
                cases hwrites
              · have hopen := (Conduit.taken_of_read hback hwrites).2.2.2.1
                rw [show session.behind.client.back.finished = true from hfinished] at hopen
                cases hopen
    | origin outcome => exact ⟨.origin outcome, rfl, behind_origin h outcome⟩
    | nearCopy way move =>
        obtain ⟨kind, named, hcase⟩ : ∃ kind named, session.task = .copying kind named := by
          have hcopying : session.task.origin = .copying := by
            rw [← h.origin]
            by_contra hnot
            simp [Bridge.step, Bridge.nearCopyStep, behind, hnot] at hstep
          cases hcase : session.task with
          | copying kind named => exact ⟨kind, named, rfl⟩
          | replying kind named => exact absurd hcase (hlifts kind named)
          | _ =>
              rw [hcase] at hcopying
              cases hcopying
        exact ⟨.nearCopy way move, rfl, behind_nearCopy h hcase way move⟩
    | nearDone => exact ⟨.nearDone, rfl, behind_nearDone h hlifts⟩
    | nearFail => exact ⟨.nearFail (.transport ""), rfl, behind_nearFail h hlifts _⟩
    | nearExit => exact ⟨.nearExit, rfl, behind_nearExit⟩
    | target action => exact ⟨.far (.target action), rfl, behind_far h rfl⟩
    | poll => exact ⟨.far .poll, rfl, behind_far h rfl⟩
    | read outcome => exact ⟨.far (.read outcome), rfl, behind_far h rfl⟩
    | connect result => exact ⟨.far (.connect result), rfl, behind_far h rfl⟩
    | farCopy way move => exact ⟨.far (.farCopy way move), rfl, behind_far h rfl⟩
    | farDone => exact ⟨.far .farDone, rfl, behind_far h rfl⟩
    | farFail err => exact ⟨.far (.farFail err), rfl, behind_far h rfl⟩
    | farExit => exact ⟨.far .farExit, rfl, behind_far h rfl⟩
  rw [hstep] at heq
  obtain ⟨next, hnext, rfl⟩ := Option.map_eq_some_iff.mp heq
  exact ⟨label', next, hnext, hseen, (tunnel_step h hnext).1, rfl⟩

/-- A session that does nothing but copy, whose client has taken the replies. -/
structure Clear (session : Proxied) : Prop where
  task : (∃ kind named, session.task = .copying kind named) ∨ ∃ result, session.task = .ended result
  ready : session.Ready

/-- The client does not give back what it has taken. -/
theorem Ready.of_taken {next : Proxied} (h : session.Ready)
    (hreplied : next.replied = session.replied)
    (htaken : session.client.back.taken ≤ next.client.back.taken)
    (hfinished : session.client.back.finished = true → next.client.back.finished = true) :
    next.Ready :=
  h.imp (fun hle => hreplied ▸ Nat.le_trans hle htaken) hfinished

theorem clear_step {label : ProxiedLabel} {next : Proxied} (hclear : session.Clear)
    (hstep : session.step dialer allowedPeers label = some next) : next.Clear := by
  have hcase := hclear.task
  have hends : ∀ {event : ProxyEvent} {task : ProxyTask},
      session.task.resume event = some task → ∃ result, task = .ended result := by
    intro event task hresume
    rcases hcase with ⟨kind, named, hcase⟩ | ⟨result, hcase⟩
    · rw [hcase] at hresume
      cases event with
      | copied result =>
          cases result with
          | ok | error => exact ⟨_, (Option.some.inj hresume).symm⟩
      | _ => cases hresume
    · rw [hcase] at hresume
      cases hresume
  cases label with
  | client action =>
      obtain ⟨client, hact, rfl⟩ := Option.map_eq_some_iff.mp hstep
      refine ⟨hclear.task, ?_⟩
      obtain ⟨-, -, hback⟩ | ⟨hoff, hback, -⟩ := Duplex.act_cases hact
      · exact hclear.ready.of_taken rfl (Nat.le_of_eq (by rw [← hback])) fun hfinished => by
          show client.back.finished = true
          rw [hback]
          exact hfinished
      · obtain ⟨-, -, ⟨htaken, -⟩, hopen, -⟩ := Conduit.taken_of_read hback hoff
        exact hclear.ready.of_taken rfl htaken fun hfinished => by
          rw [show session.tunnel.client.back.finished = true from hfinished] at hopen
          cases hopen
  | peek | greet | command | head | headFail =>
      have hhand := handshaking_of_step rfl hstep
      rcases hcase with ⟨kind, named, hcase⟩ | ⟨result, hcase⟩
      · rw [hcase] at hhand
        cases hhand
      · rw [hcase] at hhand
        cases hhand
  | reply bytes outcome =>
      rcases hcase with ⟨kind, named, hcase⟩ | ⟨result, hcase⟩
      · simp [step, replyStep, sending, hcase] at hstep
      · simp [step, replyStep, sending, hcase] at hstep
  | origin outcome =>
      rcases hcase with ⟨kind, named, hcase⟩ | ⟨result, hcase⟩
      · simp [step, originStep, hcase] at hstep
      · simp [step, originStep, hcase] at hstep
  | nearCopy way move =>
      obtain ⟨-, tunnel, htunnel, rfl⟩ := nearCopy_of_step hstep
      refine ⟨hclear.task, ?_⟩
      unfold Bridge.nearCopyStep at htunnel
      split at htunnel
      · cases way with
        | forth =>
            obtain ⟨⟨splice, source, sink⟩, -, rfl⟩ := Option.map_eq_some_iff.mp htunnel
            exact hclear.ready
        | back =>
            obtain ⟨⟨splice, source, sink⟩, hsplice, rfl⟩ := Option.map_eq_some_iff.mp htunnel
            have hleaves := Splice.step_leaves hsplice
            exact hclear.ready.of_taken rfl (Nat.le_of_eq hleaves.taken.symm)
              hleaves.finished.trans
      · cases htunnel
  | nearDone =>
      obtain ⟨task, hresume, rfl⟩ := nearDone_of_step hstep
      exact ⟨.inr (hends hresume), hclear.ready⟩
  | nearFail err =>
      obtain ⟨task, hresume, rfl⟩ := Option.map_eq_some_iff.mp hstep
      obtain ⟨result, rfl⟩ := hends hresume
      exact ⟨.inr ⟨result, rfl⟩, hclear.ready⟩
  | nearExit =>
      obtain rfl := Option.some.inj hstep
      exact ⟨.inr ⟨_, rfl⟩, hclear.ready⟩
  | far label =>
      obtain ⟨hlabel, tunnel, htunnel, rfl⟩ := far_of_step hstep
      obtain ⟨hclient, -⟩ := far_step_leaves hlabel htunnel
      refine ⟨hclear.task, hclear.ready.of_taken rfl ?_ fun hfinished => ?_⟩
      · show session.client.back.taken ≤ tunnel.client.back.taken
        rw [hclient]
      · show tunnel.client.back.finished = true
        rw [hclient]
        exact hfinished

/-- A session that does nothing but copy does what the connection behind it does. -/
theorem Clear.lifts (hclear : session.Clear) (kind : ProxyKind) (named : String) :
    session.task ≠ .replying kind named := by
  rcases hclear.task with ⟨kind', named', hcase⟩ | ⟨result, hcase⟩
  · rw [hcase]
    exact ProxyTask.noConfusion
  · rw [hcase]
    exact ProxyTask.noConfusion

/-! ## Up to the copy -/

/-- A reply that is due is sent. -/
theorem replies_first (dialer : PeerId) (allowedPeers : List PeerId)
    (h : Tunnelled target session) :
    ∃ labels next, (machine dialer allowedPeers).exec session labels = some next ∧
      labels.filterMap ProxiedLabel.seen = [] ∧ Tunnelled target next ∧
      next.behind = session.behind ∧ ∀ kind named, next.task ≠ .replying kind named := by
  by_cases hreplying : ∃ kind named, session.task = .replying kind named
  · obtain ⟨kind, named, hcase⟩ := hreplying
    obtain ⟨reply, next, hreply, hquiet, hnext, hsame, hcopying⟩ := replies h hcase
    refine ⟨[reply], next, Machine.exec_cons_of_step hreply [], ?_, hnext, hsame, ?_⟩
    · rw [List.filterMap_cons_none hquiet, List.filterMap_nil]
    · rw [hcopying]
      exact fun _ _ => ProxyTask.noConfusion
  · exact ⟨[], session, rfl, rfl, h, rfl, fun kind named hcase => hreplying ⟨kind, named, hcase⟩⟩

/-- The labels of nobody but the dialer and the listener. -/
theorem lift_quietly (labels : List BridgeLabel) :
    ∀ {session : Proxied} {bridge : Bridge}, Tunnelled target session →
      labels.filterMap BridgeLabel.seen = [] →
      (Bridge.machine (modeTo dialer allowedPeers target)).exec session.behind labels =
        some bridge →
      ∃ labels' next, (machine dialer allowedPeers).exec session labels' = some next ∧
        labels'.filterMap ProxiedLabel.seen = [] ∧ Tunnelled target next ∧
        next.behind = bridge := by
  induction labels with
  | nil =>
      intro session bridge h _ hrun
      exact ⟨[], session, rfl, rfl, h, Option.some.inj hrun⟩
  | cons label labels ih =>
      intro session bridge h hsilent hrun
      obtain ⟨mid, hfirst, hrest⟩ := Machine.exec_cons hrun
      have hnone : label.seen = none := by
        cases hseen : label.seen with
        | none => rfl
        | some seen =>
            rw [List.filterMap_cons_some hseen] at hsilent
            cases hsilent
      rw [List.filterMap_cons_none hnone] at hsilent
      -- the reply comes first
      obtain ⟨before, ready, hbefore, hquiet, hready, hsame, hlifts⟩ :=
        replies_first dialer allowedPeers h
      rw [← hsame] at hfirst
      obtain ⟨label', next, hnext, hseen, htunnelled, rfl⟩ :=
        lift_step hready hlifts (.inl hnone) hfirst
      obtain ⟨rest, final, hfinal, hrestQuiet, hends⟩ := ih htunnelled hsilent hrest
      refine ⟨before ++ label' :: rest, final, ?_, ?_, hends⟩
      · refine (Machine.exec_append _ _).mpr ⟨ready, hbefore, ?_⟩
        rw [Machine.exec_cons_of_step hnext]
        exact hfinal
      · rw [List.filterMap_append, hquiet, List.filterMap_cons_none (hseen.trans hnone), hrestQuiet,
          List.append_nil]

/-- A session whose two sides can get to their copies gets there, and its client to the end of
the reply. -/
theorem clears (h : Tunnelled target session)
    (hestablishes : Bridge.Establishes (modeTo dialer allowedPeers target) session.behind) :
    ∃ labels next, (machine dialer allowedPeers).exec session labels = some next ∧
      (labels.filterMap ProxiedLabel.seen = [] ∨
        ∃ bytes, labels.filterMap ProxiedLabel.seen = [(.near, .receive bytes)]) ∧
      Tunnelled target next ∧ next.Clear ∧
      next.behind.connection = session.behind.connection ∧
      Bridge.Live (modeTo dialer allowedPeers target) next.behind := by
  obtain ⟨mid, ⟨quiet, hquiet, hsilent⟩, hconn, hlive⟩ := hestablishes
  obtain ⟨first, copying, hfirst, hfirstSilent, hcopying, rfl⟩ :=
    lift_quietly quiet h hsilent hquiet
  obtain ⟨second, ready, hsecond, hsecondSilent, hready, hsame, hlifts⟩ :=
    replies_first dialer allowedPeers hcopying
  rw [← hsame] at hconn hlive
  have htask : (∃ kind named, ready.task = .copying kind named) ∨
      ∃ result, ready.task = .ended result := by
    have hnear : ready.task.origin = .copying ∨ ready.task.origin = .ended := by
      rw [← hready.origin]
      exact hlive.near
    cases hcase : ready.task with
    | copying kind named => exact .inl ⟨kind, named, rfl⟩
    | ended result => exact .inr ⟨result, rfl⟩
    | replying kind named => exact absurd hcase (hlifts kind named)
    | _ =>
        rw [hcase] at hnear
        rcases hnear with hnear | hnear <;> cases hnear
  have hboth : (machine dialer allowedPeers).exec session (first ++ second) = some ready :=
    (Machine.exec_append _ _).mpr ⟨copying, hfirst, hsecond⟩
  have hbothSilent : (first ++ second).filterMap ProxiedLabel.seen = [] := by
    rw [List.filterMap_append, hfirstSilent, hsecondSilent, List.append_nil]
  by_cases htaken : ready.Ready
  · exact ⟨_, ready, hboth, .inl hbothSilent, hready, ⟨htask, htaken⟩, hconn, hlive⟩
  · obtain ⟨bytes, next, hstep, hnext, hbehind, hsameTask, htook⟩ :=
      takes dialer allowedPeers hready htaken
    refine ⟨first ++ second ++ [.client (.receive bytes)], next,
      (Machine.exec_append _ _).mpr ⟨ready, hboth, Machine.exec_cons_of_step hstep []⟩,
      .inr ⟨bytes, ?_⟩, hnext, ⟨hsameTask ▸ htask, htook⟩, hbehind ▸ hconn, hbehind ▸ hlive⟩
    rw [List.filterMap_append, hbothSilent]
    rfl

/-! ## The main result -/

/-- Wherever a run of a session that has its target has got to without anything being dropped,
or lost with the reader of a head: whatever the client and the target could go on to do and see
over one connection between them, they can do and see over the proxy, once the client has taken
what is left of the reply. -/
theorem proxied_transparent (dialer : PeerId) (allowedPeers : List PeerId)
    (labels : List ProxiedLabel) {session : Proxied}
    (hrun : (machine dialer allowedPeers).Reaches labels session) {target : String}
    (hchosen : session.chosen = some target)
    (hviable : (BridgeMode.localForward dialer allowedPeers target).Viable)
    (hlost : session.lost = 0) (huncut : session.connection.Uncut)
    (outer : List (Side × ConduitAct UInt8)) {duplex : Duplex UInt8}
    (houter : (Duplex.reliable UInt8).exec session.connection outer = some duplex) :
    ∃ reply further next, (machine dialer allowedPeers).exec session further = some next ∧
      further.filterMap ProxiedLabel.seen = reply ++ outer ∧
      (reply = [] ∨ ∃ bytes, reply = [(.near, .receive bytes)]) ∧
      next.connection = duplex := by
  obtain ⟨h, inner, hinner⟩ : Tunnelled target session ∧
      (Bridge.machine (modeTo dialer allowedPeers target)).Reachable session.behind := by
    cases good_of_reaches hrun with
    | shaking h hheard =>
        rw [h.chosen] at hchosen
        cases hchosen
    | failed h =>
        rw [h.chosen] at hchosen
        cases hchosen
    | tunnelled named h hreach =>
        obtain rfl : named = target := Option.some.inj (h.chosen.symm.trans hchosen)
        exact ⟨h, hreach⟩
  rw [connection_of_lost hlost] at huncut houter
  have hintact := Bridge.intact_of_exec (Bridge.inv_start _) (fun _ => Bridge.intact_start _)
    hinner huncut
  obtain ⟨before, ready, hbefore, hreply, hready, hclear, hconn, hlive⟩ :=
    clears h (Bridge.establishes hviable (fun hlooped => by cases hlooped) hintact huncut)
  rw [← hconn] at houter
  obtain ⟨moves, bridge, hmoves, hseen, hends⟩ :=
    hlive.intact.transparent hviable (fun hlooped => by cases hlooped) hlive.uncut outer houter
  obtain ⟨further, next, hfurther, hsame, -, hnext, -⟩ :
      ∃ further next, (machine dialer allowedPeers).exec ready further = some next ∧
        further.filterMap ProxiedLabel.seen = moves.filterMap BridgeLabel.seen ∧
        Tunnelled target next ∧ next.behind = bridge ∧ next.Clear := Machine.answers
    BridgeLabel.seen ProxiedLabel.seen
    (fun bridge session => Tunnelled target session ∧ session.behind = bridge ∧ session.Clear)
    (by
      rintro _ session label bridge ⟨h, rfl, hclear⟩ hstep
      obtain ⟨label', next, hnext, hseen, htunnelled, rfl⟩ :=
        lift_step h hclear.lifts (.inr hclear.ready) hstep
      refine ⟨[label'], next, Machine.exec_cons_of_step hnext [], ?_, htunnelled, rfl,
        clear_step hclear hnext⟩
      rw [← hseen]
      cases hlabel : label'.seen with
      | none => rw [List.filterMap_cons_none hlabel, List.filterMap_nil, Option.toList_none]
      | some seen =>
          rw [List.filterMap_cons_some hlabel, List.filterMap_nil, Option.toList_some])
    moves ⟨hready, rfl, hclear⟩ hmoves
  have hwhole : (machine dialer allowedPeers).exec session (before ++ further) = some next :=
    (Machine.exec_append _ _).mpr ⟨ready, hbefore, hfurther⟩
  have hnone : Tunnelled target next ∧ next.lost = 0 := Machine.exec_invariant
    (fun session => Tunnelled target session ∧ session.lost = 0)
    (fun hsession hstep => ⟨(tunnel_step hsession.1 hstep).1,
      (step_lost hsession.1 hstep).trans hsession.2⟩) _ hwhole ⟨h, hlost⟩
  refine ⟨before.filterMap ProxiedLabel.seen, before ++ further, next, hwhole, ?_, hreply, ?_⟩
  · rw [List.filterMap_append, hsame, hseen]
  · rw [connection_of_lost hnone.2, hnext, hends]

/-- A byte there and one back, behind a handshake. -/
theorem proxied_transparent_echo :
    ∃ session : Proxied, (machine default []).Reaches (socksRun.take 6) session ∧
      ∃ reply further next, (machine default []).exec session further = some next ∧
        further.filterMap ProxiedLabel.seen = reply ++ [(.near, .send [7]), (.far, .receive [7]),
          (.far, .send [8]), (.near, .receive [8])] ∧
        (reply = [] ∨ ∃ bytes, reply = [(.near, .receive bytes)]) := by
  have hstart : ((machine default []).exec {} (socksRun.take 6)).map (fun session =>
      (session.chosen, session.lost, session.connection)) = some (some "h:1", 0, {}) := by
    decide +kernel
  obtain ⟨session, hrun, hsession⟩ := Option.map_eq_some_iff.mp hstart
  obtain ⟨hchosen, hlost, hconn⟩ : session.chosen = some "h:1" ∧ session.lost = 0 ∧
      session.connection = {} := by
    simpa [Prod.ext_iff] using hsession
  obtain ⟨reply, further, next, hexec, hseen, hreply, -⟩ := proxied_transparent default []
    (socksRun.take 6) hrun hchosen ⟨.inl rfl, by decide, by decide⟩ hlost
    (by rw [hconn]; exact ⟨rfl, rfl⟩)
    [(.near, .send [7]), (.far, .receive [7]), (.far, .send [8]), (.near, .receive [8])]
    (by rw [hconn]; rfl)
  exact ⟨session, hrun, reply, further, next, hexec, hseen, hreply⟩

end Proxied

end Sape.Proxy
