/-
  Forward/Handshake.lean --- a proxied connection from its first byte to its target.

  Up to the choice of a target (`Shaking`) the session talks to its client alone: there is no
  stream, and the listener knows of nothing.  A handshake that fails (`Failed`) leaves it at
  that.  One that ends with a target leaves a connection on which only the client has done
  anything, and from there on `Forward/Handover.lean` applies.

  WHAT IS PROVED.

      proxied_refines     behind its handshake, a session in any run is a forwarded connection
                          to the target that the client has named, and in front of it nothing
      proxied_delivers    the target gets what the client sends behind the handshake, the client
                          what the target sends behind the replies
-/
import Sape.Forward.Handover

set_option autoImplicit false

namespace Sape.Proxy

open Sape.Foundation

namespace Proxied

variable {dialer : PeerId} {allowedPeers : List PeerId} {target : String} {session next : Proxied}

/-! ## In front of the choice -/

/-- A session in its handshake. -/
structure Shaking (session : Proxied) : Prop where
  chosen : session.chosen = none
  task : session.task.handshaking = true
  head : session.taken = session.client.forth.taken
  taken : session.client.forth.taken ≤ session.client.forth.sent.length
  replied : session.replied = session.client.back.sent.length
  read : session.client.back.taken ≤ session.replied
  tunnel : session.tunnel = { client := session.client } ∨
    session.tunnel = ({ client := session.client } : Bridge).farExitStep
  forth : session.client.forth.cut = false ∧ session.client.forth.finished = false
  back : session.client.back.cut = false ∧ session.client.back.closed = false ∧
    session.client.back.finished = false

/-- What a session in its handshake has heard: no target yet. -/
structure Hearing (session : Proxied) : Prop where
  said : session.task.Heard session.client.forth.sent session.head
  named : session.named = none
  lost : session.lost = 0

/-- A session that has returned without a target. -/
structure Failed (session : Proxied) : Prop where
  chosen : session.chosen = none
  task : session.task.isEnded = true
  far : session.tunnel.far = .absent ∨ session.tunnel.far = .exited
  stream : session.tunnel.stream.forth.sent = []
  reached : session.tunnel.reached = none

/-- What is behind a handshake is a connection that was accepted, and on which only the client
has done anything. -/
theorem Shaking.reachable (h : Shaking session) (mode : BridgeMode) :
    (Bridge.machine mode).Reachable session.behind := by
  have hforth : session.client.forth.behind session.taken =
      { sent := session.client.forth.unread, closed := session.client.forth.closed } := by
    simp only [Conduit.behind, h.head, Nat.sub_self, h.forth.1, h.forth.2]
    rfl
  have hback : session.client.back.behind session.replied = {} := by
    simp only [Conduit.behind, h.back.1, h.back.2.1, h.back.2.2, h.replied,
      List.drop_length, Nat.sub_eq_zero_of_le (h.replied ▸ h.read)]
  have hclient : session.client.behind session.taken session.replied =
      { forth := { sent := session.client.forth.unread
                   closed := session.client.forth.closed } } := by
    rw [Duplex.behind, hforth, hback]
  have hbehind : session.behind = { session.tunnel with
      client := { forth := { sent := session.client.forth.unread
                             closed := session.client.forth.closed } } } := by
    rw [behind, ← hclient]
  generalize session.client.forth.unread = sent at hbehind
  generalize session.client.forth.closed = closed at hbehind
  rw [hbehind]
  cases closed with
  | false =>
      rcases h.tunnel with htunnel | htunnel
      · rw [htunnel]
        exact ⟨[.client (.send sent)], rfl⟩
      · rw [htunnel]
        exact ⟨[.client (.send sent), .farExit], rfl⟩
  | true =>
      rcases h.tunnel with htunnel | htunnel
      · rw [htunnel]
        exact ⟨[.client (.send sent), .client .close], rfl⟩
      · rw [htunnel]
        exact ⟨[.client (.send sent), .client .close, .farExit], rfl⟩


/-- Where a session is, and what that says of the network. -/
inductive Good (dialer : PeerId) (allowedPeers : List PeerId) (session : Proxied) : Prop where
  | shaking (h : Shaking session) (hheard : Hearing session)
  | failed (h : Failed session)
  | tunnelled (target : String) (h : Tunnelled target session)
      (hreach : (Bridge.machine (modeTo dialer allowedPeers target)).Reachable session.behind)

/-- The handshake goes on, fails, or ends with the choice of a target. -/
theorem Shaking.taskTo (h : Shaking session) {task : ProxyTask} {event : ProxyEvent}
    (hresume : session.task.resume event = some task) (hstep : session.taskTo event = some next)
    (hcases : task.isEnded = true ∨
      (task.handshaking = true ∧ Hearing { session with task := task }) ∨
      ∃ kind named, task = .opening kind named ∧ Asked named session) :
    Good dialer allowedPeers next := by
  have hquiet : (session.tunnel.far = .absent ∨ session.tunnel.far = .exited) ∧
      session.tunnel.stream.forth.sent = [] ∧ session.tunnel.reached = none ∧
      session.tunnel.origin = .opening := by
    rcases h.tunnel with htunnel | htunnel
    · rw [htunnel]
      exact ⟨.inl rfl, rfl, rfl, rfl⟩
    · rw [htunnel]
      exact ⟨.inr rfl, rfl, rfl, rfl⟩
  obtain ⟨hfar, hstream, hreached, horigin⟩ := hquiet
  rw [Proxied.taskTo, hresume, Option.map_some] at hstep
  obtain rfl := Option.some.inj hstep
  rcases hcases with hended | ⟨hhand, hheard⟩ | ⟨kind, named, rfl, hasked⟩
  · rw [if_pos hended]
    exact .failed ⟨h.chosen, hended, hfar, hstream, hreached⟩
  · have htarget : task.target = none ∧ task.isEnded = false ∧ task.origin = .opening := by
      cases task with
      | peeking | greeting | readingCommand | readingHead | refusing => exact ⟨rfl, rfl, rfl⟩
      | _ => cases hhand
    obtain ⟨htarget, hended, horigin'⟩ := htarget
    rw [hended, if_neg Bool.false_ne_true, htarget, Option.none_or, horigin', ← horigin]
    exact .shaking ⟨h.chosen, hhand, h.head, h.taken, h.replied, h.read, h.tunnel, h.forth,
      h.back⟩ ⟨hheard.said, hheard.named, hheard.lost⟩
  · rw [if_neg (show ¬ (ProxyTask.opening kind named).isEnded = true from Bool.false_ne_true)]
    have hbehind : Proxied.behind { session with
        task := .opening kind named
        chosen := (ProxyTask.opening kind named).target.or session.chosen
        tunnel := { session.tunnel with origin := (ProxyTask.opening kind named).origin } } =
          session.behind := by
      simp only [behind, ProxyTask.origin, ← horigin]
    refine .tunnelled named ⟨rfl, rfl, hasked, rfl, Nat.le_of_eq h.head, ?_,
      Nat.le_of_eq h.replied, fun _ => ⟨h.replied, h.read⟩⟩ (hbehind ▸ h.reachable _)
    exact Nat.le_trans (Nat.le_of_eq h.head) h.taken

/-- What the two ends say in the handshake. -/
theorem Shaking.exchange (h : Shaking session) {count lost : Nat}
    (hcount : count + lost ≤ session.client.forth.unread.length) (reply : Bytes) :
    Shaking (session.exchange count lost reply) := by
  have hlen : session.client.forth.taken + (count + lost) ≤ session.client.forth.sent.length := by
    rw [Conduit.unread, List.length_drop] at hcount
    have := h.taken
    omega
  refine ⟨h.chosen, h.task, ?_, hlen, ?_, ?_, ?_, h.forth, h.back⟩
  · show session.head + count + (session.lost + lost) = session.client.forth.taken + (count + lost)
    rw [← h.head]
    exact Nat.add_add_add_comm _ _ _ _
  · show session.replied + reply.length = (session.client.back.sent ++ reply).length
    rw [List.length_append, h.replied]
  · exact Nat.le_trans h.read (Nat.le_add_right _ _)
  · rcases h.tunnel with htunnel | htunnel
    · left
      rw [Proxied.exchange, htunnel]
    · right
      rw [Proxied.exchange, htunnel]
      rfl

/-- The first byte. -/
theorem shaking_peek (h : Shaking session) (hheard : Hearing session)
    {result : Except IoError UInt8}
    (hstep : session.step dialer allowedPeers (.peek result) = some next) :
    Good dialer allowedPeers next := by
  have hpeek : session.peekStep result = some next := hstep
  have htask : ∀ {event : ProxyEvent} {next : Proxied}, (∃ result, event = .peeked result) →
      session.taskTo event = some next → session.task = .peeking := by
    rintro event next ⟨result, rfl⟩ hto
    obtain ⟨task, hresume, -⟩ := Option.map_eq_some_iff.mp hto
    cases hcase : session.task with
    | peeking => rfl
    | _ =>
        rw [hcase] at hresume
        cases hresume
  unfold peekStep at hpeek
  split at hpeek
  · rename_i byte
    split at hpeek
    · rename_i hthere
      have hcase := htask ⟨_, rfl⟩ hpeek
      have hsaid := hheard.said
      rw [hcase] at hsaid
      have hzero : session.head = 0 := hsaid
      have hunread : session.client.forth.unread = session.client.forth.sent := by
        rw [Conduit.unread, ← h.head, taken, hzero, hheard.lost, List.drop_zero]
      have hresume : session.task.resume (.peeked (.ok byte)) =
          some (ProxyTask.afterPeek byte) := by
        rw [hcase]
        rfl
      refine h.taskTo hresume hpeek ?_
      unfold ProxyTask.afterPeek
      split
      · rename_i hbyte
        subst hbyte
        rw [hunread] at hthere
        refine .inr (.inl ⟨rfl, hthere.resolve_right fun hend => ?_, hheard.named, hheard.lost⟩)
        exact absurd hend.1 (by decide)
      · split
        · exact .inr (.inl ⟨rfl, hzero, hheard.named, hheard.lost⟩)
        · exact .inl rfl
    · cases hpeek
  · rename_i err
    have hcase := htask ⟨_, rfl⟩ hpeek
    have hresume : session.task.resume (.peeked (.error err)) =
        some (.ended (.error (.io err))) := by
      rw [hcase]
      rfl
    exact h.taskTo hresume hpeek (.inl rfl)

/-- A call of the SOCKS5 crate, or a read of a head. -/
theorem shaking_handshake (h : Shaking session) (named : Option String) {event : ProxyEvent}
    {count lost : Nat} {reply : Bytes}
    (hcases : ∀ task, session.task.resume event = some task → task.isEnded = true ∨
      (task.handshaking = true ∧ Hearing { ({ session with named := named } : Proxied).exchange
        count lost reply with task := task }) ∨
      ∃ kind target, task = .opening kind target ∧
        Asked target (({ session with named := named } : Proxied).exchange count lost reply))
    (hstep : { session with named := named }.handshakeStep event count lost reply = some next) :
    Good dialer allowedPeers next := by
  unfold handshakeStep at hstep
  split at hstep
  · rename_i hcount
    have h' : Shaking { session with named := named } := ⟨h.chosen, h.task, h.head, h.taken,
      h.replied, h.read, h.tunnel, h.forth, h.back⟩
    obtain ⟨task, hresume, -⟩ := Option.map_eq_some_iff.mp hstep
    exact (h'.exchange hcount.2 reply).taskTo hresume hstep (hcases task hresume)
  · cases hstep

theorem shaking_greet (h : Shaking session) (hheard : Hearing session)
    {result : Except String Unit} {count : Nat} {reply : Bytes}
    (hstep : session.step dialer allowedPeers (.greet result count reply) = some next) :
    Good dialer allowedPeers next := by
  refine shaking_handshake h session.named (fun task hresume => ?_) hstep
  have hsaid := hheard.said
  cases hcase : session.task with
  | greeting =>
      rw [hcase] at hresume hsaid
      cases result with
      | error err =>
          obtain rfl := Option.some.inj hresume
          exact .inl rfl
      | ok =>
          obtain rfl := Option.some.inj hresume
          exact .inr (.inl ⟨rfl, hsaid, hheard.named, hheard.lost⟩)
  | _ =>
      rw [hcase] at hresume
      cases hresume

theorem shaking_command (h : Shaking session) (hheard : Hearing session)
    {result : Except String (Socks5Command × String)} {count : Nat} {reply : Bytes}
    (hstep : session.step dialer allowedPeers (.command result count reply) = some next) :
    Good dialer allowedPeers next := by
  refine shaking_handshake h _ (fun task hresume => ?_) hstep
  have hsaid := hheard.said
  cases hcase : session.task with
  | readingCommand =>
      rw [hcase] at hresume hsaid
      cases result with
      | error err =>
          obtain rfl := Option.some.inj hresume
          exact .inl rfl
      | ok command =>
          obtain rfl := Option.some.inj hresume
          unfold ProxyTask.afterCommand
          split
          · exact .inr (.inr ⟨.socks5, command.2, rfl, rfl, .inl ⟨hsaid, hheard.lost⟩⟩)
          · exact .inl rfl
  | _ =>
      rw [hcase] at hresume
      cases hresume

/-- The head that was read is what the client had sent. -/
theorem shaking_head (h : Shaking session) (hheard : Hearing session) {reads : List Bytes}
    (hstep : session.step dialer allowedPeers (.head reads) = some next) :
    Good dialer allowedPeers next := by
  obtain ⟨hread, hshake⟩ := head_of_step hstep
  refine shaking_handshake h _ (fun task hresume => ?_) hshake
  have hsaid := hheard.said
  cases hcase : session.task with
  | readingHead =>
      rw [hcase] at hresume hsaid
      have hzero : session.head = 0 := hsaid
      cases hhead : readHead { pending := reads } with
      | error err =>
          rw [hhead] at hresume
          cases err with
          | io err =>
              obtain rfl := Option.some.inj hresume
              exact .inl rfl
          | badRequest line =>
              obtain rfl := Option.some.inj hresume
              have hover : overRead reads = 0 := by rw [overRead, hhead]
              refine .inr (.inl ⟨rfl, trivial, ?_, ?_⟩)
              · show Option.or none session.named = none
                rw [Option.none_or, hheard.named]
              · show session.lost + overRead reads = 0
                rw [hheard.lost, hover]
      | ok found =>
          obtain ⟨target, rest⟩ := found
          rw [hhead] at hresume
          obtain rfl := Option.some.inj hresume
          have hover : overRead reads = rest.rest.length := by rw [overRead, hhead]
          have hunread : session.client.forth.unread = session.client.forth.sent := by
            rw [Conduit.unread, ← h.head, taken, hzero, hheard.lost, List.drop_zero]
          refine .inr (.inr ⟨.httpConnect, target, rfl, rfl, .inr ⟨reads, rest, hhead, ?_, ?_⟩⟩)
          · show reads.flatten = session.client.forth.sent.take
              (session.head + (reads.flatten.length - overRead reads) +
                (session.lost + overRead reads))
            have hlen := overRead_le reads
            rw [hzero, hheard.lost, Nat.zero_add, Nat.zero_add, Nat.sub_add_cancel hlen]
            exact List.prefix_iff_eq_take.mp (hunread ▸ hread.there)
          · show session.lost + overRead reads = rest.rest.length
            rw [hheard.lost, hover, Nat.zero_add]
  | _ =>
      rw [hcase] at hresume
      cases hresume

/-- What the client does meanwhile. -/
theorem shaking_client (h : Shaking session) (hheard : Hearing session)
    {action : ConduitAct UInt8}
    (hstep : session.step dialer allowedPeers (.client action) = some next) :
    Good dialer allowedPeers next := by
  obtain ⟨client, hact, rfl⟩ := Option.map_eq_some_iff.mp hstep
  have htunnel : ({ session.tunnel with client := client } : Bridge) = { client := client } ∨
      ({ session.tunnel with client := client } : Bridge) =
        ({ client := client } : Bridge).farExitStep := by
    rcases h.tunnel with htunnel | htunnel
    · left
      rw [htunnel]
    · right
      rw [htunnel]
      rfl
  obtain ⟨hon, hforth, hback⟩ | ⟨hoff, hback, hforth⟩ := Duplex.act_cases hact
  · obtain ⟨htaken, hfinished, items, hitems⟩ := Conduit.sent_of_writes hforth hon
    have hlen : session.client.forth.taken ≤ client.forth.sent.length := by
      rw [hitems, List.length_append]
      exact Nat.le_trans h.taken (Nat.le_add_right _ _)
    refine .shaking ⟨h.chosen, h.task, h.head.trans htaken.symm, htaken ▸ hlen, hback ▸ h.replied,
      hback ▸ h.read, htunnel,
      ⟨(Conduit.step_cut hforth).trans h.forth.1, hfinished.trans h.forth.2⟩, hback ▸ h.back⟩
      ⟨?_, hheard.named, hheard.lost⟩
    show session.task.Heard client.forth.sent session.head
    rw [hitems]
    exact hheard.said.append items
  · obtain ⟨hsent, hclosed, ⟨-, hwithin⟩, -, hfinished⟩ := Conduit.taken_of_read hback hoff
    have hread : client.back.taken ≤ session.replied := by
      rw [h.replied]
      exact hwithin (h.replied ▸ h.read)
    have hopen : ¬ session.client.back.Ended := by
      rintro (hcut | ⟨hended, -⟩)
      · rw [h.back.1] at hcut
        cases hcut
      · rw [h.back.2.1] at hended
        cases hended
    refine .shaking ⟨h.chosen, h.task, hforth ▸ h.head, hforth ▸ h.taken, hsent ▸ h.replied, hread,
      htunnel, hforth ▸ h.forth, ?_⟩ ⟨?_, hheard.named, hheard.lost⟩
    · exact ⟨(Conduit.step_cut hback).trans h.back.1, hclosed.trans h.back.2.1,
        hfinished.resolve_right hopen⟩
    · show session.task.Heard client.forth.sent session.head
      rw [hforth]
      exact hheard.said

/-- The other process knows of nothing that it could do anything about. -/
theorem far_of_idle {mode : BridgeMode} {bridge next : Bridge} {label : BridgeLabel}
    (hlabel : farLabel label = true) (hfar : bridge.far = .absent ∨ bridge.far = .exited)
    (hreached : bridge.reached = none) (h : bridge.step mode label = some next) :
    next = bridge.farExitStep := by
  cases label with
  | farExit => exact (Option.some.inj h).symm
  | target action => simp [Bridge.step, hreached] at h
  | poll => rcases hfar with hfar | hfar <;> simp [Bridge.step, hfar] at h
  | read outcome => rcases hfar with hfar | hfar <;> simp [Bridge.step, Bridge.readStep, hfar] at h
  | connect result =>
      rcases hfar with hfar | hfar <;> simp [Bridge.step, Bridge.connectStep, hfar] at h
  | farCopy way move =>
      rcases hfar with hfar | hfar <;> simp [Bridge.step, Bridge.farCopyStep, hfar] at h
  | farDone => rcases hfar with hfar | hfar <;> simp [Bridge.step, Bridge.farReturnStep, hfar] at h
  | farFail err =>
      rcases hfar with hfar | hfar <;> simp [Bridge.step, Bridge.farReturnStep, hfar] at h
  | _ => cases hlabel


/-- A head is refused with a reply. -/
theorem shaking_reply (h : Shaking session) {bytes : Bytes} {outcome : Outcome}
    (hstep : session.replyStep bytes outcome = some next) : Good dialer allowedPeers next := by
  have htask := h.task
  unfold replyStep at hstep
  split at hstep
  · cases hstep
  · rename_i reply hsending
    obtain ⟨line, hcase⟩ : ∃ line, session.task = .refusing line := by
      unfold sending at hsending
      split at hsending
      · rename_i line hcase
        exact ⟨line, hcase⟩
      · rename_i hcase
        rw [hcase] at htask
        cases htask
      · cases hsending
    split at hstep
    · split at hstep
      · cases hstep
      · rename_i done pipe hwrite
        have hexchange : Shaking
            (session.exchange 0 0 (pipe.sent.drop session.client.back.sent.length)) :=
          h.exchange (Nat.zero_le _) _
        obtain ⟨task, hresume, -⟩ := Option.map_eq_some_iff.mp hstep
        refine hexchange.taskTo hresume hstep (.inl ?_)
        have hresume' : session.task.resume (.replied done) = some task := hresume
        rw [hcase] at hresume'
        cases done with
        | ok =>
            obtain rfl := Option.some.inj hresume'
            rfl
        | error err =>
            obtain rfl := Option.some.inj hresume'
            rfl
    · cases hstep

theorem shaking_step (h : Shaking session) (hheard : Hearing session) {label : ProxiedLabel}
    (hstep : session.step dialer allowedPeers label = some next) :
    Good dialer allowedPeers next := by
  have htask := h.task
  have hquiet : (session.tunnel.far = .absent ∨ session.tunnel.far = .exited) ∧
      session.tunnel.stream.forth.sent = [] ∧ session.tunnel.reached = none ∧
      session.tunnel.nearCopy = {} := by
    rcases h.tunnel with htunnel | htunnel
    · rw [htunnel]
      exact ⟨.inl rfl, rfl, rfl, rfl⟩
    · rw [htunnel]
      exact ⟨.inr rfl, rfl, rfl, rfl⟩
  obtain ⟨hfar, hstream, hreached, hcopy⟩ := hquiet
  cases label with
  | client action => exact shaking_client h hheard hstep
  | peek result => exact shaking_peek h hheard hstep
  | greet result count reply => exact shaking_greet h hheard hstep
  | command result count reply => exact shaking_command h hheard hstep
  | headFail err count =>
      refine shaking_handshake h session.named (fun task hresume => ?_) hstep
      cases hcase : session.task with
      | readingHead =>
          rw [hcase] at hresume
          obtain rfl := Option.some.inj hresume
          exact .inl rfl
      | _ =>
          rw [hcase] at hresume
          cases hresume
  | head reads => exact shaking_head h hheard hstep
  | reply bytes outcome => exact shaking_reply h hstep
  | origin outcome =>
      have horigin : session.originStep outcome = some next := hstep
      unfold originStep at horigin
      split at horigin
      · rename_i hcase
        rw [hcase] at htask
        cases htask
      · rename_i hcase
        rw [hcase] at htask
        cases htask
      · cases horigin
  | nearCopy way move =>
      obtain ⟨⟨kind, named, hcase⟩, -⟩ := nearCopy_of_step hstep
      rw [hcase] at htask
      cases htask
  | nearDone => simp [step, nearDoneStep, hcopy] at hstep
  | nearFail err =>
      obtain ⟨task, hresume, -⟩ := Option.map_eq_some_iff.mp hstep
      cases hcase : session.task with
      | copying kind named =>
          rw [hcase] at htask
          cases htask
      | _ =>
          rw [hcase] at hresume
          cases hresume
  | nearExit =>
      obtain rfl := Option.some.inj hstep
      exact .failed ⟨h.chosen, rfl, hfar, hstream, hreached⟩
  | far label =>
      obtain ⟨hlabel, tunnel, htunnel, rfl⟩ := far_of_step hstep
      obtain rfl := far_of_idle hlabel hfar hreached htunnel
      have hexited : session.tunnel.farExitStep =
          ({ client := session.client } : Bridge).farExitStep := by
        rcases h.tunnel with htunnel | htunnel
        · exact congrArg Bridge.farExitStep htunnel
        · exact (congrArg Bridge.farExitStep htunnel).trans rfl
      rw [hexited]
      exact .shaking ⟨h.chosen, h.task, h.head, h.taken, h.replied, h.read, .inr rfl, h.forth,
        h.back⟩ ⟨hheard.said, hheard.named, hheard.lost⟩

theorem failed_step (h : Failed session) {label : ProxiedLabel}
    (hstep : session.step dialer allowedPeers label = some next) : Failed next := by
  obtain ⟨result, hcase⟩ : ∃ result, session.task = .ended result := by
    have htask := h.task
    cases hcase : session.task with
    | ended result => exact ⟨result, rfl⟩
    | _ =>
        rw [hcase] at htask
        cases htask
  have hover : ∀ event, session.taskTo event = none := by
    intro event
    rw [taskTo, hcase]
    rfl
  cases label with
  | client action =>
      obtain ⟨client, -, rfl⟩ := Option.map_eq_some_iff.mp hstep
      exact ⟨h.chosen, h.task, h.far, h.stream, h.reached⟩
  | peek | greet | command | head | headFail =>
      have hhand := handshaking_of_step rfl hstep
      rw [hcase] at hhand
      cases hhand
  | reply bytes outcome => simp [step, replyStep, sending, hcase] at hstep
  | origin outcome => simp [step, originStep, hcase] at hstep
  | nearCopy way move => simp [step, copies, hcase] at hstep
  | nearDone =>
      obtain ⟨task, hresume, -⟩ := nearDone_of_step hstep
      rw [hcase] at hresume
      cases hresume
  | nearFail err => simp [step, hover] at hstep
  | nearExit =>
      obtain rfl := Option.some.inj hstep
      exact ⟨h.chosen, rfl, h.far, h.stream, h.reached⟩
  | far label =>
      obtain ⟨hlabel, tunnel, htunnel, rfl⟩ := far_of_step hstep
      obtain rfl := far_of_idle hlabel h.far h.reached htunnel
      have hexit : session.tunnel.farExitStep.far = .exited ∧
          session.tunnel.farExitStep.stream.forth.sent = session.tunnel.stream.forth.sent ∧
          session.tunnel.farExitStep.reached = session.tunnel.reached := by
        unfold Bridge.farExitStep
        split
        · exact ⟨rfl, rfl, rfl⟩
        · exact ⟨rfl, rfl, rfl⟩
      exact ⟨h.chosen, h.task, .inr hexit.1, hexit.2.1.trans h.stream,
        hexit.2.2.trans h.reached⟩

theorem good_step (hgood : Good dialer allowedPeers session) {label : ProxiedLabel}
    (hstep : session.step dialer allowedPeers label = some next) :
    Good dialer allowedPeers next := by
  cases hgood with
  | shaking h hheard => exact shaking_step h hheard hstep
  | failed h => exact .failed (failed_step h hstep)
  | tunnelled target h hreach =>
      obtain ⟨hnext, hsame | ⟨label', hbehind⟩⟩ := tunnel_step h hstep
      · exact .tunnelled target hnext (hsame ▸ hreach)
      · obtain ⟨labels, hrun⟩ := hreach
        refine .tunnelled target hnext ⟨labels ++ [label'], ?_⟩
        exact (Machine.exec_append _ _).mpr ⟨_, hrun, Machine.exec_cons_of_step hbehind []⟩

theorem good_start : Good dialer allowedPeers {} :=
  .shaking ⟨rfl, rfl, rfl, Nat.le_refl _, rfl, Nat.le_refl _, .inl rfl, ⟨rfl, rfl⟩,
    ⟨rfl, rfl, rfl⟩⟩ ⟨rfl, rfl, rfl⟩

theorem good_of_reaches {labels : List ProxiedLabel}
    (hrun : (machine dialer allowedPeers).Reaches labels session) :
    Good dialer allowedPeers session :=
  Machine.invariant (Good dialer allowedPeers) good_start
    (fun hgood hstep => good_step hgood hstep) hrun

/-! ## The target on record -/

theorem taskTo_records {event : ProxyEvent} (h : session.taskTo event = some next) :
    next.named = session.named ∧ next.lost = session.lost := by
  obtain ⟨task, -, rfl⟩ := Option.map_eq_some_iff.mp h
  split
  · exact ⟨rfl, rfl⟩
  · exact ⟨rfl, rfl⟩

theorem handshakeStep_named {event : ProxyEvent} {count lost : Nat} {reply : Bytes}
    (h : session.handshakeStep event count lost reply = some next) :
    next.named = session.named := by
  unfold handshakeStep at h
  split at h
  · exact (taskTo_records h).1
  · cases h

theorem originStep_records {outcome : Outcome} (h : session.originStep outcome = some next) :
    next.named = session.named ∧ next.lost = session.lost := by
  unfold originStep at h
  split at h
  · split at h
    · split at h
      · have hrecords := taskTo_records h
        exact hrecords
      · cases h
    · exact taskTo_records h
    · cases h
  · split at h
    · cases h
    · have hrecords := taskTo_records h
      exact hrecords
  · cases h

theorem replyStep_records {bytes : Bytes} {outcome : Outcome}
    (h : session.replyStep bytes outcome = some next) :
    next.named = session.named ∧ next.lost = session.lost := by
  unfold replyStep at h
  split at h
  · cases h
  · split at h
    · split at h
      · cases h
      · have hrecords := taskTo_records h
        exact hrecords
    · cases h

theorem peekStep_records {result : Except IoError UInt8}
    (h : session.peekStep result = some next) :
    next.named = session.named ∧ next.lost = session.lost := by
  unfold peekStep at h
  split at h
  · split at h
    · exact taskTo_records h
    · cases h
  · exact taskTo_records h

theorem step_named {label : ProxiedLabel}
    (h : session.step dialer allowedPeers label = some next) :
    next.named = label.names.or session.named := by
  cases label with
  | client action =>
      obtain ⟨client, -, rfl⟩ := Option.map_eq_some_iff.mp h
      rfl
  | peek result => exact (peekStep_records h).1
  | greet | command | headFail => exact handshakeStep_named h
  | head reads => exact handshakeStep_named (head_of_step h).2
  | reply bytes outcome => exact (replyStep_records h).1
  | origin outcome => exact (originStep_records h).1
  | nearCopy way move =>
      obtain ⟨-, tunnel, -, rfl⟩ := nearCopy_of_step h
      rfl
  | nearDone =>
      obtain ⟨task, -, rfl⟩ := nearDone_of_step h
      rfl
  | nearFail err => exact (taskTo_records h).1
  | nearExit =>
      obtain rfl := Option.some.inj h
      rfl
  | far label =>
      obtain ⟨-, tunnel, -, rfl⟩ := far_of_step h
      rfl

/-- Nothing is lost behind the choice of a target. -/
theorem step_lost (htunnelled : Tunnelled target session) {label : ProxiedLabel}
    (h : session.step dialer allowedPeers label = some next) : next.lost = session.lost := by
  have hdone := not_ofHandshake htunnelled h
  cases label with
  | peek | greet | command | head | headFail => exact absurd rfl hdone
  | client action =>
      obtain ⟨client, -, rfl⟩ := Option.map_eq_some_iff.mp h
      rfl
  | reply bytes outcome => exact (replyStep_records h).2
  | origin outcome => exact (originStep_records h).2
  | nearCopy way move =>
      obtain ⟨-, tunnel, -, rfl⟩ := nearCopy_of_step h
      rfl
  | nearDone =>
      obtain ⟨task, -, rfl⟩ := nearDone_of_step h
      rfl
  | nearFail err => exact (taskTo_records h).2
  | nearExit =>
      obtain rfl := Option.some.inj h
      rfl
  | far label =>
      obtain ⟨-, tunnel, -, rfl⟩ := far_of_step h
      rfl

/-- A client that names a target has named none before. -/
theorem Good.named_none (hgood : Good dialer allowedPeers session) {label : ProxiedLabel}
    (h : session.step dialer allowedPeers label = some next) (hnames : label.names ≠ none) :
    session.named = none := by
  have hlabel : ofHandshake label = true := by
    cases label with
    | command | head => rfl
    | _ => exact absurd rfl hnames
  have hhand := handshaking_of_step hlabel h
  cases hgood with
  | shaking hshaking hheard => exact hheard.named
  | failed hfailed =>
      have hended := hfailed.task
      cases hcase : session.task with
      | ended result =>
          rw [hcase] at hhand
          cases hhand
      | _ =>
          rw [hcase] at hended
          cases hended
  | tunnelled target htunnelled => exact absurd hlabel (not_ofHandshake htunnelled h)

/-- In every run, the target on record is the one that the client has named. -/
theorem named_iff (labels : List ProxiedLabel)
    (hrun : (machine dialer allowedPeers).Reaches labels session) (target : String) :
    session.named = some target ↔ ∃ label ∈ labels, label.names = some target :=
  Machine.record_iff Proxied.named ProxiedLabel.names (Good dialer allowedPeers) good_start rfl
    (fun hgood hstep => good_step hgood hstep)
    (fun hgood hstep => ⟨step_named hstep, hgood.named_none hstep⟩) labels hrun target

/-! ## The main results -/

/-- In every run, a session without a target has done nothing on the network, and one with a
target is, behind its handshake, a forwarded connection to it; the target is the one its client
has named. -/
theorem proxied_refines (dialer : PeerId) (allowedPeers : List PeerId)
    (labels : List ProxiedLabel) {session : Proxied}
    (hrun : (machine dialer allowedPeers).Reaches labels session) :
    (session.chosen = none → session.tunnel.stream.forth.sent = [] ∧
      (session.tunnel.far = .absent ∨ session.tunnel.far = .exited) ∧
      session.tunnel.reached = none) ∧
    ∀ target, session.chosen = some target →
      (∃ label ∈ labels, label.names = some target) ∧ Asked target session ∧
      (Bridge.machine (.localForward dialer allowedPeers target)).Reachable session.behind := by
  cases good_of_reaches hrun with
  | shaking h hheard =>
      refine ⟨fun _ => ?_, fun target hchosen => ?_⟩
      · rcases h.tunnel with htunnel | htunnel
        · rw [htunnel]
          exact ⟨rfl, .inl rfl, rfl⟩
        · rw [htunnel]
          exact ⟨rfl, .inr rfl, rfl⟩
      · rw [h.chosen] at hchosen
        cases hchosen
  | failed h =>
      refine ⟨fun _ => ⟨h.stream, h.far, h.reached⟩, fun target hchosen => ?_⟩
      rw [h.chosen] at hchosen
      cases hchosen
  | tunnelled named h hreach =>
      refine ⟨fun hchosen => ?_, fun target hchosen => ?_⟩
      · rw [h.chosen] at hchosen
        cases hchosen
      · obtain rfl : named = target := Option.some.inj (h.chosen.symm.trans hchosen)
        exact ⟨(named_iff labels hrun named).mp h.asked.1, h.asked, hreach⟩

/-- A session of a SOCKS5 client, up to a byte that goes to the target. -/
def socksRun : List ProxiedLabel :=
  [.client (.send [5, 1, 0]), .peek (.ok 5), .greet (.ok ()) 3 [5, 0],
    .client (.receive [5, 0]), .client (.send [5, 1, 0, 3, 1, 104, 0, 1]),
    .command (.ok (.tcpConnect, "h:1")) 8 [], .origin .proceed, .origin .proceed, .far .poll,
    .far (.read .proceed), .far (.connect (.ok ())),
    .reply [5, 0, 0, 1, 0, 0, 0, 0, 0, 0] .proceed, .client (.send [7]),
    .nearCopy .forth (.read 1), .nearCopy .forth (.write 1), .far (.farCopy .forth (.read 1)),
    .far (.farCopy .forth (.write 1)), .far (.target (.receive [7]))]

theorem proxied_refines_socks :
    ∃ session : Proxied, (machine default []).Reaches socksRun session ∧
      (Bridge.machine (.localForward default [] "h:1")).Reachable session.behind := by
  obtain ⟨session, hrun, hchosen⟩ : ∃ session, (machine default []).Reaches socksRun session ∧
      session.chosen = some "h:1" := by
    have hchosen : ((machine default []).exec {} socksRun).map Proxied.chosen =
        some (some "h:1") := by
      decide +kernel
    obtain ⟨session, hrun, hsession⟩ := Option.map_eq_some_iff.mp hchosen
    exact ⟨session, hrun, hsession⟩
  exact ⟨session, hrun, ((proxied_refines default [] socksRun hrun).2 _ hchosen).2.2⟩

/-- In every run, what a session has connected to is the target that its client has named.  That
target has the beginning of what the client has sent behind its request and behind what was
lost with the reader of that, and at the end all of it; the client has the beginning of what the
target has sent behind the replies, and at the end all of it; unless something was dropped. -/
theorem proxied_delivers (dialer : PeerId) (allowedPeers : List PeerId)
    (labels : List ProxiedLabel) {session : Proxied}
    (hrun : (machine dialer allowedPeers).Reaches labels session) {target : String}
    (hreached : session.tunnel.reached = some target) :
    (∃ label ∈ labels, label.names = some target) ∧ Asked target session ∧
    session.tunnel.target.forth.sent <+:
      session.client.forth.sent.drop (session.head + session.lost) ∧
    session.client.back.sent.drop session.replied <+: session.tunnel.target.back.sent ∧
    (session.behind.Uncut → session.tunnel.target.forth.closed = true →
      session.client.forth.closed = true ∧ session.tunnel.target.forth.sent =
        session.client.forth.sent.drop (session.head + session.lost)) ∧
    (session.behind.Uncut → session.client.back.closed = true →
      session.tunnel.target.back.closed = true ∧
        session.client.back.sent.drop session.replied = session.tunnel.target.back.sent) := by
  cases good_of_reaches hrun with
  | shaking h hheard =>
      have hnone : session.tunnel.reached = none := by
        rcases h.tunnel with htunnel | htunnel
        · rw [htunnel]
        · rw [htunnel]
          rfl
      rw [hnone] at hreached
      cases hreached
  | failed h =>
      rw [h.reached] at hreached
      cases hreached
  | tunnelled named h hreach =>
      obtain ⟨inner, hinner⟩ := hreach
      have hinv := Bridge.inv_of_reaches hinner
      obtain rfl : target = named := hinv.reached target hreached
      have hforth := hinv.carriesForth
      have hback := hinv.carriesBack
      refine ⟨(named_iff labels hrun target).mp h.asked.1, h.asked, hforth.sent, hback.sent,
        fun huncut hclosed => ?_, fun huncut hclosed => ?_⟩
      · rcases hforth.closed hclosed with hcut | hcut | hend
        · rw [huncut.clientForth] at hcut
          cases hcut
        · rw [huncut.streamForth] at hcut
          cases hcut
        · exact hend
      · rcases hback.closed hclosed with hcut | hcut | hend
        · rw [huncut.targetBack] at hcut
          cases hcut
        · rw [huncut.streamBack] at hcut
          cases hcut
        · exact hend

theorem proxied_delivers_socks :
    ∃ session : Proxied, (machine default []).Reaches socksRun session ∧
      (∃ label ∈ socksRun, label.names = some "h:1") ∧
      session.tunnel.target.forth.sent = [7] ∧ session.client.forth.sent.drop 11 = [7] ∧
      session.head + session.lost = 11 ∧
      session.tunnel.target.forth.sent <+:
        session.client.forth.sent.drop (session.head + session.lost) := by
  have hends : ((machine default []).exec {} socksRun).map (fun session =>
      (session.tunnel.reached, session.tunnel.target.forth.sent,
        session.client.forth.sent.drop 11, session.head + session.lost)) =
        some (some "h:1", [7], [7], 11) := by
    decide +kernel
  obtain ⟨session, hrun, hsession⟩ := Option.map_eq_some_iff.mp hends
  obtain ⟨hreached, hsent, hdrop, htaken⟩ : session.tunnel.reached = some "h:1" ∧
      session.tunnel.target.forth.sent = [7] ∧ session.client.forth.sent.drop 11 = [7] ∧
      session.head + session.lost = 11 := by
    simpa [Prod.ext_iff] using hsession
  obtain ⟨hnamed, -, hprefix, -⟩ := proxied_delivers default [] socksRun hrun hreached
  exact ⟨session, hrun, hnamed, hsent, hdrop, htaken, hprefix⟩

end Proxied

end Sape.Proxy
