/-
  Forward/Replies.lean --- what a success reply of the proxy port stands for.

  One machine holds the sessions of a dialer in `-D` mode and, for each stream that they
  open, the task that the listener has for it.  The dialer replies as soon as the request
  is written; nothing on the stream tells it what the listener makes of the request.

  HISTORY.  `ProxySession.requested`, `replies` and `connected` record the target that the
  client named (`ProxyInput.names`, whatever the session makes of it), what it was sent (a
  reply counts from its first byte on), and the connection that the listener made; no step
  depends on them.

  WHAT IS PROVED.

      proxyMove_of_step      what a session does between two awaits
      sessionInv_step        every step keeps what is known of a session
      requested_step         the target on record is the one that the client named
      replies_truthful       a success reply stands for a request that is on its way
-/
import Sape.Client.Listen
import Sape.Foundation.Lists
import Sape.Foundation.Machine
import Sape.Forward.Session
import Sape.Stream

set_option autoImplicit false

namespace Sape.Proxy

open Sape.Foundation

/-! ## The machine -/

/-- A session of the proxy port, with the listener's end of its stream. -/
structure ProxySession where
  task : ProxyTask := .peeking
  requested : Option String := none
  replies : List ProxyReply := []
  /-- the tunnel stream, away from the dialer -/
  stream : Option Pipe := none
  /-- the listener's task for it -/
  handler : Option StreamTask := none
  connected : Option String := none
  deriving DecidableEq, Repr, Inhabited

/-- What a session meets. -/
inductive ProxyInput where
  | peek (result : Except IoError UInt8)
  | greet (result : Except String Unit)
  | command (result : Except String (Socks5Command × String))
  /-- what the client has sent of its request line and headers -/
  | head (segments : List Bytes)
  | openStream (outcome : Outcome)
  | write (outcome : Outcome)
  | reply (outcome : Outcome)
  | copied (result : Except IoError Unit)
  deriving DecidableEq, Repr, Inhabited

/-- What the listener's task of the stream meets. -/
inductive HandlerInput where
  /-- `incoming.next()` returns the stream, and its task is spawned -/
  | accept
  | read (outcome : Outcome)
  /-- any other operation comes back -/
  | await (event : StreamEvent)
  deriving DecidableEq, Repr, Inhabited

/-- What a label names. -/
inductive ProxyLabel where
  /-- a client connects to the port -/
  | connect
  | dialer (i : Nat) (input : ProxyInput)
  /-- the bridge of session `i` passes on what its client sent -/
  | copy (i : Nat) (bytes : Bytes)
  | listener (i : Nat) (input : HandlerInput)
  deriving DecidableEq, Repr, Inhabited

/-- The target that the client names, in its SOCKS5 command or on its request line. -/
def ProxyInput.names : ProxyInput → Option String
  | .command result => result.toOption.map Prod.snd
  | .head segments => (headOf segments).toOption
  | _ => none

namespace ProxySession

/-- The reply that is being written. -/
def writeReply (session : ProxySession) (outcome : Outcome) (reply : ProxyReply) :
    Option (ProxyEvent × ProxySession) :=
  match outcome with
  | .proceed =>
      some (.replied (.ok ()), { session with replies := session.replies ++ [reply] })
  | .broken _ err =>
      some (.replied (.error err), { session with replies := session.replies ++ [reply] })
  | _ => none

/-- What the awaited operation comes back with, and the session behind it. -/
def perform (session : ProxySession) : ProxyInput → Option (ProxyEvent × ProxySession)
  | .peek result => some (.peeked result, session)
  | .greet result => some (.greeted result, session)
  | .command result => some (.commandRead result, session)
  | .head segments => some (.headRead (headOf segments), session)
  | .openStream outcome =>
      match outcome with
      | .proceed => some (.streamOpened (.ok ()), { session with stream := some {} })
      | .refused err => some (.streamOpened (.error err), session)
      | _ => none
  | .write outcome =>
      match session.task, session.stream with
      | .writing _ target, some pipe =>
          (writeStep (writeTunnelRequest (.localForward target)) pipe outcome).map
            fun (done, pipe) => (.requestWritten done, { session with stream := some pipe })
      | _, _ => none
  | .reply outcome =>
      match session.task with
      | .refusing _ => session.writeReply outcome .badRequest
      | .replying kind _ => session.writeReply outcome (.success kind)
      | _ => none
  | .copied result => some (.copied result, session)

/-- The session's task goes from one await to the next. -/
def dialerStep (session : ProxySession) (input : ProxyInput) : Option ProxySession :=
  match session.perform input with
  | none => none
  | some (event, behind) =>
      (session.task.resume event).map fun next =>
        { behind with task := next, requested := input.names.or behind.requested }

/-- The bridge writes to the stream. -/
def copyStep (session : ProxySession) (bytes : Bytes) : Option ProxySession :=
  match session.task, session.stream with
  | .copying _ _, some pipe => some { session with stream := some (pipe.put bytes) }
  | _, _ => none

/-- The connection that the listener's task makes when an event reaches it. -/
def connection (task : StreamTask) (event : StreamEvent) : Option String :=
  match task, event with
  | .forwarding (.connecting target), .forward (.connected (.ok ())) => some target
  | _, _ => none

/-- The listener's task goes from one await to the next. -/
def handlerStep (opt : ListenOpt) (dialerPeer : PeerId) (session : ProxySession) :
    HandlerInput → Option ProxySession
  | .accept =>
      match session.stream, session.handler with
      | some _, none => some { session with handler := some .spawned }
      | _, _ => none
  | .read outcome =>
      match session.stream, session.handler with
      | some pipe, some .reading =>
          match readStep readTunnelRequest pipe session.task.isEnded outcome with
          | none => none
          | some (result, pipe) =>
              (StreamTask.resume opt.allowedPeers dialerPeer .reading (.requestRead result)).map
                fun next => { session with stream := some pipe, handler := some next }
      | _, _ => none
  | .await event =>
      match session.handler with
      | none => none
      | some task =>
          if task = .reading then none
          else
            (task.resume opt.allowedPeers dialerPeer event).map fun next =>
              { session with
                handler := some next
                connected := (connection task event).or session.connected }

end ProxySession

/-- One step. -/
def ProxyLabel.step (opt : ListenOpt) (dialerPeer : PeerId) (sessions : List ProxySession) :
    ProxyLabel → Option (List ProxySession)
  | .connect => some (sessions ++ [{}])
  | .dialer i input =>
      match sessions[i]? with
      | none => none
      | some session => (session.dialerStep input).map (sessions.set i)
  | .copy i bytes =>
      match sessions[i]? with
      | none => none
      | some session => (session.copyStep bytes).map (sessions.set i)
  | .listener i input =>
      match sessions[i]? with
      | none => none
      | some session => (session.handlerStep opt dialerPeer input).map (sessions.set i)

/-- The machine of a proxy port and of the listener behind it. -/
def machine (opt : ListenOpt) (dialerPeer : PeerId) : Machine (List ProxySession) ProxyLabel where
  start := []
  step sessions label := label.step opt dialerPeer sessions

/-! ## What a session does between two awaits -/

/-- The moves of a session. -/
inductive ProxyMove (session : ProxySession) : ProxySession → Prop where
  /-- the handshake goes on or fails; no success is replied -/
  | handshake {task : ProxyTask} {requested : Option String} {replies : List ProxyReply}
      (hfrom : session.task.handshaking = true)
      (htask : task.handshaking = true ∧ requested = session.requested ∨ task.isEnded = true)
      (hreplies : ∀ kind, .success kind ∉ replies) :
      ProxyMove session { session with
        task := task
        requested := requested
        replies := session.replies ++ replies }
  | ask {kind : ProxyKind} {target : String} (hfrom : session.task.handshaking = true) :
      ProxyMove session
        { session with task := .opening kind target, requested := some target }
  | opened {kind : ProxyKind} {target : String} (hfrom : session.task = .opening kind target) :
      ProxyMove session { session with task := .writing kind target, stream := some {} }
  | written {kind : ProxyKind} {target : String} {pipe next : Pipe} {outcome : Outcome}
      (hfrom : session.task = .writing kind target) (hstream : session.stream = some pipe)
      (hwrite : writeStep (writeTunnelRequest (.localForward target)) pipe outcome =
        some (.ok (), next)) :
      ProxyMove session { session with task := .replying kind target, stream := some next }
  | unwritten {kind : ProxyKind} {target : String} {pipe next : Pipe} {outcome : Outcome}
      {err : IoError} {result : Except Report Unit}
      (hfrom : session.task = .writing kind target) (hstream : session.stream = some pipe)
      (hwrite : writeStep (writeTunnelRequest (.localForward target)) pipe outcome =
        some (.error err, next)) :
      ProxyMove session { session with task := .ended result, stream := some next }
  | replied {kind : ProxyKind} {target : String} {task : ProxyTask}
      (hfrom : session.task = .replying kind target)
      (htask : task = .copying kind target ∨ task.isEnded = true) :
      ProxyMove session
        { session with task := task, replies := session.replies ++ [.success kind] }
  /-- it ends with an error of the open or with the bridge -/
  | stop {result : Except Report Unit} : ProxyMove session { session with task := .ended result }

namespace ProxySession

theorem dialerStep_some {session next : ProxySession} {input : ProxyInput}
    (h : session.dialerStep input = some next) :
    ∃ event behind task, session.perform input = some (event, behind) ∧
      session.task.resume event = some task ∧
      next = { behind with task := task, requested := input.names.or behind.requested } := by
  unfold dialerStep at h
  split at h
  · cases h
  · rename_i event behind hperform
    obtain ⟨task, htask, rfl⟩ := Option.map_eq_some_iff.mp h
    exact ⟨event, behind, task, hperform, htask, rfl⟩

/-- A reply goes out, whole or in part. -/
theorem writeReply_some {session behind : ProxySession} {outcome : Outcome}
    {reply : ProxyReply} {event : ProxyEvent}
    (h : session.writeReply outcome reply = some (event, behind)) :
    (∃ result, event = .replied result) ∧
      behind = { session with replies := session.replies ++ [reply] } := by
  cases outcome with
  | proceed =>
      obtain ⟨rfl, rfl⟩ := Prod.mk.inj (Option.some.inj h)
      exact ⟨⟨_, rfl⟩, rfl⟩
  | broken cut err =>
      obtain ⟨rfl, rfl⟩ := Prod.mk.inj (Option.some.inj h)
      exact ⟨⟨_, rfl⟩, rfl⟩
  | _ => cases h

end ProxySession

/-- What a session reads from its client, and the target that it names. -/
inductive FromClient : ProxyEvent → Option String → Prop where
  | peeked (result : Except IoError UInt8) : FromClient (.peeked result) none
  | greeted (result : Except String Unit) : FromClient (.greeted result) none
  | commandRead (result : Except String (Socks5Command × String)) :
      FromClient (.commandRead result) (result.toOption.map Prod.snd)
  | headRead (result : Except HeadError String) : FromClient (.headRead result) result.toOption

theorem handshake_of_resume {before task : ProxyTask} {event : ProxyEvent}
    {named : Option String} (hevent : FromClient event named)
    (h : before.resume event = some task) :
    before.handshaking = true ∧
      ((task.handshaking = true ∧ named = none ∨ task.isEnded = true) ∨
        ∃ kind target, task = .opening kind target ∧ named = some target) := by
  cases hevent with
  | peeked result =>
      cases before with
      | peeking =>
          refine ⟨rfl, .inl ?_⟩
          cases result with
          | error err =>
              obtain rfl := Option.some.inj h
              exact .inr rfl
          | ok byte =>
              obtain rfl := Option.some.inj h
              unfold ProxyTask.afterPeek
              split
              · exact .inl ⟨rfl, rfl⟩
              · split
                · exact .inl ⟨rfl, rfl⟩
                · exact .inr rfl
      | _ => cases h
  | greeted result =>
      cases before with
      | greeting =>
          refine ⟨rfl, .inl ?_⟩
          cases result with
          | error err =>
              obtain rfl := Option.some.inj h
              exact .inr rfl
          | ok done =>
              obtain rfl := Option.some.inj h
              exact .inl ⟨rfl, rfl⟩
      | _ => cases h
  | commandRead result =>
      cases before with
      | readingCommand =>
          refine ⟨rfl, ?_⟩
          cases result with
          | error err =>
              obtain rfl := Option.some.inj h
              exact .inl (.inr rfl)
          | ok parsed =>
              obtain rfl := Option.some.inj h
              unfold ProxyTask.afterCommand
              split
              · exact .inr ⟨_, _, rfl, rfl⟩
              · exact .inl (.inr rfl)
      | _ => cases h
  | headRead result =>
      cases before with
      | readingHead =>
          refine ⟨rfl, ?_⟩
          rcases result with (err | firstLine) | target
          · obtain rfl := Option.some.inj h
            exact .inl (.inr rfl)
          · obtain rfl := Option.some.inj h
            exact .inl (.inl ⟨rfl, rfl⟩)
          · obtain rfl := Option.some.inj h
            exact .inr ⟨_, _, rfl, rfl⟩
      | _ => cases h

/-- A step that reads from the client. -/
theorem proxyMove_of_client {session next : ProxySession} {input : ProxyInput}
    {event : ProxyEvent} (hevent : FromClient event input.names)
    (hperform : session.perform input = some (event, session))
    (h : session.dialerStep input = some next) : ProxyMove session next := by
  obtain ⟨event', behind, task, hperform', hresume, rfl⟩ := ProxySession.dialerStep_some h
  obtain ⟨rfl, rfl⟩ := Prod.mk.inj (Option.some.inj (hperform.symm.trans hperform'))
  obtain ⟨hfrom, hquiet | ⟨kind, target, rfl, hnamed⟩⟩ := handshake_of_resume hevent hresume
  · have hmove : ProxyMove session { session with
        task := task
        requested := input.names.or session.requested
        replies := session.replies ++ [] } :=
      .handshake hfrom (hquiet.imp_left fun ⟨hgoes, hnone⟩ => ⟨hgoes, by rw [hnone]; rfl⟩) (by simp)
    rwa [List.append_nil] at hmove
  · rw [hnamed]
    exact .ask hfrom

/-- `write_tunnel_request`. -/
theorem proxyMove_of_write {session next : ProxySession} {outcome : Outcome}
    (h : session.dialerStep (.write outcome) = some next) : ProxyMove session next := by
  obtain ⟨event, behind, task, hperform, hresume, rfl⟩ := ProxySession.dialerStep_some h
  simp only [ProxySession.perform] at hperform
  split at hperform
  · rename_i kind target pipe hfrom hstream
    obtain ⟨⟨done, pipe'⟩, hwrite, heq⟩ := Option.map_eq_some_iff.mp hperform
    obtain ⟨rfl, rfl⟩ := Prod.mk.inj heq
    rw [hfrom] at hresume
    cases done with
    | ok sent =>
        obtain rfl := Option.some.inj hresume
        exact .written hfrom hstream hwrite
    | error err =>
        obtain rfl := Option.some.inj hresume
        exact .unwritten hfrom hstream hwrite
  · cases hperform

/-- A reply to the client: to a bad request, or of success. -/
theorem proxyMove_of_reply {session next : ProxySession} {outcome : Outcome}
    (h : session.dialerStep (.reply outcome) = some next) : ProxyMove session next := by
  obtain ⟨event, behind, task, hperform, hresume, rfl⟩ := ProxySession.dialerStep_some h
  simp only [ProxySession.perform] at hperform
  split at hperform
  · rename_i firstLine hfrom
    obtain ⟨⟨result, rfl⟩, rfl⟩ := ProxySession.writeReply_some hperform
    have hrefuse : session.task.handshaking = true := by rw [hfrom]; rfl
    rw [hfrom] at hresume
    cases result with
    | ok done =>
        obtain rfl := Option.some.inj hresume
        exact .handshake hrefuse (.inr rfl) (by simp)
    | error err =>
        obtain rfl := Option.some.inj hresume
        exact .handshake hrefuse (.inr rfl) (by simp)
  · rename_i kind target hfrom
    obtain ⟨⟨result, rfl⟩, rfl⟩ := ProxySession.writeReply_some hperform
    rw [hfrom] at hresume
    cases result with
    | ok done =>
        obtain rfl := Option.some.inj hresume
        exact .replied hfrom (.inl rfl)
    | error err =>
        obtain rfl := Option.some.inj hresume
        exact .replied hfrom (.inr rfl)
  · cases hperform

theorem proxyMove_of_step {session next : ProxySession} {input : ProxyInput}
    (h : session.dialerStep input = some next) : ProxyMove session next := by
  cases input with
  | peek result => exact proxyMove_of_client (.peeked result) rfl h
  | greet result => exact proxyMove_of_client (.greeted result) rfl h
  | command result => exact proxyMove_of_client (.commandRead result) rfl h
  | head segments => exact proxyMove_of_client (.headRead (headOf segments)) rfl h
  | openStream outcome =>
      obtain ⟨event, behind, task, hperform, hresume, rfl⟩ := ProxySession.dialerStep_some h
      cases outcome with
      | proceed =>
          obtain ⟨rfl, rfl⟩ := Prod.mk.inj (Option.some.inj hperform)
          cases hfrom : session.task with
          | opening kind target =>
              rw [hfrom] at hresume
              obtain rfl := Option.some.inj hresume
              exact .opened hfrom
          | _ => rw [hfrom] at hresume; cases hresume
      | refused err =>
          obtain ⟨rfl, rfl⟩ := Prod.mk.inj (Option.some.inj hperform)
          cases hfrom : session.task with
          | opening kind target =>
              rw [hfrom] at hresume
              obtain rfl := Option.some.inj hresume
              exact .stop
          | _ => rw [hfrom] at hresume; cases hresume
      | _ => cases hperform
  | write outcome => exact proxyMove_of_write h
  | reply outcome => exact proxyMove_of_reply h
  | copied result =>
      obtain ⟨event, behind, task, hperform, hresume, rfl⟩ := ProxySession.dialerStep_some h
      obtain ⟨rfl, rfl⟩ := Prod.mk.inj (Option.some.inj hperform)
      cases hfrom : session.task with
      | copying kind target =>
          rw [hfrom] at hresume
          cases result with
          | error err =>
              obtain rfl := Option.some.inj hresume
              exact .stop
          | ok done =>
              obtain rfl := Option.some.inj hresume
              exact .stop
      | _ => rw [hfrom] at hresume; cases hresume

/-! ## The invariant -/

/-- The whole request for the target that the client asked for is on an open tunnel
stream. -/
def Committed (session : ProxySession) : Prop :=
  ∃ target pipe frame, session.requested = some target ∧ session.stream = some pipe ∧
    writeTunnelRequest (.localForward target) = .ok frame ∧ frame <+: pipe.sent

/-- What is on a stream agrees with the request for a target, as far as both go. -/
def Carries (target : String) (pipe : Pipe) : Prop :=
  pipe.sent = [] ∨ ∃ frame, writeTunnelRequest (.localForward target) = .ok frame ∧
    (pipe.sent <+: frame ∨ frame <+: pipe.sent)

/-- Whether the listener's task has yet to read from its stream. -/
def unreadBy : StreamTask → Bool
  | .spawned | .rejected | .reading => true
  | _ => false

/-- What is known of a session. -/
structure SessionInv (session : ProxySession) : Prop where
  fresh : session.task.handshaking = true → session.requested = none ∧ session.stream = none
  opening : ∀ kind target, session.task = .opening kind target →
    session.requested = some target ∧ session.stream = none
  writing : ∀ kind target, session.task = .writing kind target →
    session.requested = some target ∧ (∃ pipe, session.stream = some pipe ∧ pipe.sent = []) ∧
      ∀ reply, .success reply ∉ session.replies
  sent : ∀ kind target, session.task = .replying kind target ∨ session.task = .copying kind target →
    Committed session
  success : ∀ kind, .success kind ∈ session.replies → Committed session
  carries : ∀ pipe, session.stream = some pipe →
    ∃ target, session.requested = some target ∧ Carries target pipe
  behind : session.stream = none → session.handler = none ∧ session.connected = none
  unread : ∀ pipe, session.stream = some pipe →
    (∀ task, session.handler = some task → unreadBy task = true) → pipe.taken = 0
  forwarding : ∀ target, session.handler = some (.forwarding (.connecting target)) →
    session.requested = some target
  connected : ∀ target, session.connected = some target → session.requested = some target

theorem sessionInv_start : SessionInv {} where
  fresh _ := ⟨rfl, rfl⟩
  opening _ _ h := by cases h
  writing _ _ h := by cases h
  sent _ _ h := by rcases h with h | h <;> cases h
  success _ h := by cases h
  carries _ h := by cases h
  behind _ := ⟨rfl, rfl⟩
  unread _ h := by cases h
  forwarding _ h := by cases h
  connected _ h := by cases h

namespace SessionInv

/-- A task that is past its open says nothing of `fresh`, `opening` and `writing`. -/
theorem move_past {session next : ProxySession} (inv : SessionInv session)
    (hpast : next.task.handshaking = false)
    (hopening : ∀ kind target, next.task ≠ .opening kind target)
    (hwriting : ∀ kind target, next.task ≠ .writing kind target)
    (hsent : ∀ kind target, next.task = .replying kind target ∨ next.task = .copying kind target →
      Committed next)
    (hsuccess : ∀ kind, .success kind ∈ next.replies → Committed next)
    (hcarries : ∀ pipe, next.stream = some pipe →
      ∃ target, next.requested = some target ∧ Carries target pipe)
    (hbehind : next.stream = none → session.stream = none)
    (hunread : ∀ pipe, next.stream = some pipe →
      ∃ before, session.stream = some before ∧ before.taken = pipe.taken)
    (hrequested : next.requested = session.requested)
    (hhandler : next.handler = session.handler) (hconnected : next.connected = session.connected) :
    SessionInv next where
  fresh h := by rw [hpast] at h; cases h
  opening kind target h := absurd h (hopening kind target)
  writing kind target h := absurd h (hwriting kind target)
  sent := hsent
  success := hsuccess
  carries := hcarries
  behind h := by
    rw [hhandler, hconnected]
    exact inv.behind (hbehind h)
  unread pipe hpipe htask := by
    obtain ⟨before, hbefore, htaken⟩ := hunread pipe hpipe
    rw [← htaken]
    exact inv.unread before hbefore (hhandler ▸ htask)
  forwarding target h := by
    rw [hrequested]
    exact inv.forwarding target (hhandler ▸ h)
  connected target h := by
    rw [hrequested]
    exact inv.connected target (hconnected ▸ h)

/-- A session that asks for a target is not known to the listener yet. -/
theorem ask {session : ProxySession} (inv : SessionInv session) {kind : ProxyKind}
    {target : String} (hfrom : session.task.handshaking = true) :
    SessionInv { session with task := .opening kind target, requested := some target } := by
  obtain ⟨hrequested, hstream⟩ := inv.fresh hfrom
  obtain ⟨hhandler, hconnected⟩ := inv.behind hstream
  have hnone : ¬ Committed session := by
    rintro ⟨_, _, _, hasked, -⟩
    rw [hrequested] at hasked
    cases hasked
  exact {
    fresh h := by cases h
    opening kind' target' h := by
      cases h
      exact ⟨rfl, hstream⟩
    writing kind' target' h := by cases h
    sent kind' target' h := by rcases h with h | h <;> cases h
    success kind' h := absurd (inv.success kind' h) hnone
    carries pipe h := by rw [hstream] at h; cases h
    behind _ := ⟨hhandler, hconnected⟩
    unread pipe h := by rw [hstream] at h; cases h
    forwarding target' h := by rw [hhandler] at h; cases h
    connected target' h := by rw [hconnected] at h; cases h }

/-- A new stream holds nothing. -/
theorem opened {session : ProxySession} (inv : SessionInv session) {kind : ProxyKind}
    {target : String} (hfrom : session.task = .opening kind target) :
    SessionInv { session with task := .writing kind target, stream := some {} } := by
  obtain ⟨hrequested, hstream⟩ := inv.opening kind target hfrom
  obtain ⟨hhandler, hconnected⟩ := inv.behind hstream
  have hnone : ¬ Committed session := by
    rintro ⟨_, _, _, -, hopen, -⟩
    rw [hstream] at hopen
    cases hopen
  exact {
    fresh h := by cases h
    opening kind' target' h := by cases h
    writing kind' target' h := by
      cases h
      exact ⟨hrequested, ⟨{}, rfl, rfl⟩, fun reply hreply => hnone (inv.success reply hreply)⟩
    sent kind' target' h := by rcases h with h | h <;> cases h
    success kind' h := absurd (inv.success kind' h) hnone
    carries pipe h := by
      cases h
      exact ⟨target, hrequested, .inl rfl⟩
    behind h := by cases h
    unread pipe h _ := by
      cases h
      rfl
    forwarding target' h := by rw [hhandler] at h; cases h
    connected target' h := by rw [hconnected] at h; cases h }

/-- The handshake goes on or fails, and no success is replied. -/
theorem handshake {session : ProxySession} (inv : SessionInv session) {task : ProxyTask}
    {requested : Option String} {replies : List ProxyReply}
    (hfrom : session.task.handshaking = true)
    (htask : task.handshaking = true ∧ requested = session.requested ∨ task.isEnded = true)
    (hreplies : ∀ kind, .success kind ∉ replies) :
    SessionInv { session with
      task := task
      requested := requested
      replies := session.replies ++ replies } := by
  obtain ⟨hrequested, hstream⟩ := inv.fresh hfrom
  obtain ⟨hhandler, hconnected⟩ := inv.behind hstream
  have hpast : ∀ {past : ProxyTask}, task = past → past.handshaking = true ∨
      past.isEnded = true := fun heq => heq ▸ htask.imp_left And.left
  exact {
    fresh h := by
      rcases htask with ⟨-, rfl⟩ | hended
      · exact inv.fresh hfrom
      · cases task with
        | ended result => cases h
        | _ => cases hended
    opening kind target h := by rcases hpast h with h | h <;> cases h
    writing kind target h := by rcases hpast h with h | h <;> cases h
    sent kind target h := by
      rcases h with h | h
      · rcases hpast h with h | h <;> cases h
      · rcases hpast h with h | h <;> cases h
    success kind h := by
      rcases List.mem_append.mp h with h | h
      · obtain ⟨target, pipe, frame, hasked, -⟩ := inv.success kind h
        rw [hrequested] at hasked
        cases hasked
      · exact absurd h (hreplies kind)
    carries pipe h := by rw [hstream] at h; cases h
    behind := inv.behind
    unread := inv.unread
    forwarding target h := by rw [hhandler] at h; cases h
    connected target h := by rw [hconnected] at h; cases h }

/-- A write of the request keeps to the request. -/
theorem carries_write {target : String} {pipe next : Pipe} {outcome : Outcome}
    {done : Except IoError Unit} (hempty : pipe.sent = [])
    (hwrite : writeStep (writeTunnelRequest (.localForward target)) pipe outcome =
      some (done, next)) : Carries target next := by
  obtain ⟨-, ⟨-, frame, hframe, hsent⟩ | ⟨-, hsent | ⟨frame, cut, hframe, hsent⟩⟩⟩ :=
    writeStep_cases hwrite
  · rw [hempty, List.nil_append] at hsent
    exact .inr ⟨frame, hframe, .inl (hsent ▸ List.prefix_rfl)⟩
  · exact .inl (hsent.trans hempty)
  · rw [hempty, List.nil_append] at hsent
    exact .inr ⟨frame, hframe, .inl (hsent ▸ List.take_prefix cut frame)⟩

end SessionInv

theorem sessionInv_move {session next : ProxySession} (inv : SessionInv session)
    (hmove : ProxyMove session next) : SessionInv next := by
  cases hmove with
  | handshake hfrom htask hreplies => exact inv.handshake hfrom htask hreplies
  | ask hfrom => exact inv.ask hfrom
  | opened hfrom => exact inv.opened hfrom
  | @written kind target pipe pipe' outcome hfrom hstream hwrite =>
      obtain ⟨hrequested, ⟨before, hbefore, hempty⟩, hnone⟩ := inv.writing kind target hfrom
      obtain rfl := Option.some.inj (hstream.symm.trans hbefore)
      obtain ⟨htaken, ⟨-, frame, hframe, hsent⟩ | ⟨⟨err, herr⟩, -⟩⟩ := writeStep_cases hwrite
      · have hcommitted : Committed
            { session with task := .replying kind target, stream := some pipe' } :=
          ⟨target, pipe', frame, hrequested, rfl, hframe, by simp [hsent, hempty]⟩
        refine inv.move_past rfl ?_ ?_ (fun _ _ _ => hcommitted) (fun _ _ => hcommitted) ?_ ?_ ?_
          rfl rfl rfl
        · intro _ _ h; cases h
        · intro _ _ h; cases h
        · rintro _ ⟨⟩
          exact ⟨target, hrequested, SessionInv.carries_write hempty hwrite⟩
        · intro h; cases h
        · rintro _ ⟨⟩
          exact ⟨pipe, hstream, htaken.symm⟩
      · cases herr
  | @unwritten kind target pipe pipe' outcome err result hfrom hstream hwrite =>
      obtain ⟨hrequested, ⟨before, hbefore, hempty⟩, hnone⟩ := inv.writing kind target hfrom
      obtain rfl := Option.some.inj (hstream.symm.trans hbefore)
      obtain ⟨htaken, -⟩ := writeStep_cases hwrite
      refine inv.move_past rfl ?_ ?_ ?_ ?_ ?_ ?_ ?_ rfl rfl rfl
      · intro _ _ h; cases h
      · intro _ _ h; cases h
      · intro _ _ h; rcases h with h | h <;> cases h
      · exact fun reply hreply => absurd hreply (hnone reply)
      · rintro _ ⟨⟩
        exact ⟨target, hrequested, SessionInv.carries_write hempty hwrite⟩
      · intro h; cases h
      · rintro _ ⟨⟩
        exact ⟨pipe, hstream, htaken.symm⟩
  | @replied kind target task hfrom htask =>
      have hcommitted := inv.sent kind target (.inl hfrom)
      refine inv.move_past ?_ ?_ ?_ (fun _ _ _ => hcommitted) (fun _ _ => hcommitted)
        inv.carries id (fun pipe hpipe => ⟨pipe, hpipe, rfl⟩) rfl rfl rfl
      · rcases htask with rfl | htask
        · rfl
        · cases task with
          | ended result => rfl
          | _ => cases htask
      · intro _ _ h
        subst h
        rcases htask with htask | htask <;> cases htask
      · intro _ _ h
        subst h
        rcases htask with htask | htask <;> cases htask
  | stop =>
      refine inv.move_past rfl ?_ ?_ ?_ inv.success inv.carries id
        (fun pipe hpipe => ⟨pipe, hpipe, rfl⟩) rfl rfl rfl
      · intro _ _ h; cases h
      · intro _ _ h; cases h
      · intro _ _ h; rcases h with h | h <;> cases h

/-- What the bridge passes on stands behind the request. -/
theorem sessionInv_copy {session next : ProxySession} {bytes : Bytes}
    (inv : SessionInv session) (h : session.copyStep bytes = some next) : SessionInv next := by
  unfold ProxySession.copyStep at h
  split at h
  · rename_i kind target pipe hfrom hstream
    obtain rfl := Option.some.inj h
    have hpast : session.task.handshaking = false := by rw [hfrom]; rfl
    obtain ⟨target', pipe', frame, hrequested, hwhole, hframe, hprefix⟩ :=
      inv.sent kind target (.inr hfrom)
    obtain rfl := Option.some.inj (hstream.symm.trans hwhole)
    have hbehind : frame <+: (pipe.put bytes).sent := hprefix.trans (List.prefix_append _ _)
    have hcommitted : Committed { session with stream := some (pipe.put bytes) } :=
      ⟨target', pipe.put bytes, frame, hrequested, rfl, hframe, hbehind⟩
    refine inv.move_past hpast ?_ ?_ (fun _ _ _ => hcommitted) (fun _ _ => hcommitted)
      ?_ ?_ ?_ rfl rfl rfl
    · intro _ _ h
      cases hfrom.symm.trans h
    · intro _ _ h
      cases hfrom.symm.trans h
    · rintro _ ⟨⟩
      exact ⟨target', hrequested, .inr ⟨frame, hframe, .inr hbehind⟩⟩
    · intro h
      cases h
    · rintro _ ⟨⟩
      exact ⟨pipe, hstream, rfl⟩
  · cases h

/-- The listener's task leaves the dialer's side as it is. -/
theorem SessionInv.move_handler {session : ProxySession} (inv : SessionInv session) {pipe : Pipe}
    (next : Pipe) (task : StreamTask) (connected : Option String)
    (hstream : session.stream = some pipe) (hsent : next.sent = pipe.sent)
    (hunread : unreadBy task = true → next.taken = 0)
    (hforwarding : ∀ target, task = .forwarding (.connecting target) →
      session.requested = some target)
    (hconnected : ∀ target, connected = some target → session.requested = some target) :
    SessionInv { session with
      stream := some next
      handler := some task
      connected := connected } := by
  have hcommitted : Committed session → Committed { session with
      stream := some next
      handler := some task
      connected := connected } := by
    rintro ⟨target, pipe', frame, hrequested, hpipe, hframe, hprefix⟩
    obtain rfl := Option.some.inj (hstream.symm.trans hpipe)
    exact ⟨target, next, frame, hrequested, rfl, hframe, hsent.symm ▸ hprefix⟩
  exact {
    fresh h := by
      have hnone := (inv.fresh h).2
      rw [hstream] at hnone
      cases hnone
    opening kind target h := by
      have hnone := (inv.opening kind target h).2
      rw [hstream] at hnone
      cases hnone
    writing kind target h := by
      obtain ⟨hrequested, ⟨pipe', hpipe, hempty⟩, hnone⟩ := inv.writing kind target h
      obtain rfl := Option.some.inj (hstream.symm.trans hpipe)
      exact ⟨hrequested, ⟨next, rfl, hsent.trans hempty⟩, hnone⟩
    sent kind target h := hcommitted (inv.sent kind target h)
    success kind h := hcommitted (inv.success kind h)
    carries pipe' h := by
      cases h
      obtain ⟨target, hrequested, hcarries⟩ := inv.carries pipe hstream
      refine ⟨target, hrequested, ?_⟩
      unfold Carries
      rw [hsent]
      exact hcarries
    behind h := by cases h
    unread pipe' h htask := by
      cases h
      exact hunread (htask task rfl)
    forwarding target h := hforwarding target (Option.some.inj h)
    connected := hconnected }

/-- A request that is read off the stream is the one that the client asked for. -/
theorem SessionInv.request_read {session : ProxySession} (inv : SessionInv session)
    {pipe next : Pipe} {gone : Bool} {outcome : Outcome} {req : TunnelRequest}
    (hstream : session.stream = some pipe) (hhandler : session.handler = some .reading)
    (hread : readStep readTunnelRequest pipe gone outcome = some (.ok req, next)) :
    ∃ target, session.requested = some target ∧ req = .localForward target := by
  obtain ⟨rest, hrest, -⟩ := readStep_ok hread
  have htaken : pipe.taken = 0 := inv.unread pipe hstream fun task htask => by
    obtain rfl := Option.some.inj (hhandler.symm.trans htask)
    rfl
  have hunread : pipe.unread = pipe.sent := by rw [Pipe.unread, htaken, List.drop_zero]
  rw [hunread] at hrest
  obtain ⟨target, hrequested, hempty | ⟨frame, hframe, hcomparable⟩⟩ := inv.carries pipe hstream
  · rw [hempty] at hrest
    cases hrest
  · have hfits : TunnelRequest.postcard.Fits (.localForward target) :=
      TunnelRequest.postcard_fits (Nat.lt_trans (Frame.write_ok hframe).1 (by decide))
    exact ⟨target, hrequested, (Frame.read_comparable hfits hframe hcomparable hrest).1⟩

theorem unreadBy_of_resume {allowedPeers : List PeerId} {peer : PeerId} {task next : StreamTask}
    {event : StreamEvent} (h : task.resume allowedPeers peer event = some next)
    (hnext : unreadBy next = true) : unreadBy task = true := by
  rcases StreamTask.resume_cases h with ⟨rfl, -⟩ | ⟨req, rfl, -⟩ |
    ⟨_, _, _, -, ⟨-, rfl⟩ | ⟨_, _, -, rfl⟩⟩ | ⟨_, _, -, -, rfl⟩ | ⟨-, -, rfl⟩ | ⟨-, -, rfl⟩
  · rfl
  · rfl
  all_goals cases hnext

/-- Only the request leads to a connection. -/
theorem connecting_of_resume {allowedPeers : List PeerId} {peer : PeerId} {task next : StreamTask}
    {event : StreamEvent} (h : task.resume allowedPeers peer event = some next)
    (hreading : task ≠ .reading) (target : String) : next ≠ .forwarding (.connecting target) := by
  rintro rfl
  cases task with
  | spawned =>
      cases event with
      | polled =>
          rcases StreamTask.afterPoll_cases allowedPeers peer with ⟨-, heq⟩ | ⟨-, heq⟩
          · rw [StreamTask.resume, heq] at h
            cases h
          · rw [StreamTask.resume, heq] at h
            cases h
      | _ => cases h
  | reading => exact hreading rfl
  | forwarding task =>
      cases event with
      | forward event =>
          obtain ⟨task', hresume, heq⟩ := Option.map_eq_some_iff.mp h
          cases heq
          exact ForwardTask.resume_ne_connecting hresume target rfl
      | _ => cases h
  | binding bindPort target' gatewayPorts =>
      cases event with
      | bound result => cases result <;> cases h
      | _ => cases h
  | _ => cases event <;> cases h

/-- A connection that the listener makes is to the target the client asked for. -/
theorem SessionInv.connected_or {session : ProxySession} (inv : SessionInv session)
    {task : StreamTask} {event : StreamEvent} (hhandler : session.handler = some task)
    (target : String)
    (h : (ProxySession.connection task event).or session.connected = some target) :
    session.requested = some target := by
  unfold ProxySession.connection at h
  split at h
  · rename_i made
    rw [Option.some_or] at h
    exact inv.forwarding target (by rw [hhandler, Option.some.inj h])
  · exact inv.connected target h

theorem sessionInv_handler {opt : ListenOpt} {dialerPeer : PeerId} {session next : ProxySession}
    {input : HandlerInput} (inv : SessionInv session)
    (h : session.handlerStep opt dialerPeer input = some next) : SessionInv next := by
  cases input with
  | accept =>
      simp only [ProxySession.handlerStep] at h
      split at h
      · rename_i pipe hstream hhandler
        obtain rfl := Option.some.inj h
        have hfresh : pipe.taken = 0 := inv.unread pipe hstream fun task htask => by
          rw [hhandler] at htask
          cases htask
        have hmove := inv.move_handler pipe .spawned session.connected hstream rfl (fun _ => hfresh)
          (fun target htask => by cases htask) inv.connected
        rwa [← hstream] at hmove
      · cases h
  | read outcome =>
      simp only [ProxySession.handlerStep] at h
      split at h
      · rename_i pipe hstream hhandler
        split at h
        · cases h
        · rename_i result pipe' hread
          obtain ⟨task, hresume, rfl⟩ := Option.map_eq_some_iff.mp h
          cases result with
          | error err =>
              obtain rfl := Option.some.inj hresume
              exact inv.move_handler _ _ _ hstream (readStep_sent hread) (fun hnot => by cases hnot)
                (fun target htask => by cases htask) inv.connected
          | ok req =>
              obtain rfl := Option.some.inj hresume
              obtain ⟨target, hrequested, rfl⟩ := inv.request_read hstream hhandler hread
              refine inv.move_handler _ _ _ hstream (readStep_sent hread)
                (fun hnot => by cases hnot) (fun target' htask => ?_) inv.connected
              cases htask
              exact hrequested
      · cases h
  | await event =>
      simp only [ProxySession.handlerStep] at h
      split at h
      · cases h
      · rename_i task hhandler
        split at h
        · cases h
        · rename_i hreading
          obtain ⟨task', hresume, rfl⟩ := Option.map_eq_some_iff.mp h
          have hopen : session.stream ≠ none := by
            intro hnone
            have hcontra := (inv.behind hnone).1
            rw [hhandler] at hcontra
            cases hcontra
          obtain ⟨pipe, hstream⟩ := Option.ne_none_iff_exists'.mp hopen
          have hmove := inv.move_handler pipe task'
            ((ProxySession.connection task event).or session.connected) hstream rfl
            (fun hunread => inv.unread pipe hstream fun before hbefore => by
              obtain rfl := Option.some.inj (hhandler.symm.trans hbefore)
              exact unreadBy_of_resume hresume hunread)
            (fun target htask => absurd htask (connecting_of_resume hresume hreading target))
            (inv.connected_or hhandler)
          rwa [← hstream] at hmove

theorem sessionInv_step {opt : ListenOpt} {dialerPeer : PeerId} {sessions next : List ProxySession}
    {label : ProxyLabel} (inv : ∀ session ∈ sessions, SessionInv session)
    (h : label.step opt dialerPeer sessions = some next) :
    ∀ session ∈ next, SessionInv session := by
  have hset : ∀ (i : Nat) (step : ProxySession → Option ProxySession),
      (∀ session moved, SessionInv session → step session = some moved → SessionInv moved) →
      ∀ session, sessions[i]? = some session →
      (step session).map (sessions.set i) = some next →
      ∀ session ∈ next, SessionInv session := by
    intro i step hstep session hget hmap
    obtain ⟨moved, hmoved, rfl⟩ := Option.map_eq_some_iff.mp hmap
    intro other hother
    rcases List.mem_or_eq_of_mem_set hother with hmem | rfl
    · exact inv other hmem
    · exact hstep session other (inv session (List.mem_of_getElem? hget)) hmoved
  cases label with
  | connect =>
      obtain rfl := Option.some.inj h
      intro session hmem
      rcases List.mem_append.mp hmem with hmem | hmem
      · exact inv session hmem
      · obtain rfl := List.mem_singleton.mp hmem
        exact sessionInv_start
  | dialer i input =>
      simp only [ProxyLabel.step] at h
      split at h
      · cases h
      · rename_i session hget
        apply hset i (fun session => session.dialerStep input) _ session hget h
        intro session moved hinv hmoved
        exact sessionInv_move hinv (proxyMove_of_step hmoved)
  | copy i bytes =>
      simp only [ProxyLabel.step] at h
      split at h
      · cases h
      · rename_i session hget
        apply hset i (fun session => session.copyStep bytes) _ session hget h
        intro session moved hinv hmoved
        exact sessionInv_copy hinv hmoved
  | listener i input =>
      simp only [ProxyLabel.step] at h
      split at h
      · cases h
      · rename_i session hget
        apply hset i (fun session => session.handlerStep opt dialerPeer input) _ session hget h
        intro session moved hinv hmoved
        exact sessionInv_handler hinv hmoved

theorem sessionInv_of_reachable {opt : ListenOpt} {dialerPeer : PeerId}
    {sessions : List ProxySession} (h : (machine opt dialerPeer).Reachable sessions) :
    ∀ session ∈ sessions, SessionInv session := by
  obtain ⟨labels, hrun⟩ := h
  apply Machine.invariant (fun sessions => ∀ session ∈ sessions, SessionInv session) _ _ hrun
  · intro session hmem
    cases hmem
  · intro state label next inv hstep
    exact sessionInv_step inv hstep

/-! ## The target on record -/

/-- The target that a label has the client of session `i` name. -/
def ProxyLabel.names (i : Nat) : ProxyLabel → Option String
  | .dialer j input => if j = i then input.names else none
  | _ => none

theorem ProxySession.perform_requested {session behind : ProxySession} {input : ProxyInput}
    {event : ProxyEvent} (h : session.perform input = some (event, behind)) :
    behind.requested = session.requested := by
  cases input with
  | peek result | greet result | command result | head segments | copied result => cases h; rfl
  | openStream outcome => cases outcome <;> cases h <;> rfl
  | write outcome =>
      simp only [perform] at h
      split at h
      · obtain ⟨done, -, heq⟩ := Option.map_eq_some_iff.mp h
        cases heq
        rfl
      · cases h
  | reply outcome =>
      simp only [perform] at h
      split at h
      · rw [(writeReply_some h).2]
      · rw [(writeReply_some h).2]
      · cases h

/-- A client names its target in the handshake. -/
theorem ProxySession.names_handshaking {session next : ProxySession} {input : ProxyInput}
    {target : String} (h : session.dialerStep input = some next)
    (hnames : input.names = some target) : session.task.handshaking = true := by
  obtain ⟨event, behind, task, hperform, hresume, -⟩ := dialerStep_some h
  cases input with
  | command result =>
      obtain ⟨rfl, -⟩ := Prod.mk.inj (Option.some.inj hperform)
      exact (handshake_of_resume (.commandRead result) hresume).1
  | head segments =>
      obtain ⟨rfl, -⟩ := Prod.mk.inj (Option.some.inj hperform)
      exact (handshake_of_resume (.headRead (headOf segments)) hresume).1
  | _ => cases hnames

theorem ProxySession.copyStep_requested {session next : ProxySession} {bytes : Bytes}
    (h : session.copyStep bytes = some next) : next.requested = session.requested := by
  unfold copyStep at h
  split at h
  · cases h
    rfl
  · cases h

theorem ProxySession.handlerStep_requested {opt : ListenOpt} {dialerPeer : PeerId}
    {session next : ProxySession} {input : HandlerInput}
    (h : session.handlerStep opt dialerPeer input = some next) :
    next.requested = session.requested := by
  cases input with
  | accept =>
      simp only [handlerStep] at h
      split at h
      · cases h
        rfl
      · cases h
  | read outcome =>
      simp only [handlerStep] at h
      split at h
      · split at h
        · cases h
        · obtain ⟨task, -, rfl⟩ := Option.map_eq_some_iff.mp h
          rfl
      · cases h
  | await event =>
      simp only [handlerStep] at h
      split at h
      · cases h
      · split at h
        · cases h
        · obtain ⟨task, -, rfl⟩ := Option.map_eq_some_iff.mp h
          rfl

/-- The targets on record, where one session has moved. -/
theorem requested_set {sessions : List ProxySession} {j : Nat} {session : ProxySession}
    (hget : sessions[j]? = some session) (moved : ProxySession) (i : Nat) :
    (sessions.set j moved)[i]?.bind ProxySession.requested =
      if j = i then moved.requested else sessions[i]?.bind ProxySession.requested := by
  rw [getElem?_set_of_get hget]
  by_cases hi : i = j
  · rw [if_pos hi, if_pos hi.symm]
    rfl
  · rw [if_neg hi, if_neg (Ne.symm hi)]

/-- A step puts on record what it has a client name, and nothing was on record before. -/
theorem requested_step {opt : ListenOpt} {dialerPeer : PeerId} {sessions next : List ProxySession}
    {label : ProxyLabel} (inv : ∀ session ∈ sessions, SessionInv session)
    (h : label.step opt dialerPeer sessions = some next) (i : Nat) :
    next[i]?.bind ProxySession.requested =
        (label.names i).or (sessions[i]?.bind ProxySession.requested) ∧
      (label.names i ≠ none → sessions[i]?.bind ProxySession.requested = none) := by
  have hkept : ∀ {j : Nat} {session moved : ProxySession}, sessions[j]? = some session →
      moved.requested = session.requested →
      (sessions.set j moved)[i]?.bind ProxySession.requested =
        sessions[i]?.bind ProxySession.requested := by
    intro j session moved hget hsame
    rw [requested_set hget]
    split
    · rename_i hi
      rw [← hi, hget, hsame]
      rfl
    · rfl
  cases label with
  | connect =>
      obtain rfl := Option.some.inj h
      refine ⟨?_, fun hnames => absurd rfl hnames⟩
      rw [List.getElem?_append]
      split
      · rfl
      · rename_i hge
        rw [List.getElem?_eq_none (Nat.le_of_not_lt hge)]
        cases i - sessions.length <;> rfl
  | dialer j input =>
      simp only [ProxyLabel.step] at h
      split at h
      · cases h
      · rename_i session hget
        obtain ⟨moved, hmoved, rfl⟩ := Option.map_eq_some_iff.mp h
        rw [requested_set hget]
        simp only [ProxyLabel.names]
        by_cases hi : j = i
        · subst hi
          rw [if_pos rfl, if_pos rfl, hget]
          constructor
          · obtain ⟨event, behind, task, hperform, -, rfl⟩ := ProxySession.dialerStep_some hmoved
            rw [Option.bind_some, ← ProxySession.perform_requested hperform]
          · intro hnames
            obtain ⟨target, htarget⟩ := Option.ne_none_iff_exists'.mp hnames
            exact ((inv session (List.mem_of_getElem? hget)).fresh
              (ProxySession.names_handshaking hmoved htarget)).1
        · rw [if_neg hi, if_neg hi]
          exact ⟨rfl, fun hnames => absurd rfl hnames⟩
  | copy j bytes =>
      simp only [ProxyLabel.step] at h
      split at h
      · cases h
      · rename_i session hget
        obtain ⟨moved, hmoved, rfl⟩ := Option.map_eq_some_iff.mp h
        exact ⟨hkept hget (ProxySession.copyStep_requested hmoved), fun hnames => absurd rfl hnames⟩
  | listener j input =>
      simp only [ProxyLabel.step] at h
      split at h
      · cases h
      · rename_i session hget
        obtain ⟨moved, hmoved, rfl⟩ := Option.map_eq_some_iff.mp h
        exact ⟨hkept hget (ProxySession.handlerStep_requested hmoved),
          fun hnames => absurd rfl hnames⟩

/-- In every run, the target on record for a session is the one that its client named. -/
theorem requested_iff_named {opt : ListenOpt} {dialerPeer : PeerId} (labels : List ProxyLabel)
    {sessions : List ProxySession} (hrun : (machine opt dialerPeer).Reaches labels sessions)
    (i : Nat) (target : String) :
    sessions[i]?.bind ProxySession.requested = some target ↔
      ∃ label ∈ labels, label.names i = some target := by
  refine Machine.record_iff (fun sessions => sessions[i]?.bind ProxySession.requested)
    (ProxyLabel.names i) (fun sessions => ∀ session ∈ sessions, SessionInv session) ?_ rfl
    sessionInv_step (fun inv hstep => requested_step inv hstep i) labels hrun target
  exact fun session hmem => by cases hmem

/-! ## Success replies -/

/-- In every run, a session whose client is sent a success has the whole request for the
client's target on an open tunnel stream, and a connection that the listener makes for a
session is to that target: the one that the client has named in the run. -/
theorem replies_truthful (opt : ListenOpt) (dialerPeer : PeerId) (labels : List ProxyLabel)
    (sessions : List ProxySession) (hrun : (machine opt dialerPeer).Reaches labels sessions)
    (i : Nat) (session : ProxySession) (hsession : sessions[i]? = some session) :
    (∀ kind, .success kind ∈ session.replies → Committed session) ∧
      (∀ target, session.connected = some target → session.requested = some target) ∧
      ∀ target, session.requested = some target ↔
        ∃ label ∈ labels, label.names i = some target := by
  have inv := sessionInv_of_reachable ⟨labels, hrun⟩ session (List.mem_of_getElem? hsession)
  refine ⟨inv.success, inv.connected, fun target => ?_⟩
  rw [← requested_iff_named labels hrun i target, hsession]
  rfl

/-- A client that asks for `a:1` over HTTP CONNECT, up to the request on its stream. -/
def connectRequest : List ProxyLabel :=
  [.connect, .dialer 0 (.peek (.ok 67)),
    .dialer 0 (.head [Postcard.utf8Bytes "CONNECT a:1 HTTP/1.1\r\n\r\n"]),
    .dialer 0 (.openStream .proceed), .dialer 0 (.write .proceed)]

/-- A client that asks for `a:1` over SOCKS5, up to the request on its stream. -/
def socksRequest : List ProxyLabel :=
  [.connect, .dialer 0 (.peek (.ok 0x05)), .dialer 0 (.greet (.ok ())),
    .dialer 0 (.command (.ok (.tcpConnect, "a:1"))), .dialer 0 (.openStream .proceed),
    .dialer 0 (.write .proceed)]

/-- The listener reads the request. -/
def listenerReads : List ProxyLabel :=
  [.listener 0 .accept, .listener 0 (.await .polled), .listener 0 (.read .proceed)]

/-- The run of a client that is connected to what it asked for. -/
def connectedRun : List ProxyLabel :=
  connectRequest ++ listenerReads ++
    [.listener 0 (.await (.forward (.connected (.ok ())))), .dialer 0 (.reply .proceed)]

theorem replies_truthful_connected :
    ∃ sessions session, (machine {} ⟨[1]⟩).Reaches connectedRun sessions ∧
      sessions[0]? = some session ∧ .success .httpConnect ∈ session.replies ∧
      Committed session ∧ session.connected = some "a:1" ∧ session.requested = some "a:1" ∧
      ∃ label ∈ connectedRun, label.names 0 = some "a:1" := by
  obtain ⟨sessions, hrun, htest⟩ : ∃ sessions, (machine {} ⟨[1]⟩).Reaches connectedRun sessions ∧
      (sessions[0]?.any fun (session : ProxySession) =>
        decide (.success .httpConnect ∈ session.replies ∧ session.connected = some "a:1")) =
          true :=
    Machine.exists_reaches_of_any (by decide)
  obtain ⟨session, hget, hboth⟩ := Option.any_eq_true _ _ |>.mp htest
  obtain ⟨hreply, hconnected⟩ := of_decide_eq_true hboth
  obtain ⟨hsuccess, htarget, hnamed⟩ :=
    replies_truthful {} ⟨[1]⟩ connectedRun sessions hrun 0 session hget
  have hrequested := htarget _ hconnected
  exact ⟨sessions, session, hrun, hget, hreply, hsuccess _ hreply, hconnected, hrequested,
    (hnamed _).mp hrequested⟩

/-- Over both protocols a success reply goes out where the listener makes no connection:
it turns the dialer away at its allowlist, or the target refuses. -/
theorem success_unconnected :
    (∃ sessions session, (machine { allowedPeers := [⟨[2]⟩] } ⟨[1]⟩).Reachable sessions ∧
      session ∈ sessions ∧ .success .socks5 ∈ session.replies ∧
      session.handler = some .rejected ∧ session.connected = none) ∧
    ∃ sessions session, (machine {} ⟨[1]⟩).Reachable sessions ∧ session ∈ sessions ∧
      .success .httpConnect ∈ session.replies ∧
      (∃ result, session.handler = some (.forwarding (.ended (.error result)))) ∧
      session.connected = none := by
  constructor
  · obtain ⟨sessions, hrun, htest⟩ :
        ∃ sessions, (machine { allowedPeers := [⟨[2]⟩] } ⟨[1]⟩).Reaches
            (socksRequest ++ [.listener 0 .accept, .listener 0 (.await .polled),
              .dialer 0 (.reply .proceed)]) sessions ∧
          (sessions.any fun session => decide (.success .socks5 ∈ session.replies ∧
            session.handler = some .rejected ∧ session.connected = none)) = true :=
      Machine.exists_reaches_of_any (by decide)
    obtain ⟨session, hmem, hall⟩ := List.any_eq_true.mp htest
    exact ⟨sessions, session, ⟨_, hrun⟩, hmem, of_decide_eq_true hall⟩
  · obtain ⟨sessions, hrun, htest⟩ :
        ∃ sessions, (machine {} ⟨[1]⟩).Reaches
            (connectRequest ++ listenerReads ++
              [.listener 0 (.await (.forward (.connected (.error (.transport "refused"))))),
                .dialer 0 (.reply .proceed)]) sessions ∧
          (sessions.any fun session => decide (.success .httpConnect ∈ session.replies ∧
            session.handler = some (.forwarding (.ended (.error
              (.wrap "cannot connect to target a:1" (.io (.transport "refused")))))) ∧
            session.connected = none)) = true :=
      Machine.exists_reaches_of_any (by decide)
    obtain ⟨session, hmem, hall⟩ := List.any_eq_true.mp htest
    obtain ⟨hreply, hhandler, hconnected⟩ := of_decide_eq_true hall
    exact ⟨sessions, session, ⟨_, hrun⟩, hmem, hreply, ⟨_, hhandler⟩, hconnected⟩

end Sape.Proxy
