/-
  Forward/Delivery.lean --- a forwarded connection is a connection to the target.

  Away from the application the tunnel stream has the request in front; what follows it is
  what the application sent.  `HeadAt` says what of the request is on the stream, by the
  await of the accepting task, and `FarAt` what the connecting side has made of it.

  WHAT IS PROVED.

      inv_step             every step keeps the invariant
      answered             and is no step of the connection, or one with the same observation
      bridge_refines       so whatever is seen of a forwarded connection in a run could be
                           seen of one that leads to the named target directly
-/
import Sape.Forward.Bridge
import Sape.Foundation.Refinement

set_option autoImplicit false

namespace Sape

open Sape.Foundation

namespace Bridge

/-! ## The invariant -/

/-- What of the request is in front of the stream. -/
def HeadAt (mode : BridgeMode) (splice : Splice UInt8) (head : Bytes) : InboundTask → Prop
  | .opening | .writing => head = [] ∧ splice = {}
  | .copying => writeTunnelRequest mode.request = .ok head
  | .ended => writeTunnelRequest mode.request = .ok head ∨ (splice = {} ∧
      (head = [] ∨ ∃ frame, writeTunnelRequest mode.request = .ok frame ∧ head <+: frame))

/-- Nothing was done about a target. -/
def Unconnected (splice : Splice UInt8) (target : Duplex UInt8) (reached : Option String) : Prop :=
  target = {} ∧ splice = {} ∧ reached = none

/-- The target that a task connects to, and that it has reached. -/
def Names (target : String) (reached : Option String) : ForwardTask → Prop
  | .connecting named => named = target ∧ reached = none
  | .copying named => named = target ∧ reached = some target
  | .ended _ => ∀ named, reached = some named → named = target

/-- What the connecting side has made of the stream. -/
def FarAt (mode : BridgeMode) (head : Bytes) (source : Conduit UInt8) (splice : Splice UInt8)
    (target : Duplex UInt8) (reached : Option String) : FarTask → Prop
  | .absent | .queued | .reading => source.taken = 0 ∧ Unconnected splice target reached
  | .dropped => Unconnected splice target reached
  | .exited => Unconnected splice target reached ∨ (writeTunnelRequest mode.request = .ok head ∧
      Spliced head source splice [] target.forth ∧
      ∀ named, reached = some named → named = mode.target)
  | .forwarding task => writeTunnelRequest mode.request = .ok head ∧
      Spliced head source splice [] target.forth ∧ Names mode.target reached task

/-- The invariant. -/
structure Inv (mode : BridgeMode) (bridge : Bridge) : Prop where
  forth : ∃ head, Spliced [] bridge.client.forth bridge.nearCopy.forth head bridge.stream.forth ∧
    HeadAt mode bridge.nearCopy.forth head bridge.origin ∧
    FarAt mode head bridge.stream.forth bridge.farCopy.forth bridge.target bridge.reached bridge.far
  absent : bridge.origin = .opening → bridge.far = .absent ∨ bridge.far = .exited
  backNear : Spliced [] bridge.stream.back bridge.nearCopy.back [] bridge.client.back
  backFar : Spliced [] bridge.target.back bridge.farCopy.back [] bridge.stream.back
  gone : bridge.origin = .ended →
    bridge.stream.forth.cut = true ∨ bridge.nearCopy.forth.done = true

theorem inv_start (mode : BridgeMode) : Inv mode {} where
  forth := ⟨[], .start List.nil_prefix rfl rfl rfl, ⟨rfl, rfl⟩, rfl, rfl, rfl, rfl⟩
  absent _ := .inl rfl
  backNear := .start List.nil_prefix rfl rfl rfl
  backFar := .start List.nil_prefix rfl rfl rfl
  gone h := by cases h

/-- Whatever a task has reached is the target. -/
theorem Names.reached {target : String} {reached : Option String} {task : ForwardTask}
    (h : Names target reached task) : ∀ named, reached = some named → named = target := by
  intro named hnamed
  cases task with
  | connecting other =>
      rw [h.2] at hnamed
      cases hnamed
  | copying other => exact Option.some.inj (hnamed.symm.trans h.2)
  | ended outcome => exact h named hnamed

/-- Where nothing was forwarded, nothing was done about a target. -/
theorem FarAt.cases {mode : BridgeMode} {head : Bytes} {source : Conduit UInt8}
    {splice : Splice UInt8} {target : Duplex UInt8} {reached : Option String} {far : FarTask}
    (h : FarAt mode head source splice target reached far) :
    Unconnected splice target reached ∨ (writeTunnelRequest mode.request = .ok head ∧
      Spliced head source splice [] target.forth ∧
      ∀ named, reached = some named → named = mode.target) := by
  cases far with
  | forwarding task => exact .inr ⟨h.1, h.2.1, h.2.2.reached⟩
  | dropped => exact .inl h
  | exited => exact h
  | _ => exact .inl h.2

/-- The connecting side stays where it is while the two conduits of its copy change as the
copy allows. -/
theorem FarAt.congr {mode : BridgeMode} {head : Bytes} {source source' : Conduit UInt8}
    {splice splice' : Splice UInt8} {target target' : Duplex UInt8} {reached : Option String}
    {far : FarTask} (h : FarAt mode head source splice target reached far)
    (htaken : source.taken = 0 → Unconnected splice target reached →
      source'.taken = 0)
    (hidle : Unconnected splice target reached → Unconnected splice' target' reached)
    (hspliced : Spliced head source splice [] target.forth →
      Spliced head source' splice' [] target'.forth) :
    FarAt mode head source' splice' target' reached far := by
  cases far with
  | forwarding task => exact ⟨h.1, hspliced h.2.1, h.2.2⟩
  | dropped => exact hidle h
  | exited =>
      rcases h with h | h
      · exact .inl (hidle h)
      · exact .inr ⟨h.1, hspliced h.2.1, h.2.2⟩
  | _ => exact ⟨htaken h.1 h.2, hidle h.2⟩

/-- The target has the beginning of what the application sent, and behind the end all of
it. -/
theorem Inv.carriesForth {mode : BridgeMode} {bridge : Bridge} (h : Inv mode bridge) :
    Carries bridge.client.forth bridge.stream.forth bridge.target.forth := by
  obtain ⟨head, hnear, -, hfar⟩ := h.forth
  rcases hfar.cases with ⟨htarget, -⟩ | ⟨-, hspliced, -⟩
  · rw [htarget]
    exact ⟨List.nil_prefix, fun hclosed => by cases hclosed⟩
  · exact hnear.behind hspliced

theorem Inv.carriesBack {mode : BridgeMode} {bridge : Bridge} (h : Inv mode bridge) :
    Carries bridge.target.back bridge.stream.back bridge.client.back :=
  h.backFar.behind h.backNear

/-- What was reached is the named target. -/
theorem Inv.reached {mode : BridgeMode} {bridge : Bridge} (h : Inv mode bridge)
    (target : String) (hreached : bridge.reached = some target) : target = mode.target := by
  obtain ⟨head, -, -, hfar⟩ := h.forth
  rcases hfar.cases with ⟨-, -, hnone⟩ | ⟨-, -, hnames⟩
  · rw [hnone] at hreached
    cases hreached
  · exact hnames target hreached

/-! ## The two ends -/

theorem client_step {mode : BridgeMode} {bridge : Bridge} {client : Duplex UInt8}
    {action : ConduitAct UInt8} (hinv : Inv mode bridge)
    (h : bridge.client.act .near action = some client) :
    Inv mode { bridge with client := client } ∧
      bridge.connection.act .near action = some { bridge with client := client }.connection := by
  obtain ⟨head, hnear, hhead, hfar⟩ := hinv.forth
  obtain ⟨hon, hstep, hback⟩ | ⟨hon, hstep, hforth⟩ := Duplex.act_cases h
  · refine ⟨⟨⟨head, hnear.written hon hstep, hhead, hfar⟩, hinv.absent, ?_, hinv.backFar,
      hinv.gone⟩, ?_⟩
    · rw [hback]
      exact hinv.backNear
    · simp only [Duplex.act, if_pos hon, connection, Conduit.through_write hon hstep,
        Option.map_some, hback]
  · refine ⟨⟨⟨head, ?_, hhead, hfar⟩, hinv.absent, hinv.backNear.readOff hon hstep,
      hinv.backFar, hinv.gone⟩, ?_⟩
    · rw [hforth]
      exact hnear
    · have hoff : ¬ Duplex.onForth .near action = true := by rw [hon]; exact Bool.false_ne_true
      simp only [Duplex.act, if_neg hoff, connection,
        Conduit.through_read hinv.carriesBack hon hstep, Option.map_some, hforth]

theorem target_step {mode : BridgeMode} {bridge : Bridge} {target : Duplex UInt8}
    {action : ConduitAct UInt8} (hinv : Inv mode bridge) (hreached : bridge.reached.isSome = true)
    (h : bridge.target.act .far action = some target) :
    Inv mode { bridge with target := target } ∧
      bridge.connection.act .far action = some { bridge with target := target }.connection := by
  obtain ⟨head, hnear, hhead, hfar⟩ := hinv.forth
  have hconnected : ∀ {P : Prop}, Unconnected bridge.farCopy.forth bridge.target bridge.reached →
      P := fun hidle => by
    rw [hidle.2.2] at hreached
    cases hreached
  obtain ⟨hon, hstep, hback⟩ | ⟨hon, hstep, hforth⟩ := Duplex.act_cases h
  · have hreads : action.writes = false := by simpa [Duplex.onForth] using hon
    refine ⟨⟨⟨head, hnear, hhead, ?_⟩, hinv.absent, hinv.backNear, ?_, hinv.gone⟩, ?_⟩
    · exact hfar.congr (fun htaken _ => htaken) hconnected fun hspliced =>
        hspliced.readOff hreads hstep
    · rw [hback]
      exact hinv.backFar
    · simp only [Duplex.act, if_pos hon, connection,
        Conduit.through_read hinv.carriesForth hreads hstep, Option.map_some, hback]
  · have hwrites : action.writes = true := by simpa [Duplex.onForth] using hon
    refine ⟨⟨⟨head, hnear, hhead, ?_⟩, hinv.absent, hinv.backNear,
      hinv.backFar.written hwrites hstep, hinv.gone⟩, ?_⟩
    · exact hfar.congr (fun htaken _ => htaken) hconnected fun hspliced => by
        rw [hforth]
        exact hspliced
    · have hoff : ¬ Duplex.onForth .far action = true := by rw [hon]; exact Bool.false_ne_true
      simp only [Duplex.act, if_neg hoff, connection, Conduit.through_write hwrites hstep,
        Option.map_some, hforth]

/-! ## The accepting side -/

theorem write_ne_nil {req : TunnelRequest} : writeTunnelRequest req ≠ .ok [] := by
  intro h
  obtain ⟨-, hframe⟩ := Frame.write_ok h
  have hlen := congrArg List.length hframe
  rw [List.length_append, length_toBeBytes, List.length_nil] at hlen
  omega

/-- In front of the request nothing is forwarded. -/
theorem FarAt.rehead {mode : BridgeMode} {head : Bytes} {source source' : Conduit UInt8}
    {splice : Splice UInt8} {target : Duplex UInt8} {reached : Option String} {far : FarTask}
    (h : FarAt mode [] source splice target reached far) (htaken : source'.taken = source.taken) :
    FarAt mode head source' splice target reached far := by
  cases far with
  | forwarding task => exact absurd h.1 write_ne_nil
  | dropped => exact h
  | exited => exact .inl (h.resolve_right fun hforwarded => write_ne_nil hforwarded.1)
  | _ => exact ⟨htaken.trans h.1, h.2⟩

/-- The connecting side can be left with a stream that was cut. -/
theorem FarAt.drop {mode : BridgeMode} {head : Bytes} {source : Conduit UInt8}
    {splice : Splice UInt8} {target : Duplex UInt8} {reached : Option String} {far : FarTask}
    (h : FarAt mode head source splice target reached far) :
    FarAt mode head source.drop splice target reached far :=
  h.congr (fun htaken _ => htaken) id Spliced.drop

/-- The task of the accepted connection returns, and drops what it holds. -/
theorem inv_dropNear {mode : BridgeMode} (bridge : Bridge) {head : Bytes}
    (hnear : Spliced [] bridge.client.forth bridge.nearCopy.forth head bridge.stream.forth)
    (hhead : HeadAt mode bridge.nearCopy.forth head .ended)
    (hfar : FarAt mode head bridge.stream.forth bridge.farCopy.forth bridge.target bridge.reached
      bridge.far)
    (hbackNear : Spliced [] bridge.stream.back bridge.nearCopy.back [] bridge.client.back)
    (hbackFar : Spliced [] bridge.target.back bridge.farCopy.back [] bridge.stream.back) :
    Inv mode { bridge with
      origin := .ended, client := bridge.client.drop, stream := bridge.stream.drop } where
  forth := ⟨head, hnear.drop.congr rfl rfl, hhead, hfar.drop⟩
  absent h := by cases h
  backNear := hbackNear.drop.congr rfl rfl
  backFar := hbackFar.congr rfl rfl
  gone _ := .inl rfl

/-- A cut on one of the three is a cut to those at the ends. -/
theorem connection_dropNear (bridge : Bridge) (origin : InboundTask) :
    { bridge with
      origin := origin, client := bridge.client.drop
      stream := bridge.stream.drop }.connection = bridge.connection.drop := by
  simp [connection, Duplex.drop, Conduit.through, Conduit.drop]

/-- A step that is none of the ends'. -/
def Silent (bridge next : Bridge) : Prop :=
  next.connection = bridge.connection ∨ next.connection = bridge.connection.drop

/-- Bytes are put on the stream. -/
def putForth (bridge : Bridge) (bytes : Bytes) : Bridge :=
  { bridge with stream := { bridge.stream with forth := bridge.stream.forth.put bytes } }

theorem withPipe_eq {conduit : Conduit UInt8} {pipe : Pipe} {bytes : Bytes}
    (htaken : pipe.taken = (pipeOf conduit).taken)
    (hsent : pipe.sent = (pipeOf conduit).sent ++ bytes) :
    withPipe conduit pipe = conduit.put bytes := by
  rw [withPipe, htaken, hsent]
  rfl

/-- The write of the request fails, behind a part of it. -/
theorem inv_part {mode : BridgeMode} {bridge : Bridge} {bytes : Bytes}
    (hinv : Inv mode bridge) (horigin : bridge.origin = .writing)
    (hpart : bytes = [] ∨ ∃ frame, writeTunnelRequest mode.request = .ok frame ∧ bytes <+: frame) :
    Inv mode { bridge.putForth bytes with
      origin := .ended
      client := (bridge.putForth bytes).client.drop
      stream := (bridge.putForth bytes).stream.drop } := by
  obtain ⟨head, hnear, hhead, hfar⟩ := hinv.forth
  rw [horigin] at hhead
  obtain ⟨rfl, hidle⟩ := hhead
  refine inv_dropNear (bridge.putForth bytes) ?_ (.inr ⟨hidle, hpart⟩) (hfar.rehead rfl)
    hinv.backNear hinv.backFar
  have hnear' : Spliced [] bridge.client.forth {} [] bridge.stream.forth := hidle ▸ hnear
  have hextended := hnear'.extend bytes
  exact hidle.symm ▸ hextended

theorem inv_requested {mode : BridgeMode} {bridge : Bridge} {frame : Bytes}
    (hinv : Inv mode bridge) (horigin : bridge.origin = .writing)
    (hframe : writeTunnelRequest mode.request = .ok frame) :
    Inv mode { bridge.putForth frame with origin := .copying } := by
  obtain ⟨head, hnear, hhead, hfar⟩ := hinv.forth
  rw [horigin] at hhead
  obtain ⟨rfl, hidle⟩ := hhead
  refine ⟨⟨frame, ?_, hframe, hfar.rehead rfl⟩, fun h => (by cases h), hinv.backNear,
    hinv.backFar, fun h => (by cases h)⟩
  have hnear' : Spliced [] bridge.client.forth {} [] bridge.stream.forth := hidle ▸ hnear
  have hextended := hnear'.extend frame
  exact hidle.symm ▸ hextended

/-- In front of its copy, the task of the accepted connection opens the stream and puts the
request on it, or a part of it before it fails. -/
theorem origin_step {mode : BridgeMode} {bridge next : Bridge} {outcome : Outcome}
    (hinv : Inv mode bridge) (h : bridge.originStep mode outcome = some next) :
    Inv mode next ∧ bridge.Silent next := by
  unfold originStep at h
  split at h
  · rename_i horigin
    obtain ⟨head, hnear, hhead, hfar⟩ := hinv.forth
    rw [horigin] at hhead
    split at h
    · split at h
      · rename_i hnone
        simp only [originTo, horigin, InboundTask.resume, Option.map_some, reduceCtorEq, if_false,
          Option.some.injEq] at h
        subst h
        rw [hnone] at hfar
        exact ⟨⟨⟨head, hnear, hhead, hfar⟩, fun hopening => (by cases hopening), hinv.backNear,
          hinv.backFar, fun hended => (by cases hended)⟩, .inl rfl⟩
      · cases h
    · simp only [originTo, horigin, InboundTask.resume, Option.map_some, if_true,
        Option.some.injEq] at h
      subst h
      exact ⟨inv_dropNear bridge hnear (.inr ⟨hhead.2, .inl hhead.1⟩) hfar hinv.backNear
        hinv.backFar, .inr (connection_dropNear ..)⟩
    · cases h
  · rename_i horigin
    split at h
    · cases h
    · rename_i done pipe hwrite
      obtain ⟨htaken, ⟨rfl, frame, hframe, hsent⟩ | ⟨⟨err, rfl⟩, hpart⟩⟩ :=
        writeStep_cases hwrite
      · rw [withPipe_eq htaken hsent] at h
        simp only [originTo, horigin, InboundTask.resume, Option.map_some, reduceCtorEq, if_false,
          Option.some.injEq] at h
        subst h
        exact ⟨inv_requested hinv horigin hframe, .inl rfl⟩
      · obtain ⟨bytes, hbytes, hpart⟩ : ∃ bytes,
            withPipe bridge.stream.forth pipe = bridge.stream.forth.put bytes ∧
            (bytes = [] ∨
              ∃ frame, writeTunnelRequest mode.request = .ok frame ∧ bytes <+: frame) := by
          rcases hpart with hsent | ⟨frame, cut, hframe, hsent⟩
          · exact ⟨[], withPipe_eq htaken (by rw [List.append_nil, hsent]), .inl rfl⟩
          · exact ⟨frame.take cut, withPipe_eq htaken hsent,
              .inr ⟨frame, hframe, List.take_prefix _ _⟩⟩
        rw [hbytes] at h
        simp only [originTo, horigin, InboundTask.resume, Option.map_some, if_true,
          Option.some.injEq] at h
        subst h
        exact ⟨inv_part hinv horigin hpart,
          .inr (connection_dropNear (bridge.putForth bytes) .ended)⟩
  · cases h

theorem nearCopy_step {mode : BridgeMode} {bridge next : Bridge} {way : Way} {move : SpliceMove}
    (hinv : Inv mode bridge) (h : bridge.nearCopyStep way move = some next) :
    Inv mode next ∧ bridge.Silent next := by
  unfold nearCopyStep at h
  split at h
  · rename_i horigin
    obtain ⟨head, hnear, hhead, hfar⟩ := hinv.forth
    rw [horigin] at hhead
    have hcopying : ∀ {P : Prop}, bridge.origin = .ended → P := fun hended => by
      rw [horigin] at hended
      cases hended
    cases way with
    | forth =>
        obtain ⟨⟨splice, source, sink⟩, hstep, rfl⟩ := Option.map_eq_some_iff.mp h
        refine ⟨⟨⟨head, hnear.move hstep, ?_, ?_⟩, hinv.absent, hinv.backNear, hinv.backFar,
          hcopying⟩,
          .inl ?_⟩
        · show HeadAt mode splice head bridge.origin
          rw [horigin]
          exact hhead
        · exact hfar.congr (fun htaken _ => (Splice.step_leaves hstep).taken.trans htaken) id
            fun hspliced => hnear.upstream hspliced hstep
        · rw [connection, connection, Conduit.through_front (Splice.step_leaves hstep)]
    | back =>
        obtain ⟨⟨splice, source, sink⟩, hstep, rfl⟩ := Option.map_eq_some_iff.mp h
        refine ⟨⟨⟨head, hnear, ?_, hfar⟩, hinv.absent, hinv.backNear.move hstep,
          hinv.backFar.downstream hstep, hcopying⟩, .inl ?_⟩
        · show HeadAt mode bridge.nearCopy.forth head bridge.origin
          rw [horigin]
          exact hhead
        · rw [connection, connection, Conduit.through_behind (Splice.step_leaves hstep)]
  · cases h

theorem nearReturn_step {mode : BridgeMode} {bridge next : Bridge} (hinv : Inv mode bridge)
    (h : bridge.nearDoneStep = some next ∨
      (bridge.origin = .copying ∧ bridge.originTo .copied = some next)) :
    Inv mode next ∧ bridge.Silent next := by
  obtain ⟨head, hnear, hhead, hfar⟩ := hinv.forth
  rcases h with h | ⟨horigin, h⟩
  · unfold nearDoneStep at h
    split at h
    · rename_i hdone
      cases horigin : bridge.origin with
      | copying =>
          rw [horigin] at h hhead
          obtain rfl := Option.some.inj h
          exact ⟨⟨⟨head, hnear, .inl hhead, hfar⟩, fun hopening => (by cases hopening),
            hinv.backNear, hinv.backFar, fun _ => .inr hdone.1⟩, .inl rfl⟩
      | _ =>
          rw [horigin] at h
          cases h
    · cases h
  · rw [horigin] at hhead
    simp only [originTo, horigin, InboundTask.resume, Option.map_some, if_true,
      Option.some.injEq] at h
    subst h
    exact ⟨inv_dropNear bridge hnear (.inl hhead) hfar hinv.backNear hinv.backFar,
      .inr (connection_dropNear ..)⟩

/-! ## The connecting side -/

/-- The stream is given up before anything was done about a target, or behind it. -/
theorem inv_dropStream {mode : BridgeMode} {bridge : Bridge} {head : Bytes} {far : FarTask}
    (hinv : Inv mode bridge)
    (hnear : Spliced [] bridge.client.forth bridge.nearCopy.forth head bridge.stream.forth)
    (hhead : HeadAt mode bridge.nearCopy.forth head bridge.origin)
    (hfar : FarAt mode head bridge.stream.forth bridge.farCopy.forth bridge.target bridge.reached
      far)
    (habsent : bridge.origin = .opening → far = .absent ∨ far = .exited) :
    Inv mode { bridge with far := far, stream := bridge.stream.drop } where
  forth := ⟨head, hnear.congr rfl rfl, hhead, hfar.drop⟩
  absent := habsent
  backNear := hinv.backNear.drop
  backFar := hinv.backFar.congr rfl rfl
  gone _ := .inl rfl

theorem connection_dropStream (bridge : Bridge) (far : FarTask) :
    { bridge with far := far, stream := bridge.stream.drop }.connection =
      bridge.connection.drop := by
  simp [connection, Duplex.drop, Conduit.through, Conduit.drop]

/-- A bridge whose stream has been opened. -/
theorem opened_of_far {mode : BridgeMode} {bridge : Bridge} (hinv : Inv mode bridge)
    (hfar : ¬ (bridge.far = .absent ∨ bridge.far = .exited)) (far : FarTask) :
    bridge.origin = .opening → far = .absent ∨ far = .exited :=
  fun horigin => absurd (hinv.absent horigin) hfar

theorem poll_step {mode : BridgeMode} {bridge : Bridge} (hinv : Inv mode bridge)
    (hqueued : bridge.far = .queued) :
    Inv mode (bridge.farTo mode.poll) ∧ bridge.Silent (bridge.farTo mode.poll) := by
  obtain ⟨head, hnear, hhead, hfar⟩ := hinv.forth
  rw [hqueued] at hfar
  have hopened := opened_of_far hinv (by simp [hqueued])
  unfold farTo
  rcases mode.poll_cases with hreading | hdropped
  · rw [hreading, if_neg (fun h => by cases h)]
    exact ⟨⟨⟨head, hnear, hhead, hfar⟩, hopened .reading, hinv.backNear, hinv.backFar,
      hinv.gone⟩, .inl rfl⟩
  · rw [hdropped, if_pos rfl]
    exact ⟨inv_dropStream hinv hnear hhead hfar.2 (hopened .dropped),
      .inr (connection_dropStream bridge .dropped)⟩

/-- What is on the stream is a part of the request's frame, or begins with it. -/
theorem HeadAt.comparable {mode : BridgeMode} {bridge : Bridge} {head frame : Bytes}
    (hhead : HeadAt mode bridge.nearCopy.forth head bridge.origin)
    (hnear : Spliced [] bridge.client.forth bridge.nearCopy.forth head bridge.stream.forth)
    (hframe : writeTunnelRequest mode.request = .ok frame) :
    (head = frame ∧ frame <+: bridge.stream.forth.sent) ∨
      (bridge.stream.forth.sent = head ∧ head <+: frame) := by
  have hidle : bridge.nearCopy.forth = {} → bridge.stream.forth.sent = head := by
    intro hidle
    rw [hidle] at hnear
    exact hnear.of_idle.2.2
  have hcopied : writeTunnelRequest mode.request = .ok head →
      head = frame ∧ frame <+: bridge.stream.forth.sent := by
    intro hwrite
    obtain rfl := Except.ok.inj (hwrite.symm.trans hframe)
    obtain ⟨moved, -, -, hwritten⟩ := hnear.copied
    have hlen := hnear.amount
    refine ⟨rfl, List.prefix_of_prefix_length_le (hwritten ▸ List.prefix_append head moved)
      (List.prefix_append _ _) (by omega)⟩
  cases horigin : bridge.origin with
  | copying =>
      rw [horigin] at hhead
      exact .inl (hcopied hhead)
  | ended =>
      rw [horigin] at hhead
      rcases hhead with hwrite | ⟨hsplice, rfl | ⟨frame', hframe', hpart⟩⟩
      · exact .inl (hcopied hwrite)
      · exact .inr ⟨hidle hsplice, List.nil_prefix⟩
      · obtain rfl := Except.ok.inj (hframe'.symm.trans hframe)
        exact .inr ⟨hidle hsplice, hpart⟩
  | _ =>
      rw [horigin] at hhead
      exact .inr ⟨hidle hhead.2, hhead.1 ▸ List.nil_prefix⟩

/-- A request that is read off the stream is the one of its mode, and leaves what was
copied behind it. -/
theorem request_of_read {mode : BridgeMode} {bridge : Bridge} {head rest : Bytes}
    {req : TunnelRequest} (hhead : HeadAt mode bridge.nearCopy.forth head bridge.origin)
    (hnear : Spliced [] bridge.client.forth bridge.nearCopy.forth head bridge.stream.forth)
    (hread : readTunnelRequest bridge.stream.forth.sent = (.ok req, rest)) :
    req = mode.request ∧ writeTunnelRequest mode.request = .ok head ∧
      bridge.stream.forth.sent = head ++ rest := by
  have hnil : bridge.stream.forth.sent ≠ [] := by
    intro hnil
    rw [hnil] at hread
    cases hread
  obtain ⟨frame, hframe⟩ : ∃ frame, writeTunnelRequest mode.request = .ok frame := by
    cases hwrite : writeTunnelRequest mode.request with
    | ok frame => exact ⟨frame, rfl⟩
    | error err =>
        -- nothing is written in front of a request that cannot be
        have hidle : bridge.nearCopy.forth = {} → head = [] → False := by
          rintro hidle rfl
          rw [hidle] at hnear
          exact hnil hnear.of_idle.2.2
        cases horigin : bridge.origin with
        | copying =>
            rw [horigin, HeadAt, hwrite] at hhead
            cases hhead
        | ended =>
            rw [horigin, HeadAt, hwrite] at hhead
            rcases hhead with h | ⟨hsplice, hempty | ⟨frame, h, -⟩⟩
            · cases h
            · exact (hidle hsplice hempty).elim
            · cases h
        | _ =>
            rw [horigin] at hhead
            exact (hidle hhead.2 hhead.1).elim
  have hfits : TunnelRequest.postcard.Fits mode.request := by
    refine TunnelRequest.postcard_fits (Nat.lt_trans (Frame.write_ok hframe).1 ?_)
    decide
  rcases hhead.comparable hnear hframe with ⟨rfl, hfront⟩ | ⟨hsent, hpart⟩
  · obtain ⟨hreq, hsplit⟩ := Frame.read_comparable hfits hframe (.inr hfront) hread
    exact ⟨hreq, hframe, hsplit⟩
  · obtain ⟨hreq, hsplit⟩ := Frame.read_comparable hfits hframe (.inl (hsent ▸ hpart)) hread
    obtain rfl : head = frame := hpart.eq_of_length_le (by
      rw [← hsent, hsplit, List.length_append]
      exact Nat.le_add_right _ _)
    exact ⟨hreq, hframe, hsplit⟩

/-- The request is read: from here on the target is the one that it names. -/
theorem read_step {mode : BridgeMode} {bridge next : Bridge} {outcome : Outcome}
    (hinv : Inv mode bridge) (h : bridge.readStep mode outcome = some next) :
    Inv mode next ∧ bridge.Silent next := by
  unfold readStep at h
  split at h
  · rename_i hreading
    obtain ⟨head, hnear, hhead, hfar⟩ := hinv.forth
    rw [hreading] at hfar
    obtain ⟨htaken, hidle⟩ := hfar
    have hopened := opened_of_far hinv (by simp [hreading])
    split at h
    · cases h
    · rename_i result pipe hread
      obtain rfl := Option.some.inj h
      have hsent := readStep_sent hread
      have hnear' : Spliced [] bridge.client.forth bridge.nearCopy.forth head
          (withPipe bridge.stream.forth pipe) := hnear.congr hsent rfl
      cases result with
      | error err =>
          rw [dispatch_error, farTo, if_pos rfl]
          exact ⟨⟨⟨head, hnear'.congr rfl rfl, hhead, hidle⟩, hopened .dropped,
            hinv.backNear.drop, hinv.backFar.congr rfl rfl, fun _ => .inl rfl⟩,
            .inr (connection_dropStream { bridge with stream := _ } .dropped)⟩
      | ok req =>
          obtain ⟨rest, hrest, hpipe⟩ := readStep_ok hread
          have hunread : (pipeOf bridge.stream.forth).unread = bridge.stream.forth.sent := by
            rw [Pipe.unread, pipeOf, htaken, List.drop_zero]
          rw [hunread] at hrest
          obtain ⟨rfl, hframe, hsplit⟩ := request_of_read hhead hnear hrest
          rw [dispatch_request, farTo, if_neg (fun h => by cases h)]
          obtain ⟨htarget, hsplice, hreached⟩ := hidle
          refine ⟨⟨⟨head, hnear', hhead, hframe, ?_, rfl, hreached⟩, hopened _, hinv.backNear,
            hinv.backFar, hinv.gone⟩, .inl rfl⟩
          · show Spliced head (withPipe bridge.stream.forth pipe) bridge.farCopy.forth []
              bridge.target.forth
            rw [hsplice, htarget]
            refine .start ?_ ?_ rfl rfl
            · rw [withPipe, hsent]
              exact hsplit ▸ List.prefix_append head rest
            · rw [withPipe, hpipe]
              show bridge.stream.forth.sent.length - rest.length = head.length
              rw [hsplit, List.length_append, Nat.add_sub_cancel]
  · cases h

theorem connect_step {mode : BridgeMode} {bridge next : Bridge} {result : Except IoError Unit}
    (hinv : Inv mode bridge) (h : bridge.connectStep result = some next) :
    Inv mode next ∧ bridge.Silent next := by
  unfold connectStep at h
  split at h
  · rename_i task hforwarding
    obtain ⟨head, hnear, hhead, hfar⟩ := hinv.forth
    rw [hforwarding] at hfar
    obtain ⟨hframe, hspliced, hnames⟩ := hfar
    have hopened := opened_of_far hinv (by simp [hforwarding])
    cases task with
    | connecting named =>
        obtain ⟨rfl, hreached⟩ := hnames
        cases result with
        | ok done =>
            obtain ⟨-, hnext⟩ := Option.ite_none_right_eq_some.mp h
            obtain rfl := Option.some.inj hnext
            exact ⟨⟨⟨head, hnear, hhead, hframe, hspliced, rfl, rfl⟩, hopened _, hinv.backNear,
              hinv.backFar, hinv.gone⟩, .inl rfl⟩
        | error err =>
            obtain rfl := Option.some.inj h
            have hnone : Names mode.target bridge.reached
                (.ended (.error (.wrap s!"cannot connect to target {mode.target}" (.io err)))) := by
              intro named hnamed
              rw [hreached] at hnamed
              cases hnamed
            exact ⟨inv_dropStream hinv hnear hhead ⟨hframe, hspliced, hnone⟩ (hopened _),
              .inr (connection_dropStream bridge _)⟩
    | copying named => cases result <;> cases h
    | ended outcome => cases h
  · cases h

theorem farCopy_step {mode : BridgeMode} {bridge next : Bridge} {way : Way} {move : SpliceMove}
    (hinv : Inv mode bridge) (h : bridge.farCopyStep way move = some next) :
    Inv mode next ∧ bridge.Silent next := by
  unfold farCopyStep at h
  split at h
  · rename_i named hforwarding
    obtain ⟨head, hnear, hhead, hfar⟩ := hinv.forth
    rw [hforwarding] at hfar
    obtain ⟨hframe, hspliced, hnames⟩ := hfar
    cases way with
    | forth =>
        obtain ⟨⟨splice, source, sink⟩, hstep, rfl⟩ := Option.map_eq_some_iff.mp h
        refine ⟨⟨⟨head, hnear.downstream hstep, hhead, ?_⟩, hinv.absent, hinv.backNear,
          hinv.backFar, ?_⟩, .inl ?_⟩
        · show FarAt mode head source splice { bridge.target with forth := sink } bridge.reached
            bridge.far
          rw [hforwarding]
          exact ⟨hframe, hspliced.move hstep, hnames⟩
        · exact fun hended => (hinv.gone hended).imp_left (Splice.step_leaves hstep).cut.trans
        · rw [connection, connection, Conduit.through_behind (Splice.step_leaves hstep)]
    | back =>
        obtain ⟨⟨splice, source, sink⟩, hstep, rfl⟩ := Option.map_eq_some_iff.mp h
        refine ⟨⟨⟨head, hnear, hhead, ?_⟩, hinv.absent, hinv.backFar.upstream hinv.backNear hstep,
          hinv.backFar.move hstep, hinv.gone⟩, .inl ?_⟩
        · show FarAt mode head bridge.stream.forth bridge.farCopy.forth
            { bridge.target with back := source } bridge.reached bridge.far
          rw [hforwarding]
          exact ⟨hframe, hspliced, hnames⟩
        · rw [connection, connection, Conduit.through_front (Splice.step_leaves hstep)]
  · cases h

theorem farReturn_step {mode : BridgeMode} {bridge next : Bridge} {result : Except IoError Unit}
    (hinv : Inv mode bridge) (h : bridge.farReturnStep result = some next) :
    Inv mode next ∧ bridge.Silent next := by
  unfold farReturnStep at h
  split at h
  · rename_i task hforwarding
    obtain ⟨head, hnear, hhead, hfar⟩ := hinv.forth
    rw [hforwarding] at hfar
    obtain ⟨hframe, hspliced, hnames⟩ := hfar
    have hopened := opened_of_far hinv (by simp [hforwarding])
    cases task with
    | connecting named => cases h
    | copying named =>
        have hreached : ∀ other, bridge.reached = some other → other = mode.target :=
          fun other hother => Option.some.inj (hother.symm.trans hnames.2)
        cases result with
        | ok done =>
            obtain rfl := Option.some.inj h
            exact ⟨⟨⟨head, hnear, hhead, hframe, hspliced, hreached⟩, hopened _,
              hinv.backNear, hinv.backFar, hinv.gone⟩, .inl rfl⟩
        | error err =>
            obtain rfl := Option.some.inj h
            refine ⟨⟨⟨head, hnear.congr rfl rfl, hhead, hframe, hspliced.drop.congr rfl rfl,
              hreached⟩, hopened _, hinv.backNear.drop, hinv.backFar.drop.congr rfl rfl,
              fun _ => .inl rfl⟩, .inr ?_⟩
            simp [connection, Duplex.drop, Conduit.through, Conduit.drop]
    | ended outcome => cases h
  · cases h

/-! ## Processes that exit -/

/-- Wherever the task of the accepted connection is, what it has put on the stream is a part
of the request, or begins with it. -/
theorem HeadAt.ended {mode : BridgeMode} {splice : Splice UInt8} {head : Bytes}
    {origin : InboundTask} (h : HeadAt mode splice head origin) :
    HeadAt mode splice head .ended := by
  cases origin with
  | copying => exact .inl h
  | ended => exact h
  | _ => exact .inr ⟨h.2, .inl h.1⟩

theorem nearExit_step {mode : BridgeMode} {bridge : Bridge} (hinv : Inv mode bridge) :
    Inv mode { bridge with
      origin := .ended, client := bridge.client.drop, stream := bridge.stream.drop } := by
  obtain ⟨head, hnear, hhead, hfar⟩ := hinv.forth
  exact inv_dropNear bridge hnear hhead.ended hfar hinv.backNear hinv.backFar

theorem farExit_step {mode : BridgeMode} {bridge : Bridge} (hinv : Inv mode bridge) :
    Inv mode bridge.farExitStep ∧ bridge.Silent bridge.farExitStep := by
  obtain ⟨head, hnear, hhead, hfar⟩ := hinv.forth
  unfold farExitStep
  split
  · exact ⟨inv_dropStream hinv hnear hhead hfar.cases fun _ => .inr rfl,
      .inr (connection_dropStream bridge .exited)⟩
  · rename_i hreached
    rcases hfar.cases with ⟨-, -, hnone⟩ | ⟨hframe, hspliced, hnames⟩
    · rw [hnone] at hreached
      cases hreached
    · refine ⟨⟨⟨head, hnear.congr rfl rfl, hhead, .inr ⟨hframe, hspliced.drop.congr rfl rfl,
        hnames⟩⟩, fun _ => .inr rfl, hinv.backNear.drop, hinv.backFar.drop.congr rfl rfl,
        fun _ => .inl rfl⟩, .inr ?_⟩
      simp [connection, Duplex.drop, Conduit.through, Conduit.drop]

/-! ## Whole runs -/

/-- Every step keeps the invariant, and is one that the connection between the two ends
answers. -/
theorem answered {mode : BridgeMode} {bridge next : Bridge} {label : BridgeLabel}
    (hinv : Inv mode bridge) (h : bridge.step mode label = some next) :
    Inv mode next ∧ ((label.seen = none ∧ bridge.Silent next) ∨
      ∃ side action, label.seen = some (side, action) ∧
        bridge.connection.act side action = some next.connection) := by
  have hsilent : ∀ {P : Prop}, label.seen = none → Inv mode next ∧ bridge.Silent next →
      Inv mode next ∧ ((label.seen = none ∧ bridge.Silent next) ∨ P) :=
    fun hseen hnext => ⟨hnext.1, .inl ⟨hseen, hnext.2⟩⟩
  cases label with
  | client action =>
      obtain ⟨client, hact, rfl⟩ := Option.map_eq_some_iff.mp h
      obtain ⟨hnext, hanswer⟩ := client_step hinv hact
      exact ⟨hnext, .inr ⟨.near, action, rfl, hanswer⟩⟩
  | target action =>
      simp only [step] at h
      split at h
      · rename_i hreached
        obtain ⟨target, hact, rfl⟩ := Option.map_eq_some_iff.mp h
        obtain ⟨hnext, hanswer⟩ := target_step hinv hreached hact
        exact ⟨hnext, .inr ⟨.far, action, rfl, hanswer⟩⟩
      · cases h
  | origin outcome => exact hsilent rfl (origin_step hinv h)
  | nearCopy way move => exact hsilent rfl (nearCopy_step hinv h)
  | nearDone => exact hsilent rfl (nearReturn_step hinv (.inl h))
  | nearFail =>
      simp only [step] at h
      split at h
      · rename_i horigin
        exact hsilent rfl (nearReturn_step hinv (.inr ⟨horigin, h⟩))
      · cases h
  | poll =>
      simp only [step] at h
      split at h
      · rename_i hqueued
        obtain rfl := Option.some.inj h
        exact hsilent rfl (poll_step hinv hqueued)
      · cases h
  | read outcome => exact hsilent rfl (read_step hinv h)
  | connect result => exact hsilent rfl (connect_step hinv h)
  | farCopy way move => exact hsilent rfl (farCopy_step hinv h)
  | farDone =>
      simp only [step] at h
      split at h
      · exact hsilent rfl (farReturn_step hinv h)
      · cases h
  | farFail err => exact hsilent rfl (farReturn_step hinv h)
  | nearExit =>
      obtain rfl := Option.some.inj h
      exact hsilent rfl ⟨nearExit_step hinv, .inr (connection_dropNear bridge .ended)⟩
  | farExit =>
      obtain rfl := Option.some.inj h
      exact hsilent rfl (farExit_step hinv)

theorem inv_of_reaches {mode : BridgeMode} {labels : List BridgeLabel} {bridge : Bridge}
    (hrun : (machine mode).Reaches labels bridge) : Inv mode bridge :=
  Machine.invariant (Inv mode) (inv_start mode) (fun hinv h => (answered hinv h).1) hrun

/-- Whatever the application and the target do and see in a run of the tunnel, they could
do and see over one connection between them, which may be dropped. -/
theorem bridge_refines (mode : BridgeMode) (labels : List BridgeLabel) {bridge : Bridge}
    (hrun : (machine mode).Reaches labels bridge) :
    ∃ outer, (Duplex.machine UInt8).Reaches outer bridge.connection ∧
      outer.filterMap DuplexLabel.seen = labels.filterMap BridgeLabel.seen := by
  obtain ⟨outer, duplex, houter, hseen, rfl, -⟩ : ∃ outer duplex,
      (Duplex.machine UInt8).exec {} outer = some duplex ∧
        outer.filterMap DuplexLabel.seen = labels.filterMap BridgeLabel.seen ∧
        duplex = bridge.connection ∧ Inv mode bridge := Machine.answers
    BridgeLabel.seen DuplexLabel.seen
    (fun bridge duplex => duplex = bridge.connection ∧ Inv mode bridge)
    (by
      rintro bridge _ label next ⟨rfl, hinv⟩ hstep
      obtain ⟨hnext, ⟨hseen, hsame | hdrop⟩ | ⟨side, action, hseen, hact⟩⟩ := answered hinv hstep
      · exact ⟨[], _, rfl, by rw [hseen]; rfl, hsame.symm, hnext⟩
      · exact ⟨[.drop], _, rfl, by rw [hseen]; rfl, hdrop.symm, hnext⟩
      · exact ⟨[.act side action], _, Machine.exec_cons_of_step hact [], by rw [hseen]; rfl, rfl,
          hnext⟩)
    labels ⟨rfl, inv_start mode⟩ hrun
  exact ⟨outer, houter, hseen⟩

/-- A byte that goes through a tunnel whose accepting side exits behind it. -/
theorem bridge_refines_byte :
    ∃ bridge outer, (Duplex.machine UInt8).Reaches outer (Bridge.connection bridge) ∧
      outer.filterMap DuplexLabel.seen = [(.near, .send [7]), (.far, .receive [7])] := by
  obtain ⟨bridge, hrun⟩ : ∃ bridge, (machine (.reverseForward default [] 1 false "h:1")).Reaches
      [.client (.send [7]), .origin .proceed, .origin .proceed, .poll, .read .proceed,
        .connect (.ok ()), .nearCopy .forth (.read 1), .nearCopy .forth (.write 1), .nearExit,
        .farCopy .forth (.read 1), .farCopy .forth (.write 1), .target (.receive [7])] bridge :=
    Option.isSome_iff_exists.mp (by decide +kernel)
  obtain ⟨outer, houter, hseen⟩ := bridge_refines _ _ hrun
  exact ⟨bridge, outer, houter, hseen⟩

end Bridge

end Sape
