/-
  Forward/Transparency.lean --- what a direct connection could do, a forwarded one can do.

  `Forward/Delivery.lean` says that the tunnel adds nothing to what a connection to the
  target shows.  This is the other half: it takes nothing away.  A side that has not
  failed can always go on to the next await, up to its copy, and a copy can always get rid
  of what is in it; both are silent.  So in any state where nothing was dropped the two
  ends can do whatever they could over one connection between them.

  WHAT IS PROVED.

      intact_step              while nothing was dropped, nobody has given up
      establishes              such a state can be led to one where both sides copy
      Live.settle              and there to one where nothing is left in between
      bridge_transparent       so every run of the connection goes on as a run of the tunnel
      bridge_reached_iff       a target is reached at all exactly if the allowlist admits the
                               dialer, the requests fit, and it names a host and a port
-/
import Sape.Forward.Delivery
import Sape.Forward.Limits

set_option autoImplicit false

namespace Sape

open Sape.Foundation

/-! ## Requests that fit -/

namespace BridgeMode

/-- How many bytes a target may have.  With `-R` the request to bind the port is the longest
that names it. -/
def Fits : BridgeMode → Prop
  | .localForward _ _ target => (Postcard.utf8Bytes target).length ≤ 65532
  | .reverseForward _ _ bindPort _ target =>
      (Postcard.u16.encode bindPort).length + (Postcard.utf8Bytes target).length ≤ 65531

instance : DecidablePred Fits
  | .localForward _ _ _ => inferInstanceAs (Decidable (_ ≤ _))
  | .reverseForward _ _ _ _ _ => inferInstanceAs (Decidable (_ ≤ _))

/-- What it takes for a connection to get to its target: an allowlist that admits the dialer,
requests that fit, and a target that names a host and a port. -/
structure Viable (mode : BridgeMode) : Prop where
  admitted : mode.Admitted
  fits : mode.Fits
  named : (hostPort mode.target).isSome = true

/-- A target that fits leaves the request of a connection within the bound of its reader. -/
theorem Fits.request_le {mode : BridgeMode} (h : mode.Fits) :
    (TunnelRequest.postcard.encode mode.request).length ≤ TunnelRequest.frame.max := by
  cases mode with
  | localForward dialer allowedPeers target => exact (localForward_le_iff target).mpr h
  | reverseForward dialer allowedPeers bindPort gatewayPorts target =>
      have hzero : (Postcard.u16.encode 0).length = 1 := by decide
      have hport := length_u16_encode bindPort
      have hbound : (Postcard.u16.encode bindPort).length +
          (Postcard.utf8Bytes target).length ≤ 65531 := h
      refine (reverseForward_le_iff 0 target false).mpr ?_
      omega

/-- A port that is there was asked for with a request that fits. -/
theorem fits_of_bound {mode : BridgeMode} (hbound : mode.Bound)
    (hle : (TunnelRequest.postcard.encode mode.request).length ≤ TunnelRequest.frame.max) :
    mode.Fits := by
  cases mode with
  | localForward dialer allowedPeers target => exact (localForward_le_iff target).mp hle
  | reverseForward dialer allowedPeers bindPort gatewayPorts target =>
      obtain ⟨-, frame, -, hbinding⟩ := hbound
      refine (reverseForward_le_iff bindPort target gatewayPorts).mp ?_
      cases hread : readTunnelRequest frame with
      | mk result rest =>
          rw [hread] at hbinding
          cases result with
          | error err => cases hbinding
          | ok req =>
              cases req with
              | reverseForward bindPort' target' gatewayPorts' =>
                  cases hbinding
                  exact (Frame.read_ok hread).2.1
              | netcat => cases hbinding
              | localForward target' => cases hbinding

theorem Viable.bound {mode : BridgeMode} (h : mode.Viable) : mode.Bound := by
  cases mode with
  | localForward dialer allowedPeers target => trivial
  | reverseForward dialer allowedPeers bindPort gatewayPorts target =>
      have hle := (reverseForward_le_iff bindPort target gatewayPorts).mpr h.fits
      obtain ⟨frame, hwrite, -, hback⟩ := TunnelRequest.frame.exists_frame
        (TunnelRequest.postcard_fits (Nat.lt_of_le_of_lt hle (by decide))) hle (by decide)
      have hread : readTunnelRequest frame =
          (.ok (.reverseForward bindPort target gatewayPorts), []) :=
        (congrArg readTunnelRequest (List.append_nil frame).symm).trans (hback [])
      refine ⟨?_, frame, hwrite, by rw [hread]; rfl⟩
      rcases StreamTask.afterPoll_cases allowedPeers dialer with ⟨-, hpoll⟩ | ⟨hnot, -⟩
      · exact congrArg some hpoll
      · exact absurd h.admitted hnot

/-- A request within the bound is written, and read back. -/
theorem Fits.exists_frame {mode : BridgeMode} (h : mode.Fits) :
    ∃ frame, writeTunnelRequest mode.request = .ok frame ∧
      ∀ following, readTunnelRequest (frame ++ following) = (.ok mode.request, following) := by
  have hmax := h.request_le
  have hfits : TunnelRequest.postcard.Fits mode.request :=
    TunnelRequest.postcard_fits (Nat.lt_of_le_of_lt hmax (by decide))
  obtain ⟨frame, hwrite, -, hback⟩ := TunnelRequest.frame.exists_frame hfits hmax (by decide)
  exact ⟨frame, hwrite, hback⟩

end BridgeMode

namespace Bridge

/-! ## While nothing was dropped -/

/-- The two ends have not lost each other. -/
abbrev Uncut (bridge : Bridge) : Prop := bridge.connection.Uncut

theorem Uncut.clientForth {bridge : Bridge} (h : bridge.Uncut) :
    bridge.client.forth.cut = false :=
  (Bool.or_eq_false_iff.mp (Bool.or_eq_false_iff.mp h.forth).1).1

theorem Uncut.streamForth {bridge : Bridge} (h : bridge.Uncut) :
    bridge.stream.forth.cut = false :=
  (Bool.or_eq_false_iff.mp (Bool.or_eq_false_iff.mp h.forth).1).2

theorem Uncut.targetBack {bridge : Bridge} (h : bridge.Uncut) :
    bridge.target.back.cut = false :=
  (Bool.or_eq_false_iff.mp (Bool.or_eq_false_iff.mp h.back).1).1

theorem Uncut.streamBack {bridge : Bridge} (h : bridge.Uncut) :
    bridge.stream.back.cut = false :=
  (Bool.or_eq_false_iff.mp (Bool.or_eq_false_iff.mp h.back).1).2

/-- A bridge that looks the same to its ends is not cut either. -/
theorem Uncut.congr {bridge next : Bridge} (h : bridge.Uncut)
    (hconn : next.connection = bridge.connection) : next.Uncut :=
  ⟨hconn ▸ h.forth, hconn ▸ h.back⟩

/-- Whoever gives up drops the stream. -/
theorem not_uncut_of_stream {bridge : Bridge} (h : bridge.stream.forth.cut = true) :
    ¬ bridge.Uncut := fun huncut => by
  rw [huncut.streamForth] at h
  cases h

/-- In front of a step that drops nothing, nothing was dropped, and a step of neither end
leaves them what they see. -/
theorem uncut_of_step {mode : BridgeMode} {bridge next : Bridge} {label : BridgeLabel}
    (hinv : Inv mode bridge) (h : bridge.step mode label = some next) (huncut : next.Uncut) :
    bridge.Uncut ∧ (label.seen = none → next.connection = bridge.connection) := by
  obtain ⟨-, ⟨-, hsame | hdrop⟩ | ⟨side, action, hseen, hact⟩⟩ := answered hinv h
  · exact ⟨huncut.congr hsame.symm, fun _ => hsame⟩
  · have hcut := huncut.forth
    rw [hdrop] at hcut
    cases hcut
  · obtain ⟨hforth, hback⟩ := Duplex.act_cut hact
    refine ⟨⟨hforth ▸ huncut.forth, hback ▸ huncut.back⟩, fun hnone => ?_⟩
    rw [hseen] at hnone
    cases hnone

/-- Nobody has given up: a side that has returned has passed both ends on. -/
structure Intact (mode : BridgeMode) (bridge : Bridge) : Prop where
  inv : Inv mode bridge
  opened : bridge.origin ≠ .opening → bridge.far ≠ .absent
  near : bridge.origin = .ended →
    bridge.nearCopy.forth.done = true ∧ bridge.nearCopy.back.done = true
  kept : bridge.far ≠ .dropped ∧ bridge.far ≠ .exited
  far : ∀ outcome, bridge.far = .forwarding (.ended outcome) →
    bridge.farCopy.forth.done = true ∧ bridge.farCopy.back.done = true ∧
      bridge.reached = some mode.target

theorem intact_start (mode : BridgeMode) : Intact mode {} where
  inv := inv_start mode
  opened h := absurd rfl h
  near h := by cases h
  kept := ⟨fun h => (by cases h), fun h => (by cases h)⟩
  far outcome h := by cases h

/-- A task that has given up has dropped what it holds. -/
theorem originTo_uncut {bridge next : Bridge} {event : InboundEvent}
    (h : bridge.originTo event = some next) (huncut : next.Uncut) :
    ∃ task, bridge.origin.resume event = some task ∧ task ≠ .ended ∧
      next = { bridge with origin := task } := by
  obtain ⟨task, hresume, rfl⟩ := Option.map_eq_some_iff.mp h
  by_cases hended : task = .ended
  · rw [if_pos hended] at huncut
    exact absurd huncut (not_uncut_of_stream rfl)
  · exact ⟨task, hresume, hended, if_neg hended⟩

/-- In front of its copy, the task of the accepted connection gives up or goes on. -/
theorem origin_intact {mode : BridgeMode} {bridge next : Bridge} {outcome : Outcome}
    (hintact : Intact mode bridge) (h : bridge.originStep mode outcome = some next)
    (huncut : next.Uncut) : Intact mode next := by
  have hinv := (origin_step hintact.inv h).1
  unfold originStep at h
  split at h
  · rename_i horigin
    split at h
    · split at h
      · obtain ⟨task, -, hended, rfl⟩ := originTo_uncut h huncut
        exact ⟨hinv, fun _ hfar => (by cases hfar), fun horigin => absurd horigin hended,
          by simp, fun _ hfar => (by cases hfar)⟩
      · cases h
    · obtain ⟨task, hresume, hended, rfl⟩ := originTo_uncut h huncut
      rw [horigin] at hresume
      obtain rfl := Option.some.inj hresume
      exact absurd rfl hended
    · cases h
  · rename_i horigin
    have hopened : bridge.far ≠ .absent := hintact.opened fun h => by
      rw [horigin] at h
      cases h
    split at h
    · cases h
    · obtain ⟨task, -, hended, rfl⟩ := originTo_uncut h huncut
      exact ⟨hinv, fun _ => hopened, fun horigin => absurd horigin hended, hintact.kept,
        hintact.far⟩
  · cases h

/-- The connecting side gives up or goes on. -/
theorem farTo_uncut {bridge : Bridge} {far : FarTask} (huncut : (bridge.farTo far).Uncut) :
    far ≠ .dropped ∧ bridge.farTo far = { bridge with far := far } := by
  unfold farTo at huncut ⊢
  by_cases hdropped : far = .dropped
  · rw [if_pos hdropped] at huncut
    exact absurd huncut (not_uncut_of_stream rfl)
  · exact ⟨hdropped, if_neg hdropped⟩

theorem intact_step {mode : BridgeMode} {bridge next : Bridge} {label : BridgeLabel}
    (hintact : Intact mode bridge) (h : bridge.step mode label = some next)
    (huncut : next.Uncut) : Intact mode next := by
  have hinv := (answered hintact.inv h).1
  cases label with
  | client action =>
      obtain ⟨client, -, rfl⟩ := Option.map_eq_some_iff.mp h
      exact ⟨hinv, hintact.opened, hintact.near, hintact.kept, hintact.far⟩
  | target action =>
      simp only [step] at h
      split at h
      · obtain ⟨target, -, rfl⟩ := Option.map_eq_some_iff.mp h
        exact ⟨hinv, hintact.opened, hintact.near, hintact.kept, hintact.far⟩
      · cases h
  | origin outcome => exact origin_intact hintact h huncut
  | nearCopy way move =>
      simp only [step, nearCopyStep] at h
      split at h
      · rename_i horigin
        have hnear : ∀ {P : Prop}, bridge.origin = .ended → P := fun hended => by
          rw [horigin] at hended
          cases hended
        cases way with
        | forth =>
            obtain ⟨_, _, rfl⟩ := Option.map_eq_some_iff.mp h
            exact ⟨hinv, hintact.opened, hnear, hintact.kept, hintact.far⟩
        | back =>
            obtain ⟨_, _, rfl⟩ := Option.map_eq_some_iff.mp h
            exact ⟨hinv, hintact.opened, hnear, hintact.kept, hintact.far⟩
      · cases h
  | nearDone =>
      simp only [step, nearDoneStep] at h
      split at h
      · rename_i hdone
        obtain ⟨task, hresume, rfl⟩ := Option.map_eq_some_iff.mp h
        have hopened : bridge.origin ≠ .opening := by
          intro horigin
          rw [horigin] at hresume
          cases hresume
        exact ⟨hinv, fun _ => hintact.opened hopened, fun _ => hdone, hintact.kept, hintact.far⟩
      · cases h
  | nearFail =>
      simp only [step] at h
      split at h
      · rename_i horigin
        obtain ⟨task, hresume, hended, rfl⟩ := originTo_uncut h huncut
        rw [horigin] at hresume
        obtain rfl := Option.some.inj hresume
        exact absurd rfl hended
      · cases h
  | poll =>
      simp only [step] at h
      split at h
      · obtain rfl := Option.some.inj h
        obtain ⟨hkept, hnext⟩ := farTo_uncut huncut
        rw [hnext] at hinv ⊢
        rcases mode.poll_cases with hpoll | hpoll
        · rw [hpoll] at hinv ⊢
          exact ⟨hinv, fun _ hfar => (by cases hfar), hintact.near, by simp,
            fun _ hfar => (by cases hfar)⟩
        · exact absurd hpoll hkept
      · cases h
  | read outcome =>
      simp only [step, readStep] at h
      split at h
      · split at h
        · cases h
        · rename_i result pipe _
          obtain rfl := Option.some.inj h
          obtain ⟨hkept, hnext⟩ := farTo_uncut huncut
          rw [hnext] at hinv ⊢
          rcases dispatch_cases mode result with hdispatch | ⟨target, hdispatch⟩
          · exact absurd hdispatch hkept
          · rw [hdispatch] at hinv ⊢
            exact ⟨hinv, fun _ hfar => (by cases hfar), hintact.near, by simp,
              fun _ hfar => (by cases hfar)⟩
      · cases h
  | connect result =>
      simp only [step, connectStep] at h
      split at h
      · split at h
        · obtain ⟨-, hnext⟩ := Option.ite_none_right_eq_some.mp h
          obtain rfl := Option.some.inj hnext
          exact ⟨hinv, fun _ hfar => (by cases hfar), hintact.near, by simp,
            fun _ hfar => (by cases hfar)⟩
        · obtain rfl := Option.some.inj h
          exact absurd huncut (not_uncut_of_stream rfl)
        · cases h
      · cases h
  | farCopy way move =>
      simp only [step, farCopyStep] at h
      split at h
      · rename_i named hforwarding
        have hfar : ∀ {P : Prop} outcome, bridge.far = .forwarding (.ended outcome) → P :=
          fun outcome hended => by
            rw [hforwarding] at hended
            cases hended
        cases way with
        | forth =>
            obtain ⟨_, _, rfl⟩ := Option.map_eq_some_iff.mp h
            exact ⟨hinv, hintact.opened, hintact.near, hintact.kept, hfar⟩
        | back =>
            obtain ⟨_, _, rfl⟩ := Option.map_eq_some_iff.mp h
            exact ⟨hinv, hintact.opened, hintact.near, hintact.kept, hfar⟩
      · cases h
  | farDone =>
      simp only [step] at h
      split at h
      · rename_i hdone
        simp only [farReturnStep] at h
        split at h
        · rename_i task hforwarding
          obtain ⟨next, hresume, rfl⟩ := Option.map_eq_some_iff.mp h
          have hreached : bridge.reached = some mode.target := by
            obtain ⟨head, -, -, hfar⟩ := hintact.inv.forth
            rw [hforwarding] at hfar
            cases task with
            | copying named => exact hfar.2.2.2
            | connecting named => cases hresume
            | ended outcome => cases hresume
          exact ⟨hinv, fun _ hfar => (by cases hfar), hintact.near, by simp,
            fun _ _ => ⟨hdone.1, hdone.2, hreached⟩⟩
        · cases h
      · cases h
  | farFail err =>
      simp only [step, farReturnStep] at h
      split at h
      · obtain ⟨next, -, rfl⟩ := Option.map_eq_some_iff.mp h
        exact absurd huncut (not_uncut_of_stream rfl)
      · cases h
  | nearExit =>
      obtain rfl := Option.some.inj h
      exact absurd huncut (not_uncut_of_stream rfl)
  | farExit =>
      obtain rfl := Option.some.inj h
      refine absurd huncut (not_uncut_of_stream ?_)
      unfold farExitStep
      split <;> rfl

theorem intact_of_exec {mode : BridgeMode} {labels : List BridgeLabel} {bridge final : Bridge}
    (hinv : Inv mode bridge) (hintact : bridge.Uncut → Intact mode bridge)
    (hrun : (machine mode).exec bridge labels = some final) (huncut : final.Uncut) :
    Intact mode final :=
  (Machine.exec_invariant (fun bridge => Inv mode bridge ∧ (bridge.Uncut → Intact mode bridge))
    (fun hbridge hstep => ⟨(answered hbridge.1 hstep).1, fun huncut =>
      intact_step (hbridge.2 (uncut_of_step hbridge.1 hstep huncut).1) hstep huncut⟩)
    labels hrun ⟨hinv, hintact⟩).2 huncut

/-! ## On to the copies -/

/-- Both sides have got as far as their copies, and nobody has lost the other. -/
structure Live (mode : BridgeMode) (bridge : Bridge) : Prop where
  intact : Intact mode bridge
  uncut : bridge.Uncut
  near : bridge.origin = .copying ∨ bridge.origin = .ended
  far : (∃ named, bridge.far = .forwarding (.copying named)) ∨
    ∃ outcome, bridge.far = .forwarding (.ended outcome)

/-- The target has been reached. -/
theorem Live.reached {mode : BridgeMode} {bridge : Bridge} (hlive : Live mode bridge) :
    bridge.reached = some mode.target := by
  obtain ⟨head, -, -, hfar⟩ := hlive.intact.inv.forth
  rcases hlive.far with ⟨named, htask⟩ | ⟨outcome, htask⟩
  · rw [htask] at hfar
    exact hfar.2.2.2
  · exact (hlive.intact.far outcome htask).2.2

theorem quietly_of_step {mode : BridgeMode} {bridge next : Bridge} {label : BridgeLabel}
    (h : bridge.step mode label = some next) (hseen : label.seen = none) :
    (machine mode).Quietly BridgeLabel.seen bridge next := .of_step h hseen

/-- Without anything to be seen, they can get there. -/
def Establishes (mode : BridgeMode) (bridge : Bridge) : Prop :=
  ∃ next, (machine mode).Quietly BridgeLabel.seen bridge next ∧
    next.connection = bridge.connection ∧ Live mode next

theorem establishes_of_step {mode : BridgeMode} {bridge next : Bridge} {label : BridgeLabel}
    (hintact : Intact mode bridge) (huncut : bridge.Uncut)
    (h : bridge.step mode label = some next) (hseen : label.seen = none)
    (hconn : next.connection = bridge.connection)
    (hnext : Intact mode next → next.Uncut → Establishes mode next) : Establishes mode bridge := by
  have huncut' := huncut.congr hconn
  obtain ⟨final, hquiet, hsame, hlive⟩ := hnext (intact_step hintact h huncut') huncut'
  exact ⟨final, .trans (quietly_of_step h hseen) hquiet, hsame.trans hconn, hlive⟩

/-- The target accepts the connection. -/
theorem establishes_connecting {mode : BridgeMode} {bridge : Bridge} {named : String}
    (hviable : mode.Viable) (hintact : Intact mode bridge) (huncut : bridge.Uncut)
    (hnear : bridge.origin = .copying ∨ bridge.origin = .ended)
    (hfar : bridge.far = .forwarding (.connecting named)) : Establishes mode bridge := by
  obtain rfl : named = mode.target := by
    obtain ⟨head, -, -, hforwarding⟩ := hintact.inv.forth
    rw [hfar] at hforwarding
    exact hforwarding.2.2.1
  have hstep : bridge.step mode (.connect (.ok ())) = some { bridge with
      far := .forwarding (.copying mode.target)
      reached := some mode.target } := by
    simp only [step, connectStep, hfar]
    exact if_pos hviable.named
  exact establishes_of_step hintact huncut hstep rfl rfl fun hintact' huncut' =>
    ⟨_, .refl _, rfl, hintact', huncut', hnear, .inl ⟨mode.target, rfl⟩⟩

/-- The request is read. -/
theorem establishes_reading {mode : BridgeMode} {bridge : Bridge} (hviable : mode.Viable)
    (hintact : Intact mode bridge) (huncut : bridge.Uncut)
    (hnear : bridge.origin = .copying ∨ bridge.origin = .ended)
    (hfar : bridge.far = .reading) : Establishes mode bridge := by
  obtain ⟨frame, hframe, hback⟩ := hviable.fits.exists_frame
  obtain ⟨head, hspliced, hhead, hreading⟩ := hintact.inv.forth
  rw [hfar] at hreading
  have hwrite : writeTunnelRequest mode.request = .ok head := by
    rcases hnear with horigin | horigin
    · rw [horigin] at hhead
      exact hhead
    · have hdone := (hintact.near horigin).1
      rw [horigin] at hhead
      rcases hhead with hwrite | ⟨hidle, -⟩
      · exact hwrite
      · rw [hidle] at hdone
        cases hdone
  obtain rfl := Except.ok.inj (hframe.symm.trans hwrite)
  obtain ⟨rest, hrest⟩ : frame <+: bridge.stream.forth.sent := by
    rcases hhead.comparable hspliced hframe with ⟨-, hfront⟩ | ⟨hsent, -⟩
    · exact hfront
    · exact hsent ▸ List.prefix_rfl
  have hread : readTunnelRequest bridge.stream.forth.sent = (.ok mode.request, rest) := by
    rw [← hrest]
    exact hback rest
  have htaken : (pipeOf bridge.stream.forth).taken = 0 := hreading.1
  obtain ⟨pipe, hpipe⟩ := Pipe.readFrame_of_ok htaken hread
  have hstep : bridge.step mode (.read .proceed) =
      some { bridge with
        stream := { bridge.stream with forth := withPipe bridge.stream.forth pipe }
        far := .forwarding (.start mode.target) } := by
    simp only [step, readStep, hfar, if_true, Sape.readStep, hpipe, dispatch_request, farTo,
      reduceCtorEq, if_false]
  exact establishes_of_step hintact huncut hstep rfl rfl fun hintact' huncut' =>
    establishes_connecting hviable hintact' huncut' hnear rfl

/-- The stream leaves the accept queue. -/
theorem poll_enabled {mode : BridgeMode} {bridge : Bridge} (hadmitted : mode.Admitted)
    (hfar : bridge.far = .queued) :
    bridge.step mode .poll = some { bridge with far := .reading } := by
  simp only [step, hfar, if_true, BridgeMode.poll_of_admitted hadmitted, farTo]
  rfl

/-- The task of the accepted connection copies, or has returned. -/
theorem establishes_written {mode : BridgeMode} {bridge : Bridge} (hviable : mode.Viable)
    (hturn : mode.InTurn bridge.far) (hintact : Intact mode bridge) (huncut : bridge.Uncut)
    (hnear : bridge.origin = .copying ∨ bridge.origin = .ended) : Establishes mode bridge := by
  cases hfar : bridge.far with
  | absent =>
      refine absurd hfar (hintact.opened fun horigin => ?_)
      rw [horigin] at hnear
      rcases hnear with h | h <;> cases h
  | queued =>
      cases hlooped : mode.looped with
      | true => exact absurd hfar (hturn hlooped).2
      | false =>
          -- a listener has a task for the stream
          exact establishes_of_step hintact huncut (poll_enabled hviable.admitted hfar) rfl rfl
            fun hintact' huncut' => establishes_reading hviable hintact' huncut' hnear rfl
  | reading => exact establishes_reading hviable hintact huncut hnear hfar
  | forwarding task =>
      cases task with
      | connecting named => exact establishes_connecting hviable hintact huncut hnear hfar
      | copying named =>
          exact ⟨bridge, .refl _, rfl, hintact, huncut, hnear, .inl ⟨named, hfar⟩⟩
      | ended outcome =>
          exact ⟨bridge, .refl _, rfl, hintact, huncut, hnear, .inr ⟨outcome, hfar⟩⟩
  | dropped => exact absurd hfar hintact.kept.1
  | exited => exact absurd hfar hintact.kept.2

/-- The request is written. -/
theorem write_enabled {mode : BridgeMode} {bridge : Bridge} {frame : Bytes}
    (horigin : bridge.origin = .writing) (hframe : writeTunnelRequest mode.request = .ok frame) :
    bridge.step mode (.origin .proceed) = some { bridge with
      stream := { bridge.stream with
        forth := withPipe bridge.stream.forth ((pipeOf bridge.stream.forth).put frame) }
      origin := .copying } := by
  simp only [step, originStep, horigin, writeStep, hframe, originTo, InboundTask.resume,
    Option.map_some, reduceCtorEq, if_false]

theorem establishes_writing {mode : BridgeMode} {bridge : Bridge} (hviable : mode.Viable)
    (hturn : mode.InTurn bridge.far) (hintact : Intact mode bridge) (huncut : bridge.Uncut)
    (horigin : bridge.origin = .writing) : Establishes mode bridge := by
  obtain ⟨frame, hframe, -⟩ := hviable.fits.exists_frame
  exact establishes_of_step hintact huncut (write_enabled horigin hframe) rfl rfl
    fun hintact' huncut' => establishes_written hviable hturn hintact' huncut' (.inl rfl)

/-- The stream is opened. -/
theorem open_enabled (mode : BridgeMode) {bridge : Bridge} (horigin : bridge.origin = .opening)
    (habsent : bridge.far = .absent) :
    bridge.step mode (.origin .proceed) =
      some { bridge with far := .queued, origin := .writing } := by
  simp only [step, originStep, horigin, habsent, if_true, originTo, InboundTask.resume,
    Option.map_some, reduceCtorEq, if_false]

/-- As long as nothing was dropped, both sides can get to their copies. -/
theorem establishes {mode : BridgeMode} {bridge : Bridge} (hviable : mode.Viable)
    (hturn : mode.InTurn bridge.far) (hintact : Intact mode bridge) (huncut : bridge.Uncut) :
    Establishes mode bridge := by
  cases horigin : bridge.origin with
  | opening =>
      have habsent := (hintact.inv.absent horigin).resolve_right hintact.kept.2
      have hqueued : mode.InTurn .queued := fun hlooped => absurd habsent (hturn hlooped).1
      exact establishes_of_step hintact huncut (open_enabled mode horigin habsent) rfl rfl
        fun hintact' huncut' => establishes_writing hviable hqueued hintact' huncut' rfl
  | writing => exact establishes_writing hviable hturn hintact huncut horigin
  | copying => exact establishes_written hviable hturn hintact huncut (.inl horigin)
  | ended => exact establishes_written hviable hturn hintact huncut (.inr horigin)

/-! ## Nothing left in between -/

/-- What one end has sent or closed, the other end has in front of it. -/
structure Settled (bridge : Bridge) : Prop where
  forth : bridge.target.forth.sent = bridge.client.forth.sent
  forthEnd : bridge.client.forth.closed = true → bridge.target.forth.closed = true
  back : bridge.client.back.sent = bridge.target.back.sent
  backEnd : bridge.target.back.closed = true → bridge.client.back.closed = true

/-- The bridge behind moves of one direction of a copy. -/
def nearForth (bridge : Bridge) (splice : Splice UInt8) (source sink : Conduit UInt8) : Bridge :=
  { bridge with
    nearCopy := { bridge.nearCopy with forth := splice }
    client := { bridge.client with forth := source }
    stream := { bridge.stream with forth := sink } }

def nearBack (bridge : Bridge) (splice : Splice UInt8) (source sink : Conduit UInt8) : Bridge :=
  { bridge with
    nearCopy := { bridge.nearCopy with back := splice }
    stream := { bridge.stream with back := source }
    client := { bridge.client with back := sink } }

def farForth (bridge : Bridge) (splice : Splice UInt8) (source sink : Conduit UInt8) : Bridge :=
  { bridge with
    farCopy := { bridge.farCopy with forth := splice }
    stream := { bridge.stream with forth := source }
    target := { bridge.target with forth := sink } }

def farBack (bridge : Bridge) (splice : Splice UInt8) (source sink : Conduit UInt8) : Bridge :=
  { bridge with
    farCopy := { bridge.farCopy with back := splice }
    target := { bridge.target with back := source }
    stream := { bridge.stream with back := sink } }

/-- Both sides stay at their copies in a silent run that leaves their tasks as they are. -/
theorem Live.of_quietly {mode : BridgeMode} {bridge next : Bridge} (hlive : Live mode bridge)
    (hquiet : (machine mode).Quietly BridgeLabel.seen bridge next)
    (hconn : next.connection = bridge.connection) (horigin : next.origin = bridge.origin)
    (hfar : next.far = bridge.far) : Live mode next := by
  obtain ⟨labels, hrun, -⟩ := hquiet
  have huncut := hlive.uncut.congr hconn
  exact ⟨intact_of_exec hlive.intact.inv (fun _ => hlive.intact) hrun huncut, huncut,
    horigin ▸ hlive.near, hfar ▸ hlive.far⟩

/-- One direction of a copy can get rid of what is in it, and pass the end on; neither end
sees that. -/
def SettlesBy (mode : BridgeMode) (bridge : Bridge)
    (put : Splice UInt8 → Conduit UInt8 → Conduit UInt8 → Bridge) : Prop :=
  ∃ splice source sink,
    (machine mode).Quietly BridgeLabel.seen bridge (put splice source sink) ∧
    (put splice source sink).connection = bridge.connection ∧
    Live mode (put splice source sink) ∧
    splice.buf = [] ∧ source.unread = [] ∧ (source.closed = true → splice.done = true)

/-- Each of the four can: one that has not passed the end on is still there. -/
theorem Live.settles_nearForth {mode : BridgeMode} {bridge : Bridge} (hlive : Live mode bridge) :
    SettlesBy mode bridge bridge.nearForth := by
  obtain ⟨head, hnear, -, -⟩ := hlive.intact.inv.forth
  have hcopying : bridge.nearCopy.forth.done = false → bridge.origin = .copying := fun hopen =>
    hlive.near.resolve_right fun hended => by
      rw [(hlive.intact.near hended).1] at hopen
      cases hopen
  obtain ⟨splice, source, sink, hquiet, hleaves, hsettled⟩ := hnear.settle (machine mode)
    BridgeLabel.seen bridge.nearForth (.nearCopy .forth) (fun _ => rfl)
    (fun hopen _ _ _ _ _ _ _ hmove => by
      simp only [machine, step, nearCopyStep, nearForth, hcopying hopen, if_true, hmove,
        Option.map_some]) hlive.uncut.clientForth
  have hconn : (bridge.nearForth splice source sink).connection = bridge.connection := by
    simp only [connection, nearForth, Conduit.through_front hleaves]
  exact ⟨splice, source, sink, hquiet, hconn, hlive.of_quietly hquiet hconn rfl rfl, hsettled⟩

theorem Live.settles_nearBack {mode : BridgeMode} {bridge : Bridge} (hlive : Live mode bridge) :
    SettlesBy mode bridge bridge.nearBack := by
  have hcopying : bridge.nearCopy.back.done = false → bridge.origin = .copying := fun hopen =>
    hlive.near.resolve_right fun hended => by
      rw [(hlive.intact.near hended).2] at hopen
      cases hopen
  obtain ⟨splice, source, sink, hquiet, hleaves, hsettled⟩ := hlive.intact.inv.backNear.settle
    (machine mode) BridgeLabel.seen bridge.nearBack (.nearCopy .back) (fun _ => rfl)
    (fun hopen _ _ _ _ _ _ _ hmove => by
      simp only [machine, step, nearCopyStep, nearBack, hcopying hopen, if_true, hmove,
        Option.map_some]) hlive.uncut.streamBack
  have hconn : (bridge.nearBack splice source sink).connection = bridge.connection := by
    simp only [connection, nearBack, Conduit.through_behind hleaves]
  exact ⟨splice, source, sink, hquiet, hconn, hlive.of_quietly hquiet hconn rfl rfl, hsettled⟩

theorem Live.settles_farForth {mode : BridgeMode} {bridge : Bridge} (hlive : Live mode bridge) :
    SettlesBy mode bridge bridge.farForth := by
  obtain ⟨head, -, -, hforwarding⟩ := hlive.intact.inv.forth
  obtain ⟨task, htask⟩ : ∃ task, bridge.far = .forwarding task := by
    rcases hlive.far with ⟨named, hfar⟩ | ⟨outcome, hfar⟩
    · exact ⟨_, hfar⟩
    · exact ⟨_, hfar⟩
  rw [htask] at hforwarding
  have hcopying : bridge.farCopy.forth.done = false →
      ∃ named, bridge.far = .forwarding (.copying named) := fun hopen =>
    hlive.far.resolve_right fun ⟨outcome, hended⟩ => by
      rw [(hlive.intact.far outcome hended).1] at hopen
      cases hopen
  obtain ⟨splice, source, sink, hquiet, hleaves, hsettled⟩ := hforwarding.2.1.settle (machine mode)
    BridgeLabel.seen bridge.farForth (.farCopy .forth) (fun _ => rfl)
    (fun hopen _ _ _ _ _ _ _ hmove => by
      obtain ⟨named, hfar⟩ := hcopying hopen
      simp only [machine, step, farCopyStep, farForth, hfar, hmove, Option.map_some])
    hlive.uncut.streamForth
  have hconn : (bridge.farForth splice source sink).connection = bridge.connection := by
    simp only [connection, farForth, Conduit.through_behind hleaves]
  exact ⟨splice, source, sink, hquiet, hconn, hlive.of_quietly hquiet hconn rfl rfl, hsettled⟩

theorem Live.settles_farBack {mode : BridgeMode} {bridge : Bridge} (hlive : Live mode bridge) :
    SettlesBy mode bridge bridge.farBack := by
  have hcopying : bridge.farCopy.back.done = false →
      ∃ named, bridge.far = .forwarding (.copying named) := fun hopen =>
    hlive.far.resolve_right fun ⟨outcome, hended⟩ => by
      rw [(hlive.intact.far outcome hended).2.1] at hopen
      cases hopen
  obtain ⟨splice, source, sink, hquiet, hleaves, hsettled⟩ := hlive.intact.inv.backFar.settle
    (machine mode) BridgeLabel.seen bridge.farBack (.farCopy .back) (fun _ => rfl)
    (fun hopen _ _ _ _ _ _ _ hmove => by
      obtain ⟨named, hfar⟩ := hcopying hopen
      simp only [machine, step, farCopyStep, farBack, hfar, hmove, Option.map_some])
    hlive.uncut.targetBack
  have hconn : (bridge.farBack splice source sink).connection = bridge.connection := by
    simp only [connection, farBack, Conduit.through_front hleaves]
  exact ⟨splice, source, sink, hquiet, hconn, hlive.of_quietly hquiet hconn rfl rfl, hsettled⟩

/-- The connecting side is forwarding, behind the request. -/
theorem Live.spliced {mode : BridgeMode} {bridge : Bridge} (hlive : Live mode bridge) :
    ∃ head, Spliced [] bridge.client.forth bridge.nearCopy.forth head bridge.stream.forth ∧
      Spliced head bridge.stream.forth bridge.farCopy.forth [] bridge.target.forth := by
  obtain ⟨head, hnear, -, hfar⟩ := hlive.intact.inv.forth
  rcases hlive.far with ⟨named, htask⟩ | ⟨outcome, htask⟩
  · rw [htask] at hfar
    exact ⟨head, hnear, hfar.2.1⟩
  · rw [htask] at hfar
    exact ⟨head, hnear, hfar.2.1⟩

/-- What one end has sent gets to the other. -/
theorem Live.settle {mode : BridgeMode} {bridge : Bridge} (hlive : Live mode bridge) :
    ∃ next, (machine mode).Quietly BridgeLabel.seen bridge next ∧
      next.connection = bridge.connection ∧ Live mode next ∧ Settled next := by
  obtain ⟨near, client, stream, hquiet₁, hconn₁, hlive₁, hbuf₁, hunread₁, hend₁⟩ :=
    hlive.settles_nearForth
  obtain ⟨far, stream', target, hquiet₂, hconn₂, hlive₂, hbuf₂, hunread₂, hend₂⟩ :=
    hlive₁.settles_farForth
  obtain ⟨far', target', streamMid, hquiet₃, hconn₃, hlive₃, hbuf₃, hunread₃, hend₃⟩ :=
    hlive₂.settles_farBack
  obtain ⟨near', streamOut, client', hquiet₄, hconn₄, hlive₄, hbuf₄, hunread₄, hend₄⟩ :=
    hlive₃.settles_nearBack
  obtain ⟨head, hnear, hfar⟩ := hlive₄.spliced
  have hinv := hlive₄.intact.inv
  refine ⟨_, ((hquiet₁.trans hquiet₂).trans hquiet₃).trans hquiet₄,
    hconn₄.trans (hconn₃.trans (hconn₂.trans hconn₁)), hlive₄, ?_, fun hclosed => ?_, ?_,
    fun hclosed => ?_⟩
  · exact hnear.all_through hfar hbuf₁ hunread₁ hbuf₂ hunread₂
  · exact hfar.closed.mpr (hend₂ (hnear.closed.mpr (hend₁ hclosed)))
  · exact hinv.backFar.all_through hinv.backNear hbuf₃ hunread₃ hbuf₄ hunread₄
  · exact hinv.backNear.closed.mpr (hend₄ (hinv.backFar.closed.mpr (hend₃ hclosed)))

/-! ## The ends go on -/

/-- The label of an act of one of the ends. -/
def labelOf : Side → ConduitAct UInt8 → BridgeLabel
  | .near, action => .client action
  | .far, action => .target action

/-- Where nothing is left in between, an act on the connection can be done by its end. -/
theorem Live.act {mode : BridgeMode} {bridge : Bridge} (hlive : Live mode bridge)
    (hsettled : Settled bridge) {side : Side} {action : ConduitAct UInt8} {duplex : Duplex UInt8}
    (hact : bridge.connection.act side action = some duplex) :
    ∃ next, bridge.step mode (labelOf side action) = some next := by
  have hreached : bridge.reached.isSome = true := by
    rw [hlive.reached]
    rfl
  obtain ⟨hon, hstep, -⟩ | ⟨hon, hstep, -⟩ := Duplex.act_cases hact
  · have hend := Conduit.act_of_through hsettled.forth hsettled.forthEnd hlive.uncut.forth hstep
    cases side with
    | near =>
        have hwrites : action.writes = true := hon
        rw [if_pos hwrites] at hend
        obtain ⟨forth, hforth⟩ := hend
        refine ⟨{ bridge with client := { bridge.client with forth := forth } }, ?_⟩
        simp only [labelOf, step, Duplex.act, if_pos hon, hforth, Option.map_some]
    | far =>
        have hreads : ¬ action.writes = true := by simpa [Duplex.onForth] using hon
        rw [if_neg hreads] at hend
        obtain ⟨forth, hforth⟩ := hend
        refine ⟨{ bridge with target := { bridge.target with forth := forth } }, ?_⟩
        simp only [labelOf, step, if_pos hreached, Duplex.act, if_pos hon, hforth,
          Option.map_some]
  · have hoff : ¬ Duplex.onForth side action = true := by rw [hon]; exact Bool.false_ne_true
    have hend := Conduit.act_of_through hsettled.back hsettled.backEnd hlive.uncut.back hstep
    cases side with
    | near =>
        have hreads : ¬ action.writes = true := hoff
        rw [if_neg hreads] at hend
        obtain ⟨back, hback⟩ := hend
        refine ⟨{ bridge with client := { bridge.client with back := back } }, ?_⟩
        simp only [labelOf, step, Duplex.act, if_neg hoff, hback, Option.map_some]
    | far =>
        have hwrites : action.writes = true := by simpa [Duplex.onForth] using hon
        rw [if_pos hwrites] at hend
        obtain ⟨back, hback⟩ := hend
        refine ⟨{ bridge with target := { bridge.target with back := back } }, ?_⟩
        simp only [labelOf, step, if_pos hreached, Duplex.act, if_neg hoff, hback,
          Option.map_some]

/-- An act of one of the ends leaves the two sides at their copies. -/
theorem Live.of_act {mode : BridgeMode} {bridge next : Bridge} (hlive : Live mode bridge)
    {side : Side} {action : ConduitAct UInt8} {duplex : Duplex UInt8}
    (hact : bridge.connection.act side action = some duplex)
    (hstep : bridge.step mode (labelOf side action) = some next) :
    next.connection = duplex ∧ Live mode next := by
  have hseen : (labelOf side action).seen = some (side, action) := by cases side <;> rfl
  have hsame : next.origin = bridge.origin ∧ next.far = bridge.far := by
    cases side with
    | near =>
        obtain ⟨client, -, rfl⟩ := Option.map_eq_some_iff.mp hstep
        exact ⟨rfl, rfl⟩
    | far =>
        simp only [labelOf, step] at hstep
        split at hstep
        · obtain ⟨target, -, rfl⟩ := Option.map_eq_some_iff.mp hstep
          exact ⟨rfl, rfl⟩
        · cases hstep
  obtain ⟨-, ⟨hnone, -⟩ | ⟨side', action', hsome, hact'⟩⟩ := answered hlive.intact.inv hstep
  · rw [hseen] at hnone
    cases hnone
  · rw [hseen] at hsome
    cases hsome
    obtain rfl := Option.some.inj (hact'.symm.trans hact)
    obtain ⟨hforth, hback⟩ := Duplex.act_cut hact'
    have huncut : next.Uncut := ⟨hforth.trans hlive.uncut.forth, hback.trans hlive.uncut.back⟩
    exact ⟨rfl, intact_step hlive.intact hstep huncut, huncut, hsame.1 ▸ hlive.near,
      hsame.2 ▸ hlive.far⟩

/-- A state where nobody has given up can go on like the connection between the two ends. -/
theorem Intact.transparent {mode : BridgeMode} {bridge : Bridge} (hintact : Intact mode bridge)
    (hviable : mode.Viable) (hturn : mode.InTurn bridge.far) (huncut : bridge.Uncut)
    (outer : List (Side × ConduitAct UInt8)) {duplex : Duplex UInt8}
    (houter : (Duplex.reliable UInt8).exec bridge.connection outer = some duplex) :
    ∃ further next, (machine mode).exec bridge further = some next ∧
      further.filterMap BridgeLabel.seen = outer ∧ next.connection = duplex := by
  obtain ⟨mid, ⟨first, hfirst, hsilent⟩, hconn, hlive⟩ :=
    establishes hviable hturn hintact huncut
  rw [← hconn] at houter
  obtain ⟨further, next, hfurther, hseen, hnext, -⟩ := Machine.answers some BridgeLabel.seen
    (fun duplex bridge => bridge.connection = duplex ∧ Live mode bridge)
    (by
      rintro _ bridge ⟨side, action⟩ duplex ⟨rfl, hlive⟩ hact
      obtain ⟨mid, ⟨quiet, hquiet, hsilent⟩, hconn, hlive', hsettled⟩ := hlive.settle
      rw [← hconn] at hact
      obtain ⟨next, hstep⟩ := hlive'.act hsettled hact
      obtain ⟨hnext, hlive''⟩ := hlive'.of_act hact hstep
      refine ⟨quiet ++ [labelOf side action], next, ?_, ?_, hnext, hlive''⟩
      · exact (Machine.exec_append _ _).mpr ⟨mid, hquiet, Machine.exec_cons_of_step hstep []⟩
      · rw [List.filterMap_append, hsilent, List.nil_append]
        cases side <;> rfl) outer ⟨rfl, hlive⟩ houter
  refine ⟨first ++ further, next, (Machine.exec_append _ _).mpr ⟨mid, hfirst, hfurther⟩, ?_, hnext⟩
  rw [List.filterMap_append, hsilent, hseen, List.nil_append, List.filterMap_some]

/-- Wherever a run of the tunnel has got to without anything being dropped, whatever the
application and the target could go on to do and see over one connection between them, they
can do and see over the tunnel; with `-R`, once the dialer's loop has come to its stream. -/
theorem bridge_transparent (mode : BridgeMode) (hviable : mode.Viable)
    (labels : List BridgeLabel) {bridge : Bridge} (hrun : (machine mode).Reaches labels bridge)
    (hturn : mode.InTurn bridge.far) (huncut : bridge.Uncut)
    (outer : List (Side × ConduitAct UInt8)) {duplex : Duplex UInt8}
    (houter : (Duplex.reliable UInt8).exec bridge.connection outer = some duplex) :
    ∃ further next, (machine mode).exec bridge further = some next ∧
      further.filterMap BridgeLabel.seen = outer ∧ next.connection = duplex :=
  (intact_of_exec (inv_start mode) (fun _ => intact_start mode) hrun huncut).transparent hviable
    hturn huncut outer houter

/-- What the target reads of two bytes sent in front of the end, with `-L` from the start and
with `-R` from where the loop has come to the stream. -/
theorem bridge_transparent_two :
    (∃ further next, (machine (.localForward default [] "h:1")).exec {} further = some next ∧
      further.filterMap BridgeLabel.seen =
        [(.near, .send [7, 8]), (.near, .close), (.far, .receive [7, 8]), (.far, .finish)] ∧
      next.connection.forth.finished = true) ∧
    ∃ bridge, (machine (.reverseForward default [] 80 false "h:1")).Reaches
        [.origin .proceed, .poll] bridge ∧
      ∃ further next, (machine (.reverseForward default [] 80 false "h:1")).exec bridge further =
          some next ∧
        further.filterMap BridgeLabel.seen =
          [(.near, .send [7, 8]), (.near, .close), (.far, .receive [7, 8]), (.far, .finish)] ∧
        next.connection.forth.finished = true := by
  constructor
  · obtain ⟨further, next, hrun, hseen, hnext⟩ := bridge_transparent
      (.localForward default [] "h:1") ⟨.inl rfl, by decide, by decide⟩ [] rfl
      (fun hlooped => (by cases hlooped)) ⟨rfl, rfl⟩
      [(.near, .send [7, 8]), (.near, .close), (.far, .receive [7, 8]), (.far, .finish)] rfl
    exact ⟨further, next, hrun, hseen, hnext ▸ rfl⟩
  · obtain ⟨further, next, hrun, hseen, hnext⟩ := bridge_transparent
      (.reverseForward default [] 80 false "h:1") ⟨.inl rfl, by decide, by decide⟩
      [.origin .proceed, .poll] rfl (fun _ => ⟨by decide, by decide⟩) ⟨rfl, rfl⟩
      [(.near, .send [7, 8]), (.near, .close), (.far, .receive [7, 8]), (.far, .finish)] rfl
    exact ⟨_, rfl, further, next, hrun, hseen, hnext ▸ rfl⟩

/-! ## Which targets are reached -/

/-- How far the connecting side gets with a stream: to the read behind the allowlist, further
on with a request within the bound of its reader, and to a target that names a host and a
port. -/
structure Passed (mode : BridgeMode) (bridge : Bridge) : Prop where
  reading : bridge.far = .reading → mode.poll = .reading
  forwarding : ∀ task, bridge.far = .forwarding task → mode.poll = .reading ∧
    (TunnelRequest.postcard.encode mode.request).length ≤ TunnelRequest.frame.max
  reached : bridge.reached.isSome = true → mode.poll = .reading ∧
    (TunnelRequest.postcard.encode mode.request).length ≤ TunnelRequest.frame.max ∧
    (hostPort mode.target).isSome = true

/-- A request that is read and forwarded is the one of its mode, within the bound. -/
theorem request_le_of_read {mode : BridgeMode} {bridge next : Bridge} {outcome : Outcome}
    {task : ForwardTask} (hinv : Inv mode bridge) (h : bridge.readStep mode outcome = some next)
    (hforwarding : next.far = .forwarding task) :
    (TunnelRequest.postcard.encode mode.request).length ≤ TunnelRequest.frame.max := by
  unfold readStep at h
  split at h
  · rename_i hreading
    obtain ⟨head, hnear, hhead, hfar⟩ := hinv.forth
    rw [hreading] at hfar
    split at h
    · cases h
    · rename_i result pipe hread
      obtain rfl := Option.some.inj h
      rw [(farTo_same _ _).1] at hforwarding
      cases result with
      | error err =>
          rw [dispatch_error] at hforwarding
          cases hforwarding
      | ok req =>
          obtain ⟨rest, hrest, -⟩ := readStep_ok hread
          have hunread : (pipeOf bridge.stream.forth).unread = bridge.stream.forth.sent := by
            rw [Pipe.unread, pipeOf, hfar.1, List.drop_zero]
          rw [hunread] at hrest
          obtain ⟨rfl, -, -⟩ := request_of_read hhead hnear hrest
          exact (Frame.read_ok hrest).2.1
  · cases h

theorem passed_step {mode : BridgeMode} {bridge next : Bridge} {label : BridgeLabel}
    (hinv : Inv mode bridge) (hpassed : Passed mode bridge)
    (h : bridge.step mode label = some next) : Passed mode next := by
  have hinv' := (answered hinv h).1
  cases far_step h with
  | stays hfar hreached =>
      exact ⟨hfar ▸ hpassed.reading, hfar ▸ hpassed.forwarding, hreached ▸ hpassed.reached⟩
  | opens habsent hfar hreached =>
      exact ⟨by simp [hfar], by simp [hfar], hreached ▸ hpassed.reached⟩
  | polls hlabel hqueued hfar hreached =>
      rcases mode.poll_cases with hpoll | hpoll
      · exact ⟨fun _ => hpoll, by simp [hfar, hpoll], hreached ▸ hpassed.reached⟩
      · exact ⟨by simp [hfar, hpoll], by simp [hfar, hpoll], hreached ▸ hpassed.reached⟩
  | reads outcome hlabel hreading hfar hreached =>
      obtain rfl := hlabel
      refine ⟨fun _ => hpassed.reading hreading, fun task hforwarding => ?_,
        hreached ▸ hpassed.reached⟩
      exact ⟨hpassed.reading hreading, request_le_of_read hinv h hforwarding⟩
  | forwards task task' hforwarding hfar hreached =>
      obtain ⟨hpoll, hle⟩ := hpassed.forwarding task hforwarding
      refine ⟨fun _ => hpoll, fun _ _ => ⟨hpoll, hle⟩, fun hsome => ⟨hpoll, hle, ?_⟩⟩
      rcases hreached with hsame | ⟨target, htarget, hnamed⟩
      · exact (hpassed.reached (hsame ▸ hsome)).2.2
      · exact hinv'.reached target htarget ▸ hnamed
  | exits hfar hreached =>
      exact ⟨by simp [hfar], by simp [hfar], hreached ▸ hpassed.reached⟩

/-- A connection that was accepted where a port was bound can lead to the named target and no
other, and there is one that leads there exactly if the allowlist admits the dialer, the
requests fit and the target names a host and a port. -/
theorem bridge_reached_iff (mode : BridgeMode) (target : String) :
    (mode.Bound ∧ ∃ labels bridge, (machine mode).Reaches labels bridge ∧
        bridge.reached = some target) ↔
      target = mode.target ∧ mode.Viable := by
  constructor
  · rintro ⟨hbound, labels, bridge, hrun, hreached⟩
    have hstart : Passed mode {} :=
      ⟨fun hfar => (by cases hfar), fun _ hfar => (by cases hfar), fun hsome => (by cases hsome)⟩
    obtain ⟨hinv, hpassed⟩ := Machine.invariant
      (fun bridge => Inv mode bridge ∧ Passed mode bridge) ⟨inv_start mode, hstart⟩
      (fun hbridge hstep =>
        ⟨(answered hbridge.1 hstep).1, passed_step hbridge.1 hbridge.2 hstep⟩) hrun
    obtain ⟨hpoll, hle, hnamed⟩ := hpassed.reached (by rw [hreached]; rfl)
    exact ⟨hinv.reached target hreached, BridgeMode.admitted_of_bound hbound hpoll,
      BridgeMode.fits_of_bound hbound hle, hnamed⟩
  · rintro ⟨rfl, hviable⟩
    -- the stream is opened, and leaves the queue
    have hopen : step mode {} (.origin .proceed) = some { far := .queued, origin := .writing } :=
      open_enabled mode rfl rfl
    have hpoll : step mode { far := .queued, origin := .writing } .poll =
        some { far := .reading, origin := .writing } := poll_enabled hviable.admitted rfl
    have hrun : (machine mode).exec {} [.origin .proceed, .poll] =
        some { far := .reading, origin := .writing } := by
      rw [Machine.exec_cons_of_step hopen, Machine.exec_cons_of_step hpoll]
      rfl
    have huncut : Uncut { far := .reading, origin := .writing } := ⟨rfl, rfl⟩
    have hintact := intact_of_exec (inv_start mode) (fun _ => intact_start mode) hrun huncut
    obtain ⟨next, ⟨labels, hrest, -⟩, -, hlive⟩ :=
      establishes hviable (fun _ => ⟨by decide, by decide⟩) hintact huncut
    have hreaches := (Machine.exec_append [.origin .proceed, .poll] labels).mpr ⟨_, hrun, hrest⟩
    exact ⟨hviable.bound, _, next, hreaches, hlive.reached⟩

end Bridge

end Sape
