/-
  Relay/Onward.lean --- what a relay hands on is accepted where it arrives.

  A relay encodes anew what is left of the chain it read, so its frame owes nothing to
  the spelling of the one that came in.  The encoder's spelling of a value is the
  shortest there is, and a chain is longer than what follows its first hop; frames
  therefore shrink from relay to relay, and the bound that the first relay's frame has
  passed is passed by all of them.

  WHAT IS PROVED.

      onward_of_run             the chain a relay writes, and that its frame fits
      JumpTask.writes_result    a result goes upstream as it came from downstream
      read_handed               along a chain of streams nothing is refused
-/
import Sape.Relay.Reply

set_option autoImplicit false

namespace Sape

open Sape.Foundation

/-- The frame of `next` is smaller than the one that was taken off `stream`, is inside the
bound, and is read as `next`, whatever follows it. -/
def FitsBehind (stream rest : Bytes) (next : JumpChain) : Prop :=
  ∃ frame, writeJumpChain next = .ok frame ∧
    frame.length < stream.length - rest.length ∧ frame.length ≤ 4 + maxJumpRequestSize ∧
    ∀ following, readJumpChain (frame ++ following) = (.ok next, following)

/-- Behind a chain that was read, the hops behind its first one fit. -/
theorem fitsBehind_of_read {stream rest : Bytes} {hop : String} {hops : List String}
    (hread : readJumpChain stream = (.ok ⟨hop :: hops⟩, rest)) :
    FitsBehind stream rest ⟨hops⟩ := by
  obtain ⟨-, hmax, used, hstream, hused⟩ := Frame.read_ok hread
  have hless : (JumpChain.postcard.encode ⟨hops⟩).length <
      (JumpChain.postcard.encode ⟨hop :: hops⟩).length := JumpChain.length_encode_lt_cons hop hops
  have hinside : (JumpChain.postcard.encode ⟨hops⟩).length ≤ maxJumpRequestSize :=
    Nat.le_of_lt (Nat.lt_of_lt_of_le hless hmax)
  have hfits : JumpChain.postcard.Fits ⟨hops⟩ :=
    JumpChain.postcard_fits (Nat.lt_of_le_of_lt hinside (by decide))
  obtain ⟨frame, hwrite, hlen, hback⟩ := JumpChain.frame.exists_frame hfits hinside (by decide)
  have hconsumed : stream.length - rest.length = used.length := by
    rw [hstream, List.length_append, Nat.add_sub_cancel]
  have hread : 4 + (JumpChain.postcard.encode ⟨hop :: hops⟩).length ≤ used.length := hused
  have hframe : frame.length = 4 + (JumpChain.postcard.encode ⟨hops⟩).length := hlen
  exact ⟨frame, hwrite, by omega, by omega, hback⟩

/-! ## Downstream -/

namespace JumpTask

/-- Where a handler that has read `chain` holds hops, they are the ones behind the first. -/
def Carries (chain : JumpChain) : JumpTask → Prop
  | .readingChain => False
  | .dialing _ _ remaining | .opening _ remaining _ | .sleeping _ remaining _ =>
      ∃ hop, chain.hops = hop :: remaining
  | .writingChain remaining => (∃ hop, chain.hops = hop :: remaining) ∧ remaining ≠ []
  | _ => True

theorem carries_afterChain (text : Libp2pText) (peer : PeerId) (chain : JumpChain) :
    Carries chain (afterChain text peer chain) := by
  obtain ⟨-, report, heq⟩ | ⟨hop, remaining, hhops, ⟨report, -, heq⟩ | ⟨addr, next, -, heq⟩⟩ :=
    afterChain_cases text peer chain
  · rw [heq]
    trivial
  · rw [heq]
    trivial
  · rw [heq]
    exact ⟨hop, hhops⟩

/-- Hops are only passed along. -/
theorem Carries.resume {text : Libp2pText} {peer : PeerId} {chain : JumpChain}
    {task next : JumpTask} {event : JumpEvent} (hcarries : Carries chain task)
    (h : task.resume text peer event = some next) : Carries chain next := by
  unfold JumpTask.resume at h
  split at h
  all_goals try (obtain rfl := Option.some.inj h)
  · exact hcarries.elim
  · exact hcarries.elim
  · trivial
  · trivial
  · exact hcarries
  · trivial
  · -- the outbound stream is open: behind the last hop there is no chain to write
    unfold afterOpen
    split
    · trivial
    · rename_i hempty
      exact ⟨hcarries, fun hnil => hempty (List.isEmpty_iff.mpr hnil)⟩
  · split at h
    · obtain rfl := Option.some.inj h
      exact hcarries
    · obtain rfl := Option.some.inj h
      trivial
  · exact hcarries
  all_goals trivial

/-- A handler that has read a chain writes the hops behind the first. -/
theorem onward_of_run {text : Libp2pText} {nspace : String} {peer : PeerId} {chain next : JumpChain}
    {events : List JumpEvent} {handler : Handler}
    (hrun : (Handler.machine text nspace peer).Reaches (.chainRead (.ok chain) :: events) handler)
    (hop : handler.task.op nspace = some (.writeChain next)) :
    (∃ first, chain.hops = first :: next.hops) ∧ next.hops ≠ [] := by
  obtain ⟨start, hstart, hrest⟩ := Machine.exec_cons hrun
  obtain rfl : start = { task := afterChain text peer chain, seen := [.chainRead (.ok chain)] } :=
    (Option.some.inj hstart).symm
  have hcarries : Carries chain handler.task := by
    apply Machine.exec_invariant (fun handler : Handler => Carries chain handler.task) _ events
      hrest
    · exact carries_afterChain text peer chain
    · intro state event after hheld hstep
      obtain ⟨task, hresume, rfl⟩ := Option.map_eq_some_iff.mp hstep
      exact hheld.resume hresume
  cases htask : handler.task <;> rw [htask] at hop hcarries <;> cases hop
  exact hcarries

end JumpTask

/-! ## Upstream -/

/-- The frame of a result that was read is no larger than the one it was read from, and is
read as the same result, whatever follows it. -/
def PassesOn (stream rest : Bytes) (result : JumpResult) : Prop :=
  ∃ frame, writeJumpResult result = .ok frame ∧ frame.length ≤ stream.length - rest.length ∧
    ∀ following, readJumpResult (frame ++ following) = (.ok result, following)

theorem passesOn_of_read {stream rest : Bytes} {result : JumpResult}
    (hread : readJumpResult stream = (.ok result, rest)) : PassesOn stream rest result := by
  obtain ⟨hfits, hmax, used, hstream, hused⟩ := Frame.read_ok hread
  obtain ⟨frame, hwrite, hlen, hback⟩ := JumpResult.frame.exists_frame hfits hmax (by decide)
  have hconsumed : stream.length - rest.length = used.length := by
    rw [hstream, List.length_append, Nat.add_sub_cancel]
  exact ⟨frame, hwrite, by omega, hback⟩

/-- What a handler has read from downstream is what it goes on to write upstream. -/
theorem JumpTask.writes_result {text : Libp2pText} {nspace : String} {peer : PeerId}
    {task next : JumpTask} {result : JumpResult} (hop : task.op nspace = some .readResult)
    (h : task.resume text peer (.resultRead (.ok result)) = some next) :
    next.op nspace = some (.writeResult result) := by
  cases htask : task <;> rw [htask] at hop h <;> cases hop
  cases result with
  | ok =>
      obtain rfl := Option.some.inj h
      rfl
  | error message =>
      obtain rfl := Option.some.inj h
      rfl

/-! ## Along a chain -/

/-- The streams that a chain hands down, and the place each of them arrives at.  The first
is the dialer's.  Behind a relay that has read its chain, the next one begins with the
frame that the relay writes, or with a part of it where that stream broke. -/
inductive Handed (text : Libp2pText) (nspace : String) (stream : Bytes) : Nat → Bytes → Prop where
  | dialer : Handed text nspace stream 0 stream
  | relay {i : Nat} {inbound rest frame outbound : Bytes} {peer : PeerId} {chain next : JumpChain}
      {events : List JumpEvent} {handler : Handler} (habove : Handed text nspace stream i inbound)
      (hread : readJumpChain inbound = (.ok chain, rest))
      (hrun : (Handler.machine text nspace peer).Reaches (.chainRead (.ok chain) :: events) handler)
      (hop : handler.task.op nspace = some (.writeChain next))
      (hwrite : writeJumpChain next = .ok frame)
      (houtbound : outbound <+: frame ∨ frame <+: outbound) :
      Handed text nspace stream (i + 1) outbound

/-- A stream that begins with a frame that fits, or with a part of one, is not refused. -/
theorem FitsBehind.read {stream rest frame outbound : Bytes} {next : JumpChain}
    (h : FitsBehind stream rest next) (hwrite : writeJumpChain next = .ok frame)
    (houtbound : outbound <+: frame ∨ frame <+: outbound) :
    readJumpChain outbound = (.error .unexpectedEof, []) ∨
      ∃ left, readJumpChain outbound = (.ok next, left) := by
  obtain ⟨frame', hwrite', -, hmax, -⟩ := h
  obtain rfl : frame' = frame := Except.ok.inj (hwrite'.symm.trans hwrite)
  obtain ⟨hshort, hframe⟩ := Frame.write_ok hwrite
  have hinside : (JumpChain.postcard.encode next).length ≤ maxJumpRequestSize := by
    have hlen := congrArg List.length hframe
    rw [List.length_append, length_toBeBytes] at hlen
    have hpayload : frame'.length = 4 + (JumpChain.postcard.encode next).length := hlen
    omega
  have hfits : JumpChain.postcard.Fits next :=
    JumpChain.postcard_fits (Nat.lt_of_le_of_lt hinside (by decide))
  exact Frame.read_of_comparable hfits hinside hwrite houtbound

/-- Behind a first relay that has read its chain, every later one waits for the rest of its
frame or reads the hops that are left, and there are no more relays than hops. -/
theorem read_handed {text : Libp2pText} {nspace : String} {stream rest inbound : Bytes}
    {chain : JumpChain} {i : Nat} (hread : readJumpChain stream = (.ok chain, rest))
    (h : Handed text nspace stream i inbound) :
    (0 < i → i < chain.hops.length) ∧
      (readJumpChain inbound = (.error .unexpectedEof, []) ∨
        ∃ left, readJumpChain inbound = (.ok ⟨chain.hops.drop i⟩, left)) := by
  induction h with
  | dialer => exact ⟨fun hpos => absurd hpos (Nat.lt_irrefl 0), .inr ⟨rest, hread⟩⟩
  | relay habove hinbound hrun hop hwrite houtbound ih =>
      rename_i i inbound left frame outbound peer read next events handler
      have hchain : read = ⟨chain.hops.drop i⟩ := by
        obtain heof | ⟨left', hok⟩ := ih.2
        · rw [hinbound] at heof
          cases heof
        · rw [hinbound] at hok
          exact Except.ok.inj (Prod.mk.inj hok).1
      obtain ⟨⟨first, hhops⟩, hne⟩ := JumpTask.onward_of_run hrun hop
      obtain ⟨hops⟩ := next
      rw [hchain] at hhops hinbound
      have hhops : chain.hops.drop i = first :: hops := hhops
      have hrest : chain.hops.drop (i + 1) = hops := by
        rw [← List.tail_drop, hhops, List.tail_cons]
      rw [hhops] at hinbound
      rw [hrest]
      refine ⟨fun _ => ?_, (fitsBehind_of_read hinbound).read hwrite houtbound⟩
      have hlen := congrArg List.length hrest
      have hpos : 0 < hops.length := List.length_pos_iff.mpr hne
      rw [List.length_drop] at hlen
      omega

end Sape
