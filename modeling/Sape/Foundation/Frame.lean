/-
  Foundation/Frame.lean --- length-prefixed frames on a byte stream.

  A frame is the four-byte big-endian length of a payload and the payload.  The
  reader takes the length first, refuses lengths above its bound without touching
  the payload, and otherwise takes exactly the payload and decodes it; whatever
  follows on the stream stays where it is.

  A stream is the list of bytes that are still to come before its end.  Every
  reader returns what is left of it next to its result, also when it fails, so
  that "how much was consumed" is part of what a theorem can say.

  WHAT IS PROVED.

      Frame.read_write             a written value is read back, and nothing more
      Frame.read_write_tooLarge    a payload over the bound costs its length field
      Frame.read_write_take        a frame that is cut short ends in `eof`
      Frame.read_ok                what an accepted frame was made of
      Frame.read_append            a verdict reached is kept when bytes follow
      Frame.read_comparable        a value read from a stream that so far agrees
                                   with a frame is the frame's
-/
import Sape.Foundation.Codec
import Mathlib.Tactic.Ring

set_option autoImplicit false

namespace Sape.Foundation

/-! ## Exact reads -/

/-- Take exactly `n` bytes; a stream that ends early is consumed to its end. -/
def readExact {ε : Type} (eof : ε) (n : Nat) (stream : Bytes) : Except ε Bytes × Bytes :=
  if n ≤ stream.length then (.ok (stream.take n), stream.drop n) else (.error eof, [])

theorem readExact_append {ε : Type} (eof : ε) (taken rest : Bytes) :
    readExact eof taken.length (taken ++ rest) = (.ok taken, rest) := by
  simp [readExact]

theorem readExact_short {ε : Type} (eof : ε) {n : Nat} {stream : Bytes}
    (hshort : stream.length < n) : readExact eof n stream = (.error eof, []) := by
  simp [readExact, Nat.not_le.mpr hshort]

/-! ## Four-byte big-endian lengths -/

/-- `u32::to_be_bytes`. -/
def toBeBytes (n : Nat) : Bytes :=
  [UInt8.ofNat (n / 2 ^ 24), UInt8.ofNat (n / 2 ^ 16), UInt8.ofNat (n / 2 ^ 8), UInt8.ofNat n]

/-- `u32::from_be_bytes`, on as many bytes as are given. -/
def fromBeBytes (bytes : Bytes) : Nat :=
  bytes.foldl (fun n b => n * 256 + b.toNat) 0

@[simp] theorem length_toBeBytes (n : Nat) : (toBeBytes n).length = 4 := rfl

theorem fromBeBytes_toBeBytes {n : Nat} (hn : n < 2 ^ 32) : fromBeBytes (toBeBytes n) = n := by
  simp only [fromBeBytes, toBeBytes, List.foldl_cons, List.foldl_nil, UInt8.toNat_ofNat']
  omega

/-! ## Frames -/

/-- A frame format: the payload's codec, the bound the reader puts on its length,
and the errors of both directions. -/
structure Frame (κ ε α : Type) where
  payload : Codec κ α
  /-- The longest payload the reader takes. -/
  max : Nat
  /-- The stream ended inside the frame. -/
  eof : ε
  /-- The reader refused this length. -/
  tooLarge : Nat → ε
  /-- The writer cannot express the length in four bytes. -/
  tooLong : ε
  /-- The payload did not decode. -/
  invalid : κ → ε

namespace Frame

variable {κ ε α : Type}

/-- Decode a whole payload; bytes behind the value are ignored. -/
def fromBytes (frame : Frame κ ε α) (payload : Bytes) : Except ε α :=
  match frame.payload.decode payload with
  | .error err => .error (frame.invalid err)
  | .ok (a, _) => .ok a

/-- Read one frame: its length, the bound, the payload. -/
def read (frame : Frame κ ε α) (stream : Bytes) : Except ε α × Bytes :=
  match readExact frame.eof 4 stream with
  | (.error err, stream) => (.error err, stream)
  | (.ok lenBuf, stream) =>
      let len := fromBeBytes lenBuf
      if frame.max < len then (.error (frame.tooLarge len), stream)
      else
        match readExact frame.eof len stream with
        | (.error err, stream) => (.error err, stream)
        | (.ok buf, stream) => (frame.fromBytes buf, stream)

/-- The bytes written for a value, or the error that comes before the first of
them. -/
def write (frame : Frame κ ε α) (a : α) : Except ε Bytes :=
  let bytes := frame.payload.encode a
  if bytes.length < 2 ^ 32 then .ok (toBeBytes bytes.length ++ bytes) else .error frame.tooLong

theorem write_ok {frame : Frame κ ε α} {a : α} {written : Bytes}
    (hwrite : frame.write a = .ok written) :
    (frame.payload.encode a).length < 2 ^ 32 ∧
      written = toBeBytes (frame.payload.encode a).length ++ frame.payload.encode a := by
  simp only [write] at hwrite
  split at hwrite
  · rename_i hlen
    exact ⟨hlen, (Except.ok.inj hwrite).symm⟩
  · cases hwrite

theorem write_of_lt {frame : Frame κ ε α} {a : α}
    (hlen : (frame.payload.encode a).length < 2 ^ 32) :
    frame.write a =
      .ok (toBeBytes (frame.payload.encode a).length ++ frame.payload.encode a) := by
  rw [write, if_pos hlen]

theorem read_of_length (frame : Frame κ ε α) (lenBuf rest : Bytes) (hlen : lenBuf.length = 4) :
    frame.read (lenBuf ++ rest) =
      if frame.max < fromBeBytes lenBuf then
        (.error (frame.tooLarge (fromBeBytes lenBuf)), rest)
      else
        match readExact frame.eof (fromBeBytes lenBuf) rest with
        | (.error err, stream) => (.error err, stream)
        | (.ok buf, stream) => (frame.fromBytes buf, stream) := by
  have hread := readExact_append frame.eof lenBuf rest
  rw [hlen] at hread
  simp only [read, hread]

/-- A frame whose payload is inside the bound is decoded from its payload, and
what follows it is left alone. -/
theorem read_frame (frame : Frame κ ε α) {payload : Bytes} (hlen : payload.length < 2 ^ 32)
    (rest : Bytes) :
    frame.read (toBeBytes payload.length ++ payload ++ rest) =
      if frame.max < payload.length then
        (.error (frame.tooLarge payload.length), payload ++ rest)
      else (frame.fromBytes payload, rest) := by
  rw [List.append_assoc, frame.read_of_length _ _ (length_toBeBytes _),
    fromBeBytes_toBeBytes hlen, readExact_append]

/-- A written value is read back, and nothing behind it is touched. -/
theorem read_write {frame : Frame κ ε α} {a : α} {written : Bytes}
    (hfits : frame.payload.Fits a) (hmax : (frame.payload.encode a).length ≤ frame.max)
    (hwrite : frame.write a = .ok written) (rest : Bytes) :
    frame.read (written ++ rest) = (.ok a, rest) := by
  obtain ⟨hlen, hwritten⟩ := write_ok hwrite
  have hdecode := frame.payload.decode_encode hfits []
  rw [List.append_nil] at hdecode
  rw [hwritten, frame.read_frame hlen, if_neg (Nat.not_lt.mpr hmax)]
  simp only [fromBytes, hdecode]

/-- A value inside the bound has a frame, which is read back. -/
theorem exists_frame (frame : Frame κ ε α) {a : α} (hfits : frame.payload.Fits a)
    (hmax : (frame.payload.encode a).length ≤ frame.max) (hbound : frame.max < 2 ^ 32) :
    ∃ written, frame.write a = .ok written ∧
      written.length = 4 + (frame.payload.encode a).length ∧
      ∀ rest, frame.read (written ++ rest) = (.ok a, rest) := by
  have hwrite := frame.write_of_lt (Nat.lt_of_le_of_lt hmax hbound)
  refine ⟨_, hwrite, ?_, read_write hfits hmax hwrite⟩
  rw [List.length_append, length_toBeBytes]

/-- A written value over the reader's bound costs exactly its length field. -/
theorem read_write_tooLarge {frame : Frame κ ε α} {a : α} {written : Bytes}
    (hmax : frame.max < (frame.payload.encode a).length)
    (hwrite : frame.write a = .ok written) (rest : Bytes) :
    frame.read (written ++ rest) =
      (.error (frame.tooLarge (frame.payload.encode a).length), (written ++ rest).drop 4) := by
  obtain ⟨hlen, hwritten⟩ := write_ok hwrite
  rw [hwritten, frame.read_frame hlen, if_pos hmax, List.append_assoc,
    List.drop_left' (length_toBeBytes _)]

/-- A whole frame settles what is read, whatever follows it. -/
theorem read_front {frame : Frame κ ε α} {a : α} {written : Bytes}
    (hfits : frame.payload.Fits a) (hne : ∀ len, frame.tooLarge len ≠ frame.eof)
    (hwrite : frame.write a = .ok written) :
    ∃ result cut, result ≠ .error frame.eof ∧
      ∀ rest, frame.read (written ++ rest) = (result, cut ++ rest) := by
  by_cases hmax : (frame.payload.encode a).length ≤ frame.max
  · exact ⟨.ok a, [], fun heq => (by cases heq), frame.read_write hfits hmax hwrite⟩
  · refine ⟨.error (frame.tooLarge (frame.payload.encode a).length), written.drop 4,
      fun heq => hne _ (Except.error.inj heq), fun rest => ?_⟩
    have hfour : 4 ≤ written.length := by
      rw [(write_ok hwrite).2, List.length_append, length_toBeBytes]
      omega
    rw [read_write_tooLarge (Nat.not_le.mp hmax) hwrite, List.drop_append_of_le_length hfour]

/-- What an accepted frame was made of: the value fits, its own encoding is
inside the bound, and the bytes taken were no fewer than its frame. -/
theorem read_ok {frame : Frame κ ε α} {stream rest : Bytes} {a : α}
    (hread : frame.read stream = (.ok a, rest)) :
    frame.payload.Fits a ∧ (frame.payload.encode a).length ≤ frame.max ∧
      ∃ used, stream = used ++ rest ∧
        4 + (frame.payload.encode a).length ≤ used.length := by
  by_cases hfour : 4 ≤ stream.length
  · have htake : (stream.take 4).length = 4 := by
      rw [List.length_take]
      omega
    rw [← List.take_append_drop 4 stream, frame.read_of_length _ _ htake] at hread
    generalize hlen : fromBeBytes (stream.take 4) = len at hread
    split at hread
    · cases hread
    · rename_i hmax
      by_cases hpayload : len ≤ (stream.drop 4).length
      · rw [readExact, if_pos hpayload] at hread
        simp only [Prod.mk.injEq] at hread
        obtain ⟨hbytes, hrest⟩ := hread
        simp only [fromBytes] at hbytes
        split at hbytes
        · cases hbytes
        · rename_i a' extra hdecode
          obtain rfl := Except.ok.inj hbytes
          obtain ⟨hfits, used, hused, hle⟩ := frame.payload.decode_sound hdecode
          have hlenUsed : used.length ≤ len := by
            have := congrArg List.length hused
            rw [List.length_take, List.length_append] at this
            omega
          refine ⟨hfits, by omega, stream.take 4 ++ (stream.drop 4).take len, ?_, ?_⟩
          · rw [← hrest, List.append_assoc, List.take_append_drop, List.take_append_drop]
          · rw [List.length_append, htake, List.length_take]
            omega
      · rw [readExact, if_neg hpayload] at hread
        cases hread
  · rw [read, readExact_short frame.eof (by omega)] at hread
    cases hread

/-- A verdict that was reached before the stream ended is the verdict on every
longer stream. -/
theorem read_append {frame : Frame κ ε α} {stream rest : Bytes} {result : Except ε α}
    (hread : frame.read stream = (result, rest))
    (hresult : (∃ a, result = .ok a) ∨ ∃ err, result = .error err ∧ err ≠ frame.eof)
    (extra : Bytes) : frame.read (stream ++ extra) = (result, rest ++ extra) := by
  have hnot : ∀ left, (result, rest) ≠ ((.error frame.eof, left) : Except ε α × Bytes) := by
    intro left heq
    have hfst : result = .error frame.eof := congrArg Prod.fst heq
    obtain ⟨a, rfl⟩ | ⟨err, rfl, hne⟩ := hresult
    · cases hfst
    · exact hne (Except.error.inj hfst)
  by_cases hfour : 4 ≤ stream.length
  · have htake : (stream.take 4).length = 4 := by
      rw [List.length_take]
      omega
    rw [← List.take_append_drop 4 stream, List.append_assoc, frame.read_of_length _ _ htake]
    rw [← List.take_append_drop 4 stream, frame.read_of_length _ _ htake] at hread
    generalize fromBeBytes (stream.take 4) = len at hread ⊢
    split at hread
    · rename_i hmax
      rw [if_pos hmax]
      simp only [Prod.mk.injEq] at hread
      rw [hread.1, hread.2]
    · rename_i hmax
      rw [if_neg hmax]
      by_cases hpayload : len ≤ (stream.drop 4).length
      · rw [readExact, if_pos hpayload] at hread
        rw [readExact, if_pos (by rw [List.length_append]; omega)]
        simp only [Prod.mk.injEq] at hread ⊢
        rw [List.take_append_of_le_length hpayload, List.drop_append_of_le_length hpayload]
        exact ⟨hread.1, by rw [hread.2]⟩
      · rw [readExact, if_neg hpayload] at hread
        exact absurd hread.symm (hnot [])
  · rw [read, readExact_short frame.eof (by omega)] at hread
    exact absurd hread.symm (hnot [])

/-- A stream that agrees with a written frame as far as both go, and from which a
value is read, holds all of the frame, and the value is the written one. -/
theorem read_comparable {frame : Frame κ ε α} {a b : α} {written stream rest : Bytes}
    (hfits : frame.payload.Fits a) (hwrite : frame.write a = .ok written)
    (hcomparable : stream <+: written ∨ written <+: stream)
    (hread : frame.read stream = (.ok b, rest)) : b = a ∧ stream = written ++ rest := by
  have hmax : ∀ following, frame.read (written ++ following) = (.ok a, following) ∨
      ∃ err left, frame.read (written ++ following) = (.error err, left) := by
    intro following
    by_cases hle : (frame.payload.encode a).length ≤ frame.max
    · exact .inl (read_write hfits hle hwrite following)
    · exact .inr ⟨_, _, read_write_tooLarge (Nat.not_le.mp hle) hwrite following⟩
  -- read the longer of the two
  obtain ⟨extra, hextra⟩ | ⟨following, hfollowing⟩ := hcomparable
  · have hlong := read_append hread (.inl ⟨b, rfl⟩) extra
    rw [hextra] at hlong
    obtain hok | ⟨err, left, herr⟩ := hmax []
    · rw [List.append_nil, hlong] at hok
      simp only [Prod.mk.injEq, Except.ok.injEq, List.append_eq_nil_iff] at hok
      obtain ⟨rfl, rfl, rfl⟩ := hok
      exact ⟨rfl, by rw [← hextra, List.append_nil, List.append_nil]⟩
    · rw [List.append_nil, hlong] at herr
      cases herr
  · subst hfollowing
    obtain hok | ⟨err, left, herr⟩ := hmax following
    · rw [hread] at hok
      simp only [Prod.mk.injEq, Except.ok.injEq] at hok
      obtain ⟨rfl, rfl⟩ := hok
      exact ⟨rfl, rfl⟩
    · rw [hread] at herr
      cases herr

/-- A frame inside the bound that is cut short anywhere ends in `eof`. -/
theorem read_write_take {frame : Frame κ ε α} {a : α} {written : Bytes}
    (hmax : (frame.payload.encode a).length ≤ frame.max)
    (hwrite : frame.write a = .ok written) {cut : Nat} (hcut : cut < written.length) :
    frame.read (written.take cut) = (.error frame.eof, []) := by
  obtain ⟨hlen, hwritten⟩ := write_ok hwrite
  by_cases hfour : cut < 4
  · rw [read, readExact_short frame.eof (by rw [List.length_take]; omega)]
  · rw [hwritten, List.length_append, length_toBeBytes] at hcut
    rw [hwritten, List.take_append, length_toBeBytes,
      List.take_of_length_le (by rw [length_toBeBytes]; omega),
      frame.read_of_length _ _ (length_toBeBytes _), fromBeBytes_toBeBytes hlen,
      if_neg (Nat.not_lt.mpr hmax),
      readExact_short frame.eof (by rw [List.length_take]; omega)]

/-- A stream that agrees with a frame inside the bound as far as both go either
gives the frame's value or ends too early. -/
theorem read_of_comparable {frame : Frame κ ε α} {a : α} {written stream : Bytes}
    (hfits : frame.payload.Fits a) (hmax : (frame.payload.encode a).length ≤ frame.max)
    (hwrite : frame.write a = .ok written) (hcomparable : stream <+: written ∨ written <+: stream) :
    frame.read stream = (.error frame.eof, []) ∨ ∃ rest, frame.read stream = (.ok a, rest) := by
  obtain hcut | ⟨rest, rfl⟩ := hcomparable
  · by_cases hlen : stream.length < written.length
    · rw [List.prefix_iff_eq_take.mp hcut]
      exact .inl (read_write_take hmax hwrite hlen)
    · have hwhole := read_write hfits hmax hwrite []
      rw [List.append_nil] at hwhole
      rw [hcut.eq_of_length_le (Nat.not_lt.mp hlen)]
      exact .inr ⟨[], hwhole⟩
  · exact .inr ⟨rest, read_write hfits hmax hwrite rest⟩

end Frame

end Sape.Foundation
