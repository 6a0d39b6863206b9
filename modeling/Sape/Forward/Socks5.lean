/-
  Forward/Socks5.lean --- `src/forward/socks5.rs`: `handle_http_connect`, the HTTP
  CONNECT half of the proxy port.

  The client's bytes arrive in segments.  A read of the socket returns what there is
  of one segment, at most the 8 KiB a `BufReader` has room for; that a read finds
  several segments at once is another segmentation.  The head is read through a
  `BufReader` that is dropped in front of the tunnel, and the tunnel is fed from the
  socket.  Writes to the client and to the open stream are taken to succeed.

  WHAT IS PROVED.

      forwards_payload_iff    the client's payload goes into the tunnel whole exactly
                              when no read of the socket spans the end of the head
-/
import Sape.Foundation.LineReader
import Sape.Text
import Sape.Tunnel
import Sape.Types

set_option autoImplicit false

namespace Sape.Proxy

open Sape.Foundation

/-! ## Reads of the client's socket -/

/-- The room in a `BufReader`. -/
def bufReaderCapacity : Nat := 8192

/-- What the reads of one segment return. -/
def pieces (capacity : Nat) : Nat → Bytes → List Bytes
  | 0, _ => []
  | fuel + 1, segment =>
      if segment.isEmpty then []
      else segment.take capacity :: pieces capacity fuel (segment.drop capacity)

/-- What the reads of the client's socket return. -/
def readsOf (segments : List Bytes) : List Bytes :=
  segments.flatMap fun segment => pieces bufReaderCapacity segment.length segment

/-! ## `handle_http_connect` -/

/-- `\n`. -/
def newline : UInt8 := 10

/-- `read_line`. -/
def readLine (reader : BufReader UInt8) : Except IoError String × BufReader UInt8 :=
  let read := reader.readUntil newline
  match Postcard.fromUtf8 read.1 with
  | none => (.error (.invalidData "stream did not contain valid UTF-8"), read.2)
  | some line => (.ok line, read.2)

/-- The target of a request line. -/
def connectTarget (firstLine : String) : Option String :=
  match splitWhitespace firstLine with
  | method :: target :: _ :: _ => if method = "CONNECT" then some target else none
  | _ => none

/-- The loop over the header lines; `skipHeaders_eq` is its body. -/
def skipHeadersFuel : Nat → BufReader UInt8 → Except IoError (BufReader UInt8)
  | 0, reader => .ok reader
  | fuel + 1, reader =>
      match readLine reader with
      | (.error err, _) => .error err
      | (.ok line, reader) => if isBlank line then .ok reader else skipHeadersFuel fuel reader

/-- Consume the remaining headers. -/
def skipHeaders (reader : BufReader UInt8) : Except IoError (BufReader UInt8) :=
  skipHeadersFuel (reader.rest.length + 1) reader

/-- Why a head is not accepted. -/
inductive HeadError where
  | io (err : IoError)
  | badRequest (firstLine : String)
  deriving DecidableEq, Repr

/-- The block that reads the request line and the headers. -/
def readHead (reader : BufReader UInt8) : Except HeadError (String × BufReader UInt8) :=
  match readLine reader with
  | (.error err, _) => .error (.io err)
  | (.ok firstLine, reader) =>
      match connectTarget firstLine with
      | none => .error (.badRequest firstLine)
      | some target =>
          match skipHeaders reader with
          | .error err => .error (.io err)
          | .ok reader => .ok (target, reader)

/-- What a session has done when it ends. -/
structure ConnectSession where
  /-- what the client was sent -/
  replied : String := ""
  /-- what was put on the tunnel stream, if one was opened -/
  tunnel : Option Bytes := none
  result : Except Report Unit

/-- `handle_http_connect`, with what `open_stream` comes back with. -/
def handleHttpConnect (opened : Except String Unit) (segments : List Bytes) : ConnectSession :=
  match readHead { pending := readsOf segments } with
  | .error (.io err) => { result := .error (.io err) }
  | .error (.badRequest firstLine) =>
      { replied := "HTTP/1.1 400 Bad Request\r\n\r\n"
        result := .error (.msg s!"invalid HTTP CONNECT request: {firstLine}") }
  -- the reader is dropped, and its buffer with it
  | .ok (target, reader) =>
      match opened with
      | .error err =>
          { result := .error (.wrap "p2p tunnel broken, cannot open stream for http-connect"
              (.io (.transport err))) }
      | .ok () =>
          match writeTunnelRequest (.localForward target) with
          | .error err =>
              { tunnel := some []
                result := .error (.wrap "failed to send http-connect tunnel request" (.io err)) }
          | .ok frame =>
              { replied := "HTTP/1.1 200 Connection established\r\n\r\n"
                tunnel := some (frame ++ reader.pending.flatten)
                result := .ok () }

/-! ## The reads -/

theorem flatten_pieces {capacity : Nat} (hcapacity : 0 < capacity) :
    ∀ (fuel : Nat) (segment : Bytes), segment.length ≤ fuel →
      (pieces capacity fuel segment).flatten = segment := by
  intro fuel
  induction fuel with
  | zero =>
      intro segment hlen
      rw [List.length_eq_zero_iff.mp (Nat.le_zero.mp hlen)]
      rfl
  | succ fuel ih =>
      intro segment hlen
      unfold pieces
      split
      · rename_i hempty
        rw [List.isEmpty_iff.mp hempty]
        rfl
      · rename_i hempty
        have hpos : 0 < segment.length := List.length_pos_iff.mpr (mt List.isEmpty_iff.mpr hempty)
        rw [List.flatten_cons, ih _ (by rw [List.length_drop]; omega), List.take_append_drop]

theorem pieces_ne {capacity : Nat} (hcapacity : 0 < capacity) :
    ∀ (fuel : Nat) (segment : Bytes), ∀ piece ∈ pieces capacity fuel segment, piece ≠ [] := by
  intro fuel
  induction fuel with
  | zero => exact fun segment piece hmem => absurd hmem List.not_mem_nil
  | succ fuel ih =>
      intro segment piece hmem
      unfold pieces at hmem
      split at hmem
      · exact absurd hmem List.not_mem_nil
      · rename_i hempty
        obtain rfl | htail := List.mem_cons.mp hmem
        · intro hnil
          obtain hzero | hnil := List.take_eq_nil_iff.mp hnil
          · omega
          · exact hempty (List.isEmpty_iff.mpr hnil)
        · exact ih _ piece htail

/-- The reads return the stream, whatever its segments. -/
theorem flatten_readsOf (segments : List Bytes) :
    (readsOf segments).flatten = segments.flatten := by
  induction segments with
  | nil => rfl
  | cons segment segments ih =>
      simp only [readsOf, List.flatMap_cons, List.flatten_append, List.flatten_cons] at ih ⊢
      rw [ih, flatten_pieces (by decide) _ _ (Nat.le_refl _)]

theorem readsOf_ne (segments : List Bytes) : ∀ piece ∈ readsOf segments, piece ≠ [] := by
  intro piece hmem
  obtain ⟨segment, -, hpiece⟩ := List.mem_flatMap.mp hmem
  exact pieces_ne (by decide) _ segment piece hpiece

/-! ## The loop over the headers -/

/-- A line that is not blank takes something off the stream. -/
theorem readLine_rest {reader next : BufReader UInt8} {line : String}
    (h : readLine reader = (.ok line, next)) (hblank : isBlank line = false) :
    next.rest.length < reader.rest.length := by
  have hrest := congrArg List.length
    (readUntil_rest newline reader.buffer reader.pending)
  rw [List.length_append] at hrest
  simp only [readLine, BufReader.readUntil] at h
  split at h
  · cases (Prod.mk.inj h).1
  · rename_i s hutf
    obtain ⟨hline, rfl⟩ := Prod.mk.inj h
    have hpos : (readUntil newline reader.buffer reader.pending).1 ≠ [] := by
      intro hnil
      rw [hnil] at hutf
      rw [← Except.ok.inj hline, ← Option.some.inj hutf] at hblank
      cases hblank
    have := List.length_pos_iff.mpr hpos
    show _ < (reader.buffer ++ reader.pending.flatten).length
    omega

/-- Enough fuel is enough. -/
theorem skipHeadersFuel_eq :
    ∀ (fuel other : Nat) (reader : BufReader UInt8), reader.rest.length < fuel →
      reader.rest.length < other → skipHeadersFuel fuel reader = skipHeadersFuel other reader := by
  intro fuel
  induction fuel with
  | zero => exact fun _ _ h => absurd h (Nat.not_lt_zero _)
  | succ fuel ih =>
      intro other reader hfuel hother
      cases other with
      | zero => exact absurd hother (Nat.not_lt_zero _)
      | succ other =>
          simp only [skipHeadersFuel]
          split
          · rfl
          · rename_i line next hread
            split
            · rfl
            · rename_i hblank
              have hless := readLine_rest hread (Bool.eq_false_iff.mpr hblank)
              exact ih other next (by omega) (by omega)

theorem skipHeaders_eq (reader : BufReader UInt8) :
    skipHeaders reader =
      match readLine reader with
      | (.error err, _) => .error err
      | (.ok line, reader) => if isBlank line then .ok reader else skipHeaders reader := by
  show skipHeadersFuel (reader.rest.length + 1) reader = _
  rw [skipHeadersFuel]
  split
  · rfl
  · rename_i line next hread
    split
    · rfl
    · rename_i hblank
      have hless := readLine_rest hread (Bool.eq_false_iff.mpr hblank)
      exact skipHeadersFuel_eq _ _ _ hless (Nat.lt_succ_self _)

/-! ## Heads -/

/-- A well-formed head: a request line, header lines and an empty line. -/
structure ConnectHead where
  requestLine : Bytes
  headers : List Bytes
  emptyLine : Bytes
  target : String
  requestLine_line : IsLine newline requestLine
  requestLine_target : (Postcard.fromUtf8 requestLine).bind connectTarget = some target
  headers_line : ∀ header ∈ headers, IsLine newline header
  headers_blank : ∀ header ∈ headers, ∀ s, Postcard.fromUtf8 header = some s → isBlank s = false
  emptyLine_line : IsLine newline emptyLine
  emptyLine_blank : (Postcard.fromUtf8 emptyLine).map isBlank = some true

/-- The bytes of a head. -/
def ConnectHead.bytes (head : ConnectHead) : Bytes :=
  head.requestLine ++ (head.headers.flatten ++ head.emptyLine)

/-- The lines that `read_line` accepts are text. -/
def ConnectHead.IsText (head : ConnectHead) : Prop :=
  ∀ header ∈ head.headers, (Postcard.fromUtf8 header).isSome

instance (head : ConnectHead) : Decidable head.IsText :=
  inferInstanceAs (Decidable (∀ header ∈ head.headers, _))

/-- From anywhere in a stream, the line that is there is read. -/
theorem readLine_of_line {reads : List Bytes} (hne : ∀ piece ∈ reads, piece ≠ [])
    {before line after : Bytes} (hline : IsLine newline line)
    (hstream : reads.flatten = before ++ (line ++ after)) :
    readLine (seek before.length reads) =
      match Postcard.fromUtf8 line with
      | none => (.error (.invalidData "stream did not contain valid UTF-8"),
          seek (before ++ line).length reads)
      | some s => (.ok s, seek (before ++ line).length reads) := by
  simp only [readLine, readUntil_of_line hne hline hstream]

/-- The loop over the headers ends behind the empty line, if all of them are text. -/
theorem skipHeaders_of_lines {reads : List Bytes} (hne : ∀ piece ∈ reads, piece ≠ [])
    {emptyLine after : Bytes} (hempty : IsLine newline emptyLine)
    (hblank : (Postcard.fromUtf8 emptyLine).map isBlank = some true) :
    ∀ (headers : List Bytes) (before : Bytes),
      (∀ header ∈ headers, IsLine newline header) →
      (∀ header ∈ headers, ∀ s, Postcard.fromUtf8 header = some s → isBlank s = false) →
      reads.flatten = before ++ (headers.flatten ++ emptyLine ++ after) →
      if ∀ header ∈ headers, (Postcard.fromUtf8 header).isSome then
        skipHeaders (seek before.length reads) =
          .ok (seek (before ++ (headers.flatten ++ emptyLine)).length reads)
      else ∃ err, skipHeaders (seek before.length reads) = .error err := by
  intro headers
  induction headers with
  | nil =>
      intro before _ _ hstream
      obtain ⟨s, hutf, hs⟩ := Option.map_eq_some_iff.mp hblank
      rw [List.flatten_nil, List.nil_append] at hstream
      rw [if_pos (by simp), skipHeaders_eq, readLine_of_line hne hempty hstream, hutf]
      simp only [hs, if_true, List.flatten_nil, List.nil_append]
  | cons header headers ih =>
      intro before hlines hblanks hstream
      have hline := hlines header List.mem_cons_self
      simp only [List.flatten_cons, List.append_assoc] at hstream
      have hread := readLine_of_line hne hline hstream
      rw [skipHeaders_eq, hread]
      cases hutf : Postcard.fromUtf8 header with
      | none =>
          rw [if_neg (fun h => by simpa [hutf] using h header List.mem_cons_self)]
          exact ⟨_, rfl⟩
      | some s =>
          have hs := hblanks header List.mem_cons_self s hutf
          have htail := ih (before ++ header) (fun h hm => hlines h (List.mem_cons_of_mem _ hm))
            (fun h hm => hblanks h (List.mem_cons_of_mem _ hm))
            (by simpa only [List.append_assoc] using hstream)
          simpa [hs, hutf, List.append_assoc] using htail

theorem seek_zero (reads : List Bytes) : seek 0 reads = { pending := reads } := by
  cases reads <;> rfl

/-- A head in front of any payload is read, if all its lines are text. -/
theorem readHead_of_head {head : ConnectHead} {payload : Bytes} {reads : List Bytes}
    (hne : ∀ piece ∈ reads, piece ≠ []) (hstream : reads.flatten = head.bytes ++ payload) :
    (head.IsText → readHead { pending := reads } =
        .ok (head.target, seek head.bytes.length reads)) ∧
      (¬ head.IsText → ∃ err, readHead { pending := reads } = .error (.io err)) := by
  obtain ⟨line, hutf, htarget⟩ := Option.bind_eq_some_iff.mp head.requestLine_target
  have hfront : reads.flatten =
      [] ++ (head.requestLine ++ (head.headers.flatten ++ head.emptyLine ++ payload)) := by
    simpa only [ConnectHead.bytes, List.append_assoc, List.nil_append] using hstream
  have hfirst := readLine_of_line hne head.requestLine_line hfront
  rw [List.length_nil, seek_zero, hutf, List.nil_append] at hfirst
  have hskip := skipHeaders_of_lines hne head.emptyLine_line head.emptyLine_blank head.headers
    head.requestLine head.headers_line head.headers_blank (by
      simpa only [ConnectHead.bytes, List.append_assoc] using hstream)
  constructor
  · intro htext
    unfold ConnectHead.IsText at htext
    rw [if_pos htext] at hskip
    simp only [readHead, hfirst, htarget, hskip]
    rfl
  · intro htext
    unfold ConnectHead.IsText at htext
    rw [if_neg htext] at hskip
    obtain ⟨err, hskip⟩ := hskip
    exact ⟨err, by simp only [readHead, hfirst, htarget, hskip]⟩

/-! ## The payload -/

/-- What `handle_http_connect` puts on the tunnel stream is the request's frame and the
client's payload, whole, exactly when the header lines are text and no read of the
client's socket returns bytes from both sides of the end of the head. -/
theorem forwards_payload_iff {head : ConnectHead} {payload frame : Bytes}
    {segments : List Bytes} (hstream : segments.flatten = head.bytes ++ payload)
    (hframe : writeTunnelRequest (.localForward head.target) = .ok frame) :
    (handleHttpConnect (.ok ()) segments).tunnel = some (frame ++ payload) ↔
      head.IsText ∧ CutAt head.bytes.length (readsOf segments) := by
  have hne := readsOf_ne segments
  have hreads : (readsOf segments).flatten = head.bytes ++ payload :=
    (flatten_readsOf segments).trans hstream
  have hcount : head.bytes.length ≤ (readsOf segments).flatten.length := by
    rw [hreads, List.length_append]
    omega
  obtain ⟨haccepted, hrejected⟩ := readHead_of_head hne hreads
  by_cases htext : head.IsText
  · -- the tunnel gets what the dropped reader had not taken off the socket
    have htunnel : (handleHttpConnect (.ok ()) segments).tunnel =
        some (frame ++ (seek head.bytes.length (readsOf segments)).pending.flatten) := by
      simp only [handleHttpConnect, haccepted htext, hframe]
    have hrest := seek_rest hcount
    rw [hreads, List.drop_left] at hrest
    rw [htunnel, ← buffer_seek_iff hcount, Option.some.injEq, List.append_cancel_left_eq, ← hrest,
      BufReader.rest]
    constructor
    · intro heq
      refine ⟨htext, List.length_eq_zero_iff.mp ?_⟩
      have hlen := congrArg List.length heq
      rw [List.length_append] at hlen
      omega
    · rintro ⟨-, hempty⟩
      rw [hempty, List.nil_append]
  · obtain ⟨err, hread⟩ := hrejected htext
    simp only [handleHttpConnect, hread]
    exact ⟨fun h => (by cases h), fun h => absurd h.1 htext⟩

/-- `CONNECT a:1 HTTP/1.1` and no headers. -/
def shortHead : ConnectHead where
  requestLine := Postcard.utf8Bytes "CONNECT a:1 HTTP/1.1\r\n"
  headers := []
  emptyLine := [13, 10]
  target := "a:1"
  requestLine_line := by decide
  requestLine_target := by decide
  headers_line := by simp
  headers_blank := by simp
  emptyLine_line := by decide
  emptyLine_blank := by decide

/-- The frame of the request that `shortHead` leads to. -/
def shortFrame : Bytes := [0, 0, 0, 5, 1, 3, 97, 58, 49]

theorem forwards_payload_iff_shortHead :
    (handleHttpConnect (.ok ()) [shortHead.bytes, [22]]).tunnel = some (shortFrame ++ [22]) := by
  have hstream : [shortHead.bytes, [22]].flatten = shortHead.bytes ++ [22] := by decide
  have hframe : writeTunnelRequest (.localForward shortHead.target) = .ok shortFrame := by decide
  refine (forwards_payload_iff hstream hframe).mpr ⟨by decide, [shortHead.bytes], [[22]], ?_, ?_⟩
  · decide
  · decide

/-- One byte of payload in the same segment as the head is lost, and in a segment of its
own is not. -/
theorem shortHead_loses_payload :
    [shortHead.bytes ++ [22]].flatten = [shortHead.bytes, [22]].flatten ∧
      (handleHttpConnect (.ok ()) [shortHead.bytes ++ [22]]).tunnel = some shortFrame ∧
      (handleHttpConnect (.ok ()) [shortHead.bytes, [22]]).tunnel = some (shortFrame ++ [22]) := by
  decide

end Sape.Proxy
