/-
  Forward/Heads.lean --- which client streams `handle_http_connect` takes for the head of a
  CONNECT request, against the grammar of such heads.

  The loop of the source reads line by line, takes the end of the stream for a line without
  characters, and ends at a line of white space.  A complete head is a request line,
  header lines that are not empty, and an empty line.

  WHAT IS PROVED.

      completeHead_iff      a complete head, line by line
      skipHeaders_of_some   what the loop over the headers leaves behind
      head_exact_iff        the streams for which the heads that are taken are the complete
                            ones, and what is no request line is answered with 400
-/
import Sape.Forward.Spec
import Sape.Forward.Socks5

set_option autoImplicit false

namespace Sape.Proxy

open Sape.Foundation

/-! ## The grammar -/

/-- There is no white space in the text. -/
def NoSpace (s : String) : Prop := ∀ c ∈ s.toList, isWhitespace c = false

instance (s : String) : Decidable (NoSpace s) := List.decidableBAll _ s.toList

/-- `CONNECT <host>:<port> <version>`, and the end of the line. -/
def IsRequestLine (line : Bytes) (target : String) : Prop :=
  IsLine newline line ∧ (hostPort target).isSome = true ∧ NoSpace target ∧
    ∃ version eol, (eol = "\r\n" ∨ eol = "\n") ∧ version ≠ "" ∧ NoSpace version ∧
      Postcard.fromUtf8 line = some ("CONNECT " ++ target ++ " " ++ version ++ eol)

/-- The line that ends a head. -/
def IsEmptyLine (line : Bytes) : Prop := line = [13, 10] ∨ line = [10]

instance (line : Bytes) : Decidable (IsEmptyLine line) := inferInstanceAs (Decidable (_ ∨ _))

/-- A stream that begins with a complete head, and what is behind it. -/
def CompleteHead (stream : Bytes) (target : String) (payload : Bytes) : Prop :=
  ∃ (requestLine : Bytes) (headers : List Bytes) (emptyLine : Bytes),
    stream = requestLine ++ (headers.flatten ++ (emptyLine ++ payload)) ∧
    IsRequestLine requestLine target ∧
    (∀ header ∈ headers, IsLine newline header ∧ ¬ IsEmptyLine header) ∧ IsEmptyLine emptyLine

/-- What is behind the first empty line. -/
def behindEmptyLine : List Bytes → Option (List Bytes)
  | [] => none
  | line :: lines => if IsEmptyLine line then some lines else behindEmptyLine lines

theorem isLine_of_isEmptyLine {line : Bytes} (h : IsEmptyLine line) : IsLine newline line := by
  rcases h with rfl | rfl <;> decide

/-- An empty line, and the lines in front of it. -/
theorem behindEmptyLine_eq_some {lines rest : List Bytes} :
    behindEmptyLine lines = some rest ↔
      ∃ headers emptyLine, lines = headers ++ emptyLine :: rest ∧
        (∀ header ∈ headers, ¬ IsEmptyLine header) ∧ IsEmptyLine emptyLine := by
  induction lines with
  | nil => simp [behindEmptyLine]
  | cons line lines ih =>
      rw [behindEmptyLine]
      split
      · rename_i hempty
        constructor
        · intro h
          obtain rfl := Option.some.inj h
          exact ⟨[], line, rfl, fun _ hmem => absurd hmem List.not_mem_nil, hempty⟩
        · rintro ⟨headers, emptyLine, heq, hheaders, -⟩
          cases headers with
          | nil => rw [(List.cons.inj heq).2]
          | cons header headers =>
              obtain ⟨rfl, -⟩ := List.cons.inj heq
              exact absurd hempty (hheaders line List.mem_cons_self)
      · rename_i hline
        rw [ih]
        constructor
        · rintro ⟨headers, emptyLine, rfl, hheaders, hempty⟩
          exact ⟨line :: headers, emptyLine, rfl, List.forall_mem_cons.mpr ⟨hline, hheaders⟩,
            hempty⟩
        · rintro ⟨headers, emptyLine, heq, hheaders, hempty⟩
          cases headers with
          | nil =>
              obtain ⟨rfl, -⟩ := List.cons.inj heq
              exact absurd hempty hline
          | cons header headers =>
              obtain ⟨rfl, rfl⟩ := List.cons.inj heq
              exact ⟨headers, emptyLine, rfl, (List.forall_mem_cons.mp hheaders).2, hempty⟩

theorem behindEmptyLine_eq_none {lines : List Bytes} :
    behindEmptyLine lines = none ↔ ∀ line ∈ lines, ¬ IsEmptyLine line := by
  induction lines with
  | nil => simp [behindEmptyLine]
  | cons line lines ih =>
      rw [behindEmptyLine, List.forall_mem_cons]
      split
      · rename_i hempty
        simp [hempty]
      · rename_i hline
        rw [ih]
        exact ⟨fun h => ⟨hline, h⟩, And.right⟩

/-- What is behind an empty line is shorter. -/
theorem length_behindEmptyLine {lines rest : List Bytes} (h : behindEmptyLine lines = some rest) :
    rest.length < lines.length := by
  obtain ⟨headers, emptyLine, rfl, -⟩ := behindEmptyLine_eq_some.mp h
  rw [List.length_append, List.length_cons]
  omega

/-- The lines in front of others are whole. -/
theorem isLine_of_linesOf {stream : Bytes} {front back : List Bytes}
    (h : linesOf newline stream = front ++ back) (hback : back ≠ []) :
    ∀ line ∈ front, IsLine newline line := by
  induction front generalizing stream with
  | nil => exact fun line hmem => absurd hmem List.not_mem_nil
  | cons first front ih =>
      obtain ⟨-, hlines, hfirst⟩ := linesOf_cons h
      exact List.forall_mem_cons.mpr ⟨hfirst.resolve_right (by simp [hback]), ih hlines⟩

/-- What is behind the first empty line are lines of the stream. -/
theorem linesOf_behindEmptyLine {stream : Bytes} {lines rest : List Bytes}
    (hlines : linesOf newline stream = lines) (h : behindEmptyLine lines = some rest) :
    linesOf newline rest.flatten = rest := by
  induction lines generalizing stream with
  | nil => cases h
  | cons line lines ih =>
      obtain ⟨-, htail, -⟩ := linesOf_cons hlines
      rw [behindEmptyLine] at h
      split at h
      · obtain rfl := Option.some.inj h
        exact htail
      · exact ih htail h

theorem completeHead_iff {stream payload : Bytes} {target : String} :
    CompleteHead stream target payload ↔
      ∃ requestLine lines, linesOf newline stream = requestLine :: lines ∧
        IsRequestLine requestLine target ∧
        behindEmptyLine lines = some (linesOf newline payload) := by
  constructor
  · rintro ⟨requestLine, headers, emptyLine, rfl, hrequest, hheaders, hempty⟩
    refine ⟨requestLine, headers ++ emptyLine :: linesOf newline payload, ?_, hrequest,
      behindEmptyLine_eq_some.mpr ⟨headers, emptyLine, rfl, fun h hm => (hheaders h hm).2, hempty⟩⟩
    rw [linesOf_append hrequest.1, linesOf_flatten_append fun h hm => (hheaders h hm).1,
      linesOf_append (isLine_of_isEmptyLine hempty)]
  · rintro ⟨requestLine, lines, hlines, hrequest, hbehind⟩
    obtain ⟨headers, emptyLine, rfl, hheaders, hempty⟩ := behindEmptyLine_eq_some.mp hbehind
    obtain ⟨hstream, hrest, -⟩ := linesOf_cons hlines
    have hwhole := isLine_of_linesOf hrest (List.cons_ne_nil _ _)
    refine ⟨requestLine, headers, emptyLine, ?_, hrequest,
      fun h hm => ⟨hwhole h hm, hheaders h hm⟩, hempty⟩
    rw [hstream, List.flatten_append, List.flatten_cons, flatten_linesOf]

/-! ## The loop of the source, line by line -/

/-- A line that is text is read, and what is behind it is left. -/
theorem readLine_of_text {reader : BufReader UInt8} {s : String}
    (h : Postcard.fromUtf8 (lineOf newline reader.rest) = some s) :
    ∃ next, readLine reader = (.ok s, next) ∧
      lineOf newline reader.rest ++ next.rest = reader.rest := by
  have hline : (reader.readUntil newline).1 = lineOf newline reader.rest :=
    readUntil_line reader.buffer reader.pending
  have hrest : (reader.readUntil newline).1 ++ (reader.readUntil newline).2.rest = reader.rest :=
    readUntil_rest newline reader.buffer reader.pending
  rw [hline] at hrest
  exact ⟨(reader.readUntil newline).2, by simp only [readLine, hline, h], hrest⟩

/-- Reading a line takes it off the lines of the stream. -/
theorem readLine_of_linesOf {line : Bytes} {lines : List Bytes} {reader : BufReader UInt8}
    {s : String} (hlines : linesOf newline reader.rest = line :: lines)
    (htext : Postcard.fromUtf8 line = some s) :
    ∃ next, readLine reader = (.ok s, next) ∧ linesOf newline next.rest = lines := by
  obtain ⟨hitems, htail, -⟩ := linesOf_cons hlines
  have hline := lineOf_of_linesOf hlines
  obtain ⟨next, hread, hnext⟩ := readLine_of_text (hline.symm ▸ htext)
  rw [hline, hitems] at hnext
  exact ⟨next, hread, by rw [List.append_cancel_left hnext, htail]⟩

theorem readLine_of_nil {reader : BufReader UInt8} (hlines : linesOf newline reader.rest = []) :
    ∃ next, readLine reader = (.ok "", next) ∧ linesOf newline next.rest = [] := by
  have hrest : reader.rest = [] := by
    rw [← flatten_linesOf newline reader.rest, hlines]
    rfl
  have htext : Postcard.fromUtf8 (lineOf newline reader.rest) = some "" := by
    rw [hrest]
    decide
  obtain ⟨next, hread, hnext⟩ := readLine_of_text htext
  rw [hrest] at hnext
  exact ⟨next, hread, by rw [(List.append_eq_nil_iff.mp hnext).2]; rfl⟩

/-- A line that is not text is an error. -/
theorem readLine_of_bytes {line : Bytes} {lines : List Bytes} {reader : BufReader UInt8}
    (hlines : linesOf newline reader.rest = line :: lines)
    (htext : Postcard.fromUtf8 line = none) :
    ∃ err next, readLine reader = (.error err, next) := by
  have hline : (reader.readUntil newline).1 = line :=
    (readUntil_line reader.buffer reader.pending).trans (lineOf_of_linesOf hlines)
  exact ⟨.invalidData "stream did not contain valid UTF-8", (reader.readUntil newline).2,
    by simp only [readLine, hline, htext]⟩

/-- The loop over the headers: `none` where a line is not text.  The end of the stream is
taken for an empty line. -/
def skipLines : List Bytes → Option (List Bytes)
  | [] => some []
  | line :: lines =>
      match Postcard.fromUtf8 line with
      | none => none
      | some s => if isBlank s then some lines else skipLines lines

theorem skipLines_of_text {line : Bytes} {s : String} (h : Postcard.fromUtf8 line = some s)
    (lines : List Bytes) :
    skipLines (line :: lines) = if isBlank s then some lines else skipLines lines := by
  rw [skipLines, h]

theorem skipLines_of_bytes {line : Bytes} (h : Postcard.fromUtf8 line = none)
    (lines : List Bytes) : skipLines (line :: lines) = none := by
  rw [skipLines, h]

/-- What the loop leaves behind, where all lines that it reads are text. -/
theorem skipHeaders_of_some {lines rest : List Bytes} {reader : BufReader UInt8}
    (hlines : linesOf newline reader.rest = lines) (h : skipLines lines = some rest) :
    ∃ next, skipHeaders reader = .ok next ∧ linesOf newline next.rest = rest := by
  induction lines generalizing reader with
  | nil =>
      obtain rfl := Option.some.inj h
      obtain ⟨next, hread, hnext⟩ := readLine_of_nil hlines
      refine ⟨next, ?_, hnext⟩
      rw [skipHeaders_eq, hread]
      rfl
  | cons line lines ih =>
      cases htext : Postcard.fromUtf8 line with
      | none =>
          rw [skipLines_of_bytes htext] at h
          cases h
      | some s =>
          obtain ⟨next, hread, hnext⟩ := readLine_of_linesOf hlines htext
          rw [skipLines_of_text htext] at h
          rw [skipHeaders_eq, hread]
          dsimp only
          split at h
          · rename_i hblank
            obtain rfl := Option.some.inj h
            exact ⟨next, if_pos hblank, hnext⟩
          · rename_i hblank
            rw [if_neg hblank]
            exact ih hnext h

/-- The loop fails at a line that is not text. -/
theorem skipHeaders_of_none {lines : List Bytes} {reader : BufReader UInt8}
    (hlines : linesOf newline reader.rest = lines) (h : skipLines lines = none) :
    ∃ err, skipHeaders reader = .error err := by
  induction lines generalizing reader with
  | nil => cases h
  | cons line lines ih =>
      cases htext : Postcard.fromUtf8 line with
      | none =>
          obtain ⟨err, next, hread⟩ := readLine_of_bytes hlines htext
          exact ⟨err, by rw [skipHeaders_eq, hread]⟩
      | some s =>
          obtain ⟨next, hread, hnext⟩ := readLine_of_linesOf hlines htext
          rw [skipLines_of_text htext] at h
          rw [skipHeaders_eq, hread]
          dsimp only
          split at h
          · cases h
          · rename_i hblank
            rw [if_neg hblank]
            exact ih hnext h

/-! ## The request line -/

/-- The words of a request line. -/
theorem splitWhitespace_requestLine {target version eol : String} (htarget : target ≠ "")
    (hspace : NoSpace target) (hversion : version ≠ "") (hspace' : NoSpace version)
    (heol : eol = "\r\n" ∨ eol = "\n") :
    splitWhitespace ("CONNECT " ++ target ++ " " ++ version ++ eol) =
      ["CONNECT", target, version] := by
  obtain ⟨c, more, heolList, hc, hmore⟩ : ∃ c more, eol.toList = c :: more ∧
      isWhitespace c = true ∧ splitWords [] more = [] := by
    rcases heol with rfl | rfl
    · exact ⟨'\r', ['\n'], rfl, by decide, by decide⟩
    · exact ⟨'\n', [], rfl, by decide, rfl⟩
  have hlist : ("CONNECT " ++ target ++ " " ++ version ++ eol).toList =
      "CONNECT".toList ++ ' ' :: (target.toList ++ ' ' :: (version.toList ++ c :: more)) := by
    simp [heolList]
  have hmethod : NoSpace "CONNECT" := by decide
  have hblank : isWhitespace ' ' = true := by decide
  unfold splitWhitespace
  rw [hlist, splitWords_append hmethod (by decide) hblank,
    splitWords_append hspace (mt String.toList_eq_nil_iff.mp htarget) hblank,
    splitWords_append hspace' (mt String.toList_eq_nil_iff.mp hversion) hc, hmore]
  simp

/-- A target of a host and a port is not empty. -/
theorem ne_empty_of_hostPort {target : String} (h : (hostPort target).isSome = true) :
    target ≠ "" := by
  rintro rfl
  cases h

/-- The target of a request line is what the source takes for it. -/
theorem connectTarget_of_isRequestLine {line : Bytes} {target : String}
    (h : IsRequestLine line target) :
    ∃ s, Postcard.fromUtf8 line = some s ∧ connectTarget s = some target := by
  obtain ⟨-, hhost, hspace, version, eol, heol, hversion, hspace', htext⟩ := h
  refine ⟨_, htext, ?_⟩
  rw [connectTarget, splitWhitespace_requestLine (ne_empty_of_hostPort hhost) hspace hversion
    hspace' heol]
  rfl

/-! ## Where the heads that are taken are the complete ones -/

/-- The header lines that the loop ends with where the head ends.  Of what is in front of
the first empty line, all is text that is not blank; what has no empty line is given up at
bytes that are not text. -/
inductive HeadersExact : List Bytes → Prop where
  | empty {line : Bytes} (lines : List Bytes) (hempty : IsEmptyLine line) :
      HeadersExact (line :: lines)
  | header {line : Bytes} {s : String} {lines : List Bytes}
      (htext : Postcard.fromUtf8 line = some s) (hblank : isBlank s = false)
      (hlines : HeadersExact lines) : HeadersExact (line :: lines)
  | broken {line : Bytes} {lines : List Bytes} (htext : Postcard.fromUtf8 line = none)
      (hlines : ∀ line ∈ lines, ¬ IsEmptyLine line) : HeadersExact (line :: lines)

/-- An empty line is blank text. -/
theorem isBlank_of_isEmptyLine {line : Bytes} (h : IsEmptyLine line) :
    ∃ s, Postcard.fromUtf8 line = some s ∧ isBlank s = true := by
  rcases h with rfl | rfl
  · exact ⟨"\r\n", by decide, by decide⟩
  · exact ⟨"\n", by decide, by decide⟩

theorem behindEmptyLine_of_empty {line : Bytes} (h : IsEmptyLine line) (lines : List Bytes) :
    behindEmptyLine (line :: lines) = some lines := by
  rw [behindEmptyLine, if_pos h]

theorem behindEmptyLine_of_header {line : Bytes} (h : ¬ IsEmptyLine line) (lines : List Bytes) :
    behindEmptyLine (line :: lines) = behindEmptyLine lines := by
  rw [behindEmptyLine, if_neg h]

/-- On exact header lines, the loop ends behind the first empty line. -/
theorem HeadersExact.skipLines_eq {lines : List Bytes} (h : HeadersExact lines) :
    skipLines lines = behindEmptyLine lines := by
  induction h with
  | empty lines hempty =>
      obtain ⟨s, htext, hblank⟩ := isBlank_of_isEmptyLine hempty
      rw [skipLines_of_text htext, if_pos hblank, behindEmptyLine_of_empty hempty]
  | header htext hblank hlines ih =>
      rename_i line s lines
      have hline : ¬ IsEmptyLine line := by
        intro hempty
        obtain ⟨t, htext', hblank'⟩ := isBlank_of_isEmptyLine hempty
        obtain rfl := Option.some.inj (htext.symm.trans htext')
        exact absurd hblank' (by simp [hblank])
      rw [skipLines_of_text htext, hblank, behindEmptyLine_of_header hline, ← ih]
      rfl
  | broken htext hlines =>
      rename_i line lines
      have hline : ¬ IsEmptyLine line := by
        intro hempty
        obtain ⟨t, htext', -⟩ := isBlank_of_isEmptyLine hempty
        exact absurd (htext.symm.trans htext') (by simp)
      rw [skipLines_of_bytes htext, behindEmptyLine_of_header hline,
        behindEmptyLine_eq_none.mpr hlines]

theorem headersExact_of_skipLines_eq {lines : List Bytes}
    (h : skipLines lines = behindEmptyLine lines) : HeadersExact lines := by
  induction lines with
  | nil => cases h
  | cons line lines ih =>
      by_cases hempty : IsEmptyLine line
      · exact .empty lines hempty
      rw [behindEmptyLine_of_header hempty] at h
      cases htext : Postcard.fromUtf8 line with
      | none =>
          rw [skipLines_of_bytes htext] at h
          exact .broken htext (behindEmptyLine_eq_none.mp h.symm)
      | some s =>
          rw [skipLines_of_text htext] at h
          cases hblank : isBlank s with
          | false =>
              rw [hblank] at h
              exact .header htext hblank (ih h)
          | true =>
              -- the loop has stopped in front of an empty line that is still to come
              rw [if_pos hblank] at h
              exact absurd (length_behindEmptyLine h.symm) (Nat.lt_irrefl _)

/-- The text of three words or more that begins with `CONNECT`. -/
def NamesTarget (s : String) : Prop :=
  ∃ target version more, splitWhitespace s = "CONNECT" :: target :: version :: more

/-- The streams whose heads are taken exactly where they are complete. -/
def HeadExact (stream : Bytes) : Prop :=
  ∀ firstLine lines, linesOf newline stream = firstLine :: lines →
    ((∃ target, IsRequestLine firstLine target) → HeadersExact lines) ∧
    ((∀ target, ¬ IsRequestLine firstLine target) → IsLine newline firstLine →
      ∃ s, Postcard.fromUtf8 firstLine = some s ∧ ¬ NamesTarget s) ∧
    (¬ IsLine newline firstLine →
      ¬ ∃ s, Postcard.fromUtf8 firstLine = some s ∧ NamesTarget s)

/-- What the handshake does is right on a stream: a tunnel stream is opened for the streams
with a complete head alone, the head ends where it ends, and a line that is no request line is
answered with 400. -/
structure HeadProperty (segments : List Bytes) : Prop where
  opens : (handleHttpConnect (.ok ()) segments).tunnel.isSome = true ↔
    ∃ target payload, CompleteHead segments.flatten target payload
  ends : ∀ target reader, readHead { pending := readsOf segments } = .ok (target, reader) →
    CompleteHead segments.flatten target reader.rest
  refuses : ∀ opened firstLine rest, segments.flatten = firstLine ++ rest →
    IsLine newline firstLine → (∀ target, ¬ IsRequestLine firstLine target) →
    (handleHttpConnect opened segments).replied = "HTTP/1.1 400 Bad Request\r\n\r\n"

/-! ### What `handle_http_connect` makes of a head -/

theorem connectTarget_eq_some {s target : String} :
    connectTarget s = some target ↔
      ∃ version more, splitWhitespace s = "CONNECT" :: target :: version :: more := by
  unfold connectTarget
  constructor
  · intro h
    split at h
    · rename_i method word version more hwords
      split at h
      · rename_i hmethod
        obtain rfl := Option.some.inj h
        exact ⟨version, more, by rw [hwords, hmethod]⟩
      · cases h
    · cases h
  · rintro ⟨version, more, hwords⟩
    rw [hwords]
    rfl

theorem connectTarget_eq_none {s : String} : connectTarget s = none ↔ ¬ NamesTarget s := by
  constructor
  · rintro h ⟨target, version, more, hwords⟩
    have hsome := connectTarget_eq_some.mpr ⟨version, more, hwords⟩
    rw [h] at hsome
    cases hsome
  · intro h
    cases htarget : connectTarget s with
    | none => rfl
    | some target =>
        obtain ⟨version, more, hwords⟩ := connectTarget_eq_some.mp htarget
        exact absurd ⟨target, version, more, hwords⟩ h

theorem tunnel_isSome_iff {segments : List Bytes} :
    (handleHttpConnect (.ok ()) segments).tunnel.isSome = true ↔
      ∃ target reader, readHead { pending := readsOf segments } = .ok (target, reader) := by
  unfold handleHttpConnect
  cases readHead { pending := readsOf segments } with
  | error err => cases err <;> simp
  | ok head =>
      obtain ⟨target, reader⟩ := head
      cases hframe : writeTunnelRequest (.localForward target) <;> simp [hframe]

/-- A 400 is the answer to a request line without a target, and to nothing else. -/
theorem replied_badRequest_iff {opened : Except String Unit} {segments : List Bytes} :
    (handleHttpConnect opened segments).replied = "HTTP/1.1 400 Bad Request\r\n\r\n" ↔
      ∃ firstLine, readHead { pending := readsOf segments } = .error (.badRequest firstLine) := by
  unfold handleHttpConnect
  cases readHead { pending := readsOf segments } with
  | error err => cases err <;> simp
  | ok head =>
      obtain ⟨target, reader⟩ := head
      cases opened with
      | error err => simp
      | ok opened => cases hframe : writeTunnelRequest (.localForward target) <;> simp [hframe]

/-- A stream without a line is refused like a line without words. -/
theorem readHead_of_nil {reader : BufReader UInt8} (hlines : linesOf newline reader.rest = []) :
    readHead reader = .error (.badRequest "") := by
  obtain ⟨next, hread, -⟩ := readLine_of_nil hlines
  unfold readHead
  rw [hread]
  rfl

section Lines

variable {firstLine : Bytes} {lines : List Bytes} {reader : BufReader UInt8}

theorem readHead_of_bytes (hlines : linesOf newline reader.rest = firstLine :: lines)
    (htext : Postcard.fromUtf8 firstLine = none) : ∃ err, readHead reader = .error (.io err) := by
  obtain ⟨err, next, hread⟩ := readLine_of_bytes hlines htext
  exact ⟨err, by simp only [readHead, hread]⟩

theorem readHead_of_badRequest (hlines : linesOf newline reader.rest = firstLine :: lines)
    {s : String} (htext : Postcard.fromUtf8 firstLine = some s) (htarget : connectTarget s = none) :
    readHead reader = .error (.badRequest s) := by
  obtain ⟨next, hread, -⟩ := readLine_of_linesOf hlines htext
  simp only [readHead, hread, htarget]

theorem readHead_of_headers (hlines : linesOf newline reader.rest = firstLine :: lines)
    {s target : String} (htext : Postcard.fromUtf8 firstLine = some s)
    (htarget : connectTarget s = some target) {rest : List Bytes}
    (hskip : skipLines lines = some rest) :
    ∃ next, readHead reader = .ok (target, next) ∧ linesOf newline next.rest = rest := by
  obtain ⟨behind, hread, hbehind⟩ := readLine_of_linesOf hlines htext
  obtain ⟨next, hheaders, hnext⟩ := skipHeaders_of_some hbehind hskip
  exact ⟨next, by simp only [readHead, hread, htarget, hheaders], hnext⟩

theorem readHead_of_brokenHeaders (hlines : linesOf newline reader.rest = firstLine :: lines)
    {s target : String} (htext : Postcard.fromUtf8 firstLine = some s)
    (htarget : connectTarget s = some target) (hskip : skipLines lines = none) :
    ∃ err, readHead reader = .error (.io err) := by
  obtain ⟨behind, hread, hbehind⟩ := readLine_of_linesOf hlines htext
  obtain ⟨err, hheaders⟩ := skipHeaders_of_none hbehind hskip
  exact ⟨err, by simp only [readHead, hread, htarget, hheaders]⟩

end Lines

/-! ### The three kinds of first lines -/

section FirstLine

variable {segments : List Bytes} {firstLine : Bytes} {lines : List Bytes}

/-- The reader that a session starts with. -/
theorem linesOf_readsOf (hlines : linesOf newline segments.flatten = firstLine :: lines) :
    linesOf newline (BufReader.rest { pending := readsOf segments }) = firstLine :: lines := by
  rw [← hlines, BufReader.rest, List.nil_append, flatten_readsOf]

/-- The whole line in front of a stream is its first line. -/
theorem eq_firstLine (hlines : linesOf newline segments.flatten = firstLine :: lines)
    {line rest : Bytes} (hstream : segments.flatten = line ++ rest) (hline : IsLine newline line) :
    line = firstLine := by
  rw [hstream, linesOf_append hline] at hlines
  exact (List.cons.inj hlines).1

/-- A request line, and an empty line somewhere behind it. -/
theorem completeHead_of_behindEmptyLine
    (hlines : linesOf newline segments.flatten = firstLine :: lines) {target : String}
    (hrequest : IsRequestLine firstLine target) {rest : List Bytes}
    (hbehind : behindEmptyLine lines = some rest) :
    CompleteHead segments.flatten target rest.flatten := by
  obtain ⟨-, htail, -⟩ := linesOf_cons hlines
  rw [← linesOf_behindEmptyLine htail hbehind] at hbehind
  exact completeHead_iff.mpr ⟨firstLine, lines, hlines, hrequest, hbehind⟩

/-- What is complete on a stream is so on its lines. -/
theorem behindEmptyLine_of_completeHead
    (hlines : linesOf newline segments.flatten = firstLine :: lines) {target : String}
    {payload : Bytes} (h : CompleteHead segments.flatten target payload) :
    IsRequestLine firstLine target ∧ behindEmptyLine lines = some (linesOf newline payload) := by
  obtain ⟨line, behind, heq, hrequest, hbehind⟩ := completeHead_iff.mp h
  obtain ⟨rfl, rfl⟩ := List.cons.inj (hlines.symm.trans heq)
  exact ⟨hrequest, hbehind⟩

/-- Where the handshake is right behind a request line, the loop ends behind the first empty
line. -/
theorem headersExact_of_headProperty
    (hlines : linesOf newline segments.flatten = firstLine :: lines) {target : String}
    (hrequest : IsRequestLine firstLine target) (h : HeadProperty segments) :
    HeadersExact lines := by
  have hreads := linesOf_readsOf hlines
  obtain ⟨s, htext, htarget⟩ := connectTarget_of_isRequestLine hrequest
  apply headersExact_of_skipLines_eq
  cases hskip : skipLines lines with
  | none =>
      -- nothing is opened, so there is no complete head
      obtain ⟨err, hhead⟩ := readHead_of_brokenHeaders hreads htext htarget hskip
      cases hbehind : behindEmptyLine lines with
      | none => rfl
      | some rest =>
          have hcomplete := completeHead_of_behindEmptyLine hlines hrequest hbehind
          obtain ⟨_, _, hopened⟩ := tunnel_isSome_iff.mp (h.opens.mpr ⟨target, _, hcomplete⟩)
          rw [hhead] at hopened
          cases hopened
  | some rest =>
      obtain ⟨next, hhead, hnext⟩ := readHead_of_headers hreads htext htarget hskip
      obtain ⟨-, hbehind⟩ := behindEmptyLine_of_completeHead hlines (h.ends target next hhead)
      rw [hbehind, hnext]

/-- Where the loop ends behind the first empty line, the head that is read is complete. -/
theorem completeHead_of_readHead
    (hlines : linesOf newline segments.flatten = firstLine :: lines) {target : String}
    (hrequest : IsRequestLine firstLine target) (h : HeadersExact lines) {word : String}
    {reader : BufReader UInt8}
    (hhead : readHead { pending := readsOf segments } = .ok (word, reader)) :
    CompleteHead segments.flatten word reader.rest := by
  have hreads := linesOf_readsOf hlines
  obtain ⟨s, htext, htarget⟩ := connectTarget_of_isRequestLine hrequest
  cases hskip : skipLines lines with
  | none =>
      obtain ⟨err, herr⟩ := readHead_of_brokenHeaders hreads htext htarget hskip
      rw [herr] at hhead
      cases hhead
  | some rest =>
      obtain ⟨next, hok, hnext⟩ := readHead_of_headers hreads htext htarget hskip
      rw [hok] at hhead
      obtain ⟨rfl, rfl⟩ := Prod.mk.inj (Except.ok.inj hhead)
      rw [h.skipLines_eq, ← hnext] at hskip
      exact completeHead_iff.mpr ⟨firstLine, lines, hlines, hrequest, hskip⟩

/-- Behind a request line, the handshake is right where the loop ends behind the first empty
line. -/
theorem headProperty_of_requestLine
    (hlines : linesOf newline segments.flatten = firstLine :: lines) {target : String}
    (hrequest : IsRequestLine firstLine target) : HeadProperty segments ↔ HeadersExact lines := by
  constructor
  · exact headersExact_of_headProperty hlines hrequest
  · intro h
    refine ⟨⟨?_, ?_⟩, fun word reader => completeHead_of_readHead hlines hrequest h, ?_⟩
    · intro hopened
      obtain ⟨word, reader, hhead⟩ := tunnel_isSome_iff.mp hopened
      exact ⟨word, reader.rest, completeHead_of_readHead hlines hrequest h hhead⟩
    · rintro ⟨word, payload, hcomplete⟩
      obtain ⟨-, hbehind⟩ := behindEmptyLine_of_completeHead hlines hcomplete
      obtain ⟨s, htext, htarget⟩ := connectTarget_of_isRequestLine hrequest
      obtain ⟨next, hhead, -⟩ := readHead_of_headers (linesOf_readsOf hlines) htext htarget
        (h.skipLines_eq.trans hbehind)
      exact tunnel_isSome_iff.mpr ⟨target, next, hhead⟩
    · intro opened line rest hstream hline hnone
      obtain rfl := eq_firstLine hlines hstream hline
      exact absurd hrequest (hnone target)

/-- Without a request line, there is no complete head. -/
theorem not_completeHead (hlines : linesOf newline segments.flatten = firstLine :: lines)
    (hnone : ∀ target, ¬ IsRequestLine firstLine target) {target : String} {payload : Bytes} :
    ¬ CompleteHead segments.flatten target payload := by
  intro hcomplete
  exact hnone target (behindEmptyLine_of_completeHead hlines hcomplete).1

/-- Where no head is read and none is there, the handshake opens nothing, rightly. -/
theorem headProperty_of_error {err : HeadError}
    (hnone : ∀ target payload, ¬ CompleteHead segments.flatten target payload)
    (hhead : readHead { pending := readsOf segments } = .error err)
    (hrefuses : ∀ line rest, segments.flatten = line ++ rest → IsLine newline line →
      ∃ s, err = .badRequest s) : HeadProperty segments where
  opens := by
    constructor
    · intro hopened
      obtain ⟨word, reader, hok⟩ := tunnel_isSome_iff.mp hopened
      rw [hhead] at hok
      cases hok
    · rintro ⟨target, payload, hcomplete⟩
      exact absurd hcomplete (hnone target payload)
  ends := by
    intro word reader hok
    rw [hhead] at hok
    cases hok
  refuses := by
    intro opened line rest hstream hline _
    obtain ⟨s, rfl⟩ := hrefuses line rest hstream hline
    exact replied_badRequest_iff.mpr ⟨s, hhead⟩

/-- A whole line that is no request line is answered with 400 where it is text that names no
target. -/
theorem headProperty_of_wholeLine
    (hlines : linesOf newline segments.flatten = firstLine :: lines)
    (hnone : ∀ target, ¬ IsRequestLine firstLine target) (hwhole : IsLine newline firstLine) :
    HeadProperty segments ↔ ∃ s, Postcard.fromUtf8 firstLine = some s ∧ ¬ NamesTarget s := by
  have hreads := linesOf_readsOf hlines
  constructor
  · intro h
    obtain ⟨hstream, -, -⟩ := linesOf_cons hlines
    obtain ⟨t, hbad⟩ := replied_badRequest_iff.mp
      (h.refuses (.ok ()) firstLine lines.flatten hstream hwhole hnone)
    cases htext : Postcard.fromUtf8 firstLine with
    | none =>
        obtain ⟨err, hhead⟩ := readHead_of_bytes hreads htext
        rw [hhead] at hbad
        cases hbad
    | some s =>
        refine ⟨s, rfl, ?_⟩
        rintro ⟨target, version, more, hwords⟩
        have htarget := connectTarget_eq_some.mpr ⟨version, more, hwords⟩
        cases hskip : skipLines lines with
        | none =>
            obtain ⟨err, hhead⟩ := readHead_of_brokenHeaders hreads htext htarget hskip
            rw [hhead] at hbad
            cases hbad
        | some rest =>
            obtain ⟨next, hhead, -⟩ := readHead_of_headers hreads htext htarget hskip
            rw [hhead] at hbad
            cases hbad
  · rintro ⟨s, htext, hname⟩
    have hhead := readHead_of_badRequest hreads htext (connectTarget_eq_none.mpr hname)
    exact headProperty_of_error (fun _ _ => not_completeHead hlines hnone) hhead
      fun _ _ _ _ => ⟨s, rfl⟩

/-- Without the end of a line, nothing is opened where the stream is no text that names a
target. -/
theorem headProperty_of_openLine
    (hlines : linesOf newline segments.flatten = firstLine :: lines)
    (hopen : ¬ IsLine newline firstLine) :
    HeadProperty segments ↔ ¬ ∃ s, Postcard.fromUtf8 firstLine = some s ∧ NamesTarget s := by
  have hreads := linesOf_readsOf hlines
  obtain ⟨-, -, hwhole⟩ := linesOf_cons hlines
  obtain rfl := hwhole.resolve_left hopen
  have hnone : ∀ target payload, ¬ CompleteHead segments.flatten target payload :=
    fun target payload => not_completeHead hlines fun _ hrequest => hopen hrequest.1
  have hrefuses : ∀ (err : HeadError) (line rest : Bytes), segments.flatten = line ++ rest →
      IsLine newline line → ∃ s, err = .badRequest s := by
    intro err line rest hstream hline
    obtain rfl := eq_firstLine hlines hstream hline
    exact absurd hline hopen
  constructor
  · rintro h ⟨s, htext, target, version, more, hwords⟩
    have htarget := connectTarget_eq_some.mpr ⟨version, more, hwords⟩
    -- the end of the stream is taken for the empty line
    obtain ⟨next, hhead, -⟩ := readHead_of_headers hreads htext htarget rfl
    exact hnone target next.rest (h.ends target next hhead)
  · intro h
    cases htext : Postcard.fromUtf8 firstLine with
    | none =>
        obtain ⟨err, hhead⟩ := readHead_of_bytes hreads htext
        exact headProperty_of_error hnone hhead (hrefuses _)
    | some s =>
        have hname : ¬ NamesTarget s := fun hname => h ⟨s, htext, hname⟩
        have hhead := readHead_of_badRequest hreads htext (connectTarget_eq_none.mpr hname)
        exact headProperty_of_error hnone hhead (hrefuses _)

end FirstLine

/-- The streams on which the handshake is right. -/
theorem head_exact_iff (segments : List Bytes) :
    HeadProperty segments ↔ HeadExact segments.flatten := by
  unfold HeadExact
  cases hlines : linesOf newline segments.flatten with
  | nil =>
      have hempty : segments.flatten = [] := by
        rw [← flatten_linesOf newline segments.flatten, hlines]
        rfl
      have hreads : linesOf newline (BufReader.rest { pending := readsOf segments }) = [] := by
        rw [BufReader.rest, List.nil_append, flatten_readsOf, hlines]
      refine iff_of_true ?_ fun _ _ heq => by cases heq
      apply headProperty_of_error _ (readHead_of_nil hreads) fun _ _ _ _ => ⟨"", rfl⟩
      intro target payload hcomplete
      obtain ⟨line, behind, heq, -⟩ := completeHead_iff.mp hcomplete
      rw [hlines] at heq
      cases heq
  | cons firstLine lines =>
      have hforall : ∀ {p : Bytes → List Bytes → Prop},
          (∀ line behind, firstLine :: lines = line :: behind → p line behind) ↔
            p firstLine lines := by
        intro p
        constructor
        · exact fun h => h firstLine lines rfl
        · rintro h line behind heq
          obtain ⟨rfl, rfl⟩ := List.cons.inj heq
          exact h
      rw [hforall]
      by_cases hrequest : ∃ target, IsRequestLine firstLine target
      · obtain ⟨target, htarget⟩ := hrequest
        rw [headProperty_of_requestLine hlines htarget]
        constructor
        · exact fun h => ⟨fun _ => h, fun hnone => absurd htarget (hnone target),
            fun hopen => absurd htarget.1 hopen⟩
        · exact fun h => h.1 ⟨target, htarget⟩
      have hnone : ∀ target, ¬ IsRequestLine firstLine target :=
        fun target htarget => hrequest ⟨target, htarget⟩
      by_cases hwhole : IsLine newline firstLine
      · rw [headProperty_of_wholeLine hlines hnone hwhole]
        constructor
        · exact fun h => ⟨fun hsome => absurd hsome hrequest, fun _ _ => h,
            fun hopen => absurd hwhole hopen⟩
        · exact fun h => h.2.1 hnone hwhole
      · rw [headProperty_of_openLine hlines hwhole]
        constructor
        · exact fun h => ⟨fun hsome => absurd hsome hrequest, fun _ hline => absurd hline hwhole,
            fun _ => h⟩
        · exact fun h => h.2.2 hwhole

/-- A request line without a line behind it. -/
def unfinishedHead : Bytes := Postcard.utf8Bytes "CONNECT a:1 HTTP/1.1\r\n"

/-- The end of the stream is taken for the empty line, and bytes that are not text are left
without an answer. -/
theorem unfinishedHead_opens :
    (handleHttpConnect (.ok ()) [unfinishedHead]).tunnel.isSome = true ∧
      (∀ target payload, ¬ CompleteHead unfinishedHead target payload) ∧
      (IsLine newline [67, 255, 10] ∧ (∀ target, ¬ IsRequestLine [67, 255, 10] target) ∧
        (handleHttpConnect (.ok ()) [[67, 255, 10]]).replied = "") := by
  refine ⟨by decide, ?_, by decide, ?_, by decide⟩
  · intro target payload hcomplete
    obtain ⟨line, lines, hlines, -, hbehind⟩ := completeHead_iff.mp hcomplete
    have hone : linesOf newline unfinishedHead = [unfinishedHead] := by decide
    obtain ⟨-, rfl⟩ := List.cons.inj (hone.symm.trans hlines)
    cases hbehind
  · rintro target ⟨-, -, -, version, eol, -, -, -, htext⟩
    have hbytes : Postcard.fromUtf8 [67, 255, 10] = none := by decide
    rw [hbytes] at htext
    cases htext

end Sape.Proxy
