import JingjieAR.HttpContextAnswers
import JingjieAR.HttpContextChunking
import Mathlib.Data.List.DropRight

/-! How an accepted request is framed: the text of its header lines, the length they
declare, and the two ways in which a line can carry framing that the parser
does not see. -/
namespace JingjieAR

open Incremental (Drives)

/-- The body length that a header map declares; without a `Content-Length` it is 0. -/
def declaredLength (headers : StringMap) : ContentLengthParseResult :=
  match headers.lookup (ascii "content-length") with
  | none => .kContentLengthOk 0
  | some text => parseContentLength text

/-- The stream is a request line, header lines, an empty line, a body and what follows. -/
structure RequestText (stream line : Bytes) (lines : List Bytes) (body rest : Bytes) : Prop where
  text : stream = line++(crlf++(wireLines lines++(crlf++(body++rest))))
  requestLine : findCRLF line = none
  headerLines : ∀ l ∈ lines, findCRLF l = none ∧ l ≠ []

theorem line_append_inj {line line' tail tail' : Bytes} (hn : findCRLF line = none)
    (hn' : findCRLF line' = none) (h : line++(crlf++tail) = line'++(crlf++tail')) :
    line = line' ∧ tail = tail' := by
  -- Both lines end where `findCRLF` finds the first line end of the text.
  have hlen : line.length = line'.length := by
    have hpos := findCRLF_crlf_append line tail hn
    rw [h, findCRLF_crlf_append line' tail' hn'] at hpos
    injection hpos with hpos
    exact hpos.symm
  obtain ⟨hline, htail⟩ := List.append_inj h hlen
  exact ⟨hline, List.append_cancel_left htail⟩

theorem wireLines_inj {lines lines' : List Bytes} {tail tail' : Bytes}
    (hl : ∀ l ∈ lines, findCRLF l = none ∧ l ≠ []) (hl' : ∀ l ∈ lines', findCRLF l = none ∧ l ≠ [])
    (h : wireLines lines++(crlf++tail) = wireLines lines'++(crlf++tail')) : lines = lines' := by
  induction lines generalizing lines' with
  | nil =>
    cases lines' with
    | nil => rfl
    | cons line' lines' =>
      -- The empty line comes first on one side only.
      rw [wireLines_nil, wireLines_cons] at h
      simp only [List.append_assoc] at h
      have hnil : [] = line' := (line_append_inj rfl (hl' line' List.mem_cons_self).1 h).1
      exact absurd hnil.symm (hl' line' List.mem_cons_self).2
  | cons line lines ih =>
    cases lines' with
    | nil =>
      rw [wireLines_nil, wireLines_cons] at h
      simp only [List.append_assoc] at h
      have hnil : line = [] := (line_append_inj (hl line List.mem_cons_self).1 rfl h).1
      exact absurd hnil (hl line List.mem_cons_self).2
    | cons line' lines' =>
      simp only [wireLines_cons, List.append_assoc] at h
      obtain ⟨rfl, htail⟩ := line_append_inj (hl line List.mem_cons_self).1
        (hl' line' List.mem_cons_self).1 h
      rw [ih (fun l hm => hl l (List.mem_cons_of_mem _ hm))
        (fun l hm => hl' l (List.mem_cons_of_mem _ hm)) htail]

/-- A stream can be read as a request in one way only. -/
theorem RequestText.lines_unique {stream line line' body body' rest rest' : Bytes}
    {lines lines' : List Bytes} (h : RequestText stream line lines body rest)
    (h' : RequestText stream line' lines' body' rest') : lines = lines' := by
  have htext := h.text.symm.trans h'.text
  obtain ⟨-, htail⟩ := line_append_inj h.requestLine h'.requestLine htext
  exact wireLines_inj h.headerLines h'.headerLines htail

/-- `HttpContext::isSpace`. -/
def isSpace (c : UInt8) : Bool := c == space || c == 9

/-- A field name in lower case, without the blanks before its colon. -/
def fieldName (key : Bytes) : Bytes := lowerCase (key.rdropWhile isSpace)

/-- No line names a transfer coding, and every `Content-Length` is the length of the body. -/
structure FramingUnambiguous (lines : List Bytes) (body : Bytes) : Prop where
  noTransferCoding : ∀ line ∈ lines, ∀ key value, headerField line = some (key, value) →
    fieldName key = ascii "transfer-encoding" → value = []
  oneLength : ∀ line ∈ lines, ∀ key value, headerField line = some (key, value) →
    fieldName key = ascii "content-length" →
    parseContentLength value = .kContentLengthOk body.length

/-- The value of the last line whose name is `name` as it stands before the colon. -/
def lastValue (name : Bytes) : List Bytes → Option Bytes
  | [] => none
  | line :: lines =>
    (lastValue name lines).or
      ((headerField line).bind (fun f => if lowerCase f.1 = name then some f.2 else none))

/-- The length given by the last plain `Content-Length` line, 0 if there is none. -/
def lastLength (lines : List Bytes) : ContentLengthParseResult :=
  match lastValue (ascii "content-length") lines with
  | none => .kContentLengthOk 0
  | some text => parseContentLength text

/-- The lines that the parser overlooks agree with the one it goes by: a transfer coding
with blanks before the colon is empty, and every `Content-Length`, with blanks or
overridden by a later one, gives the number of the last plain one. -/
structure NoHiddenFraming (lines : List Bytes) : Prop where
  blankCoding : ∀ line ∈ lines, ∀ key value, headerField line = some (key, value) →
    fieldName key = ascii "transfer-encoding" → lowerCase key ≠ ascii "transfer-encoding" →
    value = []
  sameLength : ∀ line ∈ lines, ∀ key value, headerField line = some (key, value) →
    fieldName key = ascii "content-length" → parseContentLength value = lastLength lines

theorem lookup_storeLines (name : Bytes) (headers : StringMap) (lines : List Bytes) :
    (storeLines headers lines).lookup name = (lastValue name lines).or (headers.lookup name) := by
  induction lines generalizing headers with
  | nil => simp [storeLines, lastValue]
  | cons line lines ih =>
    have htail : (storeLines headers (line :: lines)).lookup name =
        (lastValue name lines).or ((storeLine headers line).lookup name) := ih _
    -- The later lines come first in the search, as a later `insert` overwrites.
    rw [htail, lastValue, Option.or_assoc]
    congr 1
    unfold storeLine
    cases headerField line with
    | none => simp
    | some field =>
      by_cases hk : lowerCase field.1 = name
      · subst hk
        simp
      · simp [hk, Finmap.lookup_insert_of_ne _ (Ne.symm hk)]

theorem declaredLength_storeLines (lines : List Bytes) :
    declaredLength (storeLines ∅ lines) = lastLength lines := by
  simp [declaredLength, lastLength, lookup_storeLines]

/-- For lines that the parser has stored, the framing is unambiguous exactly when the
overlooked lines agree. -/
theorem framingUnambiguous_iff {lines : List Bytes} {body : Bytes}
    (hl : ∀ line ∈ lines, Storable line)
    (hlen : lastLength lines = .kContentLengthOk body.length) :
    FramingUnambiguous lines body ↔ NoHiddenFraming lines := by
  constructor
  · intro hframed
    obtain ⟨hte, hcl⟩ := hframed
    refine ⟨?_, ?_⟩
    · intro line hm key value hf hk _
      exact hte line hm key value hf hk
    intro line hm key value hf hk
    rw [hcl line hm key value hf hk, hlen]
  · intro hhidden
    obtain ⟨hte, hcl⟩ := hhidden
    refine ⟨?_, fun line hm key value hf hk => (hcl line hm key value hf hk).trans hlen⟩
    intro line hm key value hf hk
    by_cases hplain : lowerCase key = ascii "transfer-encoding"
    · -- A plain transfer coding with a value is refused on sight.
      obtain ⟨key', value', hs⟩ := hl line hm
      have he := hs.field
      rw [hf] at he
      obtain ⟨rfl, rfl⟩ := Prod.mk.inj (Option.some.inj he)
      by_contra hne
      exact hs.notRefused ⟨hplain, hne⟩
    · exact hte line hm key value hf hk hplain

namespace HttpContext

section Completed

variable {c c' : HttpContext} {buf rest : Bytes}

theorem drives_complete_completed (h : Drives lineStep c buf (.completed c' rest))
    (hs : c.state = .kGotCompleteRequest) : c' = c ∧ rest = buf := by
  have hd : Drives lineStep c buf (.completed c buf) :=
    .done ((lineStep_iff _ _ _).mpr (.complete hs))
  have he := Incremental.drives_unique h hd
  injection he with hc hr
  exact ⟨hc, hr⟩

theorem drives_body_completed (h : Drives lineStep c buf (.completed c' rest))
    (hs : c.state = .kExpectBody) :
    ∃ body, buf = body++rest ∧ body.length = c.contentLength ∧ c' = c.takeBody body := by
  cases h with
  | done h =>
    cases (lineStep_iff _ _ _).mp h with
    | complete hs' => rw [hs] at hs'; contradiction
  | advance h ht =>
    cases (lineStep_iff _ _ _).mp h with
    | requestLine hs' => rw [hs] at hs'; contradiction
    | header hs' => rw [hs] at hs'; contradiction
    | headersEnd hs' => rw [hs] at hs'; contradiction
    | @body body _ _ hlen =>
      -- With its body the request is complete and nothing more is taken.
      obtain ⟨rfl, rfl⟩ := drives_complete_completed ht rfl
      exact ⟨body, rfl, hlen, rfl⟩

/-- The request that a context holds after the header lines `lines` and the body `body`;
an empty body is not written. -/
def requestAfter (r : HttpRequest) (lines : List Bytes) (body : Bytes) : HttpRequest :=
  { r with headers := JingjieAR.storeLines r.headers lines,
           body := if body = [] then r.body else body }

theorem drives_headers_completed (h : Drives lineStep c buf (.completed c' rest))
    (hs : c.state = .kExpectHeaders) :
    ∃ lines body, buf = wireLines lines++(crlf++(body++rest)) ∧
      (∀ line ∈ lines, Storable line) ∧
      declaredLength (JingjieAR.storeLines c.request.headers lines) =
        .kContentLengthOk body.length ∧
      c'.request = requestAfter c.request lines body := by
  generalize hv : Incremental.Verdict.completed c' rest = v at h
  induction h with
  | wait h => contradiction
  | fail h => contradiction
  | done h =>
    cases (lineStep_iff _ _ _).mp h with
    | complete hs' => rw [hs] at hs'; contradiction
  | @advance c c₁ buf buf₁ v h ht ih =>
    cases (lineStep_iff _ _ _).mp h with
    | requestLine hs' => rw [hs] at hs'; contradiction
    | body hs' => rw [hs] at hs'; contradiction
    | @header line _ key value _ hl hfit =>
      obtain ⟨lines, body, rfl, hlines, hlen, hreq⟩ := ih hs hv
      have hmap : JingjieAR.storeLines (c.storeField line key value).request.headers lines =
          JingjieAR.storeLines c.request.headers (line :: lines) := by
        simp [JingjieAR.storeLines, storeLine, hl.field, storeField]
      rw [hmap] at hlen
      refine ⟨line :: lines, body, by simp, ?_, hlen, ?_⟩
      · exact List.forall_mem_cons.mpr ⟨⟨key, value, hl⟩, hlines⟩
      · rw [hreq, requestAfter, hmap]
        rfl
    | headersEnd _ hfit hend =>
      subst hv
      obtain ⟨-, ⟨hnone, hc⟩ | ⟨text, n, htext, hok, hc⟩⟩ := (endOfHeaders_true_iff _ _).mp hend
      · obtain ⟨rfl, rfl⟩ := drives_complete_completed ht (by rw [hc])
        refine ⟨[], [], by simp, by simp, ?_, by rw [hc]; rfl⟩
        have hl : c.request.headers.lookup (ascii "content-length") = none := hnone
        simp [declaredLength, JingjieAR.storeLines, hl]
      · have hl : c.request.headers.lookup (ascii "content-length") = some text := htext
        -- A length of 0 announces no body, and none is written.
        by_cases hn : n = 0
        · obtain ⟨rfl, rfl⟩ := drives_complete_completed ht (by rw [hc]; simp [hn])
          refine ⟨[], [], by simp, by simp, ?_, by rw [hc]; rfl⟩
          simp [declaredLength, JingjieAR.storeLines, hl, hok.1, hn]
        · obtain ⟨body, rfl, hlen, rfl⟩ := drives_body_completed ht (by rw [hc]; simp [hn])
          rw [hc] at hlen
          refine ⟨[], body, by simp, by simp, ?_, ?_⟩
          · simp [declaredLength, JingjieAR.storeLines, hl, hok.1, hlen]
          · have hne : body ≠ [] := by
              intro hnil
              subst hnil
              exact hn hlen.symm
            rw [hc]
            simp [requestAfter, takeBody, hne, countBlank, JingjieAR.storeLines]

/-- A request that a fresh context accepts, read back from the stream. -/
theorem drives_new_completed {limits : HttpLimits} (receiveTime : Timestamp)
    (h : Drives lineStep ((new limits).stamp receiveTime) buf (.completed c' rest)) :
    ∃ line lines, RequestText buf line lines c'.request.body rest ∧
      (∀ l ∈ lines, Storable l) ∧
      lastLength lines = .kContentLengthOk c'.request.body.length := by
  cases h with
  | done h =>
    cases (lineStep_iff _ _ _).mp h with
    | complete hs => contradiction
  | advance h ht =>
    cases (lineStep_iff _ _ _).mp h with
    | header hs => contradiction
    | headersEnd hs => contradiction
    | body hs => contradiction
    | @requestLine line _ request _ hn hfit hok =>
      obtain ⟨lines, body, rfl, hlines, hlen, hreq⟩ := drives_headers_completed ht rfl
      -- The context is fresh: no headers and no body before this request.
      obtain ⟨hheaders, hbody⟩ := (processRequestLine_spec _ _).2 _ hok
      have hfresh : ((new limits).stamp receiveTime).request.body = [] := rfl
      have hb : c'.request.body = body := by
        rw [hreq]
        by_cases hnil : body = [] <;> simp [requestAfter, hnil, hbody, hfresh]
      have hempty : ((new limits).stamp receiveTime).request.headers = ∅ := rfl
      simp only [hheaders, hempty] at hlen
      rw [declaredLength_storeLines] at hlen
      rw [hb]
      refine ⟨line, lines, ⟨rfl, hn, ?_⟩, hlines, hlen⟩
      intro l hm
      obtain ⟨key, value, hl⟩ := hlines l hm
      exact ⟨hl.noCRLF, hl.ne_nil⟩

end Completed

/-- Chunks are appended one after another, with a call of `parseRequest` after each,
and every call answers `true`. -/
inductive Parses (limits : HttpLimits) : Bytes → HttpContext → Bytes → Prop
  | start : Parses limits [] (new limits) []
  | call {stream buf buf' chunk : Bytes} {c c' : HttpContext} {fuel : ℕ} {receiveTime : Timestamp}
      (h : Parses limits stream c buf)
      (hr : parseRequest fuel c (buf++chunk) receiveTime = some (true, c', buf')) :
      Parses limits (stream++chunk) c' buf'

/-- The calls so far have left the request line unfinished, or completed the request. -/
theorem parses_spec {limits : HttpLimits} {stream rest : Bytes} {c : HttpContext}
    (h : Parses limits stream c rest) :
    (∃ t, c = (new limits).stamp t ∧ rest = stream) ∨
      (c.state = .kGotCompleteRequest ∧
        ∃ t, Drives lineStep ((new limits).stamp t) stream (.completed c rest)) := by
  induction h with
  | start => exact .inl ⟨0, rfl, rfl⟩
  | @call stream buf buf' chunk c c' fuel t _ hr ih =>
    rcases ih with ⟨t₀, rfl, rfl⟩ | ⟨hs, t₀, hdone⟩
    · rcases parseRequest_cases hr with ⟨hok, -⟩ | ⟨-, -, rfl, rfl, -⟩ | ⟨-, hall, hd⟩
      · contradiction
      · exact .inl ⟨t, rfl, rfl⟩
      · exact .inr ⟨(drives_completed_spec hd).1, t, hd⟩
    · -- Bytes behind a complete request stay in the buffer.
      have hmore := Incremental.drives_append_of_completed lineStep_stable hdone chunk
      have ha := (parseRequest_iff _ _ _ _).mp ⟨fuel, hr⟩
      have hstamp : c.stamp t = c := by simp [stamp, hs]
      rw [hstamp, run_eq_iff.mpr hmore.2] at ha
      simp only [Answers, Prod.mk.injEq, true_and] at ha
      obtain ⟨rfl, rfl⟩ := ha
      exact .inr ⟨hs, t₀, hmore.1⟩

theorem parses_of_call {limits : HttpLimits} {stream rest : Bytes} {c : HttpContext} {fuel : ℕ}
    {receiveTime : Timestamp}
    (hr : parseRequest fuel (new limits) stream receiveTime = some (true, c, rest)) :
    Parses limits stream c rest := by
  have h : Parses limits ([]++stream) c rest := .call .start hr
  exact h

/-- The framing of an accepted request is unambiguous exactly when the header lines
that the parser overlooks agree with those it goes by. -/
theorem framing_unambiguous_iff_no_hidden_framing {limits : HttpLimits} {stream rest : Bytes}
    {c : HttpContext} (h : Parses limits stream c rest) (hall : c.gotAll = true) :
    (∃ line lines, RequestText stream line lines c.request.body rest) ∧
      ∀ line lines, RequestText stream line lines c.request.body rest →
        (FramingUnambiguous lines c.request.body ↔ NoHiddenFraming lines) := by
  rcases parses_spec h with ⟨t, rfl, -⟩ | ⟨-, t, hd⟩
  · contradiction
  · obtain ⟨line, lines, htext, hlines, hlen⟩ := drives_new_completed t hd
    refine ⟨⟨line, lines, htext⟩, ?_⟩
    -- The lines of the text are those that the parser has stored.
    intro line' lines' htext'
    rw [htext'.lines_unique htext]
    exact framingUnambiguous_iff hlines hlen

theorem framing_of_plain_post :
    ∃ c rest, Parses {} (ascii "POST / HTTP/1.1\r\nContent-Length: 2\r\n\r\nhi") c rest ∧
      c.gotAll = true ∧
      (∃ line lines, RequestText (ascii "POST / HTTP/1.1\r\nContent-Length: 2\r\n\r\nhi")
        line lines c.request.body rest) ∧
      ∀ line lines, RequestText (ascii "POST / HTTP/1.1\r\nContent-Length: 2\r\n\r\nhi")
        line lines c.request.body rest →
        (FramingUnambiguous lines c.request.body ↔ NoHiddenFraming lines) := by
  let r := (parseRequest 4 (new {})
    (ascii "POST / HTTP/1.1\r\nContent-Length: 2\r\n\r\nhi") 0).get (by decide)
  have hr : parseRequest 4 (new {}) (ascii "POST / HTTP/1.1\r\nContent-Length: 2\r\n\r\nhi") 0 =
      some (true, r.2.1, r.2.2) := by decide
  have hall : r.2.1.gotAll = true := by decide
  exact ⟨r.2.1, r.2.2, parses_of_call hr, hall,
    framing_unambiguous_iff_no_hidden_framing (parses_of_call hr) hall⟩

/-- A transfer coding with a blank before its colon, and two lengths that differ. -/
def smuggledPost : Bytes :=
  ascii "POST / HTTP/1.1\r\nTransfer-Encoding : chunked\r\n"++
    ascii "Content-Length: 5\r\nContent-Length: 0\r\n\r\nhello"

/-- The request is accepted, with the last length. -/
theorem hidden_framing_accepted :
    ∃ c rest line lines, Parses {} smuggledPost c rest ∧ c.gotAll = true ∧
      RequestText smuggledPost line lines c.request.body rest ∧
      ¬FramingUnambiguous lines c.request.body := by
  let r := (parseRequest 4 (new {}) smuggledPost 0).get (by decide)
  have hr : parseRequest 4 (new {}) smuggledPost 0 = some (true, r.2.1, r.2.2) := by
    decide
  have hall : r.2.1.gotAll = true := by decide
  refine ⟨r.2.1, r.2.2, ascii "POST / HTTP/1.1", [ascii "Transfer-Encoding : chunked",
    ascii "Content-Length: 5", ascii "Content-Length: 0"], parses_of_call hr, hall,
    ⟨by decide, by decide, by decide⟩, ?_⟩
  intro h
  have hte := h.noTransferCoding (ascii "Transfer-Encoding : chunked") (by simp)
    (ascii "Transfer-Encoding ") (ascii "chunked") (by decide) (by decide)
  exact absurd hte (by decide)

end HttpContext

end JingjieAR
