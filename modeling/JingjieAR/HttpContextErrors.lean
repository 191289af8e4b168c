import JingjieAR.HttpContextChunking
import JingjieAR.HttpContextReturns

/-! What follows a rejected request. Most rejections leave the bad line in the buffer,
where every later call meets it again. The refusal of the header section at its empty
line takes that line away, and the parser goes on with whatever comes next. -/
namespace JingjieAR

open Incremental (Drives)

/-- The text begins with a request line that is rejected where it stands. -/
def BadRequestLine (limit : ℕ) (buf : Bytes) : Prop :=
  (findCRLF buf = none ∧ limit < buf.length) ∨
    ∃ line rest, buf = line++(crlf++rest) ∧ findCRLF line = none ∧
      (limit < line.length+2 ∨ ¬RequestLineOk line)

/-- The text begins with a header line that is rejected where it stands, `used` bytes
into the header section: it is too long, has no colon, or names a transfer coding. -/
def BadHeaderLine (limit used : ℕ) (buf : Bytes) : Prop :=
  (findCRLF buf = none ∧ limit < used+buf.length) ∨
    ∃ line rest, buf = line++(crlf++rest) ∧ findCRLF line = none ∧
      (limit < used+(line.length+2) ∨ (line ≠ [] ∧ ¬Storable line))

/-- The empty line after these headers is accepted. -/
def HeadersAccepted (limits : HttpLimits) (headers : StringMap) : Prop :=
  NoTransferCoding headers ∧ ∀ text, headers.lookup (ascii "content-length") = some text →
    ∃ n, LengthOk limits text n

/-- Reading on in the header section, over lines that are stored and over empty lines
that are refused, one comes to a line that is rejected where it stands. -/
inductive BadHeaderAhead (limits : HttpLimits) : StringMap → ℕ → Bytes → Prop
  | here {headers : StringMap} {used : ℕ} {buf : Bytes}
      (h : BadHeaderLine limits.maxHeaderBytes used buf) : BadHeaderAhead limits headers used buf
  | header {headers : StringMap} {used : ℕ} {line key value rest : Bytes}
      (hl : StoredLine line key value) (hfit : used+(line.length+2) ≤ limits.maxHeaderBytes)
      (ht : BadHeaderAhead limits (headers.insert (lowerCase key) value)
        (used+(line.length+2)) rest) :
      BadHeaderAhead limits headers used (line++(crlf++rest))
  | blank {headers : StringMap} {used : ℕ} {rest : Bytes}
      (hr : ¬HeadersAccepted limits headers) (hfit : used+2 ≤ limits.maxHeaderBytes)
      (ht : BadHeaderAhead limits headers (used+2) rest) :
      BadHeaderAhead limits headers used (crlf++rest)

/-- More bytes behind a line that is too long before its end do not shorten it. -/
theorem long_line_append {limit used : ℕ} {buf : Bytes} (more : Bytes) (hn : findCRLF buf = none)
    (hbig : limit < used+buf.length) :
    (findCRLF (buf++more) = none ∧ limit < used+(buf++more).length) ∨
      ∃ line rest, buf++more = line++(crlf++rest) ∧ findCRLF line = none ∧
        limit < used+(line.length+2) := by
  -- The line may get its end now; it is too long all the same.
  cases hpos : findCRLF (buf++more) with
  | none => exact .inl ⟨rfl, by rw [List.length_append]; omega⟩
  | some n =>
    obtain ⟨hsplit, hline⟩ := findCRLF_some_split hpos
    refine .inr ⟨_, _, hsplit, hline, ?_⟩
    exact HttpContext.long_line_of_append limit used hn hbig hpos

theorem BadRequestLine.append {limit : ℕ} {buf : Bytes} (h : BadRequestLine limit buf)
    (more : Bytes) : BadRequestLine limit (buf++more) := by
  rcases h with ⟨hn, hbig⟩ | ⟨line, rest, rfl, hn, hbad⟩
  · have hlong : limit < 0+buf.length := by omega
    rcases long_line_append more hn hlong with ⟨hn', hbig'⟩ | ⟨line, rest, he, hn', hbig'⟩
    · exact .inl ⟨hn', by omega⟩
    · exact .inr ⟨line, rest, he, hn', .inl (by omega)⟩
  · exact .inr ⟨line, rest++more, by simp, hn, hbad⟩

theorem BadHeaderLine.append {limit used : ℕ} {buf : Bytes} (h : BadHeaderLine limit used buf)
    (more : Bytes) : BadHeaderLine limit used (buf++more) := by
  rcases h with ⟨hn, hbig⟩ | ⟨line, rest, rfl, hn, hbad⟩
  · rcases long_line_append more hn hbig with hshort | ⟨line, rest, he, hn', hbig'⟩
    · exact .inl hshort
    · exact .inr ⟨line, rest, he, hn', .inl hbig'⟩
  · exact .inr ⟨line, rest++more, by simp, hn, hbad⟩

theorem BadHeaderAhead.append {limits : HttpLimits} {headers : StringMap} {used : ℕ} {buf : Bytes}
    (h : BadHeaderAhead limits headers used buf) (more : Bytes) :
    BadHeaderAhead limits headers used (buf++more) := by
  induction h with
  | here h => exact .here (h.append more)
  | header hl hfit _ ih =>
    simp only [List.append_assoc]
    exact .header hl hfit ih
  | blank hr hfit _ ih =>
    rw [List.append_assoc]
    exact .blank hr hfit ih

namespace HttpContext

/-- The bytes in the buffer hold a line that is rejected where it stands, and the
parser gets to it. -/
def BadLineAhead (c : HttpContext) (buf : Bytes) : Prop :=
  match c.state with
  | .kExpectRequestLine =>
    BadRequestLine c.limits.maxRequestLineBytes buf ∨
      ∃ line rest, buf = line++(crlf++rest) ∧ findCRLF line = none ∧ RequestLineOk line ∧
        line.length+2 ≤ c.limits.maxRequestLineBytes ∧
        BadHeaderAhead c.limits c.request.headers c.headerBytes rest
  | .kExpectHeaders => BadHeaderAhead c.limits c.request.headers c.headerBytes buf
  | .kExpectBody => False
  | .kGotCompleteRequest => False

theorem BadLineAhead.append {c : HttpContext} {buf : Bytes} (h : BadLineAhead c buf)
    (more : Bytes) : BadLineAhead c (buf++more) := by
  unfold BadLineAhead at h ⊢
  split at h
  · rcases h with h | ⟨line, rest, rfl, hn, hok, hfit, h⟩
    · exact .inl (h.append more)
    · exact .inr ⟨line, rest++more, by simp, hn, hok, hfit, h.append more⟩
  · exact h.append more
  · contradiction
  · contradiction

theorem badLineAhead_stamp (c : HttpContext) (receiveTime : Timestamp) (buf : Bytes) :
    BadLineAhead (c.stamp receiveTime) buf ↔ BadLineAhead c buf := by
  unfold stamp
  split_ifs with hs
  · simp only [BadLineAhead, hs]
  · rfl

theorem endOfHeaders_true_iff_accepted (c : HttpContext) :
    (endOfHeaders c).1 = true ↔ HeadersAccepted c.limits c.request.headers := by
  have hiff (h : (endOfHeaders c).1 = true) :=
    (endOfHeaders_true_iff c (endOfHeaders c).2).mp (Prod.ext h rfl)
  constructor
  · intro h
    obtain ⟨hte, ⟨hnone, -⟩ | ⟨text, n, htext, hok, -⟩⟩ := hiff h
    · refine ⟨hte, ?_⟩
      intro text ht
      rw [hnone] at ht
      contradiction
    · refine ⟨hte, ?_⟩
      intro text' ht
      refine ⟨n, ?_⟩
      rw [htext] at ht
      injection ht with ht
      exact ht ▸ hok
  · intro haccepted
    obtain ⟨hte, hlen⟩ := haccepted
    cases hl : c.request.headers.lookup (ascii "content-length") with
    | none =>
      have hend := (endOfHeaders_true_iff c _).mpr ⟨hte, .inl ⟨hl, rfl⟩⟩
      rw [hend]
    | some text =>
      obtain ⟨n, hn⟩ := hlen text hl
      have hend := (endOfHeaders_true_iff c _).mpr ⟨hte, .inr ⟨text, n, hl, hn, rfl⟩⟩
      rw [hend]

/-- A refused header section leaves the parser in it, with the headers it has. -/
theorem endOfHeaders_false {c c' : HttpContext} (h : endOfHeaders c = (false, c')) :
    c'.state = c.state ∧ c'.limits = c.limits ∧ c'.request = c.request ∧
      c'.headerBytes = c.headerBytes := by
  unfold endOfHeaders at h
  split_ifs at h
  · cases h
    exact ⟨rfl, rfl, rfl, rfl⟩
  · split at h
    · split at h
      · cases h
        exact ⟨rfl, rfl, rfl, rfl⟩
      · cases h
        exact ⟨rfl, rfl, rfl, rfl⟩
      · split_ifs at h
        · cases h
          exact ⟨rfl, rfl, rfl, rfl⟩
        · simp at h
        · simp at h
    · simp at h

theorem badLineAhead_headers {c : HttpContext} (hs : c.state = .kExpectHeaders) (buf : Bytes) :
    BadLineAhead c buf ↔ BadHeaderAhead c.limits c.request.headers c.headerBytes buf := by
  simp only [BadLineAhead, hs]

/-- A header line that is rejected where it stands stops the parser in front of it. -/
theorem lineStep_of_badHeaderLine {c : HttpContext} {buf : Bytes} (hs : c.state = .kExpectHeaders)
    (h : BadHeaderLine c.limits.maxHeaderBytes c.headerBytes buf) :
    ∃ c', lineStep c buf = .fail (c', buf) ∧ c'.state = c.state ∧ c'.limits = c.limits ∧
      c'.request = c.request ∧ c'.headerBytes = c.headerBytes := by
  rcases h with ⟨hn, hbig⟩ | ⟨line, rest, rfl, hn, hbad⟩
  · exact ⟨_, (lineStep_iff _ _ _).mpr (.headersUnfinished hs hn hbig), rfl, rfl, rfl, rfl⟩
  · by_cases hbig : c.limits.maxHeaderBytes < c.headerBytes+(line.length+2)
    · exact ⟨_, (lineStep_iff _ _ _).mpr (.headerLong hs hn hbig), rfl, rfl, rfl, rfl⟩
    · obtain ⟨hne, hst⟩ := hbad.resolve_left hbig
      rw [Nat.not_lt] at hbig
      cases hf : headerField line with
      | none =>
        refine ⟨_, (lineStep_iff _ _ _).mpr (.headerNoColon hs hn hne hbig hf), ?_⟩
        unfold defaultError
        split_ifs <;> exact ⟨rfl, rfl, rfl, rfl⟩
      | some field =>
        have hr : Refused field.1 field.2 := by
          by_contra hr
          exact hst ⟨field.1, field.2, hn, hne, hf, hr⟩
        refine ⟨_, (lineStep_iff _ _ _).mpr (.headerRefused hs hn hne hbig hf hr), ?_⟩
        exact ⟨rfl, rfl, rfl, rfl⟩

/-- With a bad line ahead in the header section the parser fails, and the bad line
is still ahead of it. -/
theorem drives_of_badHeaderAhead {limits : HttpLimits} {headers : StringMap} {used : ℕ}
    {buf : Bytes} (h : BadHeaderAhead limits headers used buf) {c : HttpContext}
    (hs : c.state = .kExpectHeaders) (hl : c.limits = limits) (hm : c.request.headers = headers)
    (hb : c.headerBytes = used) :
    ∃ c' buf', Drives lineStep c buf (.failed (c', buf')) ∧ c'.gotAll = false ∧
      BadLineAhead c' buf' := by
  induction h generalizing c with
  | @here _ _ buf h =>
    subst hl hm hb
    obtain ⟨c', hstep, hs', hl', hr', hb'⟩ := lineStep_of_badHeaderLine hs h
    rw [hs] at hs'
    refine ⟨c', buf, .fail hstep, by simp [gotAll, hs'], ?_⟩
    rw [badLineAhead_headers hs', hl', hr', hb']
    exact .here h
  | @header _ _ line key value rest hline hfit _ ih =>
    subst hl hm hb
    -- The line is stored on the way to the bad one.
    obtain ⟨c', buf', hd, hbad⟩ := ih (c := c.storeField line key value) hs rfl rfl rfl
    exact ⟨c', buf', .advance ((lineStep_iff _ _ _).mpr (.header hs hline hfit)) hd, hbad⟩
  | @blank _ _ rest hr hfit ht _ =>
    subst hl hm hb
    -- The empty line is refused and taken away; the bad line is still ahead.
    have hend : endOfHeaders c.countBlank = (false, (endOfHeaders c.countBlank).2) := by
      refine Prod.ext ?_ rfl
      rw [← Bool.not_eq_true, endOfHeaders_true_iff_accepted]
      exact hr
    obtain ⟨hs', hl', hr', hb'⟩ := endOfHeaders_false hend
    have hst : (endOfHeaders c.countBlank).2.state = .kExpectHeaders := hs'.trans hs
    refine ⟨_, rest, .fail ((lineStep_iff _ _ _).mpr (.lengthRefused hs hfit hend)), ?_, ?_⟩
    · simp [gotAll, hst]
    · rw [badLineAhead_headers hst, hl', hr', hb']
      exact ht

theorem drives_of_badLineAhead {c : HttpContext} {buf : Bytes} (h : BadLineAhead c buf) :
    ∃ c' buf', Drives lineStep c buf (.failed (c', buf')) ∧ c'.gotAll = false ∧
      BadLineAhead c' buf' := by
  cases hs : c.state with
  | kExpectRequestLine =>
    simp only [BadLineAhead, hs] at h
    rcases h with h | ⟨line, rest, rfl, hn, hok, hfit, h⟩
    · -- The request line stays in the buffer, and so does the state.
      have hstay (e : ParseError) (hstep : lineStep c buf = .fail ({ c with error := e }, buf)) :
          ∃ c' buf', Drives lineStep c buf (.failed (c', buf')) ∧ c'.gotAll = false ∧
            BadLineAhead c' buf' := by
        refine ⟨_, _, .fail hstep, by simp [gotAll, hs], ?_⟩
        simp only [BadLineAhead, hs]
        exact .inl h
      rcases h with ⟨hn, hbig⟩ | ⟨line, rest, rfl, hn, hbad⟩
      · exact hstay _ ((lineStep_iff _ _ _).mpr (.requestLineUnfinished hs hn hbig))
      · by_cases hbig : c.limits.maxRequestLineBytes < line.length+2
        · exact hstay _ ((lineStep_iff _ _ _).mpr (.requestLineLong hs hn hbig))
        · have hbad' := (processRequestLine_spec c.request line).1.not.mpr (hbad.resolve_left hbig)
          rw [Option.not_isSome_iff_eq_none] at hbad'
          exact hstay _ ((lineStep_iff _ _ _).mpr
            (.requestLineBad hs hn (Nat.not_lt.mp hbig) hbad'))
    · have hspec := processRequestLine_spec c.request line
      obtain ⟨request, hr⟩ := Option.isSome_iff_exists.mp (hspec.1.mpr hok)
      have hstep : lineStep c (line++(crlf++rest)) =
          .advance { c with request := request, state := .kExpectHeaders } rest :=
        (lineStep_iff _ _ _).mpr (.requestLine hs hn hfit hr)
      obtain ⟨c', buf', hd, hbad⟩ := drives_of_badHeaderAhead h
        (c := { c with request := request, state := .kExpectHeaders }) rfl rfl
        (hspec.2 _ hr).1 rfl
      exact ⟨c', buf', .advance hstep hd, hbad⟩
  | kExpectHeaders =>
    rw [badLineAhead_headers hs] at h
    exact drives_of_badHeaderAhead h hs rfl rfl rfl
  | kExpectBody =>
    simp only [BadLineAhead, hs] at h
  | kGotCompleteRequest =>
    simp only [BadLineAhead, hs] at h

theorem not_drives_body_failed {c : HttpContext} {buf : Bytes} {e : HttpContext × Bytes}
    (hs : c.state = .kExpectBody ∨ c.state = .kGotCompleteRequest) :
    ¬Drives lineStep c buf (.failed e) := by
  intro h
  generalize hv : Incremental.Verdict.failed e = v at h
  induction h with
  | wait h => contradiction
  | done h => contradiction
  | fail h => cases (lineStep_iff _ _ _).mp h <;> simp_all
  | advance h _ ih =>
    cases (lineStep_iff _ _ _).mp h with
    | requestLine hs' => rw [hs'] at hs; simp at hs
    | header hs' => rw [hs'] at hs; simp at hs
    | headersEnd hs' => rw [hs'] at hs; simp at hs
    | body hs' => exact ih (.inr rfl) hv

/-- A failure in the header section either met a bad line, or was the refusal of an
empty line; a bad line ahead of what is then left was ahead from the start. -/
theorem drives_headers_failed {c c' : HttpContext} {buf buf' : Bytes}
    (h : Drives lineStep c buf (.failed (c', buf'))) (hs : c.state = .kExpectHeaders) :
    BadHeaderAhead c.limits c.request.headers c.headerBytes buf ∨
      (buf'.length < buf.length ∧
        (BadLineAhead c' buf' → BadHeaderAhead c.limits c.request.headers c.headerBytes buf)) := by
  generalize hv : Incremental.Verdict.failed (c', buf') = v at h
  induction h with
  | wait h => contradiction
  | done h => contradiction
  | @fail c buf e h =>
    injection hv with he
    subst he
    cases (lineStep_iff _ _ _).mp h with
    | requestLineUnfinished hs' => rw [hs] at hs'; contradiction
    | requestLineLong hs' => rw [hs] at hs'; contradiction
    | requestLineBad hs' => rw [hs] at hs'; contradiction
    | headersUnfinished _ hn hbig => exact .inl (.here (.inl ⟨hn, hbig⟩))
    | headerLong _ hn hbig => exact .inl (.here (.inr ⟨_, _, rfl, hn, .inl hbig⟩))
    | headerNoColon _ hn hne _ hbad =>
      refine .inl (.here (.inr ⟨_, _, rfl, hn, .inr ⟨hne, ?_⟩⟩))
      intro hst
      obtain ⟨key, value, hl⟩ := hst
      rw [hl.field] at hbad
      contradiction
    | headerRefused _ hn hne _ hf hbad =>
      refine .inl (.here (.inr ⟨_, _, rfl, hn, .inr ⟨hne, ?_⟩⟩))
      intro hst
      obtain ⟨key, value, hl⟩ := hst
      have he := hl.field
      rw [hf] at he
      obtain ⟨rfl, rfl⟩ := Prod.mk.inj (Option.some.inj he)
      exact hl.notRefused hbad
    | lengthRefused _ hfit hend =>
      obtain ⟨hs', hl', hr', hb'⟩ := endOfHeaders_false hend
      refine .inr ⟨length_lt_line [] buf', ?_⟩
      rw [badLineAhead_headers (hs'.trans hs), hl', hr', hb']
      refine BadHeaderAhead.blank ?_ hfit
      intro hok
      rw [← endOfHeaders_true_iff_accepted c.countBlank, hend] at hok
      contradiction
  | @advance c c₁ buf rest v h ht ih =>
    cases (lineStep_iff _ _ _).mp h with
    | requestLine hs' => rw [hs] at hs'; contradiction
    | body hs' => rw [hs] at hs'; contradiction
    | header _ hl hfit =>
      rcases ih hs hv with hbad | ⟨hlen, hbad⟩
      · exact .inl (.header hl hfit hbad)
      · refine .inr ⟨?_, ?_⟩
        · simp only [List.length_append]
          omega
        · intro hb
          exact .header hl hfit (hbad hb)
    | headersEnd _ hfit hend =>
      -- Behind an accepted header section nothing fails.
      subst hv
      obtain ⟨-, hstate⟩ | ⟨hno, -⟩ := hend ▸ endOfHeaders_spec c.countBlank
      · exact absurd ht (not_drives_body_failed hstate)
      · contradiction

theorem drives_failed {c c' : HttpContext} {buf buf' : Bytes}
    (h : Drives lineStep c buf (.failed (c', buf'))) :
    BadLineAhead c buf ∨
      (buf'.length < buf.length ∧ (BadLineAhead c' buf' → BadLineAhead c buf)) := by
  cases hs : c.state with
  | kExpectHeaders =>
    rw [badLineAhead_headers hs]
    exact drives_headers_failed h hs
  | kExpectBody => exact absurd h (not_drives_body_failed (.inl hs))
  | kGotCompleteRequest => exact absurd h (not_drives_body_failed (.inr hs))
  | kExpectRequestLine =>
    simp only [BadLineAhead, hs]
    cases h with
    | fail h =>
      refine .inl (.inl ?_)
      cases (lineStep_iff _ _ _).mp h with
      | requestLineUnfinished _ hn hbig => exact .inl ⟨hn, hbig⟩
      | requestLineLong _ hn hbig => exact .inr ⟨_, _, rfl, hn, .inl hbig⟩
      | @requestLineBad line _ _ hn _ hbad =>
        refine .inr ⟨_, _, rfl, hn, .inr ?_⟩
        rw [← (processRequestLine_spec c.request line).1, hbad]
        simp
      | headersUnfinished hs' => rw [hs] at hs'; contradiction
      | headerLong hs' => rw [hs] at hs'; contradiction
      | headerNoColon hs' => rw [hs] at hs'; contradiction
      | headerRefused hs' => rw [hs] at hs'; contradiction
      | lengthRefused hs' => rw [hs] at hs'; contradiction
    | advance h ht =>
      cases (lineStep_iff _ _ _).mp h with
      | header hs' => rw [hs] at hs'; contradiction
      | headersEnd hs' => rw [hs] at hs'; contradiction
      | body hs' => rw [hs] at hs'; contradiction
      | @requestLine line _ request _ hn hfit hr =>
        have hspec := processRequestLine_spec c.request line
        have hok := hspec.1.mp (by rw [hr]; rfl)
        have hfrom := drives_headers_failed ht rfl
        simp only [(hspec.2 _ hr).1] at hfrom
        rcases hfrom with hbad | ⟨hlen, hbad⟩
        · exact .inl (.inr ⟨line, _, rfl, hn, hok, hfit, hbad⟩)
        · refine .inr ⟨?_, ?_⟩
          · simp only [List.length_append]
            omega
          · intro hb
            exact .inr ⟨line, _, rfl, hn, hok, hfit, hbad hb⟩

/-- Chunks are appended one after another, with a call of `parseRequest` after each;
every call answers `false` and leaves the request incomplete. -/
def RejectsAll : HttpContext → Bytes → List (Bytes × Timestamp) → Prop
  | _, _, [] => True
  | c, buf, (chunk, receiveTime) :: calls =>
    ∃ c' buf', (∃ fuel, parseRequest fuel c (buf++chunk) receiveTime = some (false, c', buf')) ∧
      c'.gotAll = false ∧ RejectsAll c' buf' calls

theorem parseRequest_false_iff (c c' : HttpContext) (buf buf' : Bytes) (receiveTime : Timestamp) :
    (∃ fuel, parseRequest fuel c buf receiveTime = some (false, c', buf')) ↔
      Drives lineStep (c.stamp receiveTime) buf (.failed (c', buf')) := by
  rw [parseRequest_iff, ← run_eq_iff]
  cases run (c.stamp receiveTime) buf with
  | waiting c₁ buf₁ => simp [Answers]
  | completed c₁ buf₁ => simp [Answers]
  | failed e => simp [Answers, Prod.ext_iff, eq_comm]

/-- A call made with a bad line ahead fails and leaves a bad line ahead. -/
theorem parseRequest_of_badLineAhead {c : HttpContext} {buf : Bytes} (h : BadLineAhead c buf)
    (receiveTime : Timestamp) :
    ∃ c' buf', (∃ fuel, parseRequest fuel c buf receiveTime = some (false, c', buf')) ∧
      c'.gotAll = false ∧ BadLineAhead c' buf' := by
  rw [← badLineAhead_stamp c receiveTime] at h
  -- The receive time plays no part in where the parser fails.
  obtain ⟨c', buf', hd, hbad⟩ := drives_of_badLineAhead h
  exact ⟨c', buf', (parseRequest_false_iff _ _ _ _ _).mpr hd, hbad⟩

theorem rejectsAll_of_badLineAhead {c : HttpContext} {buf : Bytes} (h : BadLineAhead c buf)
    (calls : List (Bytes × Timestamp)) : RejectsAll c buf calls := by
  induction calls generalizing c buf with
  | nil => trivial
  | cons call calls ih =>
    obtain ⟨c', buf', hr, hall, hbad⟩ := parseRequest_of_badLineAhead (h.append call.1) call.2
    exact ⟨c', buf', hr, hall, ih hbad⟩

/-- If calls without any new bytes keep failing, there is a bad line in the buffer:
all other failures take bytes away. -/
theorem badLineAhead_of_rejectsAll {c : HttpContext} {buf : Bytes}
    (h : ∀ calls, RejectsAll c buf calls) : BadLineAhead c buf := by
  -- By induction on the length of the buffer: a rejection that met no bad line has taken bytes.
  generalize hn : buf.length = n
  induction n using Nat.strong_induction_on generalizing c buf with
  | _ n ih =>
    obtain ⟨c', buf', hr, -, -⟩ := h [([], 0)]
    rw [List.append_nil, parseRequest_false_iff] at hr
    rw [← badLineAhead_stamp c 0]
    rcases drives_failed hr with hbad | ⟨hlen, hbad⟩
    · exact hbad
    · apply hbad
      refine ih buf'.length (by omega) ?_ rfl
      intro calls
      obtain ⟨c₁, buf₁, hr₁, -, hcalls⟩ := h (([], 0) :: calls)
      rw [List.append_nil, parseRequest_false_iff] at hr₁
      -- The first of these calls is the one made above.
      have he := Incremental.drives_unique hr hr₁
      simp only [Incremental.Verdict.failed.injEq, Prod.mk.injEq] at he
      obtain ⟨rfl, rfl⟩ := he
      exact hcalls

/-- After a rejection all later calls reject, whatever bytes come, exactly when the
buffer of the first call held a line that is rejected where it stands. -/
theorem rejection_absorbs_iff_badLineAhead {c c' : HttpContext} {buf buf' : Bytes} {fuel : ℕ}
    {receiveTime : Timestamp}
    (h : parseRequest fuel c buf receiveTime = some (false, c', buf')) :
    (c'.gotAll = false ∧ ∀ calls, RejectsAll c' buf' calls) ↔ BadLineAhead c buf := by
  have hd := (parseRequest_false_iff _ _ _ _ _).mp ⟨fuel, h⟩
  rw [← badLineAhead_stamp c receiveTime]
  constructor
  -- A bad line ahead of what is left was ahead from the start.
  · intro hall
    obtain ⟨-, hcalls⟩ := hall
    have hbad' := badLineAhead_of_rejectsAll hcalls
    rcases drives_failed hd with hbad | ⟨-, hback⟩
    · exact hbad
    · exact hback hbad'
  · intro hbad
    obtain ⟨c₁, buf₁, hd₁, hall, hbad₁⟩ := drives_of_badLineAhead hbad
    have he := Incremental.drives_unique hd hd₁
    simp only [Incremental.Verdict.failed.injEq, Prod.mk.injEq] at he
    obtain ⟨rfl, rfl⟩ := he
    exact ⟨hall, rejectsAll_of_badLineAhead hbad₁⟩

/-- A header line without a colon is rejected, for good. -/
theorem rejection_absorbs_missing_colon :
    ∃ c' buf', parseRequest 4 (new {}) (ascii "GET / HTTP/1.1\r\nHost\r\n") 0 =
        some (false, c', buf') ∧
      ((c'.gotAll = false ∧ ∀ calls, RejectsAll c' buf' calls) ↔
        BadLineAhead (new {}) (ascii "GET / HTTP/1.1\r\nHost\r\n")) := by
  let r := (parseRequest 4 (new {}) (ascii "GET / HTTP/1.1\r\nHost\r\n") 0).get (by decide)
  have hr : parseRequest 4 (new {}) (ascii "GET / HTTP/1.1\r\nHost\r\n") 0 =
      some (false, r.2.1, r.2.2) := by decide
  exact ⟨r.2.1, r.2.2, hr, rejection_absorbs_iff_badLineAhead hr⟩

/-- A length that is no number is rejected at the empty line; a second header section
with a good length then completes the rejected request. -/
theorem rejected_length_completed :
    ∃ c' buf' c'' buf'',
      parseRequest 4 (new {}) (ascii "POST / HTTP/1.1\r\nContent-Length: x\r\n\r\n") 0 =
        some (false, c', buf') ∧
      parseRequest 4 c' (buf'++ascii "Content-Length: 0\r\n\r\n") 0 =
        some (true, c'', buf'') ∧ c''.gotAll = true := by
  let r := (parseRequest 4 (new {})
    (ascii "POST / HTTP/1.1\r\nContent-Length: x\r\n\r\n") 0).get (by decide)
  let q := (parseRequest 4 r.2.1 (r.2.2++ascii "Content-Length: 0\r\n\r\n") 0).get
    (by decide)
  exact ⟨r.2.1, r.2.2, q.2.1, q.2.2, by decide, by decide, by decide⟩

end HttpContext

end JingjieAR
