import JingjieAR.HttpContextText

/-! When `parseRequest` returns. Waiting for a request line leaves the loop; waiting
for a header line or for the body does not, and the loop goes round forever. -/
namespace JingjieAR.HttpContext

open Incremental (Drives Advances)

/-- The header map asks for a body of `n` bytes that the limits allow. -/
def AnnouncesBody (headers : StringMap) (limits : HttpLimits) (n : ℕ) : Prop :=
  NoTransferCoding headers ∧
    ∃ text, headers.lookup (ascii "content-length") = some text ∧ LengthOk limits text n

/-- The buffer is a header section cut off before its empty line. -/
def StopsInHeaders (c : HttpContext) (buf : Bytes) : Prop :=
  ∃ lines tail, buf = wireLines lines++tail ∧ (∀ line ∈ lines, Storable line) ∧
    findCRLF tail = none ∧ c.headerBytes+buf.length ≤ c.limits.maxHeaderBytes

/-- The buffer is a whole header section with less body than it announces. -/
def StopsInBody (c : HttpContext) (buf : Bytes) : Prop :=
  ∃ lines body n, buf = wireLines lines++(crlf++body) ∧ (∀ line ∈ lines, Storable line) ∧
    c.headerBytes+(wireLines lines).length+2 ≤ c.limits.maxHeaderBytes ∧
    AnnouncesBody (JingjieAR.storeLines c.request.headers lines) c.limits n ∧ body.length < n

/-- The bytes at hand stop inside the header section or inside the body. -/
def Starved (c : HttpContext) (buf : Bytes) : Prop :=
  match c.state with
  | .kExpectRequestLine =>
    ∃ line rest, buf = line++(crlf++rest) ∧ findCRLF line = none ∧ RequestLineOk line ∧
      line.length+2 ≤ c.limits.maxRequestLineBytes ∧ (StopsInHeaders c rest ∨ StopsInBody c rest)
  | .kExpectHeaders => StopsInHeaders c buf ∨ StopsInBody c buf
  | .kExpectBody => buf.length < c.contentLength
  | .kGotCompleteRequest => False

section Waiting

variable {c c' : HttpContext} {buf buf' : Bytes}

theorem StopsInHeaders.cons {line key value rest : Bytes} (hl : StoredLine line key value)
    (h : StopsInHeaders (c.storeField line key value) rest) :
    StopsInHeaders c (line++(crlf++rest)) := by
  obtain ⟨lines, tail, rfl, hlines, hn, hfit⟩ := h
  refine ⟨line :: lines, tail, by simp, ?_, hn, ?_⟩
  · exact List.forall_mem_cons.mpr ⟨⟨key, value, hl⟩, hlines⟩
  · simp [storeField, crlf] at hfit ⊢
    omega

theorem StopsInBody.cons {line key value rest : Bytes} (hl : StoredLine line key value)
    (h : StopsInBody (c.storeField line key value) rest) : StopsInBody c (line++(crlf++rest)) := by
  obtain ⟨lines, body, n, rfl, hlines, hfit, hbody, hshort⟩ := h
  refine ⟨line :: lines, body, n, by simp, ?_, ?_, ?_, hshort⟩
  · exact List.forall_mem_cons.mpr ⟨⟨key, value, hl⟩, hlines⟩
  · simp [storeField, crlf] at hfit ⊢
    omega
  · have hmap := congrArg (fun c => c.request.headers) (storeField_storeLines hl c lines)
    simp only [storeLines_headers] at hmap
    rw [hmap] at hbody
    exact hbody

/-- The body is the last thing the parser waits for. -/
theorem drives_body_waiting (h : Drives lineStep c buf (.waiting c' buf'))
    (hs : c.state = .kExpectBody ∨ c.state = .kGotCompleteRequest) :
    c.state = .kExpectBody ∧ c' = c ∧ buf' = buf ∧ buf.length < c.contentLength := by
  generalize hv : Incremental.Verdict.waiting c' buf' = v at h
  induction h with
  | wait h =>
    injection hv with hc hb
    cases (lineStep_iff _ _ _).mp h with
    | requestLineWait hs' => rw [hs'] at hs; simp at hs
    | headersWait hs' => rw [hs'] at hs; simp at hs
    | bodyWait hs' hshort => exact ⟨hs', hc, hb, hshort⟩
  | done h => contradiction
  | fail h => contradiction
  | advance h _ ih =>
    -- A body that is all there completes the request, and then nothing is waited for.
    cases (lineStep_iff _ _ _).mp h with
    | requestLine hs' => rw [hs'] at hs; simp at hs
    | header hs' => rw [hs'] at hs; simp at hs
    | headersEnd hs' => rw [hs'] at hs; simp at hs
    | body hs' => exact absurd (ih (.inr rfl) hv).1 (by simp [takeBody])

theorem drives_headers_waiting (h : Drives lineStep c buf (.waiting c' buf'))
    (hs : c.state = .kExpectHeaders) : StopsInHeaders c buf ∨ StopsInBody c buf := by
  generalize hv : Incremental.Verdict.waiting c' buf' = v at h
  induction h with
  | @wait c buf h =>
    cases (lineStep_iff _ _ _).mp h with
    | requestLineWait hs' => rw [hs] at hs'; contradiction
    | bodyWait hs' => rw [hs] at hs'; contradiction
    | headersWait _ hn hfit => exact .inl ⟨[], buf, rfl, by simp, hn, hfit⟩
  | done h => contradiction
  | fail h => contradiction
  | @advance c c₁ buf rest v h ht ih =>
    cases (lineStep_iff _ _ _).mp h with
    | requestLine hs' => rw [hs] at hs'; contradiction
    | body hs' => rw [hs] at hs'; contradiction
    -- The stored line goes in front of the text found behind it.
    | header _ hl => exact (ih hs hv).imp (.cons hl) (.cons hl)
    | headersEnd _ hfit hend =>
      subst hv
      obtain ⟨hte, hnone | ⟨text, n, htext, hok, hc⟩⟩ := (endOfHeaders_true_iff _ _).mp hend
      -- Without a length the request is complete here.
      · exact absurd (drives_body_waiting ht (.inr (by rw [hnone.2]))).1 (by rw [hnone.2]; simp)
      · have hstate : c₁.state = .kExpectBody ∨ c₁.state = .kGotCompleteRequest := by
          rw [hc]
          by_cases hn : n = 0 <;> simp [hn]
        obtain ⟨-, -, -, hshort⟩ := drives_body_waiting ht hstate
        rw [hc] at hshort
        exact .inr ⟨[], rest, n, by simp, by simp, hfit, ⟨hte, text, htext, hok⟩, hshort⟩

theorem drives_of_stopsInHeaders (h : StopsInHeaders c buf) (hs : c.state = .kExpectHeaders) :
    ∃ c' buf', Drives lineStep c buf (.waiting c' buf') ∧ c'.state = .kExpectHeaders := by
  obtain ⟨lines, tail, rfl, hlines, hn, hfit⟩ := h
  rw [List.length_append] at hfit
  -- The parser gets over the stored lines and stops in the unfinished one.
  have hadv := advances_storeLines hs lines hlines (by omega) tail
  refine ⟨c.storeLines lines, tail, (Incremental.drives_advances_iff hadv).mpr (.wait ?_), hs⟩
  exact (lineStep_iff _ _ _).mpr (.headersWait hs hn (by simp; omega))

theorem drives_of_stopsInBody (h : StopsInBody c buf) (hs : c.state = .kExpectHeaders) :
    ∃ c' buf', Drives lineStep c buf (.waiting c' buf') ∧ c'.state = .kExpectBody := by
  obtain ⟨lines, body, n, rfl, hlines, hfit, ⟨hte, text, htext, hok⟩, hshort⟩ := h
  -- Over the stored lines, over the empty line, and into the body.
  have hadv := advances_storeLines hs lines hlines (by omega) (crlf++body)
  let c₁ : HttpContext :=
    { (c.storeLines lines).countBlank with contentLength := n, state := .kExpectBody }
  have hend : endOfHeaders (c.storeLines lines).countBlank = (true, c₁) := by
    refine (endOfHeaders_true_iff _ _).mpr ⟨hte, .inr ⟨text, n, htext, hok, ?_⟩⟩
    simp [c₁, show n ≠ 0 by omega]
  have hstep : lineStep (c.storeLines lines) (crlf++body) = .advance c₁ body :=
    (lineStep_iff _ _ _).mpr (.headersEnd hs (by simpa using hfit) hend)
  have hwait : lineStep c₁ body = .wait := (lineStep_iff _ _ _).mpr (.bodyWait rfl hshort)
  exact ⟨c₁, body, (Incremental.drives_advances_iff hadv).mpr (.advance hstep (.wait hwait)), rfl⟩

end Waiting

/-- Only the header map, its size and the limits decide where a header section stops. -/
theorem stopsInBody_congr (c c₁ : HttpContext) (hm : c₁.request.headers = c.request.headers)
    (hb : c₁.headerBytes = c.headerBytes) (hl : c₁.limits = c.limits) (buf : Bytes) :
    StopsInBody c₁ buf ↔ StopsInBody c buf := by
  unfold StopsInBody
  rw [hm, hb, hl]

/-- Starvation is waiting in the header section or in the body. -/
theorem starved_iff_drives (c : HttpContext) (buf : Bytes) :
    Starved c buf ↔ ∃ c' buf', Drives lineStep c buf (.waiting c' buf') ∧
      c'.state ≠ .kExpectRequestLine := by
  cases hs : c.state with
  | kExpectRequestLine =>
    simp only [Starved, hs]
    constructor
    · intro hstarved
      obtain ⟨line, rest, rfl, hn, hok, hfit, hstop⟩ := hstarved
      have hspec := processRequestLine_spec c.request line
      obtain ⟨request, hr⟩ := Option.isSome_iff_exists.mp (hspec.1.mpr hok)
      let c₁ : HttpContext := { c with request := request, state := .kExpectHeaders }
      have hstep : lineStep c (line++(crlf++rest)) = .advance c₁ rest :=
        (lineStep_iff _ _ _).mpr (.requestLine hs hn hfit hr)
      rcases hstop with hstop | hstop
      · have hc₁ : StopsInHeaders c₁ rest := hstop
        obtain ⟨c', buf', hd, hst⟩ := drives_of_stopsInHeaders hc₁ rfl
        exact ⟨c', buf', .advance hstep hd, by simp [hst]⟩
      -- A request line leaves the header map alone, so the announced length is the same.
      · have hc₁ := (stopsInBody_congr c c₁ (hspec.2 _ hr).1 rfl rfl rest).mpr hstop
        obtain ⟨c', buf', hd, hst⟩ := drives_of_stopsInBody hc₁ rfl
        exact ⟨c', buf', .advance hstep hd, by simp [hst]⟩
    · intro hwaits
      obtain ⟨c', buf', hd, hne⟩ := hwaits
      cases hd with
      | wait h => exact absurd hs hne
      | advance h ht =>
        cases (lineStep_iff _ _ _).mp h with
        | @requestLine line rest request _ hn hfit hr =>
          have hspec := processRequestLine_spec c.request line
          have hok := hspec.1.mp (by rw [hr]; rfl)
          refine ⟨line, _, rfl, hn, hok, hfit, ?_⟩
          rcases drives_headers_waiting ht rfl with hstop | hstop
          · exact .inl hstop
          · exact .inr ((stopsInBody_congr c { c with request := request, state := .kExpectHeaders }
              (hspec.2 _ hr).1 rfl rfl _).mp hstop)
        | header hs' => rw [hs] at hs'; contradiction
        | headersEnd hs' => rw [hs] at hs'; contradiction
        | body hs' => rw [hs] at hs'; contradiction
  | kExpectHeaders =>
    simp only [Starved, hs]
    constructor
    · intro hstops
      rcases hstops with hstop | hstop
      · obtain ⟨c', buf', hd, hst⟩ := drives_of_stopsInHeaders hstop hs
        exact ⟨c', buf', hd, by simp [hst]⟩
      · obtain ⟨c', buf', hd, hst⟩ := drives_of_stopsInBody hstop hs
        exact ⟨c', buf', hd, by simp [hst]⟩
    · intro hwaits
      obtain ⟨c', buf', hd, -⟩ := hwaits
      exact drives_headers_waiting hd hs
  | kExpectBody =>
    simp only [Starved, hs]
    constructor
    · intro hshort
      exact ⟨c, buf, .wait ((lineStep_iff _ _ _).mpr (.bodyWait hs hshort)), by simp [hs]⟩
    · intro hwaits
      obtain ⟨c', buf', hd, -⟩ := hwaits
      exact (drives_body_waiting hd (.inl hs)).2.2.2
  | kGotCompleteRequest =>
    simp only [Starved, hs, false_iff]
    intro hwaits
    obtain ⟨c', buf', hd, -⟩ := hwaits
    exact absurd (drives_body_waiting hd (.inr hs)).1 (by simp [hs])

theorem returns_iff_not_starved (c : HttpContext) (buf : Bytes) :
    (∃ r, Loop.Returns loopBody (c, buf) r) ↔ ¬Starved c buf := by
  simp only [loopBody_returns_iff, starved_iff_drives, ← run_eq_iff]
  cases run c buf with
  | waiting c' buf' => simp [Answers]
  | completed c' buf' => simp [Answers]
  | failed e => simp [Answers]

/-- The round advances the state or takes bytes from the buffer. -/
def Progresses (s s' : HttpContext × Bytes) : Prop :=
  stagesLeft s'.1.state < stagesLeft s.1.state ∨ s'.2.length < s.2.length

theorem progresses_of_ne {s s' : HttpContext × Bytes} (h : loopBody s = .next s')
    (hne : s' ≠ s) : Progresses s s' := by
  obtain ⟨c, buf⟩ := s
  have hlt := (advances_workLeft (loopBody_next h).1).resolve_left hne
  unfold workLeft at hlt
  unfold Progresses
  omega

/-- A loop of the parser that does not return comes to a round without progress. -/
theorem exists_stutter {s : HttpContext × Bytes} {v : Outcome} (h : Loop.Returns runRound s v)
    (hno : ¬∃ r, Loop.Returns loopBody s r) :
    ∃ s', Loop.Reaches loopBody s s' ∧ loopBody s' = .next s' := by
  induction h with
  | @ret s v hr =>
    cases hb : loopBody s with
    | ret r => exact absurd ⟨r, .ret hb⟩ hno
    | next s' =>
      refine ⟨s, .refl, ?_⟩
      by_cases he : s' = s
      -- `run` stops at a round that changes nothing; the source goes round again.
      · rw [hb, he]
      · simp [runRound, hb, he] at hr
  | @next s s' v hr _ ih =>
    have hb : loopBody s = .next s' := by
      simp only [runRound] at hr
      split at hr
      · contradiction
      · contradiction
      · rename_i s₁ hb
        split_ifs at hr
        injection hr with he
        rw [hb, he]
    have hno' : ¬∃ r, Loop.Returns loopBody s' r := by
      rintro ⟨r, hr'⟩
      exact hno ⟨r, .next hb hr'⟩
    obtain ⟨s₁, hreach, hst⟩ := ih hno'
    exact ⟨s₁, .head hb hreach, hst⟩

theorem returns_iff_progresses (c : HttpContext) (buf : Bytes) :
    (∃ r, Loop.Returns loopBody (c, buf) r) ↔
      ∀ s s', Loop.Reaches loopBody (c, buf) s → loopBody s = .next s' → Progresses s s' := by
  constructor
  · intro hreturns s s' hreach hb
    obtain ⟨r, hr⟩ := hreturns
    apply progresses_of_ne hb
    -- A round that changed nothing would be repeated forever.
    intro hsame
    subst hsame
    apply Loop.not_returns_of_stutter hb r
    exact (Loop.returns_reaches_iff hreach).mp hr
  · intro hp
    by_contra hno
    obtain ⟨s, hreach, hb⟩ :=
      exists_stutter (Loop.returns_value runRound_decreases (c, buf)) hno
    have hps := hp s s hreach hb
    unfold Progresses at hps
    omega

theorem starved_stamp (c : HttpContext) (receiveTime : Timestamp) (buf : Bytes) :
    Starved (c.stamp receiveTime) buf ↔ Starved c buf := by
  unfold stamp
  split_ifs with hs
  · simp only [Starved, hs]
    rfl
  · rfl

theorem parseRequest_iff (c : HttpContext) (buf : Bytes) (receiveTime : Timestamp)
    (r : Bool × HttpContext × Bytes) :
    (∃ fuel, parseRequest fuel c buf receiveTime = some r) ↔
      Answers (run (c.stamp receiveTime) buf) r := by
  rw [← loopBody_returns_iff]
  exact Loop.returns_iff_iterate.symm

inductive ContextOp
  | append (bytes : Bytes)
  | parse (receiveTime : Timestamp)
  | reset

/-- Every call of `parseRequest` in the sequence of operations returns. -/
def CallsReturn : HttpContext → Bytes → List ContextOp → Prop
  | _, _, [] => True
  | c, buf, .append bytes :: ops => CallsReturn c (buf++bytes) ops
  | c, buf, .reset :: ops => CallsReturn c.reset buf ops
  | c, buf, .parse receiveTime :: ops =>
    ∃ ok c' buf', (∃ fuel, parseRequest fuel c buf receiveTime = some (ok, c', buf')) ∧
      CallsReturn c' buf' ops

/-- No call of `parseRequest` in the sequence is made on a starved parser. -/
def CallsNotStarved : HttpContext → Bytes → List ContextOp → Prop
  | _, _, [] => True
  | c, buf, .append bytes :: ops => CallsNotStarved c (buf++bytes) ops
  | c, buf, .reset :: ops => CallsNotStarved c.reset buf ops
  | c, buf, .parse receiveTime :: ops =>
    ¬Starved c buf ∧ ∀ ok c' buf', (∃ fuel, parseRequest fuel c buf receiveTime =
      some (ok, c', buf')) → CallsNotStarved c' buf' ops

theorem exists_parseRequest_iff (c : HttpContext) (buf : Bytes) (receiveTime : Timestamp) :
    (∃ r fuel, parseRequest fuel c buf receiveTime = some r) ↔ ¬Starved c buf := by
  rw [← starved_stamp c receiveTime, ← returns_iff_not_starved]
  simp only [parseRequest_iff, loopBody_returns_iff]

theorem answers_unique {v : Outcome} {r r' : Bool × HttpContext × Bytes}
    (h : Answers v r) (h' : Answers v r') : r = r' := by
  cases v with
  | waiting c buf => exact h.2.trans h'.2.symm
  | completed c buf => exact h.trans h'.symm
  | failed e => exact h.trans h'.symm

theorem callsReturn_iff (c : HttpContext) (buf : Bytes) (ops : List ContextOp) :
    CallsReturn c buf ops ↔ CallsNotStarved c buf ops := by
  induction ops generalizing c buf with
  | nil => rfl
  | cons op ops ih =>
    cases op with
    | append bytes => exact ih c (buf++bytes)
    | reset => exact ih c.reset buf
    | parse receiveTime =>
      simp only [CallsReturn, CallsNotStarved, ← exists_parseRequest_iff c buf receiveTime]
      constructor
      · intro hcalls
        obtain ⟨ok, c', buf', hr, hops⟩ := hcalls
        refine ⟨⟨_, hr⟩, ?_⟩
        intro ok₁ c₁ buf₁ hr₁
        -- The parser is deterministic: both calls gave the same answer.
        have he := answers_unique ((parseRequest_iff _ _ _ _).mp hr)
          ((parseRequest_iff _ _ _ _).mp hr₁)
        simp only [Prod.mk.injEq] at he
        obtain ⟨-, rfl, rfl⟩ := he
        exact (ih c' buf').mp hops
      · intro hcalls
        obtain ⟨⟨⟨ok, c', buf'⟩, hr⟩, hops⟩ := hcalls
        exact ⟨ok, c', buf', hr, (ih c' buf').mpr (hops ok c' buf' hr)⟩

/-- `parseRequest` returns, with progress in every round of its loop, exactly when
the bytes at hand do not stop inside the header section or the body; and so do all
its calls in a sequence of appends, calls and resets. -/
theorem parseRequest_returns_iff_not_starved (c : HttpContext) (buf : Bytes)
    (receiveTime : Timestamp) (limits : HttpLimits) (ops : List ContextOp) :
    (((∃ r fuel, parseRequest fuel c buf receiveTime = some r) ∧
        ∀ s s', Loop.Reaches loopBody (c.stamp receiveTime, buf) s → loopBody s = .next s' →
          Progresses s s') ↔ ¬Starved c buf) ∧
      (CallsReturn (new limits) [] ops ↔ CallsNotStarved (new limits) [] ops) := by
  refine ⟨?_, callsReturn_iff (new limits) [] ops⟩
  have hreturns := returns_iff_not_starved (c.stamp receiveTime) buf
  rw [starved_stamp] at hreturns
  rw [← returns_iff_progresses, hreturns, exists_parseRequest_iff, and_self_iff]

/-- A request whose header section has not arrived in full: the call never returns. -/
theorem parseRequest_hangs_in_headers :
    ¬CallsReturn (new {}) [] [.append (ascii "GET / HTTP/1.1\r\nHost: a"), .parse 0] := by
  rw [callsReturn_iff]
  intro h
  apply h.1
  refine ⟨ascii "GET / HTTP/1.1", ascii "Host: a", by decide, by decide, by decide, by decide,
    .inl ⟨[], ascii "Host: a", by decide, by simp, by decide, by decide⟩⟩

end JingjieAR.HttpContext
