import JingjieAR.HttpContextChecked
import JingjieAR.HttpContextRoundTrip
import JingjieAR.TransitionRuns

/-! What the limits bound while a connection is read in chunks of any size: the bytes kept
unread, the header section, the body of a complete request. -/
namespace JingjieAR

open Loop (Iter)
open Runs (Run)
open Incremental (Advances)

/-- The stored value is a decimal number, and the body has this length; no value, no body. -/
def LengthAgrees (headers : StringMap) (body : Bytes) : Prop :=
  (headers.lookup (ascii "content-length") = none ∧ body = []) ∨
    ∃ text, headers.lookup (ascii "content-length") = some text ∧ Decimal text body.length

/-- The digits that the parser accepts denote the number it returns. -/
theorem decimalValue_of_parseDigits {text : Bytes} {start n : ℕ}
    (h : parseDigits text start = .kContentLengthOk n) :
    (∀ c ∈ text, isDigit c = true) ∧ decimalValue text start = n := by
  induction text generalizing start with
  | nil =>
    injection h with hn
    exact ⟨by simp, hn⟩
  | cons c rest ih =>
    rw [parseDigits] at h
    by_cases hdigit : isDigit c = true
    · simp only [hdigit, Bool.not_true, Bool.false_eq_true, ↓reduceIte] at h
      split_ifs at h
      obtain ⟨hrest, hvalue⟩ := ih h
      refine ⟨?_, hvalue⟩
      intro b hb
      rcases List.mem_cons.mp hb with rfl | hb
      · exact hdigit
      · exact hrest b hb
    · simp [hdigit] at h

theorem decimal_of_parseContentLength {text : Bytes} {n : ℕ}
    (h : parseContentLength text = .kContentLengthOk n) : Decimal text n := by
  rw [parseContentLength] at h
  split_ifs at h with hne
  obtain ⟨hdigits, hvalue⟩ := decimalValue_of_parseDigits h
  exact ⟨hne, hdigits, hvalue⟩

namespace HttpContext

/-- What happens to a context and its buffer: bytes arrive, `parseRequest` is entered, its
loop goes one round on, the context is reset for the next request. -/
inductive ReadingOp
  | receive (chunk : Bytes)
  | enter (receiveTime : Timestamp)
  | round
  | reset

/-- A buffer holds what a `size_t` can count. A round that returns leaves nothing new. -/
def read : HttpContext × Bytes → ReadingOp → Option (HttpContext × Bytes)
  | (c, buf), .receive chunk =>
    if (buf++chunk).length ≤ sizeMax then some (c, buf++chunk) else none
  | (c, buf), .enter receiveTime => some (c.stamp receiveTime, buf)
  | (c, buf), .round =>
    match loopBody (c, buf) with
    | .next s' => some s'
    | .ret _ => none
  | (c, buf), .reset => some (c.reset, buf)

def Reads (s : HttpContext × Bytes) (op : ReadingOp) (s' : HttpContext × Bytes) : Prop :=
  read s op = some s'

/-- The parser asks for more bytes: it returns for them, or goes round with nothing done. -/
def Waits (s : HttpContext × Bytes) : Prop :=
  (loopBody s = .ret (true, s) ∧ s.1.state ≠ .kGotCompleteRequest) ∨ loopBody s = .next s

theorem lineStep_of_waits {c : HttpContext} {buf : Bytes} (h : Waits (c, buf)) :
    lineStep c buf = .wait := by
  rcases h with ⟨h, hs⟩ | h
  · obtain ⟨-, -, ⟨-, hwait⟩ | hs'⟩ := loopBody_ret_true h
    · exact hwait
    · exact absurd hs' hs
  · exact ((loopBody_next h).2 rfl).1

/-- What is known of a context at the points where its loop starts another round. -/
structure Bounded (limits : HttpLimits) (s : HttpContext × Bytes) : Prop where
  limits_eq : s.1.limits = limits
  counted : s.2.length ≤ sizeMax
  headerBytes : s.1.headerBytes ≤ limits.maxHeaderBytes
  noBody : s.1.state ≠ .kGotCompleteRequest → s.1.request.body = []
  announced : s.1.state = .kExpectBody → s.1.contentLength ≤ limits.maxBodyBytes ∧
    ∃ text, s.1.request.headers.lookup (ascii "content-length") = some text ∧
      Decimal text s.1.contentLength
  complete : s.1.state = .kGotCompleteRequest →
    LengthAgrees s.1.request.headers s.1.request.body ∧
      s.1.request.body.length ≤ limits.maxBodyBytes

variable {limits : HttpLimits} {c c' : HttpContext} {buf buf' : Bytes}

theorem Bounded.new (limits : HttpLimits) : Bounded limits (new limits, []) := by
  constructor
  · rfl
  · exact Nat.zero_le _
  · exact Nat.zero_le _
  · intro _
    rfl
  · intro hs
    contradiction
  · intro hs
    contradiction

theorem Bounded.reset (h : Bounded limits (c, buf)) : Bounded limits (c.reset, buf) := by
  constructor
  · exact h.limits_eq
  · exact h.counted
  · exact Nat.zero_le _
  · intro _
    rfl
  · intro hs
    contradiction
  · intro hs
    contradiction

theorem Bounded.stamp (h : Bounded limits (c, buf)) (receiveTime : Timestamp) :
    Bounded limits (c.stamp receiveTime, buf) := by
  rw [HttpContext.stamp]
  split_ifs with hs
  · constructor
    · exact h.limits_eq
    · exact h.counted
    · exact h.headerBytes
    · exact h.noBody
    · exact h.announced
    · exact h.complete
  · exact h

/-- After the last header line: no body to come, or one of the declared length. -/
theorem Bounded.headersEnd (h : Bounded limits (c, crlf++buf)) (hs : c.state = .kExpectHeaders)
    (hfit : c.headerBytes+2 ≤ c.limits.maxHeaderBytes)
    (hend : endOfHeaders c.countBlank = (true, c')) : Bounded limits (c', buf) := by
  have hbody : c.request.body = [] := h.noBody (by simp [hs])
  have hcounted : buf.length ≤ sizeMax := by
    have hall := h.counted
    simp only [List.length_append] at hall
    omega
  have hlimits := h.limits_eq
  simp only at hlimits
  rw [hlimits] at hfit
  obtain ⟨-, ⟨hnone, rfl⟩ | ⟨text, n, hsome, ⟨hparse, hmax⟩, rfl⟩⟩ :=
    (endOfHeaders_true_iff _ _).mp hend
  · refine ⟨hlimits, hcounted, hfit, fun hne => absurd rfl hne, ?_, ?_⟩
    · intro hs'
      contradiction
    · intro _
      exact ⟨.inl ⟨hnone, hbody⟩, by simp [countBlank, hbody]⟩
  · have hdecimal := decimal_of_parseContentLength hparse
    have hmax' : n ≤ limits.maxBodyBytes := hlimits ▸ hmax
    refine ⟨hlimits, hcounted, hfit, fun _ => hbody, ?_, ?_⟩
    · intro _
      exact ⟨hmax', text, hsome, hdecimal⟩
    · intro hs'
      -- Complete at once: the declared length is zero.
      have hzero : n = 0 := by
        by_contra hne
        simp [hne] at hs'
      have hlength : c.request.body.length = n := by rw [hbody, hzero]; rfl
      refine ⟨.inr ⟨text, hsome, ?_⟩, ?_⟩
      · change Decimal text c.request.body.length
        rwa [hlength]
      · change c.request.body.length ≤ _
        rwa [hlength]

/-- One line, the end of the headers or the body is taken. -/
theorem Bounded.advance (h : Bounded limits (c, buf))
    (hm : lineStep c buf = .advance c' buf') : Bounded limits (c', buf') := by
  have hlimits : c.limits = limits := h.limits_eq
  have hcounted : buf.length ≤ sizeMax := h.counted
  rw [lineStep_iff] at hm
  cases hm with
  | @requestLine line rest request hs hn hfit hok =>
    have hrest : buf'.length ≤ sizeMax := (length_lt_line line buf').le.trans hcounted
    have hbody : request.body = [] := by
      rw [((processRequestLine_spec c.request line).2 request hok).2]
      exact h.noBody (by simp [hs])
    refine ⟨hlimits, hrest, h.headerBytes, fun _ => hbody, ?_, ?_⟩
    · intro hs'
      contradiction
    · intro hs'
      contradiction
  | @header line rest key value hs hl hfit =>
    have hrest : buf'.length ≤ sizeMax := (length_lt_line line buf').le.trans hcounted
    have hbytes : c.headerBytes+(line.length+2) ≤ limits.maxHeaderBytes := hlimits ▸ hfit
    refine ⟨hlimits, hrest, hbytes, fun _ => h.noBody (by simp [hs]), ?_, ?_⟩
    · intro hs'
      simp [storeField, hs] at hs'
    · intro hs'
      simp [storeField, hs] at hs'
  | headersEnd hs hfit hend => exact h.headersEnd hs hfit hend
  | @body body rest hs hlen =>
    have hrest : buf'.length ≤ sizeMax := by
      simp only [List.length_append] at hcounted
      omega
    obtain ⟨hmax, text, hsome, hdecimal⟩ := h.announced hs
    simp only at hmax hsome hdecimal
    rw [← hlen] at hmax hdecimal
    refine ⟨hlimits, hrest, h.headerBytes, fun hne => absurd rfl hne, ?_, ?_⟩
    · intro hs'
      contradiction
    · intro _
      exact ⟨.inr ⟨text, hsome, hdecimal⟩, hmax⟩

theorem Bounded.round {s s' : HttpContext × Bytes} (h : Bounded limits s)
    (hnext : loopBody s = .next s') : Bounded limits s' := by
  have hadvances : Advances lineStep s s' := (loopBody_next hnext).1
  clear hnext
  -- A round is a sequence of single lines.
  induction hadvances with
  | refl => exact h
  | tail _ hm ih => exact ih.advance hm

theorem Bounded.read {s s' : HttpContext × Bytes} {op : ReadingOp} (h : Bounded limits s)
    (hread : Reads s op s') : Bounded limits s' := by
  obtain ⟨c, buf⟩ := s
  cases op with
  | receive chunk =>
    simp only [Reads, HttpContext.read] at hread
    split_ifs at hread with hfit
    obtain rfl := Option.some.inj hread
    exact ⟨h.limits_eq, hfit, h.headerBytes, h.noBody, h.announced, h.complete⟩
  | enter receiveTime =>
    obtain rfl := Option.some.inj hread
    exact h.stamp receiveTime
  | round =>
    simp only [Reads, HttpContext.read] at hread
    cases hnext : loopBody (c, buf) with
    | next s₁ =>
      rw [hnext] at hread
      obtain rfl := Option.some.inj hread
      exact h.round hnext
    | ret r =>
      rw [hnext] at hread
      contradiction
  | reset =>
    obtain rfl := Option.some.inj hread
    exact h.reset

theorem Bounded.run {s : HttpContext × Bytes} {ops : List ReadingOp}
    (hr : Run Reads (HttpContext.new limits, []) ops s) : Bounded limits s :=
  hr.invariant (fun _ _ _ h hread => h.read hread) (.new limits)

/-- The request line that a round takes from the buffer. -/
theorem accepted_line (hs : c.state = .kExpectRequestLine)
    (hnext : loopBody (c, buf) = .next (c', buf')) :
    ∃ line, findCRLF line = none ∧ buf = line++(crlf++buf') ∧
      (line++crlf).length ≤ c.limits.maxRequestLineBytes := by
  have hstep : lineStep c buf = .advance c' buf' := by simp [lineStep, hs, hnext]
  rw [lineStep_iff] at hstep
  cases hstep with
  | @requestLine line rest request _ hn hfit _ =>
    exact ⟨line, hn, rfl, by rwa [List.length_append]⟩
  | header hs' => rw [hs] at hs'; contradiction
  | headersEnd hs' => rw [hs] at hs'; contradiction
  | body hs' => rw [hs] at hs'; contradiction

/-- What is left unread when the parser asks for more. -/
def UnreadBound (limits : HttpLimits) (s : HttpContext × Bytes) : Prop :=
  match s.1.state with
  | .kExpectRequestLine => s.2.length ≤ limits.maxRequestLineBytes
  | .kExpectHeaders => s.1.headerBytes+s.2.length ≤ limits.maxHeaderBytes
  | .kExpectBody => s.2.length < s.1.contentLength ∧ s.1.contentLength ≤ limits.maxBodyBytes
  | .kGotCompleteRequest => False

theorem Bounded.unread {s : HttpContext × Bytes} (h : Bounded limits s) (hwaits : Waits s) :
    UnreadBound limits s := by
  obtain ⟨c, buf⟩ := s
  have hlimits : c.limits = limits := h.limits_eq
  have hwait := lineStep_of_waits hwaits
  rw [lineStep_iff] at hwait
  rw [UnreadBound]
  cases hwait with
  | requestLineWait hs hn hfit =>
    simp only [hs]
    rwa [← hlimits]
  | headersWait hs hn hfit =>
    simp only [hs]
    rwa [← hlimits]
  | bodyWait hs hshort =>
    simp only [hs]
    exact ⟨hshort, (h.announced hs).1⟩

/-- However a byte stream is cut and however often the context is reset: in every state
that the loop of `parseRequest` reaches, what it has counted and what it keeps is within
the limits, the body of a complete request is what was announced, and the next round
computes without wrapping. -/
theorem reading_within_limits {limits : HttpLimits} (hsized : limits.Sized)
    {ops : List ReadingOp} {s : HttpContext × Bytes}
    (hr : Run Reads (HttpContext.new limits, []) ops s) :
    s.1.headerBytes ≤ limits.maxHeaderBytes ∧
    (∀ s', s.1.state = .kExpectRequestLine → loopBody s = .next s' →
      ∃ line, findCRLF line = none ∧ s.2 = line++(crlf++s'.2) ∧
        (line++crlf).length ≤ limits.maxRequestLineBytes) ∧
    (Waits s → UnreadBound limits s) ∧
    (s.1.state = .kGotCompleteRequest → LengthAgrees s.1.request.headers s.1.request.body ∧
      s.1.request.body.length ≤ limits.maxBodyBytes) ∧
    loopBodyChecked s = some (loopBody s) := by
  have h := Bounded.run hr
  have hlimits := h.limits_eq
  refine ⟨h.headerBytes, ?_, h.unread, h.complete, ?_⟩
  · intro s' hs hnext
    rw [← hlimits]
    exact accepted_line hs hnext
  · exact loopBodyChecked_eq h.counted (hlimits ▸ hsized.header)

/-- The limits a server starts with, and a request with a body of two bytes. -/
theorem reading_within_limits_post :
    (∃ s, Run Reads (HttpContext.new {}, [])
        [.receive (ascii "POST / HTTP/1.1\r\nContent-Length: 02\r"), .enter 0, .round,
         .receive (ascii "\n\r\nhi"), .round, .round] s ∧
      s.1.state = .kGotCompleteRequest ∧ LengthAgrees s.1.request.headers s.1.request.body ∧
      s.1.request.body.length ≤ 1024*1024) := by
  have hsized : HttpLimits.Sized {} := ⟨by decide, by decide, by decide⟩
  have hrun : ∃ s, Run Reads (HttpContext.new {}, [])
      [.receive (ascii "POST / HTTP/1.1\r\nContent-Length: 02\r"), .enter 0, .round,
       .receive (ascii "\n\r\nhi"), .round, .round] s ∧ s.1.state = .kGotCompleteRequest :=
    ⟨_, .cons rfl (.cons rfl (.cons rfl (.cons rfl (.cons rfl (.cons rfl (.nil _)))))),
      by decide⟩
  obtain ⟨s, hr, hs⟩ := hrun
  obtain ⟨hagrees, hmax⟩ := (reading_within_limits hsized hr).2.2.2.1 hs
  exact ⟨s, hr, hs, hagrees, hmax⟩

end HttpContext

end JingjieAR
