import JingjieAR.HttpContextModel
import JingjieAR.IncrementalMachine

/-! The parser read line by line. `LineMove` lists the exits of the three parser
states in terms of the text they apply to, and `lineStep_iff` says that the code
takes exactly these. -/
namespace JingjieAR

open Incremental (Move)

theorem exceedsLimit_iff (current additional limit : ℕ) :
    exceedsLimit current additional limit = true ↔ limit < current+additional := by
  simp only [exceedsLimit, Bool.or_eq_true, decide_eq_true_eq]
  omega

theorem findCRLF_crlf_append (line rest : Bytes) (h : findCRLF line = none) :
    findCRLF (line++(crlf++rest)) = some line.length := by
  induction line with
  | nil => simp [crlf, findCRLF]
  | cons a line ih =>
    cases line with
    | nil =>
      -- A lone `\r` before the line end does not make a line end with it.
      simp [crlf, findCRLF, cr, lf]
    | cons b line =>
      simp only [findCRLF] at h
      split_ifs at h with hab
      have ht := ih (by simpa using h)
      simp only [List.cons_append, findCRLF, hab, ↓reduceIte] at ht ⊢
      simp [ht]

/-- The first line of a text, cut off at the position that `findCRLF` reports. -/
theorem findCRLF_some_split {text : Bytes} {n : ℕ} (h : findCRLF text = some n) :
    text = text.take n++(crlf++text.drop (n+2)) ∧ findCRLF (text.take n) = none := by
  fun_induction findCRLF text generalizing n with
  | case1 a b rest hab =>
    obtain ⟨rfl, rfl⟩ := hab
    obtain rfl : 0 = n := by simpa using h
    simp [crlf, findCRLF]
  | case2 a b rest hab ih =>
    obtain ⟨m, hm, rfl⟩ := Option.map_eq_some_iff.mp h
    obtain ⟨hsplit, hnone⟩ := ih hm
    refine ⟨by simpa using hsplit, ?_⟩
    cases m with
    | zero => simp [findCRLF]
    | succ m =>
      -- The cut keeps the two bytes `a` and `b`, which are no line end.
      simp only [List.take_succ_cons, findCRLF, hab, ↓reduceIte] at hnone ⊢
      simpa using hnone
  | case3 => contradiction

/-- A line end that appears only after more input has come starts at the last
old byte or later. -/
theorem findCRLF_append_of_none {text more : Bytes} {n : ℕ} (h : findCRLF text = none)
    (hn : findCRLF (text++more) = some n) : text.length ≤ n+1 := by
  fun_induction findCRLF text generalizing n with
  | case1 a b rest hab => contradiction
  | case2 a b rest hab ih =>
    simp only [List.cons_append, findCRLF, hab, ↓reduceIte] at hn
    obtain ⟨m, hm, rfl⟩ := Option.map_eq_some_iff.mp hn
    have hl := ih (by simpa using h) (by simpa using hm)
    simp only [List.length_cons] at hl ⊢
    omega
  | case3 text hshort =>
    match text with
    | [] => simp
    | [_] => simp
    | a :: b :: rest => exact absurd rfl (hshort a b rest)

@[simp] theorem take_line (line rest : Bytes) :
    (line++(crlf++rest)).take line.length = line := List.take_left' rfl

@[simp] theorem drop_line (line rest : Bytes) :
    (line++(crlf++rest)).drop (line.length+2) = rest := by
  rw [← List.append_assoc]
  exact List.drop_left' (by simp [crlf])

@[simp] theorem drop_crlf (rest : Bytes) : (crlf++rest).drop 2 = rest := rfl

theorem length_lt_line (line rest : Bytes) : rest.length < (line++(crlf++rest)).length := by
  have hcrlf : crlf.length = 2 := rfl
  simp only [List.length_append, hcrlf]
  omega

/-- Key and value of a header line, or nothing when it has no colon. -/
def headerField (line : Bytes) : Option (Bytes × Bytes) :=
  (findByte colon line).map (fun pos => (headerKey line pos, headerValue line pos))

/-- The fields that `parseHeaders` rejects on sight. -/
def Refused (key value : Bytes) : Prop :=
  lowerCase key = ascii "transfer-encoding" ∧ value ≠ []

/-- A header line that the parser stores: one line, not empty, with a colon, and
not a transfer coding. -/
structure StoredLine (line key value : Bytes) : Prop where
  noCRLF : findCRLF line = none
  ne_nil : line ≠ []
  field : headerField line = some (key, value)
  notRefused : ¬Refused key value

namespace HttpContext

/-- The step of the parser that takes at most one line from the buffer. -/
def lineStep (c : HttpContext) (buf : Bytes) : Move HttpContext UInt8 (HttpContext × Bytes) :=
  match c.state with
  | .kExpectHeaders =>
    match headerRound (c, buf) with
    | .next (c', buf') => .advance c' buf'
    | .ret (true, c', buf') => if c'.state = .kExpectHeaders then .wait else .advance c' buf'
    | .ret (false, c', buf') => .fail (c'.defaultError, buf')
  | .kExpectBody =>
    if buf.length < c.contentLength then .wait
    else .advance (parseBody c buf).2.1 (parseBody c buf).2.2
  | .kGotCompleteRequest => .done
  | .kExpectRequestLine =>
    match loopBody (c, buf) with
    | .next (c', buf') => .advance c' buf'
    | .ret (true, _, _) => .wait
    | .ret (false, c', buf') => .fail (c', buf')

def storeField (c : HttpContext) (line key value : Bytes) : HttpContext :=
  { c with request := c.request.addHeader key value,
           headerBytes := c.headerBytes+(line.length+2) }

def countBlank (c : HttpContext) : HttpContext := { c with headerBytes := c.headerBytes+2 }

def takeBody (c : HttpContext) (body : Bytes) : HttpContext :=
  { c with request := { c.request with body := body }, state := .kGotCompleteRequest }

/-- What one step does, by the text at the front of the buffer. -/
inductive LineMove (c : HttpContext) :
    Bytes → Move HttpContext UInt8 (HttpContext × Bytes) → Prop
  | requestLineWait {buf : Bytes} (hs : c.state = .kExpectRequestLine)
      (hn : findCRLF buf = none) (hfit : buf.length ≤ c.limits.maxRequestLineBytes) :
      LineMove c buf .wait
  | requestLineUnfinished {buf : Bytes} (hs : c.state = .kExpectRequestLine)
      (hn : findCRLF buf = none) (hbig : c.limits.maxRequestLineBytes < buf.length) :
      LineMove c buf (.fail ({ c with error := .kRequestLineTooLarge }, buf))
  | requestLineLong {line rest : Bytes} (hs : c.state = .kExpectRequestLine)
      (hn : findCRLF line = none) (hbig : c.limits.maxRequestLineBytes < line.length+2) :
      LineMove c (line++(crlf++rest))
        (.fail ({ c with error := .kRequestLineTooLarge }, line++(crlf++rest)))
  | requestLineBad {line rest : Bytes} (hs : c.state = .kExpectRequestLine)
      (hn : findCRLF line = none) (hfit : line.length+2 ≤ c.limits.maxRequestLineBytes)
      (hbad : processRequestLine c.request line = none) :
      LineMove c (line++(crlf++rest)) (.fail ({ c with error := .kBadRequest }, line++(crlf++rest)))
  | requestLine {line rest : Bytes} {request : HttpRequest}
      (hs : c.state = .kExpectRequestLine) (hn : findCRLF line = none)
      (hfit : line.length+2 ≤ c.limits.maxRequestLineBytes)
      (hok : processRequestLine c.request line = some request) :
      LineMove c (line++(crlf++rest))
        (.advance { c with request := request, state := .kExpectHeaders } rest)
  | headersWait {buf : Bytes} (hs : c.state = .kExpectHeaders) (hn : findCRLF buf = none)
      (hfit : c.headerBytes+buf.length ≤ c.limits.maxHeaderBytes) : LineMove c buf .wait
  | headersUnfinished {buf : Bytes} (hs : c.state = .kExpectHeaders) (hn : findCRLF buf = none)
      (hbig : c.limits.maxHeaderBytes < c.headerBytes+buf.length) :
      LineMove c buf (.fail ({ c with error := .kHeadersTooLarge }, buf))
  | headerLong {line rest : Bytes} (hs : c.state = .kExpectHeaders)
      (hn : findCRLF line = none)
      (hbig : c.limits.maxHeaderBytes < c.headerBytes+(line.length+2)) :
      LineMove c (line++(crlf++rest))
        (.fail ({ c with error := .kHeadersTooLarge }, line++(crlf++rest)))
  | headerNoColon {line rest : Bytes} (hs : c.state = .kExpectHeaders)
      (hn : findCRLF line = none) (hne : line ≠ [])
      (hfit : c.headerBytes+(line.length+2) ≤ c.limits.maxHeaderBytes)
      (hbad : headerField line = none) :
      LineMove c (line++(crlf++rest)) (.fail (c.defaultError, line++(crlf++rest)))
  | headerRefused {line rest key value : Bytes} (hs : c.state = .kExpectHeaders)
      (hn : findCRLF line = none) (hne : line ≠ [])
      (hfit : c.headerBytes+(line.length+2) ≤ c.limits.maxHeaderBytes)
      (hfield : headerField line = some (key, value)) (hbad : Refused key value) :
      LineMove c (line++(crlf++rest))
        (.fail ({ c with error := .kUnsupportedTransferEncoding }, line++(crlf++rest)))
  | header {line rest key value : Bytes} (hs : c.state = .kExpectHeaders)
      (hl : StoredLine line key value)
      (hfit : c.headerBytes+(line.length+2) ≤ c.limits.maxHeaderBytes) :
      LineMove c (line++(crlf++rest)) (.advance (c.storeField line key value) rest)
  | headersEnd {rest : Bytes} {c' : HttpContext} (hs : c.state = .kExpectHeaders)
      (hfit : c.headerBytes+2 ≤ c.limits.maxHeaderBytes)
      (hend : endOfHeaders c.countBlank = (true, c')) :
      LineMove c (crlf++rest) (.advance c' rest)
  | lengthRefused {rest : Bytes} {c' : HttpContext} (hs : c.state = .kExpectHeaders)
      (hfit : c.headerBytes+2 ≤ c.limits.maxHeaderBytes)
      (hend : endOfHeaders c.countBlank = (false, c')) :
      LineMove c (crlf++rest) (.fail (c', rest))
  | bodyWait {buf : Bytes} (hs : c.state = .kExpectBody)
      (hshort : buf.length < c.contentLength) : LineMove c buf .wait
  | body {body rest : Bytes} (hs : c.state = .kExpectBody)
      (hlen : body.length = c.contentLength) :
      LineMove c (body++rest) (.advance (c.takeBody body) rest)
  | complete {buf : Bytes} (hs : c.state = .kGotCompleteRequest) : LineMove c buf .done

/-- Leaving the header section sets a state, refusing it sets an error. -/
theorem endOfHeaders_spec (c : HttpContext) :
    ((endOfHeaders c).1 = true ∧
      ((endOfHeaders c).2.state = .kExpectBody ∨
       (endOfHeaders c).2.state = .kGotCompleteRequest)) ∨
    ((endOfHeaders c).1 = false ∧ (endOfHeaders c).2.error ≠ .kParseOk ∧
      (endOfHeaders c).2.state = c.state) := by
  unfold endOfHeaders
  split_ifs
  · exact .inr ⟨rfl, by simp, rfl⟩
  · split
    · split
      · exact .inr ⟨rfl, by simp, rfl⟩
      · exact .inr ⟨rfl, by simp, rfl⟩
      · split_ifs
        · exact .inr ⟨rfl, by simp, rfl⟩
        · exact .inl ⟨rfl, .inl rfl⟩
        · exact .inl ⟨rfl, .inr rfl⟩
    · exact .inl ⟨rfl, .inr rfl⟩

theorem defaultError_of_ne {c : HttpContext} (h : c.error ≠ .kParseOk) : c.defaultError = c :=
  if_neg h

theorem headerRound_blank {c : HttpContext} {rest : Bytes}
    (hfit : c.headerBytes+2 ≤ c.limits.maxHeaderBytes) :
    headerRound (c, crlf++rest) =
      .ret ((endOfHeaders c.countBlank).1, (endOfHeaders c.countBlank).2, rest) := by
  have hpos : findCRLF (crlf++rest) = some 0 := findCRLF_crlf_append [] rest rfl
  simp [headerRound, hpos, exceedsLimit_iff, Nat.not_lt.mpr hfit, countBlank]

theorem lineStep_of_lineMove {c : HttpContext} {buf : Bytes}
    {m : Move HttpContext UInt8 (HttpContext × Bytes)} (h : LineMove c buf m) :
    lineStep c buf = m := by
  cases h with
  | requestLineWait hs hn hfit => simp [lineStep, loopBody, hs, hn, Nat.not_lt.mpr hfit]
  | requestLineUnfinished hs hn hbig => simp [lineStep, loopBody, hs, hn, hbig]
  | requestLineLong hs hn hbig =>
    simp [lineStep, loopBody, hs, findCRLF_crlf_append _ _ hn, hbig]
  | requestLineBad hs hn hfit hbad =>
    simp [lineStep, loopBody, hs, findCRLF_crlf_append _ _ hn, Nat.not_lt.mpr hfit, hbad]
  | requestLine hs hn hfit hok =>
    simp [lineStep, loopBody, hs, findCRLF_crlf_append _ _ hn, Nat.not_lt.mpr hfit, hok]
  | headersWait hs hn hfit =>
    simp [lineStep, headerRound, hs, hn, exceedsLimit_iff, Nat.not_lt.mpr hfit]
  | headersUnfinished hs hn hbig =>
    simp [lineStep, headerRound, hs, hn, exceedsLimit_iff, hbig, defaultError]
  | headerLong hs hn hbig =>
    simp [lineStep, headerRound, hs, findCRLF_crlf_append _ _ hn, exceedsLimit_iff, hbig,
      defaultError]
  | headerNoColon hs hn hne hfit hbad =>
    -- Only here the source leaves the error code to `defaultError`.
    have hb : findByte colon _ = none := Option.map_eq_none_iff.mp hbad
    simp [lineStep, headerRound, hs, findCRLF_crlf_append _ _ hn, exceedsLimit_iff,
      Nat.not_lt.mpr hfit, hne, hb]
  | headerRefused hs hn hne hfit hfield hbad =>
    obtain ⟨pos, hpos, he⟩ := Option.map_eq_some_iff.mp hfield
    obtain ⟨rfl, rfl⟩ := Prod.mk.inj he
    simp [lineStep, headerRound, hs, findCRLF_crlf_append _ _ hn, exceedsLimit_iff,
      Nat.not_lt.mpr hfit, hne, hpos, hbad.1, hbad.2, defaultError]
  | header hs hl hfit =>
    obtain ⟨pos, hpos, he⟩ := Option.map_eq_some_iff.mp hl.field
    obtain ⟨rfl, rfl⟩ := Prod.mk.inj he
    have hr := hl.notRefused
    unfold Refused at hr
    simp only [lineStep, headerRound, hs, findCRLF_crlf_append _ _ hl.noCRLF, exceedsLimit_iff,
      Nat.not_lt.mpr hfit, take_line, drop_line, hpos, hr, List.length_eq_zero_iff, hl.ne_nil,
      storeField, ↓reduceIte]
  | @headersEnd rest c' hs hfit hend =>
    have hstate := endOfHeaders_spec c.countBlank
    rw [hend] at hstate
    -- An accepted section leaves the header state, so the step is no wait.
    have hne : c'.state ≠ .kExpectHeaders := by
      rcases hstate with ⟨-, h | h⟩ | ⟨h, -⟩ <;> simp_all
    simp [lineStep, hs, headerRound_blank hfit, hend, hne]
  | @lengthRefused rest c' hs hfit hend =>
    have hstate := endOfHeaders_spec c.countBlank
    rw [hend] at hstate
    -- The error is set already, so `defaultError` keeps it.
    have hne : c'.error ≠ .kParseOk := by
      rcases hstate with ⟨h, -⟩ | ⟨-, h, -⟩ <;> simp_all
    simp [lineStep, hs, headerRound_blank hfit, hend, defaultError_of_ne hne]
  | bodyWait hs hshort => simp [lineStep, hs, hshort]
  | @body body rest hs hlen =>
    have hfit : ¬(body++rest).length < c.contentLength := by simp [hlen]
    have htake : (body++rest).take c.contentLength = body := List.take_left' hlen
    have hdrop : (body++rest).drop c.contentLength = rest := List.drop_left' hlen
    simp only [lineStep, hs, parseBody, hfit, htake, hdrop, takeBody, ↓reduceIte]
  | complete hs => simp [lineStep, hs]

theorem exists_lineMove_line {c : HttpContext} {line rest : Bytes}
    (hs : c.state = .kExpectHeaders) (hline : findCRLF line = none)
    (hfit : c.headerBytes+(line.length+2) ≤ c.limits.maxHeaderBytes) :
    ∃ m, LineMove c (line++(crlf++rest)) m := by
  by_cases hne : line = []
  · subst hne
    cases hend : endOfHeaders c.countBlank with
    | mk ok c' =>
      cases ok with
      | true => exact ⟨_, .headersEnd hs hfit hend⟩
      | false => exact ⟨_, .lengthRefused hs hfit hend⟩
  · cases hf : headerField line with
    | none => exact ⟨_, .headerNoColon hs hline hne hfit hf⟩
    | some field =>
      by_cases hr : Refused field.1 field.2
      · exact ⟨_, .headerRefused hs hline hne hfit hf hr⟩
      · exact ⟨_, .header hs ⟨hline, hne, hf, hr⟩ hfit⟩

/-- The rules of `LineMove` leave no buffer out. -/
theorem exists_lineMove (c : HttpContext) (buf : Bytes) : ∃ m, LineMove c buf m := by
  cases hs : c.state with
  | kExpectRequestLine =>
    cases hn : findCRLF buf with
    | none =>
      by_cases hfit : buf.length ≤ c.limits.maxRequestLineBytes
      · exact ⟨_, .requestLineWait hs hn hfit⟩
      · exact ⟨_, .requestLineUnfinished hs hn (Nat.not_le.mp hfit)⟩
    | some n =>
      obtain ⟨hsplit, hline⟩ := findCRLF_some_split hn
      rw [hsplit]
      by_cases hfit : (buf.take n).length+2 ≤ c.limits.maxRequestLineBytes
      · cases hp : processRequestLine c.request (buf.take n) with
        | none => exact ⟨_, .requestLineBad hs hline hfit hp⟩
        | some request => exact ⟨_, .requestLine hs hline hfit hp⟩
      · exact ⟨_, .requestLineLong hs hline (Nat.not_le.mp hfit)⟩
  | kExpectHeaders =>
    cases hn : findCRLF buf with
    | none =>
      by_cases hfit : c.headerBytes+buf.length ≤ c.limits.maxHeaderBytes
      · exact ⟨_, .headersWait hs hn hfit⟩
      · exact ⟨_, .headersUnfinished hs hn (Nat.not_le.mp hfit)⟩
    | some n =>
      obtain ⟨hsplit, hline⟩ := findCRLF_some_split hn
      rw [hsplit]
      by_cases hfit : c.headerBytes+((buf.take n).length+2) ≤ c.limits.maxHeaderBytes
      · exact exists_lineMove_line hs hline hfit
      · exact ⟨_, .headerLong hs hline (Nat.not_le.mp hfit)⟩
  | kExpectBody =>
    by_cases hshort : buf.length < c.contentLength
    · exact ⟨_, .bodyWait hs hshort⟩
    -- The body is the declared number of bytes at the front.
    · rw [← List.take_append_drop c.contentLength buf]
      exact ⟨_, .body hs (List.length_take_of_le (Nat.not_lt.mp hshort))⟩
  | kGotCompleteRequest => exact ⟨_, .complete hs⟩

theorem lineStep_iff (c : HttpContext) (buf : Bytes)
    (m : Move HttpContext UInt8 (HttpContext × Bytes)) :
    lineStep c buf = m ↔ LineMove c buf m := by
  refine ⟨?_, lineStep_of_lineMove⟩
  intro hm
  subst hm
  -- Some rule applies, and the code does what it says; so it is this one.
  obtain ⟨m, h⟩ := exists_lineMove c buf
  rwa [lineStep_of_lineMove h]

end HttpContext

end JingjieAR
