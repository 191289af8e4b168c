import JingjieAR.HttpContextModel

/-! The parser with `size_t` operations that refuse to wrap: `none` is a computation that
would have. With limits and a buffer that a `size_t` can count, none of them is refused. -/
namespace JingjieAR

open Loop (Iter)

def addSize (a b : ℕ) : Option ℕ := if a+b ≤ sizeMax then some (a+b) else none
def mulSize (a b : ℕ) : Option ℕ := if a*b ≤ sizeMax then some (a*b) else none
def subSize (a b : ℕ) : Option ℕ := if b ≤ a then some (a-b) else none

theorem addSize_of_le {a b : ℕ} (h : a+b ≤ sizeMax) : addSize a b = some (a+b) := if_pos h

theorem mulSize_of_le {a b : ℕ} (h : a*b ≤ sizeMax) : mulSize a b = some (a*b) := if_pos h

theorem subSize_of_le {a b : ℕ} (h : b ≤ a) : subSize a b = some (a-b) := if_pos h

/-- All three limits are values of a `size_t`. -/
structure HttpLimits.Sized (limits : HttpLimits) : Prop where
  requestLine : limits.maxRequestLineBytes ≤ sizeMax
  header : limits.maxHeaderBytes ≤ sizeMax
  body : limits.maxBodyBytes ≤ sizeMax

def parseDigitsChecked : Bytes → ℕ → Option ContentLengthParseResult
  | [], result => some (.kContentLengthOk result)
  | c :: rest, result =>
    if !isDigit c then some .kContentLengthInvalid
    else do
      let digit := c.toNat-48
      let room ← subSize sizeMax digit
      if result > room/10 then some .kContentLengthOverflow
      else do
        let tens ← mulSize result 10
        let value ← addSize tens digit
        parseDigitsChecked rest value

theorem parseDigitsChecked_eq (text : Bytes) (result : ℕ) :
    parseDigitsChecked text result = some (parseDigits text result) := by
  induction text generalizing result with
  | nil => rfl
  | cons c rest ih =>
    rw [parseDigitsChecked, parseDigits]
    by_cases hdigit : isDigit c = true
    · have hc : c.toNat-48 ≤ 9 := by
        simp only [isDigit, Bool.and_eq_true, decide_eq_true_eq, UInt8.le_iff_toNat_le] at hdigit
        have h57 : (57 : UInt8).toNat = 57 := rfl
        omega
      have hsub : c.toNat-48 ≤ sizeMax := hc.trans (by decide)
      simp only [hdigit, Bool.not_true, Bool.false_eq_true, ↓reduceIte, subSize_of_le hsub,
        Option.bind_eq_bind, Option.bind_some]
      split_ifs with hbig
      · rfl
      · -- The guard leaves room for one more digit.
        have hroom : result*10+(c.toNat-48) ≤ sizeMax := by omega
        have hten : result*10 ≤ sizeMax := by omega
        rw [mulSize_of_le hten, Option.bind_some, addSize_of_le hroom, Option.bind_some]
        exact ih _
    · simp [hdigit]

def parseContentLengthChecked (text : Bytes) : Option ContentLengthParseResult :=
  if text = [] then some .kContentLengthInvalid else parseDigitsChecked text 0

theorem parseContentLengthChecked_eq (text : Bytes) :
    parseContentLengthChecked text = some (parseContentLength text) := by
  rw [parseContentLengthChecked, parseContentLength]
  split_ifs with h
  · rfl
  · exact parseDigitsChecked_eq text 0

def exceedsLimitChecked (current additional limit : ℕ) : Option Bool :=
  if current > limit then some true
  else do
    let room ← subSize limit current
    some (additional > room)

theorem exceedsLimitChecked_eq (current additional limit : ℕ) :
    exceedsLimitChecked current additional limit =
      some (exceedsLimit current additional limit) := by
  rw [exceedsLimitChecked, exceedsLimit]
  split_ifs with h
  · simp [h]
  · rw [subSize_of_le (Nat.not_lt.mp h)]
    simp [h]

def setUrlChecked (r : HttpRequest) (url : Bytes) : Option HttpRequest :=
  match findByte questionMark url with
  | some questionPos => do
    let start ← addSize questionPos 1
    some ({ r with path := url.take questionPos }.setQuery (url.drop start))
  | none => some { r with path := url }

theorem findByte_lt {c : UInt8} {text : Bytes} {n : ℕ} (h : findByte c text = some n) :
    n < text.length := by
  rw [findByte, List.findIdx?_eq_some_iff_getElem] at h
  exact h.1

theorem setUrlChecked_eq (r : HttpRequest) {url : Bytes} (h : url.length ≤ sizeMax) :
    setUrlChecked r url = some (setUrl r url) := by
  rw [setUrlChecked, setUrl]
  cases hpos : findByte questionMark url with
  | none => rfl
  | some questionPos =>
    have hlt := findByte_lt hpos
    have hfit : questionPos+1 ≤ sizeMax := by omega
    simp only [addSize_of_le hfit, Option.bind_eq_bind, Option.bind_some]

def processRequestLineChecked (r : HttpRequest) (line : Bytes) : Option (Option HttpRequest) :=
  match findByte space line with
  | none => some none
  | some space1 =>
    match findByte space (line.drop (space1+1)) with
    | none => some none
    | some gap =>
      let method := stringToMethod (line.take space1)
      if method = .kInvalid then some none
      else do
        let url := (line.drop (space1+1)).take gap
        let version := (line.drop (space1+1)).drop (gap+1)
        let request ← setUrlChecked { r with method := method } url
        some (some { request with version := version })

theorem processRequestLineChecked_eq (r : HttpRequest) {line : Bytes}
    (h : line.length ≤ sizeMax) :
    processRequestLineChecked r line = some (processRequestLine r line) := by
  rw [processRequestLineChecked, processRequestLine]
  cases findByte space line with
  | none => rfl
  | some space1 =>
    cases hgap : findByte space (line.drop (space1+1)) with
    | none => simp only [hgap]
    | some gap =>
      have hurl : ((line.drop (space1+1)).take gap).length ≤ sizeMax := by
        simp only [List.length_take, List.length_drop]
        omega
      simp only [hgap, setUrlChecked_eq _ hurl, Option.bind_eq_bind, Option.bind_some]
      split_ifs
      · rfl
      · rfl

namespace HttpContext

def endOfHeadersChecked (c : HttpContext) : Option (Bool × HttpContext) :=
  if c.request.getHeader (ascii "transfer-encoding") ≠ [] then
    some (false, { c with error := .kUnsupportedTransferEncoding })
  else
    match c.request.headers.lookup (ascii "content-length") with
    | some text => do
      match ← parseContentLengthChecked text with
      | .kContentLengthInvalid => some (false, { c with error := .kBadRequest })
      | .kContentLengthOverflow => some (false, { c with error := .kBodyTooLarge })
      | .kContentLengthOk value =>
        if value > c.limits.maxBodyBytes then
          some (false, { c with contentLength := value, error := .kBodyTooLarge })
        else if value > 0 then
          some (true, { c with contentLength := value, state := .kExpectBody })
        else
          some (true, { c with contentLength := value, state := .kGotCompleteRequest })
    | none => some (true, { c with state := .kGotCompleteRequest })

theorem endOfHeadersChecked_eq (c : HttpContext) :
    endOfHeadersChecked c = some (endOfHeaders c) := by
  rw [endOfHeadersChecked, endOfHeaders]
  split_ifs
  · rfl
  · cases c.request.headers.lookup (ascii "content-length") with
    | none => rfl
    | some text =>
      simp only [parseContentLengthChecked_eq, Option.bind_eq_bind, Option.bind_some]
      cases parseContentLength text with
      | kContentLengthInvalid => rfl
      | kContentLengthOverflow => rfl
      | kContentLengthOk value =>
        simp only []
        split_ifs
        · rfl
        · rfl
        · rfl

def headerRoundChecked :
    HttpContext × Bytes → Option (Iter (HttpContext × Bytes) (Bool × HttpContext × Bytes))
  | (c, buf) =>
    match findCRLF buf with
    | none => do
      if ← exceedsLimitChecked c.headerBytes buf.length c.limits.maxHeaderBytes then
        some (.ret (false, { c with error := .kHeadersTooLarge }, buf))
      else some (.ret (true, c, buf))
    | some crlfPos => do
      let lineBytes ← addSize crlfPos 2
      if ← exceedsLimitChecked c.headerBytes lineBytes c.limits.maxHeaderBytes then
        some (.ret (false, { c with error := .kHeadersTooLarge }, buf))
      else if crlfPos = 0 then
        let headerBytes ← addSize c.headerBytes lineBytes
        let done ← endOfHeadersChecked { c with headerBytes := headerBytes }
        some (.ret (done.1, done.2, buf.drop 2))
      else
        match findByte colon (buf.take crlfPos) with
        | none => some (.ret (false, c, buf))
        | some colonPos =>
          let key := headerKey (buf.take crlfPos) colonPos
          let value := headerValue (buf.take crlfPos) colonPos
          if lowerCase key = ascii "transfer-encoding" ∧ value ≠ [] then
            some (.ret (false, { c with error := .kUnsupportedTransferEncoding }, buf))
          else
            let headerBytes ← addSize c.headerBytes lineBytes
            some (.next ({ c with request := c.request.addHeader key value,
                                  headerBytes := headerBytes }, buf.drop lineBytes))

theorem headerRoundChecked_eq {c : HttpContext} {buf : Bytes} (hbuf : buf.length ≤ sizeMax)
    (hlimit : c.limits.maxHeaderBytes ≤ sizeMax) :
    headerRoundChecked (c, buf) = some (headerRound (c, buf)) := by
  rw [headerRoundChecked, headerRound]
  cases hpos : findCRLF buf with
  | none =>
    simp only [exceedsLimitChecked_eq, Option.bind_eq_bind, Option.bind_some]
    split_ifs
    · rfl
    · rfl
  | some crlfPos =>
    have hline : crlfPos+2 ≤ sizeMax := (findCRLF_add_two_le hpos).trans hbuf
    simp only [addSize_of_le hline, exceedsLimitChecked_eq, Option.bind_eq_bind, Option.bind_some]
    by_cases hbig : exceedsLimit c.headerBytes (crlfPos+2) c.limits.maxHeaderBytes = true
    · simp only [hbig, ↓reduceIte]
    · -- What passes the check can be added up.
      have hsum : c.headerBytes+(crlfPos+2) ≤ sizeMax := by
        simp only [exceedsLimit, Bool.or_eq_true, decide_eq_true_eq] at hbig
        omega
      simp only [hbig, Bool.false_eq_true, ↓reduceIte, addSize_of_le hsum, Option.bind_some,
        endOfHeadersChecked_eq]
      split_ifs
      · rfl
      · cases findByte colon (buf.take crlfPos) with
        | none => rfl
        | some colonPos =>
          simp only []
          split_ifs
          · rfl
          · rfl

/-- A round that ends the loop, also when a computation in it was refused. -/
def headerRoundOrStop (s : HttpContext × Bytes) :
    Iter (HttpContext × Bytes) (Option (Bool × HttpContext × Bytes)) :=
  match headerRoundChecked s with
  | none => .ret none
  | some (.next s') => .next s'
  | some (.ret r) => .ret (some r)

/-- A round that goes on takes bytes, so there are no more rounds than bytes. -/
def parseHeadersChecked (c : HttpContext) (buf : Bytes) : Option (Bool × HttpContext × Bytes) :=
  (Loop.iterate headerRoundOrStop (buf.length+1) (c, buf)).join

theorem headerRound_next_limits {s s' : HttpContext × Bytes} (h : headerRound s = .next s') :
    s'.1.limits = s.1.limits := by
  obtain ⟨c, buf⟩ := s
  simp only [headerRound] at h
  split at h
  · split_ifs at h
  · split_ifs at h
    split at h
    · contradiction
    · split_ifs at h
      cases h
      rfl

theorem iterate_headerRoundOrStop (n : ℕ) {s : HttpContext × Bytes}
    (hbuf : s.2.length ≤ sizeMax) (hlimit : s.1.limits.maxHeaderBytes ≤ sizeMax) :
    Loop.iterate headerRoundOrStop n s = (Loop.iterate headerRound n s).map some := by
  induction n generalizing s with
  | zero => rfl
  | succ n ih =>
    have hround : headerRoundOrStop s = match headerRound s with
        | .next s' => .next s'
        | .ret r => .ret (some r) := by
      rw [headerRoundOrStop, headerRoundChecked_eq hbuf hlimit]
      cases headerRound s with
      | next s' => rfl
      | ret r => rfl
    rw [Loop.iterate, Loop.iterate, hround]
    cases hnext : headerRound s with
    | ret r => rfl
    | next s' =>
      have hless : s'.2.length < s.2.length := headerRound_decreases _ _ hnext
      exact ih (by omega) (headerRound_next_limits hnext ▸ hlimit)

theorem parseHeadersChecked_eq {c : HttpContext} {buf : Bytes} (hbuf : buf.length ≤ sizeMax)
    (hlimit : c.limits.maxHeaderBytes ≤ sizeMax) :
    parseHeadersChecked c buf = some (parseHeaders c buf) := by
  have hvalue : Loop.iterate headerRound (buf.length+1) (c, buf) = some (parseHeaders c buf) :=
    (Option.some_get _).symm
  rw [parseHeadersChecked, iterate_headerRoundOrStop _ hbuf hlimit, hvalue]
  rfl

def loopBodyChecked :
    HttpContext × Bytes → Option (Iter (HttpContext × Bytes) (Bool × HttpContext × Bytes))
  | (c, buf) =>
    match c.state with
    | .kExpectRequestLine =>
      match findCRLF buf with
      | none =>
        if buf.length > c.limits.maxRequestLineBytes then
          some (.ret (false, { c with error := .kRequestLineTooLarge }, buf))
        else some (.ret (true, c, buf))
      | some crlfPos => do
        let lineBytes ← addSize crlfPos 2
        if lineBytes > c.limits.maxRequestLineBytes then
          some (.ret (false, { c with error := .kRequestLineTooLarge }, buf))
        else
          match ← processRequestLineChecked c.request (buf.take crlfPos) with
          | none => some (.ret (false, { c with error := .kBadRequest }, buf))
          | some request =>
            some (.next ({ c with request := request, state := .kExpectHeaders },
              buf.drop lineBytes))
    | .kExpectHeaders => do
      match ← parseHeadersChecked c buf with
      | (false, c', buf') => some (.ret (false, c'.defaultError, buf'))
      | (true, c', buf') => some (.next (c', buf'))
    | .kExpectBody =>
      match parseBody c buf with
      | (false, c', buf') => some (.ret (false, c'.defaultError, buf'))
      | (true, c', buf') => some (.next (c', buf'))
    | .kGotCompleteRequest => some (.ret (true, c, buf))

/-- No `size_t` computation of a round of `parseRequest` wraps. -/
theorem loopBodyChecked_eq {c : HttpContext} {buf : Bytes} (hbuf : buf.length ≤ sizeMax)
    (hlimit : c.limits.maxHeaderBytes ≤ sizeMax) :
    loopBodyChecked (c, buf) = some (loopBody (c, buf)) := by
  rw [loopBodyChecked, loopBody]
  cases c.state with
  | kExpectRequestLine =>
    cases hpos : findCRLF buf with
    | none =>
      simp only []
      split_ifs
      · rfl
      · rfl
    | some crlfPos =>
      have hline : crlfPos+2 ≤ sizeMax := (findCRLF_add_two_le hpos).trans hbuf
      have htake : (buf.take crlfPos).length ≤ sizeMax := by
        rw [List.length_take]
        omega
      simp only [addSize_of_le hline, processRequestLineChecked_eq _ htake, Option.bind_eq_bind,
        Option.bind_some]
      split_ifs
      · rfl
      · cases processRequestLine c.request (buf.take crlfPos) with
        | none => rfl
        | some request => rfl
  | kExpectHeaders =>
    simp only [parseHeadersChecked_eq hbuf hlimit, Option.bind_eq_bind, Option.bind_some]
    rcases parseHeaders c buf with ⟨ok, c', buf'⟩
    cases ok with
    | false => rfl
    | true => rfl
  | kExpectBody =>
    simp only []
    rcases parseBody c buf with ⟨ok, c', buf'⟩
    cases ok with
    | false => rfl
    | true => rfl
  | kGotCompleteRequest => rfl

end HttpContext

end JingjieAR
