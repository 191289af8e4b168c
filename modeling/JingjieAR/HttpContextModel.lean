import JingjieAR.HttpRequestModel
import JingjieAR.LoopSemantics

/-! The incremental HTTP/1.x parser. Its buffer is the list of readable bytes;
`peek` and `readableBytes` are the list and its length, `retrieve` drops a prefix. -/
namespace JingjieAR

open Loop (Iter)

structure HttpLimits where
  maxRequestLineBytes : ℕ := 8192
  maxHeaderBytes : ℕ := 32768
  maxBodyBytes : ℕ := 1024*1024
deriving DecidableEq

inductive ParseState
  | kExpectRequestLine
  | kExpectHeaders
  | kExpectBody
  | kGotCompleteRequest
deriving DecidableEq

inductive ParseError
  | kParseOk
  | kBadRequest
  | kRequestLineTooLarge
  | kHeadersTooLarge
  | kBodyTooLarge
  | kUnsupportedTransferEncoding
deriving DecidableEq

structure HttpContext where
  state : ParseState := .kExpectRequestLine
  request : HttpRequest := {}
  contentLength : ℕ := 0
  headerBytes : ℕ := 0
  limits : HttpLimits := {}
  error : ParseError := .kParseOk
deriving DecidableEq

inductive ContentLengthParseResult
  | kContentLengthOk (value : ℕ)
  | kContentLengthInvalid
  | kContentLengthOverflow
deriving DecidableEq

/-- `std::numeric_limits<size_t>::max()` on the 64-bit targets of the server. -/
def sizeMax : ℕ := 2^64-1

def isDigit (c : UInt8) : Bool := 48 ≤ c && c ≤ 57

def parseDigits : Bytes → ℕ → ContentLengthParseResult
  | [], result => .kContentLengthOk result
  | c :: rest, result =>
    if !isDigit c then .kContentLengthInvalid
    else
      let digit := c.toNat-48
      if result > (sizeMax-digit)/10 then .kContentLengthOverflow
      else parseDigits rest (result*10+digit)

def parseContentLength (text : Bytes) : ContentLengthParseResult :=
  if text = [] then .kContentLengthInvalid else parseDigits text 0

def exceedsLimit (current additional limit : ℕ) : Bool :=
  current > limit || additional > limit-current

/-- The offset of the first `\r\n`, if the text has one. -/
def findCRLF : Bytes → Option ℕ
  | a :: b :: rest =>
    if a = cr ∧ b = lf then some 0 else (findCRLF (b :: rest)).map (·+1)
  | _ => none

theorem findCRLF_add_two_le {text : Bytes} {n : ℕ} (h : findCRLF text = some n) :
    n+2 ≤ text.length := by
  fun_induction findCRLF text generalizing n with
  | case1 a b rest hab => simp_all; omega
  | case2 a b rest hab ih =>
    obtain ⟨m, hm, rfl⟩ := Option.map_eq_some_iff.mp h
    have hl := ih hm
    simp only [List.length_cons] at hl ⊢
    omega
  | case3 => contradiction

def stringToMethod (m : Bytes) : Method :=
  if m = ascii "GET" then .kGet
  else if m = ascii "POST" then .kPost
  else if m = ascii "HEAD" then .kHead
  else if m = ascii "PUT" then .kPut
  else if m = ascii "DELETE" then .kDelete
  else if m = ascii "OPTIONS" then .kOptions
  else .kInvalid

/-- Offset of the first byte `c`, as the scanning loops of the parser find it. -/
def findByte (c : UInt8) (text : Bytes) : Option ℕ := text.findIdx? (· == c)

def setUrl (r : HttpRequest) (url : Bytes) : HttpRequest :=
  match findByte questionMark url with
  | some questionPos =>
    { r with path := url.take questionPos }.setQuery (url.drop (questionPos+1))
  | none => { r with path := url }

/-- `METHOD SP URL SP VERSION`; the request is left alone when the line is bad. -/
def processRequestLine (r : HttpRequest) (line : Bytes) : Option HttpRequest :=
  match findByte space line with
  | none => none
  | some space1 =>
    match findByte space (line.drop (space1+1)) with
    | none => none
    | some gap =>
      let method := stringToMethod (line.take space1)
      if method = .kInvalid then none
      else
        let url := (line.drop (space1+1)).take gap
        let version := (line.drop (space1+1)).drop (gap+1)
        some { setUrl { r with method := method } url with version := version }

/-- The text before the colon of a header line. -/
def headerKey (line : Bytes) (colonPos : ℕ) : Bytes := line.take colonPos

/-- The text after the colon, without the blanks that directly follow it. -/
def headerValue (line : Bytes) (colonPos : ℕ) : Bytes :=
  (line.drop (colonPos+1)).dropWhile (· == space)

namespace HttpContext

def new (limits : HttpLimits) : HttpContext := { limits := limits }

def gotAll (c : HttpContext) : Bool := c.state = .kGotCompleteRequest

def reset (c : HttpContext) : HttpContext :=
  { c with request := (c.request.swap {}).1, state := .kExpectRequestLine,
           contentLength := 0, headerBytes := 0, error := .kParseOk }

/-- After the empty line: choose between a body and a complete request. -/
def endOfHeaders (c : HttpContext) : Bool × HttpContext :=
  if c.request.getHeader (ascii "transfer-encoding") ≠ [] then
    (false, { c with error := .kUnsupportedTransferEncoding })
  else
    match c.request.headers.lookup (ascii "content-length") with
    | some text =>
      match parseContentLength text with
      | .kContentLengthInvalid => (false, { c with error := .kBadRequest })
      | .kContentLengthOverflow => (false, { c with error := .kBodyTooLarge })
      | .kContentLengthOk value =>
        if value > c.limits.maxBodyBytes then
          -- `contentLength_` is written first and keeps the value that is refused.
          (false, { c with contentLength := value, error := .kBodyTooLarge })
        else if value > 0 then
          (true, { c with contentLength := value, state := .kExpectBody })
        else
          (true, { c with contentLength := value, state := .kGotCompleteRequest })
    | none => (true, { c with state := .kGotCompleteRequest })

/-- One round of the loop in `parseHeaders`: at most one header line. -/
def headerRound : HttpContext × Bytes → Iter (HttpContext × Bytes) (Bool × HttpContext × Bytes)
  | (c, buf) =>
    match findCRLF buf with
    | none =>
      -- The line is unfinished: `true` asks for more bytes, with nothing changed.
      if exceedsLimit c.headerBytes buf.length c.limits.maxHeaderBytes then
        .ret (false, { c with error := .kHeadersTooLarge }, buf)
      else .ret (true, c, buf)
    | some crlfPos =>
      let lineBytes := crlfPos+2
      if exceedsLimit c.headerBytes lineBytes c.limits.maxHeaderBytes then
        .ret (false, { c with error := .kHeadersTooLarge }, buf)
      else if crlfPos = 0 then
        -- The empty line is taken before the headers are judged.
        let done := endOfHeaders { c with headerBytes := c.headerBytes+lineBytes }
        .ret (done.1, done.2, buf.drop 2)
      else
        match findByte colon (buf.take crlfPos) with
        -- The caller turns this into `kBadRequest`.
        | none => .ret (false, c, buf)
        | some colonPos =>
          let key := headerKey (buf.take crlfPos) colonPos
          let value := headerValue (buf.take crlfPos) colonPos
          if lowerCase key = ascii "transfer-encoding" ∧ value ≠ [] then
            .ret (false, { c with error := .kUnsupportedTransferEncoding }, buf)
          else
            .next ({ c with request := c.request.addHeader key value,
                            headerBytes := c.headerBytes+lineBytes }, buf.drop lineBytes)

/-- A round that goes on has taken a whole line from the buffer. -/
theorem headerRound_decreases : Loop.Decreases headerRound (fun s => s.2.length) := by
  intro s s' h
  obtain ⟨c, buf⟩ := s
  simp only [headerRound] at h
  split at h
  · split at h <;> contradiction
  · rename_i crlfPos hpos
    have hlen := findCRLF_add_two_le hpos
    split_ifs at h
    split at h
    · contradiction
    · split_ifs at h
      cases h
      simp only [List.length_drop]
      omega

/-- `parseHeaders`: the `while (true)` loop always returns. -/
def parseHeaders (c : HttpContext) (buf : Bytes) : Bool × HttpContext × Bytes :=
  Loop.value headerRound_decreases (c, buf)

def parseBody (c : HttpContext) (buf : Bytes) : Bool × HttpContext × Bytes :=
  if buf.length < c.contentLength then (true, c, buf)
  else
    (true, { c with request := { c.request with body := buf.take c.contentLength },
                    state := .kGotCompleteRequest }, buf.drop c.contentLength)

/-- `if (error_ == kParseOk) error_ = kBadRequest;` -/
def defaultError (c : HttpContext) : HttpContext :=
  if c.error = .kParseOk then { c with error := .kBadRequest } else c

/-- One round of `while (state_ != kGotCompleteRequest)` in `parseRequest`. -/
def loopBody : HttpContext × Bytes → Iter (HttpContext × Bytes) (Bool × HttpContext × Bytes)
  | (c, buf) =>
    match c.state with
    | .kExpectRequestLine =>
      match findCRLF buf with
      | none =>
        if buf.length > c.limits.maxRequestLineBytes then
          .ret (false, { c with error := .kRequestLineTooLarge }, buf)
        else .ret (true, c, buf)
      | some crlfPos =>
        if crlfPos+2 > c.limits.maxRequestLineBytes then
          .ret (false, { c with error := .kRequestLineTooLarge }, buf)
        else
          -- A bad line stays in the buffer.
          match processRequestLine c.request (buf.take crlfPos) with
          | none => .ret (false, { c with error := .kBadRequest }, buf)
          | some request =>
            .next ({ c with request := request, state := .kExpectHeaders }, buf.drop (crlfPos+2))
    | .kExpectHeaders =>
      match parseHeaders c buf with
      -- `true` may also mean that bytes are missing; the loop does not tell the difference.
      | (false, c', buf') => .ret (false, c'.defaultError, buf')
      | (true, c', buf') => .next (c', buf')
    | .kExpectBody =>
      match parseBody c buf with
      | (false, c', buf') => .ret (false, c'.defaultError, buf')
      | (true, c', buf') => .next (c', buf')
    | .kGotCompleteRequest => .ret (true, c, buf)

/-- The receive time is set only when a new request starts. -/
def stamp (c : HttpContext) (receiveTime : Timestamp) : HttpContext :=
  if c.state = .kExpectRequestLine then
    { c with request := { c.request with receiveTime := receiveTime } }
  else c

/-- `parseRequest` with at most `fuel` rounds of its loop; `none` is no answer yet. -/
def parseRequest (fuel : ℕ) (c : HttpContext) (buf : Bytes) (receiveTime : Timestamp) :
    Option (Bool × HttpContext × Bytes) :=
  Loop.iterate loopBody fuel (c.stamp receiveTime, buf)

end HttpContext

end JingjieAR
