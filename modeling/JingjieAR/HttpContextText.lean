import JingjieAR.HttpContextRun

/-! The text of a header section, and what the parser has stored after reading it. -/
namespace JingjieAR

open Incremental (Drives Advances)

/-- Header lines as they stand in the stream. -/
def wireLines (lines : List Bytes) : Bytes := (lines.map (·++crlf)).flatten

/-- A header line that the parser stores. -/
def Storable (line : Bytes) : Prop := ∃ key value, StoredLine line key value

/-- The header map after one more line; the last value of a name wins. -/
def storeLine (headers : StringMap) (line : Bytes) : StringMap :=
  match headerField line with
  | some (key, value) => headers.insert (lowerCase key) value
  | none => headers

def storeLines (headers : StringMap) (lines : List Bytes) : StringMap :=
  lines.foldl storeLine headers

@[simp] theorem wireLines_nil : wireLines [] = [] := rfl

@[simp] theorem wireLines_cons (line : Bytes) (lines : List Bytes) :
    wireLines (line :: lines) = line++(crlf++wireLines lines) := by simp [wireLines]

/-- The request line of a complete request: the method is known and there are two blanks. -/
def RequestLineOk (line : Bytes) : Prop := (processRequestLine {} line).isSome

instance (line : Bytes) : Decidable (RequestLineOk line) :=
  inferInstanceAs (Decidable ((processRequestLine {} line).isSome = true))

theorem setUrl_frame (r : HttpRequest) (url : Bytes) :
    (setUrl r url).headers = r.headers ∧ (setUrl r url).body = r.body := by
  unfold setUrl
  split <;> exact ⟨rfl, rfl⟩

/-- Whether a request line is accepted depends on the line alone, and accepting it
leaves the header map and the body as they were. -/
theorem processRequestLine_spec (r : HttpRequest) (line : Bytes) :
    ((processRequestLine r line).isSome ↔ RequestLineOk line) ∧
      ∀ r', processRequestLine r line = some r' → r'.headers = r.headers ∧ r'.body = r.body := by
  unfold RequestLineOk processRequestLine
  cases findByte space line with
  | none => simp
  | some space1 =>
    dsimp only
    cases findByte space (line.drop (space1+1)) with
    | none => simp
    | some gap =>
      dsimp only
      split_ifs
      · simp
      · refine ⟨by simp, ?_⟩
        intro r' hr
        cases hr
        exact setUrl_frame _ _

theorem lowerCase_transferEncoding :
    lowerCase (ascii "transfer-encoding") = ascii "transfer-encoding" := by decide

/-- The headers name no transfer coding. -/
def NoTransferCoding (headers : StringMap) : Prop :=
  (headers.lookup (ascii "transfer-encoding")).getD [] = []

/-- The value of a `Content-Length` header is a length that the limits allow. -/
def LengthOk (limits : HttpLimits) (text : Bytes) (n : ℕ) : Prop :=
  parseContentLength text = .kContentLengthOk n ∧ n ≤ limits.maxBodyBytes

namespace HttpContext

/-- The empty line is accepted when the headers name no transfer coding and either
no length, which means no body, or an allowed one. -/
theorem endOfHeaders_true_iff (c c' : HttpContext) :
    endOfHeaders c = (true, c') ↔ NoTransferCoding c.request.headers ∧
      ((c.request.headers.lookup (ascii "content-length") = none ∧
          c' = { c with state := .kGotCompleteRequest }) ∨
        ∃ text n, c.request.headers.lookup (ascii "content-length") = some text ∧
          LengthOk c.limits text n ∧
          c' = { c with contentLength := n,
                        state := if n = 0 then .kGotCompleteRequest else .kExpectBody }) := by
  unfold endOfHeaders NoTransferCoding LengthOk HttpRequest.getHeader
  rw [lowerCase_transferEncoding]
  split_ifs with hte
  · simp [hte]
  · rw [not_not] at hte
    cases c.request.headers.lookup (ascii "content-length") with
    | none => simp [hte, eq_comm]
    | some text =>
      cases hp : parseContentLength text with
      | kContentLengthInvalid => simp [hp]
      | kContentLengthOverflow => simp [hp]
      | kContentLengthOk value =>
        by_cases hbig : value > c.limits.maxBodyBytes
        · simp [hp, hbig]
        · by_cases hpos : value > 0
          · have hne : value ≠ 0 := by omega
            simp [hp, hte, hbig, hpos, hne, eq_comm]
            omega
          · have hz : value = 0 := by omega
            simp [hp, hte, hz, eq_comm]

/-- The context after the header lines `lines`. -/
def storeLines (c : HttpContext) (lines : List Bytes) : HttpContext :=
  { c with request := { c.request with headers := JingjieAR.storeLines c.request.headers lines },
           headerBytes := c.headerBytes+(wireLines lines).length }

@[simp] theorem storeLines_nil (c : HttpContext) : c.storeLines [] = c := by
  simp [storeLines, JingjieAR.storeLines]

@[simp] theorem storeLines_limits (c : HttpContext) (lines : List Bytes) :
    (c.storeLines lines).limits = c.limits := rfl

@[simp] theorem storeLines_state (c : HttpContext) (lines : List Bytes) :
    (c.storeLines lines).state = c.state := rfl

@[simp] theorem storeLines_headerBytes (c : HttpContext) (lines : List Bytes) :
    (c.storeLines lines).headerBytes = c.headerBytes+(wireLines lines).length := rfl

@[simp] theorem storeLines_headers (c : HttpContext) (lines : List Bytes) :
    (c.storeLines lines).request.headers = JingjieAR.storeLines c.request.headers lines := rfl

theorem storeField_storeLines {line key value : Bytes} (hl : StoredLine line key value)
    (c : HttpContext) (lines : List Bytes) :
    (c.storeField line key value).storeLines lines = c.storeLines (line :: lines) := by
  have hlen : c.headerBytes+(line.length+2)+(wireLines lines).length =
      c.headerBytes+(wireLines (line :: lines)).length := by
    simp [crlf]
    omega
  have hmap : JingjieAR.storeLines (c.request.headers.insert (lowerCase key) value) lines =
      JingjieAR.storeLines c.request.headers (line :: lines) := by
    simp [JingjieAR.storeLines, storeLine, hl.field]
  simp [storeLines, storeField, HttpRequest.addHeader, hlen, hmap]

/-- Storable lines within the limit are all stored, whatever follows them. -/
theorem advances_storeLines {c : HttpContext} (hs : c.state = .kExpectHeaders)
    (lines : List Bytes) (hl : ∀ line ∈ lines, Storable line)
    (hfit : c.headerBytes+(wireLines lines).length ≤ c.limits.maxHeaderBytes) (tail : Bytes) :
    Advances lineStep (c, wireLines lines++tail) (c.storeLines lines, tail) := by
  induction lines generalizing c with
  | nil =>
    rw [wireLines_nil, List.nil_append, storeLines_nil]
    exact .refl
  | cons line lines ih =>
    obtain ⟨key, value, hline⟩ := hl line List.mem_cons_self
    have hlen : (wireLines (line :: lines)).length = line.length+2+(wireLines lines).length := by
      simp [crlf]
      omega
    have hstep : lineStep c (wireLines (line :: lines)++tail) =
        .advance (c.storeField line key value) (wireLines lines++tail) := by
      rw [lineStep_iff, wireLines_cons]
      simp only [List.append_assoc]
      exact .header hs hline (by omega)
    have htail := ih (c := c.storeField line key value) hs
      (fun l hmem => hl l (List.mem_cons_of_mem _ hmem)) (by simp only [storeField]; omega)
    rw [storeField_storeLines hline] at htail
    exact .head hstep htail

end HttpContext

end JingjieAR
