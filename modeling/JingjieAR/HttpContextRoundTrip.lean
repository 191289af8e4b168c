import JingjieAR.HttpContextAnswers

/-! Requests as records, and the reading of a pipelined connection with one context:
the wire forms of any list of records are read back as these records, in order. -/
namespace JingjieAR

open Incremental (Drives Advances)
open Loop (Iter)

def methodText : Method → Bytes
  | .kInvalid => []
  | .kGet => ascii "GET"
  | .kPost => ascii "POST"
  | .kHead => ascii "HEAD"
  | .kPut => ascii "PUT"
  | .kDelete => ascii "DELETE"
  | .kOptions => ascii "OPTIONS"

/-- The number that a string of decimal digits denotes. -/
def decimalValue (text : Bytes) (start : ℕ) : ℕ :=
  text.foldl (fun n c => n*10+(c.toNat-48)) start

/-- A decimal number, with or without leading zeros. -/
structure Decimal (text : Bytes) (n : ℕ) : Prop where
  ne_nil : text ≠ []
  digits : ∀ c ∈ text, isDigit c = true
  value : decimalValue text 0 = n

theorem decimal_iff {text : Bytes} {n : ℕ} :
    text ≠ [] ∧ text.all isDigit = true ∧ decimalValue text 0 = n ↔ Decimal text n := by
  constructor
  · intro h
    exact ⟨h.1, List.all_eq_true.mp h.2.1, h.2.2⟩
  · intro h
    exact ⟨h.ne_nil, List.all_eq_true.mpr h.digits, h.value⟩

instance (text : Bytes) (n : ℕ) : Decidable (Decimal text n) := decidable_of_iff _ decimal_iff

theorem notMem_of_digits {c : UInt8} (hc : isDigit c = false) {text : Bytes}
    (h : ∀ b ∈ text, isDigit b = true) : c ∉ text := by
  intro hmem
  have hdigit := h c hmem
  rw [hc] at hdigit
  contradiction

/-- A header field: `name ":" blanks value`. -/
structure HeaderField where
  name : Bytes
  blanks : ℕ
  value : Bytes
  name_text : colon ∉ name ∧ cr ∉ name ∧ lf ∉ name
  value_text : cr ∉ value ∧ lf ∉ value
  value_start : value.head? ≠ some space

namespace HeaderField

def key (f : HeaderField) : Bytes := lowerCase f.name

def line (f : HeaderField) : Bytes :=
  f.name++(colon :: (List.replicate f.blanks space++f.value))

def entry (f : HeaderField) : Sigma (fun _ : Bytes => Bytes) := ⟨f.key, f.value⟩

end HeaderField

/-- A request as its sender knows it. The query is absent, or stands behind a `?`;
the body has a declared length or is empty. -/
structure RequestRecord where
  method : Method
  path : Bytes
  query : Option Bytes
  version : Bytes
  fields : List HeaderField
  body : Bytes
  method_known : method ≠ .kInvalid
  path_text : questionMark ∉ path ∧ space ∉ path ∧ cr ∉ path ∧ lf ∉ path
  query_text : space ∉ query.getD [] ∧ cr ∉ query.getD [] ∧ lf ∉ query.getD []
  version_text : cr ∉ version ∧ lf ∉ version
  distinct : (fields.map HeaderField.key).Nodup
  no_coding : ∀ f ∈ fields, f.key ≠ ascii "transfer-encoding"
  length_field : ∀ f ∈ fields, f.key = ascii "content-length" → Decimal f.value body.length
  no_length : (∀ f ∈ fields, f.key ≠ ascii "content-length") → body = []

namespace RequestRecord

def url (r : RequestRecord) : Bytes :=
  match r.query with
  | some query => r.path++(questionMark :: query)
  | none => r.path

def requestLine (r : RequestRecord) : Bytes :=
  methodText r.method++(space :: (r.url++(space :: r.version)))

def wire (r : RequestRecord) : Bytes :=
  r.requestLine++(crlf++(wireLines (r.fields.map HeaderField.line)++(crlf++r.body)))

/-- The request object that holds exactly this record: names in lower case, every
member that the wire form does not give at its default. -/
def request (r : RequestRecord) (receiveTime : Timestamp) : HttpRequest :=
  { method := r.method, path := r.path, query := r.query.getD [], version := r.version,
    headers := (r.fields.map HeaderField.entry).toFinmap, body := r.body,
    receiveTime := receiveTime }

/-- The limits that the parser applies to one request. -/
structure Fits (r : RequestRecord) (limits : HttpLimits) : Prop where
  line : r.requestLine.length+2 ≤ limits.maxRequestLineBytes
  headers : (wireLines (r.fields.map HeaderField.line)).length+2 ≤ limits.maxHeaderBytes
  body : r.body.length ≤ limits.maxBodyBytes

end RequestRecord

namespace HttpContext

/-- One request of a connection: iterate the loop body of `parseRequest`, take the
completed request and `reset` the context. -/
def takeRound (receiveTime : Timestamp) : List HttpRequest × HttpContext × Bytes →
    Iter (List HttpRequest × HttpContext × Bytes) (List HttpRequest × Outcome)
  | (taken, c, buf) =>
    match run (c.stamp receiveTime) buf with
    | .completed c' buf' => .next (taken++[c'.request], c'.reset, buf')
    | v => .ret (taken, v)

/-- Unread bytes, counted twice, and one for a context that may complete without reading. -/
def unread (s : List HttpRequest × HttpContext × Bytes) : ℕ :=
  2*s.2.2.length+
    if s.2.1.state = .kExpectBody ∨ s.2.1.state = .kGotCompleteRequest then 1 else 0

theorem takeRound_decreases (t : Timestamp) : Loop.Decreases (takeRound t) unread := by
  intro s s' h
  obtain ⟨taken, c, buf⟩ := s
  simp only [takeRound] at h
  split at h
  · rename_i c' buf' hrun
    injection h with he
    subst he
    have hd := drives_run (c.stamp t) buf
    rw [hrun] at hd
    obtain ⟨-, hle, hlt⟩ := drives_completed_spec hd
    rw [stamp_state] at hlt
    -- Only a context in the body or behind it can complete without reading a byte.
    have hreset : unread (taken++[c'.request], c'.reset, buf') = 2*buf'.length := by
      simp [unread, reset]
    rw [hreset]
    unfold unread
    split_ifs with hc
    · dsimp only
      omega
    · have := hlt (fun h => hc (.inl h)) (fun h => hc (.inr h))
      dsimp only
      omega
  · contradiction

/-- Read requests with one context until the parser waits or reports an error. -/
def takeRequests (receiveTime : Timestamp) (c : HttpContext) (buf : Bytes) :
    List HttpRequest × Outcome :=
  Loop.value (takeRound_decreases receiveTime) ([], c, buf)

end HttpContext

section Texts

theorem findByte_eq_none {c : UInt8} {text : Bytes} (h : c ∉ text) : findByte c text = none := by
  rw [findByte, List.findIdx?_eq_none_iff]
  intro b hb
  simp only [beq_eq_false_iff_ne]
  intro he
  exact h (he ▸ hb)

theorem findByte_append_cons {c : UInt8} {before : Bytes} (after : Bytes) (h : c ∉ before) :
    findByte c (before++(c :: after)) = some before.length := by
  have hnone := findByte_eq_none h
  unfold findByte at hnone ⊢
  simp [List.findIdx?_append, hnone, List.findIdx?_cons]

theorem findCRLF_eq_none {text : Bytes} (h : cr ∉ text) : findCRLF text = none := by
  fun_induction findCRLF text with
  | case1 a b rest hab => exact absurd (hab.1 ▸ List.mem_cons_self) h
  | case2 a b rest hab ih => simp [ih (fun hb => h (List.mem_cons_of_mem _ hb))]
  | case3 => rfl

theorem le_decimalValue (text : Bytes) (start : ℕ) : start ≤ decimalValue text start := by
  induction text generalizing start with
  | nil => exact le_rfl
  | cons c text ih =>
    calc start ≤ start*10+(c.toNat-48) := by omega
      _ ≤ decimalValue (c :: text) start := ih _

/-- The overflow test of the parser refuses only numbers that do not fit. -/
theorem parseDigits_of_digits {text : Bytes} (hd : ∀ c ∈ text, isDigit c = true) (start : ℕ)
    (hfit : decimalValue text start ≤ sizeMax) :
    parseDigits text start = .kContentLengthOk (decimalValue text start) := by
  induction text generalizing start with
  | nil => rfl
  | cons c text ih =>
    have hdigit := hd c List.mem_cons_self
    -- The value only grows from here, so the bound holds of every prefix.
    have hstep : start*10+(c.toNat-48) ≤ sizeMax := (le_decimalValue text _).trans hfit
    have hroom : ¬start > (sizeMax-(c.toNat-48))/10 := by omega
    simp only [parseDigits, hdigit, hroom, Bool.not_true, Bool.false_eq_true, ↓reduceIte]
    exact ih (fun b hb => hd b (List.mem_cons_of_mem _ hb)) _ hfit

theorem parseContentLength_decimal {text : Bytes} {n : ℕ} (h : Decimal text n)
    (hfit : n ≤ sizeMax) : parseContentLength text = .kContentLengthOk n := by
  obtain ⟨hne, hd, rfl⟩ := h
  rw [parseContentLength, if_neg hne, parseDigits_of_digits hd 0 hfit]

theorem stringToMethod_methodText {m : Method} (h : m ≠ .kInvalid) :
    stringToMethod (methodText m) = m ∧ space ∉ methodText m ∧ cr ∉ methodText m := by
  cases m with
  | kInvalid => contradiction
  | kGet => decide
  | kPost => decide
  | kHead => decide
  | kPut => decide
  | kDelete => decide
  | kOptions => decide

end Texts

namespace HeaderField

theorem dropWhile_blanks {value : Bytes} (h : value.head? ≠ some space) (n : ℕ) :
    (List.replicate n space++value).dropWhile (· == space) = value := by
  induction n with
  | zero =>
    cases value with
    | nil => rfl
    | cons b value =>
      have hb : b ≠ space := by simpa using h
      simp [hb]
  | succ n ih => simpa [List.replicate_succ] using ih

theorem headerField_line (f : HeaderField) : headerField f.line = some (f.name, f.value) := by
  have hpos : findByte colon f.line = some f.name.length :=
    findByte_append_cons _ f.name_text.1
  have hkey : headerKey f.line f.name.length = f.name := List.take_left' rfl
  have hdrop : f.line.drop (f.name.length+1) = List.replicate f.blanks space++f.value := by
    simp [line, List.drop_append]
  simp [headerField, hpos, hkey, headerValue, hdrop, dropWhile_blanks f.value_start]

theorem storedLine_line {f : HeaderField} (h : f.key ≠ ascii "transfer-encoding") :
    StoredLine f.line f.name f.value := by
  refine ⟨?_, by simp [line], f.headerField_line, fun hr => h hr.1⟩
  apply findCRLF_eq_none
  simp only [line, List.mem_append, List.mem_cons, List.mem_replicate, not_or]
  exact ⟨f.name_text.2.1, by decide, fun hs => absurd hs.2 (by decide), f.value_text.1⟩

/-- With distinct names the order of the fields does not matter: each is stored once. -/
theorem storeLines_lookup (fields : List HeaderField) (hd : (fields.map key).Nodup)
    (headers : StringMap) (name : Bytes) :
    (storeLines headers (fields.map line)).lookup name =
      ((fields.map entry).dlookup name).or (headers.lookup name) := by
  induction fields generalizing headers with
  | nil => simp [storeLines]
  | cons f fields ih =>
    rw [List.map_cons, List.nodup_cons] at hd
    have hstore : storeLines headers ((f :: fields).map line) =
        storeLines (headers.insert f.key f.value) (fields.map line) := by
      simp [storeLines, storeLine, f.headerField_line, key]
    rw [hstore, ih hd.2, List.map_cons]
    by_cases hn : name = f.key
    · subst hn
      have hnone : (fields.map entry).dlookup f.key = none := by
        rw [List.dlookup_eq_none]
        intro hmem
        apply hd.1
        simpa [List.keys, entry, Function.comp_def] using hmem
      have hhead : (f.entry :: fields.map entry).dlookup f.key = some f.value :=
        List.dlookup_cons_eq _ _ _
      rw [hnone, hhead, Finmap.lookup_insert]
      rfl
    · have hhead : (f.entry :: fields.map entry).dlookup name = (fields.map entry).dlookup name :=
        List.dlookup_cons_ne _ _ hn
      rw [hhead, Finmap.lookup_insert_of_ne _ hn]

theorem storeLines_empty {fields : List HeaderField} (hd : (fields.map key).Nodup) :
    storeLines ∅ (fields.map line) = (fields.map entry).toFinmap := by
  apply Finmap.ext_lookup
  intro name
  rw [storeLines_lookup fields hd, Finmap.lookup_empty, Option.or_none,
    Finmap.dlookup_list_toFinmap]

end HeaderField

namespace RequestRecord

variable (r : RequestRecord)

theorem setUrl_url (q : HttpRequest) (hq : q.query = [] ∧ q.queryParsed = false ∧
    q.queryParams = ∅) : setUrl q r.url = { q with path := r.path, query := r.query.getD [] } := by
  unfold setUrl url
  obtain ⟨h1, h2, h3⟩ := hq
  cases r.query with
  | none =>
    rw [findByte_eq_none r.path_text.1]
    simp [← h1]
  | some query =>
    rw [findByte_append_cons _ r.path_text.1]
    simp [HttpRequest.setQuery, h2, h3, List.drop_append]

theorem not_mem_url {b : UInt8} (hb : b ≠ questionMark) (hpath : b ∉ r.path)
    (hquery : b ∉ r.query.getD []) : b ∉ r.url := by
  unfold url
  cases h : r.query with
  | none => exact hpath
  | some query =>
    rw [h] at hquery
    simp only [List.mem_append, List.mem_cons, not_or]
    exact ⟨hpath, hb, hquery⟩

theorem findCRLF_requestLine : findCRLF r.requestLine = none := by
  have hurl : cr ∉ r.url := r.not_mem_url (by decide) r.path_text.2.2.1 r.query_text.2.1
  apply findCRLF_eq_none
  simp only [requestLine, List.mem_append, List.mem_cons, not_or]
  exact ⟨(stringToMethod_methodText r.method_known).2.2, by decide, hurl, by decide,
    r.version_text.1⟩

/-- The request after its first line. -/
def opened (t : Timestamp) : HttpRequest :=
  { method := r.method, path := r.path, query := r.query.getD [], version := r.version,
    receiveTime := t }

theorem processRequestLine_requestLine (t : Timestamp) :
    processRequestLine { receiveTime := t } r.requestLine = some (r.opened t) := by
  obtain ⟨hm, hspace, -⟩ := stringToMethod_methodText r.method_known
  have hpos : findByte space r.requestLine = some (methodText r.method).length :=
    findByte_append_cons _ hspace
  have htake : r.requestLine.take (methodText r.method).length = methodText r.method :=
    List.take_left' rfl
  have hdrop : r.requestLine.drop ((methodText r.method).length+1) =
      r.url++(space :: r.version) := by simp [requestLine, List.drop_append]
  have hgap : findByte space (r.url++(space :: r.version)) = some r.url.length := by
    apply findByte_append_cons
    exact r.not_mem_url (by decide) r.path_text.2.1 r.query_text.1
  have hversion : (r.url++(space :: r.version)).drop (r.url.length+1) = r.version := by
    simp [List.drop_append]
  have hurl : (r.url++(space :: r.version)).take r.url.length = r.url := List.take_left' rfl
  simp only [processRequestLine, hpos, hdrop, hgap, htake, hm, r.method_known, hversion, hurl,
    ↓reduceIte]
  rw [setUrl_url r { method := r.method, receiveTime := t } ⟨rfl, rfl, rfl⟩]
  rfl

/-- The context in front of the empty line. -/
def headed (limits : HttpLimits) (t : Timestamp) : HttpContext :=
  { state := .kExpectHeaders,
    request := { r.opened t with headers := (r.fields.map HeaderField.entry).toFinmap },
    headerBytes := (wireLines (r.fields.map HeaderField.line)).length, limits := limits }

open HttpContext

theorem advances_headed {limits : HttpLimits} (hf : r.Fits limits) (t : Timestamp) (tail : Bytes) :
    Advances lineStep ((HttpContext.new limits).stamp t, r.wire++tail)
      (r.headed limits t, crlf++(r.body++tail)) := by
  have hline : lineStep ((HttpContext.new limits).stamp t) (r.wire++tail) =
      .advance { state := .kExpectHeaders, request := r.opened t, limits := limits }
        (wireLines (r.fields.map HeaderField.line)++(crlf++(r.body++tail))) := by
    rw [lineStep_iff]
    simp only [wire, List.append_assoc]
    exact .requestLine rfl r.findCRLF_requestLine hf.line (r.processRequestLine_requestLine t)
  have hlines : ∀ line ∈ r.fields.map HeaderField.line, Storable line := by
    intro line hmem
    obtain ⟨f, hfield, rfl⟩ := List.mem_map.mp hmem
    exact ⟨_, _, HeaderField.storedLine_line (r.no_coding f hfield)⟩
  have hroom : 0+(wireLines (r.fields.map HeaderField.line)).length ≤ limits.maxHeaderBytes := by
    have := hf.headers
    omega
  have hstored := advances_storeLines
    (c := { state := .kExpectHeaders, request := r.opened t, limits := limits }) rfl _ hlines
    hroom (crlf++(r.body++tail))
  -- With distinct names nothing is overwritten.
  have hctx : HttpContext.storeLines
      { state := .kExpectHeaders, request := r.opened t, limits := limits }
      (r.fields.map HeaderField.line) = r.headed limits t := by
    simp [HttpContext.storeLines, headed, opened, HeaderField.storeLines_empty r.distinct]
  rw [hctx] at hstored
  exact .head hline hstored

theorem headers_keys : (r.fields.map HeaderField.entry).keys = r.fields.map HeaderField.key := by
  simp [List.keys, HeaderField.entry, Function.comp_def]

theorem lookup_field {f : HeaderField} (hf : f ∈ r.fields) :
    (r.fields.map HeaderField.entry).toFinmap.lookup f.key = some f.value := by
  rw [Finmap.dlookup_list_toFinmap]
  refine (List.mem_dlookup_iff ?_).mpr (List.mem_map_of_mem hf)
  rw [List.NodupKeys, headers_keys]
  exact r.distinct

theorem lookup_missing {name : Bytes} (h : ∀ f ∈ r.fields, f.key ≠ name) :
    (r.fields.map HeaderField.entry).toFinmap.lookup name = none := by
  rw [Finmap.dlookup_list_toFinmap, List.dlookup_eq_none, headers_keys]
  intro hmem
  obtain ⟨f, hf, hk⟩ := List.mem_map.mp hmem
  exact h f hf hk

/-- From the empty line on: the body is taken by its declared length, whatever bytes
it holds and whatever follows it. -/
theorem drives_headed {limits : HttpLimits} (hf : r.Fits limits)
    (hsize : limits.maxBodyBytes ≤ sizeMax) (t : Timestamp) (tail : Bytes) :
    ∃ c, Drives lineStep (r.headed limits t) (crlf++(r.body++tail)) (.completed c tail) ∧
      c.request = r.request t := by
  have hroom : (r.headed limits t).headerBytes+2 ≤ limits.maxHeaderBytes := hf.headers
  have hcoding : NoTransferCoding (r.headed limits t).countBlank.request.headers := by
    unfold NoTransferCoding
    exact congrArg (fun o => Option.getD o []) (r.lookup_missing r.no_coding)
  have hblank {c : HttpContext} (hend : endOfHeaders (r.headed limits t).countBlank = (true, c)) :
      lineStep (r.headed limits t) (crlf++(r.body++tail)) = .advance c (r.body++tail) :=
    (lineStep_iff _ _ _).mpr (.headersEnd rfl hroom hend)
  by_cases hlen : ∃ f ∈ r.fields, f.key = ascii "content-length"
  · obtain ⟨f, hmem, hkey⟩ := hlen
    have hlookup := r.lookup_field hmem
    rw [hkey] at hlookup
    have hlength : LengthOk limits f.value r.body.length :=
      ⟨parseContentLength_decimal (r.length_field f hmem hkey) (hf.body.trans hsize), hf.body⟩
    have hend := (endOfHeaders_true_iff _ _).mpr ⟨hcoding, .inr ⟨_, _, hlookup, hlength, rfl⟩⟩
    by_cases hempty : r.body = []
    · -- A declared length of zero completes the request at the empty line.
      rw [if_pos (by rw [hempty, List.length_nil])] at hend
      have hstep := hblank hend
      rw [hempty, List.nil_append] at hstep ⊢
      refine ⟨_, .advance hstep (.done ((lineStep_iff _ _ _).mpr (.complete rfl))), ?_⟩
      simp [request, headed, opened, countBlank, hempty]
    · rw [if_neg (by simpa using hempty)] at hend
      refine ⟨_, .advance (hblank hend) (.advance ((lineStep_iff _ _ _).mpr (.body rfl rfl))
        (.done ((lineStep_iff _ _ _).mpr (.complete rfl)))), ?_⟩
      rfl
  · -- Without a length there is no body to read.
    have hnone : ∀ f ∈ r.fields, f.key ≠ ascii "content-length" :=
      fun f hmem hkey => hlen ⟨f, hmem, hkey⟩
    have hempty := r.no_length hnone
    have hend := (endOfHeaders_true_iff _ _).mpr
      ⟨hcoding, .inl ⟨r.lookup_missing hnone, rfl⟩⟩
    have hstep := hblank hend
    rw [hempty, List.nil_append] at hstep ⊢
    refine ⟨_, .advance hstep (.done ((lineStep_iff _ _ _).mpr (.complete rfl))), ?_⟩
    simp [request, headed, opened, countBlank, hempty]

end RequestRecord

namespace HttpContext

theorem reset_eq_new (c : HttpContext) : c.reset = new c.limits := rfl

/-- One record at the front of the buffer is taken whole, and leaves a fresh context. -/
theorem takeRound_wire {limits : HttpLimits} {r : RequestRecord} (hf : r.Fits limits)
    (hsize : limits.maxBodyBytes ≤ sizeMax) (t : Timestamp) (taken : List HttpRequest)
    (tail : Bytes) :
    takeRound t (taken, new limits, r.wire++tail) =
      .next (taken++[r.request t], new limits, tail) := by
  obtain ⟨c, hd, hrequest⟩ := r.drives_headed hf hsize t tail
  have hdrives : Drives lineStep ((new limits).stamp t) (r.wire++tail) (.completed c tail) :=
    (Incremental.drives_advances_iff (r.advances_headed hf t tail)).mpr hd
  have hlimits : c.limits = limits := drives_completed_limits hdrives
  have hrun := run_eq_iff.mpr hdrives
  simp only [takeRound, hrun, reset_eq_new, hrequest, hlimits]

theorem takeRound_nil (limits : HttpLimits) (t : Timestamp) (taken : List HttpRequest) :
    takeRound t (taken, new limits, []) = .ret (taken, .waiting ((new limits).stamp t) []) := by
  have hwait : lineStep ((new limits).stamp t) [] = .wait :=
    (lineStep_iff _ _ _).mpr (.requestLineWait rfl rfl (Nat.zero_le _))
  have hrun := run_eq_iff.mpr (Drives.wait hwait)
  simp only [takeRound, hrun]

/-- By induction on the records: each round takes one of them and starts the next with
the context of a new connection. -/
theorem returns_takeRound {limits : HttpLimits} (hsize : limits.maxBodyBytes ≤ sizeMax)
    {records : List RequestRecord} (hf : ∀ r ∈ records, r.Fits limits) (t : Timestamp)
    (taken : List HttpRequest) :
    Loop.Returns (takeRound t) (taken, new limits, (records.map RequestRecord.wire).flatten)
      (taken++records.map (·.request t), .waiting ((new limits).stamp t) []) := by
  induction records generalizing taken with
  | nil =>
    rw [List.map_nil, List.map_nil, List.append_nil]
    exact .ret (takeRound_nil limits t taken)
  | cons r records ih =>
    rw [List.map_cons, List.flatten_cons]
    refine .next (takeRound_wire (hf r List.mem_cons_self) hsize t taken _) ?_
    have htail := ih (fun r' hr' => hf r' (List.mem_cons_of_mem _ hr')) (taken++[r.request t])
    rwa [List.append_assoc, List.singleton_append] at htail

/-- A pipelined connection reads back what was sent: the requests of the records, in
order, and then waits with a fresh context and no byte left. -/
theorem takeRequests_wire (limits : HttpLimits) (hsize : limits.maxBodyBytes ≤ sizeMax)
    (records : List RequestRecord) (hf : ∀ r ∈ records, r.Fits limits) (t : Timestamp) :
    takeRequests t (new limits) (records.map RequestRecord.wire).flatten =
      (records.map (·.request t), .waiting ((new limits).stamp t) []) := by
  have hvalue := Loop.returns_value (takeRound_decreases t)
    ([], new limits, (records.map RequestRecord.wire).flatten)
  exact Loop.returns_unique hvalue (returns_takeRound hsize hf t [])

/-- Two requests on one connection; the body of the first looks like a request. -/
def likePost : RequestRecord where
  method := .kPost
  path := ascii "/api/artworks/a1/likes"
  query := some (ascii "from=list")
  version := ascii "HTTP/1.1"
  fields :=
    [⟨ascii "Content-Length", 1, ascii "18", by decide, by decide, by decide⟩,
     ⟨ascii "Host", 0, [], by decide, by decide, by decide⟩]
  body := ascii "GET / HTTP/1.1"++crlf++crlf
  method_known := by decide
  path_text := by decide
  query_text := by decide
  version_text := by decide
  distinct := by decide
  no_coding := by decide
  length_field := by decide
  no_length := by decide

def rootGet : RequestRecord where
  method := .kGet
  path := ascii "/"
  query := none
  version := ascii "HTTP/1.1"
  fields := []
  body := []
  method_known := by decide
  path_text := by decide
  query_text := by decide
  version_text := by decide
  distinct := by decide
  no_coding := by decide
  length_field := by decide
  no_length := by decide

theorem likePost_fits : likePost.Fits {} := ⟨by decide, by decide, by decide⟩

theorem rootGet_fits : rootGet.Fits {} := ⟨by decide, by decide, by decide⟩

theorem takeRequests_wire_two :
    takeRequests 5 (new {}) ([likePost, rootGet].map RequestRecord.wire).flatten =
      ([likePost.request 5, rootGet.request 5], .waiting ((new {}).stamp 5) []) := by
  refine takeRequests_wire {} (by decide) [likePost, rootGet] ?_ 5
  intro r hr
  rw [List.mem_cons, List.mem_singleton] at hr
  rcases hr with rfl | rfl
  · exact likePost_fits
  · exact rootGet_fits

end HttpContext

end JingjieAR
