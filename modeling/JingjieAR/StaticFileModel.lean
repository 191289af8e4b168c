import JingjieAR.HttpContextModel
import JingjieAR.HttpDispatcherModel
import JingjieAR.UrlCoding
import Mathlib.Data.List.TakeWhile

/-! The static file handler. The file system is what `realpath`, `stat` and the opening
of a file answer at one moment; the conversions between HTTP dates and seconds are
parameters. -/
namespace JingjieAR

open HttpResponse (decimal)

def dot : UInt8 := 46
def comma : UInt8 := 44
def dash : UInt8 := 45

/-- The part of `st_mode` that `S_ISREG` and `S_ISDIR` look at. -/
inductive FileKind
  | regular
  | directory
  | other
deriving DecidableEq

/-- The members of `struct stat` that are read. -/
structure FileStat where
  kind : FileKind
  ino : ℕ
  size : ℕ
  mtime : ℤ
deriving DecidableEq

def FileStat.regular (st : FileStat) : Bool := st.kind = .regular

/-- The calls take a path without NUL; `realpath` gives the path without links. -/
structure FileSystem where
  realpath : Bytes → Option Bytes
  stat : Bytes → Option FileStat

/-- `parseHttpDate` and `formatHttpDate`, which rest on `strptime` and `strftime`. -/
structure HttpDates where
  parse : Bytes → Option ℤ
  format : ℤ → Bytes

/-- What a system call sees of a string that is passed by `c_str()`. -/
def cString (text : Bytes) : Bytes := text.takeWhile (· ≠ 0)

theorem cString_eq {text : Bytes} (h : 0 ∉ text) : cString text = text := by
  rw [cString, List.takeWhile_eq_self_iff]
  intro c hc
  have hne : c ≠ 0 := fun hzero => h (hzero ▸ hc)
  simpa using hne

/-- The loop of `parseContentLength`; the two ways to fail are one here. -/
def parseUnsignedSize (value : Bytes) : Option ℕ :=
  match parseContentLength value with
  | .kContentLengthOk parsed => some parsed
  | .kContentLengthInvalid => none
  | .kContentLengthOverflow => none

/-- `bytes=-SUFFIX`: the last bytes of the file, at most the whole of it. -/
def suffixRange (last : Bytes) (fileSize : ℕ) : Option (ℕ × ℕ) :=
  match parseUnsignedSize last with
  | none => none
  | some suffix =>
    if suffix = 0 then none
    else
      let count := if suffix < fileSize then suffix else fileSize
      some (fileSize-count, count)

/-- `bytes=FIRST-` and `bytes=FIRST-LAST`. -/
def boundedRange (first last : Bytes) (fileSize : ℕ) : Option (ℕ × ℕ) :=
  match parseUnsignedSize first with
  | none => none
  | some start =>
    if start ≥ fileSize then none
    else if last = [] then some (start, fileSize-1-start+1)
    else
      match parseUnsignedSize last with
      | none => none
      | some parsed =>
        if parsed < start then none
        else
          let stop := if parsed ≥ fileSize then fileSize-1 else parsed
          some (start, stop-start+1)

/-- The offset and the count of the one range that is asked for. -/
def parseSingleRange (value : Bytes) (fileSize : ℕ) : Option (ℕ × ℕ) :=
  if fileSize = 0 ∨ value.take 6 ≠ ascii "bytes=" then none
  else
    let range := value.drop 6
    if comma ∈ range then none
    else
      match findByte dash range with
      | none => none
      | some separator =>
        let first := range.take separator
        let last := range.drop (separator+1)
        -- The first `-` has to be the last one as well.
        if dash ∈ last then none
        else if first = [] ∧ last = [] then none
        else if first = [] then suffixRange last fileSize
        else boundedRange first last fileSize

structure FilePlan where
  status : HttpStatusCode := .k200Ok
  path : Bytes := []
  etag : Bytes := []
  lastModified : ℤ := 0
  fileSize : ℕ := 0
  fileOffset : ℕ := 0
  responseSize : ℕ := 0
  isPartial : Bool := false
  isFile : Bool := false
deriving DecidableEq

/-- Two dots somewhere in the text, also inside a longer name. -/
def containsDotDot : Bytes → Bool
  | a :: b :: rest => (a = dot && b = dot) || containsDotDot (b :: rest)
  | _ => false

/-- A number as a stream writes it, with the sign of a time before 1970. -/
def signedDecimal (n : ℤ) : Bytes := ascii (toString n)

def makeEtag (st : FileStat) : Bytes :=
  ascii "\""++(decimal st.ino++(dash :: (decimal st.size++(dash ::
    (signedDecimal st.mtime++ascii "\"")))))

/-- The plan for a regular file before the conditions of the request are looked at. -/
def filePlan (resolved : Bytes) (st : FileStat) : FilePlan where
  path := resolved
  etag := makeEtag st
  lastModified := st.mtime
  fileSize := st.size
  responseSize := st.size
  isFile := true

/-- `If-None-Match` or `If-Modified-Since` allow the answer `304`. -/
def notModified (dates : HttpDates) (request : HttpRequest) (plan : FilePlan) : Bool :=
  request.getHeader (ascii "If-None-Match") = plan.etag ||
    match dates.parse (request.getHeader (ascii "If-Modified-Since")) with
    | some ifModifiedSince => plan.lastModified ≤ ifModifiedSince
    | none => false

def conditionalPlan (dates : HttpDates) (request : HttpRequest) (plan : FilePlan) : FilePlan :=
  if notModified dates request plan then { plan with status := .k304NotModified }
  else
    let range := request.getHeader (ascii "Range")
    if range = [] then plan
    else
      match parseSingleRange range plan.fileSize with
      | none => { plan with status := .k416RangeNotSatisfiable }
      | some (offset, count) =>
        { plan with status := .k206PartialContent, fileOffset := offset, responseSize := count,
                    isPartial := true }

/-- `resolved` starts with the root and goes on with a `/`. -/
def underRoot (root resolved : Bytes) : Bool :=
  resolved.take root.length = root && (resolved.drop root.length).head? = some slash

/-- The path of the index page stands for the root itself. -/
def servedPath (path : Bytes) : Bytes := if path = [slash] then ascii "/index.html" else path

def prepareInRoot (fs : FileSystem) (dates : HttpDates) (root : Bytes) (request : HttpRequest) :
    FilePlan :=
  let path := urlDecode request.path
  if path.head? ≠ some slash ∨ containsDotDot path then { status := .k400BadRequest }
  else
    match fs.realpath (cString (root++servedPath path)) with
    | none => { status := .k404NotFound }
    | some resolved =>
      if !underRoot root resolved then { status := .k404NotFound }
      else
        match fs.stat resolved with
        | none => { status := .k404NotFound }
        | some st =>
          if !st.regular then { status := .k404NotFound }
          else conditionalPlan dates request (filePlan resolved st)

/-- The four ways in which the conditions of a request can end. -/
theorem conditionalPlan_cases (dates : HttpDates) (request : HttpRequest) (plan : FilePlan) :
    conditionalPlan dates request plan = { plan with status := .k304NotModified } ∨
    conditionalPlan dates request plan = plan ∨
    conditionalPlan dates request plan = { plan with status := .k416RangeNotSatisfiable } ∨
    ∃ offset count,
      parseSingleRange (request.getHeader (ascii "Range")) plan.fileSize = some (offset, count) ∧
      conditionalPlan dates request plan =
        { plan with status := .k206PartialContent, fileOffset := offset, responseSize := count,
                    isPartial := true } := by
  simp only [conditionalPlan]
  split
  · exact .inl rfl
  · split
    · exact .inr (.inl rfl)
    · split
      · exact .inr (.inr (.inl rfl))
      · rename_i offset count hrange
        exact .inr (.inr (.inr ⟨offset, count, hrange, rfl⟩))

theorem conditionalPlan_file (dates : HttpDates) (request : HttpRequest)
    (plan : FilePlan) : (conditionalPlan dates request plan).isFile = plan.isFile ∧
      (conditionalPlan dates request plan).path = plan.path := by
  rcases conditionalPlan_cases dates request plan with h | h | h | ⟨offset, count, -, h⟩
  all_goals
    rw [h]
    exact ⟨rfl, rfl⟩

/-- A path that is accepted and resolves below the root to a regular file. -/
structure Found (fs : FileSystem) (root path resolved : Bytes) (st : FileStat) : Prop where
  absolute : path.head? = some slash
  no_dots : containsDotDot path = false
  resolves : fs.realpath (cString (root++servedPath path)) = some resolved
  under : underRoot root resolved = true
  stat : fs.stat resolved = some st
  regular : st.regular = true

theorem prepareInRoot_of_found {fs : FileSystem} {root resolved : Bytes} {st : FileStat}
    {request : HttpRequest} (h : Found fs root (urlDecode request.path) resolved st)
    (dates : HttpDates) :
    prepareInRoot fs dates root request =
      conditionalPlan dates request (filePlan resolved st) := by
  have hpath : ¬((urlDecode request.path).head? ≠ some slash ∨
      containsDotDot (urlDecode request.path) = true) := by
    simp [h.absolute, h.no_dots]
  simp only [prepareInRoot]
  rw [if_neg hpath, h.resolves]
  simp [h.under, h.stat, h.regular]

/-- Every other request gets a plan without a file, for a `400` or a `404`. -/
theorem prepareInRoot_cases (fs : FileSystem) (dates : HttpDates) (root : Bytes)
    (request : HttpRequest) :
    prepareInRoot fs dates root request = { status := .k400BadRequest } ∨
    prepareInRoot fs dates root request = { status := .k404NotFound } ∨
    ∃ resolved st, Found fs root (urlDecode request.path) resolved st := by
  rw [prepareInRoot]
  split
  · exact .inl rfl
  · rename_i hpath
    obtain ⟨habsolute, hdots⟩ := not_or.mp hpath
    right
    split
    · exact .inl rfl
    · rename_i resolved hresolves
      split
      · exact .inl rfl
      · rename_i hunder
        split
        · exact .inl rfl
        · rename_i st hstat
          split
          · exact .inl rfl
          · rename_i hregular
            exact .inr ⟨resolved, st, by simpa using habsolute, by simpa using hdots, hresolves,
              by simpa using hunder, hstat, by simpa using hregular⟩

structure CachedFileEntry where
  content : Bytes := []
  contentType : Bytes := []
  lastModified : ℤ := 0
  fileSize : ℕ := 0
deriving DecidableEq

structure StaticFileHandler where
  root : Bytes := []
  threshold : ℕ

namespace StaticFileHandler

/-- The root stays empty when `realpath` fails. -/
def new (fs : FileSystem) (root : Bytes) (largeFileThreshold : ℕ) : StaticFileHandler where
  root := (fs.realpath (cString root)).getD []
  threshold := largeFileThreshold

def prepare (h : StaticFileHandler) (fs : FileSystem) (dates : HttpDates)
    (request : HttpRequest) : FilePlan :=
  prepareInRoot fs dates h.root request

end StaticFileHandler

/-- The extension with its dot, behind the last dot of the path. -/
def extension (path : Bytes) : Option Bytes :=
  if dot ∈ path then some (dot :: (path.reverse.takeWhile (· ≠ dot)).reverse) else none

/-- `StaticFileCache::getMimeType`. -/
def getMimeType (path : Bytes) : Bytes :=
  match extension path with
  | none => ascii "application/octet-stream"
  | some ext =>
    if ext = ascii ".html" ∨ ext = ascii ".htm" then ascii "text/html; charset=utf-8"
    else if ext = ascii ".css" then ascii "text/css; charset=utf-8"
    else if ext = ascii ".js" then ascii "application/javascript; charset=utf-8"
    else if ext = ascii ".json" then ascii "application/json; charset=utf-8"
    else if ext = ascii ".xml" then ascii "application/xml; charset=utf-8"
    else if ext = ascii ".txt" then ascii "text/plain; charset=utf-8"
    else if ext = ascii ".svg" then ascii "image/svg+xml"
    else if ext = ascii ".png" then ascii "image/png"
    else if ext = ascii ".jpg" ∨ ext = ascii ".jpeg" then ascii "image/jpeg"
    else if ext = ascii ".gif" then ascii "image/gif"
    else if ext = ascii ".ico" then ascii "image/x-icon"
    else if ext = ascii ".woff" then ascii "font/woff"
    else if ext = ascii ".woff2" then ascii "font/woff2"
    else if ext = ascii ".ttf" then ascii "font/ttf"
    else if ext = ascii ".wasm" then ascii "application/wasm"
    else if ext = ascii ".pdf" then ascii "application/pdf"
    else if ext = ascii ".mp4" then ascii "video/mp4"
    else if ext = ascii ".webp" then ascii "image/webp"
    else ascii "application/octet-stream"

def mime (path : Bytes) : Bytes :=
  if (ascii ".webp").isSuffixOf path then ascii "image/webp"
  else if (ascii ".glb").isSuffixOf path then ascii "model/gltf-binary"
  else if (ascii ".patt").isSuffixOf path then ascii "text/plain"
  else if (ascii ".gltf").isSuffixOf path then ascii "model/gltf+json"
  else if (ascii ".bin").isSuffixOf path then ascii "application/octet-stream"
  else getMimeType path

def HttpResponse.setFile (r : HttpResponse) (path : Bytes) (offset count : ℕ) : HttpResponse :=
  { r with filePath := path, fileOffset := offset, fileCount := count }

/-- What the handler meets when it wants the content of a small file: the entry that the
cache has for the path, and what the file gives when it is opened and read. -/
structure FileAccess where
  cached : Option CachedFileEntry
  read : Option Bytes

/-- What `populateResponse` leaves: the response, the entry that it puts into the cache,
and whether it throws. -/
structure Populated where
  response : HttpResponse
  put : Option CachedFileEntry := none
  ended : Except CppException Unit := .ok ()

/-- The headers of every answer about a regular file. -/
def addFileHeaders (dates : HttpDates) (plan : FilePlan) (r : HttpResponse) : HttpResponse :=
  (((r.addHeader (ascii "ETag") plan.etag).addHeader
      (ascii "Last-Modified") (dates.format plan.lastModified)).addHeader
      (ascii "Accept-Ranges") (ascii "bytes")).setContentType (mime plan.path)

def unsatisfiableRange (plan : FilePlan) : Bytes := ascii "bytes */"++decimal plan.fileSize

def contentRange (plan : FilePlan) : Bytes :=
  ascii "bytes "++(decimal plan.fileOffset++(dash ::
    (decimal (plan.fileOffset+plan.responseSize-1)++(slash :: decimal plan.fileSize))))

/-- `Content-Range` of a partial answer, then `Content-Length`. -/
def addLengthHeaders (plan : FilePlan) (r : HttpResponse) : HttpResponse :=
  (if plan.isPartial then r.addHeader (ascii "Content-Range") (contentRange plan) else r).addHeader
    (ascii "Content-Length") (decimal plan.responseSize)

/-- The entry that is used if it is the one for this version of the file. -/
def freshEntry (plan : FilePlan) (access : FileAccess) : Option CachedFileEntry :=
  access.cached.filter
    (fun entry => entry.lastModified = plan.lastModified && entry.fileSize = plan.fileSize)

/-- `setBody(content.substr(offset, count))`, which throws behind the end of the content. -/
def setSlice (plan : FilePlan) (content : Bytes) (r : HttpResponse) :
    HttpResponse × Except CppException Unit :=
  if content.length < plan.fileOffset then (r, .error {})
  else ({ r with body := (content.drop plan.fileOffset).take plan.responseSize }, .ok ())

/-- The content of a small file, from the cache or from the disk. -/
def populateSmall (plan : FilePlan) (access : FileAccess) (r : HttpResponse) : Populated :=
  match freshEntry plan access with
  | some entry =>
    let result := setSlice plan entry.content r
    { response := result.1, ended := result.2 }
  | none =>
    match access.read with
    | none => { response := { r with statusCode := .k404NotFound } }
    | some content =>
      let result := setSlice plan content r
      { response := result.1, ended := result.2,
        put := some { content := content, contentType := mime plan.path,
                      lastModified := plan.lastModified, fileSize := plan.fileSize } }

/-- The part of `populateResponse` behind the headers: nothing for `HEAD`, and a large
file is sent from its descriptor. -/
def populateBytes (method : Method) (plan : FilePlan) (access : FileAccess) (threshold : ℕ)
    (r : HttpResponse) : Populated :=
  if method = .kHead then { response := r }
  else if plan.fileSize > threshold then
    { response := r.setFile plan.path plan.fileOffset plan.responseSize }
  else populateSmall plan access r

def populateResponse (dates : HttpDates) (request : HttpRequest) (plan : FilePlan)
    (access : FileAccess) (threshold : ℕ) (response : HttpResponse) : Populated :=
  let r : HttpResponse := { response with statusCode := plan.status }
  if !plan.isFile then { response := r }
  else
    let r := addFileHeaders dates plan r
    if plan.status = .k416RangeNotSatisfiable then
      { response := r.addHeader (ascii "Content-Range") (unsatisfiableRange plan) }
    else if plan.status ≠ .k200Ok ∧ plan.status ≠ .k206PartialContent then { response := r }
    else populateBytes request.method plan access threshold (addLengthHeaders plan r)

namespace StaticFileHandler

/-- The synchronous entry point. -/
def handle (h : StaticFileHandler) (fs : FileSystem) (dates : HttpDates) (access : FileAccess)
    (request : HttpRequest) (response : HttpResponse) : Populated :=
  populateResponse dates request (h.prepare fs dates request) access h.threshold response

/-- The response that `handleAsync` sends: `503` when no worker takes the task, and none
at all when the task throws. -/
def handleAsync (h : StaticFileHandler) (fs : FileSystem) (dates : HttpDates)
    (access : FileAccess) (submitted : Bool) (request : HttpRequest) : Option HttpResponse :=
  if submitted then
    let result := populateResponse dates request (prepareInRoot fs dates h.root request) access
      h.threshold { closeConnection := false }
    match result.ended with
    | .ok _ => some result.response
    | .error _ => none
  else some { closeConnection := false, statusCode := .k503ServiceUnavailable }

end StaticFileHandler

end JingjieAR
