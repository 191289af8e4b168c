import JingjieAR.HttpRequestModel
import JingjieAR.OrderedMap
import Mathlib.Data.List.Lex

/-! The response that a handler fills in and the text that is sent for it. Its headers
are a `std::map`, so they are written in the order of their names. -/
namespace JingjieAR

/-- `std::string` compares its bytes as unsigned numbers. -/
instance instLinearOrderUInt8 : LinearOrder UInt8 where
  le_refl := UInt8.le_refl
  le_trans _ _ _ := UInt8.le_trans
  le_antisymm _ _ := UInt8.le_antisymm
  le_total := UInt8.le_total
  lt_iff_le_not_ge a b := by
    simp only [UInt8.le_iff_toNat_le, UInt8.lt_iff_toNat_lt]
    omega
  toDecidableLE := fun _ _ => inferInstance
  toDecidableEq := inferInstance
  toDecidableLT := fun _ _ => inferInstance

instance instLawfulBEqUInt8 : LawfulBEq UInt8 := inferInstance

instance instLawfulBEqBytes : LawfulBEq Bytes := inferInstance

inductive HttpStatusCode
  | k200Ok
  | k204NoContent
  | k206PartialContent
  | k301MovedPermanently
  | k304NotModified
  | k400BadRequest
  | k401Unauthorized
  | k403Forbidden
  | k404NotFound
  | k405MethodNotAllowed
  | k409Conflict
  | k413PayloadTooLarge
  | k416RangeNotSatisfiable
  | k500InternalServerError
  | k501NotImplemented
  | k503ServiceUnavailable
deriving DecidableEq

def HttpStatusCode.toNat : HttpStatusCode → ℕ
  | .k200Ok => 200
  | .k204NoContent => 204
  | .k206PartialContent => 206
  | .k301MovedPermanently => 301
  | .k304NotModified => 304
  | .k400BadRequest => 400
  | .k401Unauthorized => 401
  | .k403Forbidden => 403
  | .k404NotFound => 404
  | .k405MethodNotAllowed => 405
  | .k409Conflict => 409
  | .k413PayloadTooLarge => 413
  | .k416RangeNotSatisfiable => 416
  | .k500InternalServerError => 500
  | .k501NotImplemented => 501
  | .k503ServiceUnavailable => 503

/-- All members of `HttpResponse`. -/
structure HttpResponse where
  closeConnection : Bool
  statusCode : HttpStatusCode := .k200Ok
  statusMessage : Bytes := []
  headers : OrderedMap Bytes Bytes := .empty
  body : Bytes := []
  filePath : Bytes := []
  fileOffset : ℕ := 0
  fileCount : ℕ := 0
deriving DecidableEq

namespace HttpResponse

/-- The static `statusMessage(int)`. -/
def defaultMessage (code : ℕ) : Bytes :=
  match code with
  | 200 => ascii "OK"
  | 204 => ascii "No Content"
  | 206 => ascii "Partial Content"
  | 301 => ascii "Moved Permanently"
  | 304 => ascii "Not Modified"
  | 400 => ascii "Bad Request"
  | 401 => ascii "Unauthorized"
  | 403 => ascii "Forbidden"
  | 404 => ascii "Not Found"
  | 405 => ascii "Method Not Allowed"
  | 409 => ascii "Conflict"
  | 413 => ascii "Payload Too Large"
  | 416 => ascii "Range Not Satisfiable"
  | 500 => ascii "Internal Server Error"
  | 501 => ascii "Not Implemented"
  | 503 => ascii "Service Unavailable"
  | _ => ascii "Unknown"

def addHeader (r : HttpResponse) (key value : Bytes) : HttpResponse :=
  { r with headers := r.headers.insert key value }

def setContentType (r : HttpResponse) (contentType : Bytes) : HttpResponse :=
  r.addHeader (ascii "Content-Type") contentType

def hasFile (r : HttpResponse) : Bool := r.filePath ≠ []

/-- A decimal number, as `%d`, `%zu` and `std::to_string` write it. -/
def decimal (n : ℕ) : Bytes := ascii (toString n)

/-- What `snprintf` leaves of a text without NUL in a buffer of 128 bytes. -/
def snprintf128 (text : Bytes) : Bytes := text.take 127

/-- The default message stands where none is set; `%s` ends at the first NUL. -/
def statusLine (r : HttpResponse) : Bytes :=
  let msg := if r.statusMessage = [] then defaultMessage r.statusCode.toNat
    -- `c_str()` of the message that was set.
    else r.statusMessage.takeWhile (· ≠ 0)
  snprintf128 (ascii "HTTP/1.1 "++(decimal r.statusCode.toNat++(space :: (msg++crlf))))

/-- A header that the response gets when the handler has not set it. -/
def defaultHeader (r : HttpResponse) (name text : Bytes) : Bytes :=
  if (r.headers.find name).isSome then [] else text

def headerText (r : HttpResponse) : Bytes :=
  (r.headers.entries.map (fun h => h.1++(ascii ": "++(h.2++crlf)))).flatten

/-- The text that `appendToBuffer` appends. -/
def serialize (r : HttpResponse) : Bytes :=
  let length := if r.hasFile then r.fileCount else r.body.length
  r.statusLine++(ascii "Server: webserver\r\n"++
    (r.defaultHeader (ascii "Content-Type") (ascii "Content-Type: text/html\r\n")++
    (r.defaultHeader (ascii "Content-Length")
      (snprintf128 (ascii "Content-Length: "++(decimal length++crlf)))++
    (r.defaultHeader (ascii "Connection")
      (if r.closeConnection then ascii "Connection: close\r\n"
       else ascii "Connection: Keep-Alive\r\n")++
    -- The content of a file follows through `sendFile`.
    (r.headerText++(crlf++(if r.hasFile then [] else r.body)))))))

def appendToBuffer (r : HttpResponse) (output : Bytes) : Bytes := output++r.serialize

/-- A small HTML page that names the error. -/
def makeErrorResponse (code : HttpStatusCode) (close : Bool) (extraInfo : Bytes) : HttpResponse :=
  let title := decimal code.toNat++(space :: defaultMessage code.toNat)
  let extra := if extraInfo = [] then []
    else ascii "<center><p>"++(extraInfo++ascii "</p></center>\r\n")
  let body := ascii "<html><head><title>"++(title++(ascii "</title></head>\r\n"++
    (ascii "<body><center><h1>"++(title++(ascii "</h1></center>\r\n"++(extra++
    (ascii "<hr><center>webserver</center>\r\n"++ascii "</body></html>\r\n")))))))
  { ({ closeConnection := close, statusCode := code } : HttpResponse).setContentType
      (ascii "text/html") with body := body }

end HttpResponse

end JingjieAR
