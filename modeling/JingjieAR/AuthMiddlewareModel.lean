import JingjieAR.HttpContextModel
import JingjieAR.HttpDispatcherModel

/-! The authentication middleware of the application and the error answers of its API. -/
namespace JingjieAR

def HttpRequest.setAttribute (r : HttpRequest) (name value : Bytes) : HttpRequest :=
  { r with attributes := r.attributes.insert name value }

def HttpRequest.attribute (r : HttpRequest) (name : Bytes) : Bytes :=
  (r.attributes.lookup name).getD []

namespace JsonUtil

/-- A digit of `"0123456789abcdef"`. -/
def lowerHexDigit (n : ℕ) : UInt8 := UInt8.ofNat (if n < 10 then 48+n else 87+n)

def escapeCharacter (c : UInt8) : Bytes :=
  if c = 34 then ascii "\\\""
  else if c = 92 then ascii "\\\\"
  else if c = 8 then ascii "\\b"
  else if c = 12 then ascii "\\f"
  else if c = 10 then ascii "\\n"
  else if c = 13 then ascii "\\r"
  else if c = 9 then ascii "\\t"
  else if c < 32 then
    ascii "\\u00"++[lowerHexDigit (c.toNat/16), lowerHexDigit (c.toNat%16)]
  else [c]

def escape (value : Bytes) : Bytes := value.flatMap escapeCharacter

end JsonUtil

def makeApiError (status : HttpStatusCode) (code message requestId : Bytes) : HttpResponse :=
  { ({ closeConnection := false, statusCode := status } : HttpResponse).setContentType
      (ascii "application/json; charset=utf-8") with
    body := ascii "\x7b\"success\":false,\"data\":null,\"message\":\""++
      (JsonUtil.escape message++(ascii "\",\"code\":\""++(JsonUtil.escape code++
      (ascii "\",\"requestId\":\""++(JsonUtil.escape requestId++ascii "\"\x7d"))))) }

/-- The text behind `Bearer `; empty if there is none. -/
def bearerToken (request : HttpRequest) : Bytes :=
  let authorization := request.getHeader (ascii "Authorization")
  if authorization.take 7 ≠ ascii "Bearer " ∨ authorization.length = 7 then []
  else authorization.drop 7

def startsWith (value start : Bytes) : Bool := value.take start.length = start

/-- `/api/artworks/`, an identifier and the suffix. An empty identifier is refused only
when a `/` follows it. -/
def artworkRoute (path suffix : Bytes) : Bool :=
  if !startsWith path (ascii "/api/artworks/") then false
  else
    let rest := path.drop (ascii "/api/artworks/").length
    match findByte slash rest with
    | none => suffix = []
    | some slashPos =>
      slashPos ≠ 0 && suffix ≠ [] && rest.drop slashPos = suffix

namespace AuthMiddleware

def isPublicRequest (request : HttpRequest) : Bool :=
  let path := request.path
  if !startsWith path (ascii "/api/") then true
  else if path = ascii "/api/auth" ∨ path = ascii "/api/visitors/session" then true
  else if request.method ≠ .kGet then false
  else if path = ascii "/api/scenes" ∨ path = ascii "/api/presence" ∨
      path = ascii "/api/statistics/views" then true
  else if startsWith path (ascii "/api/scenes/") ∧ findByte slash (path.drop 12) = none then true
  else artworkRoute path [] || artworkRoute path (ascii "/comments")

/-- The two paths that the token of a visitor opens. -/
def presenceWrite (request : HttpRequest) : Bool :=
  request.path = ascii "/api/presence/heartbeat" || request.path = ascii "/api/presence/exit"

/-- The requests that the token of a user opens. -/
def userWrite (request : HttpRequest) : Bool :=
  (request.method = .kPost && request.path = ascii "/api/auth/logout") ||
    (request.method = .kPost && (artworkRoute request.path (ascii "/likes") ||
      artworkRoute request.path (ascii "/comments"))) ||
    (request.method = .kDelete && artworkRoute request.path (ascii "/likes"))

/-- The token is noted before anything is decided; public pages use it if it is there. -/
def withToken (request : HttpRequest) : HttpRequest :=
  if bearerToken request ≠ [] then request.setAttribute (ascii "auth.token") (bearerToken request)
  else request

def before (request : HttpRequest) (response : HttpResponse) :
    (HttpRequest × HttpResponse) × Bool :=
  let token := bearerToken request
  let request := withToken request
  if isPublicRequest request then ((request, response), true)
  else if presenceWrite request ∧ request.getHeader (ascii "X-Visitor-Token") ≠ [] then
    ((request, response), true)
  else if token ≠ [] ∧ userWrite request then ((request, response), true)
  else
    ((request, makeApiError .k401Unauthorized (ascii "UNAUTHORIZED")
      (ascii "required authentication token is missing")
      (request.attribute (ascii "request_id"))), false)

/-- As a member of a middleware chain; it has no second phase. -/
def middleware (label : ℕ) : Middleware where
  label := label
  before request response := ((before request response).1, .ok (before request response).2)
  after _ response := (response, .ok ())

end AuthMiddleware

end JingjieAR
