import JingjieAR.StaticFileModel
import Mathlib.Data.List.DropRight

/-! The middleware for requests from other origins: preflight requests are answered
here, and answers to permitted origins get the headers that say so. -/
namespace JingjieAR

structure CorsConfig where
  allowedOrigins : List Bytes := []
  allowedMethods : List Bytes := []
  allowedHeaders : List Bytes := []
  allowCredentials : Bool := false
  maxAge : ℤ := 0

/-- The header, or the empty string. -/
def HttpResponse.header (r : HttpResponse) (name : Bytes) : Bytes := (r.headers.find name).getD []

namespace CorsMiddleware

def contains (values : List Bytes) (value : Bytes) (caseInsensitive : Bool) : Bool :=
  let wanted := if caseInsensitive then lowerCase value else value
  values.any (fun candidate =>
    (if caseInsensitive then lowerCase candidate else candidate) = wanted)

def join (values : List Bytes) : Bytes := List.intercalate (ascii ", ") values

def isBlank (c : UInt8) : Bool := c = 32 || c = 9

/-- The tokens between the commas without blanks around them; empty ones are skipped. -/
def splitCommaSeparated (value : Bytes) : List Bytes :=
  ((value.splitOn comma).map (fun token => (token.dropWhile isBlank).rdropWhile isBlank)).filter
    (· ≠ [])

def addVaryOrigin (response : HttpResponse) : HttpResponse :=
  let vary := response.header (ascii "Vary")
  if vary = [] then response.addHeader (ascii "Vary") (ascii "Origin")
  else if !contains (splitCommaSeparated vary) (ascii "Origin") true then
    response.addHeader (ascii "Vary") (vary++ascii ", Origin")
  else response

variable (config : CorsConfig)

def isOriginAllowed (origin : Bytes) : Bool :=
  if origin = [] then false
  else if contains config.allowedOrigins origin false then true
  else !config.allowCredentials && contains config.allowedOrigins (ascii "*") false

def isMethodAllowed (method : Bytes) : Bool := contains config.allowedMethods method false

def areHeadersAllowed (headers : Bytes) : Bool :=
  let requested := splitCommaSeparated headers
  if requested = [] then true
  else if contains config.allowedHeaders (ascii "*") true then true
  else requested.all (contains config.allowedHeaders · true)

/-- The headers that only a preflight request gets. -/
def addPreflightHeaders (response : HttpResponse) : HttpResponse :=
  let response := response.addHeader (ascii "Access-Control-Allow-Methods")
    (join config.allowedMethods)
  let response :=
    if config.allowedHeaders ≠ [] then
      response.addHeader (ascii "Access-Control-Allow-Headers") (join config.allowedHeaders)
    else response
  response.addHeader (ascii "Access-Control-Max-Age") (signedDecimal config.maxAge)

def addCorsHeaders (origin : Bytes) (response : HttpResponse) (preflight : Bool) : HttpResponse :=
  let wildcard := !config.allowCredentials && contains config.allowedOrigins (ascii "*") false
  let response := response.addHeader (ascii "Access-Control-Allow-Origin")
    (if wildcard then ascii "*" else origin)
  let response := if !wildcard then addVaryOrigin response else response
  let response :=
    if config.allowCredentials then
      response.addHeader (ascii "Access-Control-Allow-Credentials") (ascii "true")
    else response
  if preflight then addPreflightHeaders config response else response

/-- Whether to go on, and the response so far. -/
def before (request : HttpRequest) (response : HttpResponse) : HttpResponse × Bool :=
  if request.method ≠ .kOptions then (response, true)
  else
    let origin := request.getHeader (ascii "Origin")
    let requestedMethod := request.getHeader (ascii "Access-Control-Request-Method")
    if origin = [] ∧ requestedMethod = [] then (response, true)
    else if origin = [] ∨ requestedMethod = [] ∨ isOriginAllowed config origin = false ∨
        isMethodAllowed config requestedMethod = false ∨
        areHeadersAllowed config
          (request.getHeader (ascii "Access-Control-Request-Headers")) = false then
      ({ response with statusCode := .k403Forbidden }, false)
    else
      (addCorsHeaders config origin { response with statusCode := .k204NoContent } true, false)

def after (request : HttpRequest) (response : HttpResponse) : HttpResponse :=
  let origin := request.getHeader (ascii "Origin")
  if origin ≠ [] ∧ isOriginAllowed config origin = true then
    addCorsHeaders config origin response false
  else response

def middleware (label : ℕ) : Middleware where
  label := label
  before request response :=
    ((request, (before config request response).1), .ok (before config request response).2)
  after request response := (after config request response, .ok ())

end CorsMiddleware

end JingjieAR
