import JingjieAR.AuthMiddlewareModel
import JingjieAR.CorsMiddlewareModel
import JingjieAR.ResponseOrigins

/-! The middleware chain of the application. Whatever the configuration, its second
phases only add headers of their own, so that no response loses its framing there. -/
namespace JingjieAR

namespace RequestIdMiddleware

/-- A number as `std::hex` writes it. -/
def hexadecimal (n : ℕ) : Bytes := ascii (String.ofList (Nat.toDigits 16 n))

/-- The identifier is made of the prefix of the server and the count of the request. -/
def before (serverPart counter : ℕ) (request : HttpRequest) : HttpRequest :=
  request.setAttribute (ascii "request_id") (hexadecimal serverPart++hexadecimal counter)

def after (request : HttpRequest) (response : HttpResponse) : HttpResponse :=
  response.addHeader (ascii "X-Request-Id") (request.attribute (ascii "request_id"))

def middleware (label serverPart counter : ℕ) : Middleware where
  label := label
  before request response := ((before serverPart counter request, response), .ok true)
  after request response := (after request response, .ok ())

end RequestIdMiddleware

namespace AccessLogMiddleware

def before (now : ℤ) (request : HttpRequest) : HttpRequest :=
  request.setAttribute (ascii "access_log_start_us") (signedDecimal now)

/-- The second phase only writes a line of the log. -/
def middleware (label : ℕ) (now : ℤ) : Middleware where
  label := label
  before request response := ((before now request, response), .ok true)
  after _ response := (response, .ok ())

end AccessLogMiddleware

/-- The configuration that the constructor of the server makes of its one origin. -/
def arCorsConfig (allowedOrigin : Bytes) : CorsConfig where
  allowedOrigins := [allowedOrigin]
  allowedMethods := [ascii "GET", ascii "POST", ascii "DELETE", ascii "OPTIONS"]
  allowedHeaders := [ascii "Content-Type", ascii "Authorization", ascii "X-Visitor-Token"]
  maxAge := 600

/-- The chain as the constructor registers it, for a request with this count and time. -/
def arMiddleware (allowedOrigin : Bytes) (serverPart counter : ℕ) (now : ℤ) : List Middleware :=
  (if allowedOrigin ≠ [] then [CorsMiddleware.middleware (arCorsConfig allowedOrigin) 0] else [])++
    [RequestIdMiddleware.middleware 1 serverPart counter, AccessLogMiddleware.middleware 2 now,
     AuthMiddleware.middleware 3]

namespace CorsMiddleware

variable (config : CorsConfig)

theorem framing_ite {p : Prop} [Decidable p] {r r' : HttpResponse} (h : r'.framing = r.framing) :
    (if p then r' else r).framing = r.framing := by
  split_ifs
  · exact h
  · rfl

theorem framing_addVaryOrigin (response : HttpResponse) :
    (addVaryOrigin response).framing = response.framing := by
  unfold addVaryOrigin
  dsimp only
  split_ifs
  · exact HttpResponse.framing_addHeader (by decide) response _
  · exact HttpResponse.framing_addHeader (by decide) response _
  · rfl

theorem framing_addPreflightHeaders (response : HttpResponse) :
    (addPreflightHeaders config response).framing = response.framing := by
  unfold addPreflightHeaders
  dsimp only
  rw [HttpResponse.framing_addHeader (by decide),
    framing_ite (HttpResponse.framing_addHeader (by decide) _ _),
    HttpResponse.framing_addHeader (by decide)]

theorem framing_addCorsHeaders (origin : Bytes) (response : HttpResponse) (preflight : Bool) :
    (addCorsHeaders config origin response preflight).framing = response.framing := by
  unfold addCorsHeaders
  dsimp only
  rw [framing_ite (framing_addPreflightHeaders config _),
    framing_ite (HttpResponse.framing_addHeader (by decide) _ _),
    framing_ite (framing_addVaryOrigin _), HttpResponse.framing_addHeader (by decide)]

theorem keepsFraming (label : ℕ) : (middleware config label).KeepsFraming := by
  intro request response
  show (after config request response).framing = response.framing
  exact framing_ite (framing_addCorsHeaders config _ response false)

end CorsMiddleware

/-- The dispatchers of the application are among those whose responses are covered, for
every route table. -/
theorem arMiddleware_keepsFraming (allowedOrigin : Bytes) (serverPart counter : ℕ) (now : ℤ) :
    ∀ m ∈ arMiddleware allowedOrigin serverPart counter now, m.KeepsFraming := by
  intro m hm
  rcases List.mem_append.mp hm with hm | hm
  · split_ifs at hm with hallowed
    · obtain rfl := List.mem_singleton.mp hm
      exact CorsMiddleware.keepsFraming _ 0
    · contradiction
  · simp only [List.mem_cons, List.not_mem_nil, or_false] at hm
    rcases hm with rfl | rfl | rfl
    · intro request response
      exact HttpResponse.framing_addHeader (by decide) response _
    · exact fun _ _ => rfl
    · exact fun _ _ => rfl

end JingjieAR
