import JingjieAR.HttpServerModel
import JingjieAR.RouterModel
import JingjieAR.ThrowingState

/-! The dispatcher and the middleware chain. Middleware and handlers are arbitrary
functions that may throw, also after they have changed the request or the response. Every
call of one of them is noted, with the way it ended. -/
namespace JingjieAR

/-- Which exception it was is never looked at: every handler is `catch (...)`. -/
structure CppException
deriving DecidableEq

structure Middleware where
  label : ℕ
  before : HttpRequest → HttpResponse → (HttpRequest × HttpResponse) × Except CppException Bool
  after : HttpRequest → HttpResponse → HttpResponse × Except CppException Unit

abbrev SyncHandler := HttpRequest → HttpResponse → HttpResponse × Except CppException Unit

/-- What an asynchronous handler does with its responder before it returns or throws:
the responses that it or another thread sends through it meanwhile, and whether copies
of it live on. -/
structure AsyncUse where
  sends : List HttpResponse
  keeps : Bool
  ended : Except CppException Unit

abbrev AsyncHandler := HttpRequest → AsyncUse

inductive RouteHandler
  | sync (handler : SyncHandler)
  | async (handler : AsyncHandler)

inductive Call
  | before (label : ℕ) (ended : Except CppException Bool)
  | handler (ended : Except CppException Unit)
  | after (label : ℕ) (ended : Except CppException Unit) (changedStatus : Bool)

structure DispatchState where
  request : HttpRequest
  response : HttpResponse
  executed : List Middleware := []
  calls : List Call := []
  -- what the completion of the responder has captured
  captured : Option (HttpRequest × List Middleware) := none
  -- what an asynchronous handler has done with the responder
  used : Option AsyncUse := none

abbrev DispatchM := ExceptT CppException (StateM DispatchState)

def HttpResponse.setInternalError (r : HttpResponse) : HttpResponse :=
  { ({ r with statusCode := .k500InternalServerError } : HttpResponse).setContentType
      (ascii "application/json") with body := ascii "\x7b\"error\":\"Internal Server Error\"\x7d" }

/-- `HttpRequest::methodString`. -/
def methodString : Method → Bytes
  | .kGet => ascii "GET"
  | .kPost => ascii "POST"
  | .kHead => ascii "HEAD"
  | .kPut => ascii "PUT"
  | .kDelete => ascii "DELETE"
  | .kOptions => ascii "OPTIONS"
  | .kInvalid => ascii "UNKNOWN"

def allowedMethods (methods : List Method) : Bytes :=
  methods.foldl (fun value m =>
    (if value = [] then value else value++ascii ", ")++methodString m) []

namespace DispatchM

def internalError : DispatchM Unit :=
  modify (fun s => { s with response := s.response.setInternalError })

def callBefore (m : Middleware) : DispatchM Bool := do
  let s ← get
  let result := m.before s.request s.response
  set { s with request := result.1.1, response := result.1.2,
               calls := s.calls++[Call.before m.label result.2] }
  ofExcept result.2

def callAfter (request : HttpRequest) (m : Middleware) : DispatchM Unit := do
  let s ← get
  let result := m.after request s.response
  set { s with response := result.1,
               calls := s.calls++[Call.after m.label result.2
                 (result.1.statusCode ≠ s.response.statusCode)] }
  ofExcept result.2

def callSync (handler : SyncHandler) : DispatchM Unit := do
  let s ← get
  let result := handler s.request s.response
  set { s with response := result.1, calls := s.calls++[Call.handler result.2] }
  ofExcept result.2

def callAsync (handler : AsyncHandler) : DispatchM Unit := do
  let s ← get
  let use := handler s.request
  set { s with used := some use, calls := s.calls++[Call.handler use.ended] }
  ofExcept use.ended

/-- A middleware counts as executed only once its `before` has returned. -/
def processBefore : List Middleware → DispatchM Bool
  | [] => pure true
  | m :: ms => do
    let continueRequest ← callBefore m
    modify (fun s => { s with executed := s.executed++[m] })
    if !continueRequest then pure false else processBefore ms

/-- The loop of `processAfter`; the first exception is kept, none stops the loop. -/
def afterLoop (request : HttpRequest) :
    List Middleware → Option CppException → DispatchM (Option CppException)
  | [], failure => pure failure
  | m :: ms, failure => do
    let failure ← tryCatch (do callAfter request m; pure failure)
      (fun e => pure (failure.or (some e)))
    afterLoop request ms failure

def processAfter (request : HttpRequest) (executed : List Middleware) : DispatchM Unit := do
  let failure ← afterLoop request executed.reverse none
  match failure with
  | some e => throw e
  | none => pure ()

def completeAsync (request : HttpRequest) (executed : List Middleware) : DispatchM Unit :=
  tryCatch (processAfter request executed) (fun _ => internalError)

end DispatchM

structure HttpDispatcher where
  router : Router RouteHandler := {}
  middleware : List Middleware := []
  fallback : Option SyncHandler := none
  asyncFallback : Option AsyncHandler := none

namespace HttpDispatcher

open DispatchM

/-- `Router::invoke`; the handler sees the request with its path parameters. -/
def invoke : RouteHandler → DispatchM DispatchResult
  | .sync handler => do
    callSync handler
    pure .kComplete
  | .async handler => do
    callAsync handler
    pure .kAsyncPending

/-- The part of `dispatch` behind the first phase of the middleware. -/
def routeRequest (d : HttpDispatcher) : DispatchM DispatchResult := do
  modify (fun s => { s with captured := some (s.request, s.executed) })
  let s ← get
  match d.router.route s.request with
  | .found route request =>
    set { s with request := request }
    invoke route.handler
  | .kNotFound =>
    -- The asynchronous fallback comes first, if there are two.
    match d.asyncFallback, d.fallback with
    | some handler, _ => invoke (.async handler)
    | none, some handler => invoke (.sync handler)
    | none, none =>
      set { s with response := { s.response with statusCode := .k404NotFound } }
      pure .kComplete
  | .kMethodNotAllowed allowed =>
    set { s with response := ({ s.response with statusCode := .k405MethodNotAllowed } :
      HttpResponse).addHeader (ascii "Allow") (allowedMethods allowed) }
    pure .kComplete

/-- The `try` block of `dispatch`. -/
def tryBlock (d : HttpDispatcher) : DispatchM DispatchResult := do
  let continueRequest ← processBefore d.middleware
  if continueRequest then d.routeRequest else pure .kComplete

def dispatch (d : HttpDispatcher) : DispatchM DispatchResult := do
  let result ← tryCatch d.tryBlock (fun _ => do
    internalError
    pure .kComplete)
  let s ← get
  if result ≠ .kAsyncPending then completeAsync s.request s.executed
  pure result

/-- A dispatch as its caller sees it: how it ends and what it leaves. -/
def run (d : HttpDispatcher) (request : HttpRequest) (response : HttpResponse) :
    Except CppException DispatchResult × DispatchState :=
  Throwing.exec d.dispatch { request := request, response := response }

end HttpDispatcher

end JingjieAR
