import JingjieAR.AuthMiddlewareModel
import JingjieAR.HttpDateModel
import JingjieAR.PresenceModel
import JingjieAR.ViewStatisticsModel
import JingjieAR.VisitorSessionModel
import Mathlib.Data.List.DropRight

/-! The endpoints for anonymous visitors. A worker takes the task of a request through the
commands for Redis; the view is counted by a task of the database. The requests go on in any
order, one command at a time, and every command may fail. -/
namespace JingjieAR

open HttpResponse (decimal)

def makeApiSuccess (dataJson message : Bytes) : HttpResponse :=
  { ({ closeConnection := false, statusCode := .k200Ok } : HttpResponse).setContentType
      (ascii "application/json; charset=utf-8") with
    body := ascii "\x7b\"success\":true,\"data\":"++
      ((if dataJson = [] then ascii "null" else dataJson)++
        (ascii ",\"message\":\""++(JsonUtil.escape message++ascii "\"\x7d"))) }

namespace VisitorHandlers

def isJsonContentType (request : HttpRequest) : Bool :=
  let contentType := (lowerCase (request.getHeader (ascii "content-type"))).takeWhile (· ≠ 59)
  (contentType.rdropWhile isspace).dropWhile isspace = ascii "application/json"

def visitorTokenSyntax (token : Bytes) : Bool :=
  token.length = 64 && token.all VisitorSessionService.isLowerHexDigit

/-- `totalViews` and `statisticsAvailable`, behind what comes before them. -/
def viewsText (available : Bool) (count : ℕ) : Bytes :=
  ascii "\"totalViews\":"++((if available then decimal count else ascii "null")++
    (ascii ",\"statisticsAvailable\":"++
      ((if available then ascii "true" else ascii "false")++ascii "\x7d")))

def bootstrapJson (token : Bytes) (statisticsAvailable : Bool) (count : ℕ) : Bytes :=
  ascii "\x7b\"visitorToken\":\""++(JsonUtil.escape token++
    (ascii "\","++viewsText statisticsAvailable count))

def statisticsJson (statisticsAvailable : Bool) (count : ℕ) : Bytes :=
  ascii "\x7b"++viewsText statisticsAvailable count

def onlineJson (count : ℕ) : Bytes := ascii "\x7b\"onlineCount\":"++(decimal count++ascii "\x7d")

end VisitorHandlers

open VisitorHandlers

/-- What a handler sends. -/
inductive VisitorReply
  | error (status : HttpStatusCode) (code message requestId : Bytes)
  | bootstrapped (bootstrapId token : Bytes) (statisticsAvailable : Bool) (count : ℕ)
  | done
  | online (count : ℕ)
  | viewed (statisticsAvailable : Bool) (count : ℕ)
deriving DecidableEq

namespace VisitorReply

def response : VisitorReply → HttpResponse
  | .error status code message requestId => makeApiError status code message requestId
  | .bootstrapped _ token available count => makeApiSuccess (bootstrapJson token available count) []
  | .done => makeApiSuccess (ascii "\x7b\x7d") []
  | .online count => makeApiSuccess (onlineJson count) []
  | .viewed available count => makeApiSuccess (statisticsJson available count) []

def unavailable (message requestId : Bytes) : VisitorReply :=
  .error .k503ServiceUnavailable (ascii "SERVICE_UNAVAILABLE") message requestId

def visitorRequired (requestId : Bytes) : VisitorReply :=
  .error .k401Unauthorized (ascii "VISITOR_TOKEN_REQUIRED") (ascii "visitor token is required")
    requestId

def visitorInvalid (requestId : Bytes) : VisitorReply :=
  .error .k401Unauthorized (ascii "VISITOR_TOKEN_INVALID")
    (ascii "visitor token is invalid or expired") requestId

end VisitorReply

open VisitorReply

inductive VisitorEndpoint
  | bootstrap
  | heartbeat
  | exit
  | presence
  | views
deriving DecidableEq

/-- What the task of a request does next. -/
inductive VisitorStage
  -- the next command of `visitors->bootstrap`
  | resolving (bootstrapId : Bytes)
  -- `presence->heartbeat` of a bootstrap
  | marking (bootstrapId token : Bytes)
  -- `statistics->incrementAndRead`, and the database calls of its task
  | counting (bootstrapId token : Bytes)
  | incrementing (bootstrapId token : Bytes)
  -- `visitors->refresh` and `presence->heartbeat`
  | refreshing (token : Bytes)
  | beating (token : Bytes)
  -- `visitors->valid` and `presence->remove`
  | validating (token : Bytes)
  | leaving (token : Bytes)
  -- `presence->count`, and `statistics_->read`
  | tallying
  | reading
deriving DecidableEq

structure VisitorRequest where
  requestId : Bytes
  stage : VisitorStage
deriving DecidableEq

/-- The members of the handlers, and what they rest on: the member `bootstrapRequestId` of a
body, if that is a JSON object where it is a string, and the score that Redis has for a time. -/
structure VisitorHandlers where
  visitors : Bool := true
  presence : Bool := true
  statistics : Bool := true
  cacheWorkers : Bool := true
  exhibitionId : Bytes
  bootstrapRequestId : Bytes → Option Bytes
  score : ℤ → ℚ

/-- The stores, the requests that are running and the answers so far. -/
structure VisitorServer where
  identity : VisitorSystem := {}
  presence : PresenceSet := .empty
  views : ViewSystem := {}
  requests : ℕ → Option VisitorRequest := fun _ => none
  answers : List (ℕ × VisitorReply) := []
  -- the tokens for which `ZADD` has answered
  marked : List Bytes := []

inductive VisitorServerEvent
  -- a request, whether the workers take its task, and what the generator would give
  | request (n : ℕ) (endpoint : VisitorEndpoint) (request : HttpRequest) (submitted : Bool)
      (generated : Bytes)
  -- the next command for Redis, at a time
  | redis (n : ℕ) (nowMs : ℤ) (result : CommandResult)
  -- the database takes the task that counts the view, or not
  | increment (n : ℕ) (submitted : Bool)
  | mysql (n : ℕ) (result : CallResult)
  | readViews (n : ℕ) (ok : Bool)
  | expireVisitor (token : Bytes)
  | expireClaim (bootstrapId : Bytes)
deriving DecidableEq

namespace VisitorServer

variable (h : VisitorHandlers)

/-- The responder is given the answer, and the task is over. -/
def answer (s : VisitorServer) (n : ℕ) (reply : VisitorReply) : VisitorServer :=
  { s with requests := Function.update s.requests n none, answers := s.answers++[(n, reply)] }

def setStage (s : VisitorServer) (n : ℕ) (requestId : Bytes) (stage : VisitorStage) :
    VisitorServer :=
  { s with requests := Function.update s.requests n (some ⟨requestId, stage⟩) }

/-- The result of the bootstrap that has just answered. -/
def lastResult (identity : VisitorSystem) : VisitorBootstrapResult :=
  (identity.reports.getLast?.map (·.result)).getD {}

/-- What the last callback of `incrementAndRead` was given. -/
def lastCount (views : ViewSystem) : Bool × ℕ :=
  (views.reports.getLast?.map (fun r => (r.ok, r.count))).getD (false, 0)

/-- Behind a command of `visitors->bootstrap`. -/
def settleIdentity (s : VisitorServer) (n : ℕ) (requestId bootstrapId : Bytes) : VisitorServer :=
  match s.identity.calls n with
  | some _ => s.setStage n requestId (.resolving bootstrapId)
  | none =>
    let result := lastResult s.identity
    match result.status with
    | .kBadRequest => s.answer n (.error .k400BadRequest (ascii "INVALID_BOOTSTRAP_REQUEST_ID")
        (ascii "bootstrapRequestId has invalid syntax") requestId)
    | .kUnavailable =>
      s.answer n (unavailable (ascii "visitor identity service unavailable") requestId)
    | .kOk => s.setStage n requestId (.marking bootstrapId result.token)

/-- Behind a database call of `incrementAndRead`, whose callback sends the answer. -/
def settleViews (s : VisitorServer) (n : ℕ) (requestId bootstrapId token : Bytes) : VisitorServer :=
  match s.views.tasks n with
  | some _ => s.setStage n requestId (.incrementing bootstrapId token)
  | none => s.answer n (.bootstrapped bootstrapId token (lastCount s.views).1 (lastCount s.views).2)

/-- A command for the presence set: whether it has answered, and what it leaves. -/
def presenceCommand {α : Type} (fallback : α) (s : VisitorServer) (done : α × PresenceSet) :
    CommandResult → α × VisitorServer
  | .replied => (done.1, { s with presence := done.2 })
  | .lost => (fallback, { s with presence := done.2 })
  | .unreached => (fallback, s)

/-- `presence->heartbeat`, with a note of the tokens for which it has answered. -/
def touch (s : VisitorServer) (token : Bytes) (nowMs : ℤ) (result : CommandResult) :
    Bool × VisitorServer :=
  let done :=
    s.presenceCommand false (PresenceService.heartbeat h.score s.presence token nowMs) result
  (done.1, if done.1 then { done.2 with marked := done.2.marked++[token] } else done.2)

/-- `visitors->refresh`, for a token whose form has been checked. -/
def refresh (s : VisitorServer) (token : Bytes) (result : CommandResult) : Bool × VisitorServer :=
  if s.identity.available then
    let done := s.identity.save token result
    (done.1, { s with identity := done.2 })
  else (false, s)

/-- The checks of a heartbeat and of an exit, up to the submission of the task. -/
def takeToken (s : VisitorServer) (n : ℕ) (request : HttpRequest) (submitted : Bool)
    (stage : Bytes → VisitorStage) : VisitorServer :=
  let token := request.getHeader (ascii "X-Visitor-Token")
  let requestId := request.attribute (ascii "request_id")
  if token = [] then s.answer n (visitorRequired requestId)
  else if !visitorTokenSyntax token then s.answer n (visitorInvalid requestId)
  else if !h.visitors || !h.presence || !h.cacheWorkers then
    s.answer n (unavailable (ascii "presence service unavailable") requestId)
  else if submitted then s.setStage n requestId (stage token)
  else s.answer n (unavailable (ascii "presence worker queue is full") requestId)

def bootstrap (s : VisitorServer) (n : ℕ) (request : HttpRequest) (submitted : Bool)
    (generated : Bytes) : Option VisitorServer :=
  let requestId := request.attribute (ascii "request_id")
  if !isJsonContentType request then
    some (s.answer n (.error .k400BadRequest (ascii "INVALID_CONTENT_TYPE")
      (ascii "content type must be application/json") requestId))
  else
    match h.bootstrapRequestId request.body with
    | none => some (s.answer n (.error .k400BadRequest (ascii "INVALID_JSON")
        (ascii "bootstrapRequestId must be a JSON string") requestId))
    | some bootstrapId =>
      if !h.visitors || !h.presence || !h.statistics || !h.cacheWorkers || h.exhibitionId = [] then
        some (s.answer n (unavailable (ascii "visitor service unavailable") requestId))
      else if !submitted then
        some (s.answer n (unavailable (ascii "visitor worker queue is full") requestId))
      else
        -- The call of the task is the number of the request.
        (s.identity.next (.bootstrap n (request.getHeader (ascii "X-Visitor-Token")) bootstrapId
          generated)).map
          (fun identity => { s with identity := identity }.settleIdentity n requestId bootstrapId)

/-- A request as the dispatcher hands it to one of the handlers. -/
def receive (s : VisitorServer) (n : ℕ) (endpoint : VisitorEndpoint) (request : HttpRequest)
    (submitted : Bool) (generated : Bytes) : Option VisitorServer :=
  let requestId := request.attribute (ascii "request_id")
  match endpoint with
  | .bootstrap => s.bootstrap h n request submitted generated
  | .heartbeat => some (s.takeToken h n request submitted .refreshing)
  | .exit => some (s.takeToken h n request submitted .validating)
  | .presence =>
    if !h.presence || !h.cacheWorkers then
      some (s.answer n (unavailable (ascii "presence service unavailable") requestId))
    else if submitted then some (s.setStage n requestId .tallying)
    else some (s.answer n (unavailable (ascii "presence worker queue is full") requestId))
  | .views =>
    if !h.statistics || h.exhibitionId = [] then some (s.answer n (.viewed false 0))
    else some (s.setStage n requestId .reading)

/-- The next command for Redis of a task. -/
def command (s : VisitorServer) (n : ℕ) (r : VisitorRequest) (nowMs : ℤ) (result : CommandResult) :
    Option VisitorServer :=
  match r.stage with
  | .resolving bootstrapId => (s.identity.next (.run n result)).map
      (fun identity => { s with identity := identity }.settleIdentity n r.requestId bootstrapId)
  | .marking bootstrapId token =>
    let done := s.touch h token nowMs result
    if done.1 then some (done.2.setStage n r.requestId (.counting bootstrapId token))
    else some (done.2.answer n (unavailable (ascii "presence service unavailable") r.requestId))
  | .refreshing token =>
    let done := s.refresh token result
    if done.1 then some (done.2.setStage n r.requestId (.beating token))
    else some (done.2.answer n
      (unavailable (ascii "visitor identity service unavailable") r.requestId))
  | .beating token =>
    let done := s.touch h token nowMs result
    if done.1 then some (done.2.answer n .done)
    else some (done.2.answer n (unavailable (ascii "presence service unavailable") r.requestId))
  | .validating token =>
    if s.identity.available && RedisVisitorStore.exists_ s.identity.keys token result then
      some (s.setStage n r.requestId (.leaving token))
    else some (s.answer n (unavailable (ascii "visitor identity service unavailable") r.requestId))
  | .leaving token =>
    let done := s.presenceCommand false (PresenceService.remove s.presence token) result
    if done.1 then some (done.2.answer n .done)
    else some (done.2.answer n (unavailable (ascii "presence service unavailable") r.requestId))
  | .tallying =>
    let done := s.presenceCommand (false, 0) (PresenceService.count h.score s.presence nowMs) result
    if done.1.1 then some (done.2.answer n (.online done.1.2))
    else some (done.2.answer n (unavailable (ascii "presence service unavailable") r.requestId))
  | .counting _ _ | .incrementing _ _ | .reading => none

def next (s : VisitorServer) : VisitorServerEvent → Option VisitorServer
  | .request n endpoint request submitted generated =>
    -- Requests have numbers of their own.
    if s.requests n ≠ none ∨ n ∈ s.answers.map Prod.fst then none
    else s.receive h n endpoint request submitted generated
  | .redis n nowMs result => (s.requests n).bind (fun r => s.command h n r nowMs result)
  | .increment n submitted =>
    match s.requests n with
    | some ⟨requestId, .counting bootstrapId token⟩ =>
      (s.views.next (.call n h.exhibitionId bootstrapId submitted)).map
        (fun views => { s with views := views }.settleViews n requestId bootstrapId token)
    | _ => none
  | .mysql n result =>
    match s.requests n with
    | some ⟨requestId, .incrementing bootstrapId token⟩ => (s.views.next (.run n result)).map
        (fun views => { s with views := views }.settleViews n requestId bootstrapId token)
    | _ => none
  | .readViews n ok =>
    match s.requests n with
    | some ⟨_, .reading⟩ =>
      match s.views.totals h.exhibitionId with
      | some count => some (s.answer n (.viewed ok (if ok then count else 0)))
      -- A row that is missing is a failure.
      | none => some (s.answer n (.viewed false 0))
    | _ => none
  | .expireVisitor token => (s.identity.next (.expireVisitor token)).map
      (fun identity => { s with identity := identity })
  | .expireClaim bootstrapId => (s.identity.next (.expireClaim bootstrapId)).map
      (fun identity => { s with identity := identity })

/-- Locked rows are not written. -/
def Unlocked (s : VisitorServer) : VisitorServerEvent → Prop
  | .mysql n result => s.views.Unlocked (.run n result)
  | _ => True

def Step : VisitorServer → VisitorServerEvent → VisitorServer → Prop :=
  Runs.Guarded Unlocked (fun s e s' => s.next h e = some s')

/-- The stores before the first request; no view has been counted. -/
def started (available : Bool) (keys : VisitorKeys) (presence : PresenceSet) : VisitorServer where
  identity := { available := available, keys := keys }
  presence := presence

end VisitorServer

end JingjieAR
