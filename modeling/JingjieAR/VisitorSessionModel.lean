import JingjieAR.SessionStoreModel
import JingjieAR.TransitionRuns

/-! The bootstrap of anonymous visitors. Calls of `VisitorSessionService::bootstrap` run on
any number of threads and send one Redis command at a time; every command may fail, with
or without having been carried out. -/
namespace JingjieAR

/-- The keys `visitor:{token}` that are there, and the values of `bootstrap:{id}`. -/
structure VisitorKeys where
  visitors : Bytes → Bool := fun _ => false
  claims : Bytes → Option Bytes := fun _ => none

namespace RedisVisitorStore

def exists_ (keys : VisitorKeys) (token : Bytes) : CommandResult → Bool
  | .replied => token ≠ [] && keys.visitors token
  | .lost => false
  | .unreached => false

/-- `SET visitor:{token} 1 EX ttl` -/
def save (keys : VisitorKeys) (token : Bytes) (ttlSeconds : ℤ) (result : CommandResult) :
    Bool × VisitorKeys :=
  if token = [] ∨ ttlSeconds ≤ 0 then (false, keys)
  else
    let saved := { keys with visitors := Function.update keys.visitors token true }
    match result with
    | .replied => (true, saved)
    | .lost => (false, saved)
    | .unreached => (false, keys)

/-- The first command of `claimBootstrap`, `SET bootstrap:{id} candidate NX EX ttl`. The
answers `OK` and nil are both taken for success. -/
def claimBootstrapSet (keys : VisitorKeys) (requestId candidateToken : Bytes) (ttlSeconds : ℤ)
    (result : CommandResult) : Bool × VisitorKeys :=
  if requestId = [] ∨ candidateToken = [] ∨ ttlSeconds ≤ 0 then (false, keys)
  else
    let claimed := { keys with
      claims := Function.update keys.claims requestId
        ((keys.claims requestId).or (some candidateToken)) }
    match result with
    | .replied => (true, claimed)
    | .lost => (false, claimed)
    | .unreached => (false, keys)

/-- The second command of `claimBootstrap`, `GET bootstrap:{id}`. -/
def claimBootstrapGet (keys : VisitorKeys) (requestId : Bytes) : CommandResult → Option Bytes
  | .replied => keys.claims requestId
  | .lost => none
  | .unreached => none

end RedisVisitorStore

def kVisitorTtlSeconds : ℤ := 1800

def kBootstrapTtlSeconds : ℤ := 300

inductive BootstrapStatus
  | kOk
  | kBadRequest
  | kUnavailable
deriving DecidableEq

structure VisitorBootstrapResult where
  status : BootstrapStatus := .kUnavailable
  token : Bytes := []
deriving DecidableEq

namespace VisitorSessionService

def isLowerHexDigit (c : UInt8) : Bool := (48 ≤ c && c ≤ 57) || (97 ≤ c && c ≤ 102)

def validTokenSyntax (token : Bytes) : Bool := token.length = 64 && token.all isLowerHexDigit

/-- `std::isalnum` of the C locale, and four marks. -/
def isRequestIdByte (c : UInt8) : Bool :=
  (48 ≤ c && c ≤ 57) || (65 ≤ c && c ≤ 90) || (97 ≤ c && c ≤ 122) ||
    c = 45 || c = 95 || c = 46 || c = 58

def validRequestId (requestId : Bytes) : Bool :=
  requestId ≠ [] && requestId.length ≤ 128 && requestId.all isRequestIdByte

/-- The next command of a call. -/
inductive BootstrapStage
  -- `exists` of the token that the caller has
  | looking (existingToken : Bytes)
  | saving (candidateToken : Bytes)
  | claiming (candidateToken : Bytes)
  | reading
  | renewing (resolvedToken : Bytes)
deriving DecidableEq

/-- A call that is running. What the generator will give, if it is asked, is any string. -/
structure BootstrapCall where
  requestId : Bytes
  generated : Bytes
  stage : BootstrapStage
deriving DecidableEq

/-- The answer to a call. -/
structure BootstrapReport where
  requestId : Bytes
  result : VisitorBootstrapResult
deriving DecidableEq

end VisitorSessionService

open VisitorSessionService

/-- The keys, the calls by number, and the answers so far. -/
structure VisitorSystem where
  -- `store_` is set
  available : Bool := true
  keys : VisitorKeys := {}
  calls : ℕ → Option BootstrapCall := fun _ => none
  reports : List BootstrapReport := []

inductive VisitorEvent
  | bootstrap (t : ℕ) (existingToken requestId generated : Bytes)
  -- the next command of a call
  | run (t : ℕ) (result : CommandResult)
  | refresh (token : Bytes) (result : CommandResult)
  | expireVisitor (token : Bytes)
  | expireClaim (requestId : Bytes)
deriving DecidableEq

namespace VisitorSystem

/-- The call is over. -/
def answer (s : VisitorSystem) (t : ℕ) (requestId : Bytes) (result : VisitorBootstrapResult) :
    VisitorSystem :=
  { s with
    calls := Function.update s.calls t none
    reports := s.reports++[⟨requestId, result⟩] }

def setCall (s : VisitorSystem) (t : ℕ) (call : BootstrapCall) : VisitorSystem :=
  { s with calls := Function.update s.calls t (some call) }

def save (s : VisitorSystem) (token : Bytes) (result : CommandResult) : Bool × VisitorSystem :=
  let done := RedisVisitorStore.save s.keys token kVisitorTtlSeconds result
  (done.1, { s with keys := done.2 })

/-- Go on with a candidate, unless it is no token. -/
def withCandidate (s : VisitorSystem) (t : ℕ) (call : BootstrapCall) (candidateToken : Bytes) :
    VisitorSystem :=
  if validTokenSyntax candidateToken then
    s.setCall t { call with stage := .saving candidateToken }
  else s.answer t call.requestId {}

def advance (s : VisitorSystem) (t : ℕ) (call : BootstrapCall) (result : CommandResult) :
    VisitorSystem :=
  match call.stage with
  | .looking existingToken =>
    if RedisVisitorStore.exists_ s.keys existingToken result then
      s.withCandidate t call existingToken
    else s.withCandidate t call call.generated
  | .saving candidateToken =>
    let done := s.save candidateToken result
    if done.1 then done.2.setCall t { call with stage := .claiming candidateToken }
    else done.2.answer t call.requestId {}
  | .claiming candidateToken =>
    let done := RedisVisitorStore.claimBootstrapSet s.keys call.requestId candidateToken
      kBootstrapTtlSeconds result
    let s := { s with keys := done.2 }
    if done.1 then s.setCall t { call with stage := .reading } else s.answer t call.requestId {}
  | .reading =>
    match RedisVisitorStore.claimBootstrapGet s.keys call.requestId result with
    | none => s.answer t call.requestId {}
    | some resolvedToken =>
      if validTokenSyntax resolvedToken then
        s.setCall t { call with stage := .renewing resolvedToken }
      else s.answer t call.requestId {}
  | .renewing resolvedToken =>
    let done := s.save resolvedToken result
    if done.1 then done.2.answer t call.requestId ⟨.kOk, resolvedToken⟩
    else done.2.answer t call.requestId {}

def next (s : VisitorSystem) : VisitorEvent → Option VisitorSystem
  | .bootstrap t existingToken requestId generated =>
    if s.calls t ≠ none then none
    else if !validRequestId requestId then some (s.answer t requestId { status := .kBadRequest })
    else if !s.available then some (s.answer t requestId {})
    -- A token that is none is not looked up.
    else if validTokenSyntax existingToken then
      some (s.setCall t ⟨requestId, generated, .looking existingToken⟩)
    else some (s.withCandidate t ⟨requestId, generated, .looking existingToken⟩ generated)
  | .run t result =>
    match s.calls t with
    | none => none
    | some call => some (s.advance t call result)
  | .refresh token result =>
    if s.available && validTokenSyntax token then some (s.save token result).2 else some s
  | .expireVisitor token =>
    some { s with keys := { s.keys with visitors := Function.update s.keys.visitors token false } }
  | .expireClaim requestId =>
    some { s with keys := { s.keys with claims := Function.update s.keys.claims requestId none } }

def step (s : VisitorSystem) (e : VisitorEvent) (s' : VisitorSystem) : Prop := s.next e = some s'

end VisitorSystem

end JingjieAR
