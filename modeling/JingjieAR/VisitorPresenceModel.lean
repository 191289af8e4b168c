import JingjieAR.TransitionRuns
import Mathlib.Data.List.Basic

/-! The visitor of a page: the heartbeat and its timer, the recovery, the exit when the page is
hidden and the restoration when it comes back from the cache of the browser. A callback runs
together with the microtasks behind it, so it is one step. -/
namespace JingjieAR

/-- The requests of a session. The first two mark the visitor online; a bootstrap does so on
the server before it counts the view. -/
inductive PresenceRequest
  | heartbeat
  | bootstrap
  | exit
deriving DecidableEq

/-- A request that was issued, for the record: whether the page was hidden, and how often it
had been shown again until then. -/
structure IssuedRequest where
  request : PresenceRequest
  hidden : Bool
  shown : ℕ
deriving DecidableEq

def IssuedRequest.marksOnline (r : IssuedRequest) : Bool := r.request ≠ .exit

/-- How a heartbeat ends. -/
inductive HeartbeatReply
  | ok
  | unauthorized
  | failed
deriving DecidableEq

/-- How a bootstrap ends: with an answer, which may lack the token, or without one. -/
inductive BootstrapReply
  | ok (visitorToken : Bool) (statisticsAvailable : Bool)
  | failed
deriving DecidableEq

/-- What `onPageshow` goes through: it waits for an exit request, then for its bootstrap. Of the
bootstrap it is noted whether the page was hidden when it was issued. -/
inductive RestoreStage
  | waiting (exit : ℕ)
  | requesting (hidden : Bool)
  | finished
deriving DecidableEq

structure PageRestore where
  generation : ℕ
  stage : RestoreStage
deriving DecidableEq

/-- The session and the browser: the intervals that run, and the requests under way. -/
structure VisitorSession where
  pageVisible : Bool := true
  pageGeneration : ℕ := 0
  heartbeatTimer : Option ℕ := none
  -- whether the storage has a token
  token : Bool := false
  statisticsPending : Bool := false
  -- `recoveryPromise`, whose bootstrap is under way
  recovering : Bool := false
  exitPromise : Option ℕ := none
  intervals : List ℕ := []
  nextInterval : ℕ := 0
  heartbeats : ℕ := 0
  -- the exit requests, and whether each of them has ended
  exits : List Bool := []
  restores : List PageRestore := []
  shown : ℕ := 0
  issued : List IssuedRequest := []

/-- Whether there is a storage, and whether `bootstrapRequestId` is set. -/
structure VisitorSetting where
  storage : Bool
  bootstrapRequestId : Bool

inductive PageEvent
  | tick (timer : ℕ)
  | heartbeatEnds (reply : HeartbeatReply)
  | recoveryEnds (reply : BootstrapReply)
  | exitEnds (i : ℕ)
  | restoreEnds (j : ℕ) (reply : BootstrapReply)
  | pagehide
  | pageshow (persisted : Bool)

namespace VisitorSession

variable (cfg : VisitorSetting)

def issue (s : VisitorSession) (request : PresenceRequest) : VisitorSession :=
  { s with issued := s.issued++[⟨request, !s.pageVisible, s.shown⟩] }

def acceptBootstrap (s : VisitorSession) : BootstrapReply → VisitorSession
  | .ok true statisticsAvailable =>
    { s with token := s.token || cfg.storage, statisticsPending := !statisticsAvailable }
  | _ => s

/-- Whether `recover` asks for a bootstrap. -/
def asksBootstrap (s : VisitorSession) : Bool := !s.recovering && cfg.bootstrapRequestId

def recover (s : VisitorSession) : VisitorSession :=
  if s.asksBootstrap cfg then { s with recovering := true }.issue .bootstrap else s

def heartbeat (s : VisitorSession) : VisitorSession :=
  { s with heartbeats := s.heartbeats+1 }.issue .heartbeat

/-- Whether the end of a heartbeat leads to `recover`. -/
def wantsRecovery (s : VisitorSession) : HeartbeatReply → Bool
  | .ok => s.statisticsPending
  | .unauthorized => true
  | .failed => false

def heartbeatEnds (s : VisitorSession) (reply : HeartbeatReply) : VisitorSession :=
  let s' := { s with heartbeats := s.heartbeats-1 }
  if s.wantsRecovery reply then s'.recover cfg else s'

def startHeartbeat (s : VisitorSession) : VisitorSession :=
  match s.heartbeatTimer with
  | some _ => s
  | none =>
    { s with
      heartbeatTimer := some s.nextInterval
      intervals := s.intervals++[s.nextInterval]
      nextInterval := s.nextInterval+1 }

/-- `stopHeartbeat` with `sendExit`. -/
def stopHeartbeat (s : VisitorSession) : VisitorSession :=
  let s' :=
    match s.heartbeatTimer with
    | some timer => { s with intervals := s.intervals.erase timer, heartbeatTimer := none }
    | none => s
  if s.token then
    { s' with exits := s.exits++[false], exitPromise := some s.exits.length }.issue .exit
  else s'

def onPagehide (s : VisitorSession) : VisitorSession :=
  { s with pageGeneration := s.pageGeneration+1, pageVisible := false }.stopHeartbeat

def setRestore (s : VisitorSession) (j : ℕ) (restore : PageRestore) : VisitorSession :=
  { s with restores := s.restores.set j restore }

/-- The last part of `onPageshow`, behind `restoreAfterExit`. -/
def restored (s : VisitorSession) (generation : ℕ) : VisitorSession :=
  if generation ≠ s.pageGeneration then
    if s.pageVisible then s else s.stopHeartbeat
  else s.startHeartbeat

/-- `restoreAfterExit`, and what follows at once if there is nothing to ask for. -/
def restoreAfterExit (s : VisitorSession) (j : ℕ) (generation : ℕ) : VisitorSession :=
  if cfg.bootstrapRequestId then
    (s.setRestore j ⟨generation, .requesting (!s.pageVisible)⟩).issue .bootstrap
  else (s.setRestore j ⟨generation, .finished⟩).restored generation

/-- The restorations that have waited for an exit request go on, in their order. -/
def resumeRestores (s : VisitorSession) (exit : ℕ) : VisitorSession :=
  s.restores.zipIdx.foldl
    (fun s restore =>
      if restore.1.stage = .waiting exit then
        s.restoreAfterExit cfg restore.2 restore.1.generation
      else s) s

/-- A restoration that has nothing to wait for. -/
def restoreNow (s : VisitorSession) : VisitorSession :=
  let restore : PageRestore := ⟨s.pageGeneration, .finished⟩
  { s with restores := s.restores++[restore] }.restoreAfterExit cfg s.restores.length
    s.pageGeneration

def restoreBehind (s : VisitorSession) (exit : ℕ) : VisitorSession :=
  let restore : PageRestore := ⟨s.pageGeneration, .waiting exit⟩
  { s with restores := s.restores++[restore] }

/-- `onPageshow` for a page that comes from the cache. -/
def onPageshow (s : VisitorSession) : VisitorSession :=
  let s' := { s with pageVisible := true, shown := s.shown+1 }
  match s.exitPromise with
  | none => s'.restoreNow cfg
  | some exit => if s.exits.getD exit true then s'.restoreNow cfg else s'.restoreBehind exit

def next (s : VisitorSession) : PageEvent → Option VisitorSession
  | .tick timer => if timer ∈ s.intervals then some s.heartbeat else none
  | .heartbeatEnds reply => if 0 < s.heartbeats then some (s.heartbeatEnds cfg reply) else none
  | .recoveryEnds reply =>
    if s.recovering then some ({ s with recovering := false }.acceptBootstrap cfg reply) else none
  | .exitEnds i =>
    if s.exits[i]? = some false then
      some ({ s with exits := s.exits.set i true }.resumeRestores cfg i)
    else none
  | .restoreEnds j reply =>
    match s.restores[j]? with
    | some ⟨generation, .requesting _⟩ =>
      some (((s.setRestore j ⟨generation, .finished⟩).acceptBootstrap cfg reply).restored generation)
    | _ => none
  | .pagehide => some s.onPagehide
  | .pageshow persisted => some (if persisted then s.onPageshow cfg else s)

def Step (s : VisitorSession) (e : PageEvent) (s' : VisitorSession) : Prop :=
  next cfg s e = some s'

/-- A session after its first `startHeartbeat`. -/
def started (token statisticsPending : Bool) : VisitorSession :=
  startHeartbeat { token := token, statisticsPending := statisticsPending }

/-- A restoration waits for a bootstrap that was issued while the page was hidden. -/
def RestoresHidden (s : VisitorSession) : Prop :=
  ∃ restore ∈ s.restores, restore.stage = .requesting true

/-- The online marks on a hidden page that no exit has followed before it was shown again. -/
def unfollowed : List IssuedRequest → List IssuedRequest
  | [] => []
  | r :: rest =>
    if r.marksOnline && r.hidden &&
        !rest.any (fun x => x.request = .exit && x.hidden && x.shown = r.shown) then
      r :: unfollowed rest
    else unfollowed rest

/-- One timer at most and none on a hidden page; an online mark on a hidden page is followed
by an exit, or the page is still hidden and the restoration is under way that ends with one. -/
structure FollowsVisibility (s : VisitorSession) : Prop where
  one : s.intervals.length ≤ 1
  hidden : s.pageVisible = false → s.intervals = []
  exits : ∀ r ∈ unfollowed s.issued,
    s.pageVisible = false ∧ r.shown = s.shown ∧ s.RestoresHidden

/-- The page is not hidden where the session does not look at it: no heartbeat leads to a
bootstrap, the page is not shown before a restoration that began while it was hidden has
ended, and such a restoration has a token for its exit. -/
def Watched (s : VisitorSession) : PageEvent → Prop
  | .heartbeatEnds reply =>
    s.pageVisible ∨ s.wantsRecovery reply = false ∨ s.asksBootstrap cfg = false
  | .pageshow persisted => s.pageVisible ∨ persisted = false ∨ ¬ s.RestoresHidden
  | .restoreEnds j reply =>
    s.pageVisible ∨ (s.acceptBootstrap cfg reply).token ∨
      ∀ generation, s.restores[j]? ≠ some ⟨generation, .requesting true⟩
  | _ => True

end VisitorSession

end JingjieAR
