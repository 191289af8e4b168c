import JingjieAR.HttpRequestModel
import JingjieAR.TransitionRuns
import Mathlib.Logic.Function.Basic

/-! The counting of views. Tasks of `ExhibitionStatisticsDAO::incrementAndRead` run on
connections of their own and take one database call at a time, in any order; every call
may fail. Inserted and updated rows are locked until the transaction ends. -/
namespace JingjieAR

open Runs (Run Guarded)

/-- The next call of a task. -/
inductive ViewStage
  | autocommitOff
  | insertViewEvent
  | increment
  | selectCount
  | commit
  | rollback
  | autocommitOn
deriving DecidableEq

/-- The variables of a task, and what the transaction of its connection has written:
whether the event is inserted, and the new total of the exhibition. -/
structure ViewTask where
  exhibitionId : Bytes
  bootstrapRequestId : Bytes
  stage : ViewStage := .autocommitOff
  ok : Bool := true
  count : ℕ := 0
  event : Bool := false
  total : Option ℕ := none
deriving DecidableEq

/-- The unique key of the table of events. -/
def ViewTask.key (task : ViewTask) : Bytes × Bytes := (task.exhibitionId, task.bootstrapRequestId)

/-- What a call of `incrementAndRead` passes to its callback. -/
structure CountReport where
  exhibitionId : Bytes
  bootstrapRequestId : Bytes
  ok : Bool
  count : ℕ
deriving DecidableEq

/-- The committed rows of `exhibition_view_events` and of `exhibition_statistics`, the
tasks that are running, and the callbacks so far. -/
structure ViewSystem where
  events : List (Bytes × Bytes) := []
  totals : Bytes → Option ℕ := fun _ => none
  tasks : ℕ → Option ViewTask := fun _ => none
  reports : List CountReport := []

/-- How a database call ends. -/
inductive CallResult
  | done
  | duplicate
  | failed
  | noConnection
deriving DecidableEq

inductive ViewEvent
  -- a call of `incrementAndRead`, which the pool accepts or not
  | call (t : ℕ) (exhibitionId bootstrapRequestId : Bytes) (submitted : Bool)
  -- the next database call of a task
  | run (t : ℕ) (result : CallResult)
deriving DecidableEq

def validIds (exhibitionId bootstrapRequestId : Bytes) : Bool :=
  exhibitionId ≠ [] && exhibitionId.length ≤ 64 && bootstrapRequestId ≠ [] &&
    bootstrapRequestId.length ≤ 128

namespace ViewSystem

/-- `total_views`, or 0 if there is no row. -/
def total (s : ViewSystem) (exhibitionId : Bytes) : ℕ := (s.totals exhibitionId).getD 0

def eventsOf (s : ViewSystem) (exhibitionId : Bytes) : List (Bytes × Bytes) :=
  s.events.filter (·.1 = exhibitionId)

def setTask (s : ViewSystem) (t : ℕ) (task : ViewTask) : ViewSystem :=
  { s with tasks := Function.update s.tasks t (some task) }

/-- `complete`: a failure is reported with the count 0, and the task is over. -/
def complete (s : ViewSystem) (t : ℕ) (task : ViewTask) (ok : Bool) : ViewSystem :=
  { s with
    tasks := Function.update s.tasks t none
    reports := s.reports++[⟨task.exhibitionId, task.bootstrapRequestId, ok,
      if ok then task.count else 0⟩] }

/-- The transaction becomes visible as a whole. -/
def commitTask (s : ViewSystem) (t : ℕ) (task : ViewTask) : ViewSystem :=
  { s with
    events := if task.event then s.events++[task.key] else s.events
    totals :=
      match task.total with
      | some n => Function.update s.totals task.exhibitionId (some n)
      | none => s.totals
    tasks := Function.update s.tasks t
      (some { task with stage := .autocommitOn, event := false, total := none }) }

/-- A failed call is followed by `mysql_rollback`. -/
def failTask (s : ViewSystem) (t : ℕ) (task : ViewTask) : ViewSystem :=
  s.setTask t { task with stage := .rollback, ok := false }

/-- The next call of a task, with this result; locks are left to `Unlocked`. -/
def advance (s : ViewSystem) (t : ℕ) (task : ViewTask) (result : CallResult) :
    Option ViewSystem :=
  match task.stage, result with
  | .autocommitOff, .noConnection => some (s.complete t task false)
  | .autocommitOff, .done => some (s.setTask t { task with stage := .insertViewEvent })
  | .autocommitOff, .failed => some (s.failTask t task)
  | .insertViewEvent, .done =>
    if task.key ∈ s.events then none
    else some (s.setTask t { task with stage := .increment, event := true })
  | .insertViewEvent, .duplicate =>
    -- The page start has been counted already; this is no failure.
    if task.key ∈ s.events then some (s.setTask t { task with stage := .selectCount }) else none
  | .insertViewEvent, .failed => some (s.failTask t task)
  | .increment, .done =>
    some (s.setTask t
      { task with stage := .selectCount, total := some (s.total task.exhibitionId+1) })
  | .increment, .failed => some (s.failTask t task)
  | .selectCount, .done =>
    -- The own row is visible before it is committed; a missing row is a failure.
    match task.total.or (s.totals task.exhibitionId) with
    | some n => some (s.setTask t { task with stage := .commit, count := n })
    | none => none
  | .selectCount, .failed => some (s.failTask t task)
  | .commit, .done => some (s.commitTask t task)
  | .commit, .failed => some (s.failTask t task)
  | .rollback, .done =>
    some (s.setTask t { task with stage := .autocommitOn, event := false, total := none })
  | .autocommitOn, .done => some (s.complete t task task.ok)
  | .autocommitOn, .failed => some (s.complete t task false)
  | _, _ => none

def next (s : ViewSystem) : ViewEvent → Option ViewSystem
  | .call t exhibitionId bootstrapRequestId submitted =>
    if s.tasks t ≠ none then none
    else if validIds exhibitionId bootstrapRequestId ∧ submitted then
      some (s.setTask t ⟨exhibitionId, bootstrapRequestId, .autocommitOff, true, 0, false, none⟩)
    else
      some { s with reports := s.reports++[⟨exhibitionId, bootstrapRequestId, false, 0⟩] }
  | .run t result =>
    match s.tasks t with
    | none => none
    | some task => s.advance t task result

/-- The rows that the call would write are not held by another open transaction; if they
are, the call waits or fails. -/
def Unlocked (s : ViewSystem) : ViewEvent → Prop
  | .run t .done => ∀ task, s.tasks t = some task → ∀ t' task', t' ≠ t →
      s.tasks t' = some task' →
      (task.stage = .insertViewEvent → task'.event = true → task'.key ≠ task.key) ∧
      (task.stage = .increment → task'.total.isSome = true →
        task'.exhibitionId ≠ task.exhibitionId)
  | _ => True

def Step : ViewSystem → ViewEvent → ViewSystem → Prop :=
  Guarded Unlocked (fun s event s' => s.next event = some s')

end ViewSystem

end JingjieAR
