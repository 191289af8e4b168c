import JingjieAR.TransitionRuns
import Mathlib.Data.List.Basic

/-! The bounded pool of background tasks: `submit`, the loop of the workers and `shutdown`, for
any number of threads that submit. A critical section of the mutex is one step. A task is known
by the number of submits before its own. -/
namespace JingjieAR

inductive WorkerStage
  -- before the critical section of a round of `run`
  | looking
  -- asleep in `condition_.wait`; or woken, and without the mutex yet
  | waiting
  | notified
  | running (task : ℕ)
  | exited
deriving DecidableEq

inductive ShutdownStage
  | notCalled
  -- `accepting_` is false, and `notify_all` is to be called
  | closed
  -- so many workers have been joined
  | joining (joined : ℕ)
  | returned
deriving DecidableEq

namespace WorkerStage

/-- The worker asks the predicate of its wait as soon as it has the mutex. -/
def isLooking : WorkerStage → Bool
  | .looking => true
  | .waiting => true
  | .notified => true
  | _ => false

def isWaiting : WorkerStage → Bool
  | .waiting => true
  | _ => false

def isNotified : WorkerStage → Bool
  | .notified => true
  | _ => false

def isExited : WorkerStage → Bool
  | .exited => true
  | _ => false

/-- `notify_all`, as it meets one worker. -/
def wake : WorkerStage → WorkerStage
  | .waiting => .notified
  | stage => stage

end WorkerStage

structure TaskWorkerPool where
  capacity : ℕ
  accepting : Bool := true
  tasks : List ℕ := []
  workers : List WorkerStage
  shutdown : ShutdownStage := .notCalled
  -- what the submits have returned, and what has become of their tasks
  answers : List Bool := []
  taken : List ℕ := []
  finished : List ℕ := []

inductive TaskPoolEvent
  -- by whatever thread; the worker that is woken, if any sleeps
  | submit (woken : Option ℕ)
  | look (i : ℕ)
  -- the task returns or throws
  | finish (i : ℕ) (threw : Bool)
  | close
  | notifyAll
  | join

namespace TaskWorkerPool

/-- The workers have been started. -/
def new (workers capacity : ℕ) : TaskWorkerPool :=
  { capacity := capacity, workers := List.replicate workers .looking }

def setWorker (s : TaskWorkerPool) (i : ℕ) (stage : WorkerStage) : TaskWorkerPool :=
  { s with workers := s.workers.set i stage }

def push (s : TaskWorkerPool) (task : ℕ) : TaskWorkerPool :=
  { s with tasks := s.tasks++[task] }

/-- What `submit` returns, and the pool then. -/
def submit (s : TaskWorkerPool) (task : ℕ) (woken : Option ℕ) : Option (Bool × TaskWorkerPool) :=
  if !s.accepting || s.workers.isEmpty || s.capacity ≤ s.tasks.length then some (false, s)
  else
    match woken with
    | some i =>
      match s.workers[i]? with
      | some .waiting => some (true, (s.push task).setWorker i .notified)
      | _ => none
    | none =>
      if s.workers.countP WorkerStage.isWaiting = 0 then some (true, s.push task) else none

/-- The critical section of `run`: there is a task, or the worker sleeps on, or returns. -/
def look (s : TaskWorkerPool) (i : ℕ) : TaskWorkerPool :=
  match s.tasks with
  | task :: rest =>
    { s with tasks := rest, taken := s.taken++[task] }.setWorker i (.running task)
  | [] => s.setWorker i (if s.accepting then .waiting else .exited)

/-- What a task throws is caught and dropped. -/
def finish (s : TaskWorkerPool) (i task : ℕ) : TaskWorkerPool :=
  { s with finished := s.finished++[task] }.setWorker i .looking

/-- The result is noted. -/
def answer (result : Bool × TaskWorkerPool) : TaskWorkerPool :=
  { result.2 with answers := result.2.answers++[result.1] }

def next (s : TaskWorkerPool) : TaskPoolEvent → Option TaskWorkerPool
  | .submit woken => (s.submit s.answers.length woken).map answer
  | .look i =>
    match s.workers[i]? with
    | some stage => if stage.isLooking then some (s.look i) else none
    | none => none
  | .finish i _ =>
    match s.workers[i]? with
    | some (.running task) => some (s.finish i task)
    | _ => none
  | .close =>
    match s.shutdown with
    | .notCalled => some { s with accepting := false, shutdown := .closed }
    | _ => none
  | .notifyAll =>
    match s.shutdown with
    | .closed => some { s with workers := s.workers.map WorkerStage.wake, shutdown := .joining 0 }
    | _ => none
  | .join =>
    match s.shutdown with
    | .joining joined =>
      match s.workers[joined]? with
      | some .exited => some { s with shutdown := .joining (joined+1) }
      | some _ => none
      | none => some { s with shutdown := .returned }
    | _ => none

def Step (s : TaskWorkerPool) (e : TaskPoolEvent) (s' : TaskWorkerPool) : Prop :=
  s.next e = some s'

end TaskWorkerPool

end JingjieAR
