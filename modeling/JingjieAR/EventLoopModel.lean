import JingjieAR.TransitionRuns
import Mathlib.Algebra.Group.Nat.Defs

/-! The event loop and the thread that it runs in. A queue takes functors from any thread, and an
eventfd wakes the loop for them; a flag that any thread may set ends it. A functor is known by
the number of functors that have been queued before it. -/
namespace JingjieAR

inductive LoopStage
  -- before `loop` has set `quit_` to false
  | constructed
  -- before the test of `quit_`; and between it and `poll`
  | testing
  | passed
  | polling
  -- in the callbacks of the active channels; whether that of `wakeupFd_` is still to come
  | handling (active : Bool)
  -- in `doPendingFunctors`: before the critical section, and before one more functor or the end
  | swapping
  | running (functors : List ℕ)
  -- in a functor; the others are still to come
  | calling (functors : List ℕ)
  | left
deriving DecidableEq

structure EventLoop where
  quit : Bool := false
  callingPendingFunctors : Bool := false
  pendingFunctors : List ℕ := []
  -- the counter of `wakeupFd_`
  counter : ℕ := 0
  stage : LoopStage := .constructed
  -- the thread of the loop has queued a functor, and has not asked yet whether to wake itself
  queued : Bool := false
  -- the other threads that have queued a functor, or set `quit_`, and are to call `wakeup`
  queuers : ℕ := 0
  quitters : ℕ := 0
  -- how many functors were queued, and which have been called
  enqueued : ℕ := 0
  ran : List ℕ := []
  -- whether `quit` was called, and how many polls were started since
  requested : Bool := false
  polls : ℕ := 0

inductive LoopEvent
  -- the thread of the loop, in the order of `loop`
  | enter
  | test
  | poll
  | pollReturned (active : Bool)
  | handleRead
  | doPendingFunctors
  | swap
  | call
  | callReturned
  | finish
  -- what a callback or a functor calls
  | queueOwn
  | wakeupOwn
  | quitOwn
  -- the other threads
  | queue
  | wakeup
  | quit
  | quitWakeup

namespace EventLoop

/-- The eventfd is not blocking: a write to a full counter fails. -/
def wakeup (s : EventLoop) : EventLoop :=
  { s with counter := if s.counter < 2^64-2 then s.counter+1 else s.counter }

/-- The critical section of `queueInLoop`. -/
def enqueue (s : EventLoop) : EventLoop :=
  { s with pendingFunctors := s.pendingFunctors++[s.enqueued], enqueued := s.enqueued+1 }

def requestQuit (s : EventLoop) : EventLoop := { s with quit := true, requested := true }

/-- What the thread of the loop does next. -/
def advance (s : EventLoop) (e : LoopEvent) : Option EventLoop :=
  match e, s.stage with
  | .enter, .constructed => some { s with quit := false, stage := .testing }
  | .test, .testing => some { s with stage := if s.quit then .left else .passed }
  | .poll, .passed =>
    some { s with stage := .polling, polls := if s.requested then s.polls+1 else s.polls }
  -- the eventfd is only reported while it is readable
  | .pollReturned active, .polling =>
    if active = true → 0 < s.counter then some { s with stage := .handling active } else none
  | .handleRead, .handling true => some { s with counter := 0, stage := .handling false }
  | .doPendingFunctors, .handling false =>
    some { s with callingPendingFunctors := true, stage := .swapping }
  | .swap, .swapping => some { s with pendingFunctors := [], stage := .running s.pendingFunctors }
  | .call, .running (functor :: functors) =>
    some { s with ran := s.ran++[functor], stage := .calling functors }
  | .callReturned, .calling functors => some { s with stage := .running functors }
  | .finish, .running [] => some { s with callingPendingFunctors := false, stage := .testing }
  | _, _ => none

/-- The thread of the loop is in code that may call the loop. -/
def isInCallback (s : EventLoop) : Bool :=
  match s.stage with
  | .handling _ => true
  | .calling _ => true
  | _ => false

def next (s : EventLoop) : LoopEvent → Option EventLoop
  | .queueOwn =>
    if s.isInCallback && !s.queued then some { s.enqueue with queued := true } else none
  | .wakeupOwn =>
    if s.queued then
      some { (if s.callingPendingFunctors then s.wakeup else s) with queued := false }
    else none
  | .quitOwn => if s.isInCallback && !s.queued then some s.requestQuit else none
  | .queue => some { s.enqueue with queuers := s.queuers+1 }
  | .wakeup => if 0 < s.queuers then some { s.wakeup with queuers := s.queuers-1 } else none
  | .quit => some { s.requestQuit with quitters := s.quitters+1 }
  | .quitWakeup => if 0 < s.quitters then some { s.wakeup with quitters := s.quitters-1 } else none
  | e => if s.queued then none else s.advance e

def Step (s : EventLoop) (e : LoopEvent) (s' : EventLoop) : Prop := s.next e = some s'

end EventLoop

inductive LoopThreadStage
  | notStarted
  -- before `loop_` is set; then until it is cleared
  | starting
  | published
  | finished
deriving DecidableEq

inductive LoopOwnerStage
  | idle
  -- in the wait of `startLoop`; and after its return
  | starting
  | started
  -- in the destructor, before `quit`, its `wakeup` and `join`
  | quitting
  | waking
  | joining
  | destroyed
deriving DecidableEq

structure EventLoopThread where
  loop : EventLoop := {}
  thread : LoopThreadStage := .notStarted
  owner : LoopOwnerStage := .idle

inductive LoopThreadEvent
  | startLoop
  | publish
  | startReturned
  -- of the thread of the loop, or of a thread that `startLoop` has given the loop to
  | loop (e : LoopEvent)
  | clear
  | destroy
  | quit
  | wakeup
  | join

namespace LoopEvent

/-- A step of a thread that is not the loop's own. -/
def isForeign : LoopEvent → Bool
  | .queue => true
  | .wakeup => true
  | .quit => true
  | .quitWakeup => true
  | _ => false

end LoopEvent

namespace EventLoopThread

/-- `startLoop` has returned, so that other threads may have the loop. -/
def isShared (s : EventLoopThread) : Bool :=
  match s.owner with
  | .idle => false
  | .starting => false
  | _ => true

def next (s : EventLoopThread) : LoopThreadEvent → Option EventLoopThread
  | .startLoop =>
    match s.owner with
    | .idle => some { s with owner := .starting, thread := .starting }
    | _ => none
  | .publish =>
    match s.thread with
    | .starting => some { s with thread := .published }
    | _ => none
  | .startReturned =>
    match s.owner, s.thread with
    | .starting, .published => some { s with owner := .started }
    | _, _ => none
  | .loop e =>
    if s.thread = .published ∧ (e.isForeign = true → s.isShared = true) then
      (s.loop.next e).map (fun loop => { s with loop := loop })
    else none
  | .clear =>
    if s.thread = .published ∧ s.loop.stage = .left then some { s with thread := .finished }
    else none
  -- with no `loop_` there is nothing to join
  | .destroy =>
    match s.owner with
    | .started =>
      some { s with owner := if s.thread = .published then .quitting else .destroyed }
    | _ => none
  | .quit =>
    match s.owner, s.thread with
    | .quitting, .published => some { s with loop := s.loop.requestQuit, owner := .waking }
    | _, _ => none
  | .wakeup =>
    match s.owner with
    | .waking => some { s with loop := s.loop.wakeup, owner := .joining }
    | _ => none
  | .join =>
    match s.owner, s.thread with
    | .joining, .finished => some { s with owner := .destroyed }
    | _, _ => none

def Step (s : EventLoopThread) (e : LoopThreadEvent) (s' : EventLoopThread) : Prop :=
  s.next e = some s'

end EventLoopThread

end JingjieAR
