import JingjieAR.HttpRequestModel
import JingjieAR.OrderedSet
import JingjieAR.TransitionRuns
import Mathlib.Data.Prod.Lex
import Mathlib.Data.Int.Order.Basic

/-! The timers of an event loop: a set that is ordered by expiration and address, and one timerfd
that is armed for the first of them. Every reading of the wall clock is an input. -/
namespace JingjieAR

/-- `delta` is the interval in the microseconds that `addTime` makes of it, and `repeats` says that
the interval is positive. -/
structure Timer where
  expiration : Timestamp
  delta : ℤ
  repeats : Bool
deriving DecidableEq

namespace Timer

def restart (timer : Timer) (now : Timestamp) : Timer :=
  { timer with expiration := if timer.repeats then now+timer.delta else 0 }

end Timer

/-- An expiration and the address of the timer. -/
abbrev TimerEntry := Timestamp ×ₗ ℕ

def timerEntry (expiration : Timestamp) (timer : ℕ) : TimerEntry := toLex (expiration, timer)

def TimerEntry.expiration (e : TimerEntry) : Timestamp := (ofLex e).1

def TimerEntry.timer (e : TimerEntry) : ℕ := (ofLex e).2

def UINTPTR_MAX : ℕ := 2^64-1

inductive TimerFd
  | disarmed
  -- in so many microseconds of the monotonic clock
  | armed (micros : ℤ)
  | readable
deriving DecidableEq

structure TimerQueue where
  timers : OrderedSet TimerEntry := {}
  timerfd : TimerFd := .disarmed
  -- the objects that are alive, by address
  heap : ℕ → Option Timer := fun _ => none
  -- the timers whose callbacks have been run
  ran : List ℕ := []

/-- A timer that is added: where it was allocated, and what the clock reads in `resetTimerfd`. -/
structure NewTimer where
  address : ℕ
  timer : Timer
  reading : Timestamp

/-- What `handleRead` reads from the clock, and what the callbacks do, by the timer that it is
about. -/
structure TimerRound where
  now : Timestamp
  added : ℕ → List NewTimer := fun _ => []
  restarted : ℕ → Timestamp := fun _ => now
  rearmed : ℕ → Timestamp := fun _ => now

inductive TimerEvent
  | add (t : NewTimer)
  -- the time for which the timerfd was armed has passed
  | fire
  | handleRead (r : TimerRound)

namespace TimerQueue

def resetTimerfd (s : TimerQueue) (expiration now : Timestamp) : TimerQueue :=
  { s with timerfd := .armed (if expiration-now < 100 then 100 else expiration-now) }

def put (s : TimerQueue) (when : Timestamp) (timer : ℕ) : TimerQueue :=
  { s with timers := s.timers.insert (timerEntry when timer) }

/-- A timer is used by its address; there is no result when no timer is alive there. -/
def insert (s : TimerQueue) (timer : ℕ) : Option (Bool × TimerQueue) := do
  let t ← s.heap timer
  let earliestChanged :=
    match s.timers.first with
    | none => true
    | some it => decide (t.expiration < it.expiration)
  return (earliestChanged, s.put t.expiration timer)

def addTimerInLoop (s : TimerQueue) (timer : ℕ) (now : Timestamp) : Option TimerQueue := do
  let (earliestChanged, s') ← s.insert timer
  let t ← s'.heap timer
  return if earliestChanged then s'.resetTimerfd t.expiration now else s'

def store (s : TimerQueue) (address : ℕ) (timer : Option Timer) : TimerQueue :=
  { s with heap := Function.update s.heap address timer }

def addTimer (s : TimerQueue) (t : NewTimer) : Option TimerQueue :=
  (s.store t.address (some t.timer)).addTimerInLoop t.address t.reading

/-- A read of a timerfd that is not readable fails. -/
def readTimerFd (s : TimerQueue) : TimerQueue :=
  { s with timerfd := if s.timerfd = .readable then .disarmed else s.timerfd }

def sentry (now : Timestamp) : TimerEntry := timerEntry now UINTPTR_MAX

def getExpired (s : TimerQueue) (now : Timestamp) : List TimerEntry × TimerQueue :=
  (s.timers.below (sentry now), { s with timers := s.timers.eraseBelow (sentry now) })

/-- The callback of a timer, as far as it adds timers. -/
def run (added : ℕ → List NewTimer) (s : TimerQueue) (it : TimerEntry) : Option TimerQueue := do
  let _ ← s.heap it.timer
  (added it.timer).foldlM addTimer { s with ran := s.ran++[it.timer] }

/-- One round of the loop of `reset`. -/
def resetOne (r : TimerRound) (s : TimerQueue) (it : TimerEntry) : Option TimerQueue := do
  let t ← s.heap it.timer
  let s ←
    if t.repeats then
      ((s.store it.timer (some (t.restart (r.restarted it.timer)))).insert it.timer).map Prod.snd
    else some (s.store it.timer none)
  match s.timers.first with
  | none => return s
  | some first =>
    let t ← s.heap first.timer
    return s.resetTimerfd t.expiration (r.rearmed it.timer)

def handleRead (s : TimerQueue) (r : TimerRound) : Option TimerQueue := do
  let (expired, s) := s.readTimerFd.getExpired r.now
  let s ← expired.foldlM (run r.added) s
  expired.foldlM (resetOne r) s

def next (s : TimerQueue) : TimerEvent → Option TimerQueue
  | .add t => s.addTimer t
  | .fire =>
    match s.timerfd with
    | .armed _ => some { s with timerfd := .readable }
    | _ => none
  | .handleRead r => s.handleRead r

def Step (s : TimerQueue) (e : TimerEvent) (s' : TimerQueue) : Prop := s.next e = some s'

/-- The timers that the callbacks of a round add. -/
def addedIn (s : TimerQueue) (r : TimerRound) : List NewTimer :=
  (s.timers.below (sentry r.now)).flatMap (fun it => r.added it.timer)

/-- `new` gives an address that nothing else has, and that is not the last one. -/
def Allocates (s : TimerQueue) : TimerEvent → Prop
  | .add t => s.heap t.address = none ∧ t.address < UINTPTR_MAX
  | .fire => True
  | .handleRead r => ((s.addedIn r).map NewTimer.address).Nodup ∧
      ∀ t ∈ s.addedIn r, s.heap t.address = none ∧ t.address < UINTPTR_MAX

end TimerQueue

end JingjieAR
