import JingjieAR.TransitionRuns
import Mathlib.Data.List.Basic

/-! The lifetime that `ArtworkInteractionService` shares with the continuations of its
requests: `Lifetime`, `DaoCallLease`, `active` and the destructor, one statement at a time for
as many threads as there are. -/
namespace JingjieAR

open Runs (Run)

/-- Who may have the mutex of the lifetime. -/
inductive Party
  | destructor
  | user (i : ℕ)
  deriving DecidableEq, Repr

structure Lifetime where
  valid : Bool := true
  activeCalls : ℕ := 0
  dao : Option ℕ
  -- the holder of `mutex`, and the count of the shared pointers
  mutex : Option Party := none
  useCount : ℕ := 1
  deriving DecidableEq, Repr

/-- The members of a lease: `lifetime_` is set or empty, `dao_` may be null. -/
structure DaoCallLease where
  lifetime : Bool := false
  dao : Option ℕ := none
  deriving DecidableEq, Repr

/-- A continuation takes the weak pointer to construct a lease or to ask `active`. -/
inductive Purpose
  | lease
  | active
  deriving DecidableEq, Repr

inductive UserStage
  -- before `weakLifetime.lock()`
  | entering (purpose : Purpose)
  -- a shared pointer of its own, waiting for the mutex
  | waiting (purpose : Purpose)
  | checking (purpose : Purpose)
  -- past the check of `valid` and `dao`
  | admitted
  -- through with the critical section, and the mutex still held
  | settled (lease : Option DaoCallLease)
  -- the mutex given back, and the local shared pointer still there
  | dropping (lease : Option DaoCallLease)
  | live (lease : DaoCallLease)
  -- in `~DaoCallLease`: before the mutex, with it, after the decrement, after the mutex
  | closing (lease : DaoCallLease)
  | decrementing (lease : DaoCallLease)
  | decremented
  | releasing
  | gone
  deriving DecidableEq, Repr

inductive ServiceStage
  | running
  -- in `~ArtworkInteractionService`, after the copy of `lifetime_`
  | acquiring
  | invalidating
  -- the condition of the loop is to be read
  | draining
  | sleeping
  | clearing
  | unlocking
  | resetting
  | ending
  | returned
  deriving DecidableEq, Repr

namespace Lifetime

/-- The next statement of a continuation. `none` while it waits for the mutex; a lease that is
live goes on by `leave`. -/
def advanceUser (l : Lifetime) (i : ℕ) : UserStage → Option (Lifetime × UserStage)
  | .entering purpose =>
      if l.useCount = 0 then
        match purpose with
        | .lease => some (l, .live {})
        | .active => some (l, .gone)
      else some ({ l with useCount := l.useCount+1 }, .waiting purpose)
  | .waiting purpose =>
      if l.mutex = none then some ({ l with mutex := some (.user i) }, .checking purpose)
      else none
  | .checking .lease =>
      if !l.valid || l.dao.isNone then some (l, .settled (some {})) else some (l, .admitted)
  | .checking .active => some (l, .settled none)
  | .admitted =>
      some ({ l with activeCalls := l.activeCalls+1, useCount := l.useCount+1 },
        .settled (some { lifetime := true, dao := l.dao }))
  | .settled lease => some ({ l with mutex := none }, .dropping lease)
  | .dropping lease =>
      some ({ l with useCount := l.useCount-1 }, match lease with
        | some lease => .live lease
        | none => .gone)
  | .live _ => none
  | .closing lease =>
      if l.mutex = none then some ({ l with mutex := some (.user i) }, .decrementing lease)
      else none
  | .decrementing _ => some ({ l with activeCalls := l.activeCalls-1 }, .decremented)
  | .decremented => some ({ l with mutex := none }, .releasing)
  | .releasing => some ({ l with useCount := l.useCount-1 }, .gone)
  | .gone => none

/-- The next statement of the destructor. A sleeping one may wake at any time, as a condition
variable allows. -/
def advanceService (l : Lifetime) : ServiceStage → Option (Lifetime × ServiceStage)
  | .running => some ({ l with useCount := l.useCount+1 }, .acquiring)
  | .acquiring =>
      if l.mutex = none then some ({ l with mutex := some .destructor }, .invalidating) else none
  | .invalidating => some ({ l with valid := false }, .draining)
  | .draining =>
      if l.activeCalls ≠ 0 then some ({ l with mutex := none }, .sleeping)
      else some (l, .clearing)
  | .sleeping =>
      if l.mutex = none then some ({ l with mutex := some .destructor }, .draining) else none
  | .clearing => some ({ l with dao := none }, .unlocking)
  | .unlocking => some ({ l with mutex := none }, .resetting)
  | .resetting => some ({ l with useCount := l.useCount-1 }, .ending)
  | .ending => some ({ l with useCount := l.useCount-1 }, .returned)
  | .returned => none

end Lifetime

/-- The lifetime, the service and the continuations in the order in which they came. -/
structure LeaseSystem where
  lifetime : Lifetime
  service : ServiceStage := .running
  users : List UserStage := []
  deriving DecidableEq, Repr

inductive LeaseEvent
  | arrive (purpose : Purpose)
  | user (i : ℕ)
  | daoCall (i : ℕ)
  -- the lease goes out of scope
  | leave (i : ℕ)
  | destructor
  deriving DecidableEq, Repr

namespace LeaseSystem

/-- The service as it is constructed over a DAO, which may be null. -/
def start (dao : Option ℕ) : LeaseSystem := { lifetime := { dao := dao } }

/-- A continuation calls the DAO only after `lease.get()` has given it one. -/
def next (s : LeaseSystem) : LeaseEvent → Option LeaseSystem
  | .arrive purpose => some { s with users := s.users++[.entering purpose] }
  | .user i => do
      let stage ← s.users[i]?
      let (lifetime, stage') ← s.lifetime.advanceUser i stage
      return { s with lifetime := lifetime, users := s.users.set i stage' }
  | .daoCall i =>
      match s.users[i]? with
      | some (.live { lifetime := _, dao := some _ }) => some s
      | _ => none
  | .leave i =>
      match s.users[i]? with
      | some (.live lease) =>
          some { s with
            users := s.users.set i (if lease.lifetime then .closing lease else .gone) }
      | _ => none
  | .destructor => do
      let (lifetime, service) ← s.lifetime.advanceService s.service
      return { s with lifetime := lifetime, service := service }

def Step (s : LeaseSystem) (e : LeaseEvent) (s' : LeaseSystem) : Prop := s.next e = some s'

end LeaseSystem

/-- The DAO pointer of the lease, from the constructor's critical section to the
destructor's. -/
def UserStage.dao : UserStage → Option ℕ
  | .settled (some lease) => lease.dao
  | .dropping (some lease) => lease.dao
  | .live lease => lease.dao
  | .closing lease => lease.dao
  | .decrementing lease => lease.dao
  | _ => none

end JingjieAR
