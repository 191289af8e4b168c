import JingjieAR.TransitionRuns
import Mathlib.Algebra.Group.Nat.Defs
import Mathlib.Data.List.Basic
import Mathlib.Data.Int.Notation
import Mathlib.Logic.Function.Iterate

/-! The pools of MySQL and Redis connections: `borrow`, `recycle` and the sweep that keeps idle
connections alive, for any number of threads. A critical section of the mutex is one step, and
so is each change of `activeCount_`, which is made outside it in `borrow` and `recycle`. -/
namespace JingjieAR

open Runs (Guarded)

/-- A call of `borrow`, and then of the `recycle` that the shared pointer makes in the end. -/
inductive Lease
  -- `borrow`, before its critical section
  | borrowing
  -- a place is reserved, and `createConnection` runs
  | creating
  -- it has made nothing, and `activeCount_` still counts it
  | failed
  -- in `wait_for`; or woken, and without the mutex yet
  | waiting
  | notified
  | holding (conn : ℕ)
  -- `recycle`, past its look at the connection
  | recycling (conn : ℕ) (healthy : Bool)
  -- the connection is closed, and `activeCount_` still counts it
  | closed
  -- the connection is idle, and `notify_one` is to be called
  | pushed
  | returned
deriving DecidableEq

namespace Lease

/-- The connection that is in the hands of the borrower, or of its `recycle`. -/
def conn : Lease → Option ℕ
  | .holding conn => some conn
  | .recycling conn _ => some conn
  | _ => none

def isBorrowed (lease : Lease) : Bool := lease.conn.isSome

def isCreating : Lease → Bool
  | .creating => true
  | _ => false

/-- One decrement of `activeCount_` is still to be made. -/
def isPending : Lease → Bool
  | .failed => true
  | .closed => true
  | _ => false

def isWaiting : Lease → Bool
  | .waiting => true
  | _ => false

def isNotified : Lease → Bool
  | .notified => true
  | _ => false

def isPushed : Lease → Bool
  | .pushed => true
  | _ => false

end Lease

/-- The decrement of an `std::atomic<size_t>`. -/
def decrement (n : ℕ) : ℕ := if n = 0 then 2^64-1 else n-1

/-- An idle connection stands in the queue with what the pool notes about it: the time of its
last use, or nothing. The leases are the calls that have been made. -/
structure ConnectionPool (τ : Type) where
  maxPoolSize : ℕ
  activeCount : ℕ := 0
  idleConns : List (ℕ × τ) := []
  leases : List Lease := []

inductive PoolEvent (τ : Type)
  | borrow
  -- the critical section at the beginning of `borrow`
  | enter (i : ℕ)
  | create (i : ℕ) (conn : Option ℕ)
  -- out of `wait_for`'s sleep, for whatever reason, and with the mutex
  | wake (i : ℕ) (timedOut : Bool)
  | recycle (i : ℕ) (healthy : Bool)
  | push (i : ℕ) (note : τ)
  | close (i : ℕ)
  | discount (i : ℕ)
  | notify (i : ℕ) (woken : Option ℕ)
  -- the idle connections that stay, with a new note
  | sweep (keep : ℕ → τ → Option τ)

/-- If it is a sweep, it is one of these. -/
def PoolEvent.Sweeps {τ : Type} (p : (ℕ → τ → Option τ) → Prop) : PoolEvent τ → Prop
  | .sweep keep => p keep
  | _ => True

namespace ConnectionPool

variable {τ : Type}

def setLease (s : ConnectionPool τ) (i : ℕ) (lease : Lease) : ConnectionPool τ :=
  { s with leases := s.leases.set i lease }

/-- How often a connection is idle or in somebody's hands. -/
def uses (s : ConnectionPool τ) (conn : ℕ) : ℕ :=
  s.idleConns.countP (fun idle => idle.1 = conn)+s.leases.countP (fun lease => lease.conn = some conn)

/-- The beginning of `borrow`. The wait asks its predicate first, and there is nothing idle. -/
def enter (s : ConnectionPool τ) (i : ℕ) : ConnectionPool τ :=
  match s.idleConns with
  | (conn, _) :: rest => { s with idleConns := rest }.setLease i (.holding conn)
  | [] =>
    if s.activeCount < s.maxPoolSize then
      { s with activeCount := s.activeCount+1 }.setLease i .creating
    else s.setLease i .waiting

/-- The wait asks its predicate again. -/
def wake (s : ConnectionPool τ) (i : ℕ) (timedOut : Bool) : ConnectionPool τ :=
  match s.idleConns with
  | (conn, _) :: rest => { s with idleConns := rest }.setLease i (.holding conn)
  | [] => s.setLease i (if timedOut then .returned else .waiting)

/-- A new connection is at an address where none is open. -/
def create (s : ConnectionPool τ) (i : ℕ) : Option ℕ → Option (ConnectionPool τ)
  | none => some (s.setLease i .failed)
  | some conn => if s.uses conn = 0 then some (s.setLease i (.holding conn)) else none

def push (s : ConnectionPool τ) (i conn : ℕ) (note : τ) : ConnectionPool τ :=
  { s with idleConns := s.idleConns++[(conn, note)] }.setLease i .pushed

def discount (s : ConnectionPool τ) (i : ℕ) : ConnectionPool τ :=
  { s with activeCount := decrement s.activeCount }.setLease i .returned

/-- One of those that sleep in the wait is woken, if there is one. -/
def notify (s : ConnectionPool τ) (i : ℕ) : Option ℕ → Option (ConnectionPool τ)
  | some j =>
    match s.leases[j]? with
    | some .waiting => some ((s.setLease i .returned).setLease j .notified)
    | _ => none
  | none => if s.leases.countP Lease.isWaiting = 0 then some (s.setLease i .returned) else none

/-- The sweep has the mutex all the time. It closes what does not stay, and counts it out. -/
def sweep (s : ConnectionPool τ) (keep : ℕ → τ → Option τ) : ConnectionPool τ :=
  { s with
    idleConns := s.idleConns.filterMap (fun idle => (keep idle.1 idle.2).map (Prod.mk idle.1))
    activeCount :=
      decrement^[s.idleConns.countP (fun idle => (keep idle.1 idle.2).isNone)] s.activeCount }

def next (s : ConnectionPool τ) : PoolEvent τ → Option (ConnectionPool τ)
  | .borrow => some { s with leases := s.leases++[.borrowing] }
  | .enter i =>
    match s.leases[i]? with
    | some .borrowing => some (s.enter i)
    | _ => none
  | .create i conn =>
    match s.leases[i]? with
    | some .creating => s.create i conn
    | _ => none
  | .wake i timedOut =>
    match s.leases[i]? with
    | some .waiting => some (s.wake i timedOut)
    | some .notified => some (s.wake i timedOut)
    | _ => none
  | .recycle i healthy =>
    match s.leases[i]? with
    | some (.holding conn) => some (s.setLease i (.recycling conn healthy))
    | _ => none
  | .push i note =>
    match s.leases[i]? with
    | some (.recycling conn true) => some (s.push i conn note)
    | _ => none
  | .close i =>
    match s.leases[i]? with
    | some (.recycling _ false) => some (s.setLease i .closed)
    | _ => none
  | .discount i =>
    match s.leases[i]? with
    | some .failed => some (s.discount i)
    | some .closed => some (s.discount i)
    | _ => none
  | .notify i woken =>
    match s.leases[i]? with
    | some .pushed => s.notify i woken
    | _ => none
  | .sweep keep => some (s.sweep keep)

def Step (s : ConnectionPool τ) (e : PoolEvent τ) (s' : ConnectionPool τ) : Prop :=
  s.next e = some s'

/-- The loop of the constructors: each turn makes a connection, or fails to. -/
def prefill (s : ConnectionPool τ) : List (Option (ℕ × τ)) → Option (ConnectionPool τ)
  | [] => some s
  | none :: turns => s.prefill turns
  | some (conn, note) :: turns =>
    if s.uses conn = 0 then
      { s with
        idleConns := s.idleConns++[(conn, note)]
        activeCount := s.activeCount+1 }.prefill turns
    else none

end ConnectionPool

namespace MySQLConnectionPool

/-- Two connections are made at first, as far as the pool may have them. -/
def Starts (poolSize : ℕ) (s : ConnectionPool ℤ) : Prop :=
  ∃ turns, turns.length = min 2 poolSize ∧
    ConnectionPool.prefill { maxPoolSize := poolSize } turns = some s

/-- What `makeKeepAliveFunc` does with an idle connection; the times are in nanoseconds. -/
def keepAlive (now : ℤ) (ping : ℕ → Bool) (conn : ℕ) (lastUsed : ℤ) : Option ℤ :=
  let idleSec := (now-lastUsed).tdiv 1000000000
  if idleSec > 240 then
    if ping conn then some now else none
  else some lastUsed

def Step : ConnectionPool ℤ → PoolEvent ℤ → ConnectionPool ℤ → Prop :=
  Guarded (fun _ e => e.Sweeps (fun keep => ∃ now ping, keep = keepAlive now ping))
    ConnectionPool.Step

end MySQLConnectionPool

namespace RedisConnectionPool

/-- The pool is filled at first. -/
def Starts (poolSize : ℕ) (s : ConnectionPool Unit) : Prop :=
  ∃ turns, turns.length = poolSize ∧
    ConnectionPool.prefill { maxPoolSize := poolSize } turns = some s

/-- Nothing keeps idle connections alive. -/
def Step : ConnectionPool Unit → PoolEvent Unit → ConnectionPool Unit → Prop :=
  Guarded (fun _ e => e.Sweeps (fun _ => False)) ConnectionPool.Step

end RedisConnectionPool

end JingjieAR
