import JingjieAR.SortedSets
import JingjieAR.StaticFileModel
import Mathlib.Data.Rat.Defs

/-! The visitors who are online: one sorted set with the token of each visitor and the time of
the last heartbeat, from which a count removes those that are too old. -/
namespace JingjieAR

open SortedSets

/-- What is at `presence:exhibition`. -/
abbrev PresenceSet := OrderedMap Bytes ℚ

def kOnlineWindowMs : ℤ := 60000

namespace RedisPresenceStore

-- the number that Redis has for a timestamp that is sent as a score
variable (score : ℤ → ℚ)

/-- `%s` ends a token at its first NUL. -/
def touch (store : PresenceSet) (token : Bytes) (nowMs : ℤ) : Bool × PresenceSet :=
  if token = [] then (false, store)
  else (true, zadd store (score nowMs) (cString token))

def remove (store : PresenceSet) (token : Bytes) : Bool × PresenceSet :=
  if token = [] then (false, store) else (true, zrem store (cString token))

/-- The script: what is too old goes, and the rest is counted. -/
def count (store : PresenceSet) (cutoffMs : ℤ) : (Bool × ℕ) × PresenceSet :=
  let trimmed := zremrangebyscore store (score cutoffMs)
  ((true, zcard trimmed), trimmed)

end RedisPresenceStore

namespace PresenceService

variable (score : ℤ → ℚ)

def heartbeat (store : PresenceSet) (token : Bytes) (nowMs : ℤ) : Bool × PresenceSet :=
  if token ≠ [] ∧ 0 ≤ nowMs then RedisPresenceStore.touch score store token nowMs
  else (false, store)

def remove (store : PresenceSet) (token : Bytes) : Bool × PresenceSet :=
  if token ≠ [] then RedisPresenceStore.remove store token else (false, store)

/-- Whether it succeeds, and the value, which is zero where it does not. -/
def count (store : PresenceSet) (nowMs : ℤ) : (Bool × ℕ) × PresenceSet :=
  if 0 ≤ nowMs then RedisPresenceStore.count score store (nowMs-kOnlineWindowMs)
  else ((false, 0), store)

end PresenceService

inductive PresenceOp
  | heartbeat (token : Bytes) (nowMs : ℤ)
  | remove (token : Bytes)
  | count (nowMs : ℤ)
deriving DecidableEq

namespace PresenceOp

def token : PresenceOp → Option Bytes
  | .heartbeat token _ => some token
  | .remove token => some token
  | .count _ => none

def nowMs : PresenceOp → Option ℤ
  | .heartbeat _ nowMs => some nowMs
  | .remove _ => none
  | .count nowMs => some nowMs

/-- Whether the service passes the operation on to the store. -/
def accepted : PresenceOp → Bool
  | .heartbeat token nowMs => token ≠ [] ∧ 0 ≤ nowMs
  | .remove token => token ≠ []
  | .count nowMs => 0 ≤ nowMs

/-- What the operation leaves of the store. -/
def apply (score : ℤ → ℚ) (store : PresenceSet) : PresenceOp → PresenceSet
  | .heartbeat token nowMs => (PresenceService.heartbeat score store token nowMs).2
  | .remove token => (PresenceService.remove store token).2
  | .count nowMs => (PresenceService.count score store nowMs).2

end PresenceOp

namespace PresenceService

/-- The store after the operations, one after the other. -/
def run (score : ℤ → ℚ) (ops : List PresenceOp) : PresenceSet :=
  ops.foldl (PresenceOp.apply score) .empty

/-- The timestamps do not decrease, and are small enough for a score. -/
def Timely (ops : List PresenceOp) : Prop :=
  (ops.filterMap PresenceOp.nowMs).Pairwise (· ≤ ·) ∧
    ∀ nowMs ∈ ops.filterMap PresenceOp.nowMs, nowMs < 2^53

/-- The time of the most recent accepted operation with the token, if that is a heartbeat. -/
def lastHeartbeat (ops : List PresenceOp) (token : Bytes) : Option ℤ :=
  (ops.reverse.find? (fun op => op.accepted && op.token = some token)).bind PresenceOp.nowMs

/-- The tokens that are to be counted. -/
def online (ops : List PresenceOp) (nowMs : ℤ) : List Bytes :=
  (ops.filterMap PresenceOp.token).dedup.filter
    (fun token => (lastHeartbeat ops token).any (nowMs-kOnlineWindowMs < ·))

def isCount : PresenceOp → Bool
  | .count _ => true
  | _ => false

/-- A count gives the number of tokens that are online, and the same as if no count had come
before it. -/
def CountsOnline (score : ℤ → ℚ) (ops : List PresenceOp) (nowMs : ℤ) : Prop :=
  (count score (run score ops) nowMs).1.2 = (online ops nowMs).length ∧
    (count score (run score (ops.filter (!isCount ·))) nowMs).1.2 =
      (count score (run score ops) nowMs).1.2

end PresenceService

end JingjieAR
