import JingjieAR.HashLfuCache
import JingjieAR.SessionStoreModel
import JingjieAR.StaticFileModel

/-! The cache of two levels, an LFU cache of the process before Redis, and `getOrLoad`, which
any number of threads run at once. A thread takes the lock of its key from a table, and the
entry of the table is erased while other threads may still wait for that lock. -/
namespace JingjieAR

open HttpResponse (decimal)

/-- What the conversions of the standard library throw. -/
inductive StdException
  | invalidArgument
  | outOfRange
deriving DecidableEq

/-- Blanks, a sign and digits in front of a text, as `strtoll` reads them: whether there is a
minus, and the number. -/
def signedDigits (text : Bytes) : Option (Bool × ℕ) :=
  let text := text.dropWhile (fun c => c = 32 || (9 ≤ c && c ≤ 13))
  let negative := text.head? = some 45
  let digits := (if negative || text.head? = some 43 then text.tail else text).takeWhile isDigit
  if digits = [] then none
  else some (negative, digits.foldl (fun value c => value*10+(c.toNat-48)) 0)

def stoll (text : Bytes) : Except StdException ℤ :=
  match signedDigits text with
  | none => .error .invalidArgument
  | some (negative, value) =>
    let number : ℤ := if negative then -value else value
    if -2^63 ≤ number ∧ number < 2^63 then .ok number else .error .outOfRange

/-- A minus is taken modulo 2⁶⁴. -/
def stoull (text : Bytes) : Except StdException ℕ :=
  match signedDigits text with
  | none => .error .invalidArgument
  | some (negative, value) =>
    if value < 2^64 then .ok (if negative then (2^64-value) % 2^64 else value)
    else .error .outOfRange

def bar : UInt8 := 124

/-- What stands before and behind the first bar. -/
def cutAtBar (text : Bytes) : Option (Bytes × Bytes) :=
  (findByte bar text).map (fun p => (text.take p, text.drop (p+1)))

/-- The first level, and the keys `cache:…` of Redis, which time takes away. -/
structure TwoLevelCache where
  l1Cache : KHashLfuCache Bytes CachedFileEntry
  redis : Bytes → Option Bytes := fun _ => none

namespace TwoLevelCache

def serialize (e : CachedFileEntry) : Bytes :=
  e.contentType++bar :: signedDecimal e.lastModified++bar :: decimal e.fileSize++bar :: e.content

def deserialize (data : Bytes) : Except StdException (Option CachedFileEntry) :=
  match cutAtBar data with
  | none => .ok none
  | some (contentType, rest) =>
    match cutAtBar rest with
    | none => .ok none
    | some (lastModified, rest) =>
      match cutAtBar rest with
      | none => .ok none
      | some (fileSize, content) => do
        let lastModified ← stoll lastModified
        let fileSize ← stoull fileSize
        .ok (some ⟨content, contentType, lastModified, fileSize⟩)

/-- The key is handed to Redis as a C string. -/
def redisKey (key : Bytes) : Bytes := (ascii "cache:"++key).takeWhile (· ≠ 0)

/-- What a call meets: the orders in which the first level visits its nodes, what becomes of
the command, and the time. -/
structure Meets where
  visit : Iteration (LfuNode Bytes CachedFileEntry) := .id _
  visitPut : Iteration (LfuNode Bytes CachedFileEntry) := .id _
  result : CommandResult := .replied
  now : ℤ := 0

/-- The second level of `get`, when the first has no node. -/
def getRedis (c : TwoLevelCache) (key : Bytes) (entry : CachedFileEntry) (m : Meets) :
    Option (Except StdException (Bool × CachedFileEntry) × TwoLevelCache) :=
  match m.result with
  | .replied =>
    match c.redis (redisKey key) with
    | none => some (.ok (false, entry), c)
    | some val =>
      if val = [] then some (.ok (false, entry), c)
      else
        match deserialize val with
        | .error e => some (.error e, c)
        | .ok none => some (.ok (false, entry), c)
        | .ok (some e) =>
          (c.l1Cache.put key e m.visitPut).map (fun l1 => (.ok (true, e), { c with l1Cache := l1 }))
  | .lost => some (.ok (false, entry), c)
  | .unreached => some (.ok (false, entry), c)

/-- The result, and the entry that the caller has then, or an exception. A marker in the
first level is a miss that overwrites the entry. -/
def get (c : TwoLevelCache) (key : Bytes) (entry : CachedFileEntry) (m : Meets) :
    Option (Except StdException (Bool × CachedFileEntry) × TwoLevelCache) :=
  match c.l1Cache.get key m.visit with
  | none => none
  | some (some found, l1) =>
    some (.ok (!(found.fileSize = 0 && found.content.isEmpty), found), { c with l1Cache := l1 })
  | some (none, l1) => getRedis { c with l1Cache := l1 } key entry m

/-- Both levels take a value; Redis may not. -/
def store (c : TwoLevelCache) (key : Bytes) (entry : CachedFileEntry) (val : Bytes) (m : Meets) :
    Option TwoLevelCache :=
  (c.l1Cache.put key entry m.visitPut).map (fun l1 =>
    match m.result with
    | .replied => ⟨l1, Function.update c.redis (redisKey key) (some val)⟩
    | .lost => ⟨l1, Function.update c.redis (redisKey key) (some val)⟩
    | .unreached => { c with l1Cache := l1 })

def put (c : TwoLevelCache) (key : Bytes) (entry : CachedFileEntry) (m : Meets) :
    Option TwoLevelCache :=
  c.store key entry (serialize entry) m

def markNonexistent (c : TwoLevelCache) (key : Bytes) (m : Meets) : Option TwoLevelCache :=
  c.store key { lastModified := m.now } [] m

end TwoLevelCache

/-- Where a thread is in `getOrLoad`. -/
inductive RebuildStage
  | reading
  | takingLock
  | acquiring (keyLock : ℕ)
  | rechecking (keyLock : ℕ)
  -- `loadFunc` is running
  | loading (keyLock : ℕ)
  | storing (keyLock : ℕ) (ok : Bool)
  | erasing (keyLock : ℕ)
  | releasing (keyLock : ℕ)
deriving DecidableEq

structure RebuildCall where
  key : Bytes
  entry : CachedFileEntry := {}
  stage : RebuildStage := .reading
deriving DecidableEq

/-- How `loadFunc` ends. -/
inductive LoadOutcome
  | returned (ok : Bool) (entry : CachedFileEntry)
  | threw
deriving DecidableEq

/-- The cache, the table of locks, the locks that are held, by which thread, and the calls by
thread. Locks are numbered as they are made. -/
structure RebuildSystem where
  cache : TwoLevelCache
  rebuildLocks : Bytes → Option ℕ := fun _ => none
  made : ℕ := 0
  holder : ℕ → Option ℕ := fun _ => none
  calls : ℕ → Option RebuildCall := fun _ => none

inductive RebuildEvent
  | getOrLoad (t : ℕ) (key : Bytes)
  -- the next step of a call
  | run (t : ℕ) (m : TwoLevelCache.Meets) (outcome : LoadOutcome)
  | expire (redisKey : Bytes)

namespace RebuildSystem

def setCall (s : RebuildSystem) (t : ℕ) (call : RebuildCall) : RebuildSystem :=
  { s with calls := Function.update s.calls t (some call) }

/-- The call returns, or an exception leaves it. -/
def finish (s : RebuildSystem) (t : ℕ) : RebuildSystem :=
  { s with calls := Function.update s.calls t none }

def release (s : RebuildSystem) (keyLock : ℕ) : RebuildSystem :=
  { s with holder := Function.update s.holder keyLock none }

def advance (s : RebuildSystem) (t : ℕ) (call : RebuildCall) (m : TwoLevelCache.Meets)
    (outcome : LoadOutcome) : Option RebuildSystem :=
  match call.stage with
  | .reading =>
    (s.cache.get call.key call.entry m).map fun (found, cache) =>
      match found with
      | .error _ => { s with cache := cache }.finish t
      | .ok (true, _) => { s with cache := cache }.finish t
      | .ok (false, entry) =>
        { s with cache := cache }.setCall t { call with entry := entry, stage := .takingLock }
  | .takingLock =>
    match s.rebuildLocks call.key with
    | some keyLock => some (s.setCall t { call with stage := .acquiring keyLock })
    | none =>
      some ({ s with
        rebuildLocks := Function.update s.rebuildLocks call.key (some s.made)
        made := s.made+1 }.setCall t { call with stage := .acquiring s.made })
  | .acquiring keyLock =>
    if s.holder keyLock ≠ none then none
    else
      some ({ s with holder := Function.update s.holder keyLock (some t) }.setCall t
        { call with stage := .rechecking keyLock })
  | .rechecking keyLock =>
    (s.cache.get call.key call.entry m).map fun (found, cache) =>
      match found with
      | .error _ => ({ s with cache := cache }.release keyLock).finish t
      | .ok (true, entry) =>
        { s with cache := cache }.setCall t { call with entry := entry, stage := .erasing keyLock }
      | .ok (false, entry) =>
        { s with cache := cache }.setCall t { call with entry := entry, stage := .loading keyLock }
  | .loading keyLock =>
    match outcome with
    | .returned ok entry =>
      some (s.setCall t { call with entry := entry, stage := .storing keyLock ok })
    | .threw => some ((s.release keyLock).finish t)
  | .storing keyLock ok =>
    (if ok then s.cache.put call.key call.entry m else s.cache.markNonexistent call.key m).map
      (fun cache => { s with cache := cache }.setCall t { call with stage := .erasing keyLock })
  | .erasing keyLock =>
    some ({ s with rebuildLocks := Function.update s.rebuildLocks call.key none }.setCall t
      { call with stage := .releasing keyLock })
  | .releasing keyLock => some ((s.release keyLock).finish t)

def next (s : RebuildSystem) : RebuildEvent → Option RebuildSystem
  | .getOrLoad t key => if s.calls t ≠ none then none else some (s.setCall t { key := key })
  | .run t m outcome =>
    match s.calls t with
    | none => none
    | some call => s.advance t call m outcome
  | .expire redisKey =>
    some { s with cache := { s.cache with redis := Function.update s.cache.redis redisKey none } }

def Step (s : RebuildSystem) (e : RebuildEvent) (s' : RebuildSystem) : Prop := s.next e = some s'

end RebuildSystem

end JingjieAR
