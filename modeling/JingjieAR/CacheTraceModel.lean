import JingjieAR.TwoLevelCacheModel

/-! Calls of the cache one after another, on any keys, with what each level was given for a key
written down beside them. A level keeps the same text or entry for an absent key as for an empty
file, so the note tells what the value does not. -/
namespace JingjieAR

/-- What `put` or `markNonexistent` gave to a level. -/
inductive Stored
  | marker
  | entry (e : CachedFileEntry)
deriving DecidableEq

structure CacheTrace where
  cache : TwoLevelCache
  -- by key; nothing is noted of what another key or another process has left in Redis
  given1 : Bytes → Option Stored := fun _ => none
  -- by Redis key, with the key of the call
  given2 : Bytes → Option (Bytes × Stored) := fun _ => none

/-- Whether `getOrLoad` has run `loadFunc`, and what it returns unless an exception leaves it. -/
structure Rebuilt where
  loaded : Bool
  entry : Option CachedFileEntry
deriving DecidableEq

inductive CacheCall
  | put (key : Bytes) (entry : CachedFileEntry) (m : TwoLevelCache.Meets)
  | get (key : Bytes) (entry : CachedFileEntry) (m : TwoLevelCache.Meets)
  | markNonexistent (key : Bytes) (m : TwoLevelCache.Meets)
  -- what its two looks and its write meet
  | getOrLoad (key : Bytes) (look again : TwoLevelCache.Meets) (outcome : LoadOutcome)
      (write : TwoLevelCache.Meets)
  | expire (redisKey : Bytes)

namespace CacheTrace

open TwoLevelCache (Meets redisKey)

/-- What the first level has of the key. -/
def value (s : CacheTrace) (key : Bytes) : Option CachedFileEntry :=
  s.cache.l1Cache.valueAt key

/-- What the first level holds of what it was given for the key, and what the second one does. -/
def held1 (s : CacheTrace) (key : Bytes) : Option Stored :=
  if (s.value key).isSome then s.given1 key else none

def held2 (s : CacheTrace) (key : Bytes) : Option Stored :=
  if (s.cache.redis (redisKey key)).isSome then
    (s.given2 (redisKey key)).bind (fun g => if g.1 = key then some g.2 else none)
  else none

/-- A look that finds the first level without the key may fill it from the second one. -/
def get (s : CacheTrace) (key : Bytes) (entry : CachedFileEntry) (m : Meets) :
    Option (Except StdException (Bool × CachedFileEntry) × CacheTrace) :=
  (s.cache.get key entry m).map (fun (found, cache) => (found,
    { s with
      cache := cache
      given1 :=
        if (s.value key).isSome then s.given1 else Function.update s.given1 key (s.held2 key) }))

def note (s : CacheTrace) (key : Bytes) (stored : Stored) (m : Meets) (cache : TwoLevelCache) :
    CacheTrace where
  cache := cache
  given1 := Function.update s.given1 key (some stored)
  given2 :=
    if m.result = .unreached then s.given2
    else Function.update s.given2 (redisKey key) (some (key, stored))

def put (s : CacheTrace) (key : Bytes) (entry : CachedFileEntry) (m : Meets) :
    Option CacheTrace :=
  (s.cache.put key entry m).map (s.note key (.entry entry) m)

def markNonexistent (s : CacheTrace) (key : Bytes) (m : Meets) : Option CacheTrace :=
  (s.cache.markNonexistent key m).map (s.note key .marker m)

/-- What `getOrLoad` does with the lock of the key: it looks again, and loads. -/
def rebuild (s : CacheTrace) (key : Bytes) (entry : CachedFileEntry) (again : Meets)
    (outcome : LoadOutcome) (write : Meets) : Option (Rebuilt × CacheTrace) :=
  (s.get key entry again).bind fun (found, s) =>
    match found with
    | .error _ => some (⟨false, none⟩, s)
    | .ok (true, entry) => some (⟨false, some entry⟩, s)
    | .ok (false, _) =>
      match outcome with
      | .threw => some (⟨true, none⟩, s)
      | .returned ok entry =>
        (if ok then s.put key entry write else s.markNonexistent key write).map
          (fun s => (⟨true, some entry⟩, s))

/-- `getOrLoad` while nobody else is at the key, so that its locks are free. -/
def getOrLoad (s : CacheTrace) (key : Bytes) (look again : Meets) (outcome : LoadOutcome)
    (write : Meets) : Option (Rebuilt × CacheTrace) :=
  (s.get key {} look).bind fun (found, s) =>
    match found with
    | .error _ => some (⟨false, none⟩, s)
    | .ok (true, entry) => some (⟨false, some entry⟩, s)
    | .ok (false, entry) => s.rebuild key entry again outcome write

def next (s : CacheTrace) : CacheCall → Option CacheTrace
  | .put key entry m => s.put key entry m
  | .get key entry m => (s.get key entry m).map Prod.snd
  | .markNonexistent key m => s.markNonexistent key m
  | .getOrLoad key look again outcome write =>
    (s.getOrLoad key look again outcome write).map Prod.snd
  | .expire redisKey =>
    some { s with cache := { s.cache with redis := Function.update s.cache.redis redisKey none } }

def Step (s : CacheTrace) (call : CacheCall) (s' : CacheTrace) : Prop := s.next call = some s'

/-- A new cache before a Redis that may hold anything. -/
def start (hash : Bytes → ℕ) (capacity sliceNum : ℕ) (redis : Bytes → Option Bytes) : CacheTrace :=
  { cache := ⟨.new hash capacity sliceNum, redis⟩ }

/-- Some level holds a marker for the key. -/
def Marked (s : CacheTrace) (key : Bytes) : Prop :=
  s.held1 key = some .marker ∨ s.held2 key = some .marker

/-- An entry for the key is there: in the first level, or in the second one while the first one
has nothing. -/
def Present (s : CacheTrace) (key : Bytes) (e : CachedFileEntry) : Prop :=
  s.held1 key = some (.entry e) ∨ s.value key = none ∧ s.held2 key = some (.entry e)

/-- An entry that is there is found. -/
def Finds (s : CacheTrace) (key : Bytes) (entry : CachedFileEntry) (m : Meets) : Prop :=
  ∀ e, s.Present key e → ∃ s', s.get key entry m = some (.ok (true, e), s')

/-- What the cache is for: entries are found, and a marker keeps `loadFunc` from being run. -/
def Lawful (s : CacheTrace) : CacheCall → Prop
  | .get key entry m => s.Finds key entry m
  | .getOrLoad key look again outcome write => s.Finds key {} look ∧
      (s.Marked key → ∃ entry s', s.getOrLoad key look again outcome write =
        some (⟨false, entry⟩, s'))
  | _ => True

end CacheTrace

end JingjieAR
