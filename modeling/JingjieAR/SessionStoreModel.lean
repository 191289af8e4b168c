import JingjieAR.HttpRequestModel
import Mathlib.Data.List.MinMax
import Mathlib.Logic.Function.Basic

/-! The session store: the table of sessions behind `SessionDAO`, the cache in front of it,
and `find` and `revoke` of `CachedSessionStore` as the stages between which other threads
run. Every statement and every cache command may fail, with or without having been
carried out. -/
namespace JingjieAR

structure Session where
  id : ℕ := 0
  sessionToken : Bytes := []
  userId : ℕ := 0
  sceneId : Bytes := []
  status : ℤ := 1
  createdAt : Bytes := []
  updatedAt : Bytes := []
deriving DecidableEq

/-- What a caller learns of a command: its answer, nothing although it was carried out,
or nothing because it was not. -/
inductive CommandResult
  | replied
  | lost
  | unreached
deriving DecidableEq

namespace SessionDAO

/-- `session_token = ?` by the column's collation. -/
def ofToken (collate : Bytes → Bytes) (token : Bytes) (s : Session) : Bool :=
  collate s.sessionToken = collate token

/-- `WHERE session_token = ? ORDER BY id DESC LIMIT 1` -/
def newest (collate : Bytes → Bytes) (rows : List Session) (token : Bytes) : Option Session :=
  (rows.filter (ofToken collate token)).argmax (fun s => s.id)

def findSessionByToken (collate : Bytes → Bytes) (rows : List Session) (token : Bytes) :
    CommandResult → Option Session
  | .replied => newest collate rows token
  | .lost => none
  | .unreached => none

/-- An `UPDATE` that changes the rows with `p` by `f`. -/
def update (rows : List Session) (p : Session → Bool) (f : Session → Session) :
    CommandResult → Bool × List Session
  | .replied => (true, rows.map (fun s => if p s then f s else s))
  | .lost => (false, rows.map (fun s => if p s then f s else s))
  | .unreached => (false, rows)

/-- `SET scene_id = ?, status = 1 WHERE id = ?`; the table keeps `updated_at` itself. -/
def updateSessionScene (rows : List Session) (sessionId : ℕ) (sceneId now : Bytes) :
    CommandResult → Bool × List Session :=
  update rows (fun s => s.id = sessionId)
    (fun s => { s with sceneId := sceneId, status := 1, updatedAt := now })

/-- `SET scene_id = '', status = 0 WHERE id = ?` -/
def endSession (rows : List Session) (sessionId : ℕ) (now : Bytes) :
    CommandResult → Bool × List Session :=
  update rows (fun s => s.id = sessionId)
    (fun s => { s with sceneId := [], status := 0, updatedAt := now })

/-- `SET scene_id = '', status = 0 WHERE session_token = ? AND status = 1` -/
def revokeSession (collate : Bytes → Bytes) (rows : List Session) (token now : Bytes) :
    CommandResult → Bool × List Session :=
  update rows (fun s => ofToken collate token s && s.status = 1)
    (fun s => { s with sceneId := [], status := 0, updatedAt := now })

end SessionDAO

/-- The cached sessions by token. -/
abbrev SessionCache := Bytes → Option Session

namespace SessionCache

def get (cache : SessionCache) (token : Bytes) : CommandResult → Option Session
  | .replied => cache token
  | .lost => none
  | .unreached => none

/-- `SETEX` -/
def put (cache : SessionCache) (session : Session) : CommandResult → Bool × SessionCache
  | .replied => (true, Function.update cache session.sessionToken (some session))
  | .lost => (false, Function.update cache session.sessionToken (some session))
  | .unreached => (false, cache)

/-- `SET ... NX` answers that nothing was set when the key exists. -/
def putIfAbsent (cache : SessionCache) (session : Session) (result : CommandResult) :
    Bool × SessionCache :=
  match cache session.sessionToken with
  | some _ => (false, cache)
  | none => cache.put session result

/-- `DEL` -/
def remove (cache : SessionCache) (token : Bytes) : CommandResult → Bool × SessionCache
  | .replied => (true, Function.update cache token none)
  | .lost => (false, Function.update cache token none)
  | .unreached => (false, cache)

end SessionCache

/-- The table and the cache. -/
@[ext] structure Stores where
  rows : List Session
  cache : SessionCache

/-- Which of the pointers of `CachedSessionStore` are set; `cached` is `cache_ && workers_`. -/
structure StoreConfig where
  durable : Bool := true
  cached : Bool := true
  -- what the table compares of a token; the column's default collation ignores case
  collate : Bytes → Bytes := lowerCase

namespace CachedSessionStore

/-- Where a `find` stands. -/
inductive FindStage
  | idle
  -- the first task waits for a worker
  | queued
  -- `durable_->find` was called, with the caller's own callback if there is no cache
  | readingDurable (direct : Bool)
  -- the row is there, the second task not yet submitted
  | fetched (copy : Session)
  -- the second task waits for a worker
  | storing (copy : Session)
  -- `putIfAbsent` has failed, the winner is still to be read
  | contested
  -- the callback is about to run
  | answering (session : Option Session)
  | done (session : Option Session)
deriving DecidableEq

inductive FindAction
  | call (accepted : Bool)
  | readCache (result : CommandResult)
  | readDurable (result : CommandResult)
  | resubmit (accepted : Bool)
  | writeCache (result : CommandResult)
  | readWinner (result : CommandResult)
  | reply
deriving DecidableEq

/-- `find`, one cut wherever another thread can come in between. -/
def findStage (cfg : StoreConfig) (token : Bytes) (st : Stores) :
    FindStage → FindAction → Option (FindStage × Stores)
  | .idle, .call accepted =>
    if !cfg.durable || token == [] then some (.answering none, st)
    else if !cfg.cached then some (.readingDurable true, st)
    else if accepted then some (.queued, st)
    else some (.answering none, st)
  | .queued, .readCache result =>
    match st.cache.get token result with
    -- A hit is reported whatever its status.
    | some cached => some (.answering (some cached), st)
    | none => some (.readingDurable false, st)
  | .readingDurable direct, .readDurable result =>
    match SessionDAO.findSessionByToken cfg.collate st.rows token result with
    | none => some (.answering none, st)
    | some session =>
      if direct then some (.answering (some session), st) else some (.fetched session, st)
  | .fetched copy, .resubmit accepted =>
    if accepted then some (.storing copy, st) else some (.answering none, st)
  | .storing copy, .writeCache result =>
    -- An ended session overwrites the entry, a living one only fills a gap.
    if copy.status = 0 then
      let done := st.cache.put copy result
      some (.answering (if done.1 then some copy else none), { st with cache := done.2 })
    else
      let done := st.cache.putIfAbsent copy result
      if done.1 then some (.answering (some copy), { st with cache := done.2 })
      -- A lost answer looks like a taken key, although the entry may have been set.
      else some (.contested, { st with cache := done.2 })
  | .contested, .readWinner result => some (.answering (st.cache.get token result), st)
  | .answering session, .reply => some (.done session, st)
  | _, _ => none

/-- Where a `revoke` stands. -/
inductive RevokeStage
  | idle
  -- `durable_->revoke` was called
  | updating
  -- the row is updated, the task not yet submitted
  | updated
  -- the task that writes the tombstone waits for a worker
  | burying
  -- the callback is about to run
  | answering (ok : Bool)
  | done (ok : Bool)
deriving DecidableEq

inductive RevokeAction
  | call
  | updateDurable (now : Bytes) (result : CommandResult)
  | submit (accepted : Bool)
  | writeTombstone (result : CommandResult)
  | reply
deriving DecidableEq

def tombstone (token : Bytes) : Session :=
  { id := 0, sessionToken := token, userId := 0, sceneId := [], status := 0,
    createdAt := ascii "revoked", updatedAt := ascii "revoked" }

/-- `revoke`, cut in the same way. -/
def revokeStage (cfg : StoreConfig) (token : Bytes) (st : Stores) :
    RevokeStage → RevokeAction → Option (RevokeStage × Stores)
  | .idle, .call =>
    if !cfg.durable || token == [] then some (.answering false, st) else some (.updating, st)
  | .updating, .updateDurable now result =>
    let revoked := SessionDAO.revokeSession cfg.collate st.rows token now result
    let st' := { st with rows := revoked.2 }
    if !revoked.1 then some (.answering false, st')
    -- Without a cache the durable answer is the whole answer.
    else if !cfg.cached then some (.answering true, st')
    else some (.updated, st')
  | .updated, .submit accepted =>
    if accepted then some (.burying, st) else some (.answering false, st)
  | .burying, .writeTombstone result =>
    let done := st.cache.put (tombstone token) result
    -- The revoke succeeds only with its tombstone in the cache.
    some (.answering done.1, { st with cache := done.2 })
  | .answering ok, .reply => some (.done ok, st)
  | _, _ => none

end CachedSessionStore

end JingjieAR
