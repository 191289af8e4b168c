import JingjieAR.SessionCodecModel
import JingjieAR.SessionStoreModel
import JingjieAR.TransitionRuns

/-! `SessionManager` over its storage, which is a table in memory or Redis. Each operation
of a storage is atomic; a refresh is two of them. -/
namespace JingjieAR

/-- What an operation of a storage meets: the clock, the order in which the table of values
is visited, and what comes back of the command. -/
structure StorageCall where
  now : Int64
  visit : Iteration (Bytes × Bytes) := .id _
  result : CommandResult := .replied

class SessionStorage (σ : Type) where
  save : σ → HttpSession → StorageCall → Bool × σ
  load : σ → Bytes → StorageCall → Option HttpSession × σ
  remove : σ → Bytes → StorageCall → Bool × σ

structure MemorySessionStorage where
  sessions : Bytes → Option HttpSession := fun _ => none

namespace MemorySessionStorage

def save (storage : MemorySessionStorage) (session : HttpSession) : Bool × MemorySessionStorage :=
  if session.id = [] then (false, storage)
  else (true, ⟨Function.update storage.sessions session.id (some session)⟩)

/-- A session that is found expired is erased. -/
def load (storage : MemorySessionStorage) (id : Bytes) (nowMs : Int64) :
    Option HttpSession × MemorySessionStorage :=
  match storage.sessions id with
  | none => (none, storage)
  | some session =>
    if session.expired nowMs then (none, ⟨Function.update storage.sessions id none⟩)
    else (some session, storage)

def remove (storage : MemorySessionStorage) (id : Bytes) : Bool × MemorySessionStorage :=
  ((storage.sessions id).isSome, ⟨Function.update storage.sessions id none⟩)

end MemorySessionStorage

instance : SessionStorage MemorySessionStorage where
  save storage session _ := storage.save session
  load storage id call := storage.load id call.now
  remove storage id _ := storage.remove id

/-- The keys `http_session:{id}`: a text, and the millisecond from which it is gone. -/
structure RedisSessionStorage where
  keys : Bytes → Option (Bytes × ℤ) := fun _ => none

namespace RedisSessionStorage

def get (storage : RedisSessionStorage) (id : Bytes) (nowMs : Int64) : Option Bytes :=
  (storage.keys id).bind fun (text, deadline) => if nowMs.toInt < deadline then some text else none

/-- The storage after `SETEX` of the text. -/
def setex (storage : RedisSessionStorage) (session : HttpSession) (text : Bytes)
    (nowMs : Int64) : RedisSessionStorage :=
  ⟨Function.update storage.keys session.id
    (some (text, nowMs.toInt+session.ttlSeconds.toInt*1000))⟩

def save (storage : RedisSessionStorage) (session : HttpSession) (call : StorageCall) :
    Bool × RedisSessionStorage :=
  if session.ttlSeconds ≤ 0 then (false, storage)
  else
    let value := encode session call.visit
    if value = [] then (false, storage)
    else
      match call.result with
      | .replied => (true, storage.setex session value call.now)
      -- carried out, and no reply comes back
      | .lost => (false, storage.setex session value call.now)
      -- no connection, or an error for a reply
      | .unreached => (false, storage)

/-- The text says when the session expires; it is not asked. -/
def load (storage : RedisSessionStorage) (id : Bytes) (call : StorageCall) :
    Option HttpSession × RedisSessionStorage :=
  match call.result with
  | .replied => ((storage.get id call.now).bind decode, storage)
  | .lost => (none, storage)
  | .unreached => (none, storage)

/-- `DEL`; any number of keys deleted is a success. -/
def remove (storage : RedisSessionStorage) (id : Bytes) (call : StorageCall) :
    Bool × RedisSessionStorage :=
  match call.result with
  | .replied => (true, ⟨Function.update storage.keys id none⟩)
  | .lost => (false, ⟨Function.update storage.keys id none⟩)
  | .unreached => (false, storage)

end RedisSessionStorage

instance : SessionStorage RedisSessionStorage where
  save := RedisSessionStorage.save
  load := RedisSessionStorage.load
  remove := RedisSessionStorage.remove

/-- The pointer `storage_`, which may be null. -/
instance {σ : Type} [SessionStorage σ] : SessionStorage (Option σ) where
  save
    | none, _, _ => (false, none)
    | some storage, session, call =>
      let done := SessionStorage.save storage session call
      (done.1, some done.2)
  load
    | none, _, _ => (none, none)
    | some storage, id, call =>
      let found := SessionStorage.load storage id call
      (found.1, some found.2)
  remove
    | none, _, _ => (false, none)
    | some storage, id, call =>
      let done := SessionStorage.remove storage id call
      (done.1, some done.2)

namespace SessionManager

variable {σ : Type} [SessionStorage σ]

/-- The id is what `secureId` gives, which is empty if there is no randomness. -/
def create (storage : σ) (ttlSeconds : Int64) (id : Bytes) (nowMs : Int64) (call : StorageCall) :
    HttpSession × σ :=
  if id = [] then ({}, storage)
  else
    let session : HttpSession :=
      { id := id, expiresAt := nowMs+ttlSeconds*1000, ttlSeconds := ttlSeconds }
    let done := SessionStorage.save storage session call
    (if done.1 then session else {}, done.2)

/-- The second half of `refresh`, with the session that the first half has loaded. -/
def refreshSave (storage : σ) (loaded : HttpSession) (nowMs : Int64) (call : StorageCall) :
    Option HttpSession × σ :=
  let refreshed := loaded.refresh nowMs
  let done := SessionStorage.save storage refreshed call
  (if done.1 then some refreshed else none, done.2)

def refresh (storage : σ) (id : Bytes) (loadCall : StorageCall) (nowMs : Int64)
    (saveCall : StorageCall) : Option HttpSession × σ :=
  match SessionStorage.load storage id loadCall with
  | (none, storage) => (none, storage)
  | (some loaded, storage) => refreshSave storage loaded nowMs saveCall

def validate (storage : σ) (token : Bytes) (call : StorageCall) : Bool × σ :=
  if token = [] then (false, storage)
  else
    let found := SessionStorage.load storage token call
    (found.1.isSome, found.2)

end SessionManager

end JingjieAR
