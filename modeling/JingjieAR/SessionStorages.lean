import JingjieAR.SessionManagerModel
import Mathlib.Tactic.Common

/-! `SessionManager` over one storage and over the other. In memory a session is there until
its own `expiresAt`; in Redis it is there until its `ttl` has passed since the last save,
which is later, and a load does not look at `expiresAt`. The storages agree as long as no
load falls in between. -/
namespace JingjieAR

open Runs (Run Guarded)
open RedisSessionStorage (EncodableSession decode)

/-- What a caller does to a session that it has. -/
inductive SessionEdit
  | setValue (key value : Bytes)
  | remove (key : Bytes)
  | clear
deriving DecidableEq

namespace HttpSession

def edit (session : HttpSession) : SessionEdit → HttpSession
  | .setValue key value => session.setValue key value
  | .remove key => session.remove key
  | .clear => session.clear

def edits (session : HttpSession) (es : List SessionEdit) : HttpSession := es.foldl edit session

/-- The edits change nothing but the values. -/
theorem edits_eq (session : HttpSession) (es : List SessionEdit) :
    session.edits es = { session with values := (session.edits es).values } := by
  induction es generalizing session with
  | nil => rfl
  | cons e es ih =>
    refine (ih (session.edit e)).trans ?_
    cases e <;> rfl

end HttpSession

/-- The times at which the steps of a call are made. -/
structure Readings where
  first : Int64
  second : Int64
  third : Int64
  first_le : first ≤ second := by decide
  second_le : second ≤ third := by decide

inductive ManagerCall
  -- `secureId` gives the id
  | create (id : Bytes)
  -- save what the `k`-th call to give a session has given, with edits
  | save (k : ℕ) (edits : List SessionEdit)
  | load (id : Bytes)
  | validate (token : Bytes)
  | refresh (id : Bytes)
  | destroy (id : Bytes)
deriving DecidableEq

structure ManagerEvent where
  call : ManagerCall
  clock : Readings
  visit : Iteration (Bytes × Bytes) := .id _

/-- An operation of the call at this time. No command fails. -/
def ManagerEvent.storageCall (e : ManagerEvent) (now : Int64) : StorageCall :=
  ⟨now, e.visit, .replied⟩

/-- What a call returns; what `destroy` returns is left out. -/
inductive ManagerAnswer
  | created (session : HttpSession)
  | saved (ok : Bool)
  | loaded (session : Option HttpSession)
  | validated (ok : Bool)
  | refreshed (session : Option HttpSession)
deriving DecidableEq

/-- A manager, the time, the sessions it has given, and its answers. -/
structure ManagerState (σ : Type) where
  storage : σ
  ttlSeconds : Int64
  now : Int64
  obtained : List HttpSession := []
  answers : List ManagerAnswer := []

namespace ManagerState

section

variable {σ : Type} [SessionStorage σ]

/-- Carry the call out; `none` where it cannot be made. -/
def perform (s : ManagerState σ) (e : ManagerEvent) : Option (ManagerState σ) :=
  match e.call with
  | .create id =>
    if id ≠ [] ∧ id.length ≠ 64 then none
    else
      let done := SessionManager.create s.storage s.ttlSeconds id e.clock.first
        (e.storageCall e.clock.second)
      some { s with
        storage := done.2
        obtained := s.obtained++[done.1]
        answers := s.answers++[.created done.1] }
  | .save k edits =>
    match s.obtained[k]? with
    | none => none
    | some session =>
      let done := SessionStorage.save s.storage (session.edits edits)
        (e.storageCall e.clock.first)
      some { s with storage := done.2, answers := s.answers++[.saved done.1] }
  | .load id =>
    let found := SessionStorage.load s.storage id (e.storageCall e.clock.first)
    some { s with
      storage := found.2
      obtained := s.obtained++found.1.toList
      answers := s.answers++[.loaded found.1] }
  | .validate token =>
    let done := SessionManager.validate s.storage token (e.storageCall e.clock.first)
    some { s with storage := done.2, answers := s.answers++[.validated done.1] }
  | .refresh id =>
    let done := SessionManager.refresh s.storage id (e.storageCall e.clock.first)
      e.clock.second (e.storageCall e.clock.third)
    some { s with
      storage := done.2
      obtained := s.obtained++done.1.toList
      answers := s.answers++[.refreshed done.1] }
  | .destroy id =>
    some { s with
      storage := (SessionStorage.remove s.storage id (e.storageCall e.clock.first)).2 }

/-- The clock does not go back. -/
def next (s : ManagerState σ) (e : ManagerEvent) : Option (ManagerState σ) :=
  if e.clock.first < s.now then none
  else (s.perform e).map (fun s' => { s' with now := e.clock.third })

def Step (s : ManagerState σ) (e : ManagerEvent) (s' : ManagerState σ) : Prop := s.next e = some s'

end

/-- The call finds no session in Redis that has expired by its own account, and saves none
that cannot be written. -/
def Agreeing (s : ManagerState RedisSessionStorage) (e : ManagerEvent) : Prop :=
  match e.call with
  | .create _ => True
  | .save k edits => ∀ session ∈ s.obtained[k]?, EncodableSession (session.edits edits)
  | .load id => ∀ session ∈ (s.storage.get id e.clock.first).bind decode,
      session.expired e.clock.first = false
  | .validate token => ∀ session ∈ (s.storage.get token e.clock.first).bind decode,
      session.expired e.clock.first = false
  | .refresh id => ∀ session ∈ (s.storage.get id e.clock.first).bind decode,
      session.expired e.clock.first = false
  | .destroy _ => True

instance (s : ManagerState RedisSessionStorage) (e : ManagerEvent) : Decidable (s.Agreeing e) := by
  unfold Agreeing
  split <;> infer_instance

/-- From `now` on, memory finds what Redis finds, less what has expired. -/
def Matches (now : Int64) (st : MemorySessionStorage) (rs : RedisSessionStorage) : Prop :=
  ∀ id t, now ≤ t → (st.sessions id).filter (fun session => !session.expired t) =
    ((rs.get id t).bind decode).filter (fun session => !session.expired t)

/-- A session of this manager, which will have expired before Redis drops it. -/
structure Fresh (ttlSeconds now : Int64) (session : HttpSession) : Prop where
  id : session.id ≠ []
  ttl : session.ttlSeconds = ttlSeconds
  expires : session.expiresAt.toInt ≤ now.toInt+ttlSeconds.toInt*1000

/-- The default session stands for a `create` that has failed. -/
def Obtained (ttlSeconds now : Int64) (session : HttpSession) : Prop :=
  (session.id = [] ∧ session.ttlSeconds = 0) ∨ Fresh ttlSeconds now session

def Stored (ttlSeconds now : Int64) (rs : RedisSessionStorage) : Prop :=
  ∀ id text deadline, rs.keys id = some (text, deadline) →
    ∃ session, decode text = some session ∧ EncodableSession session ∧ Fresh ttlSeconds now session

variable {now t ttlSeconds : Int64} {st : MemorySessionStorage} {rs : RedisSessionStorage}
  {id : Bytes} {session : HttpSession}

theorem Fresh.mono (h : Fresh ttlSeconds now session) (hle : now ≤ t) :
    Fresh ttlSeconds t session := by
  have hint := Int64.le_iff_toInt_le.mp hle
  have hexpires := h.expires
  exact ⟨h.id, h.ttl, by omega⟩

theorem Obtained.mono (h : Obtained ttlSeconds now session) (hle : now ≤ t) :
    Obtained ttlSeconds t session :=
  h.imp_right (fun hfresh => hfresh.mono hle)

theorem Obtained.withValues (h : Obtained ttlSeconds now session)
    (values : OrderedMap Bytes Bytes) : Obtained ttlSeconds now { session with values := values } :=
  h.imp_right (fun hfresh => ⟨hfresh.id, hfresh.ttl, hfresh.expires⟩)

theorem Stored.mono (h : Stored ttlSeconds now rs) (hle : now ≤ t) : Stored ttlSeconds t rs := by
  intro id text deadline hkey
  obtain ⟨session, hdecode, hencodable, hfresh⟩ := h id text deadline hkey
  exact ⟨session, hdecode, hencodable, hfresh.mono hle⟩

/-- What is found in Redis is a session of this manager. -/
theorem Stored.found (h : Stored ttlSeconds now rs)
    (hfound : (rs.get id t).bind decode = some session) :
    EncodableSession session ∧ Fresh ttlSeconds now session := by
  obtain ⟨text, hget, hdecode⟩ := Option.bind_eq_some_iff.mp hfound
  obtain ⟨⟨text', deadline⟩, hkey, htext⟩ := Option.bind_eq_some_iff.mp hget
  obtain ⟨_, rfl⟩ : t.toInt < deadline ∧ text' = text := by simpa using htext
  obtain ⟨session', hdecode', hencodable, hfresh⟩ := h id text' deadline hkey
  obtain rfl : session' = session := Option.some.inj (hdecode'.symm.trans hdecode)
  exact ⟨hencodable, hfresh⟩

/-- The new `expiresAt`, also where the sum does not fit and wraps around. -/
theorem toInt_expiresAt_le (nowMs : Int64) (h : 0 < ttlSeconds) :
    (nowMs+ttlSeconds*1000).toInt ≤ nowMs.toInt+ttlSeconds.toInt*1000 := by
  have hpos : 0 < ttlSeconds.toInt := Int64.lt_iff_toInt_lt.mp h
  have hnow := Int64.le_toInt nowMs
  have hthousand : (1000 : Int64).toInt = 1000 := rfl
  have hsum : -2^63 ≤ nowMs.toInt+ttlSeconds.toInt*1000 := by omega
  -- a sum that wraps around comes out smaller
  rw [Int64.toInt_add, Int64.toInt_mul, hthousand, Int.add_bmod_bmod, Int.bmod_def]
  split_ifs
  · omega
  · omega

theorem expired_mono {t' : Int64} (hle : t ≤ t') (h : session.expired t = true) :
    session.expired t' = true := by
  simp only [HttpSession.expired, decide_eq_true_eq] at h ⊢
  exact Int64.le_trans h hle

theorem Matches.mono (h : Matches now st rs) (hle : now ≤ t) : Matches t st rs :=
  fun id t' ht' => h id t' (Int64.le_trans hle ht')

theorem get_update_of_ne {id' : Bytes} {v : Option (Bytes × ℤ)} (h : id' ≠ id) :
    RedisSessionStorage.get ⟨Function.update rs.keys id v⟩ id' t = rs.get id' t := by
  simp only [RedisSessionStorage.get, Function.update_of_ne h]

theorem Matches.remove (h : Matches now st rs) :
    Matches now (st.remove id).2 ⟨Function.update rs.keys id none⟩ := by
  intro id' t ht
  by_cases hid : id' = id
  · subst hid
    simp [MemorySessionStorage.remove, RedisSessionStorage.get]
  · rw [get_update_of_ne hid, ← h id' t ht]
    simp [MemorySessionStorage.remove, hid]

/-- A load from memory drops what has expired, which Redis may keep. -/
theorem Matches.load (h : Matches now st rs) (hle : now ≤ t) : Matches t (st.load id t).2 rs := by
  intro id' t' ht'
  have hlater := h id' t' (Int64.le_trans hle ht')
  unfold MemorySessionStorage.load
  cases hfind : st.sessions id with
  | none => exact hlater
  | some session =>
    dsimp only
    -- expired now, and so at any later time
    split_ifs with hexpired
    · by_cases hid : id' = id
      · subst hid
        rw [hfind] at hlater
        rw [← hlater]
        simp [Option.filter_some, expired_mono ht' hexpired]
      · simpa [hid] using hlater
    · exact hlater

theorem memory_load_fst :
    (st.load id t).1 = (st.sessions id).filter (fun session => !session.expired t) := by
  unfold MemorySessionStorage.load
  cases st.sessions id with
  | none => rfl
  | some session =>
    by_cases hexpired : session.expired t = true
    · simp [Option.filter_some, hexpired]
    · simp [Option.filter_some, hexpired]

theorem Matches.found (h : Matches now st rs) (hle : now ≤ t)
    (hlive : ∀ session ∈ (rs.get id t).bind decode, session.expired t = false) :
    (st.load id t).1 = (rs.get id t).bind decode := by
  rw [memory_load_fst, h id t hle]
  cases hfound : (rs.get id t).bind decode with
  | none => rfl
  | some session => simp [Option.filter_some, hlive session hfound]

/-- A session that both storages take. -/
theorem Matches.save (h : Matches t st rs) (hstored : Stored ttlSeconds t rs)
    (hpos : 0 < ttlSeconds) (hfresh : Fresh ttlSeconds t session)
    (hencodable : EncodableSession session) (visit : Iteration (Bytes × Bytes)) :
    ∃ st' rs', st.save session = (true, st') ∧ rs.save session ⟨t, visit, .replied⟩ = (true, rs') ∧
      Matches t st' rs' ∧ Stored ttlSeconds t rs' := by
  have httl : ¬session.ttlSeconds ≤ 0 := by
    rw [hfresh.ttl]
    exact Int64.not_le.mpr hpos
  have hdecode := RedisSessionStorage.decode_encode hencodable visit
  refine ⟨⟨Function.update st.sessions session.id (some session)⟩,
    rs.setex session (RedisSessionStorage.encode session visit) t, if_neg hfresh.id, ?_, ?_, ?_⟩
  · simp only [RedisSessionStorage.save, if_neg httl,
      if_neg (RedisSessionStorage.encode_ne_nil hencodable visit)]
  · intro id t' ht'
    by_cases hid : id = session.id
    · subst hid
      have hexpires := hfresh.expires
      by_cases hdead : t'.toInt < t.toInt+session.ttlSeconds.toInt*1000
      · simp [RedisSessionStorage.get, RedisSessionStorage.setex, hdead, hdecode]
      · -- Redis has dropped it, and it has expired.
        have hexpired : session.expired t' = true := by
          simp only [HttpSession.expired, decide_eq_true_eq, Int64.le_iff_toInt_le]
          rw [hfresh.ttl] at hdead
          omega
        simp [RedisSessionStorage.get, RedisSessionStorage.setex, hdead, Option.filter_some,
          hexpired]
    · rw [RedisSessionStorage.setex, get_update_of_ne hid, ← h id t' ht']
      simp [hid]
  · intro id text deadline hkey
    by_cases hid : id = session.id
    · subst hid
      obtain ⟨rfl, _⟩ : RedisSessionStorage.encode session visit = text ∧ _ = deadline := by
        simpa [RedisSessionStorage.setex] using hkey
      exact ⟨session, hdecode, hencodable, hfresh⟩
    · exact hstored id text deadline (by simpa [RedisSessionStorage.setex, hid] using hkey)

/-- Two storages after the same operations. -/
structure Twins (ttlSeconds now : Int64) (st : MemorySessionStorage) (rs : RedisSessionStorage) :
    Prop where
  matching : Matches now st rs
  stored : Stored ttlSeconds now rs

theorem Twins.mono (h : Twins ttlSeconds now st rs) (hle : now ≤ t) : Twins ttlSeconds t st rs :=
  ⟨h.matching.mono hle, h.stored.mono hle⟩

section Calls

variable {e : ManagerEvent} {σ : Type} [SessionStorage σ] {storage storage' : σ}
  {call loadCall : StorageCall}

theorem create_of_save (hid : id ≠ [])
    (h : SessionStorage.save storage ⟨id, .empty, t+ttlSeconds*1000, ttlSeconds⟩ call =
      (true, storage')) :
    SessionManager.create storage ttlSeconds id t call =
      (⟨id, .empty, t+ttlSeconds*1000, ttlSeconds⟩, storage') := by
  simp [SessionManager.create, hid, h]

theorem refresh_of_save {storage₁ : σ}
    (hload : SessionStorage.load storage id loadCall = (some session, storage₁))
    (h : SessionStorage.save storage₁ (session.refresh t) call = (true, storage')) :
    SessionManager.refresh storage id loadCall t call = (some (session.refresh t), storage') := by
  simp [SessionManager.refresh, hload, SessionManager.refreshSave, h]

theorem twins_create (h : Twins ttlSeconds now st rs) (hpos : 0 < ttlSeconds)
    (hid : id = [] ∨ id.length = 64) (hle : now ≤ e.clock.first) :
    ∃ session st' rs',
      SessionManager.create st ttlSeconds id e.clock.first (e.storageCall e.clock.second) =
        (session, st') ∧
      SessionManager.create rs ttlSeconds id e.clock.first (e.storageCall e.clock.second) =
        (session, rs') ∧
      Obtained ttlSeconds e.clock.second session ∧ Twins ttlSeconds e.clock.second st' rs' := by
  have hle₂ : now ≤ e.clock.second := Int64.le_trans hle e.clock.first_le
  by_cases hempty : id = []
  · refine ⟨{}, st, rs, if_pos hempty, if_pos hempty, .inl ⟨rfl, rfl⟩, h.mono hle₂⟩
  · let session : HttpSession :=
      { id := id, expiresAt := e.clock.first+ttlSeconds*1000, ttlSeconds := ttlSeconds }
    have hfresh : Fresh ttlSeconds e.clock.second session := by
      have hexpires := toInt_expiresAt_le e.clock.first hpos
      have hclock := Int64.le_iff_toInt_le.mp e.clock.first_le
      exact ⟨hempty, rfl, by dsimp only [session]; omega⟩
    have hencodable : EncodableSession session := by
      refine ⟨?_, Nat.zero_le _, by simp [session]⟩
      show id.length ≤ UINT32_MAX
      rw [hid.resolve_left hempty]
      decide
    obtain ⟨st', rs', hst, hrs, hmatches, hstored⟩ :=
      (h.matching.mono hle₂).save (h.stored.mono hle₂) hpos hfresh hencodable e.visit
    exact ⟨session, st', rs', create_of_save hempty hst, create_of_save hempty hrs, .inr hfresh,
      hmatches, hstored⟩

theorem twins_save (h : Twins ttlSeconds now st rs) (hpos : 0 < ttlSeconds) (hle : now ≤ t)
    (hobtained : Obtained ttlSeconds now session) (hencodable : EncodableSession session) :
    ∃ ok st' rs', SessionStorage.save st session (e.storageCall t) = (ok, st') ∧
      SessionStorage.save rs session (e.storageCall t) = (ok, rs') ∧
        Twins ttlSeconds t st' rs' := by
  rcases hobtained with ⟨hid, httl⟩ | hfresh
  · -- The default session is refused, by the one for its id and by the other for its `ttl`.
    refine ⟨false, st, rs, if_pos hid, ?_, h.mono hle⟩
    have hnot : session.ttlSeconds ≤ 0 := by
      rw [httl]
      decide
    exact if_pos hnot
  · obtain ⟨st', rs', hst, hrs, hmatches, hstored⟩ := (h.matching.mono hle).save
      (h.stored.mono hle) hpos (hfresh.mono hle) hencodable e.visit
    exact ⟨true, st', rs', hst, hrs, hmatches, hstored⟩

theorem twins_load (h : Twins ttlSeconds now st rs) (hle : now ≤ t)
    (hlive : ∀ session ∈ (rs.get id t).bind decode, session.expired t = false) :
    ∃ found st', SessionStorage.load st id (e.storageCall t) = (found, st') ∧
      SessionStorage.load rs id (e.storageCall t) = (found, rs) ∧
      (∀ session ∈ found, EncodableSession session ∧ Fresh ttlSeconds now session) ∧
      Twins ttlSeconds t st' rs := by
  refine ⟨(rs.get id t).bind decode, (st.load id t).2, ?_, rfl, ?_, ?_⟩
  · exact Prod.ext (h.matching.found hle hlive) rfl
  · intro session hfound
    exact h.stored.found hfound
  · exact ⟨h.matching.load hle, h.stored.mono hle⟩

theorem twins_validate (h : Twins ttlSeconds now st rs) (hle : now ≤ t)
    (hlive : ∀ session ∈ (rs.get id t).bind decode, session.expired t = false) :
    ∃ ok st', SessionManager.validate st id (e.storageCall t) = (ok, st') ∧
      SessionManager.validate rs id (e.storageCall t) = (ok, rs) ∧ Twins ttlSeconds t st' rs := by
  by_cases hempty : id = []
  · exact ⟨false, st, if_pos hempty, if_pos hempty, h.mono hle⟩
  · obtain ⟨found, st', hst, hrs, -, htwins⟩ := twins_load (e := e) h hle hlive
    refine ⟨found.isSome, st', ?_, ?_, htwins⟩
    · simp only [SessionManager.validate, if_neg hempty, hst]
    · simp only [SessionManager.validate, if_neg hempty, hrs]

theorem twins_refresh (h : Twins ttlSeconds now st rs) (hpos : 0 < ttlSeconds)
    (hle : now ≤ e.clock.first)
    (hlive : ∀ session ∈ (rs.get id e.clock.first).bind decode,
      session.expired e.clock.first = false) :
    ∃ refreshed st' rs',
      SessionManager.refresh st id (e.storageCall e.clock.first) e.clock.second
        (e.storageCall e.clock.third) = (refreshed, st') ∧
      SessionManager.refresh rs id (e.storageCall e.clock.first) e.clock.second
        (e.storageCall e.clock.third) = (refreshed, rs') ∧
      (∀ session ∈ refreshed, Fresh ttlSeconds e.clock.third session) ∧
      Twins ttlSeconds e.clock.third st' rs' := by
  have hle₁₃ : e.clock.first ≤ e.clock.third := Int64.le_trans e.clock.first_le e.clock.second_le
  obtain ⟨found, st₁, hst, hrs, hfound, htwins⟩ := twins_load (e := e) h hle hlive
  have htwins₃ := htwins.mono hle₁₃
  cases found with
  | none =>
    refine ⟨none, st₁, rs, ?_, ?_, by simp, htwins₃⟩
    · rw [SessionManager.refresh, hst]
    · rw [SessionManager.refresh, hrs]
  | some loaded =>
    obtain ⟨hencodable, hfresh⟩ := hfound loaded rfl
    have hnew : Fresh ttlSeconds e.clock.third (loaded.refresh e.clock.second) := by
      have hexpires := toInt_expiresAt_le e.clock.second hpos
      have hclock := Int64.le_iff_toInt_le.mp e.clock.second_le
      refine ⟨hfresh.id, hfresh.ttl, ?_⟩
      show (e.clock.second+loaded.ttlSeconds*1000).toInt ≤ _
      rw [hfresh.ttl]
      omega
    obtain ⟨st', rs', hst', hrs', hmatches, hstored⟩ := htwins₃.matching.save htwins₃.stored hpos
      hnew ⟨hencodable.id, hencodable.count, hencodable.values⟩ e.visit
    refine ⟨some (loaded.refresh e.clock.second), st', rs', refresh_of_save hst hst',
      refresh_of_save hrs hrs', ?_, ⟨hmatches, hstored⟩⟩
    intro session hmem
    obtain rfl := Option.some.inj hmem
    exact hnew

end Calls

/-- The same manager over another storage. -/
def withStorage {σ τ : Type} (s : ManagerState σ) (storage : τ) : ManagerState τ :=
  ⟨storage, s.ttlSeconds, s.now, s.obtained, s.answers⟩

/-- The manager over memory is where the one over Redis is. -/
structure Related (m : ManagerState MemorySessionStorage) (r : ManagerState RedisSessionStorage) :
    Prop where
  same : m = r.withStorage m.storage
  positive : 0 < r.ttlSeconds
  twins : Twins r.ttlSeconds r.now m.storage r.storage
  obtained : ∀ session ∈ r.obtained, Obtained r.ttlSeconds r.now session

section Steps

variable {m : ManagerState MemorySessionStorage} {r r' : ManagerState RedisSessionStorage}
  {e : ManagerEvent}

theorem related_start (hpos : 0 < ttlSeconds) (now : Int64) :
    Related ⟨{}, ttlSeconds, now, [], []⟩ ⟨{}, ttlSeconds, now, [], []⟩ := by
  refine ⟨rfl, hpos, ⟨?_, ?_⟩, by simp⟩
  · intro id t _
    rfl
  · intro id text deadline hkey
    simp at hkey

theorem Related.obtained_append (h : Related m r) (hle : r.now ≤ t) {sessions : List HttpSession}
    (hnew : ∀ session ∈ sessions, Obtained r.ttlSeconds t session) :
    ∀ session ∈ r.obtained++sessions, Obtained r.ttlSeconds t session := by
  intro session hmem
  rcases List.mem_append.mp hmem with hmem | hmem
  · exact (h.obtained session hmem).mono hle
  · exact hnew session hmem

/-- Both managers carry the call out, and its answers are the same. -/
theorem Related.perform (h : Related m r) (hle : r.now ≤ e.clock.first) (hguard : r.Agreeing e)
    (hr : r.perform e = some r') :
    ∃ m', m.perform e = some m' ∧
      Related { m' with now := e.clock.third } { r' with now := e.clock.third } := by
  have hle₁₃ : e.clock.first ≤ e.clock.third := Int64.le_trans e.clock.first_le e.clock.second_le
  have hle₃ : r.now ≤ e.clock.third := Int64.le_trans hle hle₁₃
  obtain ⟨st, rfl⟩ : ∃ st, m = r.withStorage st := ⟨m.storage, h.same⟩
  have htwins : Twins r.ttlSeconds r.now st r.storage := h.twins
  have hold : ∀ session ∈ r.obtained, Obtained r.ttlSeconds e.clock.third session :=
    fun session hmem => (h.obtained session hmem).mono hle₃
  unfold ManagerState.perform at hr ⊢
  unfold Agreeing at hguard
  cases hcall : e.call with
  | create id =>
    simp only [hcall, Option.ite_none_left_eq_some, Option.some.injEq] at hr
    obtain ⟨hid, rfl⟩ := hr
    -- the length of an id decides that it can be encoded
    have hid' : id = [] ∨ id.length = 64 := by
      by_contra hnot
      exact hid ⟨fun h => hnot (.inl h), fun h => hnot (.inr h)⟩
    obtain ⟨session, st', rs', hst, hrs, hobtained, htwins'⟩ :=
      twins_create htwins h.positive hid' hle
    simp only [if_neg hid, withStorage, hst, hrs]
    refine ⟨_, rfl, rfl, h.positive, htwins'.mono e.clock.second_le, h.obtained_append hle₃ ?_⟩
    intro session' hmem
    obtain rfl := List.mem_singleton.mp hmem
    exact hobtained.mono e.clock.second_le
  | save k edits =>
    simp only [hcall, withStorage] at hr hguard ⊢
    cases hget : r.obtained[k]? with
    | none => simp [hget] at hr
    | some session =>
      simp only [hget, Option.some.injEq] at hr ⊢
      subst hr
      -- edits keep the id, the `ttl` and the expiry
      have hobtained : Obtained r.ttlSeconds r.now (session.edits edits) := by
        rw [HttpSession.edits_eq]
        exact (h.obtained session (List.mem_of_getElem? hget)).withValues _
      obtain ⟨ok, st', rs', hst, hrs, htwins'⟩ := twins_save (e := e) htwins h.positive hle
        hobtained (hguard session hget)
      simp only [hst, hrs]
      exact ⟨_, rfl, rfl, h.positive, htwins'.mono hle₁₃, hold⟩
  | load id =>
    simp only [hcall, withStorage, Option.some.injEq] at hr hguard ⊢
    subst hr
    obtain ⟨found, st', hst, hrs, hfresh, htwins'⟩ := twins_load (e := e) htwins hle hguard
    simp only [hst, hrs]
    refine ⟨_, rfl, rfl, h.positive, htwins'.mono hle₁₃, h.obtained_append hle₃ ?_⟩
    intro session hmem
    exact .inr ((hfresh session (Option.mem_toList.mp hmem)).2.mono hle₃)
  | validate token =>
    simp only [hcall, withStorage, Option.some.injEq] at hr hguard ⊢
    subst hr
    obtain ⟨ok, st', hst, hrs, htwins'⟩ := twins_validate (e := e) htwins hle hguard
    simp only [hst, hrs]
    exact ⟨_, rfl, rfl, h.positive, htwins'.mono hle₁₃, hold⟩
  | refresh id =>
    simp only [hcall, withStorage, Option.some.injEq] at hr hguard ⊢
    subst hr
    obtain ⟨refreshed, st', rs', hst, hrs, hfresh, htwins'⟩ :=
      twins_refresh htwins h.positive hle hguard
    simp only [hst, hrs]
    refine ⟨_, rfl, rfl, h.positive, htwins', h.obtained_append hle₃ ?_⟩
    intro session hmem
    exact .inr (hfresh session (Option.mem_toList.mp hmem))
  | destroy id =>
    simp only [hcall, withStorage, Option.some.injEq] at hr ⊢
    subst hr
    -- `destroy` takes the id out of both, whatever they had
    refine ⟨_, rfl, rfl, h.positive, ⟨?_, ?_⟩, hold⟩
    · exact htwins.matching.remove.mono hle₃
    · intro id' text deadline hkey
      by_cases hid : id' = id
      · simp [SessionStorage.remove, RedisSessionStorage.remove, ManagerEvent.storageCall, hid]
          at hkey
      · refine htwins.stored.mono hle₃ id' text deadline ?_
        simpa [SessionStorage.remove, RedisSessionStorage.remove, ManagerEvent.storageCall, hid]
          using hkey

theorem Related.step (h : Related m r) (hs : Guarded Agreeing Step r e r') :
    ∃ m', m.Step e m' ∧ Related m' r' := by
  obtain ⟨hguard, hs⟩ := hs
  simp only [Step, next, Option.ite_none_left_eq_some] at hs
  obtain ⟨hclock, hs⟩ := hs
  obtain ⟨r₁, hr, rfl⟩ := Option.map_eq_some_iff.mp hs
  obtain ⟨m₁, hm, hrelated⟩ := h.perform (Int64.not_lt.mp hclock) hguard hr
  have hnow : m.now = r.now := congrArg ManagerState.now h.same
  refine ⟨_, ?_, hrelated⟩
  rw [Step, next, hnow, if_neg hclock, hm]
  rfl

end Steps

/-- Calls that never find a session in Redis past its own expiry, and save only what can be
written, can be made of a manager over memory and are answered alike. -/
theorem storages_agree_of_agreeing {ttlSeconds now : Int64} (hpos : 0 < ttlSeconds)
    {events : List ManagerEvent} {r : ManagerState RedisSessionStorage}
    (hr : Run (Guarded Agreeing Step) ⟨{}, ttlSeconds, now, [], []⟩ events r) :
    ∃ m : ManagerState MemorySessionStorage,
      Run Step ⟨{}, ttlSeconds, now, [], []⟩ events m ∧ m.answers = r.answers := by
  obtain ⟨m, hrun, hrelated⟩ :=
    hr.simulate (fun _ _ _ _ h hs => h.step hs) (related_start hpos now)
  exact ⟨m, hrun, congrArg ManagerState.answers hrelated.same⟩

/-- A session of sixty seconds, refreshed and looked up in time. -/
def lookedUpInTime : List ManagerEvent :=
  [⟨.create (List.replicate 64 97), ⟨0, 0, 0, by decide, by decide⟩, .id _⟩,
    ⟨.refresh (List.replicate 64 97), ⟨40000, 40000, 40000, by decide, by decide⟩, .id _⟩,
    ⟨.validate (List.replicate 64 97), ⟨90000, 90000, 90000, by decide, by decide⟩, .id _⟩]

theorem lookedUpInTime_agrees :
    ∃ m : ManagerState MemorySessionStorage,
      Run Step ⟨{}, 60, 0, [], []⟩ lookedUpInTime m ∧ .validated true ∈ m.answers := by
  have hreplay : (Runs.replay Agreeing next (⟨{}, 60, 0, [], []⟩ : ManagerState RedisSessionStorage)
      lookedUpInTime).map (fun r => decide (.validated true ∈ r.answers)) = some true := by
    decide
  obtain ⟨r, hr, hvalid⟩ := Option.map_eq_some_iff.mp hreplay
  obtain ⟨m, hrun, hanswers⟩ :=
    storages_agree_of_agreeing (by decide) (Runs.run_of_replay hr)
  refine ⟨m, hrun, ?_⟩
  rw [hanswers]
  exact of_decide_eq_true hvalid

/-- A session of one second that is saved once more after half a second, and looked up when
one second is over. -/
def savedOnceMore : List ManagerEvent :=
  [⟨.create (List.replicate 64 97), ⟨0, 0, 0, by decide, by decide⟩, .id _⟩,
    ⟨.save 0 [.setValue (ascii "k") (ascii "v")], ⟨500, 500, 500, by decide, by decide⟩, .id _⟩,
    ⟨.load (List.replicate 64 97), ⟨1200, 1200, 1200, by decide, by decide⟩, .id _⟩]

/-- Memory has let it expire, and Redis has not. -/
theorem savedOnceMore_differs :
    ∃ (m : ManagerState MemorySessionStorage) (r : ManagerState RedisSessionStorage),
      Run Step ⟨{}, 1, 0, [], []⟩ savedOnceMore m ∧ Run Step ⟨{}, 1, 0, [], []⟩ savedOnceMore r ∧
      .loaded none ∈ m.answers ∧ .loaded none ∉ r.answers := by
  have hmemory : (Runs.replay (fun _ _ => True) next
      (⟨{}, 1, 0, [], []⟩ : ManagerState MemorySessionStorage) savedOnceMore).map
        (fun m => decide (.loaded none ∈ m.answers)) = some true := by
    decide
  have hredis : (Runs.replay (fun _ _ => True) next
      (⟨{}, 1, 0, [], []⟩ : ManagerState RedisSessionStorage) savedOnceMore).map
        (fun r => decide (.loaded none ∉ r.answers)) = some true := by
    decide
  obtain ⟨m, hm, hexpired⟩ := Option.map_eq_some_iff.mp hmemory
  obtain ⟨r, hr, hfound⟩ := Option.map_eq_some_iff.mp hredis
  exact ⟨m, r, (Runs.run_of_replay hm).unguarded, (Runs.run_of_replay hr).unguarded,
    of_decide_eq_true hexpired, of_decide_eq_true hfound⟩

end ManagerState

end JingjieAR
