import JingjieAR.SessionManagerModel
import Mathlib.Tactic.Common

/-! Destroyed sessions. Calls of `SessionManager` run on any number of threads over one
storage. A refresh loads the session and saves it in a second operation, and the save asks
for nothing: what another thread has destroyed in between comes back. Where no refresh saves
a session that is destroyed, it stays destroyed. -/
namespace JingjieAR

open Runs (Run Guarded)

/-- What a call has returned. -/
inductive SessionLogEntry
  | loaded (id : Bytes) (ok : Bool)
  | refreshed (id : Bytes) (ok : Bool)
  | destroyed (id : Bytes) (ok : Bool)
deriving DecidableEq

/-- The storage, the refreshes by thread that have loaded and not yet saved, and the calls
that have returned. -/
structure SessionSystem (σ : Type) where
  storage : σ
  ttlSeconds : Int64
  refreshing : ℕ → Option (Bytes × HttpSession) := fun _ => none
  log : List SessionLogEntry := []

inductive SessionEvent
  | create (id : Bytes) (nowMs : Int64) (call : StorageCall)
  | save (session : HttpSession) (call : StorageCall)
  | load (id : Bytes) (call : StorageCall)
  | destroy (id : Bytes) (call : StorageCall)
  -- the two operations of a refresh on thread `t`
  | refreshLoad (t : ℕ) (id : Bytes) (call : StorageCall)
  | refreshSave (t : ℕ) (nowMs : Int64) (call : StorageCall)

namespace SessionSystem

variable {σ : Type} [SessionStorage σ]

def next (s : SessionSystem σ) : SessionEvent → Option (SessionSystem σ)
  | .create id nowMs call =>
    some { s with storage := (SessionManager.create s.storage s.ttlSeconds id nowMs call).2 }
  | .save session call =>
    some { s with storage := (SessionStorage.save s.storage session call).2 }
  | .load id call =>
    let found := SessionStorage.load s.storage id call
    some { s with storage := found.2, log := s.log++[.loaded id found.1.isSome] }
  | .destroy id call =>
    let done := SessionStorage.remove s.storage id call
    some { s with storage := done.2, log := s.log++[.destroyed id done.1] }
  | .refreshLoad t id call =>
    if s.refreshing t ≠ none then none
    else
      let found := SessionStorage.load s.storage id call
      match found.1 with
      | none => some { s with storage := found.2, log := s.log++[.refreshed id false] }
      | some loaded => some { s with
          storage := found.2
          refreshing := Function.update s.refreshing t (some (id, loaded)) }
  | .refreshSave t nowMs call =>
    match s.refreshing t with
    | none => none
    | some (id, loaded) =>
      let done := SessionManager.refreshSave s.storage loaded nowMs call
      some { s with
        storage := done.2
        refreshing := Function.update s.refreshing t none
        log := s.log++[.refreshed id done.1.isSome] }

def Step (s : SessionSystem σ) (e : SessionEvent) (s' : SessionSystem σ) : Prop :=
  s.next e = some s'

/-- No caller saves a session with this id once it is destroyed. -/
def NoSave (id : Bytes) (s : SessionSystem σ) : SessionEvent → Prop
  | .create newId _ _ => newId = id → .destroyed id true ∉ s.log
  | .save session _ => session.id = id → .destroyed id true ∉ s.log
  | _ => True

/-- And no refresh does. -/
def NoLateSave (id : Bytes) (s : SessionSystem σ) : SessionEvent → Prop
  | .refreshSave t _ _ =>
    ((s.refreshing t).map (·.2.id)) = some id → .destroyed id true ∉ s.log
  | e => s.NoSave id e

instance (id : Bytes) (s : SessionSystem σ) (e : SessionEvent) : Decidable (s.NoSave id e) := by
  cases e <;> unfold NoSave <;> infer_instance

instance (id : Bytes) (s : SessionSystem σ) (e : SessionEvent) :
    Decidable (s.NoLateSave id e) := by
  cases e <;> unfold NoLateSave <;> infer_instance

/-- After a `destroy` that has returned true no `load` succeeds. -/
def StaysDestroyed (id : Bytes) (s : SessionSystem σ) : Prop :=
  s.log.Pairwise (fun a b => a = .destroyed id true → b ≠ .loaded id true)

end SessionSystem

/-- The ids that a storage has a session for, which only a save of the id adds to and a
removal that succeeds takes out of. -/
structure Removal (σ : Type) [SessionStorage σ] where
  holds : σ → Bytes → Prop
  load_holds : ∀ {s id call session},
    (SessionStorage.load s id call).1 = some session → holds s id
  load_frame : ∀ {s id id' call},
    holds (SessionStorage.load s id' call).2 id → holds s id
  save_frame : ∀ {s id session call}, session.id ≠ id →
    holds (SessionStorage.save s session call).2 id → holds s id
  remove_frame : ∀ {s id id' call},
    holds (SessionStorage.remove s id' call).2 id → holds s id
  removed : ∀ {s id call}, (SessionStorage.remove s id call).1 = true →
    ¬holds (SessionStorage.remove s id call).2 id

section Storages

variable {ν : Type}

theorem ne_none_of_update_of_ne {f : Bytes → Option ν} {id id' : Bytes} {v : Option ν}
    (hne : id ≠ id') (h : Function.update f id' v id ≠ none) : f id ≠ none := by
  rwa [Function.update_of_ne hne] at h

theorem ne_none_of_update {f : Bytes → Option ν} {id id' : Bytes}
    (h : Function.update f id' none id ≠ none) : f id ≠ none := by
  have hne : id ≠ id' := by
    intro hid
    simp [hid] at h
  exact ne_none_of_update_of_ne hne h

def memoryRemoval : Removal MemorySessionStorage where
  holds storage id := storage.sessions id ≠ none
  load_holds := by
    intro storage id call session h hnone
    simp [SessionStorage.load, MemorySessionStorage.load, hnone] at h
  load_frame := by
    intro storage id id' call h
    simp only [SessionStorage.load, MemorySessionStorage.load] at h
    split at h
    · exact h
    · split_ifs at h
      · exact ne_none_of_update h
      · exact h
  save_frame := by
    intro storage id session call hne h
    simp only [SessionStorage.save, MemorySessionStorage.save] at h
    split_ifs at h
    · exact h
    · exact ne_none_of_update_of_ne hne.symm h
  remove_frame := by
    intro storage id id' call h
    exact ne_none_of_update h
  removed := by
    intro storage id call _ h
    simp [SessionStorage.remove, MemorySessionStorage.remove] at h

def redisRemoval : Removal RedisSessionStorage where
  holds storage id := storage.keys id ≠ none
  load_holds := by
    intro storage id call session h hnone
    simp only [SessionStorage.load, RedisSessionStorage.load] at h
    split at h
    · simp [RedisSessionStorage.get, hnone] at h
    · simp at h
    · simp at h
  load_frame := by
    intro storage id id' call h
    simp only [SessionStorage.load, RedisSessionStorage.load] at h
    split at h <;> exact h
  save_frame := by
    intro storage id session call hne h
    simp only [SessionStorage.save, RedisSessionStorage.save, RedisSessionStorage.setex] at h
    split_ifs at h
    · exact h
    · exact h
    · split at h
      · exact ne_none_of_update_of_ne hne.symm h
      · exact ne_none_of_update_of_ne hne.symm h
      · exact h
  remove_frame := by
    intro storage id id' call h
    simp only [SessionStorage.remove, RedisSessionStorage.remove] at h
    split at h
    · exact ne_none_of_update h
    · exact ne_none_of_update h
    · exact h
  removed := by
    intro storage id call hok h
    simp only [SessionStorage.remove, RedisSessionStorage.remove] at hok h
    split at h
    · simp at h
    · simp at h
    · next hresult => simp [hresult] at hok

/-- A pointer holds what the storage does that it points to. -/
def pointerRemoval {σ : Type} [SessionStorage σ] (r : Removal σ) : Removal (Option σ) where
  holds storage id := storage.elim False (r.holds · id)
  load_holds := by
    intro storage id call session h
    cases storage with
    | none => simp [SessionStorage.load] at h
    | some st => exact r.load_holds (s := st) h
  load_frame := by
    intro storage id id' call h
    cases storage with
    | none => simp [SessionStorage.load] at h
    | some st => exact r.load_frame (s := st) h
  save_frame := by
    intro storage id session call hne h
    cases storage with
    | none => simp [SessionStorage.save] at h
    | some st => exact r.save_frame (s := st) hne h
  remove_frame := by
    intro storage id id' call h
    cases storage with
    | none => simp [SessionStorage.remove] at h
    | some st => exact r.remove_frame (s := st) h
  removed := by
    intro storage id call hok h
    cases storage with
    | none => simp [SessionStorage.remove] at hok
    | some st => exact r.removed (s := st) hok h

end Storages

namespace SessionSystem

variable {σ : Type} [SessionStorage σ] {r : Removal σ} {id : Bytes} {s s' : SessionSystem σ}
  {e : SessionEvent}

/-- A session that is destroyed is gone, and no load has found it since. -/
structure Gone (r : Removal σ) (id : Bytes) (s : SessionSystem σ) : Prop where
  gone : .destroyed id true ∈ s.log → ¬r.holds s.storage id
  stays : s.StaysDestroyed id

/-- A step that logs nothing and brings nothing back. -/
theorem Gone.frame (h : Gone r id s) (hlog : s'.log = s.log)
    (hstorage : .destroyed id true ∈ s.log → r.holds s'.storage id → r.holds s.storage id) :
    Gone r id s' := by
  refine ⟨?_, ?_⟩
  · intro hmem hholds
    rw [hlog] at hmem
    exact h.gone hmem (hstorage hmem hholds)
  · have hstays := h.stays
    rwa [StaysDestroyed, ← hlog] at hstays

theorem Gone.append (h : Gone r id s) {a : SessionLogEntry} (hlog : s'.log = s.log++[a])
    (hstorage : .destroyed id true ∈ s.log → r.holds s'.storage id → r.holds s.storage id)
    (hdestroyed : a = .destroyed id true → ¬r.holds s'.storage id)
    (hloaded : a = .loaded id true → r.holds s.storage id) : Gone r id s' := by
  refine ⟨?_, ?_⟩
  · intro hmem hholds
    rw [hlog] at hmem
    rcases List.mem_append.mp hmem with hmem | hmem
    · exact h.gone hmem (hstorage hmem hholds)
    · exact hdestroyed (List.mem_singleton.mp hmem).symm hholds
  · rw [StaysDestroyed, hlog, List.pairwise_append]
    refine ⟨h.stays, List.pairwise_singleton _ _, ?_⟩
    intro b hb c hc hdead hfound
    obtain rfl := List.mem_singleton.mp hc
    exact h.gone (hdead ▸ hb) (hloaded hfound)

/-- Without the session there is nothing that a save of another one could bring back. -/
theorem save_frame_of_destroyed {storage : σ} {session : HttpSession} {call : StorageCall}
    {log : List SessionLogEntry} (hsave : session.id = id → .destroyed id true ∉ log)
    (hmem : .destroyed id true ∈ log)
    (h : r.holds (SessionStorage.save storage session call).2 id) : r.holds storage id :=
  r.save_frame (fun hid => hsave hid hmem) h

theorem Gone.step (h : Gone r id s) (hguard : s.NoLateSave id e) (hs : s.Step e s') :
    Gone r id s' := by
  unfold Step next at hs
  cases e with
  | create newId nowMs call =>
    obtain rfl := Option.some.inj hs
    have hnew : newId = id → .destroyed id true ∉ s.log := hguard
    refine h.frame rfl ?_
    intro hmem hholds
    -- without randomness nothing is saved
    by_cases hempty : newId = []
    · simpa only [SessionManager.create, if_pos hempty] using hholds
    · simp only [SessionManager.create, if_neg hempty] at hholds
      refine save_frame_of_destroyed ?_ hmem hholds
      exact hnew
  | save session call =>
    obtain rfl := Option.some.inj hs
    have hsave : session.id = id → .destroyed id true ∉ s.log := hguard
    exact h.frame rfl (fun hmem hholds => save_frame_of_destroyed hsave hmem hholds)
  | load id' call =>
    obtain rfl := Option.some.inj hs
    refine h.append rfl (fun _ => r.load_frame) (by simp) ?_
    intro hfound
    -- a load that succeeds has found the session in the storage
    obtain ⟨rfl, hsome⟩ := SessionLogEntry.loaded.inj hfound
    obtain ⟨session, hload⟩ := Option.isSome_iff_exists.mp hsome
    exact r.load_holds hload
  | destroy id' call =>
    obtain rfl := Option.some.inj hs
    refine h.append rfl (fun _ => r.remove_frame) ?_ (by simp)
    intro hdead
    obtain ⟨rfl, hok⟩ := SessionLogEntry.destroyed.inj hdead
    exact r.removed hok
  | refreshLoad t id' call =>
    simp only [ne_eq, ite_not, Option.ite_none_right_eq_some] at hs
    obtain ⟨_, hs⟩ := hs
    split at hs
    · obtain rfl := Option.some.inj hs
      exact h.append rfl (fun _ => r.load_frame) (by simp) (by simp)
    · obtain rfl := Option.some.inj hs
      exact h.frame rfl (fun _ => r.load_frame)
  | refreshSave t nowMs call =>
    cases hcall : s.refreshing t with
    | none => simp [hcall] at hs
    | some loaded =>
      simp only [hcall, Option.some.injEq] at hs
      subst hs
      refine h.append rfl ?_ (by simp) (by simp)
      intro hmem hholds
      -- The session keeps its id when it is refreshed.
      have hlate : (loaded.2.refresh nowMs).id = id → .destroyed id true ∉ s.log := by
        intro hid
        refine hguard ?_
        rw [hcall, Option.map_some]
        exact congrArg some hid
      exact save_frame_of_destroyed hlate hmem hholds

theorem Gone.run {s₀ : SessionSystem σ} {events : List SessionEvent}
    (hr : Run (Guarded (NoLateSave id) Step) s₀ events s) (hlog : s₀.log = []) :
    Gone r id s := by
  refine hr.invariant (fun _ _ _ h hs => h.step hs.1 hs.2) ⟨?_, ?_⟩
  · intro hmem
    simp [hlog] at hmem
  · rw [StaysDestroyed, hlog]
    exact List.Pairwise.nil

/-- With either storage, whatever it holds and whatever calls are running: where no refresh
saves a session that has been destroyed since it was loaded, it stays destroyed. -/
theorem stays_destroyed_of_noLateSave {id : Bytes} {events : List SessionEvent} :
    (∀ s₀ s : SessionSystem (Option MemorySessionStorage), s₀.log = [] →
      Run (Guarded (NoLateSave id) Step) s₀ events s → s.StaysDestroyed id) ∧
    (∀ s₀ s : SessionSystem (Option RedisSessionStorage), s₀.log = [] →
      Run (Guarded (NoLateSave id) Step) s₀ events s → s.StaysDestroyed id) := by
  refine ⟨?_, ?_⟩
  · intro s₀ s hlog hr
    exact (Gone.run (r := pointerRemoval memoryRemoval) hr hlog).stays
  · intro s₀ s hlog hr
    exact (Gone.run (r := pointerRemoval redisRemoval) hr hlog).stays

/-- A refresh that is through before the session is destroyed. -/
def destroyedAfterRefresh : List SessionEvent :=
  [.create (ascii "sid") 0 ⟨0, .id _, .replied⟩, .refreshLoad 0 (ascii "sid") ⟨1, .id _, .replied⟩,
    .refreshSave 0 2 ⟨2, .id _, .replied⟩, .destroy (ascii "sid") ⟨3, .id _, .replied⟩,
    .load (ascii "sid") ⟨4, .id _, .replied⟩]

theorem destroyedAfterRefresh_stays :
    ∃ s : SessionSystem (Option MemorySessionStorage),
      Run (Guarded (NoLateSave (ascii "sid")) Step) ⟨some {}, 60, fun _ => none, []⟩
        destroyedAfterRefresh s ∧
      s.log = [.refreshed (ascii "sid") true, .destroyed (ascii "sid") true,
        .loaded (ascii "sid") false] ∧ s.StaysDestroyed (ascii "sid") := by
  have hreplay : (Runs.replay (NoLateSave (ascii "sid")) next
      (⟨some {}, 60, fun _ => none, []⟩ : SessionSystem (Option MemorySessionStorage))
      destroyedAfterRefresh).map (·.log) = some [.refreshed (ascii "sid") true,
        .destroyed (ascii "sid") true, .loaded (ascii "sid") false] := by
    decide
  obtain ⟨s, hs, hlog⟩ := Option.map_eq_some_iff.mp hreplay
  have hrun := Runs.run_of_replay hs
  exact ⟨s, hrun, hlog, stays_destroyed_of_noLateSave.1 _ s rfl hrun⟩

/-- A session that is destroyed while it is being refreshed. -/
def destroyedDuringRefresh : List SessionEvent :=
  [.create (ascii "sid") 0 ⟨0, .id _, .replied⟩, .refreshLoad 0 (ascii "sid") ⟨1, .id _, .replied⟩,
    .destroy (ascii "sid") ⟨2, .id _, .replied⟩, .refreshSave 0 3 ⟨3, .id _, .replied⟩,
    .load (ascii "sid") ⟨4, .id _, .replied⟩]

theorem exists_revived_of_replay {s₀ : SessionSystem σ} {events : List SessionEvent}
    (h : (Runs.replay (NoSave (ascii "sid")) next s₀ events).map (·.log) =
      some [.destroyed (ascii "sid") true, .refreshed (ascii "sid") true,
        .loaded (ascii "sid") true]) :
    ∃ s, Run (Guarded (NoSave (ascii "sid")) Step) s₀ events s ∧
      ¬s.StaysDestroyed (ascii "sid") := by
  obtain ⟨s, hs, hlog⟩ := Option.map_eq_some_iff.mp h
  refine ⟨s, Runs.run_of_replay hs, ?_⟩
  rw [StaysDestroyed, hlog]
  decide

/-- The refresh brings it back, and the next load finds it. -/
theorem refresh_revives_destroyed :
    (∃ s : SessionSystem (Option MemorySessionStorage),
      Run (Guarded (NoSave (ascii "sid")) Step) ⟨some {}, 60, fun _ => none, []⟩
        destroyedDuringRefresh s ∧ ¬s.StaysDestroyed (ascii "sid")) ∧
    (∃ s : SessionSystem (Option RedisSessionStorage),
      Run (Guarded (NoSave (ascii "sid")) Step) ⟨some {}, 60, fun _ => none, []⟩
        destroyedDuringRefresh s ∧ ¬s.StaysDestroyed (ascii "sid")) :=
  ⟨exists_revived_of_replay (by decide), exists_revived_of_replay (by decide)⟩

end SessionSystem

end JingjieAR
