import JingjieAR.TwoLevelCacheModel
import Mathlib.Tactic.Common

/-! One load at a time. A thread that loads holds the lock that the table has for its key, and
that lock has one holder. This fails once a thread loads under a lock that has been erased
from the table, as one that waited does when the load before it has left nothing to find, or
once a thread erases the lock of another; then a newcomer makes a lock of its own. -/
namespace JingjieAR.RebuildSystem

open Runs (Run Guarded)

variable {s s' : RebuildSystem} {e : RebuildEvent} {t : ℕ} {call : RebuildCall}

/-- The lock that the thread holds. -/
def heldLock : RebuildStage → Option ℕ
  | .rechecking keyLock => some keyLock
  | .loading keyLock => some keyLock
  | .storing keyLock _ => some keyLock
  | .erasing keyLock => some keyLock
  | .releasing keyLock => some keyLock
  | _ => none

/-- The lock under which the thread loads. -/
def loadLock : RebuildStage → Option ℕ
  | .loading keyLock => some keyLock
  | _ => none

/-- A look into the cache would find nothing. -/
def misses (s : RebuildSystem) (call : RebuildCall) (m : TwoLevelCache.Meets) : Bool :=
  match s.cache.get call.key call.entry m with
  | some (.ok (false, _), _) => true
  | _ => false

/-- A second look that misses is made under the lock that the table has for the key, and an
erasure is one of the own lock, or of none. -/
def AtRegisteredLock (s : RebuildSystem) (call : RebuildCall) (m : TwoLevelCache.Meets) : Prop :=
  match call.stage with
  | .rechecking keyLock => s.misses call m = true → s.rebuildLocks call.key = some keyLock
  | .erasing keyLock => s.rebuildLocks call.key = some keyLock ∨ s.rebuildLocks call.key = none
  | _ => True

instance (s : RebuildSystem) (call : RebuildCall) (m : TwoLevelCache.Meets) :
    Decidable (s.AtRegisteredLock call m) := by
  unfold AtRegisteredLock
  split <;> infer_instance

def Registered (s : RebuildSystem) : RebuildEvent → Prop
  | .getOrLoad _ _ => True
  | .run t m _ => ∀ call ∈ s.calls t, s.AtRegisteredLock call m
  | .expire _ => True

instance (s : RebuildSystem) (e : RebuildEvent) : Decidable (s.Registered e) :=
  match e with
  | .getOrLoad _ _ => inferInstanceAs (Decidable True)
  | .run t m _ => inferInstanceAs (Decidable (∀ call ∈ s.calls t, s.AtRegisteredLock call m))
  | .expire _ => inferInstanceAs (Decidable True)

structure Inv (s : RebuildSystem) : Prop where
  holder : ∀ t call keyLock, s.calls t = some call → heldLock call.stage = some keyLock →
    s.holder keyLock = some t
  registered : ∀ t call keyLock, s.calls t = some call → loadLock call.stage = some keyLock →
    s.rebuildLocks call.key = some keyLock

theorem inv_start (cache : TwoLevelCache) : Inv { cache := cache } := by
  refine ⟨?_, ?_⟩
  · intro t call keyLock h
    simp at h
  · intro t call keyLock h
    simp at h

theorem heldLock_of_loadLock {stage : RebuildStage} {keyLock : ℕ}
    (h : loadLock stage = some keyLock) : heldLock stage = some keyLock := by
  cases stage with
  | loading keyLock' => exact h
  | _ => simp [loadLock] at h

/-- A thread that goes on with the lock it holds. -/
theorem holder_of_held {stage : RebuildStage} {keyLock : ℕ} (hstage : heldLock stage = some keyLock)
    (hown : s.holder keyLock = some t) (keyLock' : ℕ) (h : heldLock stage = some keyLock') :
    s.holder keyLock' = some t := by
  obtain rfl := Option.some.inj (hstage.symm.trans h)
  exact hown

/-- The cache does not matter. -/
theorem Inv.setCache (h : s.Inv) (cache : TwoLevelCache) : Inv { s with cache := cache } :=
  ⟨h.holder, h.registered⟩

theorem Inv.setCall (h : s.Inv)
    (hholder : ∀ keyLock, heldLock call.stage = some keyLock → s.holder keyLock = some t)
    (hload : ∀ keyLock, loadLock call.stage = some keyLock →
      s.rebuildLocks call.key = some keyLock) : (s.setCall t call).Inv := by
  refine ⟨?_, ?_⟩
  · intro t' call' keyLock h' hheld
    by_cases ht : t' = t
    · subst ht
      obtain rfl : call = call' := by simpa [RebuildSystem.setCall] using h'
      exact hholder keyLock hheld
    · exact h.holder t' call' keyLock (by simpa [RebuildSystem.setCall, ht] using h') hheld
  · intro t' call' keyLock h' hlock
    by_cases ht : t' = t
    · subst ht
      obtain rfl : call = call' := by simpa [RebuildSystem.setCall] using h'
      exact hload keyLock hlock
    · exact h.registered t' call' keyLock (by simpa [RebuildSystem.setCall, ht] using h') hlock

theorem finish_calls {t' : ℕ} {call' : RebuildCall} (h : (s.finish t).calls t' = some call') :
    t' ≠ t ∧ s.calls t' = some call' := by
  have ht : t' ≠ t := by
    intro ht
    simp [finish, ht] at h
  exact ⟨ht, by simpa [finish, ht] using h⟩

theorem Inv.finish (h : s.Inv) : (s.finish t).Inv := by
  refine ⟨?_, ?_⟩
  · intro t' call' keyLock h' hheld
    exact h.holder t' call' keyLock (finish_calls h').2 hheld
  · intro t' call' keyLock h' hlock
    exact h.registered t' call' keyLock (finish_calls h').2 hlock

/-- A thread that is through gives its own lock back. -/
theorem Inv.release_finish (h : s.Inv) {keyLock : ℕ} (hheld : s.holder keyLock = some t) :
    ((s.release keyLock).finish t).Inv := by
  refine ⟨?_, ?_⟩
  · intro t' call' keyLock' h' hheld'
    obtain ⟨ht, hcall⟩ := finish_calls h'
    have hown := h.holder t' call' keyLock' hcall hheld'
    have hne : keyLock' ≠ keyLock := by
      intro heq
      subst heq
      exact ht (Option.some.inj (hown.symm.trans hheld))
    simpa [RebuildSystem.finish, release, hne] using hown
  · intro t' call' keyLock' h' hlock
    exact h.registered t' call' keyLock' (finish_calls h').2 hlock

/-- The lock that a thread takes is free, so no other thread holds it. -/
theorem Inv.acquire (h : s.Inv) {keyLock : ℕ} (hfree : s.holder keyLock = none) :
    Inv { s with holder := Function.update s.holder keyLock (some t) } := by
  refine ⟨?_, h.registered⟩
  intro t' call' keyLock' h' hheld
  have hown := h.holder t' call' keyLock' h' hheld
  have hne : keyLock' ≠ keyLock := by
    intro heq
    rw [heq, hfree] at hown
    simp at hown
  simpa [hne] using hown

/-- A new lock for a key that has none. -/
theorem Inv.register (h : s.Inv) {key : Bytes} (hnone : s.rebuildLocks key = none) (n : ℕ) :
    Inv { s with rebuildLocks := Function.update s.rebuildLocks key (some s.made), made := n } := by
  refine ⟨h.holder, ?_⟩
  intro t' call' keyLock' h' hlock
  have hold := h.registered t' call' keyLock' h' hlock
  have hne : call'.key ≠ key := by
    intro heq
    rw [heq, hnone] at hold
    simp at hold
  simpa [hne] using hold

/-- Erasing the own lock, or none, takes nothing from a thread that loads. -/
theorem Inv.erase (h : s.Inv) (hcall : s.calls t = some call) {keyLock : ℕ}
    (hstage : call.stage = .erasing keyLock)
    (hown : s.rebuildLocks call.key = some keyLock ∨ s.rebuildLocks call.key = none) :
    Inv { s with rebuildLocks := Function.update s.rebuildLocks call.key none } := by
  refine ⟨h.holder, ?_⟩
  intro t' call' keyLock' h' hlock
  have hold := h.registered t' call' keyLock' h' hlock
  have hne : call'.key ≠ call.key := by
    intro heq
    rw [heq] at hold
    rcases hown with hown | hown
    · -- Then it would be the lock that this thread holds.
      obtain rfl : keyLock' = keyLock := Option.some.inj (hold.symm.trans hown)
      have hheld := h.holder t' call' keyLock' h' (heldLock_of_loadLock hlock)
      have hheld' := h.holder t call keyLock' hcall (by rw [hstage]; rfl)
      obtain rfl : t' = t := Option.some.inj (hheld.symm.trans hheld')
      obtain rfl : call' = call := Option.some.inj (h'.symm.trans hcall)
      rw [hstage] at hlock
      simp [loadLock] at hlock
    · rw [hown] at hold
      simp at hold
  simpa [hne] using hold

theorem Inv.advance (h : s.Inv) (hcall : s.calls t = some call) {m : TwoLevelCache.Meets}
    {outcome : LoadOutcome} (hguard : s.Registered (.run t m outcome))
    (hs : s.advance t call m outcome = some s') : s'.Inv := by
  have hguard' : s.AtRegisteredLock call m := hguard call hcall
  unfold AtRegisteredLock at hguard'
  have hholder := fun keyLock => h.holder t call keyLock hcall
  unfold RebuildSystem.advance at hs
  cases hstage : call.stage with
  | reading =>
    simp only [hstage] at hs
    obtain ⟨⟨found, cache⟩, -, rfl⟩ := Option.map_eq_some_iff.mp hs
    dsimp only
    split
    · exact (h.setCache cache).finish
    · exact (h.setCache cache).finish
    · exact (h.setCache cache).setCall (by simp [heldLock]) (by simp [loadLock])
  | takingLock =>
    simp only [hstage] at hs
    cases hlock : s.rebuildLocks call.key with
    | some keyLock =>
      simp only [hlock, Option.some.injEq] at hs
      subst hs
      exact h.setCall (by simp [heldLock]) (by simp [loadLock])
    | none =>
      simp only [hlock, Option.some.injEq] at hs
      subst hs
      exact (h.register hlock _).setCall (by simp [heldLock]) (by simp [loadLock])
  | acquiring keyLock =>
    simp only [hstage, ne_eq, ite_not, Option.ite_none_right_eq_some, Option.some.injEq] at hs
    -- nobody has it, so nobody loads under it
    obtain ⟨hfree, rfl⟩ := hs
    exact (h.acquire hfree).setCall (holder_of_held rfl (by simp)) (by simp [loadLock])
  | rechecking keyLock =>
    simp only [hstage] at hs hguard'
    have hown : s.holder keyLock = some t := hholder keyLock (by rw [hstage]; rfl)
    obtain ⟨⟨found, cache⟩, hget, rfl⟩ := Option.map_eq_some_iff.mp hs
    dsimp only
    split
    -- an exception, a hit, a miss
    · exact (h.setCache cache).release_finish hown
    · exact (h.setCache cache).setCall (holder_of_held rfl hown) (by simp [loadLock])
    · refine (h.setCache cache).setCall (holder_of_held rfl hown) ?_
      intro keyLock' hload
      obtain rfl : keyLock = keyLock' := by simpa [loadLock] using hload
      -- The look has missed.
      refine hguard' ?_
      rw [misses, hget]
  | loading keyLock =>
    simp only [hstage] at hs
    have hown : s.holder keyLock = some t := hholder keyLock (by rw [hstage]; rfl)
    cases outcome with
    | returned ok entry =>
      obtain rfl := Option.some.inj hs
      exact h.setCall (holder_of_held rfl hown) (by simp [loadLock])
    | threw =>
      obtain rfl := Option.some.inj hs
      exact h.release_finish hown
  | storing keyLock ok =>
    simp only [hstage] at hs
    have hown : s.holder keyLock = some t := hholder keyLock (by rw [hstage]; rfl)
    obtain ⟨cache, -, rfl⟩ := Option.map_eq_some_iff.mp hs
    exact (h.setCache cache).setCall (holder_of_held rfl hown) (by simp [loadLock])
  | erasing keyLock =>
    simp only [hstage] at hs hguard'
    have hown : s.holder keyLock = some t := hholder keyLock (by rw [hstage]; rfl)
    obtain rfl := Option.some.inj hs
    exact (h.erase hcall hstage hguard').setCall (holder_of_held rfl hown) (by simp [loadLock])
  | releasing keyLock =>
    simp only [hstage] at hs
    obtain rfl := Option.some.inj hs
    exact h.release_finish (hholder keyLock (by rw [hstage]; rfl))

theorem Inv.step (h : s.Inv) (hs : Guarded Registered Step s e s') : s'.Inv := by
  obtain ⟨hguard, hs⟩ := hs
  unfold Step next at hs
  cases e with
  | getOrLoad t key =>
    simp only [ne_eq, ite_not, Option.ite_none_right_eq_some, Option.some.injEq] at hs
    obtain ⟨-, rfl⟩ := hs
    exact h.setCall (by simp [heldLock]) (by simp [loadLock])
  | run t m outcome =>
    cases hcall : s.calls t with
    | none => simp [hcall] at hs
    | some call => exact h.advance hcall hguard (by simpa [hcall] using hs)
  | expire redisKey =>
    obtain rfl := Option.some.inj hs
    exact h.setCache _

/-- At most one load per key is in progress. -/
def OneLoad (s : RebuildSystem) : Prop :=
  ∀ t t' call call' keyLock keyLock', s.calls t = some call → s.calls t' = some call' →
    call.stage = .loading keyLock → call'.stage = .loading keyLock' → call.key = call'.key → t = t'

theorem Inv.oneLoad (h : s.Inv) : s.OneLoad := by
  intro t t' call call' keyLock keyLock' hcall hcall' hstage hstage' hkey
  -- both load under the lock that the table has for the key
  have hlock := h.registered t call keyLock hcall (by rw [hstage]; rfl)
  have hlock' := h.registered t' call' keyLock' hcall' (by rw [hstage']; rfl)
  rw [hkey, hlock'] at hlock
  obtain rfl := Option.some.inj hlock
  have hheld := h.holder t call keyLock' hcall (by rw [hstage]; rfl)
  have hheld' := h.holder t' call' keyLock' hcall' (by rw [hstage']; rfl)
  exact Option.some.inj (hheld.symm.trans hheld')

/-- In every run in which the second look of a thread misses only under a registered lock and
no thread erases the lock of another, at most one load per key is in progress at any time. -/
theorem oneLoad_of_registered {cache : TwoLevelCache} {events : List RebuildEvent}
    {s : RebuildSystem} (hr : Run (Guarded Registered Step) { cache := cache } events s) :
    s.OneLoad :=
  (hr.invariant (fun _ _ _ h hs => h.step hs) (inv_start cache)).oneLoad

/-- The steps of these threads, one after another, with loads that end so. -/
def runs (outcome : LoadOutcome) (ts : List ℕ) : List RebuildEvent :=
  ts.map (fun t => .run t {} outcome)

/-- A cache with nothing in it. -/
def emptyCache : TwoLevelCache := ⟨.new (fun _ => 0) 200 1, fun _ => none⟩

/-- The first thread loads, and a second one waits for its lock. -/
def oneWaits : List RebuildEvent :=
  .getOrLoad 0 (ascii "page") :: .getOrLoad 1 (ascii "page") ::
    runs .threw [0, 0, 0, 0, 1, 1]

/-- The thread is in a load of this key. -/
def loads (s : RebuildSystem) (key : Bytes) (t : ℕ) : Bool :=
  match s.calls t with
  | some ⟨k, _, .loading _⟩ => k = key
  | _ => false

theorem loads_iff {key : Bytes} :
    s.loads key t = true ↔
      ∃ call keyLock, s.calls t = some call ∧ call.stage = .loading keyLock ∧ call.key = key := by
  unfold loads
  constructor
  · intro h
    split at h
    · next k entry keyLock hcall => exact ⟨_, keyLock, hcall, rfl, by simpa using h⟩
    · simp at h
  · intro h
    obtain ⟨⟨k, entry, stage⟩, keyLock, hcall, rfl, rfl⟩ := h
    simp [hcall]

theorem oneWaits_oneLoad :
    ∃ s, Run (Guarded Registered Step) { cache := emptyCache } oneWaits s ∧
      s.loads (ascii "page") 0 = true ∧ s.OneLoad := by
  have hreplay : (Runs.replay Registered next { cache := emptyCache } oneWaits).map
      (fun s => s.loads (ascii "page") 0) = some true := by
    decide
  obtain ⟨s, hs, hloads⟩ := Option.map_eq_some_iff.mp hreplay
  have hrun := Runs.run_of_replay hs
  exact ⟨s, hrun, hloads, oneLoad_of_registered hrun⟩

/-- The load fails and leaves a mark, which is no hit. The second thread goes on to load under
the lock that is erased by now, and a third one under a lock of its own. -/
def failedLoad : List RebuildEvent :=
  oneWaits++runs (.returned false {}) [0, 0, 0, 0]++runs .threw [1, 1]++
    .getOrLoad 2 (ascii "page") :: runs .threw [2, 2, 2, 2]

theorem failedLoad_two_loads :
    ∃ s, Run Step { cache := emptyCache } failedLoad s ∧ ¬s.OneLoad := by
  have hreplay : (Runs.replay (fun _ _ => True) next { cache := emptyCache } failedLoad).map
      (fun s => (s.loads (ascii "page") 1, s.loads (ascii "page") 2)) = some (true, true) := by
    decide +kernel
  obtain ⟨s, hs, heq⟩ := Option.map_eq_some_iff.mp hreplay
  obtain ⟨h₁, h₂⟩ := Prod.mk.inj heq
  refine ⟨s, (Runs.run_of_replay hs).unguarded, ?_⟩
  intro hone
  obtain ⟨call, keyLock, hcall, hstage, hkey⟩ := loads_iff.mp h₁
  obtain ⟨call', keyLock', hcall', hstage', hkey'⟩ := loads_iff.mp h₂
  have heq := hone 1 2 call call' keyLock keyLock' hcall hcall' hstage hstage'
    (hkey.trans hkey'.symm)
  simp at heq

end JingjieAR.RebuildSystem
