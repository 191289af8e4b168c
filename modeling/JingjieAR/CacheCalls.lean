import JingjieAR.CacheTraceModel
import JingjieAR.SingleFlight

/-! A call of `getOrLoad` that has the locks to itself does in its steps what the cache does with
calls one after another. -/
namespace JingjieAR.RebuildSystem

open Runs (Run)
open TwoLevelCache (Meets)

variable {s s' : RebuildSystem} {t : ℕ} {call : RebuildCall} {key : Bytes}
  {entry : CachedFileEntry} {m look again write : Meets} {outcome : LoadOutcome}
  {found : Except StdException (Bool × CachedFileEntry)} {c c' : CacheTrace} {r : Rebuilt}

/-- The thread is outside `getOrLoad`, and every lock is free. -/
structure Alone (s : RebuildSystem) (t : ℕ) : Prop where
  idle : s.calls t = none
  free : ∀ keyLock, s.holder keyLock = none

/-- The thread has one lock and nobody another. -/
structure Holding (s : RebuildSystem) (t : ℕ) (keyLock : ℕ) (call : RebuildCall) : Prop where
  calls : s.calls t = some call
  free : ∀ keyLock', keyLock' ≠ keyLock → s.holder keyLock' = none

/-- A step after which the thread is not in a load. -/
def Quiet (t : ℕ) (key : Bytes) (s : RebuildSystem) (e : RebuildEvent) (s' : RebuildSystem) :
    Prop :=
  s.Step e s' ∧ s'.loads key t = false

@[simp] theorem setCall_calls : (s.setCall t call).calls t = some call := Function.update_self ..

theorem step_advance (hcall : s.calls t = some call)
    (hs : s.advance t call m outcome = some s') : s.Step (.run t m outcome) s' := by
  simp only [Step, next, hcall, hs]

theorem loads_eq_false (hcall : ∀ call keyLock, s.calls t = some call →
    call.stage ≠ .loading keyLock) : s.loads key t = false := by
  rw [Bool.eq_false_iff, ne_eq, loads_iff]
  rintro ⟨call, keyLock, hsome, hstage, -⟩
  exact hcall call keyLock hsome hstage

theorem quiet_of_stage (hs : s.Step (.run t m outcome) s') (hcall : s'.calls t = some call)
    (hstage : loadLock call.stage = none) : s.Quiet t key (.run t m outcome) s' := by
  refine ⟨hs, loads_eq_false ?_⟩
  intro call' keyLock hcall' hloading
  obtain rfl := Option.some.inj (hcall.symm.trans hcall')
  simp [hloading, loadLock] at hstage

theorem quiet_of_idle (hs : s.Step (.run t m outcome) s') (hcall : s'.calls t = none) :
    s.Quiet t key (.run t m outcome) s' := by
  refine ⟨hs, loads_eq_false ?_⟩
  intro call' keyLock hcall'
  simp [hcall] at hcall'

/-- It takes the lock of its key from the table, or makes one, and nobody has it. -/
theorem takes_lock (hcall : s.calls t = some ⟨key, entry, .takingLock⟩)
    (hfree : ∀ keyLock, s.holder keyLock = none) :
    ∃ keyLock s', Run (Quiet t key) s [.run t {} .threw, .run t {} .threw] s' ∧
      s'.cache = s.cache ∧ s'.Holding t keyLock ⟨key, entry, .rechecking keyLock⟩ := by
  have hregistered : ∃ keyLock s₁, s.Step (.run t {} .threw) s₁ ∧ s₁.cache = s.cache ∧
      s₁.calls t = some ⟨key, entry, .acquiring keyLock⟩ ∧ s₁.holder = s.holder := by
    cases hlock : s.rebuildLocks key with
    | some keyLock =>
      have hs : s.advance t ⟨key, entry, .takingLock⟩ {} .threw =
          some (s.setCall t ⟨key, entry, .acquiring keyLock⟩) := by
        simp only [advance, hlock]
      exact ⟨keyLock, _, step_advance hcall hs, rfl, setCall_calls, rfl⟩
    | none =>
      have hs : s.advance t ⟨key, entry, .takingLock⟩ {} .threw = some ({ s with
          rebuildLocks := Function.update s.rebuildLocks key (some s.made)
          made := s.made+1 }.setCall t ⟨key, entry, .acquiring s.made⟩) := by
        simp only [advance, hlock]
      exact ⟨s.made, _, step_advance hcall hs, rfl, setCall_calls, rfl⟩
  obtain ⟨keyLock, s₁, hs₁, hcache, hcall₁, hholder⟩ := hregistered
  have hnone : s₁.holder keyLock = none := by rw [hholder, hfree]
  have hs₂ : s₁.advance t ⟨key, entry, .acquiring keyLock⟩ {} .threw = some
      ({ s₁ with holder := Function.update s₁.holder keyLock (some t) }.setCall t
        ⟨key, entry, .rechecking keyLock⟩) := by
    simp [advance, hnone]
  refine ⟨keyLock, _, .cons (quiet_of_stage hs₁ hcall₁ rfl)
    (.cons (quiet_of_stage (step_advance hcall₁ hs₂) setCall_calls rfl) (.nil _)), hcache,
    setCall_calls, ?_⟩
  intro keyLock' hne
  change Function.update s₁.holder keyLock (some t) keyLock' = none
  rw [Function.update_of_ne hne, hholder, hfree]

theorem Holding.finished (h : s.Holding t keyLock call) :
    ((s.release keyLock).finish t).Alone t := by
  refine ⟨Function.update_self .., ?_⟩
  intro keyLock'
  change Function.update s.holder keyLock none keyLock' = none
  by_cases hsame : keyLock' = keyLock
  · rw [hsame, Function.update_self]
  · rw [Function.update_of_ne hsame, h.free keyLock' hsame]

theorem Holding.setCall (h : s.Holding t keyLock call) (cache : TwoLevelCache)
    (call' : RebuildCall) : ({ s with cache := cache }.setCall t call').Holding t keyLock call' :=
  ⟨setCall_calls, h.free⟩

/-- It takes the lock out of the table, and returns. -/
theorem returns (h : s.Holding t keyLock ⟨key, entry, .erasing keyLock⟩) :
    ∃ s', Run (Quiet t key) s [.run t {} .threw, .run t {} .threw] s' ∧ s'.cache = s.cache ∧
      s'.Alone t := by
  let s₁ := { s with rebuildLocks := Function.update s.rebuildLocks key none }.setCall t
    ⟨key, entry, .releasing keyLock⟩
  have hs₁ : s.advance t ⟨key, entry, .erasing keyLock⟩ {} .threw = some s₁ := rfl
  have h₁ : s₁.Holding t keyLock ⟨key, entry, .releasing keyLock⟩ := ⟨setCall_calls, h.free⟩
  have hs₂ : s₁.advance t ⟨key, entry, .releasing keyLock⟩ {} .threw =
      some ((s₁.release keyLock).finish t) := rfl
  exact ⟨_, .cons (quiet_of_stage (step_advance h.calls hs₁) h₁.calls rfl)
    (.cons (quiet_of_idle (step_advance h₁.calls hs₂) h₁.finished.idle) (.nil _)), rfl,
    h₁.finished⟩

theorem get_cache (h : c.get key entry m = some (found, c')) :
    c.cache.get key entry m = some (found, c'.cache) := by
  obtain ⟨⟨found', cache⟩, hget, hr⟩ := Option.map_eq_some_iff.mp h
  obtain ⟨rfl, rfl⟩ := by simpa using hr
  exact hget

theorem write_cache {ok : Bool} (h : (if ok then c.put key entry m else c.markNonexistent key m) =
    some c') : (if ok then c.cache.put key entry m else c.cache.markNonexistent key m) =
      some c'.cache := by
  cases ok with
  | true =>
    obtain ⟨cache, hput, rfl⟩ := Option.map_eq_some_iff.mp h
    exact hput
  | false =>
    obtain ⟨cache, hmark, rfl⟩ := Option.map_eq_some_iff.mp h
    exact hmark

/-- The load has ended, and its thread goes on to the end. -/
theorem load_ends (h : s.Holding t keyLock ⟨key, entry, .loading keyLock⟩) {ok : Bool}
    {loaded : CachedFileEntry} (hcache : c.cache = s.cache)
    (hs : (if ok then c.put key loaded m else c.markNonexistent key m) = some c') :
    ∃ events s', Run (Quiet t key) s events s' ∧ s'.cache = c'.cache ∧ s'.Alone t := by
  let s₁ := s.setCall t ⟨key, loaded, .storing keyLock ok⟩
  have hs₁ : s.advance t ⟨key, entry, .loading keyLock⟩ {} (.returned ok loaded) = some s₁ := rfl
  let s₂ := { s₁ with cache := c'.cache }.setCall t ⟨key, loaded, .erasing keyLock⟩
  have hs₂ : s₁.advance t ⟨key, loaded, .storing keyLock ok⟩ m .threw = some s₂ := by
    have hwrite := write_cache hs
    rw [hcache] at hwrite
    simp only [advance, s₁, RebuildSystem.setCall, hwrite, Option.map_some, s₂]
  have h₁ := h.setCall s.cache ⟨key, loaded, .storing keyLock ok⟩
  have h₂ := h₁.setCall c'.cache ⟨key, loaded, .erasing keyLock⟩
  obtain ⟨s', hr, hsame, halone⟩ := returns h₂
  exact ⟨_, s', .cons (quiet_of_stage (step_advance h.calls hs₁) h₁.calls rfl)
    (.cons (quiet_of_stage (step_advance h₁.calls hs₂) h₂.calls rfl) hr), hsame, halone⟩

/-- The steps of a thread, with one load on the way or with none. -/
def Carried (t : ℕ) (key : Bytes) (s : RebuildSystem) : Bool → RebuildSystem → Prop
  | false, s' => ∃ events, Run (Quiet t key) s events s'
  | true, s' => ∃ before e after s₁ s₂, Run (Quiet t key) s before s₁ ∧ s₁.Step e s₂ ∧
      s₂.loads key t = true ∧ Run (Quiet t key) s₂ after s'

/-- With the lock of its key it looks again, and loads if it has to. -/
theorem rebuild_alone (h : s.Holding t keyLock ⟨key, entry, .rechecking keyLock⟩)
    (hcache : c.cache = s.cache) (hs : c.rebuild key entry again outcome write = some (r, c')) :
    ∃ s', s.Carried t key r.loaded s' ∧ s'.cache = c'.cache ∧ s'.Alone t := by
  obtain ⟨⟨found, c₁⟩, hget, hs⟩ := Option.bind_eq_some_iff.mp hs
  have hlook : s.cache.get key entry again = some (found, c₁.cache) := hcache ▸ get_cache hget
  match found, hlook, hs with
  | .error x, hlook, hs =>
    -- an exception leaves the lock in the table
    obtain ⟨rfl, rfl⟩ := by simpa using hs
    let s₁ := { s with cache := c₁.cache }
    have h₁ : s₁.Holding t keyLock ⟨key, entry, .rechecking keyLock⟩ := ⟨h.calls, h.free⟩
    have hs₁ : s.advance t ⟨key, entry, .rechecking keyLock⟩ again .threw =
        some ((s₁.release keyLock).finish t) := by
      simp only [advance, hlook, Option.map_some, s₁]
    have hlast : s.Quiet t key _ _ := quiet_of_idle (step_advance h.calls hs₁) h₁.finished.idle
    exact ⟨_, ⟨_, .cons hlast (.nil _)⟩, rfl, h₁.finished⟩
  | .ok (true, e), hlook, hs =>
    obtain ⟨rfl, rfl⟩ := by simpa using hs
    let s₁ := { s with cache := c₁.cache }.setCall t ⟨key, e, .erasing keyLock⟩
    have hs₁ : s.advance t ⟨key, entry, .rechecking keyLock⟩ again .threw = some s₁ := by
      simp only [advance, hlook, Option.map_some, s₁]
    obtain ⟨s', hr, hsame, halone⟩ := returns (h.setCall c₁.cache ⟨key, e, .erasing keyLock⟩)
    have hnext : s.Quiet t key _ s₁ := quiet_of_stage (step_advance h.calls hs₁) setCall_calls rfl
    exact ⟨s', ⟨_, .cons hnext hr⟩, hsame, halone⟩
  | .ok (false, e), hlook, hs =>
    let s₁ := { s with cache := c₁.cache }.setCall t ⟨key, e, .loading keyLock⟩
    have h₁ : s₁.Holding t keyLock ⟨key, e, .loading keyLock⟩ := h.setCall ..
    have hs₁ : s.advance t ⟨key, entry, .rechecking keyLock⟩ again .threw = some s₁ := by
      simp only [advance, hlook, Option.map_some, s₁]
    have hloads : s₁.loads key t = true := loads_iff.mpr ⟨_, keyLock, h₁.calls, rfl, rfl⟩
    have hnext := step_advance h.calls hs₁
    cases outcome with
    | threw =>
      -- and so does one of the load
      obtain ⟨rfl, rfl⟩ := by simpa using hs
      have hs₂ : s₁.advance t ⟨key, e, .loading keyLock⟩ {} .threw =
          some ((s₁.release keyLock).finish t) := rfl
      have hlast : s₁.Quiet t key _ _ := quiet_of_idle (step_advance h₁.calls hs₂) h₁.finished.idle
      exact ⟨_, ⟨_, _, _, s, s₁, .nil s, hnext, hloads, .cons hlast (.nil _)⟩, rfl, h₁.finished⟩
    | returned ok loaded =>
      obtain ⟨c₂, hwrite, hr⟩ := Option.map_eq_some_iff.mp hs
      obtain ⟨rfl, rfl⟩ := by simpa using hr
      obtain ⟨events, s', hafter, hsame, halone⟩ := load_ends (c := c₁) h₁ rfl hwrite
      exact ⟨s', ⟨_, _, events, s, s₁, .nil s, hnext, hloads, hafter⟩, hsame, halone⟩

theorem Carried.before {loaded : Bool} {events : List RebuildEvent} {s₁ : RebuildSystem}
    (hr : Run (Quiet t key) s events s₁) (h : s₁.Carried t key loaded s') :
    s.Carried t key loaded s' := by
  cases loaded with
  | false =>
    obtain ⟨events', hr'⟩ := h
    exact ⟨_, hr.append hr'⟩
  | true =>
    obtain ⟨before, e, after, s₂, s₃, hbefore, hs, hloads, hafter⟩ := h
    exact ⟨_, e, after, s₂, s₃, hr.append hbefore, hs, hloads, hafter⟩

/-- The cache is left as by the call that is made at once, and the load is run when that runs it. -/
theorem getOrLoad_alone (h : s.Alone t) (hcache : c.cache = s.cache)
    (hs : c.getOrLoad key look again outcome write = some (r, c')) :
    ∃ s', s.Carried t key r.loaded s' ∧ s'.cache = c'.cache ∧ s'.Alone t := by
  let s₀ := s.setCall t { key := key }
  have hstart : s.Quiet t key (.getOrLoad t key) s₀ := by
    refine ⟨by simp [Step, next, h.idle, s₀], loads_eq_false ?_⟩
    intro call keyLock hcall hstage
    obtain rfl := Option.some.inj (setCall_calls.symm.trans hcall)
    simp at hstage
  obtain ⟨⟨found, c₁⟩, hget, hs⟩ := Option.bind_eq_some_iff.mp hs
  have hlook : s₀.cache.get key {} look = some (found, c₁.cache) := hcache ▸ get_cache hget
  -- a first look that ends the call
  have hended : s₀.advance t { key := key } look .threw =
      some ({ s₀ with cache := c₁.cache }.finish t) → c₁ = c' → r.loaded = false →
      ∃ s', s.Carried t key r.loaded s' ∧ s'.cache = c'.cache ∧ s'.Alone t := by
    rintro hs₁ rfl hloaded
    rw [hloaded]
    have halone : ({ s₀ with cache := c₁.cache }.finish t).Alone t :=
      ⟨Function.update_self .., h.free⟩
    exact ⟨_, ⟨_, .cons hstart (.cons (quiet_of_idle (step_advance setCall_calls hs₁) halone.idle)
      (.nil _))⟩, rfl, halone⟩
  match found, hlook, hs with
  | .error x, hlook, hs =>
    obtain ⟨rfl, rfl⟩ := by simpa using hs
    exact hended (by simp only [advance, hlook, Option.map_some]) rfl rfl
  | .ok (true, e), hlook, hs =>
    obtain ⟨rfl, rfl⟩ := by simpa using hs
    exact hended (by simp only [advance, hlook, Option.map_some]) rfl rfl
  | .ok (false, e), hlook, hs =>
    let s₁ := { s₀ with cache := c₁.cache }.setCall t ⟨key, e, .takingLock⟩
    have hs₁ : s₀.advance t { key := key } look .threw = some s₁ := by
      simp only [advance, hlook, Option.map_some, s₁]
    obtain ⟨keyLock, s₂, hr, hcache₂, h₂⟩ := takes_lock (s := s₁) setCall_calls h.free
    have hbefore := Run.cons hstart (.cons (quiet_of_stage (step_advance setCall_calls hs₁)
      setCall_calls rfl) hr)
    obtain ⟨s', hcarried, hsame, halone⟩ := rebuild_alone h₂ hcache₂.symm hs
    exact ⟨s', hcarried.before hbefore, hsame, halone⟩

end JingjieAR.RebuildSystem
