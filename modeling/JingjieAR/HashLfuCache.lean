import JingjieAR.LfuCalls
import Mathlib.Data.List.Induction

/-! The sliced LFU cache. What a key has stored is in its slice, moved about there by accesses
and aging, and never changed but by a put of the key or a purge; it is lost only to a put of
another key of the slice. -/
namespace JingjieAR

open Runs (Run)

/-- The slices by number, and the hash that gives a key its slice. -/
structure KHashLfuCache (κ ν : Type) where
  hash : κ → ℕ
  sliceNum : ℕ
  lfuSliceCaches : ℕ → KLfuCache κ ν

namespace KHashLfuCache

variable {κ ν : Type} [DecidableEq κ]

/-- A slice has the capacity divided by the number of slices, rounded up. The quotient of
doubles rounds up to that for a capacity below 2³¹, which also fits the `int` of the slice. -/
def new (hash : κ → ℕ) (capacity sliceNum : ℕ) : KHashLfuCache κ ν :=
  ⟨hash, sliceNum, fun _ => { capacity := (capacity+sliceNum-1) / sliceNum }⟩

def sliceIndex (h : KHashLfuCache κ ν) (key : κ) : ℕ := h.hash key % h.sliceNum

def slice (h : KHashLfuCache κ ν) (key : κ) : KLfuCache κ ν := h.lfuSliceCaches (h.sliceIndex key)

def setSlice (h : KHashLfuCache κ ν) (index : ℕ) (c : KLfuCache κ ν) : KHashLfuCache κ ν :=
  { h with lfuSliceCaches := Function.update h.lfuSliceCaches index c }

def put (h : KHashLfuCache κ ν) (key : κ) (value : ν) (visit : Iteration (LfuNode κ ν)) :
    Option (KHashLfuCache κ ν) :=
  ((h.slice key).put key value visit).map (h.setSlice (h.sliceIndex key))

def get (h : KHashLfuCache κ ν) (key : κ) (visit : Iteration (LfuNode κ ν)) :
    Option (Option ν × KHashLfuCache κ ν) :=
  ((h.slice key).get key visit).map (Prod.map id (h.setSlice (h.sliceIndex key)))

def purge (h : KHashLfuCache κ ν) : KHashLfuCache κ ν :=
  { h with lfuSliceCaches := fun index => (h.lfuSliceCaches index).purge }

def next (h : KHashLfuCache κ ν) : LfuCall κ ν → Option (KHashLfuCache κ ν)
  | .put key value visit => h.put key value visit
  | .get key visit => (h.get key visit).map Prod.snd
  | .purge => some h.purge

def Step (h : KHashLfuCache κ ν) (call : LfuCall κ ν) (h' : KHashLfuCache κ ν) : Prop :=
  h.next call = some h'

/-- The value stored for a key. -/
def valueAt (h : KHashLfuCache κ ν) (key : κ) : Option ν := (h.slice key).valueAt key

/-- The value of the last put of the key since the last purge. -/
def lastPut (key : κ) (calls : List (LfuCall κ ν)) : Option ν :=
  calls.foldl (fun last call =>
    match call with
    | .put k value _ => if k = key then some value else last
    | .get _ _ => last
    | .purge => none) none

/-- The call leaves the key alone: it is no put of it, and no purge. -/
def Spares (key : κ) : LfuCall κ ν → Prop
  | .put k _ _ => k ≠ key
  | .get _ _ => True
  | .purge => False

/-- A put of another key of the slice has removed the key, and it has not been put since. -/
def Evicted (h₀ : KHashLfuCache κ ν) (calls : List (LfuCall κ ν)) (key : κ) : Prop :=
  ∃ before key' value visit after h h', calls = before++.put key' value visit :: after ∧
    Run Step h₀ before h ∧ h.put key' value visit = some h' ∧
    key' ≠ key ∧ h.sliceIndex key' = h.sliceIndex key ∧
    h.valueAt key ≠ none ∧ h'.valueAt key = none ∧ ∀ call ∈ after, Spares key call

variable {h h' h₀ : KHashLfuCache κ ν} {calls : List (LfuCall κ ν)} {call : LfuCall κ ν} {key k : κ}
  {value : ν} {visit : Iteration (LfuNode κ ν)} {c : KLfuCache κ ν}

theorem Evicted.snoc (he : Evicted h₀ calls key) (hcall : Spares key call) :
    Evicted h₀ (calls++[call]) key := by
  obtain ⟨before, key', value, visit, after, h, h', rfl, hrun, hput, hne, hslice, hsome, hnone,
    hafter⟩ := he
  refine ⟨before, key', value, visit, after++[call], h, h', by simp, hrun, hput, hne, hslice, hsome,
    hnone, ?_⟩
  intro call' hmem
  rcases List.mem_append.mp hmem with hmem | hmem
  · exact hafter call' hmem
  · obtain rfl := List.mem_singleton.mp hmem
    exact hcall

theorem lastPut_snoc (key : κ) (calls : List (LfuCall κ ν)) (call : LfuCall κ ν) :
    lastPut key (calls++[call]) =
      match call with
      | .put k value _ => if k = key then some value else lastPut key calls
      | .get _ _ => lastPut key calls
      | .purge => none := by
  rw [lastPut, List.foldl_append, List.foldl_cons, List.foldl_nil]
  rfl

theorem lastPut_of_spares (hcall : Spares key call) :
    lastPut key (calls++[call]) = lastPut key calls := by
  rw [lastPut_snoc]
  cases call with
  | put k value visit => exact if_neg hcall
  | get k visit => rfl
  | purge => exact hcall.elim

/-- A slice is sound, or it has no capacity and nothing in it. -/
def SliceSound (c : KLfuCache κ ν) : Prop := c.Sound ∨ (c.capacity = 0 ∧ c.nodeMap = [])

section Slices

omit [DecidableEq κ] in
theorem slice_setSlice (i : ℕ) :
    (h.setSlice i c).slice k = if h.sliceIndex k = i then c else h.slice k := by
  show Function.update h.lfuSliceCaches i c (h.sliceIndex k) = _
  by_cases hk : h.sliceIndex k = i
  · rw [if_pos hk, hk, Function.update_self]
  · rw [if_neg hk, Function.update_of_ne hk]
    rfl

theorem SliceSound.put (hc : SliceSound c) (key : κ) (value : ν)
    (visit : Iteration (LfuNode κ ν)) :
    ∃ c', c.put key value visit = some c' ∧ SliceSound c' ∧ c'.capacity = c.capacity ∧
      (c.capacity ≠ 0 → c'.valueAt key = some value) ∧
      ∀ k, k ≠ key → c'.valueAt k = c.valueAt k ∨ (c.valueAt k ≠ none ∧ c'.valueAt k = none) := by
  rcases hc with hsound | ⟨hzero, hempty⟩
  · obtain ⟨c', hput, houtcome⟩ := hsound.put key value visit
    refine ⟨c', hput, .inl houtcome.sound, houtcome.capacity, fun _ => houtcome.stored, ?_⟩
    intro k hk
    rcases houtcome.others k hk with hsame | ⟨hnone, n, hn, rfl, -⟩
    · exact .inl hsame
    · refine .inr ⟨?_, hnone⟩
      rw [KLfuCache.valueAt, hsound.linked.find_of_mem hn]
      exact Option.some_ne_none _
  · exact ⟨c, if_pos hzero, .inr ⟨hzero, hempty⟩, rfl, fun hne => absurd hzero hne,
      fun k _ => .inl rfl⟩

theorem SliceSound.get (hc : SliceSound c) (key : κ) (visit : Iteration (LfuNode κ ν)) :
    ∃ c', c.get key visit = some (c.valueAt key, c') ∧ SliceSound c' ∧ c'.capacity = c.capacity ∧
      ∀ k, c'.valueAt k = c.valueAt k := by
  rcases hc with hsound | ⟨hzero, hempty⟩
  · obtain ⟨c', hget, hsound', hkept⟩ := hsound.get key visit
    exact ⟨c', hget, .inl hsound', hkept.capacity, hkept.valueAt hsound.linked hsound'.linked⟩
  · have hfind : c.find key = none := by
      rw [KLfuCache.find, hempty]
      rfl
    refine ⟨c, ?_, .inr ⟨hzero, hempty⟩, rfl, fun _ => rfl⟩
    rw [KLfuCache.get, KLfuCache.valueAt, hfind]
    rfl

omit [DecidableEq κ] in
theorem SliceSound.purge (hc : SliceSound c) : SliceSound c.purge :=
  hc.imp (fun hsound => hsound.purge) (fun hempty => ⟨hempty.1, rfl⟩)

end Slices

/-- What is stored after these calls, and why a key is not. -/
structure Explained (h₀ : KHashLfuCache κ ν) (calls : List (LfuCall κ ν)) (h : KHashLfuCache κ ν) :
    Prop where
  run : Run Step h₀ calls h
  slices : ∀ i, SliceSound (h.lfuSliceCaches i)
  hit : ∀ key value, h.valueAt key = some value → lastPut key calls = some value
  miss : ∀ key, h.valueAt key = none →
    lastPut key calls = none ∨ Evicted h₀ calls key ∨ (h.slice key).capacity = 0

omit [DecidableEq κ] in
theorem setSlice_sound (hslices : ∀ i, SliceSound (h.lfuSliceCaches i)) (hc : SliceSound c)
    (i j : ℕ) : SliceSound ((h.setSlice i c).lfuSliceCaches j) := by
  show SliceSound (Function.update h.lfuSliceCaches i c j)
  by_cases hj : j = i
  · rw [hj, Function.update_self]
    exact hc
  · rw [Function.update_of_ne hj]
    exact hslices j

/-- A key that the call leaves alone, and that has what it had. -/
theorem Explained.spared (he : Explained h₀ calls h) (hcall : Spares key call)
    (hvalue : h'.valueAt key = h.valueAt key)
    (hcapacity : (h'.slice key).capacity = (h.slice key).capacity) :
    (∀ value, h'.valueAt key = some value → lastPut key (calls++[call]) = some value) ∧
      (h'.valueAt key = none → lastPut key (calls++[call]) = none ∨
        Evicted h₀ (calls++[call]) key ∨ (h'.slice key).capacity = 0) := by
  rw [lastPut_of_spares hcall, hvalue, hcapacity]
  refine ⟨he.hit key, ?_⟩
  intro hnone
  exact (he.miss key hnone).imp_right (fun h => h.imp_left (fun h => h.snoc hcall))

/-- What a put does to the keys of the cache. -/
structure PutKeys (h : KHashLfuCache κ ν) (key : κ) (value : ν) (h' : KHashLfuCache κ ν) :
    Prop where
  slices : ∀ i, SliceSound (h'.lfuSliceCaches i)
  capacity : ∀ k, (h'.slice k).capacity = (h.slice k).capacity
  refused : (h.slice key).capacity = 0 → h'.valueAt key = none
  stored : (h.slice key).capacity ≠ 0 → h'.valueAt key = some value
  others : ∀ k, k ≠ key → h'.valueAt k = h.valueAt k ∨
    (h.sliceIndex key = h.sliceIndex k ∧ h.valueAt k ≠ none ∧ h'.valueAt k = none)

theorem put_keys (hslices : ∀ i, SliceSound (h.lfuSliceCaches i)) (key : κ) (value : ν)
    (visit : Iteration (LfuNode κ ν)) :
    ∃ h', h.put key value visit = some h' ∧ PutKeys h key value h' := by
  obtain ⟨c', hput, hsound, hcapacity, hstored, hothers⟩ :=
    SliceSound.put (hslices (h.sliceIndex key)) key value visit
  have hput' : h.put key value visit = some (h.setSlice (h.sliceIndex key) c') := by
    rw [KHashLfuCache.put, slice, hput]
    rfl
  have hown : (h.setSlice (h.sliceIndex key) c').slice key = c' := by
    rw [slice_setSlice, if_pos rfl]
  refine ⟨_, hput', setSlice_sound hslices hsound _, ?_, ?_, ?_, ?_⟩
  · intro k
    rw [slice_setSlice]
    split_ifs with hk
    · rw [hcapacity, slice, hk]
    · rfl
  · intro hzero
    rw [valueAt, hown]
    rcases hsound with hsound | ⟨-, hempty⟩
    · exact absurd (hcapacity.trans hzero) (Nat.ne_of_gt hsound.capacity_pos)
    · rw [KLfuCache.valueAt, KLfuCache.find, hempty]
      rfl
  · intro hpos
    rw [valueAt, hown]
    exact hstored hpos
  · intro k hk
    rw [valueAt, slice_setSlice]
    split_ifs with hsame
    · -- another key of the slice
      have hold : (h.lfuSliceCaches (h.sliceIndex key)).valueAt k = h.valueAt k := by
        rw [valueAt, slice, hsame]
      rcases hothers k hk with hkept | ⟨hsome, hnone⟩
      · exact .inl (hkept.trans hold)
      · exact .inr ⟨hsame.symm, hold ▸ hsome, hnone⟩
    · exact .inl rfl

theorem Explained.put (he : Explained h₀ calls h) (key : κ) (value : ν)
    (visit : Iteration (LfuNode κ ν)) :
    ∃ h', h.put key value visit = some h' ∧
      Explained h₀ (calls++[.put key value visit]) h' := by
  obtain ⟨h', hput, hkeys⟩ := put_keys he.slices key value visit
  have hlast : lastPut key (calls++[.put key value visit]) = some value := by
    rw [lastPut_snoc]
    exact if_pos rfl
  -- The key that is put, a key that is evicted, and the rest.
  have hvalues : ∀ k,
      (∀ v, h'.valueAt k = some v → lastPut k (calls++[.put key value visit]) = some v) ∧
      (h'.valueAt k = none → lastPut k (calls++[.put key value visit]) = none ∨
        Evicted h₀ (calls++[.put key value visit]) k ∨ (h'.slice k).capacity = 0) := by
    intro k
    by_cases hk : k = key
    · subst hk
      rw [hlast]
      by_cases hzero : (h.slice k).capacity = 0
      · rw [hkeys.refused hzero]
        refine ⟨by simp, fun _ => .inr (.inr ?_)⟩
        exact (hkeys.capacity k).trans hzero
      · rw [hkeys.stored hzero]
        exact ⟨fun v hv => hv, by simp⟩
    · rcases hkeys.others k hk with hkept | ⟨hslice, hsome, hnone⟩
      · exact he.spared (Ne.symm hk) hkept (hkeys.capacity k)
      · refine ⟨?_, fun _ => .inr (.inl ?_)⟩
        · intro v hv
          rw [hnone] at hv
          simp at hv
        · exact ⟨calls, key, value, visit, [], h, h', rfl, he.run, hput, Ne.symm hk, hslice, hsome,
            hnone, by simp⟩
  exact ⟨h', hput, he.run.snoc hput, hkeys.slices, fun k => (hvalues k).1, fun k => (hvalues k).2⟩

/-- A get gives what is stored, and takes nothing away. -/
theorem get_keys (hslices : ∀ i, SliceSound (h.lfuSliceCaches i)) (key : κ)
    (visit : Iteration (LfuNode κ ν)) :
    ∃ h', h.get key visit = some (h.valueAt key, h') ∧
      (∀ i, SliceSound (h'.lfuSliceCaches i)) ∧
      ∀ k, h'.valueAt k = h.valueAt k ∧ (h'.slice k).capacity = (h.slice k).capacity := by
  obtain ⟨c', hget, hsound, hcapacity, hvalues⟩ :=
    SliceSound.get (hslices (h.sliceIndex key)) key visit
  have hget' : h.get key visit =
      some (h.valueAt key, h.setSlice (h.sliceIndex key) c') := by
    rw [KHashLfuCache.get, slice, hget]
    rfl
  refine ⟨_, hget', setSlice_sound hslices hsound _, ?_⟩
  intro k
  rw [valueAt, valueAt, slice_setSlice]
  split_ifs with hk
  · rw [slice, hk, hvalues, hcapacity]
    exact ⟨rfl, rfl⟩
  · exact ⟨rfl, rfl⟩

theorem Explained.get (he : Explained h₀ calls h) (key : κ) (visit : Iteration (LfuNode κ ν)) :
    ∃ h', h.get key visit = some (h.valueAt key, h') ∧ (∀ k, h'.valueAt k = h.valueAt k) ∧
      Explained h₀ (calls++[.get key visit]) h' := by
  obtain ⟨h', hget, hslices, hsame⟩ := get_keys he.slices key visit
  have hnext : Step h (.get key visit) h' := by
    rw [Step, next, hget]
    rfl
  have hspared (k : κ) := he.spared (show Spares k (.get key visit) from trivial) (hsame k).1
    (hsame k).2
  exact ⟨h', hget, fun k => (hsame k).1, he.run.snoc hnext, hslices,
    fun k => (hspared k).1, fun k => (hspared k).2⟩

theorem Explained.purge (he : Explained h₀ calls h) : Explained h₀ (calls++[.purge]) h.purge := by
  have hnone : ∀ k, h.purge.valueAt k = none := fun k => rfl
  refine ⟨he.run.snoc rfl, fun i => (he.slices i).purge, ?_, ?_⟩
  · intro k v hv
    rw [hnone] at hv
    simp at hv
  · intro k _
    rw [lastPut_snoc]
    exact .inl rfl

theorem Explained.next (he : Explained h₀ calls h) (call : LfuCall κ ν) :
    ∃ h', Explained h₀ (calls++[call]) h' := by
  cases call with
  | put key value visit =>
    obtain ⟨h', -, hexplained⟩ := he.put key value visit
    exact ⟨h', hexplained⟩
  | get key visit =>
    obtain ⟨h', -, -, hexplained⟩ := he.get key visit
    exact ⟨h', hexplained⟩
  | purge => exact ⟨h.purge, he.purge⟩

omit [DecidableEq κ] in
theorem sliceSound_new (hash : κ → ℕ) (capacity sliceNum i : ℕ) :
    SliceSound ((new hash capacity sliceNum : KHashLfuCache κ ν).lfuSliceCaches i) := by
  by_cases hzero : (capacity+sliceNum-1) / sliceNum = 0
  · exact .inr ⟨hzero, rfl⟩
  · exact .inl (KLfuCache.sound_new (Nat.one_le_iff_ne_zero.mpr hzero) (by decide) (by decide))

theorem exists_explained (hash : κ → ℕ) (capacity sliceNum : ℕ) (calls : List (LfuCall κ ν)) :
    ∃ h, Explained (new hash capacity sliceNum) calls h := by
  induction calls using List.reverseRecOn with
  | nil =>
    refine ⟨_, .nil _, sliceSound_new hash capacity sliceNum, ?_, ?_⟩
    · intro key value hv
      simp [valueAt, slice, new, KLfuCache.valueAt, KLfuCache.find] at hv
    · intro key _
      exact .inl rfl
  | append_singleton calls call ih =>
    obtain ⟨h, he⟩ := ih
    exact he.next call

/-- After any calls, every get succeeds: it returns the value of the last put of the key, or
misses because there is none, because a put of another key of the slice has evicted it, or
because the slice has no capacity. It changes no value. -/
theorem hashLfu_values (hash : κ → ℕ) (capacity sliceNum : ℕ) (calls : List (LfuCall κ ν)) :
    ∃ h : KHashLfuCache κ ν, Run Step (new hash capacity sliceNum) calls h ∧
      ∀ key visit, ∃ result h', h.get key visit = some (result, h') ∧
        (∀ value, result = some value → lastPut key calls = some value) ∧
        (result = none → lastPut key calls = none ∨
          Evicted (new hash capacity sliceNum) calls key ∨ (h.slice key).capacity = 0) ∧
        ∀ k, h'.valueAt k = h.valueAt k := by
  obtain ⟨h, he⟩ := exists_explained hash capacity sliceNum calls
  refine ⟨h, he.run, ?_⟩
  intro key visit
  obtain ⟨h', hget, hsame, -⟩ := he.get key visit
  exact ⟨h.valueAt key, h', hget, he.hit key, he.miss key, hsame⟩

end KHashLfuCache

end JingjieAR
