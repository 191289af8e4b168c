import JingjieAR.CacheEntryText
import JingjieAR.CacheTraceModel
import Mathlib.Tactic.Common

/-! What the cache of two levels makes of markers and of entries. A look takes the marker of an
absent key for a miss, so it keeps no load from being run; and it takes an empty file in the first
level for such a marker. Everything else is found again. -/
namespace JingjieAR

open Runs (Run Guarded)
open TwoLevelCache (Meets redisKey serialize deserialize Decodes)

/-- What a look takes for a marker. -/
def Blank (v : CachedFileEntry) : Prop := v.fileSize = 0 ∧ v.content = []

instance (v : CachedFileEntry) : Decidable (Blank v) :=
  inferInstanceAs (Decidable (v.fileSize = 0 ∧ v.content = []))

namespace Stored

/-- The text that stands in Redis for it, and the values that stand in the first level. -/
def text : Stored → Bytes
  | marker => []
  | entry e => serialize e

def Fits : Stored → CachedFileEntry → Prop
  | marker, v => Blank v
  | entry e, v => v = e

end Stored

namespace CacheTrace

variable {s s' : CacheTrace} {key k : Bytes} {entry e v : CachedFileEntry} {m : Meets}
  {st : Stored} {found : Except StdException (Bool × CachedFileEntry)}

structure Inv (s : CacheTrace) : Prop where
  slices : ∀ i, KHashLfuCache.SliceSound (s.cache.l1Cache.lfuSliceCaches i)
  level1 : ∀ key v st, s.value key = some v → s.given1 key = some st → st.Fits v
  level2 : ∀ rk val key st, s.cache.redis rk = some val → s.given2 rk = some (key, st) →
    val = st.text

theorem Inv.held1 (h : s.Inv) (hst : s.held1 key = some st) :
    ∃ v, s.value key = some v ∧ st.Fits v := by
  simp only [CacheTrace.held1, Option.ite_none_right_eq_some] at hst
  obtain ⟨v, hv⟩ := Option.isSome_iff_exists.mp hst.1
  exact ⟨v, hv, h.level1 key v st hv hst.2⟩

theorem Inv.held2 (h : s.Inv) (hst : s.held2 key = some st) :
    s.cache.redis (redisKey key) = some (st.text) := by
  simp only [CacheTrace.held2, Option.ite_none_right_eq_some] at hst
  obtain ⟨val, hval⟩ := Option.isSome_iff_exists.mp hst.1
  obtain ⟨⟨key', st'⟩, hgiven, hsame⟩ := Option.bind_eq_some_iff.mp hst.2
  obtain ⟨rfl, rfl⟩ := by simpa using hsame
  rw [hval, h.level2 _ val _ _ hval hgiven]

/-- Nothing has changed in either level. -/
structure Kept (s s' : CacheTrace) : Prop where
  slices : ∀ i, KHashLfuCache.SliceSound (s'.cache.l1Cache.lfuSliceCaches i)
  value : ∀ k, s'.value k = s.value k
  redis : s'.cache.redis = s.cache.redis
  given1 : ∀ k, (s.value k).isSome → s'.given1 k = s.given1 k
  given2 : s'.given2 = s.given2

/-- The first level was given a value for the key; it may have dropped another one for it. -/
structure Filled (s : CacheTrace) (key : Bytes) (v : CachedFileEntry) (s' : CacheTrace) : Prop where
  slices : ∀ i, KHashLfuCache.SliceSound (s'.cache.l1Cache.lfuSliceCaches i)
  own : s'.value key = none ∨ s'.value key = some v
  others : ∀ k, k ≠ key → s'.value k = none ∨ s'.value k = s.value k

/-- How a look ends. -/
inductive Look (s : CacheTrace) (key : Bytes) (entry : CachedFileEntry) (m : Meets) :
    Except StdException (Bool × CachedFileEntry) → CacheTrace → Prop
  | hit {v : CachedFileEntry} {s' : CacheTrace} (hv : s.value key = some v) (hkept : Kept s s') :
      Look s key entry m (.ok (decide (¬Blank v), v)) s'
  | miss {s' : CacheTrace} (hv : s.value key = none) (hkept : Kept s s')
      (hredis : ∀ val e, s.cache.redis (redisKey key) = some val → val ≠ [] →
        m.result = .replied → deserialize val ≠ .ok (some e)) :
      Look s key entry m (.ok (false, entry)) s'
  | failed {x : StdException} {val : Bytes} {s' : CacheTrace} (hv : s.value key = none)
      (hkept : Kept s s') (hredis : s.cache.redis (redisKey key) = some val) (hval : val ≠ [])
      (hd : deserialize val = .error x) : Look s key entry m (.error x) s'
  | filled {val : Bytes} {e : CachedFileEntry} {s' : CacheTrace} (hv : s.value key = none)
      (hresult : m.result = .replied) (hredis : s.cache.redis (redisKey key) = some val)
      (hval : val ≠ []) (hd : deserialize val = .ok (some e)) (hfilled : Filled s key e s')
      (hsame : s'.cache.redis = s.cache.redis ∧ s'.given2 = s.given2 ∧
        s'.given1 = Function.update s.given1 key (s.held2 key)) :
      Look s key entry m (.ok (true, e)) s'

/-- A value that the first level is given is there afterwards, if anything is. -/
theorem filled_put {l1 : KHashLfuCache Bytes CachedFileEntry}
    (hslices : ∀ i, KHashLfuCache.SliceSound (l1.lfuSliceCaches i))
    (hsame : ∀ k, l1.valueAt k = s.value k) (key : Bytes) (v : CachedFileEntry)
    (visit : Iteration (LfuNode Bytes CachedFileEntry)) :
    ∃ l1', l1.put key v visit = some l1' ∧
      ∀ s' : CacheTrace, s'.cache.l1Cache = l1' → Filled s key v s' := by
  obtain ⟨l1', hput, hkeys⟩ := KHashLfuCache.put_keys hslices key v visit
  refine ⟨l1', hput, ?_⟩
  rintro s' rfl
  refine ⟨hkeys.slices, ?_, ?_⟩
  · by_cases hzero : (l1.slice key).capacity = 0
    · exact .inl (hkeys.refused hzero)
    · exact .inr (hkeys.stored hzero)
  · intro k hk
    rcases hkeys.others k hk with hkept | ⟨-, -, hnone⟩
    · exact .inr (hkept.trans (hsame k))
    · exact .inl hnone

/-- The second level has no entry to give, or one that does not parse, or one that is put into the
first level. -/
theorem getRedis_cases (c : TwoLevelCache) (key : Bytes) (entry : CachedFileEntry) (m : Meets) :
    (c.getRedis key entry m = some (.ok (false, entry), c) ∧
      ∀ val e, c.redis (redisKey key) = some val → val ≠ [] → m.result = .replied →
        deserialize val ≠ .ok (some e)) ∨
    ∃ val, m.result = .replied ∧ c.redis (redisKey key) = some val ∧ val ≠ [] ∧
      ((∃ x, deserialize val = .error x ∧ c.getRedis key entry m = some (.error x, c)) ∨
        ∃ e, deserialize val = .ok (some e) ∧ c.getRedis key entry m =
          (c.l1Cache.put key e m.visitPut).map
            (fun l1 => (.ok (true, e), { c with l1Cache := l1 }))) := by
  cases hresult : m.result with
  | lost => exact .inl ⟨by simp only [TwoLevelCache.getRedis, hresult], by simp⟩
  | unreached => exact .inl ⟨by simp only [TwoLevelCache.getRedis, hresult], by simp⟩
  | replied =>
    cases hredis : c.redis (redisKey key) with
    | none => exact .inl ⟨by simp only [TwoLevelCache.getRedis, hresult, hredis], by simp⟩
    | some val =>
      by_cases hval : val = []
      · refine .inl ⟨by simp only [TwoLevelCache.getRedis, hresult, hredis, hval, if_true], ?_⟩
        intro val' e hval' hne
        obtain rfl := Option.some.inj hval'
        exact absurd hval hne
      · cases hd : deserialize val with
        | error x =>
          refine .inr ⟨val, rfl, rfl, hval, .inl ⟨x, hd, ?_⟩⟩
          simp only [TwoLevelCache.getRedis, hresult, hredis, hval, hd, if_false]
        | ok read =>
          cases read with
          | none =>
            refine .inl ⟨?_, ?_⟩
            · simp only [TwoLevelCache.getRedis, hresult, hredis, hval, hd, if_false]
            · intro val' e hval' _ _ hread
              obtain rfl := Option.some.inj hval'
              rw [hd] at hread
              simp at hread
          | some e =>
            refine .inr ⟨val, rfl, rfl, hval, .inr ⟨e, hd, ?_⟩⟩
            simp only [TwoLevelCache.getRedis, hresult, hredis, hval, hd, if_false]

theorem get_look (h : s.Inv) (key : Bytes) (entry : CachedFileEntry) (m : Meets) :
    ∃ found s', s.get key entry m = some (found, s') ∧ Look s key entry m found s' := by
  obtain ⟨l1, hget, hslices, hsame⟩ := KHashLfuCache.get_keys h.slices key m.visit
  let c : TwoLevelCache := { s.cache with l1Cache := l1 }
  -- where the first level is left as it is
  have hkept : ∀ given1 : Bytes → Option Stored,
      (∀ k, (s.value k).isSome → given1 k = s.given1 k) →
      Kept s { s with cache := c, given1 := given1 } :=
    fun given1 hgiven1 => ⟨hslices, fun k => (hsame k).1, rfl, hgiven1, rfl⟩
  cases hv : s.value key with
  | some v =>
    have hcache : s.cache.get key entry m = some (.ok (decide (¬Blank v), v), c) := by
      have hvalue : s.cache.l1Cache.valueAt key = some v := hv
      simp only [TwoLevelCache.get, hget, hvalue]
      cases hcontent : v.content <;> simp [Blank, hcontent, c]
    have htrace := congrArg (Option.map (fun r => (r.1,
      ({ s with cache := r.2, given1 := s.given1 } : CacheTrace)))) hcache
    refine ⟨_, _, ?_, .hit hv (hkept s.given1 (fun k _ => rfl))⟩
    simp only [CacheTrace.get, hv, Option.isSome_some, if_true]
    exact htrace
  | none =>
    have hcache : s.cache.get key entry m = c.getRedis key entry m := by
      have hvalue : s.cache.l1Cache.valueAt key = none := hv
      simp only [TwoLevelCache.get, hget, hvalue, c]
    have hnone : ∀ k, (s.value k).isSome →
        Function.update s.given1 key (s.held2 key) k = s.given1 k := by
      intro k hk
      refine Function.update_of_ne ?_ _ _
      rintro rfl
      simp [hv] at hk
    have htrace : ∀ found c', c.getRedis key entry m = some (found, c') →
        s.get key entry m = some (found, { s with
          cache := c', given1 := Function.update s.given1 key (s.held2 key) }) := by
      intro found c' hanswer
      simp only [CacheTrace.get, hcache, hanswer, Option.map_some, hv, Option.isSome_none,
        Bool.false_eq_true, if_false]
    rcases getRedis_cases c key entry m with ⟨hanswer, hredis⟩ |
      ⟨val, hresult, hredis, hval, ⟨x, hd, hanswer⟩ | ⟨e, hd, hanswer⟩⟩
    · exact ⟨_, _, htrace _ _ hanswer, .miss hv (hkept _ hnone) hredis⟩
    · exact ⟨_, _, htrace _ _ hanswer, .failed hv (hkept _ hnone) hredis hval hd⟩
    · obtain ⟨l1', hput, hfilled⟩ :=
        filled_put (s := s) hslices (fun k => (hsame k).1) key e m.visitPut
      rw [show c.l1Cache = l1 from rfl, hput] at hanswer
      exact ⟨_, _, htrace _ _ hanswer, .filled hv hresult hredis hval hd (hfilled _ rfl)
        ⟨rfl, rfl, rfl⟩⟩

/-- An entry in the second level is one that can be read back. -/
def Readable (s : CacheTrace) (key : Bytes) : Prop :=
  ∀ e, s.value key = none → s.held2 key = some (.entry e) → Decodes e

theorem Inv.kept (h : s.Inv) (hkept : Kept s s') : s'.Inv := by
  refine ⟨hkept.slices, ?_, ?_⟩
  · intro key v st hv hst
    rw [hkept.value] at hv
    rw [hkept.given1 key (by simp [hv])] at hst
    exact h.level1 key v st hv hst
  · intro rk val key st hval hst
    rw [hkept.redis] at hval
    rw [hkept.given2] at hst
    exact h.level2 rk val key st hval hst

theorem Inv.filled (h : s.Inv) (hfilled : Filled s key v s') {given : Option Stored}
    (hgiven : s'.given1 = Function.update s.given1 key given)
    (hfits : ∀ st, given = some st → st.Fits v)
    (hlevel2 : ∀ rk val key st, s'.cache.redis rk = some val → s'.given2 rk = some (key, st) →
      val = st.text) : s'.Inv := by
  refine ⟨hfilled.slices, ?_, hlevel2⟩
  intro k w st hw hst
  rw [hgiven] at hst
  by_cases hk : k = key
  · -- a slice without room holds nothing, and every other one the new value
    subst hk
    rw [Function.update_self] at hst
    rcases hfilled.own with hnone | hsome
    · rw [hnone] at hw
      simp at hw
    · obtain rfl := Option.some.inj (hsome.symm.trans hw)
      exact hfits st hst
  · rw [Function.update_of_ne hk] at hst
    rcases hfilled.others k hk with hnone | hsame
    · rw [hnone] at hw
      simp at hw
    · exact h.level1 k w st (hsame.symm.trans hw) hst

/-- A look that fills the first level fills it with what the second one was given. -/
theorem Inv.look (h : s.Inv) (hreadable : s.Readable key) (hlook : Look s key entry m found s') :
    s'.Inv := by
  cases hlook with
  | hit hv hkept => exact h.kept hkept
  | miss hv hkept hredis => exact h.kept hkept
  | failed hv hkept hredis hval hd => exact h.kept hkept
  | filled hv hresult hredis hval hd hfilled hsame =>
    obtain ⟨hredis', hgiven2, hgiven1⟩ := hsame
    -- the text that was read is the one that was given
    refine h.filled hfilled hgiven1 ?_ ?_
    · intro st hst
      have htext := hredis.symm.trans (h.held2 hst)
      cases st with
      | marker => exact absurd (Option.some.inj htext) hval
      | entry e =>
        have hread := (TwoLevelCache.deserialize_serialize_iff e).mpr (hreadable e hv hst)
        obtain rfl : _ = serialize e := Option.some.inj htext
        rw [hd] at hread
        simpa [Stored.Fits] using hread
    · rw [hredis', hgiven2]
      exact h.level2

/-- Both levels take what stands for the same. -/
theorem store_note (h : s.Inv) (key : Bytes) (hfits : st.Fits v) (m : Meets) :
    ∃ s', (s.cache.store key v st.text m).map (s.note key st m) = some s' ∧ s'.Inv := by
  obtain ⟨l1', hput, hfilled⟩ := filled_put (s := s) h.slices (fun _ => rfl) key v m.visitPut
  refine ⟨_, by simp only [TwoLevelCache.store, hput, Option.map_some]; rfl, ?_⟩
  have hlevel2 : ∀ rk val k st', Function.update s.cache.redis (redisKey key) (some st.text) rk =
      some val → Function.update s.given2 (redisKey key) (some (key, st)) rk = some (k, st') →
      val = st'.text := by
    intro rk val k st' hval hst
    -- two keys may have one Redis key; the note is of the one that came last, like the text
    by_cases hrk : rk = redisKey key
    · rw [hrk, Function.update_self] at hval hst
      obtain ⟨-, rfl⟩ := by simpa using hst
      exact (Option.some.inj hval).symm
    · rw [Function.update_of_ne hrk] at hval hst
      exact h.level2 rk val k st' hval hst
  refine h.filled (hfilled _ ?_) rfl ?_ ?_
  · cases m.result <;> rfl
  · intro st' hst'
    rwa [← Option.some.inj hst']
  · cases hresult : m.result with
    | unreached =>
      simp only [note, hresult, if_true]
      exact h.level2
    | replied => simpa [note, hresult] using hlevel2
    | lost => simpa [note, hresult] using hlevel2

theorem put_spec (h : s.Inv) (key : Bytes) (e : CachedFileEntry) (m : Meets) :
    ∃ s', s.put key e m = some s' ∧ s'.Inv := by
  have hfits : (Stored.entry e).Fits e := rfl
  exact store_note h key hfits m

theorem markNonexistent_spec (h : s.Inv) (key : Bytes) (m : Meets) :
    ∃ s', s.markNonexistent key m = some s' ∧ s'.Inv := by
  have hfits : Stored.marker.Fits { lastModified := m.now } := ⟨rfl, rfl⟩
  exact store_note h key hfits m

/-- The first level's entry for the key is no empty file, and the second level's, if it is asked,
comes back as it was given. -/
def Plain (s : CacheTrace) (key : Bytes) (m : Meets) : Prop :=
  (∀ e, s.held1 key = some (.entry e) → ¬Blank e) ∧
    ∀ e, s.value key = none → s.held2 key = some (.entry e) → m.result = .replied ∧ Decodes e

/-- What is held by the first level is its value. -/
theorem value_of_held1 (h : s.Inv) (hst : s.held1 key = some (.entry e)) : s.value key = some e := by
  obtain ⟨v, hv, hfits⟩ := h.held1 hst
  obtain rfl : v = e := hfits
  exact hv

theorem Look.found_of_value (hlook : Look s key entry m found s') (hv : s.value key = some e) :
    found = .ok (true, e) ↔ ¬Blank e := by
  cases hlook with
  | hit hv' hkept =>
    obtain rfl := Option.some.inj (hv.symm.trans hv')
    simp
  | miss hv' => simp [hv] at hv'
  | failed hv' => simp [hv] at hv'
  | filled hv' => simp [hv] at hv'

theorem Look.found_of_serialized (hlook : Look s key entry m found s') (hv : s.value key = none)
    (htext : s.cache.redis (redisKey key) = some (serialize e)) :
    found = .ok (true, e) ↔ m.result = .replied ∧ Decodes e := by
  rw [← TwoLevelCache.deserialize_serialize_iff]
  cases hlook with
  | hit hv' => simp [hv] at hv'
  | miss hv' hkept hredis =>
    have hnot := hredis _ e htext (TwoLevelCache.serialize_ne_nil e)
    simpa using hnot
  | failed hv' hkept hredis hval hd =>
    obtain rfl : _ = serialize e := Option.some.inj (hredis.symm.trans htext)
    simp [hd]
  | filled hv' hresult hredis hval hd =>
    obtain rfl : _ = serialize e := Option.some.inj (hredis.symm.trans htext)
    simp [hd, hresult]

theorem finds_iff (h : s.Inv) : s.Finds key entry m ↔ s.Plain key m := by
  obtain ⟨found, s', hget, hlook⟩ := get_look h key entry m
  have hfirst : ∀ e, s.held1 key = some (.entry e) → (found = .ok (true, e) ↔ ¬Blank e) :=
    fun e hst => hlook.found_of_value (value_of_held1 h hst)
  have hsecond : ∀ e, s.value key = none → s.held2 key = some (.entry e) →
      (found = .ok (true, e) ↔ m.result = .replied ∧ Decodes e) :=
    fun e hv hst => hlook.found_of_serialized hv (h.held2 hst)
  -- there is one look, so its result is what has to be the entry
  have hfinds : s.Finds key entry m ↔ ∀ e, s.Present key e → found = .ok (true, e) := by
    refine forall_congr' fun e => imp_congr_right fun _ => ?_
    rw [hget]
    constructor
    · rintro ⟨s₁, hs₁⟩
      exact congrArg Prod.fst (Option.some.inj hs₁)
    · rintro rfl
      exact ⟨s', rfl⟩
  rw [hfinds]
  constructor
  · intro hall
    exact ⟨fun e hst => (hfirst e hst).mp (hall e (.inl hst)),
      fun e hv hst => (hsecond e hv hst).mp (hall e (.inr ⟨hv, hst⟩))⟩
  · rintro ⟨hplain1, hplain2⟩ e (hst | ⟨hv, hst⟩)
    · exact (hfirst e hst).mpr (hplain1 e hst)
    · exact (hsecond e hv hst).mpr (hplain2 e hv hst)

/-- A look finds nothing, though there may be a marker. -/
def Missing (s : CacheTrace) (key : Bytes) : Prop :=
  (∃ v, s.value key = some v ∧ Blank v) ∨
    s.value key = none ∧ s.cache.redis (redisKey key) = some []

theorem look_missing (hmissing : s.Missing key) (hlook : Look s key entry m found s') :
    ∃ e, found = .ok (false, e) ∧ s'.Missing key := by
  have hkept' : Kept s s' → s'.Missing key := by
    intro hkept
    unfold Missing
    rw [hkept.value, hkept.redis]
    exact hmissing
  rcases hmissing with ⟨v, hv, hblank⟩ | ⟨hv, hempty⟩
  · -- the first level's value overwrites the entry, and is no hit
    cases hlook with
    | hit hv' hkept =>
      obtain rfl := Option.some.inj (hv.symm.trans hv')
      exact ⟨v, by simp [hblank], hkept' hkept⟩
    | miss hv' => simp [hv] at hv'
    | failed hv' => simp [hv] at hv'
    | filled hv' => simp [hv] at hv'
  · cases hlook with
    | hit hv' => simp [hv] at hv'
    | miss hv' hkept => exact ⟨entry, rfl, hkept' hkept⟩
    | failed hv' hkept hredis hval =>
      exact absurd (Option.some.inj (hredis.symm.trans hempty)) hval
    | filled hv' hresult hredis hval =>
      exact absurd (Option.some.inj (hredis.symm.trans hempty)) hval

/-- A marker is missing to a look unless the first level has an entry instead. -/
theorem missing_of_marked (h : s.Inv) (hmarked : s.Marked key)
    (hnot : ¬∃ v, s.value key = some v ∧ ¬Blank v) : s.Missing key := by
  cases hv : s.value key with
  | some v =>
    refine .inl ⟨v, hv, ?_⟩
    by_contra hblank
    exact hnot ⟨v, hv, hblank⟩
  | none =>
    rcases hmarked with hst | hst
    · obtain ⟨v, hv', -⟩ := h.held1 hst
      simp [hv] at hv'
    · exact .inr ⟨hv, h.held2 hst⟩

/-- What is missing to a look was not put into the second level. -/
theorem readable_of_missing (h : s.Inv) (hmissing : s.Missing key) : s.Readable key := by
  intro e hnone hst
  rcases hmissing with ⟨v, hv, -⟩ | ⟨-, hempty⟩
  · simp [hnone] at hv
  · have htext := hempty.symm.trans (h.held2 hst)
    exact absurd (Option.some.inj htext).symm (TwoLevelCache.serialize_ne_nil e)

section Rebuild

variable {again write : Meets} {outcome : LoadOutcome} {r : Rebuilt}

theorem rebuild_missing (h : s.Inv) (hmissing : s.Missing key)
    (hs : s.rebuild key entry again outcome write = some (r, s')) : r.loaded = true := by
  obtain ⟨found, s₁, hget, hlook⟩ := get_look h key entry again
  obtain ⟨e, rfl, -⟩ := look_missing hmissing hlook
  simp only [rebuild, hget, Option.bind_some] at hs
  cases outcome with
  | threw =>
    obtain ⟨rfl, -⟩ := by simpa using hs
    rfl
  | returned ok entry =>
    obtain ⟨s₂, -, hr⟩ := Option.map_eq_some_iff.mp hs
    obtain ⟨rfl, -⟩ := by simpa using hr
    rfl

theorem getOrLoad_missing (h : s.Inv) (hmissing : s.Missing key)
    (hs : s.getOrLoad key m again outcome write = some (r, s')) : r.loaded = true := by
  obtain ⟨found, s₁, hget, hlook⟩ := get_look h key {} m
  obtain ⟨e, rfl, hmissing₁⟩ := look_missing hmissing hlook
  simp only [getOrLoad, hget, Option.bind_some] at hs
  exact rebuild_missing (h.look (readable_of_missing h hmissing) hlook) hmissing₁ hs

/-- A marker keeps the load from being run only by way of an entry of the first level. -/
theorem kept_off_iff (h : s.Inv) (hmarked : s.Marked key) :
    (∃ entry s', s.getOrLoad key m again outcome write = some (⟨false, entry⟩, s')) ↔
      ∃ v, s.value key = some v ∧ ¬Blank v := by
  constructor
  · rintro ⟨entry, s', hs⟩
    by_contra hnot
    have hloaded := getOrLoad_missing h (missing_of_marked h hmarked hnot) hs
    simp at hloaded
  · rintro ⟨v, hv, hblank⟩
    obtain ⟨found, s₁, hget, hlook⟩ := get_look h key {} m
    cases hlook with
    | hit hv' hkept =>
      obtain rfl := Option.some.inj (hv.symm.trans hv')
      refine ⟨some v, s₁, ?_⟩
      simp only [getOrLoad, hget, Option.bind_some, hblank, not_false_eq_true, decide_true]
    | miss hv' => simp [hv] at hv'
    | failed hv' => simp [hv] at hv'
    | filled hv' => simp [hv] at hv'

end Rebuild

/-- The calls at which what is there comes out. An entry of the first level is no empty file; one
that only the second level has is asked for while Redis answers, and reads back; and of a key with
a marker the first level has an entry. -/
def Clear (s : CacheTrace) : CacheCall → Prop
  | .get key _ m => s.Plain key m
  | .getOrLoad key look _ _ _ =>
    s.Plain key look ∧ (s.Marked key → ∃ v, s.value key = some v ∧ ¬Blank v)
  | _ => True

theorem lawful_iff_clear_step (h : s.Inv) (call : CacheCall) : s.Lawful call ↔ s.Clear call := by
  cases call with
  | put key entry m => exact Iff.rfl
  | get key entry m => exact finds_iff h
  | markNonexistent key m => exact Iff.rfl
  | getOrLoad key look again outcome write =>
    exact and_congr (finds_iff h) (imp_congr_right fun hmarked => kept_off_iff h hmarked)
  | expire redisKey => exact Iff.rfl

theorem Plain.readable (h : s.Plain key m) : s.Readable key := fun e hv hst => (h.2 e hv hst).2

/-- A first look that leaves the key unfound has left the second one nothing to misread. -/
theorem Look.readable (hplain : s.Plain key m)
    (hlook : Look s key entry m (.ok (false, e)) s') : s'.Readable key := by
  intro e' hv' hst
  generalize hfound : Except.ok (false, e) = found at hlook
  cases hlook with
  | hit hv hkept =>
    rw [hkept.value, hv] at hv'
    simp at hv'
  | miss hv hkept hredis =>
    have hsame : s'.held2 key = s.held2 key := by
      simp only [CacheTrace.held2, hkept.redis, hkept.given2]
    obtain ⟨-, hdecodes⟩ := hplain.2 e' hv (hsame.symm.trans hst)
    exact hdecodes
  | failed => simp at hfound
  | filled => simp at hfound

theorem Inv.rebuild (h : s.Inv) {again write : Meets} {outcome : LoadOutcome} {r : Rebuilt}
    (hreadable : s.Readable key)
    (hs : s.rebuild key entry again outcome write = some (r, s')) : s'.Inv := by
  obtain ⟨found, s₁, hget, hlook⟩ := get_look h key entry again
  have h₁ := h.look hreadable hlook
  simp only [CacheTrace.rebuild, hget, Option.bind_some] at hs
  match found, hs with
  | .error x, hs =>
    obtain ⟨-, rfl⟩ := by simpa using hs
    exact h₁
  | .ok (true, e), hs =>
    obtain ⟨-, rfl⟩ := by simpa using hs
    exact h₁
  | .ok (false, e), hs =>
    cases outcome with
    | threw =>
      obtain ⟨-, rfl⟩ := by simpa using hs
      exact h₁
    | returned ok entry =>
      obtain ⟨s₂, hwrite, hr⟩ := Option.map_eq_some_iff.mp hs
      obtain ⟨-, rfl⟩ := by simpa using hr
      -- the result of the load is put, and its failure marked
      cases ok with
      | true =>
        obtain ⟨s₃, hput, h₃⟩ := put_spec h₁ key entry write
        obtain rfl := Option.some.inj (hput.symm.trans hwrite)
        exact h₃
      | false =>
        obtain ⟨s₃, hmark, h₃⟩ := markNonexistent_spec h₁ key write
        obtain rfl := Option.some.inj (hmark.symm.trans hwrite)
        exact h₃

theorem Inv.getOrLoad (h : s.Inv) {look again write : Meets} {outcome : LoadOutcome} {r : Rebuilt}
    (hplain : s.Plain key look)
    (hs : s.getOrLoad key look again outcome write = some (r, s')) : s'.Inv := by
  obtain ⟨found, s₁, hget, hlook⟩ := get_look h key {} look
  have h₁ := h.look hplain.readable hlook
  simp only [CacheTrace.getOrLoad, hget, Option.bind_some] at hs
  match found, hlook, hs with
  | .error x, _, hs =>
    obtain ⟨-, rfl⟩ := by simpa using hs
    exact h₁
  | .ok (true, e), _, hs =>
    obtain ⟨-, rfl⟩ := by simpa using hs
    exact h₁
  | .ok (false, e), hlook, hs => exact h₁.rebuild (hlook.readable hplain) hs

theorem Inv.step (h : s.Inv) {call : CacheCall} (hclear : s.Clear call) (hs : s.Step call s') :
    s'.Inv := by
  cases call with
  | put key entry m =>
    obtain ⟨s₁, hput, h₁⟩ := put_spec h key entry m
    obtain rfl := Option.some.inj (hput.symm.trans hs)
    exact h₁
  | get key entry m =>
    obtain ⟨found, s₁, hget, hlook⟩ := get_look h key entry m
    obtain rfl : s₁ = s' := by simpa [Step, next, hget] using hs
    exact h.look (Plain.readable hclear) hlook
  | markNonexistent key m =>
    obtain ⟨s₁, hmark, h₁⟩ := markNonexistent_spec h key m
    obtain rfl := Option.some.inj (hmark.symm.trans hs)
    exact h₁
  | getOrLoad key look again outcome write =>
    obtain ⟨⟨r, s₁⟩, hload, rfl⟩ := Option.map_eq_some_iff.mp hs
    exact h.getOrLoad hclear.1 hload
  | expire rk =>
    obtain rfl := Option.some.inj hs
    refine ⟨h.slices, h.level1, ?_⟩
    intro rk' val key st hval hst
    by_cases hrk : rk' = rk
    · simp [hrk] at hval
    · simp only [Function.update_of_ne hrk] at hval
      exact h.level2 rk' val key st hval hst

theorem inv_start (hash : Bytes → ℕ) (capacity sliceNum : ℕ) (redis : Bytes → Option Bytes) :
    (start hash capacity sliceNum redis).Inv := by
  refine ⟨KHashLfuCache.sliceSound_new hash capacity sliceNum, ?_, ?_⟩
  · intro key v st _ hst
    simp [start] at hst
  · intro rk val key st _ hst
    simp [start] at hst

/-- As long as calls are clear, a call does what the cache is for exactly when it is clear too. -/
theorem lawful_iff_clear {hash : Bytes → ℕ} {capacity sliceNum : ℕ} {redis : Bytes → Option Bytes}
    {calls : List CacheCall}
    (hr : Run (Guarded Clear Step) (start hash capacity sliceNum redis) calls s)
    (call : CacheCall) : s.Lawful call ↔ s.Clear call := by
  have h : s.Inv := hr.invariant (fun _ _ _ h hs => h.step hs.1 hs.2) (inv_start ..)
  exact lawful_iff_clear_step h call

section Runs

def page : Bytes := ascii "/page"

def pageEntry : CachedFileEntry where
  content := ascii "x"
  contentType := ascii "text/html"
  fileSize := 1

def small : CacheTrace := start (fun _ => 0) 2 1 (fun _ => none)

/-- A page that appears while Redis is away leaves the marker there. -/
theorem page_appears : ∃ s, Run (Guarded Clear Step) small
    [.markNonexistent page {}, .put page pageEntry { result := .unreached }] s ∧
    s.value page = some pageEntry ∧ s.held1 page = some (.entry pageEntry) ∧
    s.held2 page = some .marker := by
  refine ⟨_, .cons ⟨trivial, rfl⟩ (.cons ⟨trivial, rfl⟩ (.nil _)), ?_, ?_, ?_⟩
  · decide
  · decide
  · decide

theorem lawful_page : ∃ s, Run (Guarded Clear Step) small
    [.markNonexistent page {}, .put page pageEntry { result := .unreached }] s ∧
    s.Marked page ∧ s.Lawful (.getOrLoad page {} {} .threw {}) := by
  obtain ⟨s, hr, hvalue, hheld1, hheld2⟩ := page_appears
  have hblank : ¬Blank pageEntry := by decide
  refine ⟨s, hr, .inr hheld2, (lawful_iff_clear hr _).mpr ⟨⟨?_, ?_⟩, ?_⟩⟩
  · intro e hst
    obtain rfl : pageEntry = e := by simpa using hheld1.symm.trans hst
    exact hblank
  · intro e hv
    simp [hvalue] at hv
  · intro _
    exact ⟨pageEntry, hvalue, hblank⟩

/-- A marker in both levels, and the load is run. -/
theorem page_reloads : ∃ s, Run Step small [.markNonexistent page {}] s ∧
    s.held1 page = some .marker ∧
    (s.getOrLoad page {} {} (.returned true pageEntry) {}).map (·.1.loaded) = some true := by
  refine ⟨_, .cons rfl (.nil _), ?_, ?_⟩
  · decide
  · decide +kernel

/-- An empty file in both levels, and a look does not find it. -/
theorem empty_misses : ∃ s, Run Step small [.put page {} {}] s ∧
    s.held1 page = some (.entry {}) ∧
    (s.get page {} {}).map Prod.fst = some (.ok (false, {})) := by
  refine ⟨_, .cons rfl (.nil _), ?_, ?_⟩
  · decide
  · decide

/-- So neither half of what the cache is for holds of every run. -/
theorem unlawful_page :
    (∃ s, Run Step small [.markNonexistent page {}] s ∧ s.Marked page ∧
      ¬s.Lawful (.getOrLoad page {} {} (.returned true pageEntry) {})) ∧
    ∃ s, Run Step small [.put page {} {}] s ∧ s.Present page {} ∧ ¬s.Lawful (.get page {} {}) := by
  obtain ⟨s₁, hr₁, hmarker, hloaded⟩ := page_reloads
  obtain ⟨s₂, hr₂, hentry, hfound⟩ := empty_misses
  refine ⟨⟨s₁, hr₁, .inl hmarker, ?_⟩, s₂, hr₂, .inl hentry, ?_⟩
  · rintro ⟨-, hlawful⟩
    obtain ⟨entry, s', hs⟩ := hlawful (.inl hmarker)
    simp [hs] at hloaded
  · intro hlawful
    obtain ⟨s', hs⟩ := hlawful {} (.inl hentry)
    simp [hs] at hfound

end Runs

end CacheTrace

end JingjieAR
