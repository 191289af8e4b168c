import Mathlib.Data.List.Nodup
import Mathlib.Order.Lattice

/-! Maps whose entries are kept in the order of their keys, as an ordered container
of a standard library keeps and visits them. -/
namespace JingjieAR

variable {κ ν : Type*} [LinearOrder κ]

/-- Put the entry at its place; an entry with the same key is overwritten. -/
def insertEntry (k : κ) (v : ν) : List (κ × ν) → List (κ × ν)
  | [] => [(k,v)]
  | e :: es =>
    if k < e.1 then (k,v) :: e :: es
    else if e.1 < k then e :: insertEntry k v es
    else (k,v) :: es

theorem mem_insertEntry {k : κ} {v : ν} {es : List (κ × ν)} {e : κ × ν}
    (h : e ∈ insertEntry k v es) : e = (k,v) ∨ e ∈ es := by
  fun_induction insertEntry k v es with
  | case1 => simpa using h
  | case2 e' es hlt => simpa using h
  | case3 e' es hge hlt ih =>
    rcases List.mem_cons.mp h with rfl | h
    · exact .inr List.mem_cons_self
    · exact (ih h).imp_right (List.mem_cons_of_mem _)
  | case4 e' es hge hle =>
    rcases List.mem_cons.mp h with rfl | h
    · exact .inl rfl
    · exact .inr (List.mem_cons_of_mem _ h)

theorem insertEntry_sorted (k : κ) (v : ν) {es : List (κ × ν)}
    (h : es.Pairwise (fun a b => a.1 < b.1)) :
    (insertEntry k v es).Pairwise (fun a b => a.1 < b.1) := by
  fun_induction insertEntry k v es with
  | case1 => exact List.pairwise_singleton _ _
  | case2 e es hlt =>
    refine List.pairwise_cons.mpr ⟨?_, h⟩
    intro a ha
    rcases List.mem_cons.mp ha with rfl | ha
    · exact hlt
    · exact lt_trans hlt ((List.pairwise_cons.mp h).1 a ha)
  | case3 e es hge hlt ih =>
    obtain ⟨hhead, htail⟩ := List.pairwise_cons.mp h
    refine List.pairwise_cons.mpr ⟨?_, ih htail⟩
    intro a ha
    rcases mem_insertEntry ha with rfl | ha
    · exact hlt
    · exact hhead a ha
  | case4 e es hge hle =>
    obtain ⟨hhead, htail⟩ := List.pairwise_cons.mp h
    have he : e.1 = k := le_antisymm (not_lt.mp hge) (not_lt.mp hle)
    refine List.pairwise_cons.mpr ⟨?_, htail⟩
    intro a ha
    exact he ▸ hhead a ha

theorem find?_insertEntry (k k' : κ) (v : ν) (es : List (κ × ν)) :
    ((insertEntry k v es).find? (·.1 = k')).map Prod.snd =
      if k = k' then some v else (es.find? (·.1 = k')).map Prod.snd := by
  by_cases hk : k = k'
  · subst hk
    rw [if_pos rfl]
    fun_induction insertEntry k v es with
    | case1 => simp
    | case2 e es hlt => simp
    | case3 e es hge hlt ih =>
      rw [List.find?_cons_of_neg (by simpa using ne_of_lt hlt)]
      exact ih
    | case4 e es hge hle => simp
  · rw [if_neg hk]
    fun_induction insertEntry k v es with
    | case1 => simp [hk]
    | case2 e es hlt => rw [List.find?_cons_of_neg (by simpa using hk)]
    | case3 e es hge hlt ih =>
      by_cases he : e.1 = k'
      · simp [he]
      · rw [List.find?_cons_of_neg (by simpa using he), List.find?_cons_of_neg (by simpa using he)]
        exact ih
    | case4 e es hge hle =>
      have he : e.1 = k := le_antisymm (not_lt.mp hge) (not_lt.mp hle)
      rw [List.find?_cons_of_neg (by simpa using hk),
        List.find?_cons_of_neg (by simpa [he] using hk)]

structure OrderedMap (κ ν : Type*) [LinearOrder κ] where
  entries : List (κ × ν)
  sorted : entries.Pairwise (fun a b => a.1 < b.1)
deriving DecidableEq

namespace OrderedMap

def empty : OrderedMap κ ν := ⟨[], .nil⟩

@[simp] theorem entries_empty : (empty : OrderedMap κ ν).entries = [] := rfl

def insert (m : OrderedMap κ ν) (k : κ) (v : ν) : OrderedMap κ ν :=
  ⟨insertEntry k v m.entries, insertEntry_sorted k v m.sorted⟩

def find (m : OrderedMap κ ν) (k : κ) : Option ν :=
  (m.entries.find? (·.1 = k)).map Prod.snd

@[simp] theorem find_empty (k : κ) : (empty : OrderedMap κ ν).find k = none := rfl

theorem find_insert (m : OrderedMap κ ν) (k k' : κ) (v : ν) :
    (m.insert k v).find k' = if k = k' then some v else m.find k' :=
  find?_insertEntry k k' v m.entries

@[simp] theorem find_insert_self (m : OrderedMap κ ν) (k : κ) (v : ν) :
    (m.insert k v).find k = some v := by
  rw [find_insert, if_pos rfl]

theorem find_insert_of_ne (m : OrderedMap κ ν) {k k' : κ} (h : k ≠ k') (v : ν) :
    (m.insert k v).find k' = m.find k' := by
  rw [find_insert, if_neg h]

def erase (m : OrderedMap κ ν) (k : κ) : OrderedMap κ ν :=
  ⟨m.entries.filter (fun e => e.1 ≠ k), m.sorted.filter _⟩

theorem nodup_keys (m : OrderedMap κ ν) : (m.entries.map Prod.fst).Nodup :=
  List.pairwise_map.mpr (m.sorted.imp (fun h => ne_of_lt h))

theorem find_eq_some_iff {m : OrderedMap κ ν} {k : κ} {v : ν} :
    m.find k = some v ↔ (k,v) ∈ m.entries := by
  constructor
  · intro h
    obtain ⟨e, he, rfl⟩ := Option.map_eq_some_iff.mp h
    have hk : e.1 = k := by simpa using List.find?_some he
    have hmem := List.mem_of_find?_eq_some he
    rwa [← hk]
  · intro h
    have hsome : (m.entries.find? (·.1 = k)).isSome := by
      rw [List.find?_isSome]
      exact ⟨(k,v), h, by simp⟩
    obtain ⟨e, he⟩ := Option.isSome_iff_exists.mp hsome
    have hk : e.1 = k := by simpa using List.find?_some he
    -- The entry found has the same key, so it is the same entry.
    have heq : e = (k,v) :=
      List.inj_on_of_nodup_map m.nodup_keys (List.mem_of_find?_eq_some he) h hk
    rw [find, he, heq]
    rfl

/-- Maps that find the same are the same. -/
theorem ext_find {m m' : OrderedMap κ ν} (h : ∀ k, m.find k = m'.find k) : m = m' := by
  have hmem : ∀ e, e ∈ m.entries ↔ e ∈ m'.entries := by
    intro e
    rw [← find_eq_some_iff (m := m), ← find_eq_some_iff (m := m'), h]
  -- sorted lists with the same entries are the same
  have hperm : m.entries.Perm m'.entries :=
    (List.perm_ext_iff_of_nodup (.of_map _ m.nodup_keys) (.of_map _ m'.nodup_keys)).mpr hmem
  have hentries : m.entries = m'.entries :=
    hperm.eq_of_pairwise (fun a b _ _ hab hba => absurd hab (lt_asymm hba)) m.sorted m'.sorted
  cases m
  cases m'
  simpa using hentries

/-- Change every value. -/
def mapValues (m : OrderedMap κ ν) (f : ν → ν) : OrderedMap κ ν :=
  ⟨m.entries.map (Prod.map id f), List.pairwise_map.mpr m.sorted⟩

theorem find_mapValues (m : OrderedMap κ ν) (f : ν → ν) (k : κ) :
    (m.mapValues f).find k = (m.find k).map f := by
  simp [find, mapValues, List.find?_map, Function.comp_def]

/-- Insert the entries one after another. -/
def insertAll (m : OrderedMap κ ν) (es : List (κ × ν)) : OrderedMap κ ν :=
  es.foldl (fun m e => m.insert e.1 e.2) m

theorem find_insertAll_of_notMem {m : OrderedMap κ ν} {es : List (κ × ν)} {k : κ}
    (h : k ∉ es.map Prod.fst) : (m.insertAll es).find k = m.find k := by
  induction es generalizing m with
  | nil => rfl
  | cons e es ih =>
    obtain ⟨hne, hes⟩ := not_or.mp (List.mem_cons.not.mp h)
    exact (ih hes).trans (m.find_insert_of_ne (Ne.symm hne) e.2)

theorem find_insertAll_of_mem {m : OrderedMap κ ν} {es : List (κ × ν)} {k : κ} {v : ν}
    (hnodup : (es.map Prod.fst).Nodup) (h : (k,v) ∈ es) :
    (m.insertAll es).find k = some v := by
  induction es generalizing m with
  | nil => simp at h
  | cons e es ih =>
    obtain ⟨hnot, htail⟩ := List.nodup_cons.mp hnodup
    rcases List.mem_cons.mp h with rfl | h
    · exact (find_insertAll_of_notMem hnot).trans (m.find_insert_self k v)
    · exact ih htail h

/-- A map that is built from its own entries, in any order. -/
theorem insertAll_entries {m : OrderedMap κ ν} {es : List (κ × ν)} (h : es.Perm m.entries) :
    insertAll empty es = m := by
  have hnodup : (es.map Prod.fst).Nodup := (h.map Prod.fst).nodup_iff.mpr m.nodup_keys
  refine ext_find ?_
  intro k
  cases hfind : m.find k with
  | some v =>
    exact find_insertAll_of_mem hnodup (h.mem_iff.mpr (find_eq_some_iff.mp hfind))
  | none =>
    refine find_insertAll_of_notMem ?_
    intro hk
    -- an entry with this key would be found in the map
    obtain ⟨e, he, rfl⟩ := List.mem_map.mp hk
    have hsome : m.find e.1 = some e.2 := find_eq_some_iff.mpr (h.mem_iff.mp he)
    rw [hfind] at hsome
    simp at hsome

/-- Entries with different keys are the ones of the map that they are put into. -/
theorem perm_insertAll {es : List (κ × ν)} (hnodup : (es.map Prod.fst).Nodup) :
    es.Perm (insertAll empty es).entries := by
  rw [List.perm_ext_iff_of_nodup (.of_map _ hnodup) (.of_map _ (nodup_keys _))]
  rintro ⟨k,v⟩
  rw [← find_eq_some_iff]
  constructor
  · exact find_insertAll_of_mem hnodup
  · intro h
    by_cases hk : k ∈ es.map Prod.fst
    · obtain ⟨⟨k',v'⟩, he, rfl⟩ := List.mem_map.mp hk
      rw [find_insertAll_of_mem hnodup he] at h
      exact Option.some.inj h ▸ he
    · rw [find_insertAll_of_notMem hk] at h
      simp at h

end OrderedMap

/-- The order in which a hash table visits its entries. It may be any, and another one at
the next visit. -/
structure Iteration (α : Type*) where
  order : List α → List α
  perm : ∀ l, (order l).Perm l

/-- The order in which the entries happen to be listed. -/
def Iteration.id (α : Type*) : Iteration α := ⟨fun l => l, fun l => .refl l⟩

end JingjieAR
