import Mathlib.Data.Finmap

/-! Bindings that are put into a finite map one after another. The last binding of a key is the
one that is found. -/
namespace JingjieAR

variable {κ ν : Type*} [DecidableEq κ]

def insertBindings (m : Finmap (fun _ : κ => ν)) (bindings : List (κ × ν)) :
    Finmap (fun _ : κ => ν) :=
  bindings.foldl (fun m binding => m.insert binding.1 binding.2) m

/-- The value of the last binding of a key. -/
def lastBinding (bindings : List (κ × ν)) (k : κ) : Option ν :=
  ((bindings.filter (fun binding => binding.1 = k)).getLast?).map Prod.snd

theorem lastBinding_cons (binding : κ × ν) (bindings : List (κ × ν)) (k : κ) :
    lastBinding (binding :: bindings) k =
      (lastBinding bindings k).or (if binding.1 = k then some binding.2 else none) := by
  unfold lastBinding
  by_cases hk : binding.1 = k
  · rw [List.filter_cons_of_pos (by simpa using hk), if_pos hk, List.getLast?_cons]
    cases (bindings.filter (fun binding => binding.1 = k)).getLast? with
    | none => rfl
    | some last => rfl
  · rw [List.filter_cons_of_neg (by simpa using hk), if_neg hk, Option.or_none]

theorem lookup_insertBindings (m : Finmap (fun _ : κ => ν)) (bindings : List (κ × ν)) (k : κ) :
    (insertBindings m bindings).lookup k = (lastBinding bindings k).or (m.lookup k) := by
  induction bindings generalizing m with
  | nil => rfl
  | cons binding bindings ih =>
    have hstep : insertBindings m (binding :: bindings) =
        insertBindings (m.insert binding.1 binding.2) bindings := rfl
    rw [hstep, ih, lastBinding_cons, Option.or_assoc]
    by_cases hk : binding.1 = k
    · subst hk
      rw [Finmap.lookup_insert, if_pos rfl]
      rfl
    · rw [Finmap.lookup_insert_of_ne _ (Ne.symm hk), if_neg hk, Option.none_or]

theorem mem_of_lastBinding {bindings : List (κ × ν)} {k : κ} {v : ν}
    (h : lastBinding bindings k = some v) : (k, v) ∈ bindings := by
  obtain ⟨⟨k', v'⟩, hlast, rfl⟩ := Option.map_eq_some_iff.mp h
  obtain ⟨hmem, hk⟩ := List.mem_filter.mp (List.mem_of_getLast? hlast)
  obtain rfl : k' = k := by simpa using hk
  exact hmem

theorem lastBinding_eq_none_iff {bindings : List (κ × ν)} {k : κ} :
    lastBinding bindings k = none ↔ ∀ v, (k, v) ∉ bindings := by
  rw [lastBinding, Option.map_eq_none_iff, List.getLast?_eq_none_iff, List.filter_eq_nil_iff]
  constructor
  · intro h v hmem
    simpa using h _ hmem
  · rintro h ⟨k', v⟩ hmem hk
    obtain rfl : k' = k := by simpa using hk
    exact h v hmem

/-- The bindings of a map make up that map, in any order. -/
theorem insertBindings_eq {m : Finmap (fun _ : κ => ν)} {bindings : List (κ × ν)}
    (h : ∀ k v, (k, v) ∈ bindings ↔ m.lookup k = some v) : insertBindings ∅ bindings = m := by
  apply Finmap.ext_lookup
  intro k
  rw [lookup_insertBindings, Finmap.lookup_empty, Option.or_none]
  cases hlast : lastBinding bindings k with
  | some v => exact ((h k v).mp (mem_of_lastBinding hlast)).symm
  | none =>
    cases hfound : m.lookup k with
    | none => rfl
    | some v => exact absurd ((h k v).mpr hfound) (lastBinding_eq_none_iff.mp hlast v)

/-- With one binding for each key, all of them are found. -/
theorem mem_iff_lookup_insertBindings {bindings : List (κ × ν)}
    (hnodup : (bindings.map Prod.fst).Nodup) (k : κ) (v : ν) :
    (k, v) ∈ bindings ↔ (insertBindings ∅ bindings).lookup k = some v := by
  rw [lookup_insertBindings, Finmap.lookup_empty, Option.or_none]
  constructor
  · intro hmem
    cases hlast : lastBinding bindings k with
    | none => exact absurd hmem (lastBinding_eq_none_iff.mp hlast v)
    | some v' =>
      have heq := List.inj_on_of_nodup_map hnodup (mem_of_lastBinding hlast) hmem rfl
      rw [(Prod.mk.inj heq).2]
  · exact mem_of_lastBinding

end JingjieAR
