import Mathlib.Data.List.Sort
import Mathlib.Order.Defs.LinearOrder

/-! Sets whose elements are kept in order, as an ordered container of a standard library keeps
and visits them: insertion, and the cut of the set at a bound. -/
namespace JingjieAR

variable {α : Type*} [LinearOrder α]

structure OrderedSet (α : Type*) [LinearOrder α] where
  elements : List α := []
  sorted : elements.Pairwise (· < ·) := by exact .nil

namespace OrderedSet

variable {s : OrderedSet α} {a b : α}

instance : Membership α (OrderedSet α) := ⟨fun s a => a ∈ s.elements⟩

theorem mem_def : a ∈ s ↔ a ∈ s.elements := .rfl

theorem nodup (s : OrderedSet α) : s.elements.Nodup := s.sorted.imp (fun h => ne_of_lt h)

def first (s : OrderedSet α) : Option α := s.elements.head?

theorem mem_of_first (h : s.first = some a) : a ∈ s := List.mem_of_head? h

theorem first_eq_none : s.first = none ↔ s.elements = [] := List.head?_eq_none_iff

theorem sorted_orderedInsert {l : List α} (hl : l.Pairwise (· < ·)) (ha : a ∉ l) :
    (l.orderedInsert (· ≤ ·) a).Pairwise (· < ·) := by
  have hle : (l.orderedInsert (· ≤ ·) a).Pairwise (· ≤ ·) :=
    (hl.imp (fun h => le_of_lt h)).orderedInsert a l
  have hnodup : (l.orderedInsert (· ≤ ·) a).Nodup :=
    (List.perm_orderedInsert _ a l).nodup_iff.mpr
      (List.nodup_cons.mpr ⟨ha, hl.imp (fun h => ne_of_lt h)⟩)
  exact (hle.and hnodup).imp (fun h => lt_of_le_of_ne h.1 h.2)

/-- An element that is there is not inserted again. -/
def insert (s : OrderedSet α) (a : α) : OrderedSet α :=
  if h : a ∈ s.elements then s
  else ⟨s.elements.orderedInsert (· ≤ ·) a, sorted_orderedInsert s.sorted h⟩

theorem mem_insert : b ∈ s.insert a ↔ b = a ∨ b ∈ s := by
  unfold insert
  split_ifs with h
  · refine ⟨.inr, ?_⟩
    rintro (rfl | hb)
    · exact h
    · exact hb
  · exact List.mem_orderedInsert _

/-- The elements from the first one up to `lower_bound`. -/
def below (s : OrderedSet α) (a : α) : List α := s.elements.takeWhile (· < a)

/-- And the others. -/
def eraseBelow (s : OrderedSet α) (a : α) : OrderedSet α :=
  ⟨s.elements.dropWhile (· < a), s.sorted.sublist (List.dropWhile_sublist _)⟩

theorem mem_takeWhile_iff {l : List α} (hl : l.Pairwise (· < ·)) :
    b ∈ l.takeWhile (· < a) ↔ b ∈ l ∧ b < a := by
  induction l with
  | nil => simp
  | cons c l ih =>
    obtain ⟨hhead, htail⟩ := List.pairwise_cons.mp hl
    by_cases hc : c < a
    · rw [List.takeWhile_cons_of_pos (by simpa using hc), List.mem_cons, List.mem_cons, ih htail]
      constructor
      · rintro (rfl | ⟨hb, hlt⟩)
        · exact ⟨.inl rfl, hc⟩
        · exact ⟨.inr hb, hlt⟩
      · rintro ⟨rfl | hb, hlt⟩
        · exact .inl rfl
        · exact .inr ⟨hb, hlt⟩
    · -- all that follows is greater still
      rw [List.takeWhile_cons_of_neg (by simpa using hc)]
      refine iff_of_false (by simp) ?_
      rintro ⟨hb, hlt⟩
      rcases List.mem_cons.mp hb with rfl | hb
      · exact hc hlt
      · exact hc (lt_trans (hhead b hb) hlt)

theorem mem_below : b ∈ s.below a ↔ b ∈ s ∧ b < a := mem_takeWhile_iff s.sorted

theorem below_append_eraseBelow (s : OrderedSet α) (a : α) :
    s.below a++(s.eraseBelow a).elements = s.elements := List.takeWhile_append_dropWhile

theorem mem_eraseBelow : b ∈ s.eraseBelow a ↔ b ∈ s ∧ ¬b < a := by
  have hsplit : b ∈ s ↔ b ∈ s.below a ∨ b ∈ s.eraseBelow a := by
    rw [mem_def, ← below_append_eraseBelow s a, List.mem_append]
    rfl
  have hdisjoint : b ∈ s.below a → b ∉ s.eraseBelow a := by
    have hnodup := s.nodup
    rw [← below_append_eraseBelow s a] at hnodup
    exact fun hb hb' => (List.nodup_append.mp hnodup).2.2 b hb b hb' rfl
  constructor
  · intro hb
    refine ⟨hsplit.mpr (.inr hb), fun hlt => ?_⟩
    exact hdisjoint (mem_below.mpr ⟨hsplit.mpr (.inr hb), hlt⟩) hb
  · rintro ⟨hb, hlt⟩
    exact (hsplit.mp hb).resolve_left (fun hbelow => hlt (mem_below.mp hbelow).2)

theorem sorted_below (s : OrderedSet α) (a : α) : (s.below a).Pairwise (· < ·) :=
  s.sorted.sublist (List.takeWhile_sublist _)

end OrderedSet

end JingjieAR
