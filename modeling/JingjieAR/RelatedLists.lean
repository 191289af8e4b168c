import Mathlib.Data.List.Forall2

/-! Lists whose elements are related one by one. -/
namespace JingjieAR

open List (Forall₂)

variable {α β γ δ : Type*} {R : α → β → Prop} {as : List α} {bs : List β} {a : α} {b : β}

theorem exists_right_of_mem (h : Forall₂ R as bs) (ha : a ∈ as) : ∃ b ∈ bs, R a b := by
  induction h with
  | nil => simp at ha
  | cons hab _ ih =>
    rcases List.mem_cons.mp ha with rfl | ha
    · exact ⟨_, List.mem_cons_self, hab⟩
    · obtain ⟨b, hb, hab⟩ := ih ha
      exact ⟨b, List.mem_cons_of_mem _ hb, hab⟩

theorem exists_left_of_mem (h : Forall₂ R as bs) (hb : b ∈ bs) : ∃ a ∈ as, R a b :=
  exists_right_of_mem h.flip hb

theorem exists_forall₂ (h : ∀ a ∈ as, ∃ b, R a b) : ∃ bs, Forall₂ R as bs := by
  induction as with
  | nil => exact ⟨[], .nil⟩
  | cons a as ih =>
    obtain ⟨b, hab⟩ := h a List.mem_cons_self
    obtain ⟨bs, hbs⟩ := ih fun a' ha' => h a' (List.mem_cons_of_mem _ ha')
    exact ⟨b :: bs, .cons hab hbs⟩

theorem forall₂_append {as' : List α} {bs' : List β} (h : Forall₂ R as bs)
    (h' : Forall₂ R as' bs') : Forall₂ R (as++as') (bs++bs') := by
  induction h with
  | nil => exact h'
  | cons hab _ ih => exact .cons hab ih

/-- Lists that are related in parts are related as a whole. -/
theorem forall₂_flatMap {f : α → List γ} {g : β → List δ} {T : γ → δ → Prop}
    (h : Forall₂ (fun a b => Forall₂ T (f a) (g b)) as bs) :
    Forall₂ T (as.flatMap f) (bs.flatMap g) := by
  induction h with
  | nil => exact .nil
  | cons hab _ ih =>
    rw [List.flatMap_cons, List.flatMap_cons]
    exact forall₂_append hab ih

/-- What is related to the same element is the same for both lists. -/
theorem map_eq_of_forall₂ {f : α → γ} {g : β → γ} (h : Forall₂ R as bs)
    (heq : ∀ a b, R a b → f a = g b) : as.map f = bs.map g := by
  induction h with
  | nil => rfl
  | cons hab _ ih => rw [List.map_cons, List.map_cons, heq _ _ hab, ih]

end JingjieAR
