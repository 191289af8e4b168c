import Mathlib.Logic.Basic
import Mathlib.Data.Nat.Notation

/-! A lock and the parties that use it. A party's step leaves the lock alone, takes it when it
is free, or gives its own lock back; then whoever has it is the one it is held by. -/
namespace JingjieAR.MutualExclusion

variable {π : Type*}

/-- Whoever is in a critical section is the holder. -/
def Exclusive (holder : Option π) (inside : π → Prop) : Prop :=
  ∀ p, inside p → holder = some p

/-- What a step of the party `p` does to the lock, with where it stands before and after. -/
inductive Move (p : π) : Option π → Prop → Option π → Prop → Prop
  | stay {holder : Option π} {was is : Prop} (h : is → was) : Move p holder was holder is
  | acquire {was is : Prop} : Move p none was (some p) is
  | release {holder : Option π} {was is : Prop} (hwas : was) (his : ¬is) :
      Move p holder was none is

theorem Exclusive.unique {holder : Option π} {inside : π → Prop} (h : Exclusive holder inside)
    {p p' : π} (hp : inside p) (hp' : inside p') : p = p' := by
  have hsome : some p = some p' := (h p hp).symm.trans (h p' hp')
  exact Option.some.inj hsome

theorem Exclusive.not_inside {holder : Option π} {inside : π → Prop}
    (h : Exclusive holder inside) {p p' : π} (hp : inside p) (hne : p' ≠ p) : ¬inside p' := by
  intro hp'
  exact hne (h.unique hp' hp)

/-- A move of one party, while the others stand where they stood. -/
theorem Exclusive.move {holder holder' : Option π} {inside inside' : π → Prop} {p : π}
    (h : Exclusive holder inside) (hmove : Move p holder (inside p) holder' (inside' p))
    (hothers : ∀ p', p' ≠ p → inside' p' → inside p') : Exclusive holder' inside' := by
  intro p' hp'
  by_cases hne : p' = p
  · subst hne
    cases hmove with
    | stay his => exact h p' (his hp')
    | acquire => rfl
    | release _ his => exact absurd hp' his
  · have hold : holder = some p' := h p' (hothers p' hne hp')
    cases hmove with
    | stay _ => exact hold
    | acquire => simp at hold
    | release hwas _ => exact absurd (hothers p' hne hp') (h.not_inside hwas hne)

end JingjieAR.MutualExclusion
