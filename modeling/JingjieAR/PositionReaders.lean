import Mathlib.Data.List.Basic

/-! Readers that move a position over a text. A reader refuses the text or gives a value and
the position behind it; one that looks behind the end has overrun the text. Such a reader
agrees with one that takes its values from the front of a list and hands on the rest. -/
namespace JingjieAR

variable {α β γ : Type*}

inductive Parsed (α : Type*)
  | overrun
  | refused
  | parsed (value : α) (position : ℕ)
deriving DecidableEq

namespace Parsed

/-- Read on behind a value. -/
def bind (r : Parsed α) (f : α → ℕ → Parsed β) : Parsed β :=
  match r with
  | .overrun => .overrun
  | .refused => .refused
  | .parsed value position => f value position

/-- The two readers do the same to the text, and neither of them overruns it. -/
def Agrees (text : List γ) (r : Parsed α) (o : Option (α × List γ)) : Prop :=
  (r = .refused ∧ o = none) ∨
    ∃ value position, r = .parsed value position ∧ position ≤ text.length ∧
      o = some (value, text.drop position)

variable {text : List γ}

theorem agrees_refused : Agrees text (.refused : Parsed α) none := .inl ⟨rfl, rfl⟩

theorem agrees_parsed (value : α) {position : ℕ} (h : position ≤ text.length) :
    Agrees text (.parsed value position) (some (value, text.drop position)) :=
  .inr ⟨value, position, rfl, h, rfl⟩

theorem Agrees.bind {r : Parsed α} {o : Option (α × List γ)} {f : α → ℕ → Parsed β}
    {g : α × List γ → Option (β × List γ)} (h : Agrees text r o)
    (hf : ∀ value position, position ≤ text.length →
      Agrees text (f value position) (g (value, text.drop position))) :
    Agrees text (r.bind f) (o.bind g) := by
  rcases h with ⟨rfl, rfl⟩ | ⟨value, position, rfl, hle, rfl⟩
  · exact agrees_refused
  · exact hf value position hle

end Parsed

end JingjieAR
