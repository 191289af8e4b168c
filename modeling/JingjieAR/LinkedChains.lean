import Mathlib.Logic.Function.Basic
import Mathlib.Data.Nat.Notation

/-! Singly linked lists in memory: a first address, and at each address the next one, with zero
for the end. -/
namespace JingjieAR.LinkedChains

/-- From `head` the words of the memory lead through the addresses of the list. -/
inductive Chain (next : ℕ → ℕ) : ℕ → List ℕ → Prop
  | nil : Chain next 0 []
  | cons {a : ℕ} {rest : List ℕ} (ha : a ≠ 0) (ht : Chain next (next a) rest) :
      Chain next a (a :: rest)

variable {next next' : ℕ → ℕ} {head : ℕ} {addresses : List ℕ}

theorem Chain.eq_nil_iff (h : Chain next head addresses) : addresses = [] ↔ head = 0 := by
  cases h with
  | nil => exact iff_of_true rfl rfl
  | cons ha ht => exact iff_of_false (List.cons_ne_nil _ _) ha

/-- Only the words at the addresses of the list matter. -/
theorem Chain.congr (h : Chain next head addresses) (hsame : ∀ a ∈ addresses, next' a = next a) :
    Chain next' head addresses := by
  induction h with
  | nil => exact .nil
  | @cons a rest ha _ ih =>
    have hhead := hsame a List.mem_cons_self
    have hrest := ih (fun b hb => hsame b (List.mem_cons_of_mem _ hb))
    refine .cons ha ?_
    rwa [hhead]

/-- A write elsewhere. -/
theorem Chain.update (h : Chain next head addresses) {a : ℕ} (ha : a ∉ addresses) (value : ℕ) :
    Chain (Function.update next a value) head addresses := by
  apply h.congr
  intro b hb
  have hne : b ≠ a := fun heq => ha (heq ▸ hb)
  exact Function.update_of_ne hne _ _

/-- A new first element that points at the old one. -/
theorem Chain.push (h : Chain next head addresses) {a : ℕ} (ha : a ≠ 0) (hnot : a ∉ addresses) :
    Chain (Function.update next a head) a (a :: addresses) := by
  refine .cons ha ?_
  rw [Function.update_self]
  exact h.update hnot head

/-- Reading the first element off a list that is not empty. -/
theorem Chain.pop (h : Chain next head addresses) (hhead : head ≠ 0) :
    ∃ rest, addresses = head :: rest ∧ Chain next (next head) rest := by
  cases h with
  | nil => contradiction
  | @cons _ rest ha ht => exact ⟨rest, rfl, ht⟩

end JingjieAR.LinkedChains
