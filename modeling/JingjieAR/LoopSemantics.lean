import Mathlib.Data.Nat.Notation
import Mathlib.Logic.Relation

/-! The meaning of a loop whose body either starts another round or leaves with
a result. A loop that never leaves has no result, whatever the fuel. -/
namespace JingjieAR.Loop

variable {σ ρ : Type*}

inductive Iter (σ ρ : Type*)
  | next (s : σ)
  | ret (r : ρ)
deriving DecidableEq

/-- At most `n` rounds of the loop; `none` when they do not suffice. -/
def iterate (body : σ → Iter σ ρ) : ℕ → σ → Option ρ
  | 0, _ => none
  | n+1, s =>
    match body s with
    | .ret r => some r
    | .next s' => iterate body n s'

/-- The loop entered at `s` leaves with `r` after finitely many rounds. -/
inductive Returns (body : σ → Iter σ ρ) : σ → ρ → Prop
  | ret {s : σ} {r : ρ} (h : body s = .ret r) : Returns body s r
  | next {s s' : σ} {r : ρ} (h : body s = .next s') (ht : Returns body s' r) :
      Returns body s r

/-- The loop entered at `s` comes to a round that starts at `s'`. -/
def Reaches (body : σ → Iter σ ρ) : σ → σ → Prop :=
  Relation.ReflTransGen (fun s s' => body s = .next s')

theorem returns_of_iterate {body : σ → Iter σ ρ} {n : ℕ} {s : σ} {r : ρ}
    (h : iterate body n s = some r) : Returns body s r := by
  induction n generalizing s with
  | zero => simp [iterate] at h
  | succ n ih =>
    cases hb : body s with
    | ret r' =>
      have hr : r' = r := by simpa [iterate, hb] using h
      exact .ret (hr ▸ hb)
    | next s' => exact .next hb (ih (by simpa [iterate, hb] using h))

theorem iterate_of_returns {body : σ → Iter σ ρ} {s : σ} {r : ρ}
    (h : Returns body s r) : ∃ n, iterate body n s = some r := by
  induction h with
  | ret hb => exact ⟨1, by simp [iterate, hb]⟩
  | next hb _ ih =>
    obtain ⟨n, hn⟩ := ih
    exact ⟨n+1, by simpa [iterate, hb] using hn⟩

/-- Fuel is only a way to compute: some amount of it gives the result exactly
when the loop returns. -/
theorem returns_iff_iterate {body : σ → Iter σ ρ} {s : σ} {r : ρ} :
    Returns body s r ↔ ∃ n, iterate body n s = some r :=
  ⟨iterate_of_returns, fun ⟨_, hn⟩ => returns_of_iterate hn⟩

theorem returns_next_iff {body : σ → Iter σ ρ} {s s' : σ} {r : ρ}
    (hb : body s = .next s') : Returns body s r ↔ Returns body s' r := by
  refine ⟨?_, .next hb⟩
  intro h
  cases h with
  | ret h => rw [hb] at h; contradiction
  | next h ht =>
    rw [hb] at h
    injection h with he
    exact he ▸ ht

theorem returns_ret_iff {body : σ → Iter σ ρ} {s : σ} {r r' : ρ}
    (hb : body s = .ret r) : Returns body s r' ↔ r = r' := by
  constructor
  · intro h
    cases h with
    | ret h => rw [hb] at h; injection h
    | next h _ => rw [hb] at h; contradiction
  · intro hr
    subst hr
    exact .ret hb

theorem returns_unique {body : σ → Iter σ ρ} {s : σ} {r r' : ρ}
    (h : Returns body s r) (h' : Returns body s r') : r = r' := by
  induction h with
  | ret hb => exact (returns_ret_iff hb).mp h'
  | next hb _ ih => exact ih ((returns_next_iff hb).mp h')

theorem returns_invariant {body : σ → Iter σ ρ} {inv : σ → Prop} {post : ρ → Prop} {s : σ} {r : ρ}
    (hnext : ∀ s s', inv s → body s = .next s' → inv s')
    (hret : ∀ s r, inv s → body s = .ret r → post r) (h : Returns body s r) (hs : inv s) :
    post r := by
  induction h with
  | ret hb => exact hret _ _ hs hb
  | next hb _ ih => exact ih (hnext _ _ hs hb)

theorem not_returns_of_stutter {body : σ → Iter σ ρ} {s : σ} (hb : body s = .next s)
    (r : ρ) : ¬Returns body s r := by
  intro h
  -- The derivation of the result would have to contain itself.
  generalize he : s = s₀ at h
  induction h with
  | ret h => rw [← he, hb] at h; contradiction
  | next h _ ih =>
    apply ih
    rw [← he, hb] at h
    injection h

theorem returns_reaches_iff {body : σ → Iter σ ρ} {s s' : σ} {r : ρ}
    (hs : Reaches body s s') : Returns body s r ↔ Returns body s' r := by
  induction hs using Relation.ReflTransGen.head_induction_on with
  | refl => rfl
  | head hb _ ih => exact (returns_next_iff hb).trans ih

section Measured

variable (body : σ → Iter σ ρ) (μ : σ → ℕ)

/-- Every round that does not leave makes the measure smaller. -/
def Decreases : Prop := ∀ s s', body s = .next s' → μ s' < μ s

variable {body μ}

theorem iterate_isSome_of_decreases (hd : Decreases body μ) (n : ℕ) (s : σ)
    (hn : μ s < n) : (iterate body n s).isSome := by
  induction n generalizing s with
  | zero => omega
  | succ n ih =>
    cases hb : body s with
    | ret r => simp [iterate, hb]
    | next s' =>
      -- One unit of fuel for each round, and the measure pays for it.
      have hlt := hd s s' hb
      simpa [iterate, hb] using ih s' (by omega)

/-- The value of a loop whose measure goes down: no fuel is left to choose. -/
def value (hd : Decreases body μ) (s : σ) : ρ :=
  (iterate body (μ s+1) s).get (iterate_isSome_of_decreases hd _ s (Nat.lt_succ_self _))

theorem returns_value (hd : Decreases body μ) (s : σ) : Returns body s (value hd s) :=
  returns_of_iterate (Option.some_get _).symm

end Measured

end JingjieAR.Loop
