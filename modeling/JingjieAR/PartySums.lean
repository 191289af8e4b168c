import Mathlib.Algebra.BigOperators.Group.List.Basic

/-! Parties in a list, each at its stage, and what the stages come to together, or how many
parties stand at stages of a kind. When one party goes on, the sum changes by what that party's
stage changes. -/
namespace JingjieAR.PartySums

variable {σ M : Type*} {parties : List σ} {i j : ℕ} {a b : σ}

/-- Replacing one summand. -/
theorem sum_map_set [AddCommMonoid M] (w : σ → M) (h : parties[i]? = some a) (b : σ) :
    ((parties.set i b).map w).sum+w a = (parties.map w).sum+w b := by
  induction parties generalizing i with
  | nil => simp at h
  | cons x xs ih =>
    cases i with
    | zero =>
      obtain rfl : x = a := by simpa using h
      simp only [List.set_cons_zero, List.map_cons, List.sum_cons]
      rw [add_comm (w b), add_assoc, add_comm (w b), ← add_assoc, add_comm (w x)]
    | succ i =>
      have hrest := ih (i := i) (by simpa using h)
      simp only [List.set_cons_succ, List.map_cons, List.sum_cons]
      rw [add_assoc, hrest, ← add_assoc]

/-- How many parties stand at some stages, after one of them has gone on. -/
theorem countP_set (p : σ → Bool) (h : parties[i]? = some a) (b : σ) :
    (parties.set i b).countP p+(p a).toNat = parties.countP p+(p b).toNat := by
  have hsum := sum_map_set (fun x => (p x).toNat) h b
  have hcount : ∀ xs : List σ, (xs.map (fun x => (p x).toNat)).sum = xs.countP p := by
    intro xs
    induction xs with
    | nil => rfl
    | cons x xs ih =>
      cases hx : p x with
      | true => simp [ih, hx, Nat.add_comm]
      | false => simp [ih, hx]
  rwa [hcount, hcount] at hsum

theorem countP_pos (p : σ → Bool) (h : parties[i]? = some a) (ha : p a = true) :
    0 < parties.countP p :=
  List.countP_pos_iff.mpr ⟨a, List.mem_of_getElem? h, ha⟩

/-- Where at most one party is of a kind, two parties of this kind are one. -/
theorem eq_of_countP_le_one {p : σ → Bool} (h : parties.countP p ≤ 1) (hi : parties[i]? = some a)
    (hj : parties[j]? = some b) (ha : p a = true) (hb : p b = true) : i = j := by
  induction parties generalizing i j with
  | nil => simp at hi
  | cons x xs ih =>
    rw [List.countP_cons] at h
    -- if the first one is, then no other one
    have hother : ∀ {k : ℕ} {y : σ}, xs[k]? = some y → p x = true → p y = true → False := by
      intro k y hk hx hy
      have hpos := countP_pos p hk hy
      rw [if_pos hx] at h
      omega
    cases i with
    | zero =>
      obtain rfl : x = a := by simpa using hi
      cases j with
      | zero => rfl
      | succ j => exact (hother (by simpa using hj) ha hb).elim
    | succ i =>
      cases j with
      | zero =>
        obtain rfl : x = b := by simpa using hj
        exact (hother (by simpa using hi) hb ha).elim
      | succ j =>
        have hij : i = j := ih (by omega) (by simpa using hi) (by simpa using hj)
        rw [hij]

end JingjieAR.PartySums
