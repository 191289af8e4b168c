import Mathlib.Data.Nat.Notation

/-! Computations that change a state and may throw. A thrown exception leaves the state
as it was changed up to that point, and a handler goes on from there. -/
namespace JingjieAR.Throwing

variable {ε σ α β : Type}

/-- Run a computation: how it ends, and the state it leaves. -/
def exec (x : ExceptT ε (StateM σ) α) (s : σ) : Except ε α × σ := Id.run (x.run.run s)

@[simp] theorem exec_pure (a : α) (s : σ) :
    exec (pure a : ExceptT ε (StateM σ) α) s = (.ok a, s) := rfl

@[simp] theorem exec_throw (e : ε) (s : σ) :
    exec (throw e : ExceptT ε (StateM σ) α) s = (.error e, s) := rfl

@[simp] theorem exec_get (s : σ) :
    exec (get : ExceptT ε (StateM σ) σ) s = (.ok s, s) := rfl

@[simp] theorem exec_set (t s : σ) :
    exec (set t : ExceptT ε (StateM σ) PUnit) s = (.ok ⟨⟩, t) := rfl

@[simp] theorem exec_modify (f : σ → σ) (s : σ) :
    exec (modify f : ExceptT ε (StateM σ) PUnit) s = (.ok ⟨⟩, f s) := rfl

section Cases

variable {x : ExceptT ε (StateM σ) α} {s s' : σ} {a : α} {e : ε}

theorem exec_bind_ok (h : exec x s = (.ok a, s')) (f : α → ExceptT ε (StateM σ) β) :
    exec (x >>= f) s = exec (f a) s' := by
  have hx : x s = (.ok a, s') := h
  change (match x s with | (r, s') => ExceptT.bindCont f r s') = _
  rw [hx]
  rfl

theorem exec_bind_error (h : exec x s = (.error e, s')) (f : α → ExceptT ε (StateM σ) β) :
    exec (x >>= f) s = (.error e, s') := by
  have hx : x s = (.error e, s') := h
  change (match x s with | (r, s') => ExceptT.bindCont f r s') = _
  rw [hx]
  rfl

theorem exec_tryCatch_ok (h : exec x s = (.ok a, s')) (f : ε → ExceptT ε (StateM σ) α) :
    exec (tryCatch x f) s = (.ok a, s') := by
  have hx : x s = (.ok a, s') := h
  change (match x s with
    | (r, t) => (match r with
      | .ok a => (pure (.ok a) : StateM σ (Except ε α))
      | .error e => f e) t) = _
  rw [hx]
  rfl

/-- A sequence that ends well has a state in the middle. -/
theorem exec_bind_eq_ok {f : α → ExceptT ε (StateM σ) β} {b : β} {s'' : σ}
    (h : exec (x >>= f) s = (.ok b, s'')) :
    ∃ a s', exec x s = (.ok a, s') ∧ exec (f a) s' = (.ok b, s'') := by
  cases hx : exec x s with
  | mk result s' =>
    cases result with
    | ok a => exact ⟨a, s', rfl, exec_bind_ok hx f ▸ h⟩
    | error e =>
      rw [exec_bind_error hx] at h
      cases h

/-- The handler starts in the state in which the exception was thrown. -/
theorem exec_tryCatch_error (h : exec x s = (.error e, s')) (f : ε → ExceptT ε (StateM σ) α) :
    exec (tryCatch x f) s = exec (f e) s' := by
  have hx : x s = (.error e, s') := h
  change (match x s with
    | (r, t) => (match r with
      | .ok a => (pure (.ok a) : StateM σ (Except ε α))
      | .error e => f e) t) = _
  rw [hx]
  rfl

end Cases

end JingjieAR.Throwing
