import Mathlib.Data.Nat.Notation

/-! Runs of labelled transition systems. A property of all runs is proved by an
invariant, if need be for the runs whose steps all pass a guard. -/
namespace JingjieAR.Runs

variable {σ α : Type*}

/-- The steps labelled `as` lead from `s` to `s'`. -/
inductive Run (step : σ → α → σ → Prop) : σ → List α → σ → Prop
  | nil (s : σ) : Run step s [] s
  | cons {s s₁ s' : σ} {a : α} {as : List α} (h : step s a s₁) (ht : Run step s₁ as s') :
      Run step s (a :: as) s'

/-- The steps that start where the guard allows their label. -/
def Guarded (guard : σ → α → Prop) (step : σ → α → σ → Prop) (s : σ) (a : α) (s' : σ) : Prop :=
  guard s a ∧ step s a s'

theorem Run.invariant {step : σ → α → σ → Prop} {inv : σ → Prop} {s s' : σ} {as : List α}
    (hstep : ∀ s a s', inv s → step s a s' → inv s') (hr : Run step s as s') (hs : inv s) :
    inv s' := by
  induction hr with
  | nil s => exact hs
  | cons h _ ih => exact ih (hstep _ _ _ hs h)

theorem Run.snoc {step : σ → α → σ → Prop} {s s₁ s' : σ} {a : α} {as : List α}
    (hr : Run step s as s₁) (h : step s₁ a s') : Run step s (as++[a]) s' := by
  induction hr with
  | nil s => exact .cons h (.nil s')
  | cons h₁ _ ih => exact .cons h₁ (ih h)

theorem Run.append {step : σ → α → σ → Prop} {s s₁ s' : σ} {as bs : List α}
    (hr : Run step s as s₁) (ht : Run step s₁ bs s') : Run step s (as++bs) s' := by
  induction hr with
  | nil s => exact ht
  | cons h _ ih => exact .cons h (ih ht)

theorem Run.split {step : σ → α → σ → Prop} {s s' : σ} {as bs : List α}
    (hr : Run step s (as++bs) s') : ∃ s₁, Run step s as s₁ ∧ Run step s₁ bs s' := by
  induction as generalizing s with
  | nil => exact ⟨s, .nil s, hr⟩
  | cons a as ih =>
    cases hr with
    | cons h ht =>
      obtain ⟨s₁, h₁, h₂⟩ := ih ht
      exact ⟨s₁, .cons h h₁, h₂⟩

/-- An invariant that also speaks of the labels so far. -/
theorem Run.history {step : σ → α → σ → Prop} {inv : List α → σ → Prop} {s₀ s : σ} {as : List α}
    (hstep : ∀ as s a s', Run step s₀ as s → inv as s → step s a s' → inv (as++[a]) s')
    (hr : Run step s₀ as s) (h : inv [] s₀) : inv as s := by
  suffices hall : ∀ s₁ bs s, Run step s₁ bs s → ∀ pre, Run step s₀ pre s₁ → inv pre s₁ →
      inv (pre++bs) s from hall _ _ _ hr [] (.nil s₀) h
  intro s₁ bs s hr
  induction hr with
  | nil s =>
    intro pre _ hpre
    rwa [List.append_nil]
  | cons h _ ih =>
    intro pre hrun hpre
    have hnext := ih (pre++[_]) (hrun.snoc h) (hstep _ _ _ _ hrun hpre h)
    rwa [List.append_assoc] at hnext

/-- The run has come through a state with this property. -/
def Through (step : σ → α → σ → Prop) (s₀ : σ) (as : List α) (s : σ) (p : σ → Prop) : Prop :=
  ∃ pre post s₁, as = pre++post ∧ Run step s₀ pre s₁ ∧ Run step s₁ post s ∧ p s₁

theorem Through.here {step : σ → α → σ → Prop} {s₀ s : σ} {as : List α} {p : σ → Prop}
    (hr : Run step s₀ as s) (h : p s) : Through step s₀ as s p :=
  ⟨as, [], s, (List.append_nil as).symm, hr, .nil s, h⟩

theorem Through.snoc {step : σ → α → σ → Prop} {s₀ s s' : σ} {as : List α} {a : α}
    {p : σ → Prop} (h : Through step s₀ as s p) (hs : step s a s') :
    Through step s₀ (as++[a]) s' p := by
  obtain ⟨pre, post, s₁, rfl, hpre, hpost, hp⟩ := h
  exact ⟨pre, post++[a], s₁, List.append_assoc pre post [a], hpre, hpost.snoc hs, hp⟩

/-- What is noted has been so, if a step notes only what is so behind it. -/
theorem Run.noted {β : Type*} {step : σ → α → σ → Prop} {notes : σ → List β} {p : β → σ → Prop}
    {s₀ s : σ} {as : List α}
    (hstep : ∀ s a s', step s a s' → ∀ b ∈ notes s', b ∈ notes s ∨ p b s')
    (hr : Run step s₀ as s) (h : notes s₀ = []) : ∀ b ∈ notes s, Through step s₀ as s (p b) := by
  refine @Run.history _ _ _ (fun as s => ∀ b ∈ notes s, Through step s₀ as s (p b)) _ _ _ ?_ hr ?_
  · intro as s a s' hrun ih hs b hb
    rcases hstep s a s' hs b hb with hold | hnew
    · exact (ih b hold).snoc hs
    · exact .here (hrun.snoc hs) hnew
  · intro b hb
    rw [h] at hb
    exact absurd hb List.not_mem_nil

/-- Steps that each take something off what is left to be done come to an end. -/
theorem Run.length_le {step : σ → α → σ → Prop} {inv : σ → Prop} {left : σ → ℕ} {s s' : σ}
    {as : List α} (hinv : ∀ s a s', inv s → step s a s' → inv s')
    (hstep : ∀ s a s', inv s → step s a s' → left s' < left s) (hr : Run step s as s')
    (hs : inv s) : as.length+left s' ≤ left s := by
  induction hr with
  | nil s => exact Nat.le_of_eq (Nat.zero_add _)
  | cons h _ ih =>
    have hrest := ih (hinv _ _ _ hs h)
    have hless := hstep _ _ _ hs h
    rw [List.length_cons]
    omega

/-- A run that comes to have a property takes a step by which it gets it. -/
theorem Run.enters {step : σ → α → σ → Prop} {p : σ → Prop} {s s' : σ} {as : List α}
    (hr : Run step s as s') (hs : ¬p s) (hs' : p s') :
    ∃ pre a post s₁ s₂, as = pre++a :: post ∧ Run step s pre s₁ ∧ step s₁ a s₂ ∧
      Run step s₂ post s' ∧ ¬p s₁ ∧ p s₂ := by
  induction hr with
  | nil s => exact absurd hs' hs
  | @cons s s₁ s' a as h ht ih =>
    by_cases hp : p s₁
    · exact ⟨[], a, as, s, s₁, rfl, .nil s, h, ht, hs, hp⟩
    · obtain ⟨pre, b, post, s₂, s₃, rfl, hpre, hb, hpost, hnot, hyes⟩ := ih hp hs'
      exact ⟨a :: pre, b, post, s₂, s₃, rfl, .cons h hpre, hb, hpost, hnot, hyes⟩

/-- What a state leaves to be done grows by what a step does, and so it does over a run. -/
theorem Run.backward {β : Type*} {step : σ → α → σ → Prop} {rest : σ → List β → Prop} {s s' : σ}
    {as : List α} {bs : List β} (hr : Run step s as s')
    (hstep : ∀ s a s', step s a s' → ∀ bs, rest s' bs → ∃ new, rest s (new++bs))
    (h : rest s' bs) : ∃ new, rest s (new++bs) := by
  induction hr with
  | nil s => exact ⟨[], h⟩
  | cons hs _ ih =>
    obtain ⟨later, hlater⟩ := ih h
    obtain ⟨new, hnew⟩ := hstep _ _ _ hs _ hlater
    exact ⟨new++later, by rwa [List.append_assoc]⟩

/-- A relation whose steps on one side are matched on the other, label by label. -/
theorem Run.simulate {τ : Type*} {step : σ → α → σ → Prop} {step' : τ → α → τ → Prop}
    {rel : τ → σ → Prop} {s s' : σ} {t : τ} {as : List α}
    (hstep : ∀ t s a s', rel t s → step s a s' → ∃ t', step' t a t' ∧ rel t' s')
    (hr : Run step s as s') (hs : rel t s) : ∃ t', Run step' t as t' ∧ rel t' s' := by
  induction hr generalizing t with
  | nil s => exact ⟨t, .nil t, hs⟩
  | cons h _ ih =>
    obtain ⟨t₁, ht, hrel⟩ := hstep t _ _ _ hs h
    obtain ⟨t', hrun, hrel'⟩ := ih hrel
    exact ⟨t', .cons ht hrun, hrel'⟩

theorem Run.mono {step step' : σ → α → σ → Prop} {s s' : σ} {as : List α}
    (hstep : ∀ s a s', step s a s' → step' s a s') (hr : Run step s as s') :
    Run step' s as s' := by
  induction hr with
  | nil s => exact .nil s
  | cons h _ ih => exact .cons (hstep _ _ _ h) ih

theorem Run.unguarded {guard : σ → α → Prop} {step : σ → α → σ → Prop} {s s' : σ} {as : List α}
    (h : Run (Guarded guard step) s as s') : Run step s as s' :=
  h.mono (fun _ _ _ hs => hs.2)

/-- The steps that lead to a good state. -/
def Reaching (good : σ → Prop) (step : σ → α → σ → Prop) (s : σ) (a : α) (s' : σ) : Prop :=
  step s a s' ∧ good s'

/-- Where the guard says whether a step keeps a state good, a run stays among the good states
exactly if all its steps pass the guard. -/
theorem Run.reaching_iff {step : σ → α → σ → Prop} {inv good : σ → Prop} {guard : σ → α → Prop}
    (hinv : ∀ s a s', inv s → step s a s' → inv s')
    (hgood : ∀ s a s', inv s → good s → step s a s' → (good s' ↔ guard s a)) {s s' : σ}
    {as : List α} (hs : inv s) (hg : good s) :
    Run (Reaching good step) s as s' ↔ Run (Guarded guard step) s as s' := by
  constructor
  · intro hr
    induction hr with
    | nil s => exact .nil s
    | cons h _ ih => exact .cons ⟨(hgood _ _ _ hs hg h.1).mp h.2, h.1⟩ (ih (hinv _ _ _ hs h.1) h.2)
  · intro hr
    induction hr with
    | nil s => exact .nil s
    | cons h _ ih =>
      have hnext := (hgood _ _ _ hs hg h.2).mpr h.1
      exact .cons ⟨h.2, hnext⟩ (ih (hinv _ _ _ hs h.2) hnext)

/-- Carry out the actions one after another, as far as the guard allows. -/
def replay (guard : σ → α → Prop) [∀ s a, Decidable (guard s a)] (next : σ → α → Option σ) :
    σ → List α → Option σ
  | s, [] => some s
  | s, a :: as => if guard s a then (next s a).bind (replay guard next · as) else none

theorem run_of_replay {guard : σ → α → Prop} [∀ s a, Decidable (guard s a)]
    {next : σ → α → Option σ} {s s' : σ} {as : List α} (h : replay guard next s as = some s') :
    Run (Guarded guard (fun s a s' => next s a = some s')) s as s' := by
  induction as generalizing s with
  | nil =>
    obtain rfl := Option.some.inj h
    exact .nil s
  | cons a as ih =>
    simp only [replay, Option.ite_none_right_eq_some] at h
    obtain ⟨s₁, hs, ht⟩ := Option.bind_eq_some_iff.mp h.2
    exact .cons ⟨h.1, hs⟩ (ih ht)

end JingjieAR.Runs
