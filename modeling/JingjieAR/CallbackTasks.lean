import Mathlib.Data.List.Basic
import Mathlib.Data.Nat.Notation
import Mathlib.Tactic.Common

/-! Code with callbacks. A task calls its caller's callback, waits for the answers of some
operations and leaves behind callbacks that others will run; its traces are the orders in
which this can happen. How often the caller is called, and what has happened before an
operation is started, follow from the text of the task. -/
namespace JingjieAR.Callbacks

/-- The operations `ε` answer in `ρ`; the caller's callback takes a `γ`. -/
inductive Task (ε : Type) (ρ : ε → Type) (γ : Type)
  | done
  -- `callback(value)`, and what follows
  | call (value : γ) (rest : Task ε ρ γ)
  -- an operation that returns its answer
  | ask (op : ε) (cont : ρ op → Task ε ρ γ)
  -- an operation that returns at once and runs its callback once, at some time
  | start (op : ε) (callback : ρ op → Task ε ρ γ) (rest : Task ε ρ γ)
  -- a task for the workers, which run it once if they accept it
  | submit (task : Task ε ρ γ) (rest : Bool → Task ε ρ γ)

inductive Event (ε : Type) (ρ : ε → Type) (γ : Type)
  | called (value : γ)
  | asked (op : ε) (reply : ρ op)
  | started (op : ε)
  | completed (op : ε) (reply : ρ op)
  | submitted (accepted : Bool)

/-- The list on the right is a shuffle of the other two. -/
inductive Interleave {α : Type*} : List α → List α → List α → Prop
  | nil : Interleave [] [] []
  | left {x : α} {xs ys zs : List α} (h : Interleave xs ys zs) : Interleave (x :: xs) ys (x :: zs)
  | right {y : α} {xs ys zs : List α} (h : Interleave xs ys zs) :
      Interleave xs (y :: ys) (y :: zs)

theorem interleave_nil {α : Type*} (xs : List α) : Interleave xs [] xs := by
  induction xs with
  | nil => exact .nil
  | cons x xs ih => exact .left ih

theorem Interleave.countP {α : Type*} {xs ys zs : List α} (h : Interleave xs ys zs)
    (p : α → Bool) : zs.countP p = xs.countP p+ys.countP p := by
  induction h with
  | nil => rfl
  | left _ ih =>
    simp only [List.countP_cons, ih]
    omega
  | right _ ih =>
    simp only [List.countP_cons, ih]
    omega

/-- What stands in a shuffle comes from one of the lists, with all that stood before it. -/
theorem Interleave.split {α : Type*} {xs ys zs : List α} (h : Interleave xs ys zs)
    {pre post : List α} {z : α} (heq : zs = pre++z :: post) :
    (∃ pre' post', xs = pre'++z :: post' ∧ pre' ⊆ pre) ∨
      ∃ pre' post', ys = pre'++z :: post' ∧ pre' ⊆ pre := by
  induction h generalizing pre with
  | nil => simp at heq
  -- the first event is from the left list, and `z` is it or stands behind it
  | @left x xs ys zs h ih =>
    cases pre with
    | nil =>
      obtain ⟨rfl, rfl⟩ := by simpa using heq
      exact .inl ⟨[], xs, rfl, List.Subset.refl []⟩
    | cons y pre =>
      obtain ⟨rfl, hrest⟩ := by simpa using heq
      rcases ih hrest with ⟨pre', post', rfl, hsub⟩ | ⟨pre', post', rfl, hsub⟩
      · exact .inl ⟨x :: pre', post', rfl, List.cons_subset_cons x hsub⟩
      · exact .inr ⟨pre', post', rfl, List.subset_cons_of_subset x hsub⟩
  | @right y xs ys zs h ih =>
    cases pre with
    | nil =>
      obtain ⟨rfl, rfl⟩ := by simpa using heq
      exact .inr ⟨[], ys, rfl, List.Subset.refl []⟩
    | cons x pre =>
      obtain ⟨rfl, hrest⟩ := by simpa using heq
      rcases ih hrest with ⟨pre', post', rfl, hsub⟩ | ⟨pre', post', rfl, hsub⟩
      · exact .inl ⟨pre', post', rfl, List.subset_cons_of_subset y hsub⟩
      · exact .inr ⟨y :: pre', post', rfl, List.cons_subset_cons y hsub⟩

namespace Task

variable {ε : Type} {ρ : ε → Type} {γ : Type}

/-- What can happen until all callbacks have run. -/
inductive Trace : Task ε ρ γ → List (Event ε ρ γ) → Prop
  | done : Trace .done []
  | call {value : γ} {rest : Task ε ρ γ} {events : List (Event ε ρ γ)} (h : Trace rest events) :
      Trace (.call value rest) (.called value :: events)
  | ask {op : ε} {cont : ρ op → Task ε ρ γ} {events : List (Event ε ρ γ)} (reply : ρ op)
      (h : Trace (cont reply) events) : Trace (.ask op cont) (.asked op reply :: events)
  | start {op : ε} {callback : ρ op → Task ε ρ γ} {rest : Task ε ρ γ}
      {events events₁ events₂ : List (Event ε ρ γ)} (reply : ρ op)
      (h₁ : Trace (callback reply) events₁) (h₂ : Trace rest events₂)
      (h : Interleave (.completed op reply :: events₁) events₂ events) :
      Trace (.start op callback rest) (.started op :: events)
  | accepted {task : Task ε ρ γ} {rest : Bool → Task ε ρ γ}
      {events events₁ events₂ : List (Event ε ρ γ)} (h₁ : Trace task events₁)
      (h₂ : Trace (rest true) events₂) (h : Interleave events₁ events₂ events) :
      Trace (.submit task rest) (.submitted true :: events)
  | rejected {task : Task ε ρ γ} {rest : Bool → Task ε ρ γ} {events : List (Event ε ρ γ)}
      (h : Trace (rest false) events) : Trace (.submit task rest) (.submitted false :: events)

/-- An operation with nothing to do after its start. -/
theorem Trace.start_last {op : ε} {callback : ρ op → Task ε ρ γ} {events : List (Event ε ρ γ)}
    (reply : ρ op) (h : Trace (callback reply) events) :
    Trace (.start op callback .done) (.started op :: .completed op reply :: events) :=
  .start reply h .done (interleave_nil _)

end Task

namespace Event

variable {ε : Type} {ρ : ε → Type} {γ : Type}

def isCall : Event ε ρ γ → Bool
  | .called _ => true
  | _ => false

/-- What the task does by itself, and not in answer to it. -/
def isOwn : Event ε ρ γ → Bool
  | .called _ => true
  | .started _ => true
  | _ => false

end Event

/-- How often the caller's callback is called. -/
def callCount {ε : Type} {ρ : ε → Type} {γ : Type} (events : List (Event ε ρ γ)) : ℕ :=
  events.countP Event.isCall

theorem callCount_cons {ε : Type} {ρ : ε → Type} {γ : Type} (e : Event ε ρ γ)
    (events : List (Event ε ρ γ)) :
    callCount (e :: events) = e.isCall.toNat+callCount events := by
  cases he : e.isCall with
  | true =>
    simp [callCount, he]
    omega
  | false => simp [callCount, he]

namespace Task

variable {ε : Type} {ρ : ε → Type} {γ : Type} {t rest : Task ε ρ γ} {n m : ℕ}

/-- However it goes, the task calls its caller `n` times. -/
def Calls (t : Task ε ρ γ) (n : ℕ) : Prop := ∀ events, t.Trace events → callCount events = n

theorem calls_done : (done : Task ε ρ γ).Calls 0 := by
  intro events h
  cases h
  rfl

theorem Calls.call (h : rest.Calls n) (value : γ) : (call value rest).Calls (1+n) := by
  intro events ht
  cases ht with
  | call ht =>
    rw [callCount_cons, h _ ht]
    rfl

theorem Calls.ask {op : ε} {cont : ρ op → Task ε ρ γ} (h : ∀ reply, (cont reply).Calls n) :
    (ask op cont).Calls n := by
  intro events ht
  cases ht with
  | ask reply ht =>
    rw [callCount_cons, h reply _ ht]
    exact Nat.zero_add n

theorem Calls.start {op : ε} {callback : ρ op → Task ε ρ γ}
    (h : ∀ reply, (callback reply).Calls n) (hrest : rest.Calls m) :
    (start op callback rest).Calls (n+m) := by
  intro events ht
  cases ht with
  | start reply h₁ h₂ hmix =>
    have hn := h reply _ h₁
    have hm := hrest _ h₂
    have hcount := hmix.countP Event.isCall
    rw [callCount_cons]
    change _+List.countP _ _ = _
    rw [hcount]
    change _+(callCount _+callCount _) = _
    rw [callCount_cons, hn, hm]
    simp [Event.isCall]

/-- A task for the workers, and what its submitter does if they take it and if they do not. -/
theorem Calls.submit {task : Task ε ρ γ} {rest : Bool → Task ε ρ γ} (h : task.Calls n)
    (haccepted : (rest true).Calls m) (hrejected : (rest false).Calls (n+m)) :
    (submit task rest).Calls (n+m) := by
  intro events ht
  cases ht with
  | accepted h₁ h₂ hmix =>
    have hn := h _ h₁
    have hm := haccepted _ h₂
    have hcount := hmix.countP Event.isCall
    rw [callCount_cons]
    change _+List.countP _ _ = _
    rw [hcount]
    change _+(callCount _+callCount _) = _
    rw [hn, hm]
    simp [Event.isCall]
  | rejected ht =>
    rw [callCount_cons, hrejected _ ht]
    exact Nat.zero_add _

end Task

/-- A function that the code calls back: what it does with a value, before the rest. -/
abbrev Callback (ε : Type) (ρ : ε → Type) (γ α : Type) := α → Task ε ρ γ → Task ε ρ γ

/-- However it goes, the callback calls the caller `n` times. -/
def Callback.Calls {ε : Type} {ρ : ε → Type} {γ α : Type} (callback : Callback ε ρ γ α) (n : ℕ) :
    Prop :=
  ∀ value rest m, rest.Calls m → (callback value rest).Calls (n+m)

theorem Callback.Calls.last {ε : Type} {ρ : ε → Type} {γ α : Type}
    {callback : Callback ε ρ γ α} {n : ℕ} (h : callback.Calls n) (value : α) :
    (callback value .done).Calls n :=
  h value .done 0 Task.calls_done

namespace Task

variable {ε : Type} {ρ : ε → Type} {γ : Type}

/-- With `known` behind it, the task calls its caller and starts an operation only where that
is allowed. -/
def Gated (allowed : List (Event ε ρ γ) → Event ε ρ γ → Prop) :
    List (Event ε ρ γ) → Task ε ρ γ → Prop
  | _, .done => True
  | known, .call value rest =>
      allowed known (.called value) ∧ Gated allowed (.called value :: known) rest
  | known, .ask op cont => ∀ reply, Gated allowed (.asked op reply :: known) (cont reply)
  | known, .start op callback rest =>
      allowed known (.started op) ∧
        (∀ reply, Gated allowed (.completed op reply :: known) (callback reply)) ∧
        Gated allowed known rest
  | known, .submit task rest =>
      Gated allowed known task ∧ ∀ accepted, Gated allowed known (rest accepted)

/-- What is allowed stays allowed when more has happened. -/
def Lasting (allowed : List (Event ε ρ γ) → Event ε ρ γ → Prop) : Prop :=
  ∀ known known' e, known ⊆ known' → allowed known e → allowed known' e

theorem tail_of_ne {α : Type*} {x y : α} {xs pre post : List α} (h : x :: xs = pre++y :: post)
    (hne : x ≠ y) : ∃ pre', pre = x :: pre' ∧ xs = pre'++y :: post := by
  cases pre with
  | nil =>
    obtain ⟨rfl, -⟩ := by simpa using h
    exact absurd rfl hne
  | cons x' pre =>
    obtain ⟨rfl, hrest⟩ := by simpa using h
    exact ⟨pre, rfl, hrest⟩

/-- What a task does by itself it does where it is allowed by what was known and what has
happened. -/
theorem Trace.allowed {allowed : List (Event ε ρ γ) → Event ε ρ γ → Prop}
    (hlasting : Lasting allowed) {t : Task ε ρ γ} {events known : List (Event ε ρ γ)}
    (h : t.Trace events) (hgated : t.Gated allowed known) {pre post seen : List (Event ε ρ γ)}
    {e : Event ε ρ γ} (hown : e.isOwn) (heq : events = pre++e :: post) (hpre : pre ⊆ seen)
    (hknown : known ⊆ seen) : allowed seen e := by
  -- on the trace; what is known grows with each event that the task waits for
  induction h generalizing known pre post with
  | done => simp at heq
  | @call value rest events h ih =>
    obtain ⟨hcall, hrest⟩ := hgated
    cases pre with
    | nil =>
      obtain ⟨rfl, -⟩ := by simpa using heq
      exact hlasting _ _ _ hknown hcall
    | cons e' pre =>
      obtain ⟨rfl, hevents⟩ := by simpa using heq
      obtain ⟨hhead, hpre⟩ := List.cons_subset.mp hpre
      exact ih hrest hevents hpre (List.cons_subset.mpr ⟨hhead, hknown⟩)
  | @ask op cont events reply h ih =>
    obtain ⟨pre', rfl, hrest⟩ := tail_of_ne heq (by cases e <;> simp_all [Event.isOwn])
    obtain ⟨hhead, hpre'⟩ := List.cons_subset.mp hpre
    exact ih (hgated reply) hrest hpre' (List.cons_subset.mpr ⟨hhead, hknown⟩)
  | @start op callback rest events events₁ events₂ reply h₁ h₂ hmix ih₁ ih₂ =>
    obtain ⟨hop, hcallback, hgated⟩ := hgated
    cases pre with
    | nil =>
      obtain ⟨rfl, -⟩ := by simpa using heq
      exact hlasting _ _ _ hknown hop
    | cons e' pre =>
      obtain ⟨rfl, hevents⟩ := by simpa using heq
      obtain ⟨-, hpre⟩ := List.cons_subset.mp hpre
      -- it is done in the callback, after its answer, or in the rest
      rcases hmix.split hevents with ⟨pre', post', hleft, hsub⟩ | ⟨pre', post', hright, hsub⟩
      · obtain ⟨pre'', rfl, hcont⟩ := tail_of_ne hleft (by cases e <;> simp_all [Event.isOwn])
        obtain ⟨hhead, hpre''⟩ := List.cons_subset.mp (List.Subset.trans hsub hpre)
        exact ih₁ (hcallback reply) hcont hpre'' (List.cons_subset.mpr ⟨hhead, hknown⟩)
      · exact ih₂ hgated hright (List.Subset.trans hsub hpre) hknown
  | @accepted task rest events events₁ events₂ h₁ h₂ hmix ih₁ ih₂ =>
    obtain ⟨pre', rfl, hevents⟩ := tail_of_ne heq (by cases e <;> simp_all [Event.isOwn])
    obtain ⟨-, hpre'⟩ := List.cons_subset.mp hpre
    obtain ⟨htask, hrest⟩ := hgated
    -- by the workers, or by the submitter meanwhile
    rcases hmix.split hevents with ⟨pre₁, post', hleft, hsub⟩ | ⟨pre₁, post', hright, hsub⟩
    · exact ih₁ htask hleft (List.Subset.trans hsub hpre') hknown
    · exact ih₂ (hrest true) hright (List.Subset.trans hsub hpre') hknown
  | @rejected task rest events h ih =>
    obtain ⟨pre', rfl, hevents⟩ := tail_of_ne heq (by cases e <;> simp_all [Event.isOwn])
    obtain ⟨-, hpre'⟩ := List.cons_subset.mp hpre
    exact ih (hgated.2 false) hevents hpre' hknown

/-- What has happened so far, when the task is not through yet. -/
def SoFar (t : Task ε ρ γ) (events : List (Event ε ρ γ)) : Prop :=
  ∃ more, t.Trace (events++more)

theorem Calls.soFar {t : Task ε ρ γ} {n : ℕ} (h : t.Calls n) {events : List (Event ε ρ γ)}
    (ht : t.SoFar events) : callCount events ≤ n := by
  obtain ⟨more, ht⟩ := ht
  have hcount := h _ ht
  simp only [callCount, List.countP_append] at hcount ⊢
  omega

theorem SoFar.allowed {allowed : List (Event ε ρ γ) → Event ε ρ γ → Prop}
    (hlasting : Lasting allowed) {t : Task ε ρ γ} {pre post : List (Event ε ρ γ)}
    {e : Event ε ρ γ} (h : t.SoFar (pre++e :: post)) (hgated : t.Gated allowed [])
    (hown : e.isOwn) : allowed pre e := by
  obtain ⟨more, ht⟩ := h
  exact ht.allowed hlasting hgated hown (List.append_assoc pre (e :: post) more)
    (List.Subset.refl pre) (List.nil_subset pre)

end Task
end JingjieAR.Callbacks
