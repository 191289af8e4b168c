import Mathlib.Data.Nat.Notation
import Mathlib.Logic.Relation

/-! Machines that read a growing buffer from its front. A move may wait for more
input; what a move does must not change when input is appended behind it.
Then the way the input is cut into chunks does not matter. -/
namespace JingjieAR.Incremental

variable {σ α ε κ : Type*}

inductive Move (σ α ε : Type*)
  | wait
  | done
  | advance (s : σ) (rest : List α)
  | fail (e : ε)

inductive Verdict (σ α ε : Type*)
  | waiting (s : σ) (rest : List α)
  | completed (s : σ) (rest : List α)
  | failed (e : ε)
deriving DecidableEq

/-- Keep only `code e` of an error `e`. -/
def Verdict.mapError (code : ε → κ) : Verdict σ α ε → Verdict σ α κ
  | .waiting s rest => .waiting s rest
  | .completed s rest => .completed s rest
  | .failed e => .failed (code e)

/-- Started in `s` on the buffer `b` the machine moves until it stops with `v`. -/
inductive Drives (step : σ → List α → Move σ α ε) : σ → List α → Verdict σ α ε → Prop
  | wait {s : σ} {b : List α} (h : step s b = .wait) : Drives step s b (.waiting s b)
  | done {s : σ} {b : List α} (h : step s b = .done) : Drives step s b (.completed s b)
  | fail {s : σ} {b : List α} {e : ε} (h : step s b = .fail e) : Drives step s b (.failed e)
  | advance {s s' : σ} {b b' : List α} {v : Verdict σ α ε} (h : step s b = .advance s' b')
      (ht : Drives step s' b' v) : Drives step s b v

/-- Some moves lead from `p` to `q`; the machine need not stop there. -/
def Advances (step : σ → List α → Move σ α ε) : σ × List α → σ × List α → Prop :=
  Relation.ReflTransGen (fun p q => step p.1 p.2 = .advance q.1 q.2)

theorem drives_advance_iff {step : σ → List α → Move σ α ε} {s s' : σ} {b b' : List α}
    {v : Verdict σ α ε} (hb : step s b = .advance s' b') :
    Drives step s b v ↔ Drives step s' b' v := by
  refine ⟨?_, .advance hb⟩
  intro h
  cases h with
  | wait h => rw [hb] at h; contradiction
  | done h => rw [hb] at h; contradiction
  | fail h => rw [hb] at h; contradiction
  | advance h ht =>
    rw [hb] at h
    injection h with hs hr
    exact hs ▸ hr ▸ ht

theorem drives_unique {step : σ → List α → Move σ α ε} {s : σ} {b : List α}
    {v w : Verdict σ α ε} (hv : Drives step s b v) (hw : Drives step s b w) : v = w := by
  induction hv with
  | wait h => cases hw <;> simp_all
  | done h => cases hw <;> simp_all
  | fail h => cases hw <;> simp_all
  | advance h _ ih => exact ih ((drives_advance_iff h).mp hw)

theorem drives_advances_iff {step : σ → List α → Move σ α ε} {p q : σ × List α}
    {v : Verdict σ α ε} (h : Advances step p q) :
    Drives step p.1 p.2 v ↔ Drives step q.1 q.2 v := by
  induction h using Relation.ReflTransGen.head_induction_on with
  | refl => rfl
  | head hm _ ih => exact (drives_advance_iff hm).trans ih

/-- A machine that stops got there by moves and then waits, is done or fails. -/
theorem drives_iff_advances {step : σ → List α → Move σ α ε} {s : σ} {b : List α}
    {v : Verdict σ α ε} (h : Drives step s b v) :
    ∃ q, Advances step (s,b) q ∧
      ((step q.1 q.2 = .wait ∧ v = .waiting q.1 q.2) ∨
       (step q.1 q.2 = .done ∧ v = .completed q.1 q.2) ∨
       ∃ e, step q.1 q.2 = .fail e ∧ v = .failed e) := by
  induction h with
  | wait h => exact ⟨(_,_), .refl, .inl ⟨h, rfl⟩⟩
  | done h => exact ⟨(_,_), .refl, .inr (.inl ⟨h, rfl⟩)⟩
  | fail h => exact ⟨(_,_), .refl, .inr (.inr ⟨_, h, rfl⟩)⟩
  | advance h _ ih =>
    obtain ⟨q, hq, hv⟩ := ih
    exact ⟨q, .head h hq, hv⟩

/-- What a move does is decided by the bytes it has seen: more input behind them
changes neither the move nor, for a failure, its code. -/
structure Stable (step : σ → List α → Move σ α ε) (code : ε → κ) : Prop where
  advance : ∀ {s b s' r} (c : List α), step s b = .advance s' r →
    step s (b++c) = .advance s' (r++c)
  done : ∀ {s b} (c : List α), step s b = .done → step s (b++c) = .done
  fail : ∀ {s b e} (c : List α), step s b = .fail e →
    ∃ e', step s (b++c) = .fail e' ∧ code e' = code e

section Chunks

variable {step : σ → List α → Move σ α ε} {code : ε → κ} (hst : Stable step code)
include hst

theorem drives_append_of_waiting {s s' : σ} {b r : List α}
    (h : Drives step s b (.waiting s' r)) (c : List α) (v : Verdict σ α ε) :
    Drives step s (b++c) v ↔ Drives step s' (r++c) v := by
  generalize hw : Verdict.waiting s' r = w at h
  induction h with
  | wait h => injection hw with hs hr; rw [hs, hr]
  | done h => contradiction
  | fail h => contradiction
  | advance h _ ih => exact (drives_advance_iff (hst.advance c h)).trans (ih hw)

theorem drives_append_of_completed {s s' : σ} {b r : List α}
    (h : Drives step s b (.completed s' r)) (c : List α) :
    Drives step s (b++c) (.completed s' (r++c)) ∧
      Drives step s' (r++c) (.completed s' (r++c)) := by
  generalize hw : Verdict.completed s' r = w at h
  induction h with
  | wait h => contradiction
  | done h =>
    injection hw with hs hr
    rw [hs, hr]
    exact ⟨.done (hst.done c h), .done (hst.done c h)⟩
  | fail h => contradiction
  | advance h _ ih => exact ⟨.advance (hst.advance c h) (ih hw).1, (ih hw).2⟩

theorem drives_append_of_failed {s : σ} {b : List α} {e : ε}
    (h : Drives step s b (.failed e)) (c : List α) :
    ∃ e', Drives step s (b++c) (.failed e') ∧ code e' = code e := by
  generalize hw : Verdict.failed e = w at h
  induction h with
  | wait h => contradiction
  | done h => contradiction
  | fail h =>
    injection hw with he
    obtain ⟨e', he', hc⟩ := hst.fail c h
    exact ⟨e', .fail he', by rw [hc, he]⟩
  | advance h _ ih =>
    obtain ⟨e', he', hc⟩ := ih hw
    exact ⟨e', .advance (hst.advance c h) he', hc⟩

omit hst in
/-- One more chunk arrives: it is put behind the unread input and the machine
runs again, unless it has already failed. -/
def feed (run : σ → List α → Verdict σ α ε) : Verdict σ α ε → List α → Verdict σ α ε
  | .waiting s rest, chunk => run s (rest++chunk)
  | .completed s rest, chunk => run s (rest++chunk)
  | .failed e, _ => .failed e

/-- Feeding chunk after chunk and running once on everything give the same
verdict, up to what `code` forgets of an error. -/
theorem feed_chunks_eq_run {run : σ → List α → Verdict σ α ε}
    (hrun : ∀ s b, Drives step s b (run s b)) (s : σ) (b : List α) (chunks : List (List α)) :
    (chunks.foldl (feed run) (run s b)).mapError code =
      (run s (b++chunks.flatten)).mapError code := by
  induction chunks generalizing b with
  | nil => simp
  | cons c cs ih =>
    -- Move the first chunk into the buffer; the cases are what the machine did before it came.
    rw [List.flatten_cons, ← List.append_assoc, ← ih (b++c), List.foldl_cons]
    have hb := hrun s b
    cases hv : run s b with
    | waiting s' r =>
      rw [hv] at hb
      have he := drives_unique (hrun s (b++c))
        ((drives_append_of_waiting hst hb c _).mpr (hrun s' (r++c)))
      rw [he, feed]
    | completed s' r =>
      rw [hv] at hb
      obtain ⟨h1, h2⟩ := drives_append_of_completed hst hb c
      rw [drives_unique (hrun s (b++c)) h1, feed, drives_unique (hrun s' (r++c)) h2]
    | failed e =>
      rw [hv] at hb
      obtain ⟨e', he', hc⟩ := drives_append_of_failed hst hb c
      -- Once failed, no later chunk is looked at, on either side.
      have hstay (e : ε) : cs.foldl (feed run) (.failed e) = .failed e := by
        clear ih
        induction cs with
        | nil => rfl
        | cons c' cs ih' => rw [List.foldl_cons, feed, ih']
      rw [drives_unique (hrun s (b++c)) he', feed, hstay, hstay]
      simp [Verdict.mapError, hc]

end Chunks

end JingjieAR.Incremental
