import JingjieAR.ViewStatisticsModel
import Mathlib.Tactic.Common

/-! Every page start is counted once. The committed total of an exhibition is the number
of its committed events; a transaction that has inserted its event and not yet committed
is the only one to have that key, and the only one to change that total. -/
namespace JingjieAR.ViewSystem

open Runs (Run Guarded)

/-- The page start of this key is among the committed events, and `n` is a total that
counts it. -/
def Counted (s : ViewSystem) (key : Bytes × Bytes) (n : ℕ) : Prop :=
  key ∈ s.events ∧ 1 ≤ n ∧ n ≤ s.total key.1

/-- The transaction adds the event and counts it, or the event is there already. -/
def Entitled (s : ViewSystem) (task : ViewTask) : Prop :=
  (task.event = true ∧ task.key ∉ s.events ∧ task.total = some (s.total task.exhibitionId+1)) ∨
  (task.event = false ∧ task.total = none ∧ task.key ∈ s.events)

/-- What holds of a task before its next call. -/
def TaskInv (s : ViewSystem) (task : ViewTask) : Prop :=
  match task.stage with
  | .autocommitOff => task.event = false ∧ task.total = none
  | .insertViewEvent => task.event = false ∧ task.total = none
  | .increment => task.event = true ∧ task.total = none ∧ task.key ∉ s.events
  | .selectCount => s.Entitled task
  | .commit => s.Entitled task ∧ (task.event = true → task.total = some task.count) ∧
      (task.event = false → s.Counted task.key task.count)
  | .rollback => task.ok = false
  | .autocommitOn => task.event = false ∧ task.total = none ∧
      (task.ok = true → s.Counted task.key task.count)

/-- Two open transactions hold different rows. -/
def Apart (task task' : ViewTask) : Prop :=
  (task.event = true → task'.event = true → task.key ≠ task'.key) ∧
  (task.total.isSome = true → task'.total.isSome = true →
    task.exhibitionId ≠ task'.exhibitionId)

theorem Apart.symm {task task' : ViewTask} (h : Apart task task') : Apart task' task :=
  ⟨fun he he' => (h.1 he' he).symm, fun ht ht' => (h.2 ht' ht).symm⟩

structure Inv (s : ViewSystem) : Prop where
  totals : ∀ e, s.total e = (s.eventsOf e).length
  nodup : s.events.Nodup
  task : ∀ t task, s.tasks t = some task → s.TaskInv task
  apart : ∀ t t' task task', t ≠ t' → s.tasks t = some task → s.tasks t' = some task' →
    Apart task task'
  reports : ∀ r ∈ s.reports, r.ok = true →
    s.Counted (r.exhibitionId, r.bootstrapRequestId) r.count

variable {s s' : ViewSystem} {t : ℕ} {task x : ViewTask}

theorem inv_empty : Inv {} := by
  refine ⟨fun e => rfl, List.nodup_nil, ?_, ?_, ?_⟩
  · intro t task h
    simp at h
  · intro t t' task task' hne h
    simp at h
  · intro r hr
    simp at hr

/-- A committed event has been counted. -/
theorem Inv.one_le_total (h : s.Inv) {key : Bytes × Bytes} (hkey : key ∈ s.events) :
    1 ≤ s.total key.1 := by
  rw [h.totals]
  exact List.length_pos_of_mem (List.mem_filter.mpr ⟨hkey, by simp⟩)

theorem Inv.setTask (h : s.Inv) (hx : s.TaskInv x)
    (hapart : ∀ t' task', t' ≠ t → s.tasks t' = some task' → Apart x task') :
    (s.setTask t x).Inv := by
  refine ⟨h.totals, h.nodup, ?_, ?_, h.reports⟩
  · intro t₁ task₁ h₁
    by_cases ht : t₁ = t
    · subst ht
      obtain rfl : x = task₁ := by simpa [ViewSystem.setTask] using h₁
      exact hx
    · exact h.task t₁ task₁ (by simpa [ViewSystem.setTask, ht] using h₁)
  · intro t₁ t₂ task₁ task₂ hne h₁ h₂
    by_cases ht₁ : t₁ = t
    · subst ht₁
      obtain rfl : x = task₁ := by simpa [ViewSystem.setTask] using h₁
      exact hapart t₂ task₂ hne.symm (by simpa [ViewSystem.setTask, hne.symm] using h₂)
    · have h₁' : s.tasks t₁ = some task₁ := by simpa [ViewSystem.setTask, ht₁] using h₁
      by_cases ht₂ : t₂ = t
      · subst ht₂
        obtain rfl : x = task₂ := by simpa [ViewSystem.setTask] using h₂
        exact (hapart t₁ task₁ ht₁ h₁').symm
      · exact h.apart t₁ t₂ task₁ task₂ hne h₁' (by simpa [ViewSystem.setTask, ht₂] using h₂)

/-- A step that locks no further row. -/
theorem Inv.continueTask (h : s.Inv) (htask : s.tasks t = some task) (hx : s.TaskInv x)
    (hkey : x.key = task.key) (hevent : x.event = true → task.event = true)
    (htotal : x.total.isSome = true → task.total.isSome = true) : (s.setTask t x).Inv := by
  refine h.setTask hx ?_
  intro t' task' hne h'
  obtain ⟨hevents, htotals⟩ := h.apart t t' task task' hne.symm htask h'
  have hid : x.exhibitionId = task.exhibitionId := congrArg Prod.fst hkey
  refine ⟨?_, ?_⟩
  · intro he he'
    rw [hkey]
    exact hevents (hevent he) he'
  · intro ht ht'
    rw [hid]
    exact htotals (htotal ht) ht'

theorem Inv.failTask (h : s.Inv) (htask : s.tasks t = some task) : (s.failTask t task).Inv :=
  h.continueTask htask (show TaskInv s { task with stage := .rollback, ok := false } from rfl) rfl
    id id

theorem Inv.complete (h : s.Inv) {ok : Bool} (hok : ok = true → s.Counted task.key task.count) :
    (s.complete t task ok).Inv := by
  have hold : ∀ t' task', (s.complete t task ok).tasks t' = some task' →
      s.tasks t' = some task' := by
    intro t' task' h'
    by_cases ht : t' = t
    · subst ht
      simp [ViewSystem.complete] at h'
    · simpa [ViewSystem.complete, ht] using h'
  refine ⟨h.totals, h.nodup, ?_, ?_, ?_⟩
  · intro t' task' h'
    exact h.task t' task' (hold t' task' h')
  · intro t₁ t₂ task₁ task₂ hne h₁ h₂
    exact h.apart t₁ t₂ task₁ task₂ hne (hold _ _ h₁) (hold _ _ h₂)
  · intro r hr hrok
    rcases List.mem_append.mp hr with hr | hr
    · exact h.reports r hr hrok
    · obtain rfl := List.mem_singleton.mp hr
      have hcount := hok hrok
      simp only [if_pos (show ok = true from hrok)]
      exact hcount

section Commit

variable {n : ℕ}

theorem commitTask_events (hevent : task.event = true) :
    (s.commitTask t task).events = s.events++[task.key] := by
  simp [commitTask, hevent]

theorem commitTask_total (htotal : task.total = some n) (e : Bytes) :
    (s.commitTask t task).total e = if e = task.exhibitionId then n else s.total e := by
  rw [total, commitTask, htotal]
  by_cases he : e = task.exhibitionId
  · simp [he]
  · simp [he, total]

theorem commitTask_eventsOf (hevent : task.event = true) (e : Bytes) :
    ((s.commitTask t task).eventsOf e).length =
      (s.eventsOf e).length+(if e = task.exhibitionId then 1 else 0) := by
  rw [eventsOf, commitTask_events hevent, List.filter_append, List.length_append]
  by_cases he : e = task.exhibitionId
  · simp [he, eventsOf, ViewTask.key]
  · have hne : ¬task.exhibitionId = e := fun h => he h.symm
    simp [he, hne, eventsOf, ViewTask.key]

theorem Counted.commitTask (hevent : task.event = true) (htotal : task.total = some n)
    (hn : n = s.total task.exhibitionId+1) {key : Bytes × Bytes} {m : ℕ} (h : s.Counted key m) :
    (s.commitTask t task).Counted key m := by
  obtain ⟨hmem, hone, hle⟩ := h
  refine ⟨?_, hone, ?_⟩
  · rw [commitTask_events hevent]
    exact List.mem_append_left _ hmem
  · rw [commitTask_total htotal]
    split_ifs with he
    · rw [he] at hle
      omega
    · exact hle

/-- The other tasks do not notice: their rows are different ones. -/
theorem TaskInv.commitTask (hevent : task.event = true) (htotal : task.total = some n)
    (hn : n = s.total task.exhibitionId+1) {task' : ViewTask}
    (hapart : Apart task task') (h : s.TaskInv task') : (s.commitTask t task).TaskInv task' := by
  have hevents := commitTask_events (s := s) (t := t) hevent
  have hkey : task'.event = true → task'.key ∉ s.events →
      task'.key ∉ (s.commitTask t task).events := by
    intro he hnot
    rw [hevents, List.mem_append, List.mem_singleton]
    exact not_or.mpr ⟨hnot, fun heq => hapart.1 hevent he heq.symm⟩
  have hentitled : s.Entitled task' → (s.commitTask t task).Entitled task' := by
    intro hent
    rcases hent with ⟨he, hnot, ht⟩ | ⟨he, ht, hmem⟩
    · -- Two raised totals belong to different exhibitions.
      have hne : task'.exhibitionId ≠ task.exhibitionId :=
        (hapart.2 (by rw [htotal]; rfl) (by rw [ht]; rfl)).symm
      refine .inl ⟨he, hkey he hnot, ?_⟩
      rw [commitTask_total htotal, if_neg hne, ht]
    · exact .inr ⟨he, ht, by rw [hevents]; exact List.mem_append_left _ hmem⟩
  have hcounted : ∀ {m}, s.Counted task'.key m → (s.commitTask t task).Counted task'.key m :=
    fun hc => hc.commitTask hevent htotal hn
  -- The stages that look at no committed row are untouched.
  unfold TaskInv at h ⊢
  cases hs : task'.stage with
  | autocommitOff => simpa only [hs] using h
  | insertViewEvent => simpa only [hs] using h
  | increment =>
    simp only [hs] at h ⊢
    exact ⟨h.1, h.2.1, hkey h.1 h.2.2⟩
  | selectCount =>
    simp only [hs] at h ⊢
    exact hentitled h
  | commit =>
    simp only [hs] at h ⊢
    exact ⟨hentitled h.1, h.2.1, fun he => hcounted (h.2.2 he)⟩
  | rollback => simpa only [hs] using h
  | autocommitOn =>
    simp only [hs] at h ⊢
    exact ⟨h.1, h.2.1, fun hok => hcounted (h.2.2 hok)⟩

/-- A commit of a new event adds one row and one to its total. -/
theorem Inv.commitNew (h : s.Inv) (hevent : task.event = true) (htotal : task.total = some n)
    (htask : s.tasks t = some task)
    (hn : n = s.total task.exhibitionId+1) (hnew : task.key ∉ s.events)
    (hcount : task.count = n) : (s.commitTask t task).Inv := by
  have hevents := commitTask_events (s := s) (t := t) hevent
  have hself : (s.commitTask t task).TaskInv
      { task with stage := .autocommitOn, event := false, total := none } := by
    refine ⟨rfl, rfl, fun _ => ⟨?_, ?_, ?_⟩⟩
    · rw [hevents]
      exact List.mem_append_right _ (List.mem_singleton_self _)
    · show 1 ≤ task.count
      omega
    · show task.count ≤ (s.commitTask t task).total task.exhibitionId
      rw [commitTask_total htotal, if_pos rfl, hcount]
  have hcases : ∀ t' task', (s.commitTask t task).tasks t' = some task' →
      (t' = t ∧ task' = { task with stage := .autocommitOn, event := false, total := none }) ∨
      (t' ≠ t ∧ s.tasks t' = some task') := by
    intro t' task' h'
    by_cases ht : t' = t
    · subst ht
      simp only [ViewSystem.commitTask, Function.update_self] at h'
      exact .inl ⟨rfl, (Option.some.inj h').symm⟩
    · exact .inr ⟨ht, by simpa [ViewSystem.commitTask, ht] using h'⟩
  refine ⟨?_, ?_, ?_, ?_, ?_⟩
  · intro e
    rw [commitTask_total htotal, commitTask_eventsOf hevent, ← h.totals]
    split_ifs with he
    · rw [he, hn]
    · rw [Nat.add_zero]
  · rw [hevents, List.nodup_append]
    refine ⟨h.nodup, List.nodup_singleton _, ?_⟩
    intro k hk k' hk' heq
    obtain rfl := List.mem_singleton.mp hk'
    exact hnew (heq ▸ hk)
  · intro t' task' h'
    rcases hcases t' task' h' with ⟨-, rfl⟩ | ⟨hne, h'⟩
    · exact hself
    · exact (h.task t' task' h').commitTask hevent htotal hn
        (h.apart t t' task task' hne.symm htask h')
  · intro t₁ t₂ task₁ task₂ hne h₁ h₂
    -- The committed task holds no row any more.
    rcases hcases t₁ task₁ h₁ with ⟨-, rfl⟩ | ⟨hne₁, h₁⟩
    · exact ⟨fun he => by contradiction, fun ht => by contradiction⟩
    · rcases hcases t₂ task₂ h₂ with ⟨-, rfl⟩ | ⟨hne₂, h₂⟩
      · exact ⟨fun _ he => by contradiction, fun _ ht => by contradiction⟩
      · exact h.apart t₁ t₂ task₁ task₂ hne h₁ h₂
  · intro r hr hok
    exact (h.reports r hr hok).commitTask hevent htotal hn

end Commit

theorem Inv.commitTask (h : s.Inv) (htask : s.tasks t = some task)
    (hstage : task.stage = .commit) : (s.commitTask t task).Inv := by
  have hinv := h.task t task htask
  simp only [TaskInv, hstage] at hinv
  obtain ⟨hentitled, hnew, hdup⟩ := hinv
  rcases hentitled with ⟨hevent, hnot, htotal⟩ | ⟨hevent, htotal, hmem⟩
  · have hcount : task.count = s.total task.exhibitionId+1 :=
      Option.some.inj ((hnew hevent).symm.trans htotal)
    exact h.commitNew hevent htotal htask rfl hnot hcount
  · -- Nothing was written.
    have hset : s.commitTask t task =
        s.setTask t { task with stage := .autocommitOn, event := false, total := none } := by
      simp [ViewSystem.commitTask, ViewSystem.setTask, hevent, htotal]
    rw [hset]
    exact h.continueTask htask ⟨rfl, rfl, fun _ => hdup hevent⟩ rfl (fun he => by contradiction)
      (fun ht => by contradiction)

/-- Reading the total: the own row, or the committed one that counts the event. -/
theorem Inv.selectCount (h : s.Inv) (htask : s.tasks t = some task)
    (hstage : task.stage = .selectCount) {n : ℕ}
    (hn : task.total.or (s.totals task.exhibitionId) = some n) :
    (s.setTask t { task with stage := .commit, count := n }).Inv := by
  have hinv := h.task t task htask
  simp only [TaskInv, hstage] at hinv
  refine h.continueTask htask ⟨hinv, ?_, ?_⟩ rfl id id
  · intro hevent
    rcases hinv with ⟨-, -, htotal⟩ | ⟨hno, -⟩
    · rw [htotal, Option.some_or] at hn
      exact htotal.trans hn
    · exact absurd (hevent.symm.trans hno) (by decide)
  · intro hno
    rcases hinv with ⟨hevent, -⟩ | ⟨-, htotal, hmem⟩
    · exact absurd (hevent.symm.trans hno) (by decide)
    · rw [htotal, Option.none_or] at hn
      have hread : s.total task.exhibitionId = n := by rw [total, hn, Option.getD_some]
      refine ⟨hmem, ?_, ?_⟩
      · exact hread ▸ h.one_le_total hmem
      · exact hread.ge

theorem inv_advance (h : s.Inv) {result : CallResult} (hu : s.Unlocked (.run t result))
    (htask : s.tasks t = some task) (hs : s.advance t task result = some s') : s'.Inv := by
  have hinv := h.task t task htask
  unfold advance at hs
  split at hs <;> rename_i hstage
  · obtain rfl := Option.some.inj hs
    exact h.complete (fun hok => by contradiction)
  · obtain rfl := Option.some.inj hs
    simp only [TaskInv, hstage] at hinv
    exact h.continueTask htask hinv rfl id id
  · obtain rfl := Option.some.inj hs
    exact h.failTask htask
  · -- The event is inserted: nobody else holds its key.
    split_ifs at hs with hmem
    obtain rfl := Option.some.inj hs
    simp only [TaskInv, hstage] at hinv
    refine h.setTask ⟨rfl, hinv.2, hmem⟩ ?_
    intro t' task' hne h'
    refine ⟨fun _ he => ((hu task htask t' task' hne h').1 hstage he).symm, fun ht => ?_⟩
    rw [hinv.2] at ht
    contradiction
  · split_ifs at hs with hmem
    obtain rfl := Option.some.inj hs
    simp only [TaskInv, hstage] at hinv
    exact h.continueTask htask (.inr ⟨hinv.1, hinv.2, hmem⟩) rfl id id
  · obtain rfl := Option.some.inj hs
    exact h.failTask htask
  · -- The total is raised: nobody else holds its row.
    obtain rfl := Option.some.inj hs
    simp only [TaskInv, hstage] at hinv
    refine h.setTask (.inl ⟨hinv.1, hinv.2.2, rfl⟩) ?_
    intro t' task' hne h'
    refine ⟨(h.apart t t' task task' hne.symm htask h').1, fun _ ht => ?_⟩
    exact ((hu task htask t' task' hne h').2 hstage ht).symm
  · obtain rfl := Option.some.inj hs
    exact h.failTask htask
  · split at hs
    · rename_i n hn
      obtain rfl := Option.some.inj hs
      exact h.selectCount htask hstage hn
    · contradiction
  · obtain rfl := Option.some.inj hs
    exact h.failTask htask
  · obtain rfl := Option.some.inj hs
    exact h.commitTask htask hstage
  · obtain rfl := Option.some.inj hs
    exact h.failTask htask
  · obtain rfl := Option.some.inj hs
    simp only [TaskInv, hstage] at hinv
    exact h.continueTask htask
      ⟨rfl, rfl, fun hok => absurd (hinv.symm.trans hok) (by decide)⟩ rfl
      (fun he => by contradiction) (fun ht => by contradiction)
  · obtain rfl := Option.some.inj hs
    simp only [TaskInv, hstage] at hinv
    exact h.complete hinv.2.2
  · obtain rfl := Option.some.inj hs
    exact h.complete (fun hok => by contradiction)
  · contradiction

theorem step_inv {event : ViewEvent} (h : s.Inv) (hs : s.Step event s') : s'.Inv := by
  obtain ⟨hunlocked, hnext⟩ := hs
  cases event with
  | run t result =>
    simp only [next] at hnext
    split at hnext
    · contradiction
    · rename_i task htask
      exact inv_advance h hunlocked htask hnext
  | call t exhibitionId bootstrapRequestId submitted =>
    simp only [next] at hnext
    split_ifs at hnext with hfree hvalid
    · obtain rfl := Option.some.inj hnext
      exact h.setTask ⟨rfl, rfl⟩
        (fun t' task' _ _ => ⟨fun he => by contradiction, fun ht => by contradiction⟩)
    · obtain rfl := Option.some.inj hnext
      refine ⟨h.totals, h.nodup, h.task, h.apart, ?_⟩
      intro r hr hok
      rcases List.mem_append.mp hr with hr | hr
      · exact h.reports r hr hok
      · obtain rfl := List.mem_singleton.mp hr
        contradiction

/-- The task that an event is about. -/
def taskOf : ViewEvent → ℕ
  | .call t _ _ _ => t
  | .run t _ => t

/-- A call leaves the other tasks alone. -/
theorem advance_tasks {result : CallResult} {t' : ℕ} (hne : t' ≠ t)
    (h : s.advance t task result = some s') : s'.tasks t' = s.tasks t' := by
  unfold advance at h
  split at h
  case h_4 | h_5 =>
    split_ifs at h
    obtain rfl := Option.some.inj h
    exact Function.update_of_ne hne _ _
  case h_9 =>
    split at h
    · obtain rfl := Option.some.inj h
      exact Function.update_of_ne hne _ _
    · contradiction
  case h_16 => contradiction
  all_goals
    obtain rfl := Option.some.inj h
    exact Function.update_of_ne hne _ _

theorem next_tasks {event : ViewEvent} {t' : ℕ} (hne : t' ≠ taskOf event)
    (h : s.next event = some s') : s'.tasks t' = s.tasks t' := by
  cases event with
  | call t exhibitionId bootstrapRequestId submitted =>
    simp only [next] at h
    split_ifs at h
    · obtain rfl := Option.some.inj h
      exact Function.update_of_ne hne _ _
    · obtain rfl := Option.some.inj h
      rfl
  | run t result =>
    simp only [next] at h
    split at h
    · contradiction
    · exact advance_tasks hne h

theorem unlocked_of_alone {event : ViewEvent}
    (halone : ∀ t', t' ≠ taskOf event → s.tasks t' = none) : s.Unlocked event := by
  unfold Unlocked
  split
  · intro task htask t' task' hne h'
    rw [halone t' hne] at h'
    contradiction
  · exact trivial

theorem run_alone {events : List ViewEvent} (ht : ∀ event ∈ events, taskOf event = t)
    (halone : ∀ t', t' ≠ t → s.tasks t' = none)
    (h : Runs.replay (fun _ _ => True) next s events = some s') : Run Step s events s' := by
  induction events generalizing s with
  | nil =>
    obtain rfl := Option.some.inj h
    exact .nil s
  | cons event events ih =>
    simp only [Runs.replay, if_true] at h
    obtain ⟨s₁, h₁, hrest⟩ := Option.bind_eq_some_iff.mp h
    obtain ⟨hevent, hevents⟩ := List.forall_mem_cons.mp ht
    have halone' : ∀ t', t' ≠ taskOf event → s.tasks t' = none := by
      rw [hevent]
      exact halone
    refine .cons ⟨unlocked_of_alone halone', h₁⟩ (ih hevents ?_ hrest)
    intro t' hne
    rw [next_tasks (hevent ▸ hne) h₁, halone t' hne]

/-- In every run from empty tables the committed total of an exhibition is the number of
its committed events, no page start is among them twice, and a call that has reported
success has its page start counted once, with a count of at least 1 and at most the
committed total. -/
theorem views_counted_once {events : List ViewEvent} (h : Run Step {} events s) :
    (∀ e, s.total e = (s.eventsOf e).length) ∧ (∀ key, s.events.count key ≤ 1) ∧
    ∀ r ∈ s.reports, r.ok = true →
      s.events.count (r.exhibitionId, r.bootstrapRequestId) = 1 ∧ 1 ≤ r.count ∧
        r.count ≤ s.total r.exhibitionId := by
  have hinv : s.Inv := h.invariant (fun _ _ _ => step_inv) inv_empty
  refine ⟨hinv.totals, ?_, ?_⟩
  · intro key
    exact List.nodup_iff_count_le_one.mp hinv.nodup key
  · intro r hr hok
    obtain ⟨hmem, hone, hle⟩ := hinv.reports r hr hok
    exact ⟨List.count_eq_one_of_mem hinv.nodup hmem, hone, hle⟩

/-- A page start that is tried three times: the first transaction is rolled back, the
second one counts it, the third one finds it there. -/
def threeAttempts : List ViewEvent :=
  let start := ViewEvent.call 0 (ascii "hall") (ascii "start") true
  start :: ([.done, .done, .failed, .done, .done].map (.run 0)++
    start :: ([.done, .done, .done, .done, .done, .done].map (.run 0)++
      start :: [.done, .duplicate, .done, .done, .done].map (.run 0)))

theorem three_attempts_counted_once :
    ∃ s, Run Step {} threeAttempts s ∧ s.reports.map (·.ok) = [false, true, true] ∧
      s.events.count (ascii "hall", ascii "start") = 1 ∧ s.total (ascii "hall") = 1 := by
  have hreplay : (Runs.replay (fun _ _ => True) next {} threeAttempts).map
      (fun s => (s.events, s.reports)) = some ([(ascii "hall", ascii "start")],
        [⟨ascii "hall", ascii "start", false, 0⟩, ⟨ascii "hall", ascii "start", true, 1⟩,
          ⟨ascii "hall", ascii "start", true, 1⟩]) := by
    decide
  obtain ⟨s, hs, heq⟩ := Option.map_eq_some_iff.mp hreplay
  obtain ⟨hevents, hreports⟩ := Prod.mk.inj heq
  have hrun : Run Step {} threeAttempts s :=
    run_alone (t := 0) (by decide) (fun _ _ => rfl) hs
  obtain ⟨htotals, -, hcounted⟩ := views_counted_once hrun
  refine ⟨s, hrun, ?_, ?_, ?_⟩
  · rw [hreports]
    rfl
  · refine (hcounted ⟨ascii "hall", ascii "start", true, 1⟩ ?_ rfl).1
    rw [hreports]
    decide
  · rw [htotals, eventsOf, hevents]
    decide

end JingjieAR.ViewSystem
