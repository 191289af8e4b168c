import JingjieAR.TaskWorkerPoolModel
import JingjieAR.PartySums
import Mathlib.Data.List.Nodup
import Mathlib.Tactic.Common

/-! No task is lost. A task whose submit has returned true is in the queue, with the worker that
runs it, or finished, and nowhere twice; tasks leave the queue in the order in which they came. A
worker sleeps only as long as those that have been woken are enough for the queue, so a task that
is left finds a worker that is awake; and a worker leaves only when the pool is closed and the
queue is empty. -/
namespace JingjieAR.TaskWorkerPool

open Runs (Run)
open PartySums (countP_set countP_pos)

variable {s s' : TaskWorkerPool} {e : TaskPoolEvent} {i : ℕ} {stage : WorkerStage}

/-- The tasks whose submit has returned true, in their order. -/
def acceptedTasks (answers : List Bool) : List ℕ :=
  (List.range answers.length).filter (fun task => answers[task]? = some true)

def accepted (s : TaskWorkerPool) : List ℕ :=
  acceptedTasks s.answers

theorem mem_acceptedTasks {answers : List Bool} {task : ℕ} :
    task ∈ acceptedTasks answers ↔ answers[task]? = some true := by
  have hlt : answers[task]? = some true → task < answers.length :=
    fun h => (List.getElem?_eq_some_iff.mp h).1
  simpa [acceptedTasks] using hlt

theorem acceptedTasks_nodup (answers : List Bool) : (acceptedTasks answers).Nodup :=
  List.nodup_range.filter _

theorem acceptedTasks_append (answers : List Bool) (ok : Bool) :
    acceptedTasks (answers++[ok]) =
      acceptedTasks answers++(if ok then [answers.length] else []) := by
  have hfilter : (List.range answers.length).filter
      (fun task => (answers++[ok])[task]? = some true) = acceptedTasks answers := by
    apply List.filter_congr
    intro task hmem
    rw [List.getElem?_append_left (List.mem_range.mp hmem)]
  rw [acceptedTasks, List.length_append, List.length_singleton, List.range_succ,
    List.filter_append, hfilter]
  cases ok <;> simp

/-- What a step does. -/
inductive Change (s : TaskWorkerPool) : TaskWorkerPool → Prop
  | refuse : Change s { s with answers := s.answers++[false] }
  | accept {workers : List WorkerStage} (haccepting : s.accepting = true)
      (hworkers : s.workers ≠ []) (hroom : s.tasks.length < s.capacity)
      (hwoken : (s.workers.countP WorkerStage.isWaiting = 0 ∧ workers = s.workers) ∨
        ∃ i, s.workers[i]? = some .waiting ∧ workers = s.workers.set i .notified) :
      Change s { s.push s.answers.length with
        workers := workers, answers := s.answers++[true] }
  | take {i task : ℕ} {stage : WorkerStage} {rest : List ℕ} (hi : s.workers[i]? = some stage)
      (hstage : stage.isLooking = true) (htasks : s.tasks = task :: rest) :
      Change s { s with
        tasks := rest, taken := s.taken++[task], workers := s.workers.set i (.running task) }
  | sleep {i : ℕ} {stage : WorkerStage} (hi : s.workers[i]? = some stage)
      (hstage : stage.isLooking = true) (htasks : s.tasks = []) (haccepting : s.accepting = true) :
      Change s (s.setWorker i .waiting)
  | exit {i : ℕ} {stage : WorkerStage} (hi : s.workers[i]? = some stage)
      (hstage : stage.isLooking = true) (htasks : s.tasks = []) (hclosed : s.accepting = false) :
      Change s (s.setWorker i .exited)
  | finish {i task : ℕ} (hi : s.workers[i]? = some (.running task)) : Change s (s.finish i task)
  | close (hshutdown : s.shutdown = .notCalled) :
      Change s { s with accepting := false, shutdown := .closed }
  | notifyAll (hshutdown : s.shutdown = .closed) :
      Change s { s with workers := s.workers.map WorkerStage.wake, shutdown := .joining 0 }
  | join {joined : ℕ} (hshutdown : s.shutdown = .joining joined)
      (hexited : s.workers[joined]? = some .exited) :
      Change s { s with shutdown := .joining (joined+1) }
  | joinedAll {joined : ℕ} (hshutdown : s.shutdown = .joining joined)
      (hnone : s.workers[joined]? = none) : Change s { s with shutdown := .returned }

theorem submit_change {woken : Option ℕ} {ok : Bool}
    (h : s.submit s.answers.length woken = some (ok, s')) : s.Change (answer (ok, s')) := by
  unfold submit at h
  split at h
  · obtain ⟨rfl, rfl⟩ := by simpa using h
    exact .refuse
  · next hrefused =>
    obtain ⟨⟨haccepting, hworkers⟩, hroom⟩ := by simpa using hrefused
    cases woken with
    | some i =>
      simp only at h
      split at h
      · next hi =>
        obtain ⟨rfl, rfl⟩ := by simpa using h
        exact .accept haccepting hworkers hroom (.inr ⟨i, hi, rfl⟩)
      · simp at h
    | none =>
      simp only [Option.ite_none_right_eq_some, Option.some.injEq, Prod.mk.injEq] at h
      obtain ⟨hnone, rfl, rfl⟩ := h
      exact .accept haccepting hworkers hroom (.inl ⟨hnone, rfl⟩)

theorem look_change (hi : s.workers[i]? = some stage) (hstage : stage.isLooking = true) :
    s.Change (s.look i) := by
  unfold look
  split
  · next task rest htasks => exact .take hi hstage htasks
  · next htasks =>
    cases haccepting : s.accepting with
    | true => exact .sleep hi hstage htasks haccepting
    | false => exact .exit hi hstage htasks haccepting

theorem step_change (h : s.Step e s') : s.Change s' := by
  cases e with
  | submit woken =>
    obtain ⟨⟨ok, s₁⟩, hsubmit, rfl⟩ := Option.map_eq_some_iff.mp h
    exact submit_change hsubmit
  | look i =>
    simp only [Step, next] at h
    split at h
    · next stage hi =>
      obtain ⟨hstage, rfl⟩ := by simpa using h
      exact look_change hi hstage
    · simp at h
  | finish i threw =>
    simp only [Step, next] at h
    split at h
    · next task hi =>
      obtain rfl := Option.some.inj h
      exact .finish hi
    · simp at h
  | close =>
    simp only [Step, next] at h
    split at h
    · next hshutdown =>
      obtain rfl := Option.some.inj h
      exact .close hshutdown
    · simp at h
  | notifyAll =>
    simp only [Step, next] at h
    split at h
    · next hshutdown =>
      obtain rfl := Option.some.inj h
      exact .notifyAll hshutdown
    · simp at h
  | join =>
    simp only [Step, next] at h
    split at h
    · next joined hshutdown =>
      split at h
      · next hexited =>
        obtain rfl := Option.some.inj h
        exact .join hshutdown hexited
      · simp at h
      · next hnone =>
        obtain rfl := Option.some.inj h
        exact .joinedAll hshutdown hnone
    · simp at h

/-- The workers that run this task. -/
def running (s : TaskWorkerPool) (task : ℕ) : ℕ :=
  s.workers.countP (fun stage => stage = .running task)

/-- Tasks are taken in order, and what has been taken is running or finished. -/
structure Kept (s : TaskWorkerPool) : Prop where
  inOrder : s.taken++s.tasks = s.accepted
  executed : ∀ task, s.taken.count task = s.running task+s.finished.count task

theorem running_set (hi : s.workers[i]? = some stage) (stage' : WorkerStage) (task : ℕ) :
    (s.setWorker i stage').running task+(decide (stage = .running task)).toNat =
      s.running task+(decide (stage' = .running task)).toNat :=
  countP_set _ hi stage'

/-- A worker that runs nothing goes on to run nothing. -/
theorem running_idle (hi : s.workers[i]? = some stage) {stage' : WorkerStage} {task : ℕ}
    (hstage : stage ≠ .running task) (hstage' : stage' ≠ .running task) :
    (s.setWorker i stage').running task = s.running task := by
  have hset := running_set hi stage' task
  rwa [decide_eq_false hstage, decide_eq_false hstage'] at hset

theorem ne_running_of_isLooking (hstage : stage.isLooking = true) (task : ℕ) :
    stage ≠ .running task := by
  intro h
  rw [h] at hstage
  simp [WorkerStage.isLooking] at hstage

theorem running_wake (task : ℕ) :
    (s.workers.map WorkerStage.wake).countP (fun stage => stage = .running task) =
      s.running task := by
  rw [List.countP_map]
  apply List.countP_congr
  intro stage _
  cases stage <;> simp [WorkerStage.wake]

theorem Kept.change (h : s.Kept) (hchange : s.Change s') : s'.Kept := by
  cases hchange with
  | refuse =>
    refine ⟨?_, h.executed⟩
    show s.taken++s.tasks = acceptedTasks (s.answers++[false])
    rw [h.inOrder, acceptedTasks_append]
    exact (List.append_nil _).symm
  | accept haccepting hworkers hroom hwoken =>
    refine ⟨?_, ?_⟩
    · show s.taken++(s.tasks++[s.answers.length]) = acceptedTasks (s.answers++[true])
      rw [← List.append_assoc, h.inOrder, acceptedTasks_append]
      rfl
    · intro task
      rcases hwoken with ⟨-, rfl⟩ | ⟨i, hi, rfl⟩
      · exact h.executed task
      · have hidle : (s.setWorker i .notified).running task = s.running task :=
          running_idle hi (by simp) (by simp)
        show s.taken.count task = (s.setWorker i .notified).running task+s.finished.count task
        rw [hidle]
        exact h.executed task
  | @take i first stage rest hi hstage htasks =>
    refine ⟨?_, ?_⟩
    · have hinOrder := h.inOrder
      rw [htasks] at hinOrder
      show (s.taken++[first])++rest = _
      rw [List.append_assoc]
      exact hinOrder
    · -- the task goes over from the queue to the worker
      intro task
      have hset := running_set hi (.running first) task
      have hexecuted := h.executed task
      rw [decide_eq_false (ne_running_of_isLooking hstage task), Bool.toNat_false] at hset
      show (s.taken++[first]).count task =
        (s.setWorker i (.running first)).running task+s.finished.count task
      rw [List.count_append, List.count_singleton]
      by_cases hfirst : first = task
      · simp [hfirst] at hset ⊢
        omega
      · simp [hfirst] at hset ⊢
        omega
  | @finish i last hi =>
    refine ⟨h.inOrder, ?_⟩
    -- and from the worker to those that are finished
    intro task
    have hset := running_set hi .looking task
    have hexecuted := h.executed task
    show s.taken.count task =
      (s.setWorker i .looking).running task+(s.finished++[last]).count task
    rw [List.count_append, List.count_singleton]
    by_cases hlast : last = task
    · simp [hlast] at hset ⊢
      omega
    · simp [hlast] at hset ⊢
      omega
  | sleep hi hstage htasks haccepting =>
    refine ⟨h.inOrder, ?_⟩
    intro task
    rw [running_idle hi (ne_running_of_isLooking hstage task) (by simp)]
    exact h.executed task
  | exit hi hstage htasks hclosed =>
    refine ⟨h.inOrder, ?_⟩
    intro task
    rw [running_idle hi (ne_running_of_isLooking hstage task) (by simp)]
    exact h.executed task
  | notifyAll hshutdown =>
    refine ⟨h.inOrder, ?_⟩
    intro task
    show s.taken.count task = (s.workers.map _).countP _+s.finished.count task
    rw [running_wake]
    exact h.executed task
  | close hshutdown => exact ⟨h.inOrder, h.executed⟩
  | join hshutdown hexited => exact ⟨h.inOrder, h.executed⟩
  | joinedAll hshutdown hnone => exact ⟨h.inOrder, h.executed⟩

/-- What the workers do about the queue. -/
structure Attended (s : TaskWorkerPool) : Prop where
  bounded : s.tasks.length ≤ s.capacity
  -- those that have been woken are enough, if any sleeps
  covered : 0 < s.workers.countP WorkerStage.isWaiting →
    s.tasks.length ≤ s.workers.countP WorkerStage.isNotified
  left : 0 < s.workers.countP WorkerStage.isExited → s.accepting = false ∧ s.tasks = []
  nobody : s.workers = [] → s.accepted = []

/-- Nobody has left a pool that accepts, or that has tasks. -/
theorem Attended.nobody_left (h : s.Attended) (hstays : s.accepting = true ∨ s.tasks ≠ []) :
    s.workers.countP WorkerStage.isExited = 0 := by
  by_contra hsome
  obtain ⟨hclosed, hnil⟩ := h.left (by omega)
  rcases hstays with haccepting | htasks
  · rw [haccepting] at hclosed
    simp at hclosed
  · exact htasks hnil

theorem Attended.accept (h : s.Attended) (haccepting : s.accepting = true)
    (hworkers : s.workers ≠ []) (hroom : s.tasks.length < s.capacity)
    {workers : List WorkerStage}
    (hwoken : (s.workers.countP WorkerStage.isWaiting = 0 ∧ workers = s.workers) ∨
      ∃ i, s.workers[i]? = some .waiting ∧ workers = s.workers.set i .notified) :
    Attended { s.push s.answers.length with
      workers := workers, answers := s.answers++[true] } := by
  have hexited := h.nobody_left (.inl haccepting)
  refine ⟨?_, ?_, ?_, ?_⟩
  · show (s.tasks++[s.answers.length]).length ≤ s.capacity
    rw [List.length_append, List.length_singleton]
    omega
  · show 0 < workers.countP _ → (s.tasks++[s.answers.length]).length ≤ workers.countP _
    rw [List.length_append, List.length_singleton]
    rcases hwoken with ⟨hnone, rfl⟩ | ⟨i, hi, rfl⟩
    · omega
    · -- the one that is woken comes for the new task
      have hset := countP_set WorkerStage.isNotified hi .notified
      change _+0 = _+1 at hset
      have hcovered := h.covered (countP_pos WorkerStage.isWaiting hi rfl)
      omega
  · show 0 < workers.countP _ → _
    rcases hwoken with ⟨-, rfl⟩ | ⟨i, hi, rfl⟩
    · omega
    · have hset := countP_set WorkerStage.isExited hi .notified
      change _+0 = _+0 at hset
      omega
  · show workers = [] → _
    rcases hwoken with ⟨-, rfl⟩ | ⟨i, -, rfl⟩
    · exact fun hnil => absurd hnil hworkers
    · exact fun hnil => absurd (by simpa using hnil) hworkers

theorem Attended.take (h : s.Attended) {task : ℕ} {rest : List ℕ}
    (hi : s.workers[i]? = some stage) (htasks : s.tasks = task :: rest) :
    Attended { s with
      tasks := rest, taken := s.taken++[task], workers := s.workers.set i (.running task) } := by
  have hexited := h.nobody_left (.inr (by simp [htasks]))
  have hw := countP_set WorkerStage.isWaiting hi (.running task)
  have hn := countP_set WorkerStage.isNotified hi (.running task)
  have he := countP_set WorkerStage.isExited hi (.running task)
  change _+_ = _+0 at hw hn he
  have hbounded := h.bounded
  have hcovered := h.covered
  rw [htasks, List.length_cons] at hbounded hcovered
  -- one task is gone, and at most one of those that have been woken
  have hone := Bool.toNat_le stage.isNotified
  refine ⟨?_, ?_, ?_, fun hnil => h.nobody (by simpa using hnil)⟩
  · show rest.length ≤ s.capacity
    omega
  · show 0 < (s.workers.set i (.running task)).countP _ → rest.length ≤ _
    intro hwait
    have hrest := hcovered (by omega)
    dsimp only
    omega
  · show 0 < (s.workers.set i (.running task)).countP _ → _
    omega

theorem Attended.sleep (h : s.Attended) (hi : s.workers[i]? = some stage)
    (htasks : s.tasks = []) : (s.setWorker i .waiting).Attended := by
  have he := countP_set WorkerStage.isExited hi .waiting
  change _+_ = _+0 at he
  refine ⟨h.bounded, ?_, ?_, fun hnil => h.nobody (by simpa [setWorker] using hnil)⟩
  · show _ → s.tasks.length ≤ _
    simp [htasks]
  · show 0 < (s.workers.set i .waiting).countP _ → _
    exact fun hsome => h.left (by omega)

theorem Attended.finish (h : s.Attended) {task : ℕ} (hi : s.workers[i]? = some (.running task)) :
    (s.finish i task).Attended := by
  have hw := countP_set WorkerStage.isWaiting hi .looking
  have hn := countP_set WorkerStage.isNotified hi .looking
  have he := countP_set WorkerStage.isExited hi .looking
  change _+0 = _+0 at hw hn he
  refine ⟨h.bounded, ?_, ?_, fun hnil => ?_⟩
  · show 0 < (s.workers.set i .looking).countP _ → _ ≤ (s.workers.set i .looking).countP _
    rw [Nat.add_right_cancel hw, Nat.add_right_cancel hn]
    exact h.covered
  · show 0 < (s.workers.set i .looking).countP _ → _
    rw [Nat.add_right_cancel he]
    exact h.left
  · exact h.nobody (by simpa [TaskWorkerPool.finish, setWorker] using hnil)

theorem Attended.notifyAll (h : s.Attended) :
    Attended { s with workers := s.workers.map WorkerStage.wake, shutdown := .joining 0 } := by
  have hnone : (s.workers.map WorkerStage.wake).countP WorkerStage.isWaiting = 0 := by
    rw [List.countP_map, List.countP_eq_zero]
    intro stage _
    cases stage <;> simp [WorkerStage.wake, WorkerStage.isWaiting]
  have hsame : (s.workers.map WorkerStage.wake).countP WorkerStage.isExited =
      s.workers.countP WorkerStage.isExited := by
    rw [List.countP_map]
    apply List.countP_congr
    intro stage _
    cases stage <;> simp [WorkerStage.wake, WorkerStage.isExited]
  refine ⟨h.bounded, ?_, ?_, fun hnil => h.nobody (by simpa using hnil)⟩
  · show 0 < (s.workers.map _).countP _ → _
    omega
  · show 0 < (s.workers.map _).countP _ → _
    rw [hsame]
    exact h.left

theorem Attended.change (h : s.Attended) (hchange : s.Change s') : s'.Attended := by
  cases hchange with
  | refuse =>
    refine ⟨h.bounded, h.covered, h.left, ?_⟩
    intro hnil
    show acceptedTasks (s.answers++[false]) = []
    rw [acceptedTasks_append]
    exact (List.append_nil _).trans (h.nobody hnil)
  | accept haccepting hworkers hroom hwoken => exact h.accept haccepting hworkers hroom hwoken
  | take hi hstage htasks => exact h.take hi htasks
  | sleep hi hstage htasks haccepting => exact h.sleep hi htasks
  | exit hi hstage htasks hclosed =>
    refine ⟨h.bounded, ?_, fun _ => ⟨hclosed, htasks⟩,
      fun hnil => h.nobody (by simpa [setWorker] using hnil)⟩
    show _ → s.tasks.length ≤ _
    simp [htasks]
  | finish hi => exact h.finish hi
  | close hshutdown =>
    exact ⟨h.bounded, h.covered, fun hsome => ⟨rfl, (h.left hsome).2⟩, h.nobody⟩
  | notifyAll hshutdown => exact h.notifyAll
  | join hshutdown hexited => exact ⟨h.bounded, h.covered, h.left, h.nobody⟩
  | joinedAll hshutdown hnone => exact ⟨h.bounded, h.covered, h.left, h.nobody⟩

/-- What `shutdown` has seen to. -/
structure Closing (s : TaskWorkerPool) : Prop where
  closed : s.shutdown ≠ .notCalled → s.accepting = false
  joined : ∀ joined, s.shutdown = .joining joined → ∀ j < joined, s.workers[j]? = some .exited
  returned : s.shutdown = .returned → ∀ j < s.workers.length, s.workers[j]? = some .exited

theorem Change.length_workers (hchange : s.Change s') : s'.workers.length = s.workers.length := by
  cases hchange with
  | accept haccepting hworkers hroom hwoken =>
    rcases hwoken with ⟨-, rfl⟩ | ⟨i, -, rfl⟩
    · rfl
    · exact List.length_set
  | take => exact List.length_set
  | sleep => exact List.length_set
  | exit => exact List.length_set
  | finish => exact List.length_set
  | notifyAll => exact List.length_map _
  | _ => rfl

/-- A worker that has left takes no step. -/
theorem Change.exited_stays (hchange : s.Change s') {j : ℕ}
    (hj : s.workers[j]? = some .exited) : s'.workers[j]? = some .exited := by
  -- a step of a worker is a step of another one
  have hset : ∀ {i : ℕ} {stage : WorkerStage}, s.workers[i]? = some stage →
      stage.isExited = false → ∀ stage', (s.workers.set i stage')[j]? = some .exited := by
    intro i stage hi hstage stage'
    have hne : i ≠ j := by
      intro hij
      rw [hij, hj] at hi
      obtain rfl := Option.some.inj hi
      simp [WorkerStage.isExited] at hstage
    rwa [List.getElem?_set_ne hne]
  have hlooking : ∀ {stage : WorkerStage}, stage.isLooking = true → stage.isExited = false := by
    intro stage hstage
    cases stage <;> simp_all [WorkerStage.isLooking, WorkerStage.isExited]
  cases hchange with
  | accept haccepting hworkers hroom hwoken =>
    rcases hwoken with ⟨-, rfl⟩ | ⟨i, hi, rfl⟩
    · exact hj
    · exact hset hi rfl _
  | take hi hstage htasks => exact hset hi (hlooking hstage) _
  | sleep hi hstage htasks haccepting => exact hset hi (hlooking hstage) _
  | exit hi hstage htasks hclosed => exact hset hi (hlooking hstage) _
  | finish hi => exact hset hi rfl _
  | notifyAll hshutdown =>
    show (s.workers.map WorkerStage.wake)[j]? = some .exited
    rw [List.getElem?_map, hj]
    rfl
  | _ => exact hj

/-- A step that leaves the shutdown where it is. -/
theorem Closing.frame (h : s.Closing) (hchange : s.Change s')
    (hshutdown : s'.shutdown = s.shutdown) (haccepting : s'.accepting = s.accepting) :
    s'.Closing := by
  refine ⟨?_, ?_, ?_⟩
  · rw [hshutdown, haccepting]
    exact h.closed
  · intro joined hjoining j hj
    exact hchange.exited_stays (h.joined joined (hshutdown ▸ hjoining) j hj)
  · intro hreturned j hj
    rw [hchange.length_workers] at hj
    exact hchange.exited_stays (h.returned (hshutdown ▸ hreturned) j hj)

theorem Closing.change (h : s.Closing) (hchange : s.Change s') : s'.Closing := by
  have hframe := fun hshutdown haccepting => h.frame hchange hshutdown haccepting
  cases hchange with
  | close hshutdown => exact ⟨fun _ => rfl, by simp, by simp⟩
  | notifyAll hshutdown =>
    have hclosed := h.closed (by simp [hshutdown])
    refine ⟨fun _ => hclosed, ?_, by simp⟩
    intro joined hjoining j hj
    obtain rfl : 0 = joined := by simpa using hjoining
    exact absurd hj (Nat.not_lt_zero j)
  | @join joined hshutdown hexited =>
    have hclosed := h.closed (by simp [hshutdown])
    refine ⟨fun _ => hclosed, ?_, by simp⟩
    intro next hjoining j hj
    obtain rfl : joined+1 = next := by simpa using hjoining
    rcases Nat.lt_succ_iff_lt_or_eq.mp hj with hlt | rfl
    · exact h.joined joined hshutdown j hlt
    · exact hexited
  | @joinedAll joined hshutdown hnone =>
    have hclosed := h.closed (by simp [hshutdown])
    have hall : s.workers.length ≤ joined := List.getElem?_eq_none_iff.mp hnone
    refine ⟨fun _ => hclosed, by simp, ?_⟩
    intro _ j hj
    exact h.joined joined hshutdown j (Nat.lt_of_lt_of_le hj hall)
  | _ => exact hframe rfl rfl

/-- A worker that goes on without being woken. -/
def awake (s : TaskWorkerPool) (i : ℕ) : Prop :=
  s.workers[i]? = some .looking ∨ s.workers[i]? = some .notified ∨
    ∃ task, s.workers[i]? = some (.running task)

/-- What holds of the pool at any time. A task whose submit has returned true is in the queue,
running or finished, once, and one whose submit has returned false nowhere; while one of the
first is not finished, some worker is awake; and when `shutdown` has returned, all are finished. -/
structure Orderly (s : TaskWorkerPool) : Prop where
  bounded : s.tasks.length ≤ s.capacity
  inOrder : s.taken++s.tasks = s.accepted
  once : ∀ task, s.answers[task]? = some true →
    s.tasks.count task+s.running task+s.finished.count task = 1
  never : ∀ task, s.answers[task]? ≠ some true →
    s.tasks.count task+s.running task+s.finished.count task = 0
  awake : ∀ task, s.answers[task]? = some true → s.finished.count task = 0 → ∃ i, s.awake i
  drained : s.shutdown = .returned →
    ∀ task, s.answers[task]? = some true → s.finished.count task = 1

theorem Kept.count (h : s.Kept) (task : ℕ) :
    s.tasks.count task+s.running task+s.finished.count task = s.accepted.count task := by
  have hexecuted := h.executed task
  rw [← h.inOrder, List.count_append]
  omega

theorem Kept.once (h : s.Kept) {task : ℕ} (htask : s.answers[task]? = some true) :
    s.tasks.count task+s.running task+s.finished.count task = 1 := by
  rw [h.count]
  exact List.count_eq_one_of_mem (acceptedTasks_nodup _) (mem_acceptedTasks.mpr htask)

theorem Kept.never (h : s.Kept) {task : ℕ} (htask : s.answers[task]? ≠ some true) :
    s.tasks.count task+s.running task+s.finished.count task = 0 := by
  rw [h.count]
  exact List.count_eq_zero_of_not_mem (fun hmem => htask (mem_acceptedTasks.mp hmem))

theorem Attended.workers_ne_nil (h : s.Attended) {task : ℕ}
    (htask : s.answers[task]? = some true) : s.workers ≠ [] := by
  intro hnil
  have hmem : task ∈ s.accepted := mem_acceptedTasks.mpr htask
  rw [h.nobody hnil] at hmem
  simp at hmem

theorem exists_awake (hkept : s.Kept) (h : s.Attended) {task : ℕ}
    (htask : s.answers[task]? = some true) (hnot : s.finished.count task = 0) : ∃ i, s.awake i := by
  have honce := hkept.once htask
  by_cases hrunning : 0 < s.running task
  · obtain ⟨stage, hmem, hstage⟩ := List.countP_pos_iff.mp hrunning
    obtain ⟨i, hi⟩ := List.mem_iff_getElem?.mp hmem
    obtain rfl : stage = .running task := by simpa using hstage
    exact ⟨i, .inr (.inr ⟨task, hi⟩)⟩
  · -- neither running nor finished, so the task is in the queue
    have hqueued : task ∈ s.tasks := List.count_pos_iff.mp (by omega)
    have hexited := h.nobody_left (.inr (List.ne_nil_of_mem hqueued))
    have hpos := List.length_pos_of_mem hqueued
    by_cases hwaiting : 0 < s.workers.countP WorkerStage.isWaiting
    · -- so one that has been woken comes for it
      have hcovered := h.covered hwaiting
      obtain ⟨stage, hmem, hstage⟩ :=
        List.countP_pos_iff.mp (by omega : 0 < s.workers.countP WorkerStage.isNotified)
      obtain ⟨i, hi⟩ := List.mem_iff_getElem?.mp hmem
      obtain rfl : stage = .notified := by cases stage <;> simp_all [WorkerStage.isNotified]
      exact ⟨i, .inr (.inl hi)⟩
    · -- so all are awake, and there is one
      obtain ⟨stage, hmem⟩ := List.exists_mem_of_ne_nil _ (h.workers_ne_nil htask)
      obtain ⟨i, hi⟩ := List.mem_iff_getElem?.mp hmem
      refine ⟨i, ?_⟩
      cases stage with
      | looking => exact .inl hi
      | notified => exact .inr (.inl hi)
      | running other => exact .inr (.inr ⟨other, hi⟩)
      | waiting => exact absurd (countP_pos WorkerStage.isWaiting hi rfl) hwaiting
      | exited =>
        have hsome := countP_pos WorkerStage.isExited hi rfl
        omega

/-- When `shutdown` has returned, nobody is left who could run a task, and nothing is queued. -/
theorem drained_of_returned (hkept : s.Kept) (h : s.Attended) (hclosing : s.Closing)
    (hreturned : s.shutdown = .returned) {task : ℕ} (htask : s.answers[task]? = some true) :
    s.finished.count task = 1 := by
  have hexited := hclosing.returned hreturned
  -- every worker has left, so none runs it
  have hrunning : s.running task = 0 := by
    apply List.countP_eq_zero.mpr
    intro stage hmem
    obtain ⟨i, hi⟩ := List.mem_iff_getElem?.mp hmem
    obtain ⟨hlt, -⟩ := List.getElem?_eq_some_iff.mp hi
    obtain rfl := Option.some.inj (hi.symm.trans (hexited i hlt))
    simp
  -- and the first of them left an empty queue
  have htasks : s.tasks = [] := by
    have hfirst := hexited 0 (List.length_pos_iff.mpr (h.workers_ne_nil htask))
    exact (h.left (countP_pos WorkerStage.isExited hfirst rfl)).2
  have honce := hkept.once htask
  rw [htasks, hrunning] at honce
  simpa using honce

theorem closed_step (hclosed : s.accepting = false) (hchange : s.Change s') :
    s'.accepting = false ∧
      (s'.answers = s.answers ∨ s'.answers = s.answers++[false]) := by
  cases hchange with
  | refuse => exact ⟨hclosed, .inr rfl⟩
  | accept haccepting hworkers hroom hwoken =>
    rw [haccepting] at hclosed
    simp at hclosed
  | close hshutdown => exact ⟨rfl, .inl rfl⟩
  | _ => exact ⟨hclosed, .inl rfl⟩

/-- For any number of workers and any capacity, and however submits, workers and a shutdown run
into each other: the pool is orderly, and once it is closed no submit returns true. -/
theorem pool_orderly (workers capacity : ℕ) {events : List TaskPoolEvent}
    (hr : Run Step (new workers capacity) events s) :
    s.Orderly ∧ (s.shutdown ≠ .notCalled → ∀ (later : List TaskPoolEvent) (s' : TaskWorkerPool),
      Run Step s later s' → ∃ n, s'.answers = s.answers++List.replicate n false) := by
  have hstart : (new workers capacity).Kept ∧ (new workers capacity).Attended ∧
      (new workers capacity).Closing := by
    refine ⟨⟨rfl, ?_⟩, ⟨Nat.zero_le _, fun _ => Nat.zero_le _, ?_, fun _ => rfl⟩,
      ⟨by simp [new], by simp [new], by simp [new]⟩⟩
    · intro task
      simp [new, running, List.countP_replicate]
    · simp [new, List.countP_replicate, WorkerStage.isExited]
  have hstep : ∀ (s : TaskWorkerPool) (e : TaskPoolEvent) (s' : TaskWorkerPool),
      s.Kept ∧ s.Attended ∧ s.Closing → Step s e s' → s'.Kept ∧ s'.Attended ∧ s'.Closing := by
    intro s e s' ⟨hkept, hattended, hclosing⟩ hs
    have hchange := step_change hs
    exact ⟨hkept.change hchange, hattended.change hchange, hclosing.change hchange⟩
  obtain ⟨hkept, hattended, hclosing⟩ := hr.invariant hstep hstart
  refine ⟨⟨hattended.bounded, hkept.inOrder, fun _ htask => hkept.once htask,
    fun _ htask => hkept.never htask,
    fun _ htask hnot => exists_awake hkept hattended htask hnot,
    fun hreturned _ htask => drained_of_returned hkept hattended hclosing hreturned htask⟩, ?_⟩
  intro hshutdown later s' hlater
  have hlate : ∀ (s₁ : TaskWorkerPool) (e : TaskPoolEvent) (s₂ : TaskWorkerPool),
      (s₁.accepting = false ∧ ∃ n, s₁.answers = s.answers++List.replicate n false) →
        Step s₁ e s₂ →
        (s₂.accepting = false ∧ ∃ n, s₂.answers = s.answers++List.replicate n false) := by
    intro s₁ e s₂ ⟨hclosed, n, hanswers⟩ hs
    obtain ⟨hclosed', hsame | hrefused⟩ := closed_step hclosed (step_change hs)
    · exact ⟨hclosed', n, hsame.trans hanswers⟩
    · refine ⟨hclosed', n+1, ?_⟩
      rw [hrefused, hanswers, List.append_assoc, List.replicate_succ']
  exact (hlater.invariant hlate ⟨hclosing.closed hshutdown, 0, by simp⟩).2

/-- One worker and room for one task. The worker runs a first task, which throws; a second one is
queued and a third one refused; the pool is closed, refuses a fourth one and is drained. -/
def drainedPool : List TaskPoolEvent :=
  [.look 0, .submit (some 0), .look 0, .submit none, .submit none, .close, .submit none,
    .notifyAll, .finish 0 true, .look 0, .finish 0 false, .look 0, .join, .join]

theorem drainedPool_orderly :
    ∃ s, Run Step (new 1 1) drainedPool s ∧ s.answers = [true, true, false, false] ∧
      s.finished = [0, 1] ∧ s.shutdown = .returned ∧ s.Orderly := by
  have hrun : Run Step (new 1 1) drainedPool
      { capacity := 1, accepting := false, workers := [.exited], shutdown := .returned,
        answers := [true, true, false, false], taken := [0, 1], finished := [0, 1] } :=
    .cons rfl <| .cons rfl <| .cons rfl <| .cons rfl <| .cons rfl <| .cons rfl <| .cons rfl <|
      .cons rfl <| .cons rfl <| .cons rfl <| .cons rfl <| .cons rfl <| .cons rfl <| .cons rfl <|
      .nil _
  exact ⟨_, hrun, rfl, rfl, rfl, (pool_orderly 1 1 hrun).1⟩

end JingjieAR.TaskWorkerPool
