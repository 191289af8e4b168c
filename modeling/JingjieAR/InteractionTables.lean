import JingjieAR.InteractionTablesModel
import Mathlib.Algebra.BigOperators.Group.Finset.Piecewise
import Mathlib.Data.Finset.Card
import Mathlib.Data.List.Perm.Basic
import Mathlib.Tactic.Common

/-! The calls of the two DAOs act on a set of likes and a list of comments, one call after the
other: what a callback gets is what the statements of its call did and saw, and they come between
the call and the callback. -/
namespace JingjieAR

open Runs

/-- What the tables are for: who likes what, and the comments with their ids. -/
structure Interactions (α β : Type) where
  likes : Finset (α × β)
  comments : List (α × ℕ)

namespace Interactions

variable {α β : Type} [DecidableEq α] [DecidableEq β]

inductive Step : Interactions α β → InteractionEffect α β → Interactions α β → Prop
  | like (s : Interactions α β) (work : α) (user : β) :
      Step s (.wrote work user true (decide ((work, user) ∉ s.likes)))
        { s with likes := insert (work, user) s.likes }
  | unlike (s : Interactions α β) (work : α) (user : β) :
      Step s (.wrote work user false (decide ((work, user) ∈ s.likes)))
        { s with likes := s.likes.erase (work, user) }
  | comment (s : Interactions α β) (work : α) {id : ℕ} (hpos : 0 < id)
      (hnew : ∀ c ∈ s.comments, c.2 < id) :
      Step s (.commented work id) { s with comments := s.comments++[(work, id)] }
  | read (s : Interactions α β) (work : α) (user : β) :
      Step s (.read work user (s.likes.filter (fun key => key.1 = work)).card
        (decide ((work, user) ∈ s.likes)) (s.comments.countP (fun c => c.1 = work))) s

def empty : Interactions α β := { likes := ∅, comments := [] }

def likers (s : Interactions α β) (work : α) : Finset (α × β) :=
  s.likes.filter (fun key => key.1 = work)

end Interactions

namespace InteractionTables

variable {dao : InteractionDao} {s s' : InteractionTables} {e : InteractionEvent}
  {es : List InteractionEvent} {history : List (ℕ × InteractionEffect Bytes ℕ)} {id : ℕ}
  {effect : InteractionEffect Bytes ℕ}

/-- What the tables hold. -/
def interactions (s : InteractionTables) : Interactions Bytes ℕ where
  likes := s.likes.toFinset
  comments := s.comments.map (fun row => (row.workId, row.id))

/-- What the statements of a call did and saw. -/
def effectsOf (history : List (ℕ × InteractionEffect Bytes ℕ)) (id : ℕ) :
    List (InteractionEffect Bytes ℕ) :=
  (history.filter (fun entry => entry.1 = id)).map Prod.snd

theorem effectsOf_append (history history' : List (ℕ × InteractionEffect Bytes ℕ)) (id : ℕ) :
    effectsOf (history++history') id = effectsOf history id++effectsOf history' id := by
  rw [effectsOf, List.filter_append, List.map_append]
  rfl

theorem effectsOf_snoc_self (history : List (ℕ × InteractionEffect Bytes ℕ)) (id : ℕ)
    (effect : InteractionEffect Bytes ℕ) :
    effectsOf (history++[(id, effect)]) id = effectsOf history id++[effect] := by
  rw [effectsOf_append]
  simp [effectsOf]

theorem effectsOf_snoc_of_ne {other : ℕ} (h : other ≠ id)
    (history : List (ℕ × InteractionEffect Bytes ℕ)) (effect : InteractionEffect Bytes ℕ) :
    effectsOf (history++[(other, effect)]) id = effectsOf history id := by
  rw [effectsOf_append]
  simp [effectsOf, h]

/-- What a call passes to its callback when its statements did and saw this. -/
inductive Answers : DaoCall → List (InteractionEffect Bytes ℕ) → DaoReply → Prop
  | refused (call : DaoCall) : Answers call [] call.refused
  | like (work : Bytes) (user count n : ℕ) (changed liked : Bool) :
      Answers (.like work user) [.wrote work user true changed, .read work user count liked n]
        (.like ⟨true, changed, count, liked⟩)
  | unlike (work : Bytes) (user count n : ℕ) (changed liked : Bool) :
      Answers (.unlike work user) [.wrote work user false changed, .read work user count liked n]
        (.like ⟨true, changed, count, liked⟩)
  -- the query behind the write failed
  | likeUnread (work : Bytes) (user : ℕ) (changed : Bool) :
      Answers (.like work user) [.wrote work user true changed] (.like ⟨false, changed, 0, false⟩)
  | unlikeUnread (work : Bytes) (user : ℕ) (changed : Bool) :
      Answers (.unlike work user) [.wrote work user false changed]
        (.like ⟨false, changed, 0, false⟩)
  | summary (work : Bytes) (user count n : ℕ) (liked : Bool) :
      Answers (.summary work user) [.read work user count liked n]
        (.summary ⟨true, count, liked, n⟩)
  | comment (work : Bytes) (user id : ℕ) (content : Bytes) :
      Answers (.createComment work user content) [.commented work id] (.comment ⟨true, id⟩)

/-- What the statements of a task have done so far. -/
inductive Begun : DaoCall → Option Bool → List (InteractionEffect Bytes ℕ) → Prop
  | fresh (call : DaoCall) : Begun call none []
  | like (work : Bytes) (user : ℕ) (changed : Bool) :
      Begun (.like work user) (some changed) [.wrote work user true changed]
  | unlike (work : Bytes) (user : ℕ) (changed : Bool) :
      Begun (.unlike work user) (some changed) [.wrote work user false changed]

/-- The statements of the call come between the call and the callback, and give the reply. -/
structure Explained (history : List (ℕ × InteractionEffect Bytes ℕ)) (r : DaoReport) : Prop where
  since : r.since ≤ r.upto
  upto : r.upto ≤ history.length
  before : effectsOf (history.take r.since) r.id = []
  after : effectsOf (history.drop r.upto) r.id = []
  answers : Answers r.call (effectsOf history r.id) r.reply

/-- The invariant, but for what the task with the exempt id is to do next. -/
structure InvBut (exempt : Option ℕ) (s : InteractionTables) : Prop where
  distinct : s.likes.Nodup
  steps : Run Interactions.Step Interactions.empty (s.history.map Prod.snd) s.interactions
  tasks : ∀ task ∈ s.tasks, task.since ≤ s.history.length ∧
    effectsOf (s.history.take task.since) task.id = []
  begun : ∀ task ∈ s.tasks, exempt ≠ some task.id →
    Begun task.call task.changed (effectsOf s.history task.id)
  reports : ∀ r ∈ s.reports, Explained s.history r
  ids : (s.tasks.map DaoTask.id++s.reports.map DaoReport.id).Perm (List.range s.calls)
  known : ∀ entry ∈ s.history, entry.1 < s.calls

abbrev Inv (s : InteractionTables) : Prop := s.InvBut none

variable {exempt : Option ℕ} {place : ℕ} {task task' : DaoTask} {reply : DaoReply}

theorem InvBut.nodup (h : s.InvBut exempt) :
    (s.tasks.map DaoTask.id++s.reports.map DaoReport.id).Nodup :=
  h.ids.nodup_iff.mpr List.nodup_range

theorem InvBut.task_lt (h : s.InvBut exempt) (htask : task ∈ s.tasks) : task.id < s.calls :=
  List.mem_range.mp (h.ids.subset
    (List.mem_append_left _ (List.mem_map.mpr ⟨task, htask, rfl⟩)))

theorem InvBut.report_ne (h : s.InvBut exempt) (htask : task ∈ s.tasks) {r : DaoReport}
    (hr : r ∈ s.reports) : task.id ≠ r.id :=
  (List.nodup_append.mp h.nodup).2.2 _ (List.mem_map.mpr ⟨task, htask, rfl⟩) _
    (List.mem_map.mpr ⟨r, hr, rfl⟩)

/-- A task and the others of the list. -/
theorem perm_eraseIdx {α : Type} {l : List α} {i : ℕ} {a : α} (h : l[i]? = some a) :
    l.Perm (a :: l.eraseIdx i) := by
  obtain ⟨hi, rfl⟩ := List.getElem?_eq_some_iff.mp h
  exact (List.getElem_cons_eraseIdx_perm hi).symm

theorem InvBut.other_ne (h : s.InvBut exempt) (hplace : s.tasks[place]? = some task)
    {other : DaoTask} (hother : other ∈ s.tasks.eraseIdx place) : task.id ≠ other.id := by
  have hperm := (perm_eraseIdx hplace).map DaoTask.id
  have hnodup := hperm.nodup_iff.mp (List.nodup_append.mp h.nodup).1
  rw [List.map_cons, List.nodup_cons] at hnodup
  intro heq
  exact hnodup.1 (heq ▸ List.mem_map.mpr ⟨other, hother, rfl⟩)

theorem Explained.snoc {r : DaoReport} (h : Explained history r) (hne : id ≠ r.id) :
    Explained (history++[(id, effect)]) r := by
  have hlength := h.since.trans h.upto
  refine ⟨h.since, ?_, ?_, ?_, ?_⟩
  · rw [List.length_append]
    exact h.upto.trans (Nat.le_add_right _ _)
  · rw [List.take_append_of_le_length hlength]
    exact h.before
  · rw [List.drop_append_of_le_length h.upto, effectsOf_snoc_of_ne hne]
    exact h.after
  · rw [effectsOf_snoc_of_ne hne]
    exact h.answers

/-- A statement of a task; what the task is to do next is left open. -/
theorem InvBut.record (h : s.Inv) (hplace : s.tasks[place]? = some task)
    (hstep : Interactions.Step s.interactions effect s'.interactions)
    (hdistinct : s'.likes.Nodup) (htasks : s'.tasks = s.tasks) (hreports : s'.reports = s.reports)
    (hcalls : s'.calls = s.calls) (hhistory : s'.history = s.history) :
    (s'.record task effect).InvBut (some task.id) := by
  have hmem := List.mem_of_getElem? hplace
  refine ⟨hdistinct, ?_, ?_, ?_, ?_, ?_, ?_⟩
  · change Run _ _ ((s'.history++[(task.id, effect)]).map Prod.snd) _
    rw [List.map_append, hhistory]
    exact h.steps.snoc hstep
  · intro other hother
    obtain ⟨hsince, hbefore⟩ := h.tasks other (htasks ▸ hother)
    change other.since ≤ (s'.history++[_]).length ∧
      effectsOf ((s'.history++[_]).take other.since) other.id = []
    rw [hhistory, List.length_append, List.take_append_of_le_length hsince]
    exact ⟨hsince.trans (Nat.le_add_right _ _), hbefore⟩
  · intro other hother hne
    change Begun other.call other.changed (effectsOf (s'.history++[_]) other.id)
    rw [hhistory, effectsOf_snoc_of_ne (fun heq => hne (congrArg some heq))]
    exact h.begun other (htasks ▸ hother) (Option.some_ne_none _).symm
  · intro r hr
    change Explained (s'.history++[_]) r
    rw [hhistory]
    have hr' : r ∈ s.reports := hreports ▸ hr
    exact (h.reports r hr').snoc (h.report_ne hmem hr')
  · change (s'.tasks.map _++s'.reports.map _).Perm (List.range s'.calls)
    rw [htasks, hreports, hcalls]
    exact h.ids
  · intro entry hentry
    change entry ∈ s'.history++[_] at hentry
    change entry.1 < s'.calls
    rw [hcalls]
    rcases List.mem_append.mp hentry with hold | hnew
    · exact h.known entry (hhistory ▸ hold)
    · obtain rfl := List.mem_singleton.mp hnew
      exact h.task_lt hmem

theorem InvBut.complete (h : s.InvBut exempt) (hplace : s.tasks[place]? = some task)
    (hexempt : exempt = none ∨ exempt = some task.id)
    (hanswers : Answers task.call (effectsOf s.history task.id) reply) :
    (s.complete place task reply).Inv := by
  have hmem := List.mem_of_getElem? hplace
  obtain ⟨hsince, hbefore⟩ := h.tasks task hmem
  have hsub : ∀ other ∈ s.tasks.eraseIdx place, other ∈ s.tasks :=
    fun other hother => List.eraseIdx_subset hother
  refine ⟨h.distinct, h.steps, fun other hother => h.tasks other (hsub other hother), ?_, ?_, ?_,
    h.known⟩
  · intro other hother _
    refine h.begun other (hsub other hother) ?_
    rcases hexempt with rfl | rfl
    · exact (Option.some_ne_none _).symm
    · exact fun heq => h.other_ne hplace hother (Option.some.inj heq)
  · intro r hr
    rcases List.mem_append.mp hr with hold | hnew
    · exact h.reports r hold
    · obtain rfl := List.mem_singleton.mp hnew
      refine ⟨hsince, le_rfl, hbefore, ?_, hanswers⟩
      change effectsOf (s.history.drop s.history.length) task.id = []
      rw [List.drop_length]
      rfl
  · -- The id moves from the tasks to the reports.
    have hperm := (perm_eraseIdx hplace).map DaoTask.id
    refine List.Perm.trans ?_ h.ids
    change ((s.tasks.eraseIdx place).map DaoTask.id++(s.reports++[_]).map DaoReport.id).Perm _
    rw [List.map_append, List.map_singleton]
    refine List.Perm.trans ?_ (hperm.symm.append_right _)
    rw [← List.append_assoc, List.map_cons, List.cons_append]
    exact List.perm_append_singleton _ _

/-- The task goes on, with what it has done. -/
theorem InvBut.setTask (h : s.InvBut (some task.id)) (hplace : s.tasks[place]? = some task)
    (hid : task'.id = task.id) (hsince : task'.since = task.since)
    (hbegun : Begun task'.call task'.changed (effectsOf s.history task.id)) :
    ({ s with tasks := s.tasks.set place task' }).Inv := by
  obtain ⟨hplace', -⟩ := List.getElem?_eq_some_iff.mp hplace
  have hperm : (s.tasks.set place task').Perm (task' :: s.tasks.eraseIdx place) :=
    List.set_perm_cons_eraseIdx hplace' task'
  have hcases (other : DaoTask) (hother : other ∈ s.tasks.set place task') :
      other = task' ∨ other ∈ s.tasks.eraseIdx place :=
    List.mem_cons.mp (hperm.subset hother)
  refine ⟨h.distinct, h.steps, ?_, ?_, h.reports, ?_, h.known⟩
  · intro other hother
    rcases hcases other hother with rfl | hother
    · rw [hid, hsince]
      exact h.tasks task (List.mem_of_getElem? hplace)
    · exact h.tasks other (List.eraseIdx_subset hother)
  · intro other hother _
    rcases hcases other hother with rfl | hother
    · rw [hid]
      exact hbegun
    · refine h.begun other (List.eraseIdx_subset hother) ?_
      exact fun heq => h.other_ne hplace hother (Option.some.inj heq)
  · refine List.Perm.trans (List.Perm.append_right _ ?_) h.ids
    refine (hperm.map DaoTask.id).trans (List.Perm.trans ?_ ((perm_eraseIdx hplace).map _).symm)
    rw [List.map_cons, List.map_cons, hid]

theorem mem_execute_like {likes likes' : List (Bytes × ℕ)} {key : Bytes × ℕ} {n : ℕ}
    {statement : LikeStatement} (hstatement : statement ≠ .delete)
    (h : statement.execute likes key = some (likes', n)) :
    likes'.toFinset = insert key likes.toFinset ∧ (likes.Nodup → likes'.Nodup) ∧
      (n > 0 ↔ key ∉ likes.toFinset) := by
  have hsame (hmem : key ∈ likes) : likes.toFinset = insert key likes.toFinset :=
    (Finset.insert_eq_of_mem (List.mem_toFinset.mpr hmem)).symm
  have hnew (hmem : key ∉ likes) : (likes++[key]).toFinset = insert key likes.toFinset ∧
      (likes.Nodup → (likes++[key]).Nodup) ∧ (1 > 0 ↔ key ∉ likes.toFinset) := by
    refine ⟨?_, fun hnodup => ?_, iff_of_true Nat.one_pos (by simpa using hmem)⟩
    · ext other
      simp
    · exact List.nodup_append.mpr ⟨hnodup, List.nodup_singleton _,
        fun a ha b hb => by
          rw [List.mem_singleton.mp hb]
          exact fun heq => hmem (heq ▸ ha)⟩
  cases statement with
  | insert =>
    simp only [LikeStatement.execute] at h
    split_ifs at h with hmem
    obtain ⟨rfl, rfl⟩ := Prod.mk.inj (Option.some.inj h)
    exact hnew hmem
  | insertIgnore =>
    simp only [LikeStatement.execute] at h
    split_ifs at h with hmem
    · obtain ⟨rfl, rfl⟩ := Prod.mk.inj (Option.some.inj h)
      exact ⟨hsame hmem, id, iff_of_false (Nat.lt_irrefl 0) (by simpa using hmem)⟩
    · obtain ⟨rfl, rfl⟩ := Prod.mk.inj (Option.some.inj h)
      exact hnew hmem
  | delete => exact absurd rfl hstatement

theorem execute_delete {likes likes' : List (Bytes × ℕ)} {key : Bytes × ℕ} {n : ℕ}
    (h : LikeStatement.delete.execute likes key = some (likes', n)) :
    likes'.toFinset = likes.toFinset.erase key ∧ (likes.Nodup → likes'.Nodup) ∧
      (n > 0 ↔ key ∈ likes.toFinset) := by
  simp only [LikeStatement.execute] at h
  split_ifs at h with hmem
  · obtain ⟨rfl, rfl⟩ := Prod.mk.inj (Option.some.inj h)
    refine ⟨?_, fun hnodup => hnodup.filter _, iff_of_true Nat.one_pos (by simpa using hmem)⟩
    ext other
    simp [and_comm]
  · obtain ⟨rfl, rfl⟩ := Prod.mk.inj (Option.some.inj h)
    refine ⟨?_, id, iff_of_false (Nat.lt_irrefl 0) (by simpa using hmem)⟩
    rw [Finset.erase_eq_of_notMem (by simpa using hmem)]

/-- A duplicate entry is a like that is there already. -/
theorem execute_none {likes : List (Bytes × ℕ)} {key : Bytes × ℕ} {statement : LikeStatement}
    (h : statement.execute likes key = none) : statement = .insert ∧ key ∈ likes := by
  cases statement with
  | insert =>
    simp only [LikeStatement.execute] at h
    split_ifs at h with hmem
    exact ⟨rfl, hmem⟩
  | insertIgnore =>
    simp only [LikeStatement.execute] at h
    split_ifs at h
  | delete =>
    simp only [LikeStatement.execute] at h
    split_ifs at h

theorem card_likers (hdistinct : s.likes.Nodup) (work : Bytes) :
    (s.interactions.likers work).card = s.likeCount work := by
  have hfilter : s.interactions.likers work =
      (s.likes.filter (fun key => key.1 = work)).toFinset := by
    ext key
    simp [interactions, Interactions.likers]
  rw [hfilter, List.toFinset_card_of_nodup (hdistinct.filter _), likeCount,
    List.countP_eq_length_filter]

/-- What the query sees. -/
theorem step_querySummary (h : s.Inv) (work : Bytes) (user : ℕ) :
    Interactions.Step s.interactions (.read work user (s.likeCount work)
      (decide ((work, user) ∈ s.likes)) (s.commentCount work)) s.interactions := by
  have hstep := Interactions.Step.read s.interactions work user
  have hcount : (s.interactions.likes.filter (fun key => key.1 = work)).card =
      s.likeCount work := card_likers h.distinct work
  have hmem : decide ((work, user) ∈ s.interactions.likes) =
      decide ((work, user) ∈ s.likes) := decide_eq_decide.mpr List.mem_toFinset
  have hcomments : s.interactions.comments.countP (fun c => c.1 = work) = s.commentCount work := by
    rw [interactions, List.countP_map]
    rfl
  rw [hcount, hmem, hcomments] at hstep
  exact hstep

/-- The calls that write a like or take one away, with their statements. -/
inductive Writes (work : Bytes) (user : ℕ) : DaoCall → LikeStatement → Bool → Prop
  | like {statement : LikeStatement} (h : statement ≠ .delete) :
      Writes work user (.like work user) statement true
  | unlike : Writes work user (.unlike work user) .delete false

variable {work content : Bytes} {user : ℕ} {statement : LikeStatement}
  {duplicateIsSuccess like : Bool} {result : StatementResult}

theorem step_write {written : List (Bytes × ℕ) × ℕ} (hw : Writes work user task.call statement like)
    (h : statement.execute s.likes (work, user) = some written) :
    Interactions.Step s.interactions (.wrote work user like (decide (written.2 > 0)))
      ({ s with likes := written.1 } : InteractionTables).interactions ∧
      (s.likes.Nodup → written.1.Nodup) := by
  generalize task.call = call at hw
  cases hw with
  | like hne =>
    obtain ⟨hlikes, hnodup, hchanged⟩ := mem_execute_like hne h
    refine ⟨?_, hnodup⟩
    have hafter : ({ s with likes := written.1 } : InteractionTables).interactions =
        { s.interactions with likes := insert (work, user) s.interactions.likes } :=
      congrArg (Interactions.mk · _) hlikes
    rw [decide_eq_decide.mpr hchanged, hafter]
    exact .like s.interactions work user
  | unlike =>
    obtain ⟨hlikes, hnodup, hchanged⟩ := execute_delete h
    refine ⟨?_, hnodup⟩
    have hafter : ({ s with likes := written.1 } : InteractionTables).interactions =
        { s.interactions with likes := s.interactions.likes.erase (work, user) } :=
      congrArg (Interactions.mk · _) hlikes
    rw [decide_eq_decide.mpr hchanged, hafter]
    exact .unlike s.interactions work user

theorem step_duplicate (hw : Writes work user task.call statement like)
    (h : statement.execute s.likes (work, user) = none) :
    Interactions.Step s.interactions (.wrote work user like false) s.interactions := by
  obtain ⟨hstatement, hmem⟩ := execute_none h
  have hlike : like = true := by
    generalize task.call = call at hw
    cases hw with
    | like _ => rfl
    | unlike => cases hstatement
  have hin : (work, user) ∈ s.interactions.likes := List.mem_toFinset.mpr hmem
  have hstep := Interactions.Step.like s.interactions work user
  rw [decide_eq_false (not_not.mpr hin), Finset.insert_eq_of_mem hin] at hstep
  rw [hlike]
  exact hstep

theorem Begun.eq_nil {call : DaoCall} {effects : List (InteractionEffect Bytes ℕ)}
    (h : Begun call none effects) : effects = [] := by
  cases h
  rfl

/-- A write that has been executed, with what the callback gets then. -/
theorem Begun.written {call : DaoCall} {changed : Bool}
    {effects : List (InteractionEffect Bytes ℕ)} (h : Begun call (some changed) effects)
    (hw : Writes work user call statement like) :
    Answers call effects (.like ⟨false, changed, 0, false⟩) ∧ ∀ count liked n,
      Answers call (effects++[.read work user count liked n])
        (.like ⟨true, changed, count, liked⟩) := by
  cases h with
  | like work' user' =>
    cases hw with
    | like _ => exact ⟨.likeUnread .., fun count liked n => .like ..⟩
  | unlike work' user' =>
    cases hw with
    | unlike => exact ⟨.unlikeUnread .., fun count liked n => .unlike ..⟩

theorem Writes.begun (hw : Writes work user task.call statement like) (changed : Bool) :
    Begun task.call (some changed) [.wrote work user like changed] := by
  generalize task.call = call at hw
  cases hw with
  | like _ => exact .like ..
  | unlike => exact .unlike ..

theorem Writes.refused (hw : Writes work user task.call statement like) :
    task.call.refused = .like ⟨false, false, 0, false⟩ := by
  generalize task.call = call at hw
  cases hw <;> rfl

theorem Inv.write {written : List (Bytes × ℕ)} {changed : Bool} (h : s.Inv)
    (hplace : s.tasks[place]? = some task) (hw : Writes work user task.call statement like)
    (hnone : effectsOf s.history task.id = []) (hdistinct : written.Nodup)
    (hstep : Interactions.Step s.interactions (.wrote work user like changed)
      ({ s with likes := written } : InteractionTables).interactions) :
    (({ s with
      likes := written
      tasks := s.tasks.set place { task with changed := some changed } }).record task
        (.wrote work user like changed)).Inv := by
  have hrecord : (({ s with likes := written } : InteractionTables).record task
      (.wrote work user like changed)).InvBut (some task.id) :=
    InvBut.record h hplace hstep hdistinct rfl rfl rfl rfl
  refine hrecord.setTask hplace (by rfl) (by rfl) ?_
  change Begun task.call (some changed) (effectsOf (s.history++[_]) task.id)
  rw [effectsOf_snoc_self, hnone]
  exact hw.begun changed

theorem Inv.read (h : s.Inv) (hplace : s.tasks[place]? = some task)
    (hanswers : Answers task.call (effectsOf s.history task.id++[.read work user
      (s.likeCount work) (decide ((work, user) ∈ s.likes)) (s.commentCount work)]) reply) :
    ((s.querySummary task work user).complete place task reply).Inv := by
  have hrecord : (s.record task (.read work user (s.likeCount work)
      (decide ((work, user) ∈ s.likes)) (s.commentCount work))).InvBut (some task.id) :=
    InvBut.record h hplace (step_querySummary h work user) h.distinct rfl rfl rfl rfl
  refine hrecord.complete hplace (.inr rfl) ?_
  change Answers task.call (effectsOf (s.history++[_]) task.id) reply
  rw [effectsOf_snoc_self]
  exact hanswers

theorem Inv.refuse (h : s.Inv) (hplace : s.tasks[place]? = some task)
    (hnone : effectsOf s.history task.id = []) :
    (s.complete place task task.call.refused).Inv := by
  refine h.complete hplace (.inl rfl) ?_
  rw [hnone]
  exact .refused _

theorem Inv.changeLike (h : s.Inv) (hplace : s.tasks[place]? = some task)
    (hw : Writes work user task.call statement like)
    (hs : s.changeLike place task statement duplicateIsSuccess like work user result = some s') :
    s'.Inv := by
  have hbegun := h.begun task (List.mem_of_getElem? hplace) (Option.some_ne_none _).symm
  unfold InteractionTables.changeLike at hs
  cases hchanged : task.changed with
  | none =>
    -- The write is to be executed.
    have hnone := (hchanged ▸ hbegun).eq_nil
    have hrefused := h.refuse hplace hnone
    rw [hchanged] at hs
    cases result with
    | done =>
      dsimp only at hs
      cases hexecute : statement.execute s.likes (work, user) with
      | none =>
        rw [hexecute] at hs
        dsimp only at hs
        split_ifs at hs
        · obtain rfl := Option.some.inj hs
          exact h.write hplace hw hnone h.distinct (step_duplicate hw hexecute)
        · obtain rfl := Option.some.inj hs
          exact hrefused
      | some written =>
        rw [hexecute] at hs
        obtain rfl := Option.some.inj hs
        obtain ⟨hstep, hnodup⟩ := step_write hw hexecute
        exact h.write hplace hw hnone (hnodup h.distinct) hstep
    | failed =>
      obtain rfl := Option.some.inj hs
      rw [Option.getD_none, ← hw.refused]
      exact hrefused
    | noConnection =>
      obtain rfl := Option.some.inj hs
      exact hrefused
    | inserted id => cases hs
  | some changed =>
    -- The write has been executed, and the query is next.
    obtain ⟨hunread, hread⟩ := (hchanged ▸ hbegun).written hw
    rw [hchanged] at hs
    cases result with
    | done =>
      obtain rfl := Option.some.inj hs
      exact h.read hplace (hread _ _ _)
    | failed =>
      obtain rfl := Option.some.inj hs
      exact h.complete hplace (.inl rfl) hunread
    | noConnection => cases hs
    | inserted id => cases hs

/-- The other calls have one statement. -/
theorem Inv.fresh (h : s.Inv) (hplace : s.tasks[place]? = some task)
    (hw : ∀ work user changed, task.call ≠ .like work user ∧ task.call ≠ .unlike work user ∨
      task.changed ≠ some changed) : effectsOf s.history task.id = [] := by
  have hbegun := h.begun task (List.mem_of_getElem? hplace) (Option.some_ne_none _).symm
  generalize hcall : task.call = call at hbegun hw
  generalize hchanged : task.changed = changed at hbegun hw
  generalize effectsOf s.history task.id = effects at hbegun
  cases hbegun with
  | fresh => rfl
  | like work user changed => rcases hw work user changed with hno | hno <;> simp at hno
  | unlike work user changed => rcases hw work user changed with hno | hno <;> simp at hno

theorem Inv.summary (h : s.Inv) (hplace : s.tasks[place]? = some task)
    (hcall : task.call = .summary work user)
    (hs : s.summary place task work user result = some s') : s'.Inv := by
  have hnone : effectsOf s.history task.id = [] :=
    h.fresh hplace (fun _ _ _ => .inl ⟨hcall ▸ DaoCall.noConfusion, hcall ▸ DaoCall.noConfusion⟩)
  cases result with
  | done =>
    obtain rfl := Option.some.inj hs
    refine h.read hplace ?_
    rw [hnone, hcall]
    exact .summary ..
  | failed =>
    obtain rfl := Option.some.inj hs
    exact h.refuse hplace hnone
  | noConnection =>
    obtain rfl := Option.some.inj hs
    exact h.refuse hplace hnone
  | inserted id => cases hs

theorem Inv.createComment (h : s.Inv) (hplace : s.tasks[place]? = some task)
    (hcall : task.call = .createComment work user content)
    (hs : s.createComment place task work user content result = some s') : s'.Inv := by
  have hnone : effectsOf s.history task.id = [] :=
    h.fresh hplace (fun _ _ _ => .inl ⟨hcall ▸ DaoCall.noConfusion, hcall ▸ DaoCall.noConfusion⟩)
  cases result with
  | inserted id =>
    simp only [InteractionTables.createComment] at hs
    split_ifs at hs with hid
    obtain rfl := Option.some.inj hs
    let row : CommentRow := { id := id, workId := work, userId := user, content := content }
    have hstep : Interactions.Step s.interactions (.commented work id)
        ({ s with comments := s.comments++[row] } : InteractionTables).interactions := by
      have hafter : ({ s with comments := s.comments++[row] } : InteractionTables).interactions =
          { s.interactions with comments := s.interactions.comments++[(work, id)] } :=
        congrArg (Interactions.mk _ ·) List.map_append
      rw [hafter]
      refine .comment s.interactions work hid.1 (fun c hc => ?_)
      obtain ⟨row', hrow', rfl⟩ := List.mem_map.mp hc
      exact hid.2 row' hrow'
    have hrecord := InvBut.record h hplace hstep h.distinct rfl rfl rfl rfl
    refine hrecord.complete hplace (.inr rfl) ?_
    change Answers task.call (effectsOf (s.history++[_]) task.id) _
    rw [effectsOf_snoc_self, hnone, hcall]
    exact .comment ..
  | failed =>
    obtain rfl := Option.some.inj hs
    exact h.refuse hplace hnone
  | noConnection =>
    obtain rfl := Option.some.inj hs
    exact h.refuse hplace hnone
  | done => cases hs

theorem Inv.call (h : s.Inv) (call : DaoCall) :
    ({ s with
      tasks := s.tasks++[{ id := s.calls, call := call, since := s.history.length }]
      calls := s.calls+1 } : InteractionTables).Inv := by
  have hnone : effectsOf s.history s.calls = [] := by
    rw [effectsOf, List.map_eq_nil_iff]
    refine List.filter_eq_nil_iff.mpr (fun entry hentry => ?_)
    have hlt := h.known entry hentry
    simp only [decide_eq_true_eq]
    omega
  refine ⟨h.distinct, h.steps, ?_, ?_, h.reports, ?_, ?_⟩
  · intro task htask
    rcases List.mem_append.mp htask with hold | hnew
    · exact h.tasks task hold
    · obtain rfl := List.mem_singleton.mp hnew
      refine ⟨le_rfl, ?_⟩
      change effectsOf (s.history.take s.history.length) s.calls = []
      rw [List.take_length, hnone]
  · intro task htask hne
    rcases List.mem_append.mp htask with hold | hnew
    · exact h.begun task hold hne
    · obtain rfl := List.mem_singleton.mp hnew
      change Begun call none (effectsOf s.history s.calls)
      rw [hnone]
      exact .fresh _
  · change ((s.tasks++[_]).map DaoTask.id++_).Perm (List.range (s.calls+1))
    rw [List.map_append, List.range_succ, List.append_assoc]
    refine List.Perm.trans ?_ (h.ids.append_right _)
    rw [List.append_assoc]
    exact List.Perm.append_left _ List.perm_append_comm
  · exact fun entry hentry => (h.known entry hentry).trans (Nat.lt_succ_self _)

theorem Inv.step (hdao : dao.like ≠ .delete) (h : s.Inv) (hs : s.Step dao e s') : s'.Inv := by
  unfold Step next at hs
  cases e with
  | call call submitted =>
    have hcall := h.call call
    obtain rfl := Option.some.inj hs
    split_ifs
    · exact hcall
    · refine hcall.refuse (List.getElem?_concat_length ..) ?_
      exact (hcall.begun _ (List.mem_append_right _ (List.mem_singleton_self _))
        (Option.some_ne_none _).symm).eq_nil
  | run place result =>
    dsimp only at hs
    split at hs
    · cases hs
    · next task hplace =>
      unfold advance at hs
      split at hs
      · next work user hcall =>
        refine h.changeLike hplace ?_ hs
        rw [hcall]
        exact .like hdao
      · next work user hcall =>
        refine h.changeLike hplace ?_ hs
        rw [hcall]
        exact .unlike
      · next work user hcall => exact h.summary hplace hcall hs
      · next work user content hcall => exact h.createComment hplace hcall hs

theorem inv_run (hdao : dao.like ≠ .delete) (hr : Run (Step dao) {} es s) : s.Inv := by
  refine hr.invariant (fun _ _ _ h hs => Inv.step hdao h hs) ⟨List.nodup_nil, .nil _, ?_, ?_, ?_,
    .refl _, ?_⟩
  · exact List.forall_mem_nil _
  · exact List.forall_mem_nil _
  · exact List.forall_mem_nil _
  · exact List.forall_mem_nil _

end InteractionTables

end JingjieAR
