import JingjieAR.ArtworkInteractionModel
import JingjieAR.SessionRevocation

/-! The session store in stages and the session store with its callbacks. The stages read and
write the stores and show where other calls come in between; the tasks leave the answers open
and keep what is done with them. Whatever the other calls do, the stages of a call make up a
trace of its task, which ends with the caller being told what the stages have come to. -/
namespace JingjieAR.CachedSessionStore

open Callbacks (Task Event interleave_nil)
open Runs (Run)

variable {cfg : StoreConfig} {token : Bytes} {st st' : Stores}

/-- The workers take the task, and nothing else is left to do. -/
theorem trace_accepted {γ : Type} {task : ServerTask γ} {rest : Bool → ServerTask γ}
    {events : List (Event ServerOp ServerOp.Reply γ)} (hrest : rest true = .done)
    (h : task.Trace events) : Task.Trace (.submit task rest) (.submitted true :: events) := by
  apply Task.Trace.accepted h
  · rw [hrest]
    exact .done
  · exact interleave_nil events

section Find

def winnerTask (token : Bytes) : ServerTask (Option Session) :=
  .ask (.cacheGet token) fun winner : Option Session => .call winner .done

/-- The second task of `find`. -/
def storeTask (token : Bytes) (copy : Session) : ServerTask (Option Session) :=
  if copy.status = 0 then
    .ask (.cachePut copy) fun stored : Bool => .call (if stored then some copy else none) .done
  else
    .ask (.cachePutIfAbsent copy) fun stored : Bool =>
      if stored then .call (some copy) .done else winnerTask token

/-- The callback of the durable `find`, where there is a cache. -/
def rowTask (token : Bytes) : Option Session → ServerTask (Option Session)
  | none => .call none .done
  | some copy =>
    .submit (storeTask token copy) (fun accepted => if accepted then .done else .call none .done)

/-- The first task of `find`. -/
def lookTask (token : Bytes) : ServerTask (Option Session) :=
  .ask (.cacheGet token) fun cached : Option Session =>
    match cached with
    | some cached => .call (some cached) .done
    | none => .start (.durableFind token) (rowTask token) .done

theorem findAsync_eq (cfg : StoreConfig) (token : Bytes) :
    findAsync cfg token .call .done =
      if !cfg.durable || token == [] then .call none .done
      else if !cfg.cached then .start (.durableFind token) (fun row => .call row .done) .done
      else
        .submit (lookTask token)
          (fun accepted => if accepted then .done else .call none .done) := by
  have hrow : rowTask token = fun session : Option Session =>
      match session with
      | none => .call none .done
      | some copy =>
        .submit (storeTask token copy)
          (fun accepted => if accepted then .done else .call none .done) := by
    funext session
    cases session with
    | none => rfl
    | some copy => rfl
  rw [lookTask, hrow]
  rfl

/-- The events are what a call may still do from this stage on. -/
def FindStage.Rest (cfg : StoreConfig) (token : Bytes) :
    FindStage → List (Event ServerOp ServerOp.Reply (Option Session)) → Prop
  | .idle, events => (findAsync cfg token .call .done).Trace events
  | .queued, events => (lookTask token).Trace events
  | .readingDurable direct, events =>
    ∃ (row : Option Session) (later : List (Event ServerOp ServerOp.Reply (Option Session))),
      events = .completed (.durableFind token) row :: later ∧
      (if direct then .call row .done else rowTask token row).Trace later
  | .fetched copy, events => (rowTask token (some copy)).Trace events
  | .storing copy, events => (storeTask token copy).Trace events
  | .contested, events => (winnerTask token).Trace events
  | .answering session, events => events = [.called session]
  | .done _, events => events = []

theorem trace_called {α : Type} (value : α) :
    Task.Trace (.call value .done : ServerTask α) [.called value] :=
  .call .done

/-- The call is refused, goes to the table, or is taken by a worker or not. -/
theorem rest_of_idle {stage' : FindStage} {accepted : Bool}
    (h : findStage cfg token st .idle (.call accepted) = some (stage', st'))
    {events : List (Event ServerOp ServerOp.Reply (Option Session))}
    (hrest : stage'.Rest cfg token events) : ∃ new, FindStage.idle.Rest cfg token (new++events) := by
  simp only [findStage] at h
  simp only [FindStage.Rest, findAsync_eq]
  split_ifs at h with hrefused hcached haccepted
  · obtain ⟨rfl, rfl⟩ := by simpa using h
    obtain rfl := hrest
    refine ⟨[], ?_⟩
    rw [if_pos hrefused]
    exact trace_called none
  · obtain ⟨rfl, rfl⟩ := by simpa using h
    obtain ⟨row, later, rfl, htrace⟩ := hrest
    refine ⟨[.started (.durableFind token)], ?_⟩
    rw [if_neg hrefused, if_pos hcached]
    apply Task.Trace.start_last
    simpa using htrace
  · obtain ⟨rfl, rfl⟩ := by simpa using h
    refine ⟨[.submitted true], ?_⟩
    rw [if_neg hrefused, if_neg hcached]
    exact trace_accepted rfl hrest
  · obtain ⟨rfl, rfl⟩ := by simpa using h
    obtain rfl := hrest
    refine ⟨[.submitted false], ?_⟩
    rw [if_neg hrefused, if_neg hcached]
    exact .rejected (trace_called none)

/-- The write to the cache, by the status of the copy. -/
theorem rest_of_storing {stage' : FindStage} {copy : Session} {result : CommandResult}
    (h : findStage cfg token st (.storing copy) (.writeCache result) = some (stage', st'))
    {events : List (Event ServerOp ServerOp.Reply (Option Session))}
    (hrest : stage'.Rest cfg token events) :
    ∃ new, (FindStage.storing copy).Rest cfg token (new++events) := by
  simp only [findStage] at h
  simp only [FindStage.Rest, storeTask]
  by_cases hended : copy.status = 0
  · rw [if_pos hended] at h
    obtain ⟨rfl, rfl⟩ := by simpa using h
    obtain rfl := hrest
    refine ⟨[.asked (.cachePut copy) (st.cache.put copy result).1], ?_⟩
    rw [if_pos hended]
    apply Task.Trace.ask
    exact trace_called _
  · rw [if_neg hended] at h
    cases hstored : (st.cache.putIfAbsent copy result).1 with
    | true =>
      obtain ⟨rfl, rfl⟩ := by simpa [hstored] using h
      obtain rfl := hrest
      refine ⟨[.asked (.cachePutIfAbsent copy) true], ?_⟩
      rw [if_neg hended]
      apply Task.Trace.ask
      exact trace_called _
    | false =>
      -- somebody else's entry is there, and is read next
      obtain ⟨rfl, rfl⟩ := by simpa [hstored] using h
      refine ⟨[.asked (.cachePutIfAbsent copy) false], ?_⟩
      rw [if_neg hended]
      apply Task.Trace.ask
      exact hrest

/-- A stage goes over into the next by the events of the task that stand between them. -/
theorem rest_of_findStage {stage stage' : FindStage} {action : FindAction}
    (h : findStage cfg token st stage action = some (stage', st'))
    {events : List (Event ServerOp ServerOp.Reply (Option Session))}
    (hrest : stage'.Rest cfg token events) : ∃ new, stage.Rest cfg token (new++events) := by
  unfold findStage at h
  split at h
  · exact rest_of_idle h hrest
  · -- the first look at the cache
    simp only [FindStage.Rest, lookTask]
    split at h
    · rename_i cached hget
      obtain ⟨rfl, rfl⟩ := by simpa using h
      obtain rfl := hrest
      refine ⟨[.asked (.cacheGet token) (some cached)], ?_⟩
      apply Task.Trace.ask
      exact trace_called _
    · obtain ⟨rfl, rfl⟩ := by simpa using h
      obtain ⟨row, later, rfl, htrace⟩ := hrest
      refine ⟨[.asked (.cacheGet token) none, .started (.durableFind token)], ?_⟩
      apply Task.Trace.ask
      apply Task.Trace.start_last
      simpa using htrace
  · -- the table
    rename_i direct result
    split at h
    · obtain ⟨rfl, rfl⟩ := by simpa using h
      obtain rfl := hrest
      refine ⟨[.completed (.durableFind token) none], none, _, rfl, ?_⟩
      cases direct with
      | true => exact trace_called none
      | false => exact trace_called none
    · rename_i session hfind
      cases direct with
      | true =>
        obtain ⟨rfl, rfl⟩ := by simpa using h
        obtain rfl := hrest
        exact ⟨[.completed (.durableFind token) (some session)], some session, _, rfl,
          trace_called _⟩
      | false =>
        obtain ⟨rfl, rfl⟩ := by simpa using h
        exact ⟨[.completed (.durableFind token) (some session)], some session, _, rfl, hrest⟩
  · split_ifs at h
    · obtain ⟨rfl, rfl⟩ := by simpa using h
      exact ⟨[.submitted true], trace_accepted rfl hrest⟩
    · obtain ⟨rfl, rfl⟩ := by simpa using h
      obtain rfl := hrest
      exact ⟨[.submitted false], .rejected (trace_called none)⟩
  · exact rest_of_storing h hrest
  · -- the winner
    rename_i result
    obtain ⟨rfl, rfl⟩ := by simpa using h
    obtain rfl := hrest
    refine ⟨[.asked (.cacheGet token) (st.cache.get token result)], ?_⟩
    apply Task.Trace.ask
    exact trace_called _
  · rename_i session
    obtain ⟨rfl, rfl⟩ := by simpa using h
    obtain rfl := hrest
    exact ⟨[.called session], rfl⟩
  · simp at h

theorem findStage_done {stage : FindStage} {action : FindAction} {session : Option Session}
    (h : findStage cfg token st stage action = some (.done session, st')) :
    stage = .answering session := by
  cases findMove_of_findStage h
  rfl

end Find

section Revoke

def tombstoneTask (token : Bytes) : ServerTask Bool :=
  .ask (.cachePut (tombstone token)) fun stored : Bool => .call stored .done

def buryTask (token : Bytes) : ServerTask Bool :=
  .submit (tombstoneTask token) (fun accepted => if accepted then .done else .call false .done)

/-- The callback of the durable `revoke`. -/
def revokedTask (cfg : StoreConfig) (token : Bytes) (revoked : Bool) : ServerTask Bool :=
  if !revoked then .call false .done
  else if !cfg.cached then .call true .done
  else buryTask token

theorem revokeAsync_eq (cfg : StoreConfig) (token : Bytes) :
    revokeAsync cfg token .call .done =
      if !cfg.durable || token == [] then .call false .done
      else .start (.durableRevoke token) (revokedTask cfg token) .done :=
  rfl

/-- The events are what a revoke may still do from this stage on. -/
def RevokeStage.Rest (cfg : StoreConfig) (token : Bytes) :
    RevokeStage → List (Event ServerOp ServerOp.Reply Bool) → Prop
  | .idle, events => (revokeAsync cfg token .call .done).Trace events
  | .updating, events =>
    ∃ (revoked : Bool) (later : List (Event ServerOp ServerOp.Reply Bool)),
      events = .completed (.durableRevoke token) revoked :: later ∧
      (revokedTask cfg token revoked).Trace later
  | .updated, events => (buryTask token).Trace events
  | .burying, events => (tombstoneTask token).Trace events
  | .answering ok, events => events = [.called ok]
  | .done _, events => events = []

theorem rest_of_revokeStage {stage stage' : RevokeStage} {action : RevokeAction}
    (h : revokeStage cfg token st stage action = some (stage', st'))
    {events : List (Event ServerOp ServerOp.Reply Bool)} (hrest : stage'.Rest cfg token events) :
    ∃ new, stage.Rest cfg token (new++events) := by
  unfold revokeStage at h
  split at h
  · simp only [RevokeStage.Rest, revokeAsync_eq]
    split_ifs at h with hrefused
    · obtain ⟨rfl, rfl⟩ := by simpa using h
      obtain rfl := hrest
      refine ⟨[], ?_⟩
      rw [if_pos hrefused]
      exact trace_called false
    · obtain ⟨rfl, rfl⟩ := by simpa using h
      obtain ⟨revoked, later, rfl, htrace⟩ := hrest
      refine ⟨[.started (.durableRevoke token)], ?_⟩
      rw [if_neg hrefused]
      apply Task.Trace.start_last
      exact htrace
  · -- the table; the callback goes on only if it has been updated
    rename_i now result
    cases hrevoked : (SessionDAO.revokeSession cfg.collate st.rows token now result).1 with
    | false =>
      obtain ⟨rfl, rfl⟩ := by simpa [hrevoked] using h
      obtain rfl := hrest
      exact ⟨[.completed (.durableRevoke token) false], false, _, rfl, trace_called false⟩
    | true =>
      refine ⟨[.completed (.durableRevoke token) true], true, _, rfl, ?_⟩
      cases hcached : cfg.cached with
      | false =>
        obtain ⟨rfl, rfl⟩ := by simpa [hrevoked, hcached] using h
        obtain rfl := hrest
        simpa [revokedTask, hcached] using trace_called true
      | true =>
        obtain ⟨rfl, rfl⟩ := by simpa [hrevoked, hcached] using h
        have hbury : (buryTask token).Trace events := hrest
        simpa [revokedTask, hcached] using hbury
  · split_ifs at h
    · obtain ⟨rfl, rfl⟩ := by simpa using h
      exact ⟨[.submitted true], trace_accepted rfl hrest⟩
    · obtain ⟨rfl, rfl⟩ := by simpa using h
      obtain rfl := hrest
      exact ⟨[.submitted false], .rejected (trace_called false)⟩
  · rename_i result
    obtain ⟨rfl, rfl⟩ := by simpa using h
    obtain rfl := hrest
    refine ⟨[.asked (.cachePut (tombstone token)) (st.cache.put (tombstone token) result).1], ?_⟩
    apply Task.Trace.ask
    exact trace_called _
  · rename_i ok
    obtain ⟨rfl, rfl⟩ := by simpa using h
    obtain rfl := hrest
    exact ⟨[.called ok], rfl⟩
  · simp at h

theorem revokeStage_done {stage : RevokeStage} {action : RevokeAction} {ok : Bool}
    (h : revokeStage cfg token st stage action = some (.done ok, st')) :
    stage = .answering ok := by
  cases revokeMove_of_revokeStage h
  rfl

end Revoke

namespace StoreSystem

variable {s s' : StoreSystem} {action : StoreAction} {actions : List StoreAction} {i j : ℕ}

/-- A step of the system is a stage of this find, or leaves it where it is. -/
theorem finds_cases (h : StoreSystem.step cfg token s action s') (i : ℕ) :
    (∃ findAction st, findStage cfg token s.stores (s.finds i) findAction =
      some (s'.finds i, st)) ∨ s'.finds i = s.finds i := by
  cases action with
  | find k findAction =>
    obtain ⟨stage, st, hstage, rfl⟩ := h
    by_cases hk : k = i
    · subst hk
      refine .inl ⟨findAction, st, ?_⟩
      rw [hstage]
      simp
    · exact .inr (Function.update_of_ne (Ne.symm hk) _ _)
  | revoke k revokeAction =>
    obtain ⟨stage, st, -, rfl⟩ := h
    exact .inr rfl
  | expire =>
    obtain ⟨-, rfl⟩ := h
    exact .inr rfl

theorem revokes_cases (h : StoreSystem.step cfg token s action s') (j : ℕ) :
    (∃ revokeAction st, revokeStage cfg token s.stores (s.revokes j) revokeAction =
      some (s'.revokes j, st)) ∨ s'.revokes j = s.revokes j := by
  cases action with
  | find k findAction =>
    obtain ⟨stage, st, -, rfl⟩ := h
    exact .inr rfl
  | revoke k revokeAction =>
    obtain ⟨stage, st, hstage, rfl⟩ := h
    by_cases hk : k = j
    · subst hk
      refine .inl ⟨revokeAction, st, ?_⟩
      rw [hstage]
      simp
    · exact .inr (Function.update_of_ne (Ne.symm hk) _ _)
  | expire =>
    obtain ⟨-, rfl⟩ := h
    exact .inr rfl

/-- A call that comes to an answer has gone through its stages, each by the events before it. -/
theorem rest_of_answer {Stage β : Type} (stageOf : StoreSystem → Stage)
    (rest : Stage → List β → Prop) {answering done : Stage} {last : β}
    (hstep : ∀ s action s', StoreSystem.step cfg token s action s' →
      (∀ events, rest (stageOf s') events → ∃ new, rest (stageOf s) (new++events)) ∧
        (stageOf s' = done → stageOf s = done ∨ stageOf s = answering))
    (hr : Run (StoreSystem.step cfg token) (start st) actions s)
    (hstart : stageOf (start st) ≠ done) (hlast : rest answering [last])
    (hanswer : stageOf s = answering ∨ stageOf s = done) :
    ∃ events, rest (stageOf (start st)) (events++[last]) := by
  have hback : ∀ {s : StoreSystem} {actions}, Run (StoreSystem.step cfg token) (start st) actions s →
      stageOf s = answering → ∃ events, rest (stageOf (start st)) (events++[last]) := by
    intro s actions hr hs
    refine hr.backward (fun s action s' h => (hstep s action s' h).1) ?_
    rw [hs]
    exact hlast
  rcases hanswer with hs | hs
  · exact hback hr hs
  · -- the answer was there when it was handed over
    obtain ⟨pre, action, post, s₁, s₂, -, hpre, h, -, hnot, hdone⟩ :=
      hr.enters (p := fun s => stageOf s = done) hstart hs
    rcases (hstep _ _ _ h).2 hdone with hs₁ | hs₁
    · exact absurd hs₁ hnot
    · exact hback hpre hs₁

/-- However the calls run into each other, a find that comes to an answer has done what its task
does, and the answer is what the task calls back with. -/
theorem find_trace (hr : Run (StoreSystem.step cfg token) (start st) actions s)
    {session : Option Session} (hanswer : (s.finds i).Answer session) :
    ∃ events, (findAsync cfg token .call .done).Trace (events++[.called session]) := by
  have hlast : (FindStage.answering session).Rest cfg token [.called session] := rfl
  refine rest_of_answer (fun s => s.finds i) (FindStage.Rest cfg token) ?_ hr (by simp [start])
    hlast hanswer
  intro s action s' h
  rcases finds_cases h i with ⟨findAction, st, hstage⟩ | hsame
  · refine ⟨fun events hrest => rest_of_findStage hstage hrest, ?_⟩
    intro hdone
    rw [hdone] at hstage
    exact .inr (findStage_done hstage)
  · rw [hsame]
    exact ⟨fun events hrest => ⟨[], hrest⟩, .inl⟩

theorem revoke_trace (hr : Run (StoreSystem.step cfg token) (start st) actions s) {ok : Bool}
    (hanswer : s.revokes j = .answering ok ∨ s.revokes j = .done ok) :
    ∃ events, (revokeAsync cfg token .call .done).Trace (events++[.called ok]) := by
  have hlast : (RevokeStage.answering ok).Rest cfg token [.called ok] := rfl
  refine rest_of_answer (fun s => s.revokes j) (RevokeStage.Rest cfg token) ?_ hr (by simp [start])
    hlast hanswer
  intro s action s' h
  rcases revokes_cases h j with ⟨revokeAction, st, hstage⟩ | hsame
  · refine ⟨fun events hrest => rest_of_revokeStage hstage hrest, ?_⟩
    intro hdone
    rw [hdone] at hstage
    exact .inr (revokeStage_done hstage)
  · rw [hsame]
    exact ⟨fun events hrest => ⟨[], hrest⟩, .inl⟩

end StoreSystem

end JingjieAR.CachedSessionStore
