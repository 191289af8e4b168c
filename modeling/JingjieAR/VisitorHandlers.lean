import JingjieAR.ViewCounting
import JingjieAR.VisitorAgreement
import JingjieAR.VisitorHandlersModel

/-! The requests of visitors, by the calls and the tasks that they have. A token is marked online
before its view is counted, and the answer names what the stores have reported. -/
namespace JingjieAR

open Runs (Run Guarded)

namespace VisitorSystem

open VisitorSessionService

/-- A step of the call `t` for this page start, which goes on or reports its result. -/
structure Moved (s s' : VisitorSystem) (t : ℕ) (requestId : Bytes) : Prop where
  others : ∀ t', t' ≠ t → s'.calls t' = s.calls t'
  outcome :
    ((s'.calls t).map (·.requestId) = some requestId ∧ s'.reports = s.reports) ∨
    (s'.calls t = none ∧ ∃ result, s'.reports = s.reports++[⟨requestId, result⟩])

variable {s s₁ : VisitorSystem} {t : ℕ} {call : BootstrapCall} {requestId : Bytes}

theorem Moved.reports {s' : VisitorSystem} (h : Moved s s' t requestId) :
    s.reports ⊆ s'.reports := by
  rcases h.outcome with ⟨-, hsame⟩ | ⟨-, result, hnew⟩
  · rw [hsame]
    exact List.Subset.refl _
  · rw [hnew]
    exact List.subset_append_left _ _

theorem moved_setCall (hcalls : s₁.calls = s.calls) (hreports : s₁.reports = s.reports)
    (hid : call.requestId = requestId) : Moved s (s₁.setCall t call) t requestId where
  others t' hne := by
    show Function.update s₁.calls t (some call) t' = s.calls t'
    rw [Function.update_of_ne hne, hcalls]
  outcome := .inl ⟨by simp [setCall, hid], hreports⟩

theorem moved_answer (hcalls : s₁.calls = s.calls) (hreports : s₁.reports = s.reports)
    (result : VisitorBootstrapResult) : Moved s (s₁.answer t requestId result) t requestId where
  others t' hne := by
    show Function.update s₁.calls t none t' = s.calls t'
    rw [Function.update_of_ne hne, hcalls]
  outcome := .inr ⟨by simp [answer], result, by simp [answer, hreports]⟩

theorem moved_withCandidate (hid : call.requestId = requestId) (candidateToken : Bytes) :
    Moved s (s.withCandidate t call candidateToken) t requestId := by
  rw [withCandidate]
  split
  · exact moved_setCall rfl rfl hid
  · exact hid ▸ moved_answer rfl rfl {}

theorem moved_advance (result : CommandResult) :
    Moved s (s.advance t call result) t call.requestId := by
  rw [advance]
  split
  · split
    · exact moved_withCandidate rfl _
    · exact moved_withCandidate rfl _
  · simp only
    split
    · exact moved_setCall rfl rfl rfl
    · exact moved_answer (by rfl) (by rfl) {}
  · simp only
    split
    · exact moved_setCall rfl rfl rfl
    · exact moved_answer (by rfl) (by rfl) {}
  · split
    · exact moved_answer (by rfl) (by rfl) {}
    · split
      · exact moved_setCall rfl rfl rfl
      · exact moved_answer (by rfl) (by rfl) {}
  · simp only
    split
    · exact moved_answer (by rfl) (by rfl) _
    · exact moved_answer (by rfl) (by rfl) {}

theorem moved_run {s' : VisitorSystem} {result : CommandResult}
    (hcall : (s.calls t).map (·.requestId) = some requestId)
    (h : s.next (.run t result) = some s') : Moved s s' t requestId := by
  obtain ⟨call, hsome, rfl⟩ := Option.map_eq_some_iff.mp hcall
  simp only [next, hsome] at h
  obtain rfl := Option.some.inj h
  exact moved_advance result

theorem moved_bootstrap {s' : VisitorSystem} {existingToken generated : Bytes}
    (h : s.next (.bootstrap t existingToken requestId generated) = some s') :
    Moved s s' t requestId := by
  simp only [next] at h
  split_ifs at h
  all_goals obtain rfl := Option.some.inj h
  · exact moved_answer rfl rfl _
  · exact moved_answer rfl rfl {}
  · exact moved_setCall rfl rfl rfl
  · exact moved_withCandidate rfl generated

end VisitorSystem

namespace ViewSystem

/-- A step of the task `t` for this event, which goes on or reports. -/
structure Moved (s s' : ViewSystem) (t : ℕ) (key : Bytes × Bytes) : Prop where
  others : ∀ t', t' ≠ t → s'.tasks t' = s.tasks t'
  outcome :
    ((s'.tasks t).map ViewTask.key = some key ∧ s'.reports = s.reports) ∨
    (s'.tasks t = none ∧ ∃ ok count, s'.reports = s.reports++[⟨key.1, key.2, ok, count⟩])
  events : ∀ k ∈ s'.events, k ∈ s.events ∨ k = key

variable {s s' : ViewSystem} {t : ℕ} {task : ViewTask} {key : Bytes × Bytes}

theorem Moved.reports (h : Moved s s' t key) : s.reports ⊆ s'.reports := by
  rcases h.outcome with ⟨-, hsame⟩ | ⟨-, ok, count, hnew⟩
  · rw [hsame]
    exact List.Subset.refl _
  · rw [hnew]
    exact List.subset_append_left _ _

theorem moved_setTask (hkey : task.key = key) : Moved s (s.setTask t task) t key where
  others t' hne := Function.update_of_ne hne _ _
  outcome := .inl ⟨by simp [setTask, hkey], rfl⟩
  events _ hk := .inl hk

theorem moved_complete (hkey : task.key = key) (ok : Bool) :
    Moved s (s.complete t task ok) t key where
  others t' hne := Function.update_of_ne hne _ _
  outcome := .inr ⟨by simp [complete], ok, if ok then task.count else 0, by
    obtain rfl := hkey
    rfl⟩
  events _ hk := .inl hk

theorem moved_commitTask : Moved s (s.commitTask t task) t task.key where
  others t' hne := Function.update_of_ne hne _ _
  outcome := .inl ⟨by simp [commitTask, ViewTask.key], rfl⟩
  events k hk := by
    simp only [commitTask] at hk
    split at hk
    · rcases List.mem_append.mp hk with hk | hk
      · exact .inl hk
      · exact .inr (List.mem_singleton.mp hk)
    · exact .inl hk

theorem moved_advance {result : CallResult} (h : s.advance t task result = some s') :
    Moved s s' t task.key := by
  unfold advance at h
  split at h
  case h_4 | h_5 =>
    split_ifs at h
    obtain rfl := Option.some.inj h
    exact moved_setTask rfl
  case h_9 =>
    split at h
    · obtain rfl := Option.some.inj h
      exact moved_setTask rfl
    · contradiction
  case h_16 => contradiction
  case h_11 =>
    obtain rfl := Option.some.inj h
    exact moved_commitTask
  case h_1 | h_14 | h_15 =>
    obtain rfl := Option.some.inj h
    exact moved_complete rfl _
  all_goals
    obtain rfl := Option.some.inj h
    exact moved_setTask rfl

theorem moved_run {result : CallResult} (hkey : (s.tasks t).map ViewTask.key = some key)
    (h : s.next (.run t result) = some s') : Moved s s' t key := by
  obtain ⟨task, hsome, rfl⟩ := Option.map_eq_some_iff.mp hkey
  simp only [next, hsome] at h
  exact moved_advance h

theorem moved_call {exhibitionId bootstrapRequestId : Bytes} {submitted : Bool}
    (h : s.next (.call t exhibitionId bootstrapRequestId submitted) = some s') :
    Moved s s' t (exhibitionId, bootstrapRequestId) := by
  simp only [next] at h
  split_ifs at h with hfree
  · obtain rfl := Option.some.inj h
    exact moved_setTask rfl
  · obtain rfl := Option.some.inj h
    exact ⟨fun _ _ => rfl, .inr ⟨not_ne_iff.mp hfree, false, 0, rfl⟩, fun _ hk => .inl hk⟩

end ViewSystem

namespace VisitorServer

/-- The page start that a request has the identity service at. -/
def resolvingId : Option VisitorRequest → Option Bytes
  | some ⟨_, .resolving bootstrapId⟩ => some bootstrapId
  | _ => none

/-- The view that a request has the database count. -/
def countedKey (exhibitionId : Bytes) : Option VisitorRequest → Option (Bytes × Bytes)
  | some ⟨_, .incrementing bootstrapId _⟩ => some (exhibitionId, bootstrapId)
  | _ => none

/-- The identity service has answered this token for this page start. -/
def Resolved (s : VisitorServer) (bootstrapId token : Bytes) : Prop :=
  ⟨bootstrapId, ⟨.kOk, token⟩⟩ ∈ s.identity.reports

/-- The token of a page start that has been marked online. -/
def Visited (s : VisitorServer) (bootstrapId token : Bytes) : Prop :=
  s.Resolved bootstrapId token ∧ token ∈ s.marked

def StageKnown (s : VisitorServer) : VisitorStage → Prop
  | .marking bootstrapId token => s.Resolved bootstrapId token
  | .counting bootstrapId token => s.Visited bootstrapId token
  | .incrementing bootstrapId token => s.Visited bootstrapId token
  | _ => True

def ReplyKnown (exhibitionId : Bytes) (s : VisitorServer) : VisitorReply → Prop
  | .bootstrapped bootstrapId token ok count => s.Visited bootstrapId token ∧
      ⟨exhibitionId, bootstrapId, ok, count⟩ ∈ s.views.reports
  | _ => True

/-- A view is counted for a page start whose token has been marked online. -/
def ViewKnown (exhibitionId : Bytes) (s : VisitorServer) (key : Bytes × Bytes) : Prop :=
  key.1 = exhibitionId ∧ ∃ token, s.Visited key.2 token

structure Inv (exhibitionId : Bytes) (s : VisitorServer) : Prop where
  views : s.views.Inv
  call : ∀ n, (s.identity.calls n).map (·.requestId) = resolvingId (s.requests n)
  task : ∀ n, (s.views.tasks n).map ViewTask.key = countedKey exhibitionId (s.requests n)
  stage : ∀ n r, s.requests n = some r → s.StageKnown r.stage
  reply : ∀ answer ∈ s.answers, s.ReplyKnown exhibitionId answer.2
  event : ∀ key ∈ s.views.events, s.ViewKnown exhibitionId key
  once : (s.answers.map Prod.fst).Nodup
  settled : ∀ n ∈ s.answers.map Prod.fst, s.requests n = none

/-- Nothing that has been reported is lost. -/
structure Grows (s s₁ : VisitorServer) : Prop where
  identityReports : s.identity.reports ⊆ s₁.identity.reports
  viewReports : s.views.reports ⊆ s₁.views.reports
  marked : s.marked ⊆ s₁.marked

/-- What the task of the request `n` may change, before it settles what comes next. -/
structure Moves (exhibitionId : Bytes) (n : ℕ) (s s₁ : VisitorServer) : Prop extends
    Grows s s₁ where
  new : n ∉ s.answers.map Prod.fst
  requests : s₁.requests = s.requests
  answers : s₁.answers = s.answers
  views : s₁.views.Inv
  calls : ∀ m, m ≠ n → s₁.identity.calls m = s.identity.calls m
  tasks : ∀ m, m ≠ n → s₁.views.tasks m = s.views.tasks m
  event : ∀ key ∈ s₁.views.events, key ∈ s.views.events ∨ s₁.ViewKnown exhibitionId key

variable {h : VisitorHandlers} {exhibitionId : Bytes} {s s' s₁ : VisitorServer} {n : ℕ}
  {bootstrapId token requestId : Bytes} {stage : VisitorStage} {reply : VisitorReply}
  {e : VisitorServerEvent}

theorem Grows.visited (hm : Grows s s₁) (hv : s.Visited bootstrapId token) :
    s₁.Visited bootstrapId token :=
  ⟨hm.identityReports hv.1, hm.marked hv.2⟩

theorem Grows.stageKnown (hm : Grows s s₁) (hk : s.StageKnown stage) :
    s₁.StageKnown stage := by
  cases stage with
  | marking bootstrapId token => exact hm.identityReports hk
  | counting bootstrapId token => exact hm.visited hk
  | incrementing bootstrapId token => exact hm.visited hk
  | resolving | refreshing | beating | validating | leaving | tallying | reading => exact trivial

theorem Grows.replyKnown (hm : Grows s s₁) (hk : s.ReplyKnown exhibitionId reply) :
    s₁.ReplyKnown exhibitionId reply := by
  cases reply with
  | bootstrapped bootstrapId token ok count => exact ⟨hm.visited hk.1, hm.viewReports hk.2⟩
  | error | done | online | viewed => exact trivial

theorem Grows.viewKnown (hm : Grows s s₁) {key : Bytes × Bytes}
    (hk : s.ViewKnown exhibitionId key) : s₁.ViewKnown exhibitionId key :=
  ⟨hk.1, hk.2.imp (fun _ hv => hm.visited hv)⟩

theorem Moves.refl (hi : Inv exhibitionId s) (hnew : n ∉ s.answers.map Prod.fst) :
    Moves exhibitionId n s s where
  new := hnew
  requests := rfl
  answers := rfl
  views := hi.views
  calls _ _ := rfl
  tasks _ _ := rfl
  identityReports := List.Subset.refl _
  viewReports := List.Subset.refl _
  marked := List.Subset.refl _
  event _ hk := .inl hk

theorem Inv.new (hi : Inv exhibitionId s) {r : VisitorRequest} (hr : s.requests n = some r) :
    n ∉ s.answers.map Prod.fst := by
  intro hmem
  rw [hi.settled n hmem] at hr
  exact absurd hr (Option.some_ne_none _).symm

/-- What holds of the requests, when that of the request `n` becomes `r`. -/
theorem Moves.update (hm : Moves exhibitionId n s s₁) (hi : Inv exhibitionId s)
    {r : Option VisitorRequest} (hcall : (s₁.identity.calls n).map (·.requestId) = resolvingId r)
    (htask : (s₁.views.tasks n).map ViewTask.key = countedKey exhibitionId r)
    (hstage : ∀ r', r = some r' → s₁.StageKnown r'.stage) (m : ℕ) :
    (s₁.identity.calls m).map (·.requestId) = resolvingId (Function.update s₁.requests n r m) ∧
    (s₁.views.tasks m).map ViewTask.key =
      countedKey exhibitionId (Function.update s₁.requests n r m) ∧
    ∀ r', Function.update s₁.requests n r m = some r' → s₁.StageKnown r'.stage := by
  by_cases hmn : m = n
  · rw [hmn, Function.update_self]
    exact ⟨hcall, htask, hstage⟩
  · -- The other requests have their calls and tasks as before.
    rw [Function.update_of_ne hmn, hm.requests, ← hi.call m, ← hi.task m]
    exact ⟨congrArg _ (hm.calls m hmn), congrArg _ (hm.tasks m hmn),
      fun r' hr' => hm.stageKnown (hi.stage m r' hr')⟩

theorem Moves.eventKnown (hm : Moves exhibitionId n s s₁) (hi : Inv exhibitionId s)
    {key : Bytes × Bytes} (hmem : key ∈ s₁.views.events) : s₁.ViewKnown exhibitionId key :=
  (hm.event key hmem).elim (fun hold => hm.viewKnown (hi.event key hold)) id

/-- The request goes on. -/
theorem Inv.setStage (hi : Inv exhibitionId s) (hm : Moves exhibitionId n s s₁)
    (hcall : (s₁.identity.calls n).map (·.requestId) = resolvingId (some ⟨requestId, stage⟩))
    (htask : (s₁.views.tasks n).map ViewTask.key =
      countedKey exhibitionId (some ⟨requestId, stage⟩))
    (hstage : s₁.StageKnown stage) : Inv exhibitionId (s₁.setStage n requestId stage) := by
  have hupdate := hm.update hi hcall htask
    (fun r' hr' => Option.some.inj hr' ▸ hstage)
  refine ⟨hm.views, fun m => (hupdate m).1, fun m => (hupdate m).2.1, fun m => (hupdate m).2.2,
    ?_, fun key => hm.eventKnown hi, ?_, ?_⟩
  · intro answer hmem
    exact hm.replyKnown (hi.reply answer (hm.answers ▸ hmem))
  · show (s₁.answers.map Prod.fst).Nodup
    rw [hm.answers]
    exact hi.once
  · intro m hmem
    change m ∈ s₁.answers.map Prod.fst at hmem
    rw [hm.answers] at hmem
    have hmn : m ≠ n := fun hmn => hm.new (hmn ▸ hmem)
    show Function.update s₁.requests n _ m = none
    rw [Function.update_of_ne hmn, hm.requests]
    exact hi.settled m hmem

/-- The request is answered. -/
theorem Inv.answer (hi : Inv exhibitionId s) (hm : Moves exhibitionId n s s₁)
    (hcall : s₁.identity.calls n = none) (htask : s₁.views.tasks n = none)
    (hreply : s₁.ReplyKnown exhibitionId reply) : Inv exhibitionId (s₁.answer n reply) := by
  have hupdate := hm.update hi (r := none) (congrArg _ hcall) (congrArg _ htask)
    (fun r' hr' => absurd hr' (Option.some_ne_none _).symm)
  have hanswers : (s₁.answer n reply).answers = s.answers++[(n, reply)] := by
    rw [← hm.answers]
    rfl
  refine ⟨hm.views, fun m => (hupdate m).1, fun m => (hupdate m).2.1, fun m => (hupdate m).2.2,
    ?_, fun key => hm.eventKnown hi, ?_, ?_⟩
  · intro answer hmem
    rw [hanswers] at hmem
    rcases List.mem_append.mp hmem with hmem | hmem
    · exact hm.replyKnown (hi.reply answer hmem)
    · obtain rfl := List.mem_singleton.mp hmem
      exact hreply
  · rw [hanswers, List.map_append]
    refine List.nodup_append'.mpr ⟨hi.once, List.nodup_singleton _, ?_⟩
    intro m hmem hone
    obtain rfl : m = n := List.mem_singleton.mp hone
    exact hm.new hmem
  · intro m hmem
    rw [hanswers, List.map_append] at hmem
    show Function.update s₁.requests n none m = none
    by_cases hmn : m = n
    · rw [hmn, Function.update_self]
    · rw [Function.update_of_ne hmn, hm.requests]
      rcases List.mem_append.mp hmem with hmem | hmem
      · exact hi.settled m hmem
      · exact absurd (List.mem_singleton.mp hmem) hmn

/-- What a command leaves alone that is none of a bootstrap and none of the database. -/
structure Aside (s s₁ : VisitorServer) : Prop where
  requests : s₁.requests = s.requests
  answers : s₁.answers = s.answers
  views : s₁.views = s.views
  calls : s₁.identity.calls = s.identity.calls
  reports : s₁.identity.reports = s.identity.reports
  marked : s.marked ⊆ s₁.marked

theorem Aside.refl (s : VisitorServer) : Aside s s := ⟨rfl, rfl, rfl, rfl, rfl, List.Subset.refl _⟩

theorem Aside.grows (h : Aside s s₁) : Grows s s₁ where
  identityReports := by
    rw [h.reports]
    exact List.Subset.refl _
  viewReports := by
    rw [h.views]
    exact List.Subset.refl _
  marked := h.marked

theorem Aside.moves (h : Aside s s₁) (hi : Inv exhibitionId s)
    (hnew : n ∉ s.answers.map Prod.fst) : Moves exhibitionId n s s₁ :=
  { h.grows with
    new := hnew
    requests := h.requests
    answers := h.answers
    views := h.views ▸ hi.views
    calls := fun m _ => congrFun h.calls m
    tasks := fun m _ => by rw [h.views]
    event := fun key hk => .inl (h.views ▸ hk) }

theorem Moves.ofIdentity (hi : Inv exhibitionId s) (hnew : n ∉ s.answers.map Prod.fst)
    {identity : VisitorSystem} (hmoved : s.identity.Moved identity n bootstrapId) :
    Moves exhibitionId n s { s with identity := identity } :=
  { Moves.refl hi hnew with
    calls := hmoved.others
    identityReports := hmoved.reports
    event := fun _ hk => .inl hk }

theorem Moves.ofViews (hi : Inv exhibitionId s) (hnew : n ∉ s.answers.map Prod.fst)
    {views : ViewSystem} (hmoved : s.views.Moved views n (exhibitionId, bootstrapId))
    (hviews : views.Inv) (hvisited : s.Visited bootstrapId token) :
    Moves exhibitionId n s { s with views := views } :=
  { Moves.refl hi hnew with
    views := hviews
    tasks := hmoved.others
    viewReports := hmoved.reports
    event := fun key hk => (hmoved.events key hk).imp_right (fun hown => by
      subst hown
      exact ⟨rfl, token, hvisited⟩) }

theorem Inv.settleIdentity (hi : Inv exhibitionId s) (hm : Moves exhibitionId n s s₁)
    (hmoved : s.identity.Moved s₁.identity n bootstrapId) (htask : s₁.views.tasks n = none) :
    Inv exhibitionId (s₁.settleIdentity n requestId bootstrapId) := by
  rw [VisitorServer.settleIdentity]
  -- The call goes on, or its result is the last one reported.
  rcases hmoved.outcome with ⟨hcall, -⟩ | ⟨hnone, result, hreports⟩
  · obtain ⟨call, hsome, -⟩ := Option.map_eq_some_iff.mp hcall
    simp only [hsome]
    exact hi.setStage hm hcall (congrArg _ htask) trivial
  · have hlast : lastResult s₁.identity = result := by
      rw [lastResult, hreports, List.getLast?_append]
      rfl
    simp only [hnone, hlast]
    split
    · exact hi.answer hm hnone htask trivial
    · exact hi.answer hm hnone htask trivial
    · rename_i hok
      refine hi.setStage hm (congrArg _ hnone) (congrArg _ htask) ?_
      show (⟨bootstrapId, ⟨.kOk, result.token⟩⟩ : VisitorSessionService.BootstrapReport) ∈
        s₁.identity.reports
      rw [hreports, ← hok]
      exact List.mem_append_right _ (List.mem_singleton.mpr rfl)

theorem Inv.settleViews (hi : Inv exhibitionId s) (hm : Moves exhibitionId n s s₁)
    (hmoved : s.views.Moved s₁.views n (exhibitionId, bootstrapId))
    (hcall : s₁.identity.calls n = none) (hvisited : s₁.Visited bootstrapId token) :
    Inv exhibitionId (s₁.settleViews n requestId bootstrapId token) := by
  rw [VisitorServer.settleViews]
  -- The task goes on, or its count is the last one reported.
  rcases hmoved.outcome with ⟨htask, -⟩ | ⟨hnone, ok, count, hreports⟩
  · obtain ⟨task, hsome, -⟩ := Option.map_eq_some_iff.mp htask
    simp only [hsome]
    exact hi.setStage hm (congrArg _ hcall) htask hvisited
  · have hlast : lastCount s₁.views = (ok, count) := by
      rw [lastCount, hreports, List.getLast?_append]
      rfl
    simp only [hnone, hlast]
    refine hi.answer hm hcall hnone ⟨hvisited, ?_⟩
    rw [hreports]
    exact List.mem_append_right _ (List.mem_singleton.mpr rfl)

/-- A request that is not with the identity service has no call there. -/
theorem Inv.calls_none (hi : Inv exhibitionId s) (h : resolvingId (s.requests n) = none) :
    s.identity.calls n = none :=
  Option.map_eq_none_iff.mp ((hi.call n).trans h)

theorem Inv.tasks_none (hi : Inv exhibitionId s)
    (h : countedKey exhibitionId (s.requests n) = none) : s.views.tasks n = none :=
  Option.map_eq_none_iff.mp ((hi.task n).trans h)

/-- An answer to a request that has no call and no task. -/
theorem Inv.refuse (hi : Inv exhibitionId s) (hnew : n ∉ s.answers.map Prod.fst)
    (ha : Aside s s₁) (hcall : resolvingId (s.requests n) = none)
    (htask : countedKey exhibitionId (s.requests n) = none)
    (hreply : s₁.ReplyKnown exhibitionId reply) : Inv exhibitionId (s₁.answer n reply) :=
  hi.answer (ha.moves hi hnew) (ha.calls ▸ hi.calls_none hcall) (ha.views ▸ hi.tasks_none htask)
    hreply

/-- A request that has no call and no task goes on without one. -/
theorem Inv.goOn (hi : Inv exhibitionId s) (hnew : n ∉ s.answers.map Prod.fst) (ha : Aside s s₁)
    (hcall : resolvingId (s.requests n) = none)
    (htask : countedKey exhibitionId (s.requests n) = none)
    (hcall' : resolvingId (some ⟨requestId, stage⟩) = none)
    (htask' : countedKey exhibitionId (some ⟨requestId, stage⟩) = none)
    (hstage : s₁.StageKnown stage) : Inv exhibitionId (s₁.setStage n requestId stage) := by
  refine hi.setStage (ha.moves hi hnew) ?_ ?_ hstage
  · rw [ha.calls, hi.calls_none hcall, hcall']
    rfl
  · rw [ha.views, hi.tasks_none htask, htask']
    rfl

section Receiving

variable (hi : Inv h.exhibitionId s) (hfree : s.requests n = none)
  (hnew : n ∉ s.answers.map Prod.fst)
include hi hfree hnew

theorem Inv.answerNew (hreply : s.ReplyKnown h.exhibitionId reply) :
    Inv h.exhibitionId (s.answer n reply) :=
  hi.refuse hnew (.refl s) (hfree ▸ rfl) (hfree ▸ rfl) hreply

theorem Inv.startNew (hcall : resolvingId (some ⟨requestId, stage⟩) = none)
    (htask : countedKey h.exhibitionId (some ⟨requestId, stage⟩) = none)
    (hstage : s.StageKnown stage) : Inv h.exhibitionId (s.setStage n requestId stage) :=
  hi.goOn hnew (.refl s) (hfree ▸ rfl) (hfree ▸ rfl) hcall htask hstage

theorem Inv.takeToken (request : HttpRequest) (submitted : Bool) {stage : Bytes → VisitorStage}
    (hcall : ∀ requestId token, resolvingId (some ⟨requestId, stage token⟩) = none)
    (htask : ∀ requestId token, countedKey h.exhibitionId (some ⟨requestId, stage token⟩) = none)
    (hstage : ∀ token, s.StageKnown (stage token)) :
    Inv h.exhibitionId (s.takeToken h n request submitted stage) := by
  simp only [VisitorServer.takeToken]
  split_ifs
  · exact hi.answerNew hfree hnew trivial
  · exact hi.answerNew hfree hnew trivial
  · exact hi.answerNew hfree hnew trivial
  · exact hi.startNew hfree hnew (hcall _ _) (htask _ _) (hstage _)
  · exact hi.answerNew hfree hnew trivial

theorem Inv.bootstrap {request : HttpRequest} {submitted : Bool} {generated : Bytes}
    (hs : s.bootstrap h n request submitted generated = some s') : Inv h.exhibitionId s' := by
  simp only [VisitorServer.bootstrap] at hs
  split at hs
  · obtain rfl := Option.some.inj hs
    exact hi.answerNew hfree hnew trivial
  · split at hs
    · obtain rfl := Option.some.inj hs
      exact hi.answerNew hfree hnew trivial
    · split_ifs at hs
      · obtain rfl := Option.some.inj hs
        exact hi.answerNew hfree hnew trivial
      · obtain rfl := Option.some.inj hs
        exact hi.answerNew hfree hnew trivial
      · obtain ⟨identity, hidentity, rfl⟩ := Option.map_eq_some_iff.mp hs
        have hmoved := VisitorSystem.moved_bootstrap hidentity
        exact hi.settleIdentity (.ofIdentity hi hnew hmoved) hmoved
          (hi.tasks_none (hfree ▸ rfl))

theorem Inv.receive {endpoint : VisitorEndpoint} {request : HttpRequest} {submitted : Bool}
    {generated : Bytes} (hs : s.receive h n endpoint request submitted generated = some s') :
    Inv h.exhibitionId s' := by
  cases endpoint with
  | bootstrap => exact hi.bootstrap hfree hnew hs
  | heartbeat =>
    obtain rfl := Option.some.inj hs
    exact hi.takeToken hfree hnew request submitted (fun _ _ => rfl) (fun _ _ => rfl)
      (fun _ => trivial)
  | exit =>
    obtain rfl := Option.some.inj hs
    exact hi.takeToken hfree hnew request submitted (fun _ _ => rfl) (fun _ _ => rfl)
      (fun _ => trivial)
  | presence =>
    simp only [VisitorServer.receive] at hs
    split_ifs at hs
    all_goals obtain rfl := Option.some.inj hs
    · exact hi.answerNew hfree hnew trivial
    · exact hi.startNew hfree hnew rfl rfl trivial
    · exact hi.answerNew hfree hnew trivial
  | views =>
    simp only [VisitorServer.receive] at hs
    split_ifs at hs
    all_goals obtain rfl := Option.some.inj hs
    · exact hi.answerNew hfree hnew trivial
    · exact hi.startNew hfree hnew rfl rfl trivial

end Receiving

theorem aside_presenceCommand {α : Type} (s : VisitorServer) (fallback : α)
    (done : α × PresenceSet) (result : CommandResult) :
    Aside s (s.presenceCommand fallback done result).2 := by
  cases result with
  | replied | lost | unreached => exact ⟨rfl, rfl, rfl, rfl, rfl, List.Subset.refl _⟩

theorem aside_touch (h : VisitorHandlers) (s : VisitorServer) (token : Bytes) (nowMs : ℤ)
    (result : CommandResult) : Aside s (s.touch h token nowMs result).2 ∧
      ((s.touch h token nowMs result).1 = true →
        token ∈ (s.touch h token nowMs result).2.marked) := by
  have ha := aside_presenceCommand s false
    (PresenceService.heartbeat h.score s.presence token nowMs) result
  rw [touch]
  by_cases hdone : (s.presenceCommand false
      (PresenceService.heartbeat h.score s.presence token nowMs) result).1 = true
  · simp only [hdone, if_true]
    refine ⟨{ ha with marked := List.subset_append_of_subset_left _ ha.marked }, fun _ => ?_⟩
    exact List.mem_append_right _ (List.mem_singleton.mpr rfl)
  · simp only [hdone]
    exact ⟨ha, fun hno => absurd hno (by decide)⟩

theorem aside_refresh (s : VisitorServer) (token : Bytes) (result : CommandResult) :
    Aside s (s.refresh token result).2 := by
  rw [refresh]
  split
  · exact ⟨rfl, rfl, rfl, rfl, rfl, List.Subset.refl _⟩
  · exact .refl s

theorem Inv.command (hi : Inv h.exhibitionId s) {r : VisitorRequest} {nowMs : ℤ}
    {result : CommandResult} (hr : s.requests n = some r)
    (hs : s.command h n r nowMs result = some s') : Inv h.exhibitionId s' := by
  have hnew := hi.new hr
  have hstage := hi.stage n r hr
  obtain ⟨requestId, stage⟩ := r
  cases stage with
  | resolving bootstrapId =>
    obtain ⟨identity, hidentity, rfl⟩ := Option.map_eq_some_iff.mp hs
    have hcall : (s.identity.calls n).map (·.requestId) = some bootstrapId := by
      rw [hi.call n, hr]
      rfl
    have hmoved := VisitorSystem.moved_run hcall hidentity
    exact hi.settleIdentity (.ofIdentity hi hnew hmoved) hmoved (hi.tasks_none (hr ▸ rfl))
  | marking bootstrapId token =>
    obtain ⟨ha, htouched⟩ := aside_touch h s token nowMs result
    simp only [VisitorServer.command] at hs
    split_ifs at hs with hdone
    all_goals obtain rfl := Option.some.inj hs
    · -- The answered command has marked the token that this stage knows.
      have hresolved := (ha.moves hi hnew).identityReports hstage
      exact hi.goOn hnew ha (hr ▸ rfl) (hr ▸ rfl) rfl rfl ⟨hresolved, htouched hdone⟩
    · exact hi.refuse hnew ha (hr ▸ rfl) (hr ▸ rfl) trivial
  | refreshing token =>
    have ha := aside_refresh s token result
    simp only [VisitorServer.command] at hs
    split_ifs at hs
    all_goals obtain rfl := Option.some.inj hs
    · exact hi.goOn hnew ha (hr ▸ rfl) (hr ▸ rfl) rfl rfl trivial
    · exact hi.refuse hnew ha (hr ▸ rfl) (hr ▸ rfl) trivial
  | beating token =>
    obtain ⟨ha, -⟩ := aside_touch h s token nowMs result
    simp only [VisitorServer.command] at hs
    split_ifs at hs
    all_goals
      obtain rfl := Option.some.inj hs
      exact hi.refuse hnew ha (hr ▸ rfl) (hr ▸ rfl) trivial
  | validating token =>
    simp only [VisitorServer.command] at hs
    split_ifs at hs
    all_goals obtain rfl := Option.some.inj hs
    · exact hi.goOn hnew (.refl s) (hr ▸ rfl) (hr ▸ rfl) rfl rfl trivial
    · exact hi.refuse hnew (.refl s) (hr ▸ rfl) (hr ▸ rfl) trivial
  | leaving token =>
    have ha := aside_presenceCommand s false (PresenceService.remove s.presence token) result
    simp only [VisitorServer.command] at hs
    split_ifs at hs
    all_goals
      obtain rfl := Option.some.inj hs
      exact hi.refuse hnew ha (hr ▸ rfl) (hr ▸ rfl) trivial
  | tallying =>
    have ha := aside_presenceCommand s (false, 0)
      (PresenceService.count h.score s.presence nowMs) result
    simp only [VisitorServer.command] at hs
    split_ifs at hs
    all_goals
      obtain rfl := Option.some.inj hs
      exact hi.refuse hnew ha (hr ▸ rfl) (hr ▸ rfl) trivial
  | counting bootstrapId token => exact absurd hs (Option.some_ne_none _).symm
  | incrementing bootstrapId token => exact absurd hs (Option.some_ne_none _).symm
  | reading => exact absurd hs (Option.some_ne_none _).symm

theorem Inv.aside (hi : Inv exhibitionId s) (ha : Aside s s₁) : Inv exhibitionId s₁ where
  views := ha.views ▸ hi.views
  call n := by
    rw [ha.calls, ha.requests]
    exact hi.call n
  task n := by
    rw [ha.views, ha.requests]
    exact hi.task n
  stage n r hr := ha.grows.stageKnown (hi.stage n r (ha.requests ▸ hr))
  reply answer hmem := ha.grows.replyKnown (hi.reply answer (ha.answers ▸ hmem))
  event key hmem := ha.grows.viewKnown (hi.event key (ha.views ▸ hmem))
  once := ha.answers ▸ hi.once
  settled n hmem := by
    rw [ha.requests]
    exact hi.settled n (ha.answers ▸ hmem)

theorem Inv.step (hi : Inv h.exhibitionId s) (hs : Step h s e s') : Inv h.exhibitionId s' := by
  obtain ⟨hunlocked, hs⟩ := hs
  cases e with
  | request n endpoint request submitted generated =>
    simp only [VisitorServer.next] at hs
    obtain ⟨hfree, hs⟩ := Option.ite_none_left_eq_some.mp hs
    obtain ⟨hfree, hnew⟩ := not_or.mp hfree
    exact hi.receive (not_not.mp hfree) hnew hs
  | redis n nowMs result =>
    obtain ⟨r, hr, hs⟩ := Option.bind_eq_some_iff.mp hs
    exact hi.command hr hs
  | increment n submitted =>
    simp only [VisitorServer.next] at hs
    split at hs
    · rename_i requestId bootstrapId token hr
      obtain ⟨views, hviews, rfl⟩ := Option.map_eq_some_iff.mp hs
      have hnew := hi.new hr
      have hmoved := ViewSystem.moved_call hviews
      have hvisited : s.Visited bootstrapId token := hi.stage n _ hr
      -- A call locks no row, so that it is never held up.
      have hstep : s.views.Step (.call n h.exhibitionId bootstrapId submitted) views :=
        ⟨trivial, hviews⟩
      have hinv : views.Inv := ViewSystem.step_inv hi.views hstep
      have hm := Moves.ofViews hi hnew hmoved hinv hvisited
      exact hi.settleViews hm hmoved (hi.calls_none (hr ▸ rfl)) hvisited
    · exact absurd hs (Option.some_ne_none _).symm
  | mysql n result =>
    simp only [VisitorServer.next] at hs
    split at hs
    · rename_i requestId bootstrapId token hr
      obtain ⟨views, hviews, rfl⟩ := Option.map_eq_some_iff.mp hs
      have hnew := hi.new hr
      have hkey : (s.views.tasks n).map ViewTask.key = some (h.exhibitionId, bootstrapId) := by
        rw [hi.task n, hr]
        rfl
      have hmoved := ViewSystem.moved_run hkey hviews
      have hvisited : s.Visited bootstrapId token := hi.stage n _ hr
      have hinv : views.Inv := ViewSystem.step_inv hi.views ⟨hunlocked, hviews⟩
      have hm := Moves.ofViews hi hnew hmoved hinv hvisited
      exact hi.settleViews hm hmoved (hi.calls_none (hr ▸ rfl)) hvisited
    · exact absurd hs (Option.some_ne_none _).symm
  | readViews n ok =>
    simp only [VisitorServer.next] at hs
    split at hs
    · rename_i requestId hr
      split at hs
      all_goals
        obtain rfl := Option.some.inj hs
        exact hi.refuse (hi.new hr) (.refl s) (hr ▸ rfl) (hr ▸ rfl) trivial
    · exact absurd hs (Option.some_ne_none _).symm
  | expireVisitor token =>
    obtain rfl := Option.some.inj hs
    exact hi.aside ⟨rfl, rfl, rfl, rfl, rfl, List.Subset.refl _⟩
  | expireClaim bootstrapId =>
    obtain rfl := Option.some.inj hs
    exact hi.aside ⟨rfl, rfl, rfl, rfl, rfl, List.Subset.refl _⟩

theorem inv_started (exhibitionId : Bytes) (available : Bool) (keys : VisitorKeys)
    (presence : PresenceSet) : Inv exhibitionId (started available keys presence) where
  views := ViewSystem.inv_empty
  call _ := rfl
  task _ := rfl
  stage _ _ hr := absurd hr (Option.some_ne_none _).symm
  reply _ hmem := absurd hmem List.not_mem_nil
  event _ hmem := absurd hmem List.not_mem_nil
  once := List.nodup_nil
  settled _ hmem := absurd hmem List.not_mem_nil

end VisitorServer

end JingjieAR
