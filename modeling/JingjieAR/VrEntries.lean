import JingjieAR.VrEntryModel
import Mathlib.Data.List.Perm.Basic
import Mathlib.Data.List.Nodup
import Mathlib.Data.List.Range

/-! The requests to enter VR. Every promise that was made has been settled once, or it belongs to
the request of the adapter; and the only timer that can be armed is the one of that request. -/
namespace JingjieAR.VrAdapter

open Runs (Run)

variable {a a' : VrAdapter} {action : VrAction}

/-- The timer of a request. -/
def armedTimers (request : VrRequest) : List VrTimer :=
  request.timerId.toList.map (⟨·, request.promise⟩)

/-- The promise that is not settled yet. -/
def pending (a : VrAdapter) : List ℕ := a.vrEnterRequest.toList.map (·.promise)

structure Consistent (a : VrAdapter) : Prop where
  entering : a.vrState = .entering ↔ a.vrEnterRequest.isSome = true
  allowed : a.vrState = .entering → a.isSecureContext ≠ some false ∧ a.player = true
  timers : a.timers = a.vrEnterRequest.toList.flatMap armedTimers
  calling : ∀ request ∈ a.vrEnterRequest, request.timerId = none ↔ request.promise ∈ a.calls
  calls : a.calls.Nodup
  made : ∀ promise ∈ a.calls, promise < a.promises
  promises : (a.settled.map Prod.fst++a.pending).Perm (List.range a.promises)

theorem Consistent.initial (secure : Option Bool) :
    Consistent { isSecureContext := secure } := by
  refine ⟨?_, ?_, rfl, ?_, List.nodup_nil, ?_, .refl _⟩
  · simp
  · simp
  · simp
  · simp

section Finishing

/-- What finishing leaves: no request and, if its timer was the only one, no timer. -/
structure Finished (a : VrAdapter) (error : Option String) (nextState : VrState)
    (a' : VrAdapter) : Prop where
  request : a'.vrEnterRequest = none
  state : a'.vrState = nextState
  calls : a'.calls = a.calls
  promises : a'.promises = a.promises
  secure : a'.isSecureContext = a.isSecureContext
  player : a'.player = a.player
  settled : a'.settled = a.settled++a.pending.map (·, .of error)

theorem finished (a : VrAdapter) (error : Option String) (nextState : VrState) :
    Finished a error nextState (a.finishVrEnter error nextState) := by
  rw [finishVrEnter]
  cases hrequest : a.vrEnterRequest with
  | none =>
    refine ⟨rfl, rfl, rfl, rfl, rfl, rfl, ?_⟩
    simp [pending, hrequest]
  | some request =>
    simp only
    split
    · refine ⟨rfl, rfl, rfl, rfl, rfl, rfl, ?_⟩
      simp [settle, clearTimeout, pending, hrequest]
    · refine ⟨rfl, rfl, rfl, rfl, rfl, rfl, ?_⟩
      simp [settle, pending, hrequest]

/-- Of the timers of the request, none stays. -/
theorem timers_finish (error : Option String) (nextState : VrState)
    (h : a.timers.Sublist (a.vrEnterRequest.toList.flatMap armedTimers)) :
    (a.finishVrEnter error nextState).timers = [] := by
  rw [finishVrEnter]
  cases hrequest : a.vrEnterRequest with
  | none =>
    rw [hrequest] at h
    exact List.sublist_nil.mp h
  | some request =>
    have hsub : a.timers.Sublist (armedTimers request) := by
      rw [hrequest] at h
      simpa using h
    simp only
    split
    · rename_i timerId hid
      have hall : ∀ timer ∈ a.timers, timer.timerId = timerId := by
        intro timer hmem
        have harmed := hsub.subset hmem
        rw [armedTimers, hid] at harmed
        obtain rfl := List.mem_singleton.mp harmed
        rfl
      simpa [settle, clearTimeout] using hall
    · rename_i hid
      rw [armedTimers, hid] at hsub
      exact List.sublist_nil.mp hsub

/-- Finishing keeps the adapter consistent, also where a call or the timer of the request has just
come to its end. -/
theorem Consistent.finish (h : Consistent a) {timers : List VrTimer} {calls : List ℕ}
    (hsub : timers.Sublist a.timers) (hcalls : calls.Sublist a.calls) (error : Option String)
    {nextState : VrState} (hnext : nextState ≠ .entering) :
    Consistent ({ a with timers := timers, calls := calls }.finishVrEnter error nextState) := by
  have hfinished := finished { a with timers := timers, calls := calls } error nextState
  have htimers : ({ a with timers := timers, calls := calls }.finishVrEnter error
      nextState).timers = [] := by
    apply timers_finish
    rw [h.timers] at hsub
    exact hsub
  generalize { a with timers := timers, calls := calls }.finishVrEnter error nextState = a'
    at hfinished htimers
  refine ⟨?_, ?_, ?_, ?_, ?_, ?_, ?_⟩
  · rw [hfinished.state, hfinished.request]
    simpa using hnext
  · rw [hfinished.state]
    exact fun hentering => absurd hentering hnext
  · rw [htimers, hfinished.request]
    rfl
  · simp [hfinished.request]
  · rw [hfinished.calls]
    exact h.calls.sublist hcalls
  · rw [hfinished.calls, hfinished.promises]
    exact fun promise hmem => h.made promise (hcalls.subset hmem)
  · have hpending : a'.pending = [] := by
      rw [pending, hfinished.request]
      rfl
    have hsettled : a'.settled.map Prod.fst = a.settled.map Prod.fst++a.pending := by
      rw [hfinished.settled, List.map_append, List.map_map]
      simp [Function.comp_def, pending]
    rw [hpending, hsettled, List.append_nil, hfinished.promises]
    exact h.promises

end Finishing

section Steps

/-- Where there is no request, another state than entering may be set. -/
theorem Consistent.setState (h : Consistent a) (hrequest : a.vrEnterRequest = none)
    {vrState : VrState} (hstate : vrState ≠ .entering) :
    Consistent { a with vrState := vrState } where
  entering := by simpa [hrequest] using hstate
  allowed hentering := absurd hentering hstate
  timers := h.timers
  calling := h.calling
  calls := h.calls
  made := h.made
  promises := h.promises

theorem Consistent.request_none (h : Consistent a) (hstate : a.vrState ≠ .entering) :
    a.vrEnterRequest = none := by
  by_contra hsome
  exact hstate (h.entering.mpr (Option.isSome_iff_ne_none.mpr hsome))

theorem Consistent.enterVr (h : Consistent a) : Consistent a.enterVr.2 := by
  rw [VrAdapter.enterVr]
  split_ifs with hsecure hplayer
  · exact h
  · exact h
  · cases hstate : a.vrState with
    | unknown => exact h
    | unavailable => exact h
    | entered => exact h
    | entering =>
      simp only
      split
      · exact h
      · exact h
    | available =>
      have hrequest : a.vrEnterRequest = none := h.request_none (by simp [hstate])
      have hsettled : (a.settled.map Prod.fst).Perm (List.range a.promises) := by
        have hperm := h.promises
        rw [pending, hrequest] at hperm
        simpa using hperm
      refine ⟨?_, ?_, ?_, ?_, ?_, ?_, ?_⟩
      · simp
      · intro _
        exact ⟨hsecure, by simpa using hplayer⟩
      · rw [h.timers, hrequest]
        rfl
      · simp
      · exact List.nodup_cons.mpr ⟨fun hmem => absurd (h.made _ hmem) (lt_irrefl _), h.calls⟩
      · intro promise hmem
        rcases List.mem_cons.mp hmem with rfl | hmem
        · exact Nat.lt_succ_self _
        · exact (h.made promise hmem).trans (Nat.lt_succ_self _)
      · rw [List.range_succ]
        exact hsettled.append_right _

/-- A call that has left its request to be finished later arms the timer of the request. -/
theorem Consistent.callReturned (h : Consistent a) {promise : ℕ} {calls : List ℕ}
    (hcalls : a.calls = promise :: calls) (timerId : ℕ) :
    Consistent ({ a with calls := calls }.callReturned promise timerId) := by
  obtain ⟨hnotin, hnodup⟩ := List.nodup_cons.mp (hcalls ▸ h.calls)
  have hmade : ∀ p ∈ calls, p < a.promises := by
    intro p hp
    apply h.made
    rw [hcalls]
    exact List.mem_cons_of_mem _ hp
  rw [VrAdapter.callReturned]
  split
  · rename_i request hrequest
    have hcalling := h.calling request hrequest
    have htimers := h.timers
    simp only at hrequest
    rw [hrequest] at htimers
    rw [hcalls, List.mem_cons] at hcalling
    split_ifs with hsame
    · have hnone : request.timerId = none := hcalling.mpr (.inl hsame)
      refine ⟨?_, ?_, ?_, ?_, hnodup, hmade, ?_⟩
      · simpa [hrequest] using h.entering
      · exact h.allowed
      · have hempty : a.timers = [] := by
          rw [htimers]
          simp [armedTimers, hnone]
        simp [hempty, armedTimers, hsame]
      · simpa [hsame] using hnotin
      · have hperm := h.promises
        rw [pending, hrequest] at hperm
        exact hperm
    · refine ⟨h.entering, h.allowed, h.timers, ?_, hnodup, hmade, h.promises⟩
      intro request' hrequest'
      obtain rfl : request' = request := Option.some.inj (hrequest'.symm.trans hrequest)
      simpa [hsame] using hcalling
  · rename_i hrequest
    refine ⟨h.entering, h.allowed, h.timers, ?_, hnodup, hmade, h.promises⟩
    intro request' hrequest'
    exact absurd (hrequest'.symm.trans hrequest) (by simp)

theorem Consistent.handleVrEvent (h : Consistent a) (event : VrEvent) :
    Consistent (a.handleVrEvent event) := by
  have hfinish : ∀ (error : Option String) {nextState : VrState}, nextState ≠ .entering →
      Consistent (a.finishVrEnter error nextState) :=
    fun error _ hnext => h.finish (.refl _) (.refl _) error hnext
  have hnone : ¬ a.vrEnterRequest.isSome = true → a.vrEnterRequest = none := by simp
  cases event with
  | available =>
    rw [VrAdapter.handleVrEvent]
    split_ifs with hstate
    · exact h.setState (h.request_none hstate.1) (by decide)
    · exact h
  | unavailable =>
    rw [VrAdapter.handleVrEvent]
    split_ifs with hrequest
    · exact hfinish _ (by decide)
    · exact h.setState (hnone hrequest) (by decide)
  | entered =>
    rw [VrAdapter.handleVrEvent]
    split_ifs with hrequest
    · exact hfinish _ (by decide)
    · exact h.setState (hnone hrequest) (by decide)
  | exited =>
    rw [VrAdapter.handleVrEvent]
    split_ifs with hrequest
    · exact hfinish _ (by decide)
    · exact h.setState (hnone hrequest) (by decide)

theorem Consistent.step (h : Consistent a) (hstep : Step a action a') : Consistent a' := by
  rw [Step] at hstep
  cases action with
  | onready =>
    simp only [next, Option.ite_none_left_eq_some] at hstep
    obtain ⟨-, rfl⟩ : _ ∧ _ = a' := by simpa using hstep
    exact ⟨h.entering, fun hentering => ⟨(h.allowed hentering).1, rfl⟩, h.timers, h.calling,
      h.calls, h.made, h.promises⟩
  | enterVr =>
    obtain rfl := Option.some.inj hstep
    exact h.enterVr
  | event event =>
    simp only [next, Option.ite_none_right_eq_some] at hstep
    obtain rfl := Option.some.inj hstep.2
    exact h.handleVrEvent event
  | callReturns timerId =>
    rw [next] at hstep
    split at hstep
    · contradiction
    · rename_i promise calls hcalls
      rw [Option.ite_none_left_eq_some] at hstep
      obtain rfl := Option.some.inj hstep.2
      exact h.callReturned hcalls timerId
  | callThrows message =>
    rw [next] at hstep
    split at hstep
    · contradiction
    · rename_i promise calls hcalls
      obtain rfl := Option.some.inj hstep
      have hsub : calls.Sublist a.calls := by
        rw [hcalls]
        exact List.sublist_cons_self _ _
      exact h.finish (.refl _) hsub _ (by decide)
  | timeout timerId =>
    rw [next, Option.ite_none_right_eq_some] at hstep
    obtain rfl := Option.some.inj hstep.2
    exact h.finish List.filter_sublist (.refl _) _ (by decide)

theorem Consistent.run {secure : Option Bool} {actions : List VrAction}
    (hr : Run Step { isSecureContext := secure } actions a) : Consistent a :=
  hr.invariant (fun _ _ _ h hstep => h.step hstep) (.initial secure)

end Steps

section Results

/-- Only the timer of the request is armed. -/
theorem Consistent.request_of_timer (h : Consistent a) {timer : VrTimer}
    (hmem : timer ∈ a.timers) : a.vrEnterRequest = some ⟨timer.promise, some timer.timerId⟩ := by
  rw [h.timers] at hmem
  obtain ⟨request, hrequest, harmed⟩ := List.mem_flatMap.mp hmem
  obtain ⟨timerId, hid, rfl⟩ := List.mem_map.mp harmed
  have hsome : a.vrEnterRequest = some request := Option.mem_toList.mp hrequest
  have hidSome : request.timerId = some timerId := Option.mem_toList.mp hid
  rw [hsome, ← hidSome]

theorem Consistent.settled_nodup (h : Consistent a) :
    (a.settled.map Prod.fst++a.pending).Nodup :=
  h.promises.nodup_iff.mpr List.nodup_range

theorem Consistent.unsettled (h : Consistent a) {request : VrRequest}
    (hrequest : a.vrEnterRequest = some request) :
    request.promise ∉ a.settled.map Prod.fst := by
  have hpending : request.promise ∈ a.pending := by simp [pending, hrequest]
  exact fun hmem => (List.disjoint_of_nodup_append h.settled_nodup) hmem hpending

/-- While the adapter is entering, a call gets the promise that is pending already. -/
theorem Consistent.enterVr_shares (h : Consistent a) (hentering : a.vrState = .entering) :
    ∃ request, a.vrEnterRequest = some request ∧ a.enterVr = (.promise request.promise, a) := by
  obtain ⟨hsecure, hplayer⟩ := h.allowed hentering
  obtain ⟨request, hrequest⟩ := Option.isSome_iff_exists.mp (h.entering.mp hentering)
  refine ⟨request, hrequest, ?_⟩
  rw [VrAdapter.enterVr, if_neg hsecure, if_neg (by simp [hplayer])]
  simp only [hentering, hrequest]

/-- A timeout settles the request that its timer was armed for. -/
theorem Consistent.timeout_settles (h : Consistent a) {timer : VrTimer}
    (hmem : timer ∈ a.timers) (hstep : Step a (.timeout timer.timerId) a') :
    a'.vrState = .available ∧ a'.vrEnterRequest = none ∧
      a'.settled = a.settled++[(timer.promise, .rejected "进入 VR 超时，请重试")] := by
  rw [Step, next, Option.ite_none_right_eq_some] at hstep
  obtain rfl := Option.some.inj hstep.2
  have hfinished := finished (a.clearTimeout timer.timerId) (some "进入 VR 超时，请重试") .available
  refine ⟨hfinished.state, hfinished.request, ?_⟩
  have hpending : (a.clearTimeout timer.timerId).pending = [timer.promise] := by
    have hrequest := h.request_of_timer hmem
    simp [pending, clearTimeout, hrequest]
  rw [timeout, hfinished.settled, hpending]
  rfl

/-- A promise that is not settled belongs to a call under way or has a timer. -/
theorem Consistent.settles (h : Consistent a) (hcalls : a.calls = []) {promise : ℕ}
    (hmade : promise < a.promises) :
    promise ∈ a.settled.map Prod.fst ∨ ∃ timer ∈ a.timers, timer.promise = promise := by
  have hmem := h.promises.mem_iff.mpr (List.mem_range.mpr hmade)
  rcases List.mem_append.mp hmem with hsettled | hpending
  · exact .inl hsettled
  · right
    obtain ⟨request, hrequest, rfl⟩ := List.mem_map.mp hpending
    have hsome := Option.mem_toList.mp hrequest
    have htimer : request.timerId ≠ none := by
      intro hnone
      have hcalling := (h.calling request hsome).mp hnone
      rw [hcalls] at hcalling
      contradiction
    obtain ⟨timerId, hid⟩ := Option.ne_none_iff_exists'.mp htimer
    refine ⟨⟨timerId, request.promise⟩, ?_, rfl⟩
    rw [h.timers, List.mem_flatMap]
    refine ⟨request, hrequest, ?_⟩
    simp [armedTimers, hid]

end Results

/-- In every run: the adapter is entering exactly if it has a request, calls share its promise
meanwhile, no promise is settled twice, no timer of a settled promise is armed, and a timeout
settles nothing but the request that its timer was armed for. Where no call is under way, what is
not settled has its timer. -/
theorem vr_requests_settle {secure : Option Bool} {actions : List VrAction}
    (hr : Run Step { isSecureContext := secure } actions a) :
    (a.vrState = .entering ↔ a.vrEnterRequest.isSome = true) ∧
    (a.vrState = .entering →
      ∃ request, a.vrEnterRequest = some request ∧ a.enterVr = (.promise request.promise, a)) ∧
    (a.settled.map Prod.fst).Nodup ∧
    (∀ timer ∈ a.timers, timer.promise ∉ a.settled.map Prod.fst) ∧
    (∀ timer ∈ a.timers, a.vrEnterRequest = some ⟨timer.promise, some timer.timerId⟩ ∧
      ∀ a', Step a (.timeout timer.timerId) a' →
        a'.vrState = .available ∧ a'.vrEnterRequest = none ∧
          a'.settled = a.settled++[(timer.promise, .rejected "进入 VR 超时，请重试")]) ∧
    (a.calls = [] → ∀ promise < a.promises,
      promise ∈ a.settled.map Prod.fst ∨ ∃ timer ∈ a.timers, timer.promise = promise) := by
  have h := Consistent.run hr
  refine ⟨h.entering, h.enterVr_shares, ?_, ?_, ?_, ?_⟩
  · exact (List.nodup_append.mp h.settled_nodup).1
  · intro timer hmem
    exact h.unsettled (h.request_of_timer hmem)
  · intro timer hmem
    exact ⟨h.request_of_timer hmem, fun _ hstep => h.timeout_settles hmem hstep⟩
  · intro hcalls promise hmade
    exact h.settles hcalls hmade

/-- The first request is cancelled inside of its own call, where a second one is made. -/
def entersAgain : List VrAction :=
  [.onready, .event .available, .enterVr, .event .exited, .enterVr, .callReturns 7, .callReturns 8]

theorem vr_requests_settle_again : ∃ a : VrAdapter,
    Run Step { isSecureContext := some true } entersAgain a ∧ a.timers = [⟨7, 1⟩] ∧
    (a.settled.map Prod.fst).Nodup ∧
    ∀ promise < a.promises,
      promise ∈ a.settled.map Prod.fst ∨ ∃ timer ∈ a.timers, timer.promise = promise := by
  have hrun : ∃ a : VrAdapter, Run Step { isSecureContext := some true } entersAgain a ∧
      a.timers = [⟨7, 1⟩] ∧ a.calls = [] :=
    ⟨_, .cons rfl (.cons rfl (.cons rfl (.cons rfl (.cons rfl (.cons rfl (.cons rfl
      (.nil _))))))), by decide, by decide⟩
  obtain ⟨a, hr, htimers, hcalls⟩ := hrun
  obtain ⟨-, -, honce, -, -, hall⟩ := vr_requests_settle hr
  exact ⟨a, hr, htimers, honce, hall hcalls⟩

end JingjieAR.VrAdapter
