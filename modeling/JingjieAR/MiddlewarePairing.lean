import JingjieAR.HttpDispatcherModel

/-! The two phases of the middleware. The second phase runs for exactly those whose first
phase has returned, in the opposite order, whatever throws; and nothing that is thrown
leaves the dispatcher. -/
namespace JingjieAR

open Throwing

/-- The middleware whose `before` was called. -/
def beforesOf (calls : List Call) : List ℕ :=
  calls.filterMap (fun
    | .before label _ => some label
    | _ => none)

/-- The middleware whose `before` has returned, with either answer. -/
def returnedBefores (calls : List Call) : List ℕ :=
  calls.filterMap (fun
    | .before label (.ok _) => some label
    | _ => none)

def aftersOf (calls : List Call) : List ℕ :=
  calls.filterMap (fun
    | .after label _ _ => some label
    | _ => none)

def BodyThrew (calls : List Call) : Prop :=
  (∃ label e, Call.before label (.error e) ∈ calls) ∨ ∃ e, Call.handler (.error e) ∈ calls

def AfterThrew (calls : List Call) : Prop :=
  ∃ label e changed, Call.after label (.error e) changed ∈ calls

def StatusChanged (calls : List Call) : Prop := ∃ label ended, Call.after label ended true ∈ calls

section Lists

variable (cs cs' : List Call)

@[simp] theorem beforesOf_append : beforesOf (cs++cs') = beforesOf cs++beforesOf cs' :=
  List.filterMap_append

@[simp] theorem returnedBefores_append :
    returnedBefores (cs++cs') = returnedBefores cs++returnedBefores cs' := List.filterMap_append

@[simp] theorem aftersOf_append : aftersOf (cs++cs') = aftersOf cs++aftersOf cs' :=
  List.filterMap_append

theorem bodyThrew_append : BodyThrew (cs++cs') ↔ BodyThrew cs ∨ BodyThrew cs' := by
  simp only [BodyThrew, List.mem_append]
  grind

theorem afterThrew_append : AfterThrew (cs++cs') ↔ AfterThrew cs ∨ AfterThrew cs' := by
  simp only [AfterThrew, List.mem_append]
  grind

theorem statusChanged_append : StatusChanged (cs++cs') ↔ StatusChanged cs ∨ StatusChanged cs' := by
  simp only [StatusChanged, List.mem_append]
  grind

theorem not_afterThrew {cs : List Call} (h : aftersOf cs = []) : ¬AfterThrew cs := by
  intro hthrew
  obtain ⟨label, e, changed, hmem⟩ := hthrew
  have hlabel : label ∈ aftersOf cs := List.mem_filterMap.mpr ⟨_, hmem, rfl⟩
  rw [h] at hlabel
  exact absurd hlabel List.not_mem_nil

end Lists

namespace DispatchM

theorem exec_ofExcept {α : Type} (r : Except CppException α) (s : DispatchState) :
    exec (ofExcept r : DispatchM α) s = (r, s) := by
  cases r with
  | ok a => rfl
  | error e => rfl

/-- The state after a call of `before`. -/
def noteBefore (m : Middleware) (s : DispatchState) : DispatchState :=
  { s with request := (m.before s.request s.response).1.1,
           response := (m.before s.request s.response).1.2,
           calls := s.calls++[.before m.label (m.before s.request s.response).2] }

/-- The call of `after` that is noted. -/
def afterCall (request : HttpRequest) (m : Middleware) (s : DispatchState) : Call :=
  .after m.label (m.after request s.response).2
    ((m.after request s.response).1.statusCode ≠ s.response.statusCode)

def noteAfter (request : HttpRequest) (m : Middleware) (s : DispatchState) : DispatchState :=
  { s with response := (m.after request s.response).1,
           calls := s.calls++[afterCall request m s] }

def thrown : Except CppException Unit → Option CppException
  | .ok _ => none
  | .error e => some e

theorem exec_callBefore (m : Middleware) (s : DispatchState) :
    exec (callBefore m) s = ((m.before s.request s.response).2, noteBefore m s) := by
  rw [callBefore, exec_bind_ok (exec_get s), exec_bind_ok (exec_set _ s), exec_ofExcept]
  rfl

theorem exec_callAfter (request : HttpRequest) (m : Middleware) (s : DispatchState) :
    exec (callAfter request m) s = ((m.after request s.response).2, noteAfter request m s) := by
  rw [callAfter, exec_bind_ok (exec_get s), exec_bind_ok (exec_set _ s), exec_ofExcept]
  rfl

theorem exec_callSync (handler : SyncHandler) (s : DispatchState) :
    exec (callSync handler) s =
      ((handler s.request s.response).2,
        { s with response := (handler s.request s.response).1,
                 calls := s.calls++[.handler (handler s.request s.response).2] }) := by
  rw [callSync, exec_bind_ok (exec_get s), exec_bind_ok (exec_set _ s), exec_ofExcept]

theorem exec_callAsync (handler : AsyncHandler) (s : DispatchState) :
    exec (callAsync handler) s =
      ((handler s.request).ended,
        { s with used := some (handler s.request),
                 calls := s.calls++[.handler (handler s.request).ended] }) := by
  rw [callAsync, exec_bind_ok (exec_get s), exec_bind_ok (exec_set _ s), exec_ofExcept]

/-- The calls `cs` lead from `s` to `s'`: first phases and handlers only, and `ran` are
the middleware that are new among the executed ones. -/
structure Entered (s s' : DispatchState) (cs : List Call) (ran : List Middleware) : Prop where
  calls : s'.calls = s.calls++cs
  executed : s'.executed = s.executed++ran
  returned : returnedBefores cs = ran.map Middleware.label
  noAfter : aftersOf cs = []

theorem Entered.trans {s s₁ s₂ : DispatchState} {cs cs' : List Call} {ran ran' : List Middleware}
    (h : Entered s s₁ cs ran) (h' : Entered s₁ s₂ cs' ran') :
    Entered s s₂ (cs++cs') (ran++ran') := by
  refine ⟨?_, ?_, ?_, ?_⟩
  · rw [h'.calls, h.calls, List.append_assoc]
  · rw [h'.executed, h.executed, List.append_assoc]
  · rw [returnedBefores_append, h.returned, h'.returned, List.map_append]
  · rw [aftersOf_append, h.noAfter, h'.noAfter, List.append_nil]

theorem Entered.setResponse {s s' : DispatchState} {cs : List Call} {ran : List Middleware}
    (h : Entered s s' cs ran) (response : HttpResponse) :
    Entered s { s' with response := response } cs ran :=
  ⟨h.calls, h.executed, h.returned, h.noAfter⟩

/-- A phase ends with an exception exactly when one of its calls has thrown. -/
def EndsAsThrown {α : Type} (ended : Except CppException α) (cs : List Call) : Prop :=
  BodyThrew cs ↔ ∃ e, ended = .error e

theorem not_bodyThrew_nil : ¬BodyThrew [] := by
  simp [BodyThrew]

theorem processBefore_spec (ms : List Middleware) (s : DispatchState) :
    ∃ ended s' cs ran, exec (processBefore ms) s = (ended, s') ∧ Entered s s' cs ran ∧
      EndsAsThrown ended cs ∧ beforesOf cs <+: ms.map Middleware.label ∧ s'.used = s.used := by
  induction ms generalizing s with
  | nil =>
    refine ⟨.ok true, s, [], [], rfl, ⟨by simp, by simp, rfl, rfl⟩, ?_, List.nil_prefix, rfl⟩
    exact iff_of_false not_bodyThrew_nil (by simp)
  | cons m ms ih =>
    have hcall := exec_callBefore m s
    cases hb : (m.before s.request s.response).2 with
    | error e =>
      -- The middleware that throws is not among the executed ones.
      rw [hb] at hcall
      have hentered : Entered s (noteBefore m s) [.before m.label (.error e)] [] :=
        ⟨by rw [noteBefore, hb], (List.append_nil _).symm, rfl, rfl⟩
      refine ⟨.error e, noteBefore m s, _, _, ?_, hentered, ?_, ?_⟩
      · rw [processBefore, exec_bind_error hcall]
      · exact iff_of_true (.inl ⟨m.label, e, List.mem_singleton_self _⟩) ⟨e, rfl⟩
      · exact ⟨⟨ms.map Middleware.label, rfl⟩, rfl⟩
    | ok continueRequest =>
      rw [hb] at hcall
      have hnone : ¬BodyThrew [.before m.label (.ok continueRequest)] := by simp [BodyThrew]
      let s₁ : DispatchState := { noteBefore m s with executed := s.executed++[m] }
      have hentered : Entered s s₁ [.before m.label (.ok continueRequest)] [m] :=
        ⟨by simp only [s₁, noteBefore, hb], rfl, rfl, rfl⟩
      have hstep : exec (processBefore (m :: ms)) s =
          exec (if !continueRequest then pure false else processBefore ms) s₁ := by
        rw [processBefore, exec_bind_ok hcall, exec_bind_ok (exec_modify _ _)]
        rfl
      cases continueRequest with
      | false =>
        -- A short circuit: this middleware has been entered all the same.
        refine ⟨.ok false, s₁, _, _, hstep, hentered, ?_, ⟨ms.map Middleware.label, rfl⟩, rfl⟩
        exact iff_of_false hnone (by simp)
      | true =>
        obtain ⟨ended, s', cs, ran, hexec, hrest, hthrown, hprefix, hused⟩ := ih s₁
        refine ⟨ended, s', _, _, hstep.trans hexec, hentered.trans hrest, ?_, ?_, hused⟩
        · rw [EndsAsThrown, bodyThrew_append, or_iff_right hnone]
          exact hthrown
        · rw [beforesOf_append]
          exact (List.prefix_append_right_inj [m.label]).mpr hprefix

/-- A round of the second phase never stops it: the exception is noted. -/
theorem exec_afterLoop_cons (request : HttpRequest) (m : Middleware) (ms : List Middleware)
    (failure : Option CppException) (s : DispatchState) :
    exec (afterLoop request (m :: ms) failure) s =
      exec (afterLoop request ms (failure.or (thrown (m.after request s.response).2)))
        (noteAfter request m s) := by
  have hcall := exec_callAfter request m s
  cases ha : (m.after request s.response).2 with
  | ok u =>
    rw [ha] at hcall
    have htry : exec (callAfter request m >>= fun _ => pure failure) s =
        (.ok failure, noteAfter request m s) := (exec_bind_ok hcall _).trans (exec_pure _ _)
    rw [afterLoop, exec_bind_ok (exec_tryCatch_ok htry _), thrown, Option.or_none]
  | error e =>
    rw [ha] at hcall
    have htry : exec (callAfter request m >>= fun _ => pure failure) s =
        (.error e, noteAfter request m s) := exec_bind_error hcall _
    rw [afterLoop, exec_bind_ok ((exec_tryCatch_error htry _).trans (exec_pure _ _))]
    rfl

/-- The second phases `cs` of `ms` lead from `s` to `s'`. -/
structure Left (s s' : DispatchState) (cs : List Call) (ms : List Middleware) : Prop where
  calls : s'.calls = s.calls++cs
  executed : s'.executed = s.executed
  used : s'.used = s.used
  afters : aftersOf cs = ms.map Middleware.label
  noBefore : beforesOf cs = []
  noReturned : returnedBefores cs = []
  bodyOk : ¬BodyThrew cs

theorem afterLoop_spec (request : HttpRequest) (ms : List Middleware)
    (failure : Option CppException) (s : DispatchState) :
    ∃ s' cs failure', exec (afterLoop request ms failure) s = (.ok failure', s') ∧
      Left s s' cs ms ∧ (failure'.isSome ↔ failure.isSome ∨ AfterThrew cs) ∧
      (¬StatusChanged cs → s'.response.statusCode = s.response.statusCode) := by
  induction ms generalizing failure s with
  | nil =>
    exact ⟨s, [], failure, rfl,
      ⟨(List.append_nil _).symm, rfl, rfl, rfl, rfl, rfl, not_bodyThrew_nil⟩,
      by simp [AfterThrew], fun _ => rfl⟩
  | cons m ms ih =>
    obtain ⟨s', cs, failure', hexec, hleft, hfail, hstatus⟩ :=
      ih (failure.or (thrown (m.after request s.response).2)) (noteAfter request m s)
    refine ⟨s', [afterCall request m s]++cs, failure',
      (exec_afterLoop_cons request m ms failure s).trans hexec, ?_, ?_, ?_⟩
    · refine ⟨?_, hleft.executed, hleft.used, ?_, hleft.noBefore, hleft.noReturned, ?_⟩
      · rw [hleft.calls, noteAfter, List.append_assoc]
      · exact congrArg (m.label :: ·) hleft.afters
      · rw [bodyThrew_append]
        exact not_or.mpr ⟨by simp [BodyThrew, afterCall], hleft.bodyOk⟩
    · have hone : (failure.or (thrown (m.after request s.response).2)).isSome ↔
          failure.isSome ∨ AfterThrew [afterCall request m s] := by
        cases ha : (m.after request s.response).2 with
        | ok u => simp [thrown, AfterThrew, afterCall, ha]
        | error e =>
          have hmem : Call.after m.label (.error e) ((m.after request s.response).1.statusCode ≠
              s.response.statusCode) ∈ [afterCall request m s] := by
            rw [afterCall, ha]
            exact List.mem_singleton_self _
          exact iff_of_true (by simp [thrown]) (.inr ⟨_, _, _, hmem⟩)
      rw [hfail, hone, afterThrew_append, or_assoc]
    · -- A call that changed the status would have been noted as such.
      intro hsame
      rw [statusChanged_append, not_or] at hsame
      rw [hstatus hsame.2]
      by_contra hne
      have hne : (m.after request s.response).1.statusCode ≠ s.response.statusCode := hne
      refine hsame.1 ⟨m.label, (m.after request s.response).2, List.mem_singleton.mpr ?_⟩
      rw [afterCall, decide_eq_true hne]

/-- The loop keeps the first failure, and it is thrown at the end. -/
theorem exec_processAfter {request : HttpRequest} {executed : List Middleware}
    {failure : Option CppException} {s s' : DispatchState}
    (h : exec (afterLoop request executed.reverse none) s = (.ok failure, s')) :
    exec (processAfter request executed) s =
      (match failure with
      | none => .ok ()
      | some e => .error e, s') := by
  rw [processAfter, exec_bind_ok h]
  cases failure with
  | none => rfl
  | some e => rfl

/-- The second phase as a whole: all of it runs, nothing escapes, and a failure anywhere
makes the response an internal error. -/
theorem completeAsync_spec (request : HttpRequest) (executed : List Middleware)
    (s : DispatchState) :
    ∃ s' cs, exec (completeAsync request executed) s = (.ok (), s') ∧
      Left s s' cs executed.reverse ∧
      (AfterThrew cs → s'.response.statusCode = .k500InternalServerError) ∧
      (¬AfterThrew cs → ¬StatusChanged cs →
        s'.response.statusCode = s.response.statusCode) := by
  obtain ⟨s', cs, failure, hexec, hleft, hfail, hstatus⟩ :=
    afterLoop_spec request executed.reverse none s
  simp only [Option.isSome_none, Bool.false_eq_true, false_or] at hfail
  have hafter := exec_processAfter hexec
  cases failure with
  | none =>
    have hok : ¬AfterThrew cs := by
      rw [← hfail]
      simp
    exact ⟨s', cs, exec_tryCatch_ok hafter _, hleft, fun h => absurd h hok, fun _ => hstatus⟩
  | some e =>
    refine ⟨{ s' with response := s'.response.setInternalError }, cs, ?_, ?_, fun _ => rfl, ?_⟩
    · rw [completeAsync, exec_tryCatch_error hafter]
      rfl
    · exact ⟨hleft.calls, hleft.executed, hleft.used, hleft.afters, hleft.noBefore,
        hleft.noReturned, hleft.bodyOk⟩
    · intro hnot
      exact absurd (hfail.mp rfl) hnot

end DispatchM

namespace HttpDispatcher

open DispatchM

/-- The asynchronous handler that a request gets, and what it does. -/
def asyncUse (d : HttpDispatcher) (request : HttpRequest) : Option AsyncUse :=
  match d.router.route request with
  | .found route request' =>
    match route.handler with
    | .sync _ => none
    | .async handler => some (handler request')
  | .kNotFound => d.asyncFallback.map (fun handler => handler request)
  | .kMethodNotAllowed _ => none

theorem exec_invoke_sync (handler : SyncHandler) (s : DispatchState) :
    exec (invoke (.sync handler)) s =
      ((handler s.request s.response).2.map (fun _ => .kComplete),
        { s with response := (handler s.request s.response).1,
                 calls := s.calls++[.handler (handler s.request s.response).2] }) := by
  have hcall := exec_callSync handler s
  cases hr : (handler s.request s.response).2 with
  | ok u =>
    rw [hr] at hcall
    rw [invoke, exec_bind_ok hcall]
    rfl
  | error e =>
    rw [hr] at hcall
    rw [invoke, exec_bind_error hcall]
    rfl

theorem exec_invoke_async (handler : AsyncHandler) (s : DispatchState) :
    exec (invoke (.async handler)) s =
      ((handler s.request).ended.map (fun _ => .kAsyncPending),
        { s with used := some (handler s.request),
                 calls := s.calls++[.handler (handler s.request).ended] }) := by
  have hcall := exec_callAsync handler s
  cases hr : (handler s.request).ended with
  | ok u =>
    rw [hr] at hcall
    rw [invoke, exec_bind_ok hcall]
    rfl
  | error e =>
    rw [hr] at hcall
    rw [invoke, exec_bind_error hcall]
    rfl

/-- The state in which a request is routed. -/
def capture (s : DispatchState) : DispatchState :=
  { s with captured := some (s.request, s.executed) }

theorem exec_routeRequest (d : HttpDispatcher) (s : DispatchState) :
    exec d.routeRequest s =
      match d.router.route s.request with
      | .found route request => exec (invoke route.handler) { capture s with request := request }
      | .kNotFound =>
        match d.asyncFallback, d.fallback with
        | some handler, _ => exec (invoke (.async handler)) (capture s)
        | none, some handler => exec (invoke (.sync handler)) (capture s)
        | none, none => (.ok .kComplete,
            { capture s with response := { s.response with statusCode := .k404NotFound } })
      | .kMethodNotAllowed allowed => (.ok .kComplete,
          { capture s with
            response := ({ s.response with statusCode := .k405MethodNotAllowed } :
              HttpResponse).addHeader (ascii "Allow") (allowedMethods allowed) }) := by
  rw [routeRequest, exec_bind_ok (exec_modify _ s), exec_bind_ok (exec_get _)]
  change exec (match d.router.route s.request with
    | .found route request => _
    | .kNotFound => _
    | .kMethodNotAllowed allowed => _) (capture s) = _
  cases d.router.route s.request with
  | found route request => exact exec_bind_ok (exec_set _ _) _
  | kNotFound =>
    dsimp only
    cases d.asyncFallback with
    | some handler => rfl
    | none =>
      cases d.fallback with
      | some handler => rfl
      | none => exact exec_bind_ok (exec_set _ _) _
  | kMethodNotAllowed allowed => exact exec_bind_ok (exec_set _ _) _

/-- A handler call on its own: it is the one call, and the phase ends as it ends. -/
theorem entered_handler {α : Type} {s t : DispatchState} {ended : Except CppException Unit}
    (result : α) (hcalls : t.calls = s.calls++[.handler ended])
    (hexecuted : t.executed = s.executed) :
    Entered s t [.handler ended] [] ∧
      EndsAsThrown (ended.map (fun _ => result)) [.handler ended] := by
  refine ⟨⟨hcalls, by rw [hexecuted, List.append_nil], rfl, rfl⟩, ?_⟩
  cases ended with
  | ok u => exact iff_of_false (by simp [BodyThrew]) (by simp [Except.map])
  | error e => exact iff_of_true (.inr ⟨e, List.mem_singleton_self _⟩) ⟨e, rfl⟩

section Invoke

variable (s s₀ : DispatchState) (hcalls : s₀.calls = s.calls) (hexecuted : s₀.executed = s.executed)
include hcalls hexecuted

theorem invoke_sync_spec (handler : SyncHandler) :
    ∃ ended s' cs, exec (invoke (.sync handler)) s₀ = (ended, s') ∧ Entered s s' cs [] ∧
      EndsAsThrown ended cs ∧ beforesOf cs = [] ∧ s'.captured = s₀.captured ∧
      s'.used = s₀.used ∧ ended ≠ .ok .kAsyncPending := by
  rw [exec_invoke_sync]
  generalize handler s₀.request s₀.response = r
  obtain ⟨hentered, hthrown⟩ := entered_handler (s := s)
    (t := { s₀ with response := r.1, calls := s₀.calls++[.handler r.2] })
    DispatchResult.kComplete (congrArg (·++[.handler r.2]) hcalls) hexecuted
  refine ⟨_, _, _, rfl, hentered, hthrown, rfl, rfl, rfl, ?_⟩
  cases r.2 <;> simp [Except.map]

theorem invoke_async_spec (handler : AsyncHandler) :
    ∃ ended s' cs, exec (invoke (.async handler)) s₀ = (ended, s') ∧ Entered s s' cs [] ∧
      EndsAsThrown ended cs ∧ beforesOf cs = [] ∧ s'.captured = s₀.captured ∧
      s'.used = some (handler s₀.request) ∧ s'.response = s₀.response ∧
      ended = (handler s₀.request).ended.map (fun _ => .kAsyncPending) := by
  rw [exec_invoke_async]
  generalize handler s₀.request = use
  obtain ⟨hentered, hthrown⟩ := entered_handler (s := s)
    (t := { s₀ with used := some use, calls := s₀.calls++[.handler use.ended] })
    DispatchResult.kAsyncPending (congrArg (·++[.handler use.ended]) hcalls) hexecuted
  exact ⟨_, _, _, rfl, hentered, hthrown, rfl, rfl, rfl, rfl, rfl⟩

end Invoke

/-- Routing: at most one handler is called, and an asynchronous one decides the result. -/
theorem routeRequest_spec (d : HttpDispatcher) (s : DispatchState) :
    ∃ ended s' cs, exec d.routeRequest s = (ended, s') ∧ Entered s s' cs [] ∧
      EndsAsThrown ended cs ∧ beforesOf cs = [] ∧
      s'.captured = some (s.request, s.executed) ∧
      match d.asyncUse s.request with
      | some use => s'.used = some use ∧ s'.response = s.response ∧
          ended = use.ended.map (fun _ => .kAsyncPending)
      | none => s'.used = s.used ∧ ended ≠ .ok .kAsyncPending := by
  rw [exec_routeRequest, asyncUse]
  cases d.router.route s.request with
  | found route request =>
    dsimp only
    cases route.handler with
    | sync handler => exact invoke_sync_spec s { capture s with request := request } rfl rfl handler
    | async handler =>
      exact invoke_async_spec s { capture s with request := request } rfl rfl handler
  | kNotFound =>
    dsimp only
    cases d.asyncFallback with
    | some handler => exact invoke_async_spec s (capture s) rfl rfl handler
    | none =>
      cases d.fallback with
      | some handler => exact invoke_sync_spec s (capture s) rfl rfl handler
      -- The two refusals call nobody.
      | none =>
        exact ⟨_, _, [], rfl, ⟨(List.append_nil _).symm, (List.append_nil _).symm, rfl, rfl⟩,
          iff_of_false not_bodyThrew_nil (by simp), rfl, rfl, rfl, by simp⟩
  | kMethodNotAllowed allowed =>
    exact ⟨_, _, [], rfl, ⟨(List.append_nil _).symm, (List.append_nil _).symm, rfl, rfl⟩,
      iff_of_false not_bodyThrew_nil (by simp), rfl, rfl, rfl, by simp⟩

theorem tryBlock_spec (d : HttpDispatcher) (s : DispatchState) :
    ∃ ended s' cs ran, exec d.tryBlock s = (ended, s') ∧ Entered s s' cs ran ∧
      EndsAsThrown ended cs ∧ beforesOf cs <+: d.middleware.map Middleware.label ∧
      ((s'.used = s.used ∧ ended ≠ .ok .kAsyncPending) ∨
        ∃ request use, d.asyncUse request = some use ∧ s'.used = some use ∧
          s'.captured = some (request, s'.executed) ∧
          ended = use.ended.map (fun _ => .kAsyncPending)) := by
  obtain ⟨before, s₁, cs, ran, hexec, hentered, hthrown, hprefix, hused⟩ :=
    processBefore_spec d.middleware s
  cases before with
  | error e =>
    exact ⟨.error e, s₁, cs, ran, exec_bind_error hexec _, hentered,
      hthrown.trans (by simp), hprefix, .inl ⟨hused, by simp⟩⟩
  | ok continueRequest =>
    have hbody : ¬BodyThrew cs := fun h => by simpa using hthrown.mp h
    have htry := exec_bind_ok hexec
      (fun continueRequest => if continueRequest then d.routeRequest else pure .kComplete)
    cases continueRequest with
    | false =>
      exact ⟨.ok .kComplete, s₁, cs, ran, htry, hentered, iff_of_false hbody (by simp), hprefix,
        .inl ⟨hused, by simp⟩⟩
    | true =>
      obtain ⟨ended, s', cs', hroute, hentered', hthrown', hbefores, hcaptured, huse⟩ :=
        d.routeRequest_spec s₁
      refine ⟨ended, s', cs++cs', ran++[], htry.trans hroute, hentered.trans hentered', ?_, ?_, ?_⟩
      · rw [EndsAsThrown, bodyThrew_append, or_iff_right hbody]
        exact hthrown'
      · rw [beforesOf_append, hbefores, List.append_nil]
        exact hprefix
      · cases hu : d.asyncUse s₁.request with
        | none =>
          rw [hu] at huse
          exact .inl ⟨huse.1.trans hused, huse.2⟩
        | some use =>
          rw [hu] at huse
          have hsame : s'.executed = s₁.executed := by rw [hentered'.executed, List.append_nil]
          exact .inr ⟨s₁.request, use, hu, huse.1, hsame ▸ hcaptured, huse.2.2⟩

theorem exec_caught {s s' : DispatchState} {d : HttpDispatcher}
    {ended : Except CppException DispatchResult} (h : exec d.tryBlock s = (ended, s')) :
    exec (tryCatch d.tryBlock (fun _ => do internalError; pure .kComplete)) s =
      match ended with
      | .ok result => (.ok result, s')
      | .error _ => (.ok .kComplete, { s' with response := s'.response.setInternalError }) := by
  cases ended with
  | ok result => exact exec_tryCatch_ok h _
  | error e => exact exec_tryCatch_error h _

theorem exec_dispatch_complete {s s₁ : DispatchState} {d : HttpDispatcher}
    (h : exec (tryCatch d.tryBlock (fun _ => do internalError; pure .kComplete)) s =
      (.ok .kComplete, s₁)) :
    ∃ s₂ cs, exec d.dispatch s = (.ok .kComplete, s₂) ∧ Left s₁ s₂ cs s₁.executed.reverse ∧
      (AfterThrew cs → s₂.response.statusCode = .k500InternalServerError) ∧
      (¬AfterThrew cs → ¬StatusChanged cs →
        s₂.response.statusCode = s₁.response.statusCode) := by
  obtain ⟨s₂, cs, hexec, hleft, hthrew, hkept⟩ := completeAsync_spec s₁.request s₁.executed s₁
  refine ⟨s₂, cs, ?_, hleft, hthrew, hkept⟩
  rw [dispatch, exec_bind_ok h, exec_bind_ok (exec_get s₁)]
  exact exec_bind_ok hexec _

theorem exec_dispatch_pending {s s₁ : DispatchState} {d : HttpDispatcher}
    (h : exec (tryCatch d.tryBlock (fun _ => do internalError; pure .kComplete)) s =
      (.ok .kAsyncPending, s₁)) : exec d.dispatch s = (.ok .kAsyncPending, s₁) := by
  rw [dispatch, exec_bind_ok h, exec_bind_ok (exec_get s₁)]
  rfl

theorem calls_paired {s s₁ s₂ : DispatchState} {cs cs' : List Call} {ran : List Middleware}
    (hstart : s.calls = [] ∧ s.executed = []) (hentered : Entered s s₁ cs ran)
    (hleft : Left s₁ s₂ cs' s₁.executed.reverse) :
    s₂.calls = cs++cs' ∧ aftersOf s₂.calls = (returnedBefores s₂.calls).reverse := by
  have hexecuted : s₁.executed = ran := by rw [hentered.executed, hstart.2, List.nil_append]
  have hcalls : s₂.calls = cs++cs' := by
    rw [hleft.calls, hentered.calls, hstart.1, List.nil_append]
  refine ⟨hcalls, ?_⟩
  rw [hcalls, aftersOf_append, returnedBefores_append, hentered.noAfter, hleft.noReturned,
    List.append_nil, List.nil_append, hleft.afters, hentered.returned, hexecuted, List.map_reverse]

/-- The two phases are paired. Nothing that is thrown leaves the dispatcher. The middleware
are entered from the front of the chain; unless the answer is left to an asynchronous
handler, exactly those whose first phase has returned are left again, in the opposite
order, after all other calls. A failing second phase makes the status 500; so does a
failing first phase or handler, unless a second phase changes the status. -/
theorem run_paired (d : HttpDispatcher) (request : HttpRequest) (response : HttpResponse) :
    ∃ result s, d.run request response = (.ok result, s) ∧
      beforesOf s.calls <+: d.middleware.map Middleware.label ∧
      (result ≠ .kAsyncPending →
        aftersOf s.calls = (returnedBefores s.calls).reverse ∧
        (∃ body ends, s.calls = body++ends ∧ aftersOf body = [] ∧ beforesOf ends = []) ∧
        (AfterThrew s.calls → s.response.statusCode = .k500InternalServerError) ∧
        (BodyThrew s.calls → ¬StatusChanged s.calls →
          s.response.statusCode = .k500InternalServerError)) := by
  obtain ⟨ended, s₁, cs, ran, htry, hentered, hthrown, hprefix, -⟩ :=
    d.tryBlock_spec { request := request, response := response }
  have hcaught := exec_caught htry
  cases ended with
  | ok result =>
    cases result with
    | kAsyncPending =>
      refine ⟨.kAsyncPending, s₁, exec_dispatch_pending hcaught, ?_, by simp⟩
      rw [hentered.calls]
      exact hprefix
    | kComplete =>
      obtain ⟨s₂, cs', hexec, hleft, hthrew, -⟩ := exec_dispatch_complete hcaught
      obtain ⟨hcalls, hpaired⟩ := calls_paired ⟨rfl, rfl⟩ hentered hleft
      refine ⟨.kComplete, s₂, hexec, ?_, fun _ => ⟨hpaired, ⟨cs, cs', hcalls, hentered.noAfter,
        hleft.noBefore⟩, ?_, ?_⟩⟩
      · rw [hcalls, beforesOf_append, hleft.noBefore, List.append_nil]
        exact hprefix
      · rw [hcalls, afterThrew_append, or_iff_right (not_afterThrew hentered.noAfter)]
        exact hthrew
      · -- No call of the body has thrown.
        rw [hcalls, bodyThrew_append, or_iff_left hleft.bodyOk]
        intro hbody
        obtain ⟨e, he⟩ := hthrown.mp hbody
        contradiction
  | error e =>
    obtain ⟨s₂, cs', hexec, hleft, hthrew, hkept⟩ := exec_dispatch_complete hcaught
    -- The catch block changes the response only.
    obtain ⟨hcalls, hpaired⟩ := calls_paired ⟨rfl, rfl⟩ (hentered.setResponse _) hleft
    have hafter : AfterThrew s₂.calls → s₂.response.statusCode = .k500InternalServerError := by
      rw [hcalls, afterThrew_append, or_iff_right (not_afterThrew hentered.noAfter)]
      exact hthrew
    refine ⟨.kComplete, s₂, hexec, ?_, fun _ => ⟨hpaired, ⟨cs, cs', hcalls, hentered.noAfter,
      hleft.noBefore⟩, hafter, ?_⟩⟩
    · rw [hcalls, beforesOf_append, hleft.noBefore, List.append_nil]
      exact hprefix
    · intro _ hsame
      by_cases hthrew' : AfterThrew s₂.calls
      · exact hafter hthrew'
      · rw [hcalls, statusChanged_append, not_or] at hsame
        rw [hcalls, afterThrew_append, not_or] at hthrew'
        exact hkept hthrew'.2 hsame.2

end HttpDispatcher

end JingjieAR
