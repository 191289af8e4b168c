import JingjieAR.ResponseFraming
import JingjieAR.StaticFileModel

/-! Where the responses come from, and which of them are framed: those that a dispatch
leaves, with handlers and middleware that may throw or answer early, those that a responder
is given later, and those of the static file handler. Before a response is sent, the second
phases of the middleware run on it, and they may throw too. -/
namespace JingjieAR

open Throwing

/-- The second phase may add headers, but leaves length, body and file alone. -/
def Middleware.KeepsFraming (m : Middleware) : Prop :=
  ∀ request response, (m.after request response).1.framing = response.framing

namespace DispatchM

theorem afterLoop_framing (request : HttpRequest) {ms : List Middleware}
    (h : ∀ m ∈ ms, m.KeepsFraming) (failure : Option CppException) (s : DispatchState) :
    (exec (afterLoop request ms failure) s).2.response.framing = s.response.framing := by
  induction ms generalizing failure s with
  | nil => rfl
  | cons m ms ih =>
    rw [exec_afterLoop_cons, ih (fun m' hm => h m' (List.mem_cons_of_mem _ hm))]
    exact h m List.mem_cons_self request s.response

/-- The second phase changes no framing, unless it throws. -/
theorem completeAsync_framing (request : HttpRequest) {executed : List Middleware}
    (h : ∀ m ∈ executed, m.KeepsFraming) (s : DispatchState) :
    (exec (completeAsync request executed) s).2.response.framing =
      match (exec (processAfter request executed) s).1 with
      | .ok _ => s.response.framing
      | .error _ => { s.response.framing with body := 33 } := by
  have hkeeps : ∀ m ∈ executed.reverse, m.KeepsFraming := fun m hm => h m (List.mem_reverse.mp hm)
  have hloop := afterLoop_framing request hkeeps none s
  obtain ⟨s', cs, failure, hexec, -⟩ := afterLoop_spec request executed.reverse none s
  rw [hexec] at hloop
  have hafter := exec_processAfter hexec
  cases failure with
  | none =>
    rw [completeAsync, exec_tryCatch_ok hafter, hafter]
    exact hloop
  | some e =>
    rw [completeAsync, exec_tryCatch_error hafter, hafter]
    show s'.response.setInternalError.framing = _
    rw [HttpResponse.framing_setInternalError, hloop]

theorem processBefore_executed {ms : List Middleware} {s : DispatchState} :
    ∀ m ∈ (exec (processBefore ms) s).2.executed, m ∈ s.executed ∨ m ∈ ms := by
  induction ms generalizing s with
  | nil => exact fun m hm => .inl hm
  | cons m ms ih =>
    intro m' hm
    have hcall := exec_callBefore m s
    cases hb : (m.before s.request s.response).2 with
    | error e =>
      rw [hb] at hcall
      rw [processBefore, exec_bind_error hcall] at hm
      exact .inl hm
    | ok continueRequest =>
      rw [hb] at hcall
      rw [processBefore, exec_bind_ok hcall, exec_bind_ok (exec_modify _ _)] at hm
      have hpushed : ∀ x ∈ s.executed++[m], x ∈ s.executed ∨ x ∈ m :: ms := by
        intro x hx
        rcases List.mem_append.mp hx with hx | hx
        · exact .inl hx
        · exact .inr (List.mem_singleton.mp hx ▸ List.mem_cons_self)
      cases continueRequest with
      | false => exact hpushed m' hm
      | true =>
        rcases ih m' hm with hm | hm
        · exact hpushed m' hm
        · exact .inr (List.mem_cons_of_mem _ hm)

end DispatchM

namespace HttpDispatcher

open DispatchM

def KeepsFraming (d : HttpDispatcher) : Prop := ∀ m ∈ d.middleware, m.KeepsFraming

theorem tryBlock_executed (d : HttpDispatcher) {s : DispatchState} (hs : s.executed = []) :
    ∀ m ∈ (exec d.tryBlock s).2.executed, m ∈ d.middleware := by
  have hbefore : ∀ m ∈ (exec (processBefore d.middleware) s).2.executed, m ∈ d.middleware := by
    intro m hm
    rcases processBefore_executed m hm with hm | hm
    · simp [hs] at hm
    · exact hm
  cases hexec : exec (processBefore d.middleware) s with
  | mk ended s₁ =>
    rw [hexec] at hbefore
    cases ended with
    | error e =>
      rw [tryBlock, exec_bind_error hexec]
      exact hbefore
    | ok continueRequest =>
      rw [tryBlock, exec_bind_ok hexec]
      cases continueRequest with
      | false => exact hbefore
      | true =>
        -- Routing enters no further middleware.
        obtain ⟨ended, s', cs, hroute, hentered, -⟩ := d.routeRequest_spec s₁
        have hsame : s'.executed = s₁.executed := by rw [hentered.executed, List.append_nil]
        rw [if_pos rfl, hroute, hsame]
        exact hbefore

/-- What the middleware and the handler of a request leave when control comes back to the
dispatcher, and whether one of them has thrown. -/
def left (d : HttpDispatcher) (request : HttpRequest) :
    Except CppException DispatchResult × DispatchState :=
  exec d.tryBlock { request := request, response := initialResponse request }

/-- A second phase throws. -/
def afterThrows (d : HttpDispatcher) (request : HttpRequest) : Bool :=
  match (exec (processAfter (d.left request).2.request (d.left request).2.executed)
    (d.left request).2).1 with
  | .ok _ => false
  | .error _ => true

/-- The response that `onRequest` sends, unless the answer is left to a responder. -/
def sent (d : HttpDispatcher) (request : HttpRequest) : Option HttpResponse :=
  match d.run request (initialResponse request) with
  | (.ok .kComplete, s) => some s.response
  | (.ok .kAsyncPending, _) => none
  | (.error _, _) => none

/-- The framing of what is sent, from what middleware and handlers have left. -/
def sentFraming (d : HttpDispatcher) (request : HttpRequest) : Option Framing :=
  let framing := (d.left request).2.response.framing
  match (d.left request).1 with
  | .ok .kAsyncPending => none
  | .ok .kComplete =>
    if d.afterThrows request then some { framing with body := 33 } else some framing
  | .error _ => some { framing with body := 33 }

theorem run_of_caught {d : HttpDispatcher} {request : HttpRequest} {response : HttpResponse}
    {s₁ : DispatchState}
    (h : exec (tryCatch d.tryBlock (fun _ => do internalError; pure .kComplete))
      { request := request, response := response } = (.ok .kComplete, s₁)) :
    d.run request response =
      (.ok .kComplete, (exec (completeAsync s₁.request s₁.executed) s₁).2) := by
  obtain ⟨s₂, cs, hexec, -⟩ := completeAsync_spec s₁.request s₁.executed s₁
  rw [run, dispatch, exec_bind_ok h, exec_bind_ok (exec_get s₁), hexec]
  exact exec_bind_ok hexec _

theorem sent_framing {d : HttpDispatcher} (hk : d.KeepsFraming) (request : HttpRequest) :
    (d.sent request).map HttpResponse.framing = d.sentFraming request := by
  have hexecuted := d.tryBlock_executed
    (s := { request := request, response := initialResponse request }) rfl
  cases hleft : d.left request with
  | mk ended s' =>
    have htry : exec d.tryBlock { request := request, response := initialResponse request } =
        (ended, s') := hleft
    have hcaught := exec_caught htry
    rw [htry] at hexecuted
    have hkeeps : ∀ m ∈ s'.executed, m.KeepsFraming := fun m hm => hk m (hexecuted m hm)
    rw [sentFraming, hleft]
    cases ended with
    | error e =>
      -- The body is replaced twice if a second phase throws as well.
      rw [sent, run_of_caught hcaught]
      show some _ = some _
      rw [completeAsync_framing _ hkeeps, HttpResponse.framing_setInternalError]
      cases (exec (processAfter _ _) _).1 with
      | ok u => rfl
      | error e' => rfl
    | ok result =>
      cases result with
      | kAsyncPending =>
        rw [sent, show d.run request _ = _ from exec_dispatch_pending hcaught]
        rfl
      | kComplete =>
        rw [sent, run_of_caught hcaught]
        show some _ = _
        rw [completeAsync_framing _ hkeeps, afterThrows, hleft]
        cases (exec (processAfter _ _) _).1 with
        | ok u => rfl
        | error e' => rfl

end HttpDispatcher

/-- What a dispatch has still to do when it has an answer: the second phases of the
middleware that it has entered. A responder keeps a copy of both until it is used. -/
structure AsyncCompletion where
  request : HttpRequest
  executed : List Middleware
  keeps : ∀ m ∈ executed, m.KeepsFraming

namespace AsyncCompletion

/-- No middleware has been entered. -/
def bare (request : HttpRequest) : AsyncCompletion where
  request := request
  executed := []
  keeps := fun _ hm => absurd hm List.not_mem_nil

def start (c : AsyncCompletion) (r : HttpResponse) : DispatchState where
  request := c.request
  response := r
  executed := c.executed

/-- `completeAsync`. -/
def complete (c : AsyncCompletion) (r : HttpResponse) : HttpResponse :=
  (exec (DispatchM.completeAsync c.request c.executed) (c.start r)).2.response

/-- The functor that a responder queues: a connection that is to be closed afterwards is
noted in the response. -/
def answer (c : AsyncCompletion) (close : Bool) (r : HttpResponse) : HttpResponse :=
  { c.complete r with closeConnection := close || (c.complete r).closeConnection }

/-- A second phase throws when it gets this response. -/
def throws (c : AsyncCompletion) (r : HttpResponse) : Bool :=
  match (exec (DispatchM.processAfter c.request c.executed) (c.start r)).1 with
  | .ok _ => false
  | .error _ => true

theorem framing_complete (c : AsyncCompletion) (r : HttpResponse) :
    (c.complete r).framing =
      if c.throws r then { r.framing with body := 33 } else r.framing := by
  have hcomplete := DispatchM.completeAsync_framing c.request c.keeps (c.start r)
  rw [complete, hcomplete, throws]
  cases (exec (DispatchM.processAfter c.request c.executed) (c.start r)).1 with
  | ok u => rfl
  | error e => rfl

theorem framing_answer (c : AsyncCompletion) (close : Bool) (r : HttpResponse) :
    (c.answer close r).framing = (c.complete r).framing := rfl

/-- The second phases leave a sound response, or they throw and the error page is sound. -/
theorem sound_complete_iff (c : AsyncCompletion) (r : HttpResponse) (method : Method)
    (opened : Option OpenFile) :
    (c.complete r).framing.Sound method opened ↔
      if c.throws r then r.framing.SoundThrown method opened
      else r.framing.Sound method opened := by
  rw [framing_complete]
  by_cases hthrows : c.throws r
  · rw [if_pos hthrows, if_pos hthrows, Framing.sound_thrown_iff]
  · rw [if_neg hthrows, if_neg hthrows]

end AsyncCompletion

/-- The content that a small file is answered from: the cache first, then the disk. -/
def fileContent (plan : FilePlan) (access : FileAccess) : Option Bytes :=
  match freshEntry plan access with
  | some entry => some entry.content
  | none => access.read

/-- Bytes of the file are wanted, so that their number is announced. -/
def FilePlan.sendsBytes (plan : FilePlan) : Bool :=
  plan.isFile && (plan.status = .k200Ok || plan.status = .k206PartialContent)

/-- The framing that `populateResponse` gives a new response, and whether it throws. -/
def populatedFraming (method : Method) (plan : FilePlan) (access : FileAccess) (threshold : ℕ) :
    Framing × Except CppException Unit :=
  let announced := some (HttpResponse.decimal plan.responseSize)
  if !plan.sendsBytes then (⟨none, none, 0⟩, .ok ())
  else if method = .kHead then (⟨announced, none, 0⟩, .ok ())
  else if plan.fileSize > threshold then (⟨announced, some plan.responseSize, 0⟩, .ok ())
  else
    match fileContent plan access with
    | none => (⟨announced, none, 0⟩, .ok ())
    | some content =>
      if content.length < plan.fileOffset then (⟨announced, none, 0⟩, .error {})
      else (⟨announced, none, min plan.responseSize (content.length-plan.fileOffset)⟩, .ok ())

theorem framing_addFileHeaders (dates : HttpDates) (plan : FilePlan) (r : HttpResponse) :
    (addFileHeaders dates plan r).framing = r.framing := by
  rw [addFileHeaders, HttpResponse.framing_setContentType,
    HttpResponse.framing_addHeader (by decide), HttpResponse.framing_addHeader (by decide),
    HttpResponse.framing_addHeader (by decide)]

theorem framing_addLengthHeaders (plan : FilePlan) (r : HttpResponse) :
    (addLengthHeaders plan r).framing =
      { r.framing with lengthHeader := some (HttpResponse.decimal plan.responseSize) } := by
  have hset : ∀ r : HttpResponse,
      (r.addHeader (ascii "Content-Length") (HttpResponse.decimal plan.responseSize)).framing =
        { r.framing with lengthHeader := some (HttpResponse.decimal plan.responseSize) } := by
    intro r
    have hfind := r.headers.find_insert_self (ascii "Content-Length")
      (HttpResponse.decimal plan.responseSize)
    exact congrArg (fun header => (⟨header, r.framing.file, r.framing.body⟩ : Framing)) hfind
  rw [addLengthHeaders, hset]
  by_cases hp : plan.isPartial
  · rw [if_pos hp, HttpResponse.framing_addHeader (by decide)]
  · rw [if_neg hp]

theorem setSlice_framing (plan : FilePlan) (content : Bytes) (r : HttpResponse)
    (hfile : r.hasFile = false) :
    ((setSlice plan content r).1.framing, (setSlice plan content r).2) =
      if content.length < plan.fileOffset then (r.framing, .error {})
      else (⟨r.framing.lengthHeader, none,
        min plan.responseSize (content.length-plan.fileOffset)⟩, .ok ()) := by
  rw [setSlice]
  split_ifs with hshort
  · rfl
  · have hlen : ((content.drop plan.fileOffset).take plan.responseSize).length =
        min plan.responseSize (content.length-plan.fileOffset) := by
      rw [List.length_take, List.length_drop]
    have hnone : r.framing.file = none := by simp [HttpResponse.framing, hfile]
    exact congrArg₂ (fun file n => ((⟨r.framing.lengthHeader, file, n⟩ : Framing), Except.ok ()))
      hnone hlen

theorem populateSmall_framing {plan : FilePlan} {access : FileAccess} {r : HttpResponse}
    {header : Option Bytes} (h : r.framing = ⟨header, none, 0⟩) :
    ((populateSmall plan access r).response.framing, (populateSmall plan access r).ended) =
      match fileContent plan access with
      | none => (⟨header, none, 0⟩, .ok ())
      | some content =>
        if content.length < plan.fileOffset then (⟨header, none, 0⟩, .error {})
        else (⟨header, none, min plan.responseSize (content.length-plan.fileOffset)⟩, .ok ()) := by
  have hfile : r.hasFile = false := by
    by_contra hf
    have hsome := congrArg Framing.file h
    simp [HttpResponse.framing, hf] at hsome
  have hslice : ∀ content, ((setSlice plan content r).1.framing, (setSlice plan content r).2) =
      if content.length < plan.fileOffset then (⟨header, none, 0⟩, .error {})
      else (⟨header, none, min plan.responseSize (content.length-plan.fileOffset)⟩, .ok ()) := by
    intro content
    rw [setSlice_framing plan content r hfile, h]
  rw [populateSmall, fileContent]
  cases freshEntry plan access with
  | some entry => exact hslice entry.content
  | none =>
    cases access.read with
    -- The file cannot be read: the status becomes 404 and the length stays.
    | none => exact congrArg (fun f => (f, Except.ok ())) h
    | some content => exact hslice content

theorem populateResponse_cases (dates : HttpDates) (request : HttpRequest) (plan : FilePlan)
    (access : FileAccess) (threshold : ℕ) (r : HttpResponse) :
    (plan.sendsBytes = false ∧ ∃ r', r'.framing = r.framing ∧
      populateResponse dates request plan access threshold r = { response := r' }) ∨
    (plan.sendsBytes = true ∧ ∃ r', r'.framing = r.framing ∧
      populateResponse dates request plan access threshold r =
        populateBytes request.method plan access threshold (addLengthHeaders plan r')) := by
  have hheaders := framing_addFileHeaders dates plan { r with statusCode := plan.status }
  simp only [populateResponse, FilePlan.sendsBytes]
  generalize addFileHeaders dates plan { r with statusCode := plan.status } = r₁ at hheaders ⊢
  by_cases hfile : plan.isFile = true
  · by_cases h416 : plan.status = .k416RangeNotSatisfiable
    · have hrange := HttpResponse.framing_addHeader
        (show ascii "Content-Range" ≠ ascii "Content-Length" by decide) r₁ (unsatisfiableRange plan)
      exact .inl ⟨by simp [h416], _, hrange.trans hheaders, by simp [hfile, h416]⟩
    · by_cases hbytes : plan.status ≠ .k200Ok ∧ plan.status ≠ .k206PartialContent
      · exact .inl ⟨by simp [hbytes], r₁, hheaders, by simp [hfile, h416, hbytes]⟩
      · refine .inr ⟨?_, r₁, hheaders, ?_⟩
        · rw [hfile, Bool.true_and, Bool.or_eq_true, decide_eq_true_eq, decide_eq_true_eq]
          rwa [not_and_or, not_not, not_not] at hbytes
        · rw [if_neg (by simp [hfile]), if_neg h416, if_neg hbytes]
  · exact .inl ⟨by simp [hfile], { r with statusCode := plan.status }, rfl, by simp [hfile]⟩

theorem populateBytes_framing {method : Method} {plan : FilePlan} {access : FileAccess}
    {threshold : ℕ} {r : HttpResponse} {header : Option Bytes}
    (h : r.framing = ⟨header, none, 0⟩) (hpath : plan.path ≠ []) :
    ((populateBytes method plan access threshold r).response.framing,
      (populateBytes method plan access threshold r).ended) =
      if method = .kHead then (⟨header, none, 0⟩, .ok ())
      else if plan.fileSize > threshold then (⟨header, some plan.responseSize, 0⟩, .ok ())
      else
        match fileContent plan access with
        | none => (⟨header, none, 0⟩, .ok ())
        | some content =>
          if content.length < plan.fileOffset then (⟨header, none, 0⟩, .error {})
          else
            (⟨header, none, min plan.responseSize (content.length-plan.fileOffset)⟩, .ok ()) := by
  rw [populateBytes]
  split_ifs
  · exact congrArg (fun f => (f, Except.ok ())) h
  · -- The file is opened when the response is sent.
    have hset : (r.setFile plan.path plan.fileOffset plan.responseSize).framing =
        ⟨r.framing.lengthHeader, some plan.responseSize, r.framing.body⟩ := by
      simp [HttpResponse.framing, HttpResponse.setFile, HttpResponse.hasFile, hpath]
    rw [h] at hset
    exact congrArg (fun f => (f, Except.ok ())) hset
  · exact populateSmall_framing h

theorem populateResponse_framing (dates : HttpDates) (request : HttpRequest) {plan : FilePlan}
    (access : FileAccess) (threshold : ℕ) {r : HttpResponse} (hnew : r.framing = ⟨none, none, 0⟩)
    (hpath : plan.isFile = true → plan.path ≠ []) :
    ((populateResponse dates request plan access threshold r).response.framing,
      (populateResponse dates request plan access threshold r).ended) =
      populatedFraming request.method plan access threshold := by
  rw [populatedFraming]
  rcases populateResponse_cases dates request plan access threshold r with
    ⟨hbytes, r', hframing, hpopulate⟩ | ⟨hbytes, r', hframing, hpopulate⟩
  · rw [hpopulate, hbytes]
    exact congrArg (fun f => (f, Except.ok ())) (hframing.trans hnew)
  · have hfile : plan.isFile = true := by
      rw [FilePlan.sendsBytes, Bool.and_eq_true] at hbytes
      exact hbytes.1
    have hlength := framing_addLengthHeaders plan r'
    rw [hframing, hnew] at hlength
    rw [hpopulate, hbytes]
    exact populateBytes_framing hlength (hpath hfile)

theorem prepareInRoot_path_ne_nil {fs : FileSystem} {dates : HttpDates} {root : Bytes}
    {request : HttpRequest} (h : (prepareInRoot fs dates root request).isFile = true) :
    (prepareInRoot fs dates root request).path ≠ [] := by
  rcases prepareInRoot_cases fs dates root request with hplan | hplan | ⟨resolved, st, hfound⟩
  · simp [hplan] at h
  · simp [hplan] at h
  · rw [prepareInRoot_of_found hfound, (conditionalPlan_file dates request _).2]
    intro hnil
    have hunder := hfound.under
    rw [show resolved = [] from hnil] at hunder
    simp [underRoot] at hunder

/-- The response that the synchronous handler leaves, also when it throws. -/
def StaticFileHandler.left (h : StaticFileHandler) (fs : FileSystem) (dates : HttpDates)
    (access : FileAccess) (request : HttpRequest) : HttpResponse :=
  let populated := h.handle fs dates access request (initialResponse request)
  match populated.ended with
  | .ok _ => populated.response
  | .error _ => populated.response.setInternalError

/-- The ways to come by a response that the server sends. -/
inductive Origin
  -- a dispatch, with any handlers and middleware, that any of them may end by throwing
  | dispatched (d : HttpDispatcher) (keeps : d.KeepsFraming)
  -- any response that a responder is given
  | responder (c : AsyncCompletion) (given : HttpResponse)
  -- `StaticFileHandler::handle` as a synchronous handler
  | staticFile (h : StaticFileHandler) (fs : FileSystem) (dates : HttpDates) (access : FileAccess)
      (c : AsyncCompletion)
  -- `StaticFileHandler::handleAsync`, which gives its response to a responder
  | staticFileAsync (h : StaticFileHandler) (fs : FileSystem) (dates : HttpDates)
      (access : FileAccess) (submitted : Bool) (c : AsyncCompletion)

namespace Origin

def sent (request : HttpRequest) : Origin → Option HttpResponse
  | .dispatched d _ => d.sent request
  | .responder c given => some (c.answer (closeRequested request) given)
  | .staticFile h fs dates access c => some (c.complete (h.left fs dates access request))
  | .staticFileAsync h fs dates access submitted c =>
    (h.handleAsync fs dates access submitted request).map (c.answer (closeRequested request))

/-- Every response that is sent is followed by what its header announces. -/
def Framed (origin : Origin) (request : HttpRequest) (opened : Option OpenFile) : Prop :=
  ∀ r ∈ origin.sent request, (finalResponse r opened).framing.Framed request.method

/-- The content of a small file is read for the answer. -/
def ReadsContent (plan : FilePlan) (method : Method) (threshold : ℕ) : Prop :=
  plan.sendsBytes = true ∧ method ≠ .kHead ∧ plan.fileSize ≤ threshold

/-- What is read reaches to the end of the planned range. Where it does not even reach to
its start, the length of the error page counts, or nothing at all is sent. -/
def CoversRange (plan : FilePlan) (access : FileAccess) (caught : Bool) : Prop :=
  match fileContent plan access with
  | none => plan.responseSize = 0
  | some content =>
    plan.fileOffset+plan.responseSize ≤ content.length ∨
      (content.length < plan.fileOffset ∧ (caught = true → plan.responseSize = 33))

/-- An error page in the place of the answer is right: it may have a body, and where the
length of a small file has been announced, that is the length of the page. -/
def CoversError (plan : FilePlan) (method : Method) (threshold : ℕ) : Prop :=
  method ≠ .kHead ∧
    (plan.sendsBytes = true → plan.fileSize ≤ threshold → plan.responseSize = 33)

/-- The condition on what handlers, middleware, cache and disk supply. -/
def Sound (request : HttpRequest) (opened : Option OpenFile) : Origin → Prop
  | .dispatched d _ =>
    let framing := (d.left request).2.response.framing
    match (d.left request).1 with
    | .ok .kAsyncPending => True
    | .ok .kComplete =>
      if d.afterThrows request then framing.SoundThrown request.method opened
      else framing.Sound request.method opened
    | .error _ => framing.SoundThrown request.method opened
  | .responder c given =>
    if c.throws given then given.framing.SoundThrown request.method opened
    else given.framing.Sound request.method opened
  | .staticFile h fs dates access c =>
    let plan := h.prepare fs dates request
    if c.throws (h.left fs dates access request) then CoversError plan request.method h.threshold
    else ReadsContent plan request.method h.threshold → CoversRange plan access true
  | .staticFileAsync h fs dates access submitted c =>
    let plan := h.prepare fs dates request
    ∀ r ∈ h.handleAsync fs dates access submitted request,
      if c.throws r then
        if submitted then CoversError plan request.method h.threshold
        -- The answer 503 of a full queue announces nothing.
        else request.method ≠ .kHead
      else
        submitted = true →
          ReadsContent plan request.method h.threshold → CoversRange plan access false

/-- What is sent after `populateResponse`: an exception is caught by the dispatcher, or
it ends the task of the worker. -/
def settled (caught : Bool) (populated : Framing × Except CppException Unit) : Option Framing :=
  match populated.2 with
  | .ok _ => some populated.1
  | .error _ => if caught then some { populated.1 with body := 33 } else none

/-- The length that is announced is right if the content fills the range. -/
theorem sound_announced_iff {method : Method} (hm : method ≠ .kHead) (size body : ℕ)
    (opened : Option OpenFile) :
    (Framing.mk (some (HttpResponse.decimal size)) none body).Sound method opened ↔
      size = body := by
  simp only [Framing.Sound, Framing.queued, Option.isSome_none, Bool.false_eq_true, false_and,
    if_false, if_neg hm, Option.getD_none, Option.mem_some_iff, forall_eq']
  constructor
  · intro h
    exact (decimal_decimal size).unique h
  · intro h
    exact h ▸ decimal_decimal size

theorem settled_sound_iff (method : Method) (plan : FilePlan) (access : FileAccess)
    (threshold : ℕ) (opened : Option OpenFile) (caught : Bool) :
    (∀ f ∈ settled caught (populatedFraming method plan access threshold),
      f.Sound method opened) ↔
    (ReadsContent plan method threshold → CoversRange plan access caught) := by
  rw [populatedFraming, ReadsContent, CoversRange]
  by_cases hbytes : plan.sendsBytes = true
  · by_cases hhead : method = .kHead
    · simp [hbytes, hhead, settled, Framing.Sound, Framing.queued]
    · by_cases hlarge : plan.fileSize > threshold
      · -- The descriptor gives as many bytes as were asked for, or there is an error page.
        have hsmall : ¬plan.fileSize ≤ threshold := by omega
        simp [hbytes, hhead, hlarge, hsmall, settled, Framing.Sound, Framing.queued,
          decimal_decimal]
      · have hsmall : plan.fileSize ≤ threshold := by omega
        simp only [hbytes, hhead, hlarge, hsmall, Bool.not_true, Bool.false_eq_true, if_false,
          ne_eq, not_false_eq_true, and_self, true_implies]
        cases fileContent plan access with
        | none => simp [settled, sound_announced_iff hhead]
        | some content =>
          by_cases hshort : content.length < plan.fileOffset
          · -- `substr` throws: an internal error, or no answer from the worker.
            have hnot : ¬plan.fileOffset+plan.responseSize ≤ content.length := by omega
            cases caught with
            | true => simp [settled, hshort, hnot, sound_announced_iff hhead]
            | false => simp [settled, hshort]
          · simp only [settled, hshort, if_false, Option.mem_some_iff, forall_eq',
              sound_announced_iff hhead, false_and, or_false]
            omega
  · simp [hbytes, settled, Framing.Sound, Framing.queued]

/-- An answer from a small file announces the length of the range, whatever is read. -/
theorem settled_small {method : Method} {plan : FilePlan} {access : FileAccess} {threshold : ℕ}
    {caught : Bool} {f : Framing} (hbytes : plan.sendsBytes = true) (hhead : method ≠ .kHead)
    (hsmall : ¬plan.fileSize > threshold)
    (h : settled caught (populatedFraming method plan access threshold) = some f) :
    ∃ body, f = ⟨some (HttpResponse.decimal plan.responseSize), none, body⟩ := by
  simp only [populatedFraming, hbytes, hhead, hsmall, Bool.not_true, Bool.false_eq_true,
    if_false] at h
  cases hcontent : fileContent plan access with
  | none =>
    rw [hcontent] at h
    exact ⟨0, (Option.some.inj h).symm⟩
  | some content =>
    rw [hcontent] at h
    by_cases hshort : content.length < plan.fileOffset
    · cases caught with
      | true =>
        simp only [hshort, if_true, settled, Option.some.injEq] at h
        exact ⟨33, h.symm⟩
      | false => simp [hshort, settled] at h
    · simp only [hshort, if_false, settled, Option.some.injEq] at h
      exact ⟨_, h.symm⟩

/-- The error page in the place of what the handler would have sent: a file whose
descriptor is sent stays in its place. -/
theorem settled_thrown_iff {method : Method} {plan : FilePlan} {access : FileAccess}
    {threshold : ℕ} {caught : Bool} {f : Framing} (opened : Option OpenFile)
    (h : settled caught (populatedFraming method plan access threshold) = some f) :
    f.SoundThrown method opened ↔ CoversError plan method threshold := by
  rw [CoversError]
  by_cases hbytes : plan.sendsBytes = true
  · by_cases hhead : method = .kHead
    · simp only [populatedFraming, hbytes, hhead, settled, Bool.not_true, Bool.false_eq_true,
        if_false, if_true, Option.some.injEq] at h
      subst h
      simp [Framing.SoundThrown, hhead]
    · by_cases hlarge : plan.fileSize > threshold
      · have hsmall : ¬plan.fileSize ≤ threshold := by omega
        simp only [populatedFraming, hbytes, hhead, hlarge, settled, Bool.not_true,
          Bool.false_eq_true, if_false, if_true, Option.some.injEq] at h
        subst h
        simp [Framing.SoundThrown, hhead, hsmall, decimal_decimal]
      · have hsmall : plan.fileSize ≤ threshold := by omega
        -- The body is replaced, so that only the length that was announced counts.
        obtain ⟨body, rfl⟩ := settled_small hbytes hhead hlarge h
        simp only [Framing.SoundThrown, hbytes, hsmall, true_implies, ne_eq, hhead,
          not_false_eq_true, true_and, Option.mem_some_iff, forall_eq']
        exact ⟨fun hd => (decimal_decimal _).unique hd, fun hd => hd ▸ decimal_decimal _⟩
  · simp only [populatedFraming, hbytes, settled, Bool.not_false, if_true,
      Option.some.injEq] at h
    subst h
    simp [Framing.SoundThrown, hbytes]

/-- The responses of the handler, through either entry point, have the framing that follows
from its plan and from what it reads. -/
theorem prepared_framing (h : StaticFileHandler) (fs : FileSystem) (dates : HttpDates)
    (access : FileAccess) (request : HttpRequest) {r : HttpResponse}
    (hnew : r.framing = ⟨none, none, 0⟩) :
    let populated :=
      populateResponse dates request (h.prepare fs dates request) access h.threshold r
    (populated.response.framing, populated.ended) =
      populatedFraming request.method (h.prepare fs dates request) access h.threshold :=
  populateResponse_framing dates request access h.threshold hnew prepareInRoot_path_ne_nil

theorem left_framing (h : StaticFileHandler) (fs : FileSystem) (dates : HttpDates)
    (access : FileAccess) (request : HttpRequest) :
    settled true (populatedFraming request.method (h.prepare fs dates request) access
      h.threshold) = some (h.left fs dates access request).framing := by
  rw [← prepared_framing h fs dates access request
    (show (initialResponse request).framing = ⟨none, none, 0⟩ from rfl)]
  simp only [StaticFileHandler.left, StaticFileHandler.handle, settled]
  generalize populateResponse dates request _ access h.threshold _ = populated
  obtain ⟨response, put, ended⟩ := populated
  cases ended with
  | ok u => rfl
  | error e => exact congrArg some response.framing_setInternalError.symm

theorem handleAsync_framing (h : StaticFileHandler) (fs : FileSystem) (dates : HttpDates)
    (access : FileAccess) (request : HttpRequest) :
    (h.handleAsync fs dates access true request).map HttpResponse.framing =
      settled false (populatedFraming request.method (h.prepare fs dates request) access
        h.threshold) := by
  rw [← prepared_framing h fs dates access request
    (show (HttpResponse.mk false .k200Ok [] .empty [] [] 0 0).framing = ⟨none, none, 0⟩ from rfl)]
  simp only [StaticFileHandler.handleAsync, StaticFileHandler.prepare, settled, if_true]
  generalize populateResponse dates request _ access h.threshold _ = populated
  obtain ⟨response, put, ended⟩ := populated
  cases ended with
  | ok u => rfl
  | error e => rfl

theorem framed_iff_sent (origin : Origin) (request : HttpRequest) (opened : Option OpenFile) :
    origin.Framed request opened ↔
      ∀ f ∈ (origin.sent request).map HttpResponse.framing, f.Sound request.method opened := by
  simp only [Framed, framed_finalResponse_iff, Option.mem_map]
  constructor
  · intro h f hf
    obtain ⟨r, hr, rfl⟩ := hf
    exact h r hr
  · intro h r hr
    exact h _ ⟨r, hr, rfl⟩

/-- A response is framed exactly if its origin is sound. -/
theorem framed_iff_sound (origin : Origin) (request : HttpRequest) (opened : Option OpenFile) :
    origin.Framed request opened ↔ origin.Sound request opened := by
  rw [framed_iff_sent]
  cases origin with
  | dispatched d keeps =>
    rw [show sent request (.dispatched d keeps) = d.sent request from rfl,
      HttpDispatcher.sent_framing keeps request, HttpDispatcher.sentFraming, Sound]
    cases (d.left request).1 with
    | error e => simp [Framing.sound_thrown_iff]
    | ok result =>
      cases result with
      | kAsyncPending => simp
      | kComplete =>
        by_cases hafter : d.afterThrows request
        · simp [hafter, Framing.sound_thrown_iff]
        · simp [hafter]
  | responder c given =>
    rw [show sent request (.responder c given) =
      some (c.answer (closeRequested request) given) from rfl, Option.map_some, Sound]
    simp only [Option.mem_some_iff, forall_eq', AsyncCompletion.framing_answer,
      AsyncCompletion.sound_complete_iff]
  | staticFile h fs dates access c =>
    have hleft := left_framing h fs dates access request
    have hrange := settled_sound_iff request.method (h.prepare fs dates request) access
      h.threshold opened true
    simp only [hleft, Option.mem_some_iff, forall_eq'] at hrange
    simp only [sent, Sound, Option.map_some, Option.mem_some_iff, forall_eq',
      AsyncCompletion.sound_complete_iff, settled_thrown_iff opened hleft, hrange]
  | staticFileAsync h fs dates access submitted c =>
    simp only [sent, Sound, Option.map_map, Option.mem_map, Function.comp_apply,
      forall_exists_index, and_imp, forall_apply_eq_imp_iff₂, AsyncCompletion.framing_answer,
      AsyncCompletion.sound_complete_iff]
    refine forall₂_congr (fun r hr => ?_)
    cases submitted with
    | false =>
      -- The answer 503 of a full queue has neither length nor body.
      obtain rfl : HttpResponse.mk false .k503ServiceUnavailable [] .empty [] [] 0 0 = r := by
        simpa [StaticFileHandler.handleAsync] using hr
      simp [HttpResponse.framing, HttpResponse.hasFile, OrderedMap.find, Framing.Sound,
        Framing.SoundThrown, Framing.queued]
    | true =>
      have hsettled := handleAsync_framing h fs dates access request
      rw [Option.mem_def.mp hr, Option.map_some] at hsettled
      have hrange := settled_sound_iff request.method (h.prepare fs dates request) access
        h.threshold opened false
      simp only [← hsettled, Option.mem_some_iff, forall_eq'] at hrange
      simp only [settled_thrown_iff opened hsettled.symm, hrange, if_true, true_implies]

/-- A file of five bytes below `/w` that cannot be opened when it is to be read. -/
def unreadableFile (request : HttpRequest) : Origin :=
  .staticFile ⟨ascii "/w", 10⟩ ⟨some, fun _ => some ⟨.regular, 1, 5, 0⟩⟩
    ⟨fun _ => none, fun _ => []⟩ ⟨none, none⟩ (.bare request)

/-- The answer is a 404 without body, under the length of the file. -/
theorem unreadableFile_not_framed :
    ¬∀ (origin : Origin) (request : HttpRequest) (opened : Option OpenFile),
      origin.Framed request opened := by
  intro h
  let request : HttpRequest := { method := .kGet, path := ascii "/a" }
  have hsent : (((unreadableFile request).sent request).map HttpResponse.framing) =
      some ⟨some (HttpResponse.decimal 5), none, 0⟩ := by
    have hleft := left_framing ⟨ascii "/w", 10⟩ ⟨some, fun _ => some ⟨.regular, 1, 5, 0⟩⟩
      ⟨fun _ => none, fun _ => []⟩ ⟨none, none⟩ request
    refine Eq.trans ?_ (hleft.symm.trans (by decide))
    exact congrArg some (AsyncCompletion.framing_complete _ _)
  have hsound := (framed_iff_sent _ request none).mp (h _ _ _) _ hsent
  have hlength := (sound_announced_iff (show request.method ≠ .kHead by decide) 5 0 none).mp hsound
  contradiction

end Origin

end JingjieAR
