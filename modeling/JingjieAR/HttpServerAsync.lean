import JingjieAR.MiddlewarePairing
import JingjieAR.TransitionRuns

/-! One request from `onRequest` to the end of its responder. A handler that throws is
answered at once, and the responder that it may have used or handed on stays usable: such
a request can be answered a second time. -/
namespace JingjieAR

open Throwing

/-- A request whose responder may still be in use, with all that was done for it. -/
structure AsyncExchange where
  tcp : TcpConnection
  -- what the sender of the responder has captured
  closeConnection : Bool
  captured : Option (HttpRequest × List Middleware)
  -- `weakMiddleware` can still be locked
  dispatcherAlive : Bool := true
  -- the flag that all copies of the responder share
  completed : Bool := false
  -- copies of the responder exist outside the dispatcher
  kept : Bool := false
  -- responses in functors that the loop has not run yet
  queued : List HttpResponse := []
  -- the responses given to a connected connection
  responses : List HttpResponse := []
  calls : List Call

namespace AsyncExchange

/-- `AsyncResponder::send`: only the first call queues a functor. -/
def responderSend (x : AsyncExchange) (response : HttpResponse) : AsyncExchange :=
  if x.completed then x else { x with completed := true, queued := x.queued++[response] }

def sendResponse (x : AsyncExchange) (response : HttpResponse) (calls : SendCalls) :
    AsyncExchange :=
  { x with
    responses := if x.tcp.connected then x.responses++[finalResponse response calls.opened]
      else x.responses,
    tcp := x.tcp.sendResponse response calls }

/-- What an asynchronous handler leaves of its responder. -/
def afterUse (x : AsyncExchange) : Option AsyncUse → AsyncExchange
  | none => x
  | some use => { use.sends.foldl responderSend x with kept := use.keeps }

/-- The exchange when `dispatch` has come back. -/
def dispatched (tcp : TcpConnection) (req : HttpRequest) (s : DispatchState) : AsyncExchange :=
  afterUse { tcp := tcp, closeConnection := closeRequested req,
             captured := s.captured, calls := s.calls } s.used

/-- `onRequest`: dispatch, and answer unless the answer is left to the responder. -/
def onRequest (d : HttpDispatcher) (tcp : TcpConnection) (req : HttpRequest) (calls : SendCalls) :
    AsyncExchange :=
  match d.run req (initialResponse req) with
  | (.ok .kAsyncPending, s) => dispatched tcp req s
  | (.ok .kComplete, s) => (dispatched tcp req s).sendResponse s.response calls
  -- An exception would pass through; `run_cases` excludes it.
  | (.error _, s) => dispatched tcp req s

/-- The completion that the functor calls: the second phase of the middleware, then the
response. -/
def complete (x : AsyncExchange) (response : HttpResponse) (calls : SendCalls) : AsyncExchange :=
  match x.captured with
  | none => x
  | some (request, executed) =>
    let s := (exec (DispatchM.completeAsync request executed)
      { request := request, response := response, calls := x.calls }).2
    { x with calls := s.calls }.sendResponse
      { s.response with closeConnection := x.closeConnection || s.response.closeConnection } calls

/-- The first functor in the queue runs. -/
def runFunctor (x : AsyncExchange) (calls : SendCalls) : AsyncExchange :=
  match x.queued with
  | [] => x
  | response :: rest =>
    let x₁ := { x with queued := rest }
    if !x₁.tcp.connected then x₁
    else if !x₁.dispatcherAlive then x₁
    else x₁.complete response calls

/-- `AtMostOnce`: one response, and no second phase more often than its first. -/
def AtMostOnce (x : AsyncExchange) : Prop :=
  x.responses.length ≤ 1 ∧
    ∀ label, (aftersOf x.calls).count label ≤ (returnedBefores x.calls).count label

end AsyncExchange

inductive ExchangeEvent
  -- a holder of a copy of the responder calls `send`, in any thread
  | send (response : HttpResponse)
  | functor (calls : SendCalls)
  -- whatever else is done with the connection
  | output (op : OutputOp)
  | close
  | dispatcherGone

namespace AsyncExchange

def next (x : AsyncExchange) : ExchangeEvent → Option AsyncExchange
  | .send response => if x.kept then some (x.responderSend response) else none
  | .functor calls => some (x.runFunctor calls)
  | .output op => some { x with tcp := x.tcp.apply op }
  | .close => some { x with tcp := x.tcp.handleClose }
  | .dispatcherGone => some { x with dispatcherAlive := false }

def step (x : AsyncExchange) (e : ExchangeEvent) (x' : AsyncExchange) : Prop := x.next e = some x'

end AsyncExchange

/-- A handler that throws has neither used its responder nor handed it on. -/
def AsyncUse.Careful (use : AsyncUse) : Prop :=
  ∀ e, use.ended = .error e → use.sends = [] ∧ use.keeps = false

namespace HttpDispatcher

open DispatchM

theorem map_eq_ok {ended : Except CppException Unit} {r result : DispatchResult}
    (h : ended.map (fun _ => r) = .ok result) : ended = .ok () ∧ result = r := by
  cases ended with
  | ok u => exact ⟨rfl, by simpa [Except.map] using h.symm⟩
  | error e => simp [Except.map] at h

theorem map_eq_error {ended : Except CppException Unit} {r : DispatchResult} {e : CppException}
    (h : ended.map (fun _ => r) = .error e) : ended = .error e := by
  cases ended with
  | ok u => simp [Except.map] at h
  | error e' =>
    injection h with he
    rw [he]

/-- The two kinds of dispatch, with the fate of the responder: left to an asynchronous
handler that has returned, or answered at once, perhaps because that handler has thrown. -/
theorem run_cases (d : HttpDispatcher) (request : HttpRequest) (response : HttpResponse) :
    (∃ s use req, d.run request response = (.ok .kAsyncPending, s) ∧ s.used = some use ∧
        s.captured = some (req, s.executed) ∧ aftersOf s.calls = [] ∧
        returnedBefores s.calls = s.executed.map Middleware.label) ∨
      ∃ s, d.run request response = (.ok .kComplete, s) ∧
        aftersOf s.calls = (returnedBefores s.calls).reverse ∧
        (s.used = none ∨ ∃ req use e, d.asyncUse req = some use ∧ use.ended = .error e ∧
          s.used = some use) := by
  obtain ⟨ended, s₁, cs, ran, htry, hentered, -, -, huse⟩ :=
    d.tryBlock_spec { request := request, response := response }
  have hcaught := exec_caught htry
  cases ended with
  | ok result =>
    cases result with
    | kAsyncPending =>
      obtain ⟨-, hne⟩ | ⟨req, use, -, hused, hcaptured, -⟩ := huse
      · exact absurd rfl hne
      · refine .inl ⟨s₁, use, req, exec_dispatch_pending hcaught, hused, hcaptured, ?_, ?_⟩
        · rw [hentered.calls]
          exact hentered.noAfter
        · rw [hentered.calls, hentered.executed]
          exact hentered.returned
    | kComplete =>
      obtain ⟨s₂, cs', hexec, hleft, -⟩ := exec_dispatch_complete hcaught
      refine .inr ⟨s₂, hexec, (calls_paired ⟨rfl, rfl⟩ hentered hleft).2, .inl ?_⟩
      obtain ⟨hused, -⟩ | ⟨req, use, -, -, -, hended⟩ := huse
      · exact hleft.used.trans hused
      · exact absurd (map_eq_ok hended.symm).2 (by simp)
  | error e =>
    obtain ⟨s₂, cs', hexec, hleft, -⟩ := exec_dispatch_complete hcaught
    refine .inr ⟨s₂, hexec, (calls_paired ⟨rfl, rfl⟩ (hentered.setResponse _) hleft).2, ?_⟩
    obtain ⟨hused, -⟩ | ⟨req, use, hasync, hused, -, hended⟩ := huse
    · exact .inl (hleft.used.trans hused)
    · exact .inr ⟨req, use, e, hasync, map_eq_error hended.symm, hleft.used.trans hused⟩

end HttpDispatcher

namespace AsyncExchange

open Runs (Run)

variable {x : AsyncExchange}

/-- The answer is left to the responder, which has queued at most one functor. -/
structure Waiting (x : AsyncExchange) : Prop where
  responses : x.responses = []
  afters : aftersOf x.calls = []
  single : x.queued.length ≤ 1
  unsent : x.completed = false → x.queued = []
  entered : ∀ req executed, x.captured = some (req, executed) →
    returnedBefores x.calls = executed.map Middleware.label

/-- The request is answered and the responder can do nothing any more. -/
structure Finished (x : AsyncExchange) : Prop where
  once : x.AtMostOnce
  queued : x.queued = []
  spent : x.completed = true ∨ x.kept = false

/-- Either the answer is still to come or it was the only one. -/
def Sound (x : AsyncExchange) : Prop := x.Waiting ∨ x.Finished

theorem Sound.atMostOnce (h : x.Sound) : x.AtMostOnce := by
  rcases h with h | h
  · refine ⟨by simp [h.responses], ?_⟩
    intro label
    simp [h.afters]
  · exact h.once

/-- The connection and the lifetime of the dispatcher do not matter. -/
theorem Sound.frame (h : x.Sound) (tcp : TcpConnection) (alive : Bool) :
    ({ x with tcp := tcp, dispatcherAlive := alive } : AsyncExchange).Sound := by
  rcases h with h | h
  · exact .inl ⟨h.responses, h.afters, h.single, h.unsent, h.entered⟩
  · exact .inr ⟨h.once, h.queued, h.spent⟩

theorem responderSend_waiting (h : x.Waiting) (response : HttpResponse) :
    (x.responderSend response).Waiting := by
  unfold responderSend
  split_ifs with hc
  · exact h
  · have hq := h.unsent (by simpa using hc)
    refine ⟨h.responses, h.afters, by simp [hq], fun hf => ?_, h.entered⟩
    simp at hf

theorem foldl_responderSend_waiting (h : x.Waiting) (responses : List HttpResponse) :
    (responses.foldl responderSend x).Waiting := by
  induction responses generalizing x with
  | nil => exact h
  | cons r rs ih => exact ih (responderSend_waiting h r)

theorem sendResponse_atMostOnce {response : HttpResponse} {calls : SendCalls}
    (hresponses : x.responses = [])
    (hafters : ∀ label, (aftersOf x.calls).count label ≤ (returnedBefores x.calls).count label) :
    (x.sendResponse response calls).AtMostOnce := by
  refine ⟨?_, hafters⟩
  unfold sendResponse
  split_ifs
  · simp [hresponses]
  · simp [hresponses]

/-- The completion runs the second phase once for what has been entered. -/
theorem complete_sound (h : x.Waiting) (hq : x.queued = []) (hc : x.completed = true)
    (response : HttpResponse) (calls : SendCalls) : (x.complete response calls).Sound := by
  unfold complete
  cases hcap : x.captured with
  | none => exact .inl h
  | some captured =>
    obtain ⟨request, executed⟩ := captured
    obtain ⟨s, cs, hexec, hleft, -⟩ := DispatchM.completeAsync_spec request executed
      { request := request, response := response, calls := x.calls }
    dsimp only
    rw [hexec]
    refine .inr ⟨sendResponse_atMostOnce h.responses ?_, hq, .inl hc⟩
    intro label
    dsimp only
    rw [hleft.calls, aftersOf_append, returnedBefores_append, h.afters, hleft.noReturned,
      hleft.afters, h.entered _ _ hcap, List.nil_append, List.append_nil, List.map_reverse,
      List.count_reverse]

theorem runFunctor_sound (h : x.Sound) (calls : SendCalls) : (x.runFunctor calls).Sound := by
  unfold runFunctor
  rcases h with h | h
  · cases hq : x.queued with
    | nil => exact .inl h
    | cons response rest =>
      have hrest : rest = [] := by
        have hlen := h.single
        rw [hq, List.length_cons] at hlen
        exact List.length_eq_zero_iff.mp (by omega)
      have hc : x.completed = true := by
        by_contra hf
        rw [h.unsent (by simpa using hf)] at hq
        contradiction
      -- The functor has left the queue and the flag keeps others out of it.
      have hpopped : ({ x with queued := rest } : AsyncExchange).Waiting :=
        ⟨h.responses, h.afters, by simp [hrest], fun _ => hrest, h.entered⟩
      dsimp only
      split_ifs
      · exact .inl hpopped
      · exact .inl hpopped
      · exact complete_sound hpopped hrest hc response calls
  · rw [h.queued]
    exact .inr h

theorem step_sound {x' : AsyncExchange} {e : ExchangeEvent} (h : x.Sound) (hs : step x e x') :
    x'.Sound := by
  unfold step next at hs
  cases e with
  | send response =>
    obtain ⟨hkept, hx⟩ := Option.ite_none_right_eq_some.mp hs
    obtain rfl := Option.some.inj hx
    rcases h with h | h
    · exact .inl (responderSend_waiting h response)
    · -- Whoever still has a copy finds the flag set.
      have hc : x.completed = true := h.spent.resolve_right (by simp [hkept])
      rw [responderSend, if_pos hc]
      exact .inr h
  | functor calls =>
    obtain rfl := Option.some.inj hs
    exact runFunctor_sound h calls
  | output op =>
    obtain rfl := Option.some.inj hs
    exact h.frame _ x.dispatcherAlive
  | close =>
    obtain rfl := Option.some.inj hs
    exact h.frame _ x.dispatcherAlive
  | dispatcherGone =>
    obtain rfl := Option.some.inj hs
    exact h.frame x.tcp false

theorem onRequest_sound {d : HttpDispatcher} {request : HttpRequest}
    (hd : ∀ req use, d.asyncUse req = some use → use.Careful) (tcp : TcpConnection)
    (calls : SendCalls) : (onRequest d tcp request calls).Sound := by
  unfold onRequest
  rcases d.run_cases request (initialResponse request) with
    ⟨s, use, req, hrun, hused, hcaptured, hafters, hreturned⟩ | ⟨s, hrun, hpaired, huse⟩
  · rw [hrun]
    have hstart : Waiting { tcp := tcp, closeConnection := closeRequested request,
                            captured := s.captured, calls := s.calls } := by
      refine ⟨rfl, hafters, Nat.zero_le _, fun _ => rfl, ?_⟩
      intro r executed hcap
      obtain ⟨rfl, rfl⟩ : req = r ∧ s.executed = executed := by
        simpa [hcaptured] using hcap
      exact hreturned
    have h := foldl_responderSend_waiting hstart use.sends
    dsimp only
    rw [dispatched, hused]
    exact .inl ⟨h.responses, h.afters, h.single, h.unsent, h.entered⟩
  · rw [hrun]
    have hafters (label : ℕ) :
        (aftersOf s.calls).count label ≤ (returnedBefores s.calls).count label := by
      rw [hpaired, List.count_reverse]
    -- Answered at once: a careful handler has left its responder untouched.
    have hidle : dispatched tcp request s =
        { tcp := tcp, closeConnection := closeRequested request,
          captured := s.captured, calls := s.calls } := by
      rcases huse with hused | ⟨req, use, e, hasync, hended, hused⟩
      · rw [dispatched, hused, afterUse]
      · obtain ⟨hsends, hkeeps⟩ := hd req use hasync e hended
        rw [dispatched, hused, afterUse, hsends, hkeeps, List.foldl_nil]
    dsimp only
    rw [hidle]
    exact .inr ⟨sendResponse_atMostOnce rfl hafters, rfl, .inr rfl⟩

/-- A middleware that puts `request` in the place of the one it gets. -/
def substitute (request : HttpRequest) : Middleware where
  label := 0
  before := fun _ response => ((request, response), .ok true)
  after := fun _ response => (response, .ok ())

theorem connected_sendResponse {tcp : TcpConnection} (hcon : tcp.connected = true)
    {response : HttpResponse} (hclose : response.closeConnection = false) (calls : SendCalls)
    (hopen : calls.opened = none) : (tcp.sendResponse response calls).connected = true := by
  have hfinal : (finalResponse response none).closeConnection = false := by
    unfold finalResponse
    split_ifs
    · exact hclose
    · exact hclose
  unfold TcpConnection.sendResponse
  rw [hopen]
  simp only [hfinal, Bool.false_eq_true, ↓reduceIte, TcpConnection.connected,
    TcpConnection.send_state]
  exact hcon

/-- One functor away from a second response. -/
structure Loaded (x : AsyncExchange) : Prop where
  answered : x.responses.length = 1
  connected : x.tcp.connected = true
  alive : x.dispatcherAlive = true
  captured : x.captured ≠ none
  queued : x.queued ≠ []

theorem Loaded.runFunctor (h : x.Loaded) (calls : SendCalls) :
    (x.runFunctor calls).responses.length = 2 := by
  unfold AsyncExchange.runFunctor
  cases hq : x.queued with
  | nil => exact absurd hq h.queued
  | cons response rest =>
    cases hc : x.captured with
    | none => exact absurd hc h.captured
    | some captured => simp [complete, sendResponse, h.connected, h.alive, h.answered]

theorem foldl_responderSend_completed (hc : x.completed = true) (responses : List HttpResponse) :
    responses.foldl responderSend x = x := by
  induction responses with
  | nil => rfl
  | cons r rs ih => rw [List.foldl_cons, responderSend, if_pos hc, ih]

/-- The state of a dispatch whose asynchronous handler has thrown: the internal error is
in place, and so are the captured request and the use that was made of the responder. -/
theorem run_careless {d : HttpDispatcher} {request : HttpRequest} {use : AsyncUse}
    {e : CppException} (hasync : d.asyncUse request = some use) (hended : use.ended = .error e) :
    ∃ s, ({ d with middleware := [substitute request] } : HttpDispatcher).run {}
        (initialResponse {}) = (.ok .kComplete, s) ∧ s.used = some use ∧ s.captured ≠ none ∧
      s.response.closeConnection = false := by
  let d' : HttpDispatcher := { d with middleware := [substitute request] }
  let s₁ : DispatchState := { request := request, response := initialResponse {},
                              executed := [substitute request], calls := [.before 0 (.ok true)] }
  have hbefore : exec (DispatchM.processBefore d'.middleware)
      { request := {}, response := initialResponse {} } = (.ok true, s₁) := rfl
  obtain ⟨ended, s₂, cs, hroute, hentered, -, -, hcaptured, huse⟩ := d'.routeRequest_spec s₁
  have hsame : d'.asyncUse s₁.request = some use := hasync
  rw [hsame] at huse
  obtain ⟨hused, hresponse, hthrown⟩ := huse
  rw [hended] at hthrown
  have hexecuted : s₂.executed = [substitute request] := by
    rw [hentered.executed, List.append_nil]
  have htry : exec d'.tryBlock { request := {}, response := initialResponse {} } =
      (.error e, s₂) := by
    rw [HttpDispatcher.tryBlock, exec_bind_ok hbefore]
    exact hroute.trans (by rw [hthrown]; rfl)
  have hcaught := HttpDispatcher.exec_caught htry
  refine ⟨DispatchM.noteAfter s₂.request (substitute request)
    { s₂ with response := s₂.response.setInternalError }, ?_, hused, ?_, ?_⟩
  · rw [HttpDispatcher.run, HttpDispatcher.dispatch, exec_bind_ok hcaught,
      exec_bind_ok (exec_get _)]
    dsimp only
    rw [hexecuted]
    rfl
  · change s₂.captured ≠ none
    rw [hcaptured]
    simp
  · change s₂.response.closeConnection = false
    rw [hresponse]
    rfl

def noFile : SendCalls := ⟨none, .wouldBlock, .wouldBlock⟩

/-- The answer that follows an exception leaves the connection open and the responder
as it was used. -/
theorem onRequest_careless {d : HttpDispatcher} {request : HttpRequest} {use : AsyncUse}
    {e : CppException} (hasync : d.asyncUse request = some use) (hended : use.ended = .error e) :
    let x := onRequest { d with middleware := [substitute request] }
      ({} : TcpConnection).connectEstablished {} noFile
    x.responses.length = 1 ∧ x.tcp.connected = true ∧ x.dispatcherAlive = true ∧
      x.captured ≠ none ∧ x.kept = use.keeps ∧
      x.queued = use.sends.head?.toList ∧ x.completed = use.sends.head?.isSome := by
  obtain ⟨s, hrun, hused, hcaptured, hclose⟩ := run_careless hasync hended
  let x₀ : AsyncExchange := { tcp := ({} : TcpConnection).connectEstablished,
                              closeConnection := closeRequested {},
                              captured := s.captured, calls := s.calls }
  have hx : onRequest { d with middleware := [substitute request] }
      ({} : TcpConnection).connectEstablished {} noFile =
      sendResponse { use.sends.foldl responderSend x₀ with kept := use.keeps } s.response
        noFile := by
    rw [onRequest, hrun]
    dsimp only
    rw [dispatched, hused]
    rfl
  -- Of all that was sent through the responder the first has been queued.
  have hfold : use.sends.foldl responderSend x₀ =
      { x₀ with queued := use.sends.head?.toList, completed := use.sends.head?.isSome } := by
    cases use.sends with
    | nil => rfl
    | cons r rs =>
      have hfirst : responderSend x₀ r = { x₀ with completed := true, queued := [r] } := rfl
      rw [List.foldl_cons, hfirst, foldl_responderSend_completed rfl]
      rfl
  dsimp only
  rw [hx, hfold]
  exact ⟨rfl, connected_sendResponse rfl hclose _ rfl, rfl, hcaptured, rfl, rfl, rfl⟩

/-- A handler that throws after using or handing on its responder is answered twice. -/
theorem answered_twice {d : HttpDispatcher} {request : HttpRequest} {use : AsyncUse}
    {e : CppException} (hasync : d.asyncUse request = some use) (hended : use.ended = .error e)
    (hused : use.sends ≠ [] ∨ use.keeps = true) :
    ∃ events x, Run step (onRequest { d with middleware := [substitute request] }
        ({} : TcpConnection).connectEstablished {} noFile) events x ∧ x.responses.length = 2 := by
  have hx := onRequest_careless hasync hended
  generalize onRequest { d with middleware := [substitute request] }
    ({} : TcpConnection).connectEstablished {} noFile = x at hx ⊢
  obtain ⟨hone, hcon, halive, hcaptured, hkept, hqueued, hcompleted⟩ := hx
  by_cases hsends : use.sends = []
  · -- A copy of the responder is used later.
    have hkeeps : x.kept = true := hkept.trans (hused.resolve_left (absurd hsends))
    have hopen : x.completed = false := by simp [hcompleted, hsends]
    let x₁ : AsyncExchange := { x with completed := true,
                                       queued := x.queued++[{ closeConnection := false }] }
    have hsend : step x (.send { closeConnection := false }) x₁ := by
      simp [step, next, hkeeps, responderSend, hopen, x₁]
    have hloaded : x₁.Loaded := ⟨hone, hcon, halive, hcaptured, by simp [x₁]⟩
    exact ⟨[.send { closeConnection := false }, .functor noFile], _,
      .cons hsend (.cons rfl (.nil _)), hloaded.runFunctor noFile⟩
  · have hloaded : x.Loaded := by
      refine ⟨hone, hcon, halive, hcaptured, ?_⟩
      rw [hqueued]
      cases hs : use.sends with
      | nil => exact absurd hs hsends
      | cons r rs => simp
    exact ⟨[.functor noFile], _, .cons rfl (.nil _), hloaded.runFunctor noFile⟩

/-- For any middleware, on any connection and in any order of events, a request is
answered at most once, and each second phase runs at most once, exactly when no
asynchronous handler throws after it has used or handed on its responder. -/
theorem atMostOnce_iff_careful (d : HttpDispatcher) :
    (∀ chain tcp request calls events x,
        Run step (onRequest { d with middleware := chain } tcp request calls) events x →
        x.AtMostOnce) ↔
      ∀ request use, d.asyncUse request = some use → use.Careful := by
  constructor
  · intro hall request use hasync e hended
    by_contra hnot
    have hused : use.sends ≠ [] ∨ use.keeps = true := by
      by_contra hidle
      simp only [not_or, not_not, Bool.not_eq_true] at hidle
      exact hnot hidle
    obtain ⟨events, x, hrun, htwo⟩ := answered_twice hasync hended hused
    have hone := (hall _ _ _ _ _ _ hrun).1
    omega
  · intro hcareful chain tcp request calls events x hrun
    have hstart : (onRequest { d with middleware := chain } tcp request calls).Sound :=
      onRequest_sound (d := { d with middleware := chain }) hcareful tcp calls
    have hsound : x.Sound := hrun.invariant (fun _ _ _ => step_sound) hstart
    exact hsound.atMostOnce

/-- A handler that sends its response and then throws. -/
def sendThenThrow : HttpDispatcher where
  asyncFallback := some (fun _ => ⟨[{ closeConnection := false }], false, .error ⟨⟩⟩)

theorem sendThenThrow_answered_twice :
    ∃ chain tcp request calls events x,
      Run step (onRequest { sendThenThrow with middleware := chain } tcp request calls) events x ∧
        ¬x.AtMostOnce := by
  have hasync : sendThenThrow.asyncUse {} =
      some ⟨[{ closeConnection := false }], false, .error ⟨⟩⟩ := rfl
  obtain ⟨events, x, hrun, htwo⟩ := answered_twice hasync rfl (.inl (by simp))
  refine ⟨_, _, _, _, events, x, hrun, ?_⟩
  intro honce
  have hone := honce.1
  omega

end AsyncExchange

end JingjieAR
