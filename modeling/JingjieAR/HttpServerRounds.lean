import JingjieAR.HttpContextAnswers
import JingjieAR.HttpServerModel

/-! What the events of a connection can do. A round of `onMessage` finds the buffer empty,
rejects, waits or dispatches; a dispatch goes asynchronous, closes or lets the loop go on. -/
namespace JingjieAR

open Incremental (Drives)
open HttpContext (lineStep)

theorem finalResponse_closeConnection (response : HttpResponse) (opened : Option OpenFile) :
    (finalResponse response opened).closeConnection = response.closeConnection := by
  unfold finalResponse
  split_ifs <;> rfl

/-- A response leaves the state alone unless it closes. -/
theorem TcpConnection.sendResponse_state (c : TcpConnection) (response : HttpResponse)
    (calls : SendCalls) : (c.sendResponse response calls).state =
      if response.closeConnection ∧ c.state = .kConnected then .kDisconnecting else c.state := by
  have hfile (c : TcpConnection) (file : OpenFile) (offset count : ℕ) (r : KernelResult) :
      (if response.hasFile then c.sendFile file offset count r else c).state = c.state := by
    split_ifs
    · exact c.sendFile_state file offset count r
    · rfl
  unfold TcpConnection.sendResponse
  simp only [finalResponse_closeConnection]
  cases calls.opened with
  | none => by_cases hc : response.closeConnection <;> simp [hc]
  | some file => by_cases hc : response.closeConnection <;> simp [hc, hfile]

theorem TcpConnection.sendResponse_connected {c : TcpConnection} {response : HttpResponse}
    {calls : SendCalls} (h : (c.sendResponse response calls).state = .kConnected) :
    c.state = .kConnected ∧ response.closeConnection = false := by
  rw [sendResponse_state] at h
  split_ifs at h with hc
  refine ⟨h, ?_⟩
  by_contra hclose
  exact hc ⟨by simpa using hclose, h⟩

namespace HttpConnection

variable {s s' : HttpConnection} {t : Timestamp} {calls : SendCalls}

/-- The four ways in which a round can go. -/
inductive RoundMove (s : HttpConnection) (t : Timestamp) (calls : SendCalls) :
    Option Dispatch → HttpConnection → Prop
  | drained (hb : s.inputBuffer = []) : RoundMove s t calls none (s.leave .drained)
  | parseError {c : HttpContext} {rest : Bytes}
      (hd : Drives lineStep (s.context.stamp t) s.inputBuffer (.failed (c, rest))) :
      RoundMove s t calls none
        (({ s with context := c, inputBuffer := rest }.sendParseError c.error
          calls.written).leave .parseError)
  | incomplete (hs : s.context.state = .kExpectRequestLine)
      (hw : lineStep (s.context.stamp t) s.inputBuffer = .wait) :
      RoundMove s t calls none ({ s with context := s.context.stamp t }.leave .incomplete)
  | dispatch {c : HttpContext} {rest : Bytes} (d : Dispatch)
      (hd : Drives lineStep (s.context.stamp t) s.inputBuffer (.completed c rest)) :
      RoundMove s t calls (some d)
        ({ s with context := c, inputBuffer := rest }.dispatchRequest d calls)

theorem roundMove_of_round {fuel : ℕ} {dispatch : Option Dispatch}
    (h : s.round t fuel dispatch calls = some s') : RoundMove s t calls dispatch s' := by
  unfold round at h
  split_ifs at h with hb hn
  · split at h
    · contradiction
    · rename_i ok c rest hp
      -- The three answers of the parser, each with or without a dispatch to go with it.
      rcases HttpContext.parseRequest_cases hp with
        ⟨rfl, hd⟩ | ⟨rfl, hall, rfl, rfl, hs, hw⟩ | ⟨rfl, hall, hd⟩
      · cases dispatch with
        | none =>
          obtain rfl := Option.some.inj h
          exact .parseError hd
        | some d => simp at h
      · cases dispatch with
        | none =>
          simp only [hall, Bool.not_true, Bool.not_false, Bool.false_eq_true, if_true,
            if_false, Option.some.injEq] at h
          subst h
          exact .incomplete hs hw
        | some d => simp [hall] at h
      · cases dispatch with
        | none => simp [hall] at h
        | some d =>
          simp only [hall, Bool.and_self, if_true, Option.some.injEq] at h
          subst h
          exact .dispatch d hd
  · obtain rfl := Option.some.inj h
    rw [Option.isNone_iff_eq_none.mp hn]
    exact .drained (List.length_eq_zero_iff.mp (by omega))

/-- The three ways in which a dispatch can end. -/
theorem dispatchRequest_cases (s : HttpConnection) (d : Dispatch) (calls : SendCalls) :
    (d.result = .kAsyncPending ∧ ∃ close, s.dispatchRequest d calls =
        (s.handOver s.context.request close d).resetContext.leave .asynchronous) ∨
      (d.result = .kComplete ∧ ∃ close response,
        (response.closeConnection = true ∧ s.dispatchRequest d calls =
          ((s.handOver s.context.request close d).sendResponse s.position response
            calls).leave .closing) ∨
        (response.closeConnection = false ∧ s.dispatchRequest d calls =
          ((s.handOver s.context.request close d).sendResponse s.position response
            calls).resetContext)) := by
  unfold dispatchRequest onRequest
  cases hr : d.result with
  | kAsyncPending => exact .inl ⟨rfl, _, rfl⟩
  | kComplete =>
    refine .inr ⟨rfl, closeRequested s.context.request,
      d.respond s.context.request (initialResponse s.context.request), ?_⟩
    simp only [shouldContinueParsing, reduceCtorEq, if_false, decide_true, Bool.true_and,
      Bool.not_not]
    -- The flag that decides is that of the response as the handler leaves it.
    by_cases hc :
        (d.respond s.context.request (initialResponse s.context.request)).closeConnection = true
    · exact .inl ⟨hc, if_pos hc⟩
    · exact .inr ⟨by simpa using hc, if_neg hc⟩

/-- A completed responder touches only the connection and the record of what was sent. -/
theorem completeAsync_cases (s : HttpConnection) (r : AsyncResponder)
    (completed : Option HttpResponse) (calls : SendCalls) :
    s.completeAsync r completed calls = s ∨
      ∃ response, s.tcp.state = .kConnected ∧
        s.completeAsync r completed calls = s.sendResponse r.position response calls := by
  unfold completeAsync
  split_ifs with hc
  · exact .inl rfl
  · cases completed with
    | none => exact .inl rfl
    | some response => exact .inr ⟨_, by simpa [TcpConnection.connected] using hc, rfl⟩

/-- What each event does to the connection. -/
inductive EventMove (s : HttpConnection) : ServerEvent → HttpConnection → Prop
  | read {bytes : Bytes} {t : Timestamp} (hidle : s.receiving = none) (hne : bytes ≠ []) :
      EventMove s (.read bytes t)
        { s with inputBuffer := s.inputBuffer++bytes, received := s.received++bytes,
                 receiving := some t }
  | round {t : Timestamp} {fuel : ℕ} {dispatch : Option Dispatch} {calls : SendCalls}
      {s' : HttpConnection} (hin : s.receiving = some t) (hm : RoundMove s t calls dispatch s') :
      EventMove s (.round fuel dispatch calls) s'
  | dropped {k : ℕ} {r : AsyncResponder} {completed : Option HttpResponse} {calls : SendCalls}
      (hidle : s.receiving = none) (hk : s.responders[k]? = some r) :
      EventMove s (.complete k completed calls)
        { s with responders := s.responders.eraseIdx k }
  | completed {k : ℕ} {r : AsyncResponder} {completed : Option HttpResponse} {calls : SendCalls}
      (response : HttpResponse) (hidle : s.receiving = none) (hk : s.responders[k]? = some r)
      (hcon : s.tcp.state = .kConnected) :
      EventMove s (.complete k completed calls)
        ({ s with responders := s.responders.eraseIdx k }.sendResponse r.position response calls)
  | handleWrite {written sent : KernelResult} (hidle : s.receiving = none) :
      EventMove s (.handleWrite written sent) { s with tcp := s.tcp.handleWrite written sent }
  | close (hidle : s.receiving = none) : EventMove s .close { s with tcp := s.tcp.handleClose }

/-- Bytes that arrive do not move the place that the parser has reached. -/
theorem position_read (s : HttpConnection) (bytes : Bytes) (t : Timestamp) :
    { s with inputBuffer := s.inputBuffer++bytes, received := s.received++bytes,
             receiving := some t : HttpConnection }.position = s.position := by
  unfold position
  simp only [List.length_append]
  omega

theorem eventMove_of_step {e : ServerEvent} (h : s.step e s') : EventMove s e s' := by
  cases e with
  | read bytes t =>
    simp only [step, next, Option.ite_none_right_eq_some, Option.some.injEq] at h
    obtain ⟨⟨hidle, -, hne⟩, rfl⟩ := h
    exact .read hidle hne
  | round fuel dispatch calls =>
    obtain ⟨t, hin, hr⟩ := Option.bind_eq_some_iff.mp h
    exact .round hin (roundMove_of_round hr)
  | complete k completed calls =>
    simp only [step, next, Option.ite_none_right_eq_some, Option.map_eq_some_iff] at h
    obtain ⟨hidle, r, hk, rfl⟩ := h
    -- Dropped because the connection is gone, or sent.
    rcases completeAsync_cases { s with responders := s.responders.eraseIdx k } r completed calls
      with he | ⟨response, hcon, he⟩
    · rw [he]
      exact .dropped hidle hk
    · rw [he]
      exact .completed response hidle hk hcon
  | handleWrite written sent =>
    simp only [step, next, Option.ite_none_right_eq_some, Option.some.injEq] at h
    obtain ⟨hidle, rfl⟩ := h
    exact .handleWrite hidle
  | close =>
    simp only [step, next, Option.ite_none_right_eq_some, Option.some.injEq] at h
    obtain ⟨hidle, rfl⟩ := h
    exact .close hidle

end HttpConnection

end JingjieAR
