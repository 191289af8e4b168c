import JingjieAR.HttpContextChunking
import JingjieAR.HttpServerDispatch

/-! Which requests have been dispatched when `onMessage` returns. While the connection is
open every call starts the next request with a fresh context, so the requests are those
of the stream, in order; the loop goes on to the last complete one unless a handler is
asynchronous, which stops it on purpose. -/
namespace JingjieAR

open Incremental (Drives)
open HttpContext (lineStep run run_eq_iff)
open Runs (Run)

/-- The stream begins with these requests, each parsed by a fresh context where the one
before it ends; `rest` follows them. -/
inductive Splits (limits : HttpLimits) (stream : Bytes) : List HttpRequest → Bytes → Prop
  | nil : Splits limits stream [] stream
  | snoc {reqs : List HttpRequest} {buf rest : Bytes} {c : HttpContext} {t : Timestamp}
      (h : Splits limits stream reqs buf)
      (hr : run ((HttpContext.new limits).stamp t) buf = .completed c rest) :
      Splits limits stream (reqs++[c.request]) rest

/-- The buffer begins with a complete request. -/
def HoldsRequest (limits : HttpLimits) (buf : Bytes) : Prop :=
  ∃ t c rest, run ((HttpContext.new limits).stamp t) buf = .completed c rest

theorem Splits.append {limits : HttpLimits} {stream buf : Bytes} {reqs : List HttpRequest}
    (h : Splits limits stream reqs buf) (more : Bytes) :
    Splits limits (stream++more) reqs (buf++more) := by
  induction h with
  | nil => exact .nil
  | snoc _ hr ih =>
    -- A complete request stays what it is when bytes come behind it.
    have hd := Incremental.drives_append_of_completed HttpContext.lineStep_stable
      (run_eq_iff.mp hr) more
    exact ih.snoc (run_eq_iff.mpr hd.1)

theorem not_holdsRequest_of_no_line {limits : HttpLimits} {buf : Bytes}
    (hn : findCRLF buf = none) (hfit : buf.length ≤ limits.maxRequestLineBytes) :
    ¬HoldsRequest limits buf := by
  intro h
  obtain ⟨t, c, rest, hr⟩ := h
  have hwait : lineStep ((HttpContext.new limits).stamp t) buf = .wait :=
    (HttpContext.lineStep_iff _ _ _).mpr (.requestLineWait rfl hn hfit)
  have he := Incremental.drives_unique (run_eq_iff.mp hr) (.wait hwait)
  contradiction

/-- A parser that waits for the request line has no request before it. -/
theorem not_holdsRequest_of_wait {limits : HttpLimits} {buf : Bytes} {t : Timestamp}
    (h : lineStep ((HttpContext.new limits).stamp t) buf = .wait) : ¬HoldsRequest limits buf := by
  cases (HttpContext.lineStep_iff _ _ _).mp h with
  | requestLineWait _ hn hfit => exact not_holdsRequest_of_no_line hn hfit
  | headersWait hs => contradiction
  | bodyWait hs => contradiction

namespace HttpConnection

variable {limits : HttpLimits} {s s' : HttpConnection}

/-- The requests dispatched so far are those at the front of the stream, and outside
`onMessage` no further one is in the buffer, unless the last call stopped early. -/
structure Served (limits : HttpLimits) (s : HttpConnection) : Prop where
  context : ∃ t, s.context = (HttpContext.new limits).stamp t
  splits : Splits limits s.received (s.dispatched.map Prod.snd) s.inputBuffer
  returned : s.receiving = none →
    s.lastExit = .asynchronous ∨ ¬HoldsRequest limits s.inputBuffer

def ServedWhileOpen (limits : HttpLimits) (s : HttpConnection) : Prop :=
  s.tcp.state = .kConnected → s.Served limits

theorem sendParseError_not_connected (s : HttpConnection) (error : ParseError)
    (written : KernelResult) : (s.sendParseError error written).tcp.state ≠ .kConnected := by
  unfold sendParseError
  simp only [TcpConnection.shutdown_state, TcpConnection.send_state]
  split_ifs with hc
  · simp
  · exact hc

theorem Served.frame {tcp : TcpConnection} {sent : List (ℕ × HttpResponse)}
    {responders : List AsyncResponder} (h : s.Served limits) :
    { s with tcp := tcp, sent := sent, responders := responders }.Served limits :=
  ⟨h.context, h.splits, h.returned⟩

theorem Served.dispatch {c : HttpContext} {rest : Bytes} {t : Timestamp} (h : s.Served limits)
    (hr : run ((HttpContext.new limits).stamp t) s.inputBuffer = .completed c rest)
    (d : Dispatch) (calls : SendCalls)
    (hcon : ({ s with context := c, inputBuffer := rest }.dispatchRequest d calls).tcp.state =
      .kConnected) (hin : s.receiving ≠ none) :
    ({ s with context := c, inputBuffer := rest }.dispatchRequest d calls).Served limits := by
  have hlim : c.limits = limits := HttpContext.drives_completed_limits (run_eq_iff.mp hr)
  -- The limits are all that a reset keeps, and the parser does not touch them.
  have hreset : c.reset = (HttpContext.new limits).stamp 0 := by
    rw [← hlim]
    rfl
  have hsplits (p : ℕ) :
      Splits limits s.received ((s.dispatched++[(p, c.request)]).map Prod.snd) rest := by
    rw [List.map_append]
    exact h.splits.snoc hr
  rcases dispatchRequest_cases { s with context := c, inputBuffer := rest } d calls with
    ⟨-, close, he⟩ | ⟨-, close, response, ⟨hclose, he⟩ | ⟨-, he⟩⟩
  · rw [he]
    -- The loop stops, with whatever is left in the buffer.
    exact ⟨⟨0, hreset⟩, hsplits _, fun _ => .inl rfl⟩
  · -- A closing response ends the connection.
    rw [he] at hcon
    have hopen := (TcpConnection.sendResponse_connected hcon).2
    rw [hclose] at hopen
    contradiction
  · rw [he]
    exact ⟨⟨0, hreset⟩, hsplits _, fun hidle => absurd hidle hin⟩

/-- A connection that is still open after a round has been open before it. -/
theorem roundMove_connected {t : Timestamp} {calls : SendCalls} {dispatch : Option Dispatch}
    (hm : RoundMove s t calls dispatch s') (hcon : s'.tcp.state = .kConnected) :
    s.tcp.state = .kConnected := by
  cases hm with
  | drained => exact hcon
  | parseError => exact absurd hcon (sendParseError_not_connected _ _ _)
  | incomplete => exact hcon
  | @dispatch c rest d hd =>
    rcases dispatchRequest_cases { s with context := c, inputBuffer := rest } d calls with
      ⟨-, close, he⟩ | ⟨-, close, response, ⟨-, he⟩ | ⟨-, he⟩⟩
    · rw [he] at hcon
      exact hcon
    · rw [he] at hcon
      exact (TcpConnection.sendResponse_connected hcon).1
    · rw [he] at hcon
      exact (TcpConnection.sendResponse_connected hcon).1

theorem Served.round {t : Timestamp} {calls : SendCalls} {dispatch : Option Dispatch}
    (h : s.Served limits) (hin : s.receiving = some t) (hm : RoundMove s t calls dispatch s')
    (hcon : s'.tcp.state = .kConnected) : s'.Served limits := by
  obtain ⟨t₀, hctx⟩ := h.context
  have hstamp : s.context.stamp t = (HttpContext.new limits).stamp t := by
    rw [hctx, HttpContext.stamp_stamp_new]
  cases hm with
  | drained hb =>
    refine ⟨h.context, h.splits, ?_⟩
    intro _
    right
    have hnil : (s.leave .drained).inputBuffer = [] := hb
    rw [hnil]
    exact not_holdsRequest_of_no_line rfl (Nat.zero_le _)
  -- A parse error shuts the connection down.
  | parseError => exact absurd hcon (sendParseError_not_connected _ _ _)
  | incomplete hs hw =>
    rw [hstamp] at hw
    exact ⟨⟨t, hstamp⟩, h.splits, fun _ => .inr (not_holdsRequest_of_wait hw)⟩
  | dispatch d hd =>
    rw [hstamp] at hd
    exact h.dispatch (run_eq_iff.mpr hd) d calls hcon (by simp [hin])

theorem ServedWhileOpen.step {e : ServerEvent} (h : s.ServedWhileOpen limits) (hs : s.step e s') :
    s'.ServedWhileOpen limits := by
  intro hcon
  cases eventMove_of_step hs with
  | @read bytes t hidle hne =>
    have hserved := h hcon
    exact ⟨hserved.context, hserved.splits.append bytes, fun hret => by contradiction⟩
  | round hin hm => exact (h (roundMove_connected hm hcon)).round hin hm hcon
  | dropped => exact (h hcon).frame
  -- A late response does not wake the parser.
  | completed response hidle hk hopen => exact (h hopen).frame
  | handleWrite =>
    have hopen := (s.tcp.handleWrite_state _ _).symm.trans hcon
    exact (h hopen).frame
  | close => contradiction

theorem served_established (limits : HttpLimits) : (established limits).Served limits where
  context := ⟨0, rfl⟩
  splits := .nil
  returned _ := .inr (not_holdsRequest_of_no_line rfl (Nat.zero_le _))

/-- Whenever `onMessage` has returned on a connection that is still open, the requests at
the front of the stream have been dispatched in order, and the unread rest holds no further
one, unless the call ended with an asynchronous dispatch. -/
theorem dispatched_all_or_asynchronous {events : List ServerEvent}
    (h : Run step (established limits) events s) (hret : s.receiving = none)
    (hcon : s.tcp.state = .kConnected) :
    Splits limits s.received (s.dispatched.map Prod.snd) s.inputBuffer ∧
      (s.lastExit = .asynchronous ∨ ¬HoldsRequest limits s.inputBuffer) := by
  have hserved : s.ServedWhileOpen limits :=
    h.invariant (fun _ _ _ => ServedWhileOpen.step) (fun _ => served_established limits)
  exact ⟨(hserved hcon).splits, (hserved hcon).returned hret⟩

/-- A request, and the beginning of the next one. -/
theorem dispatched_all_of_request_and_more :
    ∃ events s, Run step (established {}) events s ∧ s.receiving = none ∧
      s.tcp.state = .kConnected ∧ s.dispatched.length = 1 ∧ s.inputBuffer = ascii "GET" ∧
      Splits {} s.received (s.dispatched.map Prod.snd) s.inputBuffer ∧
      (s.lastExit = .asynchronous ∨ ¬HoldsRequest {} s.inputBuffer) := by
  let events : List ServerEvent := [.read (getRequest++ascii "GET") 0,
    .round 9 (some plainDispatch) plainCalls, .round 9 none plainCalls]
  let s := (Runs.replay (fun _ _ => True) next (established {}) events).get (by decide)
  have hrun : Run step (established {}) events s :=
    (Runs.run_of_replay (Option.some_get _).symm).unguarded
  have hret : s.receiving = none := by decide
  have hcon : s.tcp.state = .kConnected := by decide
  exact ⟨events, s, hrun, hret, hcon, by decide, by decide,
    dispatched_all_or_asynchronous hrun hret hcon⟩

/-- An asynchronous handler that has kept its responder. -/
def asyncDispatch : Dispatch := ⟨.kAsyncPending, fun _ response => response, true⟩

/-- Two requests in one chunk, the first of which is answered asynchronously: the second
stays in the buffer, even after the response of the first. -/
theorem pipelined_request_stranded :
    ∃ events s, Run step (established {}) events s ∧ s.receiving = none ∧
      s.tcp.state = .kConnected ∧ s.responders = [] ∧ HoldsRequest {} s.inputBuffer := by
  let events : List ServerEvent := [.read (getRequest++getRequest) 0,
    .round 9 (some asyncDispatch) plainCalls,
    .complete 0 (some { closeConnection := false }) plainCalls]
  let s := (Runs.replay (fun _ _ => True) next (established {}) events).get (by decide)
  have hrun : Run step (established {}) events s :=
    (Runs.run_of_replay (Option.some_get _).symm).unguarded
  have hleft : s.inputBuffer = getRequest := by decide
  let r := (HttpContext.parseRequest 9 (.new {}) getRequest 0).get (by decide)
  have hparse : HttpContext.parseRequest 9 (.new {}) getRequest 0 = some (true, r.2.1, r.2.2) := by
    decide
  refine ⟨events, s, hrun, by decide, by decide, by decide, ?_⟩
  rw [hleft]
  rcases HttpContext.parseRequest_cases hparse with ⟨hf, -⟩ | ⟨-, hf, -⟩ | ⟨-, -, hd⟩
  · contradiction
  · exact absurd hf (by decide)
  · exact ⟨0, _, _, run_eq_iff.mpr hd⟩

end HttpConnection

end JingjieAR
