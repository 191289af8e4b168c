import JingjieAR.HttpServerRounds
import JingjieAR.TransitionRuns

/-! Whether a request is dispatched twice. A context that holds a complete request must be
reset before the next bytes arrive; the loop resets it when it goes on and after an
asynchronous dispatch, but not after a response that closes the connection. -/
namespace JingjieAR.HttpConnection

open Runs (Run Guarded)

/-- Bytes arrive while the context still holds the request that was answered last. -/
def ReadsAnswered (s : HttpConnection) : ServerEvent → Prop
  | .read _ _ => s.context.gotAll = true
  | _ => False

/-- The requests that were dispatched end at different places of the stream. -/
def AtMostOnce (s : HttpConnection) : Prop := (s.dispatched.map Prod.fst).Nodup

/-- Each dispatch has moved on in the stream. -/
structure Advancing (s : HttpConnection) : Prop where
  increasing : (s.dispatched.map Prod.fst).Pairwise (· < ·)
  taken : ∀ p ∈ s.dispatched.map Prod.fst, p ≤ s.position
  buffered : s.inputBuffer.length ≤ s.received.length
  noBody : s.context.state ≠ .kExpectBody
  unfinished : s.receiving ≠ none → s.context.state ≠ .kGotCompleteRequest

/-- What all ends of a dispatch have in common. -/
theorem dispatchRequest_spec (s : HttpConnection) (d : Dispatch) (calls : SendCalls) :
    (s.dispatchRequest d calls).dispatched = s.dispatched++[(s.position, s.context.request)] ∧
      (s.dispatchRequest d calls).inputBuffer = s.inputBuffer ∧
      (s.dispatchRequest d calls).received = s.received ∧
      ((s.dispatchRequest d calls).context = s.context.reset ∨
        (s.dispatchRequest d calls).context = s.context ∧
          (s.dispatchRequest d calls).receiving = none) := by
  rcases dispatchRequest_cases s d calls with
    ⟨-, close, he⟩ | ⟨-, close, response, ⟨-, he⟩ | ⟨-, he⟩⟩
  · rw [he]
    exact ⟨rfl, rfl, rfl, .inl rfl⟩
  · rw [he]
    exact ⟨rfl, rfl, rfl, .inr ⟨rfl, rfl⟩⟩
  · rw [he]
    exact ⟨rfl, rfl, rfl, .inl rfl⟩

theorem Advancing.dispatch {s : HttpConnection} {c : HttpContext} {rest : Bytes}
    (h : s.Advancing) (hc : c.state = .kGotCompleteRequest)
    (hlt : rest.length < s.inputBuffer.length) (d : Dispatch) (calls : SendCalls) :
    ({ s with context := c, inputBuffer := rest }.dispatchRequest d calls).Advancing := by
  obtain ⟨hdisp, hin, hrec, hctx⟩ :=
    dispatchRequest_spec { s with context := c, inputBuffer := rest } d calls
  have hbuf := h.buffered
  -- All earlier requests end before the bytes that this one has taken.
  have hnew : ∀ p ∈ s.dispatched.map Prod.fst, p < s.received.length-rest.length := by
    intro p hp
    have hle : p ≤ s.received.length-s.inputBuffer.length := h.taken p hp
    omega
  have hpos : ({ s with context := c, inputBuffer := rest }.dispatchRequest d calls).position =
      s.received.length-rest.length := by
    unfold position
    rw [hin, hrec]
  constructor
  · rw [hdisp, List.map_append]
    refine List.pairwise_append.mpr ⟨h.increasing, List.pairwise_singleton _ _, ?_⟩
    intro p hp q hq
    obtain rfl := List.mem_singleton.mp hq
    exact hnew p hp
  · intro p hp
    rw [hdisp, List.map_append] at hp
    rw [hpos]
    rcases List.mem_append.mp hp with hp | hp
    · exact (hnew p hp).le
    · exact (List.mem_singleton.mp hp).le
  · rw [hin, hrec]
    exact hlt.le.trans hbuf
  -- The context is fresh again, or still complete after a closing response.
  · rcases hctx with hctx | ⟨hctx, -⟩
    · rw [hctx]
      simp [HttpContext.reset]
    · rw [hctx, hc]
      simp
  · intro hrun
    -- If the loop goes on, the context has been reset.
    rcases hctx with hctx | ⟨-, hidle⟩
    · rw [hctx]
      simp [HttpContext.reset]
    · exact absurd hidle hrun

theorem Advancing.leave {s : HttpConnection} {c : HttpContext} {rest : Bytes} {tcp : TcpConnection}
    {sent : List (ℕ × HttpResponse)} (h : s.Advancing) (hc : c.state ≠ .kExpectBody)
    (hle : rest.length ≤ s.inputBuffer.length) (exit : LoopExit) :
    ({ s with context := c, inputBuffer := rest, tcp := tcp,
              sent := sent }.leave exit).Advancing where
  increasing := h.increasing
  taken p hp := by
    have hp' : p ≤ s.received.length-s.inputBuffer.length := h.taken p hp
    have hmore : s.received.length-s.inputBuffer.length ≤ s.received.length-rest.length := by omega
    exact hp'.trans hmore
  buffered := hle.trans h.buffered
  noBody := hc
  unfinished hrun := absurd rfl hrun

/-- Nothing of this depends on the connection, on what was sent or on who waits. -/
theorem Advancing.frame {s : HttpConnection} {tcp : TcpConnection}
    {sent : List (ℕ × HttpResponse)} {responders : List AsyncResponder} (h : s.Advancing) :
    { s with tcp := tcp, sent := sent, responders := responders }.Advancing :=
  ⟨h.increasing, h.taken, h.buffered, h.noBody, h.unfinished⟩

theorem Advancing.round {s s' : HttpConnection} {t : Timestamp} {calls : SendCalls}
    {dispatch : Option Dispatch} (h : s.Advancing) (hin : s.receiving = some t)
    (hm : RoundMove s t calls dispatch s') : s'.Advancing := by
  have hopen : s.context.state ≠ .kGotCompleteRequest := h.unfinished (by simp [hin])
  cases hm with
  | drained hb => exact h.leave h.noBody le_rfl .drained
  | @parseError c rest hd =>
    obtain ⟨hstate, hle⟩ := HttpContext.drives_failed_spec hd
    have hc : c.state ≠ .kExpectBody := by rcases hstate with hs | hs <;> simp [hs]
    exact h.leave hc hle .parseError
  | incomplete hs hw =>
    refine h.leave ?_ le_rfl .incomplete
    rw [HttpContext.stamp_state, hs]
    simp
  | dispatch d hd =>
    obtain ⟨hc, -, hlt⟩ := HttpContext.drives_completed_spec hd
    rw [HttpContext.stamp_state] at hlt
    -- From an unfinished context the request took at least one line.
    exact h.dispatch hc (hlt h.noBody hopen) d calls

theorem Advancing.step {s s' : HttpConnection} {e : ServerEvent} (h : s.Advancing)
    (hs : Guarded (fun s e => ¬s.ReadsAnswered e) HttpConnection.step s e s') : s'.Advancing := by
  obtain ⟨hguard, hs⟩ := hs
  cases eventMove_of_step hs with
  | @read bytes t hidle hne =>
    refine ⟨h.increasing, ?_, ?_, h.noBody, ?_⟩
    · rw [position_read]
      exact h.taken
    · simpa using h.buffered
    · intro _ hc
      -- `onMessage` is entered with an unfinished context: this is what the guard is for.
      have hall : s.context.gotAll = true := decide_eq_true hc
      exact hguard hall
  | round hin hm => exact h.round hin hm
  | dropped => exact h.frame
  | completed => exact h.frame
  | handleWrite => exact h.frame
  | close => exact h.frame

theorem advancing_established (limits : HttpLimits) : (established limits).Advancing where
  increasing := List.Pairwise.nil
  taken := by simp [established]
  buffered := le_rfl
  noBody := by simp [established, HttpContext.new]
  unfinished h := absurd rfl h

/-- As long as no bytes arrive while the context holds an answered request, no request of
the stream is dispatched twice. -/
theorem dispatched_at_most_once {limits : HttpLimits} {events : List ServerEvent}
    {s : HttpConnection}
    (h : Run (Guarded (fun s e => ¬s.ReadsAnswered e) step) (established limits) events s) :
    s.AtMostOnce := by
  have hadv : s.Advancing :=
    h.invariant (fun _ _ _ => Advancing.step) (advancing_established limits)
  exact hadv.increasing.imp (fun hlt => hlt.ne)

instance (s : HttpConnection) : Decidable s.AtMostOnce := inferInstanceAs (Decidable (List.Nodup _))

instance (s : HttpConnection) (e : ServerEvent) : Decidable (s.ReadsAnswered e) :=
  match e with
  | .read _ _ => inferInstanceAs (Decidable (_ = true))
  | .round .. => .isFalse id
  | .complete .. => .isFalse id
  | .handleWrite .. => .isFalse id
  | .close => .isFalse id

/-- A synchronous handler that leaves the response as it is. -/
def plainDispatch : Dispatch := ⟨.kComplete, fun _ response => response, false⟩

/-- No file, and a socket that takes everything. -/
def plainCalls : SendCalls := ⟨none, .accepted 1000, .wouldBlock⟩

def getRequest : Bytes := ascii "GET / HTTP/1.1\r\n\r\n"

def closingRequest : Bytes := ascii "GET / HTTP/1.1\r\nConnection: close\r\n\r\n"

/-- Two requests in one chunk, the second of which closes the connection. -/
theorem dispatched_once_of_two :
    ∃ events s, Run (Guarded (fun s e => ¬s.ReadsAnswered e) step) (established {}) events s ∧
      s.dispatched.length = 2 ∧ s.AtMostOnce := by
  let events : List ServerEvent := [.read (getRequest++closingRequest) 0,
    .round 9 (some plainDispatch) plainCalls, .round 9 (some plainDispatch) plainCalls]
  let s := (Runs.replay (fun s e => ¬s.ReadsAnswered e) next (established {}) events).get
    (by decide)
  have hrun : Run (Guarded (fun s e => ¬s.ReadsAnswered e) step) (established {}) events s :=
    Runs.run_of_replay (Option.some_get _).symm
  exact ⟨events, s, hrun, by decide, dispatched_at_most_once hrun⟩

/-- One more byte after the closing response, and the same request is dispatched again. -/
theorem closing_request_dispatched_again :
    ∃ events s, Run step (established {}) events s ∧
      (∃ p req, s.dispatched = [(p, req), (p, req)]) ∧ ¬s.AtMostOnce := by
  let events : List ServerEvent := [.read closingRequest 0,
    .round 9 (some plainDispatch) plainCalls, .read (ascii "x") 0,
    .round 9 (some plainDispatch) plainCalls]
  let s := (Runs.replay (fun _ _ => True) next (established {}) events).get (by decide)
  have hrun : Run step (established {}) events s :=
    (Runs.run_of_replay (Option.some_get _).symm).unguarded
  let first := s.dispatched.head (by decide)
  exact ⟨events, s, hrun, ⟨first.1, first.2, by decide⟩, by decide⟩

end JingjieAR.HttpConnection
