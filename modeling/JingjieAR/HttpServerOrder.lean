import JingjieAR.HttpServerPipelining

/-! The order of the responses. After an asynchronous dispatch the context is reset and the
next bytes are parsed, whether or not the response has been sent; so the responses keep
the order of the requests only when the responders are used in turn. -/
namespace JingjieAR.HttpConnection

open Runs (Run Guarded)

variable {limits : HttpLimits} {s s' : HttpConnection}

/-- The responses were sent in the order in which their requests end in the stream. -/
def AnsweredInOrder (s : HttpConnection) : Prop := (s.sent.map Prod.fst).Pairwise (· ≤ ·)

/-- A synchronous handler runs only when no responder is waiting, and of the responders
that are waiting the one of the oldest request is used first. -/
def InTurn (s : HttpConnection) : ServerEvent → Prop
  | .round _ (some d) _ => d.result = .kComplete → s.responders = []
  | .complete k _ _ => ∀ r ∈ s.responders[k]?, ∀ r' ∈ s.responders, r.position ≤ r'.position
  | _ => True

/-- What can still be sent belongs to requests behind those that are answered. -/
structure Ordered (s : HttpConnection) : Prop where
  answered : s.AnsweredInOrder
  early : s.tcp.state = .kConnected → ∀ p ∈ s.sent.map Prod.fst,
    p ≤ s.position ∧ ∀ r ∈ s.responders, p ≤ r.position
  taken : ∀ r ∈ s.responders, r.position ≤ s.position

/-- One more response, behind all that an open connection has sent. -/
theorem AnsweredInOrder.recordSent {position : ℕ} (h : s.AnsweredInOrder)
    (hle : s.tcp.state = .kConnected → ∀ p ∈ s.sent.map Prod.fst, p ≤ position)
    (response : HttpResponse) : (s.recordSent position response).AnsweredInOrder := by
  unfold AnsweredInOrder HttpConnection.recordSent
  dsimp only
  split_ifs with hc
  · rw [List.map_append]
    refine List.pairwise_append.mpr ⟨h, List.pairwise_singleton _ _, ?_⟩
    intro p hp q hq
    obtain rfl := List.mem_singleton.mp hq
    exact hle (of_decide_eq_true hc) p hp
  · exact h

theorem mem_recordSent {position p : ℕ} {response : HttpResponse}
    (h : p ∈ (s.recordSent position response).sent.map Prod.fst) :
    p = position ∨ p ∈ s.sent.map Prod.fst := by
  unfold recordSent at h
  dsimp only at h
  split_ifs at h
  · rw [List.map_append] at h
    exact (List.mem_append.mp h).symm.imp_left List.mem_singleton.mp
  · exact .inr h

theorem mem_handOver {req : HttpRequest} {close : Bool} {d : Dispatch} {r : AsyncResponder}
    (h : r ∈ (s.handOver req close d).responders) :
    r ∈ s.responders ∨ r.position = s.position := by
  unfold handOver at h
  dsimp only at h
  split_ifs at h
  · exact (List.mem_append.mp h).imp_right (fun hr => by rw [List.mem_singleton.mp hr])
  · exact .inl h

/-- A request is handed over after more bytes were taken; nobody waits if it is answered at
once. -/
theorem Ordered.dispatch {c : HttpContext} {rest : Bytes} {d : Dispatch} (h : s.Ordered)
    (hle : rest.length ≤ s.inputBuffer.length) (hturn : d.result = .kComplete → s.responders = [])
    (calls : SendCalls) :
    ({ s with context := c, inputBuffer := rest }.dispatchRequest d calls).Ordered := by
  let s₁ : HttpConnection := { s with context := c, inputBuffer := rest }
  have hpos : s.position ≤ s₁.position := Nat.sub_le_sub_left hle _
  have htaken : ∀ req close, ∀ r ∈ (s₁.handOver req close d).responders,
      r.position ≤ s₁.position := by
    intro req close r hr
    rcases mem_handOver hr with hr | hr
    · exact (h.taken r hr).trans hpos
    · exact hr.le
  have hearly : s.tcp.state = .kConnected → ∀ p ∈ s.sent.map Prod.fst, p ≤ s₁.position :=
    fun hcon p hp => (h.early hcon p hp).1.trans hpos
  have hanswer (req : HttpRequest) (close : Bool) (response : HttpResponse)
      (hr : d.result = .kComplete) :
      ((s₁.handOver req close d).sendResponse s₁.position response calls).Ordered := by
    refine ⟨AnsweredInOrder.recordSent h.answered hearly _, ?_, htaken req close⟩
    intro hcon p hp
    have hopen := (TcpConnection.sendResponse_connected hcon).1
    have hple : p ≤ s₁.position := by
      rcases mem_recordSent hp with rfl | hp
      · exact le_rfl
      · exact hearly hopen p hp
    refine ⟨hple, ?_⟩
    intro r hmem
    have hkept : r ∈ (s₁.handOver req close d).responders := hmem
    -- Nobody was waiting, so the only responder is that of this request.
    rcases mem_handOver hkept with hold | hnew
    · have hnone : r ∈ s.responders := hold
      rw [hturn hr] at hnone
      contradiction
    · exact hple.trans hnew.ge
  rcases dispatchRequest_cases s₁ d calls with
    ⟨-, close, he⟩ | ⟨hr, close, response, ⟨-, he⟩ | ⟨-, he⟩⟩
  · rw [he]
    refine ⟨h.answered, ?_, htaken s₁.context.request close⟩
    intro hcon p hp
    refine ⟨hearly hcon p hp, ?_⟩
    intro r hmem
    have hkept : r ∈ (s₁.handOver s₁.context.request close d).responders := hmem
    -- A waiting responder belongs to a request behind those that are answered.
    rcases mem_handOver hkept with hold | hnew
    · exact (h.early hcon p hp).2 r hold
    · exact (hearly hcon p hp).trans hnew.ge
  · have ho := hanswer s₁.context.request close response hr
    rw [he]
    exact ⟨ho.answered, ho.early, ho.taken⟩
  · have ho := hanswer s₁.context.request close response hr
    rw [he]
    exact ⟨ho.answered, ho.early, ho.taken⟩

theorem Ordered.round {t : Timestamp} {calls : SendCalls} {fuel : ℕ} {dispatch : Option Dispatch}
    (h : s.Ordered) (hturn : s.InTurn (.round fuel dispatch calls))
    (hm : RoundMove s t calls dispatch s') : s'.Ordered := by
  cases hm with
  | drained => exact ⟨h.answered, h.early, h.taken⟩
  | incomplete => exact ⟨h.answered, h.early, h.taken⟩
  | @parseError c rest hd =>
    have hle := (HttpContext.drives_failed_spec hd).2
    have hpos : s.received.length-s.inputBuffer.length ≤ s.received.length-rest.length :=
      Nat.sub_le_sub_left hle _
    refine ⟨AnsweredInOrder.recordSent h.answered ?_ _, ?_, ?_⟩
    -- The error answers everything that has been read.
    · intro hcon p hp
      exact (h.early hcon p hp).1.trans (Nat.sub_le _ _)
    · -- The connection is shut down, so nothing is sent any more.
      intro hcon
      exact absurd hcon (sendParseError_not_connected _ _ _)
    · intro r hr
      exact (h.taken r hr).trans hpos
  | dispatch d hd =>
    exact h.dispatch (HttpContext.drives_completed_spec hd).2.1 hturn calls

theorem Ordered.complete {k : ℕ} {r : AsyncResponder} (h : s.Ordered)
    (hk : s.responders[k]? = some r) (hturn : ∀ r' ∈ s.responders, r.position ≤ r'.position)
    (hcon : s.tcp.state = .kConnected) (response : HttpResponse) (calls : SendCalls) :
    ({ s with responders := s.responders.eraseIdx k }.sendResponse r.position response
      calls).Ordered := by
  have hmem : r ∈ s.responders := List.mem_of_getElem? hk
  have hle : ∀ p ∈ s.sent.map Prod.fst, p ≤ r.position :=
    fun p hp => (h.early hcon p hp).2 r hmem
  refine ⟨AnsweredInOrder.recordSent h.answered (fun _ => hle) _, ?_, ?_⟩
  · intro _ p hp
    have hple : p ≤ r.position := by
      rcases mem_recordSent hp with rfl | hp
      · exact le_rfl
      · exact hle p hp
    refine ⟨hple.trans (h.taken r hmem), ?_⟩
    intro r' hr'
    -- The others that wait are of later requests.
    exact hple.trans (hturn r' (List.mem_of_mem_eraseIdx hr'))
  · intro r' hr'
    exact h.taken r' (List.mem_of_mem_eraseIdx hr')

theorem Ordered.step {e : ServerEvent} (h : s.Ordered)
    (hs : Guarded InTurn HttpConnection.step s e s') : s'.Ordered := by
  obtain ⟨hturn, hs⟩ := hs
  cases eventMove_of_step hs with
  | @read bytes t hidle hne =>
    refine ⟨h.answered, ?_, ?_⟩
    · rw [position_read]
      exact h.early
    · rw [position_read]
      exact h.taken
  | round hin hm => exact h.round hturn hm
  | dropped hidle hk =>
    refine ⟨h.answered, ?_, ?_⟩
    · intro hcon p hp
      obtain ⟨hple, hwait⟩ := h.early hcon p hp
      refine ⟨hple, ?_⟩
      intro r hr
      exact hwait r (List.mem_of_mem_eraseIdx hr)
    · intro r hr
      exact h.taken r (List.mem_of_mem_eraseIdx hr)
  | completed response hidle hk hcon => exact h.complete hk (hturn _ hk) hcon response _
  | handleWrite =>
    refine ⟨h.answered, ?_, h.taken⟩
    intro hcon
    exact h.early ((s.tcp.handleWrite_state _ _).symm.trans hcon)
  | close => exact ⟨h.answered, fun hcon => by contradiction, h.taken⟩

theorem ordered_established (limits : HttpLimits) : (established limits).Ordered where
  answered := List.Pairwise.nil
  early _ p hp := by simp [established] at hp
  taken r hr := by simp [established] at hr

/-- As long as the responders are used in turn, and before the next synchronous handler
runs, the responses are sent in the order of the requests. -/
theorem responses_in_order {events : List ServerEvent}
    (h : Run (Guarded InTurn step) (established limits) events s) : s.AnsweredInOrder := by
  have hordered : s.Ordered := h.invariant (fun _ _ _ => Ordered.step) (ordered_established limits)
  exact hordered.answered

instance (s : HttpConnection) : Decidable s.AnsweredInOrder :=
  inferInstanceAs (Decidable (List.Pairwise _ _))

instance (s : HttpConnection) (e : ServerEvent) : Decidable (s.InTurn e) :=
  match e with
  | .round _ (some _) _ => inferInstanceAs (Decidable (_ → _))
  | .complete k _ _ =>
    inferInstanceAs (Decidable (∀ r ∈ s.responders[k]?, ∀ r' ∈ s.responders, _))
  | .round _ none _ => .isTrue trivial
  | .read .. => .isTrue trivial
  | .handleWrite .. => .isTrue trivial
  | .close => .isTrue trivial

/-- An asynchronous request, its response, and then a synchronous one. -/
theorem responses_in_order_of_two :
    ∃ events s, Run (Guarded InTurn step) (established {}) events s ∧ s.sent.length = 2 ∧
      s.AnsweredInOrder := by
  let events : List ServerEvent := [.read getRequest 0, .round 9 (some asyncDispatch) plainCalls,
    .complete 0 (some { closeConnection := false }) plainCalls, .read getRequest 1,
    .round 9 (some plainDispatch) plainCalls]
  let s := (Runs.replay InTurn next (established {}) events).get (by decide)
  have hrun : Run (Guarded InTurn step) (established {}) events s :=
    Runs.run_of_replay (Option.some_get _).symm
  exact ⟨events, s, hrun, by decide, responses_in_order hrun⟩

/-- The second request is answered at once, and then the responder of the first is used. -/
theorem asynchronous_response_overtaken :
    ∃ events s, Run step (established {}) events s ∧ s.tcp.state = .kConnected ∧
      s.sent.length = 2 ∧ ¬s.AnsweredInOrder := by
  let events : List ServerEvent := [.read getRequest 0, .round 9 (some asyncDispatch) plainCalls,
    .read getRequest 1, .round 9 (some plainDispatch) plainCalls, .round 9 none plainCalls,
    .complete 0 (some { closeConnection := false }) plainCalls]
  let s := (Runs.replay (fun _ _ => True) next (established {}) events).get (by decide)
  have hrun : Run step (established {}) events s :=
    (Runs.run_of_replay (Option.some_get _).symm).unguarded
  exact ⟨events, s, hrun, by decide, by decide, by decide⟩

end JingjieAR.HttpConnection
