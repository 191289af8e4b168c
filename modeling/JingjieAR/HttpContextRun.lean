import JingjieAR.HttpContextLines

/-! `run` iterates the loop body of `parseRequest` and stops where it waits. It
drives the line machine to its end; `parseRequest` itself gets there only when it
need not wait for a header line or for body bytes. -/
namespace JingjieAR.HttpContext

open Loop (Iter)
open Incremental (Move Verdict Drives Advances)

/-- How a run of the loop body ends: waiting for bytes, with a complete request,
or with an error; each with the context and the unread bytes it leaves. -/
abbrev Outcome := Verdict HttpContext UInt8 (HttpContext × Bytes)

def stagesLeft : ParseState → ℕ
  | .kExpectRequestLine => 3
  | .kExpectHeaders => 2
  | .kExpectBody => 1
  | .kGotCompleteRequest => 0

/-- Stages still to go plus bytes still to read. -/
def workLeft (s : HttpContext × Bytes) : ℕ := stagesLeft s.1.state+s.2.length

theorem lineStep_workLeft {c c' : HttpContext} {buf buf' : Bytes}
    (h : lineStep c buf = .advance c' buf') : workLeft (c', buf') < workLeft (c, buf) := by
  -- Either a stage is left or a line is taken; the body may be empty, but then a stage is left.
  rw [lineStep_iff] at h
  cases h with
  | requestLine hs => simp [workLeft, stagesLeft, hs]; omega
  | header hs => simp [workLeft, stagesLeft, hs, storeField, crlf]; omega
  | headersEnd hs hfit hend =>
    have hstate := endOfHeaders_spec c.countBlank
    rw [hend] at hstate
    rcases hstate with ⟨-, hb | hb⟩ | ⟨hf, -⟩
    · simp [workLeft, stagesLeft, hs, show c'.state = _ from hb, crlf]; omega
    · simp [workLeft, stagesLeft, hs, show c'.state = _ from hb, crlf]; omega
    · simp at hf
  | body hs => simp [workLeft, stagesLeft, hs, takeBody]; omega

theorem advances_workLeft {s s' : HttpContext × Bytes} (h : Advances lineStep s s') :
    s' = s ∨ workLeft s' < workLeft s := by
  induction h with
  | refl => exact .inl rfl
  | tail _ hm ih =>
    have hlt := lineStep_workLeft hm
    rcases ih with rfl | ih
    · exact .inr hlt
    · exact .inr (hlt.trans ih)

theorem headerRound_ret_true {c c' : HttpContext} {buf buf' : Bytes}
    (hs : c.state = .kExpectHeaders) (h : headerRound (c, buf) = .ret (true, c', buf')) :
    (c' = c ∧ buf' = buf) ∨ c'.state ≠ .kExpectHeaders := by
  -- A return within the header state is the wait for a line end.
  by_cases hc : c'.state = .kExpectHeaders
  · have hwait : lineStep c buf = .wait := by simp [lineStep, hs, h, hc]
    cases (lineStep_iff _ _ _).mp hwait with
    | requestLineWait hs' => rw [hs] at hs'; contradiction
    | bodyWait hs' => rw [hs] at hs'; contradiction
    | headersWait _ hn hfit =>
      have hround : headerRound (c, buf) = .ret (true, c, buf) := by
        simp [headerRound, hn, exceedsLimit_iff, Nat.not_lt.mpr hfit]
      rw [h] at hround
      simp_all
  · exact .inr hc

theorem headerRound_next_state {c : HttpContext} {buf : Bytes} {s' : HttpContext × Bytes}
    (h : headerRound (c, buf) = .next s') : s'.1.state = c.state := by
  simp only [headerRound] at h
  split at h
  · split_ifs at h
  · split_ifs at h
    split at h
    · contradiction
    · split_ifs at h
      cases h
      rfl

/-- A successful `parseHeaders` is a sequence of line steps. -/
theorem advances_of_headers_true {s : HttpContext × Bytes} {c' : HttpContext} {buf' : Bytes}
    (h : Loop.Returns headerRound s (true, c', buf')) (hs : s.1.state = .kExpectHeaders) :
    Advances lineStep s (c', buf') ∧
      (c'.state = .kExpectHeaders → lineStep c' buf' = .wait) := by
  -- By induction on the rounds of `parseHeaders`: all but the last store a line.
  generalize hr : (true, c', buf') = r at h
  induction h with
  | @ret s r hb =>
    subst hr
    have hstep : lineStep s.1 s.2 =
        if c'.state = .kExpectHeaders then .wait else .advance c' buf' := by
      simp [lineStep, hs, hb]
    rcases headerRound_ret_true hs hb with ⟨rfl, rfl⟩ | hne
    · exact ⟨.refl, fun _ => by rw [hstep, if_pos hs]⟩
    · rw [if_neg hne] at hstep
      exact ⟨.single hstep, fun hc => absurd hc hne⟩
  | @next s s' r hb _ ih =>
    have hs' : s'.1.state = .kExpectHeaders := (headerRound_next_state hb).trans hs
    have hstep : lineStep s.1 s.2 = .advance s'.1 s'.2 := by simp [lineStep, hs, hb]
    obtain ⟨hadv, hwait⟩ := ih hs' hr
    exact ⟨.head hstep hadv, hwait⟩

theorem drives_of_headers_false {s : HttpContext × Bytes} {c' : HttpContext} {buf' : Bytes}
    (h : Loop.Returns headerRound s (false, c', buf')) (hs : s.1.state = .kExpectHeaders) :
    Drives lineStep s.1 s.2 (.failed (c'.defaultError, buf')) := by
  generalize hr : (false, c', buf') = r at h
  induction h with
  | @ret s r hb =>
    subst hr
    exact .fail (by simp [lineStep, hs, hb])
  | @next s s' r hb _ ih =>
    have hs' : s'.1.state = .kExpectHeaders := (headerRound_next_state hb).trans hs
    exact .advance (by simp [lineStep, hs, hb]) (ih hs' hr)

theorem parseHeaders_returns (c : HttpContext) (buf : Bytes) :
    Loop.Returns headerRound (c, buf) (parseHeaders c buf) :=
  Loop.returns_value headerRound_decreases (c, buf)

/-- A round of `parseRequest` that goes on is a sequence of line steps; if it has
changed nothing, the line machine waits. -/
theorem loopBody_next {c : HttpContext} {buf : Bytes} {s' : HttpContext × Bytes}
    (h : loopBody (c, buf) = .next s') :
    Advances lineStep (c, buf) s' ∧
      (s' = (c, buf) → lineStep c buf = .wait ∧
        (c.state = .kExpectHeaders ∨ c.state = .kExpectBody)) := by
  cases hs : c.state with
  | kExpectRequestLine =>
    have hstep : lineStep c buf = .advance s'.1 s'.2 := by simp [lineStep, hs, h]
    refine ⟨.single hstep, ?_⟩
    intro he
    have hlt := lineStep_workLeft hstep
    rw [show (s'.1, s'.2) = (c, buf) from he] at hlt
    omega
  | kExpectHeaders =>
    have hret := parseHeaders_returns c buf
    rcases hp : parseHeaders c buf with ⟨ok, c', buf'⟩
    rw [hp] at hret
    cases ok with
    | false => simp [loopBody, hs, hp] at h
    | true =>
      obtain rfl : (c', buf') = s' := by simpa [loopBody, hs, hp] using h
      -- The call of `parseHeaders` may have taken many lines; if none, it waits.
      obtain ⟨hadv, hwait⟩ := advances_of_headers_true hret hs
      refine ⟨hadv, ?_⟩
      intro he
      obtain ⟨rfl, rfl⟩ := Prod.mk.inj he
      exact ⟨hwait hs, .inl rfl⟩
  | kExpectBody =>
    by_cases hshort : buf.length < c.contentLength
    · obtain rfl : (c, buf) = s' := by simpa [loopBody, hs, parseBody, hshort] using h
      exact ⟨.refl, fun _ => ⟨by simp [lineStep, hs, hshort], .inr rfl⟩⟩
    · have hstep : lineStep c buf = .advance s'.1 s'.2 := by
        obtain rfl : (_, _) = s' := by simpa [loopBody, hs, parseBody, hshort] using h
        simp [lineStep, hs, parseBody, hshort]
      refine ⟨.single hstep, ?_⟩
      intro he
      have hlt := lineStep_workLeft hstep
      rw [show (s'.1, s'.2) = (c, buf) from he] at hlt
      omega
  | kGotCompleteRequest => simp [loopBody, hs] at h

theorem loopBody_ret_false {c c' : HttpContext} {buf buf' : Bytes}
    (h : loopBody (c, buf) = .ret (false, c', buf')) :
    Drives lineStep c buf (.failed (c', buf')) := by
  cases hs : c.state with
  | kExpectRequestLine => exact .fail (by simp [lineStep, hs, h])
  | kExpectHeaders =>
    have hret := parseHeaders_returns c buf
    rcases hp : parseHeaders c buf with ⟨ok, c₁, buf₁⟩
    rw [hp] at hret
    cases ok with
    | true => simp [loopBody, hs, hp] at h
    | false =>
      have he : c₁.defaultError = c' ∧ buf₁ = buf' := by simpa [loopBody, hs, hp] using h
      obtain ⟨rfl, rfl⟩ := he
      exact drives_of_headers_false hret hs
  | kExpectBody =>
    simp only [loopBody, hs, parseBody] at h
    split_ifs at h
  | kGotCompleteRequest => simp [loopBody, hs] at h

theorem loopBody_ret_true {c c' : HttpContext} {buf buf' : Bytes}
    (h : loopBody (c, buf) = .ret (true, c', buf')) :
    c' = c ∧ buf' = buf ∧ ((c.state = .kExpectRequestLine ∧ lineStep c buf = .wait) ∨
      c.state = .kGotCompleteRequest) := by
  cases hs : c.state with
  | kExpectRequestLine =>
    have hwait : lineStep c buf = .wait := by simp [lineStep, hs, h]
    cases (lineStep_iff _ _ _).mp hwait with
    | requestLineWait _ hn hfit =>
      have hround : loopBody (c, buf) = .ret (true, c, buf) := by
        simp [loopBody, hs, hn, Nat.not_lt.mpr hfit]
      rw [h] at hround
      simp_all
    | headersWait hs' => rw [hs] at hs'; contradiction
    | bodyWait hs' => rw [hs] at hs'; contradiction
  | kExpectHeaders =>
    simp only [loopBody, hs] at h
    split at h <;> simp at h
  | kExpectBody =>
    simp only [loopBody, hs] at h
    split at h <;> simp at h
  | kGotCompleteRequest => simp_all [loopBody]

/-- A round of `run`: the loop body, left also when it has changed nothing. -/
def runRound (s : HttpContext × Bytes) : Iter (HttpContext × Bytes) Outcome :=
  match loopBody s with
  | .ret (true, c, buf) => .ret (if c.gotAll then .completed c buf else .waiting c buf)
  | .ret (false, c, buf) => .ret (.failed (c, buf))
  | .next s' => if s' = s then .ret (.waiting s.1 s.2) else .next s'

theorem runRound_decreases : Loop.Decreases runRound workLeft := by
  intro s s' h
  obtain ⟨c, buf⟩ := s
  simp only [runRound] at h
  split at h
  · contradiction
  · contradiction
  · rename_i s₁ hb
    split_ifs at h with hne
    injection h with he
    subst he
    -- A round that has changed something has done work.
    exact (advances_workLeft (loopBody_next hb).1).resolve_left hne

/-- Iterate the loop body until the request is complete, an error is reported, or
a round changes neither the context nor the buffer. -/
def run (c : HttpContext) (buf : Bytes) : Outcome := Loop.value runRound_decreases (c, buf)

theorem drives_of_returns {s : HttpContext × Bytes} {v : Outcome}
    (h : Loop.Returns runRound s v) : Drives lineStep s.1 s.2 v := by
  induction h with
  | @ret s v hr =>
    simp only [runRound] at hr
    split at hr
    · rename_i c buf hb
      obtain ⟨rfl, rfl, ⟨hs, hwait⟩ | hs⟩ := loopBody_ret_true hb
      · obtain rfl : .waiting s.1 s.2 = v := by simpa [gotAll, hs] using hr
        exact .wait hwait
      · obtain rfl : .completed s.1 s.2 = v := by simpa [gotAll, hs] using hr
        exact .done (by simp [lineStep, hs])
    · rename_i c buf hb
      injection hr with hv
      exact hv ▸ loopBody_ret_false hb
    · rename_i s₁ hb
      split_ifs at hr with he
      injection hr with hv
      exact hv ▸ .wait ((loopBody_next hb).2 he).1
  | @next s s' v hr _ ih =>
    simp only [runRound] at hr
    split at hr
    · contradiction
    · contradiction
    · rename_i s₁ hb
      split_ifs at hr with hne
      injection hr with he
      subst he
      -- The line machine can take the whole round in its own steps.
      exact (Incremental.drives_advances_iff (loopBody_next hb).1).mpr ih

theorem drives_run (c : HttpContext) (buf : Bytes) : Drives lineStep c buf (run c buf) :=
  drives_of_returns (Loop.returns_value runRound_decreases (c, buf))

/-- The outcome of `run` is where the line machine stops. -/
theorem run_eq_iff {c : HttpContext} {buf : Bytes} {v : Outcome} :
    run c buf = v ↔ Drives lineStep c buf v :=
  ⟨fun h => h ▸ drives_run c buf, fun h => Incremental.drives_unique (drives_run c buf) h⟩

/-- What `parseRequest` answers when `run` has the outcome `v`: nothing at all if the
wait is for a header line or for the body. -/
def Answers : Outcome → Bool × HttpContext × Bytes → Prop
  | .waiting c buf, r => c.state = .kExpectRequestLine ∧ r = (true, c, buf)
  | .completed c buf, r => r = (true, c, buf)
  | .failed (c, buf), r => r = (false, c, buf)

theorem returns_iff_answers {s : HttpContext × Bytes} {v : Outcome}
    (h : Loop.Returns runRound s v) (r : Bool × HttpContext × Bytes) :
    Loop.Returns loopBody s r ↔ Answers v r := by
  induction h with
  | @ret s v hr =>
    simp only [runRound] at hr
    split at hr
    · rename_i c buf hb
      obtain ⟨rfl, rfl, ⟨hs, -⟩ | hs⟩ := loopBody_ret_true hb
      · obtain rfl : .waiting s.1 s.2 = v := by simpa [gotAll, hs] using hr
        rw [Loop.returns_ret_iff hb, Answers, and_iff_right hs, eq_comm]
      · obtain rfl : .completed s.1 s.2 = v := by simpa [gotAll, hs] using hr
        rw [Loop.returns_ret_iff hb, Answers, eq_comm]
    · rename_i c buf hb
      injection hr with hv
      rw [Loop.returns_ret_iff hb, ← hv, Answers, eq_comm]
    · -- Nothing has changed: the loop of the source goes round forever.
      rename_i s₁ hb
      split_ifs at hr with he
      injection hr with hv
      have hstate := ((loopBody_next hb).2 he).2
      rw [he] at hb
      refine iff_of_false (Loop.not_returns_of_stutter hb r) ?_
      rw [← hv]
      intro hans
      obtain ⟨hs, -⟩ := hans
      rcases hstate with h | h <;> (rw [hs] at h; contradiction)
  | @next s s' v hr _ ih =>
    simp only [runRound] at hr
    split at hr
    · contradiction
    · contradiction
    · rename_i s₁ hb
      split_ifs at hr with hne
      injection hr with he
      subst he
      exact (Loop.returns_next_iff hb).trans ih

/-- `parseRequest` against `run`. -/
theorem loopBody_returns_iff (c : HttpContext) (buf : Bytes) (r : Bool × HttpContext × Bytes) :
    Loop.Returns loopBody (c, buf) r ↔ Answers (run c buf) r :=
  returns_iff_answers (Loop.returns_value runRound_decreases (c, buf)) r

end JingjieAR.HttpContext
