import JingjieAR.HttpContextReturns

/-! The answers of `parseRequest` as its callers see them: what it has taken from the
buffer, and in which state it leaves the context. -/
namespace JingjieAR.HttpContext

open Incremental (Drives)

variable {c c' : HttpContext} {buf buf' : Bytes}

theorem stamp_stamp_new (limits : HttpLimits) (t t' : Timestamp) :
    ((new limits).stamp t).stamp t' = (new limits).stamp t' := rfl

theorem stamp_state (c : HttpContext) (t : Timestamp) : (c.stamp t).state = c.state := by
  unfold stamp
  split_ifs <;> rfl

theorem lineStep_advance_state (h : lineStep c buf = .advance c' buf') :
    c'.state ≠ .kExpectRequestLine := by
  cases (lineStep_iff _ _ _).mp h with
  | requestLine hs => simp
  | header hs => simp [storeField, hs]
  | body hs => simp [takeBody]
  | headersEnd hs hfit hend =>
    have hspec := endOfHeaders_spec c.countBlank
    rw [hend] at hspec
    rcases hspec with ⟨-, h | h⟩ | ⟨h, -⟩ <;> simp_all

/-- A step takes a line, or the body, which may be empty. -/
theorem lineStep_advance_length (h : lineStep c buf = .advance c' buf') :
    buf'.length ≤ buf.length ∧ (c.state ≠ .kExpectBody → buf'.length < buf.length) := by
  have hline (line : Bytes) : buf'.length ≤ (line++(crlf++buf')).length ∧
      (c.state ≠ .kExpectBody → buf'.length < (line++(crlf++buf')).length) :=
    ⟨(length_lt_line line buf').le, fun _ => length_lt_line line buf'⟩
  cases (lineStep_iff _ _ _).mp h with
  | requestLine => exact hline _
  | header => exact hline _
  | headersEnd => exact hline []
  | body hs => simp [hs]

theorem lineStep_advance_limits (h : lineStep c buf = .advance c' buf') : c'.limits = c.limits := by
  cases (lineStep_iff _ _ _).mp h with
  | requestLine => rfl
  | header => rfl
  | body => rfl
  | headersEnd hs hfit hend =>
    obtain ⟨-, ⟨-, hc⟩ | ⟨text, n, -, -, hc⟩⟩ := (endOfHeaders_true_iff _ _).mp hend
    · rw [hc]
      rfl
    · rw [hc]
      rfl

theorem drives_requestLine_waiting (h : Drives lineStep c buf (.waiting c' buf'))
    (hs' : c'.state = .kExpectRequestLine) :
    c' = c ∧ buf' = buf ∧ lineStep c buf = .wait := by
  cases h with
  | wait h => exact ⟨rfl, rfl, h⟩
  | advance h ht =>
    obtain ⟨q, hadv, hq⟩ := Incremental.drives_iff_advances ht
    have hv : c' = q.1 := by
      rcases hq with ⟨-, h⟩ | ⟨-, h⟩ | ⟨e, -, h⟩
      · injection h
      · contradiction
      · contradiction
    rw [hv] at hs'
    rcases hadv.cases_tail with rfl | ⟨p, -, hlast⟩
    · exact absurd hs' (lineStep_advance_state h)
    · exact absurd hs' (lineStep_advance_state hlast)

/-- A completed request has taken at least one line, unless only its body was missing. -/
theorem drives_completed_spec (h : Drives lineStep c buf (.completed c' buf')) :
    c'.state = .kGotCompleteRequest ∧ buf'.length ≤ buf.length ∧
      (c.state ≠ .kExpectBody → c.state ≠ .kGotCompleteRequest → buf'.length < buf.length) := by
  generalize hv : Incremental.Verdict.completed c' buf' = v at h
  induction h with
  | wait h => contradiction
  | fail h => contradiction
  | @advance c c₁ buf buf₁ v h _ ih =>
    obtain ⟨hstate, hle, -⟩ := ih hv
    obtain ⟨hle₁, hlt₁⟩ := lineStep_advance_length h
    refine ⟨hstate, hle.trans hle₁, ?_⟩
    intro hbody _
    calc buf'.length ≤ buf₁.length := hle
      _ < buf.length := hlt₁ hbody
  | done h =>
    injection hv with hc hb
    cases (lineStep_iff _ _ _).mp h with
    | complete hs => exact ⟨by rw [hc, hs], by rw [hb], fun _ hs' => absurd hs hs'⟩

theorem drives_completed_limits (h : Drives lineStep c buf (.completed c' buf')) :
    c'.limits = c.limits := by
  generalize hv : Incremental.Verdict.completed c' buf' = v at h
  induction h with
  | wait h => contradiction
  | fail h => contradiction
  | advance h _ ih => exact (ih hv).trans (lineStep_advance_limits h)
  | done h =>
    injection hv with hc
    rw [hc]

theorem defaultError_state (c : HttpContext) : c.defaultError.state = c.state := by
  unfold defaultError
  split_ifs <;> rfl

/-- A rejection comes from a line, never from the body. -/
theorem drives_failed_spec (h : Drives lineStep c buf (.failed (c', buf'))) :
    (c'.state = .kExpectRequestLine ∨ c'.state = .kExpectHeaders) ∧
      buf'.length ≤ buf.length := by
  generalize hv : Incremental.Verdict.failed (c', buf') = v at h
  induction h with
  | wait h => contradiction
  | done h => contradiction
  | advance h _ ih => exact ⟨(ih hv).1, (ih hv).2.trans (lineStep_advance_length h).1⟩
  | fail h =>
    injection hv with he
    subst he
    cases (lineStep_iff _ _ _).mp h with
    | requestLineUnfinished hs => exact ⟨.inl hs, le_rfl⟩
    | requestLineLong hs => exact ⟨.inl hs, le_rfl⟩
    | requestLineBad hs => exact ⟨.inl hs, le_rfl⟩
    | headersUnfinished hs => exact ⟨.inr hs, le_rfl⟩
    | headerLong hs => exact ⟨.inr hs, le_rfl⟩
    | headerNoColon hs => exact ⟨.inr ((defaultError_state _).trans hs), le_rfl⟩
    | headerRefused hs => exact ⟨.inr hs, le_rfl⟩
    | lengthRefused hs hfit hend =>
      rcases endOfHeaders_spec (countBlank _) with ⟨hok, -⟩ | ⟨-, -, hstate⟩
      · rw [hend] at hok
        contradiction
      · rw [hend] at hstate
        exact ⟨.inr (hstate.trans hs), (length_lt_line [] buf').le⟩

/-- The three answers: a rejection, an unfinished request line, a complete request. -/
theorem parseRequest_cases {fuel : ℕ} {t : Timestamp} {ok : Bool}
    (h : parseRequest fuel c buf t = some (ok, c', buf')) :
    (ok = false ∧ Drives lineStep (c.stamp t) buf (.failed (c', buf'))) ∨
      (ok = true ∧ c'.gotAll = false ∧ c' = c.stamp t ∧ buf' = buf ∧
        c.state = .kExpectRequestLine ∧ lineStep (c.stamp t) buf = .wait) ∨
      (ok = true ∧ c'.gotAll = true ∧ Drives lineStep (c.stamp t) buf (.completed c' buf')) := by
  have ha := (parseRequest_iff _ _ _ _).mp ⟨fuel, h⟩
  have hd := drives_run (c.stamp t) buf
  cases hv : run (c.stamp t) buf with
  | waiting c₁ buf₁ =>
    rw [hv] at ha hd
    obtain ⟨hs, he⟩ := ha
    simp only [Prod.mk.injEq] at he
    obtain ⟨rfl, rfl, rfl⟩ := he
    obtain ⟨rfl, rfl, hwait⟩ := drives_requestLine_waiting hd hs
    exact .inr (.inl ⟨rfl, by simp [gotAll, hs], rfl, rfl, (stamp_state c t).symm.trans hs, hwait⟩)
  | completed c₁ buf₁ =>
    rw [hv] at ha hd
    simp only [Answers, Prod.mk.injEq] at ha
    obtain ⟨rfl, rfl, rfl⟩ := ha
    exact .inr (.inr ⟨rfl, by simp [gotAll, (drives_completed_spec hd).1], hd⟩)
  | failed e =>
    rw [hv] at ha hd
    simp only [Answers, Prod.mk.injEq] at ha
    obtain ⟨rfl, rfl, rfl⟩ := ha
    exact .inl ⟨rfl, hd⟩

end JingjieAR.HttpContext
