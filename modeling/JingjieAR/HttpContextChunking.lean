import JingjieAR.HttpContextRun

/-! The parser does not see how the stream was cut into chunks. The delicate case is
a line that is too long before its end has arrived: with the end in sight the check
counts two bytes more, and must reject the same lines. -/
namespace JingjieAR.HttpContext

open Incremental (Move Verdict Stable feed)

abbrev failureCode (e : HttpContext × Bytes) : ParseError := e.1.error

theorem lineMove_advance_append {c c' : HttpContext} {buf rest : Bytes} (more : Bytes)
    (h : LineMove c buf (.advance c' rest)) :
    LineMove c (buf++more) (.advance c' (rest++more)) := by
  cases h with
  | requestLine hs hn hfit hok =>
    simp only [List.append_assoc]
    exact .requestLine hs hn hfit hok
  | header hs hl hfit =>
    simp only [List.append_assoc]
    exact .header hs hl hfit
  | headersEnd hs hfit hend =>
    rw [List.append_assoc]
    exact .headersEnd hs hfit hend
  | body hs hlen =>
    rw [List.append_assoc]
    exact .body hs hlen

/-- A line found only after more bytes have come is at least as long as what was
there before, line end included. -/
theorem long_line_of_append {buf more : Bytes} {n : ℕ} (limit used : ℕ) (hn : findCRLF buf = none)
    (hbig : limit < used+buf.length) (hpos : findCRLF (buf++more) = some n) :
    limit < used+(((buf++more).take n).length+2) := by
  have hle := findCRLF_append_of_none hn hpos
  have hlen := findCRLF_add_two_le hpos
  rw [List.length_take_of_le (by omega)]
  omega

theorem lineMove_fail_append {c : HttpContext} {buf : Bytes} {e : HttpContext × Bytes}
    (more : Bytes) (h : LineMove c buf (.fail e)) :
    ∃ e', LineMove c (buf++more) (.fail e') ∧ failureCode e' = failureCode e := by
  cases h with
  | requestLineUnfinished hs hn hbig =>
    cases hpos : findCRLF (buf++more) with
    | none =>
      exact ⟨_, .requestLineUnfinished hs hpos (by rw [List.length_append]; omega), rfl⟩
    | some n =>
      obtain ⟨hsplit, hline⟩ := findCRLF_some_split hpos
      rw [hsplit]
      have hlong := long_line_of_append c.limits.maxRequestLineBytes 0 hn (by omega) hpos
      exact ⟨_, .requestLineLong hs hline (by omega), rfl⟩
  | requestLineLong hs hn hbig =>
    simp only [List.append_assoc]
    exact ⟨_, .requestLineLong hs hn hbig, rfl⟩
  | requestLineBad hs hn hfit hbad =>
    simp only [List.append_assoc]
    exact ⟨_, .requestLineBad hs hn hfit hbad, rfl⟩
  | headersUnfinished hs hn hbig =>
    cases hpos : findCRLF (buf++more) with
    | none =>
      exact ⟨_, .headersUnfinished hs hpos (by rw [List.length_append]; omega), rfl⟩
    | some n =>
      obtain ⟨hsplit, hline⟩ := findCRLF_some_split hpos
      rw [hsplit]
      exact ⟨_, .headerLong hs hline (long_line_of_append _ _ hn hbig hpos), rfl⟩
  | headerLong hs hn hbig =>
    simp only [List.append_assoc]
    exact ⟨_, .headerLong hs hn hbig, rfl⟩
  | headerNoColon hs hn hne hfit hbad =>
    simp only [List.append_assoc]
    exact ⟨_, .headerNoColon hs hn hne hfit hbad, rfl⟩
  | headerRefused hs hn hne hfit hfield hbad =>
    simp only [List.append_assoc]
    exact ⟨_, .headerRefused hs hn hne hfit hfield hbad, rfl⟩
  | lengthRefused hs hfit hend =>
    rw [List.append_assoc]
    exact ⟨_, .lengthRefused hs hfit hend, rfl⟩

/-- No step of the parser is undone or changed by bytes that arrive behind it. -/
theorem lineStep_stable : Stable lineStep failureCode where
  advance more h := by
    rw [lineStep_iff] at h ⊢
    exact lineMove_advance_append more h
  done more h := by
    rw [lineStep_iff] at h ⊢
    cases h with
    | complete hs => exact .complete hs
  fail more h := by
    rw [lineStep_iff] at h
    obtain ⟨e', he', hc⟩ := lineMove_fail_append more h
    exact ⟨e', (lineStep_iff _ _ _).mpr he', hc⟩

theorem run_new_nil (limits : HttpLimits) : run (new limits) [] = .waiting (new limits) [] :=
  run_eq_iff.mpr (.wait ((lineStep_iff _ _ _).mpr (.requestLineWait rfl rfl (Nat.zero_le _))))

/-- A fresh context is given the chunks one after another and run after each. -/
def runChunks (limits : HttpLimits) (chunks : List Bytes) : Outcome :=
  chunks.foldl (feed run) (.waiting (new limits) [])

/-- However the stream is cut, the parser ends with the same error code, or in the
same waiting state with the same unread bytes, or with the same request and the
same remainder. -/
theorem runChunks_eq_run (limits : HttpLimits) (chunks : List Bytes) :
    (runChunks limits chunks).mapError failureCode =
      (run (new limits) chunks.flatten).mapError failureCode := by
  -- The first run, on no bytes at all, leaves the fresh context as it is.
  have h := Incremental.feed_chunks_eq_run lineStep_stable drives_run (new limits) [] chunks
  rwa [run_new_nil, List.nil_append] at h

end JingjieAR.HttpContext
