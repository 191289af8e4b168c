import JingjieAR.LogFiles
import Mathlib.Algebra.Order.Ring.Int

/-! What a log file does in time when the clock does not go back: how long it takes records after
its day is over, and how long what was written may wait for the disk. -/
namespace JingjieAR.LogFile

open Runs

variable {timebuf : ℤ → Bytes} {s s' : LogFile} {now rollNow : ℤ} {data : Bytes}
  {f f₁ : FileUtil} {r : LogRecord} {s₂ : LogFile}

theorem period_mono {a b : ℤ} (ha : 0 ≤ a) (h : a ≤ b) : period a ≤ period b := by
  unfold period
  rw [Int.tdiv_eq_ediv_of_nonneg ha, Int.tdiv_eq_ediv_of_nonneg (ha.trans h)]
  unfold kRollPerSeconds
  omega

/-- The records that came to the file when its day was over. -/
def late (records : List LogRecord) (opened : ℤ) : ℕ :=
  records.countP (fun r => r.opened = opened ∧ period r.now ≠ period opened)

theorem late_append (records records' : List LogRecord) (opened : ℤ) :
    late (records++records') opened = late records opened+late records' opened :=
  List.countP_append

theorem late_singleton_le (r : LogRecord) (opened : ℤ) : late [r] opened ≤ 1 :=
  List.countP_le_length

theorem late_of_ne {records : List LogRecord} {opened : ℤ}
    (h : ∀ r ∈ records, r.opened ≠ opened) : late records opened = 0 :=
  List.countP_eq_zero.mpr (fun r hr hlate => h r hr (of_decide_eq_true hlate).1)

theorem late_singleton_of_period {opened : ℤ} (h : period r.now = period opened) :
    late [r] opened = 0 := by
  refine List.countP_eq_zero.mpr (fun r' hr' hlate => ?_)
  obtain rfl := List.mem_singleton.mp hr'
  exact (of_decide_eq_true hlate).2 h

/-- What a file may get after its day. -/
def lateBound (checkEveryN count₀ : ℤ) : ℤ := max 1 (checkEveryN-min count₀ 0)

/-- The count is at least as high as the number of late records of this file, and late ones are
there only until the count says that the day is to be looked at. -/
structure Daily (checkEveryN count₀ : ℤ) (s : LogFile) : Prop where
  same : s.checkEveryN = checkEveryN
  pos : 0 < s.lastRoll
  clock : s.lastRoll ≤ s.clock
  startOfPeriod : s.startOfPeriod = period s.lastRoll
  low : min count₀ 0 ≤ s.count
  current : late s.records s.lastRoll = 0 ∨ s.count < checkEveryN ∧
    late s.records s.lastRoll ≤ s.count-min count₀ 0 ∧ period s.clock ≠ period s.lastRoll
  past : ∀ opened, opened < s.lastRoll → late s.records opened ≤ lateBound checkEveryN count₀
  records : ∀ r ∈ s.records, r.opened ≤ s.lastRoll

variable {checkEveryN count₀ : ℤ}

theorem Daily.settles (h : Daily checkEveryN count₀ s) (hs : Settles s s') :
    Daily checkEveryN count₀ s' := by
  rw [hs.same]
  exact ⟨h.same, h.pos, h.clock, h.startOfPeriod, h.low, h.current, h.past, h.records⟩

/-- The record is late for the file only if the day is over at the end of the step. -/
theorem Daily.late_logged (h : Daily checkEveryN count₀ s)
    (ha : Appends timebuf s data now rollNow f f₁ r s₂ s') (hnow : s.clock ≤ now)
    (hrollNow : now ≤ rollNow) :
    late (s.records++[r]) s.lastRoll = 0 ∨
      late (s.records++[r]) s.lastRoll ≤ s.count+1-min count₀ 0 ∧
        (late s.records s.lastRoll = 0 ∨ s.count < checkEveryN) ∧
        late (s.records++[r]) s.lastRoll ≤ late s.records s.lastRoll+1 ∧
        period rollNow ≠ period s.lastRoll ∧ period now ≠ period s.lastRoll := by
  obtain ⟨hopened, -, -, hrnow, -⟩ := ha.record
  have hpos := h.pos
  have hclock := h.clock
  have hlow := h.low
  have hone := late_singleton_le r s.lastRoll
  have hmono := period_mono hpos.le (hclock.trans hnow)
  have hmono' := period_mono (hpos.le.trans (hclock.trans hnow)) hrollNow
  rw [late_append]
  by_cases hday : period now = period s.lastRoll
  · -- No record before was late either.
    refine .inl ?_
    have hnew : late [r] s.lastRoll = 0 := late_singleton_of_period (by rw [hrnow, hday])
    rcases h.current with hzero | ⟨-, -, hover⟩
    · omega
    · have hbetween := period_mono (hpos.le.trans hclock) hnow
      have hstart := period_mono hpos.le hclock
      omega
  · refine .inr ⟨?_, ?_, by omega, by omega, hday⟩
    · rcases h.current with hzero | ⟨-, hle, -⟩ <;> omega
    · rcases h.current with hzero | ⟨hlt, -, -⟩
      · exact .inl hzero
      · exact .inr hlt

theorem Daily.late_logged_le (h : Daily checkEveryN count₀ s)
    (ha : Appends timebuf s data now rollNow f f₁ r s₂ s') (hnow : s.clock ≤ now)
    (hrollNow : now ≤ rollNow) :
    late (s.records++[r]) s.lastRoll ≤ lateBound checkEveryN count₀ := by
  unfold lateBound
  rcases h.late_logged ha hnow hrollNow with hzero | ⟨hle, hbefore, hone, -, -⟩ <;> omega

theorem Daily.appends (h : Daily checkEveryN count₀ s)
    (ha : Appends timebuf s data now rollNow f f₁ r s₂ s') (hnow : s.clock ≤ now)
    (hrollNow : now ≤ rollNow) : Daily checkEveryN count₀ s' := by
  obtain ⟨hopened, -, -, -, hrrollNow⟩ := ha.record
  have hpos := h.pos
  have hclock := h.clock
  have hlow := h.low
  have hlate := h.late_logged ha hnow hrollNow
  have hrecords : ∀ r' ∈ s.records++[r], r'.opened ≤ s.lastRoll := by
    intro r' hr'
    rcases List.mem_append.mp hr' with hmem | hmem
    · exact h.records r' hmem
    · obtain rfl := List.mem_singleton.mp hmem
      exact hopened.le
  have hpast (opened : ℤ) (hlt : opened < s.lastRoll) :
      late (s.records++[r]) opened ≤ lateBound checkEveryN count₀ := by
    have hold := h.past opened hlt
    have hnew : late [r] opened = 0 := by
      refine late_of_ne (fun r' hr' => ?_)
      obtain rfl := List.mem_singleton.mp hr'
      omega
    rw [late_append]
    omega
  refine Daily.settles (s := s₂) ?_ ha.settles
  cases ha.checked with
  | tooSoon count hcount hsoon =>
    have hsoon' : rollNow ≤ s.lastRoll := hsoon
    -- The clock has not moved since the file was opened, so the day is not over.
    have hzero : late (s.records++[r]) s.lastRoll = 0 := by
      rcases hlate with hzero | ⟨-, -, -, hover, -⟩
      · exact hzero
      · exact absurd (congrArg period (show rollNow = s.lastRoll by omega)) hover
    refine ⟨h.same, hpos, ?_, h.startOfPeriod, ?_, .inl hzero, hpast, hrecords⟩
    · change s.lastRoll ≤ r.rollNow
      omega
    · change min count₀ 0 ≤ count
      rcases hcount with rfl | rfl
      · change min count₀ 0 ≤ s.count+1
        omega
      · omega
  | rolled count hcount hlater =>
    have hlater' : s.lastRoll < rollNow := hlater
    rw [rollFile, if_pos hlater]
    refine ⟨h.same, hpos.trans hlater', hrrollNow.ge, rfl, ?_, .inl ?_, fun opened hlt => ?_,
      fun r' hr' => (hrecords r' hr').trans hlater'.le⟩
    · change min count₀ 0 ≤ count
      rcases hcount with rfl | rfl
      · change min count₀ 0 ≤ s.count+1
        omega
      · omega
    · exact late_of_ne (fun r' hr' => ((hrecords r' hr').trans_lt hlater').ne)
    · -- The file that is left behind joins the earlier ones.
      rcases lt_trichotomy opened s.lastRoll with hbefore | rfl | hafter
      · exact hpast opened hbefore
      · exact h.late_logged_le ha hnow hrollNow
      · have hnone : late (s.records++[r]) opened = 0 :=
          late_of_ne (fun r' hr' => ((hrecords r' hr').trans_lt hafter).ne)
        change (late (s.records++[r]) opened : ℤ) ≤ _
        unfold lateBound
        omega
  | kept count hcount _ =>
    have hclock' : s.lastRoll ≤ r.rollNow := by omega
    -- The day was not looked at, or it is not over.
    rcases hcount with ⟨rfl, hbelow⟩ | ⟨rfl, hday⟩
    · refine ⟨h.same, hpos, hclock', h.startOfPeriod, ?_, ?_, hpast, hrecords⟩
      · change min count₀ 0 ≤ s.count+1
        omega
      · rcases hlate with hzero | ⟨hle, -, -, hover, -⟩
        · exact .inl hzero
        · refine .inr ⟨h.same ▸ hbelow, hle, ?_⟩
          change period r.rollNow ≠ period s.lastRoll
          rw [hrrollNow]
          exact hover
    · refine ⟨h.same, hpos, hclock', h.startOfPeriod, min_le_right _ _, .inl ?_, hpast, hrecords⟩
      rcases hlate with hzero | ⟨-, -, -, -, hover⟩
      · exact hzero
      · exact absurd (hday.trans h.startOfPeriod) hover

/-- What the library holds back belongs to records that came since the last flush. -/
structure Prompt (s : LogFile) : Prop where
  clock : s.lastFlush ≤ s.clock
  held : ∃ old recent, s.records = old++recent ∧ (∀ r ∈ recent, s.lastFlush ≤ r.now) ∧
    ∀ f, s.file = some f → f.buffer <:+ recent.flatMap LogRecord.taken ∧
      ∀ r ∈ recent, r.fileName = f.fileName

/-- Nothing is held back. -/
theorem Prompt.of_nil (hclock : s.lastFlush ≤ s.clock)
    (hfile : ∀ f, s.file = some f → f.buffer = []) : s.Prompt := by
  refine ⟨hclock, s.records, [], (List.append_nil _).symm, ?_, fun f hf => ⟨?_, ?_⟩⟩
  · exact List.forall_mem_nil _
  · rw [hfile f hf]
    exact List.nil_suffix
  · exact List.forall_mem_nil _

theorem Prompt.settles (h : s.Prompt) (hs : Settles s s') (hflush : s'.lastFlush = s.lastFlush) :
    s'.Prompt := by
  obtain ⟨old, recent, hrecords, hsince, hheld⟩ := h.held
  have hclock : s'.clock = s.clock := by rw [hs.same]
  refine ⟨by rw [hflush, hclock]; exact h.clock, old, recent, ?_, ?_, ?_⟩
  · rw [records_settles hs, hrecords]
  · rw [hflush]
    exact hsince
  · intro f' hf'
    obtain ⟨f, hf, hname, -, hsuffix⟩ := hs.file f' hf'
    obtain ⟨hbuffer, hnames⟩ := hheld f hf
    exact ⟨hsuffix.trans hbuffer, fun r hr => (hnames r hr).trans hname.symm⟩

theorem Prompt.logged (h : s.Prompt) (ha : Appends timebuf s data now rollNow f f₁ r s₂ s')
    (hnow : s.clock ≤ now) (hrollNow : now ≤ rollNow) : (s.logged f₁ r).Prompt := by
  obtain ⟨-, hfile, -, hrnow, hrrollNow⟩ := ha.record
  obtain ⟨old, recent, hrecords, hsince, hheld⟩ := h.held
  have hclock := h.clock
  refine ⟨?_, old, recent++[r], ?_, ?_, ?_⟩
  · change s.lastFlush ≤ r.rollNow
    omega
  · change s.records++[r] = old++(recent++[r])
    rw [hrecords, List.append_assoc]
  · intro r' hr'
    rcases List.mem_append.mp hr' with hmem | hmem
    · exact hsince r' hmem
    · obtain rfl := List.mem_singleton.mp hmem
      change s.lastFlush ≤ r'.now
      omega
  · intro f' hf'
    obtain rfl := Option.some.inj hf'
    obtain ⟨hbuffer, hnames⟩ := hheld f ha.file
    constructor
    · obtain ⟨before, hbefore⟩ := hbuffer
      rw [ha.buffer, List.flatMap_append, List.flatMap_singleton, ← hbefore, List.append_assoc]
      exact List.suffix_append _ _
    · intro r' hr'
      rw [ha.fileName]
      rcases List.mem_append.mp hr' with hmem | hmem
      · exact hnames r' hmem
      · obtain rfl := List.mem_singleton.mp hmem
        exact hfile

theorem Prompt.appends (h : s.Prompt) (ha : Appends timebuf s data now rollNow f f₁ r s₂ s')
    (hnow : s.clock ≤ now) (hrollNow : now ≤ rollNow) :
    s'.Prompt ∧ (now ≤ s'.lastFlush+s'.flushInterval ∨
      ∀ f, s'.file = some f → f.buffer = []) := by
  have hlogged := h.logged ha hnow hrollNow
  have hrrollNow : r.rollNow = rollNow := ha.record.2.2.2.2
  have hchecked : s₂.Prompt ∧ s₂.clock = rollNow := by
    cases ha.checked with
    | tooSoon count _ _ => exact ⟨⟨hlogged.clock, hlogged.held⟩, hrrollNow⟩
    | rolled count _ hlate =>
      rw [rollFile, if_pos hlate]
      refine ⟨.of_nil hrrollNow.ge (fun f hf => ?_), hrrollNow⟩
      obtain rfl := Option.some.inj hf
      rfl
    | kept count _ _ => exact ⟨⟨hlogged.clock, hlogged.held⟩, hrrollNow⟩
  -- The last flush is recent enough, or this call flushes.
  rcases ha.flushed with ⟨hrecent, rfl⟩ | ⟨-, rfl⟩
  · exact ⟨hchecked.1, .inl (by omega)⟩
  · have hnone (f : FileUtil) (hf : ({ s₂ with lastFlush := now }.flush).file = some f) :
        f.buffer = [] := by
      obtain ⟨f', -, rfl⟩ := Option.map_eq_some_iff.mp hf
      rfl
    refine ⟨.of_nil ?_ hnone, .inr hnone⟩
    change now ≤ s₂.clock
    omega

/-- The clock has not gone back since the file was opened. -/
structure Timely (checkEveryN count₀ : ℤ) (s : LogFile) : Prop where
  daily : Daily checkEveryN count₀ s
  prompt : s.Prompt

theorem Timely.step {e : LogFileEvent} (h : Timely checkEveryN count₀ s) (hon : s.OnTime e)
    (hs : s.Step timebuf e s') : Timely checkEveryN count₀ s' := by
  unfold Step next at hs
  cases e with
  | append data results now rollNow =>
    obtain ⟨f, f₁, r, s₂, ha, -⟩ := appendInlock_spec hs
    exact ⟨h.daily.appends ha hon.1 hon.2, (h.prompt.appends ha hon.1 hon.2).1⟩
  | flush =>
    obtain rfl := Option.some.inj hs
    exact ⟨h.daily.settles (settles_flush s), h.prompt.settles (settles_flush s) rfl⟩
  | drain n =>
    obtain rfl := Option.some.inj hs
    exact ⟨h.daily.settles (settles_drain s n), h.prompt.settles (settles_drain s n) rfl⟩

section Opened

variable {basename : Bytes} {rollsize flushInterval : ℤ} {disk : Bytes → Bytes}
  {es : List LogFileEvent}

theorem timely_opened (hnow : 0 < now) : Timely checkEveryN count₀
    (opened timebuf basename rollsize flushInterval checkEveryN count₀ disk now) := by
  unfold opened rollFile
  rw [if_pos hnow]
  refine ⟨⟨rfl, hnow, le_rfl, rfl, min_le_left _ _, .inl rfl, fun opened _ => ?_, ?_⟩, ?_⟩
  · change (0 : ℤ) ≤ lateBound checkEveryN count₀
    unfold lateBound
    omega
  · exact List.forall_mem_nil _
  · refine .of_nil le_rfl (fun f hf => ?_)
    obtain rfl := Option.some.inj hf
    rfl

theorem timely_run (hnow : 0 < now)
    (hr : Run (Guarded OnTime (Step timebuf)) (opened timebuf basename rollsize flushInterval
      checkEveryN count₀ disk now) es s) : Timely checkEveryN count₀ s :=
  hr.invariant (fun _ _ _ h hs => Timely.step h hs.1 hs.2) (timely_opened hnow)

/-- When the clock does not go back, a file gets at most so many records after its day: as many as
are between two checks, and more only when the count was negative to begin with. -/
theorem late_bounded (hnow : 0 < now)
    (hr : Run (Guarded OnTime (Step timebuf)) (opened timebuf basename rollsize flushInterval
      checkEveryN count₀ disk now) es s) (opened : ℤ) :
    late s.records opened ≤ max 1 (checkEveryN-min count₀ 0) := by
  have hdaily := (timely_run hnow hr).daily
  rcases lt_trichotomy opened s.lastRoll with hbefore | rfl | hafter
  · exact hdaily.past opened hbefore
  · rcases hdaily.current with hzero | ⟨hlt, hle, -⟩ <;> omega
  · have hnone : late s.records opened = 0 :=
      late_of_ne (fun r hr => ((hdaily.records r hr).trans_lt hafter).ne)
    omega

/-- The last record comes when the file was not flushed for four seconds. -/
theorem rolledLog_onTime : ∃ s s',
    Run (Guarded OnTime (Step (fun now => [now.toNat.toUInt8]))) smallFiles rolledLog s ∧
    s.OnTime (.append [5] [{ n := 1 }] 107 107) ∧
    s.Step (fun now => [now.toNat.toUInt8]) (.append [5] [{ n := 1 }] 107 107) s' :=
  ⟨_, _, .cons ⟨⟨by decide, by decide⟩, rfl⟩ <| .cons ⟨⟨by decide, by decide⟩, rfl⟩ <|
    .cons ⟨⟨by decide, by decide⟩, rfl⟩ <| .nil _, ⟨by decide, by decide⟩, rfl⟩

theorem late_bounded_rolled : ∃ s, Run (Guarded OnTime (Step (fun now => [now.toNat.toUInt8])))
    smallFiles rolledLog s ∧ late s.records 100 ≤ (2 : ℤ) := by
  obtain ⟨s, -, hr, -, -⟩ := rolledLog_onTime
  exact ⟨s, hr, late_bounded (by decide) hr 100⟩

end Opened

end JingjieAR.LogFile
