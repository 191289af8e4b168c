import JingjieAR.LogFileModel
import Mathlib.Algebra.BigOperators.Group.List.Basic
import Mathlib.Algebra.Order.Group.Int
import Mathlib.Algebra.Ring.Nat
import Mathlib.Data.List.Forall2
import Mathlib.Data.List.Infix
import Mathlib.Tactic.Common

/-! What becomes of the records of a log file that rolls: none is lost or split, a file that is
full or of an earlier day is left behind, and what was written is on the disk in time. -/
namespace JingjieAR

/-- The library took some of the data in order, and that is counted but for what the call that
failed took. -/
theorem FileUtil.appendFrom_spec {f f' : FileUtil} {remain : Bytes} {writen : ℕ}
    {results : List FwriteResult} (h : f.appendFrom remain writen results = some f') :
    f'.fileName = f.fileName ∧ ∃ taken k, f'.buffer = f.buffer++taken ∧ taken <+: remain ∧
      f'.writtenBytes = f.writtenBytes+writen+k ∧ k ≤ taken.length ∧
      ((∀ r ∈ results, r.failed = false) → taken = remain ∧ k = remain.length) := by
  induction results generalizing f remain writen with
  | nil =>
    simp only [appendFrom] at h
    split_ifs at h with hdone
    obtain rfl := Option.some.inj h
    subst hdone
    exact ⟨rfl, [], 0, (List.append_nil _).symm, List.nil_prefix, rfl, Nat.le_refl 0,
      fun _ => ⟨rfl, rfl⟩⟩
  | cons r results ih =>
    simp only [appendFrom] at h
    split_ifs at h with hdone hmany hfailed
    · obtain rfl := Option.some.inj h
      subst hdone
      exact ⟨rfl, [], 0, (List.append_nil _).symm, List.nil_prefix, rfl, Nat.le_refl 0,
        fun _ => ⟨rfl, rfl⟩⟩
    · obtain rfl := Option.some.inj h
      refine ⟨rfl, remain.take r.n, 0, rfl, List.take_prefix _ _, rfl, Nat.zero_le _, ?_⟩
      intro hnone
      have hfine := hnone r List.mem_cons_self
      rw [hfailed.2] at hfine
      cases hfine
    · obtain ⟨hname, taken, k, hbuffer, hprefix, hwritten, hk, hwhole⟩ := ih h
      have hsplit : remain = remain.take r.n++remain.drop r.n := (List.take_append_drop _ _).symm
      have hlength : (remain.take r.n).length = r.n := by
        rw [List.length_take]
        omega
      refine ⟨hname, remain.take r.n++taken, r.n+k, ?_, ?_, ?_, ?_, fun hnone => ?_⟩
      · rw [hbuffer, List.append_assoc]
      · conv_rhs => rw [hsplit]
        exact (List.prefix_append_right_inj _).mpr hprefix
      · rw [hwritten]
        change f.writtenBytes+(writen+r.n)+k = _
        omega
      · rw [List.length_append, hlength]
        omega
      · obtain ⟨htaken, hcount⟩ := hwhole (fun r' hr' => hnone r' (List.mem_cons_of_mem _ hr'))
        rw [List.length_drop] at hcount
        refine ⟨by rw [htaken, ← hsplit], by omega⟩

theorem FileUtil.append_spec {f f' : FileUtil} {data : Bytes} {results : List FwriteResult}
    (h : f.append data results = some f') :
    f'.fileName = f.fileName ∧ ∃ taken k, f'.buffer = f.buffer++taken ∧ taken <+: data ∧
      f'.writtenBytes = f.writtenBytes+k ∧ k ≤ taken.length ∧
      ((∀ r ∈ results, r.failed = false) → taken = data ∧ k = data.length) := by
  simpa using appendFrom_spec h

namespace LogFile

open Runs

variable {timebuf : ℤ → Bytes} {s s' : LogFile} {name : Bytes} {now rollNow : ℤ}

/-- What is in the files when the library has written all that it holds. -/
def contents (s : LogFile) : Bytes → Bytes := writeOut s.disk s.file

/-- What of these records is in the file of that name. -/
def written (records : List LogRecord) (name : Bytes) : Bytes :=
  (records.filter (fun r => r.fileName = name)).flatMap LogRecord.taken

@[simp] theorem written_nil (name : Bytes) : written [] name = [] := rfl

theorem written_append (records records' : List LogRecord) (name : Bytes) :
    written (records++records') name = written records name++written records' name := by
  rw [written, List.filter_append, List.flatMap_append]
  rfl

theorem written_singleton (r : LogRecord) (name : Bytes) :
    written [r] name = if r.fileName = name then r.taken else [] := by
  unfold written
  split_ifs with h <;> simp [h]

/-- Nothing is held back of a new file. -/
theorem writeOut_nil (disk : Bytes → Bytes) {f : FileUtil} (hbuffer : f.buffer = []) :
    writeOut disk (some f) = disk := by
  rw [writeOut, hbuffer, List.append_nil, Function.update_eq_self]

theorem writeOut_append (disk : Bytes → Bytes) {f f' : FileUtil} {taken : Bytes}
    (hname : f'.fileName = f.fileName) (hbuffer : f'.buffer = f.buffer++taken) :
    writeOut disk (some f') = Function.update (writeOut disk (some f)) f.fileName
      (writeOut disk (some f) f.fileName++taken) := by
  simp only [writeOut, hname, hbuffer, Function.update_self, Function.update_idem,
    List.append_assoc]

/-- The file keeps its place, and of what the library held it may have written some. -/
structure Settles (s s' : LogFile) : Prop where
  same : s' = { s with disk := s'.disk, file := s'.file, lastFlush := s'.lastFlush }
  contents : s'.contents = s.contents
  file : ∀ f', s'.file = some f' → ∃ f, s.file = some f ∧ f'.fileName = f.fileName ∧
    f'.writtenBytes = f.writtenBytes ∧ f'.buffer <:+ f.buffer

theorem contents_flush (s : LogFile) : s.flush.contents = s.contents := by
  unfold contents flush
  cases s.file with
  | none => rfl
  | some f => exact writeOut_nil _ rfl

theorem contents_drain (s : LogFile) (n : ℕ) : (s.drain n).contents = s.contents := by
  unfold contents drain
  cases s.file with
  | none => rfl
  | some f =>
    simp only [Option.map_some, writeOut, Function.update_self, Function.update_idem,
      List.append_assoc, List.take_append_drop]

theorem settles_flush (s : LogFile) : Settles s s.flush := by
  refine ⟨rfl, contents_flush s, fun f' hf' => ?_⟩
  obtain ⟨f, hf, rfl⟩ := Option.map_eq_some_iff.mp hf'
  exact ⟨f, hf, rfl, rfl, List.nil_suffix⟩

theorem settles_drain (s : LogFile) (n : ℕ) : Settles s (s.drain n) := by
  refine ⟨rfl, contents_drain s n, fun f' hf' => ?_⟩
  obtain ⟨f, hf, rfl⟩ := Option.map_eq_some_iff.mp hf'
  exact ⟨f, hf, rfl, rfl, List.drop_suffix _ _⟩

/-- The file after `check`: the old one, or a new one. -/
inductive Checked (timebuf : ℤ → Bytes) (s : LogFile) (writtenBytes : ℕ) (now rollNow : ℤ) :
    LogFile → Prop
  -- too long or of another day, but the clock has not moved since the file was opened
  | tooSoon (count : ℤ) (hcount : count = s.count ∨ count = 0) (hsoon : rollNow ≤ s.lastRoll) :
      Checked timebuf s writtenBytes now rollNow { s with count := count }
  | rolled (count : ℤ) (hcount : count = s.count ∨ count = 0) (hlate : s.lastRoll < rollNow) :
      Checked timebuf s writtenBytes now rollNow
        ({ s with count := count }.rollFile timebuf rollNow)
  | kept (count : ℤ) (hcount : count = s.count ∧ s.count < s.checkEveryN ∨
        count = 0 ∧ period now = s.startOfPeriod) (hfits : writtenBytes ≤ s.rollsize) :
      Checked timebuf s writtenBytes now rollNow { s with count := count }

theorem checked_rollFile {writtenBytes : ℕ} (count : ℤ) (hcount : count = s.count ∨ count = 0) :
    Checked timebuf s writtenBytes now rollNow
      ({ s with count := count }.rollFile timebuf rollNow) := by
  by_cases hlate : s.lastRoll < rollNow
  · exact .rolled count hcount hlate
  · rw [rollFile, if_neg hlate]
    exact .tooSoon count hcount (not_lt.mp hlate)

theorem check_cases (timebuf : ℤ → Bytes) (s : LogFile) (writtenBytes : ℕ) (now rollNow : ℤ) :
    Checked timebuf s writtenBytes now rollNow (s.check timebuf writtenBytes now rollNow) := by
  unfold check
  split_ifs with hlong hcheck hday
  · exact checked_rollFile s.count (.inl rfl)
  · exact checked_rollFile 0 (.inr rfl)
  · exact .kept 0 (.inr ⟨rfl, not_not.mp hday⟩) (not_lt.mp hlong)
  · exact .kept s.count (.inl ⟨rfl, not_le.mp hcheck⟩) (not_lt.mp hlong)

/-- The state between the write and `check`. -/
def logged (s : LogFile) (f : FileUtil) (r : LogRecord) : LogFile :=
  { s with file := some f, count := s.count+1, records := s.records++[r], clock := r.rollNow }

/-- What a call of `append` does: the library takes what it takes, then the file may be rolled,
and then flushed when the last time is too long ago. -/
structure Appends (timebuf : ℤ → Bytes) (s : LogFile) (data : Bytes) (now rollNow : ℤ)
    (f f₁ : FileUtil) (r : LogRecord) (s₂ s' : LogFile) : Prop where
  file : s.file = some f
  fileName : f₁.fileName = f.fileName
  record : r.opened = s.lastRoll ∧ r.fileName = f.fileName ∧ r.data = data ∧ r.now = now ∧
    r.rollNow = rollNow
  buffer : f₁.buffer = f.buffer++r.taken
  taken : r.taken <+: data
  writtenBytes : f₁.writtenBytes = f.writtenBytes+r.counted
  counted : r.counted ≤ r.taken.length
  checked : Checked timebuf (s.logged f₁ r) f₁.writtenBytes now rollNow s₂
  flushed : now-s₂.lastFlush ≤ s₂.flushInterval ∧ s' = s₂ ∨
    s₂.flushInterval < now-s₂.lastFlush ∧ s' = { s₂ with lastFlush := now }.flush

theorem appendInlock_spec {data : Bytes} {results : List FwriteResult}
    (h : s.appendInlock timebuf data results now rollNow = some s') :
    ∃ f f₁ r s₂, Appends timebuf s data now rollNow f f₁ r s₂ s' ∧
      ((∀ result ∈ results, result.failed = false) → r.taken = data) := by
  unfold appendInlock at h
  split at h
  · cases h
  · next f hf =>
    obtain ⟨f₁, hf₁, rfl⟩ := Option.map_eq_some_iff.mp h
    obtain ⟨hname, taken, k, hbuffer, hprefix, hwritten, hk, hwhole⟩ := FileUtil.append_spec hf₁
    have htaken : f₁.buffer.drop f.buffer.length = taken := by
      rw [hbuffer, List.drop_left]
    have hcounted : f₁.writtenBytes-f.writtenBytes = k := by omega
    dsimp only
    rw [htaken, hcounted]
    let r : LogRecord :=
      { opened := s.lastRoll
        fileName := f.fileName
        data := data
        taken := taken
        counted := k
        now := now
        rollNow := rollNow }
    refine ⟨f, f₁, r, _, ⟨hf, hname, ⟨rfl, rfl, rfl, rfl, rfl⟩, hbuffer, hprefix, hwritten, hk,
      check_cases .., ?_⟩, fun hnone => (hwhole hnone).1⟩
    unfold logged
    split_ifs with hlong
    · exact .inr ⟨hlong, rfl⟩
    · exact .inl ⟨not_lt.mp hlong, rfl⟩

/-- How much has been counted of the file that was opened then. -/
def size (records : List LogRecord) (opened : ℤ) : ℕ :=
  ((records.filter (fun r => r.opened = opened)).map LogRecord.counted).sum

theorem size_append (records records' : List LogRecord) (opened : ℤ) :
    size (records++records') opened = size records opened+size records' opened := by
  rw [size, List.filter_append, List.map_append, List.sum_append]
  rfl

theorem size_singleton (r : LogRecord) : size [r] r.opened = r.counted := by
  simp [size]

theorem size_of_lt {records : List LogRecord} {opened : ℤ}
    (h : ∀ r ∈ records, r.opened < opened) : size records opened = 0 := by
  have hnil : records.filter (fun r => r.opened = opened) = [] := by
    refine List.filter_eq_nil_iff.mpr (fun r hr => ?_)
    have hlt := h r hr
    simp only [decide_eq_true_eq]
    omega
  rw [size, hnil]
  rfl

def settings (s : LogFile) : Bytes × ℤ × ℤ × ℤ :=
  (s.basename, s.rollsize, s.flushInterval, s.checkEveryN)

/-- The records are in the files that were open at their time, in their order. -/
structure Kept (timebuf : ℤ → Bytes) (start s : LogFile) : Prop where
  settings : s.settings = start.settings
  contents : ∀ name, s.contents name = start.disk name++written s.records name
  file : ∀ f, s.file = some f → f.fileName = getLogFileName timebuf start.basename s.lastRoll ∧
    f.writtenBytes = size s.records s.lastRoll
  records : ∀ r ∈ s.records, r.fileName = getLogFileName timebuf start.basename r.opened ∧
    r.opened ≤ s.lastRoll ∧ r.taken <+: r.data ∧ r.counted ≤ r.taken.length
  sorted : s.records.Pairwise (fun r r' => r.opened ≤ r'.opened)

/-- A record that makes its file too long, with the clock past the second in which the file was
opened, is the last one of the file. -/
def Closing (s : LogFile) : Prop :=
  ∀ pre r post, s.records = pre++r :: post → s.rollsize < size (pre++[r]) r.opened →
    r.opened < r.rollNow → r.opened < s.lastRoll ∧ ∀ r' ∈ post, r.opened < r'.opened

variable {start : LogFile}

theorem Kept.settles (h : Kept timebuf start s) (hs : Settles s s') : Kept timebuf start s' := by
  have hrecords : s'.records = s.records := by rw [hs.same]
  have hlastRoll : s'.lastRoll = s.lastRoll := by rw [hs.same]
  have hsettings : s'.settings = s.settings := by rw [hs.same]; rfl
  refine ⟨hsettings.trans h.settings, ?_, ?_, ?_, ?_⟩
  · rw [hs.contents, hrecords]
    exact h.contents
  · intro f' hf'
    obtain ⟨f, hf, hname, hwritten, -⟩ := hs.file f' hf'
    rw [hname, hwritten, hrecords, hlastRoll]
    exact h.file f hf
  · rw [hrecords, hlastRoll]
    exact h.records
  · rw [hrecords]
    exact h.sorted

theorem Closing.settles (h : s.Closing) (hs : Settles s s') : s'.Closing := by
  unfold Closing
  rw [show s'.records = s.records by rw [hs.same], show s'.rollsize = s.rollsize by rw [hs.same],
    show s'.lastRoll = s.lastRoll by rw [hs.same]]
  exact h

theorem Kept.logged {data : Bytes} {f f₁ : FileUtil} {r : LogRecord} {s₂ : LogFile}
    (h : Kept timebuf start s) (ha : Appends timebuf s data now rollNow f f₁ r s₂ s') :
    Kept timebuf start (s.logged f₁ r) := by
  obtain ⟨hopened, hfile, hdata, -, -⟩ := ha.record
  obtain ⟨hname, hwritten⟩ := h.file f ha.file
  refine ⟨h.settings, fun name => ?_, ?_, ?_, ?_⟩
  · have hcontents := h.contents name
    unfold LogFile.contents at hcontents ⊢
    rw [ha.file] at hcontents
    change writeOut s.disk (some f₁) name = _
    rw [writeOut_append _ ha.fileName ha.buffer, LogFile.logged, written_append,
      written_singleton, hfile]
    -- The record goes to the open file, and to no other.
    by_cases hn : name = f.fileName
    · subst hn
      rw [Function.update_self, hcontents, if_pos rfl, List.append_assoc]
    · rw [Function.update_of_ne hn, hcontents, if_neg (Ne.symm hn), List.append_nil]
  · intro f' hf'
    obtain rfl := Option.some.inj hf'
    refine ⟨ha.fileName.trans hname, ?_⟩
    change f₁.writtenBytes = size (s.records++[r]) s.lastRoll
    rw [size_append, ← hopened, size_singleton, hopened, ← hwritten]
    exact ha.writtenBytes
  · intro r' hr'
    rcases List.mem_append.mp hr' with hold | hnew
    · exact h.records r' hold
    · obtain rfl := List.mem_singleton.mp hnew
      refine ⟨by rw [hfile, hopened, hname], hopened.le, hdata ▸ ha.taken, ha.counted⟩
  · refine List.pairwise_append.mpr ⟨h.sorted, List.pairwise_singleton _ _, ?_⟩
    intro r₁ hr₁ r₂ hr₂
    obtain rfl := List.mem_singleton.mp hr₂
    rw [hopened]
    exact (h.records r₁ hr₁).2.1

theorem Kept.rollFile (h : Kept timebuf start s) (hlate : s.lastRoll < rollNow) :
    Kept timebuf start (s.rollFile timebuf rollNow) := by
  rw [LogFile.rollFile, if_pos hlate]
  have hbasename : s.basename = start.basename := congrArg Prod.fst h.settings
  refine ⟨h.settings, fun name => ?_, ?_, ?_, h.sorted⟩
  · change writeOut (writeOut s.disk s.file) (some _) name = _
    rw [writeOut_nil _ rfl]
    exact h.contents name
  · intro f hf
    obtain rfl := Option.some.inj hf
    refine ⟨by rw [hbasename], (size_of_lt (fun r hr => ?_)).symm⟩
    exact (h.records r hr).2.1.trans_lt hlate
  · intro r hr
    obtain ⟨hname, hopened, hrest⟩ := h.records r hr
    exact ⟨hname, hopened.trans hlate.le, hrest⟩

theorem Kept.setCount (h : Kept timebuf start s) (count : ℤ) :
    Kept timebuf start { s with count := count } :=
  ⟨h.settings, h.contents, h.file, h.records, h.sorted⟩

theorem Kept.checked {writtenBytes : ℕ} (h : Kept timebuf start s)
    (hc : Checked timebuf s writtenBytes now rollNow s') : Kept timebuf start s' := by
  cases hc with
  | tooSoon count _ _ => exact h.setCount count
  | rolled count _ hlate => exact (h.setCount count).rollFile hlate
  | kept count _ _ => exact h.setCount count

theorem Appends.settles {data : Bytes} {f f₁ : FileUtil} {r : LogRecord} {s₂ : LogFile}
    (ha : Appends timebuf s data now rollNow f f₁ r s₂ s') : Settles s₂ s' := by
  rcases ha.flushed with ⟨-, rfl⟩ | ⟨-, rfl⟩
  · exact ⟨rfl, rfl, fun f hf => ⟨f, hf, rfl, rfl, List.suffix_refl _⟩⟩
  · obtain ⟨-, hcontents, hfile⟩ := settles_flush { s₂ with lastFlush := now }
    exact ⟨rfl, hcontents, hfile⟩

theorem Closing.appends {data : Bytes} {f f₁ : FileUtil} {r : LogRecord} {s₂ : LogFile}
    (h : s.Closing) (hkept : Kept timebuf start (s.logged f₁ r))
    (ha : Appends timebuf s data now rollNow f f₁ r s₂ s') : s'.Closing := by
  obtain ⟨hopened, -, -, -, hrollNow⟩ := ha.record
  have hwritten : f₁.writtenBytes = size (s.records++[r]) r.opened := by
    rw [hopened]
    exact (hkept.file f₁ rfl).2
  -- The records before are as they were, and the new one is the last.
  have hchecked : s₂.records = s.records++[r] ∧ s₂.rollsize = s.rollsize ∧
      s.lastRoll ≤ s₂.lastRoll ∧ (s.rollsize < f₁.writtenBytes → r.opened < r.rollNow →
        r.opened < s₂.lastRoll) := by
    cases ha.checked with
    | tooSoon count _ hsoon =>
      refine ⟨rfl, rfl, le_rfl, fun _ hlt => ?_⟩
      rw [hrollNow, hopened] at hlt
      exact absurd hlt (not_lt.mpr hsoon)
    | rolled count _ hlate =>
      rw [LogFile.rollFile, if_pos hlate]
      exact ⟨rfl, rfl, hlate.le, fun _ _ => hopened.trans_lt hlate⟩
    | kept count _ hfits =>
      exact ⟨rfl, rfl, le_rfl, fun hlong _ => absurd hlong (not_lt.mpr hfits)⟩
  obtain ⟨hrecords, hrollsize, hlastRoll, hfull⟩ := hchecked
  refine Closing.settles (s := s₂) (fun pre r₁ post hsplit hlong hlate => ?_) ha.settles
  rw [hrecords] at hsplit
  rw [hrollsize] at hlong
  -- The full file is the one just written to, or one left behind before.
  rcases List.eq_nil_or_concat post with rfl | ⟨post, last, rfl⟩
  · obtain ⟨rfl, hr⟩ := List.append_inj' hsplit rfl
    obtain rfl := List.singleton_inj.mp hr
    exact ⟨hfull (hwritten ▸ hlong) hlate, fun r' hr' => by cases hr'⟩
  · rw [List.concat_eq_append, ← List.cons_append, ← List.append_assoc] at hsplit
    obtain ⟨hold, hr⟩ := List.append_inj' hsplit rfl
    obtain rfl := List.singleton_inj.mp hr
    obtain ⟨hlt, hpost⟩ := h pre r₁ post hold hlong hlate
    refine ⟨hlt.trans_le hlastRoll, fun r' hr' => ?_⟩
    rw [List.concat_eq_append] at hr'
    rcases List.mem_append.mp hr' with hmem | hmem
    · exact hpost r' hmem
    · obtain rfl := List.mem_singleton.mp hmem
      exact hopened ▸ hlt

structure Inv (timebuf : ℤ → Bytes) (start s : LogFile) : Prop where
  kept : Kept timebuf start s
  closing : s.Closing

theorem Inv.step {e : LogFileEvent} (h : Inv timebuf start s) (hs : s.Step timebuf e s') :
    Inv timebuf start s' := by
  unfold Step next at hs
  cases e with
  | append data results now rollNow =>
    obtain ⟨f, f₁, r, s₂, ha, -⟩ := appendInlock_spec hs
    have hlogged := h.kept.logged ha
    exact ⟨(hlogged.checked ha.checked).settles ha.settles, h.closing.appends hlogged ha⟩
  | flush =>
    obtain rfl := Option.some.inj hs
    exact ⟨h.kept.settles (settles_flush s), h.closing.settles (settles_flush s)⟩
  | drain n =>
    obtain rfl := Option.some.inj hs
    exact ⟨h.kept.settles (settles_drain s n), h.closing.settles (settles_drain s n)⟩

/-- What was given to `append`. -/
def given (es : List LogFileEvent) : List Bytes :=
  es.filterMap (fun e => match e with
    | .append data _ _ _ => some data
    | .flush => none
    | .drain _ => none)

/-- What the library did in each call of `append`. -/
def writes (es : List LogFileEvent) : List (List FwriteResult) :=
  es.filterMap (fun e => match e with
    | .append _ results _ _ => some results
    | .flush => none
    | .drain _ => none)

/-- The record is whole unless a write of it failed. -/
def Whole (results : List FwriteResult) (r : LogRecord) : Prop :=
  (∀ result ∈ results, result.failed = false) → r.taken = r.data

/-- No write fails. -/
def Succeeds : LogFileEvent → Prop
  | .append _ results _ _ => ∀ result ∈ results, result.failed = false
  | .flush => True
  | .drain _ => True

theorem records_settles (hs : Settles s s') : s'.records = s.records := by rw [hs.same]

theorem records_step {e : LogFileEvent} (hs : s.Step timebuf e s') :
    ∃ new, s'.records = s.records++new ∧ new.map LogRecord.data = given [e] ∧
      List.Forall₂ Whole (writes [e]) new := by
  unfold Step next at hs
  cases e with
  | append data results now rollNow =>
    obtain ⟨f, f₁, r, s₂, ha, hwhole⟩ := appendInlock_spec hs
    have hrecords : s₂.records = s.records++[r] := by
      cases ha.checked with
      | tooSoon count _ _ => rfl
      | rolled count _ hlate =>
        rw [rollFile, if_pos hlate]
        rfl
      | kept count _ _ => rfl
    refine ⟨[r], (records_settles ha.settles).trans hrecords, ?_, .cons ?_ .nil⟩
    · rw [List.map_singleton, ha.record.2.2.1]
      rfl
    · intro hsucceeds
      rw [hwhole hsucceeds, ha.record.2.2.1]
  | flush =>
    obtain rfl := Option.some.inj hs
    exact ⟨[], (List.append_nil _).symm, rfl, .nil⟩
  | drain n =>
    obtain rfl := Option.some.inj hs
    exact ⟨[], (List.append_nil _).symm, rfl, .nil⟩

section Opened

variable {basename : Bytes} {rollsize flushInterval checkEveryN count : ℤ}
  {disk : Bytes → Bytes} {es : List LogFileEvent}

theorem contents_opened (name : Bytes) :
    (opened timebuf basename rollsize flushInterval checkEveryN count disk now).contents name =
      disk name := by
  unfold opened rollFile
  split_ifs
  · exact congrFun (writeOut_nil disk rfl) name
  · rfl

theorem opened_spec (timebuf : ℤ → Bytes) (basename : Bytes)
    (rollsize flushInterval checkEveryN count : ℤ) (disk : Bytes → Bytes) (now : ℤ) :
    ∃ start, opened timebuf basename rollsize flushInterval checkEveryN count disk now = start ∧
      start.disk = disk ∧ start.records = [] ∧
      start.settings = (basename, rollsize, flushInterval, checkEveryN) ∧
      start.basename = basename := by
  refine ⟨_, rfl, ?_⟩
  unfold opened rollFile
  split_ifs
  all_goals exact ⟨rfl, rfl, rfl, rfl⟩

theorem inv_run
    (hr : Run (Step timebuf) (opened timebuf basename rollsize flushInterval checkEveryN count disk
      now) es s) :
    Inv timebuf (opened timebuf basename rollsize flushInterval checkEveryN count disk now) s := by
  obtain ⟨start, hstart, hdisk, hrecords, hsettings, hbasename⟩ :=
    opened_spec timebuf basename rollsize flushInterval checkEveryN count disk now
  have hfile (f : FileUtil) (hf : start.file = some f) :
      f.fileName = getLogFileName timebuf basename start.lastRoll ∧ f.writtenBytes = 0 := by
    rw [← hstart] at hf ⊢
    unfold opened rollFile at hf ⊢
    split_ifs at hf ⊢
    obtain rfl := Option.some.inj hf
    exact ⟨rfl, rfl⟩
  refine hr.invariant (fun _ _ _ h hs => Inv.step h hs) ⟨⟨rfl, fun name => ?_, ?_, ?_, ?_⟩, ?_⟩
  · rw [contents_opened, hstart, hdisk, hrecords, written_nil, List.append_nil]
  · rw [hstart, hrecords, hbasename]
    exact hfile
  · rw [hstart, hrecords]
    exact fun r hr' => by cases hr'
  · rw [hstart, hrecords]
    exact .nil
  · intro pre r post hsplit
    rw [hstart, hrecords] at hsplit
    exact absurd hsplit.symm (List.append_ne_nil_of_right_ne_nil _ (List.cons_ne_nil _ _))

/-- Files that roll behind two bytes, opened at second 100. -/
def smallFiles : LogFile := opened (fun now => [now.toNat.toUInt8]) [108] 2 3 2 0 (fun _ => []) 100

/-- The second record is too long, and the third one goes to the next file. -/
def rolledLog : List LogFileEvent :=
  [.append [1] [{ n := 1 }] 101 101, .append [2, 3] [{ n := 1 }, { n := 1 }] 102 102,
    .append [4] [{ n := 1 }] 103 103]

theorem rolledLog_run : ∃ s r₁ r₂ r₃, Run (Step (fun now => [now.toNat.toUInt8])) smallFiles
      rolledLog s ∧ s.records = [r₁]++r₂ :: [r₃] ∧ size [r₁, r₂] r₂.opened = 3 ∧
      r₂.opened = 100 ∧ r₂.rollNow = 102 :=
  ⟨_, _, _, _, .cons rfl <| .cons rfl <| .cons rfl <| .nil _, rfl, rfl, rfl, rfl⟩

/-- A record that takes its file over `rollsize` is the last one in it, when it comes after the
second in which the file was opened. -/
theorem rolled_when_full
    (hr : Run (Step timebuf) (opened timebuf basename rollsize flushInterval checkEveryN count disk
      now) es s) {pre post : List LogRecord} {r : LogRecord} (hsplit : s.records = pre++r :: post)
    (hfull : rollsize < size (pre++[r]) r.opened) (hlate : r.opened < r.rollNow) :
    ∀ r' ∈ post, r.opened < r'.opened := by
  have hinv := inv_run hr
  obtain ⟨start, hstart, -, -, hsettings, -⟩ :=
    opened_spec timebuf basename rollsize flushInterval checkEveryN count disk now
  rw [hstart] at hinv
  have hrollsize : s.rollsize = rollsize :=
    congrArg (fun settings => settings.2.1) (hinv.kept.settings.trans hsettings)
  exact (hinv.closing pre r post hsplit (hrollsize ▸ hfull) hlate).2

theorem rolled_when_full_rolled : ∃ s r₁ r₂ r₃, Run (Step (fun now => [now.toNat.toUInt8]))
    smallFiles rolledLog s ∧ s.records = [r₁]++r₂ :: [r₃] ∧ r₂.opened < r₃.opened := by
  obtain ⟨s, r₁, r₂, r₃, hr, hrecords, hsize, hopened, hrollNow⟩ := rolledLog_run
  have hfull : 2 < (size ([r₁]++[r₂]) r₂.opened : ℤ) := by
    change 2 < (size [r₁, r₂] r₂.opened : ℤ)
    omega
  refine ⟨s, r₁, r₂, r₃, hr, hrecords, ?_⟩
  exact rolled_when_full hr hrecords hfull (by omega) r₃ (List.mem_singleton_self _)

end Opened

end LogFile

end JingjieAR
