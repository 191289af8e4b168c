import JingjieAR.AsyncLogs
import JingjieAR.LogFileTimes

/-! The thread of the log with the log file that it writes to: the file is opened when the thread
starts, it gets a whole buffer at a time, and it is flushed at the end of each round. -/
namespace JingjieAR

structure LoggingThread where
  logging : AsyncLogging := {}
  -- the local `output` of `threadFunc`
  output : Option LogFile := none

inductive LoggingThreadEvent
  -- with what the writes take and the readings of the clock, if it comes to that
  | log (e : LogEvent) (results : List FwriteResult) (now rollNow : ℤ)
  | drain (n : ℕ)

/-- What the log is set up with; the file takes `checkEveryN` from its default, and the count and
the directory are as they are. -/
structure LogSetup where
  timebuf : ℤ → Bytes
  basename : Bytes
  rollSize : ℤ
  flushInterval : ℤ
  count : ℤ
  disk : Bytes → Bytes

namespace LoggingThread

def openLog (c : LogSetup) (now : ℤ) : LogFile :=
  LogFile.opened c.timebuf c.basename c.rollSize c.flushInterval 1024 c.count c.disk now

/-- What the thread does to its file in a step. -/
def fileStep (c : LogSetup) (s : LoggingThread) (results : List FwriteResult) (now rollNow : ℤ) :
    LogEvent → Option (Option LogFile)
  | .start => some (some (openLog c now))
  | .advance =>
    match s.logging.consumer with
    | .writing k =>
      match s.logging.buffersToWrite[k]? with
      | some (some buffer) =>
        (s.output.bind (fun file => file.appendInlock c.timebuf buffer.data results now rollNow)).map
          some
      | _ => some s.output
    -- the end of the round, and the end of the thread
    | .refilling2 => some (s.output.map LogFile.flush)
    | .testing => some (if s.logging.running then s.output else s.output.map LogFile.flush)
    | _ => some s.output
  | _ => some s.output

def next (c : LogSetup) (s : LoggingThread) : LoggingThreadEvent → Option LoggingThread
  | .log e results now rollNow =>
    (s.logging.next e).bind (fun logging =>
      (s.fileStep c results now rollNow e).map (fun output => { logging, output }))
  | .drain n => some { s with output := s.output.map (fun file => file.drain n) }

def Step (c : LogSetup) (s : LoggingThread) (e : LoggingThreadEvent) (s' : LoggingThread) : Prop :=
  s.next c e = some s'

/-- Lines that a buffer can hold, and writes that do not fail. -/
def Sound (s : LoggingThread) : LoggingThreadEvent → Prop
  | .log e results _ _ =>
    s.logging.ShortLines e ∧ ∀ result ∈ results, result.failed = false
  | .drain _ => True

open Runs AsyncLogging

variable {c : LogSetup} {s s' : LoggingThread} {e : LoggingThreadEvent}
  {es : List LoggingThreadEvent}

def records (s : LoggingThread) : List LogRecord := (s.output.map LogFile.records).getD []

def bytes (buffer : BufferPtr) : Bytes := (buffer.map FixedBuffer.data).getD []

/-- What has gone to the file record by record, and what is to go there buffer by buffer before
the current one. -/
def earlier (s : LoggingThread) : List Bytes :=
  s.records.map LogRecord.data++(s.logging.unwritten++s.logging.buffers).map bytes

def pieces (s : LoggingThread) : List Bytes := s.earlier++[bytes s.logging.currentBuffer]

/-- No line is in two pieces. -/
def Grouped (s : LoggingThread) : Prop :=
  ∃ groups : List (List Bytes), groups.flatten = s.logging.appended ∧
    groups.map List.flatten = s.pieces

/-- The file is closed or there is nothing that the library holds back. -/
def WrittenOut (s : LoggingThread) : Prop :=
  ∀ file, s.output = some file → ∀ f, file.file = some f → f.buffer = []

structure Inv (c : LogSetup) (s : LoggingThread) : Prop where
  logging : s.logging.Inv
  closed : s.output = none ↔ s.logging.consumer = .notStarted
  opened : ∀ file, s.output = some file → ∃ now es,
    Run (LogFile.Step c.timebuf) (openLog c now) es file ∧ ∀ e ∈ es, LogFile.Succeeds e
  grouped : s.Grouped
  writtenOut : s.logging.consumer = .entering ∨ s.logging.consumer = .waiting ∨
    s.logging.consumer = .testing ∨ s.logging.consumer = .exited → s.WrittenOut

theorem Grouped.congr (h : s.Grouped) (happended : s'.logging.appended = s.logging.appended)
    (hpieces : s'.pieces = s.pieces) : s'.Grouped := by
  obtain ⟨groups, hflatten, hmap⟩ := h
  exact ⟨groups, hflatten.trans happended.symm, hmap.trans hpieces.symm⟩

/-- A line that goes to a new piece, or an empty new piece. -/
theorem Grouped.extend (h : s.Grouped) (lines : List Bytes)
    (happended : s'.logging.appended = s.logging.appended++lines)
    (hpieces : s'.pieces = s.pieces++[lines.flatten]) : s'.Grouped := by
  obtain ⟨groups, hflatten, hmap⟩ := h
  refine ⟨groups++[lines], ?_, ?_⟩
  · rw [List.flatten_append, List.flatten_singleton, hflatten, happended]
  · rw [List.map_append, List.map_singleton, hmap, hpieces]

/-- A line that goes behind the last piece. -/
theorem Grouped.extendLast (h : s.Grouped) {line : Bytes}
    (happended : s'.logging.appended = s.logging.appended++[line])
    (hpieces : s'.pieces = s.earlier++[bytes s.logging.currentBuffer++line]) : s'.Grouped := by
  obtain ⟨groups, hflatten, hmap⟩ := h
  obtain ⟨before, last, rfl, hbefore, hlast⟩ := List.map_eq_append_iff.mp hmap
  obtain ⟨group, rfl, hgroup⟩ := List.map_eq_singleton_iff.mp hlast
  refine ⟨before++[group++[line]], ?_, ?_⟩
  · rw [happended, ← hflatten]
    simp only [List.flatten_append, List.flatten_singleton, List.append_assoc]
  · rw [hpieces, List.map_append, hbefore, List.map_singleton, List.flatten_append, hgroup,
      List.flatten_singleton]

theorem Grouped.append {line : Bytes} (h : s.Grouped) (hinv : s.logging.Inv)
    (hline : line.length < kLargeBufferSize) (houtput : s'.output = s.output)
    (hs : s.logging.append line = some s'.logging) : s'.Grouped := by
  have hrecords : s'.records = s.records := by rw [records, houtput, records]
  obtain ⟨current, hcurrent⟩ := Option.isSome_iff_exists.mp hinv.current
  simp only [AsyncLogging.append, hcurrent] at hs
  split_ifs at hs with hroom
  · have hlogging := (Option.some.inj hs).symm
    refine h.extendLast (by rw [hlogging]) ?_
    rw [pieces, earlier, hrecords, hlogging, hcurrent]
    change _ = _++[current.data++line]
    rw [← FixedBuffer.data_append hroom]
    rfl
  · have hlogging := (Option.some.inj hs).symm
    have hdata := data_append_blank hinv.blank.1 hline
    refine h.extend [line] (by rw [hlogging]) ?_
    rw [pieces, pieces, earlier, earlier, hrecords, hlogging, List.flatten_singleton, hcurrent]
    change _++((_++(s.logging.buffers++[some current])).map bytes)++[_] = _
    rw [← List.append_assoc, List.map_append, List.map_singleton, ← List.append_assoc]
    exact congrArg (fun data => _++[data]) hdata

theorem openLog_spec (c : LogSetup) (now : ℤ) : (openLog c now).records = [] ∧
    ∀ f, (openLog c now).file = some f → f.buffer = [] := by
  constructor
  · obtain ⟨start, hstart, -, hrecords, -⟩ := LogFile.opened_spec c.timebuf c.basename c.rollSize
      c.flushInterval 1024 c.count c.disk now
    rw [openLog, hstart, hrecords]
  · intro f hf
    unfold openLog LogFile.opened LogFile.rollFile at hf
    split_ifs at hf
    obtain rfl := Option.some.inj hf
    rfl

theorem Inv.start {now : ℤ} (h : Inv c s) (hinv : s'.logging.Inv)
    (hs : s.logging.Step .start s'.logging) (houtput : s'.output = some (openLog c now)) :
    Inv c s' := by
  obtain ⟨hconsumer, hlogging⟩ := start_cases hs
  obtain ⟨hrecords, hbuffer⟩ := openLog_spec c now
  have hnone : s.output = none := h.closed.mpr hconsumer
  refine ⟨hinv, ?_, ?_, h.grouped.congr (by rw [hlogging]; rfl) ?_, fun _ => ?_⟩
  · rw [houtput, hlogging]
    exact iff_of_false (Option.some_ne_none _) ConsumerStage.noConfusion
  · intro file hfile
    rw [houtput] at hfile
    obtain rfl := Option.some.inj hfile
    exact ⟨now, [], .nil _, List.forall_mem_nil _⟩
  · have hunwritten : s.logging.unwritten = [] := by rw [unwritten, hconsumer]
    rw [pieces, pieces, earlier, earlier, records, records, houtput, hnone, hunwritten, hlogging,
      Option.map_some, hrecords]
    rfl
  · intro file hfile f hf
    rw [houtput] at hfile
    obtain rfl := Option.some.inj hfile
    exact hbuffer f hf

/-- A step that leaves the file alone, and the thread where it is. -/
theorem Inv.frame (h : Inv c s) (hinv : s'.logging.Inv) (houtput : s'.output = s.output)
    (hconsumer : s'.logging.consumer = s.logging.consumer) (hgrouped : s'.Grouped) : Inv c s' := by
  refine ⟨hinv, ?_, ?_, hgrouped, ?_⟩
  · rw [houtput, hconsumer]
    exact h.closed
  · rw [houtput]
    exact h.opened
  · rw [hconsumer, WrittenOut, houtput]
    exact h.writtenOut

/-- A step of the thread that only changes its locals and its place in the round. -/
theorem Inv.move (h : Inv c s) (hinv : s'.logging.Inv) (houtput : s'.output = s.output)
    (hold : s.logging.consumer ≠ .notStarted) (hnew : s'.logging.consumer ≠ .notStarted)
    (hgrouped : s'.Grouped) (hwritten : s'.logging.consumer = .entering ∨
      s'.logging.consumer = .waiting ∨ s'.logging.consumer = .testing ∨
      s'.logging.consumer = .exited → s.WrittenOut) : Inv c s' := by
  refine ⟨hinv, ?_, ?_, hgrouped, ?_⟩
  · rw [houtput, h.closed]
    exact iff_of_false hold hnew
  · rw [houtput]
    exact h.opened
  · rw [WrittenOut, houtput]
    exact hwritten

theorem writtenOut_flush (houtput : s'.output = s.output.map LogFile.flush) : s'.WrittenOut := by
  intro file hfile f hf
  rw [houtput] at hfile
  obtain ⟨file', -, rfl⟩ := Option.map_eq_some_iff.mp hfile
  obtain ⟨f', -, rfl⟩ := Option.map_eq_some_iff.mp hf
  rfl

theorem records_flush (houtput : s'.output = s.output.map LogFile.flush) :
    s'.records = s.records := by
  rw [records, houtput, Option.map_map]
  rfl

/-- The file is flushed. -/
theorem Inv.flush (h : Inv c s) (hinv : s'.logging.Inv)
    (houtput : s'.output = s.output.map LogFile.flush) (hold : s.logging.consumer ≠ .notStarted)
    (hnew : s'.logging.consumer ≠ .notStarted) (hgrouped : s'.Grouped) : Inv c s' := by
  refine ⟨hinv, ?_, ?_, hgrouped, fun _ => writtenOut_flush houtput⟩
  · rw [houtput, Option.map_eq_none_iff, h.closed]
    exact iff_of_false hold hnew
  · intro file hfile
    rw [houtput] at hfile
    obtain ⟨file', hfile', rfl⟩ := Option.map_eq_some_iff.mp hfile
    obtain ⟨now, es, hr, hes⟩ := h.opened file' hfile'
    have hflush : LogFile.Step c.timebuf file' .flush file'.flush := rfl
    refine ⟨now, es++[.flush], hr.snoc hflush, fun e he => ?_⟩
    rcases List.mem_append.mp he with hmem | hmem
    · exact hes e hmem
    · rw [List.mem_singleton.mp hmem]
      trivial

/-- The thread hands over a blank buffer and has all the others to write. -/
theorem Grouped.swap (h : s.Grouped) (hinv : s.logging.Inv)
    (hc : s.logging.consumer = .entering ∨ s.logging.consumer = .waiting)
    (houtput : s'.output = s.output) (hlogging : s'.logging = s.logging.swap) : s'.Grouped := by
  have hrecords : s'.records = s.records := by rw [records, houtput, records]
  have hsupplied : s.logging.buffersToWrite = [] ∧ s.logging.newbuffer1.isSome := by
    have hplace := hinv.supplied
    rcases hc with hc | hc <;> rw [Supplied, hc] at hplace <;> exact ⟨hplace.1, hplace.2.1⟩
  have hunwritten : s.logging.unwritten = [] := by
    rcases hc with hc | hc <;> rw [unwritten, hc]
  obtain ⟨buffer, hbuffer⟩ := Option.isSome_iff_exists.mp hsupplied.2
  have hblank : bytes s.logging.newbuffer1 = [] := by
    rw [hbuffer]
    exact hinv.blank.2.1 buffer hbuffer
  refine h.extend [] (by rw [hlogging, List.append_nil]; rfl) ?_
  rw [pieces, pieces, earlier, earlier, hrecords, hlogging, hunwritten]
  change (_++(s.logging.buffers++[s.logging.currentBuffer]++s.logging.buffersToWrite).map bytes)++
    [bytes s.logging.newbuffer1] = _
  rw [hsupplied.1, List.append_nil, List.map_append, List.map_singleton, hblank, List.nil_append,
    List.flatten_nil, List.append_assoc, List.append_assoc, List.append_assoc, List.append_assoc]

/-- A buffer goes to the file. -/
theorem Inv.written {results : List FwriteResult} {now rollNow : ℤ} {k : ℕ} {buffer : LargeBuffer}
    {file file' : LogFile} (h : Inv c s) (hinv : s'.logging.Inv)
    (hresults : ∀ result ∈ results, result.failed = false) (hc : s.logging.consumer = .writing k)
    (hk : s.logging.buffersToWrite[k]? = some (some buffer))
    (hlogging : s'.logging = { s.logging with
      output := s.logging.output++buffer.data, consumer := .writing (k+1) })
    (hfile : s.output = some file) (hfile' : s'.output = some file')
    (hs : file.appendInlock c.timebuf buffer.data results now rollNow = some file') :
    Inv c s' := by
  have hstep : LogFile.Step c.timebuf file (.append buffer.data results now rollNow) file' := hs
  obtain ⟨new, hnew, hdata, -⟩ := LogFile.records_step hstep
  have hconsumer : s'.logging.consumer = .writing (k+1) := by rw [hlogging]
  refine ⟨hinv, ?_, fun file₁ hfile₁ => ?_, h.grouped.congr (by rw [hlogging]) ?_, ?_⟩
  · rw [hfile', hconsumer]
    exact iff_of_false (Option.some_ne_none _) ConsumerStage.noConfusion
  · rw [hfile'] at hfile₁
    obtain rfl := Option.some.inj hfile₁
    obtain ⟨now₀, es, hr, hes⟩ := h.opened file hfile
    refine ⟨now₀, es++[.append buffer.data results now rollNow], hr.snoc hstep, fun e he => ?_⟩
    rcases List.mem_append.mp he with hmem | hmem
    · exact hes e hmem
    · rw [List.mem_singleton.mp hmem]
      exact hresults
  · -- The buffer moves from those to be written to the records.
    have hunwritten : s.logging.unwritten = some buffer :: s'.logging.unwritten := by
      rw [unwritten, unwritten, hc, hlogging]
      exact List.drop_eq_getElem?_toList_append.trans (by rw [hk]; rfl)
    have hbuffers : s'.logging.buffers = s.logging.buffers := by rw [hlogging]
    have hcurrent : s'.logging.currentBuffer = s.logging.currentBuffer := by rw [hlogging]
    rw [pieces, pieces, earlier, earlier, records, records, hfile, hfile', hunwritten, hbuffers,
      hcurrent, Option.map_some, Option.map_some, Option.getD_some, Option.getD_some, hnew,
      List.map_append, hdata, List.cons_append, List.map_cons]
    change _++[buffer.data]++_++_ = _++(buffer.data :: _)++_
    rw [List.append_assoc _ [buffer.data], List.singleton_append]
  · rw [hconsumer]
    rintro (hplace | hplace | hplace | hplace) <;> cases hplace

theorem Inv.advance {logging : AsyncLogging} {output : Option LogFile}
    {results : List FwriteResult} {now rollNow : ℤ} (h : Inv c s) (hinv : logging.Inv)
    (hresults : ∀ result ∈ results, result.failed = false)
    (hs : s.logging.advance = some logging)
    (hfile : s.fileStep c results now rollNow .advance = some output) :
    Inv c { logging := logging, output := output } := by
  unfold fileStep at hfile
  have hgrouped {logging' : AsyncLogging} {output' : Option LogFile}
      (happended : logging'.appended = s.logging.appended)
      (hrecords : records { logging := logging', output := output' } = s.records)
      (hunwritten : s.logging.unwritten = [] ∧ logging'.unwritten = [])
      (hbuffers : logging'.buffers = s.logging.buffers)
      (hcurrent : logging'.currentBuffer = s.logging.currentBuffer) :
      Grouped { logging := logging', output := output' } := by
    refine h.grouped.congr happended ?_
    rw [pieces, pieces, earlier, earlier, hrecords]
    change _++(logging'.unwritten++logging'.buffers).map bytes++[bytes logging'.currentBuffer] = _
    rw [hunwritten.1, hunwritten.2, hbuffers, hcurrent]
  cases advance_cases hs with
  | wait hc hrunning =>
    rw [hc] at hfile
    obtain rfl := Option.some.inj hfile
    have hold : s.logging.unwritten = [] := by rw [unwritten, hc]
    exact h.move hinv rfl (by rw [hc]; exact ConsumerStage.noConfusion) ConsumerStage.noConfusion
      (hgrouped rfl rfl ⟨hold, rfl⟩ rfl rfl) (fun _ => h.writtenOut (.inl hc))
  | swap hc =>
    have hsame : output = s.output := by
      rcases hc with hc | hc <;> rw [hc] at hfile <;> exact (Option.some.inj hfile).symm
    subst hsame
    refine h.move hinv rfl ?_ ConsumerStage.noConfusion (h.grouped.swap h.logging hc rfl rfl) ?_
    · rcases hc with hc | hc <;> rw [hc] <;> exact ConsumerStage.noConfusion
    · rintro (hplace | hplace | hplace | hplace) <;> cases hplace
  | written hc hk =>
    rw [hc] at hfile
    simp only [hk] at hfile
    obtain ⟨file', hbound, rfl⟩ := Option.map_eq_some_iff.mp hfile
    obtain ⟨file, hsome, happend⟩ := Option.bind_eq_some_iff.mp hbound
    exact h.written hinv hresults hc hk rfl hsome rfl happend
  | wrote hc hk =>
    rw [hc] at hfile
    simp only [hk] at hfile
    obtain rfl := Option.some.inj hfile
    have hold : s.logging.unwritten = [] := by
      rw [unwritten, hc]
      exact List.drop_eq_nil_of_le (List.getElem?_eq_none_iff.mp hk)
    refine h.move hinv rfl (by rw [hc]; exact ConsumerStage.noConfusion) ConsumerStage.noConfusion
      (hgrouped rfl rfl ⟨hold, rfl⟩ rfl rfl) ?_
    rintro (hplace | hplace | hplace | hplace) <;> cases hplace
  | refilled1 hc _ =>
    rw [hc] at hfile
    obtain rfl := Option.some.inj hfile
    have hold : s.logging.unwritten = [] := by rw [unwritten, hc]
    refine h.move hinv rfl (by rw [hc]; exact ConsumerStage.noConfusion) ConsumerStage.noConfusion
      (hgrouped rfl rfl ⟨hold, rfl⟩ rfl rfl) ?_
    rintro (hplace | hplace | hplace | hplace) <;> cases hplace
  | refilled2 hc _ =>
    rw [hc] at hfile
    obtain rfl := Option.some.inj hfile
    have hold : s.logging.unwritten = [] := by rw [unwritten, hc]
    exact h.flush hinv rfl (by rw [hc]; exact ConsumerStage.noConfusion) ConsumerStage.noConfusion
      (hgrouped rfl (records_flush rfl) ⟨hold, rfl⟩ rfl rfl)
  | goOn hc hrunning =>
    rw [hc] at hfile
    simp only [hrunning, if_true] at hfile
    obtain rfl := Option.some.inj hfile
    have hold : s.logging.unwritten = [] := by rw [unwritten, hc]
    exact h.move hinv rfl (by rw [hc]; exact ConsumerStage.noConfusion) ConsumerStage.noConfusion
      (hgrouped rfl rfl ⟨hold, rfl⟩ rfl rfl) (fun _ => h.writtenOut (.inr (.inr (.inl hc))))
  | leave hc hrunning =>
    rw [hc] at hfile
    simp only [hrunning, Bool.false_eq_true, if_false] at hfile
    obtain rfl := Option.some.inj hfile
    have hold : s.logging.unwritten = [] := by rw [unwritten, hc]
    exact h.flush hinv rfl (by rw [hc]; exact ConsumerStage.noConfusion) ConsumerStage.noConfusion
      (hgrouped rfl (records_flush rfl) ⟨hold, rfl⟩ rfl rfl)

theorem Inv.log {logging : AsyncLogging} {output : Option LogFile} {event : LogEvent}
    {results : List FwriteResult} {now rollNow : ℤ} (h : Inv c s)
    (hshort : s.logging.ShortLines event) (hresults : ∀ result ∈ results, result.failed = false)
    (hs : s.logging.Step event logging)
    (hfile : s.fileStep c results now rollNow event = some output) :
    Inv c { logging := logging, output := output } := by
  have hinv : logging.Inv := h.logging.step hshort hs
  -- The calls of `stop` touch no buffer.
  have hflags (hconsumer : logging.consumer = s.logging.consumer)
      (happended : logging.appended = s.logging.appended)
      (hunwritten : logging.unwritten = s.logging.unwritten)
      (hbuffers : logging.buffers = s.logging.buffers)
      (hcurrent : logging.currentBuffer = s.logging.currentBuffer)
      (hsame : s.output = output) : Inv c { logging := logging, output := output } := by
    subst hsame
    refine h.frame hinv rfl hconsumer (h.grouped.congr happended ?_)
    rw [pieces, pieces, earlier, earlier]
    change _++(logging.unwritten++logging.buffers).map bytes++[bytes logging.currentBuffer] = _
    rw [hunwritten, hbuffers, hcurrent]
    rfl
  cases event with
  | start => exact h.start hinv hs (Option.some.inj hfile).symm
  | append line =>
    obtain rfl := Option.some.inj hfile
    exact h.frame hinv rfl (append_frame hs).2.2.2.2.1
      (h.grouped.append h.logging hshort rfl hs)
  | advance => exact h.advance hinv hresults hs hfile
  | stop =>
    obtain ⟨-, rfl⟩ := stop_cases hs
    exact hflags rfl rfl rfl rfl rfl (Option.some.inj hfile)
  | clear =>
    obtain ⟨-, rfl⟩ := clear_cases hs
    exact hflags rfl rfl rfl rfl rfl (Option.some.inj hfile)
  | join =>
    obtain ⟨-, -, rfl⟩ := join_cases hs
    exact hflags rfl rfl rfl rfl rfl (Option.some.inj hfile)

theorem Inv.step (h : Inv c s) (hsound : s.Sound e) (hs : s.Step c e s') : Inv c s' := by
  unfold Step next at hs
  cases e with
  | log event results now rollNow =>
    obtain ⟨logging, hlogging, hrest⟩ := Option.bind_eq_some_iff.mp hs
    obtain ⟨output, houtput, rfl⟩ := Option.map_eq_some_iff.mp hrest
    exact h.log hsound.1 hsound.2 hlogging houtput
  | drain n =>
    obtain rfl := Option.some.inj hs
    refine ⟨h.logging, ?_, ?_, h.grouped.congr rfl ?_, fun hplace => ?_⟩
    · rw [Option.map_eq_none_iff]
      exact h.closed
    · intro file hfile
      obtain ⟨file', hfile', rfl⟩ := Option.map_eq_some_iff.mp hfile
      obtain ⟨now, es, hr, hes⟩ := h.opened file' hfile'
      have hdrain : LogFile.Step c.timebuf file' (.drain n) (file'.drain n) := rfl
      refine ⟨now, es++[.drain n], hr.snoc hdrain, fun e he => ?_⟩
      rcases List.mem_append.mp he with hmem | hmem
      · exact hes e hmem
      · rw [List.mem_singleton.mp hmem]
        trivial
    · rw [pieces, pieces, earlier, earlier, records, Option.map_map]
      rfl
    · intro file hfile f hf
      obtain ⟨file', hfile', rfl⟩ := Option.map_eq_some_iff.mp hfile
      obtain ⟨f', hf', rfl⟩ := Option.map_eq_some_iff.mp hf
      change f'.buffer.drop n = []
      rw [h.writtenOut hplace file' hfile' f' hf', List.drop_nil]

theorem inv_run (hr : Run (Guarded Sound (Step c)) {} es s) : Inv c s := by
  refine hr.invariant (fun _ _ _ h hs => Inv.step h hs.1 hs.2) ⟨inv_of_run (.nil _), ?_, ?_, ?_, ?_⟩
  · exact iff_of_true rfl rfl
  · intro file hfile
    cases hfile
  · exact ⟨[[]], rfl, rfl⟩
  · rintro (hplace | hplace | hplace | hplace) <;> cases hplace

end LoggingThread

end JingjieAR
