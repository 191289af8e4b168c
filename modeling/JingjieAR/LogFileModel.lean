import JingjieAR.AsyncLoggingModel

/-! The log file that rolls: when it has grown too long, and at a check after so many records when
the day is another one. The C library holds back what is written until a flush or until it writes
some of it by itself. -/
namespace JingjieAR

/-- What a call of `fwrite_unlocked` took, and what `ferror` says after it. -/
structure FwriteResult where
  n : ℕ
  failed : Bool := false

structure FileUtil where
  fileName : Bytes
  -- what the library holds back
  buffer : Bytes := []
  writtenBytes : ℕ := 0
deriving DecidableEq

/-- The loop of `append`. There is no result when more was taken than was given, or when the calls
do not suffice. -/
def FileUtil.appendFrom (f : FileUtil) (remain : Bytes) (writen : ℕ) :
    List FwriteResult → Option FileUtil
  | [] => if remain = [] then some { f with writtenBytes := f.writtenBytes+writen } else none
  | r :: results =>
    if remain = [] then some { f with writtenBytes := f.writtenBytes+writen }
    else if r.n > remain.length then none
    -- what this call took is not counted
    else if r.n ≠ remain.length ∧ r.failed then
      some { f with buffer := f.buffer++remain.take r.n, writtenBytes := f.writtenBytes+writen }
    else { f with buffer := f.buffer++remain.take r.n }.appendFrom (remain.drop r.n) (writen+r.n)
      results

def FileUtil.append (f : FileUtil) (data : Bytes) (results : List FwriteResult) :
    Option FileUtil :=
  f.appendFrom data 0 results

/-- A call of `LogFile::append`, with the file that it went to. -/
structure LogRecord where
  -- when the file was opened, and its name
  opened : ℤ
  fileName : Bytes
  -- what was given, what the library has taken of it, and how much was counted
  data : Bytes
  taken : Bytes
  counted : ℕ
  -- the clock, at the end of the write and where the file would be rolled
  now : ℤ
  rollNow : ℤ

structure LogFile where
  basename : Bytes
  rollsize : ℤ
  flushInterval : ℤ
  checkEveryN : ℤ
  -- the constructor leaves it as it is
  count : ℤ
  startOfPeriod : ℤ := 0
  lastRoll : ℤ := 0
  lastFlush : ℤ := 0
  file : Option FileUtil := none
  -- what is in the files of the directory, by their names
  disk : Bytes → Bytes
  -- the calls of `append` so far, and the last time that was read
  records : List LogRecord := []
  clock : ℤ := 0

inductive LogFileEvent
  -- with the two readings of the clock
  | append (data : Bytes) (results : List FwriteResult) (now rollNow : ℤ)
  | flush
  -- the library writes some of what it holds
  | drain (n : ℕ)

namespace LogFile

def kRollPerSeconds : ℤ := 60*60*24

/-- `now / kRollPerSeconds_ * kRollPerSeconds_` -/
def period (now : ℤ) : ℤ := now.tdiv kRollPerSeconds*kRollPerSeconds

/-- What the library holds goes to the file. -/
def writeOut (disk : Bytes → Bytes) : Option FileUtil → Bytes → Bytes
  | none => disk
  | some f => Function.update disk f.fileName (disk f.fileName++f.buffer)

def flush (s : LogFile) : LogFile :=
  { s with
    disk := writeOut s.disk s.file
    file := s.file.map (fun f => { f with buffer := [] }) }

variable (timebuf : ℤ → Bytes)

/-- The local time, as `strftime` writes it, comes behind the name. -/
def getLogFileName (basename : Bytes) (now : ℤ) : Bytes :=
  basename++(timebuf now++ascii ".log")

/-- The old file is closed, and what the library held of it written. -/
def rollFile (s : LogFile) (now : ℤ) : LogFile :=
  if now > s.lastRoll then
    { s with
      lastFlush := now
      lastRoll := now
      startOfPeriod := period now
      file := some { fileName := getLogFileName timebuf s.basename now }
      disk := writeOut s.disk s.file }
  else s

def opened (basename : Bytes) (rollsize flushInterval checkEveryN count : ℤ)
    (disk : Bytes → Bytes) (now : ℤ) : LogFile :=
  LogFile.rollFile timebuf
    { basename := basename
      rollsize := rollsize
      flushInterval := flushInterval
      checkEveryN := checkEveryN
      count := count
      disk := disk
      clock := now } now

/-- The second half of `appendInlock`, behind the write and the count. -/
def check (s : LogFile) (writtenBytes : ℕ) (now rollNow : ℤ) : LogFile :=
  if writtenBytes > s.rollsize then s.rollFile timebuf rollNow
  else if s.count ≥ s.checkEveryN then
    if period now ≠ s.startOfPeriod then { s with count := 0 }.rollFile timebuf rollNow
    else { s with count := 0 }
  else s

/-- There is no result when the file was never opened. -/
def appendInlock (s : LogFile) (data : Bytes) (results : List FwriteResult) (now rollNow : ℤ) :
    Option LogFile :=
  match s.file with
  | none => none
  | some f =>
    (f.append data results).map (fun f₁ =>
      let record : LogRecord :=
        { opened := s.lastRoll
          fileName := f.fileName
          data := data
          taken := f₁.buffer.drop f.buffer.length
          counted := f₁.writtenBytes-f.writtenBytes
          now := now
          rollNow := rollNow }
      let s₁ := { s with
        file := some f₁, count := s.count+1, records := s.records++[record], clock := rollNow }
      let s₂ := s₁.check timebuf f₁.writtenBytes now rollNow
      if now-s₂.lastFlush > s₂.flushInterval then { s₂ with lastFlush := now }.flush else s₂)

def drain (s : LogFile) (n : ℕ) : LogFile :=
  { s with
    disk := writeOut s.disk (s.file.map (fun f => { f with buffer := f.buffer.take n }))
    file := s.file.map (fun f => { f with buffer := f.buffer.drop n }) }

def next (s : LogFile) : LogFileEvent → Option LogFile
  | .append data results now rollNow => s.appendInlock timebuf data results now rollNow
  | .flush => some s.flush
  | .drain n => some (s.drain n)

def Step (s : LogFile) (e : LogFileEvent) (s' : LogFile) : Prop := s.next timebuf e = some s'

/-- The clock does not go back. -/
def OnTime (s : LogFile) : LogFileEvent → Prop
  | .append _ _ now rollNow => s.clock ≤ now ∧ now ≤ rollNow
  | .flush => True
  | .drain _ => True

end LogFile

end JingjieAR
