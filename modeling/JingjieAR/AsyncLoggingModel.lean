import JingjieAR.HttpRequestModel
import JingjieAR.TransitionRuns

/-! The log of the process: `append`, which fills buffers, and the thread that writes them to the
log file. A critical section of the mutex is one step, and so is a call of `LogFile::append`. -/
namespace JingjieAR

def kLargeBufferSize : ℕ := 4000*1000

/-- A buffer, by what has been written to it since it was reset. -/
structure FixedBuffer (size : ℕ) where
  data : Bytes := []
  fits : data.length ≤ size := by exact Nat.zero_le _

namespace FixedBuffer

variable {size : ℕ}

def avail (b : FixedBuffer size) : ℕ := size-b.data.length

/-- What does not fit is dropped. -/
def append (b : FixedBuffer size) (line : Bytes) : FixedBuffer size :=
  if h : line.length < b.avail then
    { data := b.data++line
      fits := by
        have hfits := b.fits
        unfold avail at h
        rw [List.length_append]
        omega }
  else b

theorem data_append {b : FixedBuffer size} {line : Bytes} (h : line.length < b.avail) :
    (b.append line).data = b.data++line := by
  unfold append
  rw [dif_pos h]

def reset (_ : FixedBuffer size) : FixedBuffer size := {}

end FixedBuffer

abbrev LargeBuffer := FixedBuffer kLargeBufferSize

/-- A `std::unique_ptr` of a buffer; `none` after it was moved from. -/
abbrev BufferPtr := Option LargeBuffer

inductive ConsumerStage
  | notStarted
  -- before the critical section; in `cond_.wait_for`
  | entering
  | waiting
  -- so many of `buffersToWrite` have been written
  | writing (k : ℕ)
  | refilling1
  | refilling2
  -- before the test of `running_` at the end of the round
  | testing
  | exited
deriving DecidableEq

inductive StopStage
  | notCalled
  | called
  -- `running_` has been cleared
  | joining
  | returned
deriving DecidableEq

structure AsyncLogging where
  running : Bool := false
  currentBuffer : BufferPtr := some {}
  nextBuffer : BufferPtr := some {}
  buffers : List BufferPtr := []
  -- the locals of `threadFunc`
  newbuffer1 : BufferPtr := none
  newbuffer2 : BufferPtr := none
  buffersToWrite : List BufferPtr := []
  consumer : ConsumerStage := .notStarted
  stop : StopStage := .notCalled
  -- what `LogFile::append` was given
  output : Bytes := []
  -- the lines that were appended, and those of them that were when `stop` was called
  appended : List Bytes := []
  before : List Bytes := []

inductive LogEvent
  | start
  | append (line : Bytes)
  | advance
  | stop
  -- the exchange of `running_`
  | clear
  | join

namespace AsyncLogging

/-- `start`, and `threadFunc` up to its loop. -/
def start (s : AsyncLogging) : AsyncLogging :=
  { s with running := true, newbuffer1 := some {}, newbuffer2 := some {}, consumer := .entering }

/-- There is no next state when the code would use a null pointer. -/
def append (s : AsyncLogging) (line : Bytes) : Option AsyncLogging :=
  match s.currentBuffer with
  | none => none
  | some current =>
    if line.length < current.avail then
      some { s with
        currentBuffer := some (current.append line), appended := s.appended++[line] }
    else
      some { s with
        buffers := s.buffers++[some current]
        currentBuffer := some ((s.nextBuffer.getD {}).append line)
        nextBuffer := none
        appended := s.appended++[line] }

/-- The critical section of `threadFunc` from the end of its wait. -/
def swap (s : AsyncLogging) : AsyncLogging :=
  { s with
    buffersToWrite := s.buffers++[s.currentBuffer]
    buffers := s.buffersToWrite
    currentBuffer := s.newbuffer1
    newbuffer1 := none
    nextBuffer := if s.nextBuffer.isSome then s.nextBuffer else s.newbuffer2
    newbuffer2 := if s.nextBuffer.isSome then s.newbuffer2 else none
    consumer := .writing 0 }

/-- One round of the loop that writes, or its end and the `resize` after it. -/
def write (s : AsyncLogging) (k : ℕ) : Option AsyncLogging :=
  match s.buffersToWrite[k]? with
  | some (some buffer) => some { s with output := s.output++buffer.data, consumer := .writing (k+1) }
  | some none => none
  | none => some { s with buffersToWrite := s.buffersToWrite.take 2, consumer := .refilling1 }

/-- A spare buffer that has been handed over is taken back; there is no result when `back()` is
asked of an empty vector, or a null pointer comes back. -/
def refill (spare : BufferPtr) (buffersToWrite : List BufferPtr) :
    Option (BufferPtr × List BufferPtr) :=
  match spare with
  | some buffer => some (some buffer, buffersToWrite)
  | none =>
    match buffersToWrite.getLast? with
    | some (some buffer) => some (some buffer.reset, buffersToWrite.dropLast)
    | _ => none

def advance (s : AsyncLogging) : Option AsyncLogging :=
  match s.consumer with
  | .entering =>
    if s.buffers.isEmpty && s.running then some { s with consumer := .waiting } else some s.swap
  -- notified, or after `flushInterval_`, or for no reason
  | .waiting => some s.swap
  | .writing k => s.write k
  | .refilling1 =>
    (refill s.newbuffer1 s.buffersToWrite).map (fun r =>
      { s with newbuffer1 := r.1, buffersToWrite := r.2, consumer := .refilling2 })
  | .refilling2 =>
    (refill s.newbuffer2 s.buffersToWrite).map (fun r =>
      { s with newbuffer2 := r.1, buffersToWrite := [], consumer := .testing })
  | .testing => some { s with consumer := if s.running then .entering else .exited }
  | .notStarted => none
  | .exited => none

def next (s : AsyncLogging) : LogEvent → Option AsyncLogging
  | .start =>
    match s.consumer with
    | .notStarted => some s.start
    | _ => none
  | .append line => s.append line
  | .advance => s.advance
  | .stop =>
    match s.stop with
    | .notCalled => some { s with stop := .called, before := s.appended }
    | _ => none
  | .clear =>
    match s.stop with
    | .called =>
      some { s with running := false, stop := if s.running then .joining else .returned }
    | _ => none
  | .join =>
    match s.stop, s.consumer with
    | .joining, .exited => some { s with stop := .returned }
    | _, _ => none

def Step (s : AsyncLogging) (e : LogEvent) (s' : AsyncLogging) : Prop := s.next e = some s'

/-- Lines that a buffer can hold. -/
def ShortLines (_ : AsyncLogging) : LogEvent → Prop
  | .append line => line.length < kLargeBufferSize
  | _ => True

/-- And a `stop` while the thread of the log runs. -/
def Calls (s : AsyncLogging) : LogEvent → Prop
  | .append line => line.length < kLargeBufferSize
  | .stop => s.consumer ≠ .notStarted
  | _ => True

theorem Calls.shortLines {s : AsyncLogging} {e : LogEvent} (h : s.Calls e) : s.ShortLines e := by
  cases e with
  | append line => exact h
  | _ => trivial

end AsyncLogging

end JingjieAR
