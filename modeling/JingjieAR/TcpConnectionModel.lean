import JingjieAR.HttpRequestModel

/-! The output side of a connection. What is still to be sent stands in two places,
`outputBuffer` and the one slot `pendingFile`; the result of each `write` and `sendfile`
is chosen by the kernel and given with the call. All calls are made in the loop thread. -/
namespace JingjieAR

inductive StateE
  | kDisconnected
  | kConnecting
  | kConnected
  | kDisconnecting
deriving DecidableEq

/-- The result of a `write` or a `sendfile`. -/
inductive KernelResult
  | accepted (n : ℕ)
  | wouldBlock
  -- `EPIPE` or `ECONNRESET`
  | peerGone
  | failed
deriving DecidableEq

/-- The bytes that leave with this result, of those that were offered. -/
def KernelResult.taken : KernelResult → Bytes → Bytes
  | .accepted n, data => data.take n
  | .wouldBlock, _ => []
  | .peerGone, _ => []
  | .failed, _ => []

/-- A file open for reading. -/
structure OpenFile where
  descriptor : ℕ
  content : Bytes
deriving DecidableEq

/-- `fd` is `none` where the source has a negative number. -/
structure PendingFile where
  fd : Option OpenFile := none
  offset : ℕ := 0
  remaining : ℕ := 0
deriving DecidableEq

inductive QueuedCallback
  | writeComplete
  | highWaterMark (pending : ℕ)
deriving DecidableEq

structure TcpConnection where
  state : StateE := .kConnecting
  -- `channel_->isWriting()`
  writing : Bool := false
  outputBuffer : Bytes := []
  pendingFile : PendingFile := {}
  writeCompleteCallback : Bool := false
  highWaterMarkCallback : Bool := false
  highWaterMark : ℕ := 64*1024*1024
  -- callbacks given to `queueInLoop`
  queued : List QueuedCallback := []
  -- every byte that the kernel has taken
  socket : Bytes := []
  -- `socket_->shutdownWrite()` was called
  writeShutdown : Bool := false
  -- files given to `::close`
  closedFiles : List OpenFile := []
deriving DecidableEq

namespace TcpConnection

def connected (c : TcpConnection) : Bool := c.state = .kConnected

def connectEstablished (c : TcpConnection) : TcpConnection := { c with state := .kConnected }

def enableWriting (c : TcpConnection) : TcpConnection := { c with writing := true }

def disableWriting (c : TcpConnection) : TcpConnection := { c with writing := false }

def queueInLoop (c : TcpConnection) (callback : QueuedCallback) : TcpConnection :=
  { c with queued := c.queued++[callback] }

/-- The first part of `sendInLoop`: write at once when nothing is waiting. It gives the
data that remain and whether the peer is gone. -/
def writeDirect (c : TcpConnection) (data : Bytes) (result : KernelResult) :
    TcpConnection × Bytes × Bool :=
  if !c.writing && c.outputBuffer.length == 0 then
    match result with
    | .accepted n =>
      let c₁ := { c with socket := c.socket++data.take n }
      let remaining := data.drop n
      -- All data left at once, so no write event will report it.
      if remaining.length = 0 ∧ c.writeCompleteCallback then
        (c₁.queueInLoop .writeComplete, remaining, false)
      else (c₁, remaining, false)
    | .wouldBlock => (c, data, false)
    | .peerGone => (c, data, true)
    | .failed => (c, data, false)
  else (c, data, false)

/-- `if (!channel_->isWriting()) channel_->enableWriting();` -/
def ensureWriting (c : TcpConnection) : TcpConnection :=
  if !c.writing then c.enableWriting else c

/-- The callback is queued when the buffer is about to pass the mark. -/
def checkHighWaterMark (c : TcpConnection) (remaining : ℕ) : TcpConnection :=
  let oldLen := c.outputBuffer.length
  if oldLen+remaining ≥ c.highWaterMark ∧ oldLen < c.highWaterMark ∧ c.highWaterMarkCallback then
    c.queueInLoop (.highWaterMark (oldLen+remaining))
  else c

/-- The second part: keep what remains and ask for write events. -/
def keepRemaining (c : TcpConnection) (remaining : Bytes) : TcpConnection :=
  let c₁ := c.checkHighWaterMark remaining.length
  { c₁ with outputBuffer := c₁.outputBuffer++remaining }.ensureWriting

/-- A disconnected connection is only reported in the log; the write goes on. -/
def sendInLoop (c : TcpConnection) (data : Bytes) (result : KernelResult) : TcpConnection :=
  match c.writeDirect data result with
  | (c₁, remaining, faultError) =>
    if !faultError && remaining.length > 0 then c₁.keepRemaining remaining else c₁

def send (c : TcpConnection) (data : Bytes) (result : KernelResult) : TcpConnection :=
  if c.state = .kConnected then c.sendInLoop data result else c

def shutdownInLoop (c : TcpConnection) : TcpConnection :=
  if !c.writing then { c with writeShutdown := true } else c

def shutdown (c : TcpConnection) : TcpConnection :=
  if c.state = .kConnected then { c with state := .kDisconnecting }.shutdownInLoop else c

def closePendingFile (c : TcpConnection) : TcpConnection :=
  match c.pendingFile.fd with
  | some file =>
    { c with pendingFile := { c.pendingFile with fd := none, remaining := 0 },
             closedFiles := c.closedFiles++[file] }
  | none => c

/-- `::sendfile` moves the offset by what it has sent. -/
def sendfile (c : TcpConnection) (file : OpenFile) (result : KernelResult) : TcpConnection :=
  let sent := result.taken ((file.content.drop c.pendingFile.offset).take c.pendingFile.remaining)
  { c with socket := c.socket++sent,
           pendingFile := { c.pendingFile with
             offset := c.pendingFile.offset+sent.length,
             remaining := c.pendingFile.remaining-sent.length } }

/-- Close a file that is sent or cannot be read. -/
def closeIfDone (c : TcpConnection) (result : KernelResult) : TcpConnection :=
  if c.pendingFile.remaining = 0 then c.closePendingFile
  -- The rest of a file that cannot be sent is given up.
  else if result = .peerGone ∨ result = .failed then c.closePendingFile
  else c

/-- No write events are wanted when nothing is left to send. -/
def releaseChannel (c : TcpConnection) : TcpConnection :=
  if c.pendingFile.fd = none ∧ c.outputBuffer.length = 0 ∧ c.writing then c.disableWriting else c

def sendPendingFile (c : TcpConnection) (result : KernelResult) : TcpConnection :=
  match c.pendingFile.fd with
  | none => c
  | some file =>
    if c.outputBuffer.length ≠ 0 then c
    else ((c.sendfile file result).closeIfDone result).releaseChannel

def sendFileInLoop (c : TcpConnection) (file : OpenFile) (offset count : ℕ)
    (result : KernelResult) : TcpConnection :=
  if c.state = .kDisconnected then { c with closedFiles := c.closedFiles++[file] }
  else
    -- A file that is still being sent is dropped here.
    let c₁ := { c.closePendingFile with
      pendingFile := { fd := some file, offset := offset, remaining := count } }.ensureWriting
    -- Behind buffered text the file waits for `handleWrite`.
    if c₁.outputBuffer.length = 0 then c₁.sendPendingFile result else c₁

def sendFile (c : TcpConnection) (file : OpenFile) (offset count : ℕ) (result : KernelResult) :
    TcpConnection :=
  if c.connected then c.sendFileInLoop file offset count result
  else { c with closedFiles := c.closedFiles++[file] }

/-- The connection is idle again: no write events, and the callback. -/
def noteWriteComplete (c : TcpConnection) : TcpConnection :=
  let c₁ := if c.outputBuffer.length = 0 ∧ c.pendingFile.fd = none then c.disableWriting else c
  if c₁.outputBuffer.length = 0 ∧ c₁.pendingFile.fd = none ∧ c₁.writeCompleteCallback then
    c₁.queueInLoop .writeComplete
  else c₁

/-- What `handleWrite` does when the buffer has run empty. -/
def outputDrained (c : TcpConnection) (result : KernelResult) : TcpConnection :=
  let c₁ := if c.pendingFile.fd ≠ none then c.sendPendingFile result else c
  let c₂ := c₁.noteWriteComplete
  if c₂.state = .kDisconnecting then c₂.shutdownInLoop else c₂

/-- `written` is the result of writing the buffer, `sent` that of a `sendfile` after it. -/
def handleWrite (c : TcpConnection) (written sent : KernelResult) : TcpConnection :=
  if c.writing then
    let n := (written.taken c.outputBuffer).length
    if n > 0 then
      let c₁ := { c with socket := c.socket++written.taken c.outputBuffer,
                         outputBuffer := c.outputBuffer.drop n }
      -- The file has its turn only when the buffer has run empty.
      if c₁.outputBuffer.length = 0 then c₁.outputDrained sent else c₁
    else c
  else c

@[simp] theorem closePendingFile_state (c : TcpConnection) :
    c.closePendingFile.state = c.state := by
  unfold closePendingFile
  split <;> rfl

@[simp] theorem ensureWriting_state (c : TcpConnection) : c.ensureWriting.state = c.state := by
  unfold ensureWriting
  split <;> rfl

theorem sendInLoop_state (c : TcpConnection) (data : Bytes) (result : KernelResult) :
    (c.sendInLoop data result).state = c.state := by
  have hdirect : (c.writeDirect data result).1.state = c.state := by
    unfold writeDirect
    split_ifs
    · cases result with
      | accepted n => dsimp only; split_ifs <;> rfl
      | wouldBlock => rfl
      | peerGone => rfl
      | failed => rfl
    · rfl
  have hkeep (c : TcpConnection) (remaining : Bytes) :
      (c.keepRemaining remaining).state = c.state := by
    simp only [keepRemaining, ensureWriting_state, checkHighWaterMark]
    split_ifs <;> rfl
  unfold sendInLoop
  dsimp only
  split_ifs
  · rw [hkeep, hdirect]
  · exact hdirect

@[simp] theorem send_state (c : TcpConnection) (data : Bytes) (result : KernelResult) :
    (c.send data result).state = c.state := by
  unfold send
  split_ifs
  · exact sendInLoop_state c data result
  · rfl

theorem sendPendingFile_state (c : TcpConnection) (result : KernelResult) :
    (c.sendPendingFile result).state = c.state := by
  have hclose (c : TcpConnection) : (c.closeIfDone result).state = c.state := by
    unfold closeIfDone
    split_ifs <;> simp
  have hrelease (c : TcpConnection) : c.releaseChannel.state = c.state := by
    unfold releaseChannel
    split_ifs <;> rfl
  unfold sendPendingFile
  split
  · rfl
  · split_ifs
    · rfl
    · rw [hrelease, hclose]
      rfl

@[simp] theorem sendFile_state (c : TcpConnection) (file : OpenFile) (offset count : ℕ)
    (result : KernelResult) : (c.sendFile file offset count result).state = c.state := by
  unfold sendFile sendFileInLoop
  split_ifs
  · rfl
  · dsimp only
    split_ifs <;> simp [sendPendingFile_state]
  · rfl

/-- `shutdown` is the one call that changes the state, and only of a connected connection. -/
@[simp] theorem shutdown_state (c : TcpConnection) :
    c.shutdown.state = if c.state = .kConnected then .kDisconnecting else c.state := by
  unfold shutdown shutdownInLoop
  split_ifs <;> rfl

@[simp] theorem handleWrite_state (c : TcpConnection) (written sent : KernelResult) :
    (c.handleWrite written sent).state = c.state := by
  have hnote (c : TcpConnection) : c.noteWriteComplete.state = c.state := by
    unfold noteWriteComplete
    dsimp only
    split_ifs <;> rfl
  have hdrained (c : TcpConnection) : (c.outputDrained sent).state = c.state := by
    unfold outputDrained shutdownInLoop
    dsimp only
    split_ifs <;> simp only [hnote, sendPendingFile_state]
  unfold handleWrite
  dsimp only
  split_ifs
  · rw [hdrained]
  · rfl
  · rfl
  · rfl

end TcpConnection

/-- What can happen to the output of a connection in its loop thread, with the results
of the system calls it may make. -/
inductive OutputOp
  | send (data : Bytes) (result : KernelResult)
  | sendFile (file : OpenFile) (offset count : ℕ) (result : KernelResult)
  | handleWrite (written sent : KernelResult)
  | shutdown
deriving DecidableEq

def TcpConnection.apply (c : TcpConnection) : OutputOp → TcpConnection
  | .send data result => c.send data result
  | .sendFile file offset count result => c.sendFile file offset count result
  | .handleWrite written sent => c.handleWrite written sent
  | .shutdown => c.shutdown

end JingjieAR
