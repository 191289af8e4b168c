import JingjieAR.TcpConnectionOutput

/-! Two consequences of the registration of the channel. The write side is closed only
when nothing waits; and a write event makes progress, except that it never resumes a
file behind an empty buffer. -/
namespace JingjieAR.TcpConnection

open Runs (Run Guarded)

/-- A connection that has just been established, with any choice of callbacks. -/
def opened (writeComplete highWater : Bool) (mark : ℕ) : TcpConnection :=
  connectEstablished { writeCompleteCallback := writeComplete,
                       highWaterMarkCallback := highWater,
                       highWaterMark := mark }

def step (c : TcpConnection) (op : OutputOp) (c' : TcpConnection) : Prop := c.apply op = c'

theorem opened_registered (writeComplete highWater : Bool) (mark : ℕ) :
    (opened writeComplete highWater mark).Registered :=
  ⟨fun hf => absurd rfl hf, fun hb => absurd rfl hb⟩

theorem step_registered {c c' : TcpConnection} {op : OutputOp} (h : c.Registered)
    (hs : step c op c') : c'.Registered := by
  obtain rfl : c.apply op = c' := hs
  exact apply_registered h op

section HalfClose

variable {c : TcpConnection}

/-- After `shutdownWrite` the channel is idle and takes no new output. -/
structure HalfClosed (c : TcpConnection) : Prop where
  registered : c.Registered
  idle : c.writeShutdown = true → c.writing = false
  refusing : c.writeShutdown = true → c.state ≠ .kConnected

theorem HalfClosed.of_open (hreg : c.Registered) (hopen : c.writeShutdown = false) :
    c.HalfClosed :=
  ⟨hreg, fun h => absurd (hopen.symm.trans h) Bool.false_ne_true,
    fun h => absurd (hopen.symm.trans h) Bool.false_ne_true⟩

theorem HalfClosed.open_of_connected (h : c.HalfClosed) (hcon : c.state = .kConnected) :
    c.writeShutdown = false := by
  by_contra hs
  exact h.refusing (by simpa using hs) hcon

theorem HalfClosed.open_of_writing (h : c.HalfClosed) (hw : c.writing = true) :
    c.writeShutdown = false := by
  by_contra hs
  exact absurd ((h.idle (by simpa using hs)).symm.trans hw) Bool.false_ne_true

theorem send_writeShutdown (c : TcpConnection) (data : Bytes) (result : KernelResult) :
    (c.send data result).writeShutdown = c.writeShutdown := by
  obtain ⟨q, s, hsend | ⟨b, hsend⟩⟩ := c.send_frame data result
  · rw [hsend]
  · rw [hsend]

theorem sendPendingFile_writeShutdown (c : TcpConnection) (result : KernelResult) :
    (c.sendPendingFile result).writeShutdown = c.writeShutdown := by
  obtain ⟨s, p, files, w, hsend, -⟩ := c.sendPendingFile_frame result
  rw [hsend]

theorem sendFile_writeShutdown (c : TcpConnection) (file : OpenFile) (offset count : ℕ)
    (result : KernelResult) :
    (c.sendFile file offset count result).writeShutdown = c.writeShutdown := by
  obtain ⟨p, files, hclose, -⟩ := c.closePendingFile_frame
  unfold sendFile sendFileInLoop
  rw [hclose, ensureWriting_eq]
  dsimp only
  split_ifs
  · rfl
  · rw [sendPendingFile_writeShutdown]
  · rfl
  · rfl

/-- The half-close looks at the channel alone; the invariant ties it to the output. -/
theorem shutdownInLoop_halfClosed (hreg : c.Registered) (hopen : c.writeShutdown = false)
    (hcon : c.state ≠ .kConnected) : c.shutdownInLoop.HalfClosed := by
  refine ⟨shutdownInLoop_registered hreg, ?_, ?_⟩
  · unfold shutdownInLoop
    split_ifs with hw
    · intro _
      simpa using hw
    · intro hs
      exact absurd (hopen.symm.trans hs) Bool.false_ne_true
  · -- `shutdownInLoop` does not touch the state.
    intro _
    unfold shutdownInLoop
    split_ifs
    · exact hcon
    · exact hcon

theorem outputDrained_halfClosed (hreg : c.Registered) (hopen : c.writeShutdown = false)
    (result : KernelResult) : (c.outputDrained result).HalfClosed := by
  have hfile : (if c.pendingFile.fd ≠ none then c.sendPendingFile result else c).Registered ∧
      (if c.pendingFile.fd ≠ none then c.sendPendingFile result else c).writeShutdown = false := by
    split_ifs
    · exact ⟨sendPendingFile_registered hreg result,
        (sendPendingFile_writeShutdown c result).trans hopen⟩
    · exact ⟨hreg, hopen⟩
  unfold outputDrained
  generalize (if c.pendingFile.fd ≠ none then c.sendPendingFile result else c) = c₁ at hfile ⊢
  have hnote : c₁.noteWriteComplete.writeShutdown = false := by
    obtain ⟨q, w, hn, -⟩ := c₁.noteWriteComplete_frame
    rw [hn]
    exact hfile.2
  dsimp only
  split_ifs with hs
  · exact shutdownInLoop_halfClosed (noteWriteComplete_registered hfile.1) hnote (by simp [hs])
  · exact .of_open (noteWriteComplete_registered hfile.1) hnote

theorem handleWrite_halfClosed (h : c.HalfClosed) (written sent : KernelResult) :
    (c.handleWrite written sent).HalfClosed := by
  unfold handleWrite
  dsimp only
  split_ifs with hw
  · -- The event comes only while the channel writes, so the write side is still open.
    apply outputDrained_halfClosed
    · exact ⟨fun _ => hw, fun _ => hw⟩
    · exact h.open_of_writing hw
  · exact .of_open ⟨fun _ => hw, fun _ => hw⟩ (h.open_of_writing hw)
  · exact h
  · exact h

theorem apply_halfClosed (h : c.HalfClosed) (op : OutputOp) : (c.apply op).HalfClosed := by
  have hreg := apply_registered h.registered op
  cases op with
  | send data result =>
    by_cases hcon : c.state = .kConnected
    · exact .of_open hreg ((send_writeShutdown c data result).trans (h.open_of_connected hcon))
    · rw [apply, send, if_neg hcon]
      exact h
  | sendFile file offset count result =>
    -- A connection that is closing closes the file at once.
    by_cases hcon : c.state = .kConnected
    · exact .of_open hreg
        ((sendFile_writeShutdown c file offset count result).trans (h.open_of_connected hcon))
    · have hcon' : c.connected = false := by simp [connected, hcon]
      rw [apply, sendFile, hcon', if_neg Bool.false_ne_true]
      exact ⟨⟨h.registered.file, h.registered.buffer⟩, h.idle, h.refusing⟩
  | handleWrite written sent => exact handleWrite_halfClosed h written sent
  | shutdown =>
    unfold apply shutdown
    split_ifs with hcon
    · exact shutdownInLoop_halfClosed ⟨h.registered.file, h.registered.buffer⟩
        (h.open_of_connected hcon) (by simp)
    · exact h

theorem step_halfClosed {c' : TcpConnection} {op : OutputOp} (h : c.HalfClosed)
    (hs : step c op c') : c'.HalfClosed := by
  obtain rfl : c.apply op = c' := hs
  exact apply_halfClosed h op

/-- Whatever the calls and the answers of the system calls, the write side is closed only
when the buffer is empty and no file is open. -/
theorem idle_of_writeShutdown {writeComplete highWater : Bool} {mark : ℕ} {ops : List OutputOp}
    (h : Run step (opened writeComplete highWater mark) ops c) (hs : c.writeShutdown = true) :
    c.outputBuffer = [] ∧ c.pendingFile.fd = none := by
  have hstart : (opened writeComplete highWater mark).HalfClosed :=
    .of_open (opened_registered _ _ _) rfl
  have hinv : c.HalfClosed := h.invariant (fun _ _ _ => step_halfClosed) hstart
  have hw := hinv.idle hs
  refine ⟨?_, ?_⟩
  · by_contra hb
    exact absurd (hw.symm.trans (hinv.registered.buffer hb)) Bool.false_ne_true
  · by_contra hf
    exact absurd (hw.symm.trans (hinv.registered.file hf)) Bool.false_ne_true

/-- `shutdown` comes while a header and a file wait, and `write` and `sendfile` fail once
each; the write side is closed when the file has been given up. -/
theorem idle_of_writeShutdown_behind_file :
    ∃ ops c, Run step (opened true false 8) ops c ∧ c.writeShutdown = true ∧
      c.socket = ascii "OK" ∧ c.outputBuffer = [] ∧ c.pendingFile.fd = none := by
  let ops : List OutputOp := [.send (ascii "OK") (.accepted 1),
    .sendFile ⟨3, ascii "file"⟩ 0 4 .wouldBlock, .shutdown, .handleWrite .failed .wouldBlock,
    .handleWrite (.accepted 1) .failed]
  have hrun : Run step (opened true false 8) ops (ops.foldl apply (opened true false 8)) :=
    .cons rfl (.cons rfl (.cons rfl (.cons rfl (.cons rfl (.nil _)))))
  exact ⟨ops, _, hrun, by decide, by decide, idle_of_writeShutdown hrun (by decide)⟩

end HalfClose

section Progress

variable {c : TcpConnection}

/-- Bytes that wait, as the connection counts them. -/
def pendingBytes (c : TcpConnection) : ℕ := c.outputBuffer.length+c.pendingFile.remaining

def OutputPending (c : TcpConnection) : Prop :=
  c.outputBuffer ≠ [] ∨ (c.pendingFile.fd ≠ none ∧ 0 < c.pendingFile.remaining)

/-- The socket accepts a byte: the first system call with bytes to offer takes some. -/
def SocketAccepts (c : TcpConnection) (written sent : KernelResult) : Prop :=
  if c.outputBuffer ≠ [] then ∃ n, written = .accepted n ∧ 0 < n
  else ∃ n, sent = .accepted n ∧ 0 < n

/-- The file has all the bytes that are still asked of it. -/
def FileSupplies (c : TcpConnection) : Prop :=
  ∀ file, c.pendingFile.fd = some file →
    c.pendingFile.offset+c.pendingFile.remaining ≤ file.content.length

theorem closeIfDone_remaining_le (c : TcpConnection) (result : KernelResult) :
    (c.closeIfDone result).pendingFile.remaining ≤ c.pendingFile.remaining := by
  have hclose : c.closePendingFile.pendingFile.remaining ≤ c.pendingFile.remaining := by
    unfold closePendingFile
    split
    · exact Nat.zero_le _
    · exact le_rfl
  unfold closeIfDone
  split_ifs
  · exact hclose
  · exact hclose
  · exact le_rfl

theorem sendPendingFile_pendingBytes_le (c : TcpConnection) (result : KernelResult) :
    (c.sendPendingFile result).pendingBytes ≤ c.pendingBytes := by
  unfold sendPendingFile
  split
  · exact le_rfl
  · rename_i file hf
    split_ifs
    · exact le_rfl
    · have hrel (c : TcpConnection) : c.releaseChannel.pendingBytes = c.pendingBytes := by
        rcases c.releaseChannel_frame with h | ⟨-, -, h⟩
        · rw [h]
        · rw [h]
          rfl
      obtain ⟨p, files, hclose⟩ := (c.sendfile file result).closeIfDone_frame result
      have hle := (c.sendfile file result).closeIfDone_remaining_le result
      have hsent : (c.sendfile file result).pendingFile.remaining ≤ c.pendingFile.remaining :=
        Nat.sub_le _ _
      rw [hrel]
      rw [hclose] at hle ⊢
      have hbuf : (c.sendfile file result).outputBuffer = c.outputBuffer := rfl
      simp only [pendingBytes, hbuf] at hle ⊢
      omega

theorem outputDrained_pendingBytes_le (c : TcpConnection) (result : KernelResult) :
    (c.outputDrained result).pendingBytes ≤ c.pendingBytes := by
  have hfile : (if c.pendingFile.fd ≠ none then c.sendPendingFile result else c).pendingBytes ≤
      c.pendingBytes := by
    split_ifs
    · exact sendPendingFile_pendingBytes_le c result
    · exact le_rfl
  unfold outputDrained
  generalize (if c.pendingFile.fd ≠ none then c.sendPendingFile result else c) = c₁ at hfile ⊢
  obtain ⟨q, w, hnote, -⟩ := c₁.noteWriteComplete_frame
  have hshut (c : TcpConnection) : c.shutdownInLoop.pendingBytes = c.pendingBytes := by
    unfold shutdownInLoop
    split_ifs
    · rfl
    · rfl
  dsimp only
  split_ifs
  · rw [hshut, hnote]
    exact hfile
  · rw [hnote]
    exact hfile

/-- Behind an empty buffer the event is taken for a failed write: nothing happens, and
the file waits for ever. -/
theorem handleWrite_of_empty (hb : c.outputBuffer = []) (written sent : KernelResult) :
    c.handleWrite written sent = c := by
  have htaken : written.taken c.outputBuffer = [] := by
    rw [hb]
    cases written with
    | accepted n => exact List.take_nil
    | wouldBlock => rfl
    | peerGone => rfl
    | failed => rfl
  unfold handleWrite
  rw [htaken]
  simp

theorem handleWrite_pendingBytes_lt (hw : c.writing = true) (hb : c.outputBuffer ≠ []) {n : ℕ}
    (hn : 0 < n) (sent : KernelResult) :
    (c.handleWrite (.accepted n) sent).pendingBytes < c.pendingBytes := by
  have hlen : 0 < c.outputBuffer.length := List.length_pos_iff.mpr hb
  have htaken : 0 < (KernelResult.taken (.accepted n) c.outputBuffer).length := by
    simp only [KernelResult.taken, List.length_take]
    omega
  let c₁ : TcpConnection := { c with
    socket := c.socket++KernelResult.taken (.accepted n) c.outputBuffer,
    outputBuffer :=
      c.outputBuffer.drop (KernelResult.taken (.accepted n) c.outputBuffer).length }
  have hless : c₁.pendingBytes < c.pendingBytes := by
    simp only [pendingBytes, c₁, List.length_drop]
    omega
  have hwrite : c.handleWrite (.accepted n) sent =
      if c₁.outputBuffer.length = 0 then c₁.outputDrained sent else c₁ := by
    rw [handleWrite, if_pos hw]
    exact if_pos htaken
  rw [hwrite]
  split_ifs
  · exact (outputDrained_pendingBytes_le c₁ sent).trans_lt hless
  · exact hless

/-- In every state that is reached without errors, waiting output has the channel
registered, and a write event on a socket that accepts a byte makes progress exactly
when the buffer is not empty. -/
theorem handleWrite_progress_iff {writeComplete highWater : Bool} {mark : ℕ}
    {ops : List OutputOp}
    (h : Run (Guarded (fun _ op => op.Ok) step) (opened writeComplete highWater mark) ops c)
    (hp : c.OutputPending) :
    c.writing = true ∧ ∀ written sent, c.SocketAccepts written sent →
      ((c.handleWrite written sent).pendingBytes < c.pendingBytes ↔ c.outputBuffer ≠ []) := by
  have hreg : c.Registered :=
    h.unguarded.invariant (fun _ _ _ => step_registered) (opened_registered _ _ _)
  have hw : c.writing = true := by
    rcases hp with hb | ⟨hf, -⟩
    · exact hreg.buffer hb
    · exact hreg.file hf
  refine ⟨hw, ?_⟩
  intro written sent haccept
  constructor
  · -- With an empty buffer the event changes nothing at all.
    intro hlt hb
    rw [handleWrite_of_empty hb] at hlt
    exact absurd hlt (lt_irrefl _)
  · intro hb
    rw [SocketAccepts, if_pos hb] at haccept
    obtain ⟨n, rfl, hn⟩ := haccept
    exact handleWrite_pendingBytes_lt hw hb hn sent

/-- A file behind a header that did not leave at once is resumed. -/
theorem handleWrite_progress_behind_header :
    ∃ ops c, Run (Guarded (fun _ op => op.Ok) step) (opened true false 8) ops c ∧
      c.OutputPending ∧ c.writing = true ∧ c.outputBuffer ≠ [] ∧
      (c.handleWrite (.accepted 1) (.accepted 2)).pendingBytes < c.pendingBytes := by
  let ops : List OutputOp :=
    [.send (ascii "OK") (.accepted 1), .sendFile ⟨3, ascii "file"⟩ 0 4 .wouldBlock]
  have hrun : Run (Guarded (fun _ op => op.Ok) step) (opened true false 8) ops
      (ops.foldl apply (opened true false 8)) :=
    .cons ⟨trivial, rfl⟩ (.cons ⟨trivial, rfl⟩ (.nil _))
  have hb : (ops.foldl apply (opened true false 8)).outputBuffer ≠ [] := by decide
  obtain ⟨hw, hlt⟩ := handleWrite_progress_iff hrun (.inl hb)
  have haccept : (ops.foldl apply (opened true false 8)).SocketAccepts (.accepted 1)
      (.accepted 2) := by
    rw [SocketAccepts, if_pos hb]
    exact ⟨1, rfl, Nat.one_pos⟩
  exact ⟨ops, _, hrun, .inl hb, hw, hb, (hlt _ _ haccept).mpr hb⟩

/-- The header has left at once and the socket has taken half of the file: the write
event that could send the rest does nothing. -/
theorem file_never_resumed :
    ∃ ops c, Run (Guarded (fun _ op => op.Ok) step) (opened true false 8) ops c ∧
      c.OutputPending ∧ c.FileSupplies ∧ c.SocketAccepts (.accepted 2) (.accepted 2) ∧
      ¬(c.handleWrite (.accepted 2) (.accepted 2)).pendingBytes < c.pendingBytes := by
  let ops : List OutputOp :=
    [.send (ascii "OK") (.accepted 2), .sendFile ⟨3, ascii "file"⟩ 0 4 (.accepted 2)]
  refine ⟨ops, ops.foldl apply (opened true false 8), ?_, .inr (by decide), ?_, ?_, by decide⟩
  · exact .cons ⟨trivial, rfl⟩ (.cons ⟨trivial, rfl⟩ (.nil _))
  · intro file hf
    obtain rfl : (⟨3, ascii "file"⟩ : OpenFile) = file := Option.some.inj hf
    decide
  · rw [SocketAccepts, if_neg (by decide)]
    exact ⟨2, rfl, Nat.two_pos⟩

end Progress

end JingjieAR.TcpConnection
