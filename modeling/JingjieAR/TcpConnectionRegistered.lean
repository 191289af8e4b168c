import JingjieAR.TcpConnectionModel
import JingjieAR.TransitionRuns

/-! What the operations of a connection leave alone, and the invariant of its channel:
whatever the system calls answer, it is registered for writing while output waits. -/
namespace JingjieAR.TcpConnection

/-- The channel is registered for writing while output is waiting. -/
structure Registered (c : TcpConnection) : Prop where
  file : c.pendingFile.fd ≠ none → c.writing = true
  buffer : c.outputBuffer ≠ [] → c.writing = true

section Frames

variable (c : TcpConnection)

theorem ensureWriting_eq : c.ensureWriting = { c with writing := true } := by
  unfold ensureWriting enableWriting
  cases hw : c.writing with
  | false => rfl
  | true => simp [← hw]

theorem checkHighWaterMark_frame (remaining : ℕ) :
    ∃ q, c.checkHighWaterMark remaining = { c with queued := q } := by
  unfold checkHighWaterMark
  dsimp only
  split_ifs
  · exact ⟨_, rfl⟩
  · exact ⟨c.queued, rfl⟩

theorem keepRemaining_frame (remaining : Bytes) :
    ∃ q, c.keepRemaining remaining =
      { c with outputBuffer := c.outputBuffer++remaining, writing := true, queued := q } := by
  obtain ⟨q, hq⟩ := c.checkHighWaterMark_frame remaining.length
  refine ⟨q, ?_⟩
  unfold keepRemaining
  rw [hq, ensureWriting_eq]

/-- The direct write does not touch the channel, the buffer or the file. -/
theorem writeDirect_keeps (data : Bytes) (result : KernelResult) :
    ∃ q s, (c.writeDirect data result).1 = { c with queued := q, socket := s } := by
  unfold writeDirect
  split_ifs
  · cases result with
    | accepted n =>
      dsimp only
      split_ifs
      · exact ⟨_, _, rfl⟩
      · exact ⟨c.queued, _, rfl⟩
    | wouldBlock => exact ⟨c.queued, c.socket, rfl⟩
    | peerGone => exact ⟨c.queued, c.socket, rfl⟩
    | failed => exact ⟨c.queued, c.socket, rfl⟩
  · exact ⟨c.queued, c.socket, rfl⟩

/-- Bytes are put into the buffer only together with the registration. -/
theorem send_frame (data : Bytes) (result : KernelResult) :
    ∃ q s, c.send data result = { c with queued := q, socket := s } ∨
      ∃ b, c.send data result =
        { c with queued := q, socket := s, outputBuffer := b, writing := true } := by
  unfold send
  split_ifs
  · obtain ⟨q, s, hdirect⟩ := c.writeDirect_keeps data result
    unfold sendInLoop
    dsimp only
    split_ifs
    · obtain ⟨q', hkeep⟩ := keepRemaining_frame { c with queued := q, socket := s }
        (c.writeDirect data result).2.1
      rw [hdirect, hkeep]
      exact ⟨q', s, .inr ⟨_, rfl⟩⟩
    · exact ⟨q, s, .inl hdirect⟩
  · exact ⟨c.queued, c.socket, .inl rfl⟩

theorem closePendingFile_frame :
    ∃ p files, c.closePendingFile = { c with pendingFile := p, closedFiles := files } ∧
      p.fd = none := by
  unfold closePendingFile
  cases hf : c.pendingFile.fd with
  | some file => exact ⟨_, _, rfl, rfl⟩
  | none => exact ⟨c.pendingFile, c.closedFiles, rfl, hf⟩

theorem closeIfDone_frame (result : KernelResult) :
    ∃ p files, c.closeIfDone result = { c with pendingFile := p, closedFiles := files } := by
  obtain ⟨p, files, hclose, -⟩ := c.closePendingFile_frame
  unfold closeIfDone
  split_ifs
  · exact ⟨p, files, hclose⟩
  · exact ⟨p, files, hclose⟩
  · exact ⟨c.pendingFile, c.closedFiles, rfl⟩

/-- The channel is released only when nothing waits any more. -/
theorem releaseChannel_frame : c.releaseChannel = c ∨
    (c.pendingFile.fd = none ∧ c.outputBuffer = [] ∧
      c.releaseChannel = { c with writing := false }) := by
  unfold releaseChannel
  split_ifs with h
  · exact .inr ⟨h.1, List.length_eq_zero_iff.mp h.2.1, rfl⟩
  · exact .inl rfl

theorem sendPendingFile_frame (result : KernelResult) :
    ∃ s p files w, c.sendPendingFile result =
      { c with socket := s, pendingFile := p, closedFiles := files, writing := w } ∧
      (w = c.writing ∨ (p.fd = none ∧ c.outputBuffer = [])) := by
  have hsame : ∃ s p files w, c =
      { c with socket := s, pendingFile := p, closedFiles := files, writing := w } ∧
      (w = c.writing ∨ (p.fd = none ∧ c.outputBuffer = [])) :=
    ⟨c.socket, c.pendingFile, c.closedFiles, c.writing, rfl, .inl rfl⟩
  unfold sendPendingFile
  split
  · exact hsame
  · rename_i file hf
    split_ifs
    · exact hsame
    · obtain ⟨p, files, hclose⟩ := (c.sendfile file result).closeIfDone_frame result
      rcases ((c.sendfile file result).closeIfDone result).releaseChannel_frame with
        hrel | ⟨hfd, hbuf, hrel⟩
      · rw [hrel, hclose]
        exact ⟨_, p, files, _, rfl, .inl rfl⟩
      · rw [hrel]
        rw [hclose] at hfd hbuf ⊢
        exact ⟨_, p, files, _, rfl, .inr ⟨hfd, hbuf⟩⟩

theorem noteWriteComplete_frame :
    ∃ q w, c.noteWriteComplete = { c with queued := q, writing := w } ∧
      (w = c.writing ∨ (c.pendingFile.fd = none ∧ c.outputBuffer = [])) := by
  unfold noteWriteComplete
  by_cases h : c.outputBuffer.length = 0 ∧ c.pendingFile.fd = none
  · have hidle : c.pendingFile.fd = none ∧ c.outputBuffer = [] :=
      ⟨h.2, List.length_eq_zero_iff.mp h.1⟩
    rw [if_pos h]
    dsimp only
    split_ifs
    · exact ⟨_, _, rfl, .inr hidle⟩
    · exact ⟨c.queued, _, rfl, .inr hidle⟩
  · -- Output is left, so neither the channel nor the callback is touched.
    rw [if_neg h]
    dsimp only
    rw [if_neg (fun h' => h ⟨h'.1, h'.2.1⟩)]
    exact ⟨c.queued, c.writing, rfl, .inl rfl⟩

end Frames

section Channel

variable {c : TcpConnection}

theorem Registered.of_released {p : PendingFile} {b : Bytes} {w : Bool}
    (hw : c.writing = true) (hrel : w = c.writing ∨ (p.fd = none ∧ b = [])) :
    (p.fd ≠ none → w = true) ∧ (b ≠ [] → w = true) := by
  rcases hrel with rfl | ⟨hp, hb⟩
  · exact ⟨fun _ => hw, fun _ => hw⟩
  · exact ⟨fun h => absurd hp h, fun h => absurd hb h⟩

theorem send_registered (h : c.Registered) (data : Bytes) (result : KernelResult) :
    (c.send data result).Registered := by
  obtain ⟨q, s, hsend | ⟨b, hsend⟩⟩ := c.send_frame data result
  · rw [hsend]
    exact ⟨h.file, h.buffer⟩
  · rw [hsend]
    exact ⟨fun _ => rfl, fun _ => rfl⟩

theorem sendPendingFile_registered (h : c.Registered) (result : KernelResult) :
    (c.sendPendingFile result).Registered := by
  by_cases hf : c.pendingFile.fd = none
  · simp only [sendPendingFile, hf]
    exact h
  · obtain ⟨s, p, files, w, hsend, hw⟩ := c.sendPendingFile_frame result
    obtain ⟨hfile, hbuffer⟩ := Registered.of_released (h.file hf) hw
    rw [hsend]
    exact ⟨hfile, hbuffer⟩

theorem sendFile_registered (h : c.Registered) (file : OpenFile) (offset count : ℕ)
    (result : KernelResult) : (c.sendFile file offset count result).Registered := by
  unfold sendFile sendFileInLoop
  split_ifs
  · exact ⟨h.file, h.buffer⟩
  · obtain ⟨p, files, hclose, -⟩ := c.closePendingFile_frame
    have hreg : ({ c with
        pendingFile := { fd := some file, offset := offset, remaining := count },
        closedFiles := files, writing := true } : TcpConnection).Registered :=
      ⟨fun _ => rfl, fun _ => rfl⟩
    rw [hclose, ensureWriting_eq]
    dsimp only
    split_ifs
    · exact sendPendingFile_registered hreg result
    · exact hreg
  · exact ⟨h.file, h.buffer⟩

theorem noteWriteComplete_registered (h : c.Registered) : c.noteWriteComplete.Registered := by
  obtain ⟨q, w, hnote, rfl | ⟨hf, hb⟩⟩ := c.noteWriteComplete_frame
  · rw [hnote]
    exact ⟨h.file, h.buffer⟩
  · rw [hnote]
    exact ⟨fun hne => absurd hf hne, fun hne => absurd hb hne⟩

theorem shutdownInLoop_registered (h : c.Registered) : c.shutdownInLoop.Registered := by
  unfold shutdownInLoop
  split_ifs
  · exact ⟨h.file, h.buffer⟩
  · exact h

theorem outputDrained_registered (h : c.Registered) (result : KernelResult) :
    (c.outputDrained result).Registered := by
  have hfile : (if c.pendingFile.fd ≠ none then c.sendPendingFile result else c).Registered := by
    split_ifs
    · exact sendPendingFile_registered h result
    · exact h
  unfold outputDrained
  generalize (if c.pendingFile.fd ≠ none then c.sendPendingFile result else c) = c₁ at hfile ⊢
  dsimp only
  split_ifs
  · exact shutdownInLoop_registered (noteWriteComplete_registered hfile)
  · exact noteWriteComplete_registered hfile

theorem handleWrite_registered (h : c.Registered) (written sent : KernelResult) :
    (c.handleWrite written sent).Registered := by
  unfold handleWrite
  dsimp only
  split_ifs with hw
  · apply outputDrained_registered
    exact ⟨fun _ => hw, fun _ => hw⟩
  · exact ⟨fun _ => hw, fun _ => hw⟩
  · exact h
  · exact h

theorem shutdown_registered (h : c.Registered) : c.shutdown.Registered := by
  unfold shutdown
  split_ifs
  · exact shutdownInLoop_registered ⟨h.file, h.buffer⟩
  · exact h

theorem apply_registered (h : c.Registered) (op : OutputOp) : (c.apply op).Registered := by
  cases op with
  | send data result => exact send_registered h data result
  | sendFile file offset count result => exact sendFile_registered h file offset count result
  | handleWrite written sent => exact handleWrite_registered h written sent
  | shutdown => exact shutdown_registered h

end Channel

end JingjieAR.TcpConnection
