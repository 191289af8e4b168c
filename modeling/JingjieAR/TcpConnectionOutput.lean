import JingjieAR.TcpConnectionRegistered

/-! The order in which a connection writes its output. The bytes of `outputBuffer` go
out before those of the pending file, whichever was asked for first, and a second file
takes the place of the first; so the order of the calls is kept as long as no call is
made while bytes of a file are waiting. -/
namespace JingjieAR

open Runs (Run Guarded)

namespace KernelResult

/-- The call went well, perhaps only in part. -/
def Ok : KernelResult → Prop
  | .accepted _ => True
  | .wouldBlock => True
  | .peerGone => False
  | .failed => False

theorem taken_append_drop (r : KernelResult) (data : Bytes) :
    r.taken data++data.drop (r.taken data).length = data := by
  cases r with
  | accepted n =>
    have hlen : data.drop (data.take n).length = data.drop n := by
      rw [List.length_take, ← List.drop_eq_drop_min]
    rw [taken, hlen, List.take_append_drop]
  | wouldBlock => rfl
  | peerGone => rfl
  | failed => rfl

end KernelResult

/-- The bytes `count` from `offset` on, as far as the file has them. -/
def OpenFile.range (file : OpenFile) (offset count : ℕ) : Bytes :=
  (file.content.drop offset).take count

/-- The bytes of the pending file that have not been sent. -/
def PendingFile.unsent (p : PendingFile) : Bytes :=
  match p.fd with
  | some file => file.range p.offset p.remaining
  | none => []

theorem PendingFile.unsent_of_none {p : PendingFile} (h : p.fd = none) : p.unsent = [] := by
  simp [unsent, h]

theorem PendingFile.unsent_of_done {p : PendingFile} (h : p.remaining = 0) : p.unsent = [] := by
  unfold unsent OpenFile.range
  rw [h]
  split
  · exact List.take_zero
  · rfl

namespace TcpConnection

/-- Everything that has left and that is to leave, in the order in which it leaves. -/
def outgoing (c : TcpConnection) : Bytes := c.socket++(c.outputBuffer++c.pendingFile.unsent)

/-- With the channel idle the kernel takes a first part of the data, else nothing. -/
theorem writeDirect_frame (c : TcpConnection) (data : Bytes) {result : KernelResult}
    (hok : result.Ok) :
    ∃ q written, c.writeDirect data result =
        ({ c with queued := q, socket := c.socket++written }, data.drop written.length, false) ∧
      written <+: data ∧ ((c.writing = true ∨ c.outputBuffer ≠ []) → written = []) := by
  have hnone : ({ c with queued := c.queued, socket := c.socket++[] } : TcpConnection) = c := by
    rw [List.append_nil]
  unfold writeDirect
  split_ifs with hidle
  · have hbusy : ¬(c.writing = true ∨ c.outputBuffer ≠ []) := by simpa using hidle
    -- The kernel may take less than it is offered; the rest is what was not taken.
    cases result with
    | accepted n =>
      have hdrop : data.drop n = data.drop (data.take n).length := by
        rw [List.length_take, List.drop_eq_drop_min]
      dsimp only
      rw [hdrop]
      split_ifs
      · exact ⟨_, data.take n, rfl, List.take_prefix n data, fun h => absurd h hbusy⟩
      · exact ⟨_, data.take n, rfl, List.take_prefix n data, fun h => absurd h hbusy⟩
    | wouldBlock => exact ⟨c.queued, [], by rw [hnone]; rfl, List.nil_prefix, fun _ => rfl⟩
    | peerGone => exact hok.elim
    | failed => exact hok.elim
  · exact ⟨c.queued, [], by rw [hnone]; rfl, List.nil_prefix, fun _ => rfl⟩

theorem sendfile_outgoing {c : TcpConnection} {file : OpenFile} (result : KernelResult)
    (hf : c.pendingFile.fd = some file) (hb : c.outputBuffer = []) :
    (c.sendfile file result).outgoing = c.outgoing := by
  have hsplit := result.taken_append_drop (file.range c.pendingFile.offset c.pendingFile.remaining)
  unfold OpenFile.range at hsplit
  rw [List.drop_take, List.drop_drop] at hsplit
  unfold outgoing sendfile PendingFile.unsent OpenFile.range
  simp only [hf, hb, List.nil_append]
  rw [List.append_assoc, hsplit]

/-- A file is closed only when nothing of it is left, if no call has failed. -/
theorem closeIfDone_outgoing {c : TcpConnection} {result : KernelResult} (hok : result.Ok) :
    (c.closeIfDone result).outgoing = c.outgoing := by
  have herr : ¬(result = .peerGone ∨ result = .failed) := by
    intro hbad
    rcases hbad with rfl | rfl
    · exact hok
    · exact hok
  unfold closeIfDone
  rw [if_neg herr]
  split_ifs with hrem
  · obtain ⟨p, files, hc, hp⟩ := c.closePendingFile_frame
    rw [hc, outgoing, outgoing, PendingFile.unsent_of_done hrem, PendingFile.unsent_of_none hp]
  · rfl

/-- Sending from the pending file moves bytes to the socket, in order. -/
theorem sendPendingFile_outgoing {c : TcpConnection} {result : KernelResult} (hok : result.Ok) :
    (c.sendPendingFile result).outgoing = c.outgoing := by
  unfold sendPendingFile
  cases hf : c.pendingFile.fd with
  | none => rfl
  | some file =>
    dsimp only
    split_ifs with hb
    · rfl
    · rw [not_not, List.length_eq_zero_iff] at hb
      have hrel (c : TcpConnection) : c.releaseChannel.outgoing = c.outgoing := by
        rcases c.releaseChannel_frame with h | ⟨-, -, h⟩
        · rw [h]
        · rw [h]
          rfl
      calc (((c.sendfile file result).closeIfDone result).releaseChannel).outgoing
          = ((c.sendfile file result).closeIfDone result).outgoing := hrel _
        _ = (c.sendfile file result).outgoing := closeIfDone_outgoing hok
        _ = c.outgoing := sendfile_outgoing result hf hb

/-- A string goes behind everything that is waiting, unless bytes of a file are. -/
theorem send_outgoing {c : TcpConnection} {data : Bytes} {result : KernelResult} (hok : result.Ok)
    (hreg : c.Registered) (hcon : c.state = .kConnected)
    (hguard : c.pendingFile.unsent = [] ∨ data = []) :
    (c.send data result).outgoing = c.outgoing++data := by
  obtain ⟨q, written, hdirect, ⟨remaining, rfl⟩, hbusy⟩ := c.writeDirect_frame data hok
  have hdrop : (written++remaining).drop written.length = remaining := List.drop_left' rfl
  have hsend : c.send (written++remaining) result =
      if remaining.length > 0 then
        ({ c with queued := q, socket := c.socket++written } : TcpConnection).keepRemaining
          remaining
      else { c with queued := q, socket := c.socket++written } := by
    rw [send, if_pos hcon, sendInLoop, hdirect, hdrop]
    simp
  -- Bytes leave at once only when nothing is waiting, also not a file.
  have hfront : written = [] ∨ (c.outputBuffer = [] ∧ c.pendingFile.unsent = []) := by
    by_cases hb : c.writing = true ∨ c.outputBuffer ≠ []
    · exact .inl (hbusy hb)
    · obtain ⟨hw, hob⟩ := not_or.mp hb
      rw [not_not] at hob
      refine .inr ⟨hob, PendingFile.unsent_of_none ?_⟩
      by_contra hf
      exact hw (hreg.file hf)
  rw [hsend]
  by_cases hrem : remaining = []
  -- Everything has left at once.
  · subst hrem
    rcases hfront with rfl | ⟨hob, hun⟩
    · simp [outgoing]
    · simp [outgoing, hob, hun]
  -- The rest goes to the buffer, behind what is there; no file may stand behind it.
  · have hpos : remaining.length > 0 := List.length_pos_iff.mpr hrem
    have hun : c.pendingFile.unsent = [] := hguard.resolve_right (by simp [hrem])
    obtain ⟨q', hkeep⟩ :=
      ({ c with queued := q, socket := c.socket++written } : TcpConnection).keepRemaining_frame
        remaining
    rw [if_pos hpos, hkeep]
    rcases hfront with rfl | ⟨hob, -⟩
    · simp [outgoing, hun]
    · simp [outgoing, hob, hun]

/-- A file takes the one slot for files, so nothing may be waiting there. -/
theorem sendFile_outgoing {c : TcpConnection} {file : OpenFile} {offset count : ℕ}
    {result : KernelResult} (hok : result.Ok) (hcon : c.state = .kConnected)
    (hguard : c.pendingFile.unsent = []) :
    (c.sendFile file offset count result).outgoing = c.outgoing++file.range offset count := by
  obtain ⟨p, files, hclose, -⟩ := c.closePendingFile_frame
  -- What the slot held has been sent, so closing it loses nothing.
  let c₁ : TcpConnection := { c with
    pendingFile := { fd := some file, offset := offset, remaining := count },
    closedFiles := files, writing := true }
  have hout : c₁.outgoing = c.outgoing++file.range offset count := by
    rw [outgoing, outgoing, hguard]
    simp [c₁, PendingFile.unsent]
  have hsend : c.sendFile file offset count result =
      if c₁.outputBuffer.length = 0 then c₁.sendPendingFile result else c₁ := by
    simp [sendFile, connected, sendFileInLoop, hcon, hclose, ensureWriting_eq, c₁]
  rw [hsend]
  split_ifs
  · rw [sendPendingFile_outgoing hok, hout]
  · exact hout

theorem noteWriteComplete_outgoing (c : TcpConnection) :
    c.noteWriteComplete.outgoing = c.outgoing := by
  obtain ⟨q, w, hnote, -⟩ := c.noteWriteComplete_frame
  rw [hnote]
  rfl

theorem shutdownInLoop_outgoing (c : TcpConnection) : c.shutdownInLoop.outgoing = c.outgoing := by
  unfold shutdownInLoop
  split_ifs
  · rfl
  · rfl

theorem outputDrained_outgoing {c : TcpConnection} {result : KernelResult} (hok : result.Ok) :
    (c.outputDrained result).outgoing = c.outgoing := by
  have hfile : (if c.pendingFile.fd ≠ none then c.sendPendingFile result else c).outgoing =
      c.outgoing := by
    split_ifs
    · exact sendPendingFile_outgoing hok
    · rfl
  unfold outputDrained
  generalize (if c.pendingFile.fd ≠ none then c.sendPendingFile result else c) = c₁ at hfile ⊢
  dsimp only
  split_ifs
  · rw [shutdownInLoop_outgoing, noteWriteComplete_outgoing, hfile]
  · rw [noteWriteComplete_outgoing, hfile]

theorem handleWrite_outgoing {c : TcpConnection} (written : KernelResult) {sent : KernelResult}
    (hok : sent.Ok) : (c.handleWrite written sent).outgoing = c.outgoing := by
  unfold handleWrite
  split_ifs
  · let c₁ : TcpConnection := { c with
      socket := c.socket++written.taken c.outputBuffer,
      outputBuffer := c.outputBuffer.drop (written.taken c.outputBuffer).length }
    have hout : c₁.outgoing = c.outgoing := by
      have hsplit := written.taken_append_drop c.outputBuffer
      -- What leaves the buffer is what the socket gets.
      calc c₁.outgoing
          = c.socket++((written.taken c.outputBuffer++
              c.outputBuffer.drop (written.taken c.outputBuffer).length)++
              c.pendingFile.unsent) := by simp [outgoing, c₁]
        _ = c.outgoing := by rw [hsplit, outgoing]
    dsimp only
    split_ifs
    · exact (outputDrained_outgoing hok).trans hout
    · exact hout
    · rfl
  · rfl

theorem shutdown_outgoing (c : TcpConnection) : c.shutdown.outgoing = c.outgoing := by
  unfold shutdown
  split_ifs
  · exact shutdownInLoop_outgoing _
  · rfl

end TcpConnection

namespace OutputOp

/-- The bytes that a call asks to send. -/
def bytes : OutputOp → Bytes
  | .send data _ => data
  | .sendFile file offset count _ => file.range offset count
  | .handleWrite _ _ => []
  | .shutdown => []

/-- No system call of the operation reports an error. -/
def Ok : OutputOp → Prop
  | .send _ result => result.Ok
  | .sendFile _ _ _ result => result.Ok
  | .handleWrite written sent => written.Ok ∧ sent.Ok
  | .shutdown => True

/-- The operation gives the connection something to send. -/
def Queues : OutputOp → Prop
  | .send data _ => data ≠ []
  | .sendFile _ _ _ _ => True
  | .handleWrite _ _ => False
  | .shutdown => False

end OutputOp

/-- A connection together with all that was asked of it while it was connected,
in the order of the calls. -/
structure OutputTrace where
  conn : TcpConnection
  requested : Bytes

namespace OutputTrace

def next (t : OutputTrace) (op : OutputOp) : OutputTrace :=
  ⟨t.conn.apply op, t.requested++(if t.conn.connected then op.bytes else [])⟩

def step (t : OutputTrace) (op : OutputOp) (t' : OutputTrace) : Prop := t.next op = t'

/-- A connection that has just been established, with any choice of callbacks. -/
def established (writeComplete highWater : Bool) (mark : ℕ) : OutputTrace :=
  ⟨TcpConnection.connectEstablished { writeCompleteCallback := writeComplete,
                                      highWaterMarkCallback := highWater,
                                      highWaterMark := mark }, []⟩

/-- No error, and an open connection is given nothing while bytes of a file are waiting. -/
def QueuesInOrder (t : OutputTrace) (op : OutputOp) : Prop :=
  op.Ok ∧ (t.conn.connected = true → op.Queues → t.conn.pendingFile.unsent = [])

/-- What was asked for has left or will leave, in the order of the calls. -/
structure Ordered (t : OutputTrace) : Prop where
  registered : t.conn.Registered
  outgoing : t.conn.outgoing = t.requested

theorem step_ordered {t t' : OutputTrace} {op : OutputOp} (h : t.Ordered)
    (hs : Guarded QueuesInOrder step t op t') : t'.Ordered := by
  obtain ⟨⟨hok, hguard⟩, rfl⟩ := hs
  refine ⟨TcpConnection.apply_registered h.registered op, ?_⟩
  suffices hspec : (t.conn.apply op).outgoing =
      t.conn.outgoing++(if t.conn.connected then op.bytes else []) by
    rw [next, hspec, h.outgoing]
  by_cases hcon : t.conn.state = .kConnected
  · have hcon' : t.conn.connected = true := by simp [TcpConnection.connected, hcon]
    rw [if_pos hcon']
    cases op with
    | send data result =>
      refine TcpConnection.send_outgoing hok h.registered hcon ?_
      by_cases hd : data = []
      · exact .inr hd
      · exact .inl (hguard hcon' hd)
    | sendFile file offset count result =>
      exact TcpConnection.sendFile_outgoing hok hcon (hguard hcon' trivial)
    | handleWrite written sent =>
      rw [OutputOp.bytes, List.append_nil]
      exact TcpConnection.handleWrite_outgoing written hok.2
    | shutdown =>
      rw [OutputOp.bytes, List.append_nil]
      exact t.conn.shutdown_outgoing
  · -- Without a connection the calls only close the file they are given.
    have hcon' : t.conn.connected = false := by simp [TcpConnection.connected, hcon]
    rw [hcon', if_neg Bool.false_ne_true, List.append_nil]
    cases op with
    | send data result => rw [TcpConnection.apply, TcpConnection.send, if_neg hcon]
    | sendFile file offset count result =>
      rw [TcpConnection.apply, TcpConnection.sendFile, hcon', if_neg Bool.false_ne_true]
      rfl
    | handleWrite written sent => exact TcpConnection.handleWrite_outgoing written hok.2
    | shutdown => exact t.conn.shutdown_outgoing

/-- In a run without errors, in which nothing is queued while bytes of a file are
waiting, the socket carries the strings and files in the order of the calls. -/
theorem socket_prefix_of_queuesInOrder {writeComplete highWater : Bool} {mark : ℕ}
    {ops : List OutputOp} {t : OutputTrace}
    (h : Run (Guarded QueuesInOrder step) (established writeComplete highWater mark) ops t) :
    t.conn.socket <+: t.requested ∧
      t.requested = t.conn.socket++(t.conn.outputBuffer++t.conn.pendingFile.unsent) := by
  have hstart : (established writeComplete highWater mark).Ordered :=
    ⟨⟨fun hf => absurd rfl hf, fun hb => absurd rfl hb⟩, rfl⟩
  have hinv : t.Ordered := h.invariant (fun _ _ _ => step_ordered) hstart
  have heq := hinv.outgoing.symm
  rw [TcpConnection.outgoing] at heq
  exact ⟨heq ▸ List.prefix_append _ _, heq⟩

/-- A header and then a file, both written in parts. -/
theorem socket_prefix_of_header_and_file :
    ∃ ops t, Run (Guarded QueuesInOrder step) (established true false 8) ops t ∧
      t.conn.socket = ascii "OKi" ∧ t.conn.socket <+: t.requested ∧
      t.requested = t.conn.socket++(t.conn.outputBuffer++t.conn.pendingFile.unsent) := by
  let ops : List OutputOp := [.send (ascii "OK") (.accepted 1),
    .sendFile ⟨3, ascii "file"⟩ 1 2 .wouldBlock, .handleWrite (.accepted 1) (.accepted 1)]
  have hrun : Run (Guarded QueuesInOrder step) (established true false 8) ops
      (ops.foldl next (established true false 8)) :=
    .cons ⟨⟨trivial, fun _ _ => rfl⟩, rfl⟩ (.cons ⟨⟨trivial, fun _ _ => rfl⟩, rfl⟩
      (.cons ⟨⟨⟨trivial, trivial⟩, fun _ => False.elim⟩, rfl⟩ (.nil _)))
  exact ⟨ops, _, hrun, by decide, socket_prefix_of_queuesInOrder hrun⟩

/-- A string sent while the second byte of a file is waiting leaves before it. -/
theorem string_overtakes_file :
    ∃ ops t, Run (Guarded (fun _ op => op.Ok) step) (established false false 8) ops t ∧
      ¬t.conn.socket <+: t.requested := by
  let ops : List OutputOp := [.sendFile ⟨3, ascii "ab"⟩ 0 2 (.accepted 1),
    .send (ascii "x") .wouldBlock, .handleWrite (.accepted 1) .wouldBlock]
  refine ⟨ops, ops.foldl next (established false false 8), ?_, by decide⟩
  exact .cons ⟨trivial, rfl⟩ (.cons ⟨trivial, rfl⟩ (.cons ⟨⟨trivial, trivial⟩, rfl⟩ (.nil _)))

end OutputTrace

end JingjieAR
