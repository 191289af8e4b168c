import JingjieAR.BufferModel
import Mathlib.Tactic.Common

/-! The buffer as a queue of bytes. As long as no sum of sizes wraps, a call treats the readable
bytes as the queue says, whether its space comes from a larger vector or from moving them. -/
namespace JingjieAR

theorem sizeAdd_eq {a b : ℕ} (h : a+b < 2^64) : sizeAdd a b = a+b := Nat.mod_eq_of_lt h

theorem sizeSub_eq {a b : ℕ} (hle : b ≤ a) (h : a < 2^64) : sizeSub a b = a-b := by
  unfold sizeSub
  omega

section Vectors

variable {bytes data : Bytes} {reader writer : ℕ}

theorem overwrite_eq (h : writer+data.length ≤ bytes.length) :
    overwrite bytes writer data =
      some (bytes.take writer++(data++bytes.drop (writer+data.length))) :=
  if_neg (not_lt.mpr h)

theorem length_overwritten (h : writer+data.length ≤ bytes.length) :
    (bytes.take writer++(data++bytes.drop (writer+data.length))).length = bytes.length := by
  simp only [List.length_append, List.length_take, List.length_drop]
  omega

/-- The bytes between two indices, with more bytes behind them. -/
theorem slice_overwritten (hr : reader ≤ writer) (h : writer+data.length ≤ bytes.length) :
    ((bytes.take writer++(data++bytes.drop (writer+data.length))).drop reader).take
      (writer+data.length-reader) = (bytes.drop reader).take (writer-reader)++data := by
  have hlength : (bytes.take writer).length = writer := List.length_take_of_le (by omega)
  have hslice : (bytes.take writer).drop reader = (bytes.drop reader).take (writer-reader) :=
    List.drop_take ..
  have hsize : ((bytes.drop reader).take (writer-reader)++data).length =
      writer+data.length-reader := by
    simp only [List.length_append, List.length_take, List.length_drop]
    omega
  rw [List.drop_append_of_le_length (by omega), hslice, ← List.append_assoc, ← hsize,
    List.take_left]

/-- The bytes that were moved down stand between their new indices. -/
theorem slice_moved {position : ℕ} (h : position+data.length ≤ bytes.length) :
    ((bytes.take position++(data++bytes.drop (position+data.length))).drop position).take
      data.length = data := by
  have hmoved := slice_overwritten (le_refl position) h
  rwa [Nat.sub_self, List.take_zero, List.nil_append, Nat.add_sub_cancel_left] at hmoved

/-- A vector that grows keeps its bytes. -/
theorem slice_resized (hw : writer ≤ bytes.length) (tail : Bytes) :
    ((bytes++tail).drop reader).take (writer-reader) =
      (bytes.drop reader).take (writer-reader) := by
  by_cases hr : reader ≤ bytes.length
  · rw [List.drop_append_of_le_length hr, List.take_append_of_le_length]
    rw [List.length_drop]
    omega
  · have hzero : writer-reader = 0 := by omega
    rw [hzero, List.take_zero, List.take_zero]

theorem resizeVector_cases (bytes : Bytes) {size : ℕ} (hgrow : bytes.length ≤ size) (room : ℕ) :
    resizeVector bytes size room = none ∨ ∃ tail, size ≤ maxVectorSize ∧
      (bytes++tail).length = size ∧ resizeVector bytes size room = some (bytes++tail) := by
  unfold resizeVector
  split_ifs with hlarge
  · exact .inl rfl
  · right
    refine ⟨List.replicate (size-bytes.length) 0, by omega, ?_, ?_⟩
    · simp only [List.length_append, List.length_replicate]
      omega
    · rw [List.take_of_length_le hgrow]

end Vectors

namespace Buffer

/-- The bytes between the indices. -/
def readable (b : Buffer) : Bytes := (b.buffer.drop b.readerIndex).take (b.writerIndex-b.readerIndex)

structure Inv (b : Buffer) : Prop where
  prepended : kCheapPrepend ≤ b.readerIndex
  ordered : b.readerIndex ≤ b.writerIndex
  inside : b.writerIndex ≤ b.buffer.length
  small : b.buffer.length ≤ maxVectorSize

section Sizes

variable {b : Buffer} (h : b.Inv)

include h

theorem Inv.length_lt : b.buffer.length < 2^64 := lt_of_le_of_lt h.small (by decide)

theorem Inv.readableBytes : b.readableBytes = b.writerIndex-b.readerIndex :=
  sizeSub_eq h.ordered (lt_of_le_of_lt h.inside h.length_lt)

theorem Inv.writableBytes : b.writableBytes = b.buffer.length-b.writerIndex :=
  sizeSub_eq h.inside h.length_lt

theorem Inv.length_readable : b.readable.length = b.readableBytes := by
  have hinside := h.inside
  rw [h.readableBytes, readable, List.length_take, List.length_drop]
  omega

end Sizes

/-- A call has made the buffer `b'` of `b`, or it has ended with an exception. -/
def Yields {α : Type} (r : BufferResult α) (post : α → Prop) : Prop :=
  r = .threw ∨ ∃ value, r = .done value ∧ post value

theorem Yields.bind {α β : Type} {r : BufferResult α} {f : α → BufferResult β} {post : α → Prop}
    {post' : β → Prop} (h : Yields r post) (hf : ∀ value, post value → Yields (f value) post') :
    Yields (r.bind f) post' := by
  rcases h with rfl | ⟨value, rfl, hvalue⟩
  · exact .inl rfl
  · exact hf value hvalue

theorem Yields.imp {α : Type} {r : BufferResult α} {post post' : α → Prop} (h : Yields r post)
    (himp : ∀ value, post value → post' value) : Yields r post' := by
  rcases h with h | ⟨value, h, hvalue⟩
  · exact .inl h
  · exact .inr ⟨value, h, himp value hvalue⟩

theorem retrieveAll_spec {b : Buffer} (h : b.Inv) :
    b.retrieveAll.Inv ∧ b.retrieveAll.readable = [] := by
  obtain ⟨hprepended, hordered, hinside, hsmall⟩ := h
  refine ⟨⟨le_rfl, le_rfl, ?_, hsmall⟩, ?_⟩
  · show kCheapPrepend ≤ b.buffer.length
    omega
  · simp [readable, retrieveAll]

theorem retrieve_spec {b : Buffer} (h : b.Inv) (len : ℕ) :
    (b.retrieve len).Inv ∧ (b.retrieve len).readable = b.readable.drop len := by
  have hlt := h.length_lt
  have hbytes := h.readableBytes
  have hlength := h.length_readable
  unfold retrieve
  split_ifs with hpart
  · have hinside := h.inside
    have hprepended := h.prepended
    have hadd : sizeAdd b.readerIndex len = b.readerIndex+len := sizeAdd_eq (by omega)
    rw [hadd]
    refine ⟨⟨?_, ?_, hinside, h.small⟩, ?_⟩
    · show kCheapPrepend ≤ b.readerIndex+len
      omega
    · show b.readerIndex+len ≤ b.writerIndex
      omega
    · rw [readable, readable, List.drop_take, List.drop_drop, Nat.sub_sub]
  · obtain ⟨hinv, hnil⟩ := retrieveAll_spec h
    refine ⟨hinv, ?_⟩
    rw [hnil, List.drop_eq_nil_of_le (by omega)]

theorem retrieveAsString_spec {b : Buffer} (h : b.Inv) {len : ℕ} (hlen : len ≤ b.readableBytes) :
    b.retrieveAsString len = .done (b.retrieve len, b.readable.take len) := by
  have hbytes := h.readableBytes
  have hordered := h.ordered
  have hinside := h.inside
  have hfits : ¬b.readerIndex+len > b.buffer.length := by omega
  have htake : (b.buffer.drop b.readerIndex).take len = b.readable.take len := by
    rw [readable, List.take_take, min_eq_left (by omega)]
  rw [retrieveAsString, if_neg hfits, htake]

/-- The readable bytes are the same, and there is space for `len` more. -/
def Spacious (b : Buffer) (len : ℕ) (b' : Buffer) : Prop :=
  b'.Inv ∧ b'.readable = b.readable ∧ len ≤ b'.writableBytes

theorem makeSpace_spec {b : Buffer} (h : b.Inv) {len : ℕ} (room : ℕ)
    (hshort : b.writableBytes < len) (hlen : len+kCheapPrepend < 2^64)
    (hsum : b.writerIndex+len < 2^64) : Yields (b.makeSpace len room) (b.Spacious len) := by
  have hlt := h.length_lt
  have hwritable := h.writableBytes
  have hreadable := h.readableBytes
  obtain ⟨hprepended, hordered, hinside, hsmall⟩ := h
  have hspace : sizeAdd b.writableBytes b.prependableBytes =
      b.buffer.length-b.writerIndex+b.readerIndex := by
    rw [hwritable]
    exact sizeAdd_eq (by simp only [prependableBytes]; omega)
  unfold makeSpace
  rw [hspace, sizeAdd_eq hlen, sizeAdd_eq hsum]
  split_ifs with hgrow hoverrun
  · have hlarger : b.buffer.length ≤ b.writerIndex+len := by omega
    rcases resizeVector_cases b.buffer hlarger room with
      hnone | ⟨tail, hmax, hsize, hsome⟩
    · rw [hnone]
      exact .inl rfl
    · rw [hsome]
      have hinv : Inv ⟨b.buffer++tail, b.readerIndex, b.writerIndex⟩ :=
        ⟨hprepended, hordered, by simp only [hsize]; omega, by simp only [hsize]; exact hmax⟩
      refine .inr ⟨_, rfl, hinv, slice_resized hinside tail, ?_⟩
      rw [hinv.writableBytes]
      simp only [hsize]
      omega
  · omega
  · -- The readable bytes move down, and the bytes before them make the space large enough.
    have hlength : ((b.buffer.drop b.readerIndex).take (b.writerIndex-b.readerIndex)).length =
        b.writerIndex-b.readerIndex := by
      simp only [List.length_take, List.length_drop]
      omega
    have hfits : kCheapPrepend+
        ((b.buffer.drop b.readerIndex).take (b.writerIndex-b.readerIndex)).length ≤
          b.buffer.length := by omega
    have hsame := length_overwritten hfits
    have hslice := slice_moved hfits
    have hwriter : sizeAdd kCheapPrepend b.readableBytes =
        kCheapPrepend+(b.writerIndex-b.readerIndex) := by
      rw [hreadable]
      exact sizeAdd_eq (by omega)
    rw [overwrite_eq hfits]
    dsimp only
    rw [hwriter]
    generalize (b.buffer.take kCheapPrepend++_) = bytes at hsame hslice ⊢
    have hinv : Inv ⟨bytes, kCheapPrepend, kCheapPrepend+(b.writerIndex-b.readerIndex)⟩ :=
      ⟨le_rfl, Nat.le_add_right _ _, by simp only [hsame]; omega, hsame ▸ hsmall⟩
    refine .inr ⟨_, rfl, hinv, ?_, ?_⟩
    · rw [readable, readable, Nat.add_sub_cancel_left, ← hlength, hslice, hlength]
    · rw [hinv.writableBytes]
      simp only [hsame]
      omega

theorem ensureWritableBytes_spec {b : Buffer} (h : b.Inv) {len : ℕ} (room : ℕ)
    (hasks : b.AsksFor len) : Yields (b.ensureWritableBytes len room) (b.Spacious len) := by
  unfold ensureWritableBytes
  split_ifs with hshort
  · rcases hasks with hle | ⟨hlen, hsum⟩
    · omega
    · exact makeSpace_spec h room hshort hlen hsum
  · exact .inr ⟨b, rfl, h, rfl, not_lt.mp hshort⟩

/-- The readable bytes go on with `data`. -/
def Extended (b : Buffer) (data : Bytes) (b' : Buffer) : Prop :=
  b'.Inv ∧ b'.readable = b.readable++data

/-- Bytes that are stored in the writable space. -/
theorem extended_of_space {b : Buffer} (h : b.Inv) {data : Bytes}
    (hspace : data.length ≤ b.writableBytes) :
    ∃ bytes, overwrite b.buffer b.writerIndex data = some bytes ∧
      bytes.length = b.buffer.length ∧
      b.Extended data { b with buffer := bytes, writerIndex := b.writerIndex+data.length } := by
  have hordered := h.ordered
  have hinside := h.inside
  rw [h.writableBytes] at hspace
  have hfits : b.writerIndex+data.length ≤ b.buffer.length := by omega
  have hsame := length_overwritten hfits
  refine ⟨_, overwrite_eq hfits, hsame, ⟨h.prepended, ?_, ?_, ?_⟩, slice_overwritten hordered hfits⟩
  · exact hordered.trans (Nat.le_add_right _ _)
  · exact hsame.symm ▸ hfits
  · exact hsame.symm ▸ h.small

theorem append_spec {b : Buffer} (h : b.Inv) {data : Bytes} (room : ℕ)
    (hasks : b.AsksFor data.length) : Yields (b.append data room) (b.Extended data) := by
  refine (ensureWritableBytes_spec h room hasks).bind ?_
  rintro b₁ ⟨hinv, hreadable, hspace⟩
  obtain ⟨bytes, hstore, -, hextended⟩ := extended_of_space hinv hspace
  have hlt := hinv.length_lt
  have hinside := hinv.inside
  rw [hinv.writableBytes] at hspace
  rw [hstore]
  dsimp only
  rw [sizeAdd_eq (by omega)]
  refine .inr ⟨_, rfl, hextended.1, ?_⟩
  rw [hextended.2, hreadable]

theorem readFd_spec {b : Buffer} (h : b.Inv) {received : Bytes} (room : ℕ)
    (hoffered : received.length ≤ b.offered) :
    Yields (b.readFd received room) (b.Extended received) := by
  have hlt := h.length_lt
  have hinside := h.inside
  have hwritable := h.writableBytes
  have hspace : (received.take b.writableBytes).length ≤ b.writableBytes := by simp
  obtain ⟨bytes, hstore, hsame, hextended⟩ := extended_of_space h hspace
  unfold readFd
  rw [hstore]
  dsimp only
  split_ifs with hfits
  · rw [List.take_of_length_le hfits] at hextended
    rw [sizeAdd_eq (by omega)]
    exact .inr ⟨_, rfl, hextended⟩
  · -- The vector is full, and at most the stack buffer is appended.
    have hend : b.writerIndex+(received.take b.writableBytes).length = bytes.length := by
      rw [List.length_take, hsame]
      omega
    rw [hend] at hextended
    have hsmall : bytes.length ≤ maxVectorSize := hextended.1.small
    have hrest : (received.drop b.writableBytes).length ≤ extrabufSize := by
      unfold offered at hoffered
      rw [List.length_drop]
      split_ifs at hoffered <;> omega
    have hasks : Buffer.AsksFor { b with buffer := bytes, writerIndex := bytes.length }
        (received.drop b.writableBytes).length := by
      unfold extrabufSize at hrest
      unfold maxVectorSize at hsmall
      refine .inr ⟨?_, ?_⟩
      · unfold kCheapPrepend
        omega
      · show bytes.length+_ < 2^64
        omega
    apply (append_spec hextended.1 room hasks).imp
    rintro b' ⟨hinv, hreadable⟩
    refine ⟨hinv, ?_⟩
    rw [hreadable, hextended.2, List.append_assoc, List.take_append_drop]

end Buffer

namespace BufferCall

/-- The bytes that a call puts into the queue. -/
def entered : BufferCall → Bytes
  | .append data _ => data
  | .readFd received _ => received
  | _ => []

/-- The bytes that a call takes out of the queue. -/
def removed (queue : Bytes) : BufferCall → Bytes
  | .retrieve len => queue.take len
  | .retrieveAll => queue
  | .retrieveAsString len => queue.take len
  | .retrieveAllAsString => queue
  | _ => []

/-- The bytes that a call gives to its caller. -/
def returned (queue : Bytes) : BufferCall → Bytes
  | .retrieveAsString len => queue.take len
  | .retrieveAllAsString => queue
  | _ => []

def queueAfter (queue : Bytes) (call : BufferCall) : Bytes :=
  queue.drop (call.removed queue).length++call.entered

/-- The bytes that the calls take out one after another. -/
def removedBy : Bytes → List BufferCall → Bytes
  | _, [] => []
  | queue, call :: calls => call.removed queue++removedBy (call.queueAfter queue) calls

def returnedBy : Bytes → List BufferCall → List Bytes
  | _, [] => []
  | queue, call :: calls => call.returned queue :: returnedBy (call.queueAfter queue) calls

theorem removed_isPrefixOf (queue : Bytes) (call : BufferCall) :
    call.removed queue++queue.drop (call.removed queue).length = queue := by
  have htake : ∀ len, queue.take len++queue.drop (queue.take len).length = queue := by
    intro len
    by_cases hlen : len ≤ queue.length
    · rw [List.length_take_of_le hlen, List.take_append_drop]
    · rw [List.take_of_length_le (by omega), List.drop_length, List.append_nil]
  cases call with
  | append data room => rfl
  | retrieve len => exact htake len
  | retrieveAll => simp [removed]
  | retrieveAsString len => exact htake len
  | retrieveAllAsString => simp [removed]
  | ensureWritableBytes len room => rfl
  | readFd received room => rfl
  | readFdFailed => rfl

/-- What has gone in is what has come out, and what is left. -/
theorem entered_eq (queue : Bytes) (calls : List BufferCall) :
    queue++calls.flatMap entered = removedBy queue calls++calls.foldl queueAfter queue := by
  induction calls generalizing queue with
  | nil => simp [removedBy]
  | cons call calls ih =>
    have hstep := ih (call.queueAfter queue)
    calc
      queue++(call :: calls).flatMap entered
          = (call.removed queue++queue.drop (call.removed queue).length)++
              (call.entered++calls.flatMap entered) := by
            rw [removed_isPrefixOf]
            rfl
      _ = call.removed queue++(call.queueAfter queue++calls.flatMap entered) := by
            rw [queueAfter, List.append_assoc, List.append_assoc]
      _ = _ := by
            rw [hstep, removedBy, List.append_assoc]
            rfl

end BufferCall

namespace Buffer

/-- What a call comes to: the queue goes on as it should, and space that was asked for is
there. -/
structure Kept (b : Buffer) (call : BufferCall) (e : Buffer × Bytes) : Prop where
  inv : e.1.Inv
  readable : e.1.readable = call.queueAfter b.readable
  returned : e.2 = call.returned b.readable
  space : ∀ len room, call = .ensureWritableBytes len room → len ≤ e.1.writableBytes

theorem next_spec {b : Buffer} (h : b.Inv) {call : BufferCall} (hfits : b.Fits call) :
    Yields (b.next call) (b.Kept call) := by
  cases call with
  | append data room =>
    refine (append_spec h room hfits).bind ?_
    rintro b' ⟨hinv, hreadable⟩
    exact .inr ⟨_, rfl, hinv, hreadable, rfl, by simp⟩
  | retrieve len =>
    obtain ⟨hinv, hreadable⟩ := retrieve_spec h len
    refine .inr ⟨_, rfl, hinv, ?_, rfl, by simp⟩
    rw [hreadable]
    simp [BufferCall.queueAfter, BufferCall.removed, BufferCall.entered]
  | retrieveAll =>
    obtain ⟨hinv, hreadable⟩ := retrieveAll_spec h
    refine .inr ⟨_, rfl, hinv, ?_, rfl, by simp⟩
    rw [hreadable]
    simp [BufferCall.queueAfter, BufferCall.removed, BufferCall.entered]
  | retrieveAsString len =>
    obtain ⟨hinv, hreadable⟩ := retrieve_spec h len
    refine .inr ⟨_, retrieveAsString_spec h hfits, hinv, ?_, rfl, by simp⟩
    rw [hreadable]
    simp [BufferCall.queueAfter, BufferCall.removed, BufferCall.entered]
  | retrieveAllAsString =>
    obtain ⟨hinv, hreadable⟩ := retrieve_spec h b.readableBytes
    have hall : b.readable.take b.readableBytes = b.readable := by
      rw [← h.length_readable, List.take_length]
    have hnone : b.readable.drop b.readableBytes = [] := by
      rw [← h.length_readable, List.drop_length]
    refine .inr ⟨_, retrieveAsString_spec h le_rfl, hinv, ?_, hall, by simp⟩
    rw [hreadable, hnone]
    simp [BufferCall.queueAfter, BufferCall.removed, BufferCall.entered]
  | ensureWritableBytes len room =>
    refine (ensureWritableBytes_spec h room hfits).bind ?_
    rintro b' ⟨hinv, hreadable, hspace⟩
    refine .inr ⟨_, rfl, hinv, ?_, rfl, ?_⟩
    · rw [hreadable]
      exact (List.append_nil _).symm
    · intro len' room' heq
      injection heq with hlen
      exact hlen ▸ hspace
  | readFd received room =>
    refine (readFd_spec h room hfits).bind ?_
    rintro b' ⟨hinv, hreadable⟩
    exact .inr ⟨_, rfl, hinv, hreadable, rfl, by simp⟩
  | readFdFailed =>
    refine .inr ⟨_, rfl, h, ?_, rfl, by simp⟩
    exact (List.append_nil _).symm

theorem new_spec {initialSize room : ℕ} {b : Buffer} (hsize : kCheapPrepend+initialSize < 2^64)
    (hnew : new initialSize room = some b) : b.Inv ∧ b.readable = [] := by
  rw [new, sizeAdd_eq hsize] at hnew
  obtain ⟨bytes, hbytes, rfl⟩ := Option.map_eq_some_iff.mp hnew
  have hlarger : ([] : Bytes).length ≤ kCheapPrepend+initialSize := Nat.zero_le _
  rcases resizeVector_cases [] hlarger room with
    hnone | ⟨tail, hmax, hlength, hsome⟩
  · simp [hnone] at hbytes
  · rw [hsome] at hbytes
    obtain rfl := Option.some.inj hbytes
    refine ⟨⟨le_rfl, le_rfl, ?_, ?_⟩, by simp [readable]⟩
    · simp only [hlength]
      omega
    · simp only [hlength]
      exact hmax

/-- A run keeps the invariant and does to the bytes what the queue does. -/
theorem run_spec {b b' : Buffer} {calls : List BufferCall} {texts : List Bytes}
    (hrun : Run b calls b' texts) (h : b.Inv) :
    b'.Inv ∧ b'.readable = calls.foldl BufferCall.queueAfter b.readable ∧
      texts = BufferCall.returnedBy b.readable calls := by
  induction hrun with
  | nil b => exact ⟨h, rfl, rfl⟩
  | cons hfits hnext hrest ih =>
    rcases next_spec h hfits with hthrew | ⟨e, hdone, hkept⟩
    · simp [hthrew] at hnext
    · obtain rfl := BufferResult.done.inj (hdone.symm.trans hnext)
      obtain ⟨hinv, hreadable, htexts⟩ := ih hkept.inv
      have hqueue := hkept.readable
      have hreturned := hkept.returned
      dsimp only at hqueue hreturned
      refine ⟨hinv, ?_, ?_⟩
      · rw [hreadable, hqueue]
        rfl
      · rw [htexts, hqueue, hreturned]
        rfl

/-- As long as no sum of sizes wraps, the buffer is a queue: what has been put in is what was
taken out and what is readable, strings are made of the bytes that are taken out, no access is
outside of the vector, and space that was ensured is there. -/
theorem buffer_fifo {initialSize room : ℕ} {b b' : Buffer} {calls : List BufferCall}
    {texts : List Bytes} (hsize : kCheapPrepend+initialSize < 2^64)
    (hnew : new initialSize room = some b) (hrun : Run b calls b' texts) :
    (kCheapPrepend ≤ b'.readerIndex ∧ b'.readerIndex ≤ b'.writerIndex ∧
      b'.writerIndex ≤ b'.buffer.length) ∧
    calls.flatMap BufferCall.entered = BufferCall.removedBy [] calls++b'.readable ∧
    b'.readable = calls.foldl BufferCall.queueAfter [] ∧
    texts = BufferCall.returnedBy [] calls ∧
    ∀ call, b'.Fits call → b'.next call ≠ .overrun ∧
      ∀ len room' b'' text, call = .ensureWritableBytes len room' →
        b'.next call = .done (b'', text) → len ≤ b''.writableBytes := by
  obtain ⟨hinv, hempty⟩ := new_spec hsize hnew
  obtain ⟨hinv', hreadable, htexts⟩ := run_spec hrun hinv
  rw [hempty] at hreadable htexts
  refine ⟨⟨hinv'.prepended, hinv'.ordered, hinv'.inside⟩, ?_, hreadable, htexts, ?_⟩
  · rw [hreadable]
    exact BufferCall.entered_eq [] calls
  · intro call hfits
    rcases next_spec hinv' hfits with hthrew | ⟨e, hdone, hkept⟩
    · simp [hthrew]
    · rw [hdone]
      refine ⟨by simp, ?_⟩
      intro len room' b'' text hcall heq
      obtain rfl := BufferResult.done.inj heq
      exact hkept.space len room' hcall

/-- A buffer that starts with no space at all. -/
def smallBuffer : Buffer := ⟨List.replicate 8 0, 8, 8⟩

/-- Its vector grows once, and then the one byte that is left moves down. -/
theorem buffer_fifo_small : ∃ b', Run smallBuffer
      [.append [1, 2, 3] 100, .retrieveAsString 2, .readFd [4, 5] 100] b' [[], [1, 2], []] ∧
    b'.readable = [3, 4, 5] := by
  have hnew : new 0 100 = some smallBuffer := by decide
  have hgrown : smallBuffer.next (.append [1, 2, 3] 100) =
      .done (⟨List.replicate 8 0++[1, 2, 3], 8, 11⟩, []) := by decide
  have htaken : Buffer.next ⟨List.replicate 8 0++[1, 2, 3], 8, 11⟩ (.retrieveAsString 2) =
      .done (⟨List.replicate 8 0++[1, 2, 3], 10, 11⟩, [1, 2]) := by decide
  have hmoved : Buffer.next ⟨List.replicate 8 0++[1, 2, 3], 10, 11⟩ (.readFd [4, 5] 100) =
      .done (⟨List.replicate 8 0++[3, 4, 5], 8, 11⟩, []) := by decide
  have hrun := Run.cons (by decide) hgrown
    (Run.cons (by decide) htaken (Run.cons (by decide) hmoved (.nil _)))
  exact ⟨_, hrun, (buffer_fifo (by decide) hnew hrun).2.2.1⟩

/-- With sums that wrap, the vector is too small for the prepended space from the beginning, or
space that was ensured is not there. -/
theorem sizes_wrap :
    (¬∀ (initialSize room : ℕ) (b : Buffer), initialSize < 2^64 → new initialSize room = some b →
      kCheapPrepend ≤ b.readerIndex ∧ b.readerIndex ≤ b.writerIndex ∧
        b.writerIndex ≤ b.buffer.length) ∧
    ¬∀ (b b' : Buffer) (len room : ℕ), new 0 room = some b → len < 2^64 →
      b.ensureWritableBytes len room = .done b' → len ≤ b'.writableBytes := by
  constructor
  · intro h
    have hinv := h (2^64-1) 100 ⟨List.replicate 7 0, 8, 8⟩ (by decide) (by decide)
    simp at hinv
  · intro h
    have hspace := h smallBuffer smallBuffer (2^64-1) 100 (by decide) (by decide) (by decide)
    revert hspace
    decide

end Buffer

end JingjieAR
