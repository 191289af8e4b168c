import JingjieAR.HttpRequestModel

/-! The buffer of a connection: a vector of bytes with the indices between which the readable
ones lie. Indices and lengths are words of 64 bits. An access outside of the vector is an
overrun; a vector that cannot be had is an exception. -/
namespace JingjieAR

/-- Sums and differences of `size_t`. -/
def sizeAdd (a b : ℕ) : ℕ := (a+b) % 2^64

def sizeSub (a b : ℕ) : ℕ := (a+(2^64-b)) % 2^64

/-- `max_size` of a vector of bytes. -/
def maxVectorSize : ℕ := 2^63-1

/-- `std::vector::resize`; `room` is the largest vector that the allocator gives. -/
def resizeVector (bytes : Bytes) (size room : ℕ) : Option Bytes :=
  if size > maxVectorSize ∨ size > room then none
  else some (bytes.take size++List.replicate (size-bytes.length) 0)

/-- Bytes that are copied into the vector, or none if they do not fit in. -/
def overwrite (bytes : Bytes) (position : ℕ) (data : Bytes) : Option Bytes :=
  if position+data.length > bytes.length then none
  else some (bytes.take position++(data++bytes.drop (position+data.length)))

/-- How a call ends. -/
inductive BufferResult (α : Type)
  | done (value : α)
  | threw
  | overrun
deriving DecidableEq

def BufferResult.bind {α β : Type} (r : BufferResult α) (f : α → BufferResult β) :
    BufferResult β :=
  match r with
  | .done value => f value
  | .threw => .threw
  | .overrun => .overrun

structure Buffer where
  buffer : Bytes
  readerIndex : ℕ
  writerIndex : ℕ
deriving DecidableEq

namespace Buffer

def kCheapPrepend : ℕ := 8
def kInitialSize : ℕ := 1024

/-- The size of the stack buffer of `readFd`. -/
def extrabufSize : ℕ := 65536

/-- The constructor; its vector may be too large. -/
def new (initialSize room : ℕ) : Option Buffer :=
  (resizeVector [] (sizeAdd kCheapPrepend initialSize) room).map
    (fun bytes => ⟨bytes, kCheapPrepend, kCheapPrepend⟩)

def readableBytes (b : Buffer) : ℕ := sizeSub b.writerIndex b.readerIndex
def writableBytes (b : Buffer) : ℕ := sizeSub b.buffer.length b.writerIndex
def prependableBytes (b : Buffer) : ℕ := b.readerIndex

def retrieveAll (b : Buffer) : Buffer :=
  { b with readerIndex := kCheapPrepend, writerIndex := kCheapPrepend }

def retrieve (b : Buffer) (len : ℕ) : Buffer :=
  if len < b.readableBytes then { b with readerIndex := sizeAdd b.readerIndex len }
  else b.retrieveAll

/-- The string is made of the bytes from `peek()` on. -/
def retrieveAsString (b : Buffer) (len : ℕ) : BufferResult (Buffer × Bytes) :=
  if b.readerIndex+len > b.buffer.length then .overrun
  else .done (b.retrieve len, (b.buffer.drop b.readerIndex).take len)

def retrieveAllAsString (b : Buffer) : BufferResult (Buffer × Bytes) :=
  b.retrieveAsString b.readableBytes

/-- The vector grows, or the readable bytes move down to the prepended space. -/
def makeSpace (b : Buffer) (len room : ℕ) : BufferResult Buffer :=
  if sizeAdd b.writableBytes b.prependableBytes < sizeAdd len kCheapPrepend then
    match resizeVector b.buffer (sizeAdd b.writerIndex len) room with
    | none => .threw
    | some bytes => .done { b with buffer := bytes }
  else
    let readable := b.readableBytes
    if b.writerIndex > b.buffer.length then .overrun
    else
      match overwrite b.buffer kCheapPrepend
          ((b.buffer.drop b.readerIndex).take (b.writerIndex-b.readerIndex)) with
      | none => .overrun
      | some bytes => .done ⟨bytes, kCheapPrepend, sizeAdd kCheapPrepend readable⟩

def ensureWritableBytes (b : Buffer) (len room : ℕ) : BufferResult Buffer :=
  if b.writableBytes < len then b.makeSpace len room else .done b

def append (b : Buffer) (data : Bytes) (room : ℕ) : BufferResult Buffer :=
  (b.ensureWritableBytes data.length room).bind fun b =>
    match overwrite b.buffer b.writerIndex data with
    | none => .overrun
    | some bytes =>
      .done { b with buffer := bytes, writerIndex := sizeAdd b.writerIndex data.length }

/-- The space that `readFd` offers to the kernel. -/
def offered (b : Buffer) : ℕ :=
  b.writableBytes+if b.writableBytes < extrabufSize then extrabufSize else 0

/-- `readFd` when `readv` gives `received`: it fills the vector first, then the stack buffer. -/
def readFd (b : Buffer) (received : Bytes) (room : ℕ) : BufferResult Buffer :=
  match overwrite b.buffer b.writerIndex (received.take b.writableBytes) with
  | none => .overrun
  | some bytes =>
    if received.length ≤ b.writableBytes then
      .done { b with buffer := bytes, writerIndex := sizeAdd b.writerIndex received.length }
    else
      append { b with buffer := bytes, writerIndex := bytes.length }
        (received.drop b.writableBytes) room

end Buffer

/-- The calls of a buffer, with what they meet. A `readFd` that fails changes nothing. -/
inductive BufferCall
  | append (data : Bytes) (room : ℕ)
  | retrieve (len : ℕ)
  | retrieveAll
  | retrieveAsString (len : ℕ)
  | retrieveAllAsString
  | ensureWritableBytes (len room : ℕ)
  | readFd (received : Bytes) (room : ℕ)
  | readFdFailed

namespace Buffer

/-- A call, with the string that it returns or an empty one. -/
def next (b : Buffer) : BufferCall → BufferResult (Buffer × Bytes)
  | .append data room => (b.append data room).bind fun b => .done (b, [])
  | .retrieve len => .done (b.retrieve len, [])
  | .retrieveAll => .done (b.retrieveAll, [])
  | .retrieveAsString len => b.retrieveAsString len
  | .retrieveAllAsString => b.retrieveAllAsString
  | .ensureWritableBytes len room => (b.ensureWritableBytes len room).bind fun b => .done (b, [])
  | .readFd received room => (b.readFd received room).bind fun b => .done (b, [])
  | .readFdFailed => .done (b, [])

/-- There is room for `len` bytes, or the sums that look for it do not wrap. -/
def AsksFor (b : Buffer) (len : ℕ) : Prop :=
  len ≤ b.writableBytes ∨ (len+kCheapPrepend < 2^64 ∧ b.writerIndex+len < 2^64)

instance (b : Buffer) (len : ℕ) : Decidable (b.AsksFor len) := inferInstanceAs (Decidable (_ ∨ _))

/-- What a call needs: a string is made of readable bytes only, the kernel gives no more than
it was offered, and no sum wraps. -/
def Fits (b : Buffer) : BufferCall → Prop
  | .append data _ => b.AsksFor data.length
  | .retrieve _ => True
  | .retrieveAll => True
  | .retrieveAsString len => len ≤ b.readableBytes
  | .retrieveAllAsString => True
  | .ensureWritableBytes len _ => b.AsksFor len
  | .readFd received _ => received.length ≤ b.offered
  | .readFdFailed => True

instance (b : Buffer) (call : BufferCall) : Decidable (b.Fits call) :=
  match call with
  | .append _ _ => inferInstanceAs (Decidable (_ ∨ _))
  | .retrieve _ => inferInstanceAs (Decidable True)
  | .retrieveAll => inferInstanceAs (Decidable True)
  | .retrieveAsString _ => inferInstanceAs (Decidable (_ ≤ _))
  | .retrieveAllAsString => inferInstanceAs (Decidable True)
  | .ensureWritableBytes _ _ => inferInstanceAs (Decidable (_ ∨ _))
  | .readFd _ _ => inferInstanceAs (Decidable (_ ≤ _))
  | .readFdFailed => inferInstanceAs (Decidable True)

/-- A run of calls that fit and return, with the strings that they return. -/
inductive Run : Buffer → List BufferCall → Buffer → List Bytes → Prop
  | nil (b : Buffer) : Run b [] b []
  | cons {b b₁ b' : Buffer} {call : BufferCall} {calls : List BufferCall} {text : Bytes}
      {texts : List Bytes} (hfits : b.Fits call) (hnext : b.next call = .done (b₁, text))
      (h : Run b₁ calls b' texts) : Run b (call :: calls) b' (text :: texts)

end Buffer

end JingjieAR
