import JingjieAR.AsyncLoggingModel
import JingjieAR.HttpResponseModel
import Mathlib.Data.Int.Notation

/-! `LogStream` and the bytes of its buffer. A pointer into the buffer is an offset; a store or a
table access out of bounds has no result. -/
namespace JingjieAR

/-- The integer types that are formatted; `long` has 64 bits. -/
inductive IntegerType
  | short
  | unsignedShort
  | int
  | unsignedInt
  | long
  | unsignedLong
  | longLong
  | unsignedLongLong
deriving DecidableEq

namespace IntegerType

def width : IntegerType → ℕ
  | short => 16
  | unsignedShort => 16
  | int => 32
  | unsignedInt => 32
  | long => 64
  | unsignedLong => 64
  | longLong => 64
  | unsignedLongLong => 64

def signed : IntegerType → Bool
  | short => true
  | int => true
  | long => true
  | longLong => true
  | _ => false

def lowest (t : IntegerType) : ℤ := if t.signed then -2^(t.width-1) else 0

def highest (t : IntegerType) : ℤ := if t.signed then 2^(t.width-1)-1 else 2^t.width-1

/-- The value that a result has once it is stored in the type. -/
def convert (t : IntegerType) (v : ℤ) : ℤ := (v-t.lowest) % 2^t.width+t.lowest

theorem highest_eq (t : IntegerType) : t.highest = t.lowest+2^t.width-1 := by
  cases t with
  | _ => rfl

theorem convert_mem (t : IntegerType) (v : ℤ) :
    t.lowest ≤ t.convert v ∧ t.convert v ≤ t.highest := by
  have hpos : (0 : ℤ) < 2^t.width := Int.pow_pos (by decide)
  have hnonneg := Int.emod_nonneg (v-t.lowest) (Int.ne_of_gt hpos)
  have hlt := Int.emod_lt_of_pos (v-t.lowest) hpos
  rw [highest_eq, convert]
  omega

/-- What is in the range of the type stays as it is. -/
theorem convert_eq_self {t : IntegerType} {v : ℤ} (hlow : t.lowest ≤ v) (hhigh : v ≤ t.highest) :
    t.convert v = v := by
  rw [highest_eq] at hhigh
  rw [convert, Int.emod_eq_of_lt (by omega) (by omega)]
  omega

end IntegerType

/-- A value of a type. -/
structure MachineInteger (t : IntegerType) where
  value : ℤ
  lowest_le : t.lowest ≤ value
  le_highest : value ≤ t.highest

/-- `num /= 10` -/
def MachineInteger.div10 {t : IntegerType} (num : MachineInteger t) : MachineInteger t where
  value := t.convert (num.value.tdiv 10)
  lowest_le := (t.convert_mem _).1
  le_highest := (t.convert_mem _).2

/-- `static_cast<int>(num % 10)` -/
def MachineInteger.rem10 {t : IntegerType} (num : MachineInteger t) : ℤ :=
  IntegerType.int.convert (num.value.tmod 10)

/-- `char[size]` -/
structure CharArray (size : ℕ) where
  bytes : Bytes
  length_bytes : bytes.length = size

namespace CharArray

variable {size : ℕ}

def store (array : CharArray size) (cur : ℕ) (c : UInt8) : Option (CharArray size) :=
  if cur < size then
    some ⟨array.bytes.set cur c, by rw [List.length_set, array.length_bytes]⟩
  else none

/-- `std::reverse(start, cur)` -/
def reverse (array : CharArray size) (start cur : ℕ) : Option (CharArray size) :=
  if h : start ≤ cur ∧ cur ≤ size then
    some
      { bytes := array.bytes.take start++
          (((array.bytes.take cur).drop start).reverse++array.bytes.drop cur)
        length_bytes := by
          have hlength := array.length_bytes
          simp only [List.length_append, List.length_take, List.length_reverse, List.length_drop]
          omega }
  else none

/-- `memcpy(cur, text, text.size())` -/
def copy (array : CharArray size) (cur : ℕ) (text : Bytes) : Option (CharArray size) :=
  if h : cur+text.length ≤ size then
    some
      { bytes := array.bytes.take cur++(text++array.bytes.drop (cur+text.length))
        length_bytes := by
          have hlength := array.length_bytes
          simp only [List.length_append, List.length_take, List.length_drop]
          omega }
  else none

end CharArray

/-- The object of the class `FixedBuffer`: all of its bytes, `cur_` and `size_`. -/
structure RawBuffer (size : ℕ) where
  data : CharArray size
  cur : ℕ
  length : ℕ
  cur_eq : cur = length
  fits : length ≤ size

namespace RawBuffer

variable {size : ℕ}

/-- A new buffer; its bytes are what was there before. -/
def fresh (data : CharArray size) : RawBuffer size := ⟨data, 0, 0, rfl, Nat.zero_le _⟩

def avail (b : RawBuffer size) : ℕ := size-b.length

/-- `add`, after the bytes were written; no buffer is longer than its array. -/
def add (b : RawBuffer size) (data : CharArray size) (len : ℕ) : Option (RawBuffer size) :=
  if h : b.length+len ≤ size then
    some ⟨data, b.cur+len, b.length+len, congrArg (·+len) b.cur_eq, h⟩
  else none

def append (b : RawBuffer size) (text : Bytes) : Option (RawBuffer size) :=
  if text.length < b.avail then do
    let data ← b.data.copy b.cur text
    b.add data text.length
  else some b

def reset (b : RawBuffer size) : RawBuffer size := fresh b.data

def toString (b : RawBuffer size) : Bytes := b.data.bytes.take b.length

end RawBuffer

def kSmallBufferSize : ℕ := 4000

namespace LogStream

abbrev Buffer := RawBuffer kSmallBufferSize

def kMaxNumberSize : ℕ := 32

/-- The table with the NUL at its end. -/
def digits : Bytes := ascii "9876543210123456789"++[0]

/-- `zero[remainder]` with `zero = digits + 9` -/
def digitAt (remainder : ℤ) : Option UInt8 :=
  if 0 ≤ 9+remainder then digits[(9+remainder).toNat]? else none

variable {size : ℕ} {t : IntegerType}

/-- The loop over the digits, the last one first. -/
def formatDigits : ℕ → MachineInteger t → CharArray size → ℕ → Option (CharArray size × ℕ)
  | 0, _, _, _ => none
  | fuel+1, num, data, cur => do
    let data ← data.store cur (← digitAt num.rem10)
    let num := num.div10
    if num.value ≠ 0 then formatDigits fuel num data (cur+1) else some (data, cur+1)

/-- `if (negative)` -/
def storeSign (negative : Bool) (data : CharArray size) (cur : ℕ) : Option (CharArray size × ℕ) :=
  if negative then (data.store cur 45).map (fun data => (data, cur+1)) else some (data, cur)

def formatInteger (b : RawBuffer size) (num : MachineInteger t) : Option (RawBuffer size) :=
  if kMaxNumberSize ≤ b.avail then do
    let start := b.cur
    let negative := num.value < 0
    -- each round takes a digit off the number
    let (data, cur) ← formatDigits (num.value.natAbs+1) num b.data start
    let (data, cur) ← storeSign negative data cur
    let data ← data.store cur 0
    let data ← data.reverse start cur
    b.add data (cur-start)
  else some b

/-- What is put into a stream: a text, also one of a `char` or a `bool`, or an integer. -/
inductive Item
  | text (value : Bytes)
  | boolean (value : Bool)
  | integer (t : IntegerType) (num : MachineInteger t)

/-- `operator<<` -/
def put (b : RawBuffer size) : Item → Option (RawBuffer size)
  | .text value => b.append value
  | .boolean value => b.append (if value then ascii "true" else ascii "false")
  | .integer _ num => formatInteger b num

def putAll (b : RawBuffer size) (items : List Item) : Option (RawBuffer size) :=
  items.foldlM put b

end LogStream

end JingjieAR
