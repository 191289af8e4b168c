import JingjieAR.LinkedChains
import JingjieAR.MemoryPoolModel

/-! One pool of the slot allocator as a single thread has it, down to the memory: the freed slots
and the blocks are chained through their own first words, and whoever has a slot may write
into it. Pointers are addresses, and they move without wrapping; `size_t` wraps. -/
namespace JingjieAR

/-- The members, the words of memory, what `operator new` has given, and the slots that the
callers have. Every address is a multiple of the size of a word. -/
structure SlotMemory where
  firstBlock : ℕ := 0
  curSlot : ℕ := 0
  freeList : ℕ := 0
  lastSlot : ℕ := 0
  -- `reinterpret_cast<Slot*>(address)->next`
  next : ℕ → ℕ := fun _ => 0
  blocks : List ℕ := []
  allocated : List ℕ := []

inductive SlotCall
  -- with what `operator new` would give for a block, if it is asked
  | allocate (newBlock : Option ℕ)
  | deallocate (ptr : ℕ)
  -- a caller stores something, and this is the memory then
  | write (next : ℕ → ℕ)

/-- The pool for objects of this size, as `HashBucket` chooses it. -/
def poolIndex (size : ℕ) : ℕ := (size+7)/slotHeader-1

namespace SlotMemory

variable (shape : PoolShape) (s : SlotMemory)

def allocateNewBlock (newBlock : ℕ) : SlotMemory :=
  let body := newBlock+slotHeader
  let paddingSize := MemoryPool.padPointer body shape.slotSize
  { s with
    next := Function.update s.next newBlock s.firstBlock
    firstBlock := newBlock
    curSlot := body+paddingSize
    lastSlot := newBlock+shape.blockSize-shape.slotSize+1
    freeList := 0
    blocks := newBlock :: s.blocks }

/-- `temp = curSlot_`, and the cursor moves on by a number of `Slot`s. -/
def takeSlot : Option ℕ × SlotMemory :=
  (some s.curSlot, { s with curSlot := s.curSlot+shape.slotSize/slotHeader*slotHeader })

/-- No slot where `operator new` throws. -/
def allocate (newBlock : Option ℕ) : Option ℕ × SlotMemory :=
  if s.freeList ≠ 0 then (some s.freeList, { s with freeList := s.next s.freeList })
  else if s.curSlot < s.lastSlot then s.takeSlot shape
  else
    match newBlock with
    | none => (none, s)
    | some newBlock => (s.allocateNewBlock shape newBlock).takeSlot shape

def deallocate (ptr : ℕ) : SlotMemory :=
  if ptr ≠ 0 then
    { s with next := Function.update s.next ptr s.freeList, freeList := ptr }
  else s

/-- `operator new` gives aligned memory that no block of the pool has. -/
def Fresh (newBlock : ℕ) : Prop :=
  0 < newBlock ∧ 16 ∣ newBlock ∧ newBlock+shape.blockSize ≤ 2^64 ∧
    ∀ block ∈ s.blocks, block+shape.blockSize ≤ newBlock ∨ newBlock+shape.blockSize ≤ block

/-- The word at the address shares no byte with a slot that a caller has. -/
def Untouched (a : ℕ) : Prop :=
  ∀ p ∈ s.allocated, a+slotHeader ≤ p ∨ p+shape.slotSize ≤ a

inductive Step : SlotMemory → SlotCall → SlotMemory → Prop
  | allocate {s s' : SlotMemory} {newBlock ptr : Option ℕ}
      (hfresh : ∀ block ∈ newBlock, Fresh shape s block)
      (h : s.allocate shape newBlock = (ptr, s')) :
      Step s (.allocate newBlock) { s' with allocated := ptr.toList++s'.allocated }
  -- A pointer is given back by whoever has it, and then it is gone.
  | deallocate {s : SlotMemory} {ptr : ℕ} (h : ptr ∈ s.allocated) :
      Step s (.deallocate ptr)
        { s.deallocate ptr with allocated := s.allocated.erase ptr }
  | deallocateNull {s : SlotMemory} : Step s (.deallocate 0) (s.deallocate 0)
  | write {s : SlotMemory} {next : ℕ → ℕ}
      (h : ∀ a, Untouched shape s a → next a = s.next a) :
      Step s (.write next) { s with next := next }

end SlotMemory

end JingjieAR
