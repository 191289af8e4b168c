import JingjieAR.TransitionRuns
import Mathlib.Algebra.Group.Nat.Defs
import Mathlib.Data.List.Basic

/-! One pool of the slot allocator, with any number of calls of `allocate` and `deallocate`.
A section of either mutex is one step, and so is the look at `freeList_` without one. Pointers
are addresses, and the chain of freed slots is the list of their addresses. -/
namespace JingjieAR

/-- `sizeof(Slot)`. -/
def slotHeader : ℕ := 8

/-- The sizes of an initialised pool. `SLOT_BASE_SIZE` divides the slots, and a block has
room for its header, for the padding and for a slot. -/
structure PoolShape where
  blockSize : ℕ
  slotSize : ℕ
  slotSize_pos : 0 < slotSize
  slotSize_base : slotHeader ∣ slotSize
  room : slotHeader+2*slotSize ≤ blockSize

/-- The pools that there are: the slots of the `index`-th have `8*(index+1)` bytes. -/
def getMemoryPool (index : Fin 64) : PoolShape where
  blockSize := 4096
  slotSize := (index+1)*slotHeader
  slotSize_pos := Nat.mul_pos (Nat.succ_pos _) (by decide)
  slotSize_base := Nat.dvd_mul_left _ _
  room := by
    have hindex := index.isLt
    simp only [slotHeader]
    omega

/-- One allocation: the call of `allocate`, the slot while its caller has it, and the call of
`deallocate` for it, in whatever thread. -/
inductive Allocation
  -- in `allocate`, before the look at `freeList_`
  | entered
  -- the list did not look empty, and its mutex is to be locked
  | listSeen
  -- the list was empty, and the mutex of the block is to be locked
  | listEmpty
  -- `temp` is set
  | taken (slot : ℕ)
  | held (slot : ℕ)
  -- in `deallocate`, before its section
  | releasing (slot : ℕ)
  | released
  -- out of `allocate` by `std::bad_alloc`
  | threw
deriving DecidableEq

/-- The slot that is in the hands of the caller or of a call. -/
def Allocation.slot : Allocation → Option ℕ
  | .taken slot => some slot
  | .held slot => some slot
  | .releasing slot => some slot
  | _ => none

/-- The members, the calls, and for the record the slots that `curSlot_` has passed. -/
structure MemoryPool where
  blocks : List ℕ := []
  curSlot : ℕ := 0
  freeList : List ℕ := []
  lastSlot : ℕ := 0
  calls : List Allocation := []
  carved : List ℕ := []
deriving DecidableEq

inductive PoolStep
  | allocate
  | look (i : ℕ)
  | pop (i : ℕ)
  -- with what `operator new` would give for a block, if it is asked
  | carve (i : ℕ) (newBlock : Option ℕ)
  | return (i : ℕ)
  | deallocate (i : ℕ)
  | push (i : ℕ)

namespace MemoryPool

def setCall (s : MemoryPool) (i : ℕ) (call : Allocation) : MemoryPool :=
  { s with calls := s.calls.set i call }

/-- `(align - p) % align` in `size_t`. -/
def padPointer (p align : ℕ) : ℕ := ((2^64+align-p) % 2^64) % align

/-- `operator new` gives memory that no block of the pool has. -/
def Fresh (shape : PoolShape) (s : MemoryPool) (newBlock : ℕ) : Prop :=
  0 < newBlock ∧ newBlock+shape.blockSize ≤ 2^64 ∧
    ∀ block ∈ s.blocks, block+shape.blockSize ≤ newBlock ∨ newBlock+shape.blockSize ≤ block

instance (shape : PoolShape) (s : MemoryPool) (newBlock : ℕ) : Decidable (s.Fresh shape newBlock) :=
  inferInstanceAs (Decidable (_ ∧ _))

def allocateNewBlock (shape : PoolShape) (s : MemoryPool) (newBlock : ℕ) : MemoryPool :=
  let body := newBlock+slotHeader
  let paddingSize := padPointer body shape.slotSize
  { s with
    blocks := newBlock :: s.blocks
    curSlot := body+paddingSize
    lastSlot := newBlock+shape.blockSize-shape.slotSize+1
    freeList := [] }

/-- `temp = curSlot_`, and the cursor moves on by a number of `Slot`s. -/
def takeSlot (shape : PoolShape) (s : MemoryPool) (i : ℕ) : MemoryPool :=
  { s with
    curSlot := s.curSlot+shape.slotSize/slotHeader*slotHeader
    carved := s.carved++[s.curSlot] }.setCall i (.taken s.curSlot)

/-- The section of `mutexForBlock_`. -/
def carve (shape : PoolShape) (s : MemoryPool) (i : ℕ) (newBlock : Option ℕ) : Option MemoryPool :=
  if s.curSlot < s.lastSlot then some (s.takeSlot shape i)
  else
    match newBlock with
    | none => some (s.setCall i .threw)
    | some newBlock =>
      if s.Fresh shape newBlock then some ((s.allocateNewBlock shape newBlock).takeSlot shape i)
      else none

/-- The section of `mutexForFreeList_` in `allocate`. -/
def pop (s : MemoryPool) (i : ℕ) : MemoryPool :=
  match s.freeList with
  | temp :: next => { s with freeList := next }.setCall i (.taken temp)
  | [] => s.setCall i .listEmpty

def next (shape : PoolShape) (s : MemoryPool) : PoolStep → Option MemoryPool
  | .allocate => some { s with calls := s.calls++[.entered] }
  | .look i =>
    match s.calls[i]? with
    | some .entered => some (s.setCall i (if s.freeList = [] then .listEmpty else .listSeen))
    | _ => none
  | .pop i =>
    match s.calls[i]? with
    | some .listSeen => some (s.pop i)
    | _ => none
  | .carve i newBlock =>
    match s.calls[i]? with
    | some .listEmpty => s.carve shape i newBlock
    | _ => none
  | .return i =>
    match s.calls[i]? with
    | some (.taken slot) => some (s.setCall i (.held slot))
    | _ => none
  | .deallocate i =>
    match s.calls[i]? with
    | some (.held slot) => some (s.setCall i (.releasing slot))
    | _ => none
  | .push i =>
    match s.calls[i]? with
    | some (.releasing slot) =>
      some ({ s with freeList := slot :: s.freeList }.setCall i .released)
    | _ => none

def Step (shape : PoolShape) (s : MemoryPool) (e : PoolStep) (s' : MemoryPool) : Prop :=
  next shape s e = some s'

/-- No block is taken while there are freed slots. -/
def KeepsFreeList (s : MemoryPool) : PoolStep → Prop
  | .carve _ (some _) => s.curSlot < s.lastSlot ∨ s.freeList = []
  | _ => True

/-- How many have the slot: the free list, the callers and the calls. -/
def places (s : MemoryPool) (slot : ℕ) : ℕ :=
  s.freeList.count slot+s.calls.countP (fun call => call.slot = some slot)

/-- Every slot that was carved is in one place, nothing else is anywhere, and the slots do
not share memory. -/
structure Conserved (shape : PoolShape) (s : MemoryPool) : Prop where
  carved : ∀ slot ∈ s.carved, s.places slot = 1
  other : ∀ slot ∉ s.carved, s.places slot = 0
  apart : s.carved.Pairwise
    (fun a b => a+shape.slotSize ≤ b ∨ b+shape.slotSize ≤ a)

end MemoryPool

end JingjieAR
