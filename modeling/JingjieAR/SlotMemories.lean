import JingjieAR.MemoryPools
import JingjieAR.SlotMemoryModel
import Mathlib.Data.List.Pairwise

/-! The slots that the callers of a pool have. What one thread does with the memory is a run of
the pool whose freed slots are a list; there every slot is in one place at most. -/
namespace JingjieAR

open Runs (Run)
open LinkedChains (Chain)

namespace MemoryPool

variable {shape : PoolShape} {s s' : MemoryPool} {gone : List ℕ}

/-- The padding behind an address of words, for slots of words. -/
theorem dvd_padPointer {p align : ℕ} (halign : slotHeader ∣ align) (hp : slotHeader ∣ p) :
    slotHeader ∣ padPointer p align := by
  have hwords : slotHeader ∣ 2^64 := by decide
  have hsum : slotHeader ∣ 2^64+align := Nat.dvd_add hwords halign
  have hmod : slotHeader ∣ (2^64+align-p) % 2^64 :=
    (Nat.dvd_mod_iff hwords).mpr (Nat.dvd_sub hsum hp)
  exact (Nat.dvd_mod_iff halign).mpr hmod

/-- What `padPointer` is for: the next multiple of the alignment, with less than a whole
alignment between. -/
def PadsToMultiple (p align : ℕ) : Prop :=
  p+padPointer p align < 2^64 ∧ align ∣ p+padPointer p align ∧ padPointer p align < align

/-- Behind the alignment the difference wraps, and counts the addresses up to `2^64`. -/
theorem padPointer_wrapped {p align : ℕ} (hp : p < 2^64) (hlt : align < p) :
    padPointer p align = (2^64-p) % align := by
  have hwrap : 2^64+align-p = 2^64-p+align := by omega
  have hmod : (2^64-p+align) % 2^64 = 2^64-p+align := Nat.mod_eq_of_lt (by omega)
  rw [padPointer, hwrap, hmod, Nat.add_mod_right]

theorem padPointer_before {p align : ℕ} (halign : align < 2^64) (hle : p ≤ align) :
    padPointer p align = (align-p) % align := by
  have hwrap : 2^64+align-p = align-p+2^64 := by omega
  rw [padPointer, hwrap, Nat.add_mod_right, Nat.mod_eq_of_lt (by omega : align-p < 2^64)]

theorem padsToMultiple_before {p align : ℕ} (hpos : 0 < align) (hsmall : align ≤ 512)
    (hle : p ≤ align) : PadsToMultiple p align := by
  have hpad := padPointer_before (by omega) hle
  have hlt := padPointer_lt hpos p
  rcases Nat.eq_zero_or_pos p with rfl | hp
  · have hzero : padPointer 0 align = 0 := by
      rw [hpad, Nat.sub_zero, Nat.mod_self]
    refine ⟨?_, ?_, hlt⟩
    · omega
    · rw [hzero]
      exact Nat.dvd_zero align
  · have hsum : p+padPointer p align = align := by
      rw [hpad, Nat.mod_eq_of_lt (by omega)]
      omega
    refine ⟨?_, ?_, hlt⟩
    · omega
    · rw [hsum]

/-- For an address behind the first multiple: whether the alignment divides `2^64`, and there
is another multiple before that. -/
theorem padsToMultiple_behind_iff {p align : ℕ} (hpos : 0 < align) (hp : p < 2^64)
    (hlt : align < p) : PadsToMultiple p align ↔ align ∣ 2^64 ∧ p ≤ 2^64-align := by
  have hpad := padPointer_wrapped hp hlt
  have hdiv := Nat.div_add_mod (2^64-p) align
  have hrest := padPointer_lt hpos p
  -- the padding leads to a whole number of alignments before `2^64`
  have hend : p+padPointer p align+align*((2^64-p)/align) = 2^64 := by omega
  have hdvd : align ∣ p+padPointer p align ↔ align ∣ 2^64 := by
    rw [← hend]
    exact (Nat.dvd_add_left (Nat.dvd_mul_right _ _)).symm
  have hwrap : p+padPointer p align < 2^64 ↔ p ≤ 2^64-align := by
    have hquot : 0 < (2^64-p)/align ↔ align ≤ 2^64-p := Nat.div_pos_iff.trans (by simp [hpos])
    have hmul : 0 < align*((2^64-p)/align) ↔ 0 < (2^64-p)/align := Nat.mul_pos_iff_of_pos_left hpos
    omega
  rw [PadsToMultiple, hdvd, hwrap]
  constructor
  · rintro ⟨hroom, hpower, -⟩
    exact ⟨hpower, hroom⟩
  · rintro ⟨hpower, hroom⟩
    exact ⟨hroom, hpower, hrest⟩

/-- `padPointer` does what it is for exactly for the addresses up to the first multiple, and
where the slot size divides `2^64` for all that have another multiple before `2^64`. -/
theorem padPointer_aligns_iff {p align : ℕ} (hp : p < 2^64) (hwords : 8 ∣ align)
    (hleast : 8 ≤ align) (hmost : align ≤ 512) :
    PadsToMultiple p align ↔ p ≤ align ∨ align ∣ 2^64 ∧ p ≤ 2^64-align := by
  have hpos : 0 < align := by omega
  by_cases hle : p ≤ align
  · exact iff_of_true (padsToMultiple_before hpos hmost hle) (.inl hle)
  · rw [padsToMultiple_behind_iff hpos hp (by omega)]
    exact (or_iff_right hle).symm

theorem padPointer_aligns_power : PadsToMultiple 4104 64 :=
  (padPointer_aligns_iff (by decide) (by decide) (by decide) (by decide)).mpr
    (.inr ⟨by decide, by decide⟩)

/-- Slots of 24 bytes: `40` is no multiple of `24`. -/
theorem padPointer_misaligned : ¬ PadsToMultiple 32 24 := by
  rintro ⟨-, hdvd, -⟩
  exact absurd hdvd (by decide)

/-- Areas of one size lie apart in either order. -/
instance apart_symm (n : ℕ) : Std.Symm (fun a b : ℕ => a+n ≤ b ∨ b+n ≤ a) :=
  ⟨fun _ _ => Or.symm⟩

/-- No slot starts in the header of a block. -/
structure Headers (shape : PoolShape) (s : MemoryPool) : Prop where
  blocks : s.blocks.Pairwise
    (fun a b => a+shape.blockSize ≤ b ∨ b+shape.blockSize ≤ a)
  carved : ∀ slot ∈ s.carved, ∀ block ∈ s.blocks, block ≤ slot → block+slotHeader ≤ slot
  cursor : s.curSlot < s.lastSlot → ∀ block ∈ s.blocks, block ≤ s.curSlot →
    block+slotHeader ≤ s.curSlot

theorem Headers.takeSlot (h : Headers shape s) (hlayout : Layout shape s)
    (hroom : s.curSlot < s.lastSlot) (i : ℕ) : Headers shape (s.takeSlot shape i) := by
  have hstep := slotSize_step shape
  have hbase := Nat.le_of_dvd shape.slotSize_pos shape.slotSize_base
  obtain ⟨current, hcurrent, hle, hend⟩ := hlayout.rest hroom
  have hdisjoint : ∀ block ∈ s.blocks, block ≠ current →
      block+shape.blockSize ≤ current ∨ current+shape.blockSize ≤ block := by
    intro block hblock hne
    exact h.blocks.forall hblock hcurrent hne
  refine ⟨h.blocks, ?_, ?_⟩
  · intro slot hslot block hblock hbefore
    rcases List.mem_append.mp hslot with hold | hnew
    · exact h.carved slot hold block hblock hbefore
    · obtain rfl := List.mem_singleton.mp hnew
      exact h.cursor hroom block hblock hbefore
  · intro hmore block hblock hbefore
    simp only [MemoryPool.takeSlot, setCall, hstep] at hmore hblock hbefore ⊢
    by_cases hcases : block ≤ s.curSlot
    · have hbehind := h.cursor hroom block hblock hcases
      omega
    · -- A block that starts later starts behind the current one.
      have hne : block ≠ current := by
        rintro rfl
        exact hcases hle
      have hapart := hdisjoint block hblock hne
      omega

theorem Headers.allocateNewBlock {newBlock : ℕ} (h : Headers shape s) (hlayout : Layout shape s)
    (hfresh : s.Fresh shape newBlock) : Headers shape (s.allocateNewBlock shape newBlock) := by
  obtain ⟨-, -, hdisjoint⟩ := hfresh
  have hpad := padPointer_lt shape.slotSize_pos (newBlock+slotHeader)
  have hroom := shape.room
  refine ⟨?_, ?_, ?_⟩
  · apply List.pairwise_cons.mpr
    refine ⟨?_, h.blocks⟩
    intro block hblock
    exact (hdisjoint block hblock).symm
  · intro slot hslot block hblock hbefore
    rcases List.mem_cons.mp hblock with hnew | hold
    · obtain ⟨own, hown, hin⟩ := hlayout.inside slot hslot
      have hapart := hdisjoint own hown
      omega
    · exact h.carved slot hslot block hold hbefore
  · intro _ block hblock hbefore
    simp only [MemoryPool.allocateNewBlock] at hblock hbefore ⊢
    rcases List.mem_cons.mp hblock with hnew | hold
    · omega
    · have hapart := hdisjoint block hold
      omega

/-- What holds of a pool in any run, also where slots are dropped. -/
structure Sound (shape : PoolShape) (s : MemoryPool) : Prop where
  layout : Layout shape s
  headers : Headers shape s
  account : ∀ x, s.places x ≤ s.carved.count x

theorem Sound.empty : Sound shape {} :=
  ⟨.empty, ⟨.nil, by simp, by simp⟩, fun _ => Nat.le_refl _⟩

theorem Sound.effect (h : Sound shape s) (he : Effect shape s gone s') : Sound shape s' := by
  have hlayout := h.layout.step he
  have haccount : ∀ x, s'.places x ≤ s'.carved.count x := by
    intro x
    have hbefore := h.account x
    have hbalance := he.balance x
    omega
  cases he with
  | called => exact ⟨hlayout, ⟨h.headers.blocks, h.headers.carved, h.headers.cursor⟩, haccount⟩
  | stays => exact ⟨hlayout, ⟨h.headers.blocks, h.headers.carved, h.headers.cursor⟩, haccount⟩
  | popped => exact ⟨hlayout, ⟨h.headers.blocks, h.headers.carved, h.headers.cursor⟩, haccount⟩
  | pushed => exact ⟨hlayout, ⟨h.headers.blocks, h.headers.carved, h.headers.cursor⟩, haccount⟩
  | carved hcall hroom => exact ⟨hlayout, h.headers.takeSlot h.layout hroom _, haccount⟩
  | carvedNew hcall hfresh =>
    obtain ⟨hnew, hroom⟩ := h.layout.allocateNewBlock hfresh
    have hheaders := h.headers.allocateNewBlock h.layout hfresh
    exact ⟨hlayout, hheaders.takeSlot hnew hroom _, haccount⟩

theorem Sound.run {es : List PoolStep} (h : Sound shape s) (hr : Run (Step shape) s es s') :
    Sound shape s' :=
  hr.invariant
    (fun _ _ _ hsound hstep =>
      have ⟨_, heffect, _⟩ := hstep.effect
      hsound.effect heffect) h

/-- A slot in any place was carved, and is in no second place. -/
theorem Sound.mem_carved (h : Sound shape s) {x : ℕ} (hx : 0 < s.places x) :
    x ∈ s.carved ∧ s.places x = 1 := by
  have haccount := h.account x
  have hmem : x ∈ s.carved := List.count_pos_iff.mp (by omega)
  have hone := List.count_eq_one_of_mem h.layout.nodup hmem
  exact ⟨hmem, by omega⟩

/-- Where a slot in some place lies. -/
theorem Sound.inside (h : Sound shape s) {x : ℕ} (hx : 0 < s.places x) :
    ∃ block ∈ s.blocks, block+slotHeader ≤ x ∧ x+shape.slotSize ≤ block+shape.blockSize := by
  obtain ⟨hcarved, -⟩ := h.mem_carved hx
  obtain ⟨block, hblock, hle, hend⟩ := h.layout.inside x hcarved
  exact ⟨block, hblock, h.headers.carved x hcarved block hblock hle, hend⟩

theorem Sound.apart (h : Sound shape s) {x y : ℕ} (hx : 0 < s.places x) (hy : 0 < s.places y)
    (hne : x ≠ y) : x+shape.slotSize ≤ y ∨ y+shape.slotSize ≤ x :=
  h.layout.apart.forall (h.mem_carved hx).1 (h.mem_carved hy).1 hne

section Calls

variable {n temp : ℕ} {rest : List ℕ} {call : Allocation}

/-- The pool with one more call, at the end of its list. -/
def withCall (s : MemoryPool) (call : Allocation) : MemoryPool :=
  { s with calls := s.calls++[call] }

theorem withCall_last (s : MemoryPool) (call : Allocation) :
    (s.withCall call).calls[s.calls.length]? = some call :=
  List.getElem?_concat_length

theorem withCall_setCall (s : MemoryPool) (call call' : Allocation) :
    (s.withCall call).setCall s.calls.length call' = s.withCall call' := by
  simp [withCall, setCall]

theorem step_look (shape : PoolShape) (s : MemoryPool) :
    Step shape (s.withCall .entered) (.look s.calls.length)
      (s.withCall (if s.freeList = [] then .listEmpty else .listSeen)) := by
  simp only [Step, next, withCall_last, withCall_setCall]
  rfl

theorem step_return (shape : PoolShape) (s : MemoryPool) (slot : ℕ) :
    Step shape (s.withCall (.taken slot)) (.return s.calls.length)
      (s.withCall (.held slot)) := by
  simp only [Step, next, withCall_last, withCall_setCall]

/-- A call of `allocate` that no other thread comes into, where there are freed slots. -/
theorem run_popping (s : MemoryPool) (hlist : s.freeList = temp :: rest) :
    Run (Step shape) s [.allocate, .look s.calls.length, .pop s.calls.length,
      .return s.calls.length] ({ s with freeList := rest }.withCall (.held temp)) := by
  have hlook := step_look shape s
  rw [hlist, if_neg (List.cons_ne_nil _ _)] at hlook
  have hpop : Step shape (s.withCall .listSeen) (.pop s.calls.length)
      ({ s with freeList := rest }.withCall (.taken temp)) := by
    have hpopped : (s.withCall .listSeen).pop s.calls.length =
        ({ s with freeList := rest }.withCall .listSeen).setCall s.calls.length
          (.taken temp) := by
      simp only [pop, withCall, hlist]
    have hset := withCall_setCall { s with freeList := rest } .listSeen (.taken temp)
    simp only [Step, next, withCall_last, hpopped]
    exact congrArg some hset
  have hreturn := step_return shape { s with freeList := rest } temp
  exact .cons rfl (.cons hlook (.cons hpop (.cons hreturn (.nil _))))

/-- The same where there are none, as far as the section of `mutexForBlock_`. -/
theorem run_carving (s : MemoryPool) (hlist : s.freeList = []) (newBlock : Option ℕ)
    {s' : MemoryPool}
    (hcarve : (s.withCall .listEmpty).carve shape s.calls.length newBlock = some s') :
    Run (Step shape) s [.allocate, .look s.calls.length, .carve s.calls.length newBlock] s' := by
  have hlook := step_look shape s
  rw [hlist, if_pos rfl] at hlook
  have hstep : Step shape (s.withCall .listEmpty) (.carve s.calls.length newBlock) s' := by
    simp only [Step, next, withCall_last]
    exact hcarve
  exact .cons rfl (.cons hlook (.cons hstep (.nil _)))

/-- The pool whose cursor has passed a slot. -/
def passed (shape : PoolShape) (s : MemoryPool) : MemoryPool :=
  { s with
    curSlot := s.curSlot+shape.slotSize/slotHeader*slotHeader
    carved := s.carved++[s.curSlot] }

theorem withCall_takeSlot (shape : PoolShape) (s : MemoryPool) (call : Allocation) :
    (s.withCall call).takeSlot shape s.calls.length =
      (s.passed shape).withCall (.taken s.curSlot) :=
  withCall_setCall (s.passed shape) call (.taken s.curSlot)

theorem allocateNewBlock_calls (s : MemoryPool) (shape : PoolShape) (newBlock : ℕ) :
    (s.allocateNewBlock shape newBlock).calls = s.calls := rfl

/-- The call that gets a slot from the cursor. -/
theorem run_passing (s : MemoryPool) (newBlock : Option ℕ) {s₁ : MemoryPool}
    (hlist : s.freeList = []) (hcalls : s₁.calls = s.calls)
    (hcarve : (s.withCall .listEmpty).carve shape s.calls.length newBlock =
      some ((s₁.withCall .listEmpty).takeSlot shape s.calls.length)) :
    ∃ es, Run (Step shape) s es ((s₁.passed shape).withCall (.held s₁.curSlot)) := by
  have hcarved := run_carving s hlist newBlock hcarve
  rw [← hcalls, withCall_takeSlot] at hcarved
  have hreturn := step_return shape (s₁.passed shape) s₁.curSlot
  exact ⟨_, hcarved.snoc hreturn⟩

end Calls

end MemoryPool

namespace SlotMemory

open MemoryPool (Sound)

variable {shape : PoolShape} {s s' : SlotMemory} {pool : MemoryPool} {call : SlotCall}

/-- The pool with its chains as lists, and no call of any thread under way. -/
structure Represents (s : SlotMemory) (pool : MemoryPool) : Prop where
  blocks : pool.blocks = s.blocks
  curSlot : pool.curSlot = s.curSlot
  lastSlot : pool.lastSlot = s.lastSlot
  freeList : Chain s.next s.freeList pool.freeList
  chained : Chain s.next s.firstBlock s.blocks
  allocated : ∀ x, s.allocated.count x = pool.calls.countP (fun call => call.slot = some x)
  returned : ∀ call ∈ pool.calls, ∀ slot, call.slot = some slot → call = .held slot
  words : ∀ a ∈ s.curSlot :: (pool.carved++s.blocks), slotHeader ∣ a

theorem Represents.empty : Represents {} {} :=
  ⟨rfl, rfl, rfl, .nil, .nil, fun _ => rfl, by simp, by simp⟩

/-- Who has the slots after a call that has got one. -/
theorem Represents.countP_withCall (h : Represents s pool) (slot x : ℕ) :
    (slot :: s.allocated).count x =
      (pool.withCall (.held slot)).calls.countP (fun call => call.slot = some x) := by
  have hcount := h.allocated x
  have hone : [Allocation.held slot].countP (fun call => call.slot = some x) =
      [slot].count x := by
    by_cases hx : slot = x
    · simp [hx, Allocation.slot]
    · simp [hx, Allocation.slot]
  rw [MemoryPool.withCall, List.countP_append, hone, List.count_cons, ← hcount,
    List.count_singleton]

theorem Represents.returned_withCall (h : Represents s pool) {call : Allocation}
    (hcall : ∀ slot, call.slot = some slot → call = .held slot) :
    ∀ c ∈ (pool.withCall call).calls, ∀ slot, c.slot = some slot → c = .held slot := by
  intro c hc
  rcases List.mem_append.mp hc with hold | hnew
  · exact h.returned c hold
  · obtain rfl := List.mem_singleton.mp hnew
    exact hcall

/-- A slot that a caller has is in its place in the pool. -/
theorem Represents.places_of_allocated (h : Represents s pool) {x : ℕ} (hx : x ∈ s.allocated) :
    0 < pool.places x := by
  have hpos : 0 < s.allocated.count x := List.count_pos_iff.mpr hx
  have hcount := h.allocated x
  simp only [MemoryPool.places]
  omega

theorem Represents.places_of_free {x : ℕ} (hx : x ∈ pool.freeList) : 0 < pool.places x := by
  have hpos : 0 < pool.freeList.count x := List.count_pos_iff.mpr hx
  simp only [MemoryPool.places]
  omega

/-- No slot that a caller has is a freed one. -/
theorem Represents.not_free (h : Represents s pool) (hsound : Sound shape pool) {x : ℕ}
    (hx : x ∈ s.allocated) : x ∉ pool.freeList := by
  intro hfree
  have hpos : 0 < s.allocated.count x := List.count_pos_iff.mpr hx
  have hfreed : 0 < pool.freeList.count x := List.count_pos_iff.mpr hfree
  have hcount := h.allocated x
  have hone := (hsound.mem_carved (h.places_of_allocated hx)).2
  simp only [MemoryPool.places] at hone
  omega

theorem Represents.takeSlot (h : Represents s pool) (hlist : s.freeList = 0) :
    Represents { (s.takeSlot shape).2 with allocated := s.curSlot :: s.allocated }
      ((pool.passed shape).withCall (.held pool.curSlot)) := by
  have hfree : pool.freeList = [] := h.freeList.eq_nil_iff.mpr hlist
  rw [h.curSlot]
  refine ⟨h.blocks, ?_, h.lastSlot, h.freeList, h.chained, h.countP_withCall s.curSlot, ?_, ?_⟩
  · simp only [MemoryPool.withCall, MemoryPool.passed, SlotMemory.takeSlot, h.curSlot]
  · exact h.returned_withCall (fun slot hslot => congrArg _ (Option.some.inj hslot))
  · have hcursor := h.words s.curSlot List.mem_cons_self
    intro a ha
    simp only [SlotMemory.takeSlot, MemoryPool.withCall, MemoryPool.passed, List.mem_cons,
      List.mem_append, List.not_mem_nil, or_false, h.curSlot] at ha
    rcases ha with rfl | (hold | rfl) | hblock
    · exact Nat.dvd_add hcursor (Nat.dvd_mul_left _ _)
    · exact h.words a (List.mem_cons_of_mem _ (List.mem_append_left _ hold))
    · exact hcursor
    · exact h.words a (List.mem_cons_of_mem _ (List.mem_append_right _ hblock))

/-- The address of a new block is in no chain. -/
theorem Fresh.notMem {newBlock : ℕ} (h : Fresh shape s newBlock) : newBlock ∉ s.blocks := by
  intro hmem
  obtain ⟨-, -, -, hdisjoint⟩ := h
  have hself := hdisjoint newBlock hmem
  have hroom := shape.room
  simp only [slotHeader] at hroom
  omega

theorem Represents.allocateNewBlock (h : Represents s pool) {newBlock : ℕ}
    (hfresh : Fresh shape s newBlock) :
    Represents (s.allocateNewBlock shape newBlock) (pool.allocateNewBlock shape newBlock) := by
  have hchained := h.chained.push (Nat.ne_of_gt hfresh.1) hfresh.notMem
  refine ⟨?_, rfl, rfl, .nil, hchained, h.allocated, h.returned, ?_⟩
  · simp only [MemoryPool.allocateNewBlock, SlotMemory.allocateNewBlock, h.blocks]
  · have hblock : slotHeader ∣ newBlock := (show 8 ∣ 16 by decide).trans hfresh.2.1
    have hbody : slotHeader ∣ newBlock+slotHeader := Nat.dvd_add hblock (Nat.dvd_refl _)
    intro a ha
    simp only [SlotMemory.allocateNewBlock, MemoryPool.allocateNewBlock, List.mem_cons,
      List.mem_append] at ha
    rcases ha with rfl | hold | rfl | hrest
    · exact Nat.dvd_add hbody (MemoryPool.dvd_padPointer shape.slotSize_base hbody)
    · exact h.words a (List.mem_cons_of_mem _ (List.mem_append_left _ hold))
    · exact hblock
    · exact h.words a (List.mem_cons_of_mem _ (List.mem_append_right _ hrest))

theorem Represents.fresh (h : Represents s pool) {newBlock : ℕ} (hfresh : Fresh shape s newBlock) :
    pool.Fresh shape newBlock := by
  obtain ⟨hpos, -, hend, hdisjoint⟩ := hfresh
  refine ⟨hpos, hend, ?_⟩
  rw [h.blocks]
  exact hdisjoint

theorem Represents.allocate (h : Represents s pool) {newBlock ptr : Option ℕ} {s₁ : SlotMemory}
    (hfresh : ∀ block ∈ newBlock, Fresh shape s block)
    (hs : s.allocate shape newBlock = (ptr, s₁)) :
    ∃ es pool', Run (MemoryPool.Step shape) pool es pool' ∧
      Represents { s₁ with allocated := ptr.toList++s₁.allocated } pool' := by
  by_cases hfree : s.freeList = 0
  · have hlist : pool.freeList = [] := h.freeList.eq_nil_iff.mpr hfree
    unfold SlotMemory.allocate at hs
    rw [if_neg (not_not_intro hfree)] at hs
    by_cases hroom : s.curSlot < s.lastSlot
    · rw [if_pos hroom] at hs
      obtain ⟨rfl, rfl⟩ := Prod.mk.inj hs
      have hpool : pool.curSlot < pool.lastSlot := by rwa [h.curSlot, h.lastSlot]
      obtain ⟨es, hr⟩ := MemoryPool.run_passing pool newBlock hlist rfl (if_pos hpool)
      exact ⟨es, _, hr, h.takeSlot hfree⟩
    · rw [if_neg hroom] at hs
      have hpool : ¬pool.curSlot < pool.lastSlot := by rwa [h.curSlot, h.lastSlot]
      cases newBlock with
      | none =>
        obtain ⟨rfl, rfl⟩ := Prod.mk.inj hs
        have hthrow : (pool.withCall .listEmpty).carve shape pool.calls.length none =
            some (pool.withCall .threw) :=
          (if_neg hpool).trans (congrArg some (MemoryPool.withCall_setCall pool _ .threw))
        refine ⟨_, _, MemoryPool.run_carving pool hlist none hthrow, h.blocks, h.curSlot,
          h.lastSlot, h.freeList, h.chained, ?_, ?_, h.words⟩
        · intro x
          have hcount := h.allocated x
          simpa [MemoryPool.withCall, Allocation.slot] using hcount
        · exact h.returned_withCall (fun slot hslot => by contradiction)
      | some newBlock =>
        obtain ⟨rfl, rfl⟩ := Prod.mk.inj hs
        have hnew := hfresh newBlock rfl
        obtain ⟨es, hr⟩ := MemoryPool.run_passing pool (some newBlock)
          hlist (pool.allocateNewBlock_calls shape newBlock)
          ((if_neg hpool).trans (if_pos (h.fresh hnew)))
        exact ⟨es, _, hr, (h.allocateNewBlock hnew).takeSlot rfl⟩
  · unfold SlotMemory.allocate at hs
    rw [if_pos hfree] at hs
    obtain ⟨rfl, rfl⟩ := Prod.mk.inj hs
    obtain ⟨rest, hlist, hrest⟩ := h.freeList.pop hfree
    refine ⟨_, _, MemoryPool.run_popping pool hlist, h.blocks, h.curSlot, h.lastSlot, hrest,
      h.chained, h.countP_withCall s.freeList, ?_, h.words⟩
    exact h.returned_withCall (fun slot hslot => congrArg _ (Option.some.inj hslot))

theorem Represents.deallocate (h : Represents s pool) (hsound : Sound shape pool) {ptr : ℕ}
    (hptr : ptr ∈ s.allocated) :
    ∃ es pool', Run (MemoryPool.Step shape) pool es pool' ∧
      Represents { s.deallocate ptr with allocated := s.allocated.erase ptr } pool' := by
  have hplace := h.places_of_allocated hptr
  obtain ⟨block, hblock, hheader, -⟩ := hsound.inside hplace
  have hne : ptr ≠ 0 := by
    simp only [slotHeader] at hheader
    omega
  have hcall : ∃ i : ℕ, pool.calls[i]? = some (.held ptr) := by
    have hpos : 0 < pool.calls.countP (fun call => call.slot = some ptr) := by
      have hcount := h.allocated ptr
      have hone : 0 < s.allocated.count ptr := List.count_pos_iff.mpr hptr
      omega
    obtain ⟨call, hmem, hslot⟩ := List.countP_pos_iff.mp hpos
    have hheld := h.returned call hmem ptr (of_decide_eq_true hslot)
    exact List.mem_iff_getElem?.mp (hheld ▸ hmem)
  obtain ⟨i, hi⟩ := hcall
  have hbound : i < pool.calls.length := (List.getElem?_eq_some_iff.mp hi).1
  have hcalled : MemoryPool.Step shape pool (.deallocate i) (pool.setCall i (.releasing ptr)) := by
    simp only [MemoryPool.Step, MemoryPool.next, hi]
  have hpush : MemoryPool.Step shape (pool.setCall i (.releasing ptr)) (.push i)
      ({ pool with freeList := ptr :: pool.freeList }.setCall i .released) := by
    have hreleasing : (pool.setCall i (.releasing ptr)).calls[i]? = some (.releasing ptr) :=
      List.getElem?_set_self hbound
    simp only [MemoryPool.Step, MemoryPool.next, hreleasing]
    simp only [MemoryPool.setCall, List.set_set]
  refine ⟨_, _, .cons hcalled (.cons hpush (.nil _)), ?_⟩
  rw [SlotMemory.deallocate, if_pos hne]
  -- The link goes into the slot, which is neither a freed one nor the header of a block.
  have hfree := h.freeList.push hne (h.not_free hsound hptr)
  have hnotBlock : ptr ∉ s.blocks := by
    intro hmem
    have hcarved := (hsound.mem_carved hplace).1
    have hbehind := hsound.headers.carved ptr hcarved ptr (h.blocks ▸ hmem) (Nat.le_refl _)
    simp only [slotHeader] at hbehind
    omega
  refine ⟨h.blocks, h.curSlot, h.lastSlot, hfree, h.chained.update hnotBlock _, ?_, ?_, h.words⟩
  · intro x
    have hcount := MemoryPool.countP_setCall hi .released x
    have hold := h.allocated x
    have herase : (s.allocated.erase ptr).count x+[ptr].count x = s.allocated.count x := by
      have hperm := (List.perm_cons_erase hptr).count_eq x
      rw [hperm, List.count_singleton, List.count_cons]
    have hgone : (Allocation.held ptr).slot.toList.count x = [ptr].count x := rfl
    have hnone : Allocation.released.slot.toList.count x = 0 := rfl
    simp only [MemoryPool.setCall]
    omega
  · intro call hmem slot hslot
    rcases List.mem_or_eq_of_mem_set hmem with hold | hnew
    · exact h.returned call hold slot hslot
    · subst hnew
      contradiction

/-- What the callers store is in their slots, and no chain goes through these. -/
theorem Represents.write (h : Represents s pool) (hsound : Sound shape pool) {next : ℕ → ℕ}
    (hnext : ∀ a, Untouched shape s a → next a = s.next a) :
    Represents { s with next := next } pool := by
  have hbase := Nat.le_of_dvd shape.slotSize_pos shape.slotSize_base
  have hroom := shape.room
  refine ⟨h.blocks, h.curSlot, h.lastSlot, ?_, ?_, h.allocated, h.returned, h.words⟩
  · apply h.freeList.congr
    intro a ha
    apply hnext
    intro p hp
    have hne : a ≠ p := by
      rintro rfl
      exact h.not_free hsound hp ha
    have hapart := hsound.apart (Represents.places_of_free ha) (h.places_of_allocated hp) hne
    omega
  · apply h.chained.congr
    intro a ha
    apply hnext
    intro p hp
    obtain ⟨block, hblock, hheader, hend⟩ := hsound.inside (h.places_of_allocated hp)
    by_cases heq : a = block
    · exact .inl (by omega)
    · have hapart := hsound.headers.blocks.forall (h.blocks ▸ ha) hblock heq
      omega

/-- A call, or a store of a caller, is a run of the pool with lists for its chains. -/
theorem Represents.step (h : Represents s pool) (hsound : Sound shape pool)
    (hs : Step shape s call s') :
    ∃ es pool', Run (MemoryPool.Step shape) pool es pool' ∧ Represents s' pool' := by
  cases hs with
  | allocate hfresh hs => exact h.allocate hfresh hs
  | deallocate hptr => exact h.deallocate hsound hptr
  | deallocateNull => exact ⟨[], pool, .nil pool, h⟩
  | write hnext => exact ⟨[], pool, .nil pool, h.write hsound hnext⟩

/-- What one thread has done is what the pool does in some run of its steps. -/
theorem represents_of_run {calls : List SlotCall} (hr : Run (Step shape) {} calls s) :
    ∃ pool, Represents s pool ∧ Sound shape pool := by
  apply hr.invariant
  · rintro s call s' ⟨pool, h, hsound⟩ hs
    obtain ⟨es, pool', hpool, h'⟩ := h.step hsound hs
    exact ⟨pool', h', hsound.run hpool⟩
  · exact ⟨{}, .empty, .empty⟩

theorem Represents.allocated_apart (h : Represents s pool) (hsound : Sound shape pool) :
    s.allocated.Pairwise (fun p q => p+shape.slotSize ≤ q ∨ q+shape.slotSize ≤ p) := by
  have hnodup : s.allocated.Nodup := by
    apply List.nodup_iff_count_le_one.mpr
    intro x
    by_cases hx : x ∈ s.allocated
    · have hone := (hsound.mem_carved (h.places_of_allocated hx)).2
      have hcount := h.allocated x
      simp only [MemoryPool.places] at hone
      omega
    · rw [List.count_eq_zero_of_not_mem hx]
      exact Nat.zero_le 1
  apply hnodup.imp_of_mem
  intro p q hp hq hne
  exact hsound.apart (h.places_of_allocated hp) (h.places_of_allocated hq) hne

/-- The slots that callers have share no memory, and each lies in one block after its header. -/
theorem allocated_slots_disjoint {index : Fin 64} {calls : List SlotCall} {s : SlotMemory}
    (hr : Run (Step (getMemoryPool index)) {} calls s) :
    s.allocated.Pairwise (fun p q =>
      p+(getMemoryPool index).slotSize ≤ q ∨ q+(getMemoryPool index).slotSize ≤ p) ∧
    ∀ p ∈ s.allocated, ∃ block ∈ s.blocks,
      block+slotHeader ≤ p ∧ p+(getMemoryPool index).slotSize ≤ block+4096 := by
  obtain ⟨pool, h, hsound⟩ := represents_of_run hr
  refine ⟨h.allocated_apart hsound, ?_⟩
  intro p hp
  obtain ⟨block, hblock, hin⟩ := hsound.inside (h.places_of_allocated hp)
  exact ⟨block, h.blocks ▸ hblock, hin⟩

/-- Slots of 24 bytes, one of which is given back and taken again while the other stays. -/
theorem allocated_slots_disjoint_reused : ∃ s, Run (Step (getMemoryPool 2)) {}
    [.allocate (some 4096), .allocate none, .deallocate 4120, .allocate none] s ∧
    s.allocated = [4120, 4144] ∧
    s.allocated.Pairwise (fun p q => p+24 ≤ q ∨ q+24 ≤ p) := by
  have hfresh : ∀ block ∈ some 4096, Fresh (getMemoryPool 2) {} block := by
    rintro block ⟨⟩
    exact ⟨by decide, by decide, by decide, by simp⟩
  have hnone : ∀ s : SlotMemory, ∀ block ∈ none, Fresh (getMemoryPool 2) s block := by
    simp
  have hrun : ∃ s, Run (Step (getMemoryPool 2)) {}
      [.allocate (some 4096), .allocate none, .deallocate 4120, .allocate none] s ∧
      s.allocated = [4120, 4144] :=
    ⟨_, .cons (.allocate hfresh rfl) (.cons (.allocate (hnone _) rfl)
      (.cons (.deallocate (by decide)) (.cons (.allocate (hnone _) rfl) (.nil _)))), by decide⟩
  obtain ⟨s, hr, hallocated⟩ := hrun
  exact ⟨s, hr, hallocated, (allocated_slots_disjoint hr).1⟩

/-- The pool that an object goes to has slots for it, and no smaller ones would do. -/
theorem poolIndex_fits {size : ℕ} (hpos : 0 < size) (hmost : size ≤ 512) :
    ∃ h : poolIndex size < 64, size ≤ (getMemoryPool ⟨poolIndex size, h⟩).slotSize ∧
      (getMemoryPool ⟨poolIndex size, h⟩).slotSize < size+slotHeader := by
  have hindex : poolIndex size < 64 := by
    simp only [poolIndex, slotHeader]
    omega
  refine ⟨hindex, ?_, ?_⟩
  · simp only [getMemoryPool, poolIndex, slotHeader]
    omega
  · simp only [getMemoryPool, poolIndex, slotHeader]
    omega

end SlotMemory

end JingjieAR
