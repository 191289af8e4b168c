import JingjieAR.MemoryPoolModel
import JingjieAR.PartySums
import Mathlib.Data.List.Nodup

/-! Where the slots of a pool are. A new block empties the list of freed slots, and what was
on it is never seen again; nothing else loses a slot, and no slot is in two places. -/
namespace JingjieAR.MemoryPool

open Runs (Run Guarded)

/-- What a step does to the slots; `gone` is what it drops from the free list. -/
inductive Effect (shape : PoolShape) (s : MemoryPool) : List ℕ → MemoryPool → Prop
  | called : Effect shape s [] { s with calls := s.calls++[.entered] }
  | stays {i : ℕ} {a b : Allocation} (h : s.calls[i]? = some a) (hslot : b.slot = a.slot) :
      Effect shape s [] (s.setCall i b)
  | popped {i temp : ℕ} {next : List ℕ} (h : s.calls[i]? = some .listSeen)
      (hlist : s.freeList = temp :: next) :
      Effect shape s [] ({ s with freeList := next }.setCall i (.taken temp))
  | pushed {i slot : ℕ} (h : s.calls[i]? = some (.releasing slot)) :
      Effect shape s [] ({ s with freeList := slot :: s.freeList }.setCall i .released)
  | carved {i : ℕ} (h : s.calls[i]? = some .listEmpty) (hroom : s.curSlot < s.lastSlot) :
      Effect shape s [] (s.takeSlot shape i)
  | carvedNew {i newBlock : ℕ} (h : s.calls[i]? = some .listEmpty)
      (hfresh : s.Fresh shape newBlock) :
      Effect shape s s.freeList ((s.allocateNewBlock shape newBlock).takeSlot shape i)

variable {shape : PoolShape} {s s' : MemoryPool} {gone : List ℕ} {e : PoolStep}

/-- A step has one of these effects; it drops something only where it should not be made. -/
theorem Step.effect (h : Step shape s e s') :
    ∃ gone, Effect shape s gone s' ∧ (gone = [] ↔ KeepsFreeList s e) := by
  cases e with
  | allocate =>
    obtain rfl := Option.some.inj h
    exact ⟨[], .called, by simp [KeepsFreeList]⟩
  | look i =>
    simp only [Step, next] at h
    split at h
    · rename_i hcall
      obtain rfl := Option.some.inj h
      refine ⟨[], .stays hcall ?_, by simp [KeepsFreeList]⟩
      split_ifs
      · rfl
      · rfl
    · contradiction
  | pop i =>
    simp only [Step, next] at h
    split at h
    · rename_i hcall
      obtain rfl := Option.some.inj h
      refine ⟨[], ?_, by simp [KeepsFreeList]⟩
      rw [pop]
      split
      · rename_i temp next hlist
        exact .popped hcall hlist
      · exact .stays hcall rfl
    · contradiction
  | carve i newBlock =>
    simp only [Step, next] at h
    split at h
    · rename_i hcall
      simp only [carve] at h
      split_ifs at h with hroom
      · obtain rfl := Option.some.inj h
        refine ⟨[], .carved hcall hroom, ?_⟩
        cases newBlock with
        | none => simp [KeepsFreeList]
        | some newBlock => simp [KeepsFreeList, hroom]
      · cases newBlock with
        | none =>
          obtain rfl := Option.some.inj h
          exact ⟨[], .stays hcall rfl, by simp [KeepsFreeList]⟩
        | some newBlock =>
          simp only at h
          split_ifs at h with hfresh
          obtain rfl := Option.some.inj h
          exact ⟨s.freeList, .carvedNew hcall hfresh, by simp [KeepsFreeList, hroom]⟩
    · contradiction
  | «return» i =>
    simp only [Step, next] at h
    split at h
    · rename_i slot hcall
      obtain rfl := Option.some.inj h
      exact ⟨[], .stays hcall rfl, by simp [KeepsFreeList]⟩
    · contradiction
  | deallocate i =>
    simp only [Step, next] at h
    split at h
    · rename_i slot hcall
      obtain rfl := Option.some.inj h
      exact ⟨[], .stays hcall rfl, by simp [KeepsFreeList]⟩
    · contradiction
  | push i =>
    simp only [Step, next] at h
    split at h
    · rename_i slot hcall
      obtain rfl := Option.some.inj h
      exact ⟨[], .pushed hcall, by simp [KeepsFreeList]⟩
    · contradiction

section Counting

variable {i : ℕ} {a b : Allocation}

/-- How many calls have the slot, after one of them has gone on. -/
theorem countP_setCall (h : s.calls[i]? = some a) (b : Allocation) (x : ℕ) :
    (s.calls.set i b).countP (fun call => call.slot = some x)+a.slot.toList.count x =
      s.calls.countP (fun call => call.slot = some x)+b.slot.toList.count x := by
  have hcount : ∀ call : Allocation,
      (decide (call.slot = some x)).toNat = call.slot.toList.count x := by
    intro call
    cases hslot : call.slot with
    | none => simp
    | some y => by_cases hxy : y = x <;> simp [hxy]
  have hset := PartySums.countP_set (fun call => decide (call.slot = some x)) h b
  rwa [hcount, hcount] at hset

/-- A call that has got a slot. -/
theorem countP_taken (h : s.calls[i]? = some a) (ha : a.slot = none) (slot x : ℕ) :
    (s.calls.set i (.taken slot)).countP (fun call => call.slot = some x) =
      s.calls.countP (fun call => call.slot = some x)+[slot].count x := by
  have hcount := countP_setCall h (.taken slot) x
  rw [ha] at hcount
  exact hcount

/-- What a step drops is all that is missing from the account of the slots. -/
theorem Effect.balance (h : Effect shape s gone s') (x : ℕ) :
    s'.places x+gone.count x+s.carved.count x = s.places x+s'.carved.count x := by
  cases h with
  | called => simp [places, Allocation.slot]
  | @stays i a b hcall hslot =>
    have hcount := countP_setCall hcall b x
    rw [hslot] at hcount
    simp only [places, setCall, List.count_nil]
    omega
  | @popped i temp next hcall hlist =>
    have hcount := countP_taken hcall rfl temp x
    have hfree : s.freeList.count x = next.count x+[temp].count x := by
      rw [hlist, List.count_cons, List.count_singleton]
    simp only [places, setCall, List.count_nil]
    omega
  | @pushed i slot hcall =>
    have hcount : (s.calls.set i .released).countP (fun call => call.slot = some x)+
        [slot].count x = s.calls.countP (fun call => call.slot = some x) :=
      countP_setCall hcall .released x
    have hfree : (slot :: s.freeList).count x = s.freeList.count x+[slot].count x := by
      rw [List.count_cons, List.count_singleton]
    simp only [places, setCall, List.count_nil]
    omega
  | @carved i hcall hroom =>
    have hcount := countP_taken hcall rfl s.curSlot x
    simp only [places, takeSlot, setCall, List.count_nil, List.count_append]
    omega
  | @carvedNew i newBlock hcall hfresh =>
    -- The list is empty now, and what was on it is `gone`.
    have hcount := countP_taken hcall rfl (s.allocateNewBlock shape newBlock).curSlot x
    simp only [places, takeSlot, setCall, allocateNewBlock, List.count_nil, List.count_append]
      at hcount ⊢
    omega

end Counting

/-- Where the slots lie: in blocks of their own, and behind the cursor. -/
structure Layout (shape : PoolShape) (s : MemoryPool) : Prop where
  inside : ∀ slot ∈ s.carved, ∃ block ∈ s.blocks,
    block ≤ slot ∧ slot+shape.slotSize ≤ block+shape.blockSize
  apart : s.carved.Pairwise (fun a b => a+shape.slotSize ≤ b ∨ b+shape.slotSize ≤ a)
  -- what is left of the current block, up to its end
  rest : s.curSlot < s.lastSlot → ∃ block ∈ s.blocks, block ≤ s.curSlot ∧
    s.lastSlot+shape.slotSize = block+shape.blockSize+1
  unused : ∀ slot ∈ s.carved, slot+shape.slotSize ≤ s.curSlot ∨
    s.lastSlot+shape.slotSize ≤ slot+1

theorem padPointer_lt {align : ℕ} (h : 0 < align) (p : ℕ) : padPointer p align < align :=
  Nat.mod_lt _ h

/-- The cursor moves by a whole slot. -/
theorem slotSize_step (shape : PoolShape) :
    shape.slotSize/slotHeader*slotHeader = shape.slotSize :=
  Nat.div_mul_cancel shape.slotSize_base

theorem Layout.takeSlot (h : Layout shape s) (hroom : s.curSlot < s.lastSlot) (i : ℕ) :
    Layout shape (s.takeSlot shape i) := by
  have hstep := slotSize_step shape
  have hpos := shape.slotSize_pos
  obtain ⟨block, hblock, hle, hend⟩ := h.rest hroom
  constructor
  · intro slot hslot
    rcases List.mem_append.mp hslot with hold | hnew
    · exact h.inside slot hold
    · obtain rfl := List.mem_singleton.mp hnew
      exact ⟨block, hblock, hle, by omega⟩
  · apply List.pairwise_append.mpr
    refine ⟨h.apart, List.pairwise_singleton _ _, ?_⟩
    intro slot hslot new hnew
    obtain rfl := List.mem_singleton.mp hnew
    rcases h.unused slot hslot with hbefore | hbehind
    · exact .inl hbefore
    · exact .inr (by omega)
  · intro hcur
    exact ⟨block, hblock, Nat.le_add_right_of_le hle, hend⟩
  · intro slot hslot
    simp only [MemoryPool.takeSlot, setCall, hstep]
    rcases List.mem_append.mp hslot with hold | hnew
    · exact (h.unused slot hold).imp_left (Nat.le_add_right_of_le ·)
    · obtain rfl := List.mem_singleton.mp hnew
      exact .inl (Nat.le_refl _)

/-- A new block is nobody's, and there is a slot in it. -/
theorem Layout.allocateNewBlock {newBlock : ℕ} (h : Layout shape s)
    (hfresh : s.Fresh shape newBlock) :
    Layout shape (s.allocateNewBlock shape newBlock) ∧
      (s.allocateNewBlock shape newBlock).curSlot <
        (s.allocateNewBlock shape newBlock).lastSlot := by
  obtain ⟨-, -, hdisjoint⟩ := hfresh
  have hpad := padPointer_lt shape.slotSize_pos (newBlock+slotHeader)
  have hroom := shape.room
  refine ⟨⟨?_, h.apart, ?_, ?_⟩, ?_⟩
  · intro slot hslot
    obtain ⟨block, hblock, hin⟩ := h.inside slot hslot
    exact ⟨block, List.mem_cons_of_mem _ hblock, hin⟩
  · intro _
    refine ⟨newBlock, List.mem_cons_self, ?_, ?_⟩
    · simp only [MemoryPool.allocateNewBlock]
      omega
    · simp only [MemoryPool.allocateNewBlock]
      omega
  · intro slot hslot
    obtain ⟨block, hblock, hle, hend⟩ := h.inside slot hslot
    simp only [MemoryPool.allocateNewBlock]
    rcases hdisjoint block hblock with hbefore | hbehind
    · exact .inl (by omega)
    · exact .inr (by omega)
  · simp only [MemoryPool.allocateNewBlock]
    omega

theorem Layout.step (h : Layout shape s) (he : Effect shape s gone s') : Layout shape s' := by
  cases he with
  | called => exact ⟨h.inside, h.apart, h.rest, h.unused⟩
  | stays hcall hslot => exact ⟨h.inside, h.apart, h.rest, h.unused⟩
  | popped hcall hlist => exact ⟨h.inside, h.apart, h.rest, h.unused⟩
  | pushed hcall => exact ⟨h.inside, h.apart, h.rest, h.unused⟩
  | carved hcall hroom => exact h.takeSlot hroom _
  | carvedNew hcall hfresh =>
    obtain ⟨hnew, hroom⟩ := h.allocateNewBlock hfresh
    exact hnew.takeSlot hroom _

theorem Layout.empty : Layout shape {} := by
  constructor
  · simp
  · exact .nil
  · simp
  · simp

theorem Layout.nodup (h : Layout shape s) : s.carved.Nodup := by
  apply h.apart.imp
  intro a b hab heq
  have hpos := shape.slotSize_pos
  omega

/-- With the account of what was dropped so far: nothing is missing if nothing was. -/
theorem conserved_iff {lost : List ℕ} (hlayout : Layout shape s)
    (hlost : ∀ x, s.places x+lost.count x = s.carved.count x) :
    s.Conserved shape ↔ lost = [] := by
  have hnodup := hlayout.nodup
  constructor
  · intro h
    apply List.eq_nil_iff_forall_not_mem.mpr
    intro x hx
    have hpos : 0 < lost.count x := List.count_pos_iff.mpr hx
    have hsum := hlost x
    by_cases hmem : x ∈ s.carved
    · have hone := h.carved x hmem
      have hcount := List.count_eq_one_of_mem hnodup hmem
      omega
    · have hzero := List.count_eq_zero_of_not_mem hmem
      omega
  · rintro rfl
    refine ⟨?_, ?_, hlayout.apart⟩
    · intro x hx
      have hsum := hlost x
      rwa [List.count_nil, List.count_eq_one_of_mem hnodup hx] at hsum
    · intro x hx
      have hsum := hlost x
      rwa [List.count_nil, List.count_eq_zero_of_not_mem hx] at hsum

/-- Over a run the losses add up, and there are none exactly where no step makes one. -/
theorem lost_of_run {es : List PoolStep} (hr : Run (Step shape) s es s') :
    ∀ lost : List ℕ, Layout shape s → (∀ x, s.places x+lost.count x = s.carved.count x) →
      ∃ more, Layout shape s' ∧ (∀ x, s'.places x+(lost++more).count x = s'.carved.count x) ∧
        (more = [] ↔ Run (Guarded KeepsFreeList (Step shape)) s es s') := by
  induction hr with
  | nil s =>
    intro lost hlayout hlost
    refine ⟨[], hlayout, ?_, iff_of_true rfl (.nil s)⟩
    intro x
    rw [List.append_nil]
    exact hlost x
  | @cons s s₁ s' e es h ht ih =>
    intro lost hlayout hlost
    obtain ⟨gone, heffect, hgone⟩ := h.effect
    have hlost₁ : ∀ x, s₁.places x+(lost++gone).count x = s₁.carved.count x := by
      intro x
      have hsum := hlost x
      have hbalance := heffect.balance x
      rw [List.count_append]
      omega
    obtain ⟨more, hlayout', hlost', hmore⟩ := ih (lost++gone) (hlayout.step heffect) hlost₁
    refine ⟨gone++more, hlayout', ?_, ?_⟩
    · intro x
      rw [← List.append_assoc]
      exact hlost' x
    · rw [List.append_eq_nil_iff, hgone, hmore]
      constructor
      · rintro ⟨hguard, hrest⟩
        exact .cons ⟨hguard, h⟩ hrest
      · intro hrun
        cases hrun with
        | @cons _ s₂ _ _ _ h₂ ht₂ =>
          -- A step has one outcome.
          have hsame : s₂ = s₁ := Option.some.inj (h₂.2.symm.trans h)
          exact ⟨h₂.1, hsame ▸ ht₂⟩

theorem conserved_iff_of_run {es : List PoolStep} (hr : Run (Step shape) {} es s) :
    s.Conserved shape ↔ Run (Guarded KeepsFreeList (Step shape)) {} es s := by
  obtain ⟨more, hlayout, hlost, hmore⟩ := lost_of_run hr [] .empty (fun x => rfl)
  rw [← hmore]
  exact conserved_iff hlayout hlost

/-- In any run every slot that was ever carved is in exactly one place, exactly where no
block was taken while there were freed slots. -/
theorem slots_conserved_iff {shape : PoolShape} {es : List PoolStep} {s : MemoryPool}
    (hr : Run (Step shape) {} es s) :
    s.Conserved shape ↔ Run (Guarded KeepsFreeList (Step shape)) {} es s :=
  conserved_iff_of_run hr

/-- One call sees the list empty, then the block is used up and a slot comes back. -/
def droppingSteps : List PoolStep :=
  [.allocate, .look 0]++
  ([1, 2, 3, 4, 5, 6, 7].flatMap fun i => [.allocate, .look i, .carve i (some 4096), .return i])++
  [.deallocate 1, .push 1, .carve 0 (some 8192)]

/-- Slots of 512 bytes: the new block drops the one that came back. -/
theorem droppingSteps_run : ∃ s, Run (Step (getMemoryPool 63)) {} droppingSteps s ∧
    4608 ∈ s.carved ∧ s.places 4608 = 0 := by
  have hreplay : (Runs.replay (fun _ _ => True) (next (getMemoryPool 63)) {} droppingSteps).map
      (fun s => (decide (4608 ∈ s.carved), s.places 4608)) = some (true, 0) := by decide
  obtain ⟨s, hs, hdropped⟩ := Option.map_eq_some_iff.mp hreplay
  obtain ⟨hcarved, hplaces⟩ := Prod.mk.inj hdropped
  exact ⟨s, (Runs.run_of_replay hs).unguarded, of_decide_eq_true hcarved, hplaces⟩

theorem slots_not_conserved : ∃ s, Run (Step (getMemoryPool 63)) {} droppingSteps s ∧
    ¬ s.Conserved (getMemoryPool 63) := by
  obtain ⟨s, hr, hcarved, hplaces⟩ := droppingSteps_run
  refine ⟨s, hr, ?_⟩
  intro h
  have hone := h.carved 4608 hcarved
  omega

/-- A slot that is carved, given back and taken again. -/
theorem slots_conserved_reused : ∃ s, Run (Step (getMemoryPool 0)) {}
    [.allocate, .look 0, .carve 0 (some 4096), .return 0, .deallocate 0, .push 0,
     .allocate, .look 1, .pop 1] s ∧ s.Conserved (getMemoryPool 0) := by
  have hrun : ∃ s, Run (Guarded KeepsFreeList (Step (getMemoryPool 0))) {}
      [.allocate, .look 0, .carve 0 (some 4096), .return 0, .deallocate 0, .push 0,
       .allocate, .look 1, .pop 1] s :=
    ⟨_, .cons ⟨trivial, rfl⟩ (.cons ⟨trivial, rfl⟩ (.cons ⟨.inr rfl, rfl⟩
      (.cons ⟨trivial, rfl⟩ (.cons ⟨trivial, rfl⟩ (.cons ⟨trivial, rfl⟩ (.cons ⟨trivial, rfl⟩
      (.cons ⟨trivial, rfl⟩ (.cons ⟨trivial, rfl⟩ (.nil _)))))))))⟩
  obtain ⟨s, hr⟩ := hrun
  exact ⟨s, hr.unguarded, (slots_conserved_iff hr.unguarded).mpr hr⟩

end JingjieAR.MemoryPool
