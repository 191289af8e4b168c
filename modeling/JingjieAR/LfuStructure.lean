import JingjieAR.LfuLists
import Mathlib.Algebra.Order.BigOperators.Group.List
import Mathlib.Algebra.Order.Ring.Nat
import Mathlib.Tactic.Linarith

/-! The invariant of the LFU cache. The frequencies never sum up to more than
`curTotalNum_`, so an access that does not age the nodes leaves one at or below the limit;
one that does takes at least one off. Either way the lowest frequency stays far below the
bound up to which `updateMinFreq` looks. -/
namespace JingjieAR.KLfuCache

variable {κ ν : Type} [DecidableEq κ] {c c' : KLfuCache κ ν} {node n : LfuNode κ ν} {f : ℕ}
  {key : κ} {value : ν} {visit : Iteration (LfuNode κ ν)}

def totalFreq (c : KLfuCache κ ν) : ℕ := (c.nodeMap.map LfuNode.freq).sum

/-- What the cache stores, without the frequencies. -/
def entries (c : KLfuCache κ ν) : List (κ × ν) := c.nodeMap.map (fun n => (n.key, n.value))

structure Sound (c : KLfuCache κ ν) : Prop where
  linked : c.Linked
  positive : ∀ n ∈ c.nodeMap, 1 ≤ n.freq
  size : c.nodeMap.length ≤ c.capacity
  least : c.nodeMap ≠ [] → c.IsMinFreq c.minFreq
  -- also when the cache has been purged
  minFreq_pos : 1 ≤ c.minFreq
  low : c.nodeMap ≠ [] → c.minFreq ≤ c.maxAverageNum+1
  counted : (c.totalFreq : ℤ) ≤ c.curTotalNum
  two_le : 2 ≤ c.maxAverageNum
  le_125 : c.maxAverageNum ≤ 125
  capacity_pos : 1 ≤ c.capacity

omit [DecidableEq κ] in
theorem sound_new {capacity maxAverageNum : ℕ} (hcapacity : 1 ≤ capacity)
    (hle : 2 ≤ maxAverageNum) (hge : maxAverageNum ≤ 125) :
    Sound ({ capacity := capacity, maxAverageNum := maxAverageNum } : KLfuCache κ ν) := by
  refine ⟨linked_of_empty rfl rfl, by simp, Nat.zero_le _, ?_, (by decide : 1 ≤ 127), ?_, le_refl 0,
    hle, hge, hcapacity⟩
  · intro h
    exact absurd rfl h
  · intro h
    exact absurd rfl h

section Sums

omit [DecidableEq κ] in
/-- A node at or below the average. -/
theorem exists_le_of_sum_lt {m : ℕ} (h : c.totalFreq < m*c.nodeMap.length) :
    ∃ n ∈ c.nodeMap, n.freq < m := by
  by_contra hall
  have hbound : (c.nodeMap.map LfuNode.freq).length • m ≤ c.totalFreq := by
    refine List.card_nsmul_le_sum _ m ?_
    intro x hx
    obtain ⟨n, hn, rfl⟩ := List.mem_map.mp hx
    exact not_lt.mp (fun hlt => hall ⟨n, hn, hlt⟩)
  rw [List.length_map, nsmul_eq_mul, Nat.cast_id, Nat.mul_comm] at hbound
  omega

omit [DecidableEq κ] in
theorem agedFreq_pos : 1 ≤ c.agedFreq n := by
  simp only [agedFreq]
  split_ifs with hlt
  · exact le_refl 1
  · exact not_lt.mp hlt

omit [DecidableEq κ] in
theorem agedFreq_le (h : 1 ≤ n.freq) : c.agedFreq n ≤ n.freq := by
  simp only [agedFreq]
  split_ifs
  · exact h
  · exact Nat.sub_le _ _

omit [DecidableEq κ] in
theorem totalFreq_aged (h : ∀ n ∈ c.nodeMap, 1 ≤ n.freq) :
    ((c.nodeMap.map c.aged).map LfuNode.freq).sum ≤ c.totalFreq := by
  rw [List.map_map]
  exact List.sum_le_sum (fun n hn => agedFreq_le (h n hn))

/-- A sum over the nodes, without one of them. -/
theorem sum_filter_key {nodes : List (LfuNode κ ν)} (hnodup : (nodes.map LfuNode.key).Nodup)
    (hn : node ∈ nodes) (g : LfuNode κ ν → ℕ) :
    ((nodes.filter (fun n => n.key ≠ node.key)).map g).sum+g node = (nodes.map g).sum := by
  induction nodes with
  | nil => simp at hn
  | cons n nodes ih =>
    obtain ⟨hnot, htail⟩ := List.nodup_cons.mp hnodup
    rcases List.mem_cons.mp hn with rfl | hn
    · have hrest : nodes.filter (fun n => n.key ≠ node.key) = nodes := by
        refine List.filter_eq_self.mpr ?_
        intro n hn
        simpa using fun heq => hnot (List.mem_map.mpr ⟨n, hn, heq⟩)
      rw [List.filter_cons_of_neg (by simp), hrest, List.map_cons, List.sum_cons, Nat.add_comm]
    · have hne : n.key ≠ node.key := fun heq => hnot (List.mem_map.mpr ⟨node, hn, heq.symm⟩)
      have hstep := ih htail hn
      rw [List.filter_cons_of_pos (by simpa using hne), List.map_cons, List.sum_cons,
        List.map_cons, List.sum_cons]
      omega

end Sums

section Accesses

/-- Before `addFreqNum`: the frequencies may be one ahead of the counter. -/
structure Ready (c : KLfuCache κ ν) : Prop where
  linked : c.Linked
  positive : ∀ n ∈ c.nodeMap, 1 ≤ n.freq
  size : c.nodeMap.length ≤ c.capacity
  low : ∃ n ∈ c.nodeMap, n.freq ≤ c.maxAverageNum+2
  counted : (c.totalFreq : ℤ) ≤ c.curTotalNum+1
  two_le : 2 ≤ c.maxAverageNum
  le_125 : c.maxAverageNum ≤ 125

/-- What `addFreqNum` leaves, with `minFreq_` as it was or recomputed. -/
structure Counted (c c' : KLfuCache κ ν) : Prop where
  linked : c'.Linked
  positive : ∀ n ∈ c'.nodeMap, 1 ≤ n.freq
  entries : c'.entries = c.entries
  capacity : c'.capacity = c.capacity
  maxAverageNum : c'.maxAverageNum = c.maxAverageNum
  low : ∃ n ∈ c'.nodeMap, n.freq ≤ c.maxAverageNum+1
  ones : (∃ n ∈ c.nodeMap, n.freq = 1) → ∃ n ∈ c'.nodeMap, n.freq = 1
  counted : (c'.totalFreq : ℤ) ≤ c'.curTotalNum
  minFreq : (c'.minFreq = c.minFreq ∧ c'.nodeMap = c.nodeMap) ∨ c'.IsMinFreq c'.minFreq

theorem Ready.addFreqNum (h : c.Ready) (visit : Iteration (LfuNode κ ν)) :
    ∃ c', c.addFreqNum visit = some c' ∧ c.Counted c' := by
  obtain ⟨n, hn, hlow⟩ := h.low
  have hne : c.nodeMap ≠ [] := List.ne_nil_of_mem hn
  have hlength : 0 < c.nodeMap.length := List.length_pos_of_ne_nil hne
  obtain ⟨c', hc', ⟨haverage, rfl⟩ | ⟨-, haged⟩⟩ := h.linked.addFreqNum_cases hne visit
  · -- The average is at most the limit, and so is some node.
    have hsum : c.totalFreq < (c.maxAverageNum+1)*c.nodeMap.length := by
      have hcounted := h.counted
      have hdiv := (Int.ediv_le_iff_le_mul (Int.natCast_pos.mpr hlength)).mp haverage
      have hcast : (c.totalFreq : ℤ) < ((c.maxAverageNum+1)*c.nodeMap.length : ℕ) := by
        push_cast
        linarith
      exact_mod_cast hcast
    obtain ⟨n', hn', hlt⟩ := exists_le_of_sum_lt hsum
    exact ⟨_, hc', h.linked.of_same rfl rfl, h.positive, rfl, rfl, rfl, ⟨n', hn', hlt.le⟩, id,
      h.counted, .inl ⟨rfl, rfl⟩⟩
  · -- One that was two above the limit is at most one above it.
    have hdown : (c.aged n).freq ≤ c.maxAverageNum+1 := by
      have htwo := h.two_le
      simp only [aged, agedFreq]
      split_ifs
      · omega
      · omega
    have hmem : c.aged n ∈ c'.nodeMap := by
      rw [haged.nodeMap]
      exact List.mem_map_of_mem hn
    have hbound := h.le_125
    refine ⟨c', hc', haged.linked, ?_, ?_, haged.capacity, haged.maxAverageNum,
      ⟨c.aged n, hmem, hdown⟩, ?_, ?_, .inr (haged.least (c.aged n) hmem ?_)⟩
    · intro n' hn'
      rw [haged.nodeMap] at hn'
      obtain ⟨n₀, -, rfl⟩ := List.mem_map.mp hn'
      exact agedFreq_pos
    · rw [KLfuCache.entries, haged.nodeMap, List.map_map]
      rfl
    -- a node used once stays one, since aging stops at 1
    · intro hone
      obtain ⟨n₁, hn₁, hfreq⟩ := hone
      refine ⟨c.aged n₁, ?_, ?_⟩
      · rw [haged.nodeMap]
        exact List.mem_map_of_mem hn₁
      · exact le_antisymm ((agedFreq_le hfreq.ge).trans hfreq.le) agedFreq_pos
    · have hsum := totalFreq_aged h.positive
      have hcounted := h.counted
      rw [totalFreq, haged.nodeMap, haged.curTotalNum]
      omega
    · simp only [INT8_MAX]
      omega

end Accesses

section Get

theorem entries_replaceNode {nodes : List (LfuNode κ ν)} (hnodup : (nodes.map LfuNode.key).Nodup)
    (hn : node ∈ nodes) (freq : ℕ) :
    (replaceNode nodes { node with freq := freq }).map (fun n => (n.key, n.value)) =
      nodes.map (fun n => (n.key, n.value)) := by
  rw [replaceNode, List.map_map]
  apply List.map_congr_left
  intro n hn'
  by_cases hkey : n.key = node.key
  · obtain rfl := node_eq_of_key hnodup hn' hn hkey
    simp
  · simp [hkey]

theorem totalFreq_moved (h : c.Linked) (hn : node ∈ c.nodeMap) (freq : ℕ) :
    (c.moved node freq).totalFreq+node.freq = c.totalFreq+freq :=
  sum_replaceNode h.nodup hn rfl

theorem length_moved (c : KLfuCache κ ν) (node : LfuNode κ ν) (freq : ℕ) :
    (c.moved node freq).nodeMap.length = c.nodeMap.length := by
  rw [nodeMap_moved, replaceNode, List.length_map]

theorem mem_moved (hn : node ∈ c.nodeMap) {freq : ℕ} :
    n ∈ (c.moved node freq).nodeMap ↔
      n = { node with freq := freq } ∨ (n ∈ c.nodeMap ∧ n.key ≠ node.key) := by
  rw [nodeMap_moved]
  exact mem_replaceNode (List.mem_map.mpr ⟨node, hn, rfl⟩)

/-- When the node of the lowest frequency goes up, the lowest frequency follows it if it was
the last one there. -/
theorem Linked.raiseMinFreq (h : c.Linked) (hn : node ∈ c.nodeMap) (hmin : c.IsMinFreq c.minFreq) :
    ∃ m, (c.moved node (node.freq+1)).raiseMinFreq node.freq =
        some { c.moved node (node.freq+1) with minFreq := m } ∧
      (c.moved node (node.freq+1)).IsMinFreq m ∧ m ≤ c.minFreq+1 := by
  have hmoved : { node with freq := node.freq+1 } ∈ (c.moved node (node.freq+1)).nodeMap :=
    (mem_moved hn).mpr (.inl rfl)
  have hge : ∀ n ∈ c.nodeMap, c.minFreq ≤ n.freq := fun n hn => hmin.2 ⟨n, hn, rfl⟩
  have hge' : ∀ n ∈ (c.moved node (node.freq+1)).nodeMap, c.minFreq ≤ n.freq := by
    intro n hn'
    rcases (mem_moved hn).mp hn' with rfl | ⟨hmem, -⟩
    · exact (hge node hn).trans (Nat.le_succ _)
    · exact hge n hmem
  -- Another node of the lowest frequency keeps it where it is.
  have hkeep : (∃ n ∈ (c.moved node (node.freq+1)).nodeMap, n.freq = c.minFreq) →
      (c.moved node (node.freq+1)).IsMinFreq c.minFreq := by
    intro hsome
    refine ⟨hsome, ?_⟩
    intro f hf
    obtain ⟨n, hn', rfl⟩ := hf
    exact hge' n hn'
  by_cases hfreq : node.freq = c.minFreq
  · have hlists := listAt_moved c node (node.freq+1) node.freq
    rw [if_neg (Nat.ne_of_lt (Nat.lt_succ_self _)), List.append_nil] at hlists
    have hfind : (c.moved node (node.freq+1)).freqToFreqList.find node.freq =
        some ((c.listAt node.freq).erase node.key) := by
      rw [KLfuCache.moved, addToFreqList, OrderedMap.find_insert_of_ne _ (Nat.succ_ne_self _)]
      show (c.freqToFreqList.mapValues _).find node.freq = _
      rw [OrderedMap.find_mapValues, find_of_mem_listAt (h.mem_own hn)]
      rfl
    have hlinked := h.moved hn (node.freq+1)
    -- was it the last one of its list?
    by_cases hempty : (c.listAt node.freq).erase node.key = []
    · refine ⟨c.minFreq+1, ?_, ?_, le_refl _⟩
      · have hm : (c.moved node (node.freq+1)).minFreq = c.minFreq := rfl
        rw [KLfuCache.raiseMinFreq, hm, if_pos hfreq, hfind, hempty]
        rfl
      · refine ⟨⟨_, hmoved, by rw [hfreq]⟩, ?_⟩
        intro f hf
        obtain ⟨n, hn', rfl⟩ := hf
        refine Nat.lt_of_le_of_ne (hge' n hn') ?_
        intro heq
        have hmem := hlinked.mem_own hn'
        rw [← heq, ← hfreq, hlists, hempty] at hmem
        simp at hmem
    · refine ⟨c.minFreq, ?_, hkeep ?_, Nat.le_succ _⟩
      · have hm : (c.moved node (node.freq+1)).minFreq = c.minFreq := rfl
        rw [KLfuCache.raiseMinFreq, hm, if_pos hfreq, hfind, Option.map_some,
          if_neg (by simpa using hempty)]
        rfl
      · obtain ⟨k, hk⟩ := List.exists_mem_of_ne_nil _ hempty
        rw [← hlists] at hk
        obtain ⟨n, hn', -, hf⟩ := (hlinked.mem_listAt node.freq k).mp hk
        exact ⟨n, hn', hf.trans hfreq⟩
  · refine ⟨c.minFreq, if_neg hfreq, hkeep ?_, Nat.le_succ _⟩
    obtain ⟨n, hn', hf⟩ := hmin.1
    refine ⟨n, (mem_moved hn).mpr (.inr ⟨hn', ?_⟩), hf⟩
    intro hkey
    exact hfreq (node_eq_of_key h.nodup hn' hn hkey ▸ hf)

omit [DecidableEq κ] in
/-- The invariant comes back with the smallest frequency. -/
theorem Counted.sound (h : c.Counted c') (hready : c.Ready) (hcapacity : 1 ≤ c.capacity)
    (hmin : c'.IsMinFreq c'.minFreq) : c'.Sound := by
  have hlength : c'.nodeMap.length = c.nodeMap.length := by
    simpa [KLfuCache.entries] using congrArg List.length h.entries
  have hsize : c'.nodeMap.length ≤ c'.capacity := by
    rw [hlength, h.capacity]
    exact hready.size
  have hpos : 1 ≤ c'.minFreq := by
    obtain ⟨n, hn, hf⟩ := hmin.1
    exact hf ▸ h.positive n hn
  have hlow : c'.minFreq ≤ c'.maxAverageNum+1 := by
    obtain ⟨n, hn, hle⟩ := h.low
    rw [h.maxAverageNum]
    exact (hmin.2 ⟨n, hn, rfl⟩).trans hle
  exact ⟨h.linked, h.positive, hsize, fun _ => hmin, hpos, fun _ => hlow, h.counted,
    h.maxAverageNum ▸ hready.two_le, h.maxAverageNum ▸ hready.le_125, h.capacity ▸ hcapacity⟩

/-- Nothing that is stored has changed. -/
structure Kept (c c' : KLfuCache κ ν) : Prop where
  entries : c'.entries = c.entries
  capacity : c'.capacity = c.capacity
  maxAverageNum : c'.maxAverageNum = c.maxAverageNum

theorem Sound.getInternal (h : c.Sound) (hn : node ∈ c.nodeMap)
    (visit : Iteration (LfuNode κ ν)) :
    ∃ c', c.getInternal node visit = some (node.value, c') ∧ c'.Sound ∧ c.Kept c' := by
  have hne : c.nodeMap ≠ [] := List.ne_nil_of_mem hn
  obtain ⟨m, hraise, hmin, hm⟩ := h.linked.raiseMinFreq hn (h.least hne)
  have hlinked := h.linked.moved hn (node.freq+1)
  have hsum := totalFreq_moved h.linked hn (node.freq+1)
  have hready : Ready { c.moved node (node.freq+1) with minFreq := m } := by
    refine ⟨hlinked.of_same rfl rfl, ?_, ?_, ?_, ?_, h.two_le, h.le_125⟩
    · intro n hn'
      rcases (mem_moved hn).mp hn' with rfl | ⟨hmem, -⟩
      · exact Nat.succ_pos _
      · exact h.positive n hmem
    · exact length_moved c node (node.freq+1) ▸ h.size
    · obtain ⟨n, hn', hf⟩ := hmin.1
      refine ⟨n, hn', ?_⟩
      have hlow := h.low hne
      show n.freq ≤ c.maxAverageNum+2
      omega
    · have hcounted := h.counted
      show ((c.moved node (node.freq+1)).totalFreq : ℤ) ≤ c.curTotalNum+1
      omega
  obtain ⟨c', hadd, hcounted⟩ := hready.addFreqNum visit
  refine ⟨c', ?_, ?_, ⟨?_, hcounted.capacity, hcounted.maxAverageNum⟩⟩
  · rw [KLfuCache.getInternal, h.linked.moveNode_eq hn, Option.bind_eq_bind, Option.bind_some,
      hraise]
    exact congrArg (Option.bind · (fun c => some (node.value, c))) hadd
  · refine hcounted.sound hready h.capacity_pos ?_
    -- either nothing was aged, or aging has looked for the smallest anew
    rcases hcounted.minFreq with ⟨hsame, hnodes⟩ | hleast
    · rw [hsame, IsMinFreq, hnodes]
      exact hmin
    · exact hleast
  · exact hcounted.entries.trans (entries_replaceNode h.linked.nodup hn (node.freq+1))

end Get

section Put

/-- The cache without this node. -/
def kicked (c : KLfuCache κ ν) (node : LfuNode κ ν) : KLfuCache κ ν :=
  decreaseFreqNum { c with
    nodeMap := c.nodeMap.filter (fun n => n.key ≠ node.key)
    freqToFreqList := c.freqToFreqList.mapValues (fun list => list.erase node.key) } node.freq

theorem Linked.kicked (h : c.Linked) (node : LfuNode κ ν) : (c.kicked node).Linked := by
  have herase (f : ℕ) : (c.kicked node).listAt f = (c.listAt f).erase node.key :=
    listAt_erase c node.key f
  refine ⟨?_, ?_, ?_⟩
  · exact h.nodup.sublist (List.filter_sublist.map _)
  · intro f
    rw [herase]
    exact (h.listNodup f).erase node.key
  · intro f k
    rw [herase, (h.listNodup f).mem_erase_iff, h.mem_listAt]
    constructor
    · intro hk
      obtain ⟨hne, n, hn, rfl, rfl⟩ := hk
      exact ⟨n, List.mem_filter.mpr ⟨hn, by simpa using hne⟩, rfl, rfl⟩
    · intro hk
      obtain ⟨n, hn, rfl, rfl⟩ := hk
      obtain ⟨hn, hne⟩ := List.mem_filter.mp hn
      exact ⟨by simpa using hne, n, hn, rfl, rfl⟩

theorem length_kicked (h : c.Linked) (hn : node ∈ c.nodeMap) :
    (c.kicked node).nodeMap.length+1 = c.nodeMap.length := by
  show (c.nodeMap.filter (fun n => n.key ≠ node.key)).length+1 = _
  simpa using sum_filter_key h.nodup hn (fun _ => 1)

theorem totalFreq_kicked (h : c.Linked) (hn : node ∈ c.nodeMap) :
    (c.kicked node).totalFreq+node.freq = c.totalFreq :=
  sum_filter_key h.nodup hn LfuNode.freq

/-- `kickOut` takes the first node out of the list of the lowest frequency, which is not
empty; no other node is below it. -/
theorem Sound.kickOut (h : c.Sound) (hne : c.nodeMap ≠ []) :
    ∃ node ∈ c.nodeMap, c.kickOut = some (c.kicked node) ∧ ∀ n ∈ c.nodeMap, node.freq ≤ n.freq := by
  have hmin := h.least hne
  obtain ⟨n, hn, hf⟩ := hmin.1
  have hmem := hf ▸ h.linked.mem_own hn
  have hfind := find_of_mem_listAt hmem
  obtain ⟨key, rest, hlist⟩ := List.exists_cons_of_ne_nil (List.ne_nil_of_mem hmem)
  -- the key at its head is that of a node, so it is not the sentinel
  obtain ⟨node, hnode, rfl, hfreq⟩ :=
    (h.linked.mem_listAt c.minFreq key).mp (hlist ▸ List.mem_cons_self)
  refine ⟨node, hnode, ?_, ?_⟩
  · have hown : c.freqToFreqList.find node.freq = some (c.listAt c.minFreq) := hfreq ▸ hfind
    rw [KLfuCache.kickOut, hfind, hlist]
    simp only [h.linked.find_of_mem hnode, removeFromFreqList, hown, Option.bind_eq_bind,
      Option.bind_some]
    rfl
  · intro n hn
    rw [hfreq]
    exact hmin.2 ⟨n, hn, rfl⟩

/-- A cache with room for one node more. -/
structure Room (c : KLfuCache κ ν) : Prop where
  linked : c.Linked
  positive : ∀ n ∈ c.nodeMap, 1 ≤ n.freq
  size : c.nodeMap.length < c.capacity
  minFreq_pos : 1 ≤ c.minFreq
  counted : (c.totalFreq : ℤ) ≤ c.curTotalNum
  two_le : 2 ≤ c.maxAverageNum
  le_125 : c.maxAverageNum ≤ 125

theorem Sound.room_kicked (h : c.Sound) (hn : node ∈ c.nodeMap) : (c.kicked node).Room := by
  have hlength := length_kicked h.linked hn
  have hsum := totalFreq_kicked h.linked hn
  have hsize := h.size
  have hcounted := h.counted
  refine ⟨h.linked.kicked node, ?_, ?_, h.minFreq_pos, ?_, h.two_le, h.le_125⟩
  · intro n hn'
    exact h.positive n (List.mem_filter.mp hn').1
  · show (c.kicked node).nodeMap.length < c.capacity
    omega
  · show ((c.kicked node).totalFreq : ℤ) ≤ c.curTotalNum-node.freq
    omega

omit [DecidableEq κ] in
theorem Linked.insertNode (h : c.Linked) (hkey : node.key ∉ c.nodeMap.map LfuNode.key) :
    ({ c with nodeMap := c.nodeMap++[node] }.addToFreqList node).Linked := by
  have hlist (f : ℕ) : ({ c with nodeMap := c.nodeMap++[node] }.addToFreqList node).listAt f =
      c.listAt f++(if f = node.freq then [node.key] else []) :=
    listAt_addToFreqList (c := { c with nodeMap := c.nodeMap++[node] }) f
  have hnew : ∀ f, node.key ∉ c.listAt f := by
    intro f hmem
    obtain ⟨n, hn, hk, -⟩ := (h.mem_listAt f node.key).mp hmem
    exact hkey (List.mem_map.mpr ⟨n, hn, hk⟩)
  refine ⟨?_, ?_, ?_⟩
  · show ((c.nodeMap++[node]).map LfuNode.key).Nodup
    rw [List.map_append, List.nodup_append]
    refine ⟨h.nodup, List.nodup_singleton _, ?_⟩
    intro k hk k' hk' heq
    obtain rfl := List.mem_singleton.mp hk'
    exact hkey (heq ▸ hk)
  · intro f
    rw [hlist]
    split_ifs
    · refine List.nodup_append.mpr ⟨h.listNodup f, List.nodup_singleton _, ?_⟩
      intro k hk k' hk' heq
      obtain rfl := List.mem_singleton.mp hk'
      exact hnew f (heq ▸ hk)
    · rw [List.append_nil]
      exact h.listNodup f
  · intro f k
    show _ ↔ ∃ n ∈ c.nodeMap++[node], n.key = k ∧ n.freq = f
    rw [hlist, List.mem_append, h.mem_listAt]
    constructor
    · intro hk
      rcases hk with ⟨n, hn, hk⟩ | hk
      · exact ⟨n, List.mem_append_left _ hn, hk⟩
      · split_ifs at hk with hf
        · obtain rfl := List.mem_singleton.mp hk
          exact ⟨node, List.mem_append_right _ (List.mem_singleton_self _), rfl, hf.symm⟩
        · simp at hk
    · intro hk
      obtain ⟨n, hn, rfl, rfl⟩ := hk
      rcases List.mem_append.mp hn with hn | hn
      · exact .inl ⟨n, hn, rfl, rfl⟩
      · obtain rfl := List.mem_singleton.mp hn
        exact .inr (by simp)

/-- A new node is the lowest, whatever `minFreq_` was. -/
theorem Room.insertNode (h : c.Room) (node : LfuNode κ ν) (hone : node.freq = 1)
    (hkey : node.key ∉ c.nodeMap.map LfuNode.key) (visit : Iteration (LfuNode κ ν)) :
    ∃ c', ({ c with nodeMap := c.nodeMap++[node] }.addToFreqList node).addFreqNum visit = some c' ∧
      Sound { c' with minFreq := min c'.minFreq 1 } ∧
      c'.entries = c.entries++[(node.key, node.value)] ∧
      c'.capacity = c.capacity ∧ c'.maxAverageNum = c.maxAverageNum := by
  have hnode : node ∈ c.nodeMap++[node] := List.mem_append_right _ (List.mem_singleton_self _)
  have hready : Ready ({ c with nodeMap := c.nodeMap++[node] }.addToFreqList node) := by
    refine ⟨h.linked.insertNode hkey, ?_, ?_, ?_, ?_, h.two_le, h.le_125⟩
    · intro n hn
      rcases List.mem_append.mp hn with hn | hn
      · exact h.positive n hn
      · obtain rfl := List.mem_singleton.mp hn
        exact hone.ge
    · show (c.nodeMap++[_]).length ≤ c.capacity
      rw [List.length_append]
      exact h.size
    · refine ⟨node, hnode, ?_⟩
      show node.freq ≤ c.maxAverageNum+2
      omega
    · have hcounted := h.counted
      show (((c.nodeMap++[node]).map LfuNode.freq).sum : ℤ) ≤ c.curTotalNum+1
      rw [List.map_append, List.sum_append]
      simpa [totalFreq, hone] using hcounted
  obtain ⟨c', hadd, hcounted⟩ := hready.addFreqNum visit
  have hmin : KLfuCache.IsMinFreq { c' with minFreq := min c'.minFreq 1 } (min c'.minFreq 1) := by
    -- no frequency is below that of the new node
    have hlowest : ∃ n ∈ c'.nodeMap, n.freq = 1 := hcounted.ones ⟨node, hnode, hone⟩
    have hpos : 1 ≤ c'.minFreq := by
      rcases hcounted.minFreq with ⟨hsame, -⟩ | hleast
      · rw [hsame]
        exact h.minFreq_pos
      · obtain ⟨n, hn, hf⟩ := hleast.1
        exact hf ▸ hcounted.positive n hn
    rw [min_eq_right hpos]
    refine ⟨hlowest, ?_⟩
    intro f hf
    obtain ⟨n, hn, rfl⟩ := hf
    exact hcounted.positive n hn
  have hsame : c'.entries = c.entries++[(node.key, node.value)] := by
    refine hcounted.entries.trans ?_
    show (c.nodeMap++[_]).map _ = _
    rw [List.map_append]
    rfl
  refine ⟨c', hadd, ?_, hsame, hcounted.capacity, hcounted.maxAverageNum⟩
  have hcounted' : KLfuCache.Counted _ { c' with minFreq := min c'.minFreq 1 } :=
    ⟨hcounted.linked.of_same rfl rfl, hcounted.positive, hcounted.entries, hcounted.capacity,
      hcounted.maxAverageNum, hcounted.low, hcounted.ones, hcounted.counted, .inr hmin⟩
  exact hcounted'.sound hready (Nat.one_le_of_lt h.size) hmin

end Put

end JingjieAR.KLfuCache
