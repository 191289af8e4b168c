import JingjieAR.LfuCalls

/-! The accounting of the LFU cache. An access, an insertion and an eviction change the
counter and the frequencies alike; aging takes from the frequencies only, and `purge` drops
them all and leaves the counter. What the counter is ahead is never taken back. -/
namespace JingjieAR.KLfuCache

open Runs (Run Guarded)

variable {κ ν : Type} [DecidableEq κ] {c c' : KLfuCache κ ν} {node n : LfuNode κ ν}
  {call : LfuCall κ ν} {visit : Iteration (LfuNode κ ν)}

/-- `curTotalNum_` is the sum of the frequencies, and `curAverageNum_` their average. -/
def Accounted (c : KLfuCache κ ν) : Prop :=
  c.curTotalNum = c.totalFreq ∧
    c.curAverageNum = if c.nodeMap.isEmpty then 0 else (c.totalFreq : ℤ) / c.nodeMap.length

/-- No purge of a cache that has nodes, and no access to a node that would raise the average
frequency above the limit. -/
def Clean (c : KLfuCache κ ν) : LfuCall κ ν → Prop
  | .put key _ _ => c.find key ≠ none →
      (c.totalFreq+1) / c.nodeMap.length ≤ c.maxAverageNum
  | .get key _ => c.find key ≠ none → (c.totalFreq+1) / c.nodeMap.length ≤ c.maxAverageNum
  | .purge => c.nodeMap = []

instance (c : KLfuCache κ ν) (call : LfuCall κ ν) : Decidable (c.Clean call) :=
  match call with
  | .put key _ _ => inferInstanceAs (Decidable (c.find key ≠ none → _ ≤ _))
  | .get key _ => inferInstanceAs (Decidable (c.find key ≠ none → _ ≤ _))
  | .purge => inferInstanceAs (Decidable (c.nodeMap = []))

/-- What the counter is ahead of the frequencies. -/
def drift (c : KLfuCache κ ν) : ℤ := c.curTotalNum-c.totalFreq

/-- Where the counter is exact, aging is not due. -/
structure Calm (c : KLfuCache κ ν) : Prop where
  average : c.curAverageNum = if c.nodeMap.isEmpty then 0
    else (c.totalFreq : ℤ) / c.nodeMap.length
  low : c.nodeMap ≠ [] → c.totalFreq / c.nodeMap.length ≤ c.maxAverageNum

structure Tracked (c : KLfuCache κ ν) : Prop where
  linked : c.Linked
  positive : ∀ n ∈ c.nodeMap, 1 ≤ n.freq
  nonneg : 0 ≤ c.drift
  calm : c.drift = 0 → c.Calm
  two_le : 2 ≤ c.maxAverageNum
  capacity_pos : 1 ≤ c.capacity

section Aging

omit [DecidableEq κ] in
/-- A node above the limit loses something. -/
theorem totalFreq_aged_lt (hpos : ∀ n ∈ c.nodeMap, 1 ≤ n.freq) (htwo : 2 ≤ c.maxAverageNum)
    (hne : c.nodeMap ≠ []) (hover : c.maxAverageNum < c.totalFreq / c.nodeMap.length) :
    ((c.nodeMap.map c.aged).map LfuNode.freq).sum < c.totalFreq := by
  have hlength : 0 < c.nodeMap.length := List.length_pos_of_ne_nil hne
  -- Were they all at or below the limit, so would be the average.
  obtain ⟨n, hn, hfreq⟩ : ∃ n ∈ c.nodeMap, c.maxAverageNum < n.freq := by
    by_contra hall
    have hbound : c.totalFreq ≤ (c.nodeMap.map LfuNode.freq).length • c.maxAverageNum := by
      refine List.sum_le_card_nsmul _ _ ?_
      intro x hx
      obtain ⟨n, hn, rfl⟩ := List.mem_map.mp hx
      exact not_lt.mp (fun hlt => hall ⟨n, hn, hlt⟩)
    rw [List.length_map, nsmul_eq_mul, Nat.cast_id] at hbound
    have hdiv := Nat.div_le_of_le_mul hbound
    omega
  rw [List.map_map, totalFreq]
  refine List.sum_lt_sum _ _ (fun n hn => agedFreq_le (hpos n hn)) ⟨n, hn, ?_⟩
  simp only [Function.comp_apply, aged, agedFreq]
  split_ifs
  · omega
  · omega

/-- `addFreqNum` on a cache whose frequencies have been counted up already: the drift stays
unless the nodes are aged, and then there is one. -/
theorem addFreqNum_drift (hlinked : c.Linked) (hpos : ∀ n ∈ c.nodeMap, 1 ≤ n.freq)
    (hne : c.nodeMap ≠ []) (htwo : 2 ≤ c.maxAverageNum) (hcapacity : 1 ≤ c.capacity)
    (hahead : c.totalFreq ≤ c.curTotalNum+1) (hadd : c.addFreqNum visit = some c') :
    c'.Tracked ∧ (c'.drift = 0 ↔ c.curTotalNum+1 = c.totalFreq ∧
      c.totalFreq / c.nodeMap.length ≤ c.maxAverageNum) := by
  obtain ⟨c₁, hc₁, hcases⟩ := hlinked.addFreqNum_cases hne visit
  obtain rfl : c₁ = c' := Option.some.inj (hc₁.symm.trans hadd)
  rcases hcases with ⟨haverage, rfl⟩ | ⟨hover, haged⟩
  · have hdrift : (c.count (c.curTotalNum+1)).drift = c.curTotalNum+1-c.totalFreq := rfl
    have hexact : (c.count (c.curTotalNum+1)).drift = 0 → c.curTotalNum+1 = c.totalFreq := by
      intro hzero
      omega
    have hlow : (c.count (c.curTotalNum+1)).drift = 0 →
        c.totalFreq / c.nodeMap.length ≤ c.maxAverageNum := by
      intro hzero
      rw [hexact hzero] at haverage
      exact_mod_cast haverage
    refine ⟨⟨hlinked.of_same rfl rfl, hpos, ?_, ?_, htwo, hcapacity⟩,
      fun hzero => ⟨hexact hzero, hlow hzero⟩, ?_⟩
    · omega
    · intro hzero
      refine ⟨?_, fun _ => hlow hzero⟩
      show (if c.nodeMap.isEmpty then (0 : ℤ) else (c.curTotalNum+1) / c.nodeMap.length) = _
      rw [hexact hzero]
      rfl
    · intro h
      omega
  · have hsum : c₁.totalFreq = ((c.nodeMap.map c.aged).map LfuNode.freq).sum := by
      rw [totalFreq, haged.nodeMap]
    have hle := totalFreq_aged hpos
    have hnonneg : 0 ≤ c₁.drift := by
      rw [drift, haged.curTotalNum, hsum]
      omega
    -- If nothing was ahead before, aging makes it so.
    have hne₁ : c₁.drift ≠ 0 := by
      intro hzero
      rw [drift, haged.curTotalNum, hsum] at hzero
      have htotal : c.curTotalNum+1 = c.totalFreq := by omega
      rw [htotal] at hover
      have hlt := totalFreq_aged_lt hpos htwo hne (by exact_mod_cast hover)
      omega
    refine ⟨⟨haged.linked, ?_, hnonneg, fun hzero => absurd hzero hne₁, haged.maxAverageNum ▸ htwo,
      haged.capacity ▸ hcapacity⟩, fun hzero => absurd hzero hne₁, ?_⟩
    · intro n hn
      rw [haged.nodeMap] at hn
      obtain ⟨n₀, -, rfl⟩ := List.mem_map.mp hn
      exact agedFreq_pos
    · intro h
      rw [h.1] at hover
      exact absurd h.2 (not_le.mpr (by exact_mod_cast hover))

end Aging

section Calls

omit [DecidableEq κ] in
theorem raiseMinFreq_eq {f : ℕ} (h : c.raiseMinFreq f = some c') :
    ∃ m, c' = { c with minFreq := m } := by
  unfold raiseMinFreq at h
  split_ifs at h
  · obtain ⟨list, -, rfl⟩ := Option.map_eq_some_iff.mp h
    split_ifs
    · exact ⟨_, rfl⟩
    · exact ⟨c.minFreq, rfl⟩
  · exact ⟨c.minFreq, (Option.some.inj h).symm⟩

/-- An access to a node. -/
theorem Tracked.getInternal (h : c.Tracked) (hn : node ∈ c.nodeMap) {v : ν}
    (hget : c.getInternal node visit = some (v, c')) :
    c'.Tracked ∧ (c'.drift = 0 ↔ c.drift = 0 ∧
      (c.totalFreq+1) / c.nodeMap.length ≤ c.maxAverageNum) := by
  rw [KLfuCache.getInternal, h.linked.moveNode_eq hn, Option.bind_eq_bind, Option.bind_some] at hget
  -- the move counts one up; `raiseMinFreq` changes no frequency
  obtain ⟨c₁, hraise, hget⟩ := Option.bind_eq_some_iff.mp hget
  obtain ⟨c₂, hadd, heq⟩ := Option.bind_eq_some_iff.mp hget
  obtain ⟨-, rfl⟩ := Prod.mk.inj (Option.some.inj heq)
  obtain ⟨m, rfl⟩ := raiseMinFreq_eq hraise
  have hlinked := h.linked.moved hn (node.freq+1)
  have hsum : (c.moved node (node.freq+1)).totalFreq = c.totalFreq+1 := by
    have hmoved := totalFreq_moved h.linked hn (node.freq+1)
    omega
  have hnonneg := h.nonneg
  rw [drift] at hnonneg
  have hcount := addFreqNum_drift (c := { c.moved node (node.freq+1) with minFreq := m })
    (hlinked.of_same rfl rfl) ?_ ?_ h.two_le h.capacity_pos ?_ hadd
  · refine ⟨hcount.1, hcount.2.trans ?_⟩
    show c.curTotalNum+1 = ((c.moved node (node.freq+1)).totalFreq : ℤ) ∧
      (c.moved node (node.freq+1)).totalFreq / (c.moved node (node.freq+1)).nodeMap.length ≤
        c.maxAverageNum ↔ _
    rw [hsum, length_moved, drift]
    push_cast
    constructor
    · intro hboth
      exact ⟨by omega, hboth.2⟩
    · intro hboth
      exact ⟨by omega, hboth.2⟩
  · intro n hn'
    rcases (mem_moved hn).mp hn' with rfl | ⟨hmem, -⟩
    · exact Nat.succ_pos _
    · exact h.positive n hmem
  · exact List.ne_nil_of_mem ((mem_moved hn).mpr (.inl rfl))
  · show ((c.moved node (node.freq+1)).totalFreq : ℤ) ≤ c.curTotalNum+1
    rw [hsum]
    push_cast
    omega

theorem kickOut_eq (h : c.kickOut = some c') : ∃ node ∈ c.nodeMap, c' = c.kicked node := by
  unfold kickOut at h
  split at h
  · simp at h
  · simp at h
  · obtain ⟨node, hfind, h⟩ := Option.bind_eq_some_iff.mp h
    obtain ⟨c₁, hremove, h⟩ := Option.bind_eq_some_iff.mp h
    obtain rfl := Option.some.inj h
    refine ⟨node, (mem_of_find hfind).1, ?_⟩
    unfold removeFromFreqList at hremove
    split at hremove
    · simp at hremove
    · obtain rfl := Option.some.inj hremove
      rfl

/-- A new node, where the average of the others does not call for aging. -/
theorem insertNode_drift (hlinked : c.Linked) (hpos : ∀ n ∈ c.nodeMap, 1 ≤ n.freq)
    (htwo : 2 ≤ c.maxAverageNum) (hcapacity : 1 ≤ c.capacity) (hnonneg : 0 ≤ c.drift)
    (hlow : c.drift = 0 → (c.totalFreq+1) / (c.nodeMap.length+1) ≤ c.maxAverageNum)
    (hone : node.freq = 1) (hkey : node.key ∉ c.nodeMap.map LfuNode.key)
    (hadd : ({ c with nodeMap := c.nodeMap++[node] }.addToFreqList node).addFreqNum visit =
      some c') :
    c'.Tracked ∧ (c'.drift = 0 ↔ c.drift = 0) := by
  have hsum : ({ c with nodeMap := c.nodeMap++[node] }.addToFreqList node).totalFreq =
      c.totalFreq+1 := by
    show ((c.nodeMap++[node]).map LfuNode.freq).sum = _
    rw [List.map_append, List.sum_append]
    simp [totalFreq, hone]
  have hlength : ({ c with nodeMap := c.nodeMap++[node] }.addToFreqList node).nodeMap.length =
      c.nodeMap.length+1 := List.length_append
  rw [drift] at hnonneg
  have hcount := addFreqNum_drift (hlinked.insertNode hkey) ?_ ?_ htwo hcapacity ?_ hadd
  · refine ⟨hcount.1, hcount.2.trans ?_⟩
    rw [hsum, hlength]
    show c.curTotalNum+1 = ((c.totalFreq+1 : ℕ) : ℤ) ∧ _ ≤ c.maxAverageNum ↔ _
    constructor
    · intro h
      rw [drift]
      have htotal := h.1
      push_cast at htotal
      omega
    · intro h
      refine ⟨?_, hlow h⟩
      rw [drift] at h
      push_cast
      omega
  · intro n hn
    rcases List.mem_append.mp hn with hn | hn
    · exact hpos n hn
    · obtain rfl := List.mem_singleton.mp hn
      exact hone.ge
  · exact List.append_ne_nil_of_right_ne_nil _ (List.cons_ne_nil _ _)
  · rw [hsum]
    show ((c.totalFreq+1 : ℕ) : ℤ) ≤ c.curTotalNum+1
    push_cast
    omega

omit [DecidableEq κ] in
theorem Tracked.setMinFreq (h : c.Tracked) (m : ℕ) : Tracked { c with minFreq := m } :=
  ⟨h.linked.of_same rfl rfl, h.positive, h.nonneg,
    fun hzero => ⟨(h.calm hzero).average, (h.calm hzero).low⟩, h.two_le, h.capacity_pos⟩

omit [DecidableEq κ] in
/-- The average of one node more, which has been used once. -/
theorem Tracked.average_insert (h : c.Tracked) (hzero : c.drift = 0) :
    (c.totalFreq+1) / (c.nodeMap.length+1) ≤ c.maxAverageNum := by
  have htwo := h.two_le
  by_cases hne : c.nodeMap = []
  · simp only [totalFreq, hne, List.map_nil, List.sum_nil, List.length_nil]
    omega
  · have hlength : 0 < c.nodeMap.length := List.length_pos_of_ne_nil hne
    have hlow := Nat.lt_mul_of_div_lt (Nat.lt_succ_of_le ((h.calm hzero).low hne)) hlength
    refine Nat.le_of_lt_succ ((Nat.div_lt_iff_lt_mul (Nat.succ_pos _)).mpr ?_)
    calc c.totalFreq+1
        ≤ (c.maxAverageNum+1)*c.nodeMap.length := hlow
      _ < (c.maxAverageNum+1)*c.nodeMap.length+(c.maxAverageNum+1) := by omega
      _ = c.maxAverageNum.succ*(c.nodeMap.length+1) := by rw [Nat.mul_succ]

theorem Tracked.average_kicked (h : c.Tracked) (hzero : c.drift = 0) (hn : node ∈ c.nodeMap) :
    ((c.kicked node).totalFreq+1) / ((c.kicked node).nodeMap.length+1) ≤ c.maxAverageNum := by
  have hsum := totalFreq_kicked h.linked hn
  have hfreq := h.positive node hn
  rw [length_kicked h.linked hn]
  refine (Nat.div_le_div_right ?_).trans ((h.calm hzero).low (List.ne_nil_of_mem hn))
  omega

theorem Tracked.putInternal (h : c.Tracked) {key : κ} {value : ν}
    (hkey : key ∉ c.nodeMap.map LfuNode.key) (hput : c.putInternal key value visit = some c') :
    c'.Tracked ∧ (c'.drift = 0 ↔ c.drift = 0) := by
  rw [KLfuCache.putInternal] at hput
  obtain ⟨c₁, hroom, hput⟩ := Option.bind_eq_some_iff.mp hput
  obtain ⟨c₂, hadd, heq⟩ := Option.bind_eq_some_iff.mp hput
  obtain rfl := Option.some.inj heq
  have hcount : c₂.Tracked ∧ (c₂.drift = 0 ↔ c.drift = 0) := by
    unfold makeRoom at hroom
    -- an eviction takes the same from both
    split_ifs at hroom
    · obtain ⟨node, hn, rfl⟩ := kickOut_eq hroom
      have hdrift : (c.kicked node).drift = c.drift := by
        have hsum := totalFreq_kicked h.linked hn
        show c.curTotalNum-node.freq-(c.kicked node).totalFreq = c.curTotalNum-c.totalFreq
        omega
      have hpos : ∀ n ∈ (c.kicked node).nodeMap, 1 ≤ n.freq :=
        fun n hn' => h.positive n (List.mem_filter.mp hn').1
      rw [← hdrift]
      exact insertNode_drift (h.linked.kicked node) hpos h.two_le h.capacity_pos
        (hdrift ▸ h.nonneg) (fun hzero => h.average_kicked (hdrift ▸ hzero) hn) rfl
        (fun hmem => hkey ((List.filter_sublist.map _).subset hmem)) hadd
    · obtain rfl := Option.some.inj hroom
      exact insertNode_drift h.linked h.positive h.two_le h.capacity_pos h.nonneg h.average_insert
        rfl hkey hadd
  exact ⟨hcount.1.setMinFreq _, hcount.2⟩

/-- A put on a key that is there: its value changes, and it counts as an access. -/
theorem Tracked.setNode (h : c.Tracked) (hn : node ∈ c.nodeMap) (value : ν) :
    (c.setNode { node with value := value }).Tracked := by
  have hfreqs := map_freq_setNode h.linked hn value
  have hsum := totalFreq_setNode h.linked hn value
  have hlength := c.length_setNode { node with value := value }
  have hne : c.nodeMap ≠ [] := List.ne_nil_of_mem hn
  have hne' : (c.setNode { node with value := value }).nodeMap ≠ [] :=
    List.ne_nil_of_length_pos (hlength ▸ List.length_pos_of_ne_nil hne)
  have hdrift : (c.setNode { node with value := value }).drift = c.drift := by
    rw [drift, hsum]
    rfl
  refine ⟨h.linked.setNode hn value, ?_, hdrift ▸ h.nonneg, ?_, h.two_le, h.capacity_pos⟩
  · intro n hn'
    have hmem : n.freq ∈ c.nodeMap.map LfuNode.freq := hfreqs ▸ List.mem_map_of_mem hn'
    obtain ⟨n', hn'', hf⟩ := List.mem_map.mp hmem
    exact hf ▸ h.positive n' hn''
  · intro hzero
    obtain ⟨haverage, hlow⟩ := h.calm (hdrift ▸ hzero)
    refine ⟨?_, ?_⟩
    · show c.curAverageNum = _
      rw [hsum, hlength, haverage]
      simp [hne, hne']
    · intro _
      rw [hsum, hlength]
      exact hlow hne

theorem Tracked.put (h : c.Tracked) {key : κ} {value : ν}
    (hput : c.put key value visit = some c') :
    c'.Tracked ∧ (c'.drift = 0 ↔ c.drift = 0 ∧ c.Clean (.put key value visit)) := by
  rw [KLfuCache.put, if_neg (Nat.ne_of_gt h.capacity_pos)] at hput
  cases hfind : c.find key with
  | some node =>
    obtain ⟨hn, rfl⟩ := mem_of_find hfind
    rw [hfind] at hput
    obtain ⟨⟨v, c₁⟩, hget, rfl⟩ := Option.map_eq_some_iff.mp hput
    have hkey : ({ node with value := value } : LfuNode κ ν).key ∈ c.nodeMap.map LfuNode.key :=
      List.mem_map.mpr ⟨node, hn, rfl⟩
    obtain ⟨htracked, hiff⟩ := (h.setNode hn value).getInternal
      ((mem_replaceNode hkey).mpr (.inl rfl)) hget
    refine ⟨htracked, hiff.trans ?_⟩
    rw [Clean, drift, drift, totalFreq_setNode h.linked hn value, length_setNode]
    simp [hfind, KLfuCache.setNode]
  | none =>
    rw [hfind] at hput
    have hkey : key ∉ c.nodeMap.map LfuNode.key := by
      rw [← valueAt_eq_none_iff, valueAt, hfind]
      rfl
    obtain ⟨htracked, hiff⟩ := h.putInternal hkey hput
    refine ⟨htracked, hiff.trans ?_⟩
    simp [Clean, hfind]

theorem Tracked.get (h : c.Tracked) {key : κ} (hget : (c.get key visit).map Prod.snd = some c') :
    c'.Tracked ∧ (c'.drift = 0 ↔ c.drift = 0 ∧ c.Clean (.get key visit)) := by
  rw [KLfuCache.get] at hget
  cases hfind : c.find key with
  | some node =>
    rw [hfind, Option.map_map] at hget
    obtain ⟨⟨v, c₁⟩, hfound, rfl⟩ := Option.map_eq_some_iff.mp hget
    obtain ⟨htracked, hiff⟩ := h.getInternal (mem_of_find hfind).1 hfound
    refine ⟨htracked, hiff.trans ?_⟩
    simp [Clean, hfind]
  | none =>
    rw [hfind] at hget
    obtain rfl := Option.some.inj hget
    refine ⟨h, ?_⟩
    simp [Clean, hfind]

omit [DecidableEq κ] in
theorem Tracked.purge (h : c.Tracked) :
    c.purge.Tracked ∧ (c.purge.drift = 0 ↔ c.drift = 0 ∧ c.nodeMap = []) := by
  have hnonneg := h.nonneg
  have hpurge : c.purge.drift = c.drift+c.totalFreq := by
    show c.curTotalNum-((0 : ℕ) : ℤ) = c.curTotalNum-c.totalFreq+c.totalFreq
    omega
  -- The frequencies sum up to nothing if there are none.
  have hempty : c.totalFreq = 0 ↔ c.nodeMap = [] := by
    constructor
    · intro hsum
      by_contra hne
      obtain ⟨n, hn⟩ := List.exists_mem_of_ne_nil _ hne
      have hle := List.single_le_sum (fun x _ => Nat.zero_le x) n.freq (List.mem_map_of_mem hn)
      have hpos := h.positive n hn
      rw [totalFreq] at hsum
      omega
    · intro hnil
      rw [totalFreq, hnil]
      rfl
  have hiff : c.purge.drift = 0 ↔ c.drift = 0 ∧ c.nodeMap = [] := by
    rw [hpurge, ← hempty]
    constructor
    · intro hzero
      exact ⟨by omega, by omega⟩
    · intro hzero
      omega
  refine ⟨⟨linked_of_empty rfl rfl, by simp [KLfuCache.purge], by omega, ?_, h.two_le,
    h.capacity_pos⟩, hiff⟩
  intro hzero
  obtain ⟨hold, hnil⟩ := hiff.mp hzero
  refine ⟨?_, fun hne => absurd rfl hne⟩
  have haverage := (h.calm hold).average
  rw [hnil] at haverage
  exact haverage

theorem Tracked.step (h : c.Tracked) (hs : c.Step call c') :
    c'.Tracked ∧ (c'.drift = 0 ↔ c.drift = 0 ∧ c.Clean call) := by
  cases call with
  | put key value visit => exact h.put hs
  | get key visit => exact h.get hs
  | purge =>
    obtain rfl := Option.some.inj hs
    exact h.purge

end Calls

/-- The counter is exact after a run if it was before and every call was clean. -/
theorem Tracked.run {calls : List (LfuCall κ ν)} (hr : Run Step c calls c') (h : c.Tracked) :
    c'.Tracked ∧ (c'.drift = 0 ↔ c.drift = 0 ∧ Run (Guarded Clean Step) c calls c') := by
  induction hr with
  | nil c => exact ⟨h, fun hzero => ⟨hzero, .nil c⟩, fun hzero => hzero.1⟩
  | cons hs hrest ih =>
    obtain ⟨htracked, hiff⟩ := h.step hs
    obtain ⟨htracked', hiff'⟩ := ih htracked
    refine ⟨htracked', hiff'.trans ?_⟩
    constructor
    · intro hzero
      obtain ⟨hzero₀, hclean⟩ := hiff.mp hzero.1
      exact ⟨hzero₀, .cons ⟨hclean, hs⟩ hzero.2⟩
    · intro hzero
      cases hzero.2 with
      | cons hs' hrest' =>
        -- A call has one outcome.
        obtain rfl := Option.some.inj (hs'.2.symm.trans hs)
        exact ⟨hiff.mpr ⟨hzero.1, hs'.1⟩, hrest'⟩

omit [DecidableEq κ] in
theorem Tracked.accounted_iff (h : c.Tracked) : c.Accounted ↔ c.drift = 0 := by
  constructor
  · intro haccounted
    rw [drift, haccounted.1]
    omega
  · intro hzero
    refine ⟨?_, (h.calm hzero).average⟩
    rw [drift] at hzero
    omega

/-- After any calls, the counters are exact if and only if no call has purged a cache that
had nodes, or has accessed a node such that the average was above the limit. -/
theorem accounted_iff_clean {capacity maxAverageNum : ℕ} (hcapacity : 1 ≤ capacity)
    (htwo : 2 ≤ maxAverageNum) {calls : List (LfuCall κ ν)} {c : KLfuCache κ ν}
    (hr : Run Step { capacity := capacity, maxAverageNum := maxAverageNum } calls c) :
    c.Accounted ↔
      Run (Guarded Clean Step) { capacity := capacity, maxAverageNum := maxAverageNum } calls
        c := by
  have hstart : Tracked ({ capacity := capacity, maxAverageNum := maxAverageNum } :
      KLfuCache κ ν) := by
    exact ⟨linked_of_empty rfl rfl, by simp, le_refl 0, fun _ => ⟨rfl, fun hne => absurd rfl hne⟩,
      htwo, hcapacity⟩
  obtain ⟨htracked, hiff⟩ := hstart.run hr
  refine (htracked.accounted_iff.trans hiff).trans ⟨fun h => h.2, fun h => ⟨rfl, h⟩⟩

/-- A cache of one node that is read nine times: the average comes up to the limit. -/
def nineGets : List (LfuCall ℕ ℕ) := .put 1 10 (.id _) :: List.replicate 9 (.get 1 (.id _))

theorem nineGets_accounted :
    ∃ c : KLfuCache ℕ ℕ, Run Step { capacity := 1, maxAverageNum := 10 } nineGets c ∧
      c.Accounted := by
  have hreplay : (Runs.replay Clean next
      ({ capacity := 1, maxAverageNum := 10 } : KLfuCache ℕ ℕ) nineGets).isSome := by
    decide
  obtain ⟨c, hc⟩ := Option.isSome_iff_exists.mp hreplay
  have hclean := Runs.run_of_replay hc
  exact ⟨c, hclean.unguarded,
    (accounted_iff_clean (by decide) (by decide) hclean.unguarded).mpr hclean⟩

theorem exists_unaccounted {c₀ : KLfuCache ℕ ℕ} {calls : List (LfuCall ℕ ℕ)} (total : ℤ) (sum : ℕ)
    (h : (Runs.replay (fun _ _ => True) next c₀ calls).map
      (fun c => (c.curTotalNum, c.totalFreq)) = some (total, sum)) (hne : total ≠ sum) :
    ∃ c, Run Step c₀ calls c ∧ ¬c.Accounted := by
  obtain ⟨c, hc, heq⟩ := Option.map_eq_some_iff.mp h
  obtain ⟨rfl, rfl⟩ := Prod.mk.inj heq
  exact ⟨c, (Runs.run_of_replay hc).unguarded, fun haccounted => hne haccounted.1⟩

/-- One read more ages the node, and the counter stays; a purge leaves it, too. -/
theorem lfu_counter_drifts :
    (∃ c : KLfuCache ℕ ℕ, Run Step { capacity := 1 } (nineGets++[.get 1 (.id _)]) c ∧
      ¬c.Accounted) ∧
    (∃ c : KLfuCache ℕ ℕ, Run Step { capacity := 1 } [.put 1 10 (.id _), .purge] c ∧
      ¬c.Accounted) := by
  refine ⟨exists_unaccounted 11 6 (by decide) (by decide), ?_⟩
  exact exists_unaccounted 1 0 (by decide) (by decide)

end JingjieAR.KLfuCache
