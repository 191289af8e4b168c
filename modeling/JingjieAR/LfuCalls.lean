import JingjieAR.LfuStructure

/-! The calls of the LFU cache. Each succeeds and keeps the invariant; a put stores its value
and removes at most one other key, of the lowest frequency, and a get removes none. -/
namespace JingjieAR.KLfuCache

open Runs (Run)

variable {κ ν : Type} [DecidableEq κ] {c c' : KLfuCache κ ν} {node n : LfuNode κ ν} {f : ℕ}
  {key : κ} {value : ν} {visit : Iteration (LfuNode κ ν)}

section Calls

/-- The value that is stored for a key. -/
def valueAt (c : KLfuCache κ ν) (key : κ) : Option ν := (c.find key).map LfuNode.value

theorem valueAt_eq_none_iff : c.valueAt key = none ↔ key ∉ c.nodeMap.map LfuNode.key := by
  rw [valueAt, Option.map_eq_none_iff, find, List.find?_eq_none]
  simp

theorem valueAt_eq_some_iff (hnodup : (c.nodeMap.map LfuNode.key).Nodup) :
    c.valueAt key = some value ↔ (key, value) ∈ c.entries := by
  rw [valueAt, Option.map_eq_some_iff, entries, List.mem_map]
  constructor
  · intro h
    obtain ⟨n, hfind, rfl⟩ := h
    obtain ⟨hn, rfl⟩ := mem_of_find hfind
    exact ⟨n, hn, rfl⟩
  · intro h
    obtain ⟨n, hn, heq⟩ := h
    obtain ⟨rfl, rfl⟩ := Prod.mk.inj heq
    cases hfind : c.find n.key with
    | none => simpa using List.find?_eq_none.mp hfind n hn
    | some n' =>
      obtain ⟨hn', hkey⟩ := mem_of_find hfind
      exact ⟨n', rfl, by rw [node_eq_of_key hnodup hn' hn hkey]⟩

/-- The values are the same where the entries are. -/
theorem valueAt_congr (hnodup : (c.nodeMap.map LfuNode.key).Nodup)
    (hnodup' : (c'.nodeMap.map LfuNode.key).Nodup)
    (h : ∀ v, (key, v) ∈ c'.entries ↔ (key, v) ∈ c.entries) : c'.valueAt key = c.valueAt key := by
  ext v
  rw [valueAt_eq_some_iff hnodup', valueAt_eq_some_iff hnodup, h]

theorem Kept.valueAt (h : c.Kept c') (hlinked : c.Linked) (hlinked' : c'.Linked) (key : κ) :
    c'.valueAt key = c.valueAt key := by
  refine valueAt_congr hlinked.nodup hlinked'.nodup ?_
  intro v
  rw [h.entries]

/-- Another value for a node leaves the keys with their frequencies. -/
theorem setNode_freqs (h : c.Linked) (hn : node ∈ c.nodeMap) (value : ν) :
    (c.setNode { node with value := value }).nodeMap.map (fun n => (n.key, n.freq)) =
      c.nodeMap.map (fun n => (n.key, n.freq)) := by
  rw [setNode, replaceNode, List.map_map]
  apply List.map_congr_left
  intro n hn'
  by_cases hkey : n.key = node.key
  · obtain rfl := node_eq_of_key h.nodup hn' hn hkey
    simp
  · simp [hkey]

theorem map_freq_setNode (h : c.Linked) (hn : node ∈ c.nodeMap) (value : ν) :
    (c.setNode { node with value := value }).nodeMap.map LfuNode.freq =
      c.nodeMap.map LfuNode.freq := by
  have hsnd := congrArg (List.map Prod.snd) (setNode_freqs h hn value)
  rw [List.map_map, List.map_map] at hsnd
  exact hsnd

theorem length_setNode (node : LfuNode κ ν) :
    (c.setNode node).nodeMap.length = c.nodeMap.length := by
  show (replaceNode c.nodeMap node).length = c.nodeMap.length
  rw [replaceNode, List.length_map]

theorem totalFreq_setNode (h : c.Linked) (hn : node ∈ c.nodeMap) (value : ν) :
    (c.setNode { node with value := value }).totalFreq = c.totalFreq := by
  rw [totalFreq, map_freq_setNode h hn value, totalFreq]

theorem Linked.setNode (h : c.Linked) (hn : node ∈ c.nodeMap) (value : ν) :
    (c.setNode { node with value := value }).Linked := by
  have hfreqs := setNode_freqs h hn value
  refine ⟨?_, h.listNodup, ?_⟩
  · show ((replaceNode c.nodeMap _).map LfuNode.key).Nodup
    rw [keys_replaceNode]
    exact h.nodup
  · intro f k
    refine (h.mem_listAt f k).trans ?_
    have hmem : ((k, f) ∈ (c.setNode { node with value := value }).nodeMap.map
        (fun n => (n.key, n.freq))) ↔ (k, f) ∈ c.nodeMap.map (fun n => (n.key, n.freq)) := by
      rw [hfreqs]
    simpa using hmem.symm

theorem Sound.setNode (h : c.Sound) (hn : node ∈ c.nodeMap) (value : ν) :
    (c.setNode { node with value := value }).Sound := by
  have hfreqs := map_freq_setNode h.linked hn value
  have hne : c.nodeMap ≠ [] := List.ne_nil_of_mem hn
  have hmem (f : ℕ) : (∃ n ∈ (c.setNode { node with value := value }).nodeMap, n.freq = f) ↔
      ∃ n ∈ c.nodeMap, n.freq = f := by
    rw [← List.mem_map, hfreqs, List.mem_map]
  refine ⟨h.linked.setNode hn value, ?_, ?_, ?_, h.minFreq_pos, fun _ => h.low hne, ?_, h.two_le,
    h.le_125, h.capacity_pos⟩
  · intro n hn'
    obtain ⟨n', hn'', hf⟩ := (hmem n.freq).mp ⟨n, hn', rfl⟩
    exact hf ▸ h.positive n' hn''
  · rw [length_setNode]
    exact h.size
  · intro _
    obtain ⟨hmin, hlow⟩ := h.least hne
    exact ⟨(hmem c.minFreq).mpr hmin, fun f hf => hlow ((hmem f).mp hf)⟩
  · rw [totalFreq_setNode h.linked hn value]
    exact h.counted

/-- A node with another key is where it was. -/
theorem valueAt_setNode (h : c.Linked) (hn : node ∈ c.nodeMap) (value : ν) {k : κ}
    (hk : k ≠ node.key) : (c.setNode { node with value := value }).valueAt k = c.valueAt k := by
  have hkey : ({ node with value := value } : LfuNode κ ν).key ∈ c.nodeMap.map LfuNode.key :=
    List.mem_map.mpr ⟨node, hn, rfl⟩
  apply valueAt_congr h.nodup (h.setNode hn value).nodup
  intro v
  rw [entries, entries, List.mem_map, List.mem_map]
  constructor
  · intro hex
    obtain ⟨n, hmem, heq⟩ := hex
    rcases (mem_replaceNode hkey).mp hmem with rfl | ⟨hmem, -⟩
    · exact absurd (Prod.mk.inj heq).1.symm hk
    · exact ⟨n, hmem, heq⟩
  · intro hex
    obtain ⟨n, hmem, heq⟩ := hex
    have hother : n.key ≠ node.key := by
      intro hkeys
      exact hk ((Prod.mk.inj heq).1.symm.trans hkeys)
    exact ⟨n, (mem_replaceNode hkey).mpr (.inr ⟨hmem, hother⟩), heq⟩

theorem valueAt_kicked_self (c : KLfuCache κ ν) (node : LfuNode κ ν) :
    (c.kicked node).valueAt node.key = none := by
  rw [valueAt_eq_none_iff]
  simp [kicked, decreaseFreqNum, count]

theorem valueAt_kicked (h : c.Linked) {k : κ} (hk : k ≠ node.key) :
    (c.kicked node).valueAt k = c.valueAt k := by
  apply valueAt_congr h.nodup (h.kicked node).nodup
  intro v
  rw [entries, entries, List.mem_map, List.mem_map]
  constructor
  · intro hex
    obtain ⟨n, hmem, heq⟩ := hex
    exact ⟨n, (List.mem_filter.mp hmem).1, heq⟩
  · intro hex
    obtain ⟨n, hmem, heq⟩ := hex
    refine ⟨n, List.mem_filter.mpr ⟨hmem, ?_⟩, heq⟩
    simpa [(Prod.mk.inj heq).1] using hk

/-- A put that succeeds: the key has the value, and the others have what they had, but for
one of the lowest frequency that may be gone. -/
structure PutOutcome (c : KLfuCache κ ν) (key : κ) (value : ν) (c' : KLfuCache κ ν) : Prop where
  sound : c'.Sound
  capacity : c'.capacity = c.capacity
  maxAverageNum : c'.maxAverageNum = c.maxAverageNum
  stored : c'.valueAt key = some value
  others : ∀ k, k ≠ key → c'.valueAt k = c.valueAt k ∨
    (c'.valueAt k = none ∧ ∃ n ∈ c.nodeMap, n.key = k ∧ ∀ n' ∈ c.nodeMap, n.freq ≤ n'.freq)

theorem Sound.putResident (h : c.Sound) (hfind : c.find key = some node) :
    ∃ c', c.put key value visit = some c' ∧ c.PutOutcome key value c' := by
  obtain ⟨hn, rfl⟩ := mem_of_find hfind
  have hkey : ({ node with value := value } : LfuNode κ ν).key ∈ c.nodeMap.map LfuNode.key :=
    List.mem_map.mpr ⟨node, hn, rfl⟩
  have hset := h.setNode hn value
  have hn' : { node with value := value } ∈ (c.setNode { node with value := value }).nodeMap :=
    (mem_replaceNode hkey).mpr (.inl rfl)
  obtain ⟨c', hget, hsound, hkept⟩ := hset.getInternal hn' visit
  refine ⟨c', ?_, hsound, hkept.capacity, hkept.maxAverageNum, ?_, ?_⟩
  · rw [KLfuCache.put, if_neg (Nat.ne_of_gt h.capacity_pos), hfind]
    exact congrArg (Option.map Prod.snd) hget
  · rw [hkept.valueAt hset.linked hsound.linked, valueAt_eq_some_iff hset.linked.nodup]
    exact List.mem_map.mpr ⟨_, hn', rfl⟩
  · intro k hk
    refine .inl ((hkept.valueAt hset.linked hsound.linked k).trans ?_)
    exact valueAt_setNode h.linked hn value hk

/-- The end of `putInternal`, in a cache that has room. -/
theorem Room.put_end (h : c.Room) (hkey : key ∉ c.nodeMap.map LfuNode.key) (value : ν)
    (visit : Iteration (LfuNode κ ν)) :
    ∃ c', (({ c with nodeMap := c.nodeMap++[(⟨key, value, 1⟩ : LfuNode κ ν)] }.addToFreqList
        ⟨key, value, 1⟩).addFreqNum visit).bind
          (fun c => some { c with minFreq := min c.minFreq 1 }) = some c' ∧ c'.Sound ∧
      c'.capacity = c.capacity ∧ c'.maxAverageNum = c.maxAverageNum ∧
      c'.valueAt key = some value ∧ ∀ k, k ≠ key → c'.valueAt k = c.valueAt k := by
  obtain ⟨c', hadd, hsound, hentries, hcapacity, hmax⟩ :=
    h.insertNode ⟨key, value, 1⟩ rfl hkey visit
  have hentries' : KLfuCache.entries { c' with minFreq := min c'.minFreq 1 } =
      c.entries++[(key, value)] := hentries
  refine ⟨{ c' with minFreq := min c'.minFreq 1 }, ?_, hsound, hcapacity, hmax, ?_, ?_⟩
  · rw [hadd]
    rfl
  · rw [valueAt_eq_some_iff hsound.linked.nodup, hentries']
    exact List.mem_append_right _ (List.mem_singleton_self _)
  · intro k hk
    refine valueAt_congr h.linked.nodup hsound.linked.nodup ?_
    intro v
    rw [hentries', List.mem_append]
    simp [hk]

theorem Sound.putNew (h : c.Sound) (hfind : c.find key = none) :
    ∃ c', c.put key value visit = some c' ∧ c.PutOutcome key value c' := by
  have hput : c.put key value visit = c.putInternal key value visit := by
    rw [KLfuCache.put, if_neg (Nat.ne_of_gt h.capacity_pos), hfind]
  have hnew : key ∉ c.nodeMap.map LfuNode.key := by
    rw [← valueAt_eq_none_iff, valueAt, hfind]
    rfl
  by_cases hfull : c.nodeMap.length = c.capacity
  · have hne : c.nodeMap ≠ [] := by
      -- a full cache has a node to evict, since its capacity is not 0
      intro hnil
      have hpos := h.capacity_pos
      rw [hnil] at hfull
      simp only [List.length_nil] at hfull
      omega
    obtain ⟨node, hn, hkick, hminimal⟩ := h.kickOut hne
    have hnew₁ : key ∉ (c.kicked node).nodeMap.map LfuNode.key :=
      fun hmem => hnew ((List.filter_sublist.map _).subset hmem)
    obtain ⟨c', hend, hsound, hcapacity, hmax, hstored, hothers⟩ :=
      (h.room_kicked hn).put_end hnew₁ value visit
    refine ⟨c', ?_, hsound, hcapacity, hmax, hstored, ?_⟩
    · rw [hput, putInternal, makeRoom, if_pos hfull, hkick]
      exact hend
    · intro k hk
      rw [hothers k hk]
      by_cases hgone : k = node.key
      · subst hgone
        exact .inr ⟨valueAt_kicked_self c node, node, hn, rfl, hminimal⟩
      · exact .inl (valueAt_kicked h.linked hgone)
  · have hroom : c.Room := ⟨h.linked, h.positive, lt_of_le_of_ne h.size hfull, h.minFreq_pos,
      h.counted, h.two_le, h.le_125⟩
    obtain ⟨c', hend, hsound, hcapacity, hmax, hstored, hothers⟩ :=
      hroom.put_end hnew value visit
    refine ⟨c', ?_, hsound, hcapacity, hmax, hstored, fun k hk => .inl (hothers k hk)⟩
    rw [hput, putInternal, makeRoom, if_neg hfull]
    exact hend

theorem Sound.put (h : c.Sound) (key : κ) (value : ν) (visit : Iteration (LfuNode κ ν)) :
    ∃ c', c.put key value visit = some c' ∧ c.PutOutcome key value c' := by
  cases hfind : c.find key with
  | some node => exact h.putResident hfind
  | none => exact h.putNew hfind

theorem Sound.get (h : c.Sound) (key : κ) (visit : Iteration (LfuNode κ ν)) :
    ∃ c', c.get key visit = some (c.valueAt key, c') ∧ c'.Sound ∧ c.Kept c' := by
  rw [KLfuCache.get, valueAt]
  cases hfind : c.find key with
  | none => exact ⟨c, rfl, h, rfl, rfl, rfl⟩
  | some node =>
    obtain ⟨c', hget, hsound, hkept⟩ := h.getInternal (mem_of_find hfind).1 visit
    refine ⟨c', ?_, hsound, hkept⟩
    dsimp only
    rw [hget]
    rfl

omit [DecidableEq κ] in
theorem Sound.purge (h : c.Sound) : c.purge.Sound := by
  have hcounted := h.counted
  refine ⟨linked_of_empty rfl rfl, by simp [KLfuCache.purge], Nat.zero_le _,
    fun hne => absurd rfl hne, h.minFreq_pos, fun hne => absurd rfl hne, ?_, h.two_le, h.le_125,
    h.capacity_pos⟩
  show ((0 : ℕ) : ℤ) ≤ c.curTotalNum
  omega

/-- Every call succeeds. -/
theorem Sound.next (h : c.Sound) (call : LfuCall κ ν) :
    ∃ c', c.next call = some c' ∧ c'.Sound ∧ c'.capacity = c.capacity := by
  cases call with
  | put key value visit =>
    obtain ⟨c', hput, houtcome⟩ := h.put key value visit
    exact ⟨c', hput, houtcome.sound, houtcome.capacity⟩
  | get key visit =>
    obtain ⟨c', hget, hsound, hkept⟩ := h.get key visit
    exact ⟨c', congrArg (Option.map Prod.snd) hget, hsound, hkept.capacity⟩
  | purge => exact ⟨c.purge, rfl, h.purge, rfl⟩

theorem Sound.run (h : c.Sound) (calls : List (LfuCall κ ν)) :
    ∃ c', Run Step c calls c' ∧ c'.Sound ∧ c'.capacity = c.capacity := by
  induction calls generalizing c with
  | nil => exact ⟨c, .nil c, h, rfl⟩
  | cons call calls ih =>
    obtain ⟨c₁, hnext, hsound, hcapacity⟩ := h.next call
    obtain ⟨c', hrun, hsound', hcapacity'⟩ := ih hsound
    exact ⟨c', .cons hnext hrun, hsound', hcapacity'.trans hcapacity⟩

end Calls

/-- After any calls: the lists and the map agree, there are no more nodes than the capacity,
`minFreq_` is the smallest frequency, and what the next put removes has that frequency. No
call dereferences a null pointer or a sentinel on the way. -/
theorem lfu_structure {capacity : ℕ} (hcapacity : 1 ≤ capacity) (calls : List (LfuCall κ ν)) :
    ∃ c : KLfuCache κ ν, Run Step { capacity := capacity } calls c ∧
      (c.nodeMap.map LfuNode.key).Nodup ∧
      (∀ n ∈ c.nodeMap, 1 ≤ n.freq ∧ ∀ f, (c.listAt f).count n.key = if f = n.freq then 1 else 0) ∧
      (∀ f, ∀ k ∈ c.listAt f, k ∈ c.nodeMap.map LfuNode.key) ∧
      c.nodeMap.length ≤ capacity ∧
      (c.nodeMap ≠ [] → IsLeast { f | ∃ n ∈ c.nodeMap, n.freq = f } c.minFreq) ∧
      ∀ key value visit, ∃ c', c.put key value visit = some c' ∧
        ∀ n ∈ c.nodeMap, c'.find n.key = none → ∀ n' ∈ c.nodeMap, n.freq ≤ n'.freq := by
  -- the limit of 10 is between 2 and 125
  have hstart : Sound ({ capacity := capacity } : KLfuCache κ ν) :=
    sound_new hcapacity (by decide) (by decide)
  obtain ⟨c, hrun, hsound, hsame⟩ := hstart.run calls
  have hlinked := hsound.linked
  refine ⟨c, hrun, hlinked.nodup, ?_, ?_, hsound.size.trans hsame.le, hsound.least, ?_⟩
  · intro n hn
    refine ⟨hsound.positive n hn, ?_⟩
    intro f
    split_ifs with hf
    · exact List.count_eq_one_of_mem (hlinked.listNodup f) (hf ▸ hlinked.mem_own hn)
    · exact List.count_eq_zero.mpr (fun hmem => hf (hlinked.freq_of_mem hn hmem))
  · intro f k hk
    obtain ⟨n, hn, rfl, -⟩ := (hlinked.mem_listAt f k).mp hk
    exact List.mem_map_of_mem hn
  · intro key value visit
    obtain ⟨c', hput, houtcome⟩ := hsound.put key value visit
    refine ⟨c', hput, ?_⟩
    intro n hn hgone
    have hvalue : c.valueAt n.key = some n.value := by
      rw [valueAt, hlinked.find_of_mem hn]
      rfl
    have hnone : c'.valueAt n.key = none := by
      rw [valueAt, hgone]
      rfl
    -- It is not the key that is put, and it has not kept its value.
    have hkey : n.key ≠ key := by
      intro hkey
      rw [hkey, houtcome.stored] at hnone
      simp at hnone
    rcases houtcome.others n.key hkey with hkept | ⟨-, n₀, hn₀, hkey₀, hminimal⟩
    · rw [hnone, hvalue] at hkept
      simp at hkept
    · exact node_eq_of_key hlinked.nodup hn₀ hn hkey₀ ▸ hminimal

/-- A cache of two, in which one key has been read. -/
theorem lfu_structure_of_three_puts :
    ∃ c : KLfuCache ℕ ℕ, Run Step { capacity := 2 }
        [.put 1 10 (.id _), .put 2 20 (.id _), .get 1 (.id _), .put 3 30 (.id _)] c ∧
      c.nodeMap.length ≤ 2 ∧ (c.nodeMap.map LfuNode.key).Nodup := by
  obtain ⟨c, hrun, hnodup, -, -, hsize, -⟩ := lfu_structure (by decide : 1 ≤ 2)
    [.put 1 10 (.id _), .put 2 20 (.id _), .get 1 (.id _), .put 3 30 (.id _)]
  exact ⟨c, hrun, hsize, hnodup⟩

end JingjieAR.KLfuCache
