import JingjieAR.LfuCacheModel
import Mathlib.Algebra.BigOperators.Group.List.Basic
import Mathlib.Algebra.GroupWithZero.Nat
import Mathlib.Order.Bounds.Basic
import Mathlib.Tactic.Common

/-! The frequency lists of the LFU cache. A node that moves from one frequency to another
leaves the lists in step with the nodes; aging is such a move for every node, and one that
`addFreqNum` may make at every access. -/
namespace JingjieAR

variable {κ ν : Type} [DecidableEq κ]

section Nodes

variable {nodes : List (LfuNode κ ν)} {node old n : LfuNode κ ν}

omit [DecidableEq κ] in
/-- The node of a key is the only one. -/
theorem node_eq_of_key (hnodup : (nodes.map LfuNode.key).Nodup) (hn : n ∈ nodes)
    (hnode : node ∈ nodes) (hkey : n.key = node.key) : n = node :=
  List.inj_on_of_nodup_map hnodup hn hnode hkey

@[simp] theorem keys_replaceNode :
    (replaceNode nodes node).map LfuNode.key = nodes.map LfuNode.key := by
  rw [replaceNode, List.map_map]
  apply List.map_congr_left
  intro n _
  by_cases hkey : n.key = node.key
  · simp [hkey]
  · simp [hkey]

theorem mem_replaceNode (hkey : node.key ∈ nodes.map LfuNode.key) :
    n ∈ replaceNode nodes node ↔ n = node ∨ (n ∈ nodes ∧ n.key ≠ node.key) := by
  constructor
  · intro h
    obtain ⟨n₀, hn₀, rfl⟩ := List.mem_map.mp h
    by_cases hn : n₀.key = node.key
    · exact .inl (if_pos hn)
    · rw [if_neg hn]
      exact .inr ⟨hn₀, hn⟩
  · intro h
    rcases h with rfl | ⟨hn, hne⟩
    · obtain ⟨n₀, hn₀, hkey₀⟩ := List.mem_map.mp hkey
      exact List.mem_map.mpr ⟨n₀, hn₀, if_pos hkey₀⟩
    · exact List.mem_map.mpr ⟨n, hn, if_neg hne⟩

theorem replaceNode_of_notMem (hkey : node.key ∉ nodes.map LfuNode.key) :
    replaceNode nodes node = nodes := by
  refine (List.map_congr_left ?_).trans (List.map_id nodes)
  intro n hn
  exact if_neg (fun h => hkey (List.mem_map.mpr ⟨n, hn, h⟩))

/-- What the frequencies sum up to when one of them changes. -/
theorem sum_replaceNode (hnodup : (nodes.map LfuNode.key).Nodup) (hold : old ∈ nodes)
    (hkey : old.key = node.key) :
    ((replaceNode nodes node).map LfuNode.freq).sum+old.freq =
      (nodes.map LfuNode.freq).sum+node.freq := by
  induction nodes with
  | nil => simp at hold
  | cons n nodes ih =>
    obtain ⟨hnot, htail⟩ := List.nodup_cons.mp hnodup
    rcases List.mem_cons.mp hold with rfl | hold
    · have hrest : replaceNode nodes node = nodes := replaceNode_of_notMem (hkey ▸ hnot)
      have hcons : replaceNode (old :: nodes) node = node :: nodes := by
        rw [replaceNode, List.map_cons, if_pos hkey]
        exact congrArg (node :: ·) hrest
      rw [hcons, List.map_cons, List.map_cons, List.sum_cons, List.sum_cons]
      omega
    · have hne : n.key ≠ node.key := fun h =>
        hnot (List.mem_map.mpr ⟨old, hold, hkey.trans h.symm⟩)
      have hcons : replaceNode (n :: nodes) node = n :: replaceNode nodes node := by
        rw [replaceNode, List.map_cons, if_neg hne]
        rfl
      have hstep := ih htail hold
      rw [hcons, List.map_cons, List.map_cons, List.sum_cons, List.sum_cons]
      omega

end Nodes

namespace KLfuCache

variable {c c' : KLfuCache κ ν} {node n : LfuNode κ ν} {f : ℕ} {key : κ} {value : ν}
  {visit : Iteration (LfuNode κ ν)}

/-- The keys linked in the list of this frequency. -/
def listAt (c : KLfuCache κ ν) (freq : ℕ) : List κ := (c.freqToFreqList.find freq).getD []

/-- The keys of the map are distinct, and the list of a frequency has those that have it,
each of them once. -/
structure Linked (c : KLfuCache κ ν) : Prop where
  nodup : (c.nodeMap.map LfuNode.key).Nodup
  listNodup : ∀ f, (c.listAt f).Nodup
  mem_listAt : ∀ f k, k ∈ c.listAt f ↔ ∃ n ∈ c.nodeMap, n.key = k ∧ n.freq = f

omit [DecidableEq κ] in
/-- The counters and `minFreq` have no part in it. -/
theorem Linked.of_same (h : c.Linked) (hnodes : c'.nodeMap = c.nodeMap)
    (hlists : c'.freqToFreqList = c.freqToFreqList) : c'.Linked := by
  have hlistAt (f : ℕ) : c'.listAt f = c.listAt f := by rw [listAt, listAt, hlists]
  refine ⟨?_, ?_, ?_⟩
  · rw [hnodes]
    exact h.nodup
  · intro f
    rw [hlistAt]
    exact h.listNodup f
  · intro f k
    rw [hlistAt, hnodes]
    exact h.mem_listAt f k

omit [DecidableEq κ] in
theorem linked_of_empty (hnodes : c.nodeMap = []) (hlists : c.freqToFreqList = .empty) :
    c.Linked := by
  have hlistAt (f : ℕ) : c.listAt f = [] := by
    rw [listAt, hlists, OrderedMap.find_empty, Option.getD_none]
  refine ⟨?_, ?_, ?_⟩
  · rw [hnodes]
    exact List.nodup_nil
  · intro f
    rw [hlistAt]
    exact List.nodup_nil
  · intro f k
    rw [hlistAt, hnodes]
    simp

theorem mem_of_find (h : c.find key = some node) : node ∈ c.nodeMap ∧ node.key = key :=
  ⟨List.mem_of_find?_eq_some h, by simpa using List.find?_some h⟩

theorem Linked.find_of_mem (h : c.Linked) (hn : node ∈ c.nodeMap) :
    c.find node.key = some node := by
  have hsome : (c.find node.key).isSome := by
    rw [find, List.find?_isSome]
    exact ⟨node, hn, by simp⟩
  obtain ⟨n, hfind⟩ := Option.isSome_iff_exists.mp hsome
  obtain ⟨hmem, hkey⟩ := mem_of_find hfind
  rw [hfind, node_eq_of_key h.nodup hmem hn hkey]

omit [DecidableEq κ] in
/-- A list that has a key exists. -/
theorem find_of_mem_listAt (h : key ∈ c.listAt f) :
    c.freqToFreqList.find f = some (c.listAt f) := by
  unfold listAt at h ⊢
  cases hfind : c.freqToFreqList.find f with
  | none => simp [hfind] at h
  | some list => rfl

omit [DecidableEq κ] in
theorem Linked.mem_own (h : c.Linked) (hn : node ∈ c.nodeMap) : node.key ∈ c.listAt node.freq :=
  (h.mem_listAt node.freq node.key).mpr ⟨node, hn, rfl, rfl⟩

omit [DecidableEq κ] in
/-- The node is linked in no other list. -/
theorem Linked.freq_of_mem (h : c.Linked) (hn : node ∈ c.nodeMap) (hf : node.key ∈ c.listAt f) :
    f = node.freq := by
  obtain ⟨n, hmem, hkey, hfreq⟩ := (h.mem_listAt f node.key).mp hf
  rw [← hfreq, node_eq_of_key h.nodup hmem hn hkey]

section Move

/-- The cache after a move of this node. -/
def moved (c : KLfuCache κ ν) (node : LfuNode κ ν) (freq : ℕ) : KLfuCache κ ν :=
  ({ c with freqToFreqList := c.freqToFreqList.mapValues (fun list => list.erase node.key) }.setNode
    { node with freq := freq }).addToFreqList { node with freq := freq }

theorem Linked.moveNode_eq (h : c.Linked) (hn : node ∈ c.nodeMap) (freq : ℕ) :
    c.moveNode node freq = some (c.moved node freq) := by
  rw [moveNode, removeFromFreqList, find_of_mem_listAt (h.mem_own hn)]
  rfl

theorem nodeMap_moved (freq : ℕ) :
    (c.moved node freq).nodeMap = replaceNode c.nodeMap { node with freq := freq } := rfl

omit [DecidableEq κ] in
theorem listAt_addToFreqList (freq : ℕ) :
    (c.addToFreqList node).listAt freq =
      c.listAt freq++(if freq = node.freq then [node.key] else []) := by
  rw [listAt, addToFreqList, OrderedMap.find_insert]
  by_cases hf : node.freq = freq
  · subst hf
    simp [listAt]
  · rw [if_neg hf, if_neg (Ne.symm hf), List.append_nil, listAt]

theorem listAt_erase (c : KLfuCache κ ν) (key : κ) (freq : ℕ) :
    listAt { c with freqToFreqList := c.freqToFreqList.mapValues (fun list => list.erase key) }
      freq = (c.listAt freq).erase key := by
  rw [listAt, OrderedMap.find_mapValues, listAt]
  cases c.freqToFreqList.find freq with
  | none => rfl
  | some list => rfl

theorem listAt_moved (c : KLfuCache κ ν) (node : LfuNode κ ν) (freq f : ℕ) :
    (c.moved node freq).listAt f =
      (c.listAt f).erase node.key++(if f = freq then [node.key] else []) := by
  rw [moved, listAt_addToFreqList]
  exact congrArg (·++_) (listAt_erase c node.key f)

theorem Linked.moved (h : c.Linked) (hn : node ∈ c.nodeMap) (freq : ℕ) :
    (c.moved node freq).Linked := by
  have hkey : ({ node with freq := freq } : LfuNode κ ν).key ∈ c.nodeMap.map LfuNode.key :=
    List.mem_map.mpr ⟨node, hn, rfl⟩
  refine ⟨?_, ?_, ?_⟩
  · rw [nodeMap_moved, keys_replaceNode]
    exact h.nodup
  · intro f
    rw [listAt_moved]
    -- the key is put into the list of the new frequency, from which it was taken before
    have herase := (h.listNodup f).erase node.key
    split_ifs
    · refine List.nodup_append.mpr ⟨herase, List.nodup_singleton _, ?_⟩
      intro k hk k' hk' heq
      obtain rfl := List.mem_singleton.mp hk'
      exact ((h.listNodup f).mem_erase_iff.mp hk).1 heq
    · rwa [List.append_nil]
  · intro f k
    rw [listAt_moved, List.mem_append, (h.listNodup f).mem_erase_iff, h.mem_listAt, nodeMap_moved]
    constructor
    · intro hk
      rcases hk with ⟨hne, n, hmem, rfl, rfl⟩ | hk
      · exact ⟨n, (mem_replaceNode hkey).mpr (.inr ⟨hmem, hne⟩), rfl, rfl⟩
      · split_ifs at hk with hf
        · obtain rfl := List.mem_singleton.mp hk
          exact ⟨_, (mem_replaceNode hkey).mpr (.inl rfl), rfl, hf.symm⟩
        · simp at hk
    · intro hk
      obtain ⟨n, hmem, rfl, rfl⟩ := hk
      rcases (mem_replaceNode hkey).mp hmem with rfl | ⟨hmem, hne⟩
      · exact .inr (by simp)
      · exact .inl ⟨hne, n, hmem, rfl, rfl⟩

end Move

section Aging

def aged (c : KLfuCache κ ν) (node : LfuNode κ ν) : LfuNode κ ν :=
  { node with freq := c.agedFreq node }

/-- Aging in any order of the nodes ages each of them once. -/
theorem Linked.foldlM_ageNode {nodes : List (LfuNode κ ν)} (h : c.Linked)
    (hnodup : (nodes.map LfuNode.key).Nodup) (hmem : ∀ n ∈ nodes, n ∈ c.nodeMap) :
    ∃ c', nodes.foldlM ageNode c = some c' ∧ c'.Linked ∧
      c' = { c with nodeMap := c'.nodeMap, freqToFreqList := c'.freqToFreqList } ∧
      c'.nodeMap = c.nodeMap.map (fun n =>
        if n.key ∈ nodes.map LfuNode.key then c.aged n else n) := by
  induction nodes generalizing c with
  | nil => exact ⟨c, rfl, h, rfl, by simp⟩
  | cons node nodes ih =>
    obtain ⟨hnot, htail⟩ := List.nodup_cons.mp hnodup
    have hn : node ∈ c.nodeMap := hmem node List.mem_cons_self
    have hkey : (c.aged node).key ∈ c.nodeMap.map LfuNode.key := List.mem_map.mpr ⟨node, hn, rfl⟩
    -- The nodes to come are still as they were.
    have hrest : ∀ n ∈ nodes, n ∈ (c.moved node (c.agedFreq node)).nodeMap := by
      intro n hmem'
      refine (mem_replaceNode hkey).mpr (.inr ⟨hmem n (List.mem_cons_of_mem _ hmem'), ?_⟩)
      exact fun heq => hnot (List.mem_map.mpr ⟨n, hmem', heq⟩)
    obtain ⟨c', hfold, hlinked, hsame, hnodes⟩ := ih (h.moved hn (c.agedFreq node)) htail hrest
    refine ⟨c', ?_, hlinked, hsame, ?_⟩
    · rw [List.foldlM_cons, ageNode, h.moveNode_eq hn]
      exact hfold
    · rw [hnodes, nodeMap_moved, replaceNode, List.map_map]
      apply List.map_congr_left
      intro n hn'
      by_cases heq : n.key = node.key
      · obtain rfl := node_eq_of_key h.nodup hn' hn heq
        simpa [aged] using fun x hx hxkey => absurd (List.mem_map.mpr ⟨x, hx, hxkey⟩) hnot
      · simp only [Function.comp_apply, List.map_cons, List.mem_cons, heq, false_or]
        rfl

omit [DecidableEq κ] in
/-- The lists that are not empty are those of the frequencies there are. -/
theorem Linked.exists_freq_iff (h : c.Linked) (f : ℕ) :
    (∃ list, (f, list) ∈ c.freqToFreqList.entries ∧ list ≠ []) ↔
      ∃ n ∈ c.nodeMap, n.freq = f := by
  constructor
  · intro hlist
    obtain ⟨list, hmem, hne⟩ := hlist
    obtain ⟨k, hk⟩ := List.exists_mem_of_ne_nil list hne
    -- a key in the list belongs to a node of this frequency
    have hat : c.listAt f = list := by
      rw [listAt, OrderedMap.find_eq_some_iff.mpr hmem]
      rfl
    obtain ⟨n, hn, -, hfreq⟩ := (h.mem_listAt f k).mp (hat ▸ hk)
    exact ⟨n, hn, hfreq⟩
  · intro hn
    obtain ⟨n, hn, rfl⟩ := hn
    have hmem := h.mem_own hn
    exact ⟨c.listAt n.freq, OrderedMap.find_eq_some_iff.mp (find_of_mem_listAt hmem),
      List.ne_nil_of_mem hmem⟩

omit [DecidableEq κ] in
/-- The loop of `updateMinFreq` finds the smallest index, or stays where it starts. -/
theorem foldl_minFreq (entries : List (ℕ × List κ)) (start : ℕ) :
    let m := entries.foldl
      (fun minFreq pair => if !pair.2.isEmpty then min minFreq pair.1 else minFreq) start
    m ≤ start ∧ (∀ e ∈ entries, e.2 ≠ [] → m ≤ e.1) ∧
      (m = start ∨ ∃ e ∈ entries, e.2 ≠ [] ∧ e.1 = m) := by
  induction entries generalizing start with
  | nil => simp
  | cons e entries ih =>
    simp only [List.foldl_cons]
    -- an empty list is passed by
    by_cases he : e.2 = []
    · obtain ⟨hle, hall, hsome⟩ := ih start
      simp only [he, List.isEmpty_nil, Bool.not_true, Bool.false_eq_true, if_false]
      refine ⟨hle, ?_, ?_⟩
      · intro e' he' hne
        rcases List.mem_cons.mp he' with rfl | he'
        · exact absurd he hne
        · exact hall e' he' hne
      · exact hsome.imp_right (fun ⟨e', he', h'⟩ => ⟨e', List.mem_cons_of_mem _ he', h'⟩)
    · obtain ⟨hle, hall, hsome⟩ := ih (min start e.1)
      have hempty : (!e.2.isEmpty) = true := by simpa using he
      simp only [hempty, if_true]
      refine ⟨hle.trans (min_le_left _ _), ?_, ?_⟩
      · intro e' he' hne
        rcases List.mem_cons.mp he' with rfl | he'
        · exact hle.trans (min_le_right _ _)
        · exact hall e' he' hne
      · rcases hsome with hsome | ⟨e', he', h'⟩
        · rcases le_total start e.1 with hmin | hmin
          · exact .inl (hsome.trans (min_eq_left hmin))
          · exact .inr ⟨e, List.mem_cons_self, he, (hsome.trans (min_eq_right hmin)).symm⟩
        · exact .inr ⟨e', List.mem_cons_of_mem _ he', h'⟩

/-- The smallest frequency of a node. -/
def IsMinFreq (c : KLfuCache κ ν) (f : ℕ) : Prop := IsLeast { f | ∃ n ∈ c.nodeMap, n.freq = f } f

omit [DecidableEq κ] in
/-- Where a node is below the bound, the smallest frequency is found. -/
theorem Linked.updateMinFreq (h : c.Linked) (hn : n ∈ c.nodeMap) (hlow : n.freq < INT8_MAX) :
    c.IsMinFreq c.updateMinFreq.minFreq := by
  obtain ⟨-, hall, hsome⟩ := foldl_minFreq c.freqToFreqList.entries INT8_MAX
  have hle : ∀ n ∈ c.nodeMap, c.freqToFreqList.entries.foldl
      (fun minFreq pair => if !pair.2.isEmpty then min minFreq pair.1 else minFreq) INT8_MAX ≤
        n.freq := by
    intro n hn
    obtain ⟨list, hmem, hne⟩ := (h.exists_freq_iff n.freq).mpr ⟨n, hn, rfl⟩
    exact hall (n.freq, list) hmem hne
  have hne : c.freqToFreqList.entries.foldl
      (fun minFreq pair => if !pair.2.isEmpty then min minFreq pair.1 else minFreq) INT8_MAX ≠
        INT8_MAX :=
    ne_of_lt ((hle n hn).trans_lt hlow)
  obtain ⟨e, he, henil, hfreq⟩ := hsome.resolve_left hne
  simp only [KLfuCache.updateMinFreq, if_neg hne]
  refine ⟨?_, ?_⟩
  · rw [← hfreq]
    exact (h.exists_freq_iff e.1).mp ⟨e.2, he, henil⟩
  · intro f hf
    obtain ⟨n, hn, rfl⟩ := hf
    exact hle n hn

/-- The outcome of `addFreqNum` where it ages the nodes of `c`. -/
structure Aged (c c' : KLfuCache κ ν) : Prop where
  linked : c'.Linked
  nodeMap : c'.nodeMap = c.nodeMap.map c.aged
  capacity : c'.capacity = c.capacity
  maxAverageNum : c'.maxAverageNum = c.maxAverageNum
  curTotalNum : c'.curTotalNum = c.curTotalNum+1
  least : ∀ n ∈ c'.nodeMap, n.freq < INT8_MAX → c'.IsMinFreq c'.minFreq

theorem Linked.handleOverMaxAverageNum (h : c.Linked) (hne : c.nodeMap ≠ [])
    (visit : Iteration (LfuNode κ ν)) :
    ∃ c', (c.count (c.curTotalNum+1)).handleOverMaxAverageNum visit = some c' ∧ c.Aged c' := by
  have hlinked : (c.count (c.curTotalNum+1)).Linked := h.of_same rfl rfl
  have hperm := visit.perm c.nodeMap
  have hnodup : ((visit.order c.nodeMap).map LfuNode.key).Nodup :=
    (hperm.map LfuNode.key).nodup_iff.mpr h.nodup
  obtain ⟨c₁, hfold, hlinked₁, hsame, hnodes⟩ :=
    hlinked.foldlM_ageNode hnodup (fun n hn => hperm.mem_iff.mp hn)
  have hall : c₁.nodeMap = c.nodeMap.map c.aged := by
    refine hnodes.trans (List.map_congr_left ?_)
    intro n hn
    exact if_pos ((hperm.map LfuNode.key).mem_iff.mpr (List.mem_map_of_mem hn))
  -- the order in which the nodes are visited has gone out of it
  refine ⟨c₁.updateMinFreq, ?_, ?_⟩
  · have hempty : (c.count (c.curTotalNum+1)).nodeMap.isEmpty = false := by
      simpa [count] using hne
    rw [KLfuCache.handleOverMaxAverageNum, hempty, if_neg Bool.false_ne_true]
    exact congrArg (Option.map _) hfold
  · rw [hsame]
    refine ⟨hlinked₁.of_same rfl rfl, hall, rfl, rfl, rfl, ?_⟩
    intro n hn hlow
    have hmin := hlinked₁.updateMinFreq hn hlow
    rwa [hsame] at hmin

/-- An access counts one more, and ages the nodes if the average is then above the limit. -/
theorem Linked.addFreqNum_cases (h : c.Linked) (hne : c.nodeMap ≠ [])
    (visit : Iteration (LfuNode κ ν)) :
    ∃ c', c.addFreqNum visit = some c' ∧
      (((c.curTotalNum+1) / c.nodeMap.length ≤ c.maxAverageNum ∧
          c' = c.count (c.curTotalNum+1)) ∨
        (c.maxAverageNum < (c.curTotalNum+1) / c.nodeMap.length ∧ c.Aged c')) := by
  have haverage : (c.count (c.curTotalNum+1)).curAverageNum =
      (c.curTotalNum+1) / c.nodeMap.length := by
    simp [count, hne]
  by_cases hover : (c.count (c.curTotalNum+1)).curAverageNum > c.maxAverageNum
  · obtain ⟨c', hc', haged⟩ := h.handleOverMaxAverageNum hne visit
    exact ⟨c', (if_pos hover).trans hc', .inr ⟨haverage ▸ hover, haged⟩⟩
  · exact ⟨_, if_neg hover, .inl ⟨haverage ▸ not_lt.mp hover, rfl⟩⟩

end Aging

end KLfuCache

end JingjieAR
