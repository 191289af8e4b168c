import JingjieAR.OrderedMap

/-! Sorted sets of a key-value store: members with scores, of which the ones up to a score can
be removed. What such a set has is told by the score of each member. -/
namespace JingjieAR.SortedSets

variable {κ α : Type*} [LinearOrder κ] [LinearOrder α]

/-- Set the score of a member, which may be new. -/
def zadd (s : OrderedMap κ α) (score : α) (member : κ) : OrderedMap κ α := s.insert member score

def zrem (s : OrderedMap κ α) (member : κ) : OrderedMap κ α := s.erase member

/-- Remove the members whose scores are at most `max`. -/
def zremrangebyscore (s : OrderedMap κ α) (max : α) : OrderedMap κ α :=
  ⟨s.entries.filter (fun e => ¬ e.2 ≤ max), s.sorted.filter _⟩

def zcard (s : OrderedMap κ α) : ℕ := s.entries.length

variable {s : OrderedMap κ α} {member member' : κ} {score max : α}

omit [LinearOrder α] in
theorem find_zadd : (zadd s score member).find member' =
    if member = member' then some score else s.find member' :=
  s.find_insert member member' score

omit [LinearOrder α] in
theorem find_zrem_eq_some_iff : (zrem s member).find member' = some score ↔
    member' ≠ member ∧ s.find member' = some score := by
  rw [OrderedMap.find_eq_some_iff, OrderedMap.find_eq_some_iff]
  simp [zrem, OrderedMap.erase, and_comm]

theorem find_zremrangebyscore_eq_some_iff : (zremrangebyscore s max).find member = some score ↔
    max < score ∧ s.find member = some score := by
  rw [OrderedMap.find_eq_some_iff, OrderedMap.find_eq_some_iff]
  simp [zremrangebyscore, and_comm]

omit [LinearOrder α] in
/-- As many as there are in any list of the members without repetitions. -/
theorem zcard_eq_length {members : List κ} (hnodup : members.Nodup)
    (hmem : ∀ k, k ∈ members ↔ ∃ score, s.find k = some score) :
    zcard s = members.length := by
  have hkeys : ∀ k, k ∈ s.entries.map Prod.fst ↔ k ∈ members := by
    intro k
    rw [hmem k, List.mem_map]
    constructor
    · rintro ⟨e, he, rfl⟩
      exact ⟨e.2, OrderedMap.find_eq_some_iff.mpr he⟩
    · rintro ⟨score, hscore⟩
      exact ⟨(k, score), OrderedMap.find_eq_some_iff.mp hscore, rfl⟩
  have hperm := (List.perm_ext_iff_of_nodup s.nodup_keys hnodup).mpr hkeys
  rw [← hperm.length_eq, List.length_map]
  rfl

end JingjieAR.SortedSets
