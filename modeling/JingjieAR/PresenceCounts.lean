import JingjieAR.PresenceModel
import Mathlib.Data.List.Induction
import Mathlib.Data.Set.Function
import Mathlib.Algebra.Order.Ring.Rat
import Mathlib.Tactic.Linarith

/-! What a count of the online visitors gives. The store has the last heartbeat of every token,
apart from those that an earlier count has found too old; they are too old for any later
count as well. -/
namespace JingjieAR.PresenceService

open SortedSets

variable {score : ℤ → ℚ} {tokens : Set Bytes} {ops : List PresenceOp} {op : PresenceOp}
  {token : Bytes} {nowMs seenMs : ℤ}

theorem run_snoc (score : ℤ → ℚ) (ops : List PresenceOp) (op : PresenceOp) :
    run score (ops++[op]) = op.apply score (run score ops) := by
  rw [run, List.foldl_append]
  rfl

theorem lastHeartbeat_snoc (ops : List PresenceOp) (op : PresenceOp) (token : Bytes) :
    lastHeartbeat (ops++[op]) token =
      if op.accepted = true ∧ op.token = some token then op.nowMs
      else lastHeartbeat ops token := by
  rw [lastHeartbeat, List.reverse_append, List.reverse_singleton, List.singleton_append]
  by_cases h : op.accepted = true ∧ op.token = some token
  · rw [if_pos h, List.find?_cons_of_pos (by simpa using h)]
    rfl
  · rw [if_neg h, List.find?_cons_of_neg (by simpa using h)]
    rfl

/-- The heartbeat is one of the operations. -/
theorem mem_of_lastHeartbeat (h : lastHeartbeat ops token = some seenMs) :
    .heartbeat token seenMs ∈ ops ∧ token ≠ [] ∧ 0 ≤ seenMs := by
  obtain ⟨op, hfind, hseen⟩ := Option.bind_eq_some_iff.mp h
  have hop := List.find?_some hfind
  have hmem := List.mem_reverse.mp (List.mem_of_find?_eq_some hfind)
  obtain ⟨haccepted, htoken⟩ : op.accepted = true ∧ op.token = some token := by simpa using hop
  cases op with
  | heartbeat token' nowMs =>
    obtain rfl := Option.some.inj hseen
    obtain rfl := Option.some.inj htoken
    obtain ⟨hne, hnonneg⟩ := of_decide_eq_true haccepted
    exact ⟨hmem, hne, hnonneg⟩
  | remove token' => contradiction
  | count nowMs => contradiction

theorem mem_stamps (h : op ∈ ops) (hop : op.nowMs = some nowMs) :
    nowMs ∈ ops.filterMap PresenceOp.nowMs :=
  List.mem_filterMap.mpr ⟨op, h, hop⟩

theorem Timely.of_sublist {ops' : List PresenceOp} (h : Timely ops) (hsub : ops'.Sublist ops) :
    Timely ops' := by
  have hstamps := hsub.filterMap PresenceOp.nowMs
  exact ⟨h.1.sublist hstamps, fun nowMs hmem => h.2 nowMs (hstamps.subset hmem)⟩

/-- No operation is later than the last one. -/
theorem Timely.le_last (h : Timely (ops++[op])) (hlast : op.nowMs = some nowMs)
    (hmem : seenMs ∈ ops.filterMap PresenceOp.nowMs) : seenMs ≤ nowMs := by
  have hordered := h.1
  rw [List.filterMap_append] at hordered
  have hafter := (List.pairwise_append.mp hordered).2.2
  exact hafter seenMs hmem nowMs (mem_stamps List.mem_cons_self hlast)

/-- The store has nothing but last heartbeats, and it lacks only those that a count has found
too old. -/
structure Tracks (score : ℤ → ℚ) (ops : List PresenceOp) (store : PresenceSet) : Prop where
  sound : ∀ member value, store.find member = some value →
    ∃ token seenMs, cString token = member ∧ lastHeartbeat ops token = some seenMs ∧
      value = score seenMs
  complete : ∀ token seenMs, lastHeartbeat ops token = some seenMs →
    store.find (cString token) = some (score seenMs) ∨
      ∃ nowMs, .count nowMs ∈ ops ∧ seenMs ≤ nowMs-kOnlineWindowMs

theorem Tracks.empty : Tracks score [] .empty :=
  ⟨fun _ _ h => by contradiction, fun _ _ h => by contradiction⟩

/-- An operation that says nothing about a token leaves its part as it is. -/
theorem Tracks.complete_mono {store : PresenceSet} (h : Tracks score ops store)
    (op : PresenceOp) (hseen : lastHeartbeat ops token = some seenMs) :
    store.find (cString token) = some (score seenMs) ∨
      ∃ nowMs, .count nowMs ∈ ops++[op] ∧ seenMs ≤ nowMs-kOnlineWindowMs := by
  rcases h.complete token seenMs hseen with hfind | ⟨nowMs, hmem, hold⟩
  · exact .inl hfind
  · exact .inr ⟨nowMs, List.mem_append_left _ hmem, hold⟩

variable (hdistinct : Set.InjOn cString {token | token ∈ tokens ∧ token ≠ []})
  (hused : ∀ op ∈ ops, ∀ token ∈ op.token, token ∈ tokens)

include hdistinct in
theorem cString_ne {token' : Bytes} (h : token ∈ tokens ∧ token ≠ [])
    (h' : token' ∈ tokens ∧ token' ≠ []) (hne : token ≠ token') :
    cString token ≠ cString token' :=
  fun heq => hne (hdistinct h h' heq)

include hused in
theorem token_of_lastHeartbeat (h : lastHeartbeat ops token = some seenMs) :
    token ∈ tokens ∧ token ≠ [] := by
  obtain ⟨hmem, hne, -⟩ := mem_of_lastHeartbeat h
  exact ⟨hused _ hmem token rfl, hne⟩

include hdistinct hused in
theorem Tracks.heartbeat {store : PresenceSet} (h : Tracks score ops store)
    (htoken : token ∈ tokens) (hne : token ≠ []) (hnow : 0 ≤ nowMs) :
    Tracks score (ops++[.heartbeat token nowMs]) (zadd store (score nowMs) (cString token)) := by
  have hself : ∀ token', lastHeartbeat (ops++[.heartbeat token nowMs]) token' =
      if token = token' then some nowMs else lastHeartbeat ops token' := by
    intro token'
    rw [lastHeartbeat_snoc]
    simp [PresenceOp.accepted, PresenceOp.token, PresenceOp.nowMs, hne, hnow]
  constructor
  · intro member value hfind
    rw [find_zadd] at hfind
    by_cases hmember : cString token = member
    · rw [if_pos hmember] at hfind
      obtain rfl := Option.some.inj hfind
      exact ⟨token, nowMs, hmember, by rw [hself, if_pos rfl], rfl⟩
    · rw [if_neg hmember] at hfind
      obtain ⟨token', seenMs, hcut, hseen, hvalue⟩ := h.sound member value hfind
      have hother : token ≠ token' := by
        rintro rfl
        exact hmember hcut
      exact ⟨token', seenMs, hcut, by rw [hself, if_neg hother, hseen], hvalue⟩
  · intro token' seenMs hseen
    rw [hself] at hseen
    rw [find_zadd]
    by_cases hsame : token = token'
    · rw [if_pos hsame] at hseen
      obtain rfl := Option.some.inj hseen
      exact .inl (by rw [if_pos (congrArg cString hsame)])
    · rw [if_neg hsame] at hseen
      have htoken' := token_of_lastHeartbeat hused hseen
      rw [if_neg (cString_ne hdistinct ⟨htoken, hne⟩ htoken' hsame)]
      exact h.complete_mono _ hseen

include hdistinct hused in
theorem Tracks.remove {store : PresenceSet} (h : Tracks score ops store)
    (htoken : token ∈ tokens) (hne : token ≠ []) :
    Tracks score (ops++[.remove token]) (zrem store (cString token)) := by
  have hself : ∀ token', lastHeartbeat (ops++[.remove token]) token' =
      if token = token' then none else lastHeartbeat ops token' := by
    intro token'
    rw [lastHeartbeat_snoc]
    simp [PresenceOp.accepted, PresenceOp.token, PresenceOp.nowMs, hne]
  constructor
  · intro member value hfind
    obtain ⟨hmember, hold⟩ := find_zrem_eq_some_iff.mp hfind
    obtain ⟨token', seenMs, hcut, hseen, hvalue⟩ := h.sound member value hold
    have hother : token ≠ token' := by
      rintro rfl
      exact hmember hcut.symm
    exact ⟨token', seenMs, hcut, by rw [hself, if_neg hother, hseen], hvalue⟩
  · intro token' seenMs hseen
    rw [hself] at hseen
    by_cases hsame : token = token'
    · rw [if_pos hsame] at hseen
      contradiction
    · rw [if_neg hsame] at hseen
      have htoken' := token_of_lastHeartbeat hused hseen
      have hcut := cString_ne hdistinct ⟨htoken, hne⟩ htoken' hsame
      rw [find_zrem_eq_some_iff]
      rcases h.complete_mono (.remove token) hseen with hfind | hold
      · exact .inl ⟨hcut.symm, hfind⟩
      · exact .inr hold

variable (hscore : ∀ n : ℤ, |n| ≤ 2^53 → score n = n)

include hscore in
/-- Scores keep the order of the timestamps. -/
theorem score_lt_iff {a b : ℤ} (ha : |a| ≤ 2^53) (hb : |b| ≤ 2^53) :
    score a < score b ↔ a < b := by
  rw [hscore a ha, hscore b hb]
  exact Int.cast_lt

/-- Timestamps, and the cutoffs that are made of them, are exact as scores. -/
theorem stamp_small (h : Timely ops) (hmem : seenMs ∈ ops.filterMap PresenceOp.nowMs)
    (hnonneg : 0 ≤ seenMs) : |seenMs| ≤ 2^53 ∧ |seenMs-kOnlineWindowMs| ≤ 2^53 := by
  have hlt := h.2 seenMs hmem
  constructor
  · exact abs_le.mpr ⟨by linarith, le_of_lt hlt⟩
  · simp only [kOnlineWindowMs]
    exact abs_le.mpr ⟨by linarith, by linarith⟩

include hscore in
theorem Tracks.count {store : PresenceSet} (h : Tracks score ops store)
    (htimely : Timely (ops++[.count nowMs])) (hnow : 0 ≤ nowMs) :
    Tracks score (ops++[.count nowMs])
      (zremrangebyscore store (score (nowMs-kOnlineWindowMs))) := by
  have hself : ∀ token, lastHeartbeat (ops++[.count nowMs]) token = lastHeartbeat ops token := by
    intro token
    rw [lastHeartbeat_snoc]
    simp [PresenceOp.token]
  have hcutoff := (stamp_small htimely
    (mem_stamps (List.mem_append_right _ List.mem_cons_self) rfl) hnow).2
  constructor
  · intro member value hfind
    obtain ⟨-, hold⟩ := find_zremrangebyscore_eq_some_iff.mp hfind
    obtain ⟨token, seenMs, hcut, hseen, hvalue⟩ := h.sound member value hold
    exact ⟨token, seenMs, hcut, by rw [hself, hseen], hvalue⟩
  · intro token seenMs hseen
    rw [hself] at hseen
    rcases h.complete_mono (.count nowMs) hseen with hfind | hold
    · -- The member goes exactly if it is too old now.
      obtain ⟨hmem, -, hnonneg⟩ := mem_of_lastHeartbeat hseen
      have hsmall := (stamp_small htimely
        (mem_stamps (List.mem_append_left _ hmem) rfl) hnonneg).1
      by_cases hlt : nowMs-kOnlineWindowMs < seenMs
      · have hkept := (score_lt_iff hscore hcutoff hsmall).mpr hlt
        exact .inl (find_zremrangebyscore_eq_some_iff.mpr ⟨hkept, hfind⟩)
      · exact .inr ⟨nowMs, List.mem_append_right _ List.mem_cons_self, not_lt.mp hlt⟩
    · exact .inr hold

/-- An operation that the service does not pass on changes nothing. -/
theorem Tracks.refused {store : PresenceSet} (h : Tracks score ops store) (op : PresenceOp)
    (hop : op.accepted = false) : Tracks score (ops++[op]) store := by
  have hself : ∀ token, lastHeartbeat (ops++[op]) token = lastHeartbeat ops token := by
    intro token
    rw [lastHeartbeat_snoc, if_neg (by simp [hop])]
  constructor
  · intro member value hfind
    obtain ⟨token, seenMs, hcut, hseen, hvalue⟩ := h.sound member value hfind
    exact ⟨token, seenMs, hcut, by rw [hself, hseen], hvalue⟩
  · intro token seenMs hseen
    rw [hself] at hseen
    exact h.complete_mono op hseen

include hscore hdistinct in
/-- One operation after the others. -/
theorem Tracks.step {store : PresenceSet} (h : Tracks score ops store)
    (htimely : Timely (ops++[op]))
    (hused : ∀ op' ∈ ops++[op], ∀ token ∈ op'.token, token ∈ tokens) :
    Tracks score (ops++[op]) (op.apply score store) := by
  have hbefore : ∀ op' ∈ ops, ∀ token ∈ op'.token, token ∈ tokens :=
    fun op' hmem => hused op' (List.mem_append_left _ hmem)
  have hlast := hused op (List.mem_append_right _ List.mem_cons_self)
  cases op with
  | heartbeat token nowMs =>
    by_cases haccepted : token ≠ [] ∧ 0 ≤ nowMs
    · have hstep := h.heartbeat hdistinct hbefore (hlast token rfl) haccepted.1 haccepted.2
      simpa [PresenceOp.apply, PresenceService.heartbeat, RedisPresenceStore.touch, haccepted]
        using hstep
    · have hstep := h.refused (.heartbeat token nowMs) (decide_eq_false haccepted)
      simpa only [PresenceOp.apply, PresenceService.heartbeat, if_neg haccepted] using hstep
  | remove token =>
    by_cases haccepted : token ≠ []
    · have hstep := h.remove hdistinct hbefore (hlast token rfl) haccepted
      simpa [PresenceOp.apply, PresenceService.remove, RedisPresenceStore.remove, haccepted]
        using hstep
    · have hstep := h.refused (.remove token) (decide_eq_false haccepted)
      simpa only [PresenceOp.apply, PresenceService.remove, if_neg haccepted] using hstep
  | count nowMs =>
    by_cases haccepted : 0 ≤ nowMs
    · have hstep := h.count hscore htimely haccepted
      simpa only [PresenceOp.apply, PresenceService.count, if_pos haccepted,
        RedisPresenceStore.count] using hstep
    · have hstep := h.refused (.count nowMs) (decide_eq_false haccepted)
      simpa only [PresenceOp.apply, PresenceService.count, if_neg haccepted] using hstep

include hscore hdistinct in
theorem tracks_run (htimely : Timely ops)
    (hused : ∀ op ∈ ops, ∀ token ∈ op.token, token ∈ tokens) :
    Tracks score ops (run score ops) := by
  induction ops using List.reverseRecOn with
  | nil => exact .empty
  | append_singleton ops op ih =>
    have hbefore := ih (htimely.of_sublist (List.sublist_append_left ops [op]))
      (fun op' hmem => hused op' (List.mem_append_left _ hmem))
    rw [run_snoc]
    exact hbefore.step hdistinct hscore htimely hused

theorem mem_online : token ∈ online ops nowMs ↔
    ∃ seenMs, lastHeartbeat ops token = some seenMs ∧ nowMs-kOnlineWindowMs < seenMs := by
  have hany : (lastHeartbeat ops token).any (nowMs-kOnlineWindowMs < ·) = true ↔
      ∃ seenMs, lastHeartbeat ops token = some seenMs ∧ nowMs-kOnlineWindowMs < seenMs := by
    cases lastHeartbeat ops token with
    | none => simp
    | some seenMs => simp
  rw [online, List.mem_filter, hany, List.mem_dedup]
  apply and_iff_right_of_imp
  rintro ⟨seenMs, hseen, -⟩
  exact List.mem_filterMap.mpr ⟨_, (mem_of_lastHeartbeat hseen).1, rfl⟩

include hscore hdistinct in
/-- The count after operations that the store has kept track of. -/
theorem count_eq_online (htimely : Timely (ops++[.count nowMs]))
    (hused : ∀ op ∈ ops, ∀ token ∈ op.token, token ∈ tokens) :
    (count score (run score ops) nowMs).1.2 = (online ops nowMs).length := by
  have hbefore := htimely.of_sublist (List.sublist_append_left ops [.count nowMs])
  have htracks := tracks_run hdistinct hscore hbefore hused
  have hstamp : ∀ {token seenMs}, lastHeartbeat ops token = some seenMs →
      seenMs ∈ ops.filterMap PresenceOp.nowMs ∧ 0 ≤ seenMs := by
    intro token seenMs hseen
    obtain ⟨hmem, -, hnonneg⟩ := mem_of_lastHeartbeat hseen
    exact ⟨mem_stamps hmem rfl, hnonneg⟩
  by_cases hnow : 0 ≤ nowMs
  · have hcutoff := (stamp_small htimely
      (mem_stamps (List.mem_append_right _ List.mem_cons_self) rfl) hnow).2
    have hnodup : ((online ops nowMs).map cString).Nodup := by
      apply List.Nodup.map_on
      · intro token htoken token' htoken' heq
        obtain ⟨seenMs, hseen, -⟩ := mem_online.mp htoken
        obtain ⟨seenMs', hseen', -⟩ := mem_online.mp htoken'
        exact hdistinct (token_of_lastHeartbeat hused hseen)
          (token_of_lastHeartbeat hused hseen') heq
      · exact (List.nodup_dedup _).filter _
    have hmembers : ∀ member, member ∈ (online ops nowMs).map cString ↔ ∃ value,
        (zremrangebyscore (run score ops) (score (nowMs-kOnlineWindowMs))).find member =
          some value := by
      intro member
      rw [List.mem_map]
      constructor
      · rintro ⟨token, htoken, rfl⟩
        obtain ⟨seenMs, hseen, hrecent⟩ := mem_online.mp htoken
        obtain ⟨hmem, hnonneg⟩ := hstamp hseen
        have hlt := (score_lt_iff hscore hcutoff (stamp_small hbefore hmem hnonneg).1).mpr hrecent
        rcases htracks.complete token seenMs hseen with hfind | ⟨earlier, hcount, hold⟩
        · exact ⟨_, find_zremrangebyscore_eq_some_iff.mpr ⟨hlt, hfind⟩⟩
        · -- An earlier count has a lower bound.
          have hle := htimely.le_last rfl (mem_stamps hcount rfl)
          linarith
      · rintro ⟨value, hfind⟩
        obtain ⟨hlt, hold⟩ := find_zremrangebyscore_eq_some_iff.mp hfind
        obtain ⟨token, seenMs, hcut, hseen, rfl⟩ := htracks.sound member value hold
        obtain ⟨hmem, hnonneg⟩ := hstamp hseen
        have hrecent :=
          (score_lt_iff hscore hcutoff (stamp_small hbefore hmem hnonneg).1).mp hlt
        exact ⟨token, mem_online.mpr ⟨seenMs, hseen, hrecent⟩, hcut⟩
    rw [PresenceService.count, if_pos hnow]
    exact (zcard_eq_length hnodup hmembers).trans (List.length_map cString)
  · have hnone : online ops nowMs = [] := by
      apply List.eq_nil_iff_forall_not_mem.mpr
      intro token htoken
      obtain ⟨seenMs, hseen, -⟩ := mem_online.mp htoken
      obtain ⟨hmem, hnonneg⟩ := hstamp hseen
      have hle := htimely.le_last rfl hmem
      linarith
    rw [PresenceService.count, if_neg hnow, hnone]
    rfl

theorem online_filter (ops : List PresenceOp) (nowMs : ℤ) :
    (online (ops.filter (!isCount ·)) nowMs).length = (online ops nowMs).length := by
  have htokens : (ops.filter (!isCount ·)).filterMap PresenceOp.token =
      ops.filterMap PresenceOp.token := by
    rw [List.filterMap_filter]
    apply List.filterMap_congr
    intro op _
    cases op with
    | heartbeat token nowMs => rfl
    | remove token => rfl
    | count nowMs => rfl
  have hlast : ∀ token, lastHeartbeat (ops.filter (!isCount ·)) token =
      lastHeartbeat ops token := by
    intro token
    clear htokens
    induction ops using List.reverseRecOn with
    | nil => rfl
    | append_singleton ops op ih =>
      rw [List.filter_append, lastHeartbeat_snoc]
      cases op with
      | heartbeat token' nowMs =>
        rw [← ih]
        exact lastHeartbeat_snoc _ _ _
      | remove token' =>
        rw [← ih]
        exact lastHeartbeat_snoc _ _ _
      | count nowMs =>
        rw [if_neg (by simp [PresenceOp.token]), ← ih]
        exact congrArg (lastHeartbeat · token) (List.append_nil _)
  rw [online, online, htokens]
  simp only [hlast]

include hscore hdistinct in
theorem countsOnline (htimely : Timely (ops++[.count nowMs]))
    (hused : ∀ op ∈ ops, ∀ token ∈ op.token, token ∈ tokens) :
    CountsOnline score ops nowMs := by
  have hcount := count_eq_online hdistinct hscore htimely hused
  have hsub : (ops.filter (!isCount ·)).Sublist ops := List.filter_sublist
  have hfiltered := count_eq_online hdistinct hscore
    (htimely.of_sublist (hsub.append_right [.count nowMs]))
    (fun op hmem => hused op (hsub.subset hmem))
  exact ⟨hcount, by rw [hfiltered, online_filter, hcount]⟩

include hscore in
/-- Two tokens that agree up to the first NUL of either are one member of the set. -/
theorem not_countsOnline {token' : Bytes} (htoken : token ≠ []) (htoken' : token' ≠ [])
    (hne : token ≠ token') (hcut : cString token = cString token') :
    ¬ CountsOnline score [.heartbeat token 0, .heartbeat token' 0] 0 := by
  have hlt : score (0-kOnlineWindowMs) < score 0 :=
    (score_lt_iff hscore (by decide) (by decide)).mpr (by decide)
  have hstore : run score [.heartbeat token 0, .heartbeat token' 0] =
      zadd (zadd .empty (score 0) (cString token)) (score 0) (cString token) := by
    simp [run, PresenceOp.apply, heartbeat, RedisPresenceStore.touch, htoken, htoken', hcut]
  have hcount : (count score (run score [.heartbeat token 0, .heartbeat token' 0]) 0).1.2 = 1 := by
    rw [hstore, count, if_pos (le_refl 0)]
    refine zcard_eq_length (List.nodup_singleton (cString token)) ?_
    intro member
    simp only [find_zremrangebyscore_eq_some_iff, find_zadd, List.mem_singleton]
    by_cases hmember : cString token = member
    · exact iff_of_true hmember.symm ⟨score 0, hlt, if_pos hmember⟩
    · simp [hmember, Ne.symm hmember]
  have honline : online [.heartbeat token 0, .heartbeat token' 0] 0 = [token, token'] := by
    simp [online, lastHeartbeat, PresenceOp.token, PresenceOp.nowMs, PresenceOp.accepted,
      kOnlineWindowMs, htoken, htoken', hne, Ne.symm hne, List.dedup_cons_of_notMem]
  intro h
  have hlength := hcount.symm.trans h.1
  rw [honline] at hlength
  exact absurd hlength (by simp)

/-- Every count is right, whatever is done with these tokens, exactly where no two of them agree
up to the first NUL of either. -/
theorem counts_exact_iff {score : ℤ → ℚ} (hscore : ∀ n : ℤ, |n| ≤ 2^53 → score n = n)
    (tokens : Set Bytes) :
    (∀ ops nowMs, Timely (ops++[.count nowMs]) →
      (∀ op ∈ ops, ∀ token ∈ op.token, token ∈ tokens) → CountsOnline score ops nowMs) ↔
    Set.InjOn cString {token | token ∈ tokens ∧ token ≠ []} := by
  constructor
  · intro h token htoken token' htoken' hcut
    by_contra hne
    have htimely : Timely ([.heartbeat token 0, .heartbeat token' 0]++[.count 0]) := by
      constructor
      · simp [PresenceOp.nowMs]
      · simp [PresenceOp.nowMs]
    have hexact := h [.heartbeat token 0, .heartbeat token' 0] 0 htimely (by
      simp [PresenceOp.token, htoken.1, htoken'.1])
    exact not_countsOnline hscore htoken.2 htoken'.2 hne hcut hexact
  · intro hdistinct ops nowMs htimely hused
    exact countsOnline hdistinct hscore htimely hused

/-- Two visitors, of whom one is gone and comes back. -/
theorem counts_exact_returning :
    CountsOnline (fun n => n) [.heartbeat (ascii "a") 0, .heartbeat (ascii "b") 10, .count 60000,
      .remove (ascii "b"), .heartbeat (ascii "a") 60000] 60010 := by
  apply (counts_exact_iff (fun n _ => rfl) {ascii "a", ascii "b"}).mpr
  · rintro token ⟨rfl | rfl, -⟩ token' ⟨rfl | rfl, -⟩ hcut
    · rfl
    · exact absurd hcut (by decide)
    · exact absurd hcut (by decide)
    · rfl
  · exact ⟨by decide, by decide⟩
  · simp [PresenceOp.token]

/-- `a` and `a` with a NUL behind it: two tokens are online, and the count is one. -/
theorem counts_merged :
    Timely ([.heartbeat [97] 0, .heartbeat [97, 0] 0]++[.count 0]) ∧
      ¬ CountsOnline (fun n => n) [.heartbeat [97] 0, .heartbeat [97, 0] 0] 0 :=
  ⟨⟨by decide, by decide⟩,
    not_countsOnline (fun n _ => rfl) (by decide) (by decide) (by decide) (by decide)⟩

end JingjieAR.PresenceService
