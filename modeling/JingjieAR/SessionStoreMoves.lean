import JingjieAR.SessionStoreModel

/-! The stages of `find` and `revoke` by the branches they take, and what a single stage
can do to the table, to the cache and to the sessions in the hands of the calls. -/
namespace JingjieAR.CachedSessionStore

/-- The session that a find has read from the table and may still write to the cache. -/
def FindStage.Holds (stage : FindStage) (copy : Session) : Prop :=
  stage = .fetched copy ∨ stage = .storing copy

/-- The result that a find has got, handed over or not. -/
def FindStage.Answer (stage : FindStage) (session : Option Session) : Prop :=
  stage = .answering session ∨ stage = .done session

/-- What a stage of `find` does, by the branch it takes. -/
inductive FindMove (cfg : StoreConfig) (token : Bytes) (st : Stores) :
    FindStage → FindStage → Stores → Prop
  | refused : FindMove cfg token st .idle (.answering none) st
  | uncached : FindMove cfg token st .idle (.readingDurable true) st
  | queued (hc : cfg.cached = true) : FindMove cfg token st .idle .queued st
  | hit {e : Session} (he : st.cache token = some e) :
      FindMove cfg token st .queued (.answering (some e)) st
  | miss : FindMove cfg token st .queued (.readingDurable false) st
  | absent {direct : Bool} :
      FindMove cfg token st (.readingDurable direct) (.answering none) st
  | directRow {e : Session} (he : SessionDAO.newest cfg.collate st.rows token = some e) :
      FindMove cfg token st (.readingDurable true) (.answering (some e)) st
  | row {e : Session} (he : SessionDAO.newest cfg.collate st.rows token = some e) :
      FindMove cfg token st (.readingDurable false) (.fetched e) st
  | resubmitted {copy : Session} : FindMove cfg token st (.fetched copy) (.storing copy) st
  | rejected {copy : Session} : FindMove cfg token st (.fetched copy) (.answering none) st
  | ended {copy : Session} {answer : Option Session} {cache : SessionCache}
      (h0 : copy.status = 0) (ha : answer = none ∨ answer = some copy)
      (hc : cache = st.cache ∨ cache = Function.update st.cache copy.sessionToken (some copy)) :
      FindMove cfg token st (.storing copy) (.answering answer) { st with cache := cache }
  | inserted {copy : Session} (h0 : copy.status ≠ 0) (hn : st.cache copy.sessionToken = none) :
      FindMove cfg token st (.storing copy) (.answering (some copy))
        { st with cache := Function.update st.cache copy.sessionToken (some copy) }
  | contested {copy : Session} {cache : SessionCache} (h0 : copy.status ≠ 0)
      (hc : cache = st.cache ∨ (st.cache copy.sessionToken = none ∧
        cache = Function.update st.cache copy.sessionToken (some copy))) :
      FindMove cfg token st (.storing copy) .contested { st with cache := cache }
  | winner {e : Session} (he : st.cache token = some e) :
      FindMove cfg token st .contested (.answering (some e)) st
  | noWinner : FindMove cfg token st .contested (.answering none) st
  | replied {answer : Option Session} :
      FindMove cfg token st (.answering answer) (.done answer) st

theorem get_eq_some {cache : SessionCache} {token : Bytes} {result : CommandResult} {e : Session}
    (h : cache.get token result = some e) : cache token = some e := by
  cases result with
  | replied => exact h
  | lost => contradiction
  | unreached => contradiction

theorem findSessionByToken_eq_some {collate : Bytes → Bytes} {rows : List Session} {token : Bytes}
    {result : CommandResult} {e : Session}
    (h : SessionDAO.findSessionByToken collate rows token result = some e) :
    SessionDAO.newest collate rows token = some e := by
  cases result with
  | replied => exact h
  | lost => contradiction
  | unreached => contradiction

/-- A put answers `true` only if it was carried out. -/
theorem put_spec (cache : SessionCache) (session : Session) (result : CommandResult) :
    ((cache.put session result).2 = cache ∨
      (cache.put session result).2 =
        Function.update cache session.sessionToken (some session)) ∧
    ((cache.put session result).1 = true →
      (cache.put session result).2 =
        Function.update cache session.sessionToken (some session)) := by
  cases result with
  | replied => exact ⟨.inr rfl, fun _ => rfl⟩
  | lost => exact ⟨.inr rfl, fun h => absurd h Bool.false_ne_true⟩
  | unreached => exact ⟨.inl rfl, fun h => absurd h Bool.false_ne_true⟩

theorem putIfAbsent_spec (cache : SessionCache) (session : Session) (result : CommandResult) :
    ((cache.putIfAbsent session result).2 = cache ∨
      (cache session.sessionToken = none ∧ (cache.putIfAbsent session result).2 =
        Function.update cache session.sessionToken (some session))) ∧
    ((cache.putIfAbsent session result).1 = true →
      cache session.sessionToken = none ∧ (cache.putIfAbsent session result).2 =
        Function.update cache session.sessionToken (some session)) := by
  obtain ⟨hcache, htrue⟩ := put_spec cache session result
  unfold SessionCache.putIfAbsent
  cases hn : cache session.sessionToken with
  | some e => exact ⟨.inl rfl, fun h => absurd h Bool.false_ne_true⟩
  | none => exact ⟨hcache.imp id (fun hc => ⟨rfl, hc⟩), fun h => ⟨rfl, htrue h⟩⟩

theorem findMove_storing {cfg : StoreConfig} {token : Bytes} {st st' : Stores} {copy : Session}
    {stage : FindStage} {result : CommandResult}
    (h : findStage cfg token st (.storing copy) (.writeCache result) = some (stage, st')) :
    FindMove cfg token st (.storing copy) stage st' := by
  -- The two writes of the source, by the status of the copy.
  obtain ⟨hput, -⟩ := put_spec st.cache copy result
  obtain ⟨hnx, htrue⟩ := putIfAbsent_spec st.cache copy result
  simp only [findStage] at h
  split_ifs at h with h0 hp hp
  · cases h
    exact .ended h0 (.inr rfl) hput
  · cases h
    exact .ended h0 (.inl rfl) hput
  · cases h
    obtain ⟨hn, hcache⟩ := htrue hp
    rw [hcache]
    exact .inserted h0 hn
  · cases h
    exact .contested h0 hnx

theorem findMove_of_findStage {cfg : StoreConfig} {token : Bytes} {st st' : Stores}
    {stage stage' : FindStage} {action : FindAction}
    (h : findStage cfg token st stage action = some (stage', st')) :
    FindMove cfg token st stage stage' st' := by
  -- One case for each stage with an action that it accepts.
  unfold findStage at h
  split at h
  · split_ifs at h with hd hc ha
    · cases h; exact .refused
    · cases h; exact .uncached
    · cases h; exact .queued (by simpa using hc)
    · cases h; exact .refused
  · split at h
    · rename_i e he
      cases h; exact .hit (get_eq_some he)
    · cases h; exact .miss
  · rename_i direct result
    split at h
    · cases h; exact .absent
    · rename_i e he
      cases direct with
      | true => cases h; exact .directRow (findSessionByToken_eq_some he)
      | false => cases h; exact .row (findSessionByToken_eq_some he)
  · split_ifs at h
    · cases h; exact .resubmitted
    · cases h; exact .rejected
  · exact findMove_storing h
  · rename_i result
    cases he : st.cache.get token result with
    | some e => rw [he] at h; cases h; exact .winner (get_eq_some he)
    | none => rw [he] at h; cases h; exact .noWinner
  · cases h; exact .replied
  · contradiction

def FindStage.UsesCache : FindStage → Prop
  | .queued => True
  | .contested => True
  | .storing _ => True
  | .fetched _ => True
  | .readingDurable direct => direct = false
  | _ => False

/-- The durable revoke has reported success. -/
def RevokeStage.PastUpdate (stage : RevokeStage) : Prop :=
  stage = .updated ∨ stage = .burying ∨ stage = .answering true ∨ stage = .done true

def RevokeStage.Succeeded (stage : RevokeStage) : Prop :=
  stage = .answering true ∨ stage = .done true

theorem RevokeStage.Succeeded.pastUpdate {stage : RevokeStage} (h : stage.Succeeded) :
    stage.PastUpdate := .inr (.inr h)

theorem newest_mem {collate : Bytes → Bytes} {rows : List Session} {token : Bytes} {e : Session}
    (h : SessionDAO.newest collate rows token = some e) :
    e ∈ rows ∧ collate e.sessionToken = collate token := by
  have hmem := List.argmax_mem h
  simpa [SessionDAO.ofToken] using hmem

section FindSteps

variable {cfg : StoreConfig} {token : Bytes} {st st' : Stores} {stage stage' : FindStage}

theorem FindMove.rows_eq (h : FindMove cfg token st stage stage' st') : st'.rows = st.rows := by
  cases h <;> rfl

/-- A session held after a move was held before it or has just been read. -/
theorem FindMove.holds (h : FindMove cfg token st stage stage' st') {copy : Session}
    (hc : stage'.Holds copy) :
    stage.Holds copy ∨ SessionDAO.newest cfg.collate st.rows token = some copy := by
  cases h with
  | row he =>
    rcases hc with hc | hc
    · cases hc
      exact .inr he
    · contradiction
  | resubmitted =>
    rcases hc with hc | hc
    · contradiction
    · cases hc
      exact .inl (.inl rfl)
  | _ => rcases hc with hc | hc <;> contradiction

theorem FindMove.usesCache (h : FindMove cfg token st stage stage' st') (hu : stage'.UsesCache) :
    stage.UsesCache ∨ cfg.cached = true := by
  cases h with
  | queued hc => exact .inr hc
  | uncached => exact absurd hu Bool.noConfusion
  | miss => exact .inl trivial
  | row => exact .inl rfl
  | resubmitted => exact .inl trivial
  | contested => exact .inl trivial
  | _ => exact hu.elim

/-- A find writes an ended session, or a living one where the cache has none. -/
theorem FindMove.cache_eq (h : FindMove cfg token st stage stage' st') :
    st'.cache = st.cache ∨ ∃ copy, stage.Holds copy ∧
      (copy.status = 0 ∨ st.cache copy.sessionToken = none) ∧
      st'.cache = Function.update st.cache copy.sessionToken (some copy) := by
  cases h with
  -- The three branches that write; a failed command may have been carried out.
  | ended h0 ha hc => exact hc.imp id (fun hc => ⟨_, .inr rfl, .inl h0, hc⟩)
  | inserted h0 hn => exact .inr ⟨_, .inr rfl, .inr hn, rfl⟩
  | contested h0 hc => exact hc.imp id (fun hc => ⟨_, .inr rfl, .inr hc.1, hc.2⟩)
  | _ => exact .inl rfl

/-- Where a living or ended session that a find reports comes from. -/
theorem FindMove.answer (h : FindMove cfg token st stage stage' st') {e : Session}
    (ha : stage'.Answer (some e)) :
    stage.Answer (some e) ∨ (stage.UsesCache ∧ st.cache token = some e) ∨
      SessionDAO.newest cfg.collate st.rows token = some e ∨
      (stage.UsesCache ∧ stage.Holds e ∧ (e.status = 0 ∨ st.cache e.sessionToken = none)) := by
  cases h with
  | hit hc =>
    obtain rfl : _ = e := by simpa [FindStage.Answer] using ha
    exact .inr (.inl ⟨trivial, hc⟩)
  | winner hc =>
    obtain rfl : _ = e := by simpa [FindStage.Answer] using ha
    exact .inr (.inl ⟨trivial, hc⟩)
  | directRow hc =>
    obtain rfl : _ = e := by simpa [FindStage.Answer] using ha
    exact .inr (.inr (.inl hc))
  | ended h0 hor =>
    rcases hor with rfl | rfl
    · simp [FindStage.Answer] at ha
    · obtain rfl : _ = e := by simpa [FindStage.Answer] using ha
      exact .inr (.inr (.inr ⟨trivial, .inr rfl, .inl h0⟩))
  | inserted h0 hn =>
    obtain rfl : _ = e := by simpa [FindStage.Answer] using ha
    exact .inr (.inr (.inr ⟨trivial, .inr rfl, .inr hn⟩))
  | replied =>
    rcases ha with ha | ha
    · contradiction
    · cases ha
      exact .inl (.inl rfl)
  | _ => simp [FindStage.Answer] at ha

end FindSteps

/-- What a stage of `revoke` does, by the branch it takes. -/
inductive RevokeMove (cfg : StoreConfig) (token : Bytes) (st : Stores) :
    RevokeStage → RevokeStage → Stores → Prop
  | refused : RevokeMove cfg token st .idle (.answering false) st
  | called : RevokeMove cfg token st .idle .updating st
  | updateFailed {now : Bytes} {result : CommandResult} :
      RevokeMove cfg token st .updating (.answering false)
        { st with rows := (SessionDAO.revokeSession cfg.collate st.rows token now result).2 }
  | uncached {now : Bytes} (hc : cfg.cached = false) :
      RevokeMove cfg token st .updating (.answering true)
        { st with rows := (SessionDAO.revokeSession cfg.collate st.rows token now .replied).2 }
  | updated {now : Bytes} :
      RevokeMove cfg token st .updating .updated
        { st with rows := (SessionDAO.revokeSession cfg.collate st.rows token now .replied).2 }
  | submitted : RevokeMove cfg token st .updated .burying st
  | rejected : RevokeMove cfg token st .updated (.answering false) st
  | buried : RevokeMove cfg token st .burying (.answering true)
      { st with cache := Function.update st.cache token (some (tombstone token)) }
  | buryFailed {cache : SessionCache}
      (hc : cache = st.cache ∨ cache = Function.update st.cache token (some (tombstone token))) :
      RevokeMove cfg token st .burying (.answering false) { st with cache := cache }
  | replied {ok : Bool} : RevokeMove cfg token st (.answering ok) (.done ok) st

theorem revokeMove_of_revokeStage {cfg : StoreConfig} {token : Bytes} {st st' : Stores}
    {stage stage' : RevokeStage} {action : RevokeAction}
    (h : revokeStage cfg token st stage action = some (stage', st')) :
    RevokeMove cfg token st stage stage' st' := by
  unfold revokeStage at h
  split at h
  · split_ifs at h
    · cases h; exact .refused
    · cases h; exact .called
  · rename_i now result
    cases result with
    | replied =>
      by_cases hc : cfg.cached = true
      · simp only [SessionDAO.revokeSession, SessionDAO.update, hc] at h
        cases h; exact .updated
      · rw [Bool.not_eq_true] at hc
        simp only [SessionDAO.revokeSession, SessionDAO.update, hc] at h
        cases h; exact .uncached hc
    | lost => cases h; exact .updateFailed
    | unreached => cases h; exact .updateFailed
  · split_ifs at h
    · cases h; exact .submitted
    · cases h; exact .rejected
  · rename_i result
    cases result with
    | replied => cases h; exact .buried
    | lost => cases h; exact .buryFailed (.inr rfl)
    | unreached => cases h; exact .buryFailed (.inl rfl)
  · cases h; exact .replied
  · contradiction

/-- An executed revoke ends every living row of the token. -/
theorem mem_revokeSession {collate : Bytes → Bytes} {rows : List Session} {token now : Bytes}
    {result : CommandResult} {r : Session}
    (h : r ∈ (SessionDAO.revokeSession collate rows token now result).2)
    (ht : collate r.sessionToken = collate token) :
    r.status = 0 ∨ (r ∈ rows ∧ (result = .unreached ∨ r.status ≠ 1)) := by
  have hmap (h : r ∈ (SessionDAO.revokeSession collate rows token now .replied).2) :
      r.status = 0 ∨ (r ∈ rows ∧ r.status ≠ 1) := by
    obtain ⟨q, hq, rfl⟩ := List.mem_map.mp h
    -- Either the statement has matched the row, or the row is as it was.
    by_cases hp : collate q.sessionToken = collate token ∧ q.status = 1
    · simp [SessionDAO.ofToken, hp]
    · have hno : (SessionDAO.ofToken collate token q && decide (q.status = 1)) = false := by
        simpa [SessionDAO.ofToken] using hp
      simp only [hno, Bool.false_eq_true, ↓reduceIte] at ht ⊢
      exact .inr ⟨hq, fun h1 => hp ⟨ht, h1⟩⟩
  cases result with
  | replied => exact (hmap h).imp id (fun hr => ⟨hr.1, .inr hr.2⟩)
  | lost => exact (hmap h).imp id (fun hr => ⟨hr.1, .inr hr.2⟩)
  | unreached => exact .inr ⟨h, .inl rfl⟩

section RevokeSteps

variable {cfg : StoreConfig} {token : Bytes} {st st' : Stores} {stage stage' : RevokeStage}

theorem RevokeMove.rows_eq (h : RevokeMove cfg token st stage stage' st') :
    st'.rows = st.rows ∨
      ∃ now result,
        st'.rows = (SessionDAO.revokeSession cfg.collate st.rows token now result).2 := by
  cases h with
  | updateFailed => exact .inr ⟨_, _, rfl⟩
  | uncached hc => exact .inr ⟨_, _, rfl⟩
  | updated => exact .inr ⟨_, _, rfl⟩
  | _ => exact .inl rfl

theorem RevokeMove.cache_eq (h : RevokeMove cfg token st stage stage' st') :
    st'.cache = st.cache ∨
      st'.cache = Function.update st.cache token (some (tombstone token)) := by
  cases h with
  | buried => exact .inr rfl
  | buryFailed hc => exact hc
  | _ => exact .inl rfl

/-- A revoke gets past its update with all rows revoked. -/
theorem RevokeMove.pastUpdate (h : RevokeMove cfg token st stage stage' st')
    (hp : stage'.PastUpdate) :
    stage.PastUpdate ∨
      ∃ now, st'.rows = (SessionDAO.revokeSession cfg.collate st.rows token now .replied).2 := by
  cases h with
  | uncached hc => exact .inr ⟨_, rfl⟩
  | updated => exact .inr ⟨_, rfl⟩
  | submitted => exact .inl (.inl rfl)
  | buried => exact .inl (.inr (.inl rfl))
  | replied => exact .inl (by simpa [RevokeStage.PastUpdate] using hp)
  | _ => simp [RevokeStage.PastUpdate] at hp

/-- A revoke succeeds with the tombstone written, if there is a cache. -/
theorem RevokeMove.succeeded (h : RevokeMove cfg token st stage stage' st')
    (hp : stage'.Succeeded) : stage.Succeeded ∨ cfg.cached = false ∨
      st'.cache = Function.update st.cache token (some (tombstone token)) := by
  cases h with
  | uncached hc => exact .inr (.inl hc)
  | buried => exact .inr (.inr rfl)
  | replied => exact .inl (by simpa [RevokeStage.Succeeded] using hp)
  | _ => simp [RevokeStage.Succeeded] at hp

end RevokeSteps

end JingjieAR.CachedSessionStore
