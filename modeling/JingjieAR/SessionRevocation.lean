import JingjieAR.SessionStoreMoves
import JingjieAR.TransitionRuns

/-! Any number of `find` and `revoke` calls on one token, their stages interleaved in any
way. A revoke that has answered `true` has left the table revoked and a tombstone in the
cache, and no find can put an older session in its place. -/
namespace JingjieAR.CachedSessionStore

open Runs (Run)

/-- The calls by number, with the stores they share. -/
structure StoreSystem where
  finds : ℕ → FindStage
  revokes : ℕ → RevokeStage
  stores : Stores

inductive StoreAction
  | find (i : ℕ) (action : FindAction)
  | revoke (j : ℕ) (action : RevokeAction)
  -- the cache entry of the token reaches the end of its life
  | expire
deriving DecidableEq

/-- An entry does not expire while a find is between its durable read and its
`putIfAbsent`. -/
def StoreSystem.step (cfg : StoreConfig) (token : Bytes) (s : StoreSystem) (a : StoreAction)
    (s' : StoreSystem) : Prop :=
  match a with
  | .find i action => ∃ stage st,
      findStage cfg token s.stores (s.finds i) action = some (stage, st) ∧
      s' = { s with finds := Function.update s.finds i stage, stores := st }
  | .revoke j action => ∃ stage st,
      revokeStage cfg token s.stores (s.revokes j) action = some (stage, st) ∧
      s' = { s with revokes := Function.update s.revokes j stage, stores := st }
  | .expire => (∀ i copy, ¬(s.finds i).Holds copy) ∧
      s' = { s with stores :=
        { s.stores with cache := Function.update s.stores.cache token none } }

/-- No call has been made. -/
def StoreSystem.start (st : Stores) : StoreSystem := ⟨fun _ => .idle, fun _ => .idle, st⟩

/-- A row found for the token carries exactly that token. -/
def Exact (cfg : StoreConfig) (token : Bytes) (rows : List Session) : Prop :=
  ∀ r ∈ rows, cfg.collate r.sessionToken = cfg.collate token → r.sessionToken = token

/-- All rows of the token are revoked. -/
def RowsRevoked (token : Bytes) (rows : List Session) : Prop :=
  ∀ r ∈ rows, r.sessionToken = token → r.status = 0

/-- The cache has a tombstone for the token, or has nothing and will get nothing alive:
no find holds a session read before the revoke. -/
structure Buried (token : Bytes) (s : StoreSystem) : Prop where
  entry : ∀ e, s.stores.cache token = some e → e.status = 0
  copies : s.stores.cache token = none → ∀ i copy, (s.finds i).Holds copy → copy.status = 0

/-- The invariant of the system. -/
structure Sound (cfg : StoreConfig) (token : Bytes) (s : StoreSystem) : Prop where
  exactly : Exact cfg token s.stores.rows
  rows : ∀ r ∈ s.stores.rows, r.sessionToken = token → r.status = 0 ∨ r.status = 1
  copies : ∀ i copy, (s.finds i).Holds copy → copy.sessionToken = token
  stages : ∀ i, (s.finds i).UsesCache → cfg.cached = true
  revoked : ∀ j, (s.revokes j).PastUpdate → RowsRevoked token s.stores.rows
  buried : cfg.cached = true → ∀ j, (s.revokes j).Succeeded → Buried token s

theorem Exact.newest {cfg : StoreConfig} {token : Bytes} {rows : List Session} {e : Session}
    (h : Exact cfg token rows) (he : SessionDAO.newest cfg.collate rows token = some e) :
    e ∈ rows ∧ e.sessionToken = token := by
  obtain ⟨hmem, ht⟩ := newest_mem he
  exact ⟨hmem, h e hmem ht⟩

/-- A revoke leaves the tokens of the rows alone. -/
theorem Exact.revokeSession {cfg : StoreConfig} {token now : Bytes} {rows : List Session}
    {result : CommandResult} (h : Exact cfg token rows) :
    Exact cfg token (SessionDAO.revokeSession cfg.collate rows token now result).2 := by
  suffices hmap :
      Exact cfg token (SessionDAO.revokeSession cfg.collate rows token now .replied).2 by
    cases result with
    | replied => exact hmap
    | lost => exact hmap
    | unreached => exact h
  intro r hr ht
  obtain ⟨q, hq, rfl⟩ := List.mem_map.mp hr
  split_ifs at ht ⊢
  · exact h q hq ht
  · exact h q hq ht

/-- The system after a stage of find `i`. -/
theorem Sound.find {cfg : StoreConfig} {token : Bytes} {s : StoreSystem} {i : ℕ}
    {stage : FindStage} {st : Stores} (h : Sound cfg token s)
    (hm : FindMove cfg token s.stores (s.finds i) stage st) :
    Sound cfg token { s with finds := Function.update s.finds i stage, stores := st } := by
  -- Copies are taken from the table or handed on, never made up.
  have hholds (k : ℕ) (copy : Session) (hk : (Function.update s.finds i stage k).Holds copy) :
      (∃ k, (s.finds k).Holds copy) ∨
        SessionDAO.newest cfg.collate s.stores.rows token = some copy := by
    by_cases hki : k = i
    · subst hki
      rw [Function.update_self] at hk
      exact (hm.holds hk).imp (fun ho => ⟨k, ho⟩) id
    · rw [Function.update_of_ne hki] at hk
      exact .inl ⟨k, hk⟩
  refine ⟨?_, ?_, ?_, ?_, ?_, ?_⟩
  · rw [hm.rows_eq]
    exact h.exactly
  · rw [hm.rows_eq]
    exact h.rows
  · intro k copy hk
    rcases hholds k copy hk with ⟨k', ho⟩ | hnew
    · exact h.copies k' copy ho
    · exact (h.exactly.newest hnew).2
  · apply (Function.forall_update_iff s.finds
      (fun _ stage => stage.UsesCache → cfg.cached = true)).mpr
    refine ⟨?_, fun k _ => h.stages k⟩
    intro hu
    rcases hm.usesCache hu with hold | hc
    · exact h.stages i hold
    · exact hc
  · rw [hm.rows_eq]
    exact h.revoked
  · intro hcached j hj
    have hb := h.buried hcached j hj
    have hrows := h.revoked j hj.pastUpdate
    -- With an empty cache only ended sessions are in the hands of finds.
    have hended (hn : s.stores.cache token = none) (k : ℕ) (copy : Session)
        (hk : (Function.update s.finds i stage k).Holds copy) : copy.status = 0 := by
      rcases hholds k copy hk with ⟨k', ho⟩ | hnew
      · exact hb.copies hn k' copy ho
      · exact hrows copy (h.exactly.newest hnew).1 (h.exactly.newest hnew).2
    rcases hm.cache_eq with heq | ⟨copy, ho, hfree, heq⟩
    · refine ⟨?_, ?_⟩
      · rw [heq]
        exact hb.entry
      · rw [heq]
        exact hended
    -- The find writes: its copy has ended, or the entry was free and then all copies have.
    · have htoken := h.copies i copy ho
      have hcopy : copy.status = 0 := by
        rcases hfree with h0 | hn
        · exact h0
        · rw [htoken] at hn
          exact hb.copies hn i copy ho
      refine ⟨?_, ?_⟩
      · intro e he
        rw [heq, htoken, Function.update_self] at he
        cases he
        exact hcopy
      · intro hn
        rw [heq, htoken, Function.update_self] at hn
        contradiction

theorem RowsRevoked.revokeSession {collate : Bytes → Bytes} {rows : List Session}
    {token now : Bytes} {result : CommandResult} (h : RowsRevoked token rows) :
    RowsRevoked token (SessionDAO.revokeSession collate rows token now result).2 := by
  intro r hr ht
  rcases mem_revokeSession hr (congrArg collate ht) with h0 | ⟨hmem, -⟩
  · exact h0
  · exact h r hmem ht

theorem rowsRevoked_of_replied {collate : Bytes → Bytes} {rows : List Session} {token now : Bytes}
    (h : ∀ r ∈ rows, r.sessionToken = token → r.status = 0 ∨ r.status = 1) :
    RowsRevoked token (SessionDAO.revokeSession collate rows token now .replied).2 := by
  intro r hr ht
  rcases mem_revokeSession hr (congrArg collate ht) with h0 | ⟨hmem, hu | h1⟩
  · exact h0
  · contradiction
  · exact (h r hmem ht).resolve_right h1

theorem Sound.revoke {cfg : StoreConfig} {token : Bytes} {s : StoreSystem} {j : ℕ}
    {stage : RevokeStage} {st : Stores} (h : Sound cfg token s)
    (hm : RevokeMove cfg token s.stores (s.revokes j) stage st) :
    Sound cfg token { s with revokes := Function.update s.revokes j stage, stores := st } := by
  have hkeep (hr : RowsRevoked token s.stores.rows) : RowsRevoked token st.rows := by
    rcases hm.rows_eq with heq | ⟨now, result, heq⟩
    · rwa [heq]
    · rw [heq]
      exact hr.revokeSession
  -- A tombstone is as good as the one before.
  have hbury (hc : st.cache = Function.update s.stores.cache token (some (tombstone token))) :
      Buried token { s with revokes := Function.update s.revokes j stage, stores := st } := by
    refine ⟨?_, ?_⟩
    · intro e he
      simp only [hc, Function.update_self] at he
      cases he
      rfl
    · intro hn
      simp only [hc, Function.update_self] at hn
      contradiction
  have hstill (hb : Buried token s) :
      Buried token { s with revokes := Function.update s.revokes j stage, stores := st } := by
    rcases hm.cache_eq with heq | heq
    · refine ⟨?_, ?_⟩
      · rw [heq]
        exact hb.entry
      · rw [heq]
        exact hb.copies
    · exact hbury heq
  refine ⟨?_, ?_, h.copies, h.stages, ?_, ?_⟩
  · rcases hm.rows_eq with heq | ⟨now, result, heq⟩
    · rw [heq]
      exact h.exactly
    · rw [heq]
      exact h.exactly.revokeSession
  -- A revoke changes the status of its rows to 0 only.
  · intro r hr ht
    rcases hm.rows_eq with heq | ⟨now, result, heq⟩
    · exact h.rows r (heq ▸ hr) ht
    · simp only [heq] at hr
      rcases mem_revokeSession hr (congrArg cfg.collate ht) with h0 | ⟨hmem, -⟩
      · exact .inl h0
      · exact h.rows r hmem ht
  · apply (Function.forall_update_iff s.revokes
      (fun _ stage => stage.PastUpdate → RowsRevoked token st.rows)).mpr
    refine ⟨?_, fun k _ hk => hkeep (h.revoked k hk)⟩
    intro hp
    -- Past the update before, or by this very statement.
    rcases hm.pastUpdate hp with hp' | ⟨now, heq⟩
    · exact hkeep (h.revoked j hp')
    · rw [heq]
      exact rowsRevoked_of_replied h.rows
  · intro hcached
    apply (Function.forall_update_iff s.revokes (fun _ stage' => stage'.Succeeded →
      Buried token { s with revokes := Function.update s.revokes j stage, stores := st })).mpr
    refine ⟨?_, fun k _ hk => hstill (h.buried hcached k hk)⟩
    intro hp
    rcases hm.succeeded hp with hp' | hno | heq
    · exact hstill (h.buried hcached j hp')
    · rw [hcached] at hno
      contradiction
    · exact hbury heq

theorem Sound.expire {cfg : StoreConfig} {token : Bytes} {s : StoreSystem}
    (h : Sound cfg token s) (hidle : ∀ i copy, ¬(s.finds i).Holds copy) :
    Sound cfg token { s with stores :=
      { s.stores with cache := Function.update s.stores.cache token none } } := by
  refine ⟨h.exactly, h.rows, h.copies, h.stages, h.revoked, ?_⟩
  intro hcached j hj
  -- After the tombstone is gone nobody holds an older copy.
  refine ⟨?_, ?_⟩
  · intro e he
    simp at he
  · intro _ i copy hc
    exact absurd hc (hidle i copy)

theorem Sound.step {cfg : StoreConfig} {token : Bytes} {s s' : StoreSystem} {a : StoreAction}
    (h : Sound cfg token s) (hs : StoreSystem.step cfg token s a s') : Sound cfg token s' := by
  cases a with
  | find i action =>
    obtain ⟨stage, st, hst, rfl⟩ := hs
    exact h.find (findMove_of_findStage hst)
  | revoke j action =>
    obtain ⟨stage, st, hst, rfl⟩ := hs
    exact h.revoke (revokeMove_of_revokeStage hst)
  | expire =>
    obtain ⟨hidle, rfl⟩ := hs
    exact h.expire hidle

theorem sound_start {cfg : StoreConfig} {token : Bytes} {st : Stores}
    (hexact : Exact cfg token st.rows)
    (h : ∀ r ∈ st.rows, r.sessionToken = token → r.status = 0 ∨ r.status = 1) :
    Sound cfg token (StoreSystem.start st) where
  exactly := hexact
  rows := h
  copies i copy hc := by rcases hc with hc | hc <;> contradiction
  stages i hu := hu.elim
  revoked j hp := by simp [StoreSystem.start, RevokeStage.PastUpdate] at hp
  buried _ j hp := by simp [StoreSystem.start, RevokeStage.Succeeded] at hp

/-- No session, or one that has ended. -/
def Ended (session : Option Session) : Prop := ∀ e, session = some e → e.status = 0

/-- A result that a find gets after a revoke has succeeded is no living session. -/
theorem FindMove.ended_of_succeeded {cfg : StoreConfig} {token : Bytes} {s : StoreSystem} {i j : ℕ}
    {stage : FindStage} {st : Stores} {r : Option Session} (h : Sound cfg token s)
    (hj : (s.revokes j).Succeeded) (hm : FindMove cfg token s.stores (s.finds i) stage st)
    (hr : stage.Answer r) (hnew : ¬(s.finds i).Answer r) : Ended r := by
  have hrows := h.revoked j hj.pastUpdate
  have hburied (hu : (s.finds i).UsesCache) : Buried token s := h.buried (h.stages i hu) j hj
  intro e he
  subst he
  rcases hm.answer hr with hold | ⟨hu, hc⟩ | hrow | ⟨hu, ho, hend⟩
  · exact absurd hold hnew
  · exact (hburied hu).entry e hc
  · exact hrows e (h.exactly.newest hrow).1 (h.exactly.newest hrow).2
  · -- The tombstone is in the way of a living copy, unless it was read after the revoke.
    rw [h.copies i e ho] at hend
    rcases hend with h0 | hn
    · exact h0
    · exact (hburied hu).copies hn i e ho

/-- Nothing changes for find `i` but by its own stages. -/
theorem StoreSystem.step_finds {cfg : StoreConfig} {token : Bytes} {s s' : StoreSystem}
    {a : StoreAction} (hs : StoreSystem.step cfg token s a s') (i : ℕ) :
    s'.finds i = s.finds i ∨
      ∃ st, FindMove cfg token s.stores (s.finds i) (s'.finds i) st := by
  cases a with
  | find k action =>
    obtain ⟨stage, st, hst, rfl⟩ := hs
    by_cases hk : i = k
    · subst hk
      refine .inr ⟨st, ?_⟩
      simpa using findMove_of_findStage hst
    · exact .inl (Function.update_of_ne hk _ _)
  | revoke j action =>
    obtain ⟨stage, st, -, rfl⟩ := hs
    exact .inl rfl
  | expire =>
    obtain ⟨-, rfl⟩ := hs
    exact .inl rfl

theorem StoreSystem.step_done {cfg : StoreConfig} {token : Bytes} {s s' : StoreSystem}
    {a : StoreAction} (hs : StoreSystem.step cfg token s a s') {j : ℕ}
    (hj : s.revokes j = .done true) : s'.revokes j = .done true := by
  cases a with
  | find k action =>
    obtain ⟨stage, st, -, rfl⟩ := hs
    exact hj
  | revoke k action =>
    obtain ⟨stage, st, hst, rfl⟩ := hs
    by_cases hk : j = k
    · subst hk
      -- No stage follows the last one.
      have hm := revokeMove_of_revokeStage hst
      rw [hj] at hm
      cases hm
    · exact (Function.update_of_ne hk _ _).trans hj
  | expire =>
    obtain ⟨-, rfl⟩ := hs
    exact hj

/-- Once a revoke has answered `true`, a find that has not yet got its result will not
report a living session, however the calls go on. -/
theorem find_ended_after_revoke {cfg : StoreConfig} {token : Bytes} {st : Stores}
    {before after : List StoreAction} {s s' : StoreSystem} {i j : ℕ} {r : Option Session}
    (hexact : Exact cfg token st.rows)
    (hst : ∀ r ∈ st.rows, r.sessionToken = token → r.status = 0 ∨ r.status = 1)
    (hbefore : Run (StoreSystem.step cfg token) (StoreSystem.start st) before s)
    (hj : s.revokes j = .done true) (hi : ∀ r, ¬(s.finds i).Answer r)
    (hafter : Run (StoreSystem.step cfg token) s after s') (hr : s'.finds i = .done r) :
    Ended r := by
  have hsound : Sound cfg token s :=
    hbefore.invariant (fun _ _ _ h hs => h.step hs) (sound_start hexact hst)
  -- From here on: the invariant, the revoke that has succeeded, and the result so far.
  let good (s : StoreSystem) : Prop :=
    Sound cfg token s ∧ s.revokes j = .done true ∧ ∀ r, (s.finds i).Answer r → Ended r
  have hstep (s : StoreSystem) (a : StoreAction) (s' : StoreSystem) (hg : good s)
      (hs : StoreSystem.step cfg token s a s') : good s' := by
    obtain ⟨hs₀, hdone, hans⟩ := hg
    refine ⟨hs₀.step hs, StoreSystem.step_done hs hdone, ?_⟩
    intro r hr
    rcases StoreSystem.step_finds hs i with heq | ⟨st, hm⟩
    · exact hans r (heq ▸ hr)
    · by_cases hold : (s.finds i).Answer r
      · exact hans r hold
      · exact hm.ended_of_succeeded hs₀ (.inr hdone) hr hold
  have hgood : good s' := hafter.invariant hstep ⟨hsound, hj, fun r hr => absurd hr (hi r)⟩
  exact hgood.2.2 r (.inr hr)

/-- A living session of the token `t`. -/
def living : Session := { id := 1, sessionToken := ascii "t", userId := 7, status := 1 }

/-- The calls of a revoke that goes well. -/
def plainRevoke : List StoreAction :=
  [.revoke 0 .call, .revoke 0 (.updateDurable [] .replied), .revoke 0 (.submit true),
   .revoke 0 (.writeTombstone .replied), .revoke 0 .reply]

/-- The find has read the living row when the revoke comes; it then meets the tombstone. -/
theorem find_ended_after_racing_revoke :
    ∃ s s' : StoreSystem,
      Run (StoreSystem.step {} (ascii "t")) (StoreSystem.start ⟨[living], fun _ => none⟩)
        ([.find 0 (.call true), .find 0 (.readCache .replied), .find 0 (.readDurable .replied)]++
          plainRevoke) s ∧
      Run (StoreSystem.step {} (ascii "t")) s
        [.find 0 (.resubmit true), .find 0 (.writeCache .replied),
         .find 0 (.readWinner .replied), .find 0 .reply] s' ∧
      s'.finds 0 = .done (some (tombstone (ascii "t"))) ∧
      Ended (some (tombstone (ascii "t"))) := by
  obtain ⟨s, hbefore, hj, hi, s', hafter, hr⟩ : ∃ s : StoreSystem,
      Run (StoreSystem.step {} (ascii "t")) (StoreSystem.start ⟨[living], fun _ => none⟩)
        ([.find 0 (.call true), .find 0 (.readCache .replied), .find 0 (.readDurable .replied)]++
          plainRevoke) s ∧
      s.revokes 0 = .done true ∧ s.finds 0 = .fetched living ∧ ∃ s' : StoreSystem,
      Run (StoreSystem.step {} (ascii "t")) s
        [.find 0 (.resubmit true), .find 0 (.writeCache .replied),
         .find 0 (.readWinner .replied), .find 0 .reply] s' ∧
      s'.finds 0 = .done (some (tombstone (ascii "t"))) :=
    ⟨_, .cons ⟨_, _, rfl, rfl⟩ (.cons ⟨_, _, rfl, rfl⟩ (.cons ⟨_, _, rfl, rfl⟩
      (.cons ⟨_, _, rfl, rfl⟩ (.cons ⟨_, _, rfl, rfl⟩ (.cons ⟨_, _, rfl, rfl⟩
        (.cons ⟨_, _, rfl, rfl⟩ (.cons ⟨_, _, rfl, rfl⟩ (.nil _)))))))), rfl, rfl,
      _, .cons ⟨_, _, rfl, rfl⟩ (.cons ⟨_, _, rfl, rfl⟩ (.cons ⟨_, _, rfl, rfl⟩
        (.cons ⟨_, _, rfl, rfl⟩ (.nil _)))), rfl⟩
  refine ⟨s, s', hbefore, hafter, hr, ?_⟩
  refine find_ended_after_revoke ?_ ?_ hbefore hj ?_ hafter hr
  · intro r hm _
    obtain rfl : r = living := by simpa using hm
    rfl
  · intro r hm _
    obtain rfl : r = living := by simpa using hm
    exact .inr rfl
  · intro r
    simp [hi, FindStage.Answer]

/-- The find has got the living session from the cache before the revoke, and hands it
over when the revoke has answered. -/
theorem find_reports_living_after_revoke :
    ∃ (s s' : StoreSystem) (r : Option Session),
      Run (StoreSystem.step {} (ascii "t"))
        (StoreSystem.start ⟨[living], fun token => if token = ascii "t" then some living else none⟩)
        ([.find 0 (.call true), .find 0 (.readCache .replied)]++plainRevoke) s ∧
      s.revokes 0 = .done true ∧ (∀ r, s.finds 0 ≠ .done r) ∧
      StoreSystem.step {} (ascii "t") s (.find 0 .reply) s' ∧ s'.finds 0 = .done r ∧ ¬Ended r := by
  obtain ⟨s, hbefore, hj, hi⟩ : ∃ s : StoreSystem,
      Run (StoreSystem.step {} (ascii "t"))
        (StoreSystem.start ⟨[living], fun token => if token = ascii "t" then some living else none⟩)
        ([.find 0 (.call true), .find 0 (.readCache .replied)]++plainRevoke) s ∧
      s.revokes 0 = .done true ∧ s.finds 0 = .answering (some living) :=
    ⟨_, .cons ⟨_, _, rfl, rfl⟩ (.cons ⟨_, _, rfl, rfl⟩ (.cons ⟨_, _, rfl, rfl⟩
      (.cons ⟨_, _, rfl, rfl⟩ (.cons ⟨_, _, rfl, rfl⟩ (.cons ⟨_, _, rfl, rfl⟩
        (.cons ⟨_, _, rfl, rfl⟩ (.nil _))))))), rfl, rfl⟩
  refine ⟨s, _, some living, hbefore, hj, ?_, ⟨.done (some living), s.stores, ?_, rfl⟩, ?_, ?_⟩
  · simp [hi]
  · simp [hi, findStage]
  · simp
  · intro he
    exact absurd (he living rfl) (by decide)

end JingjieAR.CachedSessionStore
