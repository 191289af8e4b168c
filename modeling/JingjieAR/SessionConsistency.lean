import JingjieAR.SessionServiceModel

/-! What the calls of the session service keep true of table and cache: a cached session
is a tombstone or a copy of a row, and the sessions of a set of dead tokens are not alive, nor
those that the table does not tell from them. -/
namespace JingjieAR

open CachedSessionStore

/-- A tombstone or a copy of a row. -/
def Genuine (rows : List Session) (e : Session) : Prop :=
  e.id = 0 ∨ ∃ r ∈ rows, r.id = e.id ∧ r.sessionToken = e.sessionToken

/-- The table takes the token for a dead one. -/
def TakenForDead (cfg : StoreConfig) (dead : Bytes → Prop) (token : Bytes) : Prop :=
  ∃ d, dead d ∧ cfg.collate d = cfg.collate token

theorem TakenForDead.congr {cfg : StoreConfig} {dead : Bytes → Prop} {token token' : Bytes}
    (h : TakenForDead cfg dead token) (heq : cfg.collate token = cfg.collate token') :
    TakenForDead cfg dead token' := by
  obtain ⟨d, hd, hcollate⟩ := h
  exact ⟨d, hd, hcollate.trans heq⟩

/-- Table and cache agree, and no session of a token in `dead` is alive. -/
structure Consistent (cfg : StoreConfig) (dead : Bytes → Prop) (st : Stores) : Prop where
  ids : (st.rows.map Session.id).Nodup
  pos : ∀ r ∈ st.rows, 0 < r.id
  genuine : ∀ token e, st.cache token = some e → e.sessionToken = token ∧ Genuine st.rows e
  deadRows : ∀ r ∈ st.rows, TakenForDead cfg dead r.sessionToken → r.status ≠ 1
  deadEntries : cfg.cached = true → ∀ token e, dead token → st.cache token = some e → e.status ≠ 1

section Changes

variable {cfg : StoreConfig} {dead : Bytes → Prop} {st : Stores}

/-- An update that keeps ids and tokens and brings no dead row to life. -/
theorem Consistent.update (h : Consistent cfg dead st) {p : Session → Bool}
    {f : Session → Session} (hid : ∀ s, (f s).id = s.id)
    (htoken : ∀ s, (f s).sessionToken = s.sessionToken)
    (hdead : ∀ r ∈ st.rows, p r = true → TakenForDead cfg dead r.sessionToken → (f r).status ≠ 1)
    (result : CommandResult) :
    Consistent cfg dead { st with rows := (SessionDAO.update st.rows p f result).2 } := by
  suffices hmap : Consistent cfg dead
      { st with rows := st.rows.map (fun s => if p s then f s else s) } by
    cases result with
    | replied => exact hmap
    | lost => exact hmap
    | unreached => exact h
  have hsame (s : Session) : (if p s then f s else s).id = s.id ∧
      (if p s then f s else s).sessionToken = s.sessionToken := by
    split_ifs
    · exact ⟨hid s, htoken s⟩
    · exact ⟨rfl, rfl⟩
  refine ⟨?_, ?_, ?_, ?_, h.deadEntries⟩
  · have hids : (st.rows.map (fun s => if p s then f s else s)).map Session.id =
        st.rows.map Session.id := by
      rw [List.map_map]
      exact List.map_congr_left (fun s _ => (hsame s).1)
    -- The ids are what they were.
    rw [hids]
    exact h.ids
  · intro r hr
    obtain ⟨q, hq, rfl⟩ := List.mem_map.mp hr
    rw [(hsame q).1]
    exact h.pos q hq
  · intro token e he
    obtain ⟨ht, hor⟩ := h.genuine token e he
    refine ⟨ht, hor.imp id ?_⟩
    intro hrow
    obtain ⟨r, hr, hrid, hrt⟩ := hrow
    refine ⟨_, List.mem_map_of_mem hr, ?_, ?_⟩
    · rw [(hsame r).1, hrid]
    · rw [(hsame r).2, hrt]
  · intro r hr hd
    obtain ⟨q, hq, rfl⟩ := List.mem_map.mp hr
    rw [(hsame q).2] at hd
    split_ifs with hp
    · exact hdead q hq hp hd
    · exact h.deadRows q hq hd

/-- A session that may be reported for the token, and cached under its own. -/
structure Reportable (cfg : StoreConfig) (dead : Bytes → Prop) (rows : List Session)
    (token : Bytes) (e : Session) : Prop where
  matched : cfg.collate e.sessionToken = cfg.collate token
  genuine : Genuine rows e
  ended : dead token → e.status ≠ 1
  endedOwn : dead e.sessionToken → e.status ≠ 1

theorem Consistent.setEntry (h : Consistent cfg dead st) {token : Bytes} {entry : Option Session}
    (hentry : ∀ e, entry = some e →
      e.sessionToken = token ∧ Genuine st.rows e ∧ (dead token → e.status ≠ 1)) :
    Consistent cfg dead { st with cache := Function.update st.cache token entry } := by
  refine ⟨h.ids, h.pos, ?_, h.deadRows, ?_⟩
  · apply (Function.forall_update_iff st.cache
      (fun token entry => ∀ e, entry = some e → e.sessionToken = token ∧ Genuine st.rows e)).mpr
    refine ⟨?_, ?_⟩
    · intro e he
      exact ⟨(hentry e he).1, (hentry e he).2.1⟩
    · intro t _
      exact h.genuine t
  · intro hc
    apply (Function.forall_update_iff st.cache
      (fun token entry => ∀ e, dead token → entry = some e → e.status ≠ 1)).mpr
    refine ⟨?_, ?_⟩
    · intro e hd he
      exact (hentry e he).2.2 hd
    · intro t _
      exact h.deadEntries hc t

/-- A row of the table may be reported. -/
theorem Consistent.newest (h : Consistent cfg dead st) {token : Bytes} {e : Session}
    (he : SessionDAO.newest cfg.collate st.rows token = some e) :
    Reportable cfg dead st.rows token e := by
  obtain ⟨hm, ht⟩ := newest_mem he
  refine ⟨ht, .inr ⟨e, hm, rfl, rfl⟩, ?_, ?_⟩
  · intro hd
    exact h.deadRows e hm ⟨token, hd, ht.symm⟩
  · intro hd
    exact h.deadRows e hm ⟨e.sessionToken, hd, rfl⟩

/-- So may an entry of the cache. -/
theorem Consistent.entry (h : Consistent cfg dead st) (hcached : cfg.cached = true) {token : Bytes}
    {e : Session} (he : st.cache token = some e) : Reportable cfg dead st.rows token e := by
  obtain ⟨ht, hgenuine⟩ := h.genuine token e he
  have hended : dead token → e.status ≠ 1 := fun hd => h.deadEntries hcached token e hd he
  exact ⟨congrArg cfg.collate ht, hgenuine, hended, ht ▸ hended⟩

/-- What a find has done so far, on the table `rows`. -/
structure FindInv (cfg : StoreConfig) (dead : Bytes → Prop) (token : Bytes) (rows : List Session)
    (p : FindStage × Stores) : Prop where
  rows_eq : p.2.rows = rows
  consistent : Consistent cfg dead p.2
  stages : p.1.UsesCache → cfg.cached = true
  copies : ∀ copy, p.1.Holds copy → Reportable cfg dead rows token copy
  answer : ∀ e, p.1.Answer (some e) → Reportable cfg dead rows token e

theorem FindInv.move {token : Bytes} {rows : List Session} {p p' : FindStage × Stores}
    (h : FindInv cfg dead token rows p) (hm : FindMove cfg token p.2 p.1 p'.1 p'.2) :
    FindInv cfg dead token rows p' := by
  have hrows : p'.2.rows = rows := hm.rows_eq.trans h.rows_eq
  have hnewest (e : Session) (he : SessionDAO.newest cfg.collate p.2.rows token = some e) :
      Reportable cfg dead rows token e := by
    rw [← h.rows_eq]
    exact h.consistent.newest he
  refine ⟨hrows, ?_, ?_, ?_, ?_⟩
  · rcases hm.cache_eq with heq | ⟨copy, ho, -, heq⟩
    · have hst : p'.2 = p.2 := Stores.ext hm.rows_eq heq
      rw [hst]
      exact h.consistent
    -- The entry that is written is the copy, under the token of its row.
    · have hcopy := h.copies copy ho
      have hst : p'.2 =
          { p.2 with cache := Function.update p.2.cache copy.sessionToken (some copy) } :=
        Stores.ext hm.rows_eq heq
      rw [hst]
      refine h.consistent.setEntry ?_
      intro e he
      cases he
      rw [h.rows_eq]
      exact ⟨rfl, hcopy.genuine, hcopy.endedOwn⟩
  · intro hu
    exact (hm.usesCache hu).elim h.stages id
  · intro copy hc
    exact (hm.holds hc).elim (h.copies copy) (hnewest copy)
  · intro e he
    -- Reported before, read from the cache, read from the table, or held.
    rcases hm.answer he with hold | ⟨hu, hc⟩ | hrow | ⟨-, ho, -⟩
    · exact h.answer e hold
    · rw [← h.rows_eq]
      exact h.consistent.entry (h.stages hu) hc
    · exact hnewest e hrow
    · exact h.copies e ho

theorem FindStage.answer_of_result {stage : FindStage} {e : Session}
    (h : stage.result = some e) : stage.Answer (some e) := by
  cases stage with
  | done session => exact .inr (congrArg FindStage.done h)
  | _ => contradiction

/-- `find` leaves the table alone and reports what may be reported. -/
theorem find_spec (h : Consistent cfg dead st) (token : Bytes) (o : FindOutcome) :
    (find cfg token st o).2.rows = st.rows ∧ Consistent cfg dead (find cfg token st o).2 ∧
      ∀ e, (find cfg token st o).1 = some e → Reportable cfg dead st.rows token e := by
  have hreturns := Loop.returns_value (findRound_decreases cfg token o) (.idle, st)
  refine @Loop.returns_invariant _ _ (findRound cfg token o) (FindInv cfg dead token st.rows)
    (fun r => r.2.rows = st.rows ∧ Consistent cfg dead r.2 ∧
      ∀ e, r.1 = some e → Reportable cfg dead st.rows token e) _ _ ?_ ?_ hreturns ?_
  · intro p p' hp hb
    exact hp.move (findRound_next hb)
  · intro p r hp hb
    rw [findRound_ret hb]
    refine ⟨hp.rows_eq, hp.consistent, ?_⟩
    intro e he
    apply hp.answer
    exact FindStage.answer_of_result he
  · refine ⟨rfl, h, False.elim, ?_, ?_⟩
    · intro copy hc
      rcases hc with hc | hc <;> contradiction
    · intro e he
      rcases he with he | he <;> contradiction

/-- What a revoke has done so far. -/
structure RevokeInv (cfg : StoreConfig) (dead : Bytes → Prop) (token : Bytes)
    (p : RevokeStage × Stores) : Prop where
  consistent : Consistent cfg dead p.2
  updated : p.1.PastUpdate →
    ∀ r ∈ p.2.rows, cfg.collate r.sessionToken = cfg.collate token → r.status ≠ 1
  buried : p.1.Succeeded → cfg.cached = true → p.2.cache token = some (tombstone token)

theorem Consistent.revokeSession (h : Consistent cfg dead st) (token now : Bytes)
    (result : CommandResult) :
    Consistent cfg dead
      { st with rows := (SessionDAO.revokeSession cfg.collate st.rows token now result).2 } := by
  apply h.update
  · exact fun _ => rfl
  · exact fun _ => rfl
  · intro r _ _ _
    simp

theorem RevokeInv.move {token : Bytes} {p p' : RevokeStage × Stores}
    (h : RevokeInv cfg dead token p) (hm : RevokeMove cfg token p.2 p.1 p'.1 p'.2) :
    RevokeInv cfg dead token p' := by
  -- First the rows, then the cache; a move changes one of them at most.
  have hrows : Consistent cfg dead { p.2 with rows := p'.2.rows } := by
    rcases hm.rows_eq with heq | ⟨now, result, heq⟩
    · rw [heq]
      exact h.consistent
    · rw [heq]
      exact h.consistent.revokeSession token now result
  refine ⟨?_, ?_, ?_⟩
  · rcases hm.cache_eq with heq | heq
    · have hst : p'.2 = { p.2 with rows := p'.2.rows } := Stores.ext rfl heq
      rw [hst]
      exact hrows
    · have hst : p'.2 = { ({ p.2 with rows := p'.2.rows } : Stores) with
          cache := Function.update p.2.cache token (some (tombstone token)) } :=
        Stores.ext rfl heq
      rw [hst]
      refine hrows.setEntry ?_
      intro e he
      cases he
      exact ⟨rfl, .inl rfl, fun _ => by simp [tombstone]⟩
  · intro hp r hr ht
    rcases hm.pastUpdate hp with hp' | ⟨now, heq⟩
    · rcases hm.rows_eq with heq | ⟨now, result, heq⟩
      · exact h.updated hp' r (heq ▸ hr) ht
      · rw [heq] at hr
        rcases mem_revokeSession hr ht with h0 | ⟨hmem, -⟩
        · omega
        · exact h.updated hp' r hmem ht
    · rw [heq] at hr
      rcases mem_revokeSession hr ht with h0 | ⟨-, hno | h1⟩
      · omega
      · contradiction
      · exact h1
  · intro hp hc
    rcases hm.succeeded hp with hp' | hno | heq
    · rcases hm.cache_eq with heq | heq
      · rw [heq]
        exact h.buried hp' hc
      · rw [heq, Function.update_self]
    · rw [hc] at hno
      contradiction
    · rw [heq, Function.update_self]

theorem RevokeStage.succeeded_of_result {stage : RevokeStage} (h : stage.result = true) :
    stage.Succeeded := by
  cases stage with
  | done ok => exact .inr (congrArg RevokeStage.done h)
  | _ => contradiction

/-- One more token is dead once its rows have ended and its cache entry is a tombstone. -/
theorem Consistent.bury (h : Consistent cfg dead st) {token : Bytes}
    (hrows : ∀ r ∈ st.rows, cfg.collate r.sessionToken = cfg.collate token → r.status ≠ 1)
    (hentry : cfg.cached = true → st.cache token = some (tombstone token)) :
    Consistent cfg (fun t => dead t ∨ t = token) st := by
  refine ⟨h.ids, h.pos, h.genuine, ?_, ?_⟩
  · intro r hr hburied
    obtain ⟨d, hd | rfl, hcollate⟩ := hburied
    · exact h.deadRows r hr ⟨d, hd, hcollate⟩
    · exact hrows r hr hcollate.symm
  · intro hc t e hdead he
    rcases hdead with hd | rfl
    · exact h.deadEntries hc t e hd he
    · rw [hentry hc] at he
      cases he
      simp [tombstone]

/-- `revoke` keeps the stores consistent, and if it succeeds the token is dead. -/
theorem revoke_spec (h : Consistent cfg dead st) (token : Bytes) (o : RevokeOutcome) :
    Consistent cfg dead (revoke cfg token st o).2 ∧
      ((revoke cfg token st o).1 = true →
        Consistent cfg (fun t => dead t ∨ t = token) (revoke cfg token st o).2) := by
  have hreturns := Loop.returns_value (revokeRound_decreases cfg token o) (.idle, st)
  refine @Loop.returns_invariant _ _ (revokeRound cfg token o) (RevokeInv cfg dead token)
    (fun r => Consistent cfg dead r.2 ∧
      (r.1 = true → Consistent cfg (fun t => dead t ∨ t = token) r.2)) _ _ ?_ ?_ hreturns ?_
  · intro p p' hp hb
    exact hp.move (revokeRound_next hb)
  · intro p r hp hb
    rw [revokeRound_ret hb]
    refine ⟨hp.consistent, ?_⟩
    intro hok
    -- A revoke that answers `true` has been past its update and has buried the entry.
    have hs := RevokeStage.succeeded_of_result hok
    exact hp.consistent.bury (hp.updated hs.pastUpdate) (hp.buried hs)
  · refine ⟨h, ?_, ?_⟩
    · intro hp
      simp [RevokeStage.PastUpdate] at hp
    · intro hp
      simp [RevokeStage.Succeeded] at hp

end Changes

namespace SessionService

section Calls

variable {cfg : StoreConfig} {dead : Bytes → Prop} {s : ServiceState}

theorem get_spec (h : Consistent cfg dead s.stores) (token : Bytes) (o : FindOutcome) :
    (get cfg s token o).2.stores.rows = s.stores.rows ∧
      Consistent cfg dead (get cfg s token o).2.stores ∧
      ∀ e, (get cfg s token o).1 = some e → Reportable cfg dead s.stores.rows token e := by
  unfold get
  split_ifs
  · exact ⟨rfl, h, fun e he => by contradiction⟩
  · exact find_spec h token o

theorem invalidate_stores (s : ServiceState) (token : Bytes) (accepted : Bool) :
    (invalidate cfg s token accepted).stores = s.stores := by
  unfold invalidate
  split_ifs <;> rfl

/-- Setting the row of a reported session to 1 is harmless if the table takes its token for none
that is dead, or if there is no such row because it is a tombstone. -/
theorem Consistent.enter {st : Stores} (h : Consistent cfg dead st) {token : Bytes} {e : Session}
    (he : Reportable cfg dead st.rows token e)
    (hlive : (∃ r ∈ st.rows, r.id = e.id) → ¬TakenForDead cfg dead token)
    (sceneId now : Bytes) (result : CommandResult) :
    Consistent cfg dead (CachedSessionStore.enter cfg st e.id sceneId now result).2 := by
  unfold CachedSessionStore.enter
  split_ifs
  · exact h
  · apply h.update
    · exact fun _ => rfl
    · exact fun _ => rfl
    · intro r hr hp hd
      have hid : r.id = e.id := by simpa using hp
      refine absurd ?_ (hlive ⟨r, hr, hid⟩)
      rcases he.genuine with hz | ⟨q, hq, hqid, hqt⟩
      -- A tombstone has the id 0, which no row has.
      · have := h.pos r hr
        omega
      -- The id is a key, so the row that is updated is the one of the token.
      · have hqr : q = r := List.inj_on_of_nodup_map h.ids hq hr (hqid.trans hid.symm)
        rw [← hqr, hqt] at hd
        exact hd.congr he.matched

theorem Consistent.exit {st : Stores} (h : Consistent cfg dead st) (sessionId : ℕ) (now : Bytes)
    (result : CommandResult) :
    Consistent cfg dead (CachedSessionStore.exit cfg st sessionId now result).2 := by
  unfold CachedSessionStore.exit
  split_ifs
  · exact h
  · apply h.update
    · exact fun _ => rfl
    · exact fun _ => rfl
    · intro r _ _ _
      simp

/-- `enterDetailed` on a token that is alive, or that finds no row. -/
theorem enterDetailed_spec (h : Consistent cfg dead s.stores) (token sceneId : Bytes)
    (o : ChangeOutcome)
    (hlive : ∀ e, (get cfg s token o.find).1 = some e → sceneId ≠ [] →
      (∃ r ∈ s.stores.rows, r.id = e.id) → ¬TakenForDead cfg dead token) :
    Consistent cfg dead (enterDetailed cfg s token sceneId o).2.stores := by
  obtain ⟨hrows, hcons, hrep⟩ := get_spec h token o.find
  unfold enterDetailed
  rcases hg : get cfg s token o.find with ⟨found, s₁⟩
  rw [hg] at hrows hcons hrep
  cases found with
  | none => exact hcons
  | some e =>
    dsimp only at hrows hcons ⊢
    split_ifs with hscene hok
    · exact hcons
    all_goals
      have hreportable : Reportable cfg dead s₁.stores.rows token e := by
        rw [hrows]
        exact hrep e rfl
      have hent := Consistent.enter hcons hreportable (by
        rw [hrows]
        exact hlive e (by rw [hg]) hscene) sceneId o.now o.update
    · rw [invalidate_stores]
      exact hent
    · exact hent

theorem exit_spec (h : Consistent cfg dead s.stores) (token : Bytes) (o : ChangeOutcome) :
    Consistent cfg dead (exit cfg s token o).2.stores := by
  obtain ⟨-, hcons, -⟩ := get_spec h token o.find
  unfold exit
  rcases hg : get cfg s token o.find with ⟨found, s₁⟩
  rw [hg] at hcons
  cases found with
  | none => exact hcons
  | some e =>
    dsimp only at hcons ⊢
    split_ifs
    · exact hcons
    · rw [invalidate_stores]
      exact Consistent.exit hcons e.id o.now o.update
    · exact Consistent.exit hcons e.id o.now o.update

theorem logout_spec (h : Consistent cfg dead s.stores) (token : Bytes) (o : RevokeOutcome) :
    Consistent cfg dead (logout cfg s token o).2.stores ∧
      ((logout cfg s token o).1 = .kLogoutOk →
        Consistent cfg (fun t => dead t ∨ t = token) (logout cfg s token o).2.stores) := by
  obtain ⟨hkeep, hbury⟩ := revoke_spec h token o
  unfold logout
  split_ifs with ht
  · exact ⟨h, fun hno => by contradiction⟩
  · dsimp only
    split_ifs with hok
    · exact ⟨hkeep, fun _ => hbury hok⟩
    · exact ⟨hkeep, fun hno => by contradiction⟩

theorem runRemoval_spec (h : Consistent cfg dead s.stores) (k : ℕ) (result : CommandResult) :
    Consistent cfg dead (runRemoval s k result).stores := by
  unfold runRemoval
  cases s.removals[k]? with
  | none => exact h
  | some token =>
    have hgone : Consistent cfg dead
        { s.stores with cache := Function.update s.stores.cache token none } :=
      h.setEntry (fun e he => by contradiction)
    cases result with
    | replied => exact hgone
    | lost => exact hgone
    | unreached => exact h

end Calls

end SessionService

end JingjieAR
