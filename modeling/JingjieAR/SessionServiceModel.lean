import JingjieAR.LoopSemantics
import JingjieAR.SessionStoreMoves

/-! `SessionService` over a `CachedSessionStore`, one call after another. A `find` or
`revoke` that nothing interrupts runs through its stages; the removal of a cache entry is
a task that some worker carries out later. -/
namespace JingjieAR

open Loop (Iter)

namespace CachedSessionStore

/-- What happens to the commands of one `find`, as far as it gets to them. -/
structure FindOutcome where
  accepted : Bool := true
  readCache : CommandResult := .replied
  readDurable : CommandResult := .replied
  resubmitted : Bool := true
  writeCache : CommandResult := .replied
  readWinner : CommandResult := .replied
deriving DecidableEq

/-- The next command of the find; none when it is done. -/
def FindOutcome.action (o : FindOutcome) : FindStage → Option FindAction
  | .idle => some (.call o.accepted)
  | .queued => some (.readCache o.readCache)
  | .readingDurable _ => some (.readDurable o.readDurable)
  | .fetched _ => some (.resubmit o.resubmitted)
  | .storing _ => some (.writeCache o.writeCache)
  | .contested => some (.readWinner o.readWinner)
  | .answering _ => some .reply
  | .done _ => none

def FindStage.result : FindStage → Option Session
  | .done session => session
  | _ => none

def findRound (cfg : StoreConfig) (token : Bytes) (o : FindOutcome) (p : FindStage × Stores) :
    Iter (FindStage × Stores) (Option Session × Stores) :=
  match (o.action p.1).bind (findStage cfg token p.2 p.1) with
  | some p' => .next p'
  | none => .ret (p.1.result, p.2)

def FindStage.left : FindStage → ℕ
  | .idle => 7
  | .queued => 6
  | .readingDurable _ => 5
  | .fetched _ => 4
  | .storing _ => 3
  | .contested => 2
  | .answering _ => 1
  | .done _ => 0

theorem findRound_next {cfg : StoreConfig} {token : Bytes} {o : FindOutcome}
    {p p' : FindStage × Stores} (h : findRound cfg token o p = .next p') :
    FindMove cfg token p.2 p.1 p'.1 p'.2 := by
  unfold findRound at h
  split at h
  · rename_i q hq
    cases h
    obtain ⟨a, -, ha⟩ := Option.bind_eq_some_iff.mp hq
    exact findMove_of_findStage ha
  · contradiction

theorem findRound_ret {cfg : StoreConfig} {token : Bytes} {o : FindOutcome}
    {p : FindStage × Stores} {r : Option Session × Stores}
    (h : findRound cfg token o p = .ret r) : r = (p.1.result, p.2) := by
  unfold findRound at h
  split at h
  · contradiction
  · cases h
    rfl

theorem findRound_decreases (cfg : StoreConfig) (token : Bytes) (o : FindOutcome) :
    Loop.Decreases (findRound cfg token o) (fun p => p.1.left) := by
  intro p p' h
  have hm := findRound_next h
  obtain ⟨stage, st⟩ := p
  obtain ⟨stage', st'⟩ := p'
  -- Every branch leads to a later stage.
  cases hm <;> simp [FindStage.left]

/-- `find` without interruption. -/
def find (cfg : StoreConfig) (token : Bytes) (st : Stores) (o : FindOutcome) :
    Option Session × Stores :=
  Loop.value (findRound_decreases cfg token o) (.idle, st)

structure RevokeOutcome where
  now : Bytes := []
  updateDurable : CommandResult := .replied
  accepted : Bool := true
  writeTombstone : CommandResult := .replied
deriving DecidableEq

def RevokeOutcome.action (o : RevokeOutcome) : RevokeStage → Option RevokeAction
  | .idle => some .call
  | .updating => some (.updateDurable o.now o.updateDurable)
  | .updated => some (.submit o.accepted)
  | .burying => some (.writeTombstone o.writeTombstone)
  | .answering _ => some .reply
  | .done _ => none

def RevokeStage.result : RevokeStage → Bool
  | .done ok => ok
  | _ => false

def revokeRound (cfg : StoreConfig) (token : Bytes) (o : RevokeOutcome) (p : RevokeStage × Stores) :
    Iter (RevokeStage × Stores) (Bool × Stores) :=
  match (o.action p.1).bind (revokeStage cfg token p.2 p.1) with
  | some p' => .next p'
  | none => .ret (p.1.result, p.2)

def RevokeStage.left : RevokeStage → ℕ
  | .idle => 5
  | .updating => 4
  | .updated => 3
  | .burying => 2
  | .answering _ => 1
  | .done _ => 0

theorem revokeRound_next {cfg : StoreConfig} {token : Bytes} {o : RevokeOutcome}
    {p p' : RevokeStage × Stores} (h : revokeRound cfg token o p = .next p') :
    RevokeMove cfg token p.2 p.1 p'.1 p'.2 := by
  unfold revokeRound at h
  split at h
  · rename_i q hq
    cases h
    obtain ⟨a, -, ha⟩ := Option.bind_eq_some_iff.mp hq
    exact revokeMove_of_revokeStage ha
  · contradiction

theorem revokeRound_ret {cfg : StoreConfig} {token : Bytes} {o : RevokeOutcome}
    {p : RevokeStage × Stores} {r : Bool × Stores}
    (h : revokeRound cfg token o p = .ret r) : r = (p.1.result, p.2) := by
  unfold revokeRound at h
  split at h
  · contradiction
  · cases h
    rfl

theorem revokeRound_decreases (cfg : StoreConfig) (token : Bytes) (o : RevokeOutcome) :
    Loop.Decreases (revokeRound cfg token o) (fun p => p.1.left) := by
  intro p p' h
  have hm := revokeRound_next h
  obtain ⟨stage, st⟩ := p
  obtain ⟨stage', st'⟩ := p'
  cases hm <;> simp [RevokeStage.left]

/-- `revoke` without interruption. -/
def revoke (cfg : StoreConfig) (token : Bytes) (st : Stores) (o : RevokeOutcome) : Bool × Stores :=
  Loop.value (revokeRound_decreases cfg token o) (.idle, st)

def enter (cfg : StoreConfig) (st : Stores) (sessionId : ℕ) (sceneId now : Bytes)
    (result : CommandResult) : Bool × Stores :=
  if !cfg.durable then (false, st)
  else
    let updated := SessionDAO.updateSessionScene st.rows sessionId sceneId now result
    (updated.1, { st with rows := updated.2 })

def exit (cfg : StoreConfig) (st : Stores) (sessionId : ℕ) (now : Bytes)
    (result : CommandResult) : Bool × Stores :=
  if !cfg.durable then (false, st)
  else
    let updated := SessionDAO.endSession st.rows sessionId now result
    (updated.1, { st with rows := updated.2 })

end CachedSessionStore

namespace SessionService

inductive EnterResult
  | kEnterOk
  | kEnterSessionNotFound
  | kEnterUnavailable
deriving DecidableEq

inductive LogoutResult
  | kLogoutOk
  | kLogoutUnavailable
deriving DecidableEq

/-- The stores, and the tokens whose removal from the cache waits for a worker. -/
structure ServiceState where
  stores : Stores
  removals : List Bytes := []

/-- What happens to the commands of one `enter` or `exit`. -/
structure ChangeOutcome where
  find : CachedSessionStore.FindOutcome := {}
  now : Bytes := []
  update : CommandResult := .replied
  accepted : Bool := true
deriving DecidableEq

variable (cfg : StoreConfig)

def get (s : ServiceState) (token : Bytes) (o : CachedSessionStore.FindOutcome) :
    Option Session × ServiceState :=
  if token = [] then (none, s)
  else
    let found := CachedSessionStore.find cfg token s.stores o
    (found.1, { s with stores := found.2 })

/-- `CachedSessionStore::invalidate` submits a task; a full pool drops it. -/
def invalidate (s : ServiceState) (token : Bytes) (accepted : Bool) : ServiceState :=
  if cfg.cached && token ≠ [] && accepted then { s with removals := s.removals++[token] } else s

def enterDetailed (s : ServiceState) (token sceneId : Bytes) (o : ChangeOutcome) :
    EnterResult × ServiceState :=
  match get cfg s token o.find with
  | (none, s₁) => (.kEnterSessionNotFound, s₁)
  | (some session, s₁) =>
    -- The status of the session that was found is not looked at.
    if sceneId = [] then (.kEnterUnavailable, s₁)
    else
      let entered := CachedSessionStore.enter cfg s₁.stores session.id sceneId o.now o.update
      let s₂ := { s₁ with stores := entered.2 }
      -- The removal takes whatever the entry is when it runs, also a tombstone.
      if entered.1 then (.kEnterOk, invalidate cfg s₂ token o.accepted)
      else (.kEnterUnavailable, s₂)

def enter (s : ServiceState) (token sceneId : Bytes) (o : ChangeOutcome) : Bool × ServiceState :=
  let entered := enterDetailed cfg s token sceneId o
  (entered.1 = .kEnterOk, entered.2)

/-- Unlike `enterDetailed`, `exit` leaves an ended session alone. -/
def exit (s : ServiceState) (token : Bytes) (o : ChangeOutcome) : Bool × ServiceState :=
  match get cfg s token o.find with
  | (none, s₁) => (false, s₁)
  | (some session, s₁) =>
    -- The check that `enterDetailed` lacks.
    if session.status = 0 then (false, s₁)
    else
      let ended := CachedSessionStore.exit cfg s₁.stores session.id o.now o.update
      let s₂ := { s₁ with stores := ended.2 }
      if ended.1 then (true, invalidate cfg s₂ token o.accepted) else (false, s₂)

def logout (s : ServiceState) (token : Bytes) (o : CachedSessionStore.RevokeOutcome) :
    LogoutResult × ServiceState :=
  if token = [] then (.kLogoutUnavailable, s)
  else
    let revoked := CachedSessionStore.revoke cfg token s.stores o
    let s₁ := { s with stores := revoked.2 }
    if revoked.1 then (.kLogoutOk, s₁) else (.kLogoutUnavailable, s₁)

/-- A worker runs the `k`-th waiting removal. -/
def runRemoval (s : ServiceState) (k : ℕ) (result : CommandResult) : ServiceState :=
  match s.removals[k]? with
  | none => s
  | some token =>
    { stores := { s.stores with cache := (s.stores.cache.remove token result).2 },
      removals := s.removals.eraseIdx k }

/-- The cache entry of a token reaches the end of its life. -/
def expire (s : ServiceState) (token : Bytes) : ServiceState :=
  { s with stores := { s.stores with cache := Function.update s.stores.cache token none } }

end SessionService

end JingjieAR
