import JingjieAR.SessionConsistency
import JingjieAR.TransitionRuns

/-! Whether a logout is final. Table and cache keep a session ended that has been logged
out, except that `enterDetailed`, unlike `exit`, does not look at the status of the session
it has found, and sets its row to 1 again. -/
namespace JingjieAR

open Runs (Run Guarded)
open CachedSessionStore (FindOutcome RevokeOutcome)
open SessionService

/-- A table of sessions with its primary key. -/
structure SessionTable where
  rows : List Session
  ids : (rows.map Session.id).Nodup
  pos : ∀ r ∈ rows, 0 < r.id

inductive ServiceCall
  | get (token : Bytes) (o : FindOutcome)
  | enter (token sceneId : Bytes) (o : ChangeOutcome)
  | exit (token : Bytes) (o : ChangeOutcome)
  | logout (token : Bytes) (o : RevokeOutcome)
  -- a worker carries out the removal that waits at place `k`
  | runRemoval (k : ℕ) (result : CommandResult)
  | expire (token : Bytes)
deriving DecidableEq

/-- The service, and the tokens whose logout has completed with `kLogoutOk`. -/
structure ServiceTrace where
  service : ServiceState
  loggedOut : List Bytes := []

namespace ServiceTrace

variable (cfg : StoreConfig)

def next (t : ServiceTrace) : ServiceCall → ServiceTrace
  | .get token o => { t with service := (get cfg t.service token o).2 }
  | .enter token sceneId o => { t with service := (enter cfg t.service token sceneId o).2 }
  | .exit token o => { t with service := (exit cfg t.service token o).2 }
  | .logout token o =>
    let done := logout cfg t.service token o
    { service := done.2,
      loggedOut := if done.1 = .kLogoutOk then token :: t.loggedOut else t.loggedOut }
  | .runRemoval k result => { t with service := runRemoval t.service k result }
  | .expire token => { t with service := expire t.service token }

def step (t : ServiceTrace) (call : ServiceCall) (t' : ServiceTrace) : Prop := t.next cfg call = t'

/-- Any table, an empty cache, nobody logged out yet. -/
def start (table : SessionTable) : ServiceTrace := ⟨⟨⟨table.rows, fun _ => none⟩, []⟩, []⟩

/-- The call enters a scene with a token that the table takes for one that is logged out, and has
found the row of the session rather than the tombstone. -/
def EntersLoggedOut (t : ServiceTrace) : ServiceCall → Prop
  | .enter token sceneId o =>
    (∃ d ∈ t.loggedOut, cfg.collate d = cfg.collate token) ∧ sceneId ≠ [] ∧
      ∃ e, (get cfg t.service token o.find).1 = some e ∧
        ∃ r ∈ t.service.stores.rows, r.id = e.id
  | _ => False

/-- The sessions of the tokens that are logged out are not alive. -/
def Final (t : ServiceTrace) : Prop :=
  Consistent cfg (fun token => token ∈ t.loggedOut) t.service.stores

variable {cfg}

theorem Final.step {t t' : ServiceTrace} {call : ServiceCall} (h : t.Final cfg)
    (hs : Guarded (fun t call => ¬EntersLoggedOut cfg t call) (step cfg) t call t') :
    t'.Final cfg := by
  obtain ⟨hguard, rfl⟩ := hs
  cases call with
  | get token o => exact (get_spec h token o).2.1
  | enter token sceneId o =>
    refine enterDetailed_spec h token sceneId o ?_
    -- The guard excludes just the call that would set the row to 1.
    intro e he hscene hrow hdead
    exact hguard ⟨hdead, hscene, e, he, hrow⟩
  | exit token o => exact exit_spec h token o
  | logout token o =>
    -- The set of logged-out tokens grows by this one if the logout succeeds.
    obtain ⟨hkeep, hbury⟩ := logout_spec h token o
    unfold Final next
    dsimp only
    split_ifs with hok
    · have hdead : (fun t' => t' ∈ token :: t.loggedOut) =
          fun t' => t' ∈ t.loggedOut ∨ t' = token := by
        funext t'
        rw [List.mem_cons, or_comm]
      rw [hdead]
      exact hbury hok
    · exact hkeep
  | runRemoval k result => exact runRemoval_spec h k result
  | expire token => exact Consistent.setEntry h (fun e he => by contradiction)

end ServiceTrace

end JingjieAR
