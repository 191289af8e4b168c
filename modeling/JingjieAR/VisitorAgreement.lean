import JingjieAR.VisitorSessionModel
import Mathlib.Tactic.Common

/-! Retries of one bootstrap agree on the token. Whoever sets the claim of a request id
first decides; a call answers with the token it has read back from the claim, and the
claim stays as it is until it expires. It answers when it has saved the key of that token. -/
namespace JingjieAR.VisitorSystem

open Runs (Run Guarded Through)
open VisitorSessionService

variable {s s' : VisitorSystem} {t : ℕ} {call : BootstrapCall} {id token : Bytes}
  {result : CommandResult} {e : VisitorEvent}

/-- The claim of `id` stands, and it holds this token. -/
def Claimed (s : VisitorSystem) (id token : Bytes) : Prop :=
  s.keys.claims id = some token ∧ validTokenSyntax token = true

/-- The calls for `id` that have read the claim, and those that have answered, go by it. -/
structure Agreed (id : Bytes) (s : VisitorSystem) : Prop where
  renewing : ∀ t call token, s.calls t = some call → call.requestId = id →
    call.stage = .renewing token → s.Claimed id token
  reports : ∀ r ∈ s.reports, r.requestId = id → r.result.status = .kOk →
    s.Claimed id r.result.token

theorem agreed_start (available : Bool) (keys : VisitorKeys) :
    Agreed id { available := available, keys := keys } := by
  refine ⟨?_, ?_⟩
  · intro t call token h
    simp at h
  · intro r hr
    simp at hr

section Frames

@[simp] theorem save_claims : (s.save token result).2.keys.claims = s.keys.claims := by
  unfold save RedisVisitorStore.save
  split
  · rfl
  · cases result <;> rfl

@[simp] theorem save_calls : (s.save token result).2.calls = s.calls := rfl

@[simp] theorem save_reports : (s.save token result).2.reports = s.reports := rfl

/-- A save that answers has left the key of the token. -/
theorem save_visitors (h : (s.save token result).1 = true) :
    (s.save token result).2.keys.visitors token = true := by
  unfold save RedisVisitorStore.save at h ⊢
  split at h
  · simp at h
  · next hsaves =>
    rw [if_neg hsaves]
    cases result with
    | replied => exact Function.update_self token true s.keys.visitors
    | lost => simp at h
    | unreached => simp at h

/-- `SET NX` leaves a claim that stands. -/
theorem claimBootstrapSet_claims {keys : VisitorKeys} {requestId candidateToken : Bytes}
    {ttlSeconds : ℤ} (h : keys.claims id = some token) :
    (RedisVisitorStore.claimBootstrapSet keys requestId candidateToken ttlSeconds
      result).2.claims id = some token := by
  have hset : Function.update keys.claims requestId
      ((keys.claims requestId).or (some candidateToken)) id = some token := by
    by_cases hid : id = requestId
    · subst hid
      simp [h]
    · rw [Function.update_of_ne hid, h]
  unfold RedisVisitorStore.claimBootstrapSet
  split
  · exact h
  · cases result
    · exact hset
    · exact hset
    · exact h

end Frames

/-- Nothing is taken back: a claim that stands stays. -/
theorem Agreed.frame (h : Agreed id s) (hcalls : s'.calls = s.calls)
    (hreports : s'.reports = s.reports)
    (hclaims : ∀ token, s.keys.claims id = some token → s'.keys.claims id = some token) :
    Agreed id s' := by
  refine ⟨?_, ?_⟩
  · intro t call token hcall hid hstage
    obtain ⟨hclaim, hshape⟩ := h.renewing t call token (hcalls ▸ hcall) hid hstage
    exact ⟨hclaims token hclaim, hshape⟩
  · intro r hr hid hok
    obtain ⟨hclaim, hshape⟩ := h.reports r (hreports ▸ hr) hid hok
    exact ⟨hclaims _ hclaim, hshape⟩

theorem Agreed.save (h : Agreed id s) : Agreed id (s.save token result).2 :=
  h.frame save_calls save_reports (fun _ hclaim => by rw [save_claims, hclaim])

theorem Agreed.setCall (h : Agreed id s)
    (hcall : ∀ token, call.requestId = id → call.stage = .renewing token → s.Claimed id token) :
    Agreed id (s.setCall t call) := by
  refine ⟨?_, h.reports⟩
  intro t' call' token h' hid hstage
  by_cases ht : t' = t
  · subst ht
    obtain rfl : call = call' := by simpa [VisitorSystem.setCall] using h'
    exact hcall token hid hstage
  · exact h.renewing t' call' token (by simpa [VisitorSystem.setCall, ht] using h') hid hstage

theorem Agreed.answer (h : Agreed id s) {requestId : Bytes} {answered : VisitorBootstrapResult}
    (hok : requestId = id → answered.status = .kOk → s.Claimed id answered.token) :
    Agreed id (s.answer t requestId answered) := by
  refine ⟨?_, ?_⟩
  · intro t' call' token h' hid hstage
    have ht : t' ≠ t := by
      intro ht
      simp [VisitorSystem.answer, ht] at h'
    exact h.renewing t' call' token (by simpa [VisitorSystem.answer, ht] using h') hid hstage
  · intro r hr hid hrok
    rcases List.mem_append.mp hr with hr | hr
    · exact h.reports r hr hid hrok
    · obtain rfl := List.mem_singleton.mp hr
      exact hok hid hrok

/-- A call that fails says nothing about the token. -/
theorem Agreed.refuse (h : Agreed id s) {requestId : Bytes} :
    Agreed id (s.answer t requestId {}) :=
  h.answer (fun _ hok => by simp at hok)

theorem Agreed.withCandidate (h : Agreed id s) {candidateToken : Bytes} :
    Agreed id (s.withCandidate t call candidateToken) := by
  unfold VisitorSystem.withCandidate
  split_ifs
  · exact h.setCall (fun token _ hstage => by simp at hstage)
  · exact h.refuse

/-- One command of one call. -/
theorem Agreed.advance (h : Agreed id s) (hcall : s.calls t = some call) :
    Agreed id (s.advance t call result) := by
  unfold VisitorSystem.advance
  cases hstage : call.stage with
  | looking existingToken =>
    dsimp only
    split_ifs
    · exact h.withCandidate
    · exact h.withCandidate
  | saving candidateToken =>
    dsimp only
    split_ifs
    · exact h.save.setCall (fun token _ hstage => by simp at hstage)
    · exact h.save.refuse
  | claiming candidateToken =>
    -- The claim is set if there is none, and only then.
    have hset : Agreed id { s with keys := (RedisVisitorStore.claimBootstrapSet s.keys
        call.requestId candidateToken kBootstrapTtlSeconds result).2 } :=
      h.frame rfl rfl (fun _ hclaim => claimBootstrapSet_claims hclaim)
    dsimp only
    split_ifs
    · exact hset.setCall (fun token _ hstage => by simp at hstage)
    · exact hset.refuse
  | reading =>
    dsimp only
    cases hget : RedisVisitorStore.claimBootstrapGet s.keys call.requestId result with
    | none => exact h.refuse
    | some resolvedToken =>
      -- what `GET` returns is the claim that stands
      have hclaim : s.keys.claims call.requestId = some resolvedToken := by
        cases result with
        | replied => exact hget
        | lost => simp [RedisVisitorStore.claimBootstrapGet] at hget
        | unreached => simp [RedisVisitorStore.claimBootstrapGet] at hget
      dsimp only
      split_ifs with hshape
      · refine h.setCall ?_
        intro token hid hrenewing
        obtain rfl : resolvedToken = token := by simpa using hrenewing
        exact ⟨hid ▸ hclaim, hshape⟩
      · exact h.refuse
  | renewing resolvedToken =>
    dsimp only
    split_ifs
    -- the only way to answer `kOk`
    · refine h.save.answer ?_
      intro hid _
      obtain ⟨hclaim, hshape⟩ := h.renewing t call resolvedToken hcall hid hstage
      exact ⟨by rw [save_claims, hclaim], hshape⟩
    · exact h.save.refuse

theorem Agreed.step (h : Agreed id s) (hexpire : e ≠ .expireClaim id) (hs : s.step e s') :
    Agreed id s' := by
  unfold VisitorSystem.step VisitorSystem.next at hs
  cases e with
  | bootstrap t existingToken requestId generated =>
    simp only at hs
    split_ifs at hs
    · obtain rfl := Option.some.inj hs
      exact h.answer (fun _ hok => by simp at hok)
    · obtain rfl := Option.some.inj hs
      exact h.refuse
    · obtain rfl := Option.some.inj hs
      exact h.setCall (fun token _ hstage => by simp at hstage)
    · obtain rfl := Option.some.inj hs
      exact h.withCandidate
  | run t result =>
    cases hcall : s.calls t with
    | none => simp [hcall] at hs
    | some call =>
      obtain rfl : s.advance t call result = s' := by simpa [hcall] using hs
      exact h.advance hcall
  | refresh token result =>
    simp only at hs
    split_ifs at hs
    · obtain rfl := Option.some.inj hs
      exact h.save
    · obtain rfl := Option.some.inj hs
      exact h
  | expireVisitor token =>
    obtain rfl := Option.some.inj hs
    exact h.frame rfl rfl (fun _ hclaim => hclaim)
  | expireClaim requestId =>
    obtain rfl := Option.some.inj hs
    -- another claim than that of `id`
    have hne : id ≠ requestId := fun hid => hexpire (by rw [hid])
    refine h.frame rfl rfl ?_
    intro token hclaim
    simpa [hne] using hclaim

theorem Agreed.run {s₀ : VisitorSystem} {events : List VisitorEvent}
    (hr : Run (Guarded (fun _ e => e ≠ .expireClaim id) VisitorSystem.step) s₀ events s)
    (h : Agreed id s₀) : Agreed id s :=
  hr.invariant (fun _ _ _ h hs => h.step hs.1 hs.2) h

section Reports

/-- A new report is the last one, and if it names a token, the key of that is there. -/
def Reports (s s' : VisitorSystem) : Prop :=
  ∀ r ∈ s'.reports, r ∈ s.reports ∨ (s'.reports.getLast? = some r ∧
    (r.result.status = .kOk → s'.keys.visitors r.result.token = true))

theorem reports_same (hreports : s'.reports = s.reports) : Reports s s' :=
  fun _ hr => .inl (hreports ▸ hr)

theorem reports_answer {s₁ : VisitorSystem} {requestId : Bytes}
    {answered : VisitorBootstrapResult} (hreports : s₁.reports = s.reports)
    (hok : answered.status = .kOk → s₁.keys.visitors answered.token = true) :
    Reports s (s₁.answer t requestId answered) := by
  intro r hr
  rcases List.mem_append.mp hr with hr | hr
  · exact .inl (hreports ▸ hr)
  · obtain rfl := List.mem_singleton.mp hr
    exact .inr ⟨List.getLast?_concat, hok⟩

theorem reports_refuse {s₁ : VisitorSystem} {requestId : Bytes}
    (hreports : s₁.reports = s.reports) : Reports s (s₁.answer t requestId {}) :=
  reports_answer hreports (fun hok => by simp at hok)

theorem reports_withCandidate {candidateToken : Bytes} :
    Reports s (s.withCandidate t call candidateToken) := by
  unfold VisitorSystem.withCandidate
  split_ifs
  · exact reports_same rfl
  · exact reports_refuse rfl

theorem reports_advance : Reports s (s.advance t call result) := by
  unfold VisitorSystem.advance
  cases call.stage with
  | looking existingToken =>
    dsimp only
    split_ifs
    · exact reports_withCandidate
    · exact reports_withCandidate
  | saving candidateToken =>
    dsimp only
    split_ifs
    · exact reports_same rfl
    · exact reports_refuse save_reports
  | claiming candidateToken =>
    dsimp only
    split_ifs
    · exact reports_same rfl
    · exact reports_refuse rfl
  | reading =>
    dsimp only
    split
    · exact reports_refuse rfl
    · split_ifs
      · exact reports_same rfl
      · exact reports_refuse rfl
  | renewing resolvedToken =>
    dsimp only
    split_ifs with hdone
    -- the key of the token has just been saved
    · exact reports_answer save_reports (fun _ => save_visitors hdone)
    · exact reports_refuse save_reports

theorem reports_step (hs : s.step e s') : Reports s s' := by
  unfold VisitorSystem.step VisitorSystem.next at hs
  cases e with
  | bootstrap t existingToken requestId generated =>
    simp only at hs
    split_ifs at hs
    all_goals obtain rfl := Option.some.inj hs
    · exact reports_answer rfl (fun hok => by simp at hok)
    · exact reports_refuse rfl
    · exact reports_same rfl
    · exact reports_withCandidate
  | run t result =>
    cases hcall : s.calls t with
    | none => simp [hcall] at hs
    | some call =>
      obtain rfl : s.advance t call result = s' := by simpa [hcall] using hs
      exact reports_advance
  | refresh token result =>
    simp only at hs
    split_ifs at hs
    all_goals obtain rfl := Option.some.inj hs
    · exact reports_same save_reports
    · exact reports_same rfl
  | expireVisitor token | expireClaim requestId =>
    obtain rfl := Option.some.inj hs
    exact reports_same rfl

end Reports

/-- Whatever the keys are at the start and however the calls interleave: while the claim of
`id` does not expire, the calls for `id` that answer `kOk` answer with one token, which is one,
and its key is there when the call returns. -/
theorem bootstrap_agreement {available : Bool} {keys : VisitorKeys} {id : Bytes}
    {events : List VisitorEvent} {s : VisitorSystem}
    (hr : Run (Guarded (fun _ e => e ≠ .expireClaim id) VisitorSystem.step)
      { available := available, keys := keys } events s) :
    (∀ r ∈ s.reports, r.requestId = id → r.result.status = .kOk →
      r.result.token.length = 64 ∧
        (∀ c ∈ r.result.token, (48 ≤ c ∧ c ≤ 57) ∨ (97 ≤ c ∧ c ≤ 102)) ∧
        Through (Guarded (fun _ e => e ≠ .expireClaim id) VisitorSystem.step)
          { available := available, keys := keys } events s
          (fun s₁ => s₁.reports.getLast? = some r ∧
            s₁.keys.visitors r.result.token = true)) ∧
    (∀ r ∈ s.reports, ∀ r' ∈ s.reports, r.requestId = id → r'.requestId = id →
      r.result.status = .kOk → r'.result.status = .kOk → r.result.token = r'.result.token) := by
  have h : Agreed id s := Agreed.run hr (agreed_start available keys)
  -- A report comes with the key of its token.
  have hnoted := hr.noted (fun _ _ _ hs => reports_step hs.2) rfl
  refine ⟨?_, ?_⟩
  · intro r hmem hid hok
    obtain ⟨-, hshape⟩ := h.reports r hmem hid hok
    simp only [validTokenSyntax, Bool.and_eq_true, decide_eq_true_eq, List.all_eq_true] at hshape
    refine ⟨hshape.1, ?_, ?_⟩
    · intro c hc
      simpa [isLowerHexDigit] using hshape.2 c hc
    · obtain ⟨pre, post, s₁, hsplit, hpre, hpost, hlast, hkey⟩ := hnoted r hmem
      exact ⟨pre, post, s₁, hsplit, hpre, hpost, hlast, hkey hok⟩
  · intro r hr r' hr' hid hid' hok hok'
    have hclaim := (h.reports r hr hid hok).1
    have hclaim' := (h.reports r' hr' hid' hok').1
    exact Option.some.inj (hclaim.symm.trans hclaim')

/-- Two calls, of which one brings a token of its own and sets the claim too late. -/
def twoBootstraps : List VisitorEvent :=
  .bootstrap 0 [] (ascii "start") (List.replicate 64 97) ::
    .bootstrap 1 (List.replicate 64 48) (ascii "start") (List.replicate 64 98) ::
    [0, 1, 1, 0, 1, 1, 0, 0, 1].map (.run · .replied)

theorem two_bootstraps_agree :
    ∃ s, Run (Guarded (fun _ e => e ≠ .expireClaim (ascii "start")) VisitorSystem.step)
        { keys := { visitors := (· == List.replicate 64 48) } } twoBootstraps s ∧
      s.reports.length = 2 ∧ ∀ r ∈ s.reports, r.result.status = .kOk ∧
        r.result.token.length = 64 ∧ r.result.token = List.replicate 64 97 ∧
        Through (Guarded (fun _ e => e ≠ .expireClaim (ascii "start")) VisitorSystem.step)
          { keys := { visitors := (· == List.replicate 64 48) } } twoBootstraps s
          (fun s₁ => s₁.reports.getLast? = some r ∧
            s₁.keys.visitors r.result.token = true) := by
  have hreplay : (Runs.replay (fun _ e => e ≠ .expireClaim (ascii "start")) next
      { keys := { visitors := (· == List.replicate 64 48) } } twoBootstraps).map (·.reports) =
      some (List.replicate 2 ⟨ascii "start", .kOk, List.replicate 64 97⟩) := by
    decide
  obtain ⟨s, hs, hreports⟩ := Option.map_eq_some_iff.mp hreplay
  have hrun := Runs.run_of_replay hs
  obtain ⟨htoken, hagree⟩ := bootstrap_agreement hrun
  have hfirst : (⟨ascii "start", .kOk, List.replicate 64 97⟩ : BootstrapReport) ∈ s.reports := by
    rw [hreports]
    exact List.mem_replicate.mpr ⟨by omega, rfl⟩
  refine ⟨s, hrun, by rw [hreports]; rfl, ?_⟩
  intro r hr
  obtain ⟨_, rfl⟩ := List.mem_replicate.mp (hreports ▸ hr)
  obtain ⟨hlength, -, hkey⟩ := htoken _ hr rfl rfl
  exact ⟨rfl, hlength, hagree _ hr _ hfirst rfl rfl rfl rfl, hkey⟩

end JingjieAR.VisitorSystem
