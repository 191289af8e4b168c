import JingjieAR.VisitorPresenceModel

/-! Where the visitor of a hidden page is marked online. The restoration looks at the page when
it has ended and takes its mark back; the recovery of a heartbeat does not. -/
namespace JingjieAR.VisitorSession

open Runs (Run Guarded)

variable {cfg : VisitorSetting} {s s' : VisitorSession}

/-- An exit of the same showing that was sent from the hidden page follows the request. -/
def IsFollowedBy (r x : IssuedRequest) : Prop :=
  x.request = .exit ∧ x.hidden = true ∧ x.shown = r.shown

theorem any_exit_iff {issued : List IssuedRequest} {r : IssuedRequest} :
    issued.any (fun x => x.request = .exit && x.hidden && x.shown = r.shown) = true ↔
      ∃ x ∈ issued, IsFollowedBy r x := by
  simp [List.any_eq_true, IsFollowedBy, and_assoc]

theorem mem_unfollowed_cons {issued : List IssuedRequest} {first r : IssuedRequest} :
    r ∈ unfollowed (first :: issued) ↔
      (r = first ∧ first.marksOnline = true ∧ first.hidden = true ∧
        ¬∃ x ∈ issued, IsFollowedBy first x) ∨ r ∈ unfollowed issued := by
  rw [unfollowed, ← any_exit_iff]
  split_ifs with hmark
  · simp only [Bool.and_eq_true, Bool.not_eq_true'] at hmark
    simp [hmark]
  · simp only [Bool.and_eq_true, Bool.not_eq_true', not_and, Bool.not_eq_false] at hmark
    have hnot : ¬(r = first ∧ first.marksOnline = true ∧ first.hidden = true ∧
        ¬issued.any (fun x => x.request = .exit && x.hidden && x.shown = first.shown) = true) := by
      rintro ⟨-, honline, hhidden, hany⟩
      exact hany (hmark ⟨honline, hhidden⟩)
    rw [or_iff_right hnot]

theorem mem_unfollowed_snoc {issued : List IssuedRequest} {x r : IssuedRequest} :
    r ∈ unfollowed (issued++[x]) ↔
      (r ∈ unfollowed issued ∧ ¬IsFollowedBy r x) ∨
        (r = x ∧ x.marksOnline = true ∧ x.hidden = true) := by
  induction issued with
  | nil =>
    rw [List.nil_append, mem_unfollowed_cons]
    simp [unfollowed, and_comm]
  | cons first issued ih =>
    have hfollowed : (∃ y ∈ issued++[x], IsFollowedBy first y) ↔
        (∃ y ∈ issued, IsFollowedBy first y) ∨ IsFollowedBy first x := by
      simp [or_and_right, exists_or]
    rw [List.cons_append, mem_unfollowed_cons, mem_unfollowed_cons, ih, hfollowed]
    -- Both sides are the same four cases.
    constructor
    · rintro (⟨rfl, honline, hhidden, hnone⟩ | ⟨hold, hnot⟩ | hnew)
      · exact .inl ⟨.inl ⟨rfl, honline, hhidden, fun h => hnone (.inl h)⟩, fun h => hnone (.inr h)⟩
      · exact .inl ⟨.inr hold, hnot⟩
      · exact .inr hnew
    · rintro (⟨⟨rfl, honline, hhidden, hnone⟩ | hold, hnot⟩ | hnew)
      · exact .inl ⟨rfl, honline, hhidden, fun h => h.elim hnone hnot⟩
      · exact .inr (.inl ⟨hold, hnot⟩)
      · exact .inr (.inr hnew)

/-- The timer that is noted is the interval that runs, there is none on a hidden page, and a
restoration that belongs to the present generation finds the page visible. -/
structure Inv (s : VisitorSession) : Prop where
  intervals : s.intervals = s.heartbeatTimer.toList
  timer : s.pageVisible = false → s.heartbeatTimer = none
  generations : ∀ restore ∈ s.restores, restore.generation ≤ s.pageGeneration ∧
    (restore.generation = s.pageGeneration → s.pageVisible = true)
  exits : ∀ r ∈ unfollowed s.issued,
    s.pageVisible = false ∧ r.shown = s.shown ∧ s.RestoresHidden

theorem Inv.followsVisibility (h : Inv s) : FollowsVisibility s := by
  refine ⟨?_, ?_, h.exits⟩
  · rw [h.intervals]
    exact Option.length_toList_le
  · intro hhidden
    rw [h.intervals, h.timer hhidden]
    rfl

/-- On a visible page every mark has been followed. -/
theorem Inv.unfollowed_of_visible (h : Inv s) (hvisible : s.pageVisible = true) :
    unfollowed s.issued = [] := by
  apply List.eq_nil_iff_forall_not_mem.mpr
  intro r hr
  have hhidden := (h.exits r hr).1
  simp [hvisible] at hhidden

theorem Inv.unfollowed_of_not_restoresHidden (h : Inv s) (hnone : ¬ s.RestoresHidden) :
    unfollowed s.issued = [] := by
  apply List.eq_nil_iff_forall_not_mem.mpr
  intro r hr
  exact hnone (h.exits r hr).2.2

/-- A request from a visible page leaves no mark behind. -/
theorem unfollowed_issue_visible (request : PresenceRequest) (hvisible : s.pageVisible = true)
    (hnone : unfollowed s.issued = []) : unfollowed (s.issue request).issued = [] := by
  apply List.eq_nil_iff_forall_not_mem.mpr
  intro r hr
  rcases mem_unfollowed_snoc.mp hr with ⟨hold, -⟩ | ⟨rfl, -, hhidden⟩
  · simp [hnone] at hold
  · simp [hvisible] at hhidden

/-- An exit follows all marks of the time in which the page is hidden. -/
theorem unfollowed_issue_exit (hhidden : s.pageVisible = false)
    (hshown : ∀ r ∈ unfollowed s.issued, r.shown = s.shown) :
    unfollowed (s.issue .exit).issued = [] := by
  apply List.eq_nil_iff_forall_not_mem.mpr
  intro r hr
  rcases mem_unfollowed_snoc.mp hr with ⟨hold, hnot⟩ | ⟨rfl, honline, -⟩
  · exact hnot ⟨rfl, by simp [hhidden], (hshown r hold).symm⟩
  · simp [IssuedRequest.marksOnline] at honline

section StopHeartbeat

/-- `stopHeartbeat` on a hidden page: no timer is left, and an exit follows all marks if there
is a token; otherwise nothing is issued. -/
theorem stopHeartbeat_spec (s : VisitorSession) :
    s.stopHeartbeat.heartbeatTimer = none ∧
    (s.intervals = s.heartbeatTimer.toList → s.stopHeartbeat.intervals = []) ∧
    s.stopHeartbeat.pageVisible = s.pageVisible ∧
    s.stopHeartbeat.pageGeneration = s.pageGeneration ∧
    s.stopHeartbeat.restores = s.restores ∧ s.stopHeartbeat.shown = s.shown ∧
    s.stopHeartbeat.issued = if s.token then (s.issue .exit).issued else s.issued := by
  rw [stopHeartbeat]
  cases htimer : s.heartbeatTimer with
  | none =>
    by_cases htoken : s.token = true
    · simp [htoken, issue, htimer]
    · simp [htoken, htimer]
  | some timer =>
    by_cases htoken : s.token = true
    · simp +contextual [htoken, issue]
    · simp +contextual [htoken]

theorem Inv.stopHeartbeat (hhidden : s.pageVisible = false)
    (hintervals : s.intervals = s.heartbeatTimer.toList)
    (hgenerations : ∀ restore ∈ s.restores, restore.generation ≤ s.pageGeneration ∧
      (restore.generation = s.pageGeneration → s.pageVisible = true))
    (hshown : ∀ r ∈ unfollowed s.issued, r.shown = s.shown)
    (hexits : s.token = true ∨ ∀ r ∈ unfollowed s.issued, s.RestoresHidden) :
    Inv s.stopHeartbeat := by
  obtain ⟨htimer, hempty, hvisible, hgeneration, hrestores, hshown', hissued⟩ :=
    stopHeartbeat_spec s
  refine ⟨?_, fun _ => htimer, ?_, ?_⟩
  · rw [htimer]
    exact hempty hintervals
  · rw [hrestores, hgeneration, hvisible]
    exact hgenerations
  · intro r hr
    rw [hissued] at hr
    by_cases htoken : s.token = true
    · rw [if_pos htoken, unfollowed_issue_exit hhidden hshown] at hr
      simp at hr
    · rw [if_neg htoken] at hr
      have hrestore := (hexits.resolve_left htoken) r hr
      rw [RestoresHidden, hrestores]
      exact ⟨hvisible.trans hhidden, (hshown r hr).trans hshown'.symm, hrestore⟩

end StopHeartbeat

theorem Inv.startHeartbeat (h : Inv s) (hvisible : s.pageVisible = true) :
    Inv s.startHeartbeat := by
  rw [VisitorSession.startHeartbeat]
  cases htimer : s.heartbeatTimer with
  | some timer => exact h
  | none =>
    have hempty : s.intervals = [] := by
      rw [h.intervals, htimer]
      rfl
    refine ⟨?_, ?_, h.generations, h.exits⟩
    · simp only [hempty]
      rfl
    · intro hhidden
      simp [hvisible] at hhidden

/-- The bootstrap of a restoration, from a visible page or a hidden one. -/
theorem Inv.restoreRequests {j generation : ℕ} (h : Inv s) (hj : j < s.restores.length)
    (hg : generation ≤ s.pageGeneration ∧
      (generation = s.pageGeneration → s.pageVisible = true)) :
    Inv ((s.setRestore j ⟨generation, .requesting (!s.pageVisible)⟩).issue .bootstrap) := by
  refine ⟨h.intervals, h.timer, ?_, ?_⟩
  · intro restore hmem
    rcases List.mem_or_eq_of_mem_set hmem with hold | rfl
    · exact h.generations restore hold
    · exact hg
  · intro r hr
    by_cases hvisible : s.pageVisible = true
    · have hnone := unfollowed_issue_visible .bootstrap hvisible
        (h.unfollowed_of_visible hvisible)
      have hsame : ((s.setRestore j ⟨generation, .requesting (!s.pageVisible)⟩).issue
          .bootstrap).issued = (s.issue .bootstrap).issued := rfl
      rw [hsame, hnone] at hr
      simp at hr
    · -- The mark of a hidden page: the restoration that made it is under way.
      simp only [Bool.not_eq_true] at hvisible
      refine ⟨hvisible, ?_, ⟨generation, .requesting (!s.pageVisible)⟩, ?_, by simp [hvisible]⟩
      · rcases mem_unfollowed_snoc.mp hr with ⟨hold, -⟩ | ⟨rfl, -, -⟩
        · exact (h.exits r hold).2.1
        · rfl
      · exact List.mem_iff_getElem?.mpr ⟨j, by simp [setRestore, issue, hj]⟩

/-- A restoration that has come to its end and leaves no mark behind, or has a token. -/
theorem Inv.restored {generation : ℕ} (hintervals : s.intervals = s.heartbeatTimer.toList)
    (htimer : s.pageVisible = false → s.heartbeatTimer = none)
    (hgenerations : ∀ restore ∈ s.restores, restore.generation ≤ s.pageGeneration ∧
      (restore.generation = s.pageGeneration → s.pageVisible = true))
    (hg : generation = s.pageGeneration → s.pageVisible = true)
    (hshown : ∀ r ∈ unfollowed s.issued, s.pageVisible = false ∧ r.shown = s.shown)
    (hexits : s.token = true ∨ ∀ r ∈ unfollowed s.issued, s.RestoresHidden) :
    Inv (s.restored generation) := by
  have hkept : s.pageVisible = true → Inv s := by
    intro hvisible
    refine ⟨hintervals, htimer, hgenerations, ?_⟩
    intro r hr
    have hhidden := (hshown r hr).1
    simp [hvisible] at hhidden
  rw [VisitorSession.restored]
  by_cases hsame : generation = s.pageGeneration
  · rw [if_neg (not_not.mpr hsame)]
    exact (hkept (hg hsame)).startHeartbeat (hg hsame)
  · rw [if_pos hsame]
    by_cases hvisible : s.pageVisible = true
    · rw [if_pos hvisible]
      exact hkept hvisible
    · rw [if_neg hvisible]
      exact Inv.stopHeartbeat (Bool.eq_false_iff.mpr hvisible) hintervals hgenerations
        (fun r hr => (hshown r hr).2) hexits

theorem mem_set_of_ne {restores : List PageRestore} {j : ℕ} {a b restore : PageRestore}
    (hj : restores[j]? = some a) (hne : restore ≠ a) (hmem : restore ∈ restores) :
    restore ∈ restores.set j b := by
  obtain ⟨k, hk⟩ := List.mem_iff_getElem?.mp hmem
  have hkj : j ≠ k := by
    rintro rfl
    exact hne (Option.some.inj (hk.symm.trans hj))
  exact List.mem_iff_getElem?.mpr ⟨k, by rw [List.getElem?_set_ne hkj, hk]⟩

section Restoring

variable {j generation : ℕ} {stage : RestoreStage}

theorem Inv.generations_set (h : Inv s) (hj : s.restores[j]? = some ⟨generation, stage⟩)
    (stage' : RestoreStage) : ∀ restore ∈ (s.setRestore j ⟨generation, stage'⟩).restores,
      restore.generation ≤ s.pageGeneration ∧
        (restore.generation = s.pageGeneration → s.pageVisible = true) := by
  intro restore hmem
  rcases List.mem_or_eq_of_mem_set hmem with hold | rfl
  · exact h.generations restore hold
  · exact h.generations ⟨generation, stage⟩ (List.mem_of_getElem? hj)

/-- Another restoration than the one that goes on is still under way. -/
theorem RestoresHidden.set (h : s.RestoresHidden)
    (hj : s.restores[j]? = some ⟨generation, stage⟩) (hstage : stage ≠ .requesting true)
    (restore : PageRestore) : (s.setRestore j restore).RestoresHidden := by
  obtain ⟨other, hmem, hother⟩ := h
  refine ⟨other, mem_set_of_ne hj ?_ hmem, hother⟩
  rintro rfl
  exact hstage hother

theorem Inv.restoreAfterExit (h : Inv s) (hj : s.restores[j]? = some ⟨generation, stage⟩)
    (hstage : stage ≠ .requesting true) : Inv (s.restoreAfterExit cfg j generation) := by
  have hg := h.generations _ (List.mem_of_getElem? hj)
  rw [VisitorSession.restoreAfterExit]
  split_ifs
  · exact h.restoreRequests (List.getElem?_eq_some_iff.mp hj).1 hg
  · refine Inv.restored h.intervals h.timer (h.generations_set hj _) hg.2 ?_ (.inr ?_)
    · intro r hr
      exact ⟨(h.exits r hr).1, (h.exits r hr).2.1⟩
    · intro r hr
      exact (h.exits r hr).2.2.set hj hstage _

theorem restores_restored (s : VisitorSession) (generation : ℕ) :
    (s.restored generation).restores = s.restores := by
  rw [VisitorSession.restored]
  split_ifs
  · rfl
  · exact (stopHeartbeat_spec s).2.2.2.2.1
  · rw [VisitorSession.startHeartbeat]
    split
    · rfl
    · rfl

theorem restores_restoreAfterExit {k : ℕ} (hk : j ≠ k) :
    (s.restoreAfterExit cfg j generation).restores[k]? = s.restores[k]? := by
  rw [VisitorSession.restoreAfterExit]
  split_ifs
  · exact List.getElem?_set_ne hk
  · rw [restores_restored]
    exact List.getElem?_set_ne hk

/-- The restorations that go on after an exit are different ones, so that each of them is
found as it was before. -/
theorem Inv.resume (exit : ℕ) (todo : List (PageRestore × ℕ)) (h : Inv s)
    (hnodup : (todo.map (·.2)).Nodup)
    (htodo : ∀ restore ∈ todo, s.restores[restore.2]? = some restore.1) :
    Inv (todo.foldl (fun s restore =>
      if restore.1.stage = .waiting exit then
        s.restoreAfterExit cfg restore.2 restore.1.generation
      else s) s) := by
  induction todo generalizing s with
  | nil => exact h
  | cons restore todo ih =>
    obtain ⟨hnew, hrest⟩ := List.nodup_cons.mp hnodup
    have hfirst := htodo restore List.mem_cons_self
    rw [List.foldl_cons]
    split_ifs with hwaiting
    · refine ih (h.restoreAfterExit hfirst (by simp [hwaiting])) hrest ?_
      intro other hother
      have hne : restore.2 ≠ other.2 := by
        intro heq
        exact hnew (List.mem_map.mpr ⟨other, hother, heq.symm⟩)
      rw [restores_restoreAfterExit hne]
      exact htodo other (List.mem_cons_of_mem _ hother)
    · exact ih h hrest fun other hother => htodo other (List.mem_cons_of_mem _ hother)

theorem Inv.resumeRestores (h : Inv s) (exit : ℕ) : Inv (s.resumeRestores cfg exit) := by
  apply Inv.resume exit s.restores.zipIdx h
  · rw [List.zipIdx_map_snd]
    exact List.nodup_range'
  · intro restore hrestore
    exact List.mk_mem_zipIdx_iff_getElem?.mp hrestore

/-- A new restoration of the present generation. -/
theorem Inv.append (h : Inv s) (hvisible : s.pageVisible = true) (stage : RestoreStage) :
    Inv { s with restores := s.restores++[⟨s.pageGeneration, stage⟩] } := by
  refine ⟨h.intervals, h.timer, ?_, ?_⟩
  · intro restore hmem
    rcases List.mem_append.mp hmem with hold | hnew
    · exact h.generations restore hold
    · rw [List.mem_singleton.mp hnew]
      exact ⟨Nat.le_refl _, fun _ => hvisible⟩
  · intro r hr
    have hhidden := (h.exits r hr).1
    simp [hvisible] at hhidden

theorem Inv.restoreNow (h : Inv s) (hvisible : s.pageVisible = true) :
    Inv (s.restoreNow cfg) := by
  have hlast : (s.restores++[⟨s.pageGeneration, .finished⟩])[s.restores.length]? =
      some (⟨s.pageGeneration, .finished⟩ : PageRestore) := by simp
  exact (h.append hvisible .finished).restoreAfterExit hlast (by simp)

end Restoring

theorem Inv.acceptBootstrap (h : Inv s) (reply : BootstrapReply) :
    Inv (s.acceptBootstrap cfg reply) := by
  rw [VisitorSession.acceptBootstrap.eq_def]
  split
  · exact ⟨h.intervals, h.timer, h.generations, h.exits⟩
  · exact h

/-- A recovery asks for its bootstrap on a visible page. -/
theorem Inv.recover (h : Inv s)
    (hvisible : s.asksBootstrap cfg = true → s.pageVisible = true) : Inv (s.recover cfg) := by
  rw [VisitorSession.recover]
  split_ifs with hasks
  · refine ⟨h.intervals, h.timer, h.generations, ?_⟩
    intro r hr
    have hnone := unfollowed_issue_visible .bootstrap (hvisible hasks)
      (h.unfollowed_of_visible (hvisible hasks))
    have hsame : (issue { s with recovering := true } .bootstrap).issued =
        (s.issue .bootstrap).issued := rfl
    rw [hsame, hnone] at hr
    simp at hr
  · exact h

theorem Inv.heartbeat (h : Inv s) (hvisible : s.pageVisible = true) : Inv s.heartbeat := by
  refine ⟨h.intervals, h.timer, h.generations, ?_⟩
  intro r hr
  have hnone := unfollowed_issue_visible .heartbeat hvisible (h.unfollowed_of_visible hvisible)
  have hsame : s.heartbeat.issued = (s.issue .heartbeat).issued := rfl
  rw [hsame, hnone] at hr
  simp at hr

theorem Inv.onPagehide (h : Inv s) : Inv s.onPagehide := by
  refine Inv.stopHeartbeat rfl h.intervals ?_ (fun r hr => (h.exits r hr).2.1)
    (.inr fun r hr => (h.exits r hr).2.2)
  intro restore hmem
  have hle := (h.generations restore hmem).1
  exact ⟨Nat.le_succ_of_le hle, fun heq => absurd heq (Nat.ne_of_lt (Nat.lt_succ_of_le hle))⟩

theorem Inv.onPageshow (h : Inv s) (hnone : unfollowed s.issued = []) :
    Inv (s.onPageshow cfg) := by
  have hshown : Inv { s with pageVisible := true, shown := s.shown+1 } := by
    refine ⟨h.intervals, fun hhidden => by simp at hhidden, ?_, ?_⟩
    · intro restore hmem
      exact ⟨(h.generations restore hmem).1, fun _ => rfl⟩
    · intro r hr
      simp [hnone] at hr
  rw [VisitorSession.onPageshow]
  split
  · exact hshown.restoreNow rfl
  · split_ifs
    · exact hshown.restoreNow rfl
    · exact hshown.append rfl _

theorem Inv.restoreEnds {j generation : ℕ} {hidden : Bool} {reply : BootstrapReply} (h : Inv s)
    (hj : s.restores[j]? = some ⟨generation, .requesting hidden⟩)
    (hwatched : s.Watched cfg (.restoreEnds j reply)) :
    Inv (((s.setRestore j ⟨generation, .finished⟩).acceptBootstrap cfg reply).restored
      generation) := by
  let s₁ := (s.setRestore j ⟨generation, .finished⟩).acceptBootstrap cfg reply
  have hfields : s₁.intervals = s.intervals ∧ s₁.heartbeatTimer = s.heartbeatTimer ∧
      s₁.pageVisible = s.pageVisible ∧ s₁.pageGeneration = s.pageGeneration ∧
      s₁.restores = s.restores.set j ⟨generation, .finished⟩ ∧ s₁.issued = s.issued ∧
      s₁.shown = s.shown ∧ s₁.token = (s.acceptBootstrap cfg reply).token := by
    simp only [s₁]
    rw [VisitorSession.acceptBootstrap.eq_def, VisitorSession.acceptBootstrap.eq_def]
    split
    · exact ⟨rfl, rfl, rfl, rfl, rfl, rfl, rfl, rfl⟩
    · exact ⟨rfl, rfl, rfl, rfl, rfl, rfl, rfl, rfl⟩
  obtain ⟨hintervals, htimer, hvisible, hgeneration, hrestores, hissued, hshown, htoken⟩ := hfields
  have hg := h.generations _ (List.mem_of_getElem? hj)
  refine Inv.restored ?_ ?_ ?_ ?_ ?_ ?_
  · rw [hintervals, htimer]
    exact h.intervals
  · rw [hvisible, htimer]
    exact h.timer
  · rw [hrestores, hgeneration, hvisible]
    exact h.generations_set hj .finished
  · rw [hgeneration, hvisible]
    exact hg.2
  · rw [hissued, hvisible, hshown]
    intro r hr
    exact ⟨(h.exits r hr).1, (h.exits r hr).2.1⟩
  · rw [hissued, htoken]
    rcases hwatched with hshows | htoken' | hother
    · refine .inr fun r hr => ?_
      have hhidden := (h.exits r hr).1
      simp [hshows] at hhidden
    · exact .inl htoken'
    · refine .inr fun r hr => ?_
      have hstage : RestoreStage.requesting hidden ≠ .requesting true := by
        rintro heq
        exact hother generation (heq ▸ hj)
      have hrestore := (h.exits r hr).2.2.set hj hstage ⟨generation, .finished⟩
      rw [RestoresHidden, hrestores]
      exact hrestore

theorem Inv.step {e : PageEvent} (h : Inv s) (hwatched : s.Watched cfg e)
    (hstep : Step cfg s e s') : Inv s' := by
  cases e with
  | tick timer =>
    simp only [Step, next, Option.ite_none_right_eq_some] at hstep
    obtain ⟨htimer, hs⟩ := hstep
    obtain rfl := Option.some.inj hs
    -- An interval that runs is the one of a visible page.
    have hvisible : s.pageVisible = true := by
      by_contra hhidden
      rw [h.intervals, h.timer (Bool.eq_false_iff.mpr hhidden)] at htimer
      simp at htimer
    exact h.heartbeat hvisible
  | heartbeatEnds reply =>
    simp only [Step, next, Option.ite_none_right_eq_some] at hstep
    obtain ⟨-, hs⟩ := hstep
    obtain rfl := Option.some.inj hs
    have hended : Inv { s with heartbeats := s.heartbeats-1 } :=
      ⟨h.intervals, h.timer, h.generations, h.exits⟩
    rw [VisitorSession.heartbeatEnds]
    split_ifs with hwants
    · refine hended.recover fun hasks => ?_
      rcases hwatched with hvisible | hno | hno
      · exact hvisible
      · rw [hno] at hwants
        contradiction
      · have hasks' : s.asksBootstrap cfg = true := hasks
        rw [hno] at hasks'
        contradiction
    · exact hended
  | recoveryEnds reply =>
    simp only [Step, next, Option.ite_none_right_eq_some] at hstep
    obtain ⟨-, hs⟩ := hstep
    obtain rfl := Option.some.inj hs
    have hended : Inv { s with recovering := false } :=
      ⟨h.intervals, h.timer, h.generations, h.exits⟩
    exact hended.acceptBootstrap reply
  | exitEnds i =>
    simp only [Step, next, Option.ite_none_right_eq_some] at hstep
    obtain ⟨-, hs⟩ := hstep
    obtain rfl := Option.some.inj hs
    have hended : Inv { s with exits := s.exits.set i true } :=
      ⟨h.intervals, h.timer, h.generations, h.exits⟩
    exact hended.resumeRestores i
  | restoreEnds j reply =>
    simp only [Step, next] at hstep
    split at hstep
    · rename_i generation hidden hj
      obtain rfl := Option.some.inj hstep
      exact h.restoreEnds hj hwatched
    · contradiction
  | pagehide =>
    obtain rfl := Option.some.inj hstep
    exact h.onPagehide
  | pageshow persisted =>
    obtain rfl := Option.some.inj hstep
    cases persisted with
    | false => exact h
    | true =>
      rcases hwatched with hvisible | hno | hnone
      · exact h.onPageshow (h.unfollowed_of_visible hvisible)
      · contradiction
      · exact h.onPageshow (h.unfollowed_of_not_restoresHidden hnone)

theorem Inv.started (token statisticsPending : Bool) : Inv (started token statisticsPending) :=
  ⟨rfl, fun h => by contradiction, by simp [VisitorSession.started, VisitorSession.startHeartbeat],
    by simp [VisitorSession.started, VisitorSession.startHeartbeat, unfollowed]⟩

/-- Presence follows visibility in every run in which nothing happens unwatched: no heartbeat
leads to a bootstrap while the page is hidden, the page is not shown again while a restoration
that asked in hiding is under way, and such a restoration ends with a token. -/
theorem follows_visibility_of_watched {cfg : VisitorSetting} {token statisticsPending : Bool}
    {es : List PageEvent} {s : VisitorSession}
    (hr : Run (Guarded (Watched cfg) (Step cfg)) (started token statisticsPending) es s) :
    FollowsVisibility s := by
  have hstep : ∀ s e s', Inv s → Guarded (Watched cfg) (Step cfg) s e s' → Inv s' :=
    fun _ _ _ h hguarded => h.step hguarded.1 hguarded.2
  exact (hr.invariant hstep (.started token statisticsPending)).followsVisibility

/-- The page is hidden while a heartbeat is under way, and its answer is a 401. -/
def unauthorizedInHiding : List PageEvent :=
  [.tick 0, .pagehide, .exitEnds 0, .heartbeatEnds .unauthorized, .recoveryEnds (.ok true true)]

/-- The visitor is marked online again, nothing is under way, and no exit follows. -/
theorem online_in_hiding : ∃ s, Run (Step ⟨true, true⟩) (started true false) unauthorizedInHiding s ∧
    s.issued = [⟨.heartbeat, false, 0⟩, ⟨.exit, true, 0⟩, ⟨.bootstrap, true, 0⟩] ∧
    s.pageVisible = false ∧ ¬ FollowsVisibility s := by
  have hrun : ∃ s, Run (Step ⟨true, true⟩) (started true false) unauthorizedInHiding s ∧
      s.issued = [⟨.heartbeat, false, 0⟩, ⟨.exit, true, 0⟩, ⟨.bootstrap, true, 0⟩] ∧
      s.pageVisible = false ∧ s.restores = [] :=
    ⟨_, .cons rfl (.cons rfl (.cons rfl (.cons rfl (.cons rfl (.nil _))))), rfl, rfl, rfl⟩
  obtain ⟨s, hr, hissued, hhidden, hrestores⟩ := hrun
  refine ⟨s, hr, hissued, hhidden, ?_⟩
  intro h
  have hmem : ⟨.bootstrap, true, 0⟩ ∈ unfollowed s.issued := by
    rw [hissued]
    decide
  obtain ⟨-, -, restore, hrestore, -⟩ := h.exits _ hmem
  simp [hrestores] at hrestore

/-- A page that is hidden, shown, and hidden again before its exit request has ended: the
restoration asks in hiding, and takes its mark back. -/
theorem follows_visibility_hidden_twice : ∃ s,
    Run (Guarded (Watched ⟨true, true⟩) (Step ⟨true, true⟩)) (started true false)
      [.pagehide, .pageshow true, .pagehide, .exitEnds 0, .restoreEnds 0 (.ok true true)] s ∧
    s.pageVisible = false ∧ FollowsVisibility s := by
  have hrun : ∃ s, Run (Guarded (Watched ⟨true, true⟩) (Step ⟨true, true⟩)) (started true false)
      [.pagehide, .pageshow true, .pagehide, .exitEnds 0, .restoreEnds 0 (.ok true true)] s ∧
      s.pageVisible = false := by
    refine ⟨_, .cons ⟨trivial, rfl⟩ (.cons ⟨.inr (.inr ?_), rfl⟩ (.cons ⟨trivial, rfl⟩
      (.cons ⟨trivial, rfl⟩ (.cons ⟨.inr (.inl rfl), rfl⟩ (.nil _))))), rfl⟩
    rintro ⟨restore, hmem, -⟩
    have hempty : (onPagehide (started true false)).restores = [] := rfl
    rw [hempty] at hmem
    simp at hmem
  obtain ⟨s, hr, hhidden⟩ := hrun
  exact ⟨s, hr, hhidden, follows_visibility_of_watched hr⟩

end JingjieAR.VisitorSession
