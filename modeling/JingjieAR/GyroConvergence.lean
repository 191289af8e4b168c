import JingjieAR.GyroModel

/-! When the gyroscope is as it is to be. Late events change `gyroEnabled` but nothing else; what
they do shows at the next step that reads it. -/
namespace JingjieAR.GyroViewer

open Runs (Run Guarded)

variable {Reason : Type} {s s' : GyroViewer Reason}

section Calls

/-- Nothing is refused exactly if the gyroscope is to be on. -/
theorem refuses_iff (c : GyroController Reason) :
    (c.destroyed = true ∨ c.permissionGranted = false ∨ c.suspensions.card ≠ 0 ∨
      c.isAvailable = false) ↔ ¬ c.Allowed := by
  rw [GyroController.Allowed, GyroController.isAvailable, Ne, Finset.card_eq_zero]
  cases c.destroyed
  all_goals cases c.permissionGranted
  all_goals cases c.pluginAvailable
  all_goals simp

theorem enableIfAllowed_of_not (h : ¬ s.controller.Allowed) : s.enableIfAllowed.2 = s := by
  rw [enableIfAllowed, if_pos ((refuses_iff _).mpr h)]

theorem enableIfAllowed_of_enabled (h : s.controller.gyroEnabled = true) :
    s.enableIfAllowed.2 = s := by
  rw [enableIfAllowed]
  split_ifs with hrefuses hflag
  · rfl
  · rw [h] at hflag
    contradiction
  · rfl

theorem enableIfAllowed_of_off (h : s.controller.Allowed)
    (hflag : s.controller.gyroEnabled = false) :
    s.enableIfAllowed.2 = { s with
      plugin := s.plugin.enableGyro
      controller := { s.controller with gyroEnabled := true } } := by
  rw [enableIfAllowed, if_neg (fun hrefuses => (refuses_iff _).mp hrefuses h), if_pos hflag]

theorem setEnabled_enabled {p : GyroPlugin} (h : p.player = true) (enabled : Bool) :
    (p.setEnabled enabled).enabled = enabled := by
  rw [GyroPlugin.setEnabled, if_pos h]

/-- After a step that is to switch the gyroscope on. -/
theorem converged_enable (hplayer : s.controller.Allowed → s.plugin.player = true)
    (hoff : s.plugin.enabled = true → s.controller.Allowed) :
    Converged s.enableIfAllowed.2 ↔ s.TrustedOn s.controller := by
  by_cases hallowed : s.controller.Allowed
  · cases hflag : s.controller.gyroEnabled with
    | true =>
      rw [enableIfAllowed_of_enabled hflag, Converged, TrustedOn]
      exact ⟨fun h _ _ => h.mpr hallowed, fun h => ⟨hoff, fun _ => h hallowed hflag⟩⟩
    | false =>
      rw [enableIfAllowed_of_off hallowed hflag]
      have hon := setEnabled_enabled (hplayer hallowed) true
      constructor
      · intro _ _ htrue
        rw [hflag] at htrue
        contradiction
      · exact fun _ => ⟨fun _ => hallowed, fun _ => hon⟩
  · rw [enableIfAllowed_of_not hallowed]
    exact ⟨fun _ h => absurd h hallowed, fun _ => ⟨hoff, fun h => absurd h hallowed⟩⟩

/-- After a step that is to switch it off. -/
theorem converged_disable (hplayer : s.plugin.enabled = true → s.plugin.player = true)
    (hnot : ¬ s.controller.Allowed) : Converged s.disableIfEnabled ↔ s.TrustedOff := by
  rw [disableIfEnabled]
  split_ifs with hflag
  · have hoff : s.plugin.disableGyro.enabled = false := by
      rw [GyroPlugin.disableGyro, GyroPlugin.setEnabled]
      split_ifs with hp
      · rfl
      · simpa using mt hplayer hp
    refine ⟨fun _ _ => hflag, fun _ => ⟨?_, fun h => absurd h hnot⟩⟩
    intro hon
    rw [hoff] at hon
    contradiction
  · exact ⟨fun h hon => absurd (h.mp hon) hnot,
      fun h => ⟨fun hon => absurd (h hon) hflag, fun h => absurd h hnot⟩⟩

end Calls

/-- What holds of the permission and the player, whether `gyroEnabled` is right or not. -/
structure Inv (s : GyroViewer Reason) : Prop where
  player : s.controller.pluginAvailable = true ∨ s.plugin.enabled = true → s.plugin.player = true
  granted : s.controller.permissionGranted = true ∨ s.plugin.enabled = true →
    s.controller.permissionSources = 0 ∨ s.controller.permissionRequest ≠ .none ∧ s.asking = false
  asking : s.asking = true → s.controller.permissionSources ≠ 0
  requested : s.controller.permissionRequested = true → s.controller.permissionRequest ≠ .none

theorem Inv.initial (sources : ℕ) (notify : Bool) : Inv (initial Reason sources notify) := by
  refine ⟨?_, ?_, ?_, ?_⟩
  · simp [GyroViewer.initial]
  · simp [GyroViewer.initial]
  · simp [GyroViewer.initial]
  · simp [GyroViewer.initial]

theorem converged_initial (sources : ℕ) (notify : Bool) :
    Converged (initial Reason sources notify) := by
  simp [Converged, GyroViewer.initial, GyroController.Allowed]

section Steps

theorem setEnabled_player (p : GyroPlugin) (enabled : Bool) :
    (p.setEnabled enabled).player = p.player := by
  rw [GyroPlugin.setEnabled]
  split_ifs
  · rfl
  · rfl

theorem Inv.enable (h : Inv s) : Inv s.enableIfAllowed.2 := by
  by_cases hallowed : s.controller.Allowed
  · cases hflag : s.controller.gyroEnabled with
    | true =>
      rw [enableIfAllowed_of_enabled hflag]
      exact h
    | false =>
      rw [enableIfAllowed_of_off hallowed hflag]
      refine ⟨?_, ?_, h.asking, h.requested⟩
      · intro _
        exact (setEnabled_player _ _).trans (h.player (.inl hallowed.2.1))
      · intro _
        exact h.granted (.inl hallowed.1)
  · rw [enableIfAllowed_of_not hallowed]
    exact h

theorem Inv.disable (h : Inv s) : Inv s.disableIfEnabled := by
  rw [disableIfEnabled]
  split_ifs
  · have hon : s.plugin.disableGyro.enabled = true → s.plugin.enabled = true := by
      rw [GyroPlugin.disableGyro, GyroPlugin.setEnabled]
      split_ifs
      · simp
      · exact id
    refine ⟨?_, ?_, h.asking, h.requested⟩
    · intro hor
      exact (setEnabled_player _ _).trans (h.player (hor.imp_right hon))
    · intro hor
      exact h.granted (hor.imp_right hon)
  · exact h

/-- While the permission is asked for there is none, and the gyroscope is off. -/
theorem Inv.off_of_asking (h : Inv s) (hasking : s.asking = true) :
    ¬ (s.controller.permissionGranted = true ∨ s.plugin.enabled = true) := by
  intro hor
  rcases h.granted hor with hsources | ⟨-, hasked⟩
  · exact h.asking hasking hsources
  · rw [hasking] at hasked
    contradiction

theorem Inv.converged_of_asking (h : Inv s) (hasking : s.asking = true) : Converged s := by
  have hnot := h.off_of_asking hasking
  exact ⟨fun hon => absurd (.inr hon) hnot, fun hallowed => absurd (.inl hallowed.1) hnot⟩

theorem Inv.requestFromGesture (h : Inv s) : Inv s.requestFromGesture := by
  rw [GyroViewer.requestFromGesture]
  split_ifs with hdestroyed hrequired hnone hrequested
  · exact h
  · exact h.enable
  · refine ⟨h.player, h.granted, h.asking, h.requested⟩
  · exact h.enable
  · have hsources : s.controller.permissionSources ≠ 0 := by
      simpa [GyroController.permissionRequired, Nat.pos_iff_ne_zero] using hrequired
    refine ⟨h.player, ?_, fun _ => hsources, by simp⟩
    intro hor
    rcases h.granted hor with hzero | ⟨hasked, -⟩
    · exact .inl hzero
    · exact absurd hasked hnone

theorem Inv.continueAsking (h : Inv s) {granted : Bool}
    (hsettled : s.controller.permissionRequest = .settled granted) :
    Inv (s.continueAsking granted) := by
  have hinv : Inv { s with
      controller := { s.controller with permissionGranted := granted }, asking := false } := by
    refine ⟨h.player, ?_, ?_, h.requested⟩
    · intro _
      right
      exact ⟨by simp [hsettled], rfl⟩
    · simp
  rw [GyroViewer.continueAsking]
  split_ifs
  · exact hinv.enable
  · rw [GyroController.notifyDeniedOnce]
    split_ifs
    · exact hinv
    · exact ⟨hinv.player, hinv.granted, hinv.asking, hinv.requested⟩

theorem Inv.handleUnavailable (h : Inv s) : Inv s.handleUnavailable := by
  have hinv : Inv { s with controller := { s.controller with pluginAvailable := false } } := by
    refine ⟨?_, h.granted, h.asking, h.requested⟩
    intro hor
    exact h.player (.inr (by simpa using hor))
  rw [GyroViewer.handleUnavailable]
  split_ifs
  · exact h
  · have hdisabled := hinv.disable
    simp only [GyroController.notifyDeniedOnce]
    split_ifs
    · exact hdisabled
    · exact ⟨hdisabled.player, hdisabled.granted, hdisabled.asking, hdisabled.requested⟩
    · exact hdisabled

/-- What the player needs for a gyroscope that is to be on. -/
theorem Inv.player_of_allowed (h : Inv s) (hallowed : s.controller.Allowed) :
    s.plugin.player = true := h.player (.inl hallowed.2.1)

theorem converged_requestFromGesture (h : Inv s) (hgood : Converged s) :
    Converged s.requestFromGesture ↔
      (s.controller.permissionRequired = false → s.TrustedOn s.controller) := by
  have henable := converged_enable h.player_of_allowed hgood.mp
  rw [GyroViewer.requestFromGesture]
  split_ifs with hdestroyed hrequired hnone hrequested
  · have hnot := (refuses_iff s.controller).mp (.inl hdestroyed)
    exact ⟨fun _ _ hallowed => absurd hallowed hnot, fun _ => hgood⟩
  · rw [henable]
    exact ⟨fun htrusted _ => htrusted, fun htrusted => htrusted hrequired⟩
  · exact ⟨fun _ hnot => absurd hnot hrequired, fun _ => hgood⟩
  · exact absurd (h.requested hrequested) hnone
  · exact ⟨fun _ hnot => absurd hnot hrequired, fun _ => hgood⟩

theorem converged_continueAsking (h : Inv s) (hasking : s.asking = true)
    {granted : Bool} (hsettled : s.controller.permissionRequest = .settled granted) :
    Converged (s.continueAsking granted) ↔ s.TrustedOn { s.controller with
      permissionGranted := decide (s.controller.permissionRequest = .settled true) } := by
  have hoff : ¬ s.plugin.enabled = true := fun hon => h.off_of_asking hasking (.inr hon)
  rw [hsettled]
  cases granted with
  | true =>
    exact converged_enable (s := { s with
      controller := { s.controller with permissionGranted := true }, asking := false })
      (fun hallowed => h.player (.inl hallowed.2.1)) (fun hon => absurd hon hoff)
  | false =>
    have hdenied : (s.continueAsking false).controller.permissionGranted = false := by
      rw [GyroViewer.continueAsking, if_neg (by decide), GyroController.notifyDeniedOnce]
      simp only
      split_ifs
      · rfl
      · rfl
    have hnot := (refuses_iff _).mp (.inr (.inl hdenied))
    constructor
    · intro _ hallowed
      exact absurd hallowed ((refuses_iff _).mp (.inr (.inl rfl)))
    · exact fun _ => ⟨fun hon => absurd hon hoff, fun hallowed => absurd hallowed hnot⟩

theorem converged_handleUnavailable (h : Inv s) (hgood : Converged s) :
    Converged s.handleUnavailable ↔ s.TrustedOff := by
  rw [GyroViewer.handleUnavailable]
  split_ifs with hdestroyed
  · have hnot := (refuses_iff s.controller).mp (.inl hdestroyed)
    exact ⟨fun _ hon => absurd (hgood.mp hon) hnot, fun _ => hgood⟩
  · have hdisable := converged_disable
      (s := { s with controller := { s.controller with pluginAvailable := false } })
      (fun hon => h.player (.inr hon)) (fun hallowed => Bool.false_ne_true hallowed.2.1)
    simp only [GyroController.notifyDeniedOnce]
    split_ifs
    · exact hdisable
    · exact hdisable
    · exact hdisable

theorem converged_destroy (h : Inv s) (hgood : Converged s) :
    Converged s.destroy ↔ s.TrustedOff := by
  rw [destroy]
  split_ifs with hdestroyed
  · have hnot := (refuses_iff s.controller).mp (.inl hdestroyed)
    exact ⟨fun _ hon => absurd (hgood.mp hon) hnot, fun _ => hgood⟩
  · refine converged_disable (fun hon => h.player (.inr hon)) ?_
    exact fun hallowed => Bool.false_ne_true hallowed.2.2.2.symm

variable [DecidableEq Reason] {e : GyroEvent Reason}

theorem Inv.step (h : Inv s) (hstep : Step s e s') : Inv s' := by
  rw [Step] at hstep
  cases e with
  | onready =>
    obtain rfl := Option.some.inj hstep
    exact ⟨fun _ => rfl, h.granted, h.asking, h.requested⟩
  | requestFromGesture =>
    obtain rfl := Option.some.inj hstep
    exact h.requestFromGesture
  | permissionResult permissions =>
    rw [next, Option.ite_none_right_eq_some] at hstep
    obtain rfl := Option.some.inj hstep.2
    refine ⟨h.player, ?_, h.asking, by simp⟩
    intro hor
    exact (h.granted hor).imp_right (fun hasked => ⟨by simp, hasked.2⟩)
  | continueAsking =>
    rw [next] at hstep
    split at hstep
    · rename_i granted hasking hsettled
      obtain rfl := Option.some.inj hstep
      exact h.continueAsking hsettled
    · contradiction
  | continueWaiting =>
    rw [next] at hstep
    split at hstep
    · obtain rfl := Option.some.inj hstep
      apply Inv.enable
      exact ⟨h.player, h.granted, h.asking, h.requested⟩
    · contradiction
  | autoEnable =>
    obtain rfl := Option.some.inj hstep
    rw [autoEnable]
    split_ifs
    · exact h
    · exact h.enable
  | available =>
    rw [next, Option.ite_none_right_eq_some] at hstep
    obtain rfl := Option.some.inj hstep.2
    rw [handleAvailable]
    split_ifs
    · exact h
    · apply Inv.enable
      exact ⟨fun _ => hstep.1, h.granted, h.asking, h.requested⟩
  | unavailable =>
    rw [next, Option.ite_none_right_eq_some] at hstep
    obtain rfl := Option.some.inj hstep.2
    exact h.handleUnavailable
  | deliver =>
    rw [next] at hstep
    split at hstep
    · contradiction
    · obtain rfl := Option.some.inj hstep
      rw [handleEnabled]
      split_ifs
      · exact ⟨h.player, h.granted, h.asking, h.requested⟩
      · exact ⟨h.player, h.granted, h.asking, h.requested⟩
  | suspend reason =>
    obtain rfl := Option.some.inj hstep
    apply Inv.disable
    exact ⟨h.player, h.granted, h.asking, h.requested⟩
  | resume reason =>
    obtain rfl := Option.some.inj hstep
    apply Inv.enable
    exact ⟨h.player, h.granted, h.asking, h.requested⟩
  | destroy =>
    obtain rfl := Option.some.inj hstep
    rw [destroy]
    split_ifs
    · exact h
    · apply Inv.disable
      exact ⟨h.player, h.granted, h.asking, h.requested⟩

/-- Where the gyroscope is as it is to be, a step keeps it so exactly if what it reads in
`gyroEnabled` can be trusted. -/
theorem Inv.converged_step_iff (h : Inv s) (hgood : Converged s) (hstep : Step s e s') :
    Converged s' ↔ s.Trusted e := by
  rw [Step] at hstep
  cases e with
  | onready =>
    obtain rfl := Option.some.inj hstep
    exact ⟨fun _ => trivial, fun _ => hgood⟩
  | requestFromGesture =>
    obtain rfl := Option.some.inj hstep
    exact converged_requestFromGesture h hgood
  | permissionResult permissions =>
    rw [next, Option.ite_none_right_eq_some] at hstep
    obtain rfl := Option.some.inj hstep.2
    exact ⟨fun _ => trivial, fun _ => hgood⟩
  | continueAsking =>
    rw [next] at hstep
    split at hstep
    · rename_i granted hasking hsettled
      obtain rfl := Option.some.inj hstep
      exact converged_continueAsking h hasking hsettled
    · contradiction
  | continueWaiting =>
    rw [next] at hstep
    split at hstep
    · rename_i waiting hasking hsettled hwaiting
      obtain rfl := Option.some.inj hstep
      exact converged_enable (s := { s with waiting := waiting }) h.player_of_allowed hgood.mp
    · contradiction
  | autoEnable =>
    obtain rfl := Option.some.inj hstep
    rw [autoEnable]
    split_ifs with hrequired
    · refine ⟨fun _ hnot => ?_, fun _ => hgood⟩
      rw [hrequired] at hnot
      contradiction
    · rw [converged_enable h.player_of_allowed hgood.mp]
      exact ⟨fun htrusted _ => htrusted, fun htrusted => htrusted (by simpa using hrequired)⟩
  | available =>
    rw [next, Option.ite_none_right_eq_some] at hstep
    obtain rfl := Option.some.inj hstep.2
    rw [handleAvailable]
    split_ifs with hdestroyed
    · refine ⟨fun _ hallowed => ?_, fun _ => hgood⟩
      exact absurd hallowed ((refuses_iff _).mp (.inl hdestroyed))
    · refine converged_enable (fun _ => hstep.1) (fun hon => ?_)
      obtain ⟨hgranted, -, hrest⟩ := hgood.mp hon
      exact ⟨hgranted, rfl, hrest⟩
  | unavailable =>
    rw [next, Option.ite_none_right_eq_some] at hstep
    obtain rfl := Option.some.inj hstep.2
    exact converged_handleUnavailable h hgood
  | deliver =>
    rw [next] at hstep
    split at hstep
    · contradiction
    · obtain rfl := Option.some.inj hstep
      refine ⟨fun _ => trivial, fun _ => ?_⟩
      rw [handleEnabled]
      split_ifs
      · exact hgood
      · exact hgood
  | suspend reason =>
    obtain rfl := Option.some.inj hstep
    refine converged_disable (fun hon => h.player (.inr hon)) ?_
    rintro ⟨-, -, hnone, -⟩
    exact absurd hnone (Finset.insert_ne_empty _ _)
  | resume reason =>
    obtain rfl := Option.some.inj hstep
    refine converged_enable (fun hallowed => h.player (.inl hallowed.2.1)) (fun hon => ?_)
    obtain ⟨hgranted, havailable, hnone, hnot⟩ := hgood.mp hon
    refine ⟨hgranted, havailable, ?_, hnot⟩
    simp [hnone]
  | destroy =>
    obtain rfl := Option.some.inj hstep
    exact converged_destroy h hgood

end Steps

/-- The events that are left can be delivered, and they change neither the gyroscope nor what it
is to be. -/
theorem exists_delivered [DecidableEq Reason] (s : GyroViewer Reason) :
    ∃ n s', Run Step s (List.replicate n .deliver) s' ∧ s'.plugin.undelivered = [] ∧
      s'.asking = s.asking ∧ (Converged s' ↔ Converged s) := by
  generalize hevents : s.plugin.undelivered = events
  induction events generalizing s with
  | nil => exact ⟨0, s, .nil s, hevents, rfl, .rfl⟩
  | cons enabled events ih =>
    have hsame : ∀ s₁ : GyroViewer Reason,
        s₁ = { s with plugin := { s.plugin with undelivered := events } }.handleEnabled enabled →
        s₁.plugin.undelivered = events ∧ s₁.asking = s.asking ∧ (Converged s₁ ↔ Converged s) := by
      rintro s₁ rfl
      rw [handleEnabled]
      split_ifs
      · exact ⟨rfl, rfl, .rfl⟩
      · exact ⟨rfl, rfl, .rfl⟩
    obtain ⟨hrest, hasking, hconverged⟩ := hsame _ rfl
    obtain ⟨n, s', hr, hempty, hasking', hconverged'⟩ := ih _ hrest
    refine ⟨n+1, s', ?_, hempty, hasking'.trans hasking, hconverged'.trans hconverged⟩
    refine .cons ?_ hr
    rw [Step, next, hevents]

/-- In every run in which the controller reads nothing false in `gyroEnabled`, the gyroscope is in
each quiescent state as it is to be. And the first step that does read something false is enough:
once the events that are left have been delivered, it is not. -/
theorem gyro_converges [DecidableEq Reason] {sources : ℕ} {notify : Bool}
    {events : List (GyroEvent Reason)}
    (hr : Run (Guarded Trusted Step) (initial Reason sources notify) events s) :
    (s.Quiescent → (s.plugin.enabled = true ↔ s.controller.Allowed)) ∧
    ∀ e s', Step s e s' → ¬ s.Trusted e →
      ∃ n s'', Run Step s' (List.replicate n .deliver) s'' ∧ s''.Quiescent ∧
        ¬ (s''.plugin.enabled = true ↔ s''.controller.Allowed) := by
  have hstep : ∀ (s : GyroViewer Reason) e s', Inv s ∧ Converged s → Guarded Trusted Step s e s' →
      Inv s' ∧ Converged s' :=
    fun _ _ _ h hguarded =>
      ⟨h.1.step hguarded.2, (h.1.converged_step_iff h.2 hguarded.2).mpr hguarded.1⟩
  obtain ⟨hinv, hgood⟩ := hr.invariant hstep ⟨.initial sources notify, converged_initial _ _⟩
  refine ⟨fun _ => hgood, ?_⟩
  intro e s' hs hnot
  have hbad : ¬ Converged s' := fun h => hnot ((hinv.converged_step_iff hgood hs).mp h)
  have hasking : s'.asking = false := by
    by_contra hasking
    exact hbad ((hinv.step hs).converged_of_asking (by simpa using hasking))
  obtain ⟨n, s'', hrun, hempty, hasking', hconverged⟩ := exists_delivered s'
  exact ⟨n, s'', hrun, ⟨hempty, hasking'.trans hasking⟩, fun h => hbad (hconverged.mp h)⟩

section Runs

/-- The dialogue is closed between the two events of its opening. -/
def lateEvents : List (GyroEvent String) :=
  [.onready, .available, .suspend "modal", .deliver, .resume "modal", .deliver]

/-- The gyroscope stays off, although nothing suspends it any more. -/
theorem gyro_stays_off : ∃ s : GyroViewer String, Run Step (initial String 0 true) lateEvents s ∧
    s.Quiescent ∧ s.controller.Allowed ∧
    ¬ (s.plugin.enabled = true ↔ s.controller.Allowed) := by
  have hrun : ∃ s : GyroViewer String, Run Step (initial String 0 true) lateEvents s ∧
      s.Quiescent ∧ s.controller.Allowed ∧ s.plugin.enabled = false :=
    ⟨_, .cons rfl (.cons rfl (.cons rfl (.cons rfl (.cons rfl (.cons rfl (.nil _)))))),
      ⟨rfl, rfl⟩, ⟨rfl, rfl, rfl, rfl⟩, rfl⟩
  obtain ⟨s, hr, hquiescent, hallowed, hoff⟩ := hrun
  refine ⟨s, hr, hquiescent, hallowed, ?_⟩
  intro h
  rw [h.mpr hallowed] at hoff
  contradiction

/-- The dialogue is closed after its event: the gyroscope is on again. -/
theorem gyro_converges_resumed : ∃ s : GyroViewer String,
    Run (Guarded Trusted Step) (initial String 0 true)
      [.onready, .available, .deliver, .suspend "modal", .deliver, .resume "modal", .deliver] s ∧
    s.Quiescent ∧ s.controller.Allowed ∧ (s.plugin.enabled = true ↔ s.controller.Allowed) := by
  have hrun : ∃ s : GyroViewer String,
      Run (Guarded Trusted Step) (initial String 0 true)
        [.onready, .available, .deliver, .suspend "modal", .deliver, .resume "modal", .deliver] s ∧
      s.Quiescent ∧ s.controller.Allowed := by
    refine ⟨_, .cons ⟨trivial, rfl⟩ (.cons ⟨?_, rfl⟩ (.cons ⟨trivial, rfl⟩ (.cons ⟨?_, rfl⟩
      (.cons ⟨trivial, rfl⟩ (.cons ⟨?_, rfl⟩ (.cons ⟨trivial, rfl⟩ (.nil _))))))),
      ⟨rfl, rfl⟩, ⟨rfl, rfl, rfl, rfl⟩⟩
    · exact fun _ henabled => absurd henabled Bool.false_ne_true
    · exact fun _ => rfl
    · exact fun _ henabled => absurd henabled Bool.false_ne_true
  obtain ⟨s, hr, hquiescent, hallowed⟩ := hrun
  exact ⟨s, hr, hquiescent, hallowed, (gyro_converges hr).1 hquiescent⟩

end Runs

end JingjieAR.GyroViewer
