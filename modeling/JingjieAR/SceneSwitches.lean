import JingjieAR.SceneSwitchingModel

/-! Where the application and the adapter disagree about the scene. Both of them remember what
to go back to: the adapter since the last load that was not confirmed, the application since the
last call. -/
namespace JingjieAR.MuseumApp

open Runs (Run Guarded Reaching)

variable {m m' : MuseumApp} {e : ViewerEvent} {generation : ℕ}

section Fields

/-- What the timers and the calls under way have no part in. -/
structure SameView (m m' : MuseumApp) : Prop where
  adapter : m'.adapter = m.adapter
  currentScene : m'.currentScene = m.currentScene
  sceneGeneration : m'.sceneGeneration = m.sceneGeneration

theorem sameView_clearSceneLoadTimeout (m : MuseumApp) (generation : ℕ) :
    SameView m (m.clearSceneLoadTimeout generation) := by
  rw [clearSceneLoadTimeout]
  split_ifs
  · exact ⟨rfl, rfl, rfl⟩
  · exact ⟨rfl, rfl, rfl⟩

theorem sameView_clearAnyTimeout (m : MuseumApp) : SameView m m.clearAnyTimeout := by
  rw [clearAnyTimeout]
  split
  · exact ⟨rfl, rfl, rfl⟩
  · exact sameView_clearSceneLoadTimeout m _

theorem sameView_dropPending (m : MuseumApp) (generation : ℕ) :
    SameView m (m.dropPending generation) := by
  rw [dropPending]
  split_ifs
  · exact ⟨rfl, rfl, rfl⟩
  · exact ⟨rfl, rfl, rfl⟩

theorem SameView.trans {m₁ : MuseumApp} (h : SameView m m₁) (h' : SameView m₁ m') :
    SameView m m' :=
  ⟨h'.adapter.trans h.adapter, h'.currentScene.trans h.currentScene,
    h'.sceneGeneration.trans h.sceneGeneration⟩

theorem sameView_abandon (m : MuseumApp) (generation : ℕ) : SameView m (m.abandon generation) :=
  (sameView_clearSceneLoadTimeout m generation).trans (sameView_dropPending _ generation)

theorem sameView_endSwitch (m : MuseumApp) (generation : ℕ) :
    SameView m (m.endSwitch generation) := ⟨rfl, rfl, rfl⟩

end Fields

/-- What a step does: the scene stays, a scene is loaded, or the adapter restores what it can
while the application goes back to a scene of its own. -/
inductive Change (m : MuseumApp) (e : ViewerEvent) (m' : MuseumApp) : Prop
  | stays (hloadxml : m'.adapter.loadxml = m.adapter.loadxml)
      (hxml : m'.adapter.currentSceneXml = m.adapter.currentSceneXml)
      (hhotspots : m'.adapter.currentHotspots = m.adapter.currentHotspots)
      (hprevious : m'.adapter.previousSceneState = m.adapter.previousSceneState ∨
        m'.adapter.previousSceneState = none)
      (hscene : m'.currentScene = m.currentScene)
      (hgeneration : m'.adapter.latestGeneration = m'.sceneGeneration ∨
        m'.adapter.latestGeneration = m.adapter.latestGeneration ∧
          m'.sceneGeneration = m.sceneGeneration)
      (hr : m.Recovers e)
  | loads (scene : ViewerScene) (generation : ℕ)
      (hadapter : m'.adapter = m.adapter.load scene generation)
      (hscene : m'.currentScene = some scene) (hsame : m'.sceneGeneration = m.sceneGeneration)
      (hr : m.Recovers e)
  | fails (scene : Option ViewerScene) (hadapter : m'.adapter = m.adapter.restorePreviousScene)
      (hscene : m'.currentScene = scene) (hsame : m'.sceneGeneration = m.sceneGeneration)
      (hr : m.Recovers e ↔ m.Restores scene)

theorem SameView.change (h : SameView m m') (hr : m.Recovers e) : Change m e m' := by
  refine .stays ?_ ?_ ?_ (.inl ?_) h.currentScene (.inr ⟨?_, h.sceneGeneration⟩) hr
  · rw [h.adapter]
  · rw [h.adapter]
  · rw [h.adapter]
  · rw [h.adapter]
  · rw [h.adapter]

/-- What the adapter knows about the texts, and the generations of the two. -/
structure Inv (m : MuseumApp) : Prop where
  xml : m.adapter.currentSceneXml = m.adapter.loadxml.getLast?
  hotspots : m.adapter.currentHotspots =
    (m.adapter.currentSceneXml.map (fun xml => renderableHotspots xml.scene)).getD []
  previous : ∀ previous, m.adapter.previousSceneState = some previous →
    previous.hotspots = renderableHotspots previous.xml.scene
  generation : m.adapter.latestGeneration = m.sceneGeneration ∨
    m.adapter.latestGeneration = -1 ∧ m.sceneGeneration = 0

theorem Inv.initial : Inv {} := ⟨rfl, rfl, by simp, .inr ⟨rfl, rfl⟩⟩

/-- The generation of a load that goes on is the one of the application. -/
theorem Inv.eq_sceneGeneration (h : Inv m) (hlatest : (generation : ℤ) = m.adapter.latestGeneration) :
    generation = m.sceneGeneration := by
  rcases h.generation with heq | ⟨hnone, -⟩
  · omega
  · omega

section Steps

theorem fail_of_ne (h : generation ≠ m.sceneGeneration) :
    m.fail generation = m.abandon generation := by
  rw [fail, if_pos h]

theorem fail_view (h : generation = m.sceneGeneration) :
    (m.fail generation).adapter = m.adapter.restorePreviousScene ∧
      (m.fail generation).currentScene = m.currentScene ∧
      (m.fail generation).sceneGeneration = m.sceneGeneration := by
  have hcleared := sameView_clearSceneLoadTimeout m generation
  have hdropped := sameView_dropPending
    { m.clearSceneLoadTimeout generation with
      adapter := (m.clearSceneLoadTimeout generation).adapter.restorePreviousScene } generation
  rw [fail, if_neg (not_not.mpr h)]
  refine ⟨?_, ?_, ?_⟩
  · rw [hdropped.adapter, hcleared.adapter]
  · rw [hdropped.currentScene, hcleared.currentScene]
  · rw [hdropped.sceneGeneration, hcleared.sceneGeneration]

/-- A call that fails, at whatever point. -/
theorem change_fail (hr : m.Recovers e ↔ (generation = m.sceneGeneration → m.Restores m.currentScene)) :
    Change m e ((m.fail generation).endSwitch generation) := by
  by_cases hcurrent : generation = m.sceneGeneration
  · obtain ⟨hadapter, hscene, hsame⟩ := fail_view hcurrent
    refine .fails m.currentScene hadapter hscene hsame ?_
    rw [hr]
    exact ⟨fun h => h hcurrent, fun h _ => h⟩
  · rw [fail_of_ne hcurrent]
    refine ((sameView_abandon m generation).trans (sameView_endSwitch _ _)).change ?_
    exact hr.mpr fun h => absurd h hcurrent

theorem change_switchScene (h : Inv m) (sceneId : String) :
    Change m (.switchScene sceneId) (m.switchScene sceneId) := by
  have hcleared := sameView_clearAnyTimeout { m with sceneGeneration := m.sceneGeneration+1 }
  have hlatest : m.adapter.latestGeneration < (m.sceneGeneration+1 : ℕ) := by
    rcases h.generation with heq | ⟨hnone, -⟩
    · omega
    · omega
  have hadapter : (m.switchScene sceneId).adapter =
      { m.adapter with latestGeneration := (m.sceneGeneration+1 : ℕ) } := by
    rw [switchScene]
    simp only [hcleared.adapter]
    rw [KrpanoAdapter.invalidate, if_pos hlatest]
  have hsame : (m.switchScene sceneId).sceneGeneration = m.sceneGeneration+1 :=
    hcleared.sceneGeneration
  refine .stays ?_ ?_ ?_ (.inl ?_) hcleared.currentScene (.inl ?_) trivial
  · rw [hadapter]
  · rw [hadapter]
  · rw [hadapter]
  · rw [hadapter]
  · rw [hadapter, hsame]

theorem change_startLoad (h : Inv m) (switch : SceneSwitch) (scene : ViewerScene)
    (hcurrent : switch.generation = m.sceneGeneration) (hr : m.Recovers e) :
    Change m e (m.startLoad switch scene) := by
  have hcleared := sameView_clearAnyTimeout m
  have hlatest : ¬ (switch.generation : ℤ) < m.adapter.latestGeneration := by
    rcases h.generation with heq | ⟨hnone, -⟩
    · omega
    · omega
  have hadapter : (m.startLoad switch scene).adapter =
      { m.adapter with latestGeneration := switch.generation }.initializePlayer := by
    rw [startLoad]
    simp only [startSceneLoadTimeout, hcleared.adapter, KrpanoAdapter.startLoad, if_neg hlatest]
  have hscene : (m.startLoad switch scene).currentScene = m.currentScene := by
    rw [startLoad]
    simp only [startSceneLoadTimeout, hcleared.adapter, KrpanoAdapter.startLoad, if_neg hlatest]
    exact hcleared.currentScene
  have hsame : (m.startLoad switch scene).sceneGeneration = m.sceneGeneration := by
    rw [startLoad]
    simp only [startSceneLoadTimeout, hcleared.adapter, KrpanoAdapter.startLoad, if_neg hlatest]
    exact hcleared.sceneGeneration
  rw [KrpanoAdapter.initializePlayer] at hadapter
  refine .stays ?_ ?_ ?_ (.inl ?_) hscene (.inl ?_) hr
  · rw [hadapter]
    split <;> rfl
  · rw [hadapter]
    split <;> rfl
  · rw [hadapter]
    split <;> rfl
  · rw [hadapter]
    split <;> rfl
  · rw [hadapter, hsame, ← hcurrent]
    split <;> rfl

theorem change_finishLoad (h : Inv m) (scene : ViewerScene) (throws : Bool) :
    Change m (.loadScene generation throws)
      ((m.finishLoad generation scene throws).endSwitch generation) := by
  by_cases hthrows : m.loadThrows generation throws = true
  · rw [finishLoad, if_pos hthrows]
    refine change_fail ?_
    simp only [Recovers, hthrows, true_imp_iff]
  · have hr : m.Recovers (.loadScene generation throws) := fun _ hyes => absurd hyes hthrows
    rw [finishLoad, if_neg hthrows]
    by_cases hlatest : (generation : ℤ) = m.adapter.latestGeneration
    · have hcurrent := h.eq_sceneGeneration hlatest
      rw [if_neg (not_not.mpr hlatest), if_neg (not_not.mpr hcurrent)]
      exact .loads scene generation rfl rfl rfl hr
    · rw [if_pos hlatest]
      exact ((sameView_abandon m generation).trans (sameView_endSwitch _ _)).change hr

theorem change_onSceneEvent (hr : m.Recovers e) : Change m e (m.onSceneEvent generation) := by
  have hcleared := sameView_clearSceneLoadTimeout m generation
  rw [onSceneEvent]
  by_cases hcurrent : generation = m.sceneGeneration
  · rw [if_neg (not_not.mpr hcurrent)]
    simp only [hcleared.adapter, KrpanoAdapter.confirmScene]
    split_ifs
    · exact .stays rfl rfl rfl (.inl rfl) hcleared.currentScene
        (.inr ⟨rfl, hcleared.sceneGeneration⟩) hr
    · exact .stays rfl rfl rfl (.inr rfl) hcleared.currentScene
        (.inr ⟨rfl, hcleared.sceneGeneration⟩) hr
  · rw [if_pos hcurrent]
    exact SameView.change ⟨rfl, rfl, rfl⟩ hr

theorem change_sceneLoadTimeout : Change m (.timeout generation) (m.sceneLoadTimeout generation) := by
  rw [sceneLoadTimeout]
  by_cases hcurrent : generation = m.sceneGeneration
  · rw [if_neg (not_not.mpr hcurrent), failPendingSceneLoad, if_neg (not_not.mpr hcurrent)]
    have hcleared := sameView_clearSceneLoadTimeout
      { m with timers := m.timers.filter (· ≠ generation), sceneLoadTimer := none } generation
    refine .fails (m.fallback generation) ?_ rfl hcleared.sceneGeneration ?_
    · exact congrArg KrpanoAdapter.restorePreviousScene hcleared.adapter
    · exact ⟨fun h => h hcurrent, fun h _ => h⟩
  · rw [if_pos hcurrent]
    exact SameView.change ⟨rfl, rfl, rfl⟩ fun h => absurd h hcurrent

end Steps

theorem Inv.change (h : Inv m) (hstep : Step m e m') : Change m e m' := by
  cases e with
  | switchScene sceneId =>
    obtain rfl := Option.some.inj hstep
    exact change_switchScene h sceneId
  | reply generation reply =>
    simp only [Step, next] at hstep
    split at hstep
    · cases reply with
      | scene scene =>
        simp only at hstep
        split_ifs at hstep with hcurrent
        · obtain rfl := Option.some.inj hstep
          exact SameView.change (sameView_endSwitch m generation) trivial
        · obtain rfl := Option.some.inj hstep
          exact change_startLoad h _ scene (not_not.mp hcurrent) trivial
      | failed =>
        obtain rfl := Option.some.inj hstep
        exact change_fail Iff.rfl
      | aborted =>
        simp only at hstep
        split_ifs at hstep
        obtain rfl := Option.some.inj hstep
        exact ((sameView_abandon m generation).trans (sameView_endSwitch _ _)).change trivial
    · contradiction
  | onready =>
    simp only [Step, next, Option.ite_none_right_eq_some] at hstep
    obtain rfl := Option.some.inj hstep.2
    exact .stays rfl rfl rfl (.inl rfl) rfl (.inr ⟨rfl, rfl⟩) trivial
  | onerror =>
    simp only [Step, next, Option.ite_none_right_eq_some] at hstep
    obtain rfl := Option.some.inj hstep.2
    exact .stays rfl rfl rfl (.inl rfl) rfl (.inr ⟨rfl, rfl⟩) trivial
  | loadScene generation throws =>
    simp only [Step, next] at hstep
    split at hstep
    · rename_i scene hfound
      rw [Option.ite_none_right_eq_some] at hstep
      obtain rfl := Option.some.inj hstep.2
      exact change_finishLoad h scene throws
    · contradiction
  | sceneEvent generation =>
    simp only [Step, next, Option.ite_none_right_eq_some] at hstep
    obtain rfl := Option.some.inj hstep.2
    split_ifs
    · exact change_onSceneEvent trivial
    · exact SameView.change ⟨rfl, rfl, rfl⟩ trivial
  | timeout generation =>
    simp only [Step, next, Option.ite_none_right_eq_some] at hstep
    obtain rfl := Option.some.inj hstep.2
    exact change_sceneLoadTimeout

/-- What is restored was once loaded, with the hotspots of its scene. -/
theorem restorable_eq_some {a : KrpanoAdapter} {previous : SceneState}
    (h : a.restorable = some previous) : a.previousSceneState = some previous := by
  rw [KrpanoAdapter.restorable, Option.ite_none_right_eq_some] at h
  exact h.2

theorem Inv.step (h : Inv m) (hstep : Step m e m') : Inv m' := by
  cases h.change hstep with
  | stays hloadxml hxml hhotspots hprevious hscene hgeneration hr =>
    constructor
    · rw [hxml, hloadxml]
      exact h.xml
    · rw [hhotspots, hxml]
      exact h.hotspots
    · intro previous hp
      rcases hprevious with hsame | hnone
      · exact h.previous previous (hsame ▸ hp)
      · rw [hnone] at hp
        contradiction
    · rcases hgeneration with heq | ⟨hlatest, hsame⟩
      · exact .inl heq
      · rw [hlatest, hsame]
        exact h.generation
  | loads scene generation hadapter hscene hsame hr =>
    constructor
    · rw [hadapter]
      simp [KrpanoAdapter.load]
    · rw [hadapter]
      rfl
    · intro previous hp
      rw [hadapter] at hp
      obtain ⟨xml, hxml, rfl⟩ := Option.map_eq_some_iff.mp hp
      have hhotspots := h.hotspots
      rw [hxml] at hhotspots
      exact hhotspots
    · rw [hadapter, hsame]
      exact h.generation
  | fails scene hadapter hscene hsame hr =>
    rw [KrpanoAdapter.restorePreviousScene] at hadapter
    split at hadapter
    · constructor
      · rw [hadapter]
        exact h.xml
      · rw [hadapter]
        exact h.hotspots
      · rw [hadapter]
        exact h.previous
      · rw [hadapter, hsame]
        exact h.generation
    · rename_i previous hrestorable
      constructor
      · rw [hadapter]
        simp
      · rw [hadapter]
        exact h.previous previous (restorable_eq_some hrestorable)
      · rw [hadapter]
        simp
      · rw [hadapter, hsame]
        exact h.generation

/-- The adapter has the hotspots of the scene that is shown; so the two agree if the scene of the
application is the one that is shown. -/
theorem Inv.agrees_iff (h : Inv m) : Agrees m ↔ m.currentScene = m.shownScene := by
  refine ⟨fun hagrees => hagrees.scene, fun hscene => ⟨hscene, ?_⟩⟩
  rw [h.hotspots, hscene, shownScene, h.xml, Option.map_map]
  rfl

theorem shownScene_load (scene : ViewerScene) (hadapter : m'.adapter = m.adapter.load scene generation) :
    m'.shownScene = some scene := by
  rw [shownScene, hadapter]
  simp [KrpanoAdapter.load]

theorem restores_iff (hagrees : m.currentScene = m.shownScene)
    (hadapter : m'.adapter = m.adapter.restorePreviousScene) :
    m.Restores m'.currentScene ↔ m'.currentScene = m'.shownScene := by
  rw [KrpanoAdapter.restorePreviousScene] at hadapter
  rw [Restores, shownScene, hadapter]
  split
  · rename_i previous hrestorable
    simp [hrestorable]
  · rename_i hrestorable
    simp only [hrestorable]
    rw [hagrees, shownScene]

/-- Where the two agree, they do so after a step exactly if the step recovers. -/
theorem Inv.agrees_step_iff (h : Inv m) (hagrees : Agrees m) (hstep : Step m e m') :
    Agrees m' ↔ m.Recovers e := by
  rw [(h.step hstep).agrees_iff]
  cases h.change hstep with
  | stays hloadxml hxml hhotspots hprevious hscene hgeneration hr =>
    refine ⟨fun _ => hr, fun _ => ?_⟩
    rw [hscene, hagrees.scene, shownScene, shownScene, hloadxml]
  | loads scene generation hadapter hscene hsame hr =>
    refine ⟨fun _ => hr, fun _ => ?_⟩
    rw [hscene, shownScene_load scene hadapter]
  | fails scene hadapter hscene hsame hr =>
    rw [hr, ← hscene]
    exact (restores_iff hagrees.scene hadapter).symm

/-- The application and the adapter agree all along a run exactly if each of its steps
recovers. -/
theorem agrees_throughout_iff {es : List ViewerEvent} {m : MuseumApp} :
    Run (Reaching Agrees Step) {} es m ↔ Run (Guarded Recovers Step) {} es m := by
  have hinv : ∀ m e m', Inv m → Step m e m' → Inv m' := fun _ _ _ h hstep => h.step hstep
  have hgood : ∀ m e m', Inv m → Agrees m → Step m e m' → (Agrees m' ↔ m.Recovers e) :=
    fun _ _ _ h hagrees hstep => h.agrees_step_iff hagrees hstep
  exact Run.reaching_iff hinv hgood Inv.initial ⟨rfl, rfl⟩

/-- When no switch is in progress, the current scene is the one whose text was the last one
passed to `loadxml`, and the hotspots are those of that scene: in every run in which no call
fails while the adapter would go back to another scene than the current one, and no load times
out that the adapter does not take back to where the call was made. -/
theorem consistent_of_recovers {es : List ViewerEvent} {m : MuseumApp}
    (hr : Run (Guarded Recovers Step) {} es m) : Consistent m := by
  have hstep : ∀ m e m', Inv m ∧ Agrees m → Guarded Recovers Step m e m' → Inv m' ∧ Agrees m' :=
    fun _ _ _ h hguarded =>
      ⟨h.1.step hguarded.2, (h.1.agrees_step_iff h.2 hguarded.2).mpr hguarded.1⟩
  intro _
  exact (hr.invariant hstep ⟨Inv.initial, ⟨rfl, rfl⟩⟩).2

section Runs

def hall : ViewerScene := ⟨"hall", some []⟩
def gallery : ViewerScene := ⟨"gallery", some []⟩

/-- The gallery is loaded but not confirmed when the third call is made, and that call fails. -/
def failsUnconfirmed : List ViewerEvent :=
  [.switchScene "hall", .reply 1 (.scene hall), .onready, .loadScene 1 false, .sceneEvent 1,
    .switchScene "gallery", .reply 2 (.scene gallery), .loadScene 2 false,
    .switchScene "garden", .reply 3 .failed]

/-- The adapter shows the hall again, while the application stays with the gallery. -/
theorem hall_shown_for_gallery : ∃ m, Run Step {} failsUnconfirmed m ∧ m.Quiet ∧
    m.currentScene = some gallery ∧ m.shownScene = some hall ∧ ¬ Consistent m := by
  have hrun : ∃ m, Run Step {} failsUnconfirmed m ∧ m.Quiet ∧
      m.currentScene = some gallery ∧ m.shownScene = some hall :=
    ⟨_, .cons rfl (.cons rfl (.cons rfl (.cons rfl (.cons rfl (.cons rfl (.cons rfl (.cons rfl
      (.cons rfl (.cons rfl (.nil _)))))))))), ⟨rfl, rfl, rfl⟩, rfl, rfl⟩
  obtain ⟨m, hr, hquiet, hscene, hshown⟩ := hrun
  refine ⟨m, hr, hquiet, hscene, hshown, ?_⟩
  intro h
  have hsame := (h hquiet).scene
  rw [hscene, hshown] at hsame
  exact absurd hsame (by decide)

/-- The second load times out, and the hall is the current scene again. -/
theorem consistent_timed_out : ∃ m, Run (Guarded Recovers Step) {}
    [.switchScene "hall", .reply 1 (.scene hall), .onready, .loadScene 1 false, .sceneEvent 1,
      .switchScene "gallery", .reply 2 (.scene gallery), .loadScene 2 false, .timeout 2] m ∧
    m.Quiet ∧ m.currentScene = some hall ∧ Consistent m := by
  have hrun : ∃ m, Run (Guarded Recovers Step) {}
      [.switchScene "hall", .reply 1 (.scene hall), .onready, .loadScene 1 false, .sceneEvent 1,
        .switchScene "gallery", .reply 2 (.scene gallery), .loadScene 2 false, .timeout 2] m ∧
      m.Quiet ∧ m.currentScene = some hall := by
    refine ⟨_, .cons ⟨trivial, rfl⟩ (.cons ⟨trivial, rfl⟩ (.cons ⟨trivial, rfl⟩ (.cons ⟨?_, rfl⟩
      (.cons ⟨trivial, rfl⟩ (.cons ⟨trivial, rfl⟩ (.cons ⟨trivial, rfl⟩ (.cons ⟨?_, rfl⟩
      (.cons ⟨?_, rfl⟩ (.nil _))))))))), ⟨rfl, rfl, rfl⟩, rfl⟩
    · intro _ hthrows
      contradiction
    · intro _ hthrows
      contradiction
    · exact fun _ => rfl
  obtain ⟨m, hr, hquiet, hscene⟩ := hrun
  exact ⟨m, hr, hquiet, hscene, consistent_of_recovers hr⟩

end Runs

end JingjieAR.MuseumApp
