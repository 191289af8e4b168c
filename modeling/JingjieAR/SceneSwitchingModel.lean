import JingjieAR.TransitionRuns
import Mathlib.Data.Int.Notation
import Mathlib.Data.List.Basic

/-! The viewer: the application and the adapter of the player. What runs between two `await`s is
one step; the end of `loadScene` and the rest of `switchScene` behind it are one step too, since
nothing but microtasks comes between them. -/
namespace JingjieAR

structure ViewerHotspot where
  hotspotId : String
  type : String
  renderable : Option Bool
deriving DecidableEq

/-- A scene as the server answers with it; `hotspots` need not be an array, and the array may
hold nulls. -/
structure ViewerScene where
  sceneId : String
  hotspots : Option (List (Option ViewerHotspot))
deriving DecidableEq

def renderableHotspots (scene : ViewerScene) : List ViewerHotspot :=
  ((scene.hotspots.getD []).filterMap id).filter
    (fun hotspot => hotspot.type ≠ "inactive" && hotspot.renderable ≠ some false)

/-- The text of `buildSceneXml`, by the scene and the generation that it is built from. -/
structure SceneXml where
  scene : ViewerScene
  generation : ℕ
deriving DecidableEq

structure SceneState where
  xml : SceneXml
  hotspots : List ViewerHotspot
  loaded : Bool
deriving DecidableEq

/-- How far `initialize` is. -/
inductive PlayerState
  | absent
  | starting
  | ready
  | failed
deriving DecidableEq

/-- The adapter, with all texts that were given to `loadxml` so far. -/
structure KrpanoAdapter where
  player : PlayerState := .absent
  latestGeneration : ℤ := -1
  loaded : Bool := false
  currentHotspots : List ViewerHotspot := []
  currentSceneXml : Option SceneXml := none
  previousSceneState : Option SceneState := none
  loadxml : List SceneXml := []

namespace KrpanoAdapter

def initializePlayer (a : KrpanoAdapter) : KrpanoAdapter :=
  if a.player = .absent then { a with player := .starting } else a

def invalidate (a : KrpanoAdapter) (generation : ℕ) : KrpanoAdapter :=
  if a.latestGeneration < generation then { a with latestGeneration := generation } else a

def confirmScene (a : KrpanoAdapter) (generation : ℕ) : KrpanoAdapter :=
  if generation ≠ a.latestGeneration then a else { a with previousSceneState := none }

/-- The state that `restorePreviousScene` goes back to, if there is one. -/
def restorable (a : KrpanoAdapter) : Option SceneState :=
  if a.player = .ready then a.previousSceneState else none

def restorePreviousScene (a : KrpanoAdapter) : KrpanoAdapter :=
  match a.restorable with
  | none => a
  | some previous =>
    { a with
      loadxml := a.loadxml++[previous.xml]
      currentHotspots := previous.hotspots
      currentSceneXml := some previous.xml
      loaded := previous.loaded
      previousSceneState := none }

/-- `loadScene` as far as `initialize`, unless the generation is stale. -/
def startLoad (a : KrpanoAdapter) (generation : ℕ) : Option KrpanoAdapter :=
  if (generation : ℤ) < a.latestGeneration then none
  else some ({ a with latestGeneration := generation }.initializePlayer)

/-- What `loadScene` does with a player that takes the text. -/
def load (a : KrpanoAdapter) (scene : ViewerScene) (generation : ℕ) : KrpanoAdapter :=
  { a with
    loadxml := a.loadxml++[⟨scene, generation⟩]
    previousSceneState := a.currentSceneXml.map (⟨·, a.currentHotspots, a.loaded⟩)
    currentHotspots := renderableHotspots scene
    currentSceneXml := some ⟨scene, generation⟩
    loaded := true }

end KrpanoAdapter

/-- Where a call of `switchScene` waits. -/
inductive SwitchStage
  | requesting
  | initializing (scene : ViewerScene)
deriving DecidableEq

structure SceneSwitch where
  generation : ℕ
  sceneId : String
  stage : SwitchStage
deriving DecidableEq

structure PendingSceneLoad where
  generation : ℕ
  previousScene : Option ViewerScene
deriving DecidableEq

/-- The application, with the calls of `switchScene` under way, the controllers that were
aborted and the timers of the browser. A timer and a controller go by their generation. -/
structure MuseumApp where
  adapter : KrpanoAdapter := {}
  currentScene : Option ViewerScene := none
  sceneGeneration : ℕ := 0
  sceneController : Option ℕ := none
  sceneLoadTimer : Option ℕ := none
  pendingSceneLoad : Option PendingSceneLoad := none
  switches : List SceneSwitch := []
  aborted : List ℕ := []
  timers : List ℕ := []

/-- How the request of a scene ends. An answer without a scene makes `switchScene` throw, as a
failure does. -/
inductive SceneReply
  | scene (scene : ViewerScene)
  | failed
  | aborted

inductive ViewerEvent
  | switchScene (sceneId : String)
  | reply (generation : ℕ) (reply : SceneReply)
  | onready
  | onerror
  -- `loadScene` goes on, and the player may throw
  | loadScene (generation : ℕ) (throws : Bool)
  -- `preview-visible` and `complete` do the same here
  | sceneEvent (generation : ℕ)
  | timeout (generation : ℕ)

namespace MuseumApp

/-- `clearSceneLoadTimeout` with a generation. -/
def clearSceneLoadTimeout (m : MuseumApp) (generation : ℕ) : MuseumApp :=
  if m.sceneLoadTimer = some generation then
    { m with timers := m.timers.filter (· ≠ generation), sceneLoadTimer := none }
  else m

/-- `clearSceneLoadTimeout` without one. -/
def clearAnyTimeout (m : MuseumApp) : MuseumApp :=
  match m.sceneLoadTimer with
  | none => m
  | some generation => m.clearSceneLoadTimeout generation

def startSceneLoadTimeout (m : MuseumApp) (generation : ℕ) : MuseumApp :=
  let m := m.clearAnyTimeout
  { m with timers := m.timers++[generation], sceneLoadTimer := some generation }

def dropPending (m : MuseumApp) (generation : ℕ) : MuseumApp :=
  if m.pendingSceneLoad.any (·.generation = generation) then { m with pendingSceneLoad := none }
  else m

/-- How a call ends that another one has taken over from. -/
def abandon (m : MuseumApp) (generation : ℕ) : MuseumApp :=
  (m.clearSceneLoadTimeout generation).dropPending generation

/-- How a call ends that fails. -/
def fail (m : MuseumApp) (generation : ℕ) : MuseumApp :=
  if generation ≠ m.sceneGeneration then m.abandon generation
  else
    let m := m.clearSceneLoadTimeout generation
    { m with adapter := m.adapter.restorePreviousScene }.dropPending generation

def endSwitch (m : MuseumApp) (generation : ℕ) : MuseumApp :=
  { m with switches := m.switches.filter (·.generation ≠ generation) }

def switchScene (m : MuseumApp) (sceneId : String) : MuseumApp :=
  let generation := m.sceneGeneration+1
  let m := { m with sceneGeneration := generation }.clearAnyTimeout
  { m with
    adapter := m.adapter.invalidate generation
    aborted := m.aborted++m.sceneController.toList
    sceneController := some generation
    pendingSceneLoad := some ⟨generation, m.currentScene⟩
    switches := m.switches++[⟨generation, sceneId, .requesting⟩] }

/-- The answer to a request that nothing else has taken over from. -/
def startLoad (m : MuseumApp) (switch : SceneSwitch) (scene : ViewerScene) : MuseumApp :=
  let m := m.startSceneLoadTimeout switch.generation
  match m.adapter.startLoad switch.generation with
  | none => (m.abandon switch.generation).endSwitch switch.generation
  | some adapter =>
    { m.endSwitch switch.generation with
      adapter := adapter
      switches := (m.endSwitch switch.generation).switches++
        [{ switch with stage := .initializing scene }] }

/-- Whether `loadScene` throws behind `initialize`: there is no player, or the generation is not
stale and the player throws. -/
def loadThrows (m : MuseumApp) (generation : ℕ) (throws : Bool) : Bool :=
  m.adapter.player = .failed || generation = m.adapter.latestGeneration && throws

/-- The rest of `loadScene` and of `switchScene`. -/
def finishLoad (m : MuseumApp) (generation : ℕ) (scene : ViewerScene) (throws : Bool) : MuseumApp :=
  if m.loadThrows generation throws then m.fail generation
  else if generation ≠ m.adapter.latestGeneration then m.abandon generation
  else if generation ≠ m.sceneGeneration then
    { m with adapter := m.adapter.load scene generation }.abandon generation
  else { m with adapter := m.adapter.load scene generation, currentScene := some scene }

def onSceneEvent (m : MuseumApp) (generation : ℕ) : MuseumApp :=
  if generation ≠ m.sceneGeneration then m
  else
    let m := m.clearSceneLoadTimeout generation
    { m with adapter := m.adapter.confirmScene generation, pendingSceneLoad := none }

/-- The scene that a load goes back to when it times out. -/
def fallback (m : MuseumApp) (generation : ℕ) : Option ViewerScene :=
  match m.pendingSceneLoad with
  | some pending => if pending.generation = generation then pending.previousScene else m.currentScene
  | none => m.currentScene

def failPendingSceneLoad (m : MuseumApp) (generation : ℕ) : MuseumApp :=
  if generation ≠ m.sceneGeneration then m
  else
    let scene := m.fallback generation
    let m := m.clearSceneLoadTimeout generation
    { m with
      adapter := m.adapter.restorePreviousScene
      currentScene := scene
      pendingSceneLoad := none }

/-- The callback of the timer. -/
def sceneLoadTimeout (m : MuseumApp) (generation : ℕ) : MuseumApp :=
  let m := { m with timers := m.timers.filter (· ≠ generation) }
  if generation ≠ m.sceneGeneration then m
  else { m with sceneLoadTimer := none }.failPendingSceneLoad generation

def next (m : MuseumApp) : ViewerEvent → Option MuseumApp
  | .switchScene sceneId => some (m.switchScene sceneId)
  | .reply generation reply =>
    match m.switches.find? (·.generation = generation) with
    | some ⟨_, sceneId, .requesting⟩ =>
      match reply with
      | .scene scene =>
        if generation ≠ m.sceneGeneration then some (m.endSwitch generation)
        else some (m.startLoad ⟨generation, sceneId, .requesting⟩ scene)
      | .failed => some ((m.fail generation).endSwitch generation)
      | .aborted =>
        if generation ∈ m.aborted then some ((m.abandon generation).endSwitch generation) else none
    | _ => none
  | .onready =>
    if m.adapter.player = .starting then
      some { m with adapter := { m.adapter with player := .ready } }
    else none
  | .onerror =>
    if m.adapter.player = .starting then
      some { m with adapter := { m.adapter with player := .failed } }
    else none
  | .loadScene generation throws =>
    match m.switches.find? (·.generation = generation) with
    | some ⟨_, _, .initializing scene⟩ =>
      if m.adapter.player = .ready ∨ m.adapter.player = .failed then
        some ((m.finishLoad generation scene throws).endSwitch generation)
      else none
    | _ => none
  | .sceneEvent generation =>
    if generation ∈ m.adapter.loadxml.map (·.generation) then
      -- The bridge passes the events of the latest generation on.
      some (if generation = m.adapter.latestGeneration then m.onSceneEvent generation else m)
    else none
  | .timeout generation =>
    if generation ∈ m.timers then some (m.sceneLoadTimeout generation) else none

def Step (m : MuseumApp) (e : ViewerEvent) (m' : MuseumApp) : Prop := m.next e = some m'

/-- No switch is in progress: no request, no load and no timer. -/
def Quiet (m : MuseumApp) : Prop :=
  m.switches = [] ∧ m.pendingSceneLoad = none ∧ m.sceneLoadTimer = none

/-- The scene whose text was the last one that `loadxml` was given. -/
def shownScene (m : MuseumApp) : Option ViewerScene := m.adapter.loadxml.getLast?.map (·.scene)

/-- The application and the adapter agree about the scene. -/
structure Agrees (m : MuseumApp) : Prop where
  scene : m.currentScene = m.shownScene
  hotspots : m.adapter.currentHotspots = (m.currentScene.map renderableHotspots).getD []

/-- When no switch is in progress, the application and the adapter agree. -/
def Consistent (m : MuseumApp) : Prop := m.Quiet → m.Agrees

/-- The adapter goes back to the scene that the application takes for the current one
afterwards. -/
def Restores (m : MuseumApp) (scene : Option ViewerScene) : Prop :=
  match m.adapter.restorable with
  | some previous => scene = some previous.xml.scene
  | none => scene = m.currentScene

/-- Where a call fails, the adapter has no other scene to go back to than the current one; where
a load times out, it has the scene from which the call was made. -/
def Recovers (m : MuseumApp) : ViewerEvent → Prop
  | .reply generation .failed => generation = m.sceneGeneration → m.Restores m.currentScene
  | .loadScene generation throws =>
    generation = m.sceneGeneration → m.loadThrows generation throws = true →
      m.Restores m.currentScene
  | .timeout generation =>
    generation = m.sceneGeneration → m.Restores (m.fallback generation)
  | _ => True

end MuseumApp

end JingjieAR
