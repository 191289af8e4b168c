import JingjieAR.TransitionRuns
import Mathlib.Data.Finset.Insert
import Mathlib.Data.Finset.Erase
import Mathlib.Data.Finset.Card

/-! The gyroscope: its controller, and the plugin of the player. The plugin applies what it is
told at once, and raises an event for each call later on. A reason for a suspension is any value
that can be compared. -/
namespace JingjieAR

/-- `permissionRequest` of the controller. -/
inductive PermissionRequest
  | none
  | pending
  | settled (granted : Bool)
deriving DecidableEq

structure GyroController (Reason : Type) where
  -- the length of `permissionSources`
  permissionSources : ℕ
  notifyUnavailable : Bool
  permissionRequested : Bool := false
  permissionGranted : Bool
  permissionRequest : PermissionRequest := .none
  pluginAvailable : Bool := false
  denialNotified : Bool := false
  suspensions : Finset Reason := ∅
  gyroEnabled : Bool := false
  destroyed : Bool := false

/-- The plugin, with the `enabled` and `disabled` events that it has not raised yet. -/
structure GyroPlugin where
  player : Bool := false
  enabled : Bool := false
  undelivered : List Bool := []

namespace GyroPlugin

def setEnabled (p : GyroPlugin) (enabled : Bool) : GyroPlugin :=
  if p.player then { p with enabled := enabled, undelivered := p.undelivered++[enabled] } else p

def enableGyro (p : GyroPlugin) : GyroPlugin := p.setEnabled true

def disableGyro (p : GyroPlugin) : GyroPlugin := p.setEnabled false

end GyroPlugin

namespace GyroController

variable {Reason : Type} (c : GyroController Reason)

def permissionRequired : Bool := decide (0 < c.permissionSources)

def isAvailable : Bool := c.pluginAvailable

/-- When the gyroscope is to be on. -/
def Allowed : Prop :=
  c.permissionGranted = true ∧ c.pluginAvailable = true ∧ c.suspensions = ∅ ∧ c.destroyed = false

/-- `notifyDeniedOnce`, except for the callback. -/
def notifyDeniedOnce : GyroController Reason :=
  if c.denialNotified then c else { c with denialNotified := true }

end GyroController

/-- The controller and the plugin, with the calls of `requestFromGesture` that are at an `await`:
the one that has asked for the permission, and the number of the later ones. -/
structure GyroViewer (Reason : Type) where
  controller : GyroController Reason
  plugin : GyroPlugin := {}
  asking : Bool := false
  waiting : ℕ := 0

inductive GyroEvent (Reason : Type)
  | onready
  | requestFromGesture
  -- what each source has answered, and none where it has failed
  | permissionResult (permissions : List (Option String))
  -- the call that has asked goes on, or one of the later ones does
  | continueAsking
  | continueWaiting
  | autoEnable
  | available
  | unavailable
  -- the next `enabled` or `disabled` event
  | deliver
  | suspend (reason : Reason)
  | resume (reason : Reason)
  | destroy

namespace GyroViewer

variable {Reason : Type}

/-- A new controller. -/
def initial (Reason : Type) (permissionSources : ℕ) (notifyUnavailable : Bool) :
    GyroViewer Reason where
  controller :=
    { permissionSources := permissionSources
      notifyUnavailable := notifyUnavailable
      permissionGranted := decide (permissionSources = 0) }

def enableIfAllowed (s : GyroViewer Reason) : Bool × GyroViewer Reason :=
  if s.controller.destroyed = true ∨ s.controller.permissionGranted = false ∨
      s.controller.suspensions.card ≠ 0 ∨ s.controller.isAvailable = false then (false, s)
  else if s.controller.gyroEnabled = false then
    (true, { s with
      plugin := s.plugin.enableGyro
      controller := { s.controller with gyroEnabled := true } })
  else (true, s)

/-- What `unavailable`, `suspend` and `destroy` do. -/
def disableIfEnabled (s : GyroViewer Reason) : GyroViewer Reason :=
  if s.controller.gyroEnabled then
    { s with
      plugin := s.plugin.disableGyro
      controller := { s.controller with gyroEnabled := false } }
  else s

/-- `requestFromGesture` as far as its first `await`. -/
def requestFromGesture (s : GyroViewer Reason) : GyroViewer Reason :=
  if s.controller.destroyed then s
  else if s.controller.permissionRequired = false then s.enableIfAllowed.2
  else if s.controller.permissionRequest ≠ .none then { s with waiting := s.waiting+1 }
  else if s.controller.permissionRequested then s.enableIfAllowed.2
  else
    { s with
      controller := { s.controller with permissionRequested := true, permissionRequest := .pending }
      asking := true }

/-- The rest of the call that has asked. -/
def continueAsking (s : GyroViewer Reason) (granted : Bool) : GyroViewer Reason :=
  let s := { s with
    controller := { s.controller with permissionGranted := granted }
    asking := false }
  if granted then s.enableIfAllowed.2
  else { s with controller := s.controller.notifyDeniedOnce }

def autoEnable (s : GyroViewer Reason) : GyroViewer Reason :=
  if s.controller.permissionRequired then s else s.enableIfAllowed.2

def handleAvailable (s : GyroViewer Reason) : GyroViewer Reason :=
  if s.controller.destroyed then s
  else { s with controller := { s.controller with pluginAvailable := true } }.enableIfAllowed.2

def handleUnavailable (s : GyroViewer Reason) : GyroViewer Reason :=
  if s.controller.destroyed then s
  else
    let s := { s with
      controller := { s.controller with pluginAvailable := false } }.disableIfEnabled
    if s.controller.notifyUnavailable then
      { s with controller := s.controller.notifyDeniedOnce }
    else s

/-- An `enabled` or a `disabled` event. -/
def handleEnabled (s : GyroViewer Reason) (enabled : Bool) : GyroViewer Reason :=
  if s.controller.destroyed then s
  else { s with controller := { s.controller with gyroEnabled := enabled } }

variable [DecidableEq Reason]

def suspend (s : GyroViewer Reason) (reason : Reason) : GyroViewer Reason :=
  { s with controller :=
      { s.controller with suspensions := insert reason s.controller.suspensions } }.disableIfEnabled

def resume (s : GyroViewer Reason) (reason : Reason) : Bool × GyroViewer Reason :=
  { s with controller :=
      { s.controller with suspensions := s.controller.suspensions.erase reason } }.enableIfAllowed

def destroy (s : GyroViewer Reason) : GyroViewer Reason :=
  if s.controller.destroyed then s
  else
    { s with controller :=
        { s.controller with destroyed := true, suspensions := ∅ } }.disableIfEnabled

/-- The bridge of the player is there from `onready` on. Of the calls at an `await`, the one that
has asked goes on first. -/
def next (s : GyroViewer Reason) : GyroEvent Reason → Option (GyroViewer Reason)
  | .onready => some { s with plugin := { s.plugin with player := true } }
  | .requestFromGesture => some s.requestFromGesture
  | .permissionResult permissions =>
    if s.controller.permissionRequest = .pending ∧
        permissions.length = s.controller.permissionSources then
      let granted := permissions.all (· = some "granted")
      some { s with controller := { s.controller with permissionRequest := .settled granted } }
    else none
  | .continueAsking =>
    match s.asking, s.controller.permissionRequest with
    | true, .settled granted => some (s.continueAsking granted)
    | _, _ => none
  | .continueWaiting =>
    match s.asking, s.controller.permissionRequest, s.waiting with
    | false, .settled _, waiting+1 => some { s with waiting := waiting }.enableIfAllowed.2
    | _, _, _ => none
  | .autoEnable => some s.autoEnable
  | .available => if s.plugin.player then some s.handleAvailable else none
  | .unavailable => if s.plugin.player then some s.handleUnavailable else none
  | .deliver =>
    match s.plugin.undelivered with
    | [] => none
    | enabled :: undelivered =>
      some ({ s with plugin := { s.plugin with undelivered := undelivered } }.handleEnabled enabled)
  | .suspend reason => some (s.suspend reason)
  | .resume reason => some (s.resume reason).2
  | .destroy => some s.destroy

def Step (s : GyroViewer Reason) (e : GyroEvent Reason) (s' : GyroViewer Reason) : Prop :=
  s.next e = some s'

/-- No event is undelivered, and no permission is pending. -/
def Quiescent (s : GyroViewer Reason) : Prop := s.plugin.undelivered = [] ∧ s.asking = false

/-- The gyroscope is on exactly if it is to be on. -/
def Converged (s : GyroViewer Reason) : Prop :=
  s.plugin.enabled = true ↔ s.controller.Allowed

/-- Where the controller is about to see to it that the gyroscope is on, `gyroEnabled` does not
say so of one that is off. -/
def TrustedOn (s : GyroViewer Reason) (c : GyroController Reason) : Prop :=
  c.Allowed → c.gyroEnabled = true → s.plugin.enabled = true

/-- Where it is about to see to it that the gyroscope is off, `gyroEnabled` does not say so of one
that is on. -/
def TrustedOff (s : GyroViewer Reason) : Prop :=
  s.plugin.enabled = true → s.controller.gyroEnabled = true

/-- `gyroEnabled` can be trusted by a step that reads it. -/
def Trusted (s : GyroViewer Reason) : GyroEvent Reason → Prop
  | .requestFromGesture => s.controller.permissionRequired = false → s.TrustedOn s.controller
  | .continueAsking =>
    s.TrustedOn { s.controller with
      permissionGranted := decide (s.controller.permissionRequest = .settled true) }
  | .continueWaiting => s.TrustedOn s.controller
  | .autoEnable => s.controller.permissionRequired = false → s.TrustedOn s.controller
  | .available => s.TrustedOn { s.controller with pluginAvailable := true }
  | .unavailable => s.TrustedOff
  | .resume reason =>
    s.TrustedOn { s.controller with suspensions := s.controller.suspensions.erase reason }
  | .suspend _ => s.TrustedOff
  | .destroy => s.TrustedOff
  | .onready | .permissionResult _ | .deliver => True

end GyroViewer

end JingjieAR
