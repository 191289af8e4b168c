import JingjieAR.TransitionRuns
import Mathlib.Data.List.Basic

/-! How `KrpanoAdapter` enters VR. The player may raise events inside of `player.call`, and what
it calls back may enter VR again, so that calls of `enterVr` can lie within each other: what
happens inside of a call are the steps until it returns or throws. -/
namespace JingjieAR

inductive VrState
  | unknown
  | unavailable
  | available
  | entering
  | entered
deriving DecidableEq

inductive VrEvent
  | available
  | unavailable
  | entered
  | exited
deriving DecidableEq

/-- A request goes by the number of its promise. -/
structure VrRequest where
  promise : ℕ
  timerId : Option ℕ := none
deriving DecidableEq

inductive VrOutcome
  | resolved
  | rejected (message : String)
deriving DecidableEq

def VrOutcome.of : Option String → VrOutcome
  | some message => .rejected message
  | none => .resolved

/-- A timer that is armed, and the promise of the request for which it was armed. Its callback
does not know the request. -/
structure VrTimer where
  timerId : ℕ
  promise : ℕ
deriving DecidableEq

/-- What `enterVr` returns or throws. -/
inductive VrReply
  | promise (number : ℕ)
  | resolvedPromise
  | throws (message : String)
  -- a field of `null` is read
  | typeError
deriving DecidableEq

/-- The fields of `KrpanoAdapter` for VR, the calls of `enterVr` that are inside of `player.call`
(the innermost one first), and the promises and timers of the browser. -/
structure VrAdapter where
  isSecureContext : Option Bool
  player : Bool := false
  vrState : VrState := .unknown
  vrEnterRequest : Option VrRequest := none
  calls : List ℕ := []
  promises : ℕ := 0
  settled : List (ℕ × VrOutcome) := []
  timers : List VrTimer := []
deriving DecidableEq

namespace VrAdapter

/-- `enterVr` as far as `player.call`. -/
def enterVr (a : VrAdapter) : VrReply × VrAdapter :=
  if a.isSecureContext = some false then (.throws "进入 VR 需要 HTTPS 安全连接", a)
  else if a.player = false then (.throws "全景播放器尚未就绪", a)
  else
    match a.vrState with
    | .unknown => (.throws "VR 插件尚未完成可用性检测，请稍后重试", a)
    | .unavailable => (.throws "当前设备或浏览器不支持 VR", a)
    | .entering =>
      match a.vrEnterRequest with
      | some request => (.promise request.promise, a)
      | none => (.typeError, a)
    | .entered => (.resolvedPromise, a)
    | .available =>
      (.promise a.promises,
        { a with
          vrEnterRequest := some { promise := a.promises }
          vrState := .entering
          calls := a.promises :: a.calls
          promises := a.promises+1 })

def clearTimeout (a : VrAdapter) (timerId : ℕ) : VrAdapter :=
  { a with timers := a.timers.filter (·.timerId ≠ timerId) }

def settle (a : VrAdapter) (request : VrRequest) (error : Option String) : VrAdapter :=
  { a with settled := a.settled++[(request.promise, .of error)] }

def finishVrEnter (a : VrAdapter) (error : Option String) (nextState : VrState) : VrAdapter :=
  let cleared := { a with vrEnterRequest := none, vrState := nextState }
  match a.vrEnterRequest with
  | none => cleared
  | some request =>
    match request.timerId with
    | some timerId => (cleared.clearTimeout timerId).settle request error
    | none => cleared.settle request error

/-- The rest of `enterVr` where `player.call` has returned: a request that has not been finished
meanwhile gets a timer. -/
def callReturned (a : VrAdapter) (promise timerId : ℕ) : VrAdapter :=
  match a.vrEnterRequest with
  | some request =>
    if request.promise = promise then
      { a with
        vrEnterRequest := some { request with timerId := some timerId }
        timers := a.timers++[⟨timerId, promise⟩] }
    else a
  | none => a

/-- The rest of `enterVr` where `player.call`, or `setTimeoutFn` behind it, has thrown. The
message is empty if there is none. -/
def callThrew (a : VrAdapter) (message : String) : VrAdapter :=
  let detail := if message = "" then "" else "：" ++ message
  a.finishVrEnter (some ("进入 VR 失败" ++ detail)) .available

/-- The callback of a timer. -/
def timeout (a : VrAdapter) (timerId : ℕ) : VrAdapter :=
  (a.clearTimeout timerId).finishVrEnter (some "进入 VR 超时，请重试") .available

/-- `handleVrEvent`. What `onVrStateChange` does comes as steps of its own behind it. -/
def handleVrEvent (a : VrAdapter) : VrEvent → VrAdapter
  | .available =>
    if a.vrState ≠ .entering ∧ a.vrState ≠ .entered then { a with vrState := .available } else a
  | .unavailable =>
    if a.vrEnterRequest.isSome then
      a.finishVrEnter (some "当前设备或浏览器不支持 VR") .unavailable
    else { a with vrState := .unavailable }
  | .entered =>
    if a.vrEnterRequest.isSome then a.finishVrEnter none .entered
    else { a with vrState := .entered }
  | .exited =>
    if a.vrEnterRequest.isSome then
      a.finishVrEnter (some "VR 进入已取消，请重试") .available
    else { a with vrState := .available }

inductive VrAction
  | onready
  | enterVr
  | event (event : VrEvent)
  -- the innermost call, with the timer that it gets if it gets one
  | callReturns (timerId : ℕ)
  | callThrows (message : String)
  | timeout (timerId : ℕ)
deriving DecidableEq

/-- A new timer has an identifier that no armed one has. A timer may fire at any point here, also
inside of a call. -/
def next (a : VrAdapter) : VrAction → Option VrAdapter
  | .onready => if a.player then none else some { a with player := true }
  | .enterVr => some a.enterVr.2
  | .event event => if a.player then some (a.handleVrEvent event) else none
  | .callReturns timerId =>
    match a.calls with
    | [] => none
    | promise :: calls =>
      if timerId ∈ a.timers.map (·.timerId) then none
      else some ({ a with calls := calls }.callReturned promise timerId)
  | .callThrows message =>
    match a.calls with
    | [] => none
    | _ :: calls => some ({ a with calls := calls }.callThrew message)
  | .timeout timerId =>
    if timerId ∈ a.timers.map (·.timerId) then some (a.timeout timerId) else none

def Step (a : VrAdapter) (action : VrAction) (a' : VrAdapter) : Prop := a.next action = some a'

end VrAdapter

end JingjieAR
