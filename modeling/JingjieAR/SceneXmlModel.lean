import JingjieAR.XmlTexts
import Mathlib.Data.Int.Notation

/-! The part of `krpano-adapter.js` that writes a scene as an XML text for the player and puts it
into the command `loadxml`. A string of JavaScript is the list of its code points; a surrogate
without its pair is one too. -/
namespace JingjieAR.KrpanoXml

open XmlText (Text ofString)

section Values

def decimal (n : ℕ) : Text := (Nat.toDigits 10 n).map Char.toNat

/-- A finite number as the definition of `Number::toString` has it: the digits of the
significand, and where the point is in them. -/
structure JsFinite where
  negative : Bool := false
  significand : ℕ
  exponent : ℤ
deriving DecidableEq

def JsFinite.ofNat (n : ℕ) : JsFinite :=
  { significand := n, exponent := (decimal n).length }

def JsFinite.unsigned (x : JsFinite) : Text :=
  let digits := decimal x.significand
  let k : ℤ := digits.length
  let n := x.exponent
  if x.significand = 0 then ofString "0"
  else if k ≤ n ∧ n ≤ 21 then digits++List.replicate (n-k).toNat 48
  else if 0 < n ∧ n ≤ 21 then digits.take n.toNat++(46 :: digits.drop n.toNat)
  else if -6 < n ∧ n ≤ 0 then ofString "0."++(List.replicate (-n).toNat 48++digits)
  else
    let sign := if 0 < n then 43 else 45
    let fraction := if k = 1 then [] else 46 :: digits.drop 1
    digits.take 1++(fraction++(101 :: sign :: decimal (n-1).natAbs))

def JsFinite.toText (x : JsFinite) : Text :=
  if x.negative ∧ x.significand ≠ 0 then 45 :: x.unsigned else x.unsigned

inductive JsNumber
  | finite (value : JsFinite)
  | infinity (negative : Bool)
  | nan
deriving DecidableEq

/-- A value of a scene; of an object it matters what `String` and `Number` make of it. -/
inductive JsValue
  | undefined
  | null
  | boolean (value : Bool)
  | number (value : JsNumber)
  | string (value : Text)
  | object (text : Text) (number : JsNumber)
deriving DecidableEq

/-- `String(value)` -/
def JsValue.toText : JsValue → Text
  | undefined => ofString "undefined"
  | null => ofString "null"
  | boolean true => ofString "true"
  | boolean false => ofString "false"
  | number (.finite value) => value.toText
  | number (.infinity false) => ofString "Infinity"
  | number (.infinity true) => ofString "-Infinity"
  | number .nan => ofString "NaN"
  | string value => value
  | object text _ => text

/-- `Number(value)`, by the number that is meant by a string. -/
def JsValue.toNumber (stringToNumber : Text → JsNumber) : JsValue → JsNumber
  | undefined => .nan
  | null => .finite (.ofNat 0)
  | boolean true => .finite (.ofNat 1)
  | boolean false => .finite (.ofNat 0)
  | number value => value
  | string value => stringToNumber value
  | object _ value => value

/-- `Boolean(value)` -/
def JsValue.truthy : JsValue → Bool
  | undefined => false
  | null => false
  | boolean value => value
  | number (.finite value) => value.significand ≠ 0
  | number (.infinity _) => true
  | number .nan => false
  | string value => !value.isEmpty
  | object _ _ => true

/-- `value ?? ""` -/
def JsValue.orEmpty : JsValue → JsValue
  | undefined => .string []
  | null => .string []
  | value => value

/-- `text.replaceAll(c, replacement)` -/
def replaceAll (text : Text) (c : ℕ) (replacement : Text) : Text :=
  text.flatMap (fun d => if d = c then replacement else [d])

def str (text : String) : JsValue := .string (ofString text)

end Values

section Scenes

/-- The object of a view; a property that it does not have is undefined. -/
structure ViewSource where
  hlookat : JsValue
  vlookat : JsValue
  fov : JsValue

structure Hotspot where
  hotspotId : JsValue
  type : JsValue
  renderable : JsValue
  title : JsValue
  ath : JsValue
  atv : JsValue
  iconUrl : JsValue

/-- A scene: `view` may be falsy, `hotspots` may be no array, and the array may hold falsy
values. -/
structure Scene where
  view : Option ViewSource
  previewUrl : JsValue
  cubeUrl : JsValue
  hotspots : Option (List (Option Hotspot))

structure View where
  hlookat : JsFinite
  vlookat : JsFinite
  fov : JsFinite
  stereographic : Bool
  fisheye : Text

end Scenes

def xmlEscape (value : JsValue) : Text :=
  let text := value.orEmpty.toText
  let text := replaceAll text 38 (ofString "&amp;")
  let text := replaceAll text 60 (ofString "&lt;")
  let text := replaceAll text 62 (ofString "&gt;")
  let text := replaceAll text 34 (ofString "&quot;")
  replaceAll text 39 (ofString "&apos;")

variable (stringToNumber : Text → JsNumber)

def finiteNumber (value : JsValue) (fallback : JsFinite) : JsFinite :=
  match value.toNumber stringToNumber with
  | .finite number => number
  | _ => fallback

/-- `override || scene.view || {}` -/
def viewSource (scene : Scene) (override : Option ViewSource) : ViewSource :=
  (override.or scene.view).getD ⟨.undefined, .undefined, .undefined⟩

def viewFor (scene : Scene) (override : Option ViewSource) (mode : JsValue) : View :=
  let source := viewSource scene override
  let hlookat := finiteNumber stringToNumber source.hlookat (.ofNat 0)
  let vlookat := finiteNumber stringToNumber source.vlookat (.ofNat 0)
  let fov := finiteNumber stringToNumber source.fov (.ofNat 90)
  if mode = str "planet" then ⟨hlookat, .ofNat 90, .ofNat 150, true, ofString "1.0"⟩
  else if mode = str "fisheye" then ⟨hlookat, vlookat, .ofNat 120, false, ofString "1.0"⟩
  else if mode = str "crystal" then ⟨hlookat, .ofNat 0, .ofNat 150, true, ofString "1.0"⟩
  else ⟨hlookat, vlookat, fov, false, ofString "0.0"⟩

def renderableHotspots (scene : Scene) : List Hotspot :=
  ((scene.hotspots.getD []).filterMap id).filter
    (fun hotspot => hotspot.type ≠ str "inactive" && hotspot.renderable ≠ .boolean false)

def hotspotPulseActions (shouldReduceMotion : Bool) : Text :=
  if shouldReduceMotion then []
  else
    [ofString "<action name=\"scene_hotspot_pulse\"><![CDATA[",
      ofString "if(hotspot[%1], ",
      ofString "tween(hotspot[%1].oy,-18,0.6,default, ",
      ofString "tween(hotspot[%1].oy,0,0.6,default, ",
      ofString "if(hotspot[%1], scene_hotspot_pulse(%1););",
      ofString ");",
      ofString ");",
      ofString ");",
      ofString "]]></action>",
      ofString "<action name=\"artwork_hotspot_pulse\"><![CDATA[",
      ofString "if(hotspot[%1], ",
      ofString "tween(hotspot[%1].scale,1.26,0.6,default, tween(hotspot[%1].scale,1,0.6)); ",
      ofString "tween(hotspot[%1].alpha,1,0.6,default, tween(hotspot[%1].alpha,0.82,0.6)); ",
      ofString "tween(hotspot[%1].oy,-7,0.6,default, ",
      ofString "tween(hotspot[%1].oy,0,0.6,default, ",
      ofString "if(hotspot[%1], artwork_hotspot_pulse(%1););",
      ofString ");",
      ofString ");",
      ofString ");",
      ofString "]]></action>"].flatten

/-- The name of a hotspot, `hotspot.hotspotId || ...`. -/
def hotspotName (hotspot : Hotspot) (index : ℕ) : JsValue :=
  if hotspot.hotspotId.truthy then hotspot.hotspotId
  else .string (ofString "hotspot-"++decimal index)

def animated (hotspot : Hotspot) : Bool :=
  hotspot.type = str "scene" || hotspot.type = str "artwork"

def hotspotOnclick (hotspot : Hotspot) (index : ℕ) : Text :=
  if animated hotspot then
    ofString "stoptween(caller.scale); stoptween(caller.alpha); stoptween(caller.oy); "++
      (ofString "js(JingjieARHotspotBridge("++(decimal index++ofString "));"))
  else ofString "js(JingjieARHotspotBridge("++(decimal index++ofString "));")

/-- The element of one hotspot. -/
def hotspotXml (shouldReduceMotion : Bool) (hotspot : Hotspot) (index : ℕ) : Text :=
  let onloaded :=
    if !shouldReduceMotion && animated hotspot then
      ofString " onloaded=\""++(hotspot.type.toText++ofString "_hotspot_pulse(get(name));\"")
    else []
  let alpha := if hotspot.type = str "artwork" then ofString " alpha=\"0.82\"" else []
  [ofString "<hotspot name=\"", xmlEscape (hotspotName hotspot index),
    ofString "\" type=\"image\" crop=\"0|0|128|128",
    ofString "\" title=\"", xmlEscape hotspot.title,
    ofString "\" ath=\"", (finiteNumber stringToNumber hotspot.ath (.ofNat 0)).toText,
    ofString "\" atv=\"", (finiteNumber stringToNumber hotspot.atv (.ofNat 0)).toText,
    ofString "\" url=\"", xmlEscape hotspot.iconUrl,
    ofString "\"", alpha, onloaded, ofString " onclick=\"", hotspotOnclick hotspot index,
    ofString "\" />"].flatten

def buildSceneXml (scene : Scene) (viewOverride : Option ViewSource)
    (viewMode reducedMotion generation : JsValue) : Text :=
  let view := viewFor stringToNumber scene viewOverride viewMode
  let sceneGeneration := finiteNumber stringToNumber generation ⟨true, 1, 1⟩
  let hotspots := renderableHotspots scene
  let shouldReduceMotion := reducedMotion.truthy
  [ofString "<krpano version=\"1.19\">",
    ofString "<plugin name=\"webvr\" devices=\"html5\" keep=\"true\"",
    ofString " url=\"/assets/krp/plugins/webvr.js\" mobilevr_support=\"true\"",
    ofString " mobilevr_fake_support=\"true\" fullscreen_mirroring=\"true\"",
    ofString " onavailable=\"js(JingjieARWebVrBridge(1));\"",
    ofString " onunavailable=\"js(JingjieARWebVrBridge(0));\"",
    ofString " onentervr=\"js(JingjieARWebVrBridge(2));\"",
    ofString " onexitvr=\"js(JingjieARWebVrBridge(3));\" />",
    ofString "<plugin name=\"gyro\" devices=\"html5\" keep=\"true\"",
    ofString " url=\"/assets/krp/plugins/gyro2.js\" enabled=\"false\"",
    ofString " onavailable=\"js(JingjieARGyroBridge(1));\"",
    ofString " onunavailable=\"js(JingjieARGyroBridge(0));\"",
    ofString " onenable=\"js(JingjieARGyroBridge(2));\"",
    ofString " ondisable=\"js(JingjieARGyroBridge(3));\"",
    ofString " camroll=\"true\" friction=\"0.5\" />",
    ofString "<events name=\"jingjie_scene_events\"",
    ofString " onpreviewcomplete=\"js(JingjieARSceneBridge(0,", sceneGeneration.toText,
    ofString "));\"",
    ofString " onloadcomplete=\"js(JingjieARSceneBridge(1,", sceneGeneration.toText,
    ofString "));\" />",
    ofString "<preview url=\"", xmlEscape scene.previewUrl, ofString "\" />",
    ofString "<image><cube url=\"", xmlEscape scene.cubeUrl, ofString "\" /></image>",
    ofString "<view hlookat=\"", view.hlookat.toText, ofString "\" vlookat=\"", view.vlookat.toText,
    ofString "\" fov=\"", view.fov.toText, ofString "\" fovtype=\"MFOV\" stereographic=\"",
    (JsValue.boolean view.stereographic).toText,
    ofString "\" fisheye=\"", view.fisheye, ofString "\" />",
    hotspotPulseActions shouldReduceMotion,
    (hotspots.mapIdx
      (fun index hotspot => hotspotXml stringToNumber shouldReduceMotion hotspot index)).flatten,
    ofString "</krpano>"].flatten

def krpanoActionString (xml : Text) : Text :=
  replaceAll (replaceAll (replaceAll xml 92 (ofString "\\\\")) 13 []) 10 (ofString " ")

/-- The command that `loadScene` gives to the player, and the hotspots that it keeps for the
bridge. -/
structure SceneLoad where
  command : Text
  currentHotspots : List Hotspot

/-- What `loadScene` does once the player is there, from the view that is to be preserved on. -/
def loadScene (scene : Scene) (preservedView : Option ViewSource)
    (viewMode reducedMotion requestedGeneration : JsValue) : SceneLoad :=
  let nextHotspots := renderableHotspots scene
  let xml := buildSceneXml stringToNumber scene preservedView viewMode reducedMotion
    requestedGeneration
  { command := ofString "loadxml('"++(krpanoActionString xml++ofString "', null, RESET);")
    currentHotspots := nextHotspots }

end JingjieAR.KrpanoXml
