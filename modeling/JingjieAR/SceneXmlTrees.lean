import JingjieAR.SceneSwitchingModel
import JingjieAR.SceneXmlModel
import JingjieAR.XmlPrinting

/-! The document that a scene is meant to be: a tree whose attributes hold the strings of the scene
as they are. The text that the adapter puts together is the printing of this tree. -/
namespace JingjieAR.KrpanoXml

open XmlText (Text Node ofString escape print printAll)

section Trees

def pair (key value : String) : Text × Text := (ofString key, ofString value)

def webvrPlugin : Node :=
  .element (ofString "plugin")
    [pair "name" "webvr", pair "devices" "html5", pair "keep" "true",
      pair "url" "/assets/krp/plugins/webvr.js", pair "mobilevr_support" "true",
      pair "mobilevr_fake_support" "true", pair "fullscreen_mirroring" "true",
      pair "onavailable" "js(JingjieARWebVrBridge(1));",
      pair "onunavailable" "js(JingjieARWebVrBridge(0));",
      pair "onentervr" "js(JingjieARWebVrBridge(2));",
      pair "onexitvr" "js(JingjieARWebVrBridge(3));"] []

def gyroPlugin : Node :=
  .element (ofString "plugin")
    [pair "name" "gyro", pair "devices" "html5", pair "keep" "true",
      pair "url" "/assets/krp/plugins/gyro2.js", pair "enabled" "false",
      pair "onavailable" "js(JingjieARGyroBridge(1));",
      pair "onunavailable" "js(JingjieARGyroBridge(0));",
      pair "onenable" "js(JingjieARGyroBridge(2));",
      pair "ondisable" "js(JingjieARGyroBridge(3));", pair "camroll" "true",
      pair "friction" "0.5"] []

def sceneEvents (generation : JsFinite) : Node :=
  .element (ofString "events")
    [pair "name" "jingjie_scene_events",
      (ofString "onpreviewcomplete",
        ofString "js(JingjieARSceneBridge(0,"++(generation.toText++ofString "));")),
      (ofString "onloadcomplete",
        ofString "js(JingjieARSceneBridge(1,"++(generation.toText++ofString "));"))] []

def preview (url : Text) : Node := .element (ofString "preview") [(ofString "url", url)] []

def image (url : Text) : Node :=
  .element (ofString "image") [] [.element (ofString "cube") [(ofString "url", url)] []]

def viewElement (view : View) : Node :=
  .element (ofString "view")
    [(ofString "hlookat", view.hlookat.toText), (ofString "vlookat", view.vlookat.toText),
      (ofString "fov", view.fov.toText), pair "fovtype" "MFOV",
      (ofString "stereographic", (JsValue.boolean view.stereographic).toText),
      (ofString "fisheye", view.fisheye)] []

def scenePulse : Text :=
  ofString "if(hotspot[%1], "++
    (ofString "tween(hotspot[%1].oy,-18,0.6,default, "++
    (ofString "tween(hotspot[%1].oy,0,0.6,default, "++
    (ofString "if(hotspot[%1], scene_hotspot_pulse(%1););"++ofString ");););")))

def artworkPulse : Text :=
  ofString "if(hotspot[%1], "++
    (ofString "tween(hotspot[%1].scale,1.26,0.6,default, tween(hotspot[%1].scale,1,0.6)); "++
    (ofString "tween(hotspot[%1].alpha,1,0.6,default, tween(hotspot[%1].alpha,0.82,0.6)); "++
    (ofString "tween(hotspot[%1].oy,-7,0.6,default, "++
    (ofString "tween(hotspot[%1].oy,0,0.6,default, "++
    (ofString "if(hotspot[%1], artwork_hotspot_pulse(%1););"++ofString ");););")))))

def action (name : String) (pulse : Text) : Node :=
  .element (ofString "action") [pair "name" name] [.text pulse]

def pulseActions (shouldReduceMotion : Bool) : List Node :=
  if shouldReduceMotion then []
  else [action "scene_hotspot_pulse" scenePulse, action "artwork_hotspot_pulse" artworkPulse]

/-- The string that is given for a value, none being given for null and undefined. -/
def given (value : JsValue) : Text := value.orEmpty.toText

variable (stringToNumber : Text → JsNumber)

/-- The attributes that only some hotspots have. -/
def hotspotMotion (shouldReduceMotion : Bool) (hotspot : Hotspot) : List (Text × Text) :=
  (if hotspot.type = str "artwork" then [pair "alpha" "0.82"] else [])++
    (if !shouldReduceMotion && animated hotspot then
      [(ofString "onloaded", hotspot.type.toText++ofString "_hotspot_pulse(get(name));")]
    else [])

def hotspotAttributes (shouldReduceMotion : Bool) (hotspot : Hotspot) (index : ℕ) :
    List (Text × Text) :=
  [(ofString "name", given (hotspotName hotspot index)), pair "type" "image",
    pair "crop" "0|0|128|128", (ofString "title", given hotspot.title),
    (ofString "ath", (finiteNumber stringToNumber hotspot.ath (.ofNat 0)).toText),
    (ofString "atv", (finiteNumber stringToNumber hotspot.atv (.ofNat 0)).toText),
    (ofString "url", given hotspot.iconUrl)]++
    (hotspotMotion shouldReduceMotion hotspot++
    [(ofString "onclick", hotspotOnclick hotspot index)])

def hotspotElement (shouldReduceMotion : Bool) (hotspot : Hotspot) (index : ℕ) : Node :=
  .element (ofString "hotspot") (hotspotAttributes stringToNumber shouldReduceMotion hotspot index)
    []

/-- The elements that every scene has. -/
def template (previewUrl cubeUrl : Text) (view : View) (generation : JsFinite)
    (shouldReduceMotion : Bool) : List Node :=
  [webvrPlugin, gyroPlugin, sceneEvents generation, preview previewUrl, image cubeUrl,
    viewElement view]++pulseActions shouldReduceMotion

/-- The root: the template, and behind it one element for each hotspot, in order. -/
def sceneElement (template hotspots : List Node) : Node :=
  .element (ofString "krpano") [pair "version" "1.19"] (template++hotspots)

end Trees

section Escaping

/-- The five replacements, one behind the other, replace each character once. -/
theorem xmlEscape_eq (value : JsValue) : xmlEscape value = escape (given value) := by
  have hcharacter (c : ℕ) :
      ((((if c = 38 then ofString "&amp;" else [c]).flatMap
        (fun d => if d = 60 then ofString "&lt;" else [d])).flatMap
        (fun d => if d = 62 then ofString "&gt;" else [d])).flatMap
        (fun d => if d = 34 then ofString "&quot;" else [d])).flatMap
        (fun d => if d = 39 then ofString "&apos;" else [d]) = XmlText.escapeCharacter c := by
    by_cases hspecial : c ∈ [38, 60, 62, 34, 39]
    · revert c
      decide
    · have heq : XmlText.escapeCharacter c = [c] := by
        rcases XmlText.escapeCharacter_cases c with ⟨-, heq⟩ | hmem
        · exact heq
        · exact absurd (List.mem_map_of_mem hmem : c ∈ XmlText.specials.map Prod.fst) hspecial
      simp only [List.mem_cons, List.not_mem_nil, or_false, not_or] at hspecial
      obtain ⟨h38, h60, h62, h34, h39⟩ := hspecial
      simp [heq, h38, h60, h62, h34, h39]
  simp only [xmlEscape, replaceAll, List.flatMap_assoc, escape]
  refine List.flatMap_congr ?_
  intro c hc
  rw [← hcharacter c]
  simp only [List.flatMap_assoc]

end Escaping

section Plain

theorem escape_append (text text' : Text) : escape (text++text') = escape text++escape text' :=
  List.flatMap_append

/-- A text without any of the special characters is not changed. -/
theorem escape_eq_self {text : Text} (h : ∀ c ∈ text, c ∉ [38, 60, 62, 34, 39]) :
    escape text = text := by
  induction text with
  | nil => rfl
  | cons c text ih =>
    have hc : XmlText.escapeCharacter c = [c] := by
      rcases XmlText.escapeCharacter_cases c with ⟨-, heq⟩ | hmem
      · exact heq
      · exact absurd (List.mem_map_of_mem hmem : c ∈ XmlText.specials.map Prod.fst)
          (h c List.mem_cons_self)
    change XmlText.escapeCharacter c++escape text = _
    rw [hc, ih (fun d hd => h d (List.mem_cons_of_mem _ hd))]
    rfl

theorem decimal_bounds {n c : ℕ} (h : c ∈ decimal n) : 48 ≤ c ∧ c ≤ 57 := by
  obtain ⟨digit, hdigit, rfl⟩ := List.mem_map.mp h
  have hisDigit := Nat.isDigit_of_mem_toDigits (by decide) (by decide) hdigit
  simp only [Char.isDigit, Bool.and_eq_true, decide_eq_true_eq, UInt32.le_iff_toNat_le] at hisDigit
  exact hisDigit

/-- What numbers are written with. -/
def Numeric (c : ℕ) : Prop := 43 ≤ c ∧ c ≤ 57 ∨ c = 101

theorem numeric_decimal {n c : ℕ} (h : c ∈ decimal n) : Numeric c := by
  obtain ⟨hlow, hhigh⟩ := decimal_bounds h
  exact .inl ⟨by omega, hhigh⟩

theorem numeric_unsigned (x : JsFinite) : ∀ c ∈ x.unsigned, Numeric c := by
  have hdecimal : ∀ n, ∀ c ∈ decimal n, Numeric c := fun n c hc => numeric_decimal hc
  have htake : ∀ n k, ∀ c ∈ (decimal n).take k, Numeric c :=
    fun n k c hc => numeric_decimal (List.mem_of_mem_take hc)
  have hdrop : ∀ n k, ∀ c ∈ (decimal n).drop k, Numeric c :=
    fun n k c hc => numeric_decimal (List.mem_of_mem_drop hc)
  have hzeros : ∀ k, ∀ c ∈ List.replicate k 48, Numeric c := by
    intro k c hc
    rw [List.eq_of_mem_replicate hc]
    exact .inl (by decide)
  have hpoint : Numeric 46 := .inl (by decide)
  have hletter : Numeric 101 := .inr rfl
  rw [JsFinite.unsigned]
  dsimp only
  split
  · exact List.forall_mem_singleton.mpr (.inl (by decide))
  split
  · exact List.forall_mem_append.mpr ⟨hdecimal _, hzeros _⟩
  split
  · exact List.forall_mem_append.mpr ⟨htake _ _, List.forall_mem_cons.mpr ⟨hpoint, hdrop _ _⟩⟩
  split
  · refine List.forall_mem_append.mpr ⟨?_, List.forall_mem_append.mpr ⟨hzeros _, hdecimal _⟩⟩
    exact List.forall_mem_cons.mpr ⟨.inl (by decide), List.forall_mem_singleton.mpr hpoint⟩
  -- the form with a power of ten
  refine List.forall_mem_append.mpr ⟨htake _ _, List.forall_mem_append.mpr ⟨?_, ?_⟩⟩
  · split
    · exact fun c hc => absurd hc List.not_mem_nil
    · exact List.forall_mem_cons.mpr ⟨hpoint, hdrop _ _⟩
  · refine List.forall_mem_cons.mpr ⟨hletter, List.forall_mem_cons.mpr ⟨?_, hdecimal _⟩⟩
    split
    · exact .inl (by decide)
    · exact .inl (by decide)

theorem numeric_toText (x : JsFinite) : ∀ c ∈ x.toText, Numeric c := by
  rw [JsFinite.toText]
  split_ifs
  · exact List.forall_mem_cons.mpr ⟨.inl (by decide), numeric_unsigned x⟩
  · exact numeric_unsigned x

theorem escape_toText (x : JsFinite) : escape x.toText = x.toText := by
  apply escape_eq_self
  intro c hc hspecial
  have hnumeric := numeric_toText x c hc
  rw [Numeric] at hnumeric
  simp only [List.mem_cons, List.not_mem_nil, or_false] at hspecial
  omega

theorem escape_decimal (n : ℕ) : escape (decimal n) = decimal n := by
  apply escape_eq_self
  intro c hc hspecial
  have hbounds := decimal_bounds hc
  simp only [List.mem_cons, List.not_mem_nil, or_false] at hspecial
  omega

end Plain

section Printing

variable (rest : Text)

theorem ofString_ofList (chars : List Char) :
    ofString (String.ofList chars) = chars.map Char.toNat := by
  rw [ofString, String.toList_ofList]

set_option maxRecDepth 4000 in
theorem print_webvrPlugin : print webvrPlugin++rest =
    ofString "<plugin name=\"webvr\" devices=\"html5\" keep=\"true\""++
    (ofString " url=\"/assets/krp/plugins/webvr.js\" mobilevr_support=\"true\""++
    (ofString " mobilevr_fake_support=\"true\" fullscreen_mirroring=\"true\""++
    (ofString " onavailable=\"js(JingjieARWebVrBridge(1));\""++
    (ofString " onunavailable=\"js(JingjieARWebVrBridge(0));\""++
    (ofString " onentervr=\"js(JingjieARWebVrBridge(2));\""++
    (ofString " onexitvr=\"js(JingjieARWebVrBridge(3));\" />"++rest)))))) := by
  simp only [webvrPlugin, pair]
  repeat rw [ofString_ofList]
  rfl

set_option maxRecDepth 4000 in
theorem print_gyroPlugin : print gyroPlugin++rest =
    ofString "<plugin name=\"gyro\" devices=\"html5\" keep=\"true\""++
    (ofString " url=\"/assets/krp/plugins/gyro2.js\" enabled=\"false\""++
    (ofString " onavailable=\"js(JingjieARGyroBridge(1));\""++
    (ofString " onunavailable=\"js(JingjieARGyroBridge(0));\""++
    (ofString " onenable=\"js(JingjieARGyroBridge(2));\""++
    (ofString " ondisable=\"js(JingjieARGyroBridge(3));\""++
    (ofString " camroll=\"true\" friction=\"0.5\" />"++rest)))))) := by
  simp only [gyroPlugin, pair]
  repeat rw [ofString_ofList]
  rfl

theorem print_sceneEvents (generation : JsFinite) : print (sceneEvents generation)++rest =
    ofString "<events name=\"jingjie_scene_events\""++
    (ofString " onpreviewcomplete=\"js(JingjieARSceneBridge(0,"++(generation.toText++
    (ofString "));\""++(ofString " onloadcomplete=\"js(JingjieARSceneBridge(1,"++
    (generation.toText++(ofString "));\" />"++rest)))))) := by
  have hescape (text text' : Text) : escape (text++(generation.toText++text')) =
      escape text++(generation.toText++escape text') := by
    rw [escape_append, escape_append, escape_toText]
  simp only [sceneEvents, pair, XmlText.print_element, XmlText.printAttributes,
    XmlText.printAttribute, List.flatMap_cons, List.flatMap_nil, hescape, List.append_assoc,
    List.cons_append, List.append_nil]
  repeat rw [ofString_ofList]
  rfl

theorem print_preview (url : Text) : print (preview url)++rest =
    ofString "<preview url=\""++(escape url++(ofString "\" />"++rest)) := by
  simp only [preview, XmlText.print_element, XmlText.printAttributes, XmlText.printAttribute,
    List.flatMap_cons, List.flatMap_nil, List.append_assoc, List.cons_append, List.append_nil]
  repeat rw [ofString_ofList]
  rfl

theorem print_image (url : Text) : print (image url)++rest =
    ofString "<image><cube url=\""++(escape url++(ofString "\" /></image>"++rest)) := by
  have hinner : XmlText.closing (ofString "image")
      [.element (ofString "cube") [(ofString "url", url)] []]++rest =
      ofString "><cube url=\""++(escape url++(ofString "\" /></image>"++rest)) := by
    simp only [XmlText.closing, List.isEmpty_cons, Bool.false_eq_true, if_false, printAll,
      XmlText.print_element, XmlText.printAttributes, XmlText.printAttribute, List.flatMap_cons,
      List.flatMap_nil, List.isEmpty_nil, if_true, List.append_assoc, List.cons_append,
      List.append_nil, List.nil_append]
    repeat rw [ofString_ofList]
    rfl
  have hopen : ofString "<image><cube url=\"" = 60 :: (ofString "image"++
      ofString "><cube url=\"") := by
    repeat rw [ofString_ofList]
    rfl
  rw [image, XmlText.print_element, List.cons_append, List.append_assoc, List.append_assoc, hinner,
    hopen, List.cons_append, List.append_assoc]
  rfl

theorem print_viewElement (view : View) (hfisheye : escape view.fisheye = view.fisheye) :
    print (viewElement view)++rest =
      ofString "<view hlookat=\""++(view.hlookat.toText++(ofString "\" vlookat=\""++
      (view.vlookat.toText++(ofString "\" fov=\""++(view.fov.toText++
      (ofString "\" fovtype=\"MFOV\" stereographic=\""++
      ((JsValue.boolean view.stereographic).toText++
      (ofString "\" fisheye=\""++(view.fisheye++(ofString "\" />"++rest)))))))))) := by
  have hboolean : escape (JsValue.boolean view.stereographic).toText =
      (JsValue.boolean view.stereographic).toText := by
    cases view.stereographic with
    | false => rfl
    | true => rfl
  simp only [viewElement, pair, XmlText.print_element, XmlText.printAttributes,
    XmlText.printAttribute, List.flatMap_cons, List.flatMap_nil, escape_toText, hboolean, hfisheye,
    List.append_assoc, List.cons_append, List.append_nil]
  repeat rw [ofString_ofList]
  rfl

set_option maxRecDepth 4000 in
theorem print_pulseActions (shouldReduceMotion : Bool) :
    printAll (pulseActions shouldReduceMotion) = hotspotPulseActions shouldReduceMotion := by
  cases shouldReduceMotion with
  | false =>
    simp only [pulseActions, hotspotPulseActions, action, scenePulse, artworkPulse, pair,
      List.flatten_cons, List.flatten_nil, Bool.false_eq_true, if_false]
    repeat rw [ofString_ofList]
    rfl
  | true => rfl

end Printing

section Hotspots

variable (stringToNumber : Text → JsNumber) (shouldReduceMotion : Bool)

theorem type_of_animated {hotspot : Hotspot} (h : animated hotspot = true) :
    hotspot.type = str "scene" ∨ hotspot.type = str "artwork" := by
  simpa [animated] using h

set_option maxRecDepth 4000 in
theorem escape_hotspotOnclick (hotspot : Hotspot) (index : ℕ) :
    escape (hotspotOnclick hotspot index) = hotspotOnclick hotspot index := by
  have hbridge : escape (ofString "js(JingjieARHotspotBridge("++
      (decimal index++ofString "));")) =
      ofString "js(JingjieARHotspotBridge("++(decimal index++ofString "));") := by
    rw [escape_append, escape_append, escape_decimal]
    repeat rw [ofString_ofList]
    rfl
  have htweens : escape (ofString
      "stoptween(caller.scale); stoptween(caller.alpha); stoptween(caller.oy); ") =
      ofString "stoptween(caller.scale); stoptween(caller.alpha); stoptween(caller.oy); " := by
    repeat rw [ofString_ofList]
    rfl
  rw [hotspotOnclick]
  split_ifs
  · rw [escape_append, htweens, hbridge]
  · exact hbridge

theorem print_hotspotMotion (hotspot : Hotspot) :
    XmlText.printAttributes (hotspotMotion shouldReduceMotion hotspot) =
      (if hotspot.type = str "artwork" then ofString " alpha=\"0.82\"" else [])++
      (if !shouldReduceMotion && animated hotspot then
        ofString " onloaded=\""++(hotspot.type.toText++ofString "_hotspot_pulse(get(name));\"")
      else []) := by
  have halpha : XmlText.printAttributes
      (if hotspot.type = str "artwork" then [pair "alpha" "0.82"] else []) =
      if hotspot.type = str "artwork" then ofString " alpha=\"0.82\"" else [] := by
    split_ifs
    · decide
    · rfl
  have honloaded : animated hotspot = true → XmlText.printAttributes
      [(ofString "onloaded", hotspot.type.toText++ofString "_hotspot_pulse(get(name));")] =
      ofString " onloaded=\""++
        (hotspot.type.toText++ofString "_hotspot_pulse(get(name));\"") := by
    intro hanimated
    rcases type_of_animated hanimated with htype | htype
    · rw [htype]
      simp only [str, JsValue.toText]
      repeat rw [ofString_ofList]
      rfl
    · rw [htype]
      simp only [str, JsValue.toText]
      repeat rw [ofString_ofList]
      rfl
  rw [hotspotMotion, XmlText.printAttributes, List.flatMap_append]
  refine congrArg₂ _ halpha ?_
  split_ifs with hmotion
  · exact honloaded (Bool.and_eq_true_iff.mp hmotion).2
  · rfl

/-- The element of a hotspot is printed as it is put together. -/
theorem print_hotspotElement (hotspot : Hotspot) (index : ℕ) :
    print (hotspotElement stringToNumber shouldReduceMotion hotspot index) =
      hotspotXml stringToNumber shouldReduceMotion hotspot index := by
  have hmotion := print_hotspotMotion shouldReduceMotion hotspot
  have honclick := escape_hotspotOnclick hotspot index
  rw [hotspotXml, hotspotElement, XmlText.print_element, hotspotAttributes, XmlText.printAttributes,
    List.flatMap_append, List.flatMap_append]
  rw [XmlText.printAttributes] at hmotion
  rw [hmotion]
  simp only [pair, XmlText.printAttribute, List.flatMap_cons, List.flatMap_nil, List.flatten_cons,
    List.flatten_nil, escape_toText, honclick, xmlEscape_eq, List.append_assoc, List.cons_append,
    List.append_nil]
  repeat rw [ofString_ofList]
  rfl

theorem printAll_eq (nodes : List Node) : printAll nodes = (nodes.map print).flatten := by
  induction nodes with
  | nil => rfl
  | cons node nodes ih => rw [printAll, ih, List.map_cons, List.flatten_cons]

theorem printAll_append (nodes nodes' : List Node) :
    printAll (nodes++nodes') = printAll nodes++printAll nodes' := by
  rw [printAll_eq, List.map_append, List.flatten_append, ← printAll_eq, ← printAll_eq]

theorem print_sceneElement (node : Node) (template hotspots : List Node) :
    print (sceneElement (node :: template) hotspots) =
      ofString "<krpano version=\"1.19\">"++(print node++(printAll template++
        (printAll hotspots++ofString "</krpano>"))) := by
  have hall : printAll (node :: template++hotspots) =
      print node++(printAll template++printAll hotspots) := by
    rw [List.cons_append, printAll, printAll_append]
  have hclosing : XmlText.closing (ofString "krpano") (node :: template++hotspots) =
      62 :: (print node++(printAll template++(printAll hotspots++ofString "</krpano>"))) := by
    rw [XmlText.closing, hall]
    simp only [List.cons_append, List.isEmpty_cons, Bool.false_eq_true, if_false,
      List.append_assoc]
    repeat rw [ofString_ofList]
    rfl
  rw [sceneElement, XmlText.print_element, hclosing]
  simp only [pair, XmlText.printAttributes, XmlText.printAttribute, List.flatMap_cons,
    List.flatMap_nil, List.append_nil]
  repeat rw [ofString_ofList]
  rfl

variable (scene : Scene) (viewOverride : Option ViewSource)
  (viewMode reducedMotion generation : JsValue)

/-- The document of a scene. -/
def sceneDocument : Node :=
  sceneElement
    (template (given scene.previewUrl) (given scene.cubeUrl)
      (viewFor stringToNumber scene viewOverride viewMode)
      (finiteNumber stringToNumber generation ⟨true, 1, 1⟩) reducedMotion.truthy)
    ((renderableHotspots scene).mapIdx
      (fun index hotspot => hotspotElement stringToNumber reducedMotion.truthy hotspot index))

theorem fisheye_mem :
    (viewFor stringToNumber scene viewOverride viewMode).fisheye ∈
      [ofString "1.0", ofString "0.0"] := by
  rw [viewFor]
  split_ifs
  · exact List.mem_cons_self
  · exact List.mem_cons_self
  · exact List.mem_cons_self
  · exact List.mem_cons_of_mem _ List.mem_cons_self

/-- The adapter prints the document. -/
theorem buildSceneXml_eq :
    buildSceneXml stringToNumber scene viewOverride viewMode reducedMotion generation =
      print (sceneDocument stringToNumber scene viewOverride viewMode reducedMotion
        generation) := by
  have hhotspots : ((renderableHotspots scene).mapIdx (fun index hotspot =>
        hotspotXml stringToNumber reducedMotion.truthy hotspot index)).flatten =
      printAll ((renderableHotspots scene).mapIdx (fun index hotspot =>
        hotspotElement stringToNumber reducedMotion.truthy hotspot index)) := by
    rw [printAll_eq, List.mapIdx_eq_zipIdx_map, List.mapIdx_eq_zipIdx_map, List.map_map]
    simp only [Function.comp_def, print_hotspotElement]
  have hfisheye : ∀ text ∈ [ofString "1.0", ofString "0.0"], escape text = text := by decide
  have htemplate (nodes : List Node) (rest : Text) (node : Node) :
      printAll (node :: nodes)++rest = print node++(printAll nodes++rest) := by
    rw [printAll, List.append_assoc]
  rw [sceneDocument, template, List.cons_append, print_sceneElement]
  simp only [List.cons_append, htemplate, List.nil_append]
  rw [print_webvrPlugin, print_gyroPlugin, print_sceneEvents, print_preview, print_image,
    print_viewElement _ _ (hfisheye _ (fisheye_mem stringToNumber scene viewOverride viewMode)),
    print_pulseActions, ← hhotspots, buildSceneXml]
  simp only [List.flatten_cons, List.flatten_nil, xmlEscape_eq, List.append_nil]

end Hotspots

section Viewer

/-- A hotspot of the viewer's protocol, which leaves out all that is only written into the text. -/
def Hotspot.ofViewer (hotspot : ViewerHotspot) : Hotspot where
  hotspotId := str hotspot.hotspotId
  type := str hotspot.type
  renderable :=
    match hotspot.renderable with
    | none => .undefined
    | some value => .boolean value
  title := .undefined
  ath := .undefined
  atv := .undefined
  iconUrl := .undefined

def Scene.ofViewer (scene : ViewerScene) : Scene where
  view := none
  previewUrl := .undefined
  cubeUrl := .undefined
  hotspots := scene.hotspots.map (fun hotspots => hotspots.map (Option.map Hotspot.ofViewer))

theorem str_inj {text text' : String} : str text = str text' ↔ text = text' := by
  constructor
  · intro heq
    have hcodes : ofString text = ofString text' := JsValue.string.inj heq
    exact String.toList_injective (List.map_injective_iff.mpr (fun c d => Char.toNat_inj.mp) hcodes)
  · rintro rfl
    rfl

/-- Both models keep the same hotspots. -/
theorem renderableHotspots_ofViewer (scene : ViewerScene) :
    renderableHotspots (Scene.ofViewer scene) =
      (JingjieAR.renderableHotspots scene).map Hotspot.ofViewer := by
  have hkeep (hotspot : ViewerHotspot) :
      ((Hotspot.ofViewer hotspot).type ≠ str "inactive" &&
        (Hotspot.ofViewer hotspot).renderable ≠ .boolean false) =
      (hotspot.type ≠ "inactive" && hotspot.renderable ≠ some false) := by
    have htype : ((Hotspot.ofViewer hotspot).type = str "inactive") ↔ hotspot.type = "inactive" :=
      str_inj
    have hrenderable : (Hotspot.ofViewer hotspot).renderable = .boolean false ↔
        hotspot.renderable = some false := by
      rw [Hotspot.ofViewer]
      cases hotspot.renderable with
      | none => simp
      | some value => simp
    simp only [ne_eq, htype, hrenderable]
  have hpresent (hotspots : List (Option ViewerHotspot)) :
      (hotspots.map (Option.map Hotspot.ofViewer)).filterMap id =
        (hotspots.filterMap id).map Hotspot.ofViewer := by
    rw [List.filterMap_map, List.map_filterMap]
    rfl
  rw [renderableHotspots, JingjieAR.renderableHotspots, Scene.ofViewer]
  cases scene.hotspots with
  | none => rfl
  | some hotspots =>
    simp only [Option.map_some, Option.getD_some, hpresent, List.filter_map, Function.comp_def,
      hkeep]

end Viewer

end JingjieAR.KrpanoXml
