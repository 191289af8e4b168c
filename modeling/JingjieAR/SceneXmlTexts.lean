import JingjieAR.SceneXmlTrees

/-! Where the strings of a scene end up. If they are made of characters that a document may hold,
none of them a control character, they can change nothing about the document but the values that
they are given for, and not the command that the document is put into either. -/
namespace JingjieAR.KrpanoXml

open XmlText (Text Node ofString escape print printAll isName isPlain Printable)

section Strings

/-- The strings of a value. -/
def JsValue.strings : JsValue → List Text
  | string value => [value]
  | object text _ => [text]
  | _ => []

def ViewSource.strings (source : ViewSource) : List Text :=
  [source.hlookat, source.vlookat, source.fov].flatMap JsValue.strings

def Hotspot.strings (hotspot : Hotspot) : List Text :=
  [hotspot.hotspotId, hotspot.type, hotspot.renderable, hotspot.title, hotspot.ath, hotspot.atv,
    hotspot.iconUrl].flatMap JsValue.strings

def Scene.strings (scene : Scene) : List Text :=
  scene.view.toList.flatMap ViewSource.strings++(scene.previewUrl.strings++
    (scene.cubeUrl.strings++
    (((scene.hotspots.getD []).filterMap id).flatMap Hotspot.strings)))

/-- The control characters of Unicode. -/
def isControl (c : ℕ) : Bool := c < 0x20 || 0x7F ≤ c && c ≤ 0x9F

def Plain (text : Text) : Prop := ∀ c ∈ text, isPlain c = true

theorem plain_of_not_control {text : Text}
    (h : ∀ c ∈ text, isControl c = false ∧ XmlText.isChar c = true) : Plain text := by
  intro c hc
  obtain ⟨hcontrol, hchar⟩ := h c hc
  have hlow : 0x20 ≤ c := by
    simp only [isControl, Bool.or_eq_false_iff, decide_eq_false_iff_not] at hcontrol
    omega
  exact XmlText.isPlain_iff.mpr ⟨hchar, by omega, by omega, by omega⟩

theorem mem_strings_of_renderable {scene : Scene} {hotspot : Hotspot}
    (h : hotspot ∈ renderableHotspots scene) {text : Text} (htext : text ∈ hotspot.strings) :
    text ∈ scene.strings := by
  have hmem := List.mem_of_mem_filter h
  refine List.mem_append_right _ (List.mem_append_right _ (List.mem_append_right _ ?_))
  exact List.mem_flatMap.mpr ⟨hotspot, hmem, htext⟩

end Strings

section PlainTexts

theorem Plain.append {text text' : Text} (h : Plain text) (h' : Plain text') :
    Plain (text++text') :=
  List.forall_mem_append.mpr ⟨h, h'⟩

theorem plain_of_all {text : Text} (h : text.all isPlain = true) : Plain text :=
  List.all_eq_true.mp h

theorem plain_of_range {c : ℕ} (hlow : 0x20 ≤ c) (hhigh : c ≤ 0xD7FF) : isPlain c = true := by
  refine XmlText.isPlain_iff.mpr ⟨?_, by omega, by omega, by omega⟩
  rw [XmlText.isChar, XmlText.inRanges_iff]
  exact ⟨(0x20, 0xD7FF), by decide, hlow, hhigh⟩

theorem plain_toText (x : JsFinite) : Plain x.toText := by
  intro c hc
  have hnumeric := numeric_toText x c hc
  rw [Numeric] at hnumeric
  exact plain_of_range (by omega) (by omega)

theorem plain_decimal (n : ℕ) : Plain (decimal n) := by
  intro c hc
  have hbounds := decimal_bounds hc
  exact plain_of_range (by omega) (by omega)

theorem plain_given {value : JsValue} (h : ∀ text ∈ value.strings, Plain text) :
    Plain (given value) := by
  cases value with
  | undefined => exact plain_of_all rfl
  | null => exact plain_of_all rfl
  | boolean value =>
    cases value with
    | false => exact plain_of_all rfl
    | true => exact plain_of_all rfl
  | number value =>
    cases value with
    | finite value => exact plain_toText value
    | infinity negative =>
      cases negative with
      | false => exact plain_of_all rfl
      | true => exact plain_of_all rfl
    | nan => exact plain_of_all rfl
  | string value => exact h value List.mem_cons_self
  | object text number => exact h text List.mem_cons_self

theorem plain_hotspotName {hotspot : Hotspot} (h : ∀ text ∈ hotspot.strings, Plain text)
    (index : ℕ) : Plain (given (hotspotName hotspot index)) := by
  rw [hotspotName]
  split_ifs
  · exact plain_given (fun text htext => h text (List.mem_append_left _ htext))
  · exact (plain_of_all (by rw [ofString_ofList]; rfl)).append (plain_decimal index)

set_option maxRecDepth 4000 in
theorem plain_hotspotOnclick (hotspot : Hotspot) (index : ℕ) :
    Plain (hotspotOnclick hotspot index) := by
  have hbridge : Plain (ofString "js(JingjieARHotspotBridge("++
      (decimal index++ofString "));")) := by
    refine (plain_of_all ?_).append ((plain_decimal index).append (plain_of_all ?_))
    · rw [ofString_ofList]
      rfl
    · rfl
  rw [hotspotOnclick]
  split_ifs
  · refine (plain_of_all ?_).append hbridge
    rw [ofString_ofList]
    rfl
  · exact hbridge

end PlainTexts

section Elements

variable {data : ℕ → Prop} {tag : Text} {pairs : List (Text × Text)}

theorem printable_leaf (htag : isName tag = true)
    (hkeys : (pairs.map Prod.fst).all isName = true)
    (hnodup : decide (pairs.map Prod.fst).Nodup = true)
    (hvalues : ∀ text ∈ pairs.map Prod.snd, Plain text) :
    Printable data (.element tag pairs []) := by
  refine .element tag pairs [] htag ?_ (of_decide_eq_true hnodup) ?_
  · intro pair hpair
    exact ⟨List.all_eq_true.mp hkeys _ (List.mem_map_of_mem hpair),
      hvalues _ (List.mem_map_of_mem hpair)⟩
  · intro child hchild
    contradiction

theorem printable_constant (htag : isName tag = true)
    (hkeys : (pairs.map Prod.fst).all isName = true)
    (hnodup : decide (pairs.map Prod.fst).Nodup = true)
    (hvalues : (pairs.map Prod.snd).all (fun text => text.all isPlain) = true) :
    Printable data (.element tag pairs []) :=
  printable_leaf htag hkeys hnodup
    (fun text htext => plain_of_all (List.all_eq_true.mp hvalues text htext))

set_option maxRecDepth 4000 in
theorem printable_webvrPlugin : Printable data webvrPlugin := by
  simp only [webvrPlugin, pair]
  repeat rw [ofString_ofList]
  exact printable_constant rfl rfl rfl rfl

set_option maxRecDepth 4000 in
theorem printable_gyroPlugin : Printable data gyroPlugin := by
  simp only [gyroPlugin, pair]
  repeat rw [ofString_ofList]
  exact printable_constant rfl rfl rfl rfl

theorem printable_sceneEvents (generation : JsFinite) :
    Printable data (sceneEvents generation) := by
  have hcall (text : Text) (h : text.all isPlain = true) :
      Plain (text++(generation.toText++ofString "));")) :=
    (plain_of_all h).append ((plain_toText generation).append (plain_of_all rfl))
  simp only [sceneEvents, pair]
  refine printable_leaf rfl rfl rfl ?_
  refine List.forall_mem_cons.mpr ⟨plain_of_all rfl, List.forall_mem_cons.mpr ⟨?_,
    List.forall_mem_singleton.mpr ?_⟩⟩
  · exact hcall _ rfl
  · exact hcall _ rfl

theorem printable_preview {url : Text} (h : Plain url) : Printable data (preview url) :=
  printable_leaf rfl rfl rfl (List.forall_mem_singleton.mpr h)

theorem printable_image {url : Text} (h : Plain url) : Printable data (image url) := by
  refine .element _ [] _ rfl (fun pair hpair => absurd hpair List.not_mem_nil) List.nodup_nil ?_
  exact List.forall_mem_singleton.mpr
    (printable_leaf rfl rfl rfl (List.forall_mem_singleton.mpr h))

theorem printable_viewElement {view : View} (h : Plain view.fisheye) :
    Printable data (viewElement view) := by
  have hboolean : Plain (JsValue.boolean view.stereographic).toText := by
    cases view.stereographic with
    | false => exact plain_of_all rfl
    | true => exact plain_of_all rfl
  refine printable_leaf rfl rfl rfl ?_
  intro text htext
  simp only [pair, List.map_cons, List.map_nil, List.mem_cons, List.not_mem_nil, or_false] at htext
  rcases htext with rfl | rfl | rfl | rfl | rfl | rfl
  · exact plain_toText view.hlookat
  · exact plain_toText view.vlookat
  · exact plain_toText view.fov
  · exact plain_of_all rfl
  · exact hboolean
  · exact h

set_option maxRecDepth 8000 in
theorem printable_pulseActions (shouldReduceMotion : Bool) :
    ∀ node ∈ pulseActions shouldReduceMotion, Printable (· ≠ 39) node := by
  have haction (name : String) (pulse : Text) (hname : (ofString name).all isPlain = true)
      (hpulse : pulse.all (fun c => isPlain c && c ≠ 39 && c ≠ 62) = true) :
      Printable (· ≠ 39) (action name pulse) := by
    refine .element _ _ _ rfl ?_ (List.nodup_singleton _) ?_
    · exact List.forall_mem_singleton.mpr ⟨rfl, plain_of_all hname⟩
    · refine List.forall_mem_singleton.mpr (.text pulse ?_ ?_)
      · intro c hc
        have hall := List.all_eq_true.mp hpulse c hc
        simp only [Bool.and_eq_true, decide_eq_true_eq] at hall
        exact ⟨hall.1.1, hall.1.2⟩
      · -- without a `>` there is no end of a section
        intro hend
        have hall := List.all_eq_true.mp hpulse 62 (hend.subset (by decide))
        simp at hall
  cases shouldReduceMotion with
  | false =>
    refine List.forall_mem_cons.mpr ⟨?_, List.forall_mem_singleton.mpr ?_⟩
    · refine haction _ _ rfl ?_
      rw [scenePulse]
      repeat rw [ofString_ofList]
      rfl
    · refine haction _ _ rfl ?_
      rw [artworkPulse]
      repeat rw [ofString_ofList]
      rfl
  | true => exact fun node hnode => absurd hnode List.not_mem_nil

end Elements

section Hotspots

variable (stringToNumber : Text → JsNumber) (shouldReduceMotion : Bool)

theorem plain_hotspotMotion (hotspot : Hotspot) :
    ∀ text ∈ (hotspotMotion shouldReduceMotion hotspot).map Prod.snd, Plain text := by
  rw [hotspotMotion, List.map_append]
  refine List.forall_mem_append.mpr ⟨?_, ?_⟩
  · split_ifs
    · exact List.forall_mem_singleton.mpr (plain_of_all rfl)
    · exact fun text htext => absurd htext List.not_mem_nil
  · split_ifs with hmotion
    · refine List.forall_mem_singleton.mpr ?_
      have htail : Plain (ofString "_hotspot_pulse(get(name));") := plain_of_all rfl
      rcases type_of_animated (Bool.and_eq_true_iff.mp hmotion).2 with htype | htype
      · rw [htype]
        exact Plain.append (plain_of_all rfl) htail
      · rw [htype]
        exact Plain.append (plain_of_all rfl) htail
    · exact fun text htext => absurd htext List.not_mem_nil

theorem hotspotMotion_keys (hotspot : Hotspot) :
    (hotspotMotion shouldReduceMotion hotspot).map Prod.fst ∈
      [[], [ofString "alpha"], [ofString "onloaded"], [ofString "alpha", ofString "onloaded"]] := by
  rw [hotspotMotion, List.map_append]
  split_ifs
  · exact List.mem_of_elem_eq_true rfl
  · exact List.mem_of_elem_eq_true rfl
  · exact List.mem_of_elem_eq_true rfl
  · exact List.mem_of_elem_eq_true rfl

theorem printable_hotspotElement {data : ℕ → Prop} {hotspot : Hotspot}
    (h : ∀ text ∈ hotspot.strings, Plain text) (index : ℕ) :
    Printable data (hotspotElement stringToNumber shouldReduceMotion hotspot index) := by
  have hgiven : ∀ value ∈ [hotspot.title, hotspot.iconUrl], Plain (given value) := by
    intro value hvalue
    refine plain_given (fun text htext => h text (List.mem_flatMap.mpr ⟨value, ?_, htext⟩))
    simp only [List.mem_cons, List.not_mem_nil, or_false] at hvalue ⊢
    rcases hvalue with rfl | rfl
    · simp
    · simp
  have hkeys : (hotspotAttributes stringToNumber shouldReduceMotion hotspot index).map Prod.fst =
      ["name", "type", "crop", "title", "ath", "atv", "url"].map ofString++
        ((hotspotMotion shouldReduceMotion hotspot).map Prod.fst++[ofString "onclick"]) := by
    rw [hotspotAttributes, List.map_append, List.map_append]
    rfl
  -- which keys there are depends on the motion alone, so there are four forms to look at
  have hall : ∀ keys ∈ [[], [ofString "alpha"], [ofString "onloaded"],
      [ofString "alpha", ofString "onloaded"]],
      (["name", "type", "crop", "title", "ath", "atv", "url"].map ofString++
        (keys++[ofString "onclick"])).all isName = true ∧
      (["name", "type", "crop", "title", "ath", "atv", "url"].map ofString++
        (keys++[ofString "onclick"])).Nodup := by
    decide
  obtain ⟨hnames, hnodup⟩ := hall _ (hotspotMotion_keys shouldReduceMotion hotspot)
  rw [← hkeys] at hnames hnodup
  refine printable_leaf rfl hnames (decide_eq_true hnodup) ?_
  rw [hotspotAttributes, List.map_append, List.map_append]
  refine List.forall_mem_append.mpr ⟨?_, List.forall_mem_append.mpr
    ⟨plain_hotspotMotion shouldReduceMotion hotspot,
      List.forall_mem_singleton.mpr (plain_hotspotOnclick hotspot index)⟩⟩
  intro text htext
  simp only [pair, List.map_cons, List.map_nil, List.mem_cons, List.not_mem_nil, or_false] at htext
  rcases htext with rfl | rfl | rfl | rfl | rfl | rfl | rfl
  · exact plain_hotspotName h index
  · exact plain_of_all rfl
  · exact plain_of_all rfl
  · exact hgiven _ List.mem_cons_self
  · exact plain_toText _
  · exact plain_toText _
  · exact hgiven _ (List.mem_cons_of_mem _ List.mem_cons_self)

end Hotspots

section Actions

def isDigit (c : ℕ) : Bool := 48 ≤ c && c ≤ 57

/-- The index of a statement `js(JingjieARHotspotBridge(index))`. -/
def bridgeCall (statement : Text) : Option ℕ :=
  match XmlText.afterPrefix (ofString "js(JingjieARHotspotBridge(") (statement.dropWhile (· = 32))
    with
  | none => none
  | some rest =>
    let digits := rest.takeWhile isDigit
    if digits ≠ [] ∧ rest.dropWhile isDigit = ofString "))" then
      some (Nat.ofDigitChars 10 (digits.map Char.ofNat) 0)
    else none

/-- The indices that the statements of an action call the bridge with. -/
def bridgeCalls (action : Text) : List ℕ := (action.splitOn 59).filterMap bridgeCall

/-- What is between the first two quotes of a command, and the rest from the second one on. -/
def quotedArgument (command : Text) : Text × Text :=
  let rest := (command.dropWhile (· ≠ 39)).drop 1
  (rest.takeWhile (· ≠ 39), rest.dropWhile (· ≠ 39))

theorem bridgeCall_decimal (index : ℕ) :
    bridgeCall (ofString "js(JingjieARHotspotBridge("++(decimal index++ofString "))")) =
      some index := by
  have hdigits : ∀ c ∈ decimal index, isDigit c = true := by
    intro c hc
    obtain ⟨hlow, hhigh⟩ := decimal_bounds hc
    simp [isDigit, hlow, hhigh]
  obtain ⟨htake, hdrop⟩ := span_stop_cons (a := 41) hdigits rfl [41]
  have hcall : ofString "js(JingjieARHotspotBridge(" =
      106 :: ofString "s(JingjieARHotspotBridge(" := by
    rfl
  have hstart : XmlText.afterPrefix (ofString "js(JingjieARHotspotBridge(")
      ((ofString "js(JingjieARHotspotBridge("++(decimal index++ofString "))")).dropWhile
        (· = 32)) = some (decimal index++ofString "))") := by
    rw [hcall, List.cons_append, List.dropWhile_cons_of_neg (by decide), ← List.cons_append,
      ← hcall, XmlText.afterPrefix, if_pos (List.prefix_append _ _), List.drop_left]
  have hend : ofString "))" = [41, 41] := by decide
  have hne : decimal index ≠ [] := List.map_eq_nil_iff.not.mpr Nat.toDigits_ne_nil
  have hchars : (decimal index).map Char.ofNat = Nat.toDigits 10 index := by
    rw [decimal, List.map_map]
    simp [Function.comp_def]
  rw [bridgeCall, hstart]
  simp only [hend, htake, hdrop]
  rw [if_pos ⟨hne, trivial⟩, hchars, Nat.ofDigitChars_ten_toDigits]

theorem bridgeCalls_append (statement rest : Text) (h : 59 ∉ statement) :
    bridgeCalls (statement++59 :: rest) = (bridgeCall statement).toList++bridgeCalls rest := by
  rw [bridgeCalls, List.splitOn_append_cons_self, List.splitOn_eq_singleton h,
    List.filterMap_append]
  cases hcall : bridgeCall statement with
  | none => simp [bridgeCalls, hcall]
  | some index => simp [bridgeCalls, hcall]

/-- Blanks before a statement are skipped. -/
theorem bridgeCall_blank (statement : Text) : bridgeCall (32 :: statement) = bridgeCall statement :=
  rfl

/-- A click on a hotspot calls the bridge once, with the hotspot's index. -/
theorem bridgeCalls_hotspotOnclick (hotspot : Hotspot) (index : ℕ) :
    bridgeCalls (hotspotOnclick hotspot index) = [index] := by
  have hdecimal : 59 ∉ decimal index := by
    intro hmem
    have hbounds := decimal_bounds hmem
    omega
  have hmem : 59 ∉ ofString "js(JingjieARHotspotBridge("++(decimal index++ofString "))") := by
    simp only [List.mem_append, not_or]
    exact ⟨by decide, hdecimal, by decide⟩
  have hsplit : ofString "js(JingjieARHotspotBridge("++(decimal index++ofString "));") =
      (ofString "js(JingjieARHotspotBridge("++(decimal index++ofString "))"))++59 :: [] := by
    simp only [List.append_assoc]
    rfl
  rw [hotspotOnclick, hsplit]
  split_ifs
  · -- the tweens that are stopped before are three statements that call nothing
    have htweens (rest : Text) :
        ofString "stoptween(caller.scale); stoptween(caller.alpha); stoptween(caller.oy); "++rest =
          ofString "stoptween(caller.scale)"++59 :: (ofString " stoptween(caller.alpha)"++
            59 :: (ofString " stoptween(caller.oy)"++59 :: 32 :: rest)) := by
      repeat rw [ofString_ofList]
      rfl
    have hskip (statement : String) (h : 59 ∉ ofString statement)
        (hnone : bridgeCall (ofString statement) = none) (rest : Text) :
        bridgeCalls (ofString statement++59 :: rest) = bridgeCalls rest := by
      rw [bridgeCalls_append _ _ h, hnone]
      rfl
    rw [htweens, hskip _ (by decide) (by decide), hskip _ (by decide) (by decide),
      hskip _ (by decide) (by decide), ← List.cons_append,
      bridgeCalls_append _ _ (List.not_mem_cons_of_ne_of_not_mem (by decide) hmem),
      bridgeCall_blank, bridgeCall_decimal]
    rfl
  · rw [bridgeCalls_append _ _ hmem, bridgeCall_decimal]
    rfl

end Actions

section Documents

variable (stringToNumber : Text → JsNumber) (scene : Scene) (viewOverride : Option ViewSource)
  (viewMode reducedMotion generation : JsValue)

theorem printable_sceneDocument (h : ∀ text ∈ scene.strings, Plain text) :
    Printable (· ≠ 39)
      (sceneDocument stringToNumber scene viewOverride viewMode reducedMotion generation) := by
  have hpreview : Plain (given scene.previewUrl) := by
    refine plain_given (fun text htext => h text ?_)
    exact List.mem_append_right _ (List.mem_append_left _ htext)
  have hcube : Plain (given scene.cubeUrl) := by
    refine plain_given (fun text htext => h text ?_)
    exact List.mem_append_right _ (List.mem_append_right _ (List.mem_append_left _ htext))
  have hfisheye : Plain (viewFor stringToNumber scene viewOverride viewMode).fisheye := by
    have hmem := fisheye_mem stringToNumber scene viewOverride viewMode
    have hall : ∀ text ∈ [ofString "1.0", ofString "0.0"], text.all isPlain = true := by decide
    exact plain_of_all (hall _ hmem)
  refine .element _ _ _ rfl ?_ (List.nodup_singleton _) ?_
  · exact List.forall_mem_singleton.mpr ⟨rfl, plain_of_all rfl⟩
  · refine List.forall_mem_append.mpr ⟨?_, ?_⟩
    · rw [template]
      refine List.forall_mem_append.mpr ⟨?_, printable_pulseActions _⟩
      intro node hnode
      simp only [List.mem_cons, List.not_mem_nil, or_false] at hnode
      rcases hnode with rfl | rfl | rfl | rfl | rfl | rfl
      · exact printable_webvrPlugin
      · exact printable_gyroPlugin
      · exact printable_sceneEvents _
      · exact printable_preview hpreview
      · exact printable_image hcube
      · exact printable_viewElement hfisheye
    · intro node hnode
      obtain ⟨index, hindex, rfl⟩ := List.mem_mapIdx.mp hnode
      exact printable_hotspotElement stringToNumber _
        (fun text htext => h text (mem_strings_of_renderable (List.getElem_mem hindex) htext)) index

/-- No quote comes from the protection of backslashes and ends of lines. -/
theorem apostrophe_krpanoActionString {xml : Text} (h : 39 ∉ xml) :
    39 ∉ krpanoActionString xml := by
  have hreplace (text : Text) (c : ℕ) (replacement : Text) (htext : 39 ∉ text)
      (hreplacement : 39 ∉ replacement) : 39 ∉ replaceAll text c replacement := by
    intro hmem
    obtain ⟨d, hd, hmem⟩ := List.mem_flatMap.mp hmem
    split_ifs at hmem
    · exact hreplacement hmem
    · obtain rfl := List.mem_singleton.mp hmem
      exact htext hd
  exact hreplace _ _ _ (hreplace _ _ _ (hreplace _ _ _ h (by decide)) (by decide)) (by decide)

theorem quotedArgument_loadxml {argument : Text} (h : 39 ∉ argument) :
    quotedArgument (ofString "loadxml('"++(argument++ofString "', null, RESET);")) =
      (argument, ofString "', null, RESET);") := by
  have hplain : ∀ c ∈ argument, decide (c ≠ 39) = true := by
    intro c hc
    refine decide_eq_true ?_
    rintro rfl
    exact h hc
  have hend : ofString "', null, RESET);" = 39 :: ofString ", null, RESET);" := by decide
  have hstart (rest : Text) :
      ((ofString "loadxml('"++rest).dropWhile (· ≠ 39)).drop 1 = rest := rfl
  obtain ⟨htake, hdrop⟩ := span_stop_cons (a := 39) hplain rfl (ofString ", null, RESET);")
  rw [quotedArgument]
  simp only [hstart]
  rw [hend, htake, hdrop]

/-- The attributes of a hotspot's element, read back. -/
theorem lookup_hotspotAttributes (hotspot : Hotspot) (index : ℕ) (shouldReduceMotion : Bool) :
    let attributes := hotspotAttributes stringToNumber shouldReduceMotion hotspot index
    attributes.lookup (ofString "name") = some (given (hotspotName hotspot index)) ∧
      attributes.lookup (ofString "title") = some (given hotspot.title) ∧
      attributes.lookup (ofString "url") = some (given hotspot.iconUrl) ∧
      attributes.lookup (ofString "onclick") = some (hotspotOnclick hotspot index) := by
  have hmotion : (hotspotMotion shouldReduceMotion hotspot).lookup (ofString "onclick") = none := by
    rw [List.lookup_eq_none_iff]
    intro pair hpair
    have hall : ∀ keys ∈ [[], [ofString "alpha"], [ofString "onloaded"],
        [ofString "alpha", ofString "onloaded"]], ∀ key ∈ keys,
          (ofString "onclick" == key) = false := by
      decide
    rw [bne, hall _ (hotspotMotion_keys shouldReduceMotion hotspot) _ (List.mem_map_of_mem hpair)]
    rfl
  refine ⟨rfl, rfl, rfl, ?_⟩
  rw [hotspotAttributes, List.lookup_append, List.lookup_append, hmotion]
  rfl

/-- Whatever the strings of a scene are, as long as a document may hold their characters and there
are no control characters among them, the text is a document: the template, and behind it one
element for each renderable hotspot. Its values are the strings, the hotspot at an index calls the
bridge with that index, and nothing ends the argument of the command early. -/
theorem scene_xml_injection_free
    (h : ∀ text ∈ scene.strings, ∀ c ∈ text, isControl c = false ∧ XmlText.isChar c = true) :
    let xml :=
      buildSceneXml stringToNumber scene viewOverride viewMode reducedMotion generation
    let load := loadScene stringToNumber scene viewOverride viewMode reducedMotion generation
    let fixed :=
      template (given scene.previewUrl) (given scene.cubeUrl)
        (viewFor stringToNumber scene viewOverride viewMode)
        (finiteNumber stringToNumber generation ⟨true, 1, 1⟩) reducedMotion.truthy
    ∃ hotspots : List Node,
      XmlText.parse xml = some (sceneElement fixed hotspots) ∧
      hotspots.length = load.currentHotspots.length ∧
      (∀ index hotspot, load.currentHotspots[index]? = some hotspot →
        ∃ attributes action, hotspots[index]? = some (.element (ofString "hotspot") attributes []) ∧
          attributes.lookup (ofString "name") = some (given (hotspotName hotspot index)) ∧
          attributes.lookup (ofString "title") = some (given hotspot.title) ∧
          attributes.lookup (ofString "url") = some (given hotspot.iconUrl) ∧
          attributes.lookup (ofString "onclick") = some action ∧ bridgeCalls action = [index]) ∧
      39 ∉ xml ∧
      quotedArgument load.command = (krpanoActionString xml, ofString "', null, RESET);") := by
  have hprintable := printable_sceneDocument stringToNumber scene viewOverride viewMode
    reducedMotion generation (fun text htext => plain_of_not_control (h text htext))
  have hquote := hprintable.apostrophe (fun c hc => hc)
  have hxml := buildSceneXml_eq stringToNumber scene viewOverride viewMode reducedMotion generation
  intro xml load fixed
  rw [← hxml] at hquote
  refine ⟨(renderableHotspots scene).mapIdx (fun index hotspot =>
    hotspotElement stringToNumber reducedMotion.truthy hotspot index), ?_, ?_, ?_, hquote, ?_⟩
  · have hparse := XmlText.parse_print hprintable
    change XmlText.parse (buildSceneXml stringToNumber scene viewOverride viewMode reducedMotion
      generation) = _
    rw [hxml]
    exact hparse
  · exact List.length_mapIdx
  · intro index hotspot hhotspot
    obtain ⟨hname, htitle, hurl, honclick⟩ :=
      lookup_hotspotAttributes stringToNumber hotspot index reducedMotion.truthy
    refine ⟨_, _, ?_, hname, htitle, hurl, honclick, bridgeCalls_hotspotOnclick hotspot index⟩
    change (renderableHotspots scene)[index]? = some hotspot at hhotspot
    rw [List.getElem?_mapIdx, hhotspot]
    rfl
  · exact quotedArgument_loadxml (apostrophe_krpanoActionString hquote)

end Documents

section Instances

/-- A scene with one hotspot, whose title and address need to be escaped. -/
def quotedScene : Scene where
  view := none
  previewUrl := str "preview.jpg?a=1&b=2"
  cubeUrl := str "cube_%s.jpg"
  hotspots := some [none, some
    { hotspotId := str "h1", type := str "scene", renderable := .undefined
      title := str "\"A\" & <B>'s", ath := .number (.finite (.ofNat 30)), atv := .null
      iconUrl := str "icon's.png" }]

theorem quotedScene_text_free :
    39 ∉ buildSceneXml (fun _ => .nan) quotedScene none (str "normal") (.boolean true)
      (.number (.finite (.ofNat 7))) := by
  obtain ⟨hotspots, -, -, -, hquote, -⟩ := scene_xml_injection_free (fun _ => .nan) quotedScene none
    (str "normal") (.boolean true) (.number (.finite (.ofNat 7))) (by decide)
  exact hquote

/-- `U+FFFF` is no control character, and no character of a document. -/
theorem noncharacter_is_no_document :
    ¬ ∀ (stringToNumber : Text → JsNumber) (scene : Scene) (viewOverride : Option ViewSource)
      (viewMode reducedMotion generation : JsValue),
      (∀ text ∈ scene.strings, ∀ c ∈ text, isControl c = false) →
        ∃ document, XmlText.parse (buildSceneXml stringToNumber scene viewOverride viewMode
          reducedMotion generation) = some document := by
  intro hclaim
  obtain ⟨document, hparse⟩ := hclaim (fun _ => .nan)
    { view := none, previewUrl := .string [0xFFFF], cubeUrl := .undefined, hotspots := none }
    none (str "normal") .undefined .undefined (by decide)
  have hmem : 0xFFFF ∈ buildSceneXml (fun _ => .nan)
      { view := none, previewUrl := .string [0xFFFF], cubeUrl := .undefined, hotspots := none }
      none (str "normal") .undefined .undefined := by
    refine List.mem_flatten.mpr ⟨xmlEscape (.string [0xFFFF]), ?_, by decide⟩
    simp
  rw [XmlText.parse, if_neg] at hparse
  · contradiction
  · intro hall
    exact absurd (List.all_eq_true.mp hall 0xFFFF hmem) (by decide)

end Instances

end JingjieAR.KrpanoXml
