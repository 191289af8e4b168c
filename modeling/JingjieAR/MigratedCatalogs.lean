import JingjieAR.MigratedPages

/-! The catalogue that the output of a migration describes. It is sound, as far as this can be told
without the files, exactly if the records of the page are fit. -/
namespace JingjieAR

open PyValue

section Values

variable {value : PyValue} {text : Bytes} {x : PyFloat} {q : ℚ}

theorem toJson_eq_string_iff : value.toJson = .string text ↔ value = .str text := by
  cases value <;> simp [toJson]

theorem toJson_float_eq_number_iff :
    (PyValue.float x).toJson = .number (some q) ↔ x.value = some q := by
  simp [toJson]

theorem stringField_iff {object : Json} {key : Bytes} (value : PyValue)
    (h : object.find key = some value.toJson) : StringField object key text ↔ value = .str text := by
  rw [StringField, h, Option.some.injEq, toJson_eq_string_iff]

theorem textField_iff {object : Json} {key : Bytes} (text' : Bytes)
    (h : object.find key = some (.string text')) : StringField object key text ↔ text = text' := by
  rw [StringField, h, Option.some.injEq, Json.string.injEq, eq_comm]

theorem numberField_iff {object : Json} {key : Bytes} (x : PyFloat)
    (h : object.find key = some (PyValue.float x).toJson) :
    NumberField object key q ↔ x.value = some q := by
  rw [NumberField, h, Option.some.injEq, toJson_float_eq_number_iff]

theorem eq_str_of_equals (h : (PyValue.str text).equals value = true) : value = .str text := by
  cases value with
  | str text' => simpa [equals, eq_comm] using h
  | _ => simp [equals, number] at h

end Values

section Artworks

variable {py : PythonLibrary Xml} {raw raw' : PyValue} {items : List PyValue}
  {artwork : MigratedArtwork} {info : ArtworkInfo}

theorem describesArtwork_iff :
    DescribesArtwork artwork.toPy.toJson info ↔
      info.id = artwork.artworkId ∧ artwork.title = .str info.title ∧
        artwork.text = .str info.text ∧ info.images = artwork.images := by
  have himages : itemsJson (artwork.images.map .str) = artwork.images.map .string := by
    rw [itemsJson_eq_map, List.map_map]
    rfl
  have hlist : artwork.toPy.toJson.find (ascii "images") =
      some (.array (artwork.images.map .string)) := himages ▸ rfl
  have himages_iff : artwork.toPy.toJson.find (ascii "images") =
      some (.array (info.images.map .string)) ↔ info.images = artwork.images := by
    rw [hlist, Option.some.injEq, Json.array.injEq, eq_comm]
    exact (List.map_injective_iff.mpr fun _ _ => Json.string.inj).eq_iff
  constructor
  · rintro ⟨hid, htitle, htext, himages⟩
    exact ⟨(textField_iff artwork.artworkId rfl).mp hid,
      (stringField_iff artwork.title rfl).mp htitle, (stringField_iff artwork.text rfl).mp htext,
      himages_iff.mp himages⟩
  · rintro ⟨hid, htitle, htext, himages⟩
    exact ⟨(textField_iff artwork.artworkId rfl).mpr hid,
      (stringField_iff artwork.title rfl).mpr htitle, (stringField_iff artwork.text rfl).mpr htext,
      himages_iff.mpr himages⟩

/-- A sound artwork comes from fit data. -/
theorem fitArtwork_of_sound (hof : ArtworkOf py raw artwork)
    (hdescribes : DescribesArtwork artwork.toPy.toJson info) (hsound : SoundArtwork AssetPath info)
    (hdata : raw.get (ascii "data") .pyNone = .ok (.list items)) : FitArtwork py raw items := by
  obtain ⟨-, htitle, htext, himages⟩ := describesArtwork_iff.mp hdescribes
  obtain ⟨item, others, hdata', hfirst, hothers, hurls⟩ := hof.data
  cases hdata.symm.trans hdata'
  refine ⟨?_, ?_, ?_⟩
  · rw [hof.title, htitle]
    intro heq
    exact hsound.title (by simpa using heq)
  · rw [htext] at hfirst hothers
    refine List.forall_mem_cons.mpr ⟨⟨info.text, hfirst⟩, ?_⟩
    intro other hother
    obtain ⟨text, hget, hequals⟩ := hothers other hother
    exact ⟨info.text, eq_str_of_equals hequals ▸ hget⟩
  · intro item' hitem'
    obtain ⟨url, hurl, image, himage, hasset⟩ := exists_right_of_mem hurls hitem'
    exact ⟨image, himage, url, hasset, hsound.images.2 url (himages ▸ hurl)⟩

/-- Records of the same artwork are fit together. -/
theorem FitArtwork.congr (h : FitArtwork py raw items)
    (htitle : raw.get (ascii "title") (.str []) = raw'.get (ascii "title") (.str [])) :
    FitArtwork py raw' items :=
  ⟨htitle ▸ h.title, h.text, h.images⟩

theorem soundArtwork_of_fit (hof : ArtworkOf py raw artwork) (hfit : FitHotspot py raw)
    (hdata : ∀ items, raw.get (ascii "data") .pyNone = .ok (.list items) → FitArtwork py raw items)
    (hlength : artwork.artworkId.length ≤ 64) :
    artwork.toPy.finite = true ∧
      ∃ info, DescribesArtwork artwork.toPy.toJson info ∧ SoundArtwork AssetPath info := by
  obtain ⟨item, others, hlist, hfirst, -, hurls⟩ := hof.data
  have hartwork := hdata _ hlist
  obtain ⟨id, hid, hne⟩ := hfit.id
  obtain ⟨title, htitle⟩ := hfit.title
  obtain ⟨text, htext⟩ := hartwork.text item List.mem_cons_self
  have hsameId : artwork.artworkId = id := Except.ok.inj (hof.id.symm.trans hid)
  have hsameTitle : artwork.title = .str title := Except.ok.inj (hof.title.symm.trans htitle)
  have hsameText : artwork.text = .str text := Except.ok.inj (hfirst.symm.trans htext)
  refine ⟨?_, ⟨artwork.artworkId, title, text, artwork.images⟩,
    describesArtwork_iff.mpr ⟨rfl, hsameTitle, hsameText, rfl⟩, ?_⟩
  · rw [MigratedArtwork.toPy, hsameTitle, hsameText, finite_dict_iff]
    simp only [List.forall_mem_cons, List.not_mem_nil, false_imp_iff, implies_true, and_true,
      finite_list_iff, List.forall_mem_map]
    exact ⟨rfl, rfl, rfl, fun _ _ => rfl⟩
  · refine ⟨⟨hsameId ▸ hne, hlength⟩, ?_, ?_, ?_⟩
    · rintro rfl
      exact hartwork.title htitle
    · intro hnil
      have himages : artwork.images = [] := hnil
      rw [himages] at hurls
      cases hurls
    · intro image himage
      obtain ⟨item', hitem', value, hvalue, hurl⟩ := exists_left_of_mem hurls himage
      obtain ⟨value', hvalue', url, hurl', hasset⟩ := hartwork.images item' hitem'
      obtain rfl := Except.ok.inj (hvalue.symm.trans hvalue')
      rwa [Except.ok.inj (hurl.symm.trans hurl')]

end Artworks

section Hotspots

variable {py : PythonLibrary Xml} {panoToScene : List (Bytes × Bytes)} {raw : PyValue}
  {hotspot : NormalizedHotspot} {info : HotspotInfo}

/-- The members of a hotspot that depend on its target. -/
def DescribesTarget : HotspotTarget → HotspotInfo → Prop
  | .scene targetSceneId, info => info.type = ascii "scene" ∧ info.targetSceneId = targetSceneId ∧
    info.artworkId = [] ∧ info.text = []
  | .artwork artworkId, info => info.type = ascii "artwork" ∧ info.targetSceneId = [] ∧
    info.artworkId = artworkId ∧ info.text = []
  | .text text, info => info.type = ascii "text" ∧ info.targetSceneId = [] ∧
    info.artworkId = [] ∧ text = .str info.text
  | .inactive _, info => info.type = ascii "inactive" ∧ info.targetSceneId = [] ∧
    info.artworkId = [] ∧ info.text = []

theorem typedField_eq {value : Json} {type key member : Bytes} (h : info.type = type) :
    TypedField value info type key member ↔ value.find key = some (.string member) := by
  rw [TypedField, StringField]
  exact ⟨fun hfield => hfield.1 h, fun hfield => ⟨fun _ => hfield, fun hne => absurd h hne⟩⟩

theorem typedField_ne {value : Json} {type key member : Bytes} (h : info.type ≠ type) :
    TypedField value info type key member ↔ member = [] :=
  ⟨fun hfield => hfield.2 h, fun hnil => ⟨fun heq => absurd heq h, fun _ => hnil⟩⟩

/-- The fields of a target that a hotspot of its type has. -/
theorem describesTarget_iff :
    StringField hotspot.toPy.toJson (ascii "type") info.type ∧
      TypedField hotspot.toPy.toJson info (ascii "scene") (ascii "targetSceneId")
        info.targetSceneId ∧
      TypedField hotspot.toPy.toJson info (ascii "artwork") (ascii "artworkId") info.artworkId ∧
      TypedField hotspot.toPy.toJson info (ascii "text") (ascii "text") info.text ↔
    DescribesTarget hotspot.target info := by
  have hnames : (ascii "scene" ≠ ascii "artwork" ∧ ascii "scene" ≠ ascii "text" ∧
      ascii "artwork" ≠ ascii "text") ∧ ascii "inactive" ≠ ascii "scene" ∧
      ascii "inactive" ≠ ascii "artwork" ∧ ascii "inactive" ≠ ascii "text" := by decide
  obtain ⟨⟨hsa, hst, hat⟩, his, hia, hit⟩ := hnames
  have hfind : ∀ key member, hotspot.target.members.lookup key = some member →
      (∀ name ∈ [ascii "hotspotId", ascii "title", ascii "ath", ascii "atv", ascii "iconUrl"],
        key ≠ name) →
      hotspot.toPy.toJson.find key = some member.toJson := by
    intro key member hlookup hkeys
    rw [NormalizedHotspot.toPy, find_toJson_dict, List.lookup_append, hlookup]
    simp only [List.forall_mem_cons] at hkeys
    obtain ⟨h₁, h₂, h₃, h₄, h₅, -⟩ := hkeys
    simp [List.lookup_cons, beq_eq_false_iff_ne.mpr, h₁, h₂, h₃, h₄, h₅]
  have hnamed : ∀ name, hotspot.target.members.lookup (ascii "type") = some (.str name) →
      (StringField hotspot.toPy.toJson (ascii "type") info.type ↔ info.type = name) := by
    intro name hlookup
    rw [StringField, hfind _ _ hlookup (by decide), toJson, Option.some.injEq, Json.string.injEq,
      eq_comm]
  cases htarget : hotspot.target with
  | scene targetSceneId =>
    rw [htarget] at hfind hnamed
    rw [DescribesTarget, hnamed _ rfl]
    refine and_congr_right fun htype => ?_
    rw [typedField_eq htype, typedField_ne (htype ▸ hsa), typedField_ne (htype ▸ hst),
      hfind _ _ rfl (by decide), toJson, Option.some.injEq, Json.string.injEq,
      eq_comm (a := targetSceneId)]
  | artwork artworkId =>
    rw [htarget] at hfind hnamed
    rw [DescribesTarget, hnamed _ rfl]
    refine and_congr_right fun htype => ?_
    rw [typedField_ne (htype ▸ hsa.symm), typedField_eq htype, typedField_ne (htype ▸ hat),
      hfind _ _ rfl (by decide), toJson, Option.some.injEq, Json.string.injEq,
      eq_comm (a := artworkId)]
  | text text =>
    rw [htarget] at hfind hnamed
    rw [DescribesTarget, hnamed _ rfl]
    refine and_congr_right fun htype => ?_
    rw [typedField_ne (htype ▸ hst.symm), typedField_ne (htype ▸ hat.symm), typedField_eq htype,
      hfind _ _ rfl (by decide), Option.some.injEq, toJson_eq_string_iff]
  | inactive rawData =>
    rw [htarget] at hfind hnamed
    rw [DescribesTarget, hnamed _ rfl]
    refine and_congr_right fun htype => ?_
    rw [typedField_ne (htype ▸ his), typedField_ne (htype ▸ hia), typedField_ne (htype ▸ hit)]

theorem DescribesTarget.scene {target : HotspotTarget} (h : DescribesTarget target info)
    (htype : info.type = ascii "scene") : target = .scene info.targetSceneId := by
  cases target with
  | scene targetSceneId => exact h.2.1 ▸ rfl
  | _ => exact absurd (h.1.symm.trans htype) (by decide)

theorem DescribesTarget.artwork {target : HotspotTarget} (h : DescribesTarget target info)
    (htype : info.type = ascii "artwork") : target = .artwork info.artworkId := by
  cases target with
  | artwork artworkId => exact h.2.2.1 ▸ rfl
  | _ => exact absurd (h.1.symm.trans htype) (by decide)

theorem describesHotspot_iff :
    DescribesHotspot hotspot.toPy.toJson info ↔
      info.id = hotspot.hotspotId ∧ hotspot.title = .str info.title ∧
        info.iconUrl = hotspot.iconUrl ∧ hotspot.ath.value = some info.ath ∧
        hotspot.atv.value = some info.atv ∧ DescribesTarget hotspot.target info := by
  constructor
  · rintro ⟨hid, htype, htitle, hicon, hath, hatv, hscene, hartwork, htext⟩
    exact ⟨(textField_iff hotspot.hotspotId rfl).mp hid,
      (stringField_iff hotspot.title rfl).mp htitle, (textField_iff hotspot.iconUrl rfl).mp hicon,
      (numberField_iff hotspot.ath rfl).mp hath, (numberField_iff hotspot.atv rfl).mp hatv,
      describesTarget_iff.mp ⟨htype, hscene, hartwork, htext⟩⟩
  · rintro ⟨hid, htitle, hicon, hath, hatv, htarget⟩
    obtain ⟨htype, hscene, hartwork, htext⟩ := describesTarget_iff.mpr htarget
    exact ⟨(textField_iff hotspot.hotspotId rfl).mpr hid, htype,
      (stringField_iff hotspot.title rfl).mpr htitle, (textField_iff hotspot.iconUrl rfl).mpr hicon,
      (numberField_iff hotspot.ath rfl).mpr hath, (numberField_iff hotspot.atv rfl).mpr hatv,
      hscene, hartwork, htext⟩

theorem fitNumber_of_value {x : PyFloat} {result : PyResult PyFloat} {q : ℚ} {range : ℚ → Prop}
    (hresult : result = .ok x) (hvalue : x.value = some q) (hrange : range q) :
    FitNumber result range :=
  ⟨x, q, hresult, hvalue, hrange⟩

theorem FitNumber.value {x : PyFloat} {result : PyResult PyFloat} {range : ℚ → Prop}
    (h : FitNumber result range) (hresult : result = .ok x) :
    ∃ q, x.value = some q ∧ range q := by
  obtain ⟨x', q, hresult', hvalue, hrange⟩ := h
  obtain rfl := Except.ok.inj (hresult.symm.trans hresult')
  exact ⟨q, hvalue, hrange⟩

theorem FitUrl.asset {value : PyValue} {url : Bytes} (h : FitUrl py value)
    (hurl : assetUrl py value = .ok url) : AssetPath url := by
  obtain ⟨url', hurl', hasset⟩ := h
  rwa [Except.ok.inj (hurl.symm.trans hurl')]

/-- A sound hotspot comes from a fit record. -/
theorem fitHotspot_of_sound (hof : HotspotOf py panoToScene raw hotspot)
    (hfinite : hotspot.toPy.finite = true) (hdescribes : DescribesHotspot hotspot.toPy.toJson info)
    (hsound : SoundHotspot AssetPath info) : FitHotspot py raw := by
  obtain ⟨hid, htitle, hicon, hath, hatv, htarget⟩ := describesHotspot_iff.mp hdescribes
  obtain ⟨icon, hiconGet, hiconUrl⟩ := hof.iconUrl
  obtain ⟨data, hdata, hkind⟩ := hof.target
  refine ⟨⟨_, hof.id, hid ▸ hsound.id⟩, ⟨info.title, htitle ▸ hof.title⟩,
    fitNumber_of_value hof.ath hath hsound.ath, fitNumber_of_value hof.atv hatv hsound.atv,
    ⟨icon, hiconGet, _, hiconUrl, hicon ▸ hsound.iconUrl⟩, ?_, ?_⟩
  · intro hempty
    obtain rfl := Except.ok.inj (hdata.symm.trans hempty)
    cases hcase : hotspot.target with
    | text text =>
      rw [hcase] at hkind htarget
      obtain ⟨htype, -, -, htext⟩ := htarget
      refine hsound.text htype ?_
      have hnil := hkind.1.symm.trans htext
      simpa using hnil.symm
    | _ =>
      rw [hcase] at hkind
      simp [TargetOf] at hkind
  · intro data' panoId hdata' hpanoId hzero
    obtain rfl := Except.ok.inj (hdata.symm.trans hdata')
    cases hcase : hotspot.target with
    | scene targetSceneId =>
      rw [hcase] at hkind
      obtain ⟨-, panoId', hpanoId', hne, -⟩ := hkind
      obtain rfl := Except.ok.inj (hpanoId.symm.trans hpanoId')
      exact absurd hzero hne
    | artwork artworkId =>
      rw [hcase] at hkind
      obtain ⟨items, rfl, -⟩ := hkind
      cases hpanoId
    | text text =>
      rw [hcase] at hkind
      obtain ⟨-, t, rfl⟩ := hkind
      cases hpanoId
    | inactive rawData =>
      rw [hcase] at hkind
      rw [NormalizedHotspot.toPy, hcase, finite_dict_iff] at hfinite
      obtain ⟨rfl, -⟩ := hkind
      exact hfinite (ascii "rawData", rawData) (by simp [HotspotTarget.members])

theorem finite_float_of_value {x : PyFloat} {q : ℚ} (h : x.value = some q) :
    (PyValue.float x).finite = true := by
  have hsome : x.value.isSome = true := by rw [h, Option.isSome_some]
  exact hsome

/-- The target of a fit record, with an id that is not empty where it has one. -/
theorem exists_describesTarget (hof : HotspotOf py panoToScene raw hotspot)
    (hfit : FitHotspot py raw)
    (hids : ∀ id, hotspot.target = .scene id ∨ hotspot.target = .artwork id → id ≠ []) :
    (∀ member ∈ hotspot.target.members, member.2.finite = true) ∧
      ∃ type targetSceneId artworkId text, type ∈ hotspotTypes ∧
        (type = ascii "scene" → targetSceneId ≠ []) ∧ (type = ascii "artwork" → artworkId ≠ []) ∧
        (type = ascii "text" → text ≠ []) ∧
        ∀ info : HotspotInfo, info.type = type → info.targetSceneId = targetSceneId →
          info.artworkId = artworkId → info.text = text → DescribesTarget hotspot.target info := by
  obtain ⟨data, hdata, hkind⟩ := hof.target
  cases hcase : hotspot.target with
  | scene targetSceneId =>
    refine ⟨by simp [HotspotTarget.members, finite, every], ascii "scene", targetSceneId, [], [],
      by simp [hotspotTypes], fun _ => hids _ (.inl hcase), by decide, by decide, ?_⟩
    exact fun info h₁ h₂ h₃ h₄ => ⟨h₁, h₂, h₃, h₄⟩
  | artwork artworkId =>
    refine ⟨by simp [HotspotTarget.members, finite, every], ascii "artwork", [], artworkId, [],
      by simp [hotspotTypes], by decide, fun _ => hids _ (.inr hcase), by decide, ?_⟩
    exact fun info h₁ h₂ h₃ h₄ => ⟨h₁, h₂, h₃, h₄⟩
  | text text =>
    rw [hcase] at hkind
    obtain ⟨rfl, t, rfl⟩ := hkind
    refine ⟨by simp [HotspotTarget.members, finite, every], ascii "text", [], [], t,
      by simp [hotspotTypes], by decide, by decide, ?_, ?_⟩
    · rintro - rfl
      exact hfit.text hdata
    · exact fun info h₁ h₂ h₃ h₄ => ⟨h₁, h₂, h₃, h₄ ▸ rfl⟩
  | inactive rawData =>
    rw [hcase] at hkind
    obtain ⟨rfl, -, panoId, hpanoId, hzero⟩ := hkind
    refine ⟨?_, ascii "inactive", [], [], [], by simp [hotspotTypes], by decide,
      by decide, by decide, ?_⟩
    · rw [HotspotTarget.members, List.forall_mem_cons, List.forall_mem_singleton]
      exact ⟨rfl, hfit.rawData rawData panoId hdata hpanoId hzero⟩
    · exact fun info h₁ h₂ h₃ h₄ => ⟨h₁, h₂, h₃, h₄⟩

theorem soundHotspot_of_fit (hof : HotspotOf py panoToScene raw hotspot) (hfit : FitHotspot py raw)
    (hids : ∀ id, hotspot.target = .scene id ∨ hotspot.target = .artwork id → id ≠ []) :
    hotspot.toPy.finite = true ∧
      ∃ info, DescribesHotspot hotspot.toPy.toJson info ∧ SoundHotspot AssetPath info := by
  obtain ⟨hmembers, type, targetSceneId, artworkId, text, htypes, hscene, hartwork, htext,
    htarget⟩ := exists_describesTarget hof hfit hids
  obtain ⟨id, hid, hne⟩ := hfit.id
  obtain ⟨title, htitle⟩ := hfit.title
  obtain ⟨ath, hath, hathRange⟩ := hfit.ath.value hof.ath
  obtain ⟨atv, hatv, hatvRange⟩ := hfit.atv.value hof.atv
  obtain ⟨icon, hicon, hiconFit⟩ := hfit.iconUrl
  obtain ⟨icon', hicon', hiconUrl⟩ := hof.iconUrl
  obtain rfl := Except.ok.inj (hicon.symm.trans hicon')
  have hsameId : hotspot.hotspotId = id := Except.ok.inj (hof.id.symm.trans hid)
  have hsameTitle : hotspot.title = .str title := Except.ok.inj (hof.title.symm.trans htitle)
  refine ⟨?_, ⟨hotspot.hotspotId, type, title, hotspot.iconUrl, targetSceneId, artworkId, text, ath,
    atv⟩, describesHotspot_iff.mpr ⟨rfl, hsameTitle, rfl, hath, hatv, htarget _ rfl rfl rfl rfl⟩, ?_⟩
  · rw [NormalizedHotspot.toPy, finite_dict_iff, List.forall_mem_append, hsameTitle]
    refine ⟨?_, hmembers⟩
    simp only [List.forall_mem_cons, List.not_mem_nil, false_imp_iff, implies_true, and_true]
    exact ⟨rfl, rfl, finite_float_of_value hath, finite_float_of_value hatv, rfl⟩
  · exact ⟨hsameId ▸ hne, htypes, hiconFit.asset hiconUrl, hathRange, hatvRange, hscene, hartwork,
      htext⟩

end Hotspots

end JingjieAR
