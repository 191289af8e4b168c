import JingjieAR.CatalogReads

/-! The validation of a catalogue checks its requirements, no more and no less, as long as no
URL hides something behind a NUL. -/
namespace JingjieAR

variable {fs : FileSystem} {staticRoot configPath : Bytes} {top : CanonicalPath} {document : Json}

section Parts

variable {root : Bytes} {catalog : ExhibitionCatalog}

theorem text_eq_slash_iff : top.text = [slash] ↔ top.names = [] := by
  constructor
  · intro h
    by_contra hne
    obtain ⟨name, names, hcons⟩ := List.exists_cons_of_ne_nil hne
    have hname := (top.wf name (by simp [hcons])).1
    rw [CanonicalPath.text_eq_joinNames hne, hcons, joinNames_cons] at h
    simp [hname] at h
  · intro h
    rw [CanonicalPath.text, if_pos h]

theorem canonicalStaticRoot_gives_iff (hdoc : fs.Documented) :
    (canonicalStaticRoot fs staticRoot).Gives root ↔
      ∃ top : CanonicalPath, root = top.text ∧ RootOf fs staticRoot top := by
  constructor
  · rintro ⟨herrors, rfl⟩
    rw [canonicalStaticRoot] at herrors ⊢
    split at herrors
    · simp at herrors
    · rename_i resolved hresolves
      split at herrors
      · rename_i ino size mtime hstat
        obtain ⟨top, rfl⟩ := hdoc.canonical _ _ hresolves
        have hbelow : top.names ≠ [] := by
          intro hnil
          simp [text_eq_slash_iff.mpr hnil] at herrors
        exact ⟨top, rfl, hresolves, ⟨_, hstat, rfl⟩, hbelow⟩
      · simp at herrors
  · rintro ⟨top, rfl, htop⟩
    obtain ⟨⟨kind, ino, size, mtime⟩, hstat, hkind⟩ := htop.directory
    simp only at hkind
    rw [canonicalStaticRoot, htop.resolves]
    simp only [hstat, hkind]
    rw [if_neg fun h => htop.below (text_eq_slash_iff.mp h)]
    exact ⟨rfl, rfl⟩

theorem readExhibition_gives_iff {id title remark defaultSceneId : Bytes} :
    (ExhibitionCatalog.readExhibition document).Gives (id, title, remark, defaultSceneId) ↔
      (∃ value, document.find (ascii "exhibition") = some value ∧
        StringField value (ascii "id") id ∧ StringField value (ascii "title") title ∧
        StringField value (ascii "remark") remark ∧
        StringField value (ascii "defaultSceneId") defaultSceneId) ∧
      id ≠ [] ∧ title ≠ [] ∧ defaultSceneId ≠ [] := by
  rw [ExhibitionCatalog.readExhibition]
  split
  · rename_i members hfind
    constructor
    · rintro ⟨herrors, hvalue⟩
      simp only [List.append_eq_nil_iff] at herrors
      obtain ⟨hid, htitle, hremark, hdefault⟩ := herrors
      injection hvalue with hvalue₁ hvalue
      injection hvalue with hvalue₂ hvalue
      injection hvalue with hvalue₃ hvalue₄
      obtain ⟨hidField, hidNe⟩ := required_gives_iff.mp ⟨hid, hvalue₁⟩
      obtain ⟨htitleField, htitleNe⟩ := required_gives_iff.mp ⟨htitle, hvalue₂⟩
      have hremarkField := optional_gives_iff.mp ⟨hremark, hvalue₃⟩
      obtain ⟨hdefaultField, hdefaultNe⟩ := required_gives_iff.mp ⟨hdefault, hvalue₄⟩
      exact ⟨⟨_, hfind, hidField, htitleField, hremarkField, hdefaultField⟩, hidNe, htitleNe,
        hdefaultNe⟩
    · rintro ⟨⟨value, hvalue, hidField, htitleField, hremarkField, hdefaultField⟩, hidNe, htitleNe,
        hdefaultNe⟩
      obtain rfl := Option.some.inj (hfind.symm.trans hvalue)
      have hid : (readString (.object members) (ascii "id") (ascii "exhibition") false).Gives id :=
        required_gives_iff.mpr ⟨hidField, hidNe⟩
      have htitle : (readString (.object members) (ascii "title") (ascii "exhibition")
          false).Gives title := required_gives_iff.mpr ⟨htitleField, htitleNe⟩
      have hremark : (readString (.object members) (ascii "remark") (ascii "exhibition")
          true).Gives remark := optional_gives_iff.mpr hremarkField
      have hdefault : (readString (.object members) (ascii "defaultSceneId") (ascii "exhibition")
          false).Gives defaultSceneId := required_gives_iff.mpr ⟨hdefaultField, hdefaultNe⟩
      refine ⟨?_, ?_⟩
      · simp only [hid.errors, htitle.errors, hremark.errors, hdefault.errors, List.append_nil]
      · simp only [hid.value, htitle.value, hremark.value, hdefault.value]
  · rename_i hnot
    refine iff_of_false (fun h => by simpa using h.errors) ?_
    rintro ⟨⟨value, hvalue, hfield, -⟩, -⟩
    cases value with
    | object members => exact hnot members hvalue
    | _ => simp [StringField, Json.find] at hfield

theorem readArtworks_gives_iff {artworks : List ArtworkInfo} {ids : Finset Bytes} :
    (ExhibitionCatalog.readArtworks fs top.text document).Gives (artworks, ids) ↔
      ((∃ values, document.find (ascii "artworks") = some (.array values) ∧
        List.Forall₂ DescribesArtwork values artworks) ∧
        ∀ artwork ∈ artworks, SoundArtwork (TakenAsset fs top) artwork) ∧
      (artworks.map (·.id)).Nodup ∧ ids = (artworks.map (·.id)).toFinset := by
  have hread : ∀ values, (readAll (readArtwork fs top.text) 0 values ∅).Gives (artworks, ids) ↔
      List.Forall₂ (fun value artwork => DescribesArtwork value artwork ∧
        SoundArtwork (TakenAsset fs top) artwork) values artworks ∧
        Adds (artworks.map (·.id)) ∅ ids := by
    intro values
    refine readAll_gives_iff _ (fun artworks : List ArtworkInfo => Adds (artworks.map (·.id)))
      ?_ ?_ ?_
    · exact fun _ _ => adds_nil_iff
    · exact fun artwork artworks _ _ =>
        adds_append_iff [artwork.id] (artworks.map ArtworkInfo.id)
    · exact fun _ _ _ _ _ => readArtwork_gives_iff
  rw [ExhibitionCatalog.readArtworks]
  split
  · rename_i values hfind
    rw [hread, forall₂_and_right, adds_empty_iff, hfind]
    refine and_congr_left fun _ => and_congr_left fun _ => ?_
    simp
  · rename_i hnot
    refine iff_of_false (fun h => by simpa using h.errors) ?_
    rintro ⟨⟨⟨values, hfind, -⟩, -⟩, -⟩
    exact hnot values hfind

theorem readScenes_gives_iff {scenes : List ExhibitionScene} {ids : Finset Bytes × Finset Bytes} :
    (ExhibitionCatalog.readScenes fs top.text document).Gives (scenes, ids) ↔
      ((∃ values, document.find (ascii "scenes") = some (.array values) ∧
        List.Forall₂ DescribesScene values scenes) ∧
        ∀ scene ∈ scenes, SoundScene (TakenAsset fs top) (TakenCube fs top) scene) ∧
      scenes ≠ [] ∧ AddsScenes scenes (∅, ∅) ids := by
  have hread : ∀ values, (readAll (readScene fs top.text) 0 values (∅, ∅)).Gives (scenes, ids) ↔
      List.Forall₂ (fun value scene => DescribesScene value scene ∧
        SoundScene (TakenAsset fs top) (TakenCube fs top) scene) values scenes ∧
        AddsScenes scenes (∅, ∅) ids := by
    intro values
    refine readAll_gives_iff _ AddsScenes ?_ ?_ ?_
    · rintro ⟨sceneIds, hotspotIds⟩ ⟨sceneIds', hotspotIds'⟩
      rw [AddsScenes, Prod.mk.injEq]
      exact and_congr adds_nil_iff adds_nil_iff
    · rintro scene scenes ⟨sceneIds, hotspotIds⟩ ⟨sceneIds', hotspotIds'⟩
      have hsplit := addsScenes_cons_iff scene scenes (sceneIds, hotspotIds) (sceneIds', hotspotIds')
      exact hsplit
    · exact fun _ _ _ _ _ => readScene_gives_iff
  rw [ExhibitionCatalog.readScenes]
  split
  · rename_i value values hfind
    rw [hread, forall₂_and_right, hfind]
    constructor
    · rintro ⟨⟨hdescribes, hsound⟩, hadds⟩
      refine ⟨⟨⟨_, rfl, hdescribes⟩, hsound⟩, ?_, hadds⟩
      rintro rfl
      cases hdescribes
    · rintro ⟨⟨⟨values', hsame, hdescribes⟩, hsound⟩, -, hadds⟩
      injection hsame with hsame
      injection hsame with hsame
      rw [hsame]
      exact ⟨⟨hdescribes, hsound⟩, hadds⟩
  · rename_i hnot
    refine iff_of_false (fun h => by simpa using h.errors) ?_
    rintro ⟨⟨⟨values, hfind, hdescribes⟩, -⟩, hne, -⟩
    cases hdescribes with
    | nil => exact hne rfl
    | cons _ _ => exact hnot _ _ hfind

theorem validateHotspot_eq_nil_iff {sceneIds artworkIds : Finset Bytes} {context : Bytes}
    {hotspot : HotspotInfo} :
    validateHotspot sceneIds artworkIds context hotspot = [] ↔
      (hotspot.type = ascii "scene" → hotspot.targetSceneId ∈ sceneIds) ∧
      (hotspot.type = ascii "artwork" → hotspot.artworkId ∈ artworkIds) := by
  rw [validateHotspot, List.append_eq_nil_iff, ite_addError_iff, ite_addError_iff]
  simp only [not_and, not_not]

theorem flatMap_zipIdx_eq_nil_iff {α : Type} {values : List α} {check : α × ℕ → List Bytes}
    {p : α → Prop} (hcheck : ∀ value index, check (value, index) = [] ↔ p value) :
    values.zipIdx.flatMap check = [] ↔ ∀ value ∈ values, p value := by
  rw [List.flatMap_eq_nil_iff]
  constructor
  · intro h value hvalue
    obtain ⟨index, hindex, rfl⟩ := List.getElem_of_mem hvalue
    have hmem : (values[index], index) ∈ values.zipIdx :=
      List.mk_mem_zipIdx_iff_getElem?.mpr (List.getElem?_eq_getElem hindex)
    exact (hcheck _ _).mp (h _ hmem)
  · rintro h ⟨value, index⟩ hmem
    have hvalue := List.mem_of_getElem? (List.mk_mem_zipIdx_iff_getElem?.mp hmem)
    exact (hcheck _ _).mpr (h value hvalue)

theorem validateReferences_eq_nil_iff {scenes : List ExhibitionScene}
    {sceneIds artworkIds : Finset Bytes} {defaultSceneId : Bytes} :
    validateReferences scenes sceneIds artworkIds defaultSceneId = [] ↔
      defaultSceneId ∈ sceneIds ∧ ∀ scene ∈ scenes, ∀ hotspot ∈ scene.hotspots,
        (hotspot.type = ascii "scene" → hotspot.targetSceneId ∈ sceneIds) ∧
        (hotspot.type = ascii "artwork" → hotspot.artworkId ∈ artworkIds) := by
  rw [validateReferences, List.append_eq_nil_iff, ite_addError_iff, not_not]
  refine and_congr_right fun _ => flatMap_zipIdx_eq_nil_iff fun scene index => ?_
  exact flatMap_zipIdx_eq_nil_iff fun hotspot index' => validateHotspot_eq_nil_iff

end Parts

namespace ExhibitionCatalog

variable {catalog : ExhibitionCatalog}

/-- The whole document is read without errors exactly if it describes a sound catalogue. -/
theorem readCatalog_gives_iff (hdoc : fs.Documented) :
    (readCatalog fs staticRoot document).Gives catalog ↔
      ∃ top, RootOf fs staticRoot top ∧ DescribesCatalog document catalog ∧
        Sound (TakenAsset fs top) (TakenCube fs top) catalog := by
  constructor
  · rintro ⟨herrors, rfl⟩
    simp only [readCatalog, List.append_eq_nil_iff] at herrors ⊢
    obtain ⟨hroot, hexhibition, hartworks, hscenes, hreferences⟩ := herrors
    obtain ⟨top, htext, htop⟩ := (canonicalStaticRoot_gives_iff hdoc).mp (Read.gives_value hroot)
    rw [htext] at hartworks hscenes hreferences ⊢
    obtain ⟨hfields, hid, htitle, -⟩ := readExhibition_gives_iff.mp (Read.gives_value hexhibition)
    obtain ⟨⟨hartworkFields, hartworksSound⟩, hartworkIds, hartworkSet⟩ :=
      readArtworks_gives_iff.mp (Read.gives_value hartworks)
    obtain ⟨⟨hsceneFields, hscenesSound⟩, hne, hadds⟩ :=
      readScenes_gives_iff.mp (Read.gives_value hscenes)
    obtain ⟨hsceneIds, hsceneSet⟩ := adds_empty_iff.mp hadds.1
    obtain ⟨hhotspotIds, -⟩ := adds_empty_iff.mp hadds.2
    rw [validateReferences_eq_nil_iff, hsceneSet, hartworkSet] at hreferences
    simp only [List.mem_toFinset] at hreferences
    obtain ⟨value, hvalue, hidField, htitleField, hremarkField, hdefaultField⟩ := hfields
    exact ⟨top, htop,
      ⟨⟨value, hvalue, hidField, htitleField, hremarkField, hdefaultField⟩, hartworkFields,
        hsceneFields⟩,
      ⟨hid, htitle, hartworksSound, hne, hscenesSound, hsceneIds, hartworkIds, hhotspotIds,
        hreferences.1, hreferences.2⟩⟩
  · rintro ⟨top, htop, hdescribes, hsound⟩
    have hroot := (canonicalStaticRoot_gives_iff hdoc).mpr ⟨top, rfl, htop⟩
    obtain ⟨value, hvalue, hfields⟩ := hdescribes.exhibition
    -- The default scene is one of the scenes, and these have ids.
    have hdefault : catalog.defaultSceneId ≠ [] := by
      obtain ⟨scene, hscene, hid⟩ := List.mem_map.mp hsound.defaultScene
      rw [← hid]
      exact (hsound.scenes scene hscene).id
    have hexhibition := readExhibition_gives_iff.mpr
      ⟨⟨value, hvalue, hfields.exhibitionId, hfields.title, hfields.remark, hfields.defaultSceneId⟩,
        hsound.exhibitionId, hsound.title, hdefault⟩
    have hartworks := readArtworks_gives_iff.mpr
      ⟨⟨hdescribes.artworks, hsound.artworks⟩, hsound.artworkIds, rfl⟩
    have hscenes : (readScenes fs top.text document).Gives
        (catalog.scenes, catalog.sceneIds.toFinset, catalog.hotspotIds.toFinset) :=
      readScenes_gives_iff.mpr ⟨⟨hdescribes.scenes, hsound.scenes⟩, hsound.nonempty,
        adds_empty_iff.mpr ⟨hsound.sceneIds, rfl⟩, adds_empty_iff.mpr ⟨hsound.hotspotIds, rfl⟩⟩
    have hreferences := validateReferences_eq_nil_iff.mpr
      ⟨List.mem_toFinset.mpr hsound.defaultScene, fun scene hscene hotspot hhotspot =>
        (hsound.targets scene hscene hotspot hhotspot).imp
          (List.mem_toFinset.mpr ∘ ·) (List.mem_toFinset.mpr ∘ ·)⟩
    refine ⟨?_, ?_⟩
    · simp only [readCatalog, hroot.value, hroot.errors, hexhibition.value, hexhibition.errors,
        hartworks.value, hartworks.errors, hscenes.value, hscenes.errors, List.nil_append]
      exact hreferences
    · simp only [readCatalog, hroot.value, hexhibition.value, hartworks.value, hscenes.value]

theorem load_document_iff (configPath : Bytes) (hdoc : fs.Documented) :
    load fs configPath staticRoot (.document document) = .ok catalog ↔
      ∃ top, RootOf fs staticRoot top ∧ DescribesCatalog document catalog ∧
        Sound (TakenAsset fs top) (TakenCube fs top) catalog := by
  rw [← readCatalog_gives_iff hdoc, load]
  by_cases hobject : document.isObject = true
  · simp only [hobject, Bool.not_true, Bool.false_eq_true, ↓reduceIte]
    by_cases herrors : (readCatalog fs staticRoot document).errors = []
    · rw [if_pos herrors]
      constructor
      · intro h
        injection h with h
        exact ⟨herrors, h⟩
      · intro h
        rw [h.value]
    · rw [if_neg herrors]
      exact iff_of_false (by simp) fun h => herrors h.errors
  · simp only [hobject, Bool.not_false, ↓reduceIte]
    refine iff_of_false (by simp) fun h => ?_
    obtain ⟨top, -, hdescribes, -⟩ := (readCatalog_gives_iff hdoc).mp h
    obtain ⟨value, hvalue, -⟩ := hdescribes.exhibition
    exact hobject (isObject_of_find hvalue)

/-- A load that fails says why. -/
theorem load_errors_ne_nil {config : ConfigFile} {errors : List Bytes}
    (h : load fs configPath staticRoot config = .error errors) : errors ≠ [] := by
  cases config with
  | cannotOpen =>
    injection h with h
    simp [← h]
  | invalidJson what =>
    injection h with h
    simp [← h]
  | document root =>
    simp only [load] at h
    split_ifs at h with hobject herrors
    · injection h with h
      simp [← h]
    · injection h with h
      exact h ▸ herrors

section Nul

variable {asset cube asset' cube' : Bytes → Prop}

def assetUrls (catalog : ExhibitionCatalog) : List Bytes :=
  catalog.artworks.flatMap (·.images)++catalog.scenes.flatMap (fun scene =>
    scene.previewUrl :: scene.thumbnailUrl :: scene.musicUrl :: scene.hotspots.map (·.iconUrl))

def cubeUrls (catalog : ExhibitionCatalog) : List Bytes := catalog.scenes.map (·.cubeUrl)

theorem mem_urls_iff {url : Bytes} :
    url ∈ catalog.urls ↔ url ∈ catalog.assetUrls ∨ url ∈ catalog.cubeUrls := by
  rw [urls, assetUrls, cubeUrls, List.mem_append, List.mem_append, or_assoc]
  refine or_congr_right ?_
  constructor
  · intro hurl
    obtain ⟨scene, hscene, hurl⟩ := List.mem_flatMap.mp hurl
    by_cases hcube : url = scene.cubeUrl
    · exact .inr (List.mem_map.mpr ⟨scene, hscene, hcube.symm⟩)
    · refine .inl (List.mem_flatMap.mpr ⟨scene, hscene, ?_⟩)
      simpa [hcube] using hurl
  · rintro (hurl | hurl)
    · obtain ⟨scene, hscene, hurl⟩ := List.mem_flatMap.mp hurl
      refine List.mem_flatMap.mpr ⟨scene, hscene, ?_⟩
      rcases List.mem_cons.mp hurl with hpreview | hrest
      · exact hpreview ▸ List.mem_cons_self
      · exact List.mem_cons_of_mem _ (List.mem_cons_of_mem _ hrest)
    · obtain ⟨scene, hscene, rfl⟩ := List.mem_map.mp hurl
      exact List.mem_flatMap.mpr ⟨scene, hscene, by simp⟩

theorem Sound.mono (h : Sound asset cube catalog)
    (hasset : ∀ url ∈ catalog.assetUrls, asset url → asset' url)
    (hcube : ∀ url ∈ catalog.cubeUrls, cube url → cube' url) : Sound asset' cube' catalog := by
  have hurls : ∀ scene ∈ catalog.scenes, ∀ url ∈ scene.previewUrl :: scene.thumbnailUrl ::
      scene.musicUrl :: scene.hotspots.map (·.iconUrl), url ∈ catalog.assetUrls :=
    fun scene hscene url hurl =>
      List.mem_append_right _ (List.mem_flatMap.mpr ⟨scene, hscene, hurl⟩)
  refine { h with artworks := ?_, scenes := ?_ }
  · intro artwork hartwork
    have hsound := h.artworks artwork hartwork
    refine { hsound with images := ⟨hsound.images.1, fun image himage => ?_⟩ }
    exact hasset image (List.mem_append_left _ (List.mem_flatMap.mpr ⟨artwork, hartwork, himage⟩))
      (hsound.images.2 image himage)
  · intro scene hscene
    have hsound := h.scenes scene hscene
    have hof := hurls scene hscene
    refine { hsound with previewUrl := ?_, cubeUrl := ?_, thumbnailUrl := ?_, musicUrl := ?_,
                         hotspots := ?_ }
    · exact hasset _ (hof _ (by simp)) hsound.previewUrl
    · exact hcube _ (List.mem_map_of_mem hscene) hsound.cubeUrl
    · exact hasset _ (hof _ (by simp)) hsound.thumbnailUrl
    · exact hasset _ (hof _ (by simp)) hsound.musicUrl
    · intro hotspot hhotspot
      have hicon := hsound.hotspots hotspot hhotspot
      have hmem : hotspot.iconUrl ∈ scene.hotspots.map (·.iconUrl) :=
        List.mem_map_of_mem hhotspot
      exact { hicon with iconUrl := hasset _ (hof _ (by simp [hmem])) hicon.iconUrl }

theorem Sound.assetUrl (h : Sound asset cube catalog) {url : Bytes} (hurl : url ∈ catalog.assetUrls) :
    asset url := by
  rcases List.mem_append.mp hurl with hurl | hurl
  · obtain ⟨artwork, hartwork, hurl⟩ := List.mem_flatMap.mp hurl
    exact (h.artworks artwork hartwork).images.2 url hurl
  · obtain ⟨scene, hscene, hurl⟩ := List.mem_flatMap.mp hurl
    have hsound := h.scenes scene hscene
    simp only [List.mem_cons, List.mem_map] at hurl
    rcases hurl with rfl | rfl | rfl | ⟨hotspot, hhotspot, rfl⟩
    · exact hsound.previewUrl
    · exact hsound.thumbnailUrl
    · exact hsound.musicUrl
    · exact (hsound.hotspots hotspot hhotspot).iconUrl

theorem Sound.cubeUrl (h : Sound asset cube catalog) {url : Bytes} (hurl : url ∈ catalog.cubeUrls) :
    cube url := by
  obtain ⟨scene, hscene, rfl⟩ := List.mem_map.mp hurl
  exact (h.scenes scene hscene).cubeUrl

theorem sound_iff (hdoc : fs.Documented) (hslash : fs.SlashNamesDirectory)
    (hbelow : top.names ≠ []) :
    Sound (Asset fs top) (CubeAsset fs top) catalog ↔
      Sound (TakenAsset fs top) (TakenCube fs top) catalog ∧ ∀ url ∈ catalog.urls, 0 ∉ url := by
  constructor
  · intro h
    refine ⟨h.mono (fun url _ hurl => ((asset_iff hdoc hslash hbelow).mp hurl).1)
      (fun url _ hurl => ((cubeAsset_iff hdoc hslash hbelow).mp hurl).1), ?_⟩
    intro url hurl
    rcases mem_urls_iff.mp hurl with hasset | hcube
    · exact ((asset_iff hdoc hslash hbelow).mp (h.assetUrl hasset)).2
    · exact ((cubeAsset_iff hdoc hslash hbelow).mp (h.cubeUrl hcube)).2
  · rintro ⟨h, hnul⟩
    exact h.mono
      (fun url hmem hurl =>
        (asset_iff hdoc hslash hbelow).mpr ⟨hurl, hnul url (mem_urls_iff.mpr (.inl hmem))⟩)
      (fun url hmem hurl =>
        (cubeAsset_iff hdoc hslash hbelow).mpr ⟨hurl, hnul url (mem_urls_iff.mpr (.inr hmem))⟩)

end Nul

/-- A document is loaded exactly if it is publishable, unless one of its URLs goes on behind the
name of a file with a NUL. -/
theorem loadsExactly_iff (configPath staticRoot : Bytes) (document : Json) (hdoc : fs.Documented)
    (hslash : fs.SlashNamesDirectory) :
    LoadsExactly fs configPath staticRoot document ↔ NoHiddenNul fs staticRoot document := by
  constructor
  · rintro ⟨hexact, -⟩ top catalog htop hdescribes hsound
    have hloads := (load_document_iff configPath hdoc).mpr ⟨top, htop, hdescribes, hsound⟩
    obtain ⟨top', htop', catalog', hdescribes', hsound'⟩ := hexact.mp ⟨catalog, hloads⟩
    obtain ⟨htaken, hnul⟩ := (sound_iff hdoc hslash htop'.below).mp hsound'
    -- The publishable catalogue is the one that is loaded.
    have hloads' := (load_document_iff configPath hdoc).mpr ⟨top', htop', hdescribes', htaken⟩
    obtain rfl : catalog = catalog' := by
      injection hloads.symm.trans hloads'
    exact hnul
  · intro hnul
    refine ⟨⟨?_, ?_⟩, fun errors => load_errors_ne_nil⟩
    · rintro ⟨catalog, hloads⟩
      obtain ⟨top, htop, hdescribes, hsound⟩ := (load_document_iff configPath hdoc).mp hloads
      exact ⟨top, htop, catalog, hdescribes, (sound_iff hdoc hslash htop.below).mpr
        ⟨hsound, hnul top catalog htop hdescribes hsound⟩⟩
    · rintro ⟨top, htop, catalog, hdescribes, hsound⟩
      exact ⟨catalog, (load_document_iff configPath hdoc).mpr
        ⟨top, htop, hdescribes, ((sound_iff hdoc hslash htop.below).mp hsound).1⟩⟩

section Sample

open StaticFileHandler (smallFileSystem smallFileSystem_documented wwwPath)

theorem slashNamesDirectory_small {directories files : List CanonicalPath}
    (hfiles : ∀ p ∈ files, p.names ≠ []) :
    (smallFileSystem directories files).SlashNamesDirectory := by
  intro path resolved st hlast hresolves hstat
  simp only [smallFileSystem, Option.ite_none_right_eq_some] at hresolves hstat
  obtain rfl := Option.some.inj hresolves.2
  have hnot : path ∉ files.map CanonicalPath.text := by
    intro hmem
    obtain ⟨p, hp, rfl⟩ := List.mem_map.mp hmem
    rw [CanonicalPath.text_eq_joinNames (hfiles p hp)] at hlast
    exact getLast?_joinNames (fun name hname => ⟨(p.wf name hname).2.1, (p.wf name hname).1⟩)
      (hfiles p hp) hlast
  rw [if_neg hnot] at hstat
  split_ifs at hstat
  obtain rfl := Option.some.inj hstat
  rfl

/-- `/www/assets/a` and the files of the faces. -/
def sampleFiles : List CanonicalPath :=
  [⟨[ascii "www", ascii "assets", ascii "a"], by decide⟩,
   ⟨[ascii "www", ascii "assets", ascii "f"], by decide⟩,
   ⟨[ascii "www", ascii "assets", ascii "b"], by decide⟩,
   ⟨[ascii "www", ascii "assets", ascii "l"], by decide⟩,
   ⟨[ascii "www", ascii "assets", ascii "r"], by decide⟩,
   ⟨[ascii "www", ascii "assets", ascii "u"], by decide⟩,
   ⟨[ascii "www", ascii "assets", ascii "d"], by decide⟩]

def sampleFileSystem : FileSystem := smallFileSystem [wwwPath] sampleFiles

theorem sampleFileSystem_documented : sampleFileSystem.Documented :=
  smallFileSystem_documented [wwwPath] sampleFiles

theorem sampleFileSystem_slash : sampleFileSystem.SlashNamesDirectory :=
  slashNamesDirectory_small (by decide)

def sampleScene (previewUrl : Bytes) : Json :=
  .object [(ascii "sceneId", .string (ascii "hall")), (ascii "panoId", .string (ascii "1")),
    (ascii "name", .string (ascii "Hall")), (ascii "previewUrl", .string previewUrl),
    (ascii "cubeUrl", .string (ascii "/assets/%s")),
    (ascii "thumbnailUrl", .string (ascii "/assets/a")),
    (ascii "musicUrl", .string (ascii "/assets/a")), (ascii "musicVolume", .number (some 1)),
    (ascii "musicAutoplay", .boolean true), (ascii "musicLoop", .boolean false),
    (ascii "view", .object [(ascii "hlookat", .number (some 0)),
      (ascii "vlookat", .number (some 0)), (ascii "fov", .number (some 90))]),
    (ascii "hotspots", .array [])]

/-- An exhibition of one scene with this preview. -/
def sampleDocument (previewUrl : Bytes) : Json :=
  .object [(ascii "exhibition", .object [(ascii "id", .string (ascii "1")),
      (ascii "title", .string (ascii "Show")), (ascii "remark", .string []),
      (ascii "defaultSceneId", .string (ascii "hall"))]),
    (ascii "artworks", .array []), (ascii "scenes", .array [sampleScene previewUrl])]

def sampleCatalog (previewUrl : Bytes) : ExhibitionCatalog :=
  { exhibitionId := ascii "1", title := ascii "Show", defaultSceneId := ascii "hall",
    scenes := [{ id := ascii "hall", panoId := ascii "1", name := ascii "Hall",
                 previewUrl := previewUrl, cubeUrl := ascii "/assets/%s",
                 thumbnailUrl := ascii "/assets/a", musicUrl := ascii "/assets/a", fov := 90,
                 musicVolume := 1, musicAutoplay := true }] }

theorem load_sample (previewUrl : Bytes)
    (herrors : (readCatalog sampleFileSystem (ascii "/www") (sampleDocument previewUrl)).errors = [])
    (hvalue : (readCatalog sampleFileSystem (ascii "/www") (sampleDocument previewUrl)).value =
      sampleCatalog previewUrl) :
    load sampleFileSystem [] (ascii "/www") (.document (sampleDocument previewUrl)) =
      .ok (sampleCatalog previewUrl) := by
  simp only [load]
  rw [if_neg (by simp [sampleDocument, Json.isObject]), if_pos herrors, hvalue]

/-- The preview is the name of a file, and the document is loaded. -/
theorem loadsExactly_sample :
    load sampleFileSystem [] (ascii "/www") (.document (sampleDocument (ascii "/assets/a"))) =
      .ok (sampleCatalog (ascii "/assets/a")) ∧
    LoadsExactly sampleFileSystem [] (ascii "/www") (sampleDocument (ascii "/assets/a")) := by
  have hloads := load_sample (ascii "/assets/a") (by decide) (by decide)
  refine ⟨hloads, (loadsExactly_iff [] (ascii "/www") _ sampleFileSystem_documented
    sampleFileSystem_slash).mpr ?_⟩
  intro top catalog htop hdescribes hsound
  have hloads' := (load_document_iff [] sampleFileSystem_documented).mpr
    ⟨top, htop, hdescribes, hsound⟩
  obtain rfl : catalog = sampleCatalog (ascii "/assets/a") := by
    injection hloads'.symm.trans hloads
  decide

/-- `/assets/a` with a NUL and one more letter behind it. -/
def nulPreview : Bytes := ascii "/assets/a"++0 :: ascii "b"

/-- The document is loaded, although its preview is not the name of a file. -/
theorem nul_preview_loaded :
    load sampleFileSystem [] (ascii "/www") (.document (sampleDocument nulPreview)) =
      .ok (sampleCatalog nulPreview) ∧
    ¬ Publishable sampleFileSystem (ascii "/www") (sampleDocument nulPreview) ∧
    ¬ LoadsExactly sampleFileSystem [] (ascii "/www") (sampleDocument nulPreview) := by
  have hloads := load_sample nulPreview (by decide) (by decide)
  have hnot : ¬ Publishable sampleFileSystem (ascii "/www") (sampleDocument nulPreview) := by
    rintro ⟨top, htop, catalog, hdescribes, hsound⟩
    obtain ⟨values, hvalues, hscenes⟩ := hdescribes.scenes
    obtain rfl : values = [sampleScene nulPreview] := by
      injection hvalues with hvalues
      injection hvalues with hvalues
      exact hvalues.symm
    obtain ⟨scene, scenes, hscene, -, hcons⟩ := List.forall₂_cons_left_iff.mp hscenes
    have hpreview : scene.previewUrl = nulPreview := by
      injection hscene.previewUrl with hsame
      injection hsame with hsame
      exact hsame.symm
    have hasset := (hsound.scenes scene (by simp [hcons])).previewUrl
    rw [hpreview] at hasset
    exact hasset.2.1 (by decide)
  exact ⟨hloads, hnot, fun h => hnot (h.1.mp ⟨_, hloads⟩)⟩

end Sample

end ExhibitionCatalog

end JingjieAR
