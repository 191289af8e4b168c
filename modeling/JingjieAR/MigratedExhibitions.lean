import JingjieAR.MigratedCatalogs

/-! The exhibition as a whole: its scenes, and the ids that its parts refer to each other with. -/
namespace JingjieAR

open PyValue

section Scenes

/-- A scene of the catalogue has the values of the migrated one. -/
structure SceneMatches (scene : MigratedScene) (info : ExhibitionScene) : Prop where
  id : info.id = scene.sceneId
  panoId : info.panoId = scene.panoId
  name : scene.name = .str info.name
  previewUrl : info.previewUrl = scene.previewUrl
  cubeUrl : info.cubeUrl = scene.cubeUrl
  thumbnailUrl : info.thumbnailUrl = scene.thumbnailUrl
  musicUrl : info.musicUrl = scene.musicUrl
  musicVolume : scene.musicVolume.value = some info.musicVolume
  musicAutoplay : info.musicAutoplay = scene.musicAutoplay
  musicLoop : info.musicLoop = scene.musicLoop
  hlookat : scene.view.hlookat.value = some info.hlookat
  vlookat : scene.view.vlookat.value = some info.vlookat
  fov : scene.view.fov.value = some info.fov
  hotspots : List.Forall₂ (fun hotspot info => DescribesHotspot hotspot.toPy.toJson info)
    scene.hotspots info.hotspots

variable {py : PythonLibrary Xml} {records : PageRecords} {raw : PyValue} {scene : MigratedScene}
  {info : ExhibitionScene}

theorem boolField_iff {object : Json} {key : Bytes} {b : Bool} (b' : Bool)
    (h : object.find key = some (.boolean b')) : BoolField object key b ↔ b = b' := by
  rw [BoolField, h, Option.some.injEq, Json.boolean.injEq, eq_comm]

theorem describesView_iff {view : SourceView} :
    DescribesView view.toPy.toJson info ↔ view.hlookat.value = some info.hlookat ∧
      view.vlookat.value = some info.vlookat ∧ view.fov.value = some info.fov := by
  constructor
  · rintro ⟨hhlookat, hvlookat, hfov⟩
    exact ⟨(numberField_iff view.hlookat rfl).mp hhlookat,
      (numberField_iff view.vlookat rfl).mp hvlookat, (numberField_iff view.fov rfl).mp hfov⟩
  · rintro ⟨hhlookat, hvlookat, hfov⟩
    exact ⟨(numberField_iff view.hlookat rfl).mpr hhlookat,
      (numberField_iff view.vlookat rfl).mpr hvlookat, (numberField_iff view.fov rfl).mpr hfov⟩

theorem describesScene_iff : DescribesScene scene.toPy.toJson info ↔ SceneMatches scene info := by
  have hview : scene.toPy.toJson.find (ascii "view") = some scene.view.toPy.toJson := rfl
  have hitems : scene.toPy.toJson.find (ascii "hotspots") =
      some (.array (itemsJson (scene.hotspots.map NormalizedHotspot.toPy))) := rfl
  rw [itemsJson_eq_map, List.map_map] at hitems
  constructor
  · rintro ⟨hid, hpanoId, hname, hpreview, hcube, hthumbnail, hmusic, hvolume, hautoplay, hloop,
      ⟨view, hview', hdescribes⟩, values, hvalues, hhotspots⟩
    obtain rfl := Option.some.inj (hview.symm.trans hview')
    obtain ⟨hhlookat, hvlookat, hfov⟩ := describesView_iff.mp hdescribes
    obtain rfl := Json.array.inj (Option.some.inj (hitems.symm.trans hvalues))
    exact ⟨(textField_iff scene.sceneId rfl).mp hid, (textField_iff scene.panoId rfl).mp hpanoId,
      (stringField_iff scene.name rfl).mp hname, (textField_iff scene.previewUrl rfl).mp hpreview,
      (textField_iff scene.cubeUrl rfl).mp hcube,
      (textField_iff scene.thumbnailUrl rfl).mp hthumbnail,
      (textField_iff scene.musicUrl rfl).mp hmusic,
      (numberField_iff scene.musicVolume rfl).mp hvolume,
      (boolField_iff scene.musicAutoplay rfl).mp hautoplay,
      (boolField_iff scene.musicLoop rfl).mp hloop, hhlookat, hvlookat, hfov,
      List.forall₂_map_left_iff.mp hhotspots⟩
  · intro h
    exact ⟨(textField_iff scene.sceneId rfl).mpr h.id,
      (textField_iff scene.panoId rfl).mpr h.panoId, (stringField_iff scene.name rfl).mpr h.name,
      (textField_iff scene.previewUrl rfl).mpr h.previewUrl,
      (textField_iff scene.cubeUrl rfl).mpr h.cubeUrl,
      (textField_iff scene.thumbnailUrl rfl).mpr h.thumbnailUrl,
      (textField_iff scene.musicUrl rfl).mpr h.musicUrl,
      (numberField_iff scene.musicVolume rfl).mpr h.musicVolume,
      (boolField_iff scene.musicAutoplay rfl).mpr h.musicAutoplay,
      (boolField_iff scene.musicLoop rfl).mpr h.musicLoop,
      ⟨_, hview, describesView_iff.mpr ⟨h.hlookat, h.vlookat, h.fov⟩⟩,
      _, hitems, List.forall₂_map_left_iff.mpr h.hotspots⟩

theorem fitScene_of_sound (hof : SceneOf py records raw scene) (hmatches : SceneMatches scene info)
    (hsound : SoundScene AssetPath CubeUrl info) : FitScene py (FitCubeUrl py) records raw := by
  obtain ⟨resource, hresource, hpreview, hcube, hthumbnail⟩ := hof.resource
  obtain ⟨sound, hget, ⟨url, hurl, hmusic⟩, volume, hvolume, hnumber⟩ := hof.sound
  refine ⟨⟨info.name, hmatches.name ▸ hof.name, hsound.name⟩, ?_, ?_, sound, hget, ?_, ?_⟩
  · intro id resource' hid hlookup
    obtain rfl := Except.ok.inj (hof.id.symm.trans hid)
    obtain rfl := Option.some.inj (hresource.symm.trans hlookup)
    exact ⟨⟨_, hpreview, hmatches.previewUrl ▸ hsound.previewUrl⟩,
      ⟨_, hcube, hmatches.cubeUrl ▸ hsound.cubeUrl⟩,
      ⟨_, hthumbnail, hmatches.thumbnailUrl ▸ hsound.thumbnailUrl⟩⟩
  · intro id view hid hlookup
    obtain rfl := Except.ok.inj (hof.id.symm.trans hid)
    obtain rfl := Option.some.inj (hof.view.symm.trans hlookup)
    exact ⟨fitNumber_of_value rfl hmatches.hlookat hsound.hlookat,
      fitNumber_of_value rfl hmatches.vlookat hsound.vlookat,
      fitNumber_of_value rfl hmatches.fov hsound.fov⟩
  · exact ⟨url, hurl, _, hmusic, hmatches.musicUrl ▸ hsound.musicUrl⟩
  · exact ⟨volume, hvolume, fitNumber_of_value hnumber hmatches.musicVolume hsound.musicVolume⟩

theorem soundScene_of_fit (hof : SceneOf py records raw scene)
    (hfit : FitScene py (FitCubeUrl py) records raw)
    (hidentity : scene.sceneId ≠ [] ∧ scene.panoId ≠ [])
    (hhotspots : ∀ hotspot ∈ scene.hotspots, hotspot.toPy.finite = true ∧
      ∃ info, DescribesHotspot hotspot.toPy.toJson info ∧ SoundHotspot AssetPath info) :
    scene.toPy.finite = true ∧
      ∃ info, SceneMatches scene info ∧ SoundScene AssetPath CubeUrl info := by
  obtain ⟨resource, hresource, hpreview, hcube, hthumbnail⟩ := hof.resource
  obtain ⟨sound, hget, ⟨url, hurl, hmusic⟩, volume, hvolume, hnumber⟩ := hof.sound
  obtain ⟨name, hname, hnonempty⟩ := hfit.name
  have hassets := hfit.resource _ _ hof.id hresource
  have hview := hfit.view _ _ hof.id hof.view
  obtain ⟨sound', hget', ⟨url', hurl', hmusicFit⟩, volume', hvolume', hvolumeFit⟩ := hfit.sound
  obtain rfl := Except.ok.inj (hget.symm.trans hget')
  obtain rfl := Except.ok.inj (hurl.symm.trans hurl')
  obtain rfl := Except.ok.inj (hvolume.symm.trans hvolume')
  obtain ⟨musicVolume, hmusicVolume, hvolumeRange⟩ := hvolumeFit.value hnumber
  obtain ⟨hlookat, hhlookat, hhlookatRange⟩ := hview.hlookat.value rfl
  obtain ⟨vlookat, hvlookat, hvlookatRange⟩ := hview.vlookat.value rfl
  obtain ⟨fov, hfov, hfovRange⟩ := hview.fov.value rfl
  obtain ⟨infos, hinfos⟩ := exists_forall₂ fun hotspot hmem => (hhotspots hotspot hmem).2
  obtain ⟨cubeUrl, hcubeUrl, hcubeSound⟩ := hassets.cube
  have hcubeFit : CubeUrl scene.cubeUrl := by
    rwa [Except.ok.inj (hcube.symm.trans hcubeUrl)]
  have hsameName : scene.name = .str name := Except.ok.inj (hof.name.symm.trans hname)
  let info : ExhibitionScene :=
    { id := scene.sceneId, panoId := scene.panoId, name, previewUrl := scene.previewUrl,
      cubeUrl := scene.cubeUrl, thumbnailUrl := scene.thumbnailUrl, musicUrl := scene.musicUrl,
      hlookat, vlookat, fov, musicVolume, musicAutoplay := scene.musicAutoplay,
      musicLoop := scene.musicLoop, hotspots := infos }
  refine ⟨?_, info, ?_, ?_⟩
  · rw [MigratedScene.toPy, SourceView.toPy, hsameName, finite_dict_iff]
    simp only [List.forall_mem_cons, List.not_mem_nil, false_imp_iff, implies_true, and_true,
      finite_list_iff, List.forall_mem_map, finite_dict_iff]
    exact ⟨rfl, rfl, rfl, rfl, rfl, rfl, rfl, finite_float_of_value hmusicVolume, rfl, rfl,
      ⟨finite_float_of_value hhlookat, finite_float_of_value hvlookat,
        finite_float_of_value hfov⟩, fun hotspot hmem => (hhotspots hotspot hmem).1⟩
  · exact ⟨rfl, rfl, hsameName, rfl, rfl, rfl, rfl, hmusicVolume, rfl, rfl, hhlookat, hvlookat, hfov,
      hinfos.imp fun _ _ h => h.1⟩
  · refine ⟨hidentity.1, hidentity.2, hnonempty, hassets.preview.asset hpreview,
      hcubeFit, hassets.thumb.asset hthumbnail, hmusicFit.asset hmusic,
      hvolumeRange, hhlookatRange, hvlookatRange, hfovRange, ?_⟩
    intro hotspot hmem
    obtain ⟨-, -, -, hsound⟩ := exists_left_of_mem hinfos hmem
    exact hsound

end Scenes

/-- A catalogue has the values of the output. -/
structure CatalogMatches (output : MigrationOutput) (catalog : ExhibitionCatalog) : Prop where
  id : catalog.exhibitionId = output.exhibition.id
  title : output.exhibition.title = .str catalog.title
  remark : output.exhibition.remark = .str catalog.remark
  defaultSceneId : catalog.defaultSceneId = output.exhibition.defaultSceneId
  artworks : List.Forall₂ (fun artwork info => DescribesArtwork artwork.toPy.toJson info)
    output.artworks catalog.artworks
  scenes : List.Forall₂ SceneMatches output.scenes catalog.scenes

section Catalogs

variable {py : PythonLibrary Xml} {records : PageRecords} {output : MigrationOutput}
  {catalog : ExhibitionCatalog}

theorem describesCatalog_iff :
    DescribesCatalog output.toPy.toJson catalog ↔ CatalogMatches output catalog := by
  have hexhibition : output.toPy.toJson.find (ascii "exhibition") =
      some output.exhibition.toPy.toJson := rfl
  have hartworks : output.toPy.toJson.find (ascii "artworks") =
      some (.array (itemsJson (output.artworks.map MigratedArtwork.toPy))) := rfl
  have hscenes : output.toPy.toJson.find (ascii "scenes") =
      some (.array (itemsJson (output.scenes.map MigratedScene.toPy))) := rfl
  rw [itemsJson_eq_map, List.map_map] at hartworks hscenes
  constructor
  · rintro ⟨⟨value, hvalue, hid, htitle, hremark, hdefault⟩, ⟨artworks, hartworks', hall⟩, scenes,
      hscenes', hall'⟩
    obtain rfl := Option.some.inj (hexhibition.symm.trans hvalue)
    obtain rfl := Json.array.inj (Option.some.inj (hartworks.symm.trans hartworks'))
    obtain rfl := Json.array.inj (Option.some.inj (hscenes.symm.trans hscenes'))
    exact ⟨(textField_iff output.exhibition.id rfl).mp hid,
      (stringField_iff output.exhibition.title rfl).mp htitle,
      (stringField_iff output.exhibition.remark rfl).mp hremark,
      (textField_iff output.exhibition.defaultSceneId rfl).mp hdefault,
      List.forall₂_map_left_iff.mp hall,
      (List.forall₂_map_left_iff.mp hall').imp fun _ _ h => describesScene_iff.mp h⟩
  · intro h
    refine ⟨⟨_, hexhibition, ?_, ?_, ?_, ?_⟩, ⟨_, hartworks, List.forall₂_map_left_iff.mpr h.artworks⟩,
      _, hscenes, ?_⟩
    · exact (textField_iff output.exhibition.id rfl).mpr h.id
    · exact (stringField_iff output.exhibition.title rfl).mpr h.title
    · exact (stringField_iff output.exhibition.remark rfl).mpr h.remark
    · exact (textField_iff output.exhibition.defaultSceneId rfl).mpr h.defaultSceneId
    · exact List.forall₂_map_left_iff.mpr (h.scenes.imp fun _ _ hscene => describesScene_iff.mpr hscene)

theorem finite_output_iff :
    output.toPy.finite = true ↔ output.exhibition.toPy.finite = true ∧
      (∀ artwork ∈ output.artworks, artwork.toPy.finite = true) ∧
      ∀ scene ∈ output.scenes, scene.toPy.finite = true := by
  rw [MigrationOutput.toPy, finite_dict_iff]
  simp only [List.forall_mem_cons, List.not_mem_nil, false_imp_iff, implies_true, and_true,
    finite_list_iff, List.forall_mem_map]

theorem finite_hotspot {scene : MigratedScene} (h : scene.toPy.finite = true) :
    ∀ hotspot ∈ scene.hotspots, hotspot.toPy.finite = true := by
  rw [MigratedScene.toPy, finite_dict_iff] at h
  have hlist := h (ascii "hotspots", .list (scene.hotspots.map NormalizedHotspot.toPy)) (by simp)
  simpa only [finite_list_iff, List.forall_mem_map] using hlist

theorem CatalogMatches.sceneIds (h : CatalogMatches output catalog) :
    catalog.sceneIds = output.scenes.map (·.sceneId) :=
  (map_eq_of_forall₂ h.scenes fun _ _ hscene => hscene.id.symm).symm

theorem CatalogMatches.artworkIds (h : CatalogMatches output catalog) :
    catalog.artworkIds = output.artworks.map (·.artworkId) :=
  (map_eq_of_forall₂ h.artworks fun _ _ hartwork =>
    (describesArtwork_iff.mp hartwork).1.symm).symm

theorem CatalogMatches.hotspotIds (h : CatalogMatches output catalog) :
    catalog.hotspotIds = output.hotspots.map (·.hotspotId) := by
  rw [ExhibitionCatalog.hotspotIds, MigrationOutput.hotspots, List.map_flatMap, List.flatMap_def,
    List.flatMap_def]
  refine congrArg List.flatten (map_eq_of_forall₂ h.scenes fun scene info hscene => ?_).symm
  exact map_eq_of_forall₂ hscene.hotspots fun _ _ hhotspot =>
    (describesHotspot_iff.mp hhotspot).1.symm

/-- A hotspot of the output is one of a scene of the catalogue. -/
theorem CatalogMatches.hotspot (h : CatalogMatches output catalog) {hotspot : NormalizedHotspot}
    (hmem : hotspot ∈ output.hotspots) :
    ∃ scene ∈ catalog.scenes, ∃ info ∈ scene.hotspots,
      DescribesHotspot hotspot.toPy.toJson info := by
  obtain ⟨scene, hscene, hhotspot⟩ := List.mem_flatMap.mp hmem
  obtain ⟨info, hinfo, hmatches⟩ := exists_right_of_mem h.scenes hscene
  obtain ⟨hotspotInfo, hhotspotInfo, hdescribes⟩ := exists_right_of_mem hmatches.hotspots hhotspot
  exact ⟨info, hinfo, hotspotInfo, hhotspotInfo, hdescribes⟩

end Catalogs

section Fit

variable {py : PythonLibrary Xml} {records : PageRecords} {output : MigrationOutput}
  {catalog : ExhibitionCatalog} {raw : PyValue} {items : List PyValue}

theorem exists_signature (h : PageOf py records output) (hraw : raw ∈ records.hotspots)
    (hdata : raw.get (ascii "data") .pyNone = .ok (.list items)) :
    ∃ title, HasSignature raw (title, .list items) := by
  obtain ⟨hotspot, -, hof⟩ := exists_right_of_mem h.hotspots hraw
  exact ⟨hotspot.title, hof.title, hdata⟩

/-- For the data of an artwork there is a first record, from which the artwork comes. -/
theorem PageOf.firstRecord (h : PageOf py records output) (hraw : raw ∈ records.hotspots)
    (hdata : raw.get (ascii "data") .pyNone = .ok (.list items)) :
    ∃ before first after, records.hotspots = before++first :: after ∧ Alike first raw ∧
      (∀ other ∈ before, ¬Alike other raw) ∧
      ∃ artwork ∈ output.artworks, ArtworkOf py first artwork := by
  obtain ⟨title, hsignature⟩ := exists_signature h hraw hdata
  obtain ⟨signatures, hcollected⟩ := h.collected
  obtain ⟨artworkId, hlookup⟩ := hcollected.known raw hraw _ items hsignature rfl
  obtain ⟨before, first, after, hsplit, hfirst, hbefore, artwork, hartwork, hof, -⟩ :=
    hcollected.first _ artworkId hlookup
  refine ⟨before, first, after, hsplit, ⟨?_, ?_⟩, ?_, artwork, hartwork, hof⟩
  · rw [hfirst.1, hsignature.1]
  · rw [hfirst.2, hsignature.2]
  · rintro other hother ⟨htitle, hsame⟩
    exact hbefore other hother ⟨htitle.trans hsignature.1, hsame.trans hsignature.2⟩

/-- There is only one first record. -/
theorem first_unique {α : Type} {p : α → Prop} {before before' after after' : List α} {a a' : α}
    (h : before++a :: after = before'++a' :: after') (ha : p a) (ha' : p a')
    (hbefore : ∀ x ∈ before, ¬p x) (hbefore' : ∀ x ∈ before', ¬p x) : a = a' := by
  induction before generalizing before' with
  | nil =>
    cases before' with
    | nil => exact (List.cons.inj h).1
    | cons x before' =>
      obtain rfl := (List.cons.inj h).1
      exact absurd ha (hbefore' a List.mem_cons_self)
  | cons x before ih =>
    cases before' with
    | nil =>
      obtain rfl := (List.cons.inj h).1
      exact absurd ha' (hbefore x List.mem_cons_self)
    | cons x' before' =>
      exact ih (List.cons.inj h).2 (fun y hy => hbefore y (List.mem_cons_of_mem _ hy))
        fun y hy => hbefore' y (List.mem_cons_of_mem _ hy)

/-- The records behind a sound catalogue are fit. -/
theorem fitRecords_of_sound (hpage : PageOf py records output)
    (hfinite : output.toPy.finite = true) (hmatches : CatalogMatches output catalog)
    (hsound : catalog.Sound AssetPath CubeUrl) : FitRecords py (FitCubeUrl py) records := by
  obtain ⟨-, -, hscenes⟩ := finite_output_iff.mp hfinite
  have hartwork : ∀ artwork ∈ output.artworks, ∃ info ∈ catalog.artworks,
      DescribesArtwork artwork.toPy.toJson info := by
    intro artwork hmem
    obtain ⟨info, hinfo, hdescribes⟩ := exists_right_of_mem hmatches.artworks hmem
    exact ⟨info, hinfo, hdescribes⟩
  refine ⟨⟨_, hpage.id, hmatches.id ▸ hsound.exhibitionId⟩,
    ⟨_, hmatches.title ▸ hpage.title, hsound.title⟩, ⟨_, hmatches.remark ▸ hpage.remark⟩,
    ?_, ?_, ?_, ?_, ?_⟩
  · intro raw hraw
    obtain ⟨scene, hscene, hof⟩ := exists_right_of_mem hpage.scenes hraw
    obtain ⟨info, hinfo, hsame⟩ := exists_right_of_mem hmatches.scenes hscene
    exact fitScene_of_sound hof hsame (hsound.scenes info hinfo)
  · intro raw hraw
    obtain ⟨hotspot, hmem, hof⟩ := exists_right_of_mem hpage.hotspots hraw
    obtain ⟨scene, hscene, hin⟩ := List.mem_flatMap.mp hmem
    obtain ⟨info, hinfo, hotspotInfo, hhotspotInfo, hdescribes⟩ := hmatches.hotspot hmem
    exact fitHotspot_of_sound hof (finite_hotspot (hscenes scene hscene) hotspot hin) hdescribes
      ((hsound.scenes info hinfo).hotspots hotspotInfo hhotspotInfo)
  · rw [hpage.hotspotIds, ← hmatches.hotspotIds]
    exact hsound.hotspotIds.map fun _ _ => Except.ok.inj
  · intro raw hraw items hdata
    obtain ⟨-, first, -, -, ⟨htitle, hsame⟩, -, artwork, hmem, hof⟩ := hpage.firstRecord hraw hdata
    obtain ⟨info, hinfo, hdescribes⟩ := hartwork artwork hmem
    have hfit := fitArtwork_of_sound hof hdescribes (hsound.artworks info hinfo)
      (hsame.trans hdata)
    exact hfit.congr htitle
  · intro before raw after items id hsplit hdata hbefore hid
    have hraw : raw ∈ records.hotspots := by simp [hsplit]
    obtain ⟨before', first, after', hsplit', halike, hbefore', artwork, hmem, hof⟩ :=
      hpage.firstRecord hraw hdata
    obtain rfl : raw = first := first_unique (p := (Alike · raw)) (hsplit.symm.trans hsplit')
      ⟨rfl, rfl⟩ halike hbefore hbefore'
    obtain ⟨info, hinfo, hdescribes⟩ := hartwork artwork hmem
    obtain ⟨hsameId, -⟩ := describesArtwork_iff.mp hdescribes
    rw [Except.ok.inj (hid.symm.trans hof.id), ← hsameId]
    exact (hsound.artworks info hinfo).id.2

/-- The ids of a page with fit records that its hotspots refer to. -/
theorem targetId_ne_nil (hpage : PageOf py records output)
    (hfit : FitRecords py (FitCubeUrl py) records) {hotspot : NormalizedHotspot}
    (hmem : hotspot ∈ output.hotspots) {id : Bytes}
    (htarget : hotspot.target = .scene id ∨ hotspot.target = .artwork id) : id ≠ [] := by
  rcases htarget with htarget | htarget
  · obtain ⟨raw, -, hof⟩ := exists_left_of_mem hpage.hotspots hmem
    obtain ⟨data, -, hkind⟩ := hof.target
    rw [htarget] at hkind
    obtain ⟨-, panoId, -, -, hlookup⟩ := hkind
    obtain ⟨scene, hscene, rfl⟩ := List.mem_map.mp (hpage.targets _ id hlookup)
    exact (hpage.identities scene hscene).1
  · obtain ⟨signatures, hcollected⟩ := hpage.collected
    obtain ⟨artwork, hartwork, rfl⟩ :=
      List.mem_map.mp (hcollected.targets hotspot hmem id htarget)
    obtain ⟨raw, hraw, hof, -⟩ := hcollected.artworks artwork hartwork
    obtain ⟨id, hid, hne⟩ := (hfit.hotspots raw hraw).id
    rwa [Except.ok.inj (hof.id.symm.trans hid)]

theorem exists_soundArtwork (hpage : PageOf py records output)
    (hfit : FitRecords py (FitCubeUrl py) records) {artwork : MigratedArtwork}
    (hmem : artwork ∈ output.artworks) :
    artwork.toPy.finite = true ∧
      ∃ info, DescribesArtwork artwork.toPy.toJson info ∧ SoundArtwork AssetPath info := by
  obtain ⟨signatures, hcollected⟩ := hpage.collected
  obtain ⟨raw, hraw, hof, signature, hsignature, hlookup⟩ := hcollected.artworks artwork hmem
  obtain ⟨before, first, after, hsplit, hfirst, hbefore, artwork', -, hof', hid⟩ :=
    hcollected.first signature _ hlookup
  obtain ⟨item, items, hdata, -⟩ := hof.data
  refine soundArtwork_of_fit hof (hfit.hotspots raw hraw) (hfit.artworks raw hraw) ?_
  refine hfit.artworkIds before first after _ _ hsplit
    (hfirst.2.trans (hsignature.2.symm.trans hdata)) ?_ (hid ▸ hof'.id)
  rintro other hother ⟨htitle, hsame⟩
  exact hbefore other hother ⟨htitle.trans hfirst.1, hsame.trans hfirst.2⟩

/-- The output of fit records describes a sound catalogue. -/
theorem exists_sound_of_fitRecords (hpage : PageOf py records output)
    (hfit : FitRecords py (FitCubeUrl py) records) :
    output.toPy.finite = true ∧
      ∃ catalog, CatalogMatches output catalog ∧ catalog.Sound AssetPath CubeUrl := by
  obtain ⟨id, hid, hidNe⟩ := hfit.id
  obtain ⟨title, htitle, htitleNe⟩ := hfit.title
  obtain ⟨remark, hremark⟩ := hfit.remark
  have hidNe' : output.exhibition.id ≠ [] := by
    rwa [Except.ok.inj (hpage.id.symm.trans hid)]
  have hsameTitle : output.exhibition.title = .str title :=
    Except.ok.inj (hpage.title.symm.trans htitle)
  have hsameRemark : output.exhibition.remark = .str remark :=
    Except.ok.inj (hpage.remark.symm.trans hremark)
  have hartworks : ∀ artwork ∈ output.artworks, artwork.toPy.finite = true ∧
      ∃ info, DescribesArtwork artwork.toPy.toJson info ∧ SoundArtwork AssetPath info :=
    fun artwork hmem => exists_soundArtwork hpage hfit hmem
  have hhotspots : ∀ hotspot ∈ output.hotspots, hotspot.toPy.finite = true ∧
      ∃ info, DescribesHotspot hotspot.toPy.toJson info ∧ SoundHotspot AssetPath info := by
    intro hotspot hmem
    obtain ⟨raw, hraw, hof⟩ := exists_left_of_mem hpage.hotspots hmem
    exact soundHotspot_of_fit hof (hfit.hotspots raw hraw)
      fun id htarget => targetId_ne_nil hpage hfit hmem htarget
  have hscenes : ∀ scene ∈ output.scenes, scene.toPy.finite = true ∧
      ∃ info, SceneMatches scene info ∧ SoundScene AssetPath CubeUrl info := by
    intro scene hmem
    obtain ⟨raw, hraw, hof⟩ := exists_left_of_mem hpage.scenes hmem
    exact soundScene_of_fit hof (hfit.scenes raw hraw) (hpage.identities scene hmem)
      fun hotspot hhotspot => hhotspots hotspot (List.mem_flatMap.mpr ⟨scene, hmem, hhotspot⟩)
  obtain ⟨artworkInfos, hartworkInfos⟩ :=
    exists_forall₂ fun artwork hmem => (hartworks artwork hmem).2
  obtain ⟨sceneInfos, hsceneInfos⟩ := exists_forall₂ fun scene hmem => (hscenes scene hmem).2
  let catalog : ExhibitionCatalog :=
    { exhibitionId := output.exhibition.id, title, remark,
      defaultSceneId := output.exhibition.defaultSceneId, scenes := sceneInfos,
      artworks := artworkInfos }
  have hmatches : CatalogMatches output catalog :=
    ⟨rfl, hsameTitle, hsameRemark, rfl, hartworkInfos.imp fun _ _ h => h.1,
      hsceneInfos.imp fun _ _ h => h.1⟩
  have hhotspotIds : (output.hotspots.map (·.hotspotId)).Nodup := by
    have hnodup := hfit.hotspotIds
    rw [hpage.hotspotIds] at hnodup
    exact hnodup.of_map
  obtain ⟨signatures, hcollected⟩ := hpage.collected
  refine ⟨finite_output_iff.mpr ⟨?_, fun artwork hmem => (hartworks artwork hmem).1,
    fun scene hmem => (hscenes scene hmem).1⟩, catalog, hmatches, ?_⟩
  · rw [MigratedExhibition.toPy, hsameTitle, hsameRemark]
    rfl
  · refine ⟨hidNe', htitleNe, ?_, ?_, ?_, ?_, ?_, ?_, ?_, ?_⟩
    · intro info hinfo
      obtain ⟨-, -, -, hsound⟩ := exists_left_of_mem hartworkInfos hinfo
      exact hsound
    · obtain ⟨scene, hscene, -⟩ := hpage.defaultScene
      obtain ⟨info, hinfo, -⟩ := exists_right_of_mem hsceneInfos hscene
      exact List.ne_nil_of_mem hinfo
    · intro info hinfo
      obtain ⟨-, -, -, hsound⟩ := exists_left_of_mem hsceneInfos hinfo
      exact hsound
    · rw [hmatches.sceneIds]
      exact hpage.sceneIds
    · rw [hmatches.artworkIds]
      exact hcollected.sublist.nodup hhotspotIds
    · rw [hmatches.hotspotIds]
      exact hhotspotIds
    · obtain ⟨scene, hscene, hdefault⟩ := hpage.defaultScene
      rw [hmatches.sceneIds, hmatches.defaultSceneId, hdefault]
      exact List.mem_map_of_mem hscene
    · intro scene hscene info hinfo
      obtain ⟨scene', hscene', hsame, -⟩ := exists_left_of_mem hsceneInfos hscene
      obtain ⟨hotspot, hhotspot, hdescribes⟩ := exists_left_of_mem hsame.hotspots hinfo
      obtain ⟨-, -, -, -, -, htarget⟩ := describesHotspot_iff.mp hdescribes
      have hmem : hotspot ∈ output.hotspots := List.mem_flatMap.mpr ⟨scene', hscene', hhotspot⟩
      constructor
      · intro htype
        obtain ⟨raw, -, hof⟩ := exists_left_of_mem hpage.hotspots hmem
        obtain ⟨data, -, hkind⟩ := hof.target
        rw [htarget.scene htype] at hkind
        obtain ⟨-, panoId, -, -, hlookup⟩ := hkind
        rw [hmatches.sceneIds]
        exact hpage.targets _ _ hlookup
      · intro htype
        rw [hmatches.artworkIds]
        exact hcollected.targets hotspot hmem _ (htarget.artwork htype)

end Fit

end JingjieAR
