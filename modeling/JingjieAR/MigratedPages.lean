import JingjieAR.MigratedRecords

/-! What a plan says about the page as a whole: each scene of the output belongs to a record, and
the ids that are used for references are those of scenes and artworks. -/
namespace JingjieAR

open PyValue

/-- The hotspots of all scenes of the output. -/
def MigrationOutput.hotspots (output : MigrationOutput) : List NormalizedHotspot :=
  output.scenes.flatMap (·.hotspots)

section Runs

variable {py : PythonLibrary Xml} {panoToScene : List (Bytes × Bytes)} {records : PageRecords}
  {raws rest : List PyValue} {raw : PyValue} {hotspots hotspots' : List NormalizedHotspot}
  {scene : MigratedScene} {scenes : List MigratedScene} {collected collected' : Collected}

theorem normalizeHotspots_ok (hinv : CollectedFrom py raws hotspots collected)
    (h : normalizeHotspots py panoToScene rest collected = .ok (hotspots', collected')) :
    List.Forall₂ (HotspotOf py panoToScene) rest hotspots' ∧
      CollectedFrom py (raws++rest) (hotspots++hotspots') collected' := by
  induction rest generalizing raws hotspots collected hotspots' with
  | nil =>
    cases h
    rw [List.append_nil, List.append_nil]
    exact ⟨.nil, hinv⟩
  | cons raw rest ih =>
    simp only [normalizeHotspots, bind_eq_ok_iff, pure_eq_ok_iff, Prod.exists, Prod.mk.injEq] at h
    obtain ⟨hotspot, signatures, hnormalize, artworks, hcollect, others, _, hrest, rfl, rfl⟩ := h
    obtain ⟨hof, -⟩ := normalizeHotspot_ok hnormalize
    obtain ⟨hall, hcollected⟩ := ih (hinv.step hnormalize hcollect) hrest
    rw [List.append_assoc, List.append_assoc] at hcollected
    exact ⟨.cons hof hall, hcollected⟩

theorem migrateScene_ok (hinv : CollectedFrom py raws hotspots collected)
    (h : migrateScene py records.panoToScene records.views records.resources raw collected =
      .ok (scene, collected')) :
    SceneOf py records raw scene ∧
      CollectedFrom py (raws++sceneHotspots raw) (hotspots++scene.hotspots) collected' := by
  simp only [migrateScene, bind_eq_ok_iff] at h
  obtain ⟨sceneId, hid, panoId, hpanoId, h⟩ := h
  cases hview : records.views.lookup sceneId with
  | none =>
    rw [hview] at h
    cases h
  | some view =>
    simp only [hview, bind_eq_ok_iff, pure_eq_ok_iff, Prod.exists, Prod.mk.injEq] at h
    obtain ⟨rawList, hraws, hotspots', _, hnormalize, sound, hsound, name, hname, resource,
      hresource, previewUrl, hpreview, cubeUrl, hcube, thumbnailUrl, hthumbnail, url, hurl, musicUrl,
      hmusic, volume, hvolume, musicVolume, hnumber, autoPlay, -, isLoop, -, rfl, rfl⟩ := h
    obtain ⟨hall, hcollected⟩ := normalizeHotspots_ok hinv hnormalize
    have hfound : records.resources.lookup sceneId = some resource := by
      rw [lookupItem] at hresource
      split at hresource
      · rename_i found hfound
        rw [hfound, Except.ok.inj hresource]
      · cases hresource
    have hlist : sceneHotspots raw = rawList := by
      rw [sceneHotspots, hraws]
    refine ⟨⟨hid, hpanoId, hname, ⟨resource, hfound, hpreview, hcube, hthumbnail⟩, ?_, hview,
      rawList, hraws, hall⟩, hlist ▸ hcollected⟩
    exact ⟨sound, hsound, ⟨url, hurl, hmusic⟩, volume, hvolume, hnumber⟩

theorem migrateScenes_ok (hinv : CollectedFrom py raws hotspots collected)
    (h : migrateScenes py records.panoToScene records.views records.resources rest collected =
      .ok (scenes, collected')) :
    List.Forall₂ (SceneOf py records) rest scenes ∧
      CollectedFrom py (raws++rest.flatMap sceneHotspots)
        (hotspots++scenes.flatMap (·.hotspots)) collected' := by
  induction rest generalizing raws hotspots collected scenes with
  | nil =>
    cases h
    rw [List.flatMap_nil, List.flatMap_nil, List.append_nil, List.append_nil]
    exact ⟨.nil, hinv⟩
  | cons raw rest ih =>
    simp only [migrateScenes, bind_eq_ok_iff, pure_eq_ok_iff, Prod.exists, Prod.mk.injEq] at h
    obtain ⟨scene, _, hscene, scenes', _, hrest, rfl, rfl⟩ := h
    obtain ⟨hof, hcollected⟩ := migrateScene_ok hinv hscene
    obtain ⟨hall, hcollected'⟩ := ih hcollected hrest
    rw [List.append_assoc, List.append_assoc, ← List.flatMap_cons, ← List.flatMap_cons]
      at hcollected'
    exact ⟨.cons hof hall, hcollected'⟩

end Runs

section Identities

variable {py : PythonLibrary Xml} {label : Bytes} {entries : List PyValue}
  {byScene result : List (Bytes × PyValue)} {seenPanos : List Bytes}

/-- The scenes under their ids, none of which comes twice. -/
theorem uniqueMapping_ok (hnodup : (byScene.map Prod.fst).Nodup)
    (h : uniqueMapping py label entries byScene seenPanos = .ok result) :
    ∃ more, result = byScene++more ∧ (result.map Prod.fst).Nodup ∧
      List.Forall₂ (fun entry member => entry.textItem py (ascii "id") = .ok member.1 ∧
        member.2 = entry) entries more := by
  induction entries generalizing byScene seenPanos with
  | nil =>
    cases h
    exact ⟨[], by simp, hnodup, .nil⟩
  | cons entry entries ih =>
    simp only [uniqueMapping, bind_eq_ok_iff, raiseIf_eq_ok_iff, not_or] at h
    obtain ⟨sceneId, hid, panoId, -, _, ⟨hnew, -⟩, hrest⟩ := h
    have hnodup' : ((byScene++[(sceneId, entry)]).map Prod.fst).Nodup := by
      rw [List.map_append, List.map_singleton, List.nodup_append]
      refine ⟨hnodup, by simp, ?_⟩
      rintro id hmem id' hid' rfl
      have hsame : id = sceneId := List.mem_singleton.mp hid'
      exact hnew (hsame ▸ hmem)
    obtain ⟨more, rfl, hresult, hall⟩ := ih hnodup' hrest
    exact ⟨(sceneId, entry) :: more, by simp, hresult, .cons ⟨hid, rfl⟩ hall⟩

theorem xmlScene_ok {scenes : List Xml} {known found : List (Bytes × XmlScene)}
    (hknown : ∀ scene ∈ known, scene.1 ≠ [] ∧ scene.2.panoId ≠ [])
    (h : scenes.foldlM xmlScene known = .ok found) :
    ∀ scene ∈ found, scene.1 ≠ [] ∧ scene.2.panoId ≠ [] := by
  induction scenes generalizing known with
  | nil =>
    cases h
    exact hknown
  | cons scene scenes ih =>
    rw [List.foldlM_cons, bind_eq_ok_iff] at h
    obtain ⟨known', hscene, hrest⟩ := h
    refine ih ?_ hrest
    simp only [xmlScene, bind_eq_ok_iff, raiseIf_eq_ok_iff, not_or] at hscene
    obtain ⟨_, ⟨hid, hpano, -⟩, _, -, hurls⟩ := hscene
    split at hurls
    · obtain ⟨_, -, hpure⟩ := bind_eq_ok_iff.mp hurls
      cases hpure
      intro scene' hscene'
      rcases List.mem_append.mp hscene' with hscene' | hscene'
      · exact hknown scene' hscene'
      · rw [List.mem_singleton.mp hscene']
        exact ⟨hid, hpano⟩
    · cases hurls

/-- The identity of every record is that of an element of the XML. -/
theorem sceneResources_ok {xmlText categories : PyValue} {root : Xml}
    {rawSceneById : List (Bytes × PyValue)} {resources : List (Bytes × SceneResource)}
    (h : sceneResources py xmlText rawSceneById categories = .ok (root, resources)) :
    ∀ member ∈ rawSceneById, member.1 ≠ [] ∧
      ∃ panoId, member.2.textItem py (ascii "panoId") = .ok panoId ∧ panoId ≠ [] := by
  obtain ⟨xmlByScene, thumbnails, scenes, hxml, hresources⟩ : ∃ xmlByScene thumbnails scenes,
      List.foldlM xmlScene [] scenes = .ok xmlByScene ∧
      rawSceneById.mapM (sceneResource py xmlByScene thumbnails) = .ok resources := by
    cases xmlText with
    | str text =>
      simp only [sceneResources, bind_eq_ok_iff, pure_eq_ok_iff, Prod.mk.injEq] at h
      obtain ⟨_, -, xmlByScene, hxml, _, -, thumbnails, -, _, -, _, hresources, -, rfl⟩ := h
      exact ⟨xmlByScene, thumbnails, _, hxml, hresources⟩
    | _ => cases h
  have hidentity := xmlScene_ok (by simp) hxml
  intro member hmember
  obtain ⟨resource, -, hresource⟩ := exists_right_of_mem (forall₂_of_mapM hresources) hmember
  simp only [sceneResource, bind_eq_ok_iff, raiseIf_eq_ok_iff, not_or, not_not] at hresource
  obtain ⟨panoId, hpanoId, scene, hscene, thumbnail, -, _, ⟨hsame, -⟩, -⟩ := hresource
  rw [lookupItem] at hscene
  split at hscene
  · rename_i found hfound
    cases hscene
    obtain ⟨hid, hpano⟩ := hidentity _ (mem_of_lookup hfound)
    exact ⟨hid, panoId, hpanoId, hsame ▸ hpano⟩
  · cases hscene

/-- The first item is the one with which a loop begins. -/
theorem first_of_iterate {value item : PyValue} {items : List PyValue}
    (hitems : value.iterate = .ok items) (h : value.first = .ok item) :
    ∃ others, items = item :: others := by
  cases value with
  | list values =>
    cases hitems
    cases items with
    | nil => cases h
    | cons item' others =>
      cases h
      exact ⟨others, rfl⟩
  | str text =>
    cases hitems
    simp only [first] at h
    split at h
    · rename_i c others hchars
      cases h
      exact ⟨others.map .str, by rw [hchars, List.map_cons]⟩
    · cases h
  | _ => cases h

end Identities

/-- The output of an accepted page. -/
structure PageOf (py : PythonLibrary Xml) (records : PageRecords) (output : MigrationOutput) :
    Prop where
  id : records.property.textItem py (ascii "id") = .ok output.exhibition.id
  title : records.property.getItem (ascii "name") = .ok output.exhibition.title
  remark : records.property.get (ascii "remark") (.str []) = .ok output.exhibition.remark
  defaultScene : ∃ scene ∈ output.scenes, output.exhibition.defaultSceneId = scene.sceneId
  scenes : List.Forall₂ (SceneOf py records) records.scenes output.scenes
  collected : ∃ signatures,
    CollectedFrom py records.hotspots output.hotspots ⟨output.artworks, signatures⟩
  identities : ∀ scene ∈ output.scenes, scene.sceneId ≠ [] ∧ scene.panoId ≠ []
  sceneIds : (output.scenes.map (·.sceneId)).Nodup
  targets : ∀ panoId sceneId, records.panoToScene.lookup panoId = some sceneId →
    sceneId ∈ output.scenes.map (·.sceneId)

section Pages

variable {py : PythonLibrary Xml} {records : PageRecords} {output : MigrationOutput}

/-- The records of the hotspots and what has become of them. -/
theorem PageOf.hotspots (h : PageOf py records output) :
    List.Forall₂ (HotspotOf py records.panoToScene) records.hotspots output.hotspots := by
  refine forall₂_flatMap (h.scenes.imp fun raw scene hof => ?_)
  obtain ⟨raws, hraws, hall⟩ := hof.hotspots
  rw [sceneHotspots, hraws]
  exact hall

theorem PageOf.hotspotIds (h : PageOf py records output) :
    records.hotspots.map (·.textItem py (ascii "id")) =
      (output.hotspots.map (·.hotspotId)).map .ok := by
  rw [List.map_map]
  exact map_eq_of_forall₂ h.hotspots fun _ _ hof => hof.id

end Pages

namespace Migration

variable {m : Migration} {records : PageRecords} {plan : MigrationPlan}

/-- What the records have in common with the element tree and with each other. -/
theorem records_ok (h : m.records = .ok records) :
    records.rawScenes.iterate = .ok records.scenes ∧
      (∀ ids, List.Forall₂ (fun raw id => raw.textItem m.py (ascii "id") = .ok id) records.scenes
        ids → ids.Nodup) ∧
      (∀ raw ∈ records.scenes, ∀ id panoId, raw.textItem m.py (ascii "id") = .ok id →
        raw.textItem m.py (ascii "panoId") = .ok panoId → id ≠ [] ∧ panoId ≠ []) ∧
      ∀ panoId sceneId, records.panoToScene.lookup panoId = some sceneId →
        ∃ raw ∈ records.scenes, raw.textItem m.py (ascii "id") = .ok sceneId := by
  simp only [Migration.records, bind_eq_ok_iff, pure_eq_ok_iff, Prod.exists] at h
  obtain ⟨_, -, _, -, _, -, _, -, _, -, _, -, _, -, scenes, hscenes, rawSceneById, hunique,
    panoToScene, hpanos, _, -, _, -, _, _, hresources, _, -, rfl⟩ := h
  obtain ⟨members, hmembers, hnodup, hall⟩ := uniqueMapping_ok (by simp) hunique
  rw [List.nil_append] at hmembers
  subst hmembers
  refine ⟨hscenes, ?_, ?_, ?_⟩
  · intro ids hids
    have hsame : rawSceneById.map Prod.fst = ids := by
      have hmap : scenes.map (·.textItem m.py (ascii "id")) = ids.map .ok := by
        simpa using map_eq_of_forall₂ hids (g := Except.ok) fun _ _ heq => heq
      have hmap' : scenes.map (·.textItem m.py (ascii "id")) =
          (rawSceneById.map Prod.fst).map .ok := by
        rw [List.map_map]
        exact map_eq_of_forall₂ hall fun _ _ heq => heq.1
      exact List.map_injective_iff.mpr (fun _ _ => Except.ok.inj) (hmap'.symm.trans hmap)
    exact hsame ▸ hnodup
  · intro raw hraw id panoId hid hpanoId
    obtain ⟨member, hmember, hid', rfl⟩ := exists_right_of_mem hall hraw
    obtain ⟨hne, panoId', hpanoId', hne'⟩ := sceneResources_ok hresources member hmember
    rw [Except.ok.inj (hid.symm.trans hid'), Except.ok.inj (hpanoId.symm.trans hpanoId')]
    exact ⟨hne, hne'⟩
  · intro panoId sceneId hlookup
    obtain ⟨raw, hraw, hpair⟩ := exists_left_of_mem (forall₂_of_mapM hpanos) (mem_of_lookup hlookup)
    simp only [bind_eq_ok_iff, pure_eq_ok_iff, Prod.mk.injEq] at hpair
    obtain ⟨_, -, _, hid, -, rfl⟩ := hpair
    exact ⟨raw, hraw, hid⟩

theorem plan_ok (h : m.plan = .ok plan) :
    ∃ records, m.records = .ok records ∧ plan.rawScenes = records.scenes ∧
      plan.resources = records.resources ∧ PageOf m.py records plan.output := by
  simp only [Migration.plan, bind_eq_ok_iff, pure_eq_ok_iff, Prod.exists] at h
  obtain ⟨records, hrecords, scenes, collected, hscenes, id, hid, title, htitle, remark, hremark,
    first, hfirst, defaultSceneId, hdefault, rfl⟩ := h
  obtain ⟨hiterate, hnodup, hidentities, htargets⟩ := records_ok hrecords
  obtain ⟨hall, hcollected⟩ := migrateScenes_ok collectedFrom_nil hscenes
  rw [List.nil_append, List.nil_append] at hcollected
  have hids : List.Forall₂ (fun raw id => raw.textItem m.py (ascii "id") = .ok id) records.scenes
      (scenes.map (·.sceneId)) :=
    List.forall₂_map_right_iff.mpr (hall.imp fun _ _ hof => hof.id)
  have hscene : ∀ raw ∈ records.scenes, ∀ id, raw.textItem m.py (ascii "id") = .ok id →
      ∃ scene ∈ scenes, scene.sceneId = id := by
    intro raw hraw id hid
    obtain ⟨scene, hmem, hof⟩ := exists_right_of_mem hall hraw
    exact ⟨scene, hmem, Except.ok.inj (hof.id.symm.trans hid)⟩
  refine ⟨records, hrecords, rfl, rfl, hid, htitle, hremark, ?_, hall,
    ⟨collected.artworkBySignature, hcollected⟩, ?_, hnodup _ hids, ?_⟩
  · obtain ⟨others, hothers⟩ := first_of_iterate hiterate hfirst
    obtain ⟨scene, hmem, rfl⟩ := hscene first (by simp [hothers]) _ hdefault
    exact ⟨scene, hmem, rfl⟩
  · intro scene hmem
    obtain ⟨raw, hraw, hof⟩ := exists_left_of_mem hall hmem
    exact hidentities raw hraw _ _ hof.id hof.panoId
  · intro panoId sceneId hlookup
    obtain ⟨raw, hraw, hid⟩ := htargets panoId sceneId hlookup
    obtain ⟨scene, hmem, rfl⟩ := hscene raw hraw _ hid
    exact List.mem_map_of_mem hmem

end Migration

end JingjieAR
