import JingjieAR.MigratedCatalogs
import JingjieAR.MigratedCubes
import JingjieAR.MigrationRuns

/-! Which assets a migration asks for. They are those of the URLs in its output; the URLs of fit
records are all for plain paths. -/
namespace JingjieAR

open PyValue
open Migration (requestPath)

section Requests

variable {py : PythonLibrary Xml} {records : PageRecords} {output : MigrationOutput}
  {raw value member default : PyValue} {key id url : Bytes} {request : PyResult PyValue}

/-- With another default, only a missing member is another one. -/
theorem get_cases (h : value.get key default = .ok member) (default' : PyValue) :
    value.get key default' = .ok member ∨
      (member = default ∧ value.get key default' = .ok default') := by
  cases value with
  | dict members =>
    rw [PyValue.get, Except.ok.injEq] at h
    rw [PyValue.get]
    cases hlookup : members.lookup key with
    | none => exact .inr ⟨by simpa [hlookup] using h.symm, rfl⟩
    | some found => exact .inl (by simpa [hlookup] using h)
  | _ => cases h

theorem mem_optionalRequest :
    request ∈ optionalRequest value ↔ value.truthy = true ∧ request = .ok value := by
  rw [optionalRequest]
  split_ifs with htruthy
  · simp [htruthy]
  · simp [htruthy]

/-- A missing URL is as good as an empty one. -/
theorem optionalRequest_of_get (h : value.get key (.str []) = .ok member) :
    ∃ url, value.get key .pyNone = .ok url ∧ optionalRequest url = optionalRequest member := by
  rcases get_cases h .pyNone with hsame | ⟨rfl, hnone⟩
  · exact ⟨member, hsame, rfl⟩
  · exact ⟨.pyNone, hnone, rfl⟩

theorem soundRequests_eq {sound : PyValue} (hsound : raw.get (ascii "sound") (.dict []) = .ok sound)
    (hurl : sound.get (ascii "url") (.str []) = .ok member) :
    soundRequests raw = optionalRequest member := by
  obtain ⟨url, hget, heq⟩ := optionalRequest_of_get hurl
  have hfound : (do (← raw.get (ascii "sound") (.dict [])).get (ascii "url") .pyNone) =
      Except.ok url :=
    bind_eq_ok_iff.mpr ⟨sound, hsound, hget⟩
  rw [soundRequests, hfound, ← heq]

theorem hotspotRequests_eq (hicon : raw.get (ascii "iconUrl") (.str []) = .ok member) :
    hotspotRequests raw = optionalRequest member++dataRequests raw := by
  obtain ⟨url, hget, heq⟩ := optionalRequest_of_get hicon
  rw [hotspotRequests, hget, ← heq]

theorem dataRequests_eq {items : List PyValue}
    (hdata : raw.get (ascii "data") .pyNone = .ok (.list items)) :
    dataRequests raw = items.map (·.getItem (ascii "image")) := by
  rw [dataRequests, hdata]

theorem sceneRequests_eq {resource : SceneResource} (hid : raw.textItem py (ascii "id") = .ok id)
    (hresource : records.resources.lookup id = some resource) :
    sceneRequests py records.resources raw =
      .ok (.str resource.preview) :: (cubeRequests py id resource.cube++
        (.ok resource.thumb :: (soundRequests raw++hotspotsRequests raw))) := by
  have hfound : (do
      let sceneId ← raw.textItem py (ascii "id")
      return (sceneId, ← lookupItem records.resources sceneId)) = Except.ok (id, resource) := by
    refine bind_eq_ok_iff.mpr ⟨id, hid, bind_eq_ok_iff.mpr ⟨resource, ?_, rfl⟩⟩
    rw [lookupItem, hresource]
  rw [sceneRequests, hfound]

/-- All that is asked for. -/
def PageRecords.requests (py : PythonLibrary Xml) (records : PageRecords) :
    List (PyResult PyValue) :=
  records.scenes.flatMap (sceneRequests py records.resources)

/-- The requests by their origin: a scene or a hotspot. -/
theorem PageOf.mem_requests (h : PageOf py records output) :
    request ∈ records.requests py ↔
      (∃ raw ∈ records.scenes, ∃ id resource, raw.textItem py (ascii "id") = .ok id ∧
        records.resources.lookup id = some resource ∧ (request = .ok (.str resource.preview) ∨
          request ∈ cubeRequests py id resource.cube ∨ request = .ok resource.thumb ∨
          request ∈ soundRequests raw)) ∨
      ∃ raw ∈ records.hotspots, request ∈ hotspotRequests raw := by
  have hscene : ∀ raw ∈ records.scenes, ∃ id resource, raw.textItem py (ascii "id") = .ok id ∧
      records.resources.lookup id = some resource ∧
      hotspotsRequests raw = (sceneHotspots raw).flatMap hotspotRequests := by
    intro raw hraw
    obtain ⟨scene, -, hof⟩ := exists_right_of_mem h.scenes hraw
    obtain ⟨resource, hresource, -⟩ := hof.resource
    obtain ⟨raws, hraws, -⟩ := hof.hotspots
    refine ⟨_, resource, hof.id, hresource, ?_⟩
    rw [hotspotsRequests, sceneHotspots, hraws]
  constructor
  · intro hmem
    obtain ⟨raw, hraw, hrequest⟩ := List.mem_flatMap.mp hmem
    obtain ⟨id, resource, hid, hresource, hhotspots⟩ := hscene raw hraw
    rw [sceneRequests_eq hid hresource, hhotspots] at hrequest
    simp only [List.mem_cons, List.mem_append] at hrequest
    rcases hrequest with hpreview | hcube | hthumb | hsound | hhotspot
    · exact .inl ⟨raw, hraw, id, resource, hid, hresource, .inl hpreview⟩
    · exact .inl ⟨raw, hraw, id, resource, hid, hresource, .inr (.inl hcube)⟩
    · exact .inl ⟨raw, hraw, id, resource, hid, hresource, .inr (.inr (.inl hthumb))⟩
    · exact .inl ⟨raw, hraw, id, resource, hid, hresource, .inr (.inr (.inr hsound))⟩
    · obtain ⟨raw', hraw', hrequest⟩ := List.mem_flatMap.mp hhotspot
      exact .inr ⟨raw', List.mem_flatMap.mpr ⟨raw, hraw, hraw'⟩, hrequest⟩
  · rintro (⟨raw, hraw, id, resource, hid, hresource, hrequest⟩ | ⟨raw', hraw', hrequest⟩)
    · refine List.mem_flatMap.mpr ⟨raw, hraw, ?_⟩
      rw [sceneRequests_eq hid hresource]
      simp only [List.mem_cons, List.mem_append]
      rcases hrequest with hpreview | hcube | hthumb | hsound
      · exact .inl hpreview
      · exact .inr (.inl hcube)
      · exact .inr (.inr (.inl hthumb))
      · exact .inr (.inr (.inr (.inl hsound)))
    · obtain ⟨raw, hraw, hhotspot⟩ := List.mem_flatMap.mp hraw'
      obtain ⟨id, resource, hid, hresource, hhotspots⟩ := hscene raw hraw
      refine List.mem_flatMap.mpr ⟨raw, hraw, ?_⟩
      rw [sceneRequests_eq hid hresource, hhotspots]
      simp only [List.mem_cons, List.mem_append]
      exact .inr (.inr (.inr (.inr (List.mem_flatMap.mpr ⟨raw', hhotspot, hrequest⟩))))

end Requests

section Outputs

variable {py : PythonLibrary Xml} {records : PageRecords} {output : MigrationOutput}
  {value : PyValue} {url : Bytes}

/-- The asset of a URL is asked for. -/
def Requested (py : PythonLibrary Xml) (records : PageRecords) (url : Bytes) : Prop :=
  ∃ value, .ok value ∈ records.requests py ∧ assetUrl py value = .ok url

theorem truthy_of_assetUrl (hurl : assetUrl py value = .ok url) (hne : url ≠ []) :
    value.truthy = true := by
  cases htruthy : value.truthy with
  | true => rfl
  | false =>
    have hnil : assetUrl py value = .ok [] := by
      refine bind_eq_ok_iff.mpr ⟨[], ?_, rfl⟩
      exact sourceAssetPath_eq_ok_iff.mpr (.inl ⟨htruthy, rfl⟩)
    exact absurd (Except.ok.inj (hurl.symm.trans hnil)) hne

theorem PageOf.scene_requested (h : PageOf py records output) {scene : MigratedScene}
    (hscene : scene ∈ output.scenes) :
    Requested py records scene.previewUrl ∧ Requested py records scene.thumbnailUrl ∧
      (scene.musicUrl ≠ [] → Requested py records scene.musicUrl) ∧
      ∃ resource, records.resources.lookup scene.sceneId = some resource ∧
        assetUrl py (.str resource.cube) = .ok scene.cubeUrl ∧
        ∀ request ∈ cubeRequests py scene.sceneId resource.cube, request ∈ records.requests py := by
  obtain ⟨raw, hraw, hof⟩ := exists_left_of_mem h.scenes hscene
  obtain ⟨resource, hresource, hpreview, hcube, hthumbnail⟩ := hof.resource
  obtain ⟨sound, hsound, ⟨url, hurl, hmusic⟩, -⟩ := hof.sound
  have hmem : ∀ request, (request = .ok (.str resource.preview) ∨
      request ∈ cubeRequests py scene.sceneId resource.cube ∨ request = .ok resource.thumb ∨
      request ∈ soundRequests raw) → request ∈ records.requests py :=
    fun request hrequest =>
      h.mem_requests.mpr (.inl ⟨raw, hraw, _, resource, hof.id, hresource, hrequest⟩)
  refine ⟨⟨_, hmem _ (.inl rfl), hpreview⟩, ⟨_, hmem _ (.inr (.inr (.inl rfl))), hthumbnail⟩, ?_,
    resource, hresource, hcube, fun request hrequest => hmem _ (.inr (.inl hrequest))⟩
  intro hne
  refine ⟨url, hmem _ (.inr (.inr (.inr ?_))), hmusic⟩
  rw [soundRequests_eq hsound hurl]
  exact mem_optionalRequest.mpr ⟨truthy_of_assetUrl hmusic hne, rfl⟩

theorem PageOf.icon_requested (h : PageOf py records output) {hotspot : NormalizedHotspot}
    (hhotspot : hotspot ∈ output.hotspots) (hne : hotspot.iconUrl ≠ []) :
    Requested py records hotspot.iconUrl := by
  obtain ⟨raw, hraw, hof⟩ := exists_left_of_mem h.hotspots hhotspot
  obtain ⟨icon, hicon, hurl⟩ := hof.iconUrl
  refine ⟨icon, h.mem_requests.mpr (.inr ⟨raw, hraw, ?_⟩), hurl⟩
  rw [hotspotRequests_eq hicon]
  exact List.mem_append_left _ (mem_optionalRequest.mpr ⟨truthy_of_assetUrl hurl hne, rfl⟩)

theorem PageOf.image_requested (h : PageOf py records output) {artwork : MigratedArtwork}
    (hartwork : artwork ∈ output.artworks) {image : Bytes} (himage : image ∈ artwork.images) :
    Requested py records image := by
  obtain ⟨signatures, hcollected⟩ := h.collected
  obtain ⟨raw, hraw, hof, -⟩ := hcollected.artworks artwork hartwork
  obtain ⟨item, items, hdata, -, -, hurls⟩ := hof.data
  obtain ⟨item', hitem', value, hvalue, hurl⟩ := exists_left_of_mem hurls himage
  obtain ⟨hotspot, -, hof'⟩ := exists_right_of_mem h.hotspots hraw
  obtain ⟨icon, hicon, -⟩ := hof'.iconUrl
  refine ⟨value, h.mem_requests.mpr (.inr ⟨raw, hraw, ?_⟩), hurl⟩
  rw [hotspotRequests_eq hicon, dataRequests_eq hdata]
  exact List.mem_append_right _ (List.mem_map.mpr ⟨item', hitem', hvalue⟩)

end Outputs

section Plain

variable {py : PythonLibrary Xml} {records : PageRecords} {output : MigrationOutput}
  {value : PyValue} {cube id path : Bytes} {request : PyResult PyValue}

theorem requestPath_ok (value : PyValue) : requestPath py (.ok value) = sourceAssetPath py value :=
  rfl

theorem plain_of_fitUrl (hfit : FitUrl py value) (hpath : requestPath py (.ok value) = .ok path) :
    ∃ name rest, AssetFilePath path name rest := by
  obtain ⟨path', name, rest, hpath', hplain, -⟩ := fitUrl_iff.mp hfit
  rw [requestPath_ok] at hpath
  rw [Except.ok.inj (hpath.symm.trans hpath')]
  exact ⟨name, rest, hplain⟩

theorem cubeRequests_eq {name : Bytes × Bytes} {before after : Bytes}
    (hpath : sourceAssetPath py (.str cube) = .ok path) (hcube : CubePath path name before after) :
    cubeRequests py id cube =
      cubeFaces.map (fun face => .ok (.str (replacePlaceholder face path))) := by
  rw [cubeRequests, hpath]
  exact if_neg (not_not.mpr hcube.placeholderCount)

/-- A face may complete the name of another directory; the path is plain there as well. -/
theorem plain_of_cubeRequest (hfit : FitCubeUrl py cube)
    (hrequest : request ∈ cubeRequests py id cube) (hpath : requestPath py request = .ok path) :
    ∃ name rest, AssetFilePath path name rest := by
  obtain ⟨cubePath, name, before, after, hcubePath, hcube⟩ := cubeUrl_iff.mp hfit
  rw [cubeRequests_eq hcubePath hcube] at hrequest
  obtain ⟨face, hface, rfl⟩ := List.mem_map.mp hrequest
  obtain ⟨rest, hplain, -⟩ := hcube.face_plain hface
  rw [requestPath_ok] at hpath
  rcases sourceAssetPath_eq_ok_iff.mp hpath with ⟨hfalsy, -⟩ | ⟨text, htext, -, hlocal⟩
  · obtain ⟨tail, -, heq, -⟩ := hplain.exists_tail
    simp [truthy, heq] at hfalsy
  · cases htext
    exact hplain.localPath hlocal

/-- The requests of fit records are for plain paths. -/
theorem PageOf.plain (h : PageOf py records output)
    (hfit : FitRecords py (FitCubeUrl py) records) (hrequest : request ∈ records.requests py)
    (hpath : requestPath py request = .ok path) : ∃ name rest, AssetFilePath path name rest := by
  rcases h.mem_requests.mp hrequest with
    ⟨raw, hraw, id, resource, hid, hresource, hrequest⟩ | ⟨raw, hraw, hrequest⟩
  · have hscene := hfit.scenes raw hraw
    have hassets := hscene.resource id resource hid hresource
    rcases hrequest with rfl | hcube | rfl | hsound
    · exact plain_of_fitUrl hassets.preview hpath
    · exact plain_of_cubeRequest hassets.cube hcube hpath
    · exact plain_of_fitUrl hassets.thumb hpath
    · obtain ⟨sound, hget, ⟨url, hurl, hurlFit⟩, -⟩ := hscene.sound
      rw [soundRequests_eq hget hurl] at hsound
      obtain ⟨-, rfl⟩ := mem_optionalRequest.mp hsound
      exact plain_of_fitUrl hurlFit hpath
  · obtain ⟨icon, hicon, hiconFit⟩ := (hfit.hotspots raw hraw).iconUrl
    rw [hotspotRequests_eq hicon] at hrequest
    rcases List.mem_append.mp hrequest with hrequest | hrequest
    · obtain ⟨-, rfl⟩ := mem_optionalRequest.mp hrequest
      exact plain_of_fitUrl hiconFit hpath
    · rw [dataRequests] at hrequest
      split at hrequest
      · rename_i items hdata
        obtain ⟨item, hitem, rfl⟩ := List.mem_map.mp hrequest
        obtain ⟨image, himage, himageFit⟩ := (hfit.artworks raw hraw items hdata).images item hitem
        rw [himage] at hpath
        exact plain_of_fitUrl himageFit hpath
      · simp at hrequest
      · obtain rfl := List.mem_singleton.mp hrequest
        cases hpath

end Plain

section Files

variable {m : Migration} {fs : FileSystem} {staticRoot : Bytes} {top : CanonicalPath} {tree : Tree}
  {done : List Bytes} {records : PageRecords} {url cube id : Bytes}

/-- The paths that a migration of these records has copied. -/
def Copied (m : Migration) (records : PageRecords) (done : List Bytes) : Prop :=
  ∀ path, path ∈ done ↔
    path ≠ [] ∧ ∃ request ∈ records.requests m.py, requestPath m.py request = .ok path

theorem asset_of_requested (hserved : m.Served fs staticRoot top tree)
    (hfiles : m.FilesAre done tree) (hdone : Copied m records done)
    (hrequested : Requested m.py records url) (hasset : AssetPath url) : Asset fs top url := by
  obtain ⟨value, hvalue, hurl⟩ := hrequested
  obtain ⟨path, name, rest, hpath, hplain, hplainUrl⟩ := fitUrl_iff.mp ⟨url, hurl, hasset⟩
  obtain rfl := Except.ok.inj (hurl.symm.trans hplainUrl)
  obtain ⟨tail, -, heq, -⟩ := hplain.exists_tail
  refine ⟨hasset, (hserved.namesAsset_iff hfiles hplain).mpr ((hdone path).mpr ⟨?_, _, hvalue, hpath⟩)⟩
  rw [heq]
  simp

theorem mem_cubeFaces : ∀ face ∈ faces, face ∈ cubeFaces := by decide +kernel

theorem mem_faces : ∀ face ∈ cubeFaces, face ∈ faces := by decide +kernel

/-- The faces of a cube are served exactly if they stay in their place. -/
theorem cubeAsset_iff_fitCube (hserved : m.Served fs staticRoot top tree)
    (hfiles : m.FilesAre done tree) (hdone : Copied m records done)
    (hurl : assetUrl m.py (.str cube) = .ok url)
    (hrequests : ∀ request ∈ cubeRequests m.py id cube, request ∈ records.requests m.py) :
    CubeAsset fs top url ↔ FitCube m.py cube := by
  constructor
  · rintro ⟨hasset, before, after, hcut, hbefore, hafter, hnames⟩
    have hfit : FitCubeUrl m.py cube := ⟨url, hurl, hasset, before, after, hcut, hbefore, hafter⟩
    refine ⟨hfit, fun path hpath face hface => ?_⟩
    obtain ⟨path', name, start, tail, hpath', hcube⟩ := cubeUrl_iff.mp hfit
    obtain rfl := Except.ok.inj (hpath.symm.trans hpath')
    obtain ⟨rest, hplain, hplainUrl⟩ := hcube.face_plain hface
    have hsame : url = ascii "/assets"++slash :: (name.2++slash :: (start++(placeholder++tail))) :=
      Except.ok.inj (hurl.symm.trans (assetUrl_of_path hcube.known (hcube.eq ▸ hpath)))
    have hface' : before++face :: after = plainUrl name rest := by
      rw [hplainUrl, ← hcube.replace_url face, ← hsame, hcut, replacePlaceholder_append hbefore]
    have hnamed := hnames face (mem_faces face hface)
    rw [hface', hserved.namesAsset_iff hfiles hplain, hdone] at hnamed
    obtain ⟨hne, request, -, hrequest⟩ := hnamed
    exact Migration.localPath_of_request hrequest hne
  · rintro ⟨hfit, hlocal⟩
    obtain ⟨path, name, before, after, hpath, hcube⟩ := cubeUrl_iff.mp hfit
    obtain rfl : url = _ :=
      Except.ok.inj (hurl.symm.trans (assetUrl_of_path hcube.known (hcube.eq ▸ hpath)))
    obtain ⟨-, -, -, hpercent, -⟩ := assetNames_valid name hcube.known
    refine ⟨hcube.asset, ascii "/assets"++slash :: (name.2++slash :: before), after, by simp, ?_,
      hcube.none_after, ?_⟩
    · simp [percent_notMem_assets, percent_ne_slash, hpercent, hcube.none_before]
    · intro face hface
      obtain ⟨rest, hplain, hplainUrl⟩ := hcube.face_plain (mem_cubeFaces face hface)
      have hface' : (ascii "/assets"++slash :: (name.2++slash :: before))++face :: after =
          plainUrl name rest := by
        rw [hplainUrl]
        simp
      obtain ⟨tail, -, heq, -⟩ := hplain.exists_tail
      have hne : replacePlaceholder face path ≠ [] := by
        rw [heq]
        simp
      rw [hface', hserved.namesAsset_iff hfiles hplain, hdone]
      refine ⟨hne, .ok (.str (replacePlaceholder face path)), hrequests _ ?_, ?_⟩
      · rw [cubeRequests_eq hpath hcube]
        exact List.mem_map_of_mem (mem_cubeFaces face hface)
      · rw [requestPath_ok]
        exact sourceAssetPath_eq_ok_iff.mpr
          (.inr ⟨_, rfl, hne, hlocal path hpath face (mem_cubeFaces face hface)⟩)

/-- Everything that is asked for is in the source. -/
def Sourced (m : Migration) (records : PageRecords) : Prop :=
  ∀ request ∈ records.requests m.py, ∃ path, requestPath m.py request = .ok path ∧
    (path ≠ [] → m.HasSource path)

theorem zero_notMem_assetUrl {name : Bytes × Bytes} {tail : Bytes} (hname : name ∈ assetNames)
    (h : 0 ∉ tail) : 0 ∉ ascii "/assets"++slash :: (name.2++slash :: tail) := by
  have hzero : ∀ name ∈ assetNames, 0 ∉ ascii "/assets"++slash :: (name.2++[slash]) := by
    decide
  have hsplit : ascii "/assets"++slash :: (name.2++slash :: tail) =
      (ascii "/assets"++slash :: (name.2++[slash]))++tail := by simp
  rw [hsplit, List.mem_append, not_or]
  exact ⟨hzero name hname, h⟩

/-- The source path of a URL. -/
theorem exists_path_of_assetUrl {py : PythonLibrary Xml} {value : PyValue}
    (hurl : assetUrl py value = .ok url) (hne : url ≠ []) :
    ∃ name ∈ assetNames, ∃ tail, sourceAssetPath py value = .ok (slash :: (name.1++slash :: tail)) ∧
      localPath (slash :: (name.1++slash :: tail)) = some (slash :: (name.1++slash :: tail)) ∧
      url = ascii "/assets"++slash :: (name.2++slash :: tail) := by
  obtain ⟨path, hpath, hrest⟩ := bind_eq_ok_iff.mp hurl
  rcases sourceAssetPath_eq_ok_iff.mp hpath with ⟨-, rfl⟩ | ⟨text, -, -, hlocal⟩
  · rw [if_pos rfl] at hrest
    exact absurd (pure_eq_ok_iff.mp hrest).symm hne
  · obtain ⟨hagain, -, name, hname, tail, rfl⟩ := localPath_eq_some hlocal
    exact ⟨name, hname, tail, hpath, hagain,
      Except.ok.inj (hurl.symm.trans (assetUrl_of_path hname hpath))⟩

theorem Requested.zero_notMem (h : Requested m.py records url) (hsources : Sourced m records)
    (hne : url ≠ []) : 0 ∉ url := by
  obtain ⟨value, hvalue, hurl⟩ := h
  obtain ⟨name, hname, tail, hpath, hlocal, rfl⟩ := exists_path_of_assetUrl hurl hne
  obtain ⟨path, hpath', hsource⟩ := hsources _ hvalue
  obtain rfl := Except.ok.inj (hpath.symm.trans hpath')
  have hzero := (hsource (by simp)).zero_notMem hlocal
  exact zero_notMem_assetUrl hname fun hmem => hzero (by simp [hmem])

/-- The face `b` stays in its place, so that its file shows that there is no NUL. -/
theorem zero_notMem_cube {before after : Bytes} (hsources : Sourced m records)
    (hurl : assetUrl m.py (.str cube) = .ok url)
    (hrequests : ∀ request ∈ cubeRequests m.py id cube, request ∈ records.requests m.py)
    (hcut : url = before++(placeholder++after)) (hbefore : percent ∉ before) : 0 ∉ url := by
  have hne : url ≠ [] := by
    rw [hcut]
    simp [placeholder_append]
  obtain ⟨name, hname, tail, hpath, hlocal, rfl⟩ := exists_path_of_assetUrl hurl hne
  obtain ⟨start, rfl, rfl⟩ := exists_cut_of_placeholder hname hcut
  obtain ⟨⟨-, hpercent, -⟩, -⟩ := assetNames_valid name hname
  have hsplit : slash :: (name.1++slash :: (start++(placeholder++after))) =
      (slash :: (name.1++slash :: start))++(placeholder++after) := by simp
  have hnone : percent ∉ slash :: (name.1++slash :: start) := by
    have hstart : percent ∉ start := fun hmem => hbefore (by simp [hmem])
    simp [percent_ne_slash, hpercent, hstart]
  rw [hsplit] at hpath hlocal
  have hrequest : .ok (.str ((slash :: (name.1++slash :: start))++98 :: after)) ∈
      records.requests m.py := by
    refine hrequests _ ?_
    by_cases hcount : placeholderCount
        ((slash :: (name.1++slash :: start))++(placeholder++after)) = 1
    · rw [cubeRequests, hpath]
      dsimp only
      rw [if_neg (not_not.mpr hcount)]
      refine List.mem_map.mpr ⟨98, by decide, ?_⟩
      rw [replacePlaceholder_append hnone]
    · -- Otherwise the requests would have ended with an error.
      have herror : .error (.valueError (ascii
          "cube URL must contain exactly one %s placeholder for scene "++id)) ∈
          cubeRequests m.py id cube := by
        rw [cubeRequests, hpath]
        dsimp only
        rw [if_pos hcount]
        exact List.mem_singleton_self _
      obtain ⟨path, hfails, -⟩ := hsources _ (hrequests _ herror)
      cases hfails
  obtain ⟨path, hface, hsource⟩ := hsources _ hrequest
  have hplace := localPath_face hlocal
  obtain rfl : (slash :: (name.1++slash :: start))++98 :: after = path := by
    refine Except.ok.inj (Eq.trans ?_ hface)
    exact (sourceAssetPath_eq_ok_iff.mpr (.inr ⟨_, rfl, by simp, hplace⟩)).symm
  have hzero := (hsource (by simp)).zero_notMem hplace
  refine zero_notMem_assetUrl hname fun hmem => hzero ?_
  simp only [List.mem_append, placeholder_append, List.mem_cons] at hmem ⊢
  rcases hmem with hmem | hmem | hmem | hmem
  · exact .inl (.inr (.inr (.inr hmem)))
  · exact absurd hmem (by decide)
  · exact absurd hmem (by decide)
  · exact .inr (.inr hmem)

end Files

end JingjieAR
