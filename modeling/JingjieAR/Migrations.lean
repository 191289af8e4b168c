import JingjieAR.CatalogValidation
import JingjieAR.MigratedAssets
import JingjieAR.MigratedExhibitions
import JingjieAR.MigrationFailures

/-! The result of a migration and the server that loads it. -/
namespace JingjieAR

open PyValue Throwing
open ExhibitionCatalog (Sound assetUrls cubeUrls mem_urls_iff load load_document_iff sound_iff)

namespace Migration

variable {m : Migration} {fs : FileSystem} {staticRoot url : Bytes} {top : CanonicalPath}
  {tree : Tree} {done : List Bytes} {records : PageRecords} {output : MigrationOutput}
  {catalog : ExhibitionCatalog}

/-- Every URL of the catalogue is one that the migration has asked for. -/
theorem requested_of_assetUrls (hpage : PageOf m.py records output)
    (hmatches : CatalogMatches output catalog) (hurl : url ∈ catalog.assetUrls) (hne : url ≠ []) :
    Requested m.py records url := by
  rcases List.mem_append.mp hurl with hurl | hurl
  · obtain ⟨info, hinfo, hurl⟩ := List.mem_flatMap.mp hurl
    obtain ⟨artwork, hartwork, hdescribes⟩ := exists_left_of_mem hmatches.artworks hinfo
    obtain ⟨-, -, -, himages⟩ := describesArtwork_iff.mp hdescribes
    exact hpage.image_requested hartwork (himages ▸ hurl)
  · obtain ⟨info, hinfo, hurl⟩ := List.mem_flatMap.mp hurl
    obtain ⟨scene, hscene, hsame⟩ := exists_left_of_mem hmatches.scenes hinfo
    obtain ⟨hpreview, hthumbnail, hmusic, -⟩ := hpage.scene_requested hscene
    simp only [List.mem_cons, List.mem_map] at hurl
    rcases hurl with rfl | rfl | rfl | ⟨hotspotInfo, hhotspot, rfl⟩
    · exact hsame.previewUrl ▸ hpreview
    · exact hsame.thumbnailUrl ▸ hthumbnail
    · rw [hsame.musicUrl] at hne ⊢
      exact hmusic hne
    · obtain ⟨hotspot, hmem, hdescribes⟩ := exists_left_of_mem hsame.hotspots hhotspot
      obtain ⟨-, -, hicon, -⟩ := describesHotspot_iff.mp hdescribes
      rw [hicon] at hne ⊢
      exact hpage.icon_requested (List.mem_flatMap.mpr ⟨scene, hscene, hmem⟩) hne

/-- The URL of a cube comes from the resource of a scene. -/
theorem exists_cube_of_cubeUrls (hpage : PageOf m.py records output)
    (hmatches : CatalogMatches output catalog) (hurl : url ∈ catalog.cubeUrls) :
    ∃ raw ∈ records.scenes, ∃ id resource, raw.textItem m.py (ascii "id") = .ok id ∧
      records.resources.lookup id = some resource ∧ assetUrl m.py (.str resource.cube) = .ok url ∧
      ∀ request ∈ cubeRequests m.py id resource.cube, request ∈ records.requests m.py := by
  obtain ⟨info, hinfo, rfl⟩ := List.mem_map.mp hurl
  obtain ⟨scene, hscene, hsame⟩ := exists_left_of_mem hmatches.scenes hinfo
  obtain ⟨raw, hraw, hof⟩ := exists_left_of_mem hpage.scenes hscene
  obtain ⟨-, -, -, resource, hresource, hcube, hrequests⟩ := hpage.scene_requested hscene
  exact ⟨raw, hraw, _, resource, hof.id, hresource, hsame.cubeUrl ▸ hcube, hrequests⟩

theorem FitRecords.mono {py : PythonLibrary Xml} {cube cube' : Bytes → Prop}
    (h : FitRecords py cube records)
    (hcube : ∀ raw ∈ records.scenes, ∀ id resource, raw.textItem py (ascii "id") = .ok id →
      records.resources.lookup id = some resource → cube resource.cube → cube' resource.cube) :
    FitRecords py cube' records := by
  refine { h with scenes := fun raw hraw => ?_ }
  have hscene := h.scenes raw hraw
  refine { hscene with resource := fun id resource hid hresource => ?_ }
  have hfit := hscene.resource id resource hid hresource
  exact { hfit with cube := hcube raw hraw id resource hid hresource hfit.cube }

/-- No URL of a catalogue that the server takes has NUL in it, since the source has files for
all of them. -/
theorem zero_notMem_of_taken (hpage : PageOf m.py records output)
    (hmatches : CatalogMatches output catalog) (hsources : Sourced m records)
    (hsound : catalog.Sound (TakenAsset fs top) (TakenCube fs top)) :
    ∀ url ∈ catalog.urls, 0 ∉ url := by
  intro url hurl
  rcases mem_urls_iff.mp hurl with hasset | hcube
  · have htaken := hsound.assetUrl hasset
    have hne : url ≠ [] := by
      rintro rfl
      exact absurd htaken.1 (by decide)
    exact (requested_of_assetUrls hpage hmatches hasset hne).zero_notMem hsources hne
  · obtain ⟨-, before, after, hcut, hbefore, -⟩ := hsound.cubeUrl hcube
    obtain ⟨raw, -, id, resource, -, -, hassetUrl, hrequests⟩ :=
      exists_cube_of_cubeUrls hpage hmatches hcube
    exact zero_notMem_cube hsources hassetUrl hrequests hcut hbefore

/-- The faces that stay in their place are the ones that are served. -/
theorem fitRecords_iff (hserved : m.Served fs staticRoot top tree)
    (hpage : PageOf m.py records output) (hmatches : CatalogMatches output catalog)
    (hfiles : m.FilesAre done tree) (hdone : Copied m records done)
    (hfit : FitRecords m.py (FitCubeUrl m.py) records)
    (hsound : catalog.Sound AssetPath CubeUrl) :
    FitRecords m.py (FitCube m.py) records ↔ catalog.Sound (Asset fs top) (CubeAsset fs top) := by
  constructor
  · intro hfaces
    refine hsound.mono ?_ ?_
    · intro url hurl hasset
      have hne : url ≠ [] := by
        rintro rfl
        obtain ⟨segments, -, hnil, -⟩ := hasset
        simp [ascii] at hnil
      exact asset_of_requested hserved hfiles hdone
        (requested_of_assetUrls hpage hmatches hurl hne) hasset
    · intro url hurl _
      obtain ⟨raw, hraw, id, resource, hid, hresource, hassetUrl, hrequests⟩ :=
        exists_cube_of_cubeUrls hpage hmatches hurl
      have hcube := ((hfaces.scenes raw hraw).resource id resource hid hresource).cube
      exact (cubeAsset_iff_fitCube hserved hfiles hdone hassetUrl hrequests).mpr hcube
  · intro hnamed
    refine FitRecords.mono hfit fun raw hraw id resource hid hresource _ => ?_
    obtain ⟨scene, hscene, hof⟩ := exists_right_of_mem hpage.scenes hraw
    obtain rfl := Except.ok.inj (hof.id.symm.trans hid)
    obtain ⟨-, -, -, resource', hresource', hassetUrl, hrequests⟩ := hpage.scene_requested hscene
    obtain rfl := Option.some.inj (hresource.symm.trans hresource')
    obtain ⟨info, hinfo, hsame⟩ := exists_right_of_mem hmatches.scenes hscene
    have hcube := hnamed.cubeUrl (List.mem_map_of_mem hinfo)
    rw [hsame.cubeUrl] at hcube
    exact (cubeAsset_iff_fitCube hserved hfiles hdone hassetUrl hrequests).mp hcube

/-- A root has one canonical form. -/
theorem taken_congr {top' : CanonicalPath} (h : RootOf fs staticRoot top)
    (h' : RootOf fs staticRoot top') :
    TakenAsset fs top' = TakenAsset fs top ∧ TakenCube fs top' = TakenCube fs top := by
  have htext : top'.text = top.text := Option.some.inj (h'.resolves.symm.trans h.resolves)
  constructor
  · funext url
    rw [TakenAsset, TakenAsset, htext]
  · funext url
    rw [TakenCube, TakenCube, htext]

/-- A number that JSON does not have ends the parsing. -/
theorem load_config_iff {value : PyValue} {configPath what : Bytes} :
    load fs configPath staticRoot (value.config what) = .ok catalog ↔
      value.finite = true ∧ load fs configPath staticRoot (.document value.toJson) = .ok catalog := by
  rw [PyValue.config]
  split_ifs with hfinite
  · simp [hfinite]
  · simp [load, hfinite]

/-- The server takes the result of a migration exactly if the page is fit. -/
theorem loads_iff_fit (before : FileTree) (left : Option ℕ) (disk : Disk) (configPath what : Bytes)
    (hcompletes : exec m.migrate ⟨before.entries, left⟩ = (.ok (), disk)) (hdoc : fs.Documented)
    (hslash : fs.SlashNamesDirectory) (hserved : m.Served fs staticRoot top disk.tree) :
    ∃ value, disk.tree m.paths.config.names = some (.file (.json value)) ∧
      ((∃ catalog, load fs configPath staticRoot (value.config what) = .ok catalog) ↔ m.Fit) := by
  obtain ⟨plan, disk₁, hplan, hcopies, hconfig, hsame⟩ := exec_migrate_ok hcompletes
  obtain ⟨records, hrecords, hscenes, hresources, hpage⟩ := plan_ok hplan
  rw [hscenes, hresources] at hcopies
  have hsources : Sourced m records := hasSource_of_copyAssets hcopies
  have hfit_iff : m.Fit ↔ FitRecords m.py (FitCube m.py) records := by
    constructor
    · rintro ⟨records', hrecords', hfit⟩
      rwa [Except.ok.inj (hrecords.symm.trans hrecords')]
    · exact fun hfit => ⟨records, hrecords, hfit⟩
  -- Both directions come to know that all paths are plain, and so which files there are.
  have hexact : FitRecords m.py (FitCubeUrl m.py) records → ∀ catalog,
      CatalogMatches plan.output catalog → catalog.Sound AssetPath CubeUrl →
      (FitRecords m.py (FitCube m.py) records ↔
        catalog.Sound (Asset fs top) (CubeAsset fs top)) := by
    intro hfit catalog hmatches hsound
    have hclosed : Tree.Closed before.entries := before.closed
    obtain ⟨done, hfiles, hdone⟩ := filesAre_of_copyAssets hclosed
      (fun request hrequest path hpath _ => hpage.plain hfit hrequest hpath) hcopies
    exact fitRecords_iff hserved hpage hmatches (hfiles.congr hsame) hdone hfit hsound
  refine ⟨plan.output.toPy, hconfig, ?_⟩
  rw [hfit_iff]
  constructor
  · rintro ⟨catalog, hloads⟩
    obtain ⟨hfinite, hdocument⟩ := load_config_iff.mp hloads
    obtain ⟨top', htop', hdescribes, htaken⟩ := (load_document_iff configPath hdoc).mp hdocument
    obtain ⟨hassetEq, hcubeEq⟩ := taken_congr hserved.root htop'
    rw [hassetEq, hcubeEq] at htaken
    have hmatches := describesCatalog_iff.mp hdescribes
    have hnul := zero_notMem_of_taken hpage hmatches hsources htaken
    have hnamed := (sound_iff hdoc hslash hserved.root.below).mpr ⟨htaken, hnul⟩
    have hsound : catalog.Sound AssetPath CubeUrl := by
      refine hnamed.mono (fun url _ hasset => hasset.1) ?_
      rintro url - ⟨hasset, before', after, hcut, hbefore, hafter, -⟩
      exact ⟨hasset, before', after, hcut, hbefore, hafter⟩
    have hfit := fitRecords_of_sound hpage hfinite hmatches hsound
    exact (hexact hfit catalog hmatches hsound).mpr hnamed
  · intro hfaces
    have hfit : FitRecords m.py (FitCubeUrl m.py) records :=
      FitRecords.mono hfaces fun _ _ _ _ _ _ hcube => hcube.1
    obtain ⟨hfinite, catalog, hmatches, hsound⟩ := exists_sound_of_fitRecords hpage hfit
    have hnamed := (hexact hfit catalog hmatches hsound).mp hfaces
    obtain ⟨htaken, -⟩ := (sound_iff hdoc hslash hserved.root.below).mp hnamed
    refine ⟨catalog, load_config_iff.mpr ⟨hfinite, ?_⟩⟩
    exact (load_document_iff configPath hdoc).mpr
      ⟨top, hserved.root, describesCatalog_iff.mpr hmatches, htaken⟩

end Migration

section Trees

/-- A file system with the entries of a tree and a root that they are in. -/
def treeFileSystem (top : CanonicalPath) (tree : Tree) : FileSystem where
  realpath path :=
    let names := pathSegments (path.drop 1) []
    if (names ≠ [] ∧ joinNames slash names = path ∧ ∀ name ∈ names, name ≠ [] ∧ slash ∉ name ∧
        0 ∉ name ∧ name ≠ [dot] ∧ name ≠ [dot, dot]) ∧
        (names = top.names ∨ (tree names).isSome = true) then some path
    else none
  stat path :=
    let names := pathSegments (path.drop 1) []
    if names = top.names ∨ tree names = some .directory then some ⟨.directory, 2, 4096, 0⟩
    else if (tree names).isSome = true then some ⟨.regular, 1, 4, 0⟩
    else none

variable (top : CanonicalPath) (tree : Tree)

theorem realpath_tree {path resolved : Bytes}
    (h : (treeFileSystem top tree).realpath path = some resolved) :
    resolved = path ∧ ∃ p : CanonicalPath, p.text = path ∧ p.names ≠ [] := by
  simp only [treeFileSystem, Option.ite_none_right_eq_some] at h
  obtain ⟨⟨⟨hne, hjoin, hwf⟩, -⟩, hpath⟩ := h
  refine ⟨(Option.some.inj hpath).symm, ⟨_, hwf⟩, ?_, hne⟩
  rw [CanonicalPath.text_eq_joinNames hne]
  exact hjoin

theorem treeFileSystem_documented : (treeFileSystem top tree).Documented := by
  refine ⟨?_, ?_⟩
  · intro path resolved h
    obtain ⟨rfl, p, hp, -⟩ := realpath_tree top tree h
    exact ⟨p, hp.symm⟩
  · intro path resolved h
    obtain ⟨rfl, -⟩ := realpath_tree top tree h
    exact h

theorem slashNamesDirectory_tree : (treeFileSystem top tree).SlashNamesDirectory := by
  intro path resolved st hlast hresolves _
  obtain ⟨-, p, rfl, hne⟩ := realpath_tree top tree hresolves
  rw [CanonicalPath.text_eq_joinNames hne] at hlast
  have hnames : ∀ name ∈ p.names, slash ∉ name ∧ name ≠ [] :=
    fun name hname => ⟨(p.wf name hname).2.1, (p.wf name hname).1⟩
  exact absurd hlast (getLast?_joinNames hnames hne)

theorem pathSegments_text {p : CanonicalPath} (h : p.names ≠ []) :
    pathSegments (p.text.drop 1) [] = p.names := by
  obtain ⟨name, names, hcons⟩ := List.exists_cons_of_ne_nil h
  rw [CanonicalPath.text_eq_joinNames h, hcons, joinNames_cons, List.drop_one, List.tail_cons]
  refine pathSegments_joinNames fun s hs => ?_
  have hwf := p.wf s (hcons ▸ hs)
  exact ⟨hwf.2.1, hwf.1⟩

theorem realpath_tree_text {p : CanonicalPath} (h : p.names ≠ []) :
    (treeFileSystem top tree).realpath p.text =
      if p.names = top.names ∨ (tree p.names).isSome = true then some p.text else none := by
  have hvalid : p.names ≠ [] ∧ joinNames slash p.names = p.text ∧ ∀ name ∈ p.names, name ≠ [] ∧
      slash ∉ name ∧ 0 ∉ name ∧ name ≠ [dot] ∧ name ≠ [dot, dot] :=
    ⟨h, (CanonicalPath.text_eq_joinNames h).symm, p.wf⟩
  simp only [treeFileSystem, pathSegments_text h]
  exact if_congr (and_iff_right hvalid) rfl rfl

/-- The tree is served below its root. -/
theorem served_tree {m : Migration} (hbelow : top.names ≠ [])
    (hassets : m.paths.assets.names = top.names++[ascii "assets"]) :
    m.Served (treeFileSystem top tree) top.text top tree := by
  have hother : ∀ names, m.InAssets names → names ≠ [] ∧ names ≠ top.names := by
    rintro names ⟨directory, -, more, rfl⟩
    rw [hassets]
    exact ⟨by simp, by simp⟩
  refine ⟨⟨?_, ⟨⟨.directory, 2, 4096, 0⟩, ?_, rfl⟩, hbelow⟩, hassets, ?_, ?_⟩
  · rw [cString_eq top.zero_notMem_text, realpath_tree_text top tree hbelow, if_pos (.inl rfl)]
  · simp only [treeFileSystem, pathSegments_text hbelow, true_or, if_true]
  · intro p entry hin hentry
    obtain ⟨hne, hnot⟩ := hother p.names hin
    refine ⟨?_, ?_⟩
    · rw [realpath_tree_text top tree hne, if_pos (.inr (by rw [hentry, Option.isSome_some]))]
    · simp only [treeFileSystem, pathSegments_text hne, hnot, hentry, false_or]
      cases entry with
      | directory => exact ⟨⟨.directory, 2, 4096, 0⟩, rfl, by simp [FileStat.regular]⟩
      | file content => exact ⟨⟨.regular, 1, 4, 0⟩, by simp, by simp [FileStat.regular]⟩
  · intro p hin hnone
    obtain ⟨hne, hnot⟩ := hother p.names hin
    rw [realpath_tree_text top tree hne, if_neg (by simp [hnot, hnone])]

end Trees

section Sample

/-- The page with the files of all the assets that it refers to. -/
def completeEntries (sound : Bytes) : List (List Bytes × Entry) :=
  [([], .directory), ([ascii "src"], .directory),
    ([ascii "src", ascii "index.html"], .file (.bytes (samplePage sound))),
    ([ascii "src", ascii "assets"], .directory),
    ([ascii "src", ascii "assets", ascii "pano"], .directory),
    ([ascii "src", ascii "assets", ascii "music"], .directory),
    ([ascii "src", ascii "assets", ascii "music", ascii "hall.mp3"], .file (.bytes []))]++
    ["preview.jpg", "thumb.jpg", "b.jpg", "d.jpg", "f.jpg", "l.jpg", "r.jpg", "u.jpg"].map
      (fun name => ([ascii "src", ascii "assets", ascii "pano", ascii name], .file (.bytes [])))

def completePaths : List String :=
  ["pano/b.jpg", "pano/d.jpg", "pano/f.jpg", "pano/l.jpg", "pano/preview.jpg", "pano/r.jpg",
    "pano/thumb.jpg", "pano/u.jpg"]

def noOutputs : FileTree := .ofEntries [([], .directory)] (by decide +kernel)

def outPath : CanonicalPath := ⟨[ascii "out"], by decide +kernel⟩

/-- The value that is written as configuration. -/
def writtenConfig (m : Migration) (tree : Tree) : PyValue :=
  match tree m.paths.config.names with
  | some (.file (.json value)) => value
  | _ => .pyNone

def hallMigration : Migration :=
  sampleMigration [(ascii "sound", record [("url", .str (ascii "/music/hall.mp3"))])]
    ("music/hall.mp3" :: completePaths)
    (.ofEntries (completeEntries (ascii ",sound:\x7burl:'/music/hall.mp3'\x7d")) (by decide +kernel))

def hallDisk : Disk := (exec hallMigration.migrate ⟨noOutputs.entries, none⟩).2

theorem eq_of_fst {α β : Type} {x : α × β} {a : α} (h : x.1 = a) : x = (a, x.2) := Prod.ext h rfl

theorem exists_loaded {result : Except (List Bytes) ExhibitionCatalog} (h : result.isOk = true) :
    ∃ catalog, result = .ok catalog := by
  cases result with
  | ok catalog => exact ⟨catalog, rfl⟩
  | error errors => cases h

/-- The page whose scene has music. -/
theorem loads_iff_fit_hall :
    hallMigration.Fit ∧ ∃ value,
      hallDisk.tree hallMigration.paths.config.names = some (.file (.json value)) ∧
      ∃ catalog, load (treeFileSystem outPath hallDisk.tree) (ascii "/out/exhibition.json")
        outPath.text (value.config []) = .ok catalog := by
  have hrun : (exec hallMigration.migrate ⟨noOutputs.entries, none⟩).1 = .ok () ∧
      (load (treeFileSystem outPath hallDisk.tree) (ascii "/out/exhibition.json") outPath.text
        ((writtenConfig hallMigration hallDisk.tree).config [])).isOk = true := by
    decide +kernel
  obtain ⟨hcompletes, htaken⟩ := hrun
  have hserved : hallMigration.Served (treeFileSystem outPath hallDisk.tree) outPath.text outPath
      hallDisk.tree := served_tree outPath hallDisk.tree (by decide +kernel) (by decide +kernel)
  obtain ⟨value, hvalue, hloads⟩ := Migration.loads_iff_fit noOutputs none hallDisk
    (ascii "/out/exhibition.json") [] (eq_of_fst hcompletes) (treeFileSystem_documented _ _)
    (slashNamesDirectory_tree _ _) hserved
  have hwritten : writtenConfig hallMigration hallDisk.tree = value := by
    rw [writtenConfig, hvalue]
  rw [hwritten] at htaken
  have hloaded := exists_loaded htaken
  exact ⟨hloads.mp hloaded, value, hvalue, hloaded⟩

def silentMigration : Migration :=
  sampleMigration [] completePaths (.ofEntries (completeEntries []) (by decide +kernel))

def silentDisk : Disk := (exec silentMigration.migrate ⟨noOutputs.entries, none⟩).2

/-- Without music the migration completes, and the server does not take its result. -/
theorem silent_page_rejected :
    exec silentMigration.migrate ⟨noOutputs.entries, none⟩ = (.ok (), silentDisk) ∧
    silentMigration.Served (treeFileSystem outPath silentDisk.tree) outPath.text outPath
      silentDisk.tree ∧
    ∃ value, silentDisk.tree silentMigration.paths.config.names = some (.file (.json value)) ∧
      load (treeFileSystem outPath silentDisk.tree) (ascii "/out/exhibition.json") outPath.text
        (value.config []) = .error [ascii "scenes[0]: musicUrl must not be empty"] := by
  have hrun : (exec silentMigration.migrate ⟨noOutputs.entries, none⟩).1 = .ok () ∧
      silentDisk.tree silentMigration.paths.config.names =
        some (.file (.json (writtenConfig silentMigration silentDisk.tree))) ∧
      load (treeFileSystem outPath silentDisk.tree) (ascii "/out/exhibition.json") outPath.text
        ((writtenConfig silentMigration silentDisk.tree).config []) =
        .error [ascii "scenes[0]: musicUrl must not be empty"] := by
    decide +kernel
  obtain ⟨hcompletes, hwritten, hrejected⟩ := hrun
  exact ⟨eq_of_fst hcompletes,
    served_tree outPath silentDisk.tree (by decide +kernel) (by decide +kernel), _, hwritten,
    hrejected⟩

end Sample

end JingjieAR
