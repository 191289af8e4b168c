import JingjieAR.MigrationRecordModel
import JingjieAR.StaticFileContainment
import JingjieAR.ThrowingState

/-! The migration of the source page into a configuration, the copied assets and their
manifest. A plan is made from the records of the page; then the old assets are removed, the
referenced ones copied, and the two files written. -/
namespace JingjieAR

open PyValue

/-- What is in a file. A text in JSON that the migration writes is kept as its value. -/
inductive Content
  | bytes (bytes : Bytes)
  | json (value : PyValue)
deriving DecidableEq

/-- An entry of a tree of files. There are no links: the paths are resolved. -/
inductive Entry
  | directory
  | file (content : Content)
deriving DecidableEq

abbrev Tree := List Bytes → Option Entry

namespace Tree

def put (tree : Tree) (names : List Bytes) (entry : Entry) : Tree :=
  fun names' => if names' = names then some entry else tree names'

/-- The tree without everything at or below a path. -/
def remove (tree : Tree) (names : List Bytes) : Tree :=
  fun names' => if names.isPrefixOf names' then none else tree names'

/-- The walk along the parts of a path, each from a directory. -/
def resolve (tree : Tree) : List Bytes → List Bytes → Option (List Bytes)
  | names, [] => some names
  | names, part :: parts =>
    match tree names with
    | some .directory =>
      tree.resolve (if part = [dot, dot] then names.dropLast else names++[part]) parts
    | _ => none

/-- The content of the regular file that a path leads to. -/
def file (tree : Tree) (names parts : List Bytes) : Option Content :=
  match tree.resolve names parts with
  | some target =>
    match tree target with
    | some (.file content) => some content
    | _ => none
  | none => none

end Tree

/-- A tree as it can be found: every entry is in a directory and has a path without dots. -/
structure FileTree where
  entries : Tree
  canonical : ∀ names entry, entries names = some entry → ∃ p : CanonicalPath, p.names = names
  closed : ∀ names name entry, entries (names++[name]) = some entry →
    entries names = some .directory

/-- The parts of a relative `Path`: empty ones and single dots are dropped. -/
def pathParts (text : Bytes) : List Bytes :=
  (pathSegments text []).filter (fun part => part ≠ [] && part ≠ [dot])

/-- The paths that `migrate` is called with, resolved. -/
structure MigrationPaths where
  source : CanonicalPath
  config : CanonicalPath
  assets : CanonicalPath
  manifest : CanonicalPath

def isWithin (path parent : CanonicalPath) : Bool := parent.names.isPrefixOf path.names

namespace MigrationPaths

def sourceAssets (paths : MigrationPaths) : List Bytes := paths.source.names++[ascii "assets"]

def outputs (paths : MigrationPaths) : List (Bytes × CanonicalPath) :=
  [(ascii "config", paths.config), (ascii "assets", paths.assets),
    (ascii "manifest", paths.manifest)]

end MigrationPaths

/-- Every pair of a list, the earlier one first. -/
def laterPairs {α : Type} : List α → List (α × α)
  | [] => []
  | a :: as => as.map (a, ·)++laterPairs as

def overlaps (a b : CanonicalPath) : Bool := isWithin a b || isWithin b a

def rejectSourceOverlap (source : CanonicalPath) (output : Bytes × CanonicalPath) : PyResult Unit :=
  raiseIf (overlaps output.2 source) (.valueError (ascii "unsafe "++(output.1++
    (ascii " path overlaps source: "++output.2.text))))

def rejectOutputOverlap (pair : (Bytes × CanonicalPath) × (Bytes × CanonicalPath)) :
    PyResult Unit :=
  raiseIf (overlaps pair.1.2 pair.2.2) (.valueError (ascii "unsafe "++(pair.1.1++
    (ascii " and "++(pair.2.1++(ascii " paths overlap: "++(pair.1.2.text++
      (ascii " / "++pair.2.2.text))))))))

def validatePaths (paths : MigrationPaths) (source : FileTree) : PyResult Unit := do
  raiseIf (source.entries paths.source.names ≠ some .directory ∨
      source.entries paths.sourceAssets ≠ some .directory)
    (.valueError (ascii "source and source/assets must be existing directories"))
  [(ascii "assets", paths.assets), (ascii "config", paths.config),
    (ascii "manifest", paths.manifest)].forM (rejectSourceOverlap paths.source)
  (laterPairs paths.outputs).forM rejectOutputOverlap

/-- What `migrate` reads from the page before its loop. -/
structure PageRecords where
  property : PyValue
  rawScenes : PyValue
  scenes : List PyValue
  panoToScene : List (Bytes × Bytes)
  resources : List (Bytes × SceneResource)
  views : List (Bytes × SourceView)

structure MigrationPlan where
  rawScenes : List PyValue
  resources : List (Bytes × SceneResource)
  output : MigrationOutput

/-- One call of `migrate`: its paths, the tree that the source is read from, and the parts whose
inner working plays no role here, `parse_source` and `asset_manifest`. -/
structure Migration where
  py : PythonLibrary Xml
  parseSource : Bytes → PyResult PyValue
  assetManifest : Tree → PyValue
  paths : MigrationPaths
  source : FileTree

namespace Migration

variable (m : Migration)

/-- `parse_source` of the page `index.html` -/
def state : PyResult PyValue :=
  match m.source.entries (m.paths.source.names++[ascii "index.html"]) with
  | some (.file (.bytes page)) => m.parseSource page
  | _ => .error .osError

def records : PyResult PageRecords := do
  validatePaths m.paths m.source
  let state ← m.state
  let product ← (← state.getItem (ascii "data")).getItem (ascii "product")
  let property ← product.getItem (ascii "property")
  let config ← product.getItem (ascii "config")
  let rawScenes ← config.getItem (ascii "scenes")
  let scenes ← rawScenes.iterate
  let rawSceneById ← uniqueMapping m.py (ascii "initial-state") scenes [] []
  let panoToScene ← scenes.mapM (fun scene => do
    return (← scene.textItem m.py (ascii "panoId"), ← scene.textItem m.py (ascii "id")))
  let xml ← state.getItem (ascii "xml")
  let categories ← config.get (ascii "category") (.list [])
  let (root, resources) ← sceneResources m.py xml rawSceneById categories
  let views ← sceneViews m.py root
  return { property, rawScenes, scenes, panoToScene, resources, views }

/-- All that is done before the first file is touched. -/
def plan : PyResult MigrationPlan := do
  let records ← m.records
  let (scenes, collected) ←
    migrateScenes m.py records.panoToScene records.views records.resources records.scenes {}
  let id ← records.property.textItem m.py (ascii "id")
  let title ← records.property.getItem (ascii "name")
  let remark ← records.property.get (ascii "remark") (.str [])
  let defaultSceneId ← (← records.rawScenes.first).textItem m.py (ascii "id")
  return { rawScenes := records.scenes, resources := records.resources,
           output := { exhibition := { id, title, remark, defaultSceneId },
                       artworks := collected.artworks, scenes } }

end Migration

/-- The tree of the outputs, and how many changes are still made before one fails; `none` if all
are made. The source is read as it was at the start, since no output overlaps it. -/
structure Disk where
  tree : Tree
  left : Option ℕ

abbrev Migrating := ExceptT PyError (StateM Disk)

def lift {α : Type} : PyResult α → Migrating α
  | .ok value => pure value
  | .error error => throw error

/-- A change of the tree. One that fails is taken to change nothing. -/
def change (f : Tree → Tree) : Migrating Unit := do
  let disk ← get
  if disk.left = some 0 then throw .osError
  else set { tree := f disk.tree, left := disk.left.map (· - 1) : Disk }

/-- `shutil.rmtree` of what exists; it fails for a file. -/
def rmtree (target : List Bytes) : Migrating Unit := do
  match (← get).tree target with
  | none => pure ()
  | some (.file _) => throw .osError
  | some .directory => change (·.remove target)

def rmtrees (assets : List Bytes) : List Bytes → Migrating Unit
  | [] => pure ()
  | directory :: directories => do
    rmtree (assets++[directory])
    rmtrees assets directories

/-- `mkdir` of a directory that may be there. -/
def mkdir (names : List Bytes) : Migrating Unit := do
  match (← get).tree names with
  | some .directory => pure ()
  | some (.file _) => throw .osError
  | none => change (·.put names .directory)

/-- `mkdir(parents=True, exist_ok=True)`, which gives the directory that the parts lead to. -/
def mkdirs : List Bytes → List Bytes → Migrating (List Bytes)
  | names, [] => pure names
  | names, part :: parts =>
    if part = [dot, dot] then mkdirs names.dropLast parts
    else do
      mkdir (names++[part])
      mkdirs (names++[part]) parts

/-- `write_text` of the text that `json.dumps` makes of a value. -/
def encode (value : PyValue) : PyResult Content :=
  if value.encodable then .ok (.json value) else .error .unicodeEncodeError

/-- The opening of a file for writing, which empties it. -/
def openFile (names : List Bytes) : Migrating Unit := do
  if (← get).tree names = some .directory then throw .osError
  else change (·.put names (.file (.bytes [])))

/-- A text is encoded when the file has been opened. -/
def writeFile (names : List Bytes) (content : PyResult Content) : Migrating Unit := do
  openFile names
  let content ← lift content
  change (·.put names (.file content))

/-- `path.parent.mkdir` and `path.write_text` of a value in JSON. -/
def writeJson (path : CanonicalPath) (value : Tree → PyValue) : Migrating Unit := do
  let _ ← mkdirs [] path.names.dropLast
  writeFile path.names (encode (value (← get).tree))

/-- The directories below the assets that the migration fills. -/
def assetDirectories : List Bytes :=
  [ascii "pano", ascii "illustration", ascii "hotspot", ascii "music"]

def cubeFaces : List UInt8 := ascii "bdflru"

/-! `copied_asset_paths` as the list of what it calls `add_url` with, one after the other. It
ends with the first error: the loop over the paths meets that only there. -/
section Requests

variable (py : PythonLibrary Xml)

/-- The placeholder is the only one when it is replaced. -/
def cubeRequests (sceneId cube : Bytes) : List (PyResult PyValue) :=
  match sourceAssetPath py (.str cube) with
  | .error error => [.error error]
  | .ok path =>
    if placeholderCount path ≠ 1 then
      [.error (.valueError
        (ascii "cube URL must contain exactly one %s placeholder for scene "++sceneId))]
    else cubeFaces.map (fun face => .ok (.str (replacePlaceholder face path)))

/-- A URL that may be missing. -/
def optionalRequest (url : PyValue) : List (PyResult PyValue) := if url.truthy then [.ok url] else []

def soundRequests (scene : PyValue) : List (PyResult PyValue) :=
  match (do (← scene.get (ascii "sound") (.dict [])).get (ascii "url") .pyNone) with
  | .error error => [.error error]
  | .ok url => optionalRequest url

def dataRequests (hotspot : PyValue) : List (PyResult PyValue) :=
  match hotspot.get (ascii "data") .pyNone with
  | .ok (.list items) => items.map (·.getItem (ascii "image"))
  | .ok _ => []
  | .error error => [.error error]

def hotspotRequests (hotspot : PyValue) : List (PyResult PyValue) :=
  match hotspot.get (ascii "iconUrl") .pyNone with
  | .error error => [.error error]
  | .ok url => optionalRequest url++dataRequests hotspot

def hotspotsRequests (scene : PyValue) : List (PyResult PyValue) :=
  match rawHotspots scene with
  | .error error => [.error error]
  | .ok hotspots => hotspots.flatMap hotspotRequests

def sceneRequests (resources : List (Bytes × SceneResource)) (scene : PyValue) :
    List (PyResult PyValue) :=
  match (do
    let sceneId ← scene.textItem py (ascii "id")
    return (sceneId, ← lookupItem resources sceneId)) with
  | .error error => [.error error]
  | .ok (sceneId, resource) =>
    .ok (.str resource.preview) :: (cubeRequests py sceneId resource.cube++
      (.ok resource.thumb :: (soundRequests scene++hotspotsRequests scene)))

end Requests

/-! The output as the value that `json.dumps` is called with. -/
section Output

def HotspotTarget.members : HotspotTarget → List (Bytes × PyValue)
  | .scene targetSceneId =>
    [(ascii "type", .str (ascii "scene")), (ascii "targetSceneId", .str targetSceneId)]
  | .artwork artworkId =>
    [(ascii "type", .str (ascii "artwork")), (ascii "artworkId", .str artworkId)]
  | .text data => [(ascii "type", .str (ascii "text")), (ascii "text", data)]
  | .inactive rawData => [(ascii "type", .str (ascii "inactive")), (ascii "rawData", rawData)]

def NormalizedHotspot.toPy (hotspot : NormalizedHotspot) : PyValue :=
  .dict ([(ascii "hotspotId", .str hotspot.hotspotId), (ascii "title", hotspot.title),
    (ascii "ath", .float hotspot.ath), (ascii "atv", .float hotspot.atv),
    (ascii "iconUrl", .str hotspot.iconUrl)]++hotspot.target.members)

def MigratedArtwork.toPy (artwork : MigratedArtwork) : PyValue :=
  .dict [(ascii "artworkId", .str artwork.artworkId), (ascii "title", artwork.title),
    (ascii "text", artwork.text), (ascii "images", .list (artwork.images.map .str))]

def SourceView.toPy (view : SourceView) : PyValue :=
  .dict [(ascii "hlookat", .float view.hlookat), (ascii "vlookat", .float view.vlookat),
    (ascii "fov", .float view.fov)]

def MigratedScene.toPy (scene : MigratedScene) : PyValue :=
  .dict [(ascii "sceneId", .str scene.sceneId), (ascii "panoId", .str scene.panoId),
    (ascii "name", scene.name), (ascii "previewUrl", .str scene.previewUrl),
    (ascii "cubeUrl", .str scene.cubeUrl), (ascii "thumbnailUrl", .str scene.thumbnailUrl),
    (ascii "musicUrl", .str scene.musicUrl), (ascii "musicVolume", .float scene.musicVolume),
    (ascii "musicAutoplay", .bool scene.musicAutoplay), (ascii "musicLoop", .bool scene.musicLoop),
    (ascii "view", scene.view.toPy),
    (ascii "hotspots", .list (scene.hotspots.map NormalizedHotspot.toPy))]

def MigratedExhibition.toPy (exhibition : MigratedExhibition) : PyValue :=
  .dict [(ascii "id", .str exhibition.id), (ascii "title", exhibition.title),
    (ascii "remark", exhibition.remark), (ascii "defaultSceneId", .str exhibition.defaultSceneId)]

def MigrationOutput.toPy (output : MigrationOutput) : PyValue :=
  .dict [(ascii "exhibition", output.exhibition.toPy),
    (ascii "artworks", .list (output.artworks.map MigratedArtwork.toPy)),
    (ascii "scenes", .list (output.scenes.map MigratedScene.toPy))]

end Output

namespace Migration

variable (m : Migration)

/-- One round of the loop of `copy_assets`. -/
def copyAsset (path : Bytes) : Migrating Unit := do
  let url ← lift (assetUrl m.py (.str path))
  let relative := pathParts (removePrefix (ascii "/assets/") url)
  let sourceParts := pathParts (removePrefix [slash] path)
  match m.source.entries.file m.paths.sourceAssets sourceParts with
  | none =>
    throw (.fileNotFoundError (ascii "referenced asset is missing: "++
      joinNames slash (m.paths.sourceAssets++sourceParts)))
  | some content =>
    let parent ← mkdirs [] (m.paths.assets.names++relative.dropLast)
    let destination := parent++relative.getLast?.toList
    -- A directory takes the file under the name that it has in the source.
    let target :=
      if (← get).tree destination = some .directory then
        destination++sourceParts.getLast?.toList
      else destination
    writeFile target (.ok content)

/-- The loop of `copy_assets` over the paths that are yielded, each of them once. -/
def copyRequests : List Bytes → List (PyResult PyValue) → Migrating Unit
  | _, [] => pure ()
  | yielded, request :: requests => do
    let path ← lift (do sourceAssetPath m.py (← request))
    if path = [] ∨ path ∈ yielded then copyRequests yielded requests
    else do
      m.copyAsset path
      copyRequests (path :: yielded) requests

/-- `copy_assets` -/
def copyAssets (requests : List (PyResult PyValue)) : Migrating Unit := do
  rmtrees m.paths.assets.names assetDirectories
  m.copyRequests [] requests

def migrate : Migrating Unit := do
  let plan ← lift m.plan
  m.copyAssets (plan.rawScenes.flatMap (sceneRequests m.py plan.resources))
  writeJson m.paths.config (fun _ => plan.output.toPy)
  writeJson m.paths.manifest m.assetManifest

end Migration

end JingjieAR
