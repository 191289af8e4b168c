import JingjieAR.PythonValueModel

/-! What the migration makes of the records of the source page: the scenes with their hotspots,
the artworks that these share, and the URLs of all assets. -/
namespace JingjieAR

open PyValue

/-- An element of the XML. -/
inductive Xml
  | element (tag : Bytes) (attrib : List (Bytes × Bytes)) (children : List Xml)

namespace Xml

def tag : Xml → Bytes
  | .element tag _ _ => tag

def attrib : Xml → List (Bytes × Bytes)
  | .element _ attrib _ => attrib

def children : Xml → List Xml
  | .element _ _ children => children

/-- The elements at the end of a path of tags. -/
def findall : List Bytes → Xml → List Xml
  | [], node => [node]
  | tag :: path, node => (node.children.filter (·.tag = tag)).flatMap (findall path)

/-- `attrib.get(name)`, where a missing value is as good as an empty one. -/
def attribText (node : Xml) (name : Bytes) : Bytes := (node.attrib.lookup name).getD []

end Xml

/-- `map[key]` -/
def lookupItem {α : Type} (map : List (Bytes × α)) (key : Bytes) : PyResult α :=
  match map.lookup key with
  | some value => .ok value
  | none => .error (.keyError key)

/-- `text[text.find(pattern):]`, if there is such a place. -/
def fromPattern (pattern : Bytes) : Bytes → Option Bytes
  | [] => none
  | c :: rest =>
    if pattern.isPrefixOf (c :: rest) then some (c :: rest) else fromPattern pattern rest

/-- `ASSET_PREFIXES` -/
def assetPrefixes : List (Bytes × Bytes) :=
  [(ascii "/pano/", ascii "pano/"), (ascii "/illstration/", ascii "illustration/"),
    (ascii "/hotspot/", ascii "hotspot/"), (ascii "/music/", ascii "music/")]

/-- The text from the first place of the first prefix that it has. -/
def localPath (text : Bytes) : Option Bytes :=
  assetPrefixes.findSome? (fun entry => fromPattern entry.1 text)

inductive HotspotTarget
  | scene (targetSceneId : Bytes)
  | artwork (artworkId : Bytes)
  | text (text : PyValue)
  | inactive (rawData : PyValue)

structure NormalizedHotspot where
  hotspotId : Bytes
  title : PyValue
  ath : PyFloat
  atv : PyFloat
  iconUrl : Bytes
  target : HotspotTarget

structure SourceView where
  hlookat : PyFloat
  vlookat : PyFloat
  fov : PyFloat

structure XmlScene where
  panoId : Bytes
  preview : Bytes
  cube : Bytes

structure Thumbnail where
  panoId : Bytes
  thumb : PyValue

structure SceneResource where
  preview : Bytes
  cube : Bytes
  thumb : PyValue

structure MigratedArtwork where
  artworkId : Bytes
  title : PyValue
  text : PyValue
  images : List Bytes

structure MigratedScene where
  sceneId : Bytes
  panoId : Bytes
  name : PyValue
  previewUrl : Bytes
  cubeUrl : Bytes
  thumbnailUrl : Bytes
  musicUrl : Bytes
  musicVolume : PyFloat
  musicAutoplay : Bool
  musicLoop : Bool
  view : SourceView
  hotspots : List NormalizedHotspot

structure MigratedExhibition where
  id : Bytes
  title : PyValue
  remark : PyValue
  defaultSceneId : Bytes

structure MigrationOutput where
  exhibition : MigratedExhibition
  artworks : List MigratedArtwork
  scenes : List MigratedScene

/-- Title and data of a hotspot. The text that `json.dumps` makes of them with sorted keys is the
same for two hotspots exactly if these are. -/
abbrev Signature := PyValue × PyValue

/-- What the loop over the hotspots has put together: `artworks` and `artwork_by_signature`. -/
structure Collected where
  artworks : List MigratedArtwork := []
  artworkBySignature : List (Signature × Bytes) := []

section Records

variable (py : PythonLibrary Xml)

def sourceAssetPath (value : PyValue) : PyResult Bytes :=
  if !value.truthy then .ok []
  else
    match value with
    | .str text =>
      match localPath text with
      | some path => .ok path
      | none => .error (.valueError (ascii "unsupported asset URL "++py.repr value))
    | _ => .error (.valueError (ascii "asset URL must be a string"))

def assetUrl (value : PyValue) : PyResult Bytes := do
  let sourcePath ← sourceAssetPath py value
  if sourcePath = [] then return []
  else
    match assetPrefixes.find? (fun entry => entry.1.isPrefixOf sourcePath) with
    | some (sourcePrefix, destinationPrefix) =>
      return ascii "/assets/"++(destinationPrefix++sourcePath.drop sourcePrefix.length)
    | none => throw (.valueError (ascii "unsupported asset URL "++py.repr value))

/-- `key in item` for a `dict`. -/
def hasMember (item : PyValue) (key : Bytes) : Bool :=
  match item with
  | .dict members => (members.lookup key).isSome
  | _ => false

def isArtworkData (items : List PyValue) : Bool :=
  !items.isEmpty &&
    items.all (fun item => hasMember item (ascii "image") && hasMember item (ascii "text"))

/-- `artwork_by_signature.setdefault(signature, hotspotId)` -/
def setDefault (artworkBySignature : List (Signature × Bytes)) (signature : Signature)
    (hotspotId : Bytes) : Bytes × List (Signature × Bytes) :=
  match artworkBySignature.lookup signature with
  | some artworkId => (artworkId, artworkBySignature)
  | none => (hotspotId, (signature, hotspotId) :: artworkBySignature)

/-- The branches of `normalize_hotspot`, which tell the payloads apart by their shape. -/
def hotspotTarget (raw data title : PyValue) (hotspotId : Bytes)
    (panoToScene : List (Bytes × Bytes)) (artworkBySignature : List (Signature × Bytes)) :
    PyResult (HotspotTarget × List (Signature × Bytes)) := do
  let unrecognized : PyError :=
    .valueError ("无法识别热点 ".toUTF8.toList++(← raw.get (ascii "id") .pyNone).toStr py)
  match data with
  | .dict _ =>
    let panoId := (← data.get (ascii "panoId") (.str [])).toStr py
    if panoId ≠ [] ∧ panoId ≠ ascii "0" then
      return (.scene (← lookupItem panoToScene panoId), artworkBySignature)
    else if panoId = ascii "0" then return (.inactive data, artworkBySignature)
    else throw unrecognized
  | .list items =>
    if isArtworkData items then
      let (artworkId, signatures) := setDefault artworkBySignature (title, data) hotspotId
      return (.artwork artworkId, signatures)
    else throw unrecognized
  | .str _ =>
    if (← raw.get (ascii "type") .pyNone).equals (.int 4) then
      return (.text data, artworkBySignature)
    else throw unrecognized
  | _ => throw unrecognized

def normalizeHotspot (raw : PyValue) (panoToScene : List (Bytes × Bytes))
    (artworkBySignature : List (Signature × Bytes)) :
    PyResult (NormalizedHotspot × List (Signature × Bytes)) := do
  let data ← raw.get (ascii "data") .pyNone
  let hotspotId ← raw.textItem py (ascii "id")
  let title ← raw.get (ascii "title") (.str [])
  let ath ← raw.floatItem py (ascii "ath")
  let atv ← raw.floatItem py (ascii "atv")
  let iconUrl ← assetUrl py (← raw.get (ascii "iconUrl") (.str []))
  let (target, signatures) ←
    hotspotTarget py raw data title hotspotId panoToScene artworkBySignature
  return ({ hotspotId, title, ath, atv, iconUrl, target }, signatures)

/-- `len(texts) == 1` for the set of the texts. -/
def oneText : List PyValue → Bool
  | [] => false
  | text :: texts => texts.all text.equals

/-- The record of an artwork hotspot that is the first with its signature. -/
def migrateArtwork (raw : PyValue) (normalized : NormalizedHotspot) : PyResult MigratedArtwork := do
  let data ← raw.getItem (ascii "data")
  let items ← data.iterate
  let texts ← items.mapM (·.getItem (ascii "text"))
  raiseIf (!texts.all hashable) .typeError
  raiseIf (!oneText texts) (.valueError (ascii "artwork hotspot "++(normalized.hotspotId++
    ascii " has inconsistent text")))
  let text ← (← data.first).getItem (ascii "text")
  let images ← items.mapM (fun item => do assetUrl py (← item.getItem (ascii "image")))
  return { artworkId := normalized.hotspotId, title := normalized.title, text, images }

def collectArtwork (raw : PyValue) (normalized : NormalizedHotspot)
    (artworks : List MigratedArtwork) : PyResult (List MigratedArtwork) :=
  match normalized.target with
  | .artwork artworkId =>
    if artworkId ≠ normalized.hotspotId then .ok artworks
    else do return artworks++[← migrateArtwork py raw normalized]
  | _ => .ok artworks

/-- The inner loop of `migrate`. -/
def normalizeHotspots (panoToScene : List (Bytes × Bytes)) :
    List PyValue → Collected → PyResult (List NormalizedHotspot × Collected)
  | [], collected => .ok ([], collected)
  | raw :: rest, collected => do
    let (normalized, signatures) ←
      normalizeHotspot py raw panoToScene collected.artworkBySignature
    let artworks ← collectArtwork py raw normalized collected.artworks
    let (hotspots, collected) ← normalizeHotspots panoToScene rest ⟨artworks, signatures⟩
    return (normalized :: hotspots, collected)

def removePrefix (pattern text : Bytes) : Bytes :=
  if pattern.isPrefixOf text then text.drop pattern.length else text

/-- The views so far, with the one of this `pano` in front; a scene has the one that is read
last. -/
def sceneView (views : List (Bytes × SourceView)) (pano : Xml) :
    PyResult (List (Bytes × SourceView)) := do
  match pano.findall [ascii "view"] with
  | [] => return views
  | view :: _ =>
    let sceneId := removePrefix (ascii "s_") (← lookupItem pano.attrib (ascii "name"))
    let number (name : Bytes) : PyResult PyFloat := do
      (PyValue.str (← lookupItem view.attrib name)).toFloat py
    let hlookat ← number (ascii "hlookat")
    let vlookat ← number (ascii "vlookat")
    let fov ← number (ascii "fov")
    return (sceneId, ⟨hlookat, vlookat, fov⟩) :: views

def sceneViews (root : Xml) : PyResult (List (Bytes × SourceView)) :=
  (root.findall [ascii "config", ascii "panos", ascii "pano"]).foldlM (sceneView py) []

def duplicateError (label sceneId panoId : Bytes) : PyError :=
  .valueError (ascii "duplicate "++(label++(ascii " sceneId/panoId: "++(sceneId++
    (slash :: panoId)))))

def uniqueMapping (label : Bytes) :
    List PyValue → List (Bytes × PyValue) → List Bytes → PyResult (List (Bytes × PyValue))
  | [], byScene, _ => .ok byScene
  | entry :: entries, byScene, seenPanos => do
    let sceneId ← entry.textItem py (ascii "id")
    let panoId ← entry.textItem py (ascii "panoId")
    raiseIf (sceneId ∈ byScene.map Prod.fst ∨ panoId ∈ seenPanos)
      (duplicateError label sceneId panoId)
    uniqueMapping label entries (byScene++[(sceneId, entry)]) (panoId :: seenPanos)

def xmlScene (byScene : List (Bytes × XmlScene)) (scene : Xml) :
    PyResult (List (Bytes × XmlScene)) := do
  let sceneId := scene.attribText (ascii "scene_id")
  let panoId := scene.attribText (ascii "pano_id")
  raiseIf (sceneId = [] ∨ panoId = [] ∨
      scene.attrib.lookup (ascii "name") ≠ some (ascii "s_"++sceneId))
    (.valueError (ascii "invalid XML scene identity"))
  raiseIf (sceneId ∈ byScene.map Prod.fst ∨ panoId ∈ byScene.map (·.2.panoId))
    (duplicateError (ascii "XML") sceneId panoId)
  match scene.findall [ascii "preview"], scene.findall [ascii "image", ascii "cube"] with
  | [preview], [cube] =>
    let previewUrl := preview.attribText (ascii "url")
    let cubeUrl := cube.attribText (ascii "url")
    raiseIf (previewUrl = [] ∨ cubeUrl = [])
      (.valueError (ascii "missing XML preview/cube URL for scene "++sceneId))
    return byScene++[(sceneId, ⟨panoId, previewUrl, cubeUrl⟩)]
  | _, _ =>
    throw (.valueError (ascii "missing or duplicate XML preview/cube for scene "++sceneId))

def sceneThumbnail (thumbnails : List (Bytes × Thumbnail)) (scene : PyValue) :
    PyResult (List (Bytes × Thumbnail)) := do
  let sceneId := (← scene.get (ascii "id") (.str [])).toStr py
  let panoId := (← scene.get (ascii "panoId") (.str [])).toStr py
  let thumb ← scene.get (ascii "thumb") .pyNone
  raiseIf (sceneId = [] ∨ panoId = [] ∨ !thumb.truthy)
    (.valueError (ascii "invalid category scene thumbnail record"))
  raiseIf (sceneId ∈ thumbnails.map Prod.fst ∨ panoId ∈ thumbnails.map (·.2.panoId))
    (duplicateError (ascii "category") sceneId panoId)
  return thumbnails++[(sceneId, ⟨panoId, thumb⟩)]

def categoryThumbnails (thumbnails : List (Bytes × Thumbnail)) (category : PyValue) :
    PyResult (List (Bytes × Thumbnail)) := do
  (← (← category.get (ascii "scenes") (.list [])).iterate).foldlM (sceneThumbnail py) thumbnails

/-- The two lists have the same keys. -/
def sameKeys {α β : Type} (as : List (Bytes × α)) (bs : List (Bytes × β)) : Bool :=
  as.all (fun a => a.1 ∈ bs.map Prod.fst) && bs.all (fun b => b.1 ∈ as.map Prod.fst)

def sceneResource (xmlByScene : List (Bytes × XmlScene)) (thumbnails : List (Bytes × Thumbnail))
    (rawScene : Bytes × PyValue) : PyResult (Bytes × SceneResource) := do
  let panoId ← rawScene.2.textItem py (ascii "panoId")
  let scene ← lookupItem xmlByScene rawScene.1
  let thumbnail ← lookupItem thumbnails rawScene.1
  raiseIf (scene.panoId ≠ panoId ∨ thumbnail.panoId ≠ panoId)
    (.valueError (ascii "scene/pano mismatch for scene "++rawScene.1))
  return (rawScene.1, ⟨scene.preview, scene.cube, thumbnail.thumb⟩)

def sceneResources (xmlText : PyValue) (rawSceneById : List (Bytes × PyValue))
    (categories : PyValue) : PyResult (Xml × List (Bytes × SceneResource)) := do
  let root ← match xmlText with
    | .str text => py.fromstring text
    | _ => throw .typeError
  let xmlByScene ← (root.findall [ascii "scene"]).foldlM xmlScene []
  let thumbnails ← (← categories.iterate).foldlM (categoryThumbnails py) []
  raiseIf (!sameKeys rawSceneById xmlByScene || !sameKeys rawSceneById thumbnails)
    (.valueError (ascii "source scene records do not match XML/category scene records"))
  let resources ← rawSceneById.mapM (sceneResource py xmlByScene thumbnails)
  return (root, resources)

def truthySource (value : PyValue) : Bool :=
  [.bool true, .int 1, .str (ascii "1"), .str (ascii "true"), .str (ascii "True")].any value.equals

def rawHotspots (scene : PyValue) : PyResult (List PyValue) := do
  (← scene.get (ascii "hotspot") (.list [])).iterate

/-- One round of the outer loop of `migrate`. -/
def migrateScene (panoToScene : List (Bytes × Bytes)) (views : List (Bytes × SourceView))
    (resources : List (Bytes × SceneResource)) (raw : PyValue) (collected : Collected) :
    PyResult (MigratedScene × Collected) := do
  let sceneId ← raw.textItem py (ascii "id")
  let panoId ← raw.textItem py (ascii "panoId")
  match views.lookup sceneId with
  | none => throw (.valueError (ascii "missing view for scene "++sceneId))
  | some view =>
    let (hotspots, collected) ←
      normalizeHotspots py panoToScene (← rawHotspots raw) collected
    let sound ← raw.get (ascii "sound") (.dict [])
    let name ← raw.get (ascii "name") (.str [])
    let resource ← lookupItem resources sceneId
    let previewUrl ← assetUrl py (.str resource.preview)
    let cubeUrl ← assetUrl py (.str resource.cube)
    let thumbnailUrl ← assetUrl py resource.thumb
    let musicUrl ← assetUrl py (← sound.get (ascii "url") (.str []))
    let musicVolume ← (← sound.get (ascii "volume") (.int 0)).toFloat py
    let musicAutoplay := truthySource (← sound.get (ascii "autoPlay") (.bool false))
    let musicLoop := truthySource (← sound.get (ascii "isLoop") (.bool false))
    return ({ sceneId, panoId, name, previewUrl, cubeUrl, thumbnailUrl, musicUrl, musicVolume,
              musicAutoplay, musicLoop, view, hotspots }, collected)

def migrateScenes (panoToScene : List (Bytes × Bytes)) (views : List (Bytes × SourceView))
    (resources : List (Bytes × SceneResource)) :
    List PyValue → Collected → PyResult (List MigratedScene × Collected)
  | [], collected => .ok ([], collected)
  | raw :: rest, collected => do
    let (scene, collected) ← migrateScene py panoToScene views resources raw collected
    let (scenes, collected) ← migrateScenes panoToScene views resources rest collected
    return (scene :: scenes, collected)

end Records

end JingjieAR
