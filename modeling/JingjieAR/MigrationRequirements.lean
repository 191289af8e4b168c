import JingjieAR.CatalogRequirements
import JingjieAR.MigrationModel

/-! What the source page has to be like for the result of its migration to be published, in
terms of its records. -/
namespace JingjieAR

open PyValue

/-- The hotspots of a scene, none if it has no list of them. -/
def sceneHotspots (scene : PyValue) : List PyValue :=
  match rawHotspots scene with
  | .ok hotspots => hotspots
  | .error _ => []

/-- The hotspots of all scenes. -/
def PageRecords.hotspots (records : PageRecords) : List PyValue :=
  records.scenes.flatMap sceneHotspots

/-- One placeholder in the path of an asset, and no other `%`. -/
def CubeUrl (url : Bytes) : Prop :=
  AssetPath url ∧
    ∃ before after, url = before++(placeholder++after) ∧ percent ∉ before ∧ percent ∉ after

/-- Two records of the same artwork. -/
def Alike (a b : PyValue) : Prop :=
  a.get (ascii "title") (.str []) = b.get (ascii "title") (.str []) ∧
    a.get (ascii "data") .pyNone = b.get (ascii "data") .pyNone

def FitNumber (number : PyResult PyFloat) (range : ℚ → Prop) : Prop :=
  ∃ x value, number = .ok x ∧ x.value = some value ∧ range value

section Fit

variable (py : PythonLibrary Xml)

def FitUrl (value : PyValue) : Prop := ∃ url, assetUrl py value = .ok url ∧ AssetPath url

def FitCubeUrl (cube : Bytes) : Prop := ∃ url, assetUrl py (.str cube) = .ok url ∧ CubeUrl url

/-- A URL that stays in its place when the placeholder becomes a face: `/hotspot/i%slstration/`
does not, since with `l` it has another prefix. -/
def FitCube (cube : Bytes) : Prop :=
  FitCubeUrl py cube ∧
    ∀ path, sourceAssetPath py (.str cube) = .ok path → ∀ face ∈ cubeFaces,
      localPath (replacePlaceholder face path) = some (replacePlaceholder face path)

structure FitHotspot (raw : PyValue) : Prop where
  id : ∃ id, raw.textItem py (ascii "id") = .ok id ∧ id ≠ []
  title : ∃ title, raw.get (ascii "title") (.str []) = .ok (.str title)
  ath : FitNumber (raw.floatItem py (ascii "ath")) (fun ath => -180 ≤ ath ∧ ath ≤ 180)
  atv : FitNumber (raw.floatItem py (ascii "atv")) (fun atv => -90 ≤ atv ∧ atv ≤ 90)
  iconUrl : ∃ icon, raw.get (ascii "iconUrl") (.str []) = .ok icon ∧ FitUrl py icon
  text : raw.get (ascii "data") .pyNone ≠ .ok (.str [])
  rawData : ∀ data panoId, raw.get (ascii "data") .pyNone = .ok data →
    data.get (ascii "panoId") (.str []) = .ok panoId → panoId.toStr py = ascii "0" →
    data.finite = true

structure FitArtwork (raw : PyValue) (items : List PyValue) : Prop where
  title : raw.get (ascii "title") (.str []) ≠ .ok (.str [])
  text : ∀ item ∈ items, ∃ text, item.getItem (ascii "text") = .ok (.str text)
  images : ∀ item ∈ items, ∃ image, item.getItem (ascii "image") = .ok image ∧ FitUrl py image

structure FitView (view : SourceView) : Prop where
  hlookat : FitNumber (.ok view.hlookat) (fun hlookat => -180 ≤ hlookat ∧ hlookat ≤ 180)
  vlookat : FitNumber (.ok view.vlookat) (fun vlookat => -90 ≤ vlookat ∧ vlookat ≤ 90)
  fov : FitNumber (.ok view.fov) (fun fov => 0 < fov ∧ fov ≤ 180)

structure FitSound (sound : PyValue) : Prop where
  url : ∃ url, sound.get (ascii "url") (.str []) = .ok url ∧ FitUrl py url
  volume : ∃ volume, sound.get (ascii "volume") (.int 0) = .ok volume ∧
    FitNumber (volume.toFloat py) (fun volume => 0 ≤ volume ∧ volume ≤ 1)

variable (cube : Bytes → Prop)

structure FitResource (resource : SceneResource) : Prop where
  preview : FitUrl py (.str resource.preview)
  cube : cube resource.cube
  thumb : FitUrl py resource.thumb

structure FitScene (records : PageRecords) (raw : PyValue) : Prop where
  name : ∃ name, raw.get (ascii "name") (.str []) = .ok (.str name) ∧ name ≠ []
  resource : ∀ id resource, raw.textItem py (ascii "id") = .ok id →
    records.resources.lookup id = some resource → FitResource py cube resource
  view : ∀ id view, raw.textItem py (ascii "id") = .ok id →
    records.views.lookup id = some view → FitView view
  sound : ∃ sound, raw.get (ascii "sound") (.dict []) = .ok sound ∧ FitSound py sound

structure FitRecords (records : PageRecords) : Prop where
  id : ∃ id, records.property.textItem py (ascii "id") = .ok id ∧ id ≠ []
  title : ∃ title, records.property.getItem (ascii "name") = .ok (.str title) ∧ title ≠ []
  remark : ∃ remark, records.property.get (ascii "remark") (.str []) = .ok (.str remark)
  scenes : ∀ raw ∈ records.scenes, FitScene py cube records raw
  hotspots : ∀ raw ∈ records.hotspots, FitHotspot py raw
  hotspotIds : (records.hotspots.map (·.textItem py (ascii "id"))).Nodup
  artworks : ∀ raw ∈ records.hotspots, ∀ items,
    raw.get (ascii "data") .pyNone = .ok (.list items) → FitArtwork py raw items
  /-- The first record of an artwork gives it its id. -/
  artworkIds : ∀ before raw after items id, records.hotspots = before++raw :: after →
    raw.get (ascii "data") .pyNone = .ok (.list items) →
    (∀ other ∈ before, ¬Alike other raw) → raw.textItem py (ascii "id") = .ok id →
    id.length ≤ 64

end Fit

namespace Migration

variable (m : Migration)

/-- The page has all that a catalogue needs, and its URLs are those of assets. -/
def Fit : Prop := ∃ records, m.records = .ok records ∧ FitRecords m.py (FitCube m.py) records

/-- A path at or below one of the four directories. -/
def InAssets (names : List Bytes) : Prop :=
  ∃ directory ∈ assetDirectories, ∃ more, names = m.paths.assets.names++directory :: more

/-- The static root of the server has the assets directory as `/assets`, and the files in it are
those of the tree. -/
structure Served (fs : FileSystem) (staticRoot : Bytes) (top : CanonicalPath) (tree : Tree) :
    Prop where
  root : RootOf fs staticRoot top
  assets : m.paths.assets.names = top.names++[ascii "assets"]
  present : ∀ (p : CanonicalPath) entry, m.InAssets p.names → tree p.names = some entry →
    fs.realpath p.text = some p.text ∧
      ∃ st, fs.stat p.text = some st ∧ (st.regular = true ↔ entry ≠ .directory)
  absent : ∀ p : CanonicalPath, m.InAssets p.names → tree p.names = none →
    fs.realpath p.text = none

end Migration

end JingjieAR
