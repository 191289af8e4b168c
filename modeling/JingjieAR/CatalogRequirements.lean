import JingjieAR.CatalogModel
import JingjieAR.StaticFileContainment

/-! What an exhibition has to be, apart from how it is checked: the catalogue that a document
describes, and what a catalogue needs in order to be published below a static root. -/
namespace JingjieAR

section Fields

def StringField (object : Json) (key value : Bytes) : Prop := object.find key = some (.string value)

def NumberField (object : Json) (key : Bytes) (value : ℚ) : Prop :=
  object.find key = some (.number (some value))

def BoolField (object : Json) (key : Bytes) (value : Bool) : Prop :=
  object.find key = some (.boolean value)

end Fields

section Describing

structure DescribesArtwork (value : Json) (artwork : ArtworkInfo) : Prop where
  id : StringField value (ascii "artworkId") artwork.id
  title : StringField value (ascii "title") artwork.title
  text : StringField value (ascii "text") artwork.text
  images : value.find (ascii "images") = some (.array (artwork.images.map .string))

/-- A member that only the hotspots of one type have. -/
def TypedField (value : Json) (hotspot : HotspotInfo) (type key member : Bytes) : Prop :=
  (hotspot.type = type → StringField value key member) ∧ (hotspot.type ≠ type → member = [])

structure DescribesHotspot (value : Json) (hotspot : HotspotInfo) : Prop where
  id : StringField value (ascii "hotspotId") hotspot.id
  type : StringField value (ascii "type") hotspot.type
  title : StringField value (ascii "title") hotspot.title
  iconUrl : StringField value (ascii "iconUrl") hotspot.iconUrl
  ath : NumberField value (ascii "ath") hotspot.ath
  atv : NumberField value (ascii "atv") hotspot.atv
  targetSceneId :
    TypedField value hotspot (ascii "scene") (ascii "targetSceneId") hotspot.targetSceneId
  artworkId : TypedField value hotspot (ascii "artwork") (ascii "artworkId") hotspot.artworkId
  text : TypedField value hotspot (ascii "text") (ascii "text") hotspot.text

structure DescribesView (view : Json) (scene : ExhibitionScene) : Prop where
  hlookat : NumberField view (ascii "hlookat") scene.hlookat
  vlookat : NumberField view (ascii "vlookat") scene.vlookat
  fov : NumberField view (ascii "fov") scene.fov

structure DescribesScene (value : Json) (scene : ExhibitionScene) : Prop where
  id : StringField value (ascii "sceneId") scene.id
  panoId : StringField value (ascii "panoId") scene.panoId
  name : StringField value (ascii "name") scene.name
  previewUrl : StringField value (ascii "previewUrl") scene.previewUrl
  cubeUrl : StringField value (ascii "cubeUrl") scene.cubeUrl
  thumbnailUrl : StringField value (ascii "thumbnailUrl") scene.thumbnailUrl
  musicUrl : StringField value (ascii "musicUrl") scene.musicUrl
  musicVolume : NumberField value (ascii "musicVolume") scene.musicVolume
  musicAutoplay : BoolField value (ascii "musicAutoplay") scene.musicAutoplay
  musicLoop : BoolField value (ascii "musicLoop") scene.musicLoop
  view : ∃ view, value.find (ascii "view") = some view ∧ DescribesView view scene
  hotspots : ∃ values, value.find (ascii "hotspots") = some (.array values) ∧
    List.Forall₂ DescribesHotspot values scene.hotspots

structure DescribesExhibition (value : Json) (catalog : ExhibitionCatalog) : Prop where
  exhibitionId : StringField value (ascii "id") catalog.exhibitionId
  title : StringField value (ascii "title") catalog.title
  remark : StringField value (ascii "remark") catalog.remark
  defaultSceneId : StringField value (ascii "defaultSceneId") catalog.defaultSceneId

/-- The document has all members with their types, and the catalogue has their values. -/
structure DescribesCatalog (document : Json) (catalog : ExhibitionCatalog) : Prop where
  exhibition : ∃ value, document.find (ascii "exhibition") = some value ∧
    DescribesExhibition value catalog
  artworks : ∃ values, document.find (ascii "artworks") = some (.array values) ∧
    List.Forall₂ DescribesArtwork values catalog.artworks
  scenes : ∃ values, document.find (ascii "scenes") = some (.array values) ∧
    List.Forall₂ DescribesScene values catalog.scenes

end Describing

section Requirements

variable (asset cube : Bytes → Prop)

structure SoundArtwork (artwork : ArtworkInfo) : Prop where
  id : artwork.id ≠ [] ∧ artwork.id.length ≤ 64
  title : artwork.title ≠ []
  images : artwork.images ≠ [] ∧ ∀ image ∈ artwork.images, asset image

def hotspotTypes : List Bytes := [ascii "scene", ascii "artwork", ascii "text", ascii "inactive"]

structure SoundHotspot (hotspot : HotspotInfo) : Prop where
  id : hotspot.id ≠ []
  type : hotspot.type ∈ hotspotTypes
  iconUrl : asset hotspot.iconUrl
  ath : -180 ≤ hotspot.ath ∧ hotspot.ath ≤ 180
  atv : -90 ≤ hotspot.atv ∧ hotspot.atv ≤ 90
  targetSceneId : hotspot.type = ascii "scene" → hotspot.targetSceneId ≠ []
  artworkId : hotspot.type = ascii "artwork" → hotspot.artworkId ≠ []
  text : hotspot.type = ascii "text" → hotspot.text ≠ []

structure SoundScene (scene : ExhibitionScene) : Prop where
  id : scene.id ≠ []
  panoId : scene.panoId ≠ []
  name : scene.name ≠ []
  previewUrl : asset scene.previewUrl
  cubeUrl : cube scene.cubeUrl
  thumbnailUrl : asset scene.thumbnailUrl
  musicUrl : asset scene.musicUrl
  musicVolume : 0 ≤ scene.musicVolume ∧ scene.musicVolume ≤ 1
  hlookat : -180 ≤ scene.hlookat ∧ scene.hlookat ≤ 180
  vlookat : -90 ≤ scene.vlookat ∧ scene.vlookat ≤ 90
  fov : 0 < scene.fov ∧ scene.fov ≤ 180
  hotspots : ∀ hotspot ∈ scene.hotspots, SoundHotspot asset hotspot

namespace ExhibitionCatalog

def sceneIds (catalog : ExhibitionCatalog) : List Bytes := catalog.scenes.map (·.id)

def artworkIds (catalog : ExhibitionCatalog) : List Bytes := catalog.artworks.map (·.id)

def hotspotIds (catalog : ExhibitionCatalog) : List Bytes :=
  catalog.scenes.flatMap (fun scene => scene.hotspots.map (·.id))

/-- Every field is fit, no id is used twice, and all references lead somewhere. -/
structure Sound (catalog : ExhibitionCatalog) : Prop where
  exhibitionId : catalog.exhibitionId ≠ []
  title : catalog.title ≠ []
  artworks : ∀ artwork ∈ catalog.artworks, SoundArtwork asset artwork
  nonempty : catalog.scenes ≠ []
  scenes : ∀ scene ∈ catalog.scenes, SoundScene asset cube scene
  sceneIds : catalog.sceneIds.Nodup
  artworkIds : catalog.artworkIds.Nodup
  hotspotIds : catalog.hotspotIds.Nodup
  defaultScene : catalog.defaultSceneId ∈ catalog.sceneIds
  targets : ∀ scene ∈ catalog.scenes, ∀ hotspot ∈ scene.hotspots,
    (hotspot.type = ascii "scene" → hotspot.targetSceneId ∈ catalog.sceneIds) ∧
    (hotspot.type = ascii "artwork" → hotspot.artworkId ∈ catalog.artworkIds)

end ExhibitionCatalog

end Requirements

section Assets

/-- Below `/assets/`, with segments that are neither empty nor dots and have no backslash. -/
def AssetPath (url : Bytes) : Prop :=
  ∃ segments, segments ≠ [] ∧ url = ascii "/assets"++joinNames slash segments ∧
    ∀ segment ∈ segments, slash ∉ segment ∧ backslash ∉ segment ∧ segment ≠ [] ∧
      segment ≠ [dot] ∧ segment ≠ [dot, dot]

variable (fs : FileSystem) (top : CanonicalPath)

/-- The URL is the name of a regular file strictly inside the root. No file has a name with
NUL in it. -/
def NamesAsset (url : Bytes) : Prop :=
  0 ∉ url ∧ ∃ p : CanonicalPath, fs.realpath (top.text++url) = some p.text ∧
    p.StrictlyInside top ∧ ∃ st, fs.stat p.text = some st ∧ st.regular = true

def Asset (url : Bytes) : Prop := AssetPath url ∧ NamesAsset fs top url

def placeholder : Bytes := ascii "%s"

/-- One placeholder and no other `%`, and a file for each of the six faces. -/
def CubeAsset (url : Bytes) : Prop :=
  AssetPath url ∧ ∃ before after, url = before++(placeholder++after) ∧ percent ∉ before ∧
    percent ∉ after ∧ ∀ face ∈ faces, NamesAsset fs top (before++face :: after)

/-- What the code takes for the URL of an asset: a NUL ends the name of the file, and a `/` at
the end starts no segment. -/
def TakenAsset (url : Bytes) : Prop :=
  isAssetPath url = true ∧ assetFileStatus fs top.text url = .kAssetFileValid

def TakenCube (url : Bytes) : Prop :=
  isAssetPath url = true ∧ ∃ before after, url = before++(placeholder++after) ∧
    percent ∉ before ∧ percent ∉ after ∧
    ∀ face ∈ faces, assetFileStatus fs top.text (before++face :: after) = .kAssetFileValid

end Assets

/-- The canonical form of the configured root, a directory other than `/`. -/
structure RootOf (fs : FileSystem) (staticRoot : Bytes) (top : CanonicalPath) : Prop where
  resolves : fs.realpath (cString staticRoot) = some top.text
  directory : ∃ st, fs.stat top.text = some st ∧ st.kind = .directory
  below : top.names ≠ []

namespace ExhibitionCatalog

/-- The URLs of a catalogue. -/
def urls (catalog : ExhibitionCatalog) : List Bytes :=
  catalog.artworks.flatMap (·.images)++catalog.scenes.flatMap (fun scene =>
    scene.previewUrl :: scene.cubeUrl :: scene.thumbnailUrl :: scene.musicUrl ::
      scene.hotspots.map (·.iconUrl))

/-- The document describes an exhibition that can be published below the root. -/
def Publishable (fs : FileSystem) (staticRoot : Bytes) (document : Json) : Prop :=
  ∃ top, RootOf fs staticRoot top ∧ ∃ catalog, DescribesCatalog document catalog ∧
    Sound (Asset fs top) (CubeAsset fs top) catalog

/-- The loading of a document gives a catalogue exactly if the document is publishable, and
otherwise it gives an error. -/
def LoadsExactly (fs : FileSystem) (configPath staticRoot : Bytes) (document : Json) : Prop :=
  ((∃ catalog, load fs configPath staticRoot (.document document) = .ok catalog) ↔
    Publishable fs staticRoot document) ∧
  ∀ errors, load fs configPath staticRoot (.document document) = .error errors → errors ≠ []

/-- If the code takes all URLs of a document that meets everything else, then there is no NUL
in them. -/
def NoHiddenNul (fs : FileSystem) (staticRoot : Bytes) (document : Json) : Prop :=
  ∀ top catalog, RootOf fs staticRoot top → DescribesCatalog document catalog →
    Sound (TakenAsset fs top) (TakenCube fs top) catalog → ∀ url ∈ catalog.urls, 0 ∉ url

end ExhibitionCatalog

/-- A path that ends with `/` names a directory. -/
def FileSystem.SlashNamesDirectory (fs : FileSystem) : Prop :=
  ∀ path resolved st, path.getLast? = some slash → fs.realpath path = some resolved →
    fs.stat resolved = some st → st.regular = false

end JingjieAR
