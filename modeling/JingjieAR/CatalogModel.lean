import JingjieAR.StaticFileModel
import Mathlib.Algebra.Order.Ring.Rat

/-! The exhibition catalogue and its loading. The document comes from the JSON parser as
a value; a check that fails adds its message to the errors, and a catalogue is published
only if there are none. -/
namespace JingjieAR

open HttpResponse (decimal)

/-- A parsed document. A number is the value of the `double` that is read from it, `none`
if that is not finite; an object is a map from its keys. -/
inductive Json
  | null
  | boolean (value : Bool)
  | number (value : Option ℚ)
  | string (value : Bytes)
  | array (elements : List Json)
  | object (members : List (Bytes × Json))

namespace Json

def isObject : Json → Bool
  | .object _ => true
  | _ => false

def find (key : Bytes) : Json → Option Json
  | .object members => members.lookup key
  | _ => none

end Json

structure HotspotInfo where
  id : Bytes := []
  type : Bytes := []
  title : Bytes := []
  iconUrl : Bytes := []
  targetSceneId : Bytes := []
  artworkId : Bytes := []
  text : Bytes := []
  ath : ℚ := 0
  atv : ℚ := 0
deriving DecidableEq

structure ExhibitionScene where
  id : Bytes := []
  panoId : Bytes := []
  name : Bytes := []
  previewUrl : Bytes := []
  cubeUrl : Bytes := []
  thumbnailUrl : Bytes := []
  musicUrl : Bytes := []
  hlookat : ℚ := 0
  vlookat : ℚ := 0
  fov : ℚ := 0
  musicVolume : ℚ := 0
  musicAutoplay : Bool := false
  musicLoop : Bool := false
  hotspots : List HotspotInfo := []
deriving DecidableEq

structure ArtworkInfo where
  id : Bytes := []
  title : Bytes := []
  text : Bytes := []
  images : List Bytes := []
deriving DecidableEq

structure ExhibitionCatalog where
  exhibitionId : Bytes := []
  title : Bytes := []
  remark : Bytes := []
  defaultSceneId : Bytes := []
  scenes : List ExhibitionScene := []
  artworks : List ArtworkInfo := []
deriving DecidableEq

/-- A value and the messages of the checks that it has failed. Without messages the reading
has succeeded; otherwise the value is what the target held before. -/
structure Read (α : Type) where
  value : α
  errors : List Bytes := []

def addError (context message : Bytes) : List Bytes := [context++(ascii ": "++message)]

def readString (object : Json) (key context : Bytes) (allowEmpty : Bool) : Read Bytes :=
  match object.find key with
  | some (.string value) =>
    if !allowEmpty ∧ value = [] then ⟨[], addError context (key++ascii " must not be empty")⟩
    else ⟨value, []⟩
  | _ => ⟨[], addError context (key++ascii " must be a string")⟩

def readNumber (object : Json) (key context : Bytes) : Read ℚ :=
  match object.find key with
  | some (.number (some value)) => ⟨value, []⟩
  | some (.number none) => ⟨0, addError context (key++ascii " must be finite")⟩
  | _ => ⟨0, addError context (key++ascii " must be a number")⟩

def readBool (object : Json) (key context : Bytes) : Read Bool :=
  match object.find key with
  | some (.boolean value) => ⟨value, []⟩
  | _ => ⟨false, addError context (key++ascii " must be a boolean")⟩

/-- `std::to_string` of a `double` that is an integer. -/
def fixedDecimal (n : ℤ) : Bytes := signedDecimal n++ascii ".000000"

def validateRange (value : ℚ) (minimum maximum : ℤ) (context name : Bytes) : List Bytes :=
  if value < minimum ∨ value > maximum then
    addError context (name++(ascii " out of range ["++(fixedDecimal minimum++(ascii ", "++
      (fixedDecimal maximum++ascii "]")))))
  else []

/-- A check that is made only of a value that could be read. -/
def Read.andThen {α : Type} (r : Read α) (check : α → List Bytes) : Read α :=
  if r.errors = [] then ⟨r.value, check r.value⟩ else r

/-- The pieces that `std::getline` reads; an empty one at the end is not there. -/
def pathSegments : Bytes → Bytes → List Bytes
  | [], segment => if segment = [] then [] else [segment]
  | c :: rest, segment =>
    if c = slash then segment :: pathSegments rest [] else pathSegments rest (segment++[c])

def backslash : UInt8 := 92

def isAssetPath (path : Bytes) : Bool :=
  path.take 8 = ascii "/assets/" && !path.contains backslash &&
    (pathSegments (path.drop 8) []).all
      (fun segment => segment ≠ [] && segment ≠ [dot] && segment ≠ [dot, dot])

def assetFile (staticRoot url : Bytes) : Bytes :=
  if staticRoot.getLast? = some slash then staticRoot.dropLast++url else staticRoot++url

inductive AssetFileStatus
  | kAssetFileValid
  | kAssetFileMissing
  | kAssetFileOutsideRoot
deriving DecidableEq

def isChildPath (root candidate : Bytes) : Bool :=
  candidate.take root.length = root && (candidate.drop root.length).head? = some slash

def assetFileStatus (fs : FileSystem) (staticRoot url : Bytes) : AssetFileStatus :=
  match fs.realpath (cString (assetFile staticRoot url)) with
  | none => .kAssetFileMissing
  | some canonicalFile =>
    if !isChildPath staticRoot canonicalFile then .kAssetFileOutsideRoot
    else
      match fs.stat canonicalFile with
      | none => .kAssetFileMissing
      | some metadata => if metadata.regular then .kAssetFileValid else .kAssetFileMissing

/-- The message for a file that is not a valid asset. -/
def assetError (fs : FileSystem) (staticRoot url context field : Bytes) : List Bytes :=
  match assetFileStatus fs staticRoot url with
  | .kAssetFileOutsideRoot =>
    addError context (field++(ascii " asset escapes static root: "++url))
  | .kAssetFileMissing => addError context (field++(ascii " asset does not exist: "++url))
  | .kAssetFileValid => []

def validateAsset (fs : FileSystem) (staticRoot context field url : Bytes) : List Bytes :=
  if !isAssetPath url then addError context (field++ascii " must start with /assets/")
  else assetError fs staticRoot url context field

def letterS : UInt8 := 115

def placeholderCount : Bytes → ℕ
  | c :: d :: rest =>
    if c = percent ∧ d = letterS then placeholderCount rest+1 else placeholderCount (d :: rest)
  | _ => 0

/-- The search for the next `%` goes on behind the character that follows this one. -/
def containsUnsupportedPlaceholder : Bytes → Bool
  | c :: d :: rest =>
    if c = percent then d ≠ letterS || containsUnsupportedPlaceholder rest
    else containsUnsupportedPlaceholder (d :: rest)
  | [c] => c = percent
  | [] => false

/-- `replace(find("%s"), 2, face)`. -/
def replacePlaceholder (face : UInt8) : Bytes → Bytes
  | c :: d :: rest =>
    if c = percent ∧ d = letterS then face :: rest else c :: replacePlaceholder face (d :: rest)
  | rest => rest

/-- The letters of the six faces. -/
def faces : List UInt8 := ascii "fblrud"

def validateCubeAsset (fs : FileSystem) (staticRoot context url : Bytes) : List Bytes :=
  if !isAssetPath url then addError context (ascii "cubeUrl must start with /assets/")
  else if placeholderCount url ≠ 1 then
    addError context (ascii "cube URL must contain exactly one %s")
  else if containsUnsupportedPlaceholder url then
    addError context (ascii "cube URL contains unsupported % placeholder")
  else
    faces.flatMap
      (fun face => assetError fs staticRoot (replacePlaceholder face url) context (ascii "cubeUrl"))

/-- The root is replaced by its canonical form, if it has one. -/
def canonicalStaticRoot (fs : FileSystem) (staticRoot : Bytes) : Read Bytes :=
  match fs.realpath (cString staticRoot) with
  | none => ⟨staticRoot, [ascii "static root: does not exist: "++staticRoot]⟩
  | some resolved =>
    match fs.stat resolved with
    | some ⟨.directory, _, _, _⟩ =>
      ⟨resolved,
        if resolved = [slash] then [ascii "static root must not be filesystem root"] else []⟩
    | _ => ⟨resolved, [ascii "static root: must be a directory: "++staticRoot]⟩

/-- The set of ids that have been seen, and a message if this one is among them. -/
def addUniqueId (id kind : Bytes) (ids : Finset Bytes) (context : Bytes) : Read (Finset Bytes) :=
  if id = [] then ⟨ids, []⟩
  else if id ∈ ids then
    ⟨ids, addError context (ascii "duplicate "++(kind++(ascii " id: "++id)))⟩
  else ⟨insert id ids, []⟩

def indexedContext (collection : Bytes) (index : ℕ) : Bytes :=
  collection++(ascii "["++(decimal index++ascii "]"))

/-- Values of a list that are read one after the other, the ids seen so far going along. -/
def readAll {α σ : Type} (read : ℕ → Json → σ → Read (α × σ)) :
    ℕ → List Json → σ → Read (List α × σ)
  | _, [], ids => ⟨([], ids), []⟩
  | index, value :: values, ids =>
    let first := read index value ids
    let rest := readAll read (index+1) values first.value.2
    ⟨(first.value.1 :: rest.value.1, rest.value.2), first.errors++rest.errors⟩

section Reading

variable (fs : FileSystem) (staticRoot : Bytes)

def readImages (context : Bytes) : ℕ → List Json → Read (List Bytes)
  | _, [] => ⟨[], []⟩
  | index, value :: values =>
    let imageContext := context++(ascii ".images["++(decimal index++ascii "]"))
    let rest := readImages context (index+1) values
    match value with
    | .string image =>
      ⟨image :: rest.value,
        validateAsset fs staticRoot imageContext (ascii "image") image++rest.errors⟩
    | _ => ⟨rest.value, addError imageContext (ascii "must be a string")++rest.errors⟩

def readArtwork (index : ℕ) (value : Json) (artworkIds : Finset Bytes) :
    Read (ArtworkInfo × Finset Bytes) :=
  let context := indexedContext (ascii "artworks") index
  if !value.isObject then ⟨({}, artworkIds), addError context (ascii "must be an object")⟩
  else
    let id := (readString value (ascii "artworkId") context false).andThen (fun id =>
      if id.length > 64 then addError context (ascii "artworkId exceeds 64 bytes") else [])
    -- An id that is too long counts as seen; one that could not be read is empty.
    let ids := addUniqueId id.value (ascii "artwork") artworkIds context
    let title := readString value (ascii "title") context false
    let text := readString value (ascii "text") context true
    let images :=
      match value.find (ascii "images") with
      | some (.array (image :: images)) => readImages fs staticRoot context 0 (image :: images)
      | _ => ⟨[], addError context (ascii "images must be a non-empty array")⟩
    ⟨({ id := id.value, title := title.value, text := text.value, images := images.value },
        ids.value),
      id.errors++(ids.errors++(title.errors++(text.errors++images.errors)))⟩

def hotspotContext (sceneIndex index : ℕ) : Bytes :=
  indexedContext (ascii "scenes") sceneIndex++(ascii ".hotspots["++(decimal index++ascii "]"))

/-- The reference or the text that the type of a hotspot asks for. -/
def readTarget (context type : Bytes) (value : Json) (hotspot : HotspotInfo) : Read HotspotInfo :=
  if type = ascii "scene" then
    let target := readString value (ascii "targetSceneId") context false
    ⟨{ hotspot with targetSceneId := target.value }, target.errors⟩
  else if type = ascii "artwork" then
    let artwork := readString value (ascii "artworkId") context false
    ⟨{ hotspot with artworkId := artwork.value }, artwork.errors⟩
  else if type = ascii "text" then
    let text := readString value (ascii "text") context false
    ⟨{ hotspot with text := text.value }, text.errors⟩
  else if type ≠ ascii "inactive" ∧ type ≠ [] then
    ⟨hotspot, addError context (ascii "unknown hotspot type: "++type)⟩
  else ⟨hotspot, []⟩

def readHotspot (sceneIndex index : ℕ) (value : Json) (hotspotIds : Finset Bytes) :
    Read (HotspotInfo × Finset Bytes) :=
  let context := hotspotContext sceneIndex index
  if !value.isObject then ⟨({}, hotspotIds), addError context (ascii "must be an object")⟩
  else
    let id := readString value (ascii "hotspotId") context false
    let ids := addUniqueId id.value (ascii "hotspot") hotspotIds context
    let type := readString value (ascii "type") context false
    let title := readString value (ascii "title") context true
    let iconUrl := (readString value (ascii "iconUrl") context false).andThen
      (validateAsset fs staticRoot context (ascii "iconUrl"))
    let ath := (readNumber value (ascii "ath") context).andThen
      (fun ath => validateRange ath (-180) 180 context (ascii "ath"))
    let atv := (readNumber value (ascii "atv") context).andThen
      (fun atv => validateRange atv (-90) 90 context (ascii "atv"))
    let hotspot := readTarget context type.value value
      { id := id.value, type := type.value, title := title.value, iconUrl := iconUrl.value,
        ath := ath.value, atv := atv.value }
    ⟨(hotspot.value, ids.value),
      id.errors++(ids.errors++(type.errors++(title.errors++(iconUrl.errors++(ath.errors++
        (atv.errors++hotspot.errors))))))⟩

/-- The three numbers of the view, `hlookat`, `vlookat` and `fov`. -/
def readView (context : Bytes) (value : Json) : Read (ℚ × ℚ × ℚ) :=
  match value.find (ascii "view") with
  | some (.object members) =>
    let viewContext := context++ascii ".view"
    let view := Json.object members
    let hlookat := (readNumber view (ascii "hlookat") viewContext).andThen
      (fun hlookat => validateRange hlookat (-180) 180 viewContext (ascii "hlookat"))
    let vlookat := (readNumber view (ascii "vlookat") viewContext).andThen
      (fun vlookat => validateRange vlookat (-90) 90 viewContext (ascii "vlookat"))
    let fov := (readNumber view (ascii "fov") viewContext).andThen
      (fun fov => if fov ≤ 0 ∨ fov > 180 then
        addError viewContext (ascii "fov out of range (0, 180]") else [])
    ⟨(hlookat.value, vlookat.value, fov.value), hlookat.errors++(vlookat.errors++fov.errors)⟩
  | _ => ⟨(0, 0, 0), addError context (ascii "view must be an object")⟩

def readScene (index : ℕ) (value : Json) (ids : Finset Bytes × Finset Bytes) :
    Read (ExhibitionScene × Finset Bytes × Finset Bytes) :=
  let context := indexedContext (ascii "scenes") index
  if !value.isObject then ⟨({}, ids), addError context (ascii "must be an object")⟩
  else
    let id := readString value (ascii "sceneId") context false
    let sceneIds := addUniqueId id.value (ascii "scene") ids.1 context
    let panoId := readString value (ascii "panoId") context false
    let name := readString value (ascii "name") context false
    let previewUrl := (readString value (ascii "previewUrl") context false).andThen
      (validateAsset fs staticRoot context (ascii "previewUrl"))
    let cubeUrl := (readString value (ascii "cubeUrl") context false).andThen
      (validateCubeAsset fs staticRoot context)
    let thumbnailUrl := (readString value (ascii "thumbnailUrl") context false).andThen
      (validateAsset fs staticRoot context (ascii "thumbnailUrl"))
    let musicUrl := (readString value (ascii "musicUrl") context false).andThen
      (validateAsset fs staticRoot context (ascii "musicUrl"))
    let musicVolume := (readNumber value (ascii "musicVolume") context).andThen
      (fun volume => validateRange volume 0 1 context (ascii "musicVolume"))
    let musicAutoplay := readBool value (ascii "musicAutoplay") context
    let musicLoop := readBool value (ascii "musicLoop") context
    let view := readView context value
    let hotspots : Read (List HotspotInfo × Finset Bytes) :=
      match value.find (ascii "hotspots") with
      | some (.array values) => readAll (readHotspot fs staticRoot index) 0 values ids.2
      | _ => ⟨([], ids.2), addError context (ascii "hotspots must be an array")⟩
    ⟨({ id := id.value, panoId := panoId.value, name := name.value,
        previewUrl := previewUrl.value, cubeUrl := cubeUrl.value,
        thumbnailUrl := thumbnailUrl.value, musicUrl := musicUrl.value,
        hlookat := view.value.1, vlookat := view.value.2.1, fov := view.value.2.2,
        musicVolume := musicVolume.value, musicAutoplay := musicAutoplay.value,
        musicLoop := musicLoop.value, hotspots := hotspots.value.1 },
        sceneIds.value, hotspots.value.2),
      id.errors++(sceneIds.errors++(panoId.errors++(name.errors++(previewUrl.errors++
        (cubeUrl.errors++(thumbnailUrl.errors++(musicUrl.errors++(musicVolume.errors++
        (musicAutoplay.errors++(musicLoop.errors++(view.errors++hotspots.errors)))))))))))⟩

end Reading

/-- The references of one hotspot. -/
def validateHotspot (sceneIds artworkIds : Finset Bytes) (context : Bytes)
    (hotspot : HotspotInfo) : List Bytes :=
  (if hotspot.type = ascii "scene" ∧ hotspot.targetSceneId ∉ sceneIds then
    addError context (ascii "unknown target scene: "++hotspot.targetSceneId) else [])++
  (if hotspot.type = ascii "artwork" ∧ hotspot.artworkId ∉ artworkIds then
    addError context (ascii "unknown artwork: "++hotspot.artworkId) else [])

def validateReferences (scenes : List ExhibitionScene) (sceneIds artworkIds : Finset Bytes)
    (defaultSceneId : Bytes) : List Bytes :=
  (if defaultSceneId ∉ sceneIds then
    addError (ascii "exhibition") (ascii "unknown default scene: "++defaultSceneId) else [])++
  scenes.zipIdx.flatMap (fun scene =>
    scene.1.hotspots.zipIdx.flatMap (fun hotspot =>
      validateHotspot sceneIds artworkIds (hotspotContext scene.2 hotspot.2) hotspot.1))

/-- What reading the configuration file gives. -/
inductive ConfigFile
  | cannotOpen
  | invalidJson (what : Bytes)
  | document (root : Json)

namespace ExhibitionCatalog

/-- The part of `exhibition`: id, title, remark and default scene. -/
def readExhibition (root : Json) : Read (Bytes × Bytes × Bytes × Bytes) :=
  match root.find (ascii "exhibition") with
  | some (.object members) =>
    let exhibition := Json.object members
    let id := readString exhibition (ascii "id") (ascii "exhibition") false
    let title := readString exhibition (ascii "title") (ascii "exhibition") false
    let remark := readString exhibition (ascii "remark") (ascii "exhibition") true
    let defaultSceneId := readString exhibition (ascii "defaultSceneId") (ascii "exhibition") false
    ⟨(id.value, title.value, remark.value, defaultSceneId.value),
      id.errors++(title.errors++(remark.errors++defaultSceneId.errors))⟩
  | _ => ⟨([], [], [], []), [ascii "exhibition: must be an object"]⟩

def readArtworks (fs : FileSystem) (staticRoot : Bytes) (root : Json) :
    Read (List ArtworkInfo × Finset Bytes) :=
  match root.find (ascii "artworks") with
  | some (.array values) => readAll (readArtwork fs staticRoot) 0 values ∅
  | _ => ⟨([], ∅), [ascii "artworks: must be an array"]⟩

def readScenes (fs : FileSystem) (staticRoot : Bytes) (root : Json) :
    Read (List ExhibitionScene × Finset Bytes × Finset Bytes) :=
  match root.find (ascii "scenes") with
  | some (.array (value :: values)) =>
    readAll (readScene fs staticRoot) 0 (value :: values) (∅, ∅)
  | _ => ⟨([], ∅, ∅), [ascii "scenes: must be a non-empty array"]⟩

/-- The catalogue of a document, with the messages of everything that is wrong with it. -/
def readCatalog (fs : FileSystem) (staticRoot : Bytes) (root : Json) : Read ExhibitionCatalog :=
  let resolvedRoot := canonicalStaticRoot fs staticRoot
  let exhibition := readExhibition root
  let artworks := readArtworks fs resolvedRoot.value root
  let scenes := readScenes fs resolvedRoot.value root
  ⟨{ exhibitionId := exhibition.value.1, title := exhibition.value.2.1,
      remark := exhibition.value.2.2.1, defaultSceneId := exhibition.value.2.2.2,
      scenes := scenes.value.1, artworks := artworks.value.1 },
    resolvedRoot.errors++(exhibition.errors++(artworks.errors++(scenes.errors++
      validateReferences scenes.value.1 scenes.value.2.1 artworks.value.2
        exhibition.value.2.2.2)))⟩

/-- The catalogue, or the errors that keep it from being published. -/
def load (fs : FileSystem) (configPath staticRoot : Bytes) (config : ConfigFile) :
    Except (List Bytes) ExhibitionCatalog :=
  match config with
  | .cannotOpen => .error [ascii "config: cannot open file: "++configPath]
  | .invalidJson what => .error [ascii "config: invalid JSON: "++what]
  | .document root =>
    if !root.isObject then .error [ascii "config: root must be an object"]
    else
      let catalog := readCatalog fs staticRoot root
      if catalog.errors = [] then .ok catalog.value else .error catalog.errors

def findArtwork (catalog : ExhibitionCatalog) (id : Bytes) : Option ArtworkInfo :=
  catalog.artworks.find? (·.id = id)

end ExhibitionCatalog

end JingjieAR
