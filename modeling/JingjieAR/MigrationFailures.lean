import JingjieAR.MigrationModel

/-! A migration that fails leaves its outputs alone for sure only if the page is rejected
before the first of them is removed. -/
namespace JingjieAR

open Throwing

section Steps

variable {tree : Tree} {disk : Disk} {target : List Bytes} {content : Content}

theorem exec_rmtree_file (h : disk.tree target = some (.file content)) :
    exec (rmtree target) disk = (.error .osError, disk) := by
  rw [rmtree, exec_bind_ok (exec_get disk), h]
  rfl

theorem exec_rmtree_directory (h : tree target = some .directory) :
    exec (rmtree target) ⟨tree, none⟩ = (.ok (), ⟨tree.remove target, none⟩) := by
  rw [rmtree, exec_bind_ok (exec_get _)]
  simp only [h]
  rfl

end Steps

/-- An installation in which `pano` can be removed and `illustration` cannot. -/
def halfRemovable (assets : CanonicalPath) : FileTree where
  entries := fun names =>
    if names = assets.names++[ascii "pano", ascii "old.jpg"] ∨
        names = assets.names++[ascii "illustration"] then some (.file (.bytes []))
    else if names <+: assets.names++[ascii "pano"] then some .directory
    else none
  canonical := by
    intro names entry h
    split_ifs at h with hfile hdirectory
    · rcases hfile with rfl | rfl
      · exact exists_canonicalPath assets (by decide) List.prefix_rfl
      · exact exists_canonicalPath assets (by decide) List.prefix_rfl
    · exact exists_canonicalPath assets (by decide) hdirectory
  closed := by
    intro names name entry h
    have hbegins : names <+: assets.names++[ascii "pano"] := by
      split_ifs at h with hfile hdirectory
      · rcases hfile with hfile | hfile
        · have hsplit : names++[name] = (assets.names++[ascii "pano"])++[ascii "old.jpg"] := by
            rw [hfile, List.append_assoc]
            rfl
          exact (List.append_inj' hsplit rfl).1 ▸ List.prefix_rfl
        · exact (List.append_inj' hfile rfl).1 ▸ List.prefix_append _ _
      · exact (List.prefix_append _ _).trans hdirectory
    have hlength := hbegins.length_le
    rw [if_neg, if_pos hbegins]
    rintro (rfl | rfl)
    · simp at hlength
    · have hlast := hbegins.eq_of_length (by simp)
      exact absurd (List.append_cancel_left hlast) (by decide)

namespace Migration

variable (m : Migration)

/-- The two files and the four directories are the same in both trees. -/
structure SameOutputs (before after : Tree) : Prop where
  config : after m.paths.config.names = before m.paths.config.names
  manifest : after m.paths.manifest.names = before m.paths.manifest.names
  assets : ∀ directory ∈ assetDirectories, ∀ names,
    after (m.paths.assets.names++directory :: names) =
      before (m.paths.assets.names++directory :: names)

/-- Whatever there was before and whichever change fails, a call that raises an exception leaves
the outputs as they were. -/
def Atomic : Prop :=
  ∀ (before : FileTree) left error disk,
    exec m.migrate ⟨before.entries, left⟩ = (.error error, disk) →
      m.SameOutputs before.entries disk.tree

variable {m}

theorem Atomic.sameOutputs (h : m.Atomic) {before : FileTree} {left : Option ℕ} {error : PyError}
    (hraises : (exec m.migrate ⟨before.entries, left⟩).1 = .error error) :
    m.SameOutputs before.entries (exec m.migrate ⟨before.entries, left⟩).2.tree :=
  h before left error _ (Prod.ext hraises rfl)

theorem exec_migrate_of_rejected {error : PyError} (h : m.plan = .error error) (disk : Disk) :
    exec m.migrate disk = (.error error, disk) := by
  rw [migrate]
  apply exec_bind_error
  rw [h]
  rfl

theorem exec_migrate_of_planned {plan : MigrationPlan} (h : m.plan = .ok plan) {disk disk' : Disk}
    {error : PyError}
    (hremove : exec (rmtrees m.paths.assets.names assetDirectories) disk = (.error error, disk')) :
    exec m.migrate disk = (.error error, disk') := by
  have hplan : exec (lift m.plan) disk = (.ok plan, disk) := by
    rw [h]
    rfl
  rw [migrate, exec_bind_ok hplan]
  apply exec_bind_error
  rw [copyAssets]
  exact exec_bind_error hremove _

theorem exec_rmtrees_halfRemovable (assets : CanonicalPath) :
    exec (rmtrees assets.names assetDirectories) ⟨(halfRemovable assets).entries, none⟩ =
      (.error .osError,
        ⟨(halfRemovable assets).entries.remove (assets.names++[ascii "pano"]), none⟩) := by
  have hpano : (halfRemovable assets).entries (assets.names++[ascii "pano"]) = some .directory := by
    rw [halfRemovable]
    simp only [List.append_cancel_left_eq]
    rw [if_neg (by decide), if_pos List.prefix_rfl]
  have hillustration : (halfRemovable assets).entries.remove (assets.names++[ascii "pano"])
      (assets.names++[ascii "illustration"]) = some (.file (.bytes [])) := by
    rw [Tree.remove, if_neg]
    · exact if_pos (.inr rfl)
    · intro hbegins
      have hlast := (List.isPrefixOf_iff_prefix.mp hbegins).eq_of_length (by simp)
      exact absurd (List.append_cancel_left hlast) (by decide)
  rw [assetDirectories, rmtrees, exec_bind_ok (exec_rmtree_directory hpano), rmtrees]
  exact exec_bind_error (exec_rmtree_file hillustration) _

/-- The exact condition is on the source alone: its paths, its page and the records in it. Once
these are accepted, the directories are removed one by one, and there are outputs from before
with which this stops halfway. -/
theorem atomic_iff : m.Atomic ↔ ∃ error, m.plan = .error error := by
  constructor
  · intro hatomic
    cases hplan : m.plan with
    | error error => exact ⟨error, rfl⟩
    | ok plan =>
      have hraises := exec_migrate_of_planned hplan (exec_rmtrees_halfRemovable m.paths.assets)
      have hsame := hatomic _ _ _ _ hraises
      have hold := hsame.assets (ascii "pano") (by decide) [ascii "old.jpg"]
      have hgone : (halfRemovable m.paths.assets).entries.remove
          (m.paths.assets.names++[ascii "pano"])
          (m.paths.assets.names++[ascii "pano", ascii "old.jpg"]) = none :=
        if_pos (List.isPrefixOf_iff_prefix.mpr ⟨[ascii "old.jpg"], by simp⟩)
      have hthere : (halfRemovable m.paths.assets).entries
          (m.paths.assets.names++[ascii "pano", ascii "old.jpg"]) = some (.file (.bytes [])) :=
        if_pos (.inl rfl)
      have hnone := hgone.symm.trans (hold.trans hthere)
      simp at hnone
  · rintro ⟨error, hplan⟩ before left error' disk hraises
    rw [exec_migrate_of_rejected hplan] at hraises
    cases hraises
    exact ⟨rfl, rfl, fun _ _ _ => rfl⟩

end Migration

/-- A tree with some entries, each of them in a directory that is an entry as well. -/
def FileTree.ofEntries (entries : List (List Bytes × Entry))
    (h : ∀ entry ∈ entries, (∀ name ∈ entry.1,
      name ≠ [] ∧ slash ∉ name ∧ 0 ∉ name ∧ name ≠ [dot] ∧ name ≠ [dot, dot]) ∧
      (entry.1 ≠ [] → entries.lookup entry.1.dropLast = some .directory)) : FileTree where
  entries := fun names => entries.lookup names
  canonical := by
    intro names entry hlookup
    exact ⟨⟨names, (h _ (mem_of_lookup hlookup)).1⟩, rfl⟩
  closed := by
    intro names name entry hlookup
    have hdirectory := (h _ (mem_of_lookup hlookup)).2 (by simp)
    simpa using hdirectory

section Sample

def record (members : List (String × PyValue)) : PyValue :=
  .dict (members.map (fun member => (ascii member.1, member.2)))

def sampleXml : Bytes :=
  ascii "<krpano><config><panos><pano name=\"s_1\"><view hlookat=\"0\" vlookat=\"0\" fov=\"90\"/>"++
  ascii "</pano></panos></config><scene name=\"s_1\" scene_id=\"1\" pano_id=\"2\">"++
  ascii "<preview url=\"/pano/preview.jpg\"/><image><cube url=\"/pano/%s.jpg\"/></image></scene>"++
  ascii "</krpano>"

/-- The page of one scene, the text of its sound being inserted. -/
def samplePage (sound : Bytes) : Bytes :=
  ascii "window.__INITIAL_STATE__=\x7bdata:\x7bproduct:\x7bconfig:\x7bcategory:[\x7bscenes:["++
  ascii "\x7bid:1,panoId:2,thumb:'/pano/thumb.jpg'\x7d]\x7d],"++
  ascii "scenes:[\x7bid:1,name:'Hall',panoId:2"++sound++
  ascii "\x7d]\x7d,property:\x7bid:9,name:'Museum'\x7d\x7d\x7d,xml:'"++sampleXml++ascii "'\x7d;"

def sampleState (sound : List (Bytes × PyValue)) : PyValue :=
  record [
    ("data", record [("product", record [
      ("config", record [
        ("category", .list [record [("scenes", .list [record [
          ("id", .int 1), ("panoId", .int 2), ("thumb", .str (ascii "/pano/thumb.jpg"))]])]]),
        ("scenes", .list [.dict ([(ascii "id", .int 1), (ascii "name", .str (ascii "Hall")),
          (ascii "panoId", .int 2)]++sound)])]),
      ("property", record [("id", .int 9), ("name", .str (ascii "Museum"))])])]),
    ("xml", .str sampleXml)]

def sampleRoot : Xml :=
  .element (ascii "krpano") [] [
    .element (ascii "config") [] [.element (ascii "panos") [] [
      .element (ascii "pano") [(ascii "name", ascii "s_1")] [
        .element (ascii "view") [(ascii "hlookat", ascii "0"), (ascii "vlookat", ascii "0"),
          (ascii "fov", ascii "90")] []]]],
    .element (ascii "scene") [(ascii "name", ascii "s_1"), (ascii "scene_id", ascii "1"),
        (ascii "pano_id", ascii "2")] [
      .element (ascii "preview") [(ascii "url", ascii "/pano/preview.jpg")] [],
      .element (ascii "image") [] [
        .element (ascii "cube") [(ascii "url", ascii "/pano/%s.jpg")] []]]]

def sampleLibrary : PythonLibrary Xml where
  floatOfText text := if text = ascii "0" then some (.finite 0)
    else if text = ascii "90" then some (.finite 90) else none
  repr _ := []
  fromstring _ := .ok sampleRoot

/-- The records of the manifest for files that are empty. -/
def emptyManifest (paths : List String) : PyValue :=
  .list (paths.map (fun path => record [("path", .str (ascii path)),
    ("sha256", .str (ascii "e3b0c44298fc1c149afbf4c8996fb92427ae41e4649b934ca495991b7852b855")),
    ("size", .int 0)]))

def sampleMigration (sound : List (Bytes × PyValue)) (assets : List String) (source : FileTree) :
    Migration where
  py := sampleLibrary
  parseSource _ := .ok (sampleState sound)
  assetManifest _ := emptyManifest assets
  paths :=
    { source := ⟨[ascii "src"], by decide⟩
      config := ⟨[ascii "out", ascii "exhibition.json"], by decide⟩
      assets := ⟨[ascii "out", ascii "assets"], by decide⟩
      manifest := ⟨[ascii "out", ascii "manifest.json"], by decide⟩ }
  source := source

/-- The page alone, without the assets that it refers to. -/
def barePage : FileTree :=
  .ofEntries [([], .directory), ([ascii "src"], .directory),
    ([ascii "src", ascii "index.html"], .file (.bytes (samplePage []))),
    ([ascii "src", ascii "assets"], .directory)] (by decide)

/-- The outputs of an earlier migration. -/
def installed : FileTree :=
  .ofEntries [([], .directory), ([ascii "out"], .directory),
    ([ascii "out", ascii "assets"], .directory),
    ([ascii "out", ascii "assets", ascii "pano"], .directory),
    ([ascii "out", ascii "assets", ascii "pano", ascii "old.jpg"], .file (.bytes []))]
    (by decide)

/-- The page is accepted; that an asset is missing is noticed when the old ones are gone. -/
theorem old_assets_lost :
    (exec (sampleMigration [] [] barePage).migrate ⟨installed.entries, none⟩).1 =
      .error (.fileNotFoundError
        (ascii "referenced asset is missing: /src/assets/pano/preview.jpg")) ∧
    ¬(sampleMigration [] [] barePage).Atomic := by
  have hraises : (exec (sampleMigration [] [] barePage).migrate ⟨installed.entries, none⟩).1 =
      .error (.fileNotFoundError
        (ascii "referenced asset is missing: /src/assets/pano/preview.jpg")) := by
    decide +kernel
  have hgone : (exec (sampleMigration [] [] barePage).migrate ⟨installed.entries, none⟩).2.tree
      ((sampleMigration [] [] barePage).paths.assets.names++ascii "pano" :: [ascii "old.jpg"]) ≠
      installed.entries
        ((sampleMigration [] [] barePage).paths.assets.names++ascii "pano" :: [ascii "old.jpg"]) := by
    decide +kernel
  refine ⟨hraises, fun hatomic => hgone ?_⟩
  exact (hatomic.sameOutputs hraises).assets (ascii "pano") (by decide) _

end Sample

end JingjieAR
