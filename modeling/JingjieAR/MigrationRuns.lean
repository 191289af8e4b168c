import JingjieAR.MigratedFiles

/-! A migration that completes: the assets that it has copied, as the server finds them, and the
configuration beside them. -/
namespace JingjieAR

open PyValue Throwing

namespace Migration

variable {m : Migration}

section Outputs

variable {disk disk' : Disk} {u : Unit} {requests : List (PyResult PyValue)} {path : Bytes}

/-- No output is at or below another one. -/
structure Separate (m : Migration) : Prop where
  config : ¬m.paths.assets.names <+: m.paths.config.names
  manifest : ¬m.paths.assets.names <+: m.paths.manifest.names
  files : m.paths.config.names ≠ m.paths.manifest.names

theorem separate_of_validatePaths (h : validatePaths m.paths m.source = .ok u) : m.Separate := by
  obtain ⟨_, -, h⟩ := bind_eq_ok_iff.mp h
  obtain ⟨_, -, hpairs⟩ := bind_eq_ok_iff.mp h
  have hapart : ∀ pair ∈ laterPairs m.paths.outputs, ¬overlaps pair.1.2 pair.2.2 = true :=
    fun pair hpair => raiseIf_eq_ok_iff.mp (forall_of_forM hpairs pair hpair)
  simp only [MigrationPaths.outputs, laterPairs, overlaps, isWithin, List.map_cons, List.map_nil,
    List.nil_append, List.append_nil, List.cons_append, List.forall_mem_cons, Bool.or_eq_true,
    List.isPrefixOf_iff_prefix, not_or] at hapart
  obtain ⟨⟨hconfig, -⟩, ⟨hfiles, -⟩, ⟨-, hmanifest⟩, -⟩ := hapart
  exact ⟨hconfig, hmanifest, fun heq => hfiles (heq ▸ List.prefix_rfl)⟩

theorem separate_of_plan {plan : MigrationPlan} (h : m.plan = .ok plan) : m.Separate := by
  obtain ⟨records, hrecords, -⟩ := bind_eq_ok_iff.mp h
  obtain ⟨_, hvalid, -⟩ := bind_eq_ok_iff.mp hrecords
  exact separate_of_validatePaths hvalid

/-- A file in JSON, and directories on the way to it. -/
theorem exec_writeJson_ok {target : CanonicalPath} {value : Tree → PyValue}
    (h : exec (writeJson target value) disk = (.ok u, disk')) :
    ∃ tree, MadeDirectories disk.tree tree target.names.dropLast ∧
      ∀ names, disk'.tree names =
        if names = target.names then some (.file (.json (value tree))) else tree names := by
  obtain ⟨parent, disk₁, hmkdirs, h⟩ := exec_bind_eq_ok h
  have hdots : ∀ part ∈ target.names.dropLast, part ≠ [dot, dot] :=
    fun part hpart => (target.wf part (List.mem_of_mem_dropLast hpart)).2.2.2.2
  obtain ⟨-, hmade⟩ := exec_mkdirs_ok hdots hmkdirs
  rw [List.nil_append] at hmade
  rw [exec_bind_ok (exec_get disk₁)] at h
  obtain ⟨written, hwritten, -, hentries⟩ := exec_writeFile_ok h
  rw [encode] at hwritten
  split_ifs at hwritten
  cases hwritten
  exact ⟨disk₁.tree, hmade, hentries⟩

/-- A file in JSON that is outside the assets changes nothing in them. -/
theorem writeJson_inAssets {target : CanonicalPath} {value : Tree → PyValue}
    (h : exec (writeJson target value) disk = (.ok u, disk'))
    (hout : ¬m.paths.assets.names <+: target.names) {names : List Bytes} (hin : m.InAssets names) :
    disk'.tree names = disk.tree names := by
  obtain ⟨directory, -, more, rfl⟩ := hin
  obtain ⟨tree, hmade, hentries⟩ := exec_writeJson_ok h
  have hbelow : ¬m.paths.assets.names++directory :: more <+: target.names :=
    fun hbegins => hout ((List.prefix_append _ _).trans hbegins)
  have hother : m.paths.assets.names++directory :: more ≠ target.names :=
    fun heq => hbelow (heq ▸ List.prefix_rfl)
  rw [hentries, if_neg hother]
  rcases hmade (m.paths.assets.names++directory :: more) with hsame | ⟨hbegins, -, -⟩
  · exact hsame
  · exact absurd (hbegins.trans (List.dropLast_prefix _)) hbelow

/-- What a migration that completes has done. -/
theorem exec_migrate_ok (h : exec m.migrate disk = (.ok u, disk')) :
    ∃ plan disk₁, m.plan = .ok plan ∧
      exec (m.copyAssets (plan.rawScenes.flatMap (sceneRequests m.py plan.resources))) disk =
        (.ok (), disk₁) ∧
      disk'.tree m.paths.config.names = some (.file (.json plan.output.toPy)) ∧
      ∀ names, m.InAssets names → disk'.tree names = disk₁.tree names := by
  obtain ⟨plan, disk₀, hlift, hrest⟩ := exec_bind_eq_ok h
  obtain ⟨hplan, rfl⟩ := exec_lift_ok hlift
  obtain ⟨_, disk₁, hcopy, hwrites⟩ := exec_bind_eq_ok hrest
  obtain ⟨_, disk₂, hconfig, hmanifest⟩ := exec_bind_eq_ok hwrites
  have hseparate := separate_of_plan hplan
  refine ⟨plan, disk₁, hplan, hcopy, ?_, ?_⟩
  · obtain ⟨tree, -, hentries⟩ := exec_writeJson_ok hconfig
    obtain ⟨tree', hmade, hentries'⟩ := exec_writeJson_ok hmanifest
    have hwritten : disk₂.tree m.paths.config.names = some (.file (.json plan.output.toPy)) := by
      rw [hentries, if_pos rfl]
    rw [hentries', if_neg hseparate.files]
    rcases hmade m.paths.config.names with hsame | ⟨-, hnone, -⟩
    · exact hsame.trans hwritten
    · rw [hwritten] at hnone
      cases hnone
  · intro names hin
    rw [writeJson_inAssets hmanifest hseparate.manifest hin,
      writeJson_inAssets hconfig hseparate.config hin]

/-- After the removal nothing is left below the four directories. -/
theorem filesAre_nil (hclosed : disk.tree.Closed)
    (h : exec (rmtrees m.paths.assets.names assetDirectories) disk = (.ok u, disk')) :
    m.FilesAre [] disk'.tree := by
  obtain ⟨hgone, -⟩ := exec_rmtrees_ok hclosed h
  refine ⟨by simp, by simp, by simp, ?_⟩
  rintro names entry ⟨directory, hdirectory, more, rfl⟩ hentry
  rw [hgone directory hdirectory more] at hentry
  cases hentry

theorem localPath_of_request {request : PyResult PyValue}
    (h : requestPath m.py request = .ok path) (hne : path ≠ []) : localPath path = some path := by
  obtain ⟨value, -, hpath⟩ := bind_eq_ok_iff.mp h
  rcases sourceAssetPath_eq_ok_iff.mp hpath with ⟨-, hnil⟩ | ⟨text, -, -, hlocal⟩
  · exact absurd hnil hne
  · exact (localPath_eq_some hlocal).1

/-- All requests are for files that the source has. -/
theorem hasSource_of_copyAssets (h : exec (m.copyAssets requests) disk = (.ok u, disk')) :
    ∀ request ∈ requests, ∃ path, requestPath m.py request = .ok path ∧
      (path ≠ [] → m.HasSource path) := by
  obtain ⟨_, disk₁, -, hcopies⟩ := exec_bind_eq_ok h
  have hstart : ∀ path ∈ ([] : List Bytes), m.HasSource path := by simp
  obtain ⟨done, hdone, hmem, hall⟩ :=
    exec_copyRequests_ok (P := fun done _ => ∀ path ∈ done, m.HasSource path)
      (fun yielded path disk disk' _ _ hold hcopy => List.forall_mem_cons.mpr
        ⟨hasSource_of_copyAsset hcopy, hold⟩) hstart hcopies
  intro request hrequest
  obtain ⟨path, hpath⟩ := hall request hrequest
  exact ⟨path, hpath, fun hne => hdone path ((hmem path).mpr (.inr ⟨hne, request, hrequest, hpath⟩))⟩

/-- If all paths are plain, then the files are those of the paths. -/
theorem filesAre_of_copyAssets (hclosed : disk.tree.Closed)
    (hplain : ∀ request ∈ requests, ∀ path, requestPath m.py request = .ok path → path ≠ [] →
      ∃ name rest, AssetFilePath path name rest)
    (h : exec (m.copyAssets requests) disk = (.ok u, disk')) :
    ∃ done, m.FilesAre done disk'.tree ∧ ∀ path, path ∈ done ↔
      path ≠ [] ∧ ∃ request ∈ requests, requestPath m.py request = .ok path := by
  obtain ⟨_, disk₁, hremove, hcopies⟩ := exec_bind_eq_ok h
  obtain ⟨done, hdone, hmem, -⟩ := exec_copyRequests_ok (P := m.FilesAre)
    (by
      rintro yielded path disk disk' ⟨request, hrequest, hpath⟩ hne hold hcopy
      obtain ⟨name, rest, hfile⟩ := hplain request hrequest path hpath hne
      exact hold.copy hfile (localPath_of_request hpath hne) hcopy)
    (filesAre_nil hclosed hremove) hcopies
  refine ⟨done, hdone, fun path => ?_⟩
  rw [hmem]
  simp

theorem FilesAre.congr {done : List Bytes} {tree tree' : Tree} (h : m.FilesAre done tree)
    (hsame : ∀ names, m.InAssets names → tree' names = tree names) : m.FilesAre done tree' := by
  refine ⟨h.plain, h.source, ?_, ?_⟩
  · intro path hpath name rest hplain
    rw [hsame _ ⟨name.2, mem_assetDirectories_of_mem name hplain.known, rest, rfl⟩]
    exact h.file path hpath name rest hplain
  · intro names entry hin hentry
    rw [hsame names hin] at hentry
    exact h.entry names entry hin hentry

end Outputs

section Nul

variable {path : Bytes}

theorem mem_pathSegments {c : UInt8} {text segment : Bytes} (hc : c ≠ slash)
    (h : c ∈ segment++text) : ∃ s ∈ pathSegments text segment, c ∈ s := by
  induction text generalizing segment with
  | nil =>
    rw [List.append_nil] at h
    have hne : segment ≠ [] := List.ne_nil_of_mem h
    exact ⟨segment, by simp [pathSegments, hne], h⟩
  | cons d text ih =>
    rw [pathSegments]
    split_ifs with hd
    · have hmem : c ∈ segment ∨ c ∈ text := by simpa [hd, hc] using h
      rcases hmem with hmem | hmem
      · exact ⟨segment, List.mem_cons_self, hmem⟩
      · have hrest : c ∈ ([] : Bytes)++text := hmem
        obtain ⟨s, hs, hcs⟩ := ih hrest
        exact ⟨s, List.mem_cons_of_mem _ hs, hcs⟩
    · exact ih (by simpa using h)

/-- The walk along a path to an entry begins at an entry. -/
theorem entry_of_resolve {tree : Tree} {names parts target : List Bytes} {entry : Entry}
    (h : tree.resolve names parts = some target) (hentry : tree target = some entry) :
    ∃ entry', tree names = some entry' := by
  cases parts with
  | nil =>
    rw [Tree.resolve] at h
    exact ⟨entry, Option.some.inj h ▸ hentry⟩
  | cons part parts =>
    rw [Tree.resolve] at h
    split at h
    · rename_i hdirectory
      exact ⟨.directory, hdirectory⟩
    · cases h

/-- No part of a path to an entry has NUL in it. -/
theorem zero_notMem_of_resolve {tree : FileTree} {names parts target : List Bytes} {entry : Entry}
    (h : tree.entries.resolve names parts = some target)
    (hentry : tree.entries target = some entry) : ∀ part ∈ parts, 0 ∉ part := by
  induction parts generalizing names with
  | nil => simp
  | cons part parts ih =>
    rw [Tree.resolve] at h
    split at h
    · intro part' hpart'
      rcases List.mem_cons.mp hpart' with rfl | hpart'
      · split_ifs at h with hdots
        · simp [hdots, dot]
        · obtain ⟨entry', hentry'⟩ := entry_of_resolve h hentry
          obtain ⟨p, hp⟩ := tree.canonical _ _ hentry'
          exact (p.wf part' (by simp [hp])).2.2.1
      · exact ih h part' hpart'
    · cases h

theorem HasSource.zero_notMem (h : m.HasSource path) (hlocal : localPath path = some path) :
    0 ∉ path := by
  obtain ⟨content, hfile⟩ := h
  obtain ⟨target, hresolve, hentry⟩ := Tree.file_eq_some hfile
  obtain ⟨-, -, name, -, rest, rfl⟩ := localPath_eq_some hlocal
  have hremoved : removePrefix [slash] (slash :: (name.1++slash :: rest)) = name.1++slash :: rest := by
    simp [removePrefix]
  rw [hremoved] at hresolve
  intro hzero
  have hmem : 0 ∈ ([] : Bytes)++(name.1++slash :: rest) := by
    simpa [slash] using hzero
  obtain ⟨s, hs, hzero⟩ := mem_pathSegments (by decide) hmem
  -- A dropped piece is empty or a dot.
  have hpart : s ∈ pathParts (name.1++slash :: rest) := by
    refine List.mem_filter.mpr ⟨hs, ?_⟩
    have hdot : s ≠ [dot] := by
      rintro rfl
      simp [dot] at hzero
    simpa [hdot] using List.ne_nil_of_mem hzero
  exact zero_notMem_of_resolve hresolve hentry s hpart hzero

end Nul

section Serving

variable {fs : FileSystem} {staticRoot : Bytes} {top : CanonicalPath} {tree : Tree}
  {done : List Bytes} {path : Bytes} {name : Bytes × Bytes} {rest : List Bytes}

/-- The place of a plain path in the assets. -/
theorem exists_destination (hplain : AssetFilePath path name rest)
    (hrest : ∀ s ∈ rest, 0 ∉ s) :
    ∃ p : CanonicalPath, p.names = m.paths.assets.names++name.2 :: rest := by
  obtain ⟨-, hslash, -, -, hne, hdot, hdots⟩ := assetNames_valid name hplain.known
  have hzero : ∀ name ∈ assetNames, 0 ∉ name.2 := by decide
  refine exists_canonicalPath m.paths.assets ?_ List.prefix_rfl
  intro s hs
  rcases List.mem_cons.mp hs with rfl | hs
  · exact ⟨hne, hslash, hzero name hplain.known, hdot, hdots⟩
  · obtain ⟨hs₁, -, hs₂, hs₃, hs₄⟩ := hplain.segments s hs
    exact ⟨hs₂, hs₁, hrest s hs, hs₃, hs₄⟩

theorem Served.text_eq (h : m.Served fs staticRoot top tree) {p : CanonicalPath}
    (hp : p.names = m.paths.assets.names++name.2 :: rest) :
    top.text++plainUrl name rest = p.text := by
  have hsplit : p.names = top.names++ascii "assets" :: name.2 :: rest := by
    rw [hp, h.assets, List.append_assoc]
    rfl
  rw [CanonicalPath.text_eq_joinNames h.root.below,
    CanonicalPath.text_eq_joinNames (by simp [hsplit]), hsplit, joinNames, joinNames,
    List.flatMap_append]
  rfl

/-- The server finds the files of the paths that were copied, and no others. -/
theorem Served.namesAsset_iff (h : m.Served fs staticRoot top tree) (hfiles : m.FilesAre done tree)
    (hplain : AssetFilePath path name rest) :
    NamesAsset fs top (plainUrl name rest) ↔ path ∈ done := by
  have hin : m.InAssets (m.paths.assets.names++name.2 :: rest) :=
    ⟨name.2, mem_assetDirectories_of_mem name hplain.known, rest, rfl⟩
  constructor
  · rintro ⟨hzero, q, hresolves, -, st, hstat, hregular⟩
    have hrest : ∀ s ∈ rest, 0 ∉ s := by
      intro s hs hmem
      refine hzero (List.mem_append_right _ ?_)
      exact List.mem_flatMap.mpr ⟨s, List.mem_cons_of_mem _ hs, List.mem_cons_of_mem _ hmem⟩
    obtain ⟨p, hp⟩ := exists_destination (m := m) hplain hrest
    rw [h.text_eq hp] at hresolves
    cases hentry : tree p.names with
    | none =>
      rw [h.absent p (hp ▸ hin) hentry] at hresolves
      cases hresolves
    | some entry =>
      obtain ⟨hsame, st', hstat', hfile⟩ := h.present p entry (hp ▸ hin) hentry
      rw [← Option.some.inj (hsame.symm.trans hresolves), hstat'] at hstat
      obtain rfl := Option.some.inj hstat
      obtain ⟨path', hpath', name', rest', more, hplain', hnames, hmore⟩ :=
        hfiles.entry p.names entry (hp ▸ hin) hentry
      have hnil : more = [] := by
        by_contra hne
        exact hfile.mp hregular (hmore.mpr hne)
      rw [hnil, List.append_nil, hp] at hnames
      rwa [hplain.inj hplain' (List.append_cancel_left hnames).symm]
  · intro hpath
    obtain ⟨content, hsource⟩ := hfiles.source path hpath name rest hplain
    obtain ⟨q, hq⟩ := m.source.canonical _ _ hsource
    have hrest : ∀ s ∈ rest, 0 ∉ s := fun s hs => (q.wf s (by simp [hq, hs])).2.2.1
    obtain ⟨p, hp⟩ := exists_destination (m := m) hplain hrest
    obtain ⟨content', hfile⟩ := hfiles.file path hpath name rest hplain
    obtain ⟨hresolves, st, hstat, hregular⟩ := h.present p _ (hp ▸ hin) (hp ▸ hfile)
    refine ⟨?_, p, h.text_eq hp ▸ hresolves, ?_, st, hstat, hregular.mpr (by simp)⟩
    · intro hmem
      refine p.zero_notMem_text ?_
      rw [← h.text_eq hp]
      exact List.mem_append_right _ hmem
    · exact ⟨ascii "assets" :: name.2 :: rest, by simp, by simp [hp, h.assets]⟩

end Serving

end Migration

end JingjieAR
