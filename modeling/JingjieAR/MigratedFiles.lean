import JingjieAR.MigratedUrls

/-! The files that a migration leaves below its four directories: a file for each path that was
asked for, and directories on the way to them. -/
namespace JingjieAR

open PyValue Throwing

section Operations

variable {disk disk' : Disk} {names path : List Bytes} {u : Unit}

theorem exec_lift_ok {α : Type} {x : PyResult α} {a : α}
    (h : exec (lift x) disk = (.ok a, disk')) : x = .ok a ∧ disk' = disk := by
  cases x with
  | ok value =>
    cases h
    exact ⟨rfl, rfl⟩
  | error error => cases h

theorem exec_change_ok {f : Tree → Tree} (h : exec (change f) disk = (.ok u, disk')) :
    disk'.tree = f disk.tree := by
  rw [change, exec_bind_ok (exec_get disk)] at h
  split_ifs at h
  · cases h
  · cases h
    rfl

/-- Entries that were there are kept, and new ones are directories on the way to a path. -/
def MadeDirectories (before after : Tree) (path : List Bytes) : Prop :=
  ∀ names, after names = before names ∨
    (names <+: path ∧ before names = none ∧ after names = some .directory)

theorem exec_mkdir_ok (h : exec (mkdir names) disk = (.ok u, disk')) :
    MadeDirectories disk.tree disk'.tree names := by
  rw [mkdir, exec_bind_ok (exec_get disk)] at h
  split at h
  · cases h
    exact fun _ => .inl rfl
  · cases h
  · rename_i hnone
    rw [exec_change_ok h]
    intro names'
    rw [Tree.put]
    split_ifs with heq
    · exact .inr ⟨heq ▸ List.prefix_rfl, heq ▸ hnone, rfl⟩
    · exact .inl rfl

theorem MadeDirectories.trans {tree tree' tree'' : Tree} {path path' : List Bytes}
    (h : MadeDirectories tree tree' path) (h' : MadeDirectories tree' tree'' path')
    (hpath : path <+: path') : MadeDirectories tree tree'' path' := by
  intro names
  rcases h' names with heq | ⟨hbegins, hnone, hmade⟩
  · rcases h names with heq' | ⟨hbegins, hnone, hmade⟩
    · exact .inl (heq.trans heq')
    · exact .inr ⟨hbegins.trans hpath, hnone, heq.trans hmade⟩
  · rcases h names with heq' | ⟨-, -, hmade'⟩
    · exact .inr ⟨hbegins, heq' ▸ hnone, hmade⟩
    · rw [hmade'] at hnone
      cases hnone

theorem exec_mkdirs_ok {parts result : List Bytes} (hparts : ∀ part ∈ parts, part ≠ [dot, dot])
    (h : exec (mkdirs names parts) disk = (.ok result, disk')) :
    result = names++parts ∧ MadeDirectories disk.tree disk'.tree (names++parts) := by
  induction parts generalizing names disk with
  | nil =>
    cases h
    exact ⟨(List.append_nil _).symm, fun _ => .inl rfl⟩
  | cons part parts ih =>
    rw [mkdirs, if_neg (hparts part List.mem_cons_self)] at h
    obtain ⟨_, disk₁, hfirst, hrest⟩ := exec_bind_eq_ok h
    obtain ⟨hresult, hmade⟩ := ih (fun part' hp => hparts part' (List.mem_cons_of_mem _ hp)) hrest
    rw [List.append_assoc, List.singleton_append] at hresult hmade
    refine ⟨hresult, (exec_mkdir_ok hfirst).trans hmade ?_⟩
    exact ⟨parts, by simp⟩

theorem exec_writeFile_ok {content : PyResult Content}
    (h : exec (writeFile names content) disk = (.ok u, disk')) :
    ∃ written, content = .ok written ∧ disk.tree names ≠ some .directory ∧
      ∀ names', disk'.tree names' =
        if names' = names then some (.file written) else disk.tree names' := by
  obtain ⟨_, disk₁, hopen, h⟩ := exec_bind_eq_ok h
  obtain ⟨written, disk₂, hlift, hwrite⟩ := exec_bind_eq_ok h
  obtain ⟨hcontent, rfl⟩ := exec_lift_ok hlift
  rw [openFile, exec_bind_ok (exec_get disk)] at hopen
  split_ifs at hopen with hdirectory
  · cases hopen
  · refine ⟨written, hcontent, hdirectory, ?_⟩
    intro names'
    rw [exec_change_ok hwrite, exec_change_ok hopen]
    simp only [Tree.put]
    split_ifs
    · rfl
    · rfl

theorem Tree.resolve_eq {tree : Tree} {parts target : List Bytes}
    (hparts : ∀ part ∈ parts, part ≠ [dot, dot]) (h : tree.resolve names parts = some target) :
    target = names++parts := by
  induction parts generalizing names with
  | nil =>
    rw [Tree.resolve] at h
    rw [List.append_nil, Option.some.inj h]
  | cons part parts ih =>
    rw [Tree.resolve, if_neg (hparts part List.mem_cons_self)] at h
    split at h
    · rw [ih (fun part' hp => hparts part' (List.mem_cons_of_mem _ hp)) h]
      simp
    · cases h

theorem Tree.file_eq_some {tree : Tree} {parts : List Bytes} {content : Content}
    (h : tree.file names parts = some content) :
    ∃ target, tree.resolve names parts = some target ∧ tree target = some (.file content) := by
  rw [Tree.file] at h
  split at h
  · rename_i target hresolve
    split at h
    · rename_i content' hentry
      cases h
      exact ⟨target, hresolve, hentry⟩
    · cases h
  · cases h

/-- Every entry is in a directory. -/
def Tree.Closed (tree : Tree) : Prop :=
  ∀ names name entry, tree (names++[name]) = some entry → tree names = some .directory

theorem Tree.Closed.directory {tree : Tree} (hclosed : tree.Closed) {names more : List Bytes}
    {entry : Entry} (h : tree (names++more) = some entry) (hmore : more ≠ []) :
    tree names = some .directory := by
  induction more using List.reverseRecOn generalizing entry with
  | nil => exact absurd rfl hmore
  | append_singleton more name ih =>
    rw [← List.append_assoc] at h
    have hparent := hclosed _ _ _ h
    by_cases hnil : more = []
    · rwa [hnil, List.append_nil] at hparent
    · exact ih hparent hnil

theorem exec_rmtree_ok (hclosed : disk.tree.Closed)
    (h : exec (rmtree path) disk = (.ok u, disk')) :
    disk'.tree.Closed ∧ (∀ names, path <+: names → disk'.tree names = none) ∧
      ∀ names, disk.tree names = none → disk'.tree names = none := by
  rw [rmtree, exec_bind_ok (exec_get disk)] at h
  split at h
  · rename_i hnone
    cases h
    refine ⟨hclosed, ?_, fun _ hn => hn⟩
    rintro names ⟨more, rfl⟩
    by_contra hsome
    obtain ⟨entry, hentry⟩ := Option.ne_none_iff_exists'.mp hsome
    by_cases hmore : more = []
    · rw [hmore, List.append_nil, hnone] at hentry
      cases hentry
    · rw [hclosed.directory hentry hmore] at hnone
      cases hnone
  · cases h
  · rw [exec_change_ok h]
    refine ⟨?_, ?_, ?_⟩
    · intro names name entry hentry
      rw [Tree.remove] at hentry ⊢
      split_ifs at hentry with hbegins
      rw [if_neg]
      · exact hclosed _ _ _ hentry
      · intro hbegins'
        rw [List.isPrefixOf_iff_prefix] at hbegins hbegins'
        exact hbegins (hbegins'.trans (List.prefix_append _ _))
    · intro names hbegins
      exact if_pos (List.isPrefixOf_iff_prefix.mpr hbegins)
    · intro names hnone
      rw [Tree.remove, hnone, ite_self]

theorem exec_rmtrees_ok {directories : List Bytes} (hclosed : disk.tree.Closed)
    (h : exec (rmtrees path directories) disk = (.ok u, disk')) :
    (∀ directory ∈ directories, ∀ more, disk'.tree (path++directory :: more) = none) ∧
      ∀ names, disk.tree names = none → disk'.tree names = none := by
  induction directories generalizing disk with
  | nil =>
    cases h
    exact ⟨by simp, fun _ hn => hn⟩
  | cons directory directories ih =>
    obtain ⟨_, disk₁, hfirst, hrest⟩ := exec_bind_eq_ok h
    obtain ⟨hclosed₁, hgone, hkept⟩ := exec_rmtree_ok hclosed hfirst
    obtain ⟨hothers, hkept'⟩ := ih hclosed₁ hrest
    refine ⟨?_, fun names hn => hkept' names (hkept names hn)⟩
    intro directory' hdirectory' more
    rcases List.mem_cons.mp hdirectory' with rfl | hmem
    · exact hkept' _ (hgone _ ⟨more, by simp⟩)
    · exact hothers directory' hmem more

end Operations

namespace Migration

variable {m : Migration}

section Copies

variable {disk disk' : Disk} {u : Unit} {path : Bytes} {done : List Bytes}

/-- The source has the file of a path. -/
def HasSource (m : Migration) (path : Bytes) : Prop :=
  ∃ content, m.source.entries.file m.paths.sourceAssets
    (pathParts (removePrefix [slash] path)) = some content

theorem hasSource_of_copyAsset (h : exec (m.copyAsset path) disk = (.ok u, disk')) :
    m.HasSource path := by
  obtain ⟨url, disk₁, hlift, h⟩ := exec_bind_eq_ok h
  cases hfile : m.source.entries.file m.paths.sourceAssets
      (pathParts (removePrefix [slash] path)) with
  | some content => exact ⟨content, hfile⟩
  | none =>
    simp only [hfile] at h
    cases h

/-- The copying of a plain path, as long as its place is not taken by a directory. -/
theorem exec_copyAsset_ok {name : Bytes × Bytes} {rest : List Bytes}
    (hplain : AssetFilePath path name rest) (hlocal : localPath path = some path)
    (h : exec (m.copyAsset path) disk = (.ok u, disk'))
    (hfree : disk.tree (m.paths.assets.names++name.2 :: rest) ≠ some .directory) :
    ∃ tree content, MadeDirectories disk.tree tree
        (m.paths.assets.names++(name.2 :: rest).dropLast) ∧
      ∀ names, disk'.tree names =
        if names = m.paths.assets.names++name.2 :: rest then some (.file content)
        else tree names := by
  have hdots : ∀ part ∈ m.paths.assets.names++(name.2 :: rest).dropLast, part ≠ [dot, dot] := by
    obtain ⟨-, -, -, -, -, -, hname⟩ := assetNames_valid name hplain.known
    intro part hpart
    rcases List.mem_append.mp hpart with hpart | hpart
    · exact (m.paths.assets.wf part hpart).2.2.2.2
    · rcases List.mem_cons.mp (List.mem_of_mem_dropLast hpart) with rfl | hpart
      · exact hname
      · exact (hplain.segments part hpart).2.2.2.2
  have hlast : ∀ names : List Bytes, names.dropLast++names.getLast?.toList = names := by
    intro names
    cases names using List.reverseRecOn with
    | nil => rfl
    | append_singleton names name => simp
  obtain ⟨url, disk₁, hlift, h⟩ := exec_bind_eq_ok h
  obtain ⟨hurl, rfl⟩ := exec_lift_ok hlift
  obtain rfl := Except.ok.inj (hurl.symm.trans (hplain.assetUrl hlocal))
  simp only [hplain.urlParts] at h
  split at h
  · cases h
  · obtain ⟨parent, disk₂, hmkdirs, h⟩ := exec_bind_eq_ok h
    obtain ⟨rfl, hmade⟩ := exec_mkdirs_ok hdots hmkdirs
    rw [List.nil_append] at hmade
    rw [exec_bind_ok (exec_get disk₂), List.nil_append, List.append_assoc, hlast] at h
    -- The new directories are shorter than the path of the file.
    have hfree₂ : disk₂.tree (m.paths.assets.names++name.2 :: rest) ≠ some .directory := by
      rcases hmade (m.paths.assets.names++name.2 :: rest) with heq | ⟨hbegins, -, -⟩
      · rwa [heq]
      · have hlength := hbegins.length_le
        simp at hlength
    rw [if_neg hfree₂] at h
    obtain ⟨written, -, -, hentries⟩ := exec_writeFile_ok h
    exact ⟨disk₂.tree, written, hmade, hentries⟩

/-- The entries below the four directories: the file of each path that has been copied, and the
directories on the way to it. -/
structure FilesAre (m : Migration) (done : List Bytes) (tree : Tree) : Prop where
  plain : ∀ path ∈ done, ∃ name rest, AssetFilePath path name rest
  source : ∀ path ∈ done, ∀ name rest, AssetFilePath path name rest →
    ∃ content, m.source.entries (m.paths.sourceAssets++name.1 :: rest) = some (.file content)
  file : ∀ path ∈ done, ∀ name rest, AssetFilePath path name rest →
    ∃ content, tree (m.paths.assets.names++name.2 :: rest) = some (.file content)
  entry : ∀ names entry, m.InAssets names → tree names = some entry →
    ∃ path ∈ done, ∃ name rest more, AssetFilePath path name rest ∧
      m.paths.assets.names++name.2 :: rest = names++more ∧ (entry = .directory ↔ more ≠ [])

theorem HasSource.entry {name : Bytes × Bytes} {rest : List Bytes} (h : m.HasSource path)
    (hplain : AssetFilePath path name rest) :
    ∃ content, m.source.entries (m.paths.sourceAssets++name.1 :: rest) = some (.file content) := by
  obtain ⟨content, hfile⟩ := h
  obtain ⟨target, hresolve, hentry⟩ := Tree.file_eq_some hfile
  rw [hplain.sourceParts] at hresolve
  obtain ⟨⟨-, -, -, -, hname⟩, -⟩ := assetNames_valid name hplain.known
  have hdots : ∀ part ∈ name.1 :: rest, part ≠ [dot, dot] := by
    intro part hpart
    rcases List.mem_cons.mp hpart with rfl | hpart
    · exact hname
    · exact (hplain.segments part hpart).2.2.2.2
  exact ⟨content, Tree.resolve_eq hdots hresolve ▸ hentry⟩

/-- A file of the source is not a directory for another one. -/
theorem FilesAre.free {name : Bytes × Bytes} {rest : List Bytes} {tree : Tree}
    (h : m.FilesAre done tree) (hsource : m.HasSource path)
    (hplain : AssetFilePath path name rest) :
    tree (m.paths.assets.names++name.2 :: rest) ≠ some .directory := by
  intro hdirectory
  have hin : m.InAssets (m.paths.assets.names++name.2 :: rest) :=
    ⟨name.2, mem_assetDirectories_of_mem name hplain.known, rest, rfl⟩
  obtain ⟨path', hpath', name', rest', more, hplain', hnames, hmore⟩ := h.entry _ _ hin hdirectory
  rw [List.append_assoc] at hnames
  have hparts : name'.2 :: rest' = name.2 :: (rest++more) := List.append_cancel_left hnames
  obtain ⟨hname, hrest⟩ := List.cons.inj hparts
  obtain rfl := assetNames_inj name' hplain'.known name hplain.known hname
  obtain ⟨content, hfile⟩ := hsource.entry hplain
  obtain ⟨content', hfile'⟩ := h.source path' hpath' name' rest' hplain'
  have hclosed : Tree.Closed m.source.entries := m.source.closed
  rw [hrest, ← List.cons_append, ← List.append_assoc] at hfile'
  rw [hclosed.directory hfile' (hmore.mp rfl)] at hfile
  cases hfile

theorem FilesAre.copy {name : Bytes × Bytes} {rest : List Bytes} (h : m.FilesAre done disk.tree)
    (hplain : AssetFilePath path name rest) (hlocal : localPath path = some path)
    (hcopy : exec (m.copyAsset path) disk = (.ok u, disk')) :
    m.FilesAre (path :: done) disk'.tree := by
  have hsource := hasSource_of_copyAsset hcopy
  obtain ⟨tree, content, hmade, hentries⟩ :=
    exec_copyAsset_ok hplain hlocal hcopy (h.free hsource hplain)
  constructor
  · intro path' hpath'
    rcases List.mem_cons.mp hpath' with rfl | hpath'
    · exact ⟨name, rest, hplain⟩
    · exact h.plain path' hpath'
  · intro path' hpath' name' rest' hplain'
    rcases List.mem_cons.mp hpath' with rfl | hpath'
    · exact hsource.entry hplain'
    · exact h.source path' hpath' name' rest' hplain'
  · intro path' hpath' name' rest' hplain'
    rw [hentries]
    split_ifs with heq
    · exact ⟨content, rfl⟩
    · rcases List.mem_cons.mp hpath' with rfl | hpath'
      · obtain ⟨rfl, rfl⟩ := hplain'.unique hplain
        exact absurd rfl heq
      · obtain ⟨content', hfile⟩ := h.file path' hpath' name' rest' hplain'
        rcases hmade (m.paths.assets.names++name'.2 :: rest') with hsame | ⟨-, hnone, -⟩
        · exact ⟨content', hsame.trans hfile⟩
        · rw [hfile] at hnone
          cases hnone
  · intro names entry hin hentry
    rw [hentries] at hentry
    split_ifs at hentry with heq
    · cases hentry
      exact ⟨path, List.mem_cons_self, name, rest, [], hplain, by simp [heq], by simp⟩
    · rcases hmade names with hsame | ⟨⟨more, hmore⟩, -, hdirectory⟩
      · obtain ⟨path', hpath', hothers⟩ := h.entry names entry hin (hsame ▸ hentry)
        exact ⟨path', List.mem_cons_of_mem _ hpath', hothers⟩
      · obtain rfl := Option.some.inj (hentry.symm.trans hdirectory)
        refine ⟨path, List.mem_cons_self, name, rest, more++[(name.2 :: rest).getLast (by simp)],
          hplain, ?_, by simp⟩
        rw [← List.append_assoc, hmore, List.append_assoc, List.dropLast_append_getLast]

end Copies

section Requests

variable {disk disk' : Disk} {u : Unit} {requests : List (PyResult PyValue)}
  {yielded : List Bytes}

/-- The path of a request, `[]` if it is for nothing. -/
def requestPath (py : PythonLibrary Xml) (request : PyResult PyValue) : PyResult Bytes := do
  sourceAssetPath py (← request)

/-- The loop over the requests copies each path once. What a copy preserves holds at the end. -/
theorem exec_copyRequests_ok {P : List Bytes → Tree → Prop}
    (step : ∀ yielded path disk disk', (∃ request ∈ requests, requestPath m.py request = .ok path) →
      path ≠ [] → P yielded disk.tree → exec (m.copyAsset path) disk = (.ok (), disk') →
      P (path :: yielded) disk'.tree)
    (hstart : P yielded disk.tree)
    (h : exec (m.copyRequests yielded requests) disk = (.ok u, disk')) :
    ∃ done, P done disk'.tree ∧
      (∀ path, path ∈ done ↔ path ∈ yielded ∨
        (path ≠ [] ∧ ∃ request ∈ requests, requestPath m.py request = .ok path)) ∧
      ∀ request ∈ requests, ∃ path, requestPath m.py request = .ok path := by
  induction requests generalizing yielded disk with
  | nil =>
    cases h
    exact ⟨yielded, hstart, by simp, by simp⟩
  | cons request requests ih =>
    obtain ⟨path, disk₁, hlift, hloop⟩ := exec_bind_eq_ok h
    obtain ⟨hpath, rfl⟩ := exec_lift_ok hlift
    have hrequest : requestPath m.py request = .ok path := hpath
    have hsplit : ∀ path', (∃ request' ∈ request :: requests,
        requestPath m.py request' = .ok path') ↔
        path' = path ∨ ∃ request' ∈ requests, requestPath m.py request' = .ok path' := by
      intro path'
      rw [List.exists_mem_cons_iff, hrequest, Except.ok.injEq, eq_comm]
    have step' : ∀ yielded path disk disk',
        (∃ request ∈ requests, requestPath m.py request = .ok path) → path ≠ [] →
        P yielded disk.tree → exec (m.copyAsset path) disk = (.ok (), disk') →
        P (path :: yielded) disk'.tree :=
      fun yielded' path' disk₁ disk₂ hasked => step yielded' path' disk₁ disk₂
        ((hsplit path').mpr (.inr hasked))
    have hall' : (∀ request' ∈ requests, ∃ path', requestPath m.py request' = .ok path') →
        ∀ request' ∈ request :: requests, ∃ path', requestPath m.py request' = .ok path' := by
      intro hall request' hrequest'
      rcases List.mem_cons.mp hrequest' with rfl | hrequest'
      · exact ⟨path, hrequest⟩
      · exact hall request' hrequest'
    split_ifs at hloop with hskip
    · obtain ⟨done, hdone, hmem, hall⟩ := ih step' hstart hloop
      refine ⟨done, hdone, fun path' => ?_, hall' hall⟩
      rw [hmem, hsplit]
      constructor
      · rintro (hold | ⟨hne, hasked⟩)
        · exact .inl hold
        · exact .inr ⟨hne, .inr hasked⟩
      · rintro (hold | ⟨hne, rfl | hasked⟩)
        · exact .inl hold
        · exact .inl (hskip.resolve_left hne)
        · exact .inr ⟨hne, hasked⟩
    · obtain ⟨hne, -⟩ := not_or.mp hskip
      obtain ⟨_, disk₂, hcopy, hrest⟩ := exec_bind_eq_ok hloop
      have hnext := step _ _ _ _ ((hsplit path).mpr (.inl rfl)) hne hstart hcopy
      obtain ⟨done, hdone, hmem, hall⟩ := ih step' hnext hrest
      refine ⟨done, hdone, fun path' => ?_, hall' hall⟩
      rw [hmem, hsplit, List.mem_cons]
      constructor
      · rintro ((rfl | hold) | ⟨hne', hasked⟩)
        · exact .inr ⟨hne, .inl rfl⟩
        · exact .inl hold
        · exact .inr ⟨hne', .inr hasked⟩
      · rintro (hold | ⟨hne', rfl | hasked⟩)
        · exact .inl (.inr hold)
        · exact .inl (.inl rfl)
        · exact .inr ⟨hne', hasked⟩

end Requests

end Migration

end JingjieAR
