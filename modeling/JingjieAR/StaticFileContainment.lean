import JingjieAR.SeparatedNames
import JingjieAR.StaticFileModel

/-! Which files the static file handler can serve. A canonical path is its list of names;
the prefix test of the handler on texts is the prefix order on these lists. -/
namespace JingjieAR

/-- An absolute path without empty names, `.` and `..`. -/
structure CanonicalPath where
  names : List Bytes
  wf : ∀ name ∈ names, name ≠ [] ∧ slash ∉ name ∧ 0 ∉ name ∧ name ≠ [dot] ∧ name ≠ [dot, dot]

namespace CanonicalPath

def text (p : CanonicalPath) : Bytes := if p.names = [] then [slash] else joinNames slash p.names

def StrictlyInside (p top : CanonicalPath) : Prop :=
  ∃ more, more ≠ [] ∧ p.names = top.names++more

theorem text_eq_joinNames {p : CanonicalPath} (h : p.names ≠ []) :
    p.text = joinNames slash p.names := by
  rw [text, if_neg h]

theorem head?_text (p : CanonicalPath) : p.text.head? = some slash := by
  rw [text]
  split
  · rfl
  · rename_i h
    obtain ⟨name, names, hcons⟩ := List.exists_cons_of_ne_nil h
    rw [hcons, joinNames_cons]
    rfl

/-- No canonical path goes on with a second `/` behind the first. -/
theorem head?_drop_one_text (p : CanonicalPath) : (p.text.drop 1).head? ≠ some slash := by
  by_cases h : p.names = []
  · simp [text, h]
  · obtain ⟨name, names, hcons⟩ := List.exists_cons_of_ne_nil h
    obtain ⟨hne, hslash, -⟩ := p.wf name (by simp [hcons])
    obtain ⟨c, rest, rfl⟩ := List.exists_cons_of_ne_nil hne
    rw [text_eq_joinNames h, hcons, joinNames_cons]
    intro hc
    have hc' : c = slash := by simpa using hc
    exact hslash (hc' ▸ List.mem_cons_self)

theorem zero_notMem_text (p : CanonicalPath) : 0 ∉ p.text := by
  have hslash : (0 : UInt8) ≠ slash := by decide
  rw [text]
  split_ifs with hnil
  · simpa using hslash
  · rw [joinNames, List.mem_flatMap]
    rintro ⟨name, hname, hzero⟩
    rcases List.mem_cons.mp hzero with hzero | hzero
    · exact hslash hzero
    · exact (p.wf name hname).2.2.1 hzero

end CanonicalPath

/-- The names of a path and some more below it. -/
theorem exists_canonicalPath (p : CanonicalPath) {names more : List Bytes}
    (hmore : ∀ name ∈ more,
      name ≠ [] ∧ slash ∉ name ∧ 0 ∉ name ∧ name ≠ [dot] ∧ name ≠ [dot, dot])
    (h : names <+: p.names++more) : ∃ q : CanonicalPath, q.names = names := by
  refine ⟨⟨names, ?_⟩, rfl⟩
  intro name hname
  rcases List.mem_append.mp (h.subset hname) with hname | hname
  · exact p.wf name hname
  · exact hmore name hname

/-- The test that the handler makes means that the file lies strictly below the root; with
the root `/` it fails for every file. -/
theorem strictlyInside_of_underRoot {p top : CanonicalPath}
    (h : underRoot top.text p.text = true) : p.StrictlyInside top := by
  obtain ⟨htake, hdrop⟩ : p.text.take top.text.length = top.text ∧
      (p.text.drop top.text.length).head? = some slash := by
    simpa [underRoot] using h
  -- Behind the root `/` the test looks for a second `/`, and canonical paths have none.
  have hne : top.names ≠ [] := by
    intro hnil
    rw [show top.text = [slash] by rw [CanonicalPath.text, if_pos hnil]] at hdrop
    exact p.head?_drop_one_text hdrop
  obtain ⟨rest, hrest⟩ := List.head?_eq_some_iff.mp hdrop
  have htext : top.text++slash :: rest = p.text := by
    calc
      top.text++slash :: rest
          = p.text.take top.text.length++p.text.drop top.text.length := by rw [htake, hrest]
      _ = p.text := List.take_append_drop _ _
  have hnames : p.names ≠ [] := by
    intro hnil
    have hlen := congrArg List.length htext
    rw [show p.text = [slash] by rw [CanonicalPath.text, if_pos hnil],
      CanonicalPath.text_eq_joinNames hne] at hlen
    obtain ⟨name, names, hcons⟩ := List.exists_cons_of_ne_nil hne
    rw [hcons] at hlen
    simp at hlen
  rw [CanonicalPath.text_eq_joinNames hne, CanonicalPath.text_eq_joinNames hnames] at htext
  exact names_of_joinNames_append (fun name hm => (top.wf name hm).2.1)
    (fun name hm => (p.wf name hm).2.1) htext

/-- What the manual of `realpath` promises: the result is canonical and has no links. -/
structure FileSystem.Documented (fs : FileSystem) : Prop where
  canonical : ∀ path resolved, fs.realpath path = some resolved →
    ∃ p : CanonicalPath, resolved = p.text
  resolved : ∀ path resolved, fs.realpath path = some resolved →
    fs.realpath resolved = some resolved

/-- `path` is canonical in `fs` and lies strictly inside the canonical form that the root
had in `fs₀`. -/
def Contained (fs₀ fs : FileSystem) (root path : Bytes) : Prop :=
  fs.realpath path = some path ∧ ∃ p top : CanonicalPath, path = p.text ∧
    fs₀.realpath (cString root) = some top.text ∧ p.StrictlyInside top

/-- The absolute paths that pass the check of the request path, the root itself apart. -/
def PlainPath (path : Bytes) : Prop :=
  path.head? = some slash ∧ containsDotDot path = false ∧ path ≠ [slash]

def FileSystem.NamesFile (fs : FileSystem) (path : Bytes) : Prop :=
  ∃ resolved st, fs.realpath (cString path) = some resolved ∧ fs.stat resolved = some st ∧
    st.regular = true

theorem plainPath_servedPath {path : Bytes} (h : path.head? = some slash)
    (hdots : containsDotDot path = false) : PlainPath (servedPath path) := by
  by_cases hroot : path = [slash]
  · rw [servedPath, if_pos hroot]
    exact ⟨by decide, by decide, by decide⟩
  · rw [servedPath, if_neg hroot]
    exact ⟨h, hdots, hroot⟩

namespace StaticFileHandler

variable {fs₀ fs : FileSystem} {root : Bytes} {threshold : ℕ} {dates : HttpDates}

/-- A plan with a file comes from a path that resolves under the root. -/
theorem prepare_isFile {request : HttpRequest}
    (h : ((new fs₀ root threshold).prepare fs dates request).isFile = true) :
    ∃ resolved st, Found fs (new fs₀ root threshold).root (urlDecode request.path) resolved st ∧
      ((new fs₀ root threshold).prepare fs dates request).path = resolved := by
  rw [prepare] at h ⊢
  rcases prepareInRoot_cases fs dates (new fs₀ root threshold).root request with
    hplan | hplan | ⟨resolved, st, hfound⟩
  · simp [hplan] at h
  · simp [hplan] at h
  · refine ⟨resolved, st, hfound, ?_⟩
    rw [prepareInRoot_of_found hfound, (conditionalPlan_file dates request _).2]
    rfl

theorem prepare_contained_of_resolved (h₀ : fs₀.Documented) (hfs : fs.Documented) {top : Bytes}
    (hroot : fs₀.realpath (cString root) = some top) {request : HttpRequest}
    (hfile : ((new fs₀ root threshold).prepare fs dates request).isFile = true) :
    Contained fs₀ fs root ((new fs₀ root threshold).prepare fs dates request).path := by
  obtain ⟨resolved, st, hfound, hpath⟩ := prepare_isFile hfile
  obtain ⟨canonicalTop, rfl⟩ := h₀.canonical _ _ hroot
  obtain ⟨p, rfl⟩ := hfs.canonical _ _ hfound.resolves
  have hnew : (new fs₀ root threshold).root = canonicalTop.text := by
    rw [new, hroot, Option.getD_some]
  rw [hpath]
  refine ⟨hfs.resolved _ _ hfound.resolves, p, canonicalTop, rfl, hroot, ?_⟩
  exact strictlyInside_of_underRoot (hnew ▸ hfound.under)

/-- With a root that does not resolve, every file with a plain path is planned. -/
theorem exists_isFile_of_unresolved (threshold : ℕ) (dates : HttpDates) (hfs : fs.Documented)
    (hroot : fs₀.realpath (cString root) = none) {path : Bytes} (hpath : PlainPath path)
    (hfile : fs.NamesFile path) :
    ∃ request, ((new fs₀ root threshold).prepare fs dates request).isFile = true := by
  obtain ⟨habsolute, hdots, hne⟩ := hpath
  obtain ⟨resolved, st, hresolves, hstat, hregular⟩ := hfile
  obtain ⟨p, rfl⟩ := hfs.canonical _ _ hresolves
  have hnew : (new fs₀ root threshold).root = [] := by
    rw [new, hroot, Option.getD_none]
  -- Escaping every byte makes any path a request path.
  let request : HttpRequest := { path := percentEncode (fun _ => false) path }
  have hdecode : urlDecode request.path = path := urlDecode_percentEncode rfl rfl path
  have hfound : Found fs (new fs₀ root threshold).root (urlDecode request.path) p.text st := by
    rw [hnew, hdecode]
    refine ⟨habsolute, hdots, ?_, ?_, hstat, hregular⟩
    · rwa [servedPath, if_neg hne, List.nil_append]
    · simp [underRoot, p.head?_text]
  refine ⟨request, ?_⟩
  rw [prepare, prepareInRoot_of_found hfound, (conditionalPlan_file dates request _).1]
  rfl

/-- Containment holds exactly if the root resolves or there is nothing to serve. -/
theorem prepare_contained_iff (h₀ : fs₀.Documented) (hfs : fs.Documented) (root : Bytes)
    (threshold : ℕ) (dates : HttpDates) :
    (∀ request, ((new fs₀ root threshold).prepare fs dates request).isFile = true →
      Contained fs₀ fs root ((new fs₀ root threshold).prepare fs dates request).path) ↔
    ((fs₀.realpath (cString root)).isSome = true ∨
      ∀ path, PlainPath path → ¬fs.NamesFile path) := by
  constructor
  · intro h
    cases hroot : fs₀.realpath (cString root) with
    | some top => exact .inl rfl
    | none =>
      right
      intro path hpath hfile
      obtain ⟨request, hrequest⟩ :=
        exists_isFile_of_unresolved threshold dates hfs hroot hpath hfile
      obtain ⟨-, p, top, -, htop, -⟩ := h request hrequest
      simp [hroot] at htop
  · intro h request hfile
    rcases h with hsome | hnone
    · obtain ⟨top, hroot⟩ := Option.isSome_iff_exists.mp hsome
      exact prepare_contained_of_resolved h₀ hfs hroot hfile
    · obtain ⟨resolved, st, hfound, -⟩ := prepare_isFile hfile
      cases hroot : fs₀.realpath (cString root) with
      | some top => exact prepare_contained_of_resolved h₀ hfs hroot hfile
      | none =>
        -- The path that was found is one of those that the condition excludes.
        have hnew : (new fs₀ root threshold).root = [] := by
          rw [new, hroot, Option.getD_none]
        have hresolves := hfound.resolves
        rw [hnew, List.nil_append] at hresolves
        exact absurd ⟨resolved, st, hresolves, hfound.stat, hfound.regular⟩
          (hnone _ (plainPath_servedPath hfound.absolute hfound.no_dots))

/-- A file system without links that has just these directories and files. -/
def smallFileSystem (directories files : List CanonicalPath) : FileSystem where
  realpath path :=
    if path ∈ (directories++files).map CanonicalPath.text then some path else none
  stat path :=
    if path ∈ files.map CanonicalPath.text then some ⟨.regular, 1, 4, 0⟩
    else if path ∈ directories.map CanonicalPath.text then some ⟨.directory, 2, 4096, 0⟩
    else none

theorem smallFileSystem_documented (directories files : List CanonicalPath) :
    (smallFileSystem directories files).Documented := by
  have hmem : ∀ path resolved, (smallFileSystem directories files).realpath path = some resolved →
      resolved = path ∧ path ∈ (directories++files).map CanonicalPath.text := by
    intro path resolved h
    simp only [smallFileSystem, Option.ite_none_right_eq_some] at h
    exact ⟨(Option.some.inj h.2).symm, h.1⟩
  refine ⟨?_, ?_⟩
  · intro path resolved h
    obtain ⟨rfl, hpath⟩ := hmem path resolved h
    obtain ⟨p, -, hp⟩ := List.mem_map.mp hpath
    exact ⟨p, hp.symm⟩
  · intro path resolved h
    obtain ⟨rfl, -⟩ := hmem path resolved h
    exact h

/-- `/www` and `/www/a`. -/
def wwwPath : CanonicalPath := ⟨[ascii "www"], by decide⟩

def wwwFile : CanonicalPath := ⟨[ascii "www", ascii "a"], by decide⟩

/-- The header `If-Modified-Since` is missing and no date is written. -/
def noDates : HttpDates := ⟨fun _ => none, fun _ => []⟩

theorem prepare_contained_www :
    ((new (smallFileSystem [wwwPath] [wwwFile]) (ascii "/www") 0).prepare
      (smallFileSystem [wwwPath] [wwwFile]) noDates { path := ascii "/%61" }).isFile = true ∧
    Contained (smallFileSystem [wwwPath] [wwwFile]) (smallFileSystem [wwwPath] [wwwFile])
      (ascii "/www") ((new (smallFileSystem [wwwPath] [wwwFile]) (ascii "/www") 0).prepare
        (smallFileSystem [wwwPath] [wwwFile]) noDates { path := ascii "/%61" }).path := by
  have hfile : ((new (smallFileSystem [wwwPath] [wwwFile]) (ascii "/www") 0).prepare
      (smallFileSystem [wwwPath] [wwwFile]) noDates { path := ascii "/%61" }).isFile = true := by
    decide
  have hdoc := smallFileSystem_documented [wwwPath] [wwwFile]
  have hiff := prepare_contained_iff hdoc hdoc (ascii "/www") 0 noDates
  exact ⟨hfile, hiff.mpr (.inl (by decide)) _ hfile⟩

/-- A file that lies nowhere near the root. -/
def passwdFile : CanonicalPath := ⟨[ascii "etc", ascii "passwd"], by decide⟩

/-- With a root that does not exist, `/etc/passwd` is planned. -/
theorem missing_root_not_contained :
    ¬∀ (fs₀ fs : FileSystem) (dates : HttpDates) (root : Bytes) (threshold : ℕ)
      (request : HttpRequest), fs₀.Documented → fs.Documented →
      ((new fs₀ root threshold).prepare fs dates request).isFile = true →
      Contained fs₀ fs root ((new fs₀ root threshold).prepare fs dates request).path := by
  intro h
  have hdoc := smallFileSystem_documented [] [passwdFile]
  obtain ⟨-, p, top, -, htop, -⟩ := h (smallFileSystem [] [passwdFile])
    (smallFileSystem [] [passwdFile]) noDates (ascii "/missing") 0
    { path := ascii "/etc/passwd" } hdoc hdoc (by decide)
  have hnone : (smallFileSystem [] [passwdFile]).realpath (cString (ascii "/missing")) = none := by
    decide
  rw [hnone] at htop
  contradiction

end StaticFileHandler

end JingjieAR
