import JingjieAR.DelimitedFields
import JingjieAR.StaticFileContainment

/-! Which request paths stand for which file. The decoded path is walked from the root; a
name with two dots in a row is refused wherever it stands. -/
namespace JingjieAR

/-- Decoding of the escapes of a path, in which a `+` stands for itself. -/
def percentDecode : Bytes → Bytes
  | c :: a :: b :: rest =>
    match decide (c = percent), hexDigitValue a, hexDigitValue b with
    | true, some high, some low => UInt8.ofNat (high*16+low) :: percentDecode rest
    | _, _, _ => c :: percentDecode (a :: b :: rest)
  | c :: rest => c :: percentDecode rest
  | [] => []

theorem urlDecode_eq_percentDecode {text : Bytes} (h : plus ∉ text) :
    urlDecode text = percentDecode text := by
  fun_induction percentDecode text with
  | case1 c a b rest high low hb ha hc ih =>
    obtain rfl : c = percent := by simpa using hc
    simp only [List.mem_cons, not_or] at h
    rw [urlDecode_escape ha hb, ih h.2.2.2]
  | case2 c a b rest hnot ih =>
    obtain ⟨hc, hrest⟩ := not_or.mp (List.mem_cons.not.mp h)
    have hplain : ¬(c = percent ∧ BeginsDigits (a :: b :: rest)) := by
      rintro ⟨rfl, ha, hb⟩
      obtain ⟨high, ha⟩ := Option.isSome_iff_exists.mp ha
      obtain ⟨low, hb⟩ := Option.isSome_iff_exists.mp hb
      exact hnot high low rfl ha hb
    rw [urlDecode_cons hplain, decodePlain, if_neg (Ne.symm hc), ih hrest]
  | case3 c rest hshort ih =>
    obtain ⟨hc, hrest⟩ := not_or.mp (List.mem_cons.not.mp h)
    have hplain : ¬(c = percent ∧ BeginsDigits rest) := by
      rintro ⟨-, hdigits⟩
      rcases rest with _ | ⟨a, _ | ⟨b, rest⟩⟩
      · exact hdigits
      · exact hdigits
      · exact hshort a b rest rfl
    rw [urlDecode_cons hplain, decodePlain, if_neg (Ne.symm hc), ih hrest]
  | case4 => rfl

theorem containsDotDot_iff {text : Bytes} :
    containsDotDot text = true ↔ [dot, dot] <:+: text := by
  fun_induction containsDotDot text with
  | case1 a b rest ih =>
    rw [Bool.or_eq_true, ih, List.infix_cons_iff (a := a)]
    apply or_congr ?_ Iff.rfl
    simp only [List.cons_prefix_cons, Bool.and_eq_true, decide_eq_true_eq, List.nil_prefix,
      and_true]
    exact and_congr eq_comm eq_comm
  | case2 text hshort =>
    constructor
    · intro h
      contradiction
    · intro h
      match text with
      | [] => simp at h
      | [a] =>
        have hlen := h.length_le
        simp at hlen
      | a :: b :: rest => exact absurd rfl (hshort a b rest)

/-- The names of a path, without empty names and `.`. -/
def pathNames (path : Bytes) : List Bytes :=
  (path.splitOn slash).filter (fun name => name ≠ [] ∧ name ≠ [dot])

theorem pathNames_append {name : Bytes} (h : slash ∉ name) (path : Bytes) :
    pathNames (name++slash :: path) =
      (if name ≠ [] ∧ name ≠ [dot] then [name] else [])++pathNames path := by
  rw [pathNames, List.splitOn_append_cons_self_of_not_mem h, List.filter_cons, pathNames]
  by_cases hname : name ≠ [] ∧ name ≠ [dot]
  · rw [if_pos hname, if_pos (decide_eq_true hname), List.singleton_append]
  · rw [if_neg hname, if_neg (by simpa using hname), List.nil_append]

theorem pathNames_cons (path : Bytes) : pathNames (slash :: path) = pathNames path := by
  have hempty : slash ∉ ([] : Bytes) := by simp
  exact pathNames_append hempty path

/-- A name of a path stands in its text. -/
theorem infix_of_mem_pathNames {name path : Bytes} (h : name ∈ pathNames path) :
    name <:+: path := by
  have hmem : name ∈ path.splitOn slash := List.mem_of_mem_filter h
  clear h
  induction path using fields_induction slash with
  | last field hfield =>
    rw [List.splitOn_eq_singleton hfield, List.mem_singleton] at hmem
    exact hmem ▸ List.infix_rfl
  | cons field rest hfield ih =>
    rw [List.splitOn_append_cons_self_of_not_mem hfield, List.mem_cons] at hmem
    rcases hmem with rfl | hmem
    · exact (List.prefix_append _ _).isInfix
    · exact (ih hmem).trans ((List.suffix_cons _ _).trans (List.suffix_append _ _)).isInfix

/-- A name that a path may be made of. -/
def PlainName (name : Bytes) : Prop := name ≠ [] ∧ slash ∉ name ∧ name ≠ [dot]

theorem pathNames_name {name tail : Bytes} (h : PlainName name) (htail : AtBoundary slash tail) :
    pathNames (name++tail) = name :: pathNames tail := by
  obtain ⟨hne, hslash, hdot⟩ := h
  cases tail with
  | nil =>
    have hempty : pathNames [] = [] := by decide
    rw [List.append_nil, hempty, pathNames, List.splitOn_eq_singleton hslash]
    simp [hne, hdot]
  | cons c tail =>
    obtain rfl : c = slash := htail c rfl
    rw [pathNames_append hslash, if_pos ⟨hne, hdot⟩, pathNames_cons, List.singleton_append]

/-- Behind the text of some names the names of the rest follow. -/
theorem pathNames_joinNames_append {names : List Bytes} (h : ∀ name ∈ names, PlainName name)
    {rest : Bytes} (hrest : AtBoundary slash rest) :
    pathNames (joinNames slash names++rest) = names++pathNames rest := by
  induction names with
  | nil => rfl
  | cons name names ih =>
    have hboundary : AtBoundary slash (joinNames slash names++rest) := by
      cases names with
      | nil => exact hrest
      | cons next names => exact atBoundary_cons _
    rw [joinNames_cons, List.cons_append, List.append_assoc, pathNames_cons,
      pathNames_name (h name List.mem_cons_self) hboundary,
      ih (fun n hn => h n (List.mem_cons_of_mem _ hn)), List.cons_append]

namespace CanonicalPath

theorem plainNames (p : CanonicalPath) : ∀ name ∈ p.names, PlainName name :=
  fun name hname => ⟨(p.wf name hname).1, (p.wf name hname).2.1, (p.wf name hname).2.2.2.1⟩

/-- A canonical text is walked along its own names. -/
theorem pathNames_text (p : CanonicalPath) : pathNames p.text = p.names := by
  by_cases hnil : p.names = []
  · rw [text, if_pos hnil, hnil]
    decide
  · have hnames := pathNames_joinNames_append p.plainNames
      (atBoundary_nil : AtBoundary slash [])
    have hempty : pathNames [] = [] := by decide
    rwa [List.append_nil, hempty, List.append_nil, ← text_eq_joinNames hnil] at hnames

theorem text_injective {p q : CanonicalPath} (h : p.text = q.text) : p = q := by
  have hnames : p.names = q.names := by rw [← p.pathNames_text, h, q.pathNames_text]
  cases p
  cases q
  simpa using hnames

/-- A path strictly inside passes the test of the handler, unless the root is `/`. -/
theorem underRoot_of_strictlyInside {p top : CanonicalPath} (h : p.StrictlyInside top)
    (htop : top.names ≠ []) : underRoot top.text p.text = true := by
  obtain ⟨more, hmore, hnames⟩ := h
  obtain ⟨name, more, rfl⟩ := List.exists_cons_of_ne_nil hmore
  have hne : p.names ≠ [] := by simp [hnames]
  have htext : p.text = top.text++slash :: (name++joinNames slash more) := by
    rw [text_eq_joinNames hne, text_eq_joinNames htop, hnames, joinNames, List.flatMap_append]
    rfl
  rw [underRoot, htext, List.take_left, List.drop_left]
  simp

end CanonicalPath

/-- What the manual promises of a walk from the root on without symbolic links: the names
stay, without empty ones and `.`. -/
def FileSystem.ExpandsLinks (fs : FileSystem) (isLink : List Bytes → Bool) : Prop :=
  ∀ path resolved, path.head? = some slash → fs.realpath path = some resolved →
    [dot, dot] ∉ pathNames path → (∀ names, names <+: pathNames path → isLink names = false) →
    ∃ p : CanonicalPath, resolved = p.text ∧ p.names = pathNames path

/-- The decoded path is, from the root on, a path of the file `p`. -/
structure Addresses (fs : FileSystem) (top : CanonicalPath) (path : Bytes) (p : CanonicalPath) :
    Prop where
  absolute : path.head? = some slash
  noNul : 0 ∉ path
  noParent : [dot, dot] ∉ pathNames path
  resolves : fs.realpath (top.text++servedPath path) = some p.text
  inside : p.StrictlyInside top
  file : ∃ st, fs.stat p.text = some st ∧ st.regular = true

namespace StaticFileHandler

variable {fs₀ fs : FileSystem} {root : Bytes} {top p : CanonicalPath} {request : HttpRequest}

theorem new_root (hroot : fs₀.realpath (cString root) = some top.text) (threshold : ℕ) :
    (new fs₀ root threshold).root = top.text := by
  rw [new, hroot, Option.getD_some]

theorem cString_candidate {path : Bytes} (top : CanonicalPath) (h : 0 ∉ path) :
    cString (top.text++servedPath path) = top.text++servedPath path := by
  have hserved : 0 ∉ servedPath path := by
    rw [servedPath]
    split_ifs
    · decide
    · exact h
  apply cString_eq
  rw [List.mem_append, not_or]
  exact ⟨top.zero_notMem_text, hserved⟩

/-- Every plan for a file is for a canonical path. -/
theorem exists_path_of_prepare (hfs : fs.Documented) {threshold : ℕ} {dates : HttpDates}
    (hfile : ((new fs₀ root threshold).prepare fs dates request).isFile = true) :
    ∃ p : CanonicalPath, ((new fs₀ root threshold).prepare fs dates request).path = p.text := by
  obtain ⟨resolved, st, hfound, hpath⟩ := prepare_isFile hfile
  obtain ⟨p, rfl⟩ := hfs.canonical _ _ hfound.resolves
  exact ⟨p, hpath⟩

/-- What is found is addressed, by a path without two dots in a row. -/
theorem addresses_of_prepare (hroot : fs₀.realpath (cString root) = some top.text)
    {threshold : ℕ} {dates : HttpDates} (hplus : plus ∉ request.path)
    (hnul : 0 ∉ percentDecode request.path)
    (hfile : ((new fs₀ root threshold).prepare fs dates request).isFile = true)
    (hp : ((new fs₀ root threshold).prepare fs dates request).path = p.text) :
    containsDotDot (percentDecode request.path) = false ∧
      Addresses fs top (percentDecode request.path) p := by
  obtain ⟨resolved, st, hfound, hpath⟩ := prepare_isFile hfile
  obtain rfl : resolved = p.text := hpath.symm.trans hp
  rw [urlDecode_eq_percentDecode hplus, new_root hroot] at hfound
  refine ⟨hfound.no_dots, ?_⟩
  constructor
  · exact hfound.absolute
  · exact hnul
  · intro hparent
    -- A name `..` would be two dots in a row.
    have hdots := containsDotDot_iff.mpr (infix_of_mem_pathNames hparent)
    rw [hfound.no_dots] at hdots
    contradiction
  · rw [← cString_candidate top hnul]
    exact hfound.resolves
  · exact strictlyInside_of_underRoot hfound.under
  · exact ⟨st, hfound.stat, hfound.regular⟩

/-- What is addressed without two dots in a row is found. -/
theorem prepare_of_addresses (hroot : fs₀.realpath (cString root) = some top.text)
    (htop : top.names ≠ []) (threshold : ℕ) (dates : HttpDates) (hplus : plus ∉ request.path)
    (hdots : containsDotDot (percentDecode request.path) = false)
    (h : Addresses fs top (percentDecode request.path) p) :
    ((new fs₀ root threshold).prepare fs dates request).isFile = true ∧
      ((new fs₀ root threshold).prepare fs dates request).path = p.text := by
  obtain ⟨st, hstat, hregular⟩ := h.file
  have hfound : Found fs (new fs₀ root threshold).root (urlDecode request.path) p.text st := by
    rw [urlDecode_eq_percentDecode hplus, new_root hroot]
    constructor
    · exact h.absolute
    · exact hdots
    · rw [cString_candidate top h.noNul]
      exact h.resolves
    · exact CanonicalPath.underRoot_of_strictlyInside h.inside htop
    · exact hstat
    · exact hregular
  rw [prepare, prepareInRoot_of_found hfound, (conditionalPlan_file dates request _).1,
    (conditionalPlan_file dates request _).2]
  exact ⟨rfl, rfl⟩

/-- The text of a file from the root on, which is its own path. -/
theorem addresses_self {more : List Bytes} (hmore : more ≠ []) (hnames : p.names = top.names++more)
    (hcanonical : fs.realpath p.text = some p.text) (htop : top.names ≠ [])
    (hfile : ∃ st, fs.stat p.text = some st ∧ st.regular = true) :
    Addresses fs top (joinNames slash more) p := by
  have hne : p.names ≠ [] := by simp [hnames, htop]
  have htext : p.text = top.text++joinNames slash more := by
    rw [CanonicalPath.text_eq_joinNames hne, CanonicalPath.text_eq_joinNames htop, hnames,
      joinNames, List.flatMap_append]
    rfl
  have hmem : ∀ name ∈ more, name ∈ p.names := by
    intro name hname
    rw [hnames]
    exact List.mem_append_right _ hname
  have hplain : ∀ name ∈ more, PlainName name :=
    fun name hname => p.plainNames name (hmem name hname)
  have hpathNames : pathNames (joinNames slash more) = more := by
    have hall := pathNames_joinNames_append hplain (atBoundary_nil : AtBoundary slash [])
    have hempty : pathNames [] = [] := by decide
    rwa [List.append_nil, hempty, List.append_nil] at hall
  -- The path `/` has no names, so the index page does not come into it.
  have hserved : servedPath (joinNames slash more) = joinNames slash more := by
    rw [servedPath, if_neg]
    intro hslash
    rw [hslash] at hpathNames
    exact hmore (hpathNames.symm.trans (by decide))
  constructor
  · obtain ⟨name, more, rfl⟩ := List.exists_cons_of_ne_nil hmore
    rfl
  · intro hzero
    apply p.zero_notMem_text
    rw [htext]
    exact List.mem_append_right _ hzero
  · rw [hpathNames]
    intro hparent
    exact (p.wf _ (hmem _ hparent)).2.2.2.2 rfl
  · rw [hserved, ← htext]
    exact hcanonical
  · exact ⟨more, hmore, hnames⟩
  · exact hfile

/-- Without a link on the walk the names of the file are those of the path. -/
theorem names_of_addresses {isLink : List Bytes → Bool} (hlinks : fs.ExpandsLinks isLink)
    (htop : top.names ≠ []) {path : Bytes} (h : Addresses fs top path p)
    (hwalk : ∀ names, names <+: top.names++pathNames (servedPath path) → isLink names = false) :
    p.names = top.names++pathNames (servedPath path) := by
  -- Both the path itself and that of the index page go on behind the root with a `/`.
  have hboundary : AtBoundary slash (servedPath path) := by
    obtain ⟨rest, rfl⟩ := List.head?_eq_some_iff.mp h.absolute
    rw [servedPath]
    split_ifs
    · exact atBoundary_cons _
    · exact atBoundary_cons _
  have hnames : pathNames (top.text++servedPath path) =
      top.names++pathNames (servedPath path) := by
    rw [CanonicalPath.text_eq_joinNames htop]
    exact pathNames_joinNames_append top.plainNames hboundary
  have hparent : [dot, dot] ∉ pathNames (top.text++servedPath path) := by
    rw [hnames, List.mem_append, not_or]
    refine ⟨fun hmem => (top.wf _ hmem).2.2.2.2 rfl, ?_⟩
    rw [servedPath]
    split_ifs
    · decide
    · exact h.noParent
  have habsolute : (top.text++servedPath path).head? = some slash := by
    rw [List.head?_append, top.head?_text]
    rfl
  rw [← hnames] at hwalk ⊢
  obtain ⟨q, htext, hq⟩ := hlinks _ _ habsolute h.resolves hparent hwalk
  rw [CanonicalPath.text_injective htext]
  exact hq

/-- The files that a request gets, for a root other than `/` and paths without `+` and NUL: the
file that its path stands for if no two dots are in a row in the path, and no other. So every
file with such a path is served for all its encodings, and where the walk meets no link the
names of the file are those of the path. -/
theorem prepare_addressed_exact {isLink : List Bytes → Bool} (hfs : fs.Documented)
    (hlinks : fs.ExpandsLinks isLink) (hroot : fs₀.realpath (cString root) = some top.text)
    (htop : top.names ≠ []) (threshold : ℕ) (dates : HttpDates) (hplus : plus ∉ request.path)
    (hnul : 0 ∉ percentDecode request.path) :
    (((new fs₀ root threshold).prepare fs dates request).isFile = true →
      ∃ p : CanonicalPath,
        ((new fs₀ root threshold).prepare fs dates request).path = p.text) ∧
    (∀ p : CanonicalPath,
      ((new fs₀ root threshold).prepare fs dates request).isFile = true ∧
          ((new fs₀ root threshold).prepare fs dates request).path = p.text ↔
        containsDotDot (percentDecode request.path) = false ∧
          Addresses fs top (percentDecode request.path) p) ∧
    (∀ (p : CanonicalPath) (more : List Bytes), more ≠ [] → p.names = top.names++more →
      fs.realpath p.text = some p.text → (∃ st, fs.stat p.text = some st ∧ st.regular = true) →
      containsDotDot (joinNames slash more) = false →
      percentDecode request.path = joinNames slash more →
      ((new fs₀ root threshold).prepare fs dates request).isFile = true ∧
        ((new fs₀ root threshold).prepare fs dates request).path = p.text) ∧
    (∀ p : CanonicalPath,
      ((new fs₀ root threshold).prepare fs dates request).isFile = true →
      ((new fs₀ root threshold).prepare fs dates request).path = p.text →
      (∀ names, names <+: top.names++pathNames (servedPath (percentDecode request.path)) →
        isLink names = false) →
      p.names = top.names++pathNames (servedPath (percentDecode request.path))) := by
  have hiff : ∀ p : CanonicalPath,
      ((new fs₀ root threshold).prepare fs dates request).isFile = true ∧
          ((new fs₀ root threshold).prepare fs dates request).path = p.text ↔
        containsDotDot (percentDecode request.path) = false ∧
          Addresses fs top (percentDecode request.path) p := by
    intro p
    constructor
    · rintro ⟨hfile, hpath⟩
      exact addresses_of_prepare hroot hplus hnul hfile hpath
    · rintro ⟨hdots, haddr⟩
      exact prepare_of_addresses hroot htop threshold dates hplus hdots haddr
  refine ⟨exists_path_of_prepare hfs, hiff, ?_, ?_⟩
  · intro p more hmore hnames hcanonical hregular hdots hdecode
    apply (hiff p).mpr
    rw [hdecode]
    exact ⟨hdots, addresses_self hmore hnames hcanonical htop hregular⟩
  · intro p hfile hpath hwalk
    exact names_of_addresses hlinks htop ((hiff p).mp ⟨hfile, hpath⟩).2 hwalk

theorem smallFileSystem_expandsLinks (directories files : List CanonicalPath) :
    (smallFileSystem directories files).ExpandsLinks (fun _ => false) := by
  intro path resolved _ h _ _
  simp only [smallFileSystem, Option.ite_none_right_eq_some] at h
  obtain ⟨hpath, hresolved⟩ := h
  obtain ⟨p, -, hp⟩ := List.mem_map.mp hpath
  injection hresolved with hresolved
  exact ⟨p, by rw [← hresolved, hp], by rw [← hp, p.pathNames_text]⟩

/-- A file with a name that two dots in a row are in. -/
def dottedFile : CanonicalPath := ⟨[ascii "www", ascii "a..b"], by decide⟩

/-- `/%61` is `/a`. -/
def escapedRequest : HttpRequest := { path := ascii "/%61" }

theorem prepare_addressed_www :
    ((new (smallFileSystem [wwwPath] [wwwFile]) (ascii "/www") 0).prepare
        (smallFileSystem [wwwPath] [wwwFile]) noDates escapedRequest).isFile = true ∧
      ((new (smallFileSystem [wwwPath] [wwwFile]) (ascii "/www") 0).prepare
        (smallFileSystem [wwwPath] [wwwFile]) noDates escapedRequest).path = wwwFile.text := by
  have hdecode : percentDecode escapedRequest.path = joinNames slash [ascii "a"] := by decide
  have hplus : plus ∉ escapedRequest.path := by decide
  have hnul : 0 ∉ percentDecode escapedRequest.path := by decide
  have hroot : (smallFileSystem [wwwPath] [wwwFile]).realpath (cString (ascii "/www")) =
      some wwwPath.text := by decide
  have hfile : ∃ st, (smallFileSystem [wwwPath] [wwwFile]).stat wwwFile.text = some st ∧
      st.regular = true := ⟨⟨.regular, 1, 4, 0⟩, by decide⟩
  obtain ⟨-, -, hself, -⟩ := prepare_addressed_exact
    (smallFileSystem_documented [wwwPath] [wwwFile])
    (smallFileSystem_expandsLinks [wwwPath] [wwwFile]) hroot (by decide) 0 noDates hplus hnul
  exact hself wwwFile [ascii "a"] (by decide) (by decide) (by decide) hfile (by decide) hdecode

/-- The file `/www/a..b` is not served for `/a..b`. -/
theorem dotted_name_refused :
    ¬∀ (fs₀ fs : FileSystem) (root : Bytes) (top : CanonicalPath) (threshold : ℕ)
      (dates : HttpDates) (request : HttpRequest), fs₀.Documented → fs.Documented →
      fs₀.realpath (cString root) = some top.text →
      (((new fs₀ root threshold).prepare fs dates request).isFile = true ↔
        ∃ p, Addresses fs top (percentDecode request.path) p) := by
  intro h
  have hdoc := smallFileSystem_documented [wwwPath] [dottedFile]
  have hroot : (smallFileSystem [wwwPath] [dottedFile]).realpath (cString (ascii "/www")) =
      some wwwPath.text := by decide
  have hfile : ∃ st, (smallFileSystem [wwwPath] [dottedFile]).stat dottedFile.text = some st ∧
      st.regular = true := ⟨⟨.regular, 1, 4, 0⟩, by decide⟩
  have hself : Addresses (smallFileSystem [wwwPath] [dottedFile]) wwwPath
      (joinNames slash [ascii "a..b"]) dottedFile :=
    addresses_self (by decide) (by decide) (by decide) (by decide) hfile
  have hdecode : percentDecode (ascii "/a..b") = joinNames slash [ascii "a..b"] := by decide
  have hplanned := (h _ _ (ascii "/www") wwwPath 0 noDates { path := ascii "/a..b" } hdoc hdoc
    hroot).mpr ⟨dottedFile, hdecode ▸ hself⟩
  have hrefused : ((new (smallFileSystem [wwwPath] [dottedFile]) (ascii "/www") 0).prepare
      (smallFileSystem [wwwPath] [dottedFile]) noDates { path := ascii "/a..b" }).isFile =
      false := by decide
  rw [hrefused] at hplanned
  contradiction

end StaticFileHandler

end JingjieAR
