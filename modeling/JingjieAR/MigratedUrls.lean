import JingjieAR.AssetUrls
import JingjieAR.MigrationRequirements

/-! The URLs that the migration makes. A path that it copies is found in itself at its start, and
a URL that a catalogue accepts is the plain path of a file below one of the directories. -/
namespace JingjieAR

open PyValue

section Places

variable {text found path : Bytes} {pattern : Bytes}

theorem fromPattern_eq_some (h : fromPattern pattern text = some found) :
    ∃ before, text = before++found ∧ pattern <+: found ∧ found ≠ [] := by
  induction text with
  | nil => simp [fromPattern] at h
  | cons c text ih =>
    rw [fromPattern] at h
    split_ifs at h with hbegins
    · obtain rfl := Option.some.inj h
      exact ⟨[], rfl, List.isPrefixOf_iff_prefix.mp hbegins, by simp⟩
    · obtain ⟨before, rfl, hfound⟩ := ih h
      exact ⟨c :: before, rfl, hfound⟩

theorem fromPattern_self (hne : text ≠ []) (h : pattern <+: text) :
    fromPattern pattern text = some text := by
  obtain ⟨c, rest, rfl⟩ := List.exists_cons_of_ne_nil hne
  rw [fromPattern, if_pos (List.isPrefixOf_iff_prefix.mpr h)]

theorem fromPattern_append_eq_none {before : Bytes} (h : fromPattern pattern (before++text) = none) :
    fromPattern pattern text = none := by
  induction before with
  | nil => exact h
  | cons c before ih =>
    rw [List.cons_append, fromPattern] at h
    split_ifs at h
    exact ih h

/-- What is found in a text is found in itself again. -/
theorem findSome_fromPattern {patterns : List (Bytes × Bytes)}
    (h : patterns.findSome? (fun entry => fromPattern entry.1 text) = some path) :
    patterns.findSome? (fun entry => fromPattern entry.1 path) = some path ∧
      (∃ before, text = before++path) ∧ ∃ entry ∈ patterns, entry.1 <+: path := by
  induction patterns with
  | nil => simp at h
  | cons entry patterns ih =>
    rw [List.findSome?_cons] at h ⊢
    cases hfirst : fromPattern entry.1 text with
    | some found =>
      rw [hfirst] at h
      obtain rfl := Option.some.inj h
      obtain ⟨before, hbefore, hbegins, hne⟩ := fromPattern_eq_some hfirst
      rw [fromPattern_self hne hbegins]
      exact ⟨rfl, ⟨before, hbefore⟩, entry, List.mem_cons_self, hbegins⟩
    | none =>
      rw [hfirst] at h
      obtain ⟨hagain, ⟨before, hbefore⟩, entry', hentry', hbegins⟩ := ih h
      rw [hbefore] at hfirst
      rw [fromPattern_append_eq_none hfirst]
      exact ⟨hagain, ⟨before, hbefore⟩, entry', List.mem_cons_of_mem _ hentry', hbegins⟩

/-- The names of a directory of assets in the source and in the output. -/
def assetNames : List (Bytes × Bytes) :=
  [(ascii "pano", ascii "pano"), (ascii "illstration", ascii "illustration"),
    (ascii "hotspot", ascii "hotspot"), (ascii "music", ascii "music")]

theorem assetPrefixes_eq :
    assetPrefixes = assetNames.map (fun name => (slash :: (name.1++[slash]), name.2++[slash])) :=
  rfl

theorem assetNames_valid : ∀ name ∈ assetNames,
    (slash ∉ name.1 ∧ percent ∉ name.1 ∧ name.1 ≠ [] ∧ name.1 ≠ [dot] ∧ name.1 ≠ [dot, dot]) ∧
    slash ∉ name.2 ∧ backslash ∉ name.2 ∧ percent ∉ name.2 ∧ name.2 ≠ [] ∧ name.2 ≠ [dot] ∧
      name.2 ≠ [dot, dot] := by
  decide

theorem assetNames_inj : ∀ name ∈ assetNames, ∀ name' ∈ assetNames, name.2 = name'.2 →
    name = name' := by
  decide

theorem mem_assetDirectories_of_mem : ∀ name ∈ assetNames, name.2 ∈ assetDirectories := by
  decide

theorem localPath_eq_some (h : localPath text = some path) :
    localPath path = some path ∧ (∃ before, text = before++path) ∧
      ∃ name ∈ assetNames, ∃ rest, path = slash :: (name.1++slash :: rest) := by
  obtain ⟨hagain, hsuffix, entry, hentry, hbegins⟩ := findSome_fromPattern h
  rw [assetPrefixes_eq, List.mem_map] at hentry
  obtain ⟨name, hname, rfl⟩ := hentry
  obtain ⟨rest, rfl⟩ := hbegins
  exact ⟨hagain, hsuffix, name, hname, rest, by simp⟩

end Places

section Values

variable {py : PythonLibrary Xml} {value : PyValue} {path url rest : Bytes}

theorem sourceAssetPath_eq_ok_iff :
    sourceAssetPath py value = .ok path ↔
      (value.truthy = false ∧ path = []) ∨
      ∃ text, value = .str text ∧ text ≠ [] ∧ localPath text = some path := by
  unfold sourceAssetPath
  cases htruthy : value.truthy with
  | false =>
    simp only [Bool.not_false, ↓reduceIte, Except.ok.injEq, true_and]
    constructor
    · exact fun h => .inl h.symm
    · rintro (h | ⟨text, rfl, hne, -⟩)
      · exact h.symm
      · simp [truthy, hne] at htruthy
  | true =>
    simp only [Bool.not_true, Bool.false_eq_true, ↓reduceIte, false_and, reduceCtorEq, false_or]
    cases value with
    | str text =>
      have hne : text ≠ [] := by simpa [truthy] using htruthy
      cases hpath : localPath text with
      | none => simp [hpath]
      | some found =>
        simp only [hpath]
        constructor
        · exact fun h => ⟨text, rfl, hne, hpath.trans (congrArg some (Except.ok.inj h))⟩
        · rintro ⟨text', htext, -, hfound⟩
          cases htext
          rw [Option.some.inj (hpath.symm.trans hfound)]
    | _ => simp

theorem find_assetPrefixes : ∀ name ∈ assetNames, ∀ rest : Bytes,
    assetPrefixes.find? (fun entry => entry.1.isPrefixOf (slash :: (name.1++slash :: rest))) =
      some (slash :: (name.1++[slash]), name.2++[slash]) := by
  intro name hname rest
  simp only [assetNames, List.mem_cons, List.not_mem_nil, or_false] at hname
  rcases hname with rfl | rfl | rfl | rfl
  · rfl
  · rfl
  · rfl
  · rfl

/-- The URL of a path has the name of the directory in the output. -/
theorem assetUrl_of_path {name : Bytes × Bytes} (hname : name ∈ assetNames)
    (h : sourceAssetPath py value = .ok (slash :: (name.1++slash :: rest))) :
    assetUrl py value = .ok (ascii "/assets"++slash :: (name.2++slash :: rest)) := by
  refine bind_eq_ok_iff.mpr ⟨_, h, ?_⟩
  have hdrop : (slash :: (name.1++slash :: rest)).drop (slash :: (name.1++[slash])).length =
      rest := by
    have hsplit : slash :: (name.1++slash :: rest) = slash :: (name.1++[slash])++rest := by simp
    rw [hsplit, List.drop_left]
  have hassets : ascii "/assets/" = ascii "/assets"++[slash] := rfl
  rw [if_neg (by simp), find_assetPrefixes name hname rest]
  simp only [hdrop, hassets, List.append_assoc, List.singleton_append]
  rfl

end Values

/-- The path of a file below one of the directories, by its names. -/
structure AssetFilePath (path : Bytes) (name : Bytes × Bytes) (rest : List Bytes) : Prop where
  known : name ∈ assetNames
  eq : path = joinNames slash (name.1 :: rest)
  nonempty : rest ≠ []
  segments : ∀ s ∈ rest, slash ∉ s ∧ backslash ∉ s ∧ s ≠ [] ∧ s ≠ [dot] ∧ s ≠ [dot, dot]

/-- The URL of a file below one of the directories of the output. -/
def plainUrl (name : Bytes × Bytes) (rest : List Bytes) : Bytes :=
  ascii "/assets"++joinNames slash (name.2 :: rest)

section Plain

variable {py : PythonLibrary Xml} {value : PyValue} {path path' tail url : Bytes}
  {name name' : Bytes × Bytes} {rest rest' : List Bytes}

theorem assetPath_plainUrl (h : AssetFilePath path name rest) : AssetPath (plainUrl name rest) := by
  obtain ⟨-, hslash, hbackslash, -, hne, hdot, hdots⟩ := assetNames_valid name h.known
  refine ⟨name.2 :: rest, by simp, rfl, ?_⟩
  intro s hs
  rcases List.mem_cons.mp hs with rfl | hs
  · exact ⟨hslash, hbackslash, hne, hdot, hdots⟩
  · exact h.segments s hs

/-- The names of a text that is cut at a separator. -/
theorem joinNames_eq_cons {names : List Bytes} {name tail : Bytes} (hname : slash ∉ name)
    (hnames : ∀ s ∈ names, slash ∉ s) (h : joinNames slash names = slash :: (name++slash :: tail)) :
    ∃ rest, names = name :: rest ∧ joinNames slash rest = slash :: tail := by
  cases names with
  | nil => simp at h
  | cons s rest =>
    rw [joinNames_cons] at h
    obtain ⟨rfl, hrest⟩ := name_append_inj (hnames s (by simp)) hname
      (atBoundary_joinNames rest) (atBoundary_cons tail) (List.cons.inj h).2
    exact ⟨rest, rfl, hrest⟩

theorem assetFilePath_of_assetPath (hname : name ∈ assetNames)
    (h : AssetPath (ascii "/assets"++slash :: (name.2++slash :: tail))) :
    ∃ rest, AssetFilePath (slash :: (name.1++slash :: tail)) name rest ∧
      joinNames slash rest = slash :: tail := by
  obtain ⟨-, hslash, -⟩ := assetNames_valid name hname
  obtain ⟨segments, -, hurl, hsegments⟩ := h
  have hjoin := List.append_cancel_left hurl
  obtain ⟨rest, rfl, hrest⟩ :=
    joinNames_eq_cons hslash (fun s hs => (hsegments s hs).1) hjoin.symm
  refine ⟨rest, ⟨hname, ?_, ?_, ?_⟩, hrest⟩
  · rw [joinNames_cons, hrest]
  · rintro rfl
    simp at hrest
  · exact fun s hs => hsegments s (List.mem_cons_of_mem _ hs)

theorem AssetFilePath.exists_tail (h : AssetFilePath path name rest) :
    ∃ tail, joinNames slash rest = slash :: tail ∧ path = slash :: (name.1++slash :: tail) ∧
      plainUrl name rest = ascii "/assets"++slash :: (name.2++slash :: tail) := by
  obtain ⟨s, rest', rfl⟩ := List.exists_cons_of_ne_nil h.nonempty
  refine ⟨s++joinNames slash rest', rfl, ?_, rfl⟩
  rw [h.eq]
  rfl

/-- A value has a fit URL exactly if it leads to a plain path. -/
theorem fitUrl_iff : FitUrl py value ↔
    ∃ path name rest, sourceAssetPath py value = .ok path ∧ AssetFilePath path name rest ∧
      assetUrl py value = .ok (plainUrl name rest) := by
  constructor
  · rintro ⟨url, hurl, hasset⟩
    obtain ⟨path, hpath, h⟩ := bind_eq_ok_iff.mp hurl
    rcases sourceAssetPath_eq_ok_iff.mp hpath with ⟨-, rfl⟩ | ⟨text, -, -, hlocal⟩
    · obtain rfl := pure_eq_ok_iff.mp (if_pos rfl ▸ h)
      obtain ⟨segments, -, hnil, -⟩ := hasset
      simp [ascii] at hnil
    · obtain ⟨-, -, name, hname, tail, rfl⟩ := localPath_eq_some hlocal
      have hplain := assetUrl_of_path hname hpath
      obtain rfl := Except.ok.inj (hurl.symm.trans hplain)
      obtain ⟨rest, hrest, hjoin⟩ := assetFilePath_of_assetPath hname hasset
      refine ⟨_, name, rest, hpath, hrest, ?_⟩
      rw [hurl, plainUrl, joinNames_cons, hjoin]
  · rintro ⟨path, name, rest, -, hplain, hurl⟩
    exact ⟨_, hurl, assetPath_plainUrl hplain⟩

theorem AssetFilePath.inj (h : AssetFilePath path name rest) (h' : AssetFilePath path' name' rest')
    (hnames : name.2 :: rest = name'.2 :: rest') : path = path' := by
  obtain ⟨hname, hrest⟩ := List.cons.inj hnames
  rw [h.eq, h'.eq, assetNames_inj name h.known name' h'.known hname, hrest]

theorem pathParts_of_segments {s : Bytes} {rest : List Bytes}
    (h : ∀ s' ∈ s :: rest, slash ∉ s' ∧ s' ≠ [] ∧ s' ≠ [dot]) :
    pathParts (s++joinNames slash rest) = s :: rest := by
  rw [pathParts, pathSegments_joinNames fun s' hs' => ⟨(h s' hs').1, (h s' hs').2.1⟩]
  refine List.filter_eq_self.mpr ?_
  intro s' hs'
  simpa using (h s' hs').2

theorem AssetFilePath.pathParts_cons (h : AssetFilePath path name rest) {s : Bytes}
    (hs : slash ∉ s ∧ s ≠ [] ∧ s ≠ [dot]) : pathParts (s++joinNames slash rest) = s :: rest := by
  refine pathParts_of_segments ?_
  intro s' hs'
  rcases List.mem_cons.mp hs' with rfl | hs'
  · exact hs
  · obtain ⟨hs₁, -, hs₂, hs₃, -⟩ := h.segments s' hs'
    exact ⟨hs₁, hs₂, hs₃⟩

theorem AssetFilePath.sourceParts (h : AssetFilePath path name rest) :
    pathParts (removePrefix [slash] path) = name.1 :: rest := by
  obtain ⟨⟨hslash, -, hne, hdot, -⟩, -⟩ := assetNames_valid name h.known
  rw [h.eq, joinNames_cons]
  exact h.pathParts_cons ⟨hslash, hne, hdot⟩

theorem AssetFilePath.urlParts (h : AssetFilePath path name rest) :
    pathParts (removePrefix (ascii "/assets/") (plainUrl name rest)) = name.2 :: rest := by
  obtain ⟨-, hslash, -, -, hne, hdot, -⟩ := assetNames_valid name h.known
  exact h.pathParts_cons ⟨hslash, hne, hdot⟩

theorem assetNames_inj_source : ∀ name ∈ assetNames, ∀ name' ∈ assetNames, name.1 = name'.1 →
    name = name' := by
  decide

theorem AssetFilePath.unique (h : AssetFilePath path name rest)
    (h' : AssetFilePath path name' rest') : name = name' ∧ rest = rest' := by
  obtain ⟨hname, hrest⟩ := List.cons.inj (h.sourceParts.symm.trans h'.sourceParts)
  exact ⟨assetNames_inj_source name h.known name' h'.known hname, hrest⟩

/-- The URL of a path that is found at its start. -/
theorem AssetFilePath.assetUrl (h : AssetFilePath path name rest)
    (hlocal : JingjieAR.localPath path = some path) :
    assetUrl py (.str path) = .ok (plainUrl name rest) := by
  obtain ⟨tail, -, heq, hurl⟩ := h.exists_tail
  have hsource : sourceAssetPath py (.str path) = .ok path :=
    sourceAssetPath_eq_ok_iff.mpr (.inr ⟨path, rfl, by simp [heq], hlocal⟩)
  rw [hurl]
  exact assetUrl_of_path h.known (hsource.trans (congrArg Except.ok heq))

/-- A plain path that is found at another place is a plain path there as well. -/
theorem AssetFilePath.localPath (h : AssetFilePath path name rest)
    (hlocal : localPath path = some path') : ∃ name' rest', AssetFilePath path' name' rest' := by
  obtain ⟨-, ⟨before, hbefore⟩, name', hname', tail, rfl⟩ := localPath_eq_some hlocal
  obtain ⟨⟨hslash, -⟩, -⟩ := assetNames_valid name h.known
  obtain ⟨⟨hslash', -⟩, -⟩ := assetNames_valid name' hname'
  have hnames : ∀ s ∈ name.1 :: rest, slash ∉ s := by
    intro s hs
    rcases List.mem_cons.mp hs with rfl | hs
    · exact hslash
    · exact (h.segments s hs).1
  obtain ⟨post, hpost, hjoin⟩ := exists_suffix_of_joinNames hnames (h.eq ▸ hbefore)
  obtain ⟨rest', rfl, hrest'⟩ :=
    joinNames_eq_cons hslash' (fun s hs => hnames s (hpost.subset hs)) hjoin
  have hmem : ∀ s ∈ rest', s ∈ rest := by
    have hsuffix : rest' <:+ rest := by
      obtain ⟨before', hbefore'⟩ := hpost
      cases before' with
      | nil => exact (List.cons.inj hbefore').2 ▸ List.suffix_rfl
      | cons s before' => exact ⟨before'++[name'.1], by simpa using (List.cons.inj hbefore').2⟩
    exact fun s hs => hsuffix.subset hs
  refine ⟨name', rest', hname', ?_, ?_, fun s hs => h.segments s (hmem s hs)⟩
  · rw [joinNames_cons, hrest']
  · rintro rfl
    simp at hrest'

end Plain

end JingjieAR
