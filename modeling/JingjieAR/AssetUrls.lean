import JingjieAR.CatalogRequirements
import Mathlib.Data.List.TakeWhile

/-! The URLs of assets: what the checks of the code let pass, and what an asset has to be. The
two differ by the NUL that ends a string for the system calls. -/
namespace JingjieAR

variable {fs : FileSystem} {context : Bytes}

theorem addError_ne_nil (context message : Bytes) : addError context message ≠ [] := by
  simp [addError]

section Placeholders

variable {text : Bytes} {c face : UInt8}

theorem placeholderCount_cons_of_ne (h : c ≠ percent) (text : Bytes) :
    placeholderCount (c :: text) = placeholderCount text := by
  cases text with
  | nil => rfl
  | cons d rest => rw [placeholderCount, if_neg fun hc => h hc.1]

theorem containsUnsupportedPlaceholder_cons_of_ne (h : c ≠ percent) (text : Bytes) :
    containsUnsupportedPlaceholder (c :: text) = containsUnsupportedPlaceholder text := by
  cases text with
  | nil => simp [containsUnsupportedPlaceholder, h]
  | cons d rest => rw [containsUnsupportedPlaceholder, if_neg h]

theorem replacePlaceholder_cons_of_ne (h : c ≠ percent) (text : Bytes) :
    replacePlaceholder face (c :: text) = c :: replacePlaceholder face text := by
  cases text with
  | nil => rfl
  | cons d rest => rw [replacePlaceholder, if_neg fun hc => h hc.1]

/-- A text without `%` has no placeholder of either kind. -/
theorem placeholders_of_notMem (h : percent ∉ text) :
    placeholderCount text = 0 ∧ containsUnsupportedPlaceholder text = false := by
  induction text with
  | nil => exact ⟨rfl, rfl⟩
  | cons c text ih =>
    have hc : c ≠ percent := fun heq => h (heq ▸ List.mem_cons_self)
    rw [placeholderCount_cons_of_ne hc, containsUnsupportedPlaceholder_cons_of_ne hc]
    exact ih fun hmem => h (List.mem_cons_of_mem _ hmem)

theorem placeholder_append (after : Bytes) : placeholder++after = percent :: letterS :: after := rfl

theorem notMem_of_placeholders (hsupported : containsUnsupportedPlaceholder text = false)
    (hnone : placeholderCount text = 0) : percent ∉ text := by
  induction text with
  | nil => simp
  | cons c text ih =>
    by_cases hc : c = percent
    · cases text with
      | nil => simp [containsUnsupportedPlaceholder, hc] at hsupported
      | cons d rest =>
        rw [containsUnsupportedPlaceholder, if_pos hc, Bool.or_eq_false_iff] at hsupported
        have hd : d = letterS := by simpa using hsupported.1
        rw [placeholderCount, if_pos ⟨hc, hd⟩] at hnone
        omega
    · rw [placeholderCount_cons_of_ne hc] at hnone
      rw [containsUnsupportedPlaceholder_cons_of_ne hc] at hsupported
      intro hmem
      rcases List.mem_cons.mp hmem with heq | hmem
      · exact hc heq.symm
      · exact ih hsupported hnone hmem

/-- The two counts of the code leave one `%s` and no other `%`. -/
theorem placeholders_iff :
    placeholderCount text = 1 ∧ containsUnsupportedPlaceholder text = false ↔
      ∃ before after, text = before++(placeholder++after) ∧ percent ∉ before ∧ percent ∉ after := by
  constructor
  · rintro ⟨hone, hsupported⟩
    induction text with
    | nil => simp [placeholderCount] at hone
    | cons c text ih =>
      by_cases hc : c = percent
      · cases text with
        | nil => simp [placeholderCount] at hone
        | cons d rest =>
          rw [containsUnsupportedPlaceholder, if_pos hc, Bool.or_eq_false_iff] at hsupported
          have hd : d = letterS := by simpa using hsupported.1
          rw [placeholderCount, if_pos ⟨hc, hd⟩] at hone
          have hrest := notMem_of_placeholders hsupported.2 (by omega)
          exact ⟨[], rest, by rw [hc, hd]; rfl, by simp, hrest⟩
      · rw [placeholderCount_cons_of_ne hc] at hone
        rw [containsUnsupportedPlaceholder_cons_of_ne hc] at hsupported
        obtain ⟨before, after, rfl, hbefore, hafter⟩ := ih hone hsupported
        refine ⟨c :: before, after, rfl, ?_, hafter⟩
        intro hmem
        rcases List.mem_cons.mp hmem with heq | hmem
        · exact hc heq.symm
        · exact hbefore hmem
  · rintro ⟨before, after, rfl, hbefore, hafter⟩
    induction before with
    | nil =>
      obtain ⟨hnone, hsupported⟩ := placeholders_of_notMem hafter
      rw [List.nil_append, placeholder_append, placeholderCount, if_pos ⟨rfl, rfl⟩, hnone,
        containsUnsupportedPlaceholder, if_pos rfl, hsupported]
      exact ⟨rfl, rfl⟩
    | cons c before ih =>
      have hc : c ≠ percent := fun heq => hbefore (heq ▸ List.mem_cons_self)
      rw [List.cons_append, placeholderCount_cons_of_ne hc,
        containsUnsupportedPlaceholder_cons_of_ne hc]
      exact ih fun hmem => hbefore (List.mem_cons_of_mem _ hmem)

theorem replacePlaceholder_append {before : Bytes} (hbefore : percent ∉ before) (after : Bytes) :
    replacePlaceholder face (before++(placeholder++after)) = before++face :: after := by
  induction before with
  | nil =>
    rw [List.nil_append, List.nil_append, placeholder_append, replacePlaceholder,
      if_pos ⟨rfl, rfl⟩]
  | cons c before ih =>
    have hc : c ≠ percent := fun heq => hbefore (heq ▸ List.mem_cons_self)
    rw [List.cons_append, List.cons_append, replacePlaceholder_cons_of_ne hc,
      ih fun hmem => hbefore (List.mem_cons_of_mem _ hmem)]

end Placeholders

section Segments

theorem pathSegments_noSlash {text segment : Bytes} (hsegment : slash ∉ segment) :
    ∀ s ∈ pathSegments text segment, slash ∉ s := by
  induction text generalizing segment with
  | nil =>
    rw [pathSegments]
    split_ifs
    · simp
    · simpa using hsegment
  | cons c text ih =>
    rw [pathSegments]
    split_ifs with hc
    · intro s hs
      rcases List.mem_cons.mp hs with rfl | hs
      · exact hsegment
      · exact ih (by simp) s hs
    · refine ih ?_
      intro hmem
      rcases List.mem_append.mp hmem with hmem | hmem
      · exact hsegment hmem
      · exact hc (List.mem_singleton.mp hmem).symm

/-- Behind a last `/` there is no piece; otherwise the pieces make up the text. -/
theorem joinNames_pathSegments {text segment : Bytes} (hne : segment++text ≠ [])
    (hlast : text.getLast? ≠ some slash) :
    joinNames slash (pathSegments text segment) = slash :: (segment++text) := by
  induction text generalizing segment with
  | nil =>
    rw [List.append_nil] at hne ⊢
    rw [pathSegments, if_neg hne, joinNames_cons, joinNames_nil, List.append_nil]
  | cons c text ih =>
    rw [pathSegments]
    by_cases htext : text = []
    · have hc : c ≠ slash := by
        rintro rfl
        simp [htext] at hlast
      rw [if_neg hc, htext, pathSegments, if_neg (by simp), joinNames_cons, joinNames_nil,
        List.append_nil]
    · have hlast' : text.getLast? ≠ some slash := by
        rw [List.getLast?_cons_of_ne_nil htext] at hlast
        exact hlast
      split_ifs with hc
      · rw [joinNames_cons, ih (by simpa using htext) hlast', hc, List.nil_append]
      · rw [ih (by simp) hlast', List.append_assoc, List.singleton_append]

theorem pathSegments_append {piece : Bytes} (hpiece : slash ∉ piece) (text segment : Bytes) :
    pathSegments (piece++text) segment = pathSegments text (segment++piece) := by
  induction piece generalizing segment with
  | nil => rw [List.nil_append, List.append_nil]
  | cons c piece ih =>
    have hc : c ≠ slash := fun heq => hpiece (heq ▸ List.mem_cons_self)
    rw [List.cons_append, pathSegments, if_neg hc,
      ih fun hmem => hpiece (List.mem_cons_of_mem _ hmem), List.append_assoc,
      List.singleton_append]

/-- The pieces of a text that is made of segments. -/
theorem pathSegments_joinNames {segment : Bytes} {segments : List Bytes}
    (h : ∀ s ∈ segment :: segments, slash ∉ s ∧ s ≠ []) :
    pathSegments (segment++joinNames slash segments) [] = segment :: segments := by
  induction segments generalizing segment with
  | nil =>
    obtain ⟨hslash, hne⟩ := h segment (by simp)
    rw [pathSegments_append hslash, joinNames_nil, pathSegments, List.nil_append, if_neg hne]
  | cons s segments ih =>
    obtain ⟨hslash, -⟩ := h segment (by simp)
    rw [pathSegments_append hslash, joinNames_cons, pathSegments, if_pos rfl, List.nil_append,
      ih fun s' hs' => h s' (List.mem_cons_of_mem _ hs')]

theorem getLast?_joinNames {segments : List Bytes} (h : ∀ s ∈ segments, slash ∉ s ∧ s ≠ []) :
    segments ≠ [] → (joinNames slash segments).getLast? ≠ some slash := by
  induction segments with
  | nil => simp
  | cons s segments ih =>
    intro _ hlast
    obtain ⟨hslash, hne⟩ := h s (by simp)
    by_cases hnil : segments = []
    · rw [hnil, joinNames_cons, joinNames_nil, List.append_nil,
        List.getLast?_cons_of_ne_nil hne] at hlast
      exact hslash (List.mem_of_getLast? hlast)
    · have hjoin : joinNames slash segments ≠ [] := by
        obtain ⟨s', rest, hcons⟩ := List.exists_cons_of_ne_nil hnil
        rw [hcons, joinNames_cons]
        simp
      rw [joinNames_cons, List.getLast?_cons_of_ne_nil (by simp [hjoin]),
        List.getLast?_append_of_ne_nil _ hjoin] at hlast
      exact ih (fun s' hs' => h s' (List.mem_cons_of_mem _ hs')) hnil hlast

theorem isAssetPath_eq_true_iff {url : Bytes} :
    isAssetPath url = true ↔ url.take 8 = ascii "/assets/" ∧ backslash ∉ url ∧
      ∀ s ∈ pathSegments (url.drop 8) [], s ≠ [] ∧ s ≠ [dot] ∧ s ≠ [dot, dot] := by
  simp only [isAssetPath, Bool.and_eq_true, decide_eq_true_eq, Bool.not_eq_true',
    List.all_eq_true, and_assoc, ne_eq, List.contains_eq_mem, decide_eq_false_iff_not]

/-- The check of a path lets only a `/` at the end pass that an asset must not have. -/
theorem assetPath_iff {url : Bytes} :
    AssetPath url ↔ isAssetPath url = true ∧ url.getLast? ≠ some slash := by
  rw [isAssetPath_eq_true_iff]
  constructor
  · rintro ⟨segments, hne, rfl, h⟩
    have hslash : ∀ s ∈ segments, slash ∉ s ∧ s ≠ [] := fun s hs => ⟨(h s hs).1, (h s hs).2.2.1⟩
    have hjoin := getLast?_joinNames hslash hne
    obtain ⟨s, rest, rfl⟩ := List.exists_cons_of_ne_nil hne
    have htext : ascii "/assets"++joinNames slash (s :: rest) =
        ascii "/assets/"++(s++joinNames slash rest) := rfl
    have hlength : (ascii "/assets/").length = 8 := rfl
    refine ⟨⟨?_, ?_, ?_⟩, ?_⟩
    · rw [htext]
      exact List.take_left' hlength
    · intro hmem
      rcases List.mem_append.mp hmem with hmem | hmem
      · exact absurd hmem (by decide)
      · obtain ⟨piece, hpiece, hmem⟩ := List.mem_flatMap.mp hmem
        rcases List.mem_cons.mp hmem with heq | hmem
        · exact absurd heq (by decide)
        · exact (h piece hpiece).2.1 hmem
    · rw [htext]
      have hdrop : (ascii "/assets/"++(s++joinNames slash rest)).drop 8 =
          s++joinNames slash rest := List.drop_left' hlength
      rw [hdrop, pathSegments_joinNames hslash]
      exact fun s' hs' => (h s' hs').2.2
    · rw [List.getLast?_append_of_ne_nil _ (by simp)]
      exact hjoin
  · rintro ⟨⟨htake, hbackslash, hsegments⟩, hlast⟩
    have hsplit : url = ascii "/assets/"++url.drop 8 := by
      conv_lhs => rw [← List.take_append_drop 8 url, htake]
    have hne : url.drop 8 ≠ [] := by
      intro hnil
      rw [hsplit, hnil] at hlast
      exact hlast (by decide)
    have hlast' : (url.drop 8).getLast? ≠ some slash := by
      rw [hsplit, List.getLast?_append_of_ne_nil _ hne] at hlast
      exact hlast
    have hjoin : joinNames slash (pathSegments (url.drop 8) []) = slash :: url.drop 8 :=
      joinNames_pathSegments (by simpa using hne) hlast'
    refine ⟨pathSegments (url.drop 8) [], ?_, ?_, ?_⟩
    · intro hnil
      rw [hnil] at hjoin
      simp at hjoin
    · rw [hjoin]
      exact hsplit
    · intro s hs
      refine ⟨pathSegments_noSlash (by simp) s hs, ?_, hsegments s hs⟩
      intro hmem
      have hjoined : backslash ∈ joinNames slash (pathSegments (url.drop 8) []) :=
        List.mem_flatMap.mpr ⟨s, hs, List.mem_cons_of_mem _ hmem⟩
      rw [hjoin] at hjoined
      rcases List.mem_cons.mp hjoined with heq | hdrop
      · exact absurd heq (by decide)
      · exact hbackslash (List.mem_of_mem_drop hdrop)

end Segments

section Files

variable {top : CanonicalPath} {url : Bytes}

theorem assetError_eq_nil_iff {root field : Bytes} :
    assetError fs root url context field = [] ↔ assetFileStatus fs root url = .kAssetFileValid := by
  rw [assetError]
  cases assetFileStatus fs root url with
  | kAssetFileValid => simp
  | kAssetFileMissing => simp [addError]
  | kAssetFileOutsideRoot => simp [addError]

theorem validateAsset_eq_nil_iff {field : Bytes} :
    validateAsset fs top.text context field url = [] ↔ TakenAsset fs top url := by
  rw [validateAsset, TakenAsset]
  cases hpath : isAssetPath url with
  | false => simp [addError]
  | true => simpa using assetError_eq_nil_iff

theorem validateCubeAsset_eq_nil_iff :
    validateCubeAsset fs top.text context url = [] ↔ TakenCube fs top url := by
  have hfaces : ∀ before after, percent ∉ before →
      (faces.flatMap (fun face => assetError fs top.text
        (replacePlaceholder face (before++(placeholder++after))) context (ascii "cubeUrl")) = [] ↔
      ∀ face ∈ faces,
        assetFileStatus fs top.text (before++face :: after) = .kAssetFileValid) := by
    intro before after hbefore
    simp only [List.flatMap_eq_nil_iff, replacePlaceholder_append hbefore, assetError_eq_nil_iff]
  rw [validateCubeAsset, TakenCube]
  by_cases hpath : isAssetPath url = true
  · rw [if_neg (by simp [hpath])]
    by_cases hplaceholders : placeholderCount url = 1 ∧ containsUnsupportedPlaceholder url = false
    · rw [if_neg (not_not.mpr hplaceholders.1), if_neg (by simp [hplaceholders.2])]
      obtain ⟨before, after, rfl, hbefore, hafter⟩ := placeholders_iff.mp hplaceholders
      rw [hfaces before after hbefore]
      constructor
      · exact fun h => ⟨hpath, before, after, rfl, hbefore, hafter, h⟩
      · -- The text has only one way to be cut at its placeholder.
        rintro ⟨-, before', after', hsame, hbefore', -, h⟩
        refine (hfaces before after hbefore).mp ?_
        rw [hsame]
        exact (hfaces before' after' hbefore').mpr h
    · refine iff_of_false ?_ ?_
      · split_ifs with hone hsupported
        · exact addError_ne_nil _ _
        · exact addError_ne_nil _ _
        · rw [not_not] at hone
          rw [Bool.not_eq_true] at hsupported
          exact absurd ⟨hone, hsupported⟩ hplaceholders
      · rintro ⟨-, before, after, hurl, hbefore, hafter, -⟩
        exact hplaceholders (placeholders_iff.mpr ⟨before, after, hurl, hbefore, hafter⟩)
  · rw [if_pos (by simp [hpath])]
    exact iff_of_false (addError_ne_nil _ _) fun h => hpath h.1

/-- Below a root that is not `/`, the file of a URL is named by the root and the URL. -/
theorem assetFile_text (hbelow : top.names ≠ []) : assetFile top.text url = top.text++url := by
  have hlast : top.text.getLast? ≠ some slash := by
    rw [CanonicalPath.text_eq_joinNames hbelow]
    exact getLast?_joinNames (fun name hname => ⟨(top.wf name hname).2.1, (top.wf name hname).1⟩)
      hbelow
  rw [assetFile, if_neg hlast]

theorem isChildPath_text_iff {p : CanonicalPath} (hbelow : top.names ≠ []) :
    isChildPath top.text p.text = true ↔ p.StrictlyInside top := by
  constructor
  · exact strictlyInside_of_underRoot
  · rintro ⟨more, hmore, hnames⟩
    obtain ⟨name, rest, rfl⟩ := List.exists_cons_of_ne_nil hmore
    have htext : p.text = top.text++slash :: (name++joinNames slash rest) := by
      rw [CanonicalPath.text_eq_joinNames (by simp [hnames]), CanonicalPath.text_eq_joinNames hbelow,
        hnames, joinNames, List.flatMap_append]
      rfl
    simp [isChildPath, htext]

theorem status_valid_iff {root : Bytes} :
    assetFileStatus fs root url = .kAssetFileValid ↔
      ∃ canonicalFile st, fs.realpath (cString (assetFile root url)) = some canonicalFile ∧
        isChildPath root canonicalFile = true ∧ fs.stat canonicalFile = some st ∧
        st.regular = true := by
  rw [assetFileStatus]
  split
  · rename_i hnone
    simp [hnone]
  · rename_i canonicalFile hresolves
    simp only [hresolves, Option.some.injEq]
    split_ifs with hchild
    · simp at hchild
      simp [hchild]
    · simp only [Bool.not_eq_true', Bool.not_eq_false] at hchild
      split
      · rename_i hstat
        simp [hstat]
      · rename_i st hstat
        simp [hstat, hchild]

/-- Without NUL, a file that the code takes for an asset is the one that the URL names. -/
theorem namesAsset_iff (hdoc : fs.Documented) (hbelow : top.names ≠ []) :
    NamesAsset fs top url ↔
      0 ∉ url ∧ assetFileStatus fs top.text url = .kAssetFileValid := by
  rw [NamesAsset, status_valid_iff]
  refine and_congr_right fun hnul => ?_
  have hpath : cString (assetFile top.text url) = top.text++url := by
    rw [assetFile_text hbelow]
    refine cString_eq ?_
    intro hmem
    rcases List.mem_append.mp hmem with hmem | hmem
    · exact top.zero_notMem_text hmem
    · exact hnul hmem
  rw [hpath]
  constructor
  · rintro ⟨p, hresolves, hinside, st, hstat, hregular⟩
    exact ⟨p.text, st, hresolves, (isChildPath_text_iff hbelow).mpr hinside, hstat, hregular⟩
  · rintro ⟨canonicalFile, st, hresolves, hchild, hstat, hregular⟩
    obtain ⟨p, rfl⟩ := hdoc.canonical _ _ hresolves
    exact ⟨p, hresolves, (isChildPath_text_iff hbelow).mp hchild, st, hstat, hregular⟩

/-- A URL that ends with `/` names no file. -/
theorem getLast?_of_namesAsset (hslash : fs.SlashNamesDirectory) (h : NamesAsset fs top url)
    (hne : url ≠ []) : url.getLast? ≠ some slash := by
  obtain ⟨-, p, hresolves, -, st, hstat, hregular⟩ := h
  intro hlast
  have hpath : (top.text++url).getLast? = some slash := by
    rwa [List.getLast?_append_of_ne_nil _ hne]
  have hdirectory := hslash _ _ _ hpath hresolves hstat
  simp [hregular] at hdirectory

theorem asset_iff (hdoc : fs.Documented) (hslash : fs.SlashNamesDirectory)
    (hbelow : top.names ≠ []) : Asset fs top url ↔ TakenAsset fs top url ∧ 0 ∉ url := by
  rw [Asset, TakenAsset, assetPath_iff]
  constructor
  · rintro ⟨⟨hpath, -⟩, hfile⟩
    obtain ⟨hnul, hstatus⟩ := (namesAsset_iff hdoc hbelow).mp hfile
    exact ⟨⟨hpath, hstatus⟩, hnul⟩
  · rintro ⟨⟨hpath, hstatus⟩, hnul⟩
    have hfile := (namesAsset_iff hdoc hbelow).mpr ⟨hnul, hstatus⟩
    refine ⟨⟨hpath, getLast?_of_namesAsset hslash hfile ?_⟩, hfile⟩
    rintro rfl
    exact absurd hpath (by decide)

theorem face_ne_zero : ∀ face ∈ faces, face ≠ 0 := by decide +kernel

theorem zero_mem_face_iff {before after : Bytes} {face : UInt8} (hface : face ≠ 0) :
    0 ∈ before++face :: after ↔ 0 ∈ before++(placeholder++after) := by
  simp [placeholder_append, hface.symm, percent, letterS]

theorem cubeAsset_iff (hdoc : fs.Documented) (hslash : fs.SlashNamesDirectory)
    (hbelow : top.names ≠ []) : CubeAsset fs top url ↔ TakenCube fs top url ∧ 0 ∉ url := by
  rw [CubeAsset, TakenCube, assetPath_iff]
  constructor
  · rintro ⟨⟨hpath, -⟩, before, after, rfl, hbefore, hafter, hfiles⟩
    have hstatus := fun face hface => (namesAsset_iff hdoc hbelow).mp (hfiles face hface)
    refine ⟨⟨hpath, before, after, rfl, hbefore, hafter, fun face hface => (hstatus face hface).2⟩, ?_⟩
    have hfirst : (102 : UInt8) ∈ faces := by decide
    rw [← zero_mem_face_iff (face_ne_zero _ hfirst)]
    exact (hstatus _ hfirst).1
  · rintro ⟨⟨hpath, before, after, rfl, hbefore, hafter, hstatus⟩, hnul⟩
    have hfiles : ∀ face ∈ faces, NamesAsset fs top (before++face :: after) := by
      intro face hface
      refine (namesAsset_iff hdoc hbelow).mpr ⟨?_, hstatus face hface⟩
      rwa [zero_mem_face_iff (face_ne_zero face hface)]
    refine ⟨⟨hpath, ?_⟩, before, after, rfl, hbefore, hafter, hfiles⟩
    -- The faces end as the URL does, with what follows the placeholder.
    have hfirst : (102 : UInt8) ∈ faces := by decide
    have hlast := getLast?_of_namesAsset hslash (hfiles _ hfirst) (by simp)
    by_cases hnil : after = []
    · rw [hnil, placeholder_append, List.getLast?_append_of_ne_nil _ (by simp)]
      decide
    · rw [List.getLast?_append_of_ne_nil _ (by simp), List.getLast?_cons_of_ne_nil hnil] at hlast
      rw [placeholder_append, List.getLast?_append_of_ne_nil _ (by simp),
        List.getLast?_cons_of_ne_nil (by simp), List.getLast?_cons_of_ne_nil hnil]
      exact hlast

end Files

end JingjieAR
