import JingjieAR.MigratedUrls

/-! The URLs of cubes. A face in the place of the placeholder leaves the path in its directory,
unless it completes the name of another one. -/
namespace JingjieAR

open PyValue

/-- The path of the faces of a cube, with the text around its one placeholder. -/
structure CubePath (path : Bytes) (name : Bytes × Bytes) (before after : Bytes) : Prop where
  known : name ∈ assetNames
  eq : path = slash :: (name.1++slash :: (before++(placeholder++after)))
  none_before : percent ∉ before
  none_after : percent ∉ after
  asset : AssetPath (ascii "/assets"++slash :: (name.2++slash :: (before++(placeholder++after))))

section Faces

variable {py : PythonLibrary Xml} {cube path before after tail : Bytes} {face : UInt8}
  {name : Bytes × Bytes}

theorem cubeFaces_valid : ∀ face ∈ cubeFaces, face ≠ slash ∧ face ≠ backslash ∧ face ≠ dot := by
  decide +kernel

/-- A segment that has a letter in it is neither empty nor made of dots. -/
theorem segment_of_mem {segment : Bytes} (hdot : face ≠ dot) (h : face ∈ segment) :
    segment ≠ [] ∧ segment ≠ [dot] ∧ segment ≠ [dot, dot] := by
  refine ⟨?_, ?_, ?_⟩
  all_goals
    rintro rfl
    simp [hdot] at h

theorem segments_of_mem {segment segment' : Bytes} (hdot : face ≠ dot) (hface : face ∈ segment')
    (h : ∀ s ∈ pathSegments after segment, s ≠ [] ∧ s ≠ [dot] ∧ s ≠ [dot, dot]) :
    ∀ s ∈ pathSegments after segment', s ≠ [] ∧ s ≠ [dot] ∧ s ≠ [dot, dot] := by
  induction after generalizing segment segment' with
  | nil =>
    intro s hs
    rw [pathSegments, if_neg (segment_of_mem hdot hface).1, List.mem_singleton] at hs
    exact hs ▸ segment_of_mem hdot hface
  | cons c after ih =>
    rw [pathSegments] at h ⊢
    split_ifs at h ⊢ with hc
    · intro s hs
      rcases List.mem_cons.mp hs with rfl | hs
      · exact segment_of_mem hdot hface
      · exact h s (List.mem_cons_of_mem _ hs)
    · exact ih (List.mem_append_left _ hface) h

/-- The placeholder gives way to a face in one of the segments. -/
theorem segments_face {segment : Bytes} (hslash : face ≠ slash) (hdot : face ≠ dot)
    (h : ∀ s ∈ pathSegments (before++(placeholder++after)) segment,
      s ≠ [] ∧ s ≠ [dot] ∧ s ≠ [dot, dot]) :
    ∀ s ∈ pathSegments (before++face :: after) segment, s ≠ [] ∧ s ≠ [dot] ∧ s ≠ [dot, dot] := by
  induction before generalizing segment with
  | nil =>
    rw [List.nil_append, placeholder_append, pathSegments, if_neg (by decide), pathSegments,
      if_neg (by decide)] at h
    rw [List.nil_append, pathSegments, if_neg hslash]
    exact segments_of_mem hdot (by simp) h
  | cons c before ih =>
    rw [List.cons_append, pathSegments] at h ⊢
    split_ifs at h ⊢ with hc
    · intro s hs
      rcases List.mem_cons.mp hs with rfl | hs
      · exact h s List.mem_cons_self
      · exact ih (fun s hs => h s (List.mem_cons_of_mem _ hs)) s hs
    · exact ih h

theorem assetPath_face (hface : face ∈ cubeFaces)
    (h : AssetPath (ascii "/assets/"++(before++(placeholder++after)))) :
    AssetPath (ascii "/assets/"++(before++face :: after)) := by
  obtain ⟨hslash, hbackslash, hdot⟩ := cubeFaces_valid face hface
  have hlength : (ascii "/assets/").length = 8 := rfl
  rw [assetPath_iff, isAssetPath_eq_true_iff, List.take_left' hlength, List.drop_left' hlength] at *
  obtain ⟨⟨-, hnone, hsegments⟩, hlast⟩ := h
  refine ⟨⟨rfl, ?_, segments_face hslash hdot hsegments⟩, ?_⟩
  · simp only [List.mem_append, List.mem_cons, not_or] at hnone ⊢
    exact ⟨hnone.1, hnone.2.1, hbackslash.symm, hnone.2.2.2⟩
  · by_cases hnil : after = []
    · rw [hnil, ← List.append_assoc, List.getLast?_append_of_ne_nil _ (by simp)]
      simpa using hslash
    · rw [← List.append_assoc, List.getLast?_append_of_ne_nil _ (by simp),
        List.getLast?_cons_of_ne_nil hnil]
      rwa [placeholder_append, ← List.append_assoc, List.getLast?_append_of_ne_nil _ (by simp),
        List.getLast?_cons_of_ne_nil (by simp), List.getLast?_cons_of_ne_nil hnil] at hlast

theorem percent_ne_slash : percent ≠ slash := by decide

theorem percent_notMem_assets : percent ∉ ascii "/assets" := by decide

/-- The placeholder of a URL is behind the name of its directory. -/
theorem exists_cut_of_placeholder (hname : name ∈ assetNames)
    (h : ascii "/assets"++slash :: (name.2++slash :: tail) = before++(placeholder++after)) :
    ∃ start, tail = start++(placeholder++after) ∧
      before = ascii "/assets"++slash :: (name.2++slash :: start) := by
  obtain ⟨-, -, -, hpercent, -⟩ := assetNames_valid name hname
  have hsplit : (ascii "/assets"++slash :: (name.2++[slash]))++tail =
      before++(placeholder++after) := by
    rw [← h]
    simp
  rcases List.append_eq_append_iff.mp hsplit with ⟨start, hbefore, htail⟩ | ⟨start, hdir, htail⟩
  · exact ⟨start, htail, by simp [hbefore]⟩
  · cases start with
    | nil => exact ⟨[], htail.symm, by simpa using hdir.symm⟩
    | cons c start =>
      have hc : c = percent := by
        rw [placeholder_append] at htail
        exact (List.cons.inj htail).1.symm
      have hmem : percent ∈ ascii "/assets"++slash :: (name.2++[slash]) := by
        rw [hdir, hc]
        simp
      simp [percent_notMem_assets, percent_ne_slash, hpercent] at hmem

/-- The URL of a cube is accepted exactly if it leads to the path of its faces. -/
theorem cubeUrl_iff :
    (∃ url, assetUrl py (.str cube) = .ok url ∧ CubeUrl url) ↔
      ∃ path name before after, sourceAssetPath py (.str cube) = .ok path ∧
        CubePath path name before after := by
  constructor
  · rintro ⟨url, hurl, hasset, before, after, hcut, hbefore, hafter⟩
    obtain ⟨path, name, rest, hpath, hplain, hplainUrl⟩ := fitUrl_iff.mp ⟨url, hurl, hasset⟩
    obtain rfl := Except.ok.inj (hurl.symm.trans hplainUrl)
    obtain ⟨tail, -, heq, htail⟩ := hplain.exists_tail
    obtain ⟨start, rfl, rfl⟩ := exists_cut_of_placeholder hplain.known (htail.symm.trans hcut)
    refine ⟨path, name, start, after, hpath, hplain.known, heq, ?_, hafter, htail ▸ hasset⟩
    intro hmem
    exact hbefore (by simp [hmem])
  · rintro ⟨path, name, before, after, hpath, hcube⟩
    obtain ⟨-, -, -, hpercent, -⟩ := assetNames_valid name hcube.known
    refine ⟨_, assetUrl_of_path hcube.known (hcube.eq ▸ hpath), hcube.asset,
      ascii "/assets"++slash :: (name.2++slash :: before), after, by simp, ?_, hcube.none_after⟩
    simp [percent_notMem_assets, percent_ne_slash, hpercent, hcube.none_before]

theorem CubePath.replace (h : CubePath path name before after) (face : UInt8) :
    replacePlaceholder face path = slash :: (name.1++slash :: (before++face :: after)) := by
  obtain ⟨⟨-, hpercent, -⟩, -⟩ := assetNames_valid name h.known
  have hsplit : path = (slash :: (name.1++slash :: before))++(placeholder++after) := by
    rw [h.eq]
    simp
  have hnone : percent ∉ slash :: (name.1++slash :: before) := by
    simp [percent_ne_slash, hpercent, h.none_before]
  rw [hsplit, replacePlaceholder_append hnone]
  simp

/-- The URL of a face. -/
theorem CubePath.replace_url (h : CubePath path name before after) (face : UInt8) :
    replacePlaceholder face
      (ascii "/assets"++slash :: (name.2++slash :: (before++(placeholder++after)))) =
      ascii "/assets"++slash :: (name.2++slash :: (before++face :: after)) := by
  obtain ⟨-, -, -, hpercent, -⟩ := assetNames_valid name h.known
  have hsplit : ascii "/assets"++slash :: (name.2++slash :: (before++(placeholder++after))) =
      (ascii "/assets"++slash :: (name.2++slash :: before))++(placeholder++after) := by simp
  have hnone : percent ∉ ascii "/assets"++slash :: (name.2++slash :: before) := by
    simp [percent_notMem_assets, percent_ne_slash, hpercent, h.none_before]
  rw [hsplit, replacePlaceholder_append hnone]
  simp

theorem CubePath.placeholderCount (h : CubePath path name before after) :
    JingjieAR.placeholderCount path = 1 := by
  obtain ⟨⟨-, hpercent, -⟩, -⟩ := assetNames_valid name h.known
  have hone : JingjieAR.placeholderCount path = 1 ∧ containsUnsupportedPlaceholder path = false := by
    refine placeholders_iff.mpr ⟨slash :: (name.1++slash :: before), after, ?_, ?_, h.none_after⟩
    · rw [h.eq]
      simp
    · simp [percent_ne_slash, hpercent, h.none_before]
  exact hone.1

/-- With a face in the place of the placeholder the path is plain. -/
theorem CubePath.face_plain (h : CubePath path name before after) (hface : face ∈ cubeFaces) :
    ∃ rest, AssetFilePath (replacePlaceholder face path) name rest ∧
      plainUrl name rest = ascii "/assets"++slash :: (name.2++slash :: (before++face :: after)) := by
  have hassets : ∀ text, ascii "/assets"++slash :: (name.2++slash :: text) =
      ascii "/assets/"++((name.2++[slash])++text) := by
    intro text
    have hsplit : ascii "/assets/" = ascii "/assets"++[slash] := rfl
    simp [hsplit]
  have hasset : AssetPath (ascii "/assets"++slash :: (name.2++slash :: (before++face :: after))) := by
    rw [hassets, ← List.append_assoc (name.2++[slash])]
    refine assetPath_face hface ?_
    rw [List.append_assoc, ← hassets]
    exact h.asset
  obtain ⟨rest, hplain, hjoin⟩ := assetFilePath_of_assetPath h.known hasset
  refine ⟨rest, h.replace face ▸ hplain, ?_⟩
  rw [plainUrl, joinNames_cons, hjoin]

end Faces

section Places

variable {text before after pattern path : Bytes} {c : UInt8}

theorem prefix_append_cons_iff (hc : c ∉ pattern) : pattern <+: before++c :: after ↔ pattern <+: before := by
  constructor
  · intro h
    rcases List.prefix_or_prefix_of_prefix h (List.prefix_append before (c :: after)) with
      hbegins | ⟨rest, hrest⟩
    · exact hbegins
    · cases rest with
      | nil => exact ⟨[], by simpa using hrest.symm⟩
      | cons d rest =>
        rw [← hrest, List.prefix_append_right_inj] at h
        obtain ⟨rfl, -⟩ := List.cons_prefix_cons.mp h
        exact absurd (hrest ▸ by simp) hc
  · exact fun h => h.trans (List.prefix_append _ _)

/-- A pattern without a certain letter is found before or behind it. -/
theorem fromPattern_append_cons (hc : c ∉ slash :: pattern) :
    fromPattern (slash :: pattern) (before++c :: after) =
      ((fromPattern (slash :: pattern) before).map (·++c :: after)).or
        (fromPattern (slash :: pattern) after) := by
  induction before with
  | nil =>
    have hnot : ¬(slash :: pattern).isPrefixOf (c :: after) = true := by
      intro hbegins
      obtain ⟨heq, -⟩ := List.cons_prefix_cons.mp (List.isPrefixOf_iff_prefix.mp hbegins)
      exact hc (heq ▸ List.mem_cons_self)
    have hnil : fromPattern (slash :: pattern) [] = none := rfl
    rw [List.nil_append, hnil, fromPattern, if_neg hnot]
    rfl
  | cons d before ih =>
    have hbegins : (slash :: pattern).isPrefixOf (d :: (before++c :: after)) =
        (slash :: pattern).isPrefixOf (d :: before) := by
      rw [Bool.eq_iff_iff, List.isPrefixOf_iff_prefix, List.isPrefixOf_iff_prefix,
        ← List.cons_append]
      exact prefix_append_cons_iff hc
    rw [List.cons_append, fromPattern, fromPattern, hbegins, ih]
    split_ifs
    · rfl
    · rfl

/-- A letter that no pattern has leaves a text in its place when it takes that of the
placeholder. -/
theorem findSome_face {patterns : List Bytes}
    (hpatterns : ∀ pattern ∈ patterns, percent ∉ slash :: pattern ∧ c ∉ slash :: pattern)
    (h : patterns.findSome? (fun pattern => fromPattern (slash :: pattern)
      (before++(placeholder++after))) = some (before++(placeholder++after))) :
    patterns.findSome? (fun pattern => fromPattern (slash :: pattern) (before++c :: after)) =
      some (before++c :: after) := by
  induction patterns with
  | nil => simp at h
  | cons pattern patterns ih =>
    obtain ⟨⟨hpercent, hc⟩, hothers⟩ := List.forall_mem_cons.mp hpatterns
    have hletter : fromPattern (slash :: pattern) (letterS :: after) =
        fromPattern (slash :: pattern) after := by
      rw [fromPattern, if_neg]
      intro hbegins
      obtain ⟨heq, -⟩ := List.cons_prefix_cons.mp (List.isPrefixOf_iff_prefix.mp hbegins)
      exact absurd heq (by decide)
    rw [List.findSome?_cons, placeholder_append, fromPattern_append_cons hpercent, hletter,
      ← placeholder_append] at h
    rw [List.findSome?_cons, fromPattern_append_cons hc]
    cases hbefore : fromPattern (slash :: pattern) before with
    | some found =>
      rw [hbefore] at h
      obtain rfl := List.append_cancel_right (Option.some.inj h)
      rfl
    | none =>
      rw [hbefore] at h
      cases hafter : fromPattern (slash :: pattern) after with
      | some found =>
        rw [hafter] at h
        obtain ⟨rest, hrest, -⟩ := fromPattern_eq_some hafter
        -- What is found behind the placeholder is shorter than the text.
        have hlength := congrArg List.length (hrest.trans (congrArg (rest++·) (Option.some.inj h)))
        simp [placeholder_append] at hlength
        omega
      | none =>
        rw [hafter] at h
        exact ih hothers h

/-- No directory has a name with `b` in it. -/
theorem localPath_face (h : localPath (before++(placeholder++after)) =
    some (before++(placeholder++after))) :
    localPath (before++98 :: after) = some (before++98 :: after) := by
  have hnames : ∀ pattern ∈ assetNames.map (fun name => name.1++[slash]),
      percent ∉ slash :: pattern ∧ 98 ∉ slash :: pattern := by decide
  have hlocal : ∀ text, localPath text =
      (assetNames.map (fun name => name.1++[slash])).findSome?
        (fun pattern => fromPattern (slash :: pattern) text) := by
    intro text
    rw [localPath, assetPrefixes_eq, List.findSome?_map, List.findSome?_map]
    rfl
  rw [hlocal] at h ⊢
  exact findSome_face hnames h

end Places

end JingjieAR
