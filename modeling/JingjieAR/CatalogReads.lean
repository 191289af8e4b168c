import JingjieAR.ArtworkIds
import JingjieAR.AssetUrls

/-! What the readers of a catalogue give: without errors, the values that the document
describes, with all that is required of them, and with the ids that they add. -/
namespace JingjieAR

variable {fs : FileSystem} {staticRoot context key : Bytes} {object value : Json} {index : ℕ}

section Reads

variable {α : Type} {r : Read α} {a : α}

/-- The reading succeeds with a value. -/
structure Read.Gives (r : Read α) (a : α) : Prop where
  errors : r.errors = []
  value : r.value = a

theorem Read.gives_value (h : r.errors = []) : r.Gives r.value := ⟨h, rfl⟩

theorem Read.gives_mk_iff {b : α} {errors : List Bytes} :
    (Read.mk b errors).Gives a ↔ errors = [] ∧ b = a :=
  ⟨fun h => ⟨h.errors, h.value⟩, fun h => ⟨h.1, h.2⟩⟩

theorem not_gives_addError {b : α} {message : Bytes} :
    ¬ (Read.mk b (addError context message)).Gives a :=
  fun h => addError_ne_nil _ _ h.errors

/-- A check that passes exactly if a property holds. -/
theorem ite_addError_iff {p : Prop} [Decidable p] {message : Bytes} :
    (if p then addError context message else []) = [] ↔ ¬ p := by
  by_cases hp : p
  · simp [hp, addError]
  · simp [hp]

theorem Read.andThen_gives_iff {check : α → List Bytes} :
    (r.andThen check).Gives a ↔ r.Gives a ∧ check a = [] := by
  constructor
  · intro h
    obtain ⟨herrors, hcheck⟩ := andThen_errors h.errors
    have hvalue : r.value = a := (andThen_value r check).symm.trans h.value
    exact ⟨⟨herrors, hvalue⟩, hvalue ▸ hcheck⟩
  · rintro ⟨h, hcheck⟩
    refine ⟨?_, (andThen_value r check).trans h.value⟩
    rw [Read.andThen, if_pos h.errors, h.value]
    exact hcheck

theorem readString_gives_iff {allowEmpty : Bool} {text : Bytes} :
    (readString object key context allowEmpty).Gives text ↔
      StringField object key text ∧ (allowEmpty = true ∨ text ≠ []) := by
  rw [readString, StringField]
  split
  · rename_i found hfind
    by_cases hempty : !allowEmpty ∧ found = []
    · rw [if_pos hempty, hfind]
      refine iff_of_false not_gives_addError ?_
      rintro ⟨hsame, hallowed⟩
      injection hsame with hsame
      injection hsame with hsame
      simp [← hsame, hempty.2] at hallowed
      simp [hallowed] at hempty
    · rw [if_neg hempty, Read.gives_mk_iff, hfind]
      constructor
      · rintro ⟨-, rfl⟩
        refine ⟨rfl, ?_⟩
        cases allowEmpty
        · exact .inr (by simpa using hempty)
        · exact .inl rfl
      · rintro ⟨hsame, -⟩
        injection hsame with hsame
        injection hsame with hsame
        exact ⟨rfl, hsame⟩
  · rename_i hnot
    exact iff_of_false not_gives_addError (fun h => hnot text h.1)

theorem required_gives_iff {text : Bytes} :
    (readString object key context false).Gives text ↔ StringField object key text ∧ text ≠ [] := by
  rw [readString_gives_iff]
  simp

theorem optional_gives_iff {text : Bytes} :
    (readString object key context true).Gives text ↔ StringField object key text := by
  rw [readString_gives_iff]
  simp

theorem readNumber_gives_iff {number : ℚ} :
    (readNumber object key context).Gives number ↔ NumberField object key number := by
  rw [readNumber, NumberField]
  split
  · rename_i found hfind
    rw [Read.gives_mk_iff, hfind]
    constructor
    · rintro ⟨-, rfl⟩
      rfl
    · intro hsame
      injection hsame with hsame
      injection hsame with hsame
      injection hsame with hsame
      exact ⟨rfl, hsame⟩
  · rename_i hfind
    rw [hfind]
    exact iff_of_false not_gives_addError (by simp)
  · rename_i hnot _
    exact iff_of_false not_gives_addError (hnot number)

theorem readBool_gives_iff {flag : Bool} :
    (readBool object key context).Gives flag ↔ BoolField object key flag := by
  rw [readBool, BoolField]
  split
  · rename_i found hfind
    rw [Read.gives_mk_iff, hfind]
    constructor
    · rintro ⟨-, rfl⟩
      rfl
    · intro hsame
      injection hsame with hsame
      injection hsame with hsame
      exact ⟨rfl, hsame⟩
  · rename_i hnot
    exact iff_of_false not_gives_addError (hnot flag)

theorem validateRange_iff {number : ℚ} {minimum maximum : ℤ} {name : Bytes} :
    validateRange number minimum maximum context name = [] ↔
      minimum ≤ number ∧ number ≤ maximum := by
  rw [validateRange, ite_addError_iff]
  constructor
  · intro h
    exact ⟨not_lt.mp fun hlt => h (.inl hlt), not_lt.mp fun hgt => h (.inr hgt)⟩
  · rintro ⟨hmin, hmax⟩ (hlt | hgt)
    · exact absurd hlt (not_lt.mpr hmin)
    · exact absurd hgt (not_lt.mpr hmax)

theorem addUniqueId_gives_iff {id kind : Bytes} {ids ids' : Finset Bytes} (hid : id ≠ []) :
    (addUniqueId id kind ids context).Gives ids' ↔ id ∉ ids ∧ ids' = insert id ids := by
  rw [addUniqueId, if_neg hid]
  by_cases hseen : id ∈ ids
  · rw [if_pos hseen]
    exact iff_of_false not_gives_addError (fun h => h.1 hseen)
  · rw [if_neg hseen, Read.gives_mk_iff]
    constructor
    · rintro ⟨-, rfl⟩
      exact ⟨hseen, rfl⟩
    · rintro ⟨-, rfl⟩
      exact ⟨rfl, rfl⟩

/-- Only an object has members. -/
theorem isObject_of_find {member : Json} (h : object.find key = some member) :
    object.isObject = true := by
  cases object with
  | object members => rfl
  | _ => simp [Json.find] at h

end Reads

section Ids

/-- The ids are all different and new, and count as seen afterwards. -/
structure Adds (keys : List Bytes) (ids ids' : Finset Bytes) : Prop where
  nodup : keys.Nodup
  new : ∀ k ∈ keys, k ∉ ids
  eq : ids' = ids ∪ keys.toFinset

theorem adds_nil_iff {ids ids' : Finset Bytes} : Adds [] ids ids' ↔ ids' = ids := by
  constructor
  · intro h
    rw [h.eq]
    simp
  · rintro rfl
    exact ⟨List.nodup_nil, by simp, by simp⟩

theorem adds_singleton_iff {id : Bytes} {ids ids' : Finset Bytes} :
    Adds [id] ids ids' ↔ id ∉ ids ∧ ids' = insert id ids := by
  have hunion : ids ∪ [id].toFinset = insert id ids := by
    rw [List.toFinset_cons, List.toFinset_nil, Finset.union_insert, Finset.union_empty]
  constructor
  · intro h
    exact ⟨h.new id (by simp), h.eq.trans hunion⟩
  · rintro ⟨hnew, heq⟩
    exact ⟨List.nodup_singleton id, by simpa using hnew, heq.trans hunion.symm⟩

theorem adds_append_iff (keys keys' : List Bytes) {ids ids' : Finset Bytes} :
    Adds (keys++keys') ids ids' ↔ ∃ mid, Adds keys ids mid ∧ Adds keys' mid ids' := by
  constructor
  · intro h
    obtain ⟨hnodup, hnodup', hdisjoint⟩ := List.nodup_append.mp h.nodup
    refine ⟨ids ∪ keys.toFinset, ⟨hnodup, fun k hk => h.new k (by simp [hk]), rfl⟩, hnodup', ?_, ?_⟩
    · intro k hk hseen
      rcases Finset.mem_union.mp hseen with hold | hkeys
      · exact h.new k (by simp [hk]) hold
      · exact hdisjoint k (List.mem_toFinset.mp hkeys) k hk rfl
    · rw [h.eq, List.toFinset_append, Finset.union_assoc]
  · rintro ⟨mid, h, h'⟩
    have hmid : ∀ k ∈ keys', k ∉ ids ∧ k ∉ keys := by
      intro k hk
      have hnot := h'.new k hk
      rw [h.eq, Finset.mem_union, List.mem_toFinset] at hnot
      exact not_or.mp hnot
    refine ⟨List.nodup_append.mpr ⟨h.nodup, h'.nodup, ?_⟩, ?_, ?_⟩
    · rintro a ha b hb rfl
      exact (hmid a hb).2 ha
    · intro k hk
      rcases List.mem_append.mp hk with hk | hk
      · exact h.new k hk
      · exact (hmid k hk).1
    · rw [h'.eq, h.eq, List.toFinset_append, Finset.union_assoc]

theorem adds_empty_iff {keys : List Bytes} {ids : Finset Bytes} :
    Adds keys ∅ ids ↔ keys.Nodup ∧ ids = keys.toFinset := by
  constructor
  · intro h
    exact ⟨h.nodup, h.eq.trans (Finset.empty_union _)⟩
  · rintro ⟨hnodup, rfl⟩
    exact ⟨hnodup, by simp, (Finset.empty_union _).symm⟩

theorem forall₂_and_right {α β : Type} {r : α → β → Prop} {p : β → Prop} {as : List α}
    {bs : List β} :
    List.Forall₂ (fun a b => r a b ∧ p b) as bs ↔ List.Forall₂ r as bs ∧ ∀ b ∈ bs, p b := by
  constructor
  · intro h
    induction h with
    | nil => exact ⟨.nil, by simp⟩
    | cons hab _ ih => exact ⟨.cons hab.1 ih.1, List.forall_mem_cons.mpr ⟨hab.2, ih.2⟩⟩
  · rintro ⟨h, hp⟩
    induction h with
    | nil => exact .nil
    | cons hab _ ih =>
      obtain ⟨hfirst, hrest⟩ := List.forall_mem_cons.mp hp
      exact .cons ⟨hab, hfirst⟩ (ih hrest)

/-- If each value is read on its own and moves the ids on, a list of values is read as a whole
and moves them all the way. -/
theorem readAll_gives_iff {α σ : Type} {read : ℕ → Json → σ → Read (α × σ)}
    (good : Json → α → Prop) (moves : List α → σ → σ → Prop)
    (hnil : ∀ s s', moves [] s s' ↔ s' = s)
    (hcons : ∀ a as s s', moves (a :: as) s s' ↔ ∃ mid, moves [a] s mid ∧ moves as mid s')
    (hread : ∀ index value s a s',
      (read index value s).Gives (a, s') ↔ good value a ∧ moves [a] s s')
    {index : ℕ} {values : List Json} {s s' : σ} {as : List α} :
    (readAll read index values s).Gives (as, s') ↔ List.Forall₂ good values as ∧ moves as s s' := by
  induction values generalizing index s as with
  | nil =>
    rw [readAll, Read.gives_mk_iff, Prod.mk.injEq, List.forall₂_nil_left_iff]
    constructor
    · rintro ⟨-, rfl, rfl⟩
      exact ⟨rfl, (hnil _ _).mpr rfl⟩
    · rintro ⟨rfl, hmoves⟩
      exact ⟨rfl, rfl, ((hnil _ _).mp hmoves).symm⟩
  | cons value values ih =>
    rw [readAll]
    constructor
    · intro h
      obtain ⟨herrors, hvalue⟩ := h
      simp only [List.append_eq_nil_iff] at herrors
      obtain ⟨rfl, rfl⟩ := Prod.mk.injEq .. ▸ hvalue
      have hfirst := (hread _ _ _ _ _).mp (Read.gives_value herrors.1)
      have hrest := ih.mp (Read.gives_value herrors.2)
      exact ⟨.cons hfirst.1 hrest.1, (hcons _ _ _ _).mpr ⟨_, hfirst.2, hrest.2⟩⟩
    · rintro ⟨hgood, hmoves⟩
      cases hgood with
      | cons hfirst hrest =>
        obtain ⟨mid, hmove, hmoves⟩ := (hcons _ _ _ _).mp hmoves
        have hread₁ := (hread index value s _ mid).mpr ⟨hfirst, hmove⟩
        have hread₂ := (@ih (index+1) mid _).mpr ⟨hrest, hmoves⟩
        refine ⟨?_, ?_⟩
        · simp only [hread₁.value, hread₁.errors, hread₂.errors, List.append_nil]
        · simp only [hread₁.value, hread₂.value]

end Ids

section Records

variable {top : CanonicalPath}

theorem readImages_gives_iff {values : List Json} {images : List Bytes} :
    (readImages fs top.text context index values).Gives images ↔
      values = images.map .string ∧ ∀ image ∈ images, TakenAsset fs top image := by
  induction values generalizing index images with
  | nil =>
    rw [readImages, Read.gives_mk_iff]
    constructor
    · rintro ⟨-, rfl⟩
      exact ⟨rfl, by simp⟩
    · rintro ⟨hvalues, -⟩
      exact ⟨rfl, (List.map_eq_nil_iff.mp hvalues.symm).symm⟩
  | cons value values ih =>
    cases value with
    | string image =>
      simp only [readImages]
      rw [Read.gives_mk_iff, List.append_eq_nil_iff, validateAsset_eq_nil_iff]
      constructor
      · rintro ⟨⟨htaken, herrors⟩, rfl⟩
        obtain ⟨hvalues, hrest⟩ := ih.mp (Read.gives_value herrors)
        exact ⟨by rw [List.map_cons, ← hvalues], List.forall_mem_cons.mpr ⟨htaken, hrest⟩⟩
      · rintro ⟨hvalues, htaken⟩
        obtain ⟨image', images', rfl, himage, hrest⟩ := List.map_eq_cons_iff.mp hvalues.symm
        injection himage with himage
        obtain ⟨hfirst, htaken⟩ := List.forall_mem_cons.mp htaken
        have hgives := (@ih (index+1) _).mpr ⟨hrest.symm, htaken⟩
        exact ⟨⟨himage ▸ hfirst, hgives.errors⟩, by rw [hgives.value, himage]⟩
    | _ =>
      simp only [readImages]
      rw [Read.gives_mk_iff, List.append_eq_nil_iff]
      refine iff_of_false (fun h => addError_ne_nil _ _ h.1.1) ?_
      rintro ⟨hvalues, -⟩
      obtain ⟨_, _, _, himage, _⟩ := List.map_eq_cons_iff.mp hvalues.symm
      cases himage

theorem images_gives_iff {images : List Bytes} :
    Read.Gives (match value.find (ascii "images") with
      | some (.array (image :: images)) =>
        readImages fs top.text context 0 (image :: images)
      | _ => ⟨[], addError context (ascii "images must be a non-empty array")⟩) images ↔
      value.find (ascii "images") = some (.array (images.map .string)) ∧
        images ≠ [] ∧ ∀ image ∈ images, TakenAsset fs top image := by
  split
  · rename_i image rest hfind
    rw [readImages_gives_iff, hfind]
    constructor
    · rintro ⟨hvalues, htaken⟩
      refine ⟨by rw [hvalues], ?_, htaken⟩
      rintro rfl
      simp at hvalues
    · rintro ⟨hsame, -, htaken⟩
      injection hsame with hsame
      injection hsame with hsame
      exact ⟨hsame, htaken⟩
  · rename_i hnot
    refine iff_of_false not_gives_addError ?_
    rintro ⟨hfind, hne, -⟩
    obtain ⟨image, rest, rfl⟩ := List.exists_cons_of_ne_nil hne
    exact hnot _ _ hfind

/-- The members of an artwork are read one by one. -/
theorem readArtwork_gives_members {ids ids' : Finset Bytes} {artwork : ArtworkInfo}
    (hobject : value.isObject = true) (hcontext : context = indexedContext (ascii "artworks") index) :
    (readArtwork fs staticRoot index value ids).Gives (artwork, ids') ↔
      ((readString value (ascii "artworkId") context false).andThen (fun id =>
        if id.length > 64 then addError context (ascii "artworkId exceeds 64 bytes")
        else [])).Gives artwork.id ∧
      (addUniqueId artwork.id (ascii "artwork") ids context).Gives ids' ∧
      (readString value (ascii "title") context false).Gives artwork.title ∧
      (readString value (ascii "text") context true).Gives artwork.text ∧
      Read.Gives (match value.find (ascii "images") with
        | some (.array (image :: images)) => readImages fs staticRoot context 0 (image :: images)
        | _ => ⟨[], addError context (ascii "images must be a non-empty array")⟩)
        artwork.images := by
  rw [readArtwork, if_neg (by simp [hobject]), hcontext]
  constructor
  · rintro ⟨herrors, hvalue⟩
    simp only [List.append_eq_nil_iff] at herrors
    obtain ⟨hid, hids, htitle, htext, himages⟩ := herrors
    obtain ⟨rfl, rfl⟩ := Prod.mk.injEq .. ▸ hvalue
    exact ⟨⟨hid, rfl⟩, ⟨hids, rfl⟩, ⟨htitle, rfl⟩, ⟨htext, rfl⟩, ⟨himages, rfl⟩⟩
  · rintro ⟨hid, hids, htitle, htext, himages⟩
    refine ⟨?_, ?_⟩
    · simp only [hid.value, hid.errors, hids.errors, htitle.errors, htext.errors, List.nil_append]
      exact himages.errors
    · simp only [hid.value, hids.value, htitle.value, htext.value]
      exact congrArg (fun images => ({ artwork with images := images }, ids')) himages.value

theorem readArtwork_gives_iff {ids ids' : Finset Bytes} {artwork : ArtworkInfo} :
    (readArtwork fs top.text index value ids).Gives (artwork, ids') ↔
      (DescribesArtwork value artwork ∧ SoundArtwork (TakenAsset fs top) artwork) ∧
        Adds [artwork.id] ids ids' := by
  by_cases hobject : value.isObject = true
  · rw [readArtwork_gives_members hobject rfl, Read.andThen_gives_iff, ite_addError_iff, not_lt,
      required_gives_iff, required_gives_iff, optional_gives_iff, images_gives_iff,
      adds_singleton_iff]
    constructor
    · rintro ⟨⟨⟨hid, hne⟩, hlength⟩, hids, ⟨htitle, htitleNe⟩, htext, himages, hsound⟩
      exact ⟨⟨⟨hid, htitle, htext, himages⟩, ⟨hne, hlength⟩, htitleNe, hsound⟩,
        (addUniqueId_gives_iff hne).mp hids⟩
    · rintro ⟨⟨hdescribes, hsound⟩, hids⟩
      exact ⟨⟨⟨hdescribes.id, hsound.id.1⟩, hsound.id.2⟩,
        (addUniqueId_gives_iff hsound.id.1).mpr hids, ⟨hdescribes.title, hsound.title⟩,
        hdescribes.text, hdescribes.images, hsound.images⟩
  · rw [readArtwork, if_pos (by simp [hobject])]
    exact iff_of_false not_gives_addError fun h => hobject (isObject_of_find h.1.1.id)

theorem assetField_gives_iff {field url : Bytes} :
    ((readString value key context false).andThen
      (validateAsset fs top.text context field)).Gives url ↔
      StringField value key url ∧ TakenAsset fs top url := by
  rw [Read.andThen_gives_iff, required_gives_iff, validateAsset_eq_nil_iff, and_assoc]
  refine and_congr_right fun _ => and_iff_right_of_imp ?_
  rintro ⟨hpath, -⟩ rfl
  exact absurd hpath (by decide)

theorem rangeField_gives_iff {number : ℚ} {minimum maximum : ℤ} {name : Bytes} :
    ((readNumber value key context).andThen (fun number =>
      validateRange number minimum maximum context name)).Gives number ↔
      NumberField value key number ∧ minimum ≤ number ∧ number ≤ maximum := by
  rw [Read.andThen_gives_iff, readNumber_gives_iff, validateRange_iff]

section Targets

variable {base hotspot : HotspotInfo} {type : Bytes}

/-- A member that the hotspots of one type have to have, and others do not. -/
def HasTarget (value : Json) (hotspot : HotspotInfo) (type key member : Bytes) : Prop :=
  (hotspot.type = type → StringField value key member ∧ member ≠ []) ∧
    (hotspot.type ≠ type → member = [])

theorem HasTarget.of_ne {member : Bytes} (hne : hotspot.type ≠ type) (hnil : member = []) :
    HasTarget value hotspot type key member :=
  ⟨fun h => absurd h hne, fun _ => hnil⟩

/-- What `readTarget` leaves as it was. -/
theorem readTarget_value (context type : Bytes) (value : Json) (base : HotspotInfo) :
    let hotspot := (readTarget context type value base).value
    hotspot = { base with
      targetSceneId := hotspot.targetSceneId, artworkId := hotspot.artworkId,
      text := hotspot.text } := by
  rw [readTarget]
  split_ifs
  · rfl
  · rfl
  · rfl
  · rfl
  · rfl

theorem readTarget_fields (h : (readTarget context type value base).value = hotspot) :
    base.id = hotspot.id ∧ base.type = hotspot.type ∧ base.title = hotspot.title ∧
      base.iconUrl = hotspot.iconUrl ∧ base.ath = hotspot.ath ∧ base.atv = hotspot.atv := by
  have hsame := readTarget_value context type value base
  simp only [h] at hsame
  rw [hsame]
  exact ⟨rfl, rfl, rfl, rfl, rfl, rfl⟩

theorem readTarget_gives_iff (htype : base.type = type)
    (hbase : base.targetSceneId = [] ∧ base.artworkId = [] ∧ base.text = []) :
    (readTarget context type value base).Gives hotspot ↔
      hotspot = { base with
        targetSceneId := hotspot.targetSceneId, artworkId := hotspot.artworkId,
        text := hotspot.text } ∧
      HasTarget value hotspot (ascii "scene") (ascii "targetSceneId") hotspot.targetSceneId ∧
      HasTarget value hotspot (ascii "artwork") (ascii "artworkId") hotspot.artworkId ∧
      HasTarget value hotspot (ascii "text") (ascii "text") hotspot.text ∧
      (type ∈ hotspotTypes ∨ type = []) := by
  obtain ⟨htarget, hartwork, htext⟩ := hbase
  have hkinds : type ∈ hotspotTypes ↔ type = ascii "scene" ∨ type = ascii "artwork" ∨
      type = ascii "text" ∨ type = ascii "inactive" := by
    simp [hotspotTypes]
  constructor
  · rintro ⟨herrors, hvalue⟩
    have hsame := readTarget_value context type value base
    simp only [hvalue] at hsame
    have hkept : hotspot.type = type := by rw [hsame, htype]
    refine ⟨hsame, ?_⟩
    rw [readTarget] at herrors hvalue
    split_ifs at herrors hvalue with hscene hart htxt hunknown
    · subst hvalue
      have hfield := required_gives_iff.mp (Read.gives_value herrors)
      refine ⟨⟨fun _ => hfield, fun hne => absurd (hkept.trans hscene) hne⟩,
        .of_ne ?_ hartwork, .of_ne ?_ htext, .inl (hkinds.mpr (.inl hscene))⟩
      · rw [hkept, hscene]
        decide
      · rw [hkept, hscene]
        decide
    · subst hvalue
      have hfield := required_gives_iff.mp (Read.gives_value herrors)
      refine ⟨.of_ne ?_ htarget, ⟨fun _ => hfield, fun hne => absurd (hkept.trans hart) hne⟩,
        .of_ne ?_ htext, .inl (hkinds.mpr (.inr (.inl hart)))⟩
      · rw [hkept, hart]
        decide
      · rw [hkept, hart]
        decide
    · subst hvalue
      have hfield := required_gives_iff.mp (Read.gives_value herrors)
      refine ⟨.of_ne ?_ htarget, .of_ne ?_ hartwork,
        ⟨fun _ => hfield, fun hne => absurd (hkept.trans htxt) hne⟩,
        .inl (hkinds.mpr (.inr (.inr (.inl htxt))))⟩
      · rw [hkept, htxt]
        decide
      · rw [hkept, htxt]
        decide
    · exact absurd herrors (addError_ne_nil _ _)
    · subst hvalue
      refine ⟨.of_ne ?_ htarget, .of_ne ?_ hartwork, .of_ne ?_ htext, ?_⟩
      · exact fun h => hscene (hkept.symm.trans h)
      · exact fun h => hart (hkept.symm.trans h)
      · exact fun h => htxt (hkept.symm.trans h)
      · by_cases hinactive : type = ascii "inactive"
        · exact .inl (hkinds.mpr (.inr (.inr (.inr hinactive))))
        · exact .inr (not_not.mp fun hne => hunknown ⟨hinactive, hne⟩)
  · rintro ⟨hsame, hscene, hart, htxt, hknown⟩
    have hkept : hotspot.type = type := by rw [hsame, htype]
    have hnot : ∀ kind, type ≠ kind → hotspot.type ≠ kind := fun _ h heq => h (hkept.symm.trans heq)
    rw [readTarget]
    split_ifs with htype₁ htype₂ htype₃ hunknown
    · have hread : (readString value (ascii "targetSceneId") context false).Gives hotspot.targetSceneId :=
        required_gives_iff.mpr (hscene.1 (hkept.trans htype₁))
      refine ⟨hread.errors, Eq.trans ?_ hsame.symm⟩
      simp only [hread.value, hart.2 (hnot _ (by rw [htype₁]; decide)),
        htxt.2 (hnot _ (by rw [htype₁]; decide)), hartwork, htext]
    · have hread : (readString value (ascii "artworkId") context false).Gives hotspot.artworkId :=
        required_gives_iff.mpr (hart.1 (hkept.trans htype₂))
      refine ⟨hread.errors, Eq.trans ?_ hsame.symm⟩
      simp only [hread.value, hscene.2 (hnot _ (by rw [htype₂]; decide)),
        htxt.2 (hnot _ (by rw [htype₂]; decide)), htarget, htext]
    · have hread : (readString value (ascii "text") context false).Gives hotspot.text :=
        required_gives_iff.mpr (htxt.1 (hkept.trans htype₃))
      refine ⟨hread.errors, Eq.trans ?_ hsame.symm⟩
      simp only [hread.value, hscene.2 (hnot _ (by rw [htype₃]; decide)),
        hart.2 (hnot _ (by rw [htype₃]; decide)), htarget, hartwork]
    · rcases hknown with hknown | hnil
      · rcases hkinds.mp hknown with h | h | h | h
        · exact absurd h htype₁
        · exact absurd h htype₂
        · exact absurd h htype₃
        · exact absurd h hunknown.1
      · exact absurd hnil hunknown.2
    · refine ⟨rfl, Eq.trans ?_ hsame.symm⟩
      rw [hscene.2 (hnot _ htype₁), hart.2 (hnot _ htype₂), htxt.2 (hnot _ htype₃)]
      cases base
      simp only at htarget hartwork htext
      rw [htarget, hartwork, htext]

end Targets

section Hotspots

variable {sceneIndex : ℕ} {ids ids' : Finset Bytes} {hotspot : HotspotInfo}

/-- The members of a hotspot are read one by one, the target at the end. -/
theorem readHotspot_gives_members (hobject : value.isObject = true)
    (hcontext : context = hotspotContext sceneIndex index) :
    (readHotspot fs staticRoot sceneIndex index value ids).Gives (hotspot, ids') ↔
      (readString value (ascii "hotspotId") context false).Gives hotspot.id ∧
      (addUniqueId hotspot.id (ascii "hotspot") ids context).Gives ids' ∧
      (readString value (ascii "type") context false).Gives hotspot.type ∧
      (readString value (ascii "title") context true).Gives hotspot.title ∧
      ((readString value (ascii "iconUrl") context false).andThen
        (validateAsset fs staticRoot context (ascii "iconUrl"))).Gives hotspot.iconUrl ∧
      ((readNumber value (ascii "ath") context).andThen (fun ath =>
        validateRange ath (-180) 180 context (ascii "ath"))).Gives hotspot.ath ∧
      ((readNumber value (ascii "atv") context).andThen (fun atv =>
        validateRange atv (-90) 90 context (ascii "atv"))).Gives hotspot.atv ∧
      (readTarget context hotspot.type value
        { id := hotspot.id, type := hotspot.type, title := hotspot.title,
          iconUrl := hotspot.iconUrl, ath := hotspot.ath, atv := hotspot.atv }).Gives hotspot := by
  rw [readHotspot, if_neg (by simp [hobject]), hcontext]
  constructor
  · rintro ⟨herrors, hvalue⟩
    simp only [List.append_eq_nil_iff] at herrors
    obtain ⟨hid, hids, htype, htitle, hicon, hath, hatv, htarget⟩ := herrors
    obtain ⟨hhotspot, rfl⟩ := Prod.mk.injEq .. ▸ hvalue
    obtain ⟨hid', htype', htitle', hicon', hath', hatv'⟩ := readTarget_fields hhotspot
    refine ⟨⟨hid, hid'⟩, ?_, ⟨htype, htype'⟩, ⟨htitle, htitle'⟩, ⟨hicon, hicon'⟩, ⟨hath, hath'⟩,
      ⟨hatv, hatv'⟩, ?_⟩
    · rw [← hid']
      exact ⟨hids, rfl⟩
    · rw [← hid', ← htype', ← htitle', ← hicon', ← hath', ← hatv']
      exact ⟨htarget, hhotspot⟩
  · rintro ⟨hid, hids, htype, htitle, hicon, hath, hatv, htarget⟩
    refine ⟨?_, ?_⟩
    · simp only [hid.value, hid.errors, hids.errors, htype.value, htype.errors, htitle.value,
        htitle.errors, hicon.value, hicon.errors, hath.value, hath.errors, hatv.value, hatv.errors,
        htarget.errors, List.append_nil]
    · simp only [hid.value, hids.value, htype.value, htitle.value, hicon.value, hath.value,
        hatv.value, htarget.value]

theorem readHotspot_gives_iff :
    (readHotspot fs top.text sceneIndex index value ids).Gives (hotspot, ids') ↔
      (DescribesHotspot value hotspot ∧ SoundHotspot (TakenAsset fs top) hotspot) ∧
        Adds [hotspot.id] ids ids' := by
  by_cases hobject : value.isObject = true
  · rw [readHotspot_gives_members hobject rfl, required_gives_iff, required_gives_iff,
      optional_gives_iff, assetField_gives_iff, rangeField_gives_iff, rangeField_gives_iff,
      @readTarget_gives_iff _ value
        { id := hotspot.id, type := hotspot.type, title := hotspot.title,
          iconUrl := hotspot.iconUrl, ath := hotspot.ath, atv := hotspot.atv } hotspot hotspot.type
        rfl ⟨rfl, rfl, rfl⟩, adds_singleton_iff]
    constructor
    · rintro ⟨⟨hid, hne⟩, hids, ⟨htype, htypeNe⟩, htitle, ⟨hicon, htaken⟩, ⟨hath, hathRange⟩,
        ⟨hatv, hatvRange⟩, -, hscene, hartwork, htext, hknown⟩
      refine ⟨⟨⟨hid, htype, htitle, hicon, hath, hatv, ?_, ?_, ?_⟩, hne,
        hknown.resolve_right htypeNe, htaken, ?_, ?_, ?_, ?_, ?_⟩, (addUniqueId_gives_iff hne).mp hids⟩
      · exact ⟨fun h => (hscene.1 h).1, hscene.2⟩
      · exact ⟨fun h => (hartwork.1 h).1, hartwork.2⟩
      · exact ⟨fun h => (htext.1 h).1, htext.2⟩
      · exact_mod_cast hathRange
      · exact_mod_cast hatvRange
      · exact fun h => (hscene.1 h).2
      · exact fun h => (hartwork.1 h).2
      · exact fun h => (htext.1 h).2
    · rintro ⟨⟨hdescribes, hsound⟩, hids⟩
      have htypeNe : hotspot.type ≠ [] := by
        intro hnil
        have hmem := hsound.type
        rw [hnil] at hmem
        exact absurd hmem (by decide)
      refine ⟨⟨hdescribes.id, hsound.id⟩, (addUniqueId_gives_iff hsound.id).mpr hids,
        ⟨hdescribes.type, htypeNe⟩, hdescribes.title, ⟨hdescribes.iconUrl, hsound.iconUrl⟩,
        ⟨hdescribes.ath, ?_⟩, ⟨hdescribes.atv, ?_⟩, rfl, ?_, ?_, ?_, .inl hsound.type⟩
      · exact_mod_cast hsound.ath
      · exact_mod_cast hsound.atv
      · exact ⟨fun h => ⟨hdescribes.targetSceneId.1 h, hsound.targetSceneId h⟩,
          hdescribes.targetSceneId.2⟩
      · exact ⟨fun h => ⟨hdescribes.artworkId.1 h, hsound.artworkId h⟩, hdescribes.artworkId.2⟩
      · exact ⟨fun h => ⟨hdescribes.text.1 h, hsound.text h⟩, hdescribes.text.2⟩
  · rw [readHotspot, if_pos (by simp [hobject])]
    exact iff_of_false not_gives_addError fun h => hobject (isObject_of_find h.1.1.id)

/-- The hotspots of one scene; the ids seen go on from the scenes before. -/
theorem readHotspots_gives_iff {hotspots : List HotspotInfo} :
    Read.Gives (match value.find (ascii "hotspots") with
      | some (.array values) => readAll (readHotspot fs top.text sceneIndex) 0 values ids
      | _ => ⟨([], ids), addError context (ascii "hotspots must be an array")⟩) (hotspots, ids') ↔
      ((∃ values, value.find (ascii "hotspots") = some (.array values) ∧
        List.Forall₂ DescribesHotspot values hotspots) ∧
        ∀ hotspot ∈ hotspots, SoundHotspot (TakenAsset fs top) hotspot) ∧
        Adds (hotspots.map (·.id)) ids ids' := by
  have hread : ∀ values, (readAll (readHotspot fs top.text sceneIndex) 0 values ids).Gives
      (hotspots, ids') ↔ List.Forall₂ (fun value hotspot => DescribesHotspot value hotspot ∧
        SoundHotspot (TakenAsset fs top) hotspot) values hotspots ∧
        Adds (hotspots.map (·.id)) ids ids' := by
    intro values
    refine readAll_gives_iff _ (fun hotspots : List HotspotInfo => Adds (hotspots.map (·.id)))
      ?_ ?_ ?_
    · exact fun _ _ => adds_nil_iff
    · exact fun hotspot hotspots _ _ => adds_append_iff [hotspot.id] (hotspots.map HotspotInfo.id)
    · exact fun _ _ _ _ _ => readHotspot_gives_iff
  split
  · rename_i values hfind
    rw [hread, forall₂_and_right, hfind]
    constructor
    · rintro ⟨⟨hdescribes, hsound⟩, hadds⟩
      exact ⟨⟨⟨values, rfl, hdescribes⟩, hsound⟩, hadds⟩
    · rintro ⟨⟨⟨values', hsame, hdescribes⟩, hsound⟩, hadds⟩
      injection hsame with hsame
      injection hsame with hsame
      rw [hsame]
      exact ⟨⟨hdescribes, hsound⟩, hadds⟩
  · rename_i hnot
    refine iff_of_false not_gives_addError ?_
    rintro ⟨⟨⟨values, hfind, -⟩, -⟩, -⟩
    exact hnot values hfind

end Hotspots

section Scenes

variable {scene : ExhibitionScene} {ids ids' : Finset Bytes × Finset Bytes}

theorem readView_gives_iff {hlookat vlookat fov : ℚ} :
    (readView context value).Gives (hlookat, vlookat, fov) ↔
      (∃ view, value.find (ascii "view") = some view ∧ NumberField view (ascii "hlookat") hlookat ∧
        NumberField view (ascii "vlookat") vlookat ∧ NumberField view (ascii "fov") fov) ∧
      (-180 ≤ hlookat ∧ hlookat ≤ 180) ∧ (-90 ≤ vlookat ∧ vlookat ≤ 90) ∧ 0 < fov ∧ fov ≤ 180 := by
  have hfov : ∀ view context, ((readNumber view (ascii "fov") context).andThen
      (fun fov => if fov ≤ 0 ∨ fov > 180 then
        addError context (ascii "fov out of range (0, 180]") else [])).Gives fov ↔
      NumberField view (ascii "fov") fov ∧ 0 < fov ∧ fov ≤ 180 := by
    intro view context
    rw [Read.andThen_gives_iff, readNumber_gives_iff, ite_addError_iff, not_or, not_le, not_lt]
  rw [readView]
  split
  · rename_i members hfind
    constructor
    · rintro ⟨herrors, hvalue⟩
      simp only [List.append_eq_nil_iff] at herrors
      obtain ⟨hh, hv, hf⟩ := herrors
      injection hvalue with hvalue₁ hvalue
      injection hvalue with hvalue₂ hvalue₃
      obtain ⟨hhField, hhRange⟩ := rangeField_gives_iff.mp ⟨hh, hvalue₁⟩
      obtain ⟨hvField, hvRange⟩ := rangeField_gives_iff.mp ⟨hv, hvalue₂⟩
      obtain ⟨hfField, hfRange⟩ := (hfov _ _).mp ⟨hf, hvalue₃⟩
      refine ⟨⟨_, hfind, hhField, hvField, hfField⟩, ?_, ?_, hfRange⟩
      · exact_mod_cast hhRange
      · exact_mod_cast hvRange
    · rintro ⟨⟨view, hview, hhField, hvField, hfField⟩, hhRange, hvRange, hfRange⟩
      obtain rfl := Option.some.inj (hfind.symm.trans hview)
      have hh : ((readNumber (.object members) (ascii "hlookat") (context++ascii ".view")).andThen
          (fun hlookat => validateRange hlookat (-180) 180 (context++ascii ".view")
            (ascii "hlookat"))).Gives hlookat :=
        rangeField_gives_iff.mpr ⟨hhField, by exact_mod_cast hhRange⟩
      have hv : ((readNumber (.object members) (ascii "vlookat") (context++ascii ".view")).andThen
          (fun vlookat => validateRange vlookat (-90) 90 (context++ascii ".view")
            (ascii "vlookat"))).Gives vlookat :=
        rangeField_gives_iff.mpr ⟨hvField, by exact_mod_cast hvRange⟩
      have hf := (hfov (.object members) (context++ascii ".view")).mpr ⟨hfField, hfRange⟩
      refine ⟨?_, ?_⟩
      · simp only [hh.errors, hv.errors, hf.errors, List.append_nil]
      · simp only [hh.value, hv.value, hf.value]
  · rename_i hnot
    refine iff_of_false not_gives_addError ?_
    rintro ⟨⟨view, hview, hfield, -⟩, -⟩
    cases view with
    | object members => exact hnot members hview
    | _ => simp [NumberField, Json.find] at hfield

theorem cubeField_gives_iff {url : Bytes} :
    ((readString value key context false).andThen
      (validateCubeAsset fs top.text context)).Gives url ↔
      StringField value key url ∧ TakenCube fs top url := by
  rw [Read.andThen_gives_iff, required_gives_iff, validateCubeAsset_eq_nil_iff, and_assoc]
  refine and_congr_right fun _ => and_iff_right_of_imp ?_
  rintro ⟨hpath, -⟩ rfl
  exact absurd hpath (by decide)

/-- The members of a scene are read one by one. -/
theorem readScene_gives_members (hobject : value.isObject = true)
    (hcontext : context = indexedContext (ascii "scenes") index) :
    (readScene fs staticRoot index value ids).Gives (scene, ids') ↔
      (readString value (ascii "sceneId") context false).Gives scene.id ∧
      (addUniqueId scene.id (ascii "scene") ids.1 context).Gives ids'.1 ∧
      (readString value (ascii "panoId") context false).Gives scene.panoId ∧
      (readString value (ascii "name") context false).Gives scene.name ∧
      ((readString value (ascii "previewUrl") context false).andThen
        (validateAsset fs staticRoot context (ascii "previewUrl"))).Gives scene.previewUrl ∧
      ((readString value (ascii "cubeUrl") context false).andThen
        (validateCubeAsset fs staticRoot context)).Gives scene.cubeUrl ∧
      ((readString value (ascii "thumbnailUrl") context false).andThen
        (validateAsset fs staticRoot context (ascii "thumbnailUrl"))).Gives scene.thumbnailUrl ∧
      ((readString value (ascii "musicUrl") context false).andThen
        (validateAsset fs staticRoot context (ascii "musicUrl"))).Gives scene.musicUrl ∧
      ((readNumber value (ascii "musicVolume") context).andThen (fun volume =>
        validateRange volume 0 1 context (ascii "musicVolume"))).Gives scene.musicVolume ∧
      (readBool value (ascii "musicAutoplay") context).Gives scene.musicAutoplay ∧
      (readBool value (ascii "musicLoop") context).Gives scene.musicLoop ∧
      (readView context value).Gives (scene.hlookat, scene.vlookat, scene.fov) ∧
      Read.Gives (match value.find (ascii "hotspots") with
        | some (.array values) => readAll (readHotspot fs staticRoot index) 0 values ids.2
        | _ => ⟨([], ids.2), addError context (ascii "hotspots must be an array")⟩)
        (scene.hotspots, ids'.2) := by
  rw [readScene, if_neg (by simp [hobject]), hcontext]
  constructor
  · rintro ⟨herrors, hvalue⟩
    simp only [List.append_eq_nil_iff] at herrors
    obtain ⟨hid, hids, hpano, hname, hpreview, hcube, hthumbnail, hmusic, hvolume, hautoplay, hloop,
      hview, hhotspots⟩ := herrors
    obtain ⟨rfl, rfl⟩ := Prod.mk.injEq .. ▸ hvalue
    exact ⟨⟨hid, rfl⟩, ⟨hids, rfl⟩, ⟨hpano, rfl⟩, ⟨hname, rfl⟩, ⟨hpreview, rfl⟩, ⟨hcube, rfl⟩,
      ⟨hthumbnail, rfl⟩, ⟨hmusic, rfl⟩, ⟨hvolume, rfl⟩, ⟨hautoplay, rfl⟩, ⟨hloop, rfl⟩,
      ⟨hview, rfl⟩, ⟨hhotspots, rfl⟩⟩
  · rintro ⟨hid, hids, hpano, hname, hpreview, hcube, hthumbnail, hmusic, hvolume, hautoplay, hloop,
      hview, hhotspots⟩
    refine ⟨?_, ?_⟩
    · simp only [hid.value, hid.errors, hids.errors, hpano.errors, hname.errors, hpreview.errors,
        hcube.errors, hthumbnail.errors, hmusic.errors, hvolume.errors, hautoplay.errors,
        hloop.errors, hview.errors, List.nil_append]
      exact hhotspots.errors
    · simp only [hid.value, hids.value, hpano.value, hname.value, hpreview.value, hcube.value,
        hthumbnail.value, hmusic.value, hvolume.value, hautoplay.value, hloop.value, hview.value]
      exact congrArg
        (fun hotspots : List HotspotInfo × Finset Bytes =>
          ({ scene with hotspots := hotspots.1 }, ids'.1, hotspots.2)) hhotspots.value

/-- A scene adds its own id, and those of its hotspots. -/
def AddsScenes (scenes : List ExhibitionScene) (ids ids' : Finset Bytes × Finset Bytes) : Prop :=
  Adds (scenes.map (·.id)) ids.1 ids'.1 ∧
    Adds (scenes.flatMap (fun scene => scene.hotspots.map (·.id))) ids.2 ids'.2

theorem addsScenes_cons_iff (scene : ExhibitionScene) (scenes : List ExhibitionScene)
    (ids ids' : Finset Bytes × Finset Bytes) :
    AddsScenes (scene :: scenes) ids ids' ↔
      ∃ mid, AddsScenes [scene] ids mid ∧ AddsScenes scenes mid ids' := by
  have hscenes : Adds ((scene :: scenes).map (·.id)) ids.1 ids'.1 ↔ _ :=
    adds_append_iff [scene.id] (scenes.map ExhibitionScene.id)
  rw [AddsScenes, hscenes, List.flatMap_cons, adds_append_iff]
  constructor
  · rintro ⟨⟨sceneIds, h, h'⟩, hotspotIds, hh, hh'⟩
    exact ⟨(sceneIds, hotspotIds), ⟨h, by rwa [List.flatMap_cons, List.flatMap_nil,
      List.append_nil]⟩, h', hh'⟩
  · rintro ⟨mid, ⟨h, hh⟩, h', hh'⟩
    rw [List.flatMap_cons, List.flatMap_nil, List.append_nil] at hh
    exact ⟨⟨mid.1, h, h'⟩, mid.2, hh, hh'⟩

theorem readScene_gives_iff :
    (readScene fs top.text index value ids).Gives (scene, ids') ↔
      (DescribesScene value scene ∧ SoundScene (TakenAsset fs top) (TakenCube fs top) scene) ∧
        AddsScenes [scene] ids ids' := by
  have hadds : AddsScenes [scene] ids ids' ↔ (scene.id ∉ ids.1 ∧ ids'.1 = insert scene.id ids.1) ∧
      Adds (scene.hotspots.map (·.id)) ids.2 ids'.2 := by
    rw [AddsScenes, List.flatMap_cons, List.flatMap_nil, List.append_nil]
    exact and_congr_left fun _ => adds_singleton_iff
  rw [hadds]
  by_cases hobject : value.isObject = true
  · rw [readScene_gives_members hobject rfl, required_gives_iff, required_gives_iff,
      required_gives_iff, assetField_gives_iff, cubeField_gives_iff, assetField_gives_iff,
      assetField_gives_iff, rangeField_gives_iff, readBool_gives_iff, readBool_gives_iff,
      readView_gives_iff, readHotspots_gives_iff]
    constructor
    · rintro ⟨⟨hid, hne⟩, hids, ⟨hpano, hpanoNe⟩, ⟨hname, hnameNe⟩, ⟨hpreview, hpreviewTaken⟩,
        ⟨hcube, hcubeTaken⟩, ⟨hthumbnail, hthumbnailTaken⟩, ⟨hmusic, hmusicTaken⟩,
        ⟨hvolume, hvolumeRange⟩, hautoplay, hloop, ⟨⟨view, hview, hh, hv, hf⟩, hhRange, hvRange,
        hfRange⟩, ⟨hhotspots, hhotspotsSound⟩, hhotspotIds⟩
      refine ⟨⟨⟨hid, hpano, hname, hpreview, hcube, hthumbnail, hmusic, hvolume, hautoplay, hloop,
        ⟨view, hview, hh, hv, hf⟩, hhotspots⟩, hne, hpanoNe, hnameNe, hpreviewTaken, hcubeTaken,
        hthumbnailTaken, hmusicTaken, ?_, hhRange, hvRange, hfRange, hhotspotsSound⟩,
        (addUniqueId_gives_iff hne).mp hids, hhotspotIds⟩
      exact_mod_cast hvolumeRange
    · rintro ⟨⟨hdescribes, hsound⟩, hids, hhotspotIds⟩
      obtain ⟨view, hview, hfields⟩ := hdescribes.view
      refine ⟨⟨hdescribes.id, hsound.id⟩, (addUniqueId_gives_iff hsound.id).mpr hids,
        ⟨hdescribes.panoId, hsound.panoId⟩, ⟨hdescribes.name, hsound.name⟩,
        ⟨hdescribes.previewUrl, hsound.previewUrl⟩, ⟨hdescribes.cubeUrl, hsound.cubeUrl⟩,
        ⟨hdescribes.thumbnailUrl, hsound.thumbnailUrl⟩, ⟨hdescribes.musicUrl, hsound.musicUrl⟩,
        ⟨hdescribes.musicVolume, ?_⟩, hdescribes.musicAutoplay, hdescribes.musicLoop,
        ⟨⟨view, hview, hfields.hlookat, hfields.vlookat, hfields.fov⟩, hsound.hlookat,
          hsound.vlookat, hsound.fov⟩, ⟨hdescribes.hotspots, hsound.hotspots⟩, hhotspotIds⟩
      exact_mod_cast hsound.musicVolume
  · rw [readScene, if_pos (by simp [hobject])]
    exact iff_of_false not_gives_addError fun h => hobject (isObject_of_find h.1.1.id)

end Scenes

end Records

end JingjieAR
