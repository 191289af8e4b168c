import JingjieAR.MigrationRequirements
import JingjieAR.RelatedLists

/-! What the migration makes of the records of a page that it accepts. An artwork comes from a
record that has the signature of an earlier one only if both have the same id. -/
namespace JingjieAR

open PyValue

/-- Title and data of a record. -/
def HasSignature (raw : PyValue) (signature : Signature) : Prop :=
  raw.get (ascii "title") (.str []) = .ok signature.1 ∧
    raw.get (ascii "data") .pyNone = .ok signature.2

section Results

variable (py : PythonLibrary Xml) (panoToScene : List (Bytes × Bytes))

/-- The data that leads to each kind of target. -/
def TargetOf (data : PyValue) : HotspotTarget → Prop
  | .scene targetSceneId => (∃ members, data = .dict members) ∧
    ∃ panoId, data.get (ascii "panoId") (.str []) = .ok panoId ∧ panoId.toStr py ≠ ascii "0" ∧
      panoToScene.lookup (panoId.toStr py) = some targetSceneId
  | .artwork _ => ∃ items, data = .list items ∧ isArtworkData items = true
  | .text text => text = data ∧ ∃ t, data = .str t
  | .inactive rawData => rawData = data ∧ (∃ members, data = .dict members) ∧
    ∃ panoId, data.get (ascii "panoId") (.str []) = .ok panoId ∧ panoId.toStr py = ascii "0"

structure HotspotOf (raw : PyValue) (hotspot : NormalizedHotspot) : Prop where
  id : raw.textItem py (ascii "id") = .ok hotspot.hotspotId
  title : raw.get (ascii "title") (.str []) = .ok hotspot.title
  ath : raw.floatItem py (ascii "ath") = .ok hotspot.ath
  atv : raw.floatItem py (ascii "atv") = .ok hotspot.atv
  iconUrl : ∃ icon, raw.get (ascii "iconUrl") (.str []) = .ok icon ∧
    assetUrl py icon = .ok hotspot.iconUrl
  target : ∃ data, raw.get (ascii "data") .pyNone = .ok data ∧
    TargetOf py panoToScene data hotspot.target

/-- The artwork of a record: the text of its first item, which all items have. -/
structure ArtworkOf (raw : PyValue) (artwork : MigratedArtwork) : Prop where
  id : raw.textItem py (ascii "id") = .ok artwork.artworkId
  title : raw.get (ascii "title") (.str []) = .ok artwork.title
  data : ∃ item items, raw.get (ascii "data") .pyNone = .ok (.list (item :: items)) ∧
    item.getItem (ascii "text") = .ok artwork.text ∧
    (∀ other ∈ items, ∃ text, other.getItem (ascii "text") = .ok text ∧
      artwork.text.equals text = true) ∧
    List.Forall₂ (fun item url => ∃ image, item.getItem (ascii "image") = .ok image ∧
      assetUrl py image = .ok url) (item :: items) artwork.images

variable (records : PageRecords)

structure SceneOf (raw : PyValue) (scene : MigratedScene) : Prop where
  id : raw.textItem py (ascii "id") = .ok scene.sceneId
  panoId : raw.textItem py (ascii "panoId") = .ok scene.panoId
  name : raw.get (ascii "name") (.str []) = .ok scene.name
  resource : ∃ resource, records.resources.lookup scene.sceneId = some resource ∧
    assetUrl py (.str resource.preview) = .ok scene.previewUrl ∧
    assetUrl py (.str resource.cube) = .ok scene.cubeUrl ∧
    assetUrl py resource.thumb = .ok scene.thumbnailUrl
  sound : ∃ sound, raw.get (ascii "sound") (.dict []) = .ok sound ∧
    (∃ url, sound.get (ascii "url") (.str []) = .ok url ∧ assetUrl py url = .ok scene.musicUrl) ∧
    ∃ volume, sound.get (ascii "volume") (.int 0) = .ok volume ∧
      volume.toFloat py = .ok scene.musicVolume
  view : records.views.lookup scene.sceneId = some scene.view
  hotspots : ∃ raws, rawHotspots raw = .ok raws ∧
    List.Forall₂ (HotspotOf py records.panoToScene) raws scene.hotspots

end Results

section Hotspots

variable {py : PythonLibrary Xml} {panoToScene : List (Bytes × Bytes)} {raw data title : PyValue}
  {hotspotId : Bytes} {signatures signatures' : List (Signature × Bytes)} {target : HotspotTarget}
  {hotspot : NormalizedHotspot} {signature : Signature} {artworks artworks' : List MigratedArtwork}

theorem HasSignature.eq {signature' : Signature} (h : HasSignature raw signature)
    (h' : HasSignature raw signature') : signature = signature' :=
  Prod.ext (Except.ok.inj (h.1.symm.trans h'.1)) (Except.ok.inj (h.2.symm.trans h'.2))

/-- A member that is not the default is there. -/
theorem getItem_of_get {value default member : PyValue} {key : Bytes}
    (h : value.get key default = .ok member) (hne : member ≠ default) :
    value.getItem key = .ok member := by
  cases value with
  | dict members =>
    rw [PyValue.get, Except.ok.injEq] at h
    rw [getItem]
    cases hlookup : members.lookup key with
    | none =>
      rw [hlookup] at h
      exact absurd h.symm hne
    | some found =>
      rw [hlookup] at h
      exact congrArg Except.ok h
  | _ => cases h

/-- The branches of `hotspotTarget`; only an artwork has to do with the signatures. -/
theorem hotspotTarget_ok
    (h : hotspotTarget py raw data title hotspotId panoToScene signatures =
      .ok (target, signatures')) :
    TargetOf py panoToScene data target ∧
      (∀ artworkId, target = .artwork artworkId →
        setDefault signatures (title, data) hotspotId = (artworkId, signatures')) ∧
      ((∀ artworkId, target ≠ .artwork artworkId) → signatures' = signatures) := by
  obtain ⟨id, -, hbranch⟩ := bind_eq_ok_iff.mp h
  cases data with
  | dict members =>
    obtain ⟨panoId, hpanoId, hpano⟩ := bind_eq_ok_iff.mp hbranch
    dsimp only at hpano
    split_ifs at hpano with hscene hinactive
    · obtain ⟨targetSceneId, htarget, hpure⟩ := bind_eq_ok_iff.mp hpano
      cases hpure
      rw [lookupItem] at htarget
      split at htarget
      · rename_i found hfound
        cases htarget
        exact ⟨⟨⟨members, rfl⟩, panoId, hpanoId, hscene.2, hfound⟩, by simp, fun _ => rfl⟩
      · cases htarget
    · cases hpano
      exact ⟨⟨rfl, ⟨members, rfl⟩, panoId, hpanoId, hinactive⟩, by simp, fun _ => rfl⟩
  | list items =>
    dsimp only at hbranch
    split_ifs at hbranch with hartwork
    · cases hbranch
      refine ⟨⟨items, rfl, hartwork⟩, ?_, fun hnone => absurd rfl (hnone _)⟩
      rintro artworkId hid
      cases hid
      rfl
  | str text =>
    obtain ⟨type, -, htype⟩ := bind_eq_ok_iff.mp hbranch
    split_ifs at htype
    · cases htype
      exact ⟨⟨rfl, text, rfl⟩, by simp, fun _ => rfl⟩
  | _ => cases hbranch

theorem normalizeHotspot_ok
    (h : normalizeHotspot py raw panoToScene signatures = .ok (hotspot, signatures')) :
    HotspotOf py panoToScene raw hotspot ∧
      (∀ artworkId, hotspot.target = .artwork artworkId → ∃ signature,
        HasSignature raw signature ∧
        setDefault signatures signature hotspot.hotspotId = (artworkId, signatures')) ∧
      ((∀ artworkId, hotspot.target ≠ .artwork artworkId) → signatures' = signatures) := by
  simp only [normalizeHotspot, bind_eq_ok_iff, pure_eq_ok_iff, Prod.exists, Prod.mk.injEq] at h
  obtain ⟨data, hdata, id, hid, title, htitle, ath, hath, atv, hatv, icon, hicon, url, hurl, target,
    _, htarget, rfl, rfl⟩ := h
  obtain ⟨hof, hartwork, hother⟩ := hotspotTarget_ok htarget
  refine ⟨⟨hid, htitle, hath, hatv, ⟨icon, hicon, hurl⟩, data, hdata, hof⟩, ?_, hother⟩
  exact fun artworkId htarget => ⟨(title, data), ⟨htitle, hdata⟩, hartwork artworkId htarget⟩

theorem migrateArtwork_ok {items : List PyValue} {artwork : MigratedArtwork}
    (hof : HotspotOf py panoToScene raw hotspot)
    (hdata : raw.get (ascii "data") .pyNone = .ok (.list items))
    (h : migrateArtwork py raw hotspot = .ok artwork) :
    ArtworkOf py raw artwork ∧ artwork.artworkId = hotspot.hotspotId := by
  have hitem := getItem_of_get hdata (by simp)
  simp only [migrateArtwork, hitem, bind_eq_ok_iff, pure_eq_ok_iff, raiseIf_eq_ok_iff] at h
  obtain ⟨_, hsame, items', hitems, texts, htexts, _, -, _, hone, first, hfirst, text, htext, images,
    himages, hartwork⟩ := h
  cases hsame
  cases hitems
  cases hartwork
  cases items with
  | nil => cases hfirst
  | cons item items =>
    cases hfirst
    have hall := forall₂_of_mapM htexts
    cases texts with
    | nil => cases hall
    | cons text' texts =>
      obtain ⟨htext', hothers⟩ := List.forall₂_cons.mp hall
      obtain rfl := Except.ok.inj (htext.symm.trans htext')
      have heach : ∀ t ∈ texts, text.equals t = true := by
        simpa [oneText] using hone
      refine ⟨⟨hof.id, hof.title, first, items, hdata, htext, ?_, ?_⟩, rfl⟩
      · intro other hother
        obtain ⟨t, ht, hget⟩ := exists_right_of_mem hothers hother
        exact ⟨t, hget, heach t ht⟩
      · exact (forall₂_of_mapM himages).imp fun item url himage => bind_eq_ok_iff.mp himage

/-- One round of the inner loop: a record of another kind, one with a signature that is known,
and the first one with its signature. -/
theorem collect_cases
    (hnormalize : normalizeHotspot py raw panoToScene signatures = .ok (hotspot, signatures'))
    (hcollect : collectArtwork py raw hotspot artworks = .ok artworks') :
    ((∀ signature items, HasSignature raw signature → signature.2 ≠ .list items) ∧
      (∀ artworkId, hotspot.target ≠ .artwork artworkId) ∧ signatures' = signatures ∧
      artworks' = artworks) ∨
    (∃ signature artworkId, hotspot.target = .artwork artworkId ∧ HasSignature raw signature ∧
      signatures.lookup signature = some artworkId ∧ signatures' = signatures ∧
      (artworks' = artworks ∨ ∃ artwork, ArtworkOf py raw artwork ∧
        artwork.artworkId = hotspot.hotspotId ∧ artworkId = hotspot.hotspotId ∧
        artworks' = artworks++[artwork])) ∨
    (∃ signature items artwork, hotspot.target = .artwork hotspot.hotspotId ∧
      HasSignature raw signature ∧ signature.2 = .list items ∧
      signatures.lookup signature = none ∧
      signatures' = (signature, hotspot.hotspotId) :: signatures ∧ ArtworkOf py raw artwork ∧
      artwork.artworkId = hotspot.hotspotId ∧ artworks' = artworks++[artwork]) := by
  obtain ⟨hof, hartwork, hother⟩ := normalizeHotspot_ok hnormalize
  obtain ⟨data, hdata, htarget⟩ := hof.target
  rw [collectArtwork] at hcollect
  cases hkind : hotspot.target with
  | artwork artworkId =>
    rw [hkind] at htarget hcollect
    obtain ⟨items, rfl, -⟩ := htarget
    obtain ⟨signature, hsignature, hset⟩ := hartwork artworkId hkind
    have hlist : signature.2 = .list items := Except.ok.inj (hsignature.2.symm.trans hdata)
    dsimp only at hcollect
    rw [setDefault] at hset
    cases hlookup : signatures.lookup signature with
    | some known =>
      simp only [hlookup, Prod.mk.injEq] at hset
      obtain ⟨rfl, rfl⟩ := hset
      refine .inr (.inl ⟨signature, known, rfl, hsignature, hlookup, rfl, ?_⟩)
      split_ifs at hcollect with hid
      · exact .inl (Except.ok.inj hcollect).symm
      · obtain ⟨artwork, hmigrate, hpure⟩ := bind_eq_ok_iff.mp hcollect
        obtain ⟨hartwork, hsame⟩ := migrateArtwork_ok hof hdata hmigrate
        exact .inr ⟨artwork, hartwork, hsame, not_not.mp hid, (pure_eq_ok_iff.mp hpure).symm⟩
    | none =>
      simp only [hlookup, Prod.mk.injEq] at hset
      obtain ⟨rfl, rfl⟩ := hset
      rw [if_neg (not_not.mpr rfl)] at hcollect
      obtain ⟨artwork, hmigrate, hpure⟩ := bind_eq_ok_iff.mp hcollect
      obtain ⟨hartwork, hsame⟩ := migrateArtwork_ok hof hdata hmigrate
      exact .inr (.inr ⟨signature, items, artwork, rfl, hsignature, hlist, hlookup, rfl, hartwork,
        hsame, (pure_eq_ok_iff.mp hpure).symm⟩)
  | _ =>
    rw [hkind] at htarget hcollect
    have hnone : ∀ artworkId, hotspot.target ≠ .artwork artworkId := by
      intro artworkId heq
      rw [hkind] at heq
      cases heq
    refine .inl ⟨?_, hkind ▸ hnone, hother hnone, (Except.ok.inj hcollect).symm⟩
    intro signature items hsignature hlist
    obtain rfl : data = .list items := by
      rw [← hlist]
      exact Except.ok.inj (hdata.symm.trans hsignature.2)
    simp [TargetOf] at htarget

end Hotspots

section Collecting

variable (py : PythonLibrary Xml)

/-- What the loop has collected from the records so far: the first record with each signature, and
the artworks, each with an id that its signature has. -/
structure CollectedFrom (raws : List PyValue) (hotspots : List NormalizedHotspot)
    (collected : Collected) : Prop where
  first : ∀ signature artworkId, collected.artworkBySignature.lookup signature = some artworkId →
    ∃ before raw after, raws = before++raw :: after ∧ HasSignature raw signature ∧
      (∀ other ∈ before, ¬HasSignature other signature) ∧
      ∃ artwork ∈ collected.artworks, ArtworkOf py raw artwork ∧ artwork.artworkId = artworkId
  known : ∀ raw ∈ raws, ∀ signature items, HasSignature raw signature →
    signature.2 = .list items →
    ∃ artworkId, collected.artworkBySignature.lookup signature = some artworkId
  artworks : ∀ artwork ∈ collected.artworks, ∃ raw ∈ raws, ArtworkOf py raw artwork ∧
    ∃ signature, HasSignature raw signature ∧
      collected.artworkBySignature.lookup signature = some artwork.artworkId
  sublist : (collected.artworks.map (·.artworkId)).Sublist (hotspots.map (·.hotspotId))
  targets : ∀ hotspot ∈ hotspots, ∀ artworkId, hotspot.target = .artwork artworkId →
    artworkId ∈ collected.artworks.map (·.artworkId)

variable {py} {panoToScene : List (Bytes × Bytes)} {raws : List PyValue} {raw : PyValue}
  {hotspots : List NormalizedHotspot} {hotspot : NormalizedHotspot} {collected collected' : Collected}
  {signatures' : List (Signature × Bytes)} {artworks' : List MigratedArtwork}

theorem collectedFrom_nil : CollectedFrom py [] [] {} where
  first := by simp
  known := by simp
  artworks := by simp
  sublist := .slnil
  targets := by simp

/-- The first record with a signature stays the first, and its artwork stays. -/
theorem CollectedFrom.first_snoc (h : CollectedFrom py raws hotspots collected)
    (hsub : ∀ artwork ∈ collected.artworks, artwork ∈ artworks') {signature : Signature}
    {artworkId : Bytes} (hlookup : collected.artworkBySignature.lookup signature = some artworkId)
    (raw : PyValue) :
    ∃ before raw' after, raws++[raw] = before++raw' :: after ∧ HasSignature raw' signature ∧
      (∀ other ∈ before, ¬HasSignature other signature) ∧
      ∃ artwork ∈ artworks', ArtworkOf py raw' artwork ∧ artwork.artworkId = artworkId := by
  obtain ⟨before, raw', after, rfl, hsignature, hbefore, artwork, hmem, hartwork⟩ :=
    h.first signature artworkId hlookup
  exact ⟨before, raw', after++[raw], by simp, hsignature, hbefore, artwork, hsub artwork hmem,
    hartwork⟩

/-- A record that adds no signature, and possibly an artwork of one that is known. -/
theorem CollectedFrom.keep (h : CollectedFrom py raws hotspots collected)
    (hknown : ∀ signature items, HasSignature raw signature → signature.2 = .list items →
      ∃ artworkId, collected.artworkBySignature.lookup signature = some artworkId)
    (htarget : ∀ artworkId, hotspot.target = .artwork artworkId →
      ∃ signature, collected.artworkBySignature.lookup signature = some artworkId)
    (hartworks : artworks' = collected.artworks ∨ ∃ artwork signature, ArtworkOf py raw artwork ∧
      artwork.artworkId = hotspot.hotspotId ∧ HasSignature raw signature ∧
      collected.artworkBySignature.lookup signature = some artwork.artworkId ∧
      artworks' = collected.artworks++[artwork]) :
    CollectedFrom py (raws++[raw]) (hotspots++[hotspot])
      ⟨artworks', collected.artworkBySignature⟩ := by
  have hsub : ∀ artwork ∈ collected.artworks, artwork ∈ artworks' := by
    intro artwork hmem
    rcases hartworks with rfl | ⟨_, _, -, -, -, -, rfl⟩
    · exact hmem
    · exact List.mem_append_left _ hmem
  have hids : ∀ signature artworkId,
      collected.artworkBySignature.lookup signature = some artworkId →
      artworkId ∈ artworks'.map (·.artworkId) := by
    intro signature artworkId hlookup
    obtain ⟨-, -, -, -, -, -, artwork, hmem, -, rfl⟩ := h.first signature artworkId hlookup
    exact List.mem_map_of_mem (hsub artwork hmem)
  constructor
  · intro signature artworkId hlookup
    exact h.first_snoc hsub hlookup raw
  · intro raw' hraw'
    rcases List.mem_append.mp hraw' with hraw' | hraw'
    · exact h.known raw' hraw'
    · rw [List.mem_singleton.mp hraw']
      exact hknown
  · intro artwork hmem
    have hold : artwork ∈ collected.artworks → ∃ raw' ∈ raws++[raw], ArtworkOf py raw' artwork ∧
        ∃ signature, HasSignature raw' signature ∧
          collected.artworkBySignature.lookup signature = some artwork.artworkId := by
      intro hmem
      obtain ⟨raw', hraw', hof⟩ := h.artworks artwork hmem
      exact ⟨raw', List.mem_append_left _ hraw', hof⟩
    rcases hartworks with rfl | ⟨artwork', signature, hof, -, hsignature, hlookup, rfl⟩
    · exact hold hmem
    · rcases List.mem_append.mp hmem with hmem | hmem
      · exact hold hmem
      · obtain rfl := List.mem_singleton.mp hmem
        exact ⟨raw, by simp, hof, signature, hsignature, hlookup⟩
  · rw [List.map_append]
    rcases hartworks with rfl | ⟨artwork', signature, -, hid, -, -, rfl⟩
    · exact h.sublist.trans (List.sublist_append_left _ _)
    · rw [List.map_append, List.map_singleton, List.map_singleton, hid]
      exact h.sublist.append (List.Sublist.refl _)
  · intro hotspot' hhotspot' artworkId hkind
    rcases List.mem_append.mp hhotspot' with hhotspot' | hhotspot'
    · obtain ⟨artwork, hmem, rfl⟩ := List.mem_map.mp (h.targets hotspot' hhotspot' artworkId hkind)
      exact List.mem_map_of_mem (hsub artwork hmem)
    · rw [List.mem_singleton.mp hhotspot'] at hkind
      obtain ⟨signature, hlookup⟩ := htarget artworkId hkind
      exact hids signature artworkId hlookup

/-- The first record with its signature adds an artwork. -/
theorem CollectedFrom.add {signature : Signature} {items : List PyValue}
    {artwork : MigratedArtwork} (h : CollectedFrom py raws hotspots collected)
    (htarget : hotspot.target = .artwork hotspot.hotspotId) (hsignature : HasSignature raw signature)
    (hlist : signature.2 = .list items)
    (hnew : collected.artworkBySignature.lookup signature = none) (hof : ArtworkOf py raw artwork)
    (hid : artwork.artworkId = hotspot.hotspotId) :
    CollectedFrom py (raws++[raw]) (hotspots++[hotspot])
      ⟨collected.artworks++[artwork],
        (signature, hotspot.hotspotId) :: collected.artworkBySignature⟩ := by
  have hlookup : ∀ signature' artworkId,
      collected.artworkBySignature.lookup signature' = some artworkId →
      ((signature, hotspot.hotspotId) :: collected.artworkBySignature).lookup signature' =
        some artworkId := by
    intro signature' artworkId hold
    have hne : signature' ≠ signature := by
      rintro rfl
      rw [hnew] at hold
      cases hold
    rw [List.lookup_cons, beq_eq_false_iff_ne.mpr hne]
    exact hold
  constructor
  · intro signature' artworkId hfound
    rw [List.lookup_cons] at hfound
    by_cases heq : signature' = signature
    · -- No earlier record has it, since it would be known.
      rw [heq, beq_self_eq_true] at hfound
      refine ⟨raws, raw, [], rfl, heq ▸ hsignature, ?_, artwork, by simp, hof,
        hid.trans (Option.some.inj hfound)⟩
      intro other hother hsame
      obtain ⟨artworkId', hknown⟩ := h.known other hother signature' items hsame (heq ▸ hlist)
      rw [heq, hnew] at hknown
      cases hknown
    · rw [beq_eq_false_iff_ne.mpr heq] at hfound
      exact h.first_snoc (fun _ hmem => List.mem_append_left _ hmem) hfound raw
  · intro raw' hraw' signature' items' hsignature' hlist'
    rcases List.mem_append.mp hraw' with hraw' | hraw'
    · obtain ⟨artworkId, hknown⟩ := h.known raw' hraw' signature' items' hsignature' hlist'
      exact ⟨artworkId, hlookup signature' artworkId hknown⟩
    · rw [List.mem_singleton.mp hraw'] at hsignature'
      obtain rfl := hsignature.eq hsignature'
      exact ⟨hotspot.hotspotId, List.lookup_cons_self⟩
  · intro artwork' hmem
    rcases List.mem_append.mp hmem with hmem | hmem
    · obtain ⟨raw', hraw', hof', signature', hsignature', hold⟩ := h.artworks artwork' hmem
      exact ⟨raw', List.mem_append_left _ hraw', hof', signature', hsignature',
        hlookup _ _ hold⟩
    · obtain rfl := List.mem_singleton.mp hmem
      exact ⟨raw, by simp, hof, signature, hsignature, hid ▸ List.lookup_cons_self⟩
  · rw [List.map_append, List.map_append, List.map_singleton, List.map_singleton, hid]
    exact h.sublist.append (List.Sublist.refl _)
  · intro hotspot' hhotspot' artworkId hkind
    rw [List.map_append]
    rcases List.mem_append.mp hhotspot' with hhotspot' | hhotspot'
    · exact List.mem_append_left _ (h.targets hotspot' hhotspot' artworkId hkind)
    · rw [List.mem_singleton.mp hhotspot', htarget] at hkind
      cases hkind
      exact List.mem_append_right _ (by simp [hid])

/-- One round of the loop. -/
theorem CollectedFrom.step (h : CollectedFrom py raws hotspots collected)
    (hnormalize : normalizeHotspot py raw panoToScene collected.artworkBySignature =
      .ok (hotspot, signatures'))
    (hcollect : collectArtwork py raw hotspot collected.artworks = .ok artworks') :
    CollectedFrom py (raws++[raw]) (hotspots++[hotspot]) ⟨artworks', signatures'⟩ := by
  rcases collect_cases hnormalize hcollect with
    ⟨hdata, hnone, rfl, rfl⟩ |
    ⟨signature, artworkId, htarget, hsignature, hlookup, rfl, hartworks⟩ |
    ⟨signature, items, artwork, htarget, hsignature, hlist, hnew, rfl, hof, hid, rfl⟩
  · refine h.keep ?_ ?_ (.inl rfl)
    · exact fun signature items hsignature hlist => absurd hlist (hdata signature items hsignature)
    · exact fun artworkId htarget => absurd htarget (hnone artworkId)
  · refine h.keep ?_ ?_ ?_
    · intro signature' items hsignature' _
      exact ⟨artworkId, hsignature.eq hsignature' ▸ hlookup⟩
    · intro artworkId' htarget'
      obtain rfl : artworkId = artworkId' := by simpa [htarget] using htarget'
      exact ⟨signature, hlookup⟩
    · rcases hartworks with rfl | ⟨artwork, hof, hid, rfl, rfl⟩
      · exact .inl rfl
      · exact .inr ⟨artwork, signature, hof, hid, hsignature, hid ▸ hlookup, rfl⟩
  · exact h.add htarget hsignature hlist hnew hof hid

end Collecting

end JingjieAR
