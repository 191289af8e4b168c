import JingjieAR.ARServerRoutes
import JingjieAR.CatalogModel

/-! The identifiers of artworks on their way from an accepted catalogue through the paths
of the front end and the route table back to the catalogue. -/
namespace JingjieAR

section Encoding

theorem percentEncode_cons (keep : UInt8 → Bool) (b : UInt8) (text : Bytes) :
    percentEncode keep (b :: text) =
      (if keep b then [b] else escapeByte b)++percentEncode keep text := rfl

theorem length_le_percentEncode (keep : UInt8 → Bool) (text : Bytes) :
    text.length ≤ (percentEncode keep text).length := by
  induction text with
  | nil => exact Nat.le_refl _
  | cons b text ih =>
    rw [percentEncode_cons, List.length_append, List.length_cons]
    split
    · rw [List.length_singleton]
      omega
    · have hlength : (escapeByte b).length = 3 := rfl
      omega

/-- Only a text of bytes that are kept is left alone: every escape makes it longer. -/
theorem percentEncode_eq_self_iff (keep : UInt8 → Bool) (text : Bytes) :
    percentEncode keep text = text ↔ ∀ b ∈ text, keep b = true := by
  induction text with
  | nil => simp [percentEncode]
  | cons b text ih =>
    rw [percentEncode_cons, List.forall_mem_cons]
    by_cases hb : keep b = true
    · rw [if_pos hb, List.singleton_append, List.cons_inj_right, ih]
      simp [hb]
    · have hlonger : (escapeByte b++percentEncode keep text).length > (b :: text).length := by
        have hlength : (escapeByte b).length = 3 := rfl
        have hle := length_le_percentEncode keep text
        rw [List.length_append, List.length_cons]
        omega
      rw [if_neg hb]
      refine iff_of_false ?_ (fun h => hb h.1)
      intro heq
      rw [heq] at hlonger
      exact absurd hlonger (lt_irrefl _)

theorem slash_notMem_escapeByte (b : UInt8) : slash ∉ escapeByte b := by
  have hdigit : ∀ n < 16, upperHexDigit n ≠ slash := by decide
  have hb := b.toNat_lt
  have hhigh := hdigit (b.toNat/16) (by omega)
  have hlow := hdigit (b.toNat%16) (by omega)
  intro hmem
  simp only [escapeByte, List.mem_cons, List.not_mem_nil, or_false] at hmem
  rcases hmem with h | h | h
  · exact absurd h (by decide)
  · exact hhigh h.symm
  · exact hlow h.symm

/-- What the front end puts into a path is one non-empty segment. -/
theorem encodeURIComponent_segment {id : Bytes} (h : id ≠ []) :
    encodeURIComponent id ≠ [] ∧ slash ∉ encodeURIComponent id := by
  refine ⟨?_, ?_⟩
  · intro hnil
    have hle := length_le_percentEncode unreserved id
    rw [show percentEncode unreserved id = [] from hnil] at hle
    exact h (List.length_eq_zero_iff.mp (Nat.le_zero.mp hle))
  · intro hmem
    obtain ⟨b, -, hb⟩ := List.mem_flatMap.mp hmem
    split at hb
    · rename_i hkeep
      obtain rfl := List.mem_singleton.mp hb
      exact absurd hkeep (by decide)
    · exact slash_notMem_escapeByte b hb

end Encoding

section Loading

variable {fs : FileSystem} {staticRoot : Bytes}

theorem readString_value_ne_nil {object : Json} {key context : Bytes}
    (h : (readString object key context false).errors = []) :
    (readString object key context false).value ≠ [] := by
  rw [readString] at h ⊢
  split at h
  · rename_i value hfind
    split_ifs at h ⊢ with hempty
    · simp [addError] at h
    · simpa using hempty
  · simp [addError] at h

theorem andThen_value {α : Type} (r : Read α) (check : α → List Bytes) :
    (r.andThen check).value = r.value := by
  rw [Read.andThen]
  split
  · rfl
  · rfl

theorem andThen_errors {α : Type} {r : Read α} {check : α → List Bytes}
    (h : (r.andThen check).errors = []) : r.errors = [] ∧ check r.value = [] := by
  rw [Read.andThen] at h
  split_ifs at h with hr
  · exact ⟨hr, h⟩
  · exact absurd h hr

/-- An artwork without errors has a new id, which counts as seen from then on. -/
theorem readArtwork_id {index : ℕ} {value : Json} {ids : Finset Bytes}
    (h : (readArtwork fs staticRoot index value ids).errors = []) :
    let artwork := (readArtwork fs staticRoot index value ids).value
    artwork.1.id ≠ [] ∧ artwork.1.id.length ≤ 64 ∧ artwork.1.id ∉ ids ∧
      artwork.2 = insert artwork.1.id ids := by
  rw [readArtwork] at h ⊢
  split_ifs at h ⊢ with hobject
  · simp [addError] at h
  · simp only [List.append_eq_nil_iff] at h ⊢
    obtain ⟨hid, hunique, -⟩ := h
    obtain ⟨hread, hlength⟩ := andThen_errors hid
    have hne := readString_value_ne_nil hread
    rw [andThen_value] at hunique ⊢
    refine ⟨hne, ?_, ?_⟩
    · by_contra hlong
      rw [if_pos (by omega)] at hlength
      simp [addError] at hlength
    · rw [addUniqueId, if_neg hne] at hunique ⊢
      split_ifs at hunique ⊢ with hseen
      · simp [addError] at hunique
      · exact ⟨hseen, rfl⟩

theorem readAll_ids {index : ℕ} {values : List Json} {ids : Finset Bytes}
    (h : (readAll (readArtwork fs staticRoot) index values ids).errors = []) :
    let artworks := (readAll (readArtwork fs staticRoot) index values ids).value.1
    (∀ a ∈ artworks, a.id ≠ [] ∧ a.id ∉ ids) ∧ (artworks.map ArtworkInfo.id).Nodup := by
  induction values generalizing index ids with
  | nil => exact ⟨by simp [readAll], by simp [readAll]⟩
  | cons value values ih =>
    rw [readAll] at h ⊢
    simp only [List.append_eq_nil_iff] at h ⊢
    -- The ids that have been seen grow by one; the later ones are outside of them.
    obtain ⟨hne, -, hnew, hids⟩ := readArtwork_id h.1
    obtain ⟨hall, hnodup⟩ := ih h.2
    rw [hids] at hall hnodup ⊢
    refine ⟨?_, ?_⟩
    · intro a ha
      rcases List.mem_cons.mp ha with rfl | ha
      · exact ⟨hne, hnew⟩
      · exact ⟨(hall a ha).1, fun hin => (hall a ha).2 (Finset.mem_insert_of_mem hin)⟩
    · rw [List.map_cons, List.nodup_cons]
      refine ⟨?_, hnodup⟩
      intro hmem
      obtain ⟨a, ha, hsame⟩ := List.mem_map.mp hmem
      exact (hall a ha).2 (hsame ▸ Finset.mem_insert_self _ _)

/-- The artworks of an accepted catalogue have distinct ids, none of them empty. -/
theorem ExhibitionCatalog.load_artworks {configPath : Bytes} {config : ConfigFile}
    {catalog : ExhibitionCatalog} (h : load fs configPath staticRoot config = .ok catalog) :
    (∀ a ∈ catalog.artworks, a.id ≠ []) ∧ (catalog.artworks.map ArtworkInfo.id).Nodup := by
  cases config with
  | cannotOpen => simp [load] at h
  | invalidJson what => simp [load] at h
  | document root =>
    simp only [load] at h
    split_ifs at h with hobject herrors
    injection h with h
    subst h
    simp only [readCatalog, List.append_eq_nil_iff] at herrors ⊢
    have hartworks := herrors.2.2.1
    rw [readArtworks] at hartworks ⊢
    split at hartworks
    · obtain ⟨hall, hnodup⟩ := readAll_ids hartworks
      exact ⟨fun a ha => (hall a ha).1, hnodup⟩
    · simp at hartworks

theorem ExhibitionCatalog.findArtwork_iff {catalog : ExhibitionCatalog}
    (hnodup : (catalog.artworks.map ArtworkInfo.id).Nodup) {artwork : ArtworkInfo}
    (hmem : artwork ∈ catalog.artworks) (id : Bytes) :
    catalog.findArtwork id = some artwork ↔ id = artwork.id := by
  constructor
  · intro h
    have hid := List.find?_some h
    exact (decide_eq_true_eq.mp hid).symm
  · intro h
    rw [h]
    cases hfind : catalog.findArtwork artwork.id with
    | none =>
      have hnone := List.find?_eq_none.mp hfind artwork hmem
      simp at hnone
    | some found =>
      have hid : found.id = artwork.id := by
        simpa using List.find?_some hfind
      have hin := List.mem_of_find?_eq_some hfind
      rw [List.inj_on_of_nodup_map hnodup hin hmem hid]

end Loading

section Routing

/-- The handlers of an artwork, each with what follows the identifier in its path. -/
def artworkEndpoints : List (Endpoint × Bytes) :=
  [(.artworkDetail, []), (.artworkLike, ascii "/likes"), (.artworkUnlike, ascii "/likes"),
   (.artworkComments, ascii "/comments"), (.artworkComment, ascii "/comments")]

theorem artworkEndpoints_form {e : Endpoint} {suffix : Bytes}
    (h : (e, suffix) ∈ artworkEndpoints) :
    e.form = (ascii "/api/artworks/", some suffix) ∧ AtBoundary slash suffix ∧
      e.parameterNames = [ascii "artworkId"] := by
  simp only [artworkEndpoints, List.mem_cons, Prod.mk.injEq, List.not_mem_nil, or_false] at h
  rcases h with ⟨rfl, rfl⟩ | ⟨rfl, rfl⟩ | ⟨rfl, rfl⟩ | ⟨rfl, rfl⟩ | ⟨rfl, rfl⟩
  · exact ⟨rfl, atBoundary_nil, rfl⟩
  · exact ⟨rfl, atBoundary_cons _, rfl⟩
  · exact ⟨rfl, atBoundary_cons _, rfl⟩
  · exact ⟨rfl, atBoundary_cons _, rfl⟩
  · exact ⟨rfl, atBoundary_cons _, rfl⟩

/-- Which of the handlers it is follows from the method and the suffix. -/
theorem artworkEndpoints_unique {e e' : Endpoint} {suffix : Bytes}
    (he : (e, suffix) ∈ artworkEndpoints) (he' : (e', suffix) ∈ artworkEndpoints)
    (hmethod : e'.method = e.method) : e' = e := by
  simp only [artworkEndpoints, List.mem_cons, Prod.mk.injEq, List.not_mem_nil, or_false] at he he'
  rcases he with ⟨rfl, rfl⟩ | ⟨rfl, rfl⟩ | ⟨rfl, rfl⟩ | ⟨rfl, rfl⟩ | ⟨rfl, rfl⟩
  all_goals
    rcases he' with ⟨rfl, hs⟩ | ⟨rfl, hs⟩ | ⟨rfl, hs⟩ | ⟨rfl, hs⟩ | ⟨rfl, hs⟩
    all_goals first
      | rfl
      | exact absurd hs (by decide)
      | exact absurd hmethod (by decide)

theorem artworkEndpoints_of_addressed {e : Endpoint} {rest : Bytes} {values : List Bytes}
    (h : e.Addressed (ascii "/api/artworks/"++rest) values) :
    ∃ suffix, (e, suffix) ∈ artworkEndpoints := by
  cases e with
  | artworkDetail | artworkLike | artworkUnlike | artworkComments | artworkComment =>
    simp [artworkEndpoints]
  | sceneGet =>
    obtain ⟨id, -, -, hpath, -⟩ := h
    refine absurd hpath.symm (append_ne_of_take ?_ _)
    rw [List.take_append_of_le_length (by decide)]
    decide
  | authHandle | authLogout | visitorBootstrap | visitorHeartbeat | visitorExit
  | visitorPresence | visitorViews | sceneList =>
    exact absurd h.1 (append_ne_of_take (by decide) rest)

/-- No two endpoints share a method and a path below `/api/artworks/`. -/
theorem artwork_endpoint_unique {e e' : Endpoint} {suffix id : Bytes} {values : List Bytes}
    (he : (e, suffix) ∈ artworkEndpoints) (hslash : slash ∉ id) (hmethod : e'.method = e.method)
    (h : e'.Addressed (ascii "/api/artworks/"++(id++suffix)) values) :
    e' = e ∧ values = [id] := by
  obtain ⟨suffix', he'⟩ := artworkEndpoints_of_addressed h
  obtain ⟨-, hboundary, -⟩ := artworkEndpoints_form he
  obtain ⟨hform, hboundary', -⟩ := artworkEndpoints_form he'
  rw [Endpoint.Addressed, hform] at h
  obtain ⟨id', -, hslash', hpath, hvalues⟩ := h
  obtain ⟨hid, hsuffix⟩ := name_append_inj hslash hslash' hboundary hboundary'
    (List.append_cancel_left hpath)
  subst hid hsuffix
  exact ⟨artworkEndpoints_unique he he' hmethod, hvalues⟩

theorem artwork_route_mem {h : Handlers} (hartworks : h.artworks = true) {e : Endpoint}
    {suffix : Bytes} (he : (e, suffix) ∈ artworkEndpoints) :
    ∃ route ∈ arRoutes h, route.handler = e ∧ isDynamicPattern route.pattern = true := by
  have hin : ∀ route ∈ artworkRoutes, route ∈ arRoutes h := by
    intro route hroute
    simp only [arRoutes, hartworks, if_true, List.mem_append]
    exact .inr (.inr (.inr hroute))
  simp only [artworkEndpoints, List.mem_cons, Prod.mk.injEq, List.not_mem_nil, or_false] at he
  rcases he with ⟨rfl, -⟩ | ⟨rfl, -⟩ | ⟨rfl, -⟩ | ⟨rfl, -⟩ | ⟨rfl, -⟩
  · exact ⟨_, hin _ (.head _), rfl, by decide⟩
  · exact ⟨_, hin _ (.tail _ (.head _)), rfl, by decide⟩
  · exact ⟨_, hin _ (.tail _ (.tail _ (.head _))), rfl, by decide⟩
  · exact ⟨_, hin _ (.tail _ (.tail _ (.tail _ (.head _)))), rfl, by decide⟩
  · exact ⟨_, hin _ (.tail _ (.tail _ (.tail _ (.tail _ (.head _))))), rfl, by decide⟩

/-- The path with one segment for the identifier leads to the handler, which gets the
segment as it stands in the path. -/
theorem arRouter_artwork {h : Handlers} (hartworks : h.artworks = true) {e : Endpoint}
    {suffix id : Bytes} (he : (e, suffix) ∈ artworkEndpoints) (hne : id ≠ [])
    (hslash : slash ∉ id) {request : HttpRequest} (hmethod : request.method = e.method)
    (hpath : request.path = ascii "/api/artworks/"++(id++suffix)) :
    ∃ route routed, (arRouter h).route request = .found route routed ∧ route.handler = e ∧
      routed.pathParameter (ascii "artworkId") = id := by
  obtain ⟨hform, -, hnames⟩ := artworkEndpoints_form he
  obtain ⟨entry, hentry, rfl, hdynamic⟩ := artwork_route_mem hartworks he
  have hdescribes := describes_of_mem hentry
  have haddressed : entry.handler.Addressed request.path [id] := by
    rw [Endpoint.Addressed, hform]
    exact ⟨id, hne, hslash, hpath, rfl⟩
  -- The exact patterns belong to other endpoints.
  have hexact : ∀ e' ∈ arRoutes h, isDynamicPattern e'.pattern = false →
      e'.pattern ≠ request.path := by
    intro e' he' hstatic heq
    have hself : e'.handler.Addressed (ascii "/api/artworks/"++(id++suffix)) [] := by
      rw [Endpoint.Addressed, (describes_of_mem he').static hstatic, ← hpath]
      exact ⟨heq.symm, rfl⟩
    obtain ⟨suffix', hmem⟩ := artworkEndpoints_of_addressed hself
    rw [Endpoint.Addressed, (artworkEndpoints_form hmem).1] at hself
    obtain ⟨id', -, -, -, hvalues⟩ := hself
    contradiction
  obtain ⟨route, routed, hfound⟩ := Router.ofRoutes_exists hentry hdynamic
    (hdescribes.method.trans hmethod.symm) ((hdescribes.addressed hdynamic).mpr haddressed) hexact
  obtain ⟨hmethod', values, haddressed', hrouted⟩ := arRouter_found hfound
  rw [hpath] at haddressed'
  obtain ⟨hhandler, hvalues⟩ := artwork_endpoint_unique he hslash
    (hmethod'.symm.trans hmethod) haddressed'
  refine ⟨route, routed, hfound, hhandler, ?_⟩
  rw [hrouted, hhandler, hnames, hvalues]
  simp [injectParameters, HttpRequest.pathParameter, HttpRequest.setPathParameter]

theorem artworkId_of_found {h : Handlers} (hartworks : h.artworks = true) {e : Endpoint}
    {suffix id : Bytes} (he : (e, suffix) ∈ artworkEndpoints) (hne : id ≠ [])
    (hslash : slash ∉ id) {request routed : HttpRequest} {route : Route Endpoint}
    (hmethod : request.method = e.method)
    (hpath : request.path = ascii "/api/artworks/"++(id++suffix))
    (hfound : (arRouter h).route request = .found route routed) :
    routed.pathParameter (ascii "artworkId") = id := by
  obtain ⟨route', routed', hfound', -, hparameter⟩ :=
    arRouter_artwork hartworks he hne hslash hmethod hpath
  rw [hfound] at hfound'
  injection hfound' with hroute hrouted
  rw [hrouted]
  exact hparameter

/-- The path that the front end sends for an artwork. -/
def frontendPath (id suffix : Bytes) : Bytes :=
  ascii "/api/artworks/"++(encodeURIComponent id++suffix)

/-- Every request of the front end for the artwork comes to the handler it is meant for,
and that handler finds the artwork. -/
def Reachable (h : Handlers) (catalog : ExhibitionCatalog) (artwork : ArtworkInfo) : Prop :=
  ∀ e suffix, (e, suffix) ∈ artworkEndpoints → ∀ request : HttpRequest,
    request.method = e.method → request.path = frontendPath artwork.id suffix →
    ∃ route routed, (arRouter h).route request = .found route routed ∧ route.handler = e ∧
      catalog.findArtwork (routed.pathParameter (ascii "artworkId")) = some artwork

/-- An accepted artwork is reachable exactly if encoding does not change its id: the
handlers look up the segment as it is, without decoding it. -/
theorem reachable_iff_unreserved {h : Handlers} (hartworks : h.artworks = true) {fs : FileSystem}
    {configPath staticRoot : Bytes} {config : ConfigFile} {catalog : ExhibitionCatalog}
    (hload : ExhibitionCatalog.load fs configPath staticRoot config = .ok catalog)
    {artwork : ArtworkInfo} (hmem : artwork ∈ catalog.artworks) :
    Reachable h catalog artwork ↔ ∀ c ∈ artwork.id, unreserved c = true := by
  obtain ⟨hnonempty, hnodup⟩ := ExhibitionCatalog.load_artworks hload
  obtain ⟨hne, hslash⟩ := encodeURIComponent_segment (hnonempty artwork hmem)
  rw [← percentEncode_eq_self_iff unreserved artwork.id]
  constructor
  · -- The detail request alone decides it.
    intro hreach
    let request : HttpRequest := { method := .kGet, path := frontendPath artwork.id [] }
    obtain ⟨route, routed, hfound, -, hartwork⟩ :=
      hreach .artworkDetail [] (by decide) request rfl rfl
    have hparameter := artworkId_of_found hartworks
      (show (Endpoint.artworkDetail, []) ∈ artworkEndpoints by decide) hne hslash rfl rfl hfound
    rw [hparameter] at hartwork
    exact (ExhibitionCatalog.findArtwork_iff hnodup hmem _).mp hartwork
  · intro hself e suffix he request hmethod hpath
    obtain ⟨route, routed, hfound, hhandler, hparameter⟩ :=
      arRouter_artwork hartworks he hne hslash hmethod hpath
    refine ⟨route, routed, hfound, hhandler, ?_⟩
    rw [hparameter]
    exact (ExhibitionCatalog.findArtwork_iff hnodup hmem _).mpr hself

end Routing

/-- A document with one scene and one artwork of the given id. -/
def smallDocument (artworkId : Bytes) : Json :=
  .object [
    (ascii "exhibition", .object [
      (ascii "id", .string (ascii "e")), (ascii "title", .string (ascii "t")),
      (ascii "remark", .string []), (ascii "defaultSceneId", .string (ascii "s"))]),
    (ascii "artworks", .array [.object [
      (ascii "artworkId", .string artworkId), (ascii "title", .string (ascii "t")),
      (ascii "text", .string []), (ascii "images", .array [.string (ascii "/assets/i")])]]),
    (ascii "scenes", .array [.object [
      (ascii "sceneId", .string (ascii "s")), (ascii "panoId", .string (ascii "p")),
      (ascii "name", .string (ascii "n")), (ascii "previewUrl", .string (ascii "/assets/v")),
      (ascii "cubeUrl", .string (ascii "/assets/%s")),
      (ascii "thumbnailUrl", .string (ascii "/assets/t")),
      (ascii "musicUrl", .string (ascii "/assets/m")), (ascii "musicVolume", .number (some 0)),
      (ascii "musicAutoplay", .boolean false), (ascii "musicLoop", .boolean true),
      (ascii "view", .object [(ascii "hlookat", .number (some 0)),
        (ascii "vlookat", .number (some 0)), (ascii "fov", .number (some 90))]),
      (ascii "hotspots", .array [])]])]

/-- The directory `/w`, in which every file exists. -/
def smallTree : FileSystem where
  realpath := some
  stat path := some ⟨if path = ascii "/w" then .directory else .regular, 1, 1, 0⟩

def smallArtwork (id : Bytes) : ArtworkInfo :=
  { id := id, title := ascii "t", images := [ascii "/assets/i"] }

theorem reachable_plain_id :
    ∃ catalog, ExhibitionCatalog.load smallTree [] (ascii "/w")
      (.document (smallDocument (ascii "a-1"))) = .ok catalog ∧
      Reachable ⟨true, true, true, true⟩ catalog (smallArtwork (ascii "a-1")) := by
  let catalog := (ExhibitionCatalog.readCatalog smallTree (ascii "/w")
    (smallDocument (ascii "a-1"))).value
  have hload : ExhibitionCatalog.load smallTree [] (ascii "/w")
      (.document (smallDocument (ascii "a-1"))) = .ok catalog := rfl
  have hmem : smallArtwork (ascii "a-1") ∈ catalog.artworks := by decide
  have hiff := reachable_iff_unreserved (show (Handlers.mk true true true true).artworks = true
    from rfl) hload hmem
  exact ⟨catalog, hload, hiff.mpr (List.all_eq_true.mp (by decide))⟩

/-- An accepted id with a blank is sent as `a%20b`, and nothing is found under that. -/
theorem spaced_id_not_reachable :
    ¬∀ (h : Handlers) (fs : FileSystem) (configPath staticRoot : Bytes) (config : ConfigFile)
      (catalog : ExhibitionCatalog) (artwork : ArtworkInfo), h.artworks = true →
      ExhibitionCatalog.load fs configPath staticRoot config = .ok catalog →
      artwork ∈ catalog.artworks → Reachable h catalog artwork := by
  intro hall
  let catalog := (ExhibitionCatalog.readCatalog smallTree (ascii "/w")
    (smallDocument (ascii "a b"))).value
  let request : HttpRequest := { method := .kGet, path := frontendPath (ascii "a b") [] }
  have hreach := hall ⟨true, true, true, true⟩ smallTree [] (ascii "/w")
    (.document (smallDocument (ascii "a b"))) catalog (smallArtwork (ascii "a b")) rfl rfl
    (by decide)
  have hdetail : (Endpoint.artworkDetail, []) ∈ artworkEndpoints := by decide
  obtain ⟨route, routed, hfound, -, hartwork⟩ := hreach _ _ hdetail request rfl rfl
  have hparameter := artworkId_of_found (show (Handlers.mk true true true true).artworks = true
    from rfl) hdetail (show ascii "a%20b" ≠ [] by decide) (by decide) rfl (by decide) hfound
  rw [hparameter] at hartwork
  have hnone : catalog.findArtwork (ascii "a%20b") = none := by decide
  rw [hnone] at hartwork
  contradiction

end JingjieAR
