import JingjieAR.RouterModel
import JingjieAR.SeparatedNames
import Mathlib.Data.List.TakeWhile

/-! What a route table finds. The greedy matching of compiled patterns is the language of
their expressions, and a table that is built from a list of routes finds a route of the
list, and finds one whenever a dynamic route of the list fits. -/
namespace JingjieAR

/-- The meaning of an expression, with the texts of its groups. -/
inductive AtomsMatch : List PatternAtom → Bytes → List Bytes → Prop
  | nil : AtomsMatch [] [] []
  | literal {atoms : List PatternAtom} {path : Bytes} {values : List Bytes} (c : UInt8)
      (h : AtomsMatch atoms path values) : AtomsMatch (.literal c :: atoms) (c :: path) values
  | parameter {atoms : List PatternAtom} {path id : Bytes} {values : List Bytes} (hne : id ≠ [])
      (hslash : slash ∉ id) (h : AtomsMatch atoms path values) :
      AtomsMatch (.parameter :: atoms) (id++path) (id :: values)

/-- The first atom is a `/`, or there is none. -/
def StartsAtSlash (atoms : List PatternAtom) : Prop := ∀ a ∈ atoms.head?, a = .literal slash

/-- A group is followed by a `/` or by the end of the expression. -/
def GroupsEndAtSlash : List PatternAtom → Prop
  | [] => True
  | .literal _ :: atoms => GroupsEndAtSlash atoms
  | .parameter :: atoms => StartsAtSlash atoms ∧ GroupsEndAtSlash atoms

theorem atBoundary_of_atomsMatch {atoms : List PatternAtom} {path : Bytes} {values : List Bytes}
    (h : AtomsMatch atoms path values) (hstart : StartsAtSlash atoms) : AtBoundary slash path := by
  cases h with
  | nil => exact atBoundary_nil
  | literal c h =>
    have hc : PatternAtom.literal c = .literal slash := hstart _ rfl
    injection hc with hc
    exact hc ▸ atBoundary_cons _
  | parameter hne hslash h =>
    have hc : PatternAtom.parameter = .literal slash := hstart _ rfl
    contradiction

theorem takeWhile_name {id rest : Bytes} (hslash : slash ∉ id) (hrest : AtBoundary slash rest) :
    (id++rest).takeWhile (· ≠ slash) = id ∧ (id++rest).dropWhile (· ≠ slash) = rest := by
  have hid : ∀ c ∈ id, decide (c ≠ slash) = true := by
    intro c hc
    exact decide_eq_true (fun he => hslash (he ▸ hc))
  rw [List.takeWhile_append_of_pos hid, List.dropWhile_append_of_pos hid]
  cases rest with
  | nil => simp
  | cons c rest =>
    have hc : c = slash := hrest c rfl
    simp [hc]

theorem matchAtoms_iff {atoms : List PatternAtom} (hgroups : GroupsEndAtSlash atoms)
    {path : Bytes} {values : List Bytes} :
    matchAtoms atoms path = some values ↔ AtomsMatch atoms path values := by
  constructor
  · intro h
    fun_induction matchAtoms atoms path generalizing values with
    | case1 =>
      obtain rfl : [] = values := by simpa using h
      exact .nil
    | case2 => contradiction
    | case3 => contradiction
    | case4 atoms c path ih => exact .literal c (ih hgroups h)
    | case5 => contradiction
    | case6 => contradiction
    | case7 atoms path hne ih =>
      obtain ⟨values', hvalues, rfl⟩ := Option.map_eq_some_iff.mp h
      have hslash : slash ∉ path.takeWhile (· ≠ slash) := by
        intro hmem
        simpa using List.mem_takeWhile_imp hmem
      have hmatch := AtomsMatch.parameter hne hslash (ih hgroups.2 hvalues)
      rwa [List.takeWhile_append_dropWhile] at hmatch
  · intro h
    induction h with
    | nil => rfl
    | literal c h ih => simpa [matchAtoms] using ih hgroups
    | parameter hne hslash h ih =>
      -- The greedy group stops where this one ends: a `/` or nothing comes next.
      obtain ⟨htake, hdrop⟩ := takeWhile_name hslash (atBoundary_of_atomsMatch h hgroups.1)
      rw [matchAtoms, htake, hdrop, if_neg hne, ih hgroups.2]
      rfl

theorem atomsMatch_literals (text : Bytes) {atoms : List PatternAtom} {path : Bytes}
    {values : List Bytes} :
    AtomsMatch (text.map .literal++atoms) path values ↔
      ∃ rest, path = text++rest ∧ AtomsMatch atoms rest values := by
  constructor
  · intro h
    induction text generalizing path with
    | nil => exact ⟨path, rfl, h⟩
    | cons c text ih =>
      cases h with
      | literal c h =>
        obtain ⟨rest, rfl, hrest⟩ := ih h
        exact ⟨rest, rfl, hrest⟩
  · intro h
    obtain ⟨rest, rfl, hrest⟩ := h
    induction text with
    | nil => exact hrest
    | cons c text ih => exact .literal c ih

/-- An expression with one group: the path has one non-empty segment in its place. -/
theorem atomsMatch_segment (text suffix : Bytes) {path : Bytes} {values : List Bytes} :
    AtomsMatch (text.map .literal++.parameter :: suffix.map .literal) path values ↔
      ∃ id, id ≠ [] ∧ slash ∉ id ∧ path = text++(id++suffix) ∧ values = [id] := by
  rw [atomsMatch_literals]
  constructor
  · intro h
    obtain ⟨rest, rfl, hrest⟩ := h
    cases hrest with
    | parameter hne hslash h =>
      rw [← List.append_nil (suffix.map PatternAtom.literal), atomsMatch_literals] at h
      obtain ⟨rest', rfl, hnil⟩ := h
      cases hnil
      exact ⟨_, hne, hslash, by rw [List.append_nil], rfl⟩
  · intro h
    obtain ⟨id, hne, hslash, rfl, rfl⟩ := h
    refine ⟨id++suffix, rfl, .parameter hne hslash ?_⟩
    rw [← List.append_nil (suffix.map PatternAtom.literal), atomsMatch_literals]
    exact ⟨[], (List.append_nil _).symm, .nil⟩

mutual

theorem compileFrom_groups (atStart : Bool) (pattern : Bytes) :
    GroupsEndAtSlash (compileFrom atStart pattern).1 := by
  cases pattern with
  | nil => trivial
  | cons c rest =>
    rw [compileFrom]
    split
    · exact compileName_groups rest
    · exact compileFrom_groups _ rest
termination_by pattern.length

theorem compileName_groups (pattern : Bytes) :
    StartsAtSlash (compileName pattern).2.1 ∧ GroupsEndAtSlash (compileName pattern).2.1 := by
  cases pattern with
  | nil => exact ⟨by simp [StartsAtSlash, compileName], trivial⟩
  | cons c rest =>
    rw [compileName]
    split
    · rename_i hc
      exact ⟨by simp [StartsAtSlash, hc], compileFrom_groups true rest⟩
    · exact compileName_groups rest
termination_by pattern.length

end

namespace Route

variable {H : Type}

/-- The route is meant for the path; `values` are its parameters. -/
def Fits (r : Route H) (path : Bytes) (values : List Bytes) : Prop :=
  AtomsMatch (compileDynamicPattern r.pattern).1 path values

theorem pathMatches_iff (r : Route H) {path : Bytes} {values : List Bytes} :
    r.pathMatches path = some values ↔ r.Fits path values :=
  matchAtoms_iff (compileFrom_groups true r.pattern)

end Route

namespace Router

variable {H : Type}

/-- A table with these registrations, made in this order. -/
def ofRoutes (routes : List (Route H)) : Router H :=
  routes.foldl (fun r e => (r.addRoute e.method e.pattern e.handler).2) {}

/-- A found route has the method of the request, and it is the exact one or it fits. -/
theorem scanExact_found {request routed : HttpRequest} {routes : List (Route H)}
    {allowed : List Method} {route : Route H}
    (h : scanExact request routes allowed = .found route routed) :
    route ∈ routes ∧ route.method = request.method ∧ routed = request := by
  induction routes generalizing allowed with
  | nil => simp [scanExact] at h
  | cons e routes ih =>
    rw [scanExact] at h
    split_ifs at h with hm
    · injection h with hroute hrouted
      exact ⟨hroute ▸ List.mem_cons_self, hroute ▸ hm, hrouted.symm⟩
    · obtain ⟨hmem, hrest⟩ := ih h
      exact ⟨List.mem_cons_of_mem _ hmem, hrest⟩

theorem scanDynamic_found {request routed : HttpRequest} {routes : List (Route H)}
    {allowed : List Method} {route : Route H}
    (h : scanDynamic request routes allowed = .found route routed) :
    route ∈ routes ∧ route.method = request.method ∧
      ∃ values, route.Fits request.path values ∧
        routed = injectParameters request route.parameterNames values := by
  induction routes generalizing allowed with
  | nil =>
    rw [scanDynamic] at h
    split_ifs at h
  | cons e routes ih =>
    rw [scanDynamic] at h
    split at h
    · obtain ⟨hmem, hrest⟩ := ih h
      exact ⟨List.mem_cons_of_mem _ hmem, hrest⟩
    · rename_i values hvalues
      split_ifs at h with hm
      · injection h with hroute hrouted
        subst hroute
        exact ⟨List.mem_cons_self, hm, values, e.pathMatches_iff.mp hvalues, hrouted.symm⟩
      · obtain ⟨hmem, hrest⟩ := ih h
        exact ⟨List.mem_cons_of_mem _ hmem, hrest⟩

theorem scanDynamic_exists {request : HttpRequest} {routes : List (Route H)} {route : Route H}
    (allowed : List Method) (hmem : route ∈ routes) (hm : route.method = request.method)
    {values : List Bytes} (hfits : route.Fits request.path values) :
    ∃ found routed, scanDynamic request routes allowed = .found found routed := by
  induction routes generalizing allowed with
  | nil => simp at hmem
  | cons e routes ih =>
    rw [scanDynamic]
    cases hv : e.pathMatches request.path with
    | none =>
      -- A route that fits is not the one that was passed over here.
      rcases List.mem_cons.mp hmem with rfl | hmem
      · simp [route.pathMatches_iff.mpr hfits] at hv
      · exact ih allowed hmem
    | some values' =>
      by_cases he : e.method = request.method
      · exact ⟨e, _, if_pos he⟩
      · rcases List.mem_cons.mp hmem with rfl | hmem
        · exact absurd hm he
        · simp only [if_neg he]
          exact ih _ hmem

section Congr

variable {request request' : HttpRequest}

theorem scanExact_congr (hmethod : request'.method = request.method) {routes : List (Route H)}
    {allowed : List Method} {route : Route H} {routed : HttpRequest}
    (h : scanExact request routes allowed = .found route routed) :
    ∃ routed', scanExact request' routes allowed = .found route routed' := by
  induction routes generalizing allowed with
  | nil => simp [scanExact] at h
  | cons e routes ih =>
    rw [scanExact] at h ⊢
    rw [hmethod]
    split_ifs at h ⊢ with hm
    · injection h with hroute
      exact ⟨request', by rw [hroute]⟩
    · exact ih h

theorem scanDynamic_congr (hpath : request'.path = request.path)
    (hmethod : request'.method = request.method) {routes : List (Route H)}
    {allowed : List Method} {route : Route H} {routed : HttpRequest}
    (h : scanDynamic request routes allowed = .found route routed) :
    ∃ routed', scanDynamic request' routes allowed = .found route routed' := by
  induction routes generalizing allowed with
  | nil =>
    rw [scanDynamic] at h
    split_ifs at h
  | cons e routes ih =>
    rw [scanDynamic] at h ⊢
    rw [hpath, hmethod]
    cases hv : e.pathMatches request.path with
    | none =>
      rw [hv] at h
      exact ih h
    | some values =>
      rw [hv] at h
      by_cases hm : e.method = request.method
      · simp only [if_pos hm] at h ⊢
        injection h with hroute
        exact ⟨_, by rw [hroute]⟩
      · simp only [if_neg hm] at h ⊢
        exact ih h

/-- Which route is found depends on the method and the path only. -/
theorem route_congr (hpath : request'.path = request.path)
    (hmethod : request'.method = request.method) {r : Router H} {route : Route H}
    {routed : HttpRequest} (h : r.route request = .found route routed) :
    ∃ routed', r.route request' = .found route routed' := by
  rw [Router.route] at h ⊢
  rw [hpath]
  cases hexact : r.exactRoutes.lookup request.path with
  | some routes =>
    rw [hexact] at h
    exact scanExact_congr hmethod h
  | none =>
    rw [hexact] at h
    exact scanDynamic_congr hpath hmethod h

end Congr

/-- The table holds the routes of a list: each at its place, and no others. -/
structure Holds (r : Router H) (routes : List (Route H)) : Prop where
  exact_mem : ∀ path es, r.exactRoutes.lookup path = some es → ∀ e ∈ es,
    e ∈ routes ∧ e.pattern = path
  exact_pattern : ∀ path, (r.exactRoutes.lookup path).isSome →
    ∃ e ∈ routes, e.pattern = path ∧ isDynamicPattern e.pattern = false
  dynamic_mem : ∀ e ∈ r.dynamicRoutes, e ∈ routes ∧ isDynamicPattern e.pattern = true
  registered : ∀ m p, (m, p) ∈ r.registeredPatterns → isDynamicPattern p = true →
    ∃ e ∈ r.dynamicRoutes, e.method = m ∧ e.pattern = p
  complete : ∀ e ∈ routes, (e.method, e.pattern) ∈ r.registeredPatterns

theorem holds_empty : Holds ({} : Router H) [] := by
  refine ⟨?_, ?_, ?_, ?_, ?_⟩
  · intro path es h
    simp at h
  · intro path h
    simp at h
  · intro e h
    simp at h
  · intro m p h
    simp at h
  · intro e h
    simp at h

section Adding

variable {r : Router H} {routes : List (Route H)} {e : Route H}

theorem Holds.complete_insert (h : r.Holds routes) :
    ∀ e' ∈ routes++[e],
      (e'.method, e'.pattern) ∈ insert (e.method, e.pattern) r.registeredPatterns := by
  intro e' he'
  rcases List.mem_append.mp he' with hmem | hmem
  · exact Finset.mem_insert_of_mem (h.complete e' hmem)
  · exact List.mem_singleton.mp hmem ▸ Finset.mem_insert_self _ _

-- What is in the table stays among the registered routes when another one follows.

theorem Holds.exact_mem_append (h : r.Holds routes) :
    ∀ path es, r.exactRoutes.lookup path = some es → ∀ e' ∈ es,
      e' ∈ routes++[e] ∧ e'.pattern = path := by
  intro path es hes e' he'
  exact (h.exact_mem path es hes e' he').imp_left (List.mem_append_left _)

theorem Holds.exact_pattern_append (h : r.Holds routes) :
    ∀ path, (r.exactRoutes.lookup path).isSome →
      ∃ e' ∈ routes++[e], e'.pattern = path ∧ isDynamicPattern e'.pattern = false := by
  intro path hpath
  obtain ⟨e', hmem, hrest⟩ := h.exact_pattern path hpath
  exact ⟨e', List.mem_append_left _ hmem, hrest⟩

theorem Holds.dynamic_mem_append (h : r.Holds routes) :
    ∀ e' ∈ r.dynamicRoutes, e' ∈ routes++[e] ∧ isDynamicPattern e'.pattern = true := by
  intro e' he'
  exact (h.dynamic_mem e' he').imp_left (List.mem_append_left _)

/-- A repeated registration changes nothing. -/
theorem Holds.repeated (h : r.Holds routes)
    (he : (e.method, e.pattern) ∈ r.registeredPatterns) : r.Holds (routes++[e]) := by
  refine ⟨h.exact_mem_append, h.exact_pattern_append, h.dynamic_mem_append, h.registered, ?_⟩
  have hcomplete := h.complete_insert (e := e)
  rwa [Finset.insert_eq_of_mem he] at hcomplete

theorem Holds.addDynamic (h : r.Holds routes) (hdynamic : isDynamicPattern e.pattern = true) :
    Holds { r with registeredPatterns := insert (e.method, e.pattern) r.registeredPatterns,
                   dynamicRoutes := r.dynamicRoutes++[e] } (routes++[e]) := by
  have hself : e ∈ routes++[e] := List.mem_append_right _ (List.mem_singleton_self e)
  refine ⟨h.exact_mem_append, h.exact_pattern_append, ?_, ?_, h.complete_insert⟩
  · intro e' he'
    rcases List.mem_append.mp he' with hmem | hmem
    · exact h.dynamic_mem_append e' hmem
    · obtain rfl := List.mem_singleton.mp hmem
      exact ⟨hself, hdynamic⟩
  · intro m p hmp hp
    rcases Finset.mem_insert.mp hmp with heq | hmp
    · injection heq with hm hp
      exact ⟨e, List.mem_append_right _ (List.mem_singleton_self e), hm.symm, hp.symm⟩
    · obtain ⟨e', hmem, hrest⟩ := h.registered m p hmp hp
      exact ⟨e', List.mem_append_left _ hmem, hrest⟩

theorem Holds.addExact (h : r.Holds routes) (hstatic : isDynamicPattern e.pattern = false) :
    Holds { r with registeredPatterns := insert (e.method, e.pattern) r.registeredPatterns,
                   exactRoutes := r.exactRoutes.insert e.pattern
                     ((r.exactRoutes.lookup e.pattern).getD []++[e]) } (routes++[e]) := by
  have hself : e ∈ routes++[e] := List.mem_append_right _ (List.mem_singleton_self e)
  have hbucket : ∀ e' ∈ (r.exactRoutes.lookup e.pattern).getD []++[e],
      e' ∈ routes++[e] ∧ e'.pattern = e.pattern := by
    intro e' he'
    rcases List.mem_append.mp he' with hmem | hmem
    · cases hprev : r.exactRoutes.lookup e.pattern with
      | none => simp [hprev] at hmem
      | some prev =>
        rw [hprev] at hmem
        exact h.exact_mem_append _ _ hprev e' hmem
    · obtain rfl := List.mem_singleton.mp hmem
      exact ⟨hself, rfl⟩
  refine ⟨?_, ?_, h.dynamic_mem_append, ?_, h.complete_insert⟩
  · intro path es hes e' he'
    by_cases hpath : path = e.pattern
    · subst hpath
      rw [Finmap.lookup_insert] at hes
      injection hes with hes
      exact hbucket e' (hes ▸ he')
    · rw [Finmap.lookup_insert_of_ne _ hpath] at hes
      exact h.exact_mem_append path es hes e' he'
  · intro path hsome
    by_cases hpath : path = e.pattern
    · exact ⟨e, hself, hpath.symm, hstatic⟩
    · rw [Finmap.lookup_insert_of_ne _ hpath] at hsome
      exact h.exact_pattern_append path hsome
  · intro m p hmp hp
    rcases Finset.mem_insert.mp hmp with heq | hmp
    · -- The new pattern is not a dynamic one.
      injection heq with hm hpattern
      simp [← hpattern, hp] at hstatic
    · exact h.registered m p hmp hp

theorem Holds.addRoute (h : r.Holds routes) (e : Route H) :
    (r.addRoute e.method e.pattern e.handler).2.Holds (routes++[e]) := by
  rw [Router.addRoute]
  by_cases hold : (e.method, e.pattern) ∈ r.registeredPatterns
  · rw [if_pos hold]
    exact h.repeated hold
  · rw [if_neg hold]
    by_cases hdynamic : isDynamicPattern e.pattern = true
    · rw [if_pos hdynamic]
      exact h.addDynamic hdynamic
    · rw [if_neg hdynamic]
      exact h.addExact (Bool.eq_false_iff.mpr hdynamic)

end Adding

theorem ofRoutes_holds (routes : List (Route H)) : (ofRoutes routes).Holds routes := by
  have hrun : ∀ (rest done : List (Route H)) (r : Router H), r.Holds done →
      (rest.foldl (fun r e => (r.addRoute e.method e.pattern e.handler).2) r).Holds
        (done++rest) := by
    intro rest
    induction rest with
    | nil =>
      intro done r h
      rwa [List.append_nil]
    | cons e rest ih =>
      intro done r h
      rw [List.append_cons]
      exact ih _ _ (h.addRoute e)
  exact hrun routes [] {} holds_empty

/-- What the table finds is one of its routes, with the method and the path it is for. -/
theorem ofRoutes_found {routes : List (Route H)} {request routed : HttpRequest} {route : Route H}
    (h : (ofRoutes routes).route request = .found route routed) :
    route ∈ routes ∧ route.method = request.method ∧
      ((isDynamicPattern route.pattern = false ∧ route.pattern = request.path ∧
          routed = request) ∨
        (isDynamicPattern route.pattern = true ∧ ∃ values, route.Fits request.path values ∧
          routed = injectParameters request route.parameterNames values)) := by
  have hholds := ofRoutes_holds routes
  rw [Router.route] at h
  cases hexact : (ofRoutes routes).exactRoutes.lookup request.path with
  | some es =>
    rw [hexact] at h
    obtain ⟨hmem, hmethod, hrouted⟩ := scanExact_found h
    obtain ⟨hin, hpattern⟩ := hholds.exact_mem _ _ hexact route hmem
    -- Exact and dynamic patterns are told apart by their text alone.
    obtain ⟨e, -, he, hstatic⟩ := hholds.exact_pattern request.path (by rw [hexact]; rfl)
    rw [he, ← hpattern] at hstatic
    exact ⟨hin, hmethod, .inl ⟨hstatic, hpattern, hrouted⟩⟩
  | none =>
    rw [hexact] at h
    obtain ⟨hmem, hmethod, hfits⟩ := scanDynamic_found h
    obtain ⟨hin, hdynamic⟩ := hholds.dynamic_mem route hmem
    exact ⟨hin, hmethod, .inr ⟨hdynamic, hfits⟩⟩

/-- A dynamic route that fits leads to a route, unless the path is an exact one. -/
theorem ofRoutes_exists {routes : List (Route H)} {request : HttpRequest} {e : Route H}
    {values : List Bytes} (hmem : e ∈ routes) (hdynamic : isDynamicPattern e.pattern = true)
    (hm : e.method = request.method) (hfits : e.Fits request.path values)
    (hexact : ∀ e' ∈ routes, isDynamicPattern e'.pattern = false → e'.pattern ≠ request.path) :
    ∃ route routed, (ofRoutes routes).route request = .found route routed := by
  have hholds := ofRoutes_holds routes
  have hnone : (ofRoutes routes).exactRoutes.lookup request.path = none := by
    by_contra hsome
    obtain ⟨e', he', hpattern, hstatic⟩ :=
      hholds.exact_pattern _ (Option.isSome_iff_ne_none.mpr hsome)
    exact hexact e' he' hstatic hpattern
  -- `e` itself may have been a repetition; its first registration has the same pattern.
  obtain ⟨e', he', hm', hp'⟩ := hholds.registered _ _ (hholds.complete e hmem) hdynamic
  rw [Router.route, hnone]
  have hfits' : e'.Fits request.path values := by
    rw [Route.Fits, hp']
    exact hfits
  exact scanDynamic_exists [] he' (hm'.trans hm) hfits'

end Router

end JingjieAR
