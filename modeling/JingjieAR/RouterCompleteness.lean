import JingjieAR.RouterTables

/-! Whether a route table finds a route whenever it has one, and names the methods of all
of them when it has none with the method of the request. An exact route of the path hides
the dynamic ones, whatever its method. -/
namespace JingjieAR

theorem mem_addAllowedMethod {methods : List Method} {method m : Method} :
    m ∈ addAllowedMethod methods method ↔ m ∈ methods ∨ m = method := by
  rw [addAllowedMethod]
  split_ifs with hmem
  · constructor
    · exact .inl
    · rintro (h | rfl)
      · exact h
      · exact hmem
  · rw [List.mem_append, List.mem_singleton]

theorem nodup_addAllowedMethod {methods : List Method} {method : Method}
    (h : methods.Nodup) : (addAllowedMethod methods method).Nodup := by
  rw [addAllowedMethod]
  split_ifs with hmem
  · exact h
  · apply h.append (List.nodup_singleton method)
    intro m hm hm'
    exact hmem (List.mem_singleton.mp hm' ▸ hm)

variable {H : Type}

/-- The methods that a scan has written down behind these routes. -/
def recordMethods (routes : List (Route H)) (allowed : List Method) : List Method :=
  routes.foldl (fun methods e => addAllowedMethod methods e.method) allowed

theorem mem_recordMethods {routes : List (Route H)} {allowed : List Method} {m : Method} :
    m ∈ recordMethods routes allowed ↔ m ∈ allowed ∨ ∃ e ∈ routes, e.method = m := by
  induction routes generalizing allowed with
  | nil => simp [recordMethods]
  | cons e routes ih =>
    have hrest := @ih (addAllowedMethod allowed e.method)
    rw [recordMethods] at hrest ⊢
    rw [List.foldl_cons, hrest, mem_addAllowedMethod, List.exists_mem_cons_iff, or_assoc,
      eq_comm (a := m)]

theorem nodup_recordMethods {routes : List (Route H)} {allowed : List Method}
    (h : allowed.Nodup) : (recordMethods routes allowed).Nodup := by
  induction routes generalizing allowed with
  | nil => exact h
  | cons e routes ih => exact ih (nodup_addAllowedMethod h)

namespace Route

/-- The pattern of the route matches the path. -/
def Matches (r : Route H) (path : Bytes) : Prop :=
  if isDynamicPattern r.pattern then ∃ values, r.Fits path values else r.pattern = path

theorem matches_of_static {r : Route H} (h : isDynamicPattern r.pattern = false) {path : Bytes} :
    r.Matches path ↔ r.pattern = path := by
  rw [Matches, h]
  simp

theorem matches_of_dynamic {r : Route H} (h : isDynamicPattern r.pattern = true) {path : Bytes} :
    r.Matches path ↔ (r.pathMatches path).isSome := by
  rw [Matches, if_pos h, Option.isSome_iff_exists]
  simp only [r.pathMatches_iff]

/-- The route is the exact one of its method for this path. -/
def IsExact (r : Route H) (path : Bytes) : Prop :=
  isDynamicPattern r.pattern = false ∧ r.pattern = path

instance (r : Route H) (path : Bytes) : Decidable (r.IsExact path) :=
  inferInstanceAs (Decidable (_ ∧ _))

theorem IsExact.matches {r : Route H} {path : Bytes} (h : r.IsExact path) : r.Matches path :=
  (matches_of_static h.1).mpr h.2

/-- A route that matches is the exact one or a dynamic one that fits. -/
theorem Matches.cases {r : Route H} {path : Bytes} (h : r.Matches path) :
    r.IsExact path ∨ isDynamicPattern r.pattern = true := by
  cases hdynamic : isDynamicPattern r.pattern with
  | false => exact .inl ⟨hdynamic, (matches_of_static hdynamic).mp h⟩
  | true => exact .inr rfl

end Route

namespace Router

/-- The registrations that `addRoute` accepts when these are known already. -/
def accepted (known : Finset (Method × Bytes)) : List (Route H) → List (Route H)
  | [] => []
  | e :: routes =>
    if (e.method, e.pattern) ∈ known then accepted known routes
    else e :: accepted (insert (e.method, e.pattern) known) routes

/-- The registered routes, in the order of their registration. -/
def registered (routes : List (Route H)) : List (Route H) := accepted ∅ routes

/-- What the lookup of an exact path gives: nothing, or all of its routes. -/
def bucket (routes : List (Route H)) (path : Bytes) : Option (List (Route H)) :=
  match routes.filter (·.IsExact path) with
  | [] => none
  | e :: es => some (e :: es)

theorem getD_bucket (routes : List (Route H)) (path : Bytes) :
    (bucket routes path).getD [] = routes.filter (·.IsExact path) := by
  rw [bucket]
  cases routes.filter (·.IsExact path) with
  | nil => rfl
  | cons e es => rfl

theorem bucket_append_other {routes : List (Route H)} {e : Route H} {path : Bytes}
    (h : ¬ e.IsExact path) : bucket (routes++[e]) path = bucket routes path := by
  have hfilter : (routes++[e]).filter (·.IsExact path) = routes.filter (·.IsExact path) := by
    rw [List.filter_append, List.filter_singleton, decide_eq_false h]
    exact List.append_nil _
  rw [bucket, bucket, hfilter]

theorem bucket_append_self {routes : List (Route H)} {e : Route H} {path : Bytes}
    (h : e.IsExact path) :
    bucket (routes++[e]) path = some (routes.filter (·.IsExact path)++[e]) := by
  have hfilter : (routes++[e]).filter (·.IsExact path) =
      routes.filter (·.IsExact path)++[e] := by
    rw [List.filter_append, List.filter_singleton, decide_eq_true h]
    rfl
  rw [bucket, hfilter]
  cases routes.filter (·.IsExact path) with
  | nil => rfl
  | cons e' es => rfl

/-- The table keeps exactly these routes, each kind in the order of the list. -/
structure Keeps (r : Router H) (routes : List (Route H)) : Prop where
  exact : ∀ path, r.exactRoutes.lookup path = bucket routes path
  dynamic : r.dynamicRoutes = routes.filter (isDynamicPattern ·.pattern)

theorem Keeps.addRoute {r : Router H} {routes : List (Route H)} (h : r.Keeps routes)
    {e : Route H} (hnew : (e.method, e.pattern) ∉ r.registeredPatterns) :
    (r.addRoute e.method e.pattern e.handler).2.Keeps (routes++[e]) := by
  rw [Router.addRoute, if_neg hnew]
  cases hdynamic : isDynamicPattern e.pattern with
  | true =>
    constructor
    · intro path
      have hother : ¬ e.IsExact path := by simp [Route.IsExact, hdynamic]
      rw [bucket_append_other hother]
      exact h.exact path
    · have hlast : [e].filter (isDynamicPattern ·.pattern) = [e] := by simp [hdynamic]
      rw [List.filter_append, hlast, ← h.dynamic]
      rfl
  | false =>
    constructor
    · intro path
      have hlookup := h.exact e.pattern
      by_cases hpath : path = e.pattern
      · subst hpath
        rw [bucket_append_self ⟨hdynamic, rfl⟩, ← getD_bucket, ← hlookup]
        exact Finmap.lookup_insert _
      · have hother : ¬ e.IsExact path := fun hexact => hpath hexact.2.symm
        rw [bucket_append_other hother, ← h.exact path]
        exact Finmap.lookup_insert_of_ne _ hpath
    · have hlast : [e].filter (isDynamicPattern ·.pattern) = [] := by simp [hdynamic]
      rw [List.filter_append, hlast, List.append_nil, ← h.dynamic]
      rfl

theorem registeredPatterns_addRoute {r : Router H} {e : Route H} :
    (r.addRoute e.method e.pattern e.handler).2.registeredPatterns =
      insert (e.method, e.pattern) r.registeredPatterns := by
  rw [Router.addRoute]
  split_ifs with hknown hdynamic
  · exact (Finset.insert_eq_of_mem hknown).symm
  · rfl
  · rfl

/-- Built from a list of registrations, a table keeps those that were accepted. -/
theorem ofRoutes_keeps (routes : List (Route H)) : (ofRoutes routes).Keeps (registered routes) := by
  have hrun : ∀ (rest done : List (Route H)) (r : Router H), r.Keeps done →
      (rest.foldl (fun r e => (r.addRoute e.method e.pattern e.handler).2) r).Keeps
        (done++accepted r.registeredPatterns rest) := by
    intro rest
    induction rest with
    | nil =>
      intro done r h
      rwa [accepted, List.append_nil]
    | cons e rest ih =>
      intro done r h
      rw [List.foldl_cons, accepted]
      by_cases hknown : (e.method, e.pattern) ∈ r.registeredPatterns
      · have hsame : (r.addRoute e.method e.pattern e.handler).2 = r := by
          rw [Router.addRoute, if_pos hknown]
        rw [hsame, if_pos hknown]
        exact ih done r h
      · have hrest := ih _ _ (h.addRoute hknown)
        rw [registeredPatterns_addRoute, List.append_assoc] at hrest
        rwa [if_neg hknown]
  have hempty : Keeps ({} : Router H) [] := ⟨fun path => Finmap.lookup_empty path, rfl⟩
  exact hrun routes [] {} hempty

section Scanning

variable {request : HttpRequest} {routes : List (Route H)}

theorem scanExact_refused (h : ∀ e ∈ routes, e.method ≠ request.method) (allowed : List Method) :
    scanExact request routes allowed = .kMethodNotAllowed (recordMethods routes allowed) := by
  induction routes generalizing allowed with
  | nil => rfl
  | cons e routes ih =>
    rw [scanExact, if_neg (h e List.mem_cons_self)]
    exact ih (fun e' he' => h e' (List.mem_cons_of_mem e he')) _

theorem scanExact_exists {route : Route H} (hmem : route ∈ routes)
    (hmethod : route.method = request.method) (allowed : List Method) :
    ∃ found, scanExact request routes allowed = .found found request := by
  induction routes generalizing allowed with
  | nil => simp at hmem
  | cons e routes ih =>
    rw [scanExact]
    by_cases he : e.method = request.method
    · exact ⟨e, if_pos he⟩
    · rcases List.mem_cons.mp hmem with rfl | hmem
      · exact absurd hmethod he
      · rw [if_neg he]
        exact ih hmem _

/-- Without a route for the request, the methods of all the routes that match are recorded. -/
theorem scanDynamic_refused
    (h : ∀ e ∈ routes, (e.pathMatches request.path).isSome → e.method ≠ request.method)
    (allowed : List Method) :
    scanDynamic request routes allowed =
      let recorded :=
        recordMethods (routes.filter fun e => (e.pathMatches request.path).isSome) allowed
      if recorded = [] then .kNotFound else .kMethodNotAllowed recorded := by
  induction routes generalizing allowed with
  | nil => rfl
  | cons e routes ih =>
    have hrest := ih fun e' he' => h e' (List.mem_cons_of_mem e he')
    rw [scanDynamic]
    cases hv : e.pathMatches request.path with
    | none =>
      rw [List.filter_cons_of_neg (by simp [hv])]
      exact hrest allowed
    | some values =>
      have hmethod : e.method ≠ request.method := h e List.mem_cons_self (by rw [hv]; rfl)
      rw [List.filter_cons_of_pos (by simp [hv])]
      simp only [if_neg hmethod]
      exact hrest _

/-- The first route that matches and has the method is the one that is found. -/
theorem scanDynamic_first {found : Route H} {routed : HttpRequest} {allowed : List Method}
    (h : scanDynamic request routes allowed = .found found routed) :
    ∃ before after, routes = before++found :: after ∧
      ∀ e ∈ before, (e.pathMatches request.path).isSome → e.method ≠ request.method := by
  induction routes generalizing allowed with
  | nil =>
    rw [scanDynamic] at h
    split_ifs at h
  | cons e routes ih =>
    rw [scanDynamic] at h
    have hskip : ∀ {allowed : List Method},
        ((e.pathMatches request.path).isSome → e.method ≠ request.method) →
        scanDynamic request routes allowed = .found found routed →
        ∃ before after, e :: routes = before++found :: after ∧
          ∀ e' ∈ before, (e'.pathMatches request.path).isSome → e'.method ≠ request.method := by
      intro allowed he hscan
      obtain ⟨before, after, rfl, hbefore⟩ := ih hscan
      refine ⟨e :: before, after, rfl, ?_⟩
      intro e' he'
      rcases List.mem_cons.mp he' with rfl | he'
      · exact he
      · exact hbefore e' he'
    cases hv : e.pathMatches request.path with
    | none =>
      rw [hv] at h
      exact hskip (by simp [hv]) h
    | some values =>
      rw [hv] at h
      by_cases hm : e.method = request.method
      · simp only [if_pos hm] at h
        injection h with hfound
        exact ⟨[], routes, by rw [hfound]; rfl, by simp⟩
      · simp only [if_neg hm] at h
        exact hskip (fun _ => hm) h

end Scanning

/-- What a request gets of a complete table: an exact route of its method, else the first
dynamic one, else the methods of all the routes that match its path. -/
inductive Complete (routes : List (Route H)) (request : HttpRequest) : RouteMatch H → Prop
  | exact {route : Route H} (hmem : route ∈ routes) (hexact : route.IsExact request.path)
      (hmethod : route.method = request.method) : Complete routes request (.found route request)
  | dynamic {before after : List (Route H)} {route : Route H} {values : List Bytes}
      (hroutes : routes = before++route :: after) (hmethod : route.method = request.method)
      (hfits : route.Fits request.path values)
      (hstatic : ∀ e ∈ routes, e.IsExact request.path → e.method ≠ request.method)
      (hfirst : ∀ e ∈ before, e.Matches request.path → e.method ≠ request.method) :
      Complete routes request
        (.found route (injectParameters request route.parameterNames values))
  | notAllowed {allowed : List Method}
      (hmethod : ∀ e ∈ routes, e.Matches request.path → e.method ≠ request.method)
      (hsome : ∃ e ∈ routes, e.Matches request.path) (hnodup : allowed.Nodup)
      (hallowed : ∀ m, m ∈ allowed ↔ ∃ e ∈ routes, e.Matches request.path ∧ e.method = m) :
      Complete routes request (.kMethodNotAllowed allowed)
  | notFound (hnone : ∀ e ∈ routes, ¬ e.Matches request.path) :
      Complete routes request .kNotFound

/-- The exact routes of the path are enough to answer the request: one of them has its
method, or there are none, or no dynamic route adds a method to theirs. -/
def ExactSuffices (routes : List (Route H)) (request : HttpRequest) : Prop :=
  (∃ e ∈ routes, e.IsExact request.path ∧ e.method = request.method) ∨
  (∀ e ∈ routes, ¬ e.IsExact request.path) ∨
  (∀ e ∈ routes, isDynamicPattern e.pattern = true → e.Matches request.path →
    ∃ e' ∈ routes, e'.IsExact request.path ∧ e'.method = e.method)

section Answers

variable {r : Router H} {routes : List (Route H)} {request : HttpRequest}

theorem mem_exact {path : Bytes} {e : Route H} :
    e ∈ routes.filter (·.IsExact path) ↔ e ∈ routes ∧ e.IsExact path := by
  rw [List.mem_filter, decide_eq_true_iff]

theorem Keeps.lookup_none (h : r.Keeps routes)
    (hnone : ∀ e ∈ routes, ¬ e.IsExact request.path) :
    r.exactRoutes.lookup request.path = none := by
  have hfilter : routes.filter (·.IsExact request.path) = [] := by
    apply List.filter_eq_nil_iff.mpr
    intro e he hexact
    exact hnone e he (of_decide_eq_true hexact)
  rw [h.exact, bucket, hfilter]

theorem Keeps.lookup_some (h : r.Keeps routes)
    (hsome : ∃ e ∈ routes, e.IsExact request.path) :
    r.exactRoutes.lookup request.path = some (routes.filter (·.IsExact request.path)) := by
  obtain ⟨e, he, hexact⟩ := hsome
  have hmem : e ∈ routes.filter (·.IsExact request.path) := mem_exact.mpr ⟨he, hexact⟩
  rw [h.exact, bucket]
  cases hfilter : routes.filter (·.IsExact request.path) with
  | nil => simp [hfilter] at hmem
  | cons e' es => rfl

/-- An exact route of the method is found. -/
theorem Keeps.complete_of_exact (h : r.Keeps routes)
    (hexact : ∃ e ∈ routes, e.IsExact request.path ∧ e.method = request.method) :
    Complete routes request (r.route request) := by
  obtain ⟨e, he, hpath, hmethod⟩ := hexact
  have hmem : e ∈ routes.filter (·.IsExact request.path) := mem_exact.mpr ⟨he, hpath⟩
  obtain ⟨found, hfound⟩ := scanExact_exists hmem hmethod []
  obtain ⟨hin, hmethod', -⟩ := scanExact_found hfound
  obtain ⟨hroute, hpath'⟩ := mem_exact.mp hin
  have hanswer : r.route request = .found found request := by
    rw [Router.route, h.lookup_some ⟨e, he, hpath⟩]
    exact hfound
  rw [hanswer]
  exact .exact hroute hpath' hmethod'

/-- With exact routes of other methods only, theirs are the methods that are named. -/
theorem Keeps.route_hidden (h : r.Keeps routes)
    (hsome : ∃ e ∈ routes, e.IsExact request.path)
    (hmethod : ∀ e ∈ routes, e.IsExact request.path → e.method ≠ request.method) :
    r.route request = .kMethodNotAllowed
      (recordMethods (routes.filter (·.IsExact request.path)) []) := by
  have hrefused : ∀ e ∈ routes.filter (·.IsExact request.path), e.method ≠ request.method := by
    intro e he
    obtain ⟨hmem, hexact⟩ := mem_exact.mp he
    exact hmethod e hmem hexact
  rw [Router.route, h.lookup_some hsome]
  exact scanExact_refused hrefused []

theorem mem_matching {e : Route H} (hnone : ∀ e ∈ routes, ¬ e.IsExact request.path) :
    e ∈ (routes.filter (isDynamicPattern ·.pattern)).filter
        (fun e => (e.pathMatches request.path).isSome) ↔
      e ∈ routes ∧ e.Matches request.path := by
  rw [List.mem_filter, List.mem_filter]
  constructor
  · rintro ⟨⟨hmem, hdynamic⟩, hsome⟩
    exact ⟨hmem, (Route.matches_of_dynamic hdynamic).mpr hsome⟩
  · rintro ⟨hmem, hmatches⟩
    rcases hmatches.cases with hexact | hdynamic
    · exact absurd hexact (hnone e hmem)
    · exact ⟨⟨hmem, hdynamic⟩, (Route.matches_of_dynamic hdynamic).mp hmatches⟩

/-- Without a route for the request, the dynamic ones name their methods. -/
theorem Keeps.complete_of_refused (h : r.Keeps routes)
    (hnone : ∀ e ∈ routes, ¬ e.IsExact request.path)
    (hmethod : ∀ e ∈ routes, e.Matches request.path → e.method ≠ request.method) :
    Complete routes request (r.route request) := by
  let matching := (routes.filter (isDynamicPattern ·.pattern)).filter
    (fun e => (e.pathMatches request.path).isSome)
  have hrefused : ∀ e ∈ routes.filter (isDynamicPattern ·.pattern),
      (e.pathMatches request.path).isSome → e.method ≠ request.method := by
    intro e he hsome
    obtain ⟨hmem, hmatches⟩ := (mem_matching hnone).mp (List.mem_filter.mpr ⟨he, hsome⟩)
    exact hmethod e hmem hmatches
  have hallowed : ∀ m, m ∈ recordMethods matching [] ↔
      ∃ e ∈ routes, e.Matches request.path ∧ e.method = m := by
    intro m
    rw [mem_recordMethods]
    constructor
    · rintro (h | ⟨e, he, hm⟩)
      · simp at h
      · obtain ⟨hmem, hmatches⟩ := (mem_matching hnone).mp he
        exact ⟨e, hmem, hmatches, hm⟩
    · rintro ⟨e, hmem, hmatches, hm⟩
      exact .inr ⟨e, (mem_matching hnone).mpr ⟨hmem, hmatches⟩, hm⟩
  have hroute : r.route request = scanDynamic request r.dynamicRoutes [] := by
    rw [Router.route, h.lookup_none hnone]
  rw [hroute, h.dynamic, scanDynamic_refused hrefused]
  by_cases hempty : recordMethods matching [] = []
  · have hnothing : ∀ e ∈ routes, ¬ e.Matches request.path := by
      intro e hmem hmatches
      have hm := (hallowed e.method).mpr ⟨e, hmem, hmatches, rfl⟩
      simp [hempty] at hm
    simp only [matching] at hempty
    simp only [if_pos hempty]
    exact .notFound hnothing
  · obtain ⟨m, hm⟩ := List.exists_mem_of_ne_nil _ hempty
    obtain ⟨e, hmem, hmatches, -⟩ := (hallowed m).mp hm
    simp only [matching] at hempty
    simp only [if_neg hempty]
    exact .notAllowed hmethod ⟨e, hmem, hmatches⟩ (nodup_recordMethods List.nodup_nil) hallowed

/-- Among the dynamic routes the first one that was registered is found. -/
theorem Keeps.complete_of_dynamic (h : r.Keeps routes)
    (hnone : ∀ e ∈ routes, ¬ e.IsExact request.path)
    (hsome : ∃ e ∈ routes, e.Matches request.path ∧ e.method = request.method) :
    Complete routes request (r.route request) := by
  obtain ⟨e, hmem, hmatches, hmethod⟩ := hsome
  have hroute : r.route request = scanDynamic request r.dynamicRoutes [] := by
    rw [Router.route, h.lookup_none hnone]
  have hdynamic := (mem_matching hnone).mpr ⟨hmem, hmatches⟩
  obtain ⟨hin, hpath⟩ := List.mem_filter.mp hdynamic
  obtain ⟨values, hvalues⟩ := Option.isSome_iff_exists.mp hpath
  obtain ⟨found, routed, hscan⟩ :=
    scanDynamic_exists [] hin hmethod (e.pathMatches_iff.mp hvalues)
  obtain ⟨-, hfmethod, fvalues, hffits, rfl⟩ := scanDynamic_found hscan
  obtain ⟨before, after, hsplit, hbefore⟩ := scanDynamic_first hscan
  -- The routes in front of it in the list of registrations, exact ones included.
  obtain ⟨front, back, hroutes, hfront, hback⟩ := List.filter_eq_append_iff.mp hsplit
  obtain ⟨skipped, rest, hback', hskipped, hfdynamic, hrest⟩ := List.filter_eq_cons_iff.mp hback
  have hall : routes = (front++skipped)++found :: rest := by
    rw [hroutes, hback', List.append_assoc]
  have hfirst : ∀ e' ∈ front++skipped, e'.Matches request.path → e'.method ≠ request.method := by
    intro e' he' hmatches'
    have hmem' : e' ∈ routes := hall ▸ List.mem_append_left _ he'
    rcases hmatches'.cases with hexact | hd
    · exact absurd hexact (hnone e' hmem')
    · rcases List.mem_append.mp he' with hf | hs
      · have hb : e' ∈ before := hfront ▸ List.mem_filter.mpr ⟨hf, hd⟩
        exact hbefore e' hb ((Route.matches_of_dynamic hd).mp hmatches')
      · exact absurd hd (hskipped e' hs)
  rw [hroute, h.dynamic, hscan]
  exact .dynamic hall hfmethod hffits (fun e' he' hexact => absurd hexact (hnone e' he')) hfirst

/-- A table answers as a complete one exactly where the exact routes suffice. -/
theorem Keeps.complete_iff (h : r.Keeps routes) :
    Complete routes request (r.route request) ↔ ExactSuffices routes request := by
  by_cases hsome : ∃ e ∈ routes, e.IsExact request.path
  · by_cases hmethod : ∃ e ∈ routes, e.IsExact request.path ∧ e.method = request.method
    · exact iff_of_true (h.complete_of_exact hmethod) (.inl hmethod)
    · have hother : ∀ e ∈ routes, e.IsExact request.path → e.method ≠ request.method :=
        fun e he hexact hm => hmethod ⟨e, he, hexact, hm⟩
      have hnamed : ∀ m, m ∈ recordMethods (routes.filter (·.IsExact request.path)) [] ↔
          ∃ e ∈ routes, e.IsExact request.path ∧ e.method = m := by
        intro m
        simp [mem_recordMethods, and_assoc]
      rw [h.route_hidden hsome hother]
      constructor
      · intro hcomplete
        cases hcomplete with
        | notAllowed _ _ _ hallowed =>
          refine .inr (.inr fun e he _ hmatches => ?_)
          exact (hnamed e.method).mp ((hallowed e.method).mpr ⟨e, he, hmatches, rfl⟩)
      · rintro (hsuffices | hsuffices | hsuffices)
        · exact absurd hsuffices hmethod
        · obtain ⟨e, he, hexact⟩ := hsome
          exact absurd hexact (hsuffices e he)
        · -- Every route that matches has the method of an exact one.
          have hcovered : ∀ e ∈ routes, e.Matches request.path →
              ∃ e' ∈ routes, e'.IsExact request.path ∧ e'.method = e.method := by
            intro e he hmatches
            rcases hmatches.cases with hexact | hdynamic
            · exact ⟨e, he, hexact, rfl⟩
            · exact hsuffices e he hdynamic hmatches
          obtain ⟨e, he, hexact⟩ := hsome
          refine .notAllowed ?_ ⟨e, he, hexact.matches⟩ (nodup_recordMethods List.nodup_nil) ?_
          · intro e' he' hmatches hm
            obtain ⟨e'', he'', hexact'', hm''⟩ := hcovered e' he' hmatches
            exact hother e'' he'' hexact'' (hm''.trans hm)
          · intro m
            rw [hnamed]
            constructor
            · rintro ⟨e', he', hexact', hm⟩
              exact ⟨e', he', hexact'.matches, hm⟩
            · rintro ⟨e', he', hmatches, hm⟩
              obtain ⟨e'', he'', hexact'', hm''⟩ := hcovered e' he' hmatches
              exact ⟨e'', he'', hexact'', hm''.trans hm⟩
  · have hnone : ∀ e ∈ routes, ¬ e.IsExact request.path :=
      fun e he hexact => hsome ⟨e, he, hexact⟩
    refine iff_of_true ?_ (.inr (.inl hnone))
    by_cases hfits : ∃ e ∈ routes, e.Matches request.path ∧ e.method = request.method
    · exact h.complete_of_dynamic hnone hfits
    · exact h.complete_of_refused hnone fun e he hmatches hm => hfits ⟨e, he, hmatches, hm⟩

end Answers

/-- For any registrations and any request: what is invoked or refused is what the
registered routes say, exactly where the exact routes of the path suffice. -/
theorem ofRoutes_complete_iff (routes : List (Route H)) (request : HttpRequest) :
    Complete (registered routes) request ((ofRoutes routes).route request) ↔
      ExactSuffices (registered routes) request :=
  (ofRoutes_keeps routes).complete_iff

/-- A scene to create under a fixed name, and any scene to delete. -/
def hiddenRoutes : List (Route Unit) :=
  [⟨.kGet, ascii "/api/scenes/new", ()⟩, ⟨.kDelete, ascii "/api/scenes/:id", ()⟩]

def hiddenRequest : HttpRequest := { method := .kDelete, path := ascii "/api/scenes/new" }

/-- The route for the request is registered, matches, and is not asked. -/
theorem hidden_not_complete :
    (ofRoutes hiddenRoutes).route hiddenRequest = .kMethodNotAllowed [.kGet] ∧
      (∃ e ∈ registered hiddenRoutes, e.Matches hiddenRequest.path ∧
        e.method = hiddenRequest.method) ∧
      ¬ Complete (registered hiddenRoutes) hiddenRequest
        ((ofRoutes hiddenRoutes).route hiddenRequest) := by
  have hroute : (ofRoutes hiddenRoutes).route hiddenRequest = .kMethodNotAllowed [.kGet] := rfl
  have hmatches : (⟨.kDelete, ascii "/api/scenes/:id", ()⟩ : Route Unit).Matches
      hiddenRequest.path := by
    rw [Route.matches_of_dynamic (by decide)]
    decide
  have hmem : (⟨.kDelete, ascii "/api/scenes/:id", ()⟩ : Route Unit) ∈ registered hiddenRoutes :=
    .tail _ (.head _)
  refine ⟨hroute, ⟨_, hmem, hmatches, rfl⟩, ?_⟩
  rw [hroute]
  intro hcomplete
  cases hcomplete with
  | notAllowed hmethod _ _ _ => exact hmethod _ hmem hmatches rfl

end Router

end JingjieAR
