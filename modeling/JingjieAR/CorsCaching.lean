import JingjieAR.CorsGrants

/-! Two requests that differ in their origins, and a cache between the server and both: which
answers it must not mix up, and which of them say so. -/
namespace JingjieAR.CorsMiddleware

/-- The requests have all but the header `Origin` in common. -/
structure SameButOrigin (r r' : HttpRequest) : Prop where
  members : { r' with headers := r.headers } = r
  headers : ∀ name, lowerCase name ≠ ascii "origin" → r'.getHeader name = r.getHeader name

/-- A status and headers that nobody can tell apart. -/
def SameResponse (a b : HttpResponse) : Prop :=
  a.statusCode = b.statusCode ∧ ∀ name, a.headers.find name = b.headers.find name

/-- A cache that obeys `Vary` never takes one of the answers for the other. -/
def CacheSafe (config : CorsConfig) (r r' : HttpRequest) (initial handled : HttpResponse) : Prop :=
  ¬ SameResponse (answer config r initial handled) (answer config r' initial handled) →
    listsOrigin (answer config r initial handled) = true ∧
      listsOrigin (answer config r' initial handled) = true

/-- The answer has the origin in its `Vary`, from the handler or for an echo. -/
def Marked (config : CorsConfig) (request : HttpRequest) (initial handled : HttpResponse) : Prop :=
  listsOrigin (base config request initial handled) = true ∨
    granted config request = true ∧ wildcard config = false

/-- The second request gets no grant, the first none either or `*`, and the handler has made
the difference good. -/
def Coincides (config : CorsConfig) (r r' : HttpRequest) (initial handled : HttpResponse) : Prop :=
  granted config r' = false ∧
    (treatment config r = treatment config r' ∧ granted config r = true ∧
        wildcard config = true ∧
        (base config r initial handled).headers.find (ascii "Access-Control-Allow-Origin") =
          some (ascii "*") ∨
      treatment config r = .refused ∧ treatment config r' = .passed ∧
        (granted config r = true → wildcard config = true) ∧
        handled.statusCode = .k403Forbidden ∧
        ∀ name, handled.headers.find name =
          if granted config r = true ∧ ascii "Access-Control-Allow-Origin" = name then
            some (ascii "*")
          else initial.headers.find name)

/-- Both requests are treated alike, or both answers are marked, or they happen to agree. -/
def SharedSafely (config : CorsConfig) (r r' : HttpRequest) (initial handled : HttpResponse) :
    Prop :=
  treatment config r = treatment config r' ∧ granted config r = granted config r' ∨
    Marked config r initial handled ∧ Marked config r' initial handled ∨
    Coincides config r r' initial handled ∨ Coincides config r' r initial handled

variable {config : CorsConfig} {r r' request : HttpRequest} {initial handled : HttpResponse}

theorem SameResponse.refl (a : HttpResponse) : SameResponse a a := ⟨rfl, fun _ => rfl⟩

theorem SameResponse.symm {a b : HttpResponse} (h : SameResponse a b) : SameResponse b a :=
  ⟨h.1.symm, fun name => (h.2 name).symm⟩

theorem listsOrigin_congr {a b : HttpResponse} (h : SameResponse a b) :
    listsOrigin a = listsOrigin b := by
  have hvary : a.header (ascii "Vary") = b.header (ascii "Vary") :=
    congrArg (Option.getD · []) (h.2 (ascii "Vary"))
  rw [listsOrigin, varyMembers, hvary]
  rfl

/-- The headers other than `Origin` decide the rest of the treatment. -/
theorem SameButOrigin.checks (h : SameButOrigin r r') :
    r'.method = r.method ∧
    r'.getHeader (ascii "Access-Control-Request-Method") =
      r.getHeader (ascii "Access-Control-Request-Method") ∧
    r'.getHeader (ascii "Access-Control-Request-Headers") =
      r.getHeader (ascii "Access-Control-Request-Headers") := by
  have hmethod := congrArg HttpRequest.method h.members
  exact ⟨hmethod, h.headers _ (by decide), h.headers _ (by decide)⟩

/-- Two origins that are allowed are treated alike. -/
theorem SameButOrigin.treatment_eq (h : SameButOrigin r r') (hr : granted config r = true)
    (hr' : granted config r' = true) : treatment config r = treatment config r' := by
  obtain ⟨hmethod, hrequested, hheaders⟩ := h.checks
  have horigin := granted_ne_nil hr
  have horigin' := granted_ne_nil hr'
  rw [granted] at hr hr'
  simp only [treatment, hmethod, hrequested, hheaders, horigin, horigin', hr, hr', false_and,
    false_or]

/-- A request without a grant is passed on only if one with a grant is, or is refused because
it names no method. -/
theorem SameButOrigin.treatment_cases (h : SameButOrigin r r') (hr : granted config r = true)
    (hr' : granted config r' = false) :
    treatment config r = treatment config r' ∧ treatment config r ≠ .preflight ∨
      treatment config r = .refused ∧ treatment config r' = .passed ∨
      treatment config r = .preflight ∧ treatment config r' = .refused := by
  obtain ⟨hmethod, hrequested, hheaders⟩ := h.checks
  have horigin := granted_ne_nil hr
  rw [granted] at hr hr'
  simp only [treatment, hmethod, hrequested, hheaders, horigin, hr, hr', false_and, false_or,
    true_or, or_true, if_true]
  split_ifs <;> simp_all

section Answers

theorem listsOrigin_prior_wildcard (hwildcard : wildcard config = true) (request : HttpRequest)
    (initial handled : HttpResponse) :
    listsOrigin (prior config request initial handled) =
      listsOrigin (base config request initial handled) := by
  rw [prior_eq]
  cases htreatment : treatment config request with
  | passed => rw [base_of_passed htreatment]
  | refused =>
    rw [base_of_ne (by simp [htreatment])]
    rfl
  | preflight =>
    rw [base_of_ne (by simp [htreatment])]
    simp only [listsOrigin, varyMembers_addPreflightHeaders]
    rw [varyMembers, header_addCorsHeaders, hwildcard]
    rfl

/-- The answer says so exactly where it is marked. -/
theorem listsOrigin_answer_iff : listsOrigin (answer config request initial handled) = true ↔
    Marked config request initial handled := by
  rw [answer_eq, Marked]
  cases hgranted : granted config request with
  | false =>
    have hlists : listsOrigin (prior config request initial handled) =
        listsOrigin (base config request initial handled) := by
      rw [listsOrigin, varyMembers, HttpResponse.header, headers_prior hgranted]
      rfl
    simp [hlists]
  | true =>
    rw [if_pos rfl]
    cases hwildcard : wildcard config with
    | true =>
      rw [listsOrigin, varyMembers, header_addCorsHeaders, hwildcard, if_pos rfl]
      have hlists := listsOrigin_prior_wildcard hwildcard request initial handled
      rw [listsOrigin, varyMembers] at hlists
      simp [hlists]
    | false => simp [listsOrigin_addCorsHeaders hwildcard]

/-- Requests that are treated alike have one answer, or both answers are marked. -/
theorem answer_of_alike (htreatment : treatment config r = treatment config r')
    (hgranted : granted config r = granted config r') :
    answer config r initial handled = answer config r' initial handled ∨
      Marked config r initial handled ∧ Marked config r' initial handled := by
  by_cases hecho : granted config r = true ∧ wildcard config = false
  · exact .inr ⟨.inr hecho, .inr ⟨hgranted ▸ hecho.1, hecho.2⟩⟩
  · left
    cases hr : granted config r with
    | false =>
      have hr' : granted config r' = false := hgranted ▸ hr
      rw [answer_eq, answer_eq, hr, hr', prior_eq, prior_eq, ← htreatment]
      cases hcase : treatment config r with
      | passed => rfl
      | refused => rfl
      | preflight => exact absurd ((granted_of_preflight hcase).symm.trans hr) (by decide)
    | true =>
      have hwildcard : wildcard config = true := by
        cases hcase : wildcard config with
        | true => rfl
        | false => exact absurd ⟨hr, hcase⟩ hecho
      rw [answer_eq, answer_eq, ← hgranted, hr, if_pos rfl, if_pos rfl,
        addCorsHeaders_wildcard hwildcard, addCorsHeaders_wildcard hwildcard, prior_eq, prior_eq,
        ← htreatment, addCorsHeaders_wildcard hwildcard, addCorsHeaders_wildcard hwildcard]

/-- The answer without a grant. -/
theorem answer_of_not_granted (h : granted config request = false) :
    answer config request initial handled = prior config request initial handled := by
  rw [answer_eq, h, if_neg Bool.false_ne_true]

theorem answer_of_wildcard (h : granted config request = true)
    (hwildcard : wildcard config = true) :
    answer config request initial handled =
      (prior config request initial handled).addHeader (ascii "Access-Control-Allow-Origin")
        (ascii "*") := by
  rw [answer_eq, h, if_pos rfl, addCorsHeaders_wildcard hwildcard]

theorem statusCode_addCorsHeaders (config : CorsConfig) (origin : Bytes)
    (response : HttpResponse) :
    (addCorsHeaders config origin response false).statusCode = response.statusCode := by
  have hvary : ∀ response : HttpResponse, (addVaryOrigin response).statusCode =
      response.statusCode := by
    intro response
    simp only [addVaryOrigin]
    split_ifs
    · rfl
    · rfl
    · rfl
  cases hwildcard : wildcard config with
  | true =>
    rw [addCorsHeaders_wildcard hwildcard]
    rfl
  | false =>
    rw [addCorsHeaders_echo hwildcard]
    split_ifs
    · exact hvary _
    · exact hvary _

theorem statusCode_addPreflightHeaders (config : CorsConfig) (response : HttpResponse) :
    (addPreflightHeaders config response).statusCode = response.statusCode := by
  simp only [addPreflightHeaders]
  split_ifs
  · rfl
  · rfl

theorem statusCode_answer : (answer config request initial handled).statusCode =
    (prior config request initial handled).statusCode := by
  rw [answer_eq]
  split_ifs
  · exact statusCode_addCorsHeaders _ _ _
  · rfl

/-- A header that is there already. -/
theorem sameResponse_addHeader {a : HttpResponse} {name value : Bytes}
    (h : a.headers.find name = some value) : SameResponse (a.addHeader name value) a := by
  refine ⟨rfl, ?_⟩
  intro name'
  by_cases hname : name = name'
  · subst hname
    rw [find_addHeader_self, h]
  · rw [find_addHeader_of_ne _ hname]

theorem prior_of_passed (h : treatment config request = .passed) :
    prior config request initial handled = handled := by
  rw [prior_eq, h]

theorem prior_of_refused (h : treatment config request = .refused) :
    prior config request initial handled = { initial with statusCode := .k403Forbidden } := by
  rw [prior_eq, h]

/-- What `after` gets depends on the treatment alone, but for preflight requests. -/
theorem prior_congr (htreatment : treatment config r = treatment config r')
    (h : treatment config r ≠ .preflight) :
    prior config r initial handled = prior config r' initial handled := by
  rw [prior_eq, prior_eq, ← htreatment]
  cases hcase : treatment config r with
  | passed => rfl
  | refused => rfl
  | preflight => exact absurd hcase h

theorem not_preflight (h : granted config request = false) :
    treatment config request ≠ .preflight :=
  fun hcase => absurd ((granted_of_preflight hcase).symm.trans h) (by decide)

/-- The answer to a refused request whose grant, if any, is `*`. -/
theorem find_answer_of_refused (hrefused : treatment config request = .refused)
    (hwildcard : granted config request = true → wildcard config = true) (name : Bytes) :
    (answer config request initial handled).headers.find name =
      if granted config request = true ∧ ascii "Access-Control-Allow-Origin" = name then
        some (ascii "*")
      else initial.headers.find name := by
  cases hgranted : granted config request with
  | false =>
    rw [answer_of_not_granted hgranted, prior_of_refused hrefused]
    simp
  | true =>
    rw [answer_of_wildcard hgranted (hwildcard hgranted), prior_of_refused hrefused]
    by_cases hname : ascii "Access-Control-Allow-Origin" = name
    · rw [if_pos ⟨rfl, hname⟩, ← hname, find_addHeader_self]
    · rw [if_neg (fun h => hname h.2), find_addHeader_of_ne _ hname]

theorem Coincides.same (h : Coincides config r r' initial handled) :
    SameResponse (answer config r initial handled) (answer config r' initial handled) := by
  obtain ⟨hr', halike | hrefused⟩ := h
  · obtain ⟨htreatment, hr, hwildcard, hstar⟩ := halike
    have hnot : treatment config r ≠ .preflight := htreatment ▸ not_preflight hr'
    have hbase : (prior config r initial handled).headers =
        (base config r initial handled).headers := by
      rw [prior_congr htreatment hnot, headers_prior hr', base, base, htreatment]
    rw [answer_of_not_granted hr', answer_of_wildcard hr hwildcard,
      ← prior_congr htreatment hnot]
    exact sameResponse_addHeader (hbase ▸ hstar)
  · obtain ⟨hcase, hcase', hwildcard, hstatus, hheaders⟩ := hrefused
    constructor
    · rw [statusCode_answer, statusCode_answer, prior_of_refused hcase, prior_of_passed hcase']
      exact hstatus.symm
    · intro name
      rw [find_answer_of_refused hcase hwildcard, answer_of_not_granted hr',
        prior_of_passed hcase']
      exact (hheaders name).symm

/-- Where neither answer has a grant that names the origin, a refused request and one that is
passed on have one answer only by what the handler does. -/
theorem coincides_of_same (hcase : treatment config r = .refused)
    (hcase' : treatment config r' = .passed) (hr' : granted config r' = false)
    (hwildcard : granted config r = true → wildcard config = true)
    (h : SameResponse (answer config r initial handled) (answer config r' initial handled)) :
    Coincides config r r' initial handled := by
  have hanswer' : answer config r' initial handled = handled := by
    rw [answer_of_not_granted hr', prior_of_passed hcase']
  refine ⟨hr', .inr ⟨hcase, hcase', hwildcard, ?_, ?_⟩⟩
  · have hstatus := h.1
    rw [statusCode_answer, prior_of_refused hcase, hanswer'] at hstatus
    exact hstatus.symm
  · intro name
    rw [← find_answer_of_refused hcase hwildcard, h.2 name, hanswer']

/-- Without any grant requests are passed on or refused. -/
theorem shared_of_none (hr : granted config r = false) (hr' : granted config r' = false)
    (h : SameResponse (answer config r initial handled) (answer config r' initial handled)) :
    SharedSafely config r r' initial handled := by
  have hnone : ∀ {request}, granted config request = false →
      granted config request = true → wildcard config = true :=
    fun hfalse htrue => absurd (hfalse.symm.trans htrue) (by decide)
  cases hcase : treatment config r with
  | preflight => exact absurd hcase (not_preflight hr)
  | passed =>
    cases hcase' : treatment config r' with
    | preflight => exact absurd hcase' (not_preflight hr')
    | passed => exact .inl ⟨hcase.trans hcase'.symm, hr.trans hr'.symm⟩
    | refused => exact .inr (.inr (.inr (coincides_of_same hcase' hcase hr (hnone hr') h.symm)))
  | refused =>
    cases hcase' : treatment config r' with
    | preflight => exact absurd hcase' (not_preflight hr')
    | passed => exact .inr (.inr (.inl (coincides_of_same hcase hcase' hr' (hnone hr) h)))
    | refused => exact .inl ⟨hcase.trans hcase'.symm, hr.trans hr'.symm⟩

/-- With a grant for one of the requests. -/
theorem shared_of_one (hsame : SameButOrigin r r') (hr : granted config r = true)
    (hr' : granted config r' = false)
    (h : SameResponse (answer config r initial handled) (answer config r' initial handled)) :
    Marked config r initial handled ∧ Marked config r' initial handled ∨
      Coincides config r r' initial handled := by
  cases hwildcard : wildcard config with
  | false =>
    -- The echo is marked, and so is an answer that cannot be told from it.
    have hmarked : Marked config r initial handled := .inr ⟨hr, hwildcard⟩
    have hlists := listsOrigin_congr h
    rw [listsOrigin_answer_iff.mpr hmarked] at hlists
    exact .inl ⟨hmarked, listsOrigin_answer_iff.mp hlists.symm⟩
  | true =>
    right
    rcases hsame.treatment_cases hr hr' with halike | hrefused | hpreflight
    · obtain ⟨htreatment, hnot⟩ := halike
      have hstar := h.2 (ascii "Access-Control-Allow-Origin")
      rw [answer_of_wildcard hr hwildcard, find_addHeader_self, answer_of_not_granted hr',
        headers_prior hr'] at hstar
      refine ⟨hr', .inl ⟨htreatment, hr, hwildcard, ?_⟩⟩
      rw [hstar, base, base, htreatment]
    · exact coincides_of_same hrefused.1 hrefused.2 hr' (fun _ => hwildcard) h
    · have hstatus := h.1
      rw [statusCode_answer, statusCode_answer, prior_of_refused hpreflight.2, prior_eq,
        hpreflight.1] at hstatus
      have hno : (addPreflightHeaders config (addCorsHeaders config
          (r.getHeader (ascii "Origin")) { initial with statusCode := .k204NoContent }
            false)).statusCode = .k204NoContent := by
        rw [statusCode_addPreflightHeaders, statusCode_addCorsHeaders]
      have hne : HttpStatusCode.k204NoContent ≠ .k403Forbidden := by decide
      exact absurd (hno.symm.trans hstatus) hne

end Answers

theorem SameButOrigin.symm (h : SameButOrigin r r') : SameButOrigin r' r := by
  obtain ⟨hmembers, hheaders⟩ := h
  refine ⟨?_, fun name hname => (hheaders name hname).symm⟩
  rw [← hmembers]

theorem SharedSafely.symm (h : SharedSafely config r r' initial handled) :
    SharedSafely config r' r initial handled := by
  rcases h with halike | hmarked | hone | hother
  · exact .inl ⟨halike.1.symm, halike.2.symm⟩
  · exact .inr (.inl hmarked.symm)
  · exact .inr (.inr (.inr hone))
  · exact .inr (.inr (.inl hother))

theorem sharedSafely_of_same (hsame : SameButOrigin r r')
    (h : SameResponse (answer config r initial handled) (answer config r' initial handled)) :
    SharedSafely config r r' initial handled := by
  cases hr : granted config r with
  | true =>
    cases hr' : granted config r' with
    | true => exact .inl ⟨hsame.treatment_eq hr hr', hr.trans hr'.symm⟩
    | false => exact .inr ((shared_of_one hsame hr hr' h).imp_right .inl)
  | false =>
    cases hr' : granted config r' with
    | true =>
      have hone := shared_of_one hsame.symm hr' hr h.symm
      exact SharedSafely.symm (.inr (hone.imp_right .inl))
    | false => exact shared_of_none hr hr' h

/-- The answers to two requests that differ in their origins are safe in a shared cache exactly
where both requests are treated alike, both answers are marked, or they happen to agree. -/
theorem cacheSafe_iff {config : CorsConfig} {r r' : HttpRequest} {initial handled : HttpResponse}
    (hsame : SameButOrigin r r') :
    CacheSafe config r r' initial handled ↔ SharedSafely config r r' initial handled := by
  constructor
  · intro h
    by_cases hresponse :
        SameResponse (answer config r initial handled) (answer config r' initial handled)
    · exact sharedSafely_of_same hsame hresponse
    · obtain ⟨hlists, hlists'⟩ := h hresponse
      exact .inr (.inl ⟨listsOrigin_answer_iff.mp hlists, listsOrigin_answer_iff.mp hlists'⟩)
  · intro h hdiffer
    have hmarks : Marked config r initial handled ∧ Marked config r' initial handled := by
      rcases h with halike | hmarked | hone | hother
      · rcases answer_of_alike halike.1 halike.2 with heq | hmarked
        · exact absurd (heq ▸ SameResponse.refl _) hdiffer
        · exact hmarked
      · exact hmarked
      · exact absurd hone.same hdiffer
      · exact absurd hother.same.symm hdiffer
    exact ⟨listsOrigin_answer_iff.mpr hmarks.1, listsOrigin_answer_iff.mpr hmarks.2⟩

theorem getHeader_addHeader_of_ne (request : HttpRequest) {key name : Bytes} (value : Bytes)
    (h : lowerCase name ≠ lowerCase key) :
    (request.addHeader key value).getHeader name = request.getHeader name := by
  rw [HttpRequest.getHeader, HttpRequest.addHeader_headers, Finmap.lookup_insert_of_ne _ h]
  rfl

theorem sameButOrigin_addHeader (request : HttpRequest) (origin origin' : Bytes) :
    SameButOrigin (request.addHeader (ascii "Origin") origin)
      (request.addHeader (ascii "Origin") origin') := by
  refine ⟨rfl, ?_⟩
  intro name hname
  have hne : lowerCase name ≠ lowerCase (ascii "Origin") := hname
  rw [getHeader_addHeader_of_ne _ _ hne, getHeader_addHeader_of_ne _ _ hne]

theorem sameButOrigin_absent (request : HttpRequest) (origin : Bytes) :
    SameButOrigin (request.addHeader (ascii "Origin") origin) request := by
  refine ⟨rfl, ?_⟩
  intro name hname
  exact (getHeader_addHeader_of_ne request origin hname).symm

/-- One of two origins is configured. -/
def oneOrigin : CorsConfig where
  allowedOrigins := [ascii "https://a.example"]

/-- Two configured origins, of which each gets an echo of its own. -/
theorem cacheSafe_echoes :
    CacheSafe { allowedOrigins := [ascii "https://a.example", ascii "https://b.example"] }
      (({ method := .kGet } : HttpRequest).addHeader (ascii "Origin") (ascii "https://a.example"))
      (({ method := .kGet } : HttpRequest).addHeader (ascii "Origin") (ascii "https://b.example"))
      { closeConnection := false } { closeConnection := false } :=
  (cacheSafe_iff (sameButOrigin_addHeader _ _ _)).mpr (.inl ⟨by decide, by decide⟩)

/-- A request from a page of the configured origin. -/
def pageRequest : HttpRequest :=
  ({ method := .kGet } : HttpRequest).addHeader (ascii "Origin") (ascii "https://a.example")

/-- The answer to a request without an origin has no `Vary`: a cache may give it to a page of
the configured origin, which then cannot read it. -/
theorem not_cacheSafe_absent :
    SameButOrigin pageRequest { method := .kGet } ∧
      ¬ CacheSafe oneOrigin pageRequest { method := .kGet } { closeConnection := false }
        { closeConnection := false } := by
  refine ⟨sameButOrigin_absent _ _, ?_⟩
  intro h
  have hdiffer : ¬ SameResponse
      (answer oneOrigin pageRequest { closeConnection := false } { closeConnection := false })
      (answer oneOrigin { method := .kGet } { closeConnection := false }
        { closeConnection := false }) := by
    intro hsame
    exact absurd (hsame.2 (ascii "Access-Control-Allow-Origin")) (by decide)
  exact absurd (h hdiffer).2 (by decide)

end JingjieAR.CorsMiddleware
