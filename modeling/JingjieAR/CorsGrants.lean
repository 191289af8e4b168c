import JingjieAR.CorsMiddlewareModel
import JingjieAR.DelimitedFields
import JingjieAR.MiddlewarePairing

/-! What the answers to requests from other origins grant: the answer that a request gets
when it has passed through the middleware, header by header. -/
namespace JingjieAR.CorsMiddleware

/-- What `before` does with a request. -/
inductive Treatment
  | passed
  | refused
  | preflight
deriving DecidableEq

section Exchange

variable (config : CorsConfig) (request : HttpRequest)

def treatment : Treatment :=
  if request.method ≠ .kOptions then .passed
  else
    let origin := request.getHeader (ascii "Origin")
    let requestedMethod := request.getHeader (ascii "Access-Control-Request-Method")
    if origin = [] ∧ requestedMethod = [] then .passed
    else if origin = [] ∨ requestedMethod = [] ∨ isOriginAllowed config origin = false ∨
        isMethodAllowed config requestedMethod = false ∨
        areHeadersAllowed config
          (request.getHeader (ascii "Access-Control-Request-Headers")) = false then .refused
    else .preflight

def granted : Bool := isOriginAllowed config (request.getHeader (ascii "Origin"))

def wildcard : Bool :=
  !config.allowCredentials && contains config.allowedOrigins (ascii "*") false

/-- The response without what the middleware does: the handler's where the request goes on,
else the one that earlier middleware has left. -/
def base (initial handled : HttpResponse) : HttpResponse :=
  if treatment config request = .passed then handled else initial

/-- What `after` gets: it is called where `before` has ended the request, too. -/
def prior (initial handled : HttpResponse) : HttpResponse :=
  let result := before config request initial
  if result.2 = true then handled else result.1

/-- The answer, with what the handler would make of the request. -/
def answer (initial handled : HttpResponse) : HttpResponse :=
  after config request (prior config request initial handled)

end Exchange

/-- The members of the header `Vary`. -/
def varyMembers (response : HttpResponse) : List Bytes :=
  splitCommaSeparated (response.header (ascii "Vary"))

def listsOrigin (response : HttpResponse) : Bool :=
  contains (varyMembers response) (ascii "Origin") true

variable {config : CorsConfig} {request : HttpRequest} {response initial handled : HttpResponse}
  {origin : Bytes}

theorem before_eq (config : CorsConfig) (request : HttpRequest) (response : HttpResponse) :
    before config request response =
      match treatment config request with
      | .passed => (response, true)
      | .refused => ({ response with statusCode := .k403Forbidden }, false)
      | .preflight =>
        (addCorsHeaders config (request.getHeader (ascii "Origin"))
          { response with statusCode := .k204NoContent } true, false) := by
  simp only [before, treatment]
  split_ifs
  · rfl
  · rfl
  · rfl
  · rfl

theorem granted_ne_nil (h : granted config request = true) :
    request.getHeader (ascii "Origin") ≠ [] := by
  intro hnil
  rw [granted, isOriginAllowed, if_pos hnil] at h
  contradiction

theorem granted_of_preflight (h : treatment config request = .preflight) :
    granted config request = true := by
  simp only [treatment] at h
  split_ifs at h with hmethod hpassed hrefused
  simp only [not_or, Bool.not_eq_false] at hrefused
  exact hrefused.2.2.1

theorem after_eq (config : CorsConfig) (request : HttpRequest) (response : HttpResponse) :
    after config request response =
      if granted config request = true then
        addCorsHeaders config (request.getHeader (ascii "Origin")) response false
      else response := by
  simp only [after]
  by_cases hgranted : granted config request = true
  · rw [if_pos ⟨granted_ne_nil hgranted, hgranted⟩, if_pos hgranted]
  · rw [if_neg (fun h => hgranted h.2), if_neg hgranted]

section Members

end Members

section Headers

variable {name : Bytes}

theorem find_addHeader_self (response : HttpResponse) (key value : Bytes) :
    (response.addHeader key value).headers.find key = some value :=
  response.headers.find_insert_self key value

theorem find_addHeader_of_ne (response : HttpResponse) {key : Bytes} (h : key ≠ name)
    (value : Bytes) :
    (response.addHeader key value).headers.find name = response.headers.find name :=
  response.headers.find_insert_of_ne h value

/-- The value of `Vary` with the origin among its members. -/
def withOrigin (vary : Bytes) : Bytes :=
  if vary = [] then ascii "Origin"
  else if !contains (splitCommaSeparated vary) (ascii "Origin") true then
    vary++ascii ", Origin"
  else vary

theorem header_addVaryOrigin (response : HttpResponse) :
    (addVaryOrigin response).header (ascii "Vary") =
      withOrigin (response.header (ascii "Vary")) := by
  simp only [addVaryOrigin, withOrigin]
  split_ifs
  · exact congrArg (Option.getD · []) (find_addHeader_self response _ _)
  · exact congrArg (Option.getD · []) (find_addHeader_self response _ _)
  · rfl

theorem splitCommaSeparated_withOrigin (vary : Bytes) :
    splitCommaSeparated (vary++ascii ", Origin") =
      splitCommaSeparated vary++[ascii "Origin"] := by
  have hcomma : ascii ", Origin" = comma :: ascii " Origin" := by decide
  have horigin : splitCommaSeparated (ascii " Origin") = [ascii "Origin"] := by decide
  rw [← horigin]
  simp only [splitCommaSeparated, hcomma, List.splitOn_append_cons_self, List.map_append,
    List.filter_append]

theorem contains_iff {values : List Bytes} {value : Bytes} {caseInsensitive : Bool} :
    contains values value caseInsensitive = true ↔ ∃ candidate ∈ values,
      (if caseInsensitive then lowerCase candidate else candidate) =
        if caseInsensitive then lowerCase value else value := by
  simp [contains]

/-- The origin is listed then, and nothing that was listed goes. -/
theorem members_withOrigin (vary : Bytes) :
    contains (splitCommaSeparated (withOrigin vary)) (ascii "Origin") true = true ∧
      ∀ member ∈ splitCommaSeparated vary, member ∈ splitCommaSeparated (withOrigin vary) := by
  rw [withOrigin]
  split_ifs with hempty hmissing
  · subst hempty
    exact ⟨by decide, by decide⟩
  · rw [splitCommaSeparated_withOrigin]
    constructor
    · exact contains_iff.mpr ⟨_, List.mem_append_right _ List.mem_cons_self, rfl⟩
    · intro member hmember
      exact List.mem_append_left _ hmember
  · exact ⟨by simpa using hmissing, fun _ hmember => hmember⟩

theorem find_addPreflightHeaders (config : CorsConfig) (response : HttpResponse)
    (hmethods : ascii "Access-Control-Allow-Methods" ≠ name)
    (hheaders : ascii "Access-Control-Allow-Headers" ≠ name)
    (hage : ascii "Access-Control-Max-Age" ≠ name) :
    (addPreflightHeaders config response).headers.find name = response.headers.find name := by
  simp only [addPreflightHeaders]
  split_ifs
  · rw [find_addHeader_of_ne _ hage, find_addHeader_of_ne _ hheaders,
      find_addHeader_of_ne _ hmethods]
  · rw [find_addHeader_of_ne _ hage, find_addHeader_of_ne _ hmethods]

theorem credentials_of_wildcard (h : wildcard config = true) :
    config.allowCredentials = false ∧
      contains config.allowedOrigins (ascii "*") false = true := by
  simpa [wildcard] using h

theorem addCorsHeaders_wildcard (h : wildcard config = true) (origin : Bytes)
    (response : HttpResponse) : addCorsHeaders config origin response false =
      response.addHeader (ascii "Access-Control-Allow-Origin") (ascii "*") := by
  obtain ⟨hcredentials, hstar⟩ := credentials_of_wildcard h
  simp [addCorsHeaders, hcredentials, hstar]

/-- The response to an origin that is named in it. -/
def echoed (origin : Bytes) (response : HttpResponse) : HttpResponse :=
  addVaryOrigin (response.addHeader (ascii "Access-Control-Allow-Origin") origin)

theorem addCorsHeaders_echo (h : wildcard config = false) (origin : Bytes)
    (response : HttpResponse) : addCorsHeaders config origin response false =
      if config.allowCredentials then
        (echoed origin response).addHeader (ascii "Access-Control-Allow-Credentials")
          (ascii "true")
      else echoed origin response := by
  have hfalse : (!config.allowCredentials && contains config.allowedOrigins (ascii "*") false) =
      false := h
  simp [addCorsHeaders, hfalse, echoed]

theorem header_echoed (origin : Bytes) (response : HttpResponse) :
    (echoed origin response).header (ascii "Vary") =
      withOrigin (response.header (ascii "Vary")) := by
  have hbefore := find_addHeader_of_ne response
    (show ascii "Access-Control-Allow-Origin" ≠ ascii "Vary" by decide) origin
  rw [echoed, header_addVaryOrigin]
  exact congrArg (fun vary => withOrigin (vary.getD [])) hbefore

theorem header_addCorsHeaders (config : CorsConfig) (origin : Bytes) (response : HttpResponse) :
    (addCorsHeaders config origin response false).header (ascii "Vary") =
      if wildcard config = true then response.header (ascii "Vary")
      else withOrigin (response.header (ascii "Vary")) := by
  cases hwildcard : wildcard config with
  | true =>
    rw [addCorsHeaders_wildcard hwildcard]
    exact congrArg (Option.getD · []) (find_addHeader_of_ne response (by decide) _)
  | false =>
    rw [addCorsHeaders_echo hwildcard, if_neg Bool.false_ne_true]
    split_ifs
    · rw [← header_echoed]
      exact congrArg (Option.getD · []) (find_addHeader_of_ne _ (by decide) _)
    · exact header_echoed origin response

end Headers

section Answers

/-- What `after` gets, by what `before` has done. -/
theorem prior_eq (config : CorsConfig) (request : HttpRequest) (initial handled : HttpResponse) :
    prior config request initial handled =
      match treatment config request with
      | .passed => handled
      | .refused => { initial with statusCode := .k403Forbidden }
      | .preflight =>
        addPreflightHeaders config (addCorsHeaders config (request.getHeader (ascii "Origin"))
          { initial with statusCode := .k204NoContent } false) := by
  rw [prior, before_eq]
  cases treatment config request with
  | passed => rfl
  | refused => rfl
  | preflight => rfl

theorem base_of_passed (h : treatment config request = .passed) :
    base config request initial handled = handled := if_pos h

theorem base_of_ne (h : treatment config request ≠ .passed) :
    base config request initial handled = initial := if_neg h

/-- Without a grant the middleware adds no header. -/
theorem headers_prior (h : granted config request = false) :
    (prior config request initial handled).headers =
      (base config request initial handled).headers := by
  rw [prior_eq]
  cases htreatment : treatment config request with
  | passed => rw [base_of_passed htreatment]
  | refused => rw [base_of_ne (by simp [htreatment])]
  | preflight =>
    have hgranted := granted_of_preflight htreatment
    exact absurd (hgranted.symm.trans h) (by decide)

theorem answer_eq (config : CorsConfig) (request : HttpRequest) (initial handled : HttpResponse) :
    answer config request initial handled =
      if granted config request = true then
        addCorsHeaders config (request.getHeader (ascii "Origin"))
          (prior config request initial handled) false
      else prior config request initial handled :=
  after_eq config request _

theorem listsOrigin_addCorsHeaders (h : wildcard config = false) (origin : Bytes)
    (response : HttpResponse) :
    listsOrigin (addCorsHeaders config origin response false) = true := by
  rw [listsOrigin, varyMembers, header_addCorsHeaders, h]
  exact (members_withOrigin _).1

theorem varyMembers_addPreflightHeaders (config : CorsConfig) (response : HttpResponse) :
    varyMembers (addPreflightHeaders config response) = varyMembers response := by
  have hfind := find_addPreflightHeaders config response
    (show ascii "Access-Control-Allow-Methods" ≠ ascii "Vary" by decide) (by decide) (by decide)
  exact congrArg (fun vary => splitCommaSeparated (vary.getD [])) hfind

end Answers

section Dispatch

open Throwing DispatchM

/-- The two phases of the chain with this middleware alone, around a handler. -/
def dispatched (config : CorsConfig) (label : ℕ) (handled : HttpResponse) : DispatchM Unit := do
  let continueRequest ← processBefore [middleware config label]
  if continueRequest then modify (fun s => { s with response := handled })
  let s ← get
  processAfter s.request s.executed

theorem exec_processBefore (config : CorsConfig) (label : ℕ) (s : DispatchState) :
    exec (processBefore [middleware config label]) s =
      (.ok (before config s.request s.response).2,
        { noteBefore (middleware config label) s with
          executed := s.executed++[middleware config label] }) := by
  have hcall := exec_callBefore (middleware config label) s
  rw [processBefore, exec_bind_ok hcall, exec_bind_ok (exec_modify _ _)]
  cases hgo : (before config s.request s.response).2 with
  | true => rfl
  | false => rfl

theorem exec_processAfter (config : CorsConfig) (label : ℕ) (request : HttpRequest)
    (s : DispatchState) : exec (processAfter request [middleware config label]) s =
      (.ok (), noteAfter request (middleware config label) s) := by
  have hloop := exec_afterLoop_cons request (middleware config label) [] none s
  rw [processAfter, List.reverse_singleton, exec_bind_ok hloop]
  rfl

/-- The chain calls `after` whether `before` has ended the request or not, so its response is
the answer. -/
theorem dispatched_answer (config : CorsConfig) (label : ℕ) (handled : HttpResponse)
    (s : DispatchState) (hs : s.executed = []) :
    (exec (dispatched config label handled) s).2.response =
      answer config s.request s.response handled := by
  rw [dispatched, exec_bind_ok (exec_processBefore config label s), answer, prior, hs]
  cases hgo : (before config s.request s.response).2 with
  | true =>
    exact congrArg (fun result => result.2.response)
      (exec_processAfter config label s.request _)
  | false =>
    exact congrArg (fun result => result.2.response)
      (exec_processAfter config label s.request _)

end Dispatch

end JingjieAR.CorsMiddleware
