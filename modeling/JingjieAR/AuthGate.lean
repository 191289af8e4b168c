import JingjieAR.ARServerRoutes
import JingjieAR.AuthMiddlewareModel
import JingjieAR.HttpContextRoundTrip

/-! The authentication middleware against the route table: for every request that the
table leads to a handler, the middleware asks for exactly the credential of that handler. -/
namespace JingjieAR

inductive Credential
  | nothing
  | bearer
  | visitor
deriving DecidableEq

/-- What a handler of the application demands of a request. -/
def Endpoint.credential : Endpoint → Credential
  | .authLogout | .artworkLike | .artworkUnlike | .artworkComment => .bearer
  | .visitorHeartbeat | .visitorExit => .visitor
  | _ => .nothing

def Presents (request : HttpRequest) : Credential → Prop
  | .nothing => True
  | .bearer => ∃ token, token ≠ [] ∧ request.getHeader (ascii "Authorization") =
      ascii "Bearer "++token
  | .visitor => request.getHeader (ascii "X-Visitor-Token") ≠ []

theorem startsWith_append {text start : Bytes} (h : start.length ≤ text.length) (rest : Bytes) :
    startsWith (text++rest) start = startsWith text start := by
  rw [startsWith, startsWith, List.take_append_of_le_length h]

/-- On a path with an identifier, the test for a suffix is equality. -/
theorem artworkRoute_append {id suffix : Bytes} (hne : id ≠ []) (hslash : slash ∉ id)
    (hsuffix : AtBoundary slash suffix) (wanted : Bytes) :
    artworkRoute (ascii "/api/artworks/"++(id++suffix)) wanted = decide (suffix = wanted) := by
  have hstart : startsWith (ascii "/api/artworks/"++(id++suffix)) (ascii "/api/artworks/") = true :=
    decide_eq_true List.take_left
  simp only [artworkRoute, hstart, List.drop_left, Bool.not_true, Bool.false_eq_true, if_false]
  -- The first `/` behind the id is where the suffix begins.
  cases suffix with
  | nil =>
    rw [List.append_nil, findByte_eq_none hslash]
    simp [eq_comm]
  | cons c suffix =>
    obtain rfl : c = slash := hsuffix c rfl
    have hlength : id.length ≠ 0 := by simpa using hne
    rw [findByte_append_cons suffix hslash]
    simp only [List.drop_left, ne_eq, hlength, not_false_eq_true, decide_true, Bool.true_and]
    by_cases hw : wanted = []
    · simp [hw]
    · simp [hw]

namespace AuthMiddleware

variable {request : HttpRequest} {response : HttpResponse}

theorem withToken_same (request : HttpRequest) :
    (withToken request).path = request.path ∧ (withToken request).method = request.method ∧
      (withToken request).headers = request.headers := by
  rw [withToken]
  split
  · exact ⟨rfl, rfl, rfl⟩
  · exact ⟨rfl, rfl, rfl⟩

/-- The three ways to be let through. -/
theorem before_eq_true_iff :
    (before request response).2 = true ↔
      isPublicRequest request = true ∨
      (presenceWrite request = true ∧ request.getHeader (ascii "X-Visitor-Token") ≠ []) ∨
      (bearerToken request ≠ [] ∧ userWrite request = true) := by
  obtain ⟨hpath, hmethod, hheaders⟩ := withToken_same request
  have hpublic : isPublicRequest (withToken request) = isPublicRequest request := by
    simp only [isPublicRequest, hpath, hmethod]
  have hpresence : presenceWrite (withToken request) = presenceWrite request := by
    simp only [presenceWrite, hpath]
  have huser : userWrite (withToken request) = userWrite request := by
    simp only [userWrite, hpath, hmethod]
  have hheader : (withToken request).getHeader (ascii "X-Visitor-Token") =
      request.getHeader (ascii "X-Visitor-Token") := by
    simp only [HttpRequest.getHeader, hheaders]
  simp only [before, hpublic, hpresence, huser, hheader]
  split_ifs with h₁ h₂ h₃
  · exact iff_of_true rfl (.inl h₁)
  · exact iff_of_true rfl (.inr (.inl h₂))
  · exact iff_of_true rfl (.inr (.inr h₃))
  · exact iff_of_false (by simp) (not_or.mpr ⟨h₁, not_or.mpr ⟨h₂, h₃⟩⟩)

theorem bearerToken_of_header {token : Bytes} (hne : token ≠ [])
    (h : request.getHeader (ascii "Authorization") = ascii "Bearer "++token) :
    bearerToken request = token := by
  have hlen : (ascii "Bearer "++token).length ≠ 7 := by
    rw [List.length_append, show (ascii "Bearer ").length = 7 from rfl]
    have := List.length_pos_iff.mpr hne
    omega
  have htake : (ascii "Bearer "++token).take 7 = ascii "Bearer " := List.take_left' rfl
  rw [bearerToken, h]
  simp only [htake, hlen, ne_eq, not_true_eq_false, or_self, if_false]
  exact List.drop_left' rfl

theorem bearerToken_ne_nil_iff :
    bearerToken request ≠ [] ↔ Presents request .bearer := by
  constructor
  · intro h
    have hcond : ¬((request.getHeader (ascii "Authorization")).take 7 ≠ ascii "Bearer " ∨
        (request.getHeader (ascii "Authorization")).length = 7) := by
      intro hbad
      rw [bearerToken, if_pos hbad] at h
      exact h rfl
    rw [not_or, not_not] at hcond
    refine ⟨bearerToken request, h, ?_⟩
    rw [bearerToken, if_neg (not_or.mpr ⟨not_not.mpr hcond.1, hcond.2⟩), ← hcond.1,
      List.take_append_drop]
  · intro h
    obtain ⟨token, hne, hheader⟩ := h
    rwa [bearerToken_of_header hne hheader]

/-- The middleware lets a request through with this credential and with no other. -/
def Gate (request : HttpRequest) : Credential → Prop
  | .nothing => isPublicRequest request = true
  | .bearer => isPublicRequest request = false ∧ presenceWrite request = false ∧
      userWrite request = true
  | .visitor => isPublicRequest request = false ∧ presenceWrite request = true ∧
      userWrite request = false

theorem before_iff_of_gate {credential : Credential} (h : Gate request credential) :
    (before request response).2 = true ↔ Presents request credential := by
  rw [before_eq_true_iff]
  cases credential with
  | nothing => exact iff_of_true (.inl h) trivial
  | bearer =>
    obtain ⟨hpublic, hpresence, huser⟩ := h
    simp [hpublic, hpresence, huser, ← bearerToken_ne_nil_iff]
  | visitor =>
    obtain ⟨hpublic, hpresence, huser⟩ := h
    simp [hpublic, hpresence, huser, Presents]

section Artworks

variable {id suffix : Bytes}

/-- A path below `/api/artworks/` is public for `GET` with the right suffix only. -/
theorem artwork_gate (hne : id ≠ []) (hslash : slash ∉ id) (hsuffix : AtBoundary slash suffix)
    (hpath : request.path = ascii "/api/artworks/"++(id++suffix)) :
    isPublicRequest request =
      (request.method = .kGet && (suffix = [] || suffix = ascii "/comments")) ∧
    presenceWrite request = false ∧
    userWrite request =
      ((request.method = .kPost && (suffix = ascii "/likes" || suffix = ascii "/comments")) ||
        (request.method = .kDelete && suffix = ascii "/likes")) := by
  have hroute : ∀ wanted, artworkRoute request.path wanted = decide (suffix = wanted) :=
    fun wanted => hpath ▸ artworkRoute_append hne hslash hsuffix wanted
  have hother : ∀ other : Bytes, other.take 14 ≠ ascii "/api/artworks/" →
      request.path ≠ other := by
    intro other ho
    rw [hpath]
    apply append_ne_of_take
    exact ho
  have hapi : startsWith request.path (ascii "/api/") = true := by
    rw [hpath, startsWith_append (by decide)]
    decide
  have hscenes : startsWith request.path (ascii "/api/scenes/") = false := by
    rw [hpath, startsWith_append (by decide)]
    decide
  refine ⟨?_, ?_, ?_⟩
  · simp only [isPublicRequest, hapi, hroute, hscenes, hother (ascii "/api/auth") (by decide),
      hother (ascii "/api/visitors/session") (by decide), hother (ascii "/api/scenes") (by decide),
      hother (ascii "/api/presence") (by decide),
      hother (ascii "/api/statistics/views") (by decide), Bool.not_true, Bool.false_eq_true,
      if_false, or_self, false_and]
    by_cases hget : request.method = .kGet
    · simp [hget]
    · simp [hget]
  · simp [presenceWrite, hother (ascii "/api/presence/heartbeat") (by decide),
      hother (ascii "/api/presence/exit") (by decide)]
  · simp [userWrite, hroute, hother (ascii "/api/auth/logout") (by decide)]

end Artworks

theorem gate_of_addressed {e : Endpoint} {values : List Bytes} (hmethod : request.method = e.method)
    (h : e.Addressed request.path values) : Gate request e.credential := by
  cases e with
  -- Fixed paths: the tests of the middleware are evaluated.
  | authHandle | visitorBootstrap | visitorPresence | visitorViews | sceneList =>
    obtain ⟨hpath, -⟩ := h
    simp only [Endpoint.credential, Gate, isPublicRequest, hpath, hmethod]
    decide
  | authLogout | visitorHeartbeat | visitorExit =>
    obtain ⟨hpath, -⟩ := h
    simp only [Endpoint.credential, Gate, isPublicRequest, presenceWrite, userWrite, hpath, hmethod]
    decide
  | sceneGet =>
    obtain ⟨id, hne, hslash, hpath, -⟩ := h
    have hapi : startsWith request.path (ascii "/api/") = true := by
      rw [hpath, startsWith_append (by decide)]
      decide
    have hscenes : startsWith request.path (ascii "/api/scenes/") = true := by
      rw [hpath, startsWith_append (by decide)]
      decide
    have hnone : findByte slash (request.path.drop 12) = none := by
      rw [hpath, List.append_nil]
      exact findByte_eq_none hslash
    have hget : request.method = .kGet := hmethod
    simp [Endpoint.credential, Gate, isPublicRequest, hapi, hscenes, hnone, hget]
  | artworkDetail | artworkLike | artworkUnlike | artworkComments | artworkComment =>
    obtain ⟨id, hne, hslash, hpath, -⟩ := h
    obtain ⟨hpublic, hpresence, huser⟩ := artwork_gate hne hslash
      (by first | exact atBoundary_nil | exact atBoundary_cons _) hpath
    simp only [Endpoint.credential, Gate, hpublic, hpresence, huser, hmethod]
    decide

theorem before_request (request : HttpRequest) (response : HttpResponse) :
    (before request response).1.1 = withToken request := by
  simp only [before]
  split_ifs
  · rfl
  · rfl
  · rfl
  · rfl

theorem attribute_withToken {token : Bytes} (hne : token ≠ [])
    (h : request.getHeader (ascii "Authorization") = ascii "Bearer "++token) :
    (withToken request).attribute (ascii "auth.token") = token := by
  rw [withToken, bearerToken_of_header hne h, if_pos hne, HttpRequest.attribute,
    HttpRequest.setAttribute]
  simp only
  rw [Finmap.lookup_insert, Option.getD_some]

/-- Gate and route table agree. A request that the table leads to a handler is let through
exactly if it presents the credential of that handler; a token that it presents is handed
on as it is, and the table still leads to that handler. -/
theorem before_iff_presents {h : Handlers} {request routed : HttpRequest} {route : Route Endpoint}
    (hfound : (arRouter h).route request = .found route routed) (response : HttpResponse) :
    ((before request response).2 = true ↔ Presents request route.handler.credential) ∧
    (∀ token, token ≠ [] →
      request.getHeader (ascii "Authorization") = ascii "Bearer "++token →
      (before request response).1.1.attribute (ascii "auth.token") = token) ∧
    ∃ routed', (arRouter h).route (before request response).1.1 = .found route routed' := by
  obtain ⟨hmethod, values, haddressed, -⟩ := arRouter_found hfound
  obtain ⟨hsamePath, hsameMethod, -⟩ := withToken_same request
  rw [before_request]
  refine ⟨before_iff_of_gate (gate_of_addressed hmethod haddressed), ?_, ?_⟩
  · intro token hne hheader
    exact attribute_withToken hne hheader
  · exact Router.route_congr hsamePath hsameMethod hfound

/-- A user likes an artwork. -/
def likeRequest : HttpRequest :=
  ({ method := .kPost, path := ascii "/api/artworks/a/likes" } : HttpRequest).addHeader
    (ascii "Authorization") (ascii "Bearer t")

theorem likeRequest_admitted :
    (before likeRequest { closeConnection := false }).2 = true ∧
    (before likeRequest { closeConnection := false }).1.1.attribute (ascii "auth.token") =
      ascii "t" := by
  have hfound : (arRouter ⟨false, false, false, true⟩).route likeRequest =
      .found ⟨.kPost, ascii "/api/artworks/:artworkId/likes", .artworkLike⟩
        (likeRequest.setPathParameter (ascii "artworkId") (ascii "a")) := rfl
  obtain ⟨hiff, htoken, -⟩ := before_iff_presents hfound { closeConnection := false }
  exact ⟨hiff.mpr ⟨ascii "t", by decide, by decide⟩, htoken (ascii "t") (by decide) (by decide)⟩

end AuthMiddleware

end JingjieAR
