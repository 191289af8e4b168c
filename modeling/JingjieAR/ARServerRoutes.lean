import JingjieAR.RouterTables

/-! The routes of the AR server. A handler of the application is named by its endpoint,
and the requests of an endpoint have one method and one form of path. -/
namespace JingjieAR

/-- The handler functions that are registered. -/
inductive Endpoint
  | authHandle
  | authLogout
  | visitorBootstrap
  | visitorHeartbeat
  | visitorExit
  | visitorPresence
  | visitorViews
  | sceneList
  | sceneGet
  | artworkDetail
  | artworkLike
  | artworkUnlike
  | artworkComments
  | artworkComment
deriving DecidableEq

/-- Which handler objects the constructor is given; the others are null. -/
structure Handlers where
  auth : Bool
  visitors : Bool
  scenes : Bool
  artworks : Bool

def authRoutes : List (Route Endpoint) :=
  [⟨.kPost, ascii "/api/auth", .authHandle⟩,
   ⟨.kPost, ascii "/api/auth/logout", .authLogout⟩]

def visitorRoutes : List (Route Endpoint) :=
  [⟨.kPost, ascii "/api/visitors/session", .visitorBootstrap⟩,
   ⟨.kPost, ascii "/api/presence/heartbeat", .visitorHeartbeat⟩,
   ⟨.kPost, ascii "/api/presence/exit", .visitorExit⟩,
   ⟨.kGet, ascii "/api/presence", .visitorPresence⟩,
   ⟨.kGet, ascii "/api/statistics/views", .visitorViews⟩]

def sceneRoutes : List (Route Endpoint) :=
  [⟨.kGet, ascii "/api/scenes", .sceneList⟩,
   ⟨.kGet, ascii "/api/scenes/:sceneId", .sceneGet⟩]

def artworkRoutes : List (Route Endpoint) :=
  [⟨.kGet, ascii "/api/artworks/:artworkId", .artworkDetail⟩,
   ⟨.kPost, ascii "/api/artworks/:artworkId/likes", .artworkLike⟩,
   ⟨.kDelete, ascii "/api/artworks/:artworkId/likes", .artworkUnlike⟩,
   ⟨.kGet, ascii "/api/artworks/:artworkId/comments", .artworkComments⟩,
   ⟨.kPost, ascii "/api/artworks/:artworkId/comments", .artworkComment⟩]

/-- The registrations of the constructor, in its order. -/
def arRoutes (h : Handlers) : List (Route Endpoint) :=
  (if h.auth then authRoutes else [])++((if h.visitors then visitorRoutes else [])++
    ((if h.scenes then sceneRoutes else [])++(if h.artworks then artworkRoutes else [])))

def arRouter (h : Handlers) : Router Endpoint := .ofRoutes (arRoutes h)

namespace Endpoint

def method : Endpoint → Method
  | .authHandle | .authLogout | .visitorBootstrap | .visitorHeartbeat | .visitorExit => .kPost
  | .visitorPresence | .visitorViews | .sceneList | .sceneGet => .kGet
  | .artworkDetail | .artworkComments => .kGet
  | .artworkLike | .artworkComment => .kPost
  | .artworkUnlike => .kDelete

/-- The text in front of the variable segment, and the text behind it if there is one. -/
def form : Endpoint → Bytes × Option Bytes
  | .authHandle => (ascii "/api/auth", none)
  | .authLogout => (ascii "/api/auth/logout", none)
  | .visitorBootstrap => (ascii "/api/visitors/session", none)
  | .visitorHeartbeat => (ascii "/api/presence/heartbeat", none)
  | .visitorExit => (ascii "/api/presence/exit", none)
  | .visitorPresence => (ascii "/api/presence", none)
  | .visitorViews => (ascii "/api/statistics/views", none)
  | .sceneList => (ascii "/api/scenes", none)
  | .sceneGet => (ascii "/api/scenes/", some [])
  | .artworkDetail => (ascii "/api/artworks/", some [])
  | .artworkLike | .artworkUnlike => (ascii "/api/artworks/", some (ascii "/likes"))
  | .artworkComments | .artworkComment => (ascii "/api/artworks/", some (ascii "/comments"))

/-- `path` is a path of the endpoint, with these values of its parameters. -/
def Addressed (e : Endpoint) (path : Bytes) (values : List Bytes) : Prop :=
  match e.form with
  | (text, none) => path = text ∧ values = []
  | (text, some suffix) =>
    ∃ id, id ≠ [] ∧ slash ∉ id ∧ path = text++(id++suffix) ∧ values = [id]

/-- The name of the parameter, if the endpoint has one. -/
def parameterNames : Endpoint → List Bytes
  | .sceneGet => [ascii "sceneId"]
  | .artworkDetail | .artworkLike | .artworkUnlike | .artworkComments | .artworkComment =>
    [ascii "artworkId"]
  | _ => []

end Endpoint

/-- What a registration amounts to. -/
structure Describes (route : Route Endpoint) : Prop where
  method : route.method = route.handler.method
  names : route.parameterNames = route.handler.parameterNames
  static : isDynamicPattern route.pattern = false → route.handler.form = (route.pattern, none)
  dynamic : isDynamicPattern route.pattern = true → ∃ text suffix,
    route.handler.form = (text, some suffix) ∧
    (compileDynamicPattern route.pattern).1 =
      text.map .literal++.parameter :: suffix.map .literal

theorem describes_of_mem {h : Handlers} {route : Route Endpoint} (hmem : route ∈ arRoutes h) :
    Describes route := by
  have hall : route ∈ authRoutes++(visitorRoutes++(sceneRoutes++artworkRoutes)) := by
    simp only [arRoutes, List.mem_append] at hmem ⊢
    rcases hmem with hmem | hmem | hmem | hmem
    all_goals
      split_ifs at hmem
      · simp [hmem]
      · simp at hmem
  clear hmem
  simp only [authRoutes, visitorRoutes, sceneRoutes, artworkRoutes, List.cons_append,
    List.nil_append, List.mem_cons, List.not_mem_nil, or_false] at hall
  rcases hall with rfl | rfl | rfl | rfl | rfl | rfl | rfl | rfl | rfl | rfl | rfl | rfl | rfl | rfl
  all_goals
    refine ⟨rfl, by decide, ?_, ?_⟩
  all_goals
    first
    | exact fun hs => absurd hs (by decide)
    | exact fun _ => rfl
    | exact fun _ => ⟨_, _, rfl, by decide⟩

/-- A route is addressed by the paths that it fits, if it is dynamic, or by its pattern. -/
theorem Describes.addressed {route : Route Endpoint} (h : Describes route) {path : Bytes}
    {values : List Bytes} (hdynamic : isDynamicPattern route.pattern = true) :
    route.Fits path values ↔ route.handler.Addressed path values := by
  obtain ⟨text, suffix, hform, hcompiled⟩ := h.dynamic hdynamic
  rw [Route.Fits, hcompiled, atomsMatch_segment, Endpoint.Addressed, hform]

/-- The handler that is found is the one that method and path address. -/
theorem arRouter_found {h : Handlers} {request routed : HttpRequest} {route : Route Endpoint}
    (hfound : (arRouter h).route request = .found route routed) :
    request.method = route.handler.method ∧ ∃ values, route.handler.Addressed request.path values ∧
      routed = injectParameters request route.handler.parameterNames values := by
  obtain ⟨hmem, hmethod, hpath⟩ := Router.ofRoutes_found hfound
  have hdescribes := describes_of_mem hmem
  refine ⟨hmethod.symm.trans hdescribes.method, ?_⟩
  rcases hpath with ⟨hstatic, hpattern, hrouted⟩ | ⟨hdynamic, values, hfits, hrouted⟩
  · refine ⟨[], ?_, ?_⟩
    · rw [Endpoint.Addressed, hdescribes.static hstatic]
      exact ⟨hpattern.symm, rfl⟩
    · rw [hrouted, injectParameters, List.zip_nil_right]
      rfl
  · rw [hdescribes.names] at hrouted
    exact ⟨values, (hdescribes.addressed hdynamic).mp hfits, hrouted⟩

end JingjieAR
