import JingjieAR.HttpRequestModel

/-! The route table. A pattern is compiled to the atoms of its expression, a literal byte
or a group `([^/]+)`; what a route does with a request is left to the type `H` of its
handlers. -/
namespace JingjieAR

def slash : UInt8 := 47

/-- An atom of a compiled pattern. Metacharacters are escaped, so they are literal. -/
inductive PatternAtom
  | literal (c : UInt8)
  | parameter
deriving DecidableEq

/-- A parameter starts at a `:` behind a `/` or at the very front, if a name follows. -/
def beginsParameter (atStart : Bool) (c : UInt8) (rest : Bytes) : Bool :=
  c = colon && atStart &&
    match rest with
    | [] => false
    | d :: _ => d ≠ slash

/-- `isDynamicPattern`, from some position on. -/
def isDynamicFrom (atStart : Bool) : Bytes → Bool
  | [] => false
  | c :: rest => beginsParameter atStart c rest || isDynamicFrom (c = slash) rest

def isDynamicPattern (pattern : Bytes) : Bool := isDynamicFrom true pattern

mutual

/-- `compileDynamicPattern` from some position on: the atoms and the parameter names. -/
def compileFrom (atStart : Bool) : Bytes → List PatternAtom × List Bytes
  | [] => ([], [])
  | c :: rest =>
    if beginsParameter atStart c rest then
      let compiled := compileName rest
      (.parameter :: compiled.2.1, compiled.1 :: compiled.2.2)
    else
      let compiled := compileFrom (c = slash) rest
      (.literal c :: compiled.1, compiled.2)

/-- The name of a parameter ends at the next `/`; it comes first in the result. -/
def compileName : Bytes → Bytes × List PatternAtom × List Bytes
  | [] => ([], [], [])
  | c :: rest =>
    if c = slash then
      let compiled := compileFrom true rest
      ([], .literal c :: compiled.1, compiled.2)
    else
      let compiled := compileName rest
      (c :: compiled.1, compiled.2)

end

def compileDynamicPattern (pattern : Bytes) : List PatternAtom × List Bytes :=
  compileFrom true pattern

/-- `std::regex_match` on the whole path: the texts of the groups. A group is greedy and
takes everything up to the next `/`. -/
def matchAtoms : List PatternAtom → Bytes → Option (List Bytes)
  | [], path => if path = [] then some [] else none
  | .literal _ :: _, [] => none
  | .literal c :: atoms, b :: path => if b = c then matchAtoms atoms path else none
  | .parameter :: atoms, path =>
    if path.takeWhile (· ≠ slash) = [] then none
    else (matchAtoms atoms (path.dropWhile (· ≠ slash))).map (path.takeWhile (· ≠ slash) :: ·)

structure Route (H : Type) where
  method : Method
  pattern : Bytes
  handler : H

namespace Route

variable {H : Type}

def parameterNames (r : Route H) : List Bytes := (compileDynamicPattern r.pattern).2

def pathMatches (r : Route H) (path : Bytes) : Option (List Bytes) :=
  matchAtoms (compileDynamicPattern r.pattern).1 path

end Route

def HttpRequest.setPathParameter (r : HttpRequest) (name value : Bytes) : HttpRequest :=
  { r with pathParameters := r.pathParameters.insert name value }

def HttpRequest.pathParameter (r : HttpRequest) (name : Bytes) : Bytes :=
  (r.pathParameters.lookup name).getD []

def injectParameters (request : HttpRequest) (names values : List Bytes) : HttpRequest :=
  (names.zip values).foldl (fun r parameter => r.setPathParameter parameter.1 parameter.2) request

def addAllowedMethod (methods : List Method) (method : Method) : List Method :=
  if method ∈ methods then methods else methods++[method]

/-- What `route` finds: the route whose handler is invoked, with the request as it is
then, or one of the two refusals. -/
inductive RouteMatch (H : Type)
  | found (route : Route H) (request : HttpRequest)
  | kNotFound
  | kMethodNotAllowed (allowed : List Method)

structure Router (H : Type) where
  exactRoutes : Finmap (fun _ : Bytes => List (Route H)) := ∅
  dynamicRoutes : List (Route H) := []
  registeredPatterns : Finset (Method × Bytes) := ∅

namespace Router

variable {H : Type}

/-- A second registration of a method and a pattern is refused. -/
def addRoute (r : Router H) (method : Method) (pattern : Bytes) (handler : H) : Bool × Router H :=
  if (method, pattern) ∈ r.registeredPatterns then (false, r)
  else
    let r₁ := { r with registeredPatterns := insert (method, pattern) r.registeredPatterns }
    let route : Route H := ⟨method, pattern, handler⟩
    if isDynamicPattern pattern then
      (true, { r₁ with dynamicRoutes := r₁.dynamicRoutes++[route] })
    else
      let routes := (r₁.exactRoutes.lookup pattern).getD []
      (true, { r₁ with exactRoutes := r₁.exactRoutes.insert pattern (routes++[route]) })

/-- The routes of one exact path; nobody else is asked when none has the method. -/
def scanExact (request : HttpRequest) : List (Route H) → List Method → RouteMatch H
  | [], allowed => .kMethodNotAllowed allowed
  | route :: routes, allowed =>
    if route.method = request.method then .found route request
    else scanExact request routes (addAllowedMethod allowed route.method)

def scanDynamic (request : HttpRequest) : List (Route H) → List Method → RouteMatch H
  | [], allowed => if allowed = [] then .kNotFound else .kMethodNotAllowed allowed
  | route :: routes, allowed =>
    match route.pathMatches request.path with
    | none => scanDynamic request routes allowed
    | some values =>
      if route.method = request.method then
        .found route (injectParameters request route.parameterNames values)
      else scanDynamic request routes (addAllowedMethod allowed route.method)

/-- `route` up to the call of the handler. -/
def route (r : Router H) (request : HttpRequest) : RouteMatch H :=
  match r.exactRoutes.lookup request.path with
  | some routes => scanExact request routes []
  | none => scanDynamic request r.dynamicRoutes []

end Router

end JingjieAR
