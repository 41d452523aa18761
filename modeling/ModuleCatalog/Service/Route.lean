import ModuleCatalog.Service.Target

/-!
# Routes

A path leads to at most one route, and a route answers to one method; pages about the service answer to
requests for their head alone, too. A line end behind a fixed path is overlooked. A path with slashes at
its end is the way to the route without them.
-/

namespace ModuleCatalog.Service

inductive Route
  | health
  | categories
  | category (name : Text)
  | generation
  | page
  deriving DecidableEq, Repr

namespace Route

/-- Whether a path is a fixed one. -/
def isFixed (path fixed : Text) : Bool := path = fixed || path = fixed ++ "\n"

/-- The paths of the pages about the service. -/
def pages : List Text := ["/openapi.json", "/docs", "/docs/oauth2-redirect", "/redoc"]

/-- The route that a path leads to. -/
def ofPath? (path : Text) : Option Route :=
  if isFixed path "/health" then some .health
  else if isFixed path "/categories" then some .categories
  else if isFixed path "/generate" then some .generation
  else if pages.any (isFixed path) then some .page
  else
    match Text.dropLiteral? "/categories/" path with
    | none => none
    | some name => if name.isEmpty || name.contains (.scalar '/') then none else some (.category name)

/-- The methods that a route answers to. -/
def methods : Route → List Text
  | .generation => ["POST"]
  | .page => ["GET", "HEAD"]
  | .health | .categories | .category _ => ["GET"]

def answersTo (route : Route) (method : Text) : Bool := route.methods.contains method

/-- The path without the slashes at its end, if that leads to a route. -/
def withoutSlash? (path : Text) : Option Text :=
  let shorter := (path.reverse.dropWhile (· = .scalar '/')).reverse
  if path = "/" ∨ shorter = path then none else (ofPath? shorter).map fun _ => shorter

end Route

end ModuleCatalog.Service
