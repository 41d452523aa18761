import ModuleCatalog.Config.Reader
import ModuleCatalog.Generation
import ModuleCatalog.Manifest.Lookup
import ModuleCatalog.Service.Order
import ModuleCatalog.Service.Response
import ModuleCatalog.Service.Route

/-!
# The lookup service

The service answers requests about the artifact at one path. The artifact is loaded for every request, so
a new one is seen at once. A request to generate scans a source tree and stores its manifest.
-/

namespace ModuleCatalog

/-- A service for the artifact at a resolved path. -/
structure Service where
  artifact : Path
  deriving DecidableEq, Repr

namespace Service

def title : Text := "Module Manifest Service"

/-- The service for the artifact at a path. -/
def create (fs : FileSystem) (artifact : Path) : Except Failure Service := do
  let path ← (fs.expandHome artifact).mapError Failure.path
  let path ← (fs.resolve path).mapError Failure.path
  .ok ⟨path⟩

structure Request where
  method : Text
  origin : Text
  target : Target
  body : Bytes
  deriving DecidableEq, Repr

/-! ## Lookups -/

def attributeJson (a : Attribute) : Json :=
  .object [("key", (a.key.map Json.string).getD .null), ("value", .string a.value)]

def categoryJson (c : Category) : Json :=
  .object [("name", .string c.name), ("attributes", .array (c.attributes.map attributeJson))]

def moduleJson (m : Module) : Json :=
  .object [("namespace", .string m.enclosing), ("type_name", .string m.typeName),
    ("qualified_name", .string m.qualifiedName), ("categories", .array (m.categories.map categoryJson))]

/-- All categories with the numbers of their modules. -/
def listing (m : Manifest) : Response :=
  .ofJson 200 (.object [("categories", .array (m.names.map fun name =>
    .object [("name", .string name), ("modules", .integer (m.members name).length)]))])

/-- The modules of a category. -/
def lookup (m : Manifest) (name : Text) : Response :=
  if m.contains name then
    .ofJson 200 (.object [("name", .string name), ("modules", .array ((m.members name).map moduleJson))])
  else .detail 404 ("Unknown category: " ++ name)

/-- The response to a question about the stored manifest. -/
def consult (s : Service) (fs : FileSystem) (ask : Manifest → Response) : Response :=
  match Artifact.load fs s.artifact with
  | .ok m => ask m
  | .error failure => .ofFailure failure

/-! ## Generation -/

/-- The response to a body that is no order. -/
def unprocessable : Order.Refusal → Response
  | .undecodable => .detail 400 "There was an error parsing the body"
  | .invalid problems => .ofJson 422 (.object [("detail", .array (problems.map Order.Problem.toJson))])

def storedJson (stored : Generation.Stored) : Json :=
  .object [("artifact_path", .string stored.path.toText),
    ("categories", .integer stored.manifest.names.length),
    ("modules", .integer stored.manifest.moduleCount)]

/-- Carry an order out. -/
def fulfil (s : Service) (fs : FileSystem) (order : Order) : FileSystem × Response :=
  match Config.loadForRoot fs order.root none with
  | .error failure => (fs, .ofFailure failure)
  | .ok c =>
    let (fs, stored) := Generation.store fs c order.root (some (order.output.getD s.artifact))
    match stored.outcome with
    | .error failure => (fs, .ofFailure failure)
    | .ok stored => (fs, .ofJson 200 (storedJson stored))

def generate (s : Service) (fs : FileSystem) (body : Bytes) : FileSystem × Response :=
  match Order.parse body with
  | .error refusal => (fs, unprocessable refusal)
  | .ok order => s.fulfil fs order

/-! ## Requests -/

/-- The response on a route. -/
def follow (s : Service) (fs : FileSystem) (body : Bytes) : Route → FileSystem × Response
  | .health => (fs, .ofJson 200 (.object [("status", .string "ok")]))
  | .categories => (fs, s.consult fs listing)
  | .category name => (fs, s.consult fs fun m => lookup m name)
  | .generation => s.generate fs body
  | .page => (fs, .page)

/-- The response to a request with whatever content it has. -/
def respond (s : Service) (fs : FileSystem) (r : Request) : FileSystem × Response :=
  match Route.ofPath? r.target.path with
  | some route => if route.answersTo r.method then s.follow fs r.body route else (fs, .methodNotAllowed)
  | none =>
    match Route.withoutSlash? r.target.path with
    | some path => (fs, .redirect r.origin { r.target with path })
    | none => (fs, .notFound)

/-- The response to a request. -/
def answer (s : Service) (fs : FileSystem) (r : Request) : FileSystem × Response :=
  let (fs, response) := s.respond fs r
  (fs, if r.method = "HEAD" then response.headOnly else response)

end Service

end ModuleCatalog
