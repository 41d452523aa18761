import ModuleCatalog.FileSystem.Path
import ModuleCatalog.Json.Encoding
import ModuleCatalog.Json.Reader

/-!
# Orders to generate

The body of a request to generate is a JSON object. It may name the root of the source tree and the
output; everything else in it is ignored. What is wrong with a body has a kind and a place, and shows
the value that is there. Bytes that are in no encoding cannot be read at all.
-/

namespace ModuleCatalog.Service

/-- What to generate, and where to store it unless in the usual place. -/
structure Order where
  root : Path
  output : Option Path
  deriving DecidableEq, Repr

namespace Order

/-- What is wrong with a body. -/
inductive Problem
  | missing
  | notJson (position : Nat)
  | notObject (found : Json)
  | notString (field : Text) (found : Json)
  deriving Repr

/-- Why a body is no order. -/
inductive Refusal
  | undecodable
  | invalid (problems : List Problem)
  deriving Repr

def Problem.kind : Problem → Text
  | .missing => "missing"
  | .notJson _ => "json_invalid"
  | .notObject _ => "model_attributes_type"
  | .notString .. => "string_type"

/-- Where in the request the problem is. -/
def Problem.place : Problem → List Json
  | .missing | .notObject _ => [.string "body"]
  | .notJson position => [.string "body", .integer position]
  | .notString field _ => [.string "body", .string field]

mutual

/-- A value as a problem shows it: without the members whose names begin with `_sa`. -/
def shown : Json → Json
  | .array items => .array (shownItems items)
  | .object members => .object (shownMembers members)
  | value => value

def shownItems : List Json → List Json
  | [] => []
  | item :: items => shown item :: shownItems items

def shownMembers : List (Text × Json) → List (Text × Json)
  | [] => []
  | (name, value) :: members =>
    if Text.startsWith name "_sa" then shownMembers members
    else (name, shown value) :: shownMembers members

end

/-- What a problem shows of the body. -/
def Problem.found : Problem → Json
  | .missing => .null
  | .notJson _ => .object []
  | .notObject found | .notString _ found => shown found

def Problem.toJson (p : Problem) : Json :=
  .object [("type", .string p.kind), ("loc", .array p.place), ("input", p.found)]

/-- The root; the working directory is the usual one. -/
def readRoot (members : List (Text × Json)) : Except Problem Path :=
  match Json.field? "path" members with
  | none => .ok "."
  | some (.string path) => .ok (Path.parse path)
  | some value => .error (.notString "path" value)

/-- The output, if there is one. -/
def readOutput (members : List (Text × Json)) : Except Problem (Option Path) :=
  match Json.field? "output" members with
  | none | some .null => .ok none
  | some (.string path) => .ok (some (Path.parse path))
  | some value => .error (.notString "output" value)

/-- The order in the members of an object, or all problems with them. -/
def ofMembers (members : List (Text × Json)) : Except (List Problem) Order :=
  match readRoot members, readOutput members with
  | .ok root, .ok output => .ok ⟨root, output⟩
  | .error p, .error q => .error [p, q]
  | .error p, .ok _ => .error [p]
  | .ok _, .error q => .error [q]

/-- The order in the text of a body. -/
def ofText (body : Text) : Except (List Problem) Order :=
  match Json.parse body with
  | .error e => .error [.notJson (e.position body)]
  | .ok (.object members) => ofMembers members
  | .ok value => .error [.notObject value]

/-- The order in a body. -/
def parse (body : Bytes) : Except Refusal Order :=
  if body.isEmpty then .error (.invalid [.missing])
  else
    match Json.textOf? body with
    | none => .error .undecodable
    | some t => (ofText t).mapError .invalid

end Order

end ModuleCatalog.Service
