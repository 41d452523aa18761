import ModuleCatalog.Manifest.Basic
import ModuleCatalog.Json.Basic

/-!
# Looking modules up

Modules are found by category name, and among those by the values of keyed attributes. A module that
is listed under a name it does not declare is not found by its attributes.
-/

namespace ModuleCatalog

/-- What a constraint asks of the value of a key: that the key is not declared, that it has a certain
value, or something that no attribute fulfils. -/
inductive Wanted
  | undeclared
  | value (text : Text)
  | impossible
  deriving DecidableEq, Repr

namespace Wanted

/-- Whether what a category declares is what is wanted. -/
def isMet : Wanted → Option Text → Bool
  | .undeclared, declared => declared.isNone
  | .value text, declared => declared = some text
  | .impossible, _ => false

/-- Constraints come as JSON values, of which only strings are attribute values. -/
def ofJson : Json → Wanted
  | .null => .undeclared
  | .string text => .value text
  | _ => .impossible

end Wanted

/-- Whether a category meets all constraints. -/
def Category.meets (c : Category) (constraints : List (Text × Wanted)) : Bool :=
  constraints.all fun (key, wanted) => wanted.isMet (c.get? (some key))

namespace Manifest

/-- The category names in order. -/
def names (m : Manifest) : List Text := Assoc.keys m.buckets

def contains (m : Manifest) (name : Text) : Bool := (Assoc.get? name m.buckets).isSome

/-- The references listed under a name, none if there is no such name. -/
def referencesTo (m : Manifest) (name : Text) : List (Fin m.modules.length) :=
  (Assoc.get? name m.buckets).getD []

/-- The modules listed under a name. -/
def members (m : Manifest) (name : Text) : List Module := (m.referencesTo name).map m.module

/-- The modules listed under a name whose first category of that name meets all constraints. -/
def find (m : Manifest) (name : Text) (constraints : List (Text × Wanted)) : List Module :=
  (m.members name).filter fun found =>
    match found.category? name with
    | none => false
    | some declared => declared.meets constraints

end Manifest

end ModuleCatalog
