import ModuleCatalog.Number.Binary64
import ModuleCatalog.Yaml.Node

/-!
# The values of a document

Scalars have values of their own; collections are found by the number of their node, so that a
collection may contain itself.
-/

namespace ModuleCatalog.Yaml

inductive Value
  | null
  | boolean (value : Bool)
  | integer (value : Int)
  | float (value : Binary64)
  | text (value : Text)
  | bytes (value : Bytes)
  | timestamp
  | collection (id : NodeId)
  deriving DecidableEq, Repr

inductive Collection
  | sequence (items : List Value)
  | mapping (entries : List (Value × Value))
  | set (members : List Value)
  | pairs (entries : List (Value × Value))
  deriving DecidableEq, Repr

/-- Whether a collection has no parts. -/
def Collection.isEmpty : Collection → Bool
  | .sequence items => items.isEmpty
  | .mapping entries => entries.isEmpty
  | .set members => members.isEmpty
  | .pairs entries => entries.isEmpty

/-- The root of a document and the collections of it. -/
structure Document where
  root : Value
  collections : List (NodeId × Collection)
  deriving Repr

namespace Document

def collection? (d : Document) : Value → Option Collection
  | .collection id => Assoc.get? id d.collections
  | _ => none

/-- Whether a value counts as nothing: null, false, a zero, or something without parts. -/
def isNothing (d : Document) (value : Value) : Bool :=
  match value with
  | .null => true
  | .boolean value => !value
  | .integer value => value = 0
  | .float value => value.isZero
  | .text value => value.isEmpty
  | .bytes value => value.isEmpty
  | .timestamp => false
  | .collection _ => ((d.collection? value).map Collection.isEmpty).getD true

end Document

/-- The value of a text key in the entries of a mapping; of several, the last one counts. -/
def entry? (key : Text) (entries : List (Value × Value)) : Option Value :=
  (entries.reverse.find? fun (k, _) => k = .text key).map (·.2)

end ModuleCatalog.Yaml
