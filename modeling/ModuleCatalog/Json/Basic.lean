import ModuleCatalog.Assoc
import ModuleCatalog.Text.Basic
import ModuleCatalog.Number.Binary64

/-!
# JSON values

Integers are exact and apart from floating-point numbers; the latter include the infinities and the
number that is none, which documents may spell out. Objects keep the order of their members.
-/

namespace ModuleCatalog

inductive Json
  | null
  | boolean (value : Bool)
  | integer (value : Int)
  | number (value : Binary64)
  | string (value : Text)
  | array (items : List Json)
  | object (members : List (Text × Json))
  deriving Repr

namespace Json

instance : Inhabited Json := ⟨.null⟩

/-- The value of a key among the members of an object. -/
def field? (key : Text) (members : List (Text × Json)) : Option Json := Assoc.get? key members

/-- The members of an object. -/
def object? : Json → Option (List (Text × Json))
  | .object members => some members
  | _ => none

/-- The member of an object under a key. -/
def member? (key : Text) (value : Json) : Option Json := value.object?.bind (field? key)

def string? : Json → Option Text
  | .string value => some value
  | _ => none

def array? : Json → Option (List Json)
  | .array items => some items
  | _ => none

/-- The list of strings that a value holds. -/
def strings? (value : Json) : Option (List Text) :=
  value.array?.bind fun items => items.mapM string?

mutual

/-- Whether all numbers in a value are finite. -/
def isFinite : Json → Bool
  | .number value => value.isFinite
  | .array items => areFinite items
  | .object members => haveFinite members
  | .null | .boolean _ | .integer _ | .string _ => true

def areFinite : List Json → Bool
  | [] => true
  | item :: items => isFinite item && areFinite items

def haveFinite : List (Text × Json) → Bool
  | [] => true
  | (_, value) :: members => isFinite value && haveFinite members

end

/-- Space, tab, LF and CR. -/
def isSpace (c : CodePoint) : Bool :=
  c = .scalar ' ' || c = .scalar '\t' || c = .scalar '\n' || c = .scalar '\r'

/-- Whether a value equals the number one; truth counts as one. -/
def isOne : Json → Bool
  | .boolean value => value
  | .integer value => value = 1
  | .number value => value.equalsInt 1
  | _ => false

end Json

end ModuleCatalog
