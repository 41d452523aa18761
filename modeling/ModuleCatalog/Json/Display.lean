import ModuleCatalog.Json.Basic
import ModuleCatalog.Text.Quoted
import ModuleCatalog.Number.Shortest

/-!
# Values in messages

Messages about a document show its values with quoted texts, with a blank after every comma and colon,
and with the words `None`, `True` and `False` for the null and the truth values.
-/

namespace ModuleCatalog.Json

mutual

/-- A value as a message shows it. -/
def display : Json → Text
  | .null => "None"
  | .boolean true => "True"
  | .boolean false => "False"
  | .integer value => Decimal.ofInt value
  | .number value => value.toText
  | .string value => Text.quoted value
  | .array items => "[" ++ Text.joinWith ", " (displayItems items) ++ "]"
  | .object members => "\x7b" ++ Text.joinWith ", " (displayMembers members) ++ "\x7d"

def displayItems : List Json → List Text
  | [] => []
  | item :: items => display item :: displayItems items

def displayMembers : List (Text × Json) → List Text
  | [] => []
  | (name, value) :: members =>
    (Text.quoted name ++ ": " ++ display value) :: displayMembers members

end

end ModuleCatalog.Json
