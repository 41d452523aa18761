import ModuleCatalog.Category.Basic
import ModuleCatalog.Text.Blank
import ModuleCatalog.Text.Word

/-!
# Reading categories

Categories are separated by single spaces. An entry that holds a word right before an opening
parenthesis, and a closing one further on in the same line, is a category with arguments: the word is
its name, and the arguments reach to the last closing parenthesis of the line. Every other entry is the
name of a category without arguments. Reading never fails.
-/

namespace ModuleCatalog

/-- What stands before the last occurrence of a code point. -/
def Text.beforeLast? (last : CodePoint) : Text → Option Text
  | [] => none
  | c :: t =>
    match beforeLast? last t with
    | some before => some (c :: before)
    | none => if c = last then some [] else none

/-- One argument: the text around the first equals sign gives key and value. -/
def Attribute.parse (t : Text) : Attribute :=
  match Text.splitFirst? '=' t with
  | none => ⟨none, t.trim⟩
  | some (key, value) => ⟨some key.trim, value.trim⟩

namespace Category

/-- The text between an opening parenthesis, already read, and the last closing one of its line. -/
def argumentText? (t : Text) : Option Text :=
  Text.beforeLast? ')' (t.takeWhile (· ≠ .scalar '\n'))

/-- A name and its argument text at the front of a text. -/
def callAt? (t : Text) : Option (Text × Text) :=
  match Text.spanWord t with
  | ([], _) => none
  | (name, .scalar '(' :: rest) => (argumentText? rest).map fun arguments => (name, arguments)
  | _ => none

/-- The first name with arguments in a text. -/
def findCall? : Text → Option (Text × Text)
  | [] => none
  | c :: t =>
    match callAt? (c :: t) with
    | some call => some call
    | none => findCall? t

/-- One entry. -/
def parse (entry : Text) : Category :=
  match findCall? entry with
  | none => bare entry
  | some (name, arguments) => ⟨name, (Text.splitOn ',' arguments).map Attribute.parse⟩

/-- All categories of a text, in order; the blanks around the text do not count. -/
def parseAll (t : Text) : List Category := (Text.splitOn ' ' t.trim).map parse

theorem parseAll_ne_nil (t : Text) : parseAll t ≠ [] := by
  simp [parseAll, Text.splitOn_ne_nil]

end Category

end ModuleCatalog
