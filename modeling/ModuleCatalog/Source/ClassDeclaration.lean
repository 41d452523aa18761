import ModuleCatalog.Text.Blank
import ModuleCatalog.Text.Word
import ModuleCatalog.Source.Namespace

/-!
# Class declarations after a comment

A class declaration is any number of modifiers, the word `class` and the name of the class, with blanks
between them. It belongs to a comment if it begins a line behind the end of the comment with no opening
brace in between. Only if no such line has a declaration, the rest of the line on which the comment
ends may hold it.
-/

namespace ModuleCatalog.Source

def modifiers : List Text := ["abstract", "final", "readonly"]

/-- What follows a modifier and its blanks at the front of a text. -/
def dropModifier? (t : Text) : Option Text :=
  modifiers.findSome? fun modifier => (Text.dropLiteral? modifier t).bind dropBlanks?

/-- What follows all modifiers at the front of a text. The first argument bounds their number. -/
def dropModifiers : Nat → Text → Text
  | 0, t => t
  | fuel + 1, t =>
    match dropModifier? t with
    | none => t
    | some rest => dropModifiers fuel rest

/-- The name in a class declaration at the front of a line. -/
def classAt? (line : Text) : Option Text := do
  let indented := line.dropWhile fun c => c = .scalar ' ' ∨ c = .scalar '\t'
  let rest ← Text.dropLiteral? "class" (dropModifiers indented.length indented)
  match Text.spanWord (← dropBlanks? rest) with
  | ([], _) => none
  | (name, _) => some name

/-- What follows the end of the comment. -/
def afterComment? : Text → Option Text
  | [] => none
  | c :: t =>
    match Text.dropLiteral? "*/" (c :: t) with
    | some rest => some rest
    | none => afterComment? t

/-- The class declared by the first line that declares one, among the lines that begin further on and
before any opening brace. -/
def classOnLine? : Text → Option Text
  | [] => none
  | c :: t =>
    if c = .scalar '{' then none
    else if c = .scalar '\n' then
      match classAt? t with
      | some name => some name
      | none => classOnLine? t
    else classOnLine? t

/-- The class that belongs to the comment in which a text begins. -/
def declaredClass? (t : Text) : Option Text := do
  let rest ← afterComment? t
  match classOnLine? rest with
  | some name => some name
  | none => classAt? rest

end ModuleCatalog.Source
