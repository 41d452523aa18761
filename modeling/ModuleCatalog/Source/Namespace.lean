import ModuleCatalog.Text.Blank
import ModuleCatalog.Text.Word

/-!
# Namespace declarations

A namespace declaration is the word `namespace`, blanks, a path of words joined by single backslashes,
perhaps blanks, and a semicolon. The first place of a text where all of this stands, and which is not
inside a longer word, declares the namespace of the text.
-/

namespace ModuleCatalog.Source

/-- A text without the blanks at its front, if there is at least one. -/
def dropBlanks? (t : Text) : Option Text :=
  match t with
  | c :: rest => if c.isBlank then some (Text.trimLeft rest) else none
  | [] => none

/-- Words, each with a backslash before it, as many as there are. The first argument bounds their
number. -/
def spanPath : Nat → Text → Text × Text
  | 0, t => ([], t)
  | fuel + 1, t =>
    match t with
    | .scalar '\\' :: rest =>
      match Text.spanWord rest with
      | ([], _) => ([], t)
      | (word, rest) =>
        let (path, rest) := spanPath fuel rest
        (CodePoint.scalar '\\' :: word ++ path, rest)
    | t => ([], t)

/-- The longest path of words joined by single backslashes at the front of a text. -/
def namespacePath? (t : Text) : Option (Text × Text) :=
  match Text.spanWord t with
  | ([], _) => none
  | (word, rest) =>
    let (path, rest) := spanPath rest.length rest
    some (word ++ path, rest)

/-- A namespace declaration at the front of a text: its path and what follows the semicolon. -/
def namespaceAt? (t : Text) : Option (Text × Text) := do
  let rest ← Text.dropLiteral? "namespace" t
  let (path, rest) ← namespacePath? (← dropBlanks? rest)
  let rest ← Text.dropLiteral? ";" (Text.trimLeft rest)
  some (path, rest)

/-- The first namespace declaration from here on; the flag says whether a word character stands right
before. -/
def namespaceFrom? : Bool → Text → Option (Text × Text)
  | _, [] => none
  | afterWord, c :: t =>
    match (if afterWord then none else namespaceAt? (c :: t)) with
    | some found => some found
    | none => namespaceFrom? c.isWord t

/-- The namespace that a text declares, and what follows the declaration. -/
def declaredNamespace? (t : Text) : Option (Text × Text) := namespaceFrom? false t

/-- The namespace that a text declares, with the place behind the declaration. -/
def namespaceAndEnd? (t : Text) : Option (Text × Nat) :=
  (declaredNamespace? t).map fun (path, rest) => (path, t.length - rest.length)

end ModuleCatalog.Source
