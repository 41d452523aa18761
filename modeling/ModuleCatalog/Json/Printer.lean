import ModuleCatalog.Json.Basic
import ModuleCatalog.Text.Quoted
import ModuleCatalog.Number.Shortest

/-!
# Writing JSON

A layout says which blanks stand between the tokens. There are two: without any blanks, and with two more
blanks of indentation on each level. Strings escape
the quotation mark, the backslash and the controls below the space; an alphabet may restrict the rest
to the printable characters of ASCII, and then every other character is written as one or two escapes
of four digits.
-/

namespace ModuleCatalog.Json

/-- Which characters a string may hold unescaped. -/
inductive Alphabet
  | ascii
  | unicode
  deriving DecidableEq, Repr

/-- An escape of four digits. -/
def escapeUnit (n : Nat) : Text := "\\u" ++ hexadecimal 4 n

/-- The two halves of the pair for a number past `FFFF`. -/
def splitPair (n : Nat) : Nat × Nat := (0xD800 + (n - 0x10000) / 0x400, 0xDC00 + (n - 0x10000) % 0x400)

/-- A character by its number. -/
def escapeNumber (n : Nat) : Text :=
  if n < 0x10000 then escapeUnit n
  else escapeUnit (splitPair n).1 ++ escapeUnit (splitPair n).2

/-- One character of a string. -/
def writeChar (alphabet : Alphabet) (c : CodePoint) : Text :=
  match c with
  | .scalar '"' => "\\\""
  | .scalar '\\' => "\\\\"
  | .scalar '\n' => "\\n"
  | .scalar '\r' => "\\r"
  | .scalar '\t' => "\\t"
  | .scalar '\x08' => "\\b"
  | .scalar '\x0C' => "\\f"
  | c =>
    if c.toNat < 0x20 ∨ (alphabet = .ascii ∧ 0x7F ≤ c.toNat) then escapeNumber c.toNat else [c]

/-- A string between its quotation marks. -/
def writeString (alphabet : Alphabet) (t : Text) : Text :=
  CodePoint.scalar '"' :: t.flatMap (writeChar alphabet) ++ [CodePoint.scalar '"']

/-- A floating-point number, or the name of one that is not finite. -/
def writeNumber : Binary64 → Text
  | .nan => "NaN"
  | .infinity false => "Infinity"
  | .infinity true => "-Infinity"
  | x => x.toText

/-- The blanks between tokens: those next to brackets and behind commas, which depend on the level, and
those behind colons. -/
structure Layout where
  gap : Nat → Text
  afterColon : Text
  isSpace_gap : ∀ level, ∀ c ∈ gap level, isSpace c
  isSpace_afterColon : ∀ c ∈ afterColon, isSpace c

/-- A line end and the indentation of a level. -/
def lineBreak (level : Nat) : Text :=
  CodePoint.scalar '\n' :: List.replicate (2 * level) (CodePoint.scalar ' ')

theorem isSpace_of_mem_lineBreak {level : Nat} {c : CodePoint} (h : c ∈ lineBreak level) : isSpace c := by
  rcases List.mem_cons.1 h with rfl | h
  · rfl
  · rw [List.eq_of_mem_replicate h]
    rfl

namespace Layout

/-- No blanks at all. -/
def dense : Layout where
  gap _ := []
  afterColon := []
  isSpace_gap _ _ h := nomatch h
  isSpace_afterColon _ h := nomatch h

/-- Every item on a line of its own. -/
def lines : Layout where
  gap := lineBreak
  afterColon := " "
  isSpace_gap _ _ h := isSpace_of_mem_lineBreak h
  isSpace_afterColon := by decide

end Layout

/-- Items between two brackets; no items leave no blanks. -/
def bracketed (layout : Layout) (level : Nat) (opening closing : Char) (items : List Text) : Text :=
  if items.isEmpty then [CodePoint.scalar opening, CodePoint.scalar closing]
  else
    CodePoint.scalar opening :: layout.gap (level + 1) ++
      Text.joinWith (CodePoint.scalar ',' :: layout.gap (level + 1)) items ++
      layout.gap level ++ [CodePoint.scalar closing]

/-- A member of an object, of whose value the written form is given. -/
def memberText (layout : Layout) (alphabet : Alphabet) (name value : Text) : Text :=
  writeString alphabet name ++ CodePoint.scalar ':' :: layout.afterColon ++ value

mutual

/-- A value on a level of a document. -/
def written (layout : Layout) (alphabet : Alphabet) (level : Nat) : Json → Text
  | .null => "null"
  | .boolean true => "true"
  | .boolean false => "false"
  | .integer value => Decimal.ofInt value
  | .number value => writeNumber value
  | .string value => writeString alphabet value
  | .array items => bracketed layout level '[' ']' (writtenItems layout alphabet (level + 1) items)
  | .object members =>
    bracketed layout level '{' '}' (writtenMembers layout alphabet (level + 1) members)

def writtenItems (layout : Layout) (alphabet : Alphabet) (level : Nat) : List Json → List Text
  | [] => []
  | item :: items => written layout alphabet level item :: writtenItems layout alphabet level items

def writtenMembers (layout : Layout) (alphabet : Alphabet) (level : Nat) :
    List (Text × Json) → List Text
  | [] => []
  | (name, value) :: members =>
    memberText layout alphabet name (written layout alphabet level value) ::
      writtenMembers layout alphabet level members

end

/-- A value without blanks. -/
def compact (alphabet : Alphabet) (value : Json) : Text := written .dense alphabet 0 value

/-- A value as a document of indented lines. -/
def indented (alphabet : Alphabet) (value : Json) : Text := written .lines alphabet 0 value

end ModuleCatalog.Json
