import ModuleCatalog.Text.Basic
import ModuleCatalog.Text.Range

/-!
# Reading positions in a YAML text

A cursor is what is left of a text, with the offset, the line and the column it has come to. Lines end
with LF, CR, CRLF, the next-line control or one of the two separators. The byte order mark has no width.
Questions about the next character also have an answer at the end of the text.
-/

namespace ModuleCatalog.Yaml

/-- The characters that a document may hold. -/
def allowedRanges : RangeTable :=
  [(0x9, 0xA), (0xD, 0xD), (0x20, 0x7E), (0x85, 0x85), (0xA0, 0xD7FF), (0xE000, 0xFFFD),
   (0x10000, 0x10FFFF)]

def isAllowed (c : CodePoint) : Bool := allowedRanges.contains c.toNat

def isBreak (c : CodePoint) : Bool :=
  c = .scalar '\n' || c = .scalar '\r' || c = .scalar '\x85' || c = .scalar '\u2028' ||
    c = .scalar '\u2029'

def isSpace (c : CodePoint) : Bool := c = .scalar ' '

def isSpaceOrTab (c : CodePoint) : Bool := c = .scalar ' ' || c = .scalar '\t'

/-- Whether a character is one of those of a text. -/
def isOneOf (characters : Text) (c : CodePoint) : Bool := characters.contains c

/-- Letters and digits of ASCII, dash and underscore, of which names are made. -/
def isNameChar (c : CodePoint) : Bool :=
  let n := c.toNat
  (0x30 ≤ n && n ≤ 0x39) || (0x41 ≤ n && n ≤ 0x5A) || (0x61 ≤ n && n ≤ 0x7A) || c = .scalar '-' ||
    c = .scalar '_'

structure Cursor where
  rest : Text
  index : Nat
  line : Nat
  column : Nat
  deriving DecidableEq, Repr

namespace Cursor

def start (t : Text) : Cursor := ⟨t, 0, 0, 0⟩

def peek (c : Cursor) : Option CodePoint := c.rest.head?

/-- The character some places further on. -/
def peekAt (c : Cursor) (n : Nat) : Option CodePoint := c.rest[n]?

def atEnd (c : Cursor) : Bool := c.rest.isEmpty

/-- Whether the character at a place is one of a class; the end is none. -/
def sees (c : Cursor) (isIn : CodePoint → Bool) : Bool := (c.peek.map isIn).getD false

/-- Whether the character at a place is one of a class, or the text ends there. -/
def endsOr (isIn : CodePoint → Bool) (c : Option CodePoint) : Bool := (c.map isIn).getD true

/-- The end of the text, or of the line. -/
def atLineEnd (c : Cursor) : Bool := endsOr isBreak c.peek

/-- The end of the text, a space or the end of the line at some place. -/
def spaceAt (c : Cursor) (n : Nat) : Bool := endsOr (fun x => isSpace x || isBreak x) (c.peekAt n)

/-- The same, or a tab. -/
def blankAt (c : Cursor) (n : Nat) : Bool := endsOr (fun x => isSpaceOrTab x || isBreak x) (c.peekAt n)

/-- Move over some characters. -/
def advance : Nat → Cursor → Cursor
  | 0, c => c
  | n + 1, c =>
    match c.rest with
    | [] => c
    | x :: rest =>
      let breaks := isBreak x && !(x = .scalar '\r' && rest.head? = some (.scalar '\n'))
      if breaks then advance n ⟨rest, c.index + 1, c.line + 1, 0⟩
      else if x = .scalar '\uFEFF' then advance n ⟨rest, c.index + 1, c.line, c.column⟩
      else advance n ⟨rest, c.index + 1, c.line, c.column + 1⟩

/-- The characters of a class in front, and the position behind them. -/
def span (c : Cursor) (isIn : CodePoint → Bool) : Text × Cursor :=
  let front := c.rest.takeWhile isIn
  (front, c.advance front.length)

def skip (c : Cursor) (isIn : CodePoint → Bool) : Cursor := (c.span isIn).2

/-- To the end of the line. -/
def skipLine (c : Cursor) : Cursor := c.skip fun x => !isBreak x

/-- Over a comment, if one begins here. -/
def skipComment (c : Cursor) : Cursor := if c.peek = some (.scalar '#') then c.skipLine else c

/-- Over a line end, if there is one: every kind counts as LF but the two separators. -/
def takeBreak (c : Cursor) : Text × Cursor :=
  match c.rest with
  | .scalar '\r' :: .scalar '\n' :: _ => (['\n'], c.advance 2)
  | x :: _ =>
    if x = .scalar '\u2028' ∨ x = .scalar '\u2029' then ([x], c.advance 1)
    else if isBreak x then (['\n'], c.advance 1)
    else ([], c)
  | [] => ([], c)

/-- Three given characters and then a blank or the end. -/
def atMarker (c : Cursor) (marker : Text) : Bool := Text.startsWith c.rest marker && c.blankAt 3

/-- The start or the end of a document. -/
def atDocumentMarker (c : Cursor) : Bool := c.atMarker "---" || c.atMarker "..."

end Cursor

end ModuleCatalog.Yaml
