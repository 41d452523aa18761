import ModuleCatalog.Text.Digit
import ModuleCatalog.Text.Utf8
import ModuleCatalog.Number.Decimal
import ModuleCatalog.Yaml.Cursor
import ModuleCatalog.Yaml.Problem
import ModuleCatalog.Yaml.Token.Basic

/-!
# Anchors, aliases, tags and directives

Each reader takes one such token from the front and returns the position behind it.
-/

namespace ModuleCatalog.Yaml.Token

/-- Read on only if a condition holds. -/
def require (condition : Bool) : Except Problem Unit :=
  if condition then .ok () else .error .malformed

/-- The name of an anchor or an alias, after its sign. -/
def scanName (c : Cursor) : Except Problem (Text × Cursor) := do
  let (name, c) := c.span isNameChar
  require (!name.isEmpty && (c.blankAt 0 || c.sees (isOneOf "?:,]\x7d%@`")))
  .ok (name, c)

/-! ## Tags -/

/-- A handle: an exclamation mark, or a name between two of them. -/
def scanHandle (c : Cursor) : Except Problem (Text × Cursor) := do
  require (c.peek = some (.scalar '!'))
  if c.peekAt 1 = some (.scalar ' ') then .ok ("!", c.advance 1)
  else
    let (name, behind) := (c.advance 1).span isNameChar
    require (behind.peek = some (.scalar '!'))
    .ok (CodePoint.scalar '!' :: name ++ "!", behind.advance 1)

/-- The characters of a tag that stand for themselves. -/
def isUriChar (c : CodePoint) : Bool := isNameChar c || isOneOf ";/?:@&=+$,.!~*'()[]" c

/-- The bytes of consecutive escapes. The first argument bounds their number. -/
def scanEscapes : Nat → Cursor → Except Problem (Bytes × Cursor)
  | 0, c => .ok ([], c)
  | fuel + 1, c =>
    if c.peek ≠ some (.scalar '%') then .ok ([], c)
    else
      match (c.peekAt 1).bind CodePoint.hexValue?, (c.peekAt 2).bind CodePoint.hexValue? with
      | some high, some low => do
        let (bytes, c) ← scanEscapes fuel (c.advance 3)
        .ok (UInt8.ofNat (high * 16 + low) :: bytes, c)
      | _, _ => .error .malformed

/-- The characters of a tag, as many as there are. The first argument bounds the number of pieces. -/
def scanUriPieces : Nat → Cursor → Except Problem (Text × Cursor)
  | 0, c => .ok ([], c)
  | fuel + 1, c => do
    let (plain, c) := c.span isUriChar
    if c.peek ≠ some (.scalar '%') then .ok (plain, c)
    else
      let (bytes, c) ← scanEscapes (c.rest.length + 1) c
      let escaped ← (Utf8.decode bytes).mapError fun _ => Problem.malformed
      let (more, c) ← scanUriPieces fuel c
      .ok (plain ++ escaped ++ more, c)

/-- The characters of a tag, at least one. -/
def scanUri (c : Cursor) : Except Problem (Text × Cursor) := do
  require (c.sees fun x => isUriChar x || x = .scalar '%')
  scanUriPieces (c.rest.length + 1) c

/-- Whether an exclamation mark stands in the run of characters up to the next space. -/
def hasInnerMark (t : Text) : Bool :=
  (t.takeWhile fun x => !(isSpace x || isBreak x)).contains (.scalar '!')

/-- A tag from its exclamation mark on. -/
def scanTag (c : Cursor) : Except Problem (TagText × Cursor) := do
  let (written, c) ←
    if c.peekAt 1 = some (.scalar '<') then do
      let (uri, c) ← scanUri (c.advance 2)
      require (c.peek = some (.scalar '>'))
      .ok ((⟨none, uri⟩ : TagText), c.advance 1)
    else if c.blankAt 1 then .ok ((⟨none, "!"⟩ : TagText), c.advance 1)
    else do
      let (handle, c) ←
        if hasInnerMark (c.advance 1).rest then scanHandle c else .ok (("!" : Text), c.advance 1)
      let (suffix, c) ← scanUri c
      .ok ((⟨some handle, suffix⟩ : TagText), c)
  require (c.spaceAt 0)
  .ok (written, c)

/-! ## Directives -/

def scanNumber (c : Cursor) : Except Problem (Nat × Cursor) := do
  let (digits, c) := c.span CodePoint.isAsciiDigit
  require (!digits.isEmpty)
  .ok (Decimal.toNat digits, c)

/-- The two numbers of a version. -/
def scanVersion (c : Cursor) : Except Problem (Directive × Cursor) := do
  let (major, c) ← scanNumber (c.skip isSpace)
  require (c.peek = some (.scalar '.'))
  let (_, c) ← scanNumber (c.advance 1)
  require (c.spaceAt 0)
  .ok (.version major, c)

/-- A handle and what it stands for. -/
def scanTagDirective (c : Cursor) : Except Problem (Directive × Cursor) := do
  let (handle, c) ← scanHandle (c.skip isSpace)
  require (c.sees isSpace)
  let (expansion, c) ← scanUri (c.skip isSpace)
  require (c.spaceAt 0)
  .ok (.tag handle expansion, c)

/-- Spaces and a comment up to the end of the line, and the line end. -/
def scanLineRest (c : Cursor) : Except Problem Cursor := do
  let c := (c.skip isSpace).skipComment
  require c.atLineEnd
  .ok c.takeBreak.2

/-- A directive from its percent sign on. -/
def scanDirective (c : Cursor) : Except Problem (Directive × Cursor) := do
  let (name, c) := (c.advance 1).span isNameChar
  require (!name.isEmpty && c.spaceAt 0)
  let (found, c) ←
    if name = "YAML" then scanVersion c
    else if name = "TAG" then scanTagDirective c
    else .ok (Directive.other, c.skipLine)
  .ok (found, ← scanLineRest c)

end ModuleCatalog.Yaml.Token
