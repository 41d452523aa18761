import ModuleCatalog.Yaml.Token.Name

/-!
# Scalars

A scalar is quoted, plain or a block. Line ends inside it are folded: one alone becomes a space, and
further ones are kept, except in blocks of the literal style. Each reader takes a scalar from the front
and returns the position behind it.
-/

namespace ModuleCatalog.Yaml.Token

/-- A line end and those behind it, when lines are folded. -/
def fold (lineBreak breaks : Text) : Text :=
  if lineBreak ≠ "\n" then lineBreak ++ breaks
  else if breaks.isEmpty then " "
  else breaks

/-! ## Quoted scalars -/

/-- What a letter after a backslash stands for. -/
def simpleEscapes : List (Char × Char) :=
  [('0', '\x00'), ('a', '\x07'), ('b', '\x08'), ('t', '\t'), ('\t', '\t'), ('n', '\n'), ('v', '\x0B'),
   ('f', '\x0C'), ('r', '\r'), ('e', '\x1B'), (' ', ' '), ('"', '"'), ('\\', '\\'), ('/', '/'),
   ('N', '\x85'), ('_', '\xA0'), ('L', '\u2028'), ('P', '\u2029')]

def simpleEscape? (c : CodePoint) : Option CodePoint :=
  (simpleEscapes.find? fun (letter, _) => c = .scalar letter).map fun (_, meaning) => .scalar meaning

/-- How many digits follow a letter that announces a number. -/
def escapeDigits? : CodePoint → Option Nat
  | .scalar 'x' => some 2
  | .scalar 'u' => some 4
  | .scalar 'U' => some 8
  | _ => none

/-- The code point of a number that has been written out. -/
def codePoint (n : Nat) : Except Problem CodePoint :=
  if n ≤ 0x10FFFF then .ok (CodePoint.ofNat n)
  else if n < 0x80000000 then .error .codePointRange
  else .error .codePointWidth

/-- A number of exactly so many hexadecimal digits, and the character it stands for. -/
def scanNumberEscape (digits : Nat) (c : Cursor) : Except Problem (CodePoint × Cursor) := do
  let values := (c.rest.take digits).filterMap CodePoint.hexValue?
  require (values.length = digits)
  .ok (← codePoint (values.foldl (fun n d => n * 16 + d) 0), c.advance digits)

/-- Line ends and the blanks around them inside quotation marks. A line that would begin or end a
document is refused. The first argument bounds the number of lines. -/
def scanQuotedBreaks : Nat → Cursor → Except Problem (Text × Cursor)
  | 0, c => .ok ([], c)
  | fuel + 1, c => do
    require (!c.atDocumentMarker)
    let c := c.skip isSpaceOrTab
    if c.sees isBreak then
      let (lineBreak, c) := c.takeBreak
      let (breaks, c) ← scanQuotedBreaks fuel c
      .ok (lineBreak ++ breaks, c)
    else .ok ([], c)

/-- The character after a backslash; an escaped line end is left out. -/
def scanEscape (c : Cursor) : Except Problem (Text × Cursor) :=
  match c.peek with
  | none => .error .malformed
  | some x =>
    match simpleEscape? x, escapeDigits? x with
    | some meaning, _ => .ok ([meaning], c.advance 1)
    | none, some digits => do
      let (meaning, c) ← scanNumberEscape digits (c.advance 1)
      .ok ([meaning], c)
    | none, none =>
      if isBreak x then
        let (_, c) := c.takeBreak
        scanQuotedBreaks (c.rest.length + 1) c
      else .error .malformed

/-- Characters that are neither blanks nor the closing mark. The first argument bounds the number of
pieces. -/
def scanQuotedRun (double : Bool) : Nat → Cursor → Except Problem (Text × Cursor)
  | 0, c => .ok ([], c)
  | fuel + 1, c => do
    let (front, c) := c.span fun x => !(isSpaceOrTab x || isBreak x || isOneOf "'\"\\" x)
    match c.peek with
    | none => .ok (front, c)
    | some x =>
      if !double && x = .scalar '\'' && c.peekAt 1 = some (.scalar '\'') then
        let (more, c) ← scanQuotedRun double fuel (c.advance 2)
        .ok (front ++ x :: more, c)
      else if (double && x = .scalar '\'') || (!double && (x = .scalar '"' || x = .scalar '\\')) then
        let (more, c) ← scanQuotedRun double fuel (c.advance 1)
        .ok (front ++ x :: more, c)
      else if double && x = .scalar '\\' then
        let (escaped, c) ← scanEscape (c.advance 1)
        let (more, c) ← scanQuotedRun double fuel c
        .ok (front ++ escaped ++ more, c)
      else .ok (front, c)

/-- Blanks and line ends between characters. -/
def scanQuotedSpaces (c : Cursor) : Except Problem (Text × Cursor) := do
  let (spaces, c) := c.span isSpaceOrTab
  require (!c.atEnd)
  if c.sees isBreak then
    let (lineBreak, c) := c.takeBreak
    let (breaks, c) ← scanQuotedBreaks (c.rest.length + 1) c
    .ok (fold lineBreak breaks, c)
  else .ok (spaces, c)

/-- Runs and blanks in turn, up to the closing mark. The first argument bounds their number. -/
def scanQuotedRuns (mark : Char) : Nat → Cursor → Except Problem (Text × Cursor)
  | 0, c => .ok ([], c)
  | fuel + 1, c => do
    if c.peek = some (.scalar mark) then .ok ([], c.advance 1)
    else
      let (spaces, c) ← scanQuotedSpaces c
      let (run, c) ← scanQuotedRun (mark = '"') (c.rest.length + 1) c
      let (more, c) ← scanQuotedRuns mark fuel c
      .ok (spaces ++ run ++ more, c)

/-- A scalar from its opening mark on. -/
def scanQuoted (mark : Char) (c : Cursor) : Except Problem (Text × Cursor) := do
  let (run, c) ← scanQuotedRun (mark = '"') (c.rest.length + 1) (c.advance 1)
  let (more, c) ← scanQuotedRuns mark (c.rest.length + 1) c
  .ok (run ++ more, c)

/-! ## Plain scalars -/

/-- Whether a plain scalar ends before a character; in a flow collection, more characters end it. -/
def endsPlain (inFlow : Bool) (c : CodePoint) (rest : Text) : Bool :=
  isSpaceOrTab c || isBreak c ||
    (c = .scalar ':' && Cursor.endsOr (fun x =>
      isSpaceOrTab x || isBreak x || (inFlow && isOneOf ",[]\x7b\x7d" x)) rest.head?) ||
    (inFlow && isOneOf ",?[]\x7b\x7d" c)

/-- The number of characters up to the end of a plain run. -/
def plainLength (inFlow : Bool) : Text → Nat
  | [] => 0
  | c :: rest => if endsPlain inFlow c rest then 0 else plainLength inFlow rest + 1

/-- Spaces and line ends after the first line end behind a plain run; nothing if a document begins or
ends there. The first argument bounds their number. -/
def scanPlainBreaks : Nat → Cursor → Option Text × Cursor
  | 0, c => (some [], c)
  | fuel + 1, c =>
    if c.atDocumentMarker then (none, c)
    else
      let c := c.skip isSpace
      if c.sees isBreak then
        let (lineBreak, c) := c.takeBreak
        let (breaks, c) := scanPlainBreaks fuel c
        (breaks.map (lineBreak ++ ·), c)
      else (some [], c)

/-- What separates two runs of a plain scalar, and whether a line ends there. -/
def scanPlainSpaces (c : Cursor) : Text × Bool × Cursor :=
  let (spaces, c) := c.span isSpace
  if c.sees isBreak then
    let (lineBreak, c) := c.takeBreak
    let (breaks, c) := scanPlainBreaks (c.rest.length + 1) c
    ((breaks.map (fold lineBreak)).getD [], true, c)
  else (spaces, false, c)

/-- Runs of a plain scalar, with the spaces before the first of them; and whether a line has ended
behind the last one. The first argument bounds their number. -/
def scanPlainRuns (inFlow : Bool) (indent : Int) : Nat → Text → Bool → Cursor → Text × Bool × Cursor
  | 0, _, broken, c => ([], broken, c)
  | fuel + 1, spaces, broken, c =>
    let length := plainLength inFlow c.rest
    if c.peek = some (.scalar '#') || length = 0 then ([], broken, c)
    else
      let run := c.rest.take length
      let (next, broken, c) := scanPlainSpaces (c.advance length)
      if next.isEmpty || c.peek = some (.scalar '#') || (!inFlow && (c.column : Int) < indent) then
        (spaces ++ run, broken, c)
      else
        let (more, broken, c) := scanPlainRuns inFlow indent fuel next broken c
        (spaces ++ run ++ more, broken, c)

/-- A plain scalar inside a block of some indentation. -/
def scanPlain (inFlow : Bool) (indent : Int) (c : Cursor) : Text × Bool × Cursor :=
  scanPlainRuns inFlow (indent + 1) (c.rest.length + 1) [] false c

/-! ## Block scalars -/

/-- Which of the line ends at the end of a block are kept. -/
inductive Chomping
  | clip
  | strip
  | keep
  deriving DecidableEq, Repr

def chomping? : CodePoint → Option Chomping
  | .scalar '+' => some .keep
  | .scalar '-' => some .strip
  | _ => none

/-- A chomping sign at the front, if there is one. -/
def scanChomping (c : Cursor) : Option Chomping × Cursor :=
  match c.peek.bind chomping? with
  | some chomping => (some chomping, c.advance 1)
  | none => (none, c)

/-- A digit at the front, if there is one; it must not be zero. -/
def scanIncrement (c : Cursor) : Except Problem (Option Nat × Cursor) :=
  if c.sees CodePoint.isAsciiDigit then
    let digit := Decimal.toNat (c.rest.take 1)
    if digit = 0 then .error .malformed else .ok (some digit, c.advance 1)
  else .ok (none, c)

/-- Chomping and indentation, in either order. -/
def scanHeader (c : Cursor) : Except Problem (Chomping × Option Nat × Cursor) := do
  let (first, c) := scanChomping c
  let (increment, c) ← scanIncrement c
  let (chomping, c) :=
    match first, increment with
    | none, some _ => scanChomping c
    | _, _ => (first, c)
  require (c.spaceAt 0)
  .ok (chomping.getD .clip, increment, c)

/-- Spaces up to a column. -/
def skipIndent (indent : Nat) (c : Cursor) : Cursor :=
  c.advance (min (c.rest.takeWhile isSpace).length (indent - c.column))

/-- Empty lines, and the indentation of the line behind them. The first argument bounds their
number. -/
def scanBlockBreaks (indent : Nat) : Nat → Cursor → Text × Cursor
  | 0, c => ([], c)
  | fuel + 1, c =>
    let c := skipIndent indent c
    if c.sees isBreak then
      let (lineBreak, c) := c.takeBreak
      let (breaks, c) := scanBlockBreaks indent fuel c
      (lineBreak ++ breaks, c)
    else ([], c)

/-- Empty lines at the beginning of a block, and the greatest column up to the first character. The
first argument bounds their number. -/
def scanBlockStart : Nat → Nat → Cursor → Text × Nat × Cursor
  | 0, column, c => ([], column, c)
  | fuel + 1, column, c =>
    let (spaces, c) := c.span isSpace
    let column := if spaces.isEmpty then column else max column c.column
    if c.sees isBreak then
      let (lineBreak, c) := c.takeBreak
      let (breaks, column, c) := scanBlockStart fuel column c
      (lineBreak ++ breaks, column, c)
    else ([], column, c)

/-- The lines of a block, the line end behind the last one and the empty lines behind that. The first
argument bounds the number of lines. -/
def scanBlockLines (folded : Bool) (indent : Nat) : Nat → Text → Text → Cursor → Text × Text × Text × Cursor
  | 0, breaks, lineBreak, c => ([], lineBreak, breaks, c)
  | fuel + 1, breaks, lineBreak, c =>
    if c.column ≠ indent || c.atEnd then ([], lineBreak, breaks, c)
    else
      let startsDense := !c.sees isSpaceOrTab
      let (line, c) := c.span fun x => !isBreak x
      let (lineBreak, c) := c.takeBreak
      let (next, c) := scanBlockBreaks indent (c.rest.length + 1) c
      if c.column = indent && !c.atEnd then
        let joint : Text :=
          if folded && lineBreak = "\n" && startsDense && !c.sees isSpaceOrTab then
            if next.isEmpty then " " else ""
          else lineBreak
        let (more, lineBreak, last, c) := scanBlockLines folded indent fuel next lineBreak c
        (breaks ++ line ++ joint ++ more, lineBreak, last, c)
      else (breaks ++ line, lineBreak, next, c)

/-- A block scalar from its sign on, inside a block of some indentation. -/
def scanBlock (folded : Bool) (indent : Int) (c : Cursor) : Except Problem (Text × Cursor) := do
  let (chomping, increment, c) ← scanHeader (c.advance 1)
  let c ← scanLineRest c
  let least := (max (indent + 1) 1).toNat
  let (breaks, indent, c) :=
    match increment with
    | none =>
      let (breaks, column, c) := scanBlockStart (c.rest.length + 1) 0 c
      (breaks, max least column, c)
    | some increment =>
      let indent := least + increment - 1
      let (breaks, c) := scanBlockBreaks indent (c.rest.length + 1) c
      (breaks, indent, c)
  let (lines, lineBreak, breaks, c) := scanBlockLines folded indent (c.rest.length + 1) breaks [] c
  let lines := if chomping = .strip then lines else lines ++ lineBreak
  .ok (if chomping = .keep then lines ++ breaks else lines, c)

end ModuleCatalog.Yaml.Token
