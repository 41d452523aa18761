import ModuleCatalog.Yaml.Token.Scalar

/-!
# From text to tokens

In block context indentation opens and closes collections. A token that may be a key is remembered
until a colon follows on the same line, within 1024 characters; then the key token, and perhaps the
start of a mapping, is put in front of it. Reading stops at the first fault, and of the tokens before it
only those count whose role as a key had been decided.
-/

namespace ModuleCatalog.Yaml

/-- A place where a key may have begun: the number of tokens before it, and whether something must make
it one. -/
structure PossibleKey where
  level : Int
  tokenNumber : Nat
  required : Bool
  index : Nat
  line : Nat
  column : Nat
  deriving DecidableEq, Repr

/-- Tokens and the fault at which they end; a whole document has none. -/
structure TokenStream where
  tokens : List Token
  problem : Option Problem
  deriving Repr

structure Lexer where
  cursor : Cursor
  tokens : List Token
  level : Int
  indent : Int
  indents : List Int
  keyAllowed : Bool
  possibleKeys : List PossibleKey
  deriving Repr

namespace Lexer

def start (t : Text) : Lexer := ⟨Cursor.start t, [], 0, -1, [], true, []⟩

def inFlow (s : Lexer) : Bool := s.level ≠ 0

def emit (s : Lexer) (token : Token) : Lexer := { s with tokens := s.tokens ++ [token] }

/-- Read on only if a condition holds. -/
def require (condition : Bool) (s : Lexer) : Except Problem Lexer :=
  if condition then .ok s else .error .malformed

/-- Over spaces, comments and line ends. Behind a line end in block context a key may begin. The first
argument bounds the number of lines. -/
def skipToToken : Nat → Lexer → Lexer
  | 0, s => s
  | fuel + 1, s =>
    let c := (s.cursor.skip isSpace).skipComment
    if c.sees isBreak then
      skipToToken fuel { s with cursor := c.takeBreak.2, keyAllowed := s.keyAllowed || !s.inFlow }
    else { s with cursor := c }

/-- Whether a colon can no longer make a key of what begins at a place. -/
def isStale (c : Cursor) (key : PossibleKey) : Bool := key.line ≠ c.line || c.index - key.index > 1024

/-- Forget the keys that have become impossible; a required one must not be among them. -/
def dropStaleKeys (s : Lexer) : Except Problem Lexer :=
  require (!s.possibleKeys.any fun key => isStale s.cursor key && key.required)
    { s with possibleKeys := s.possibleKeys.filter fun key => !isStale s.cursor key }

/-- Forget the possible key of the present level; it must not be a required one. -/
def dropKey (s : Lexer) : Except Problem Lexer :=
  require (!s.possibleKeys.any fun key => key.level = s.level && key.required)
    { s with possibleKeys := s.possibleKeys.filter fun key => key.level ≠ s.level }

/-- Remember that a key may begin here, if one is allowed. -/
def saveKey (s : Lexer) : Except Problem Lexer :=
  if !s.keyAllowed then .ok s
  else do
    let s ← s.dropKey
    let c := s.cursor
    let required := !s.inFlow && s.indent = (c.column : Int)
    let key : PossibleKey := ⟨s.level, s.tokens.length, required, c.index, c.line, c.column⟩
    .ok { s with possibleKeys := s.possibleKeys ++ [key] }

/-- Close the blocks that are indented further than a column. -/
def closeBlocks (column : Int) : List Int → Lexer → Lexer
  | [], s => s
  | outer :: indents, s =>
    if s.indent > column then
      closeBlocks column indents ({ s with indent := outer, indents }.emit .blockEnd)
    else s

def unwind (s : Lexer) (column : Int) : Lexer :=
  if s.inFlow then s else closeBlocks column s.indents s

/-- Open a block at a column, if it is indented further than the present one: its start is put before
the token of a number. -/
def openBlock (s : Lexer) (column : Nat) (token : Token) (number : Nat) : Lexer :=
  if s.indent < (column : Int) then
    { s with
      indents := s.indent :: s.indents
      indent := column
      tokens := s.tokens.insertIdx number token }
  else s

/-! ## One token -/

/-- A token of so many characters that ends what could have been a key. -/
def takeSign (s : Lexer) (keyAllowed : Bool) (length : Nat) (token : Token) : Except Problem Lexer := do
  let s ← s.dropKey
  .ok ({ s with keyAllowed, cursor := s.cursor.advance length }.emit token)

def takeDocumentMarker (s : Lexer) (token : Token) : Except Problem Lexer :=
  (s.unwind (-1)).takeSign false 3 token

def takeDirective (s : Lexer) : Except Problem Lexer := do
  let s ← (s.unwind (-1)).dropKey
  let (directive, cursor) ← Token.scanDirective s.cursor
  .ok ({ s with keyAllowed := false, cursor }.emit (.directive directive))

def takeFlowStart (s : Lexer) (token : Token) : Except Problem Lexer := do
  let s ← s.saveKey
  .ok ({ s with level := s.level + 1, keyAllowed := true, cursor := s.cursor.advance 1 }.emit token)

def takeFlowEnd (s : Lexer) (token : Token) : Except Problem Lexer := do
  let s ← s.dropKey
  .ok ({ s with level := s.level - 1, keyAllowed := false, cursor := s.cursor.advance 1 }.emit token)

/-- A dash or a question mark, which may open a block. -/
def takeIndicator (s : Lexer) (block token : Token) (keyAllowed : Bool) : Except Problem Lexer := do
  if s.inFlow then s.takeSign keyAllowed 1 token
  else
    let s ← require s.keyAllowed s
    (s.openBlock s.cursor.column block s.tokens.length).takeSign keyAllowed 1 token

/-- A colon: it makes a key of what could be one, or else belongs to a key with a question mark. -/
def takeColon (s : Lexer) : Except Problem Lexer :=
  match s.possibleKeys.find? fun key => key.level = s.level with
  | some key =>
    let s := { s with
      possibleKeys := s.possibleKeys.filter fun key => key.level ≠ s.level
      tokens := s.tokens.insertIdx key.tokenNumber .key }
    let s := if s.inFlow then s else s.openBlock key.column .blockMappingStart key.tokenNumber
    .ok ({ s with keyAllowed := false, cursor := s.cursor.advance 1 }.emit .value)
  | none => s.takeIndicator .blockMappingStart .value (!s.inFlow)

/-- A token that may be a key, read from its first character on. -/
def takeContent (s : Lexer) (scan : Cursor → Except Problem (Token × Cursor)) : Except Problem Lexer := do
  let s ← s.saveKey
  let (token, cursor) ← scan s.cursor
  .ok ({ s with keyAllowed := false, cursor }.emit token)

def scanAnchor (c : Cursor) : Except Problem (Token × Cursor) :=
  (Token.scanName (c.advance 1)).map fun (name, c) => (.anchor name, c)

def scanAlias (c : Cursor) : Except Problem (Token × Cursor) :=
  (Token.scanName (c.advance 1)).map fun (name, c) => (.alias name, c)

def scanTag (c : Cursor) : Except Problem (Token × Cursor) :=
  (Token.scanTag c).map fun (tag, c) => (.tag tag, c)

def scanQuoted (mark : Char) (c : Cursor) : Except Problem (Token × Cursor) :=
  (Token.scanQuoted mark c).map fun (value, c) => (.scalar value false, c)

def takeBlockScalar (s : Lexer) (folded : Bool) : Except Problem Lexer := do
  let s ← s.dropKey
  let (value, cursor) ← Token.scanBlock folded s.indent s.cursor
  .ok ({ s with keyAllowed := true, cursor }.emit (.scalar value false))

def takePlain (s : Lexer) : Except Problem Lexer := do
  let s ← s.saveKey
  let (value, keyAllowed, cursor) := Token.scanPlain s.inFlow s.indent s.cursor
  .ok ({ s with keyAllowed, cursor }.emit (.scalar value true))

/-- Whether a plain scalar may begin here. -/
def startsPlain (s : Lexer) : Bool :=
  match s.cursor.peek with
  | none => false
  | some c =>
    if isOneOf "-?:" c then
      !s.cursor.blankAt 1 && (c = .scalar '-' || !s.inFlow)
    else !isSpaceOrTab c && !isBreak c && !isOneOf ",[]\x7b\x7d#&*!|>'\"%@`" c

/-- The next token. -/
def takeToken (s : Lexer) (first : CodePoint) : Except Problem Lexer :=
  let c := s.cursor
  let atMargin : Bool := c.column = 0
  let isIndicator := s.inFlow || c.blankAt 1
  let other : Except Problem Lexer := if s.startsPlain then s.takePlain else .error .malformed
  match first with
  | .scalar '%' => if atMargin then s.takeDirective else other
  | .scalar '[' => s.takeFlowStart .flowSequenceStart
  | .scalar '\x7b' => s.takeFlowStart .flowMappingStart
  | .scalar ']' => s.takeFlowEnd .flowSequenceEnd
  | .scalar '\x7d' => s.takeFlowEnd .flowMappingEnd
  | .scalar ',' => s.takeSign true 1 .flowEntry
  | .scalar '-' =>
    if atMargin && c.atMarker "---" then s.takeDocumentMarker .documentStart
    else if c.blankAt 1 then s.takeIndicator .blockSequenceStart .blockEntry true
    else other
  | .scalar '.' =>
    if atMargin && c.atMarker "..." then s.takeDocumentMarker .documentEnd else other
  | .scalar '?' => if isIndicator then s.takeIndicator .blockMappingStart .key (!s.inFlow) else other
  | .scalar ':' => if isIndicator then s.takeColon else other
  | .scalar '*' => s.takeContent scanAlias
  | .scalar '&' => s.takeContent scanAnchor
  | .scalar '!' => s.takeContent scanTag
  | .scalar '|' => if s.inFlow then other else s.takeBlockScalar false
  | .scalar '>' => if s.inFlow then other else s.takeBlockScalar true
  | .scalar '\'' => s.takeContent (scanQuoted '\'')
  | .scalar '"' => s.takeContent (scanQuoted '"')
  | _ => other

/-! ## All tokens -/

/-- The end of the text closes all blocks. -/
def finish (s : Lexer) : Except Problem Lexer := do
  let s ← (s.unwind (-1)).dropKey
  .ok ({ s with keyAllowed := false, possibleKeys := [] }.emit .streamEnd)

/-- Up to the next token; the flag says that the text has ended. -/
def step (s : Lexer) : Except Problem (Lexer × Bool) := do
  let s ← (skipToToken (s.cursor.rest.length + 1) s).dropStaleKeys
  let s := s.unwind s.cursor.column
  match s.cursor.peek with
  | none => .ok (← s.finish, true)
  | some first => .ok (← s.takeToken first, false)

/-- The tokens whose role is settled when reading stops. -/
def settled (s : Lexer) : List Token :=
  match (s.possibleKeys.filter fun key => !isStale s.cursor key).map (·.tokenNumber) with
  | [] => s.tokens
  | number :: numbers => s.tokens.take (numbers.foldl min number)

/-- Token after token. The first argument bounds their number. -/
def run : Nat → Lexer → TokenStream
  | 0, s => ⟨s.tokens, some .malformed⟩
  | fuel + 1, s =>
    match s.step with
    | .error problem => ⟨s.settled, some problem⟩
    | .ok (s, true) => ⟨s.tokens, none⟩
    | .ok (s, false) => run fuel s

end Lexer

/-- The tokens of a text. A byte order mark in front of it does not count. -/
def TokenStream.ofText (t : Text) : TokenStream :=
  if !t.all isAllowed then ⟨[], some .malformed⟩
  else
    let s := Lexer.start t
    let s := if s.cursor.peek = some (.scalar '\uFEFF') then { s with cursor := s.cursor.advance 1 } else s
    s.run (t.length + 2)

end ModuleCatalog.Yaml
