import ModuleCatalog.Json.Basic
import ModuleCatalog.Text.Digit
import ModuleCatalog.Number.Decimal

/-!
# Reading JSON

The reader takes one value from the front of a text, and `parse` takes a whole text. Blanks are the
space, the tab, LF and CR. Besides the standard notation it knows the names of the infinities and of
the number that is none. A member that is repeated keeps its first place and takes its last value.
An error says what was expected and how much of the text was left where it was expected.
-/

namespace ModuleCatalog.Json

/-- What is wrong at a place of a text. -/
inductive Problem
  | expectedValue
  | extraData
  | expectedComma
  | expectedName
  | expectedColon
  | unterminatedString
  | controlCharacter
  | badEscape
  | badUnicodeEscape
  | byteOrderMark
  deriving DecidableEq, Repr

/-- A problem and the number of code points from its place to the end. -/
structure Error where
  problem : Problem
  left : Nat
  deriving DecidableEq, Repr

def Problem.message : Problem → Text
  | .expectedValue => "Expecting value"
  | .extraData => "Extra data"
  | .expectedComma => "Expecting ',' delimiter"
  | .expectedName => "Expecting property name enclosed in double quotes"
  | .expectedColon => "Expecting ':' delimiter"
  | .unterminatedString => "Unterminated string starting at"
  | .controlCharacter => "Invalid control character at"
  | .badEscape => "Invalid \\escape"
  | .badUnicodeEscape => "Invalid \\uXXXX escape"
  | .byteOrderMark => "Unexpected UTF-8 BOM (decode using utf-8-sig)"

/-- The place of an error in a text. -/
def Error.position (e : Error) (text : Text) : Nat := text.length - e.left

/-- An error with the line, the column and the offset of its place. Lines end with LF only. -/
def Error.message (e : Error) (text : Text) : Text :=
  let before := text.take (e.position text)
  let line := before.count (.scalar '\n') + 1
  let column := (before.reverse.takeWhile (· ≠ .scalar '\n')).length + 1
  e.problem.message ++ ": line " ++ Decimal.ofNat line ++ " column " ++ Decimal.ofNat column ++
    " (char " ++ Decimal.ofNat before.length ++ ")"

def skipSpace (t : Text) : Text := t.dropWhile isSpace

/-- What a letter after a backslash stands for. -/
def simpleEscape? : CodePoint → Option CodePoint
  | .scalar '"' => some (.scalar '"')
  | .scalar '\\' => some (.scalar '\\')
  | .scalar '/' => some (.scalar '/')
  | .scalar 'b' => some (.scalar '\x08')
  | .scalar 'f' => some (.scalar '\x0C')
  | .scalar 'n' => some (.scalar '\n')
  | .scalar 'r' => some (.scalar '\r')
  | .scalar 't' => some (.scalar '\t')
  | _ => none

/-- The number of four hexadecimal digits that are not the last characters of a text. -/
def unit? : Text → Option (Nat × Text)
  | a :: b :: c :: d :: next :: rest => do
    let a ← a.hexValue?
    let b ← b.hexValue?
    let c ← c.hexValue?
    let d ← d.hexValue?
    some (((a * 16 + b) * 16 + c) * 16 + d, next :: rest)
  | _ => none

/-- The number that the two halves of a pair stand for. -/
def joinPair (high low : Nat) : Nat := 0x10000 + (high - 0xD800) * 0x400 + (low - 0xDC00)

/-- The character after `\u`. A first half is joined with a second half written right after it. -/
def unicodeEscape (t : Text) : Except Error (CodePoint × Text) :=
  match unit? t with
  | none => .error ⟨.badUnicodeEscape, t.length + 1⟩
  | some (high, rest) =>
    let alone := (CodePoint.ofNat high, rest)
    if (CodePoint.ofNat high).isHighSurrogate then
      match Text.dropLiteral? "\\u" rest with
      | none => .ok alone
      | some second =>
        if second.length ≤ 4 then .ok alone
        else
          match unit? second with
          | none => .error ⟨.badUnicodeEscape, second.length + 1⟩
          | some (low, rest) =>
            if (CodePoint.ofNat low).isLowSurrogate then
              .ok (CodePoint.ofNat (joinPair high low), rest)
            else .ok alone
    else .ok alone

/-- The characters of a string up to its closing quotation mark; `opened` is what was left at the
opening one. -/
def readCharacters (opened : Nat) : Nat → Text → Except Error (Text × Text)
  | 0, _ => .error ⟨.unterminatedString, opened⟩
  | _ + 1, [] => .error ⟨.unterminatedString, opened⟩
  | fuel + 1, c :: t =>
    if c = .scalar '"' then .ok ([], t)
    else if c = .scalar '\\' then
      match t with
      | [] => .error ⟨.unterminatedString, opened⟩
      | e :: rest =>
        if e = .scalar 'u' then do
          let (c, rest) ← unicodeEscape rest
          let (s, rest) ← readCharacters opened fuel rest
          .ok (c :: s, rest)
        else
          match simpleEscape? e with
          | none => .error ⟨.badEscape, t.length + 1⟩
          | some c => do
            let (s, rest) ← readCharacters opened fuel rest
            .ok (c :: s, rest)
    else if c.toNat < 0x20 then .error ⟨.controlCharacter, t.length + 1⟩
    else do
      let (s, rest) ← readCharacters opened fuel t
      .ok (c :: s, rest)

/-- A string after its opening quotation mark. -/
def readString (t : Text) : Except Error (Text × Text) :=
  readCharacters (t.length + 1) (t.length + 1) t

/-- Basic digits at the front of a text. -/
def spanDigits (t : Text) : Text × Text :=
  (t.takeWhile CodePoint.isAsciiDigit, t.dropWhile CodePoint.isAsciiDigit)

/-- The digits before the point: a zero alone, or digits that begin with another one. -/
def wholeDigits? (t : Text) : Option (Text × Text) :=
  match t with
  | .scalar '0' :: rest => some ([.scalar '0'], rest)
  | t =>
    match spanDigits t with
    | ([], _) => none
    | digits => some digits

/-- The digits after a point; without any, the point is not part of the number. -/
def fractionDigits (t : Text) : Text × Text :=
  match t with
  | .scalar '.' :: rest =>
    match spanDigits rest with
    | ([], _) => ([], t)
    | digits => digits
  | t => ([], t)

/-- The exponent of a number; without digits, the letter is not part of the number. -/
def exponent? (t : Text) : Option (Int × Text) :=
  match t with
  | c :: rest =>
    if c = .scalar 'e' ∨ c = .scalar 'E' then
      let (negative, rest) := match rest with
        | .scalar '-' :: rest => (true, rest)
        | .scalar '+' :: rest => (false, rest)
        | rest => (false, rest)
      match spanDigits rest with
      | ([], _) => none
      | (digits, rest) =>
        let n := Decimal.toNat digits
        some (if negative then -(n : Int) else n, rest)
    else none
  | [] => none

/-- A number without its sign. -/
def readMagnitude? (negative : Bool) (t : Text) : Option (Json × Text) := do
  let (whole, rest) ← wholeDigits? t
  let (part, rest) := fractionDigits rest
  match part, exponent? rest with
  | [], none =>
    let n := Decimal.toNat whole
    some (.integer (if negative then -(n : Int) else n), rest)
  | part, power =>
    let (e, rest) := power.getD (0, rest)
    some (.number (Binary64.ofDecimal negative (Decimal.toNat (whole ++ part)) (e - part.length)),
      rest)

/-- A number or one of the names. -/
def readPlain? (t : Text) : Option (Json × Text) :=
  let literals : List (Text × Json) :=
    [("null", .null), ("true", .boolean true), ("false", .boolean false), ("NaN", .number .nan),
     ("Infinity", .number (.infinity false)), ("-Infinity", .number (.infinity true))]
  let named := literals.findSome? fun (name, value) =>
    (Text.dropLiteral? name t).map fun rest => (value, rest)
  match named with
  | some found => some found
  | none =>
    match t with
    | .scalar '-' :: rest => readMagnitude? true rest
    | t => readMagnitude? false t

mutual

/-- A value at the front of a text. -/
def readValue : Nat → Text → Except Error (Json × Text)
  | 0, t => .error ⟨.expectedValue, t.length⟩
  | _ + 1, [] => .error ⟨.expectedValue, 0⟩
  | fuel + 1, c :: t =>
    if c = .scalar '"' then (readString t).map fun (s, rest) => (.string s, rest)
    else if c = .scalar '{' then
      match skipSpace t with
      | .scalar '}' :: rest => .ok (.object [], rest)
      | rest => (readMembers fuel rest).map fun (members, rest) =>
        (.object (Assoc.ofEntries members), rest)
    else if c = .scalar '[' then
      match skipSpace t with
      | .scalar ']' :: rest => .ok (.array [], rest)
      | rest => (readItems fuel rest).map fun (items, rest) => (.array items, rest)
    else
      match readPlain? (c :: t) with
      | some found => .ok found
      | none => .error ⟨.expectedValue, t.length + 1⟩

/-- The items of an array that is not empty, and its end. -/
def readItems : Nat → Text → Except Error (List Json × Text)
  | 0, t => .error ⟨.expectedValue, t.length⟩
  | fuel + 1, t => do
    let (item, rest) ← readValue fuel t
    match skipSpace rest with
    | .scalar ']' :: rest => .ok ([item], rest)
    | .scalar ',' :: rest =>
      let (items, rest) ← readItems fuel (skipSpace rest)
      .ok (item :: items, rest)
    | rest => .error ⟨.expectedComma, rest.length⟩

/-- The members of an object that is not empty, and its end. -/
def readMembers : Nat → Text → Except Error (List (Text × Json) × Text)
  | 0, t => .error ⟨.expectedName, t.length⟩
  | fuel + 1, t =>
    match t with
    | .scalar '"' :: rest => do
      let (name, rest) ← readString rest
      match skipSpace rest with
      | .scalar ':' :: rest =>
        let (value, rest) ← readValue fuel (skipSpace rest)
        match skipSpace rest with
        | .scalar '}' :: rest => .ok ([(name, value)], rest)
        | .scalar ',' :: rest =>
          let (members, rest) ← readMembers fuel (skipSpace rest)
          .ok ((name, value) :: members, rest)
        | rest => .error ⟨.expectedComma, rest.length⟩
      | rest => .error ⟨.expectedColon, rest.length⟩
    | t => .error ⟨.expectedName, t.length⟩

end

/-- The value that a whole text holds. -/
def parse (t : Text) : Except Error Json :=
  match t with
  | .scalar '\uFEFF' :: _ => .error ⟨.byteOrderMark, t.length⟩
  | t => do
    let (value, rest) ← readValue (2 * t.length + 2) (skipSpace t)
    match skipSpace rest with
    | [] => .ok value
    | rest => .error ⟨.extraData, rest.length⟩

end ModuleCatalog.Json
