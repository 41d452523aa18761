import ModuleCatalog.Text.Digit

/-!
# Tags of plain scalars

A plain scalar without a tag is a truth value, a number, a null, a date or a text, as its characters
say. The rules are tried in a fixed order. A line end at the very end of a scalar does not count.
-/

namespace ModuleCatalog.Yaml

inductive Tag
  | null
  | boolean
  | integer
  | float
  | text
  | binary
  | timestamp
  | sequence
  | mapping
  | set
  | orderedMapping
  | pairs
  | merge
  | value
  | other (name : Text)
  deriving DecidableEq, Repr

namespace Tag

def standardNamespace : Text := "tag:yaml.org,2002:"

/-- The tag of a full name. -/
def ofName (name : Text) : Tag :=
  let standard : List (Text × Tag) :=
    [("null", .null), ("bool", .boolean), ("int", .integer), ("float", .float), ("str", .text),
     ("binary", .binary), ("timestamp", .timestamp), ("seq", .sequence), ("map", .mapping),
     ("set", .set), ("omap", .orderedMapping), ("pairs", .pairs), ("merge", .merge), ("value", .value)]
  match (Text.dropLiteral? standardNamespace name).bind fun local' =>
    (standard.find? fun (known, _) => known = local') with
  | some (_, tag) => tag
  | none => .other name

end Tag

/-! ## Forms -/

/-- A form is recognised at the front of a text, and leaves the rest. -/
abbrev Form := Text → Option Text

namespace Form

def one (isIn : CodePoint → Bool) : Form
  | c :: rest => if isIn c then some rest else none
  | [] => none

def isSign (c : CodePoint) : Bool := c = .scalar '-' || c = .scalar '+'

def isDigitOrUnderscore (c : CodePoint) : Bool := c.isAsciiDigit || c = .scalar '_'

def isBetween (low high : Char) (c : CodePoint) : Bool := low.toNat ≤ c.toNat && c.toNat ≤ high.toNat

def char (x : Char) : Form := one (· = .scalar x)

def digit : Form := one CodePoint.isAsciiDigit

def optional (form : Form) : Form := fun t => some ((form t).getD t)

/-- As many characters of a class as there are. -/
def many (isIn : CodePoint → Bool) : Form := fun t => some (t.dropWhile isIn)

def many1 (isIn : CodePoint → Bool) : Form := fun t => (one isIn t).bind (many isIn)

/-- One form behind the other. -/
def chain : List Form → Form
  | [] => some
  | form :: forms => fun t => (form t).bind (chain forms)

def sign : Form := optional (one isSign)

/-- A digit, and then digits and underscores. -/
def digits : Form := chain [digit, many isDigitOrUnderscore]

def exponent : Form :=
  optional (chain [one fun c => c = .scalar 'e' || c = .scalar 'E', one isSign,
    many1 CodePoint.isAsciiDigit])

/-- A colon and a number below sixty, as many times as there are. The first argument bounds their
number. -/
def sixtieths : Nat → Form
  | 0 => some
  | fuel + 1 => fun t =>
    let two := chain [char ':', one (isBetween '0' '5'), digit]
    let single := chain [char ':', digit]
    match (two t).or (single t) with
    | some rest => sixtieths fuel rest
    | none => some t

def sixtieths1 : Form := fun t =>
  if t.head? = some (.scalar ':') then
    (sixtieths t.length t).bind fun rest => if rest.length < t.length then some rest else none
  else none

/-- Whether a form covers a whole text. -/
def covers (form : Form) (t : Text) : Bool := form t = some []

def words (ws : List String) (t : Text) : Bool := ws.any fun w => t = Text.ofString w

def isTruthValue (t : Text) : Bool :=
  words ["yes", "Yes", "YES", "no", "No", "NO", "true", "True", "TRUE", "false", "False", "FALSE",
    "on", "On", "ON", "off", "Off", "OFF"] t

def isFloat (t : Text) : Bool :=
  covers (chain [sign, digits, char '.', many isDigitOrUnderscore, exponent]) t ||
  covers (chain [char '.', digits, exponent]) t ||
  covers (chain [sign, digits, sixtieths1, char '.', many isDigitOrUnderscore]) t ||
  words [".inf", ".Inf", ".INF"] ((sign t).getD t) ||
  words [".nan", ".NaN", ".NAN"] t

def isInteger (t : Text) : Bool :=
  let positive := chain [one (isBetween '1' '9'), many isDigitOrUnderscore]
  let isHexadecimal (c : CodePoint) : Bool := c.hexValue?.isSome || c = .scalar '_'
  covers (chain [sign, char '0', char 'b', many1 fun c => isBetween '0' '1' c || c = .scalar '_']) t ||
  covers (chain [sign, char '0', many1 fun c => isBetween '0' '7' c || c = .scalar '_']) t ||
  covers (chain [sign, char '0']) t ||
  covers (chain [sign, positive]) t ||
  covers (chain [sign, char '0', char 'x', many1 isHexadecimal]) t ||
  covers (chain [sign, positive, sixtieths1]) t

def isNull (t : Text) : Bool := words ["~", "null", "Null", "NULL"] t

def twoDigits : Form := chain [digit, digit]

def oneOrTwoDigits : Form := chain [digit, optional digit]

def year : Form := chain [twoDigits, twoDigits]

/-- A time zone: the letter for the zero meridian, or hours and perhaps minutes east or west of it. -/
def zone : Form := fun t =>
  let spaces := many fun c => c = .scalar ' ' || c = .scalar '\t'
  let offset := chain [one isSign, oneOrTwoDigits, optional (chain [char ':', twoDigits])]
  (chain [spaces, fun t => (char 'Z' t).or (offset t)]) t

/-- What separates a date from a time. -/
def dateEnd : Form := fun t =>
  (one (fun c => c = .scalar 'T' || c = .scalar 't') t).or
    (many1 (fun c => c = .scalar ' ' || c = .scalar '\t') t)

def time : Form :=
  chain [oneOrTwoDigits, char ':', twoDigits, char ':', twoDigits,
    optional (chain [char '.', many CodePoint.isAsciiDigit]), optional zone]

def isTimestamp (t : Text) : Bool :=
  covers (chain [year, char '-', twoDigits, char '-', twoDigits]) t ||
  covers (chain [year, char '-', oneOrTwoDigits, char '-', oneOrTwoDigits, dateEnd, time]) t

end Form

/-- The tag of a plain scalar. -/
def Tag.ofPlain (value : Text) : Tag :=
  let t := if value.getLast? = some (.scalar '\n') then value.dropLast else value
  if Form.isTruthValue t then .boolean
  else if Form.isFloat t then .float
  else if Form.isInteger t then .integer
  else if t = "<<" then .merge
  else if value.isEmpty || Form.isNull t then .null
  else if Form.isTimestamp t then .timestamp
  else if t = "=" then .value
  else if Form.words ["!", "&", "*"] t then .other (standardNamespace ++ "yaml")
  else .text

end ModuleCatalog.Yaml
