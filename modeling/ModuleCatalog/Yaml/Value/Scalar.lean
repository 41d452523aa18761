import ModuleCatalog.Number.FloatText
import ModuleCatalog.Text.Lowercase
import ModuleCatalog.Yaml.Value.Basic

/-!
# The values of scalars

Numbers may hold underscores, which do not count, and may be written with colons between the places of
base sixty. Dates have to exist. Binary data are written in base 64, in which foreign characters do not
count.
-/

namespace ModuleCatalog.Yaml.Scalar

def truthWords : List (Text × Bool) :=
  [("yes", true), ("no", false), ("true", true), ("false", false), ("on", true), ("off", false)]

/-- A truth value, in letters of either case. -/
def boolean (t : Text) : Except Problem Value :=
  match Assoc.get? t.lower truthWords with
  | some value => .ok (.boolean value)
  | none => .error (.unknownTruthValue t.lower)

/-- A sign in front of a number, and the rest; a number must not be empty. -/
def splitSign (t : Text) : Except Problem (Bool × Text) :=
  match t with
  | [] => .error .emptyNumber
  | .scalar '-' :: rest => .ok (true, rest)
  | .scalar '+' :: rest => .ok (false, rest)
  | rest => .ok (false, rest)

def readInteger (base : Nat) (t : Text) : Except Problem Int :=
  match IntegerText.read? base t with
  | some i => .ok i
  | none => .error (.integerLiteral base t)

def readFloat (t : Text) : Except Problem Binary64 :=
  match FloatText.read? t with
  | some x => .ok x
  | none => .error (.floatLiteral t)

/-- The number whose places in base sixty are given, the lowest one last. -/
def sexagesimal (places : List Int) : Int := places.foldl (fun n place => n * 60 + place) 0

/-- A number without its sign: a letter behind a zero names the base, a zero alone base eight. -/
def magnitude (t : Text) : Except Problem Int :=
  if t = "0" then .ok 0
  else if Text.startsWith t "0b" then readInteger 2 (t.drop 2)
  else if Text.startsWith t "0x" then readInteger 16 (t.drop 2)
  else
    match t with
    | [] => .error .emptyNumber
    | .scalar '0' :: _ => readInteger 8 t
    | t =>
      if t.contains (.scalar ':') then
        ((Text.splitOn ':' t).mapM (readInteger 10)).map sexagesimal
      else readInteger 10 t

def integer (t : Text) : Except Problem Value := do
  let (negative, rest) ← splitSign (Text.without '_' t)
  let n ← magnitude rest
  .ok (.integer (if negative then -n else n))

/-- Places in base sixty, the lowest one first, are added up from there, each sum rounded. -/
def addPlaces : Int → Binary64 → List Binary64 → Except Problem Binary64
  | _, sum, [] => .ok sum
  | weight, sum, place :: places =>
    match Binary64.ofInt weight with
    | .infinity _ => .error .floatRange
    | w => addPlaces (weight * 60) (sum.add (place.mul w)) places

def float (t : Text) : Except Problem Value := do
  let (negative, rest) ← splitSign (Text.lower (Text.without '_' t))
  let x ←
    if rest = ".inf" then .ok (.infinity false)
    else if rest = ".nan" then .ok .nan
    else if rest.contains (.scalar ':') then do
      let places ← (Text.splitOn ':' rest).mapM readFloat
      addPlaces 1 (Binary64.zero false) places.reverse
    else readFloat rest
  .ok (.float (if negative then x.negate else x))

/-! ## Binary data -/

/-- The value of a character of base 64. -/
def sextet? (c : CodePoint) : Option Nat :=
  let n := c.toNat
  if 0x41 ≤ n ∧ n ≤ 0x5A then some (n - 0x41)
  else if 0x61 ≤ n ∧ n ≤ 0x7A then some (n - 0x61 + 26)
  else if 0x30 ≤ n ∧ n ≤ 0x39 then some (n - 0x30 + 52)
  else if n = 0x2B then some 62
  else if n = 0x2F then some 63
  else none

/-- The bytes of characters of base 64, of which `place` is the number in the present group of four,
`carry` the bits left over and `pads` the padding seen. A group may end early only with padding. -/
def base64? : (place carry pads : Nat) → Text → Option Bytes
  | place, _, _, [] => if place = 0 then some [] else none
  | place, carry, pads, c :: rest =>
    if c = .scalar '=' then
      if place ≥ 2 && place + (pads + 1) ≥ 4 then some []
      else base64? place carry (if place ≥ 2 then pads + 1 else pads) rest
    else
      match sextet? c with
      | none => base64? place carry pads rest
      | some s =>
        match place with
        | 0 => base64? 1 s 0 rest
        | 1 => (base64? 2 (s % 16) 0 rest).map (UInt8.ofNat (carry * 4 + s / 16) :: ·)
        | 2 => (base64? 3 (s % 4) 0 rest).map (UInt8.ofNat (carry * 16 + s / 4) :: ·)
        | _ => (base64? 0 0 0 rest).map (UInt8.ofNat (carry * 64 + s) :: ·)

def binary (t : Text) : Except Problem Value :=
  if !t.all fun c => c.toNat < 0x80 then .error .malformed
  else
    match base64? 0 0 0 t with
    | some bytes => .ok (.bytes bytes)
    | none => .error .malformed

/-! ## Dates and times -/

def isLeapYear (year : Nat) : Bool := year % 4 = 0 && (year % 100 ≠ 0 || year % 400 = 0)

def daysIn (year month : Nat) : Nat :=
  if month = 2 then (if isLeapYear year then 29 else 28)
  else if month = 4 ∨ month = 6 ∨ month = 9 ∨ month = 11 then 30
  else 31

def checkDate (year month day : Nat) : Except DateProblem Unit :=
  if year = 0 then .error .yearZero
  else if month < 1 ∨ 12 < month then .error .month
  else if day < 1 ∨ daysIn year month < day then .error .day
  else .ok ()

def checkTime (hour minute second : Nat) : Except DateProblem Unit :=
  if 23 < hour then .error .hour
  else if 59 < minute then .error .minute
  else if 59 < second then .error .second
  else .ok ()

/-- An offset from the zero meridian is shorter than a day. -/
def checkOffset (east : Bool) (hours minutes : Nat) : Except DateProblem Unit :=
  let seconds : Int := (hours * 60 + minutes) * 60
  let seconds := if east then seconds else -seconds
  if -86400 < seconds ∧ seconds < 86400 then .ok ()
  else .error (.offset (seconds.fdiv 86400) (seconds.fmod 86400).toNat)

/-- The digits at the front of a text as a number, and the rest. -/
def spanNumber (t : Text) : Nat × Text :=
  (Decimal.toNat (t.takeWhile CodePoint.isAsciiDigit), t.dropWhile CodePoint.isAsciiDigit)

/-- The offset at the end of a time, if there is one. -/
def offset? (t : Text) : Option (Bool × Nat × Nat) :=
  match t with
  | .scalar sign :: rest =>
    if sign = '+' ∨ sign = '-' then
      let (hours, rest) := spanNumber rest
      let minutes := match rest with
        | .scalar ':' :: rest => (spanNumber rest).1
        | _ => 0
      some (sign = '+', hours, minutes)
    else none
  | _ => none

/-- Check the parts of a date or time that has the right form. -/
def checkTimestamp (t : Text) : Except DateProblem Unit := do
  let (year, rest) := spanNumber t
  let (month, rest) := spanNumber (rest.drop 1)
  let (day, rest) := spanNumber (rest.drop 1)
  if rest.isEmpty then checkDate year month day
  else
    let (hour, rest) := spanNumber (rest.dropWhile fun c => !c.isAsciiDigit)
    let (minute, rest) := spanNumber (rest.drop 1)
    let (second, rest) := spanNumber (rest.drop 1)
    let rest := rest.dropWhile fun c => c.isAsciiDigit || c = .scalar '.' || isSpaceOrTab c
    match offset? rest with
    | some (east, hours, minutes) => checkOffset east hours minutes
    | none => .ok ()
    checkDate year month day
    checkTime hour minute second

/-- Whether a scalar that is tagged as a date or time has the form of one; a date alone may have months
and days of one digit then. -/
def hasTimestampForm (t : Text) : Bool :=
  let t := if t.getLast? = some (.scalar '\n') then t.dropLast else t
  Form.isTimestamp t ||
    Form.covers (Form.chain [Form.year, Form.char '-', Form.oneOrTwoDigits, Form.char '-',
      Form.oneOrTwoDigits]) t

def timestamp (t : Text) : Except Problem Value :=
  if !hasTimestampForm t then .error .notTimestamp
  else
    let t := if t.getLast? = some (.scalar '\n') then t.dropLast else t
    match checkTimestamp t with
    | .ok () => .ok .timestamp
    | .error problem => .error (.date problem)

end ModuleCatalog.Yaml.Scalar
