import ModuleCatalog.Number.Binary64
import ModuleCatalog.Number.Decimal

/-!
# The shortest decimal that reads back

A finite number is shown by the fewest decimal digits that read back as it, and by the nearest such
decimal. Numbers from `0.0001` up to, but not including, `10 ^ 16` are written positionally and always
have a digit after the point; all others have an exponent of at least two digits.
-/

namespace ModuleCatalog

namespace Shortest

/-- A positive fraction. -/
structure Fraction where
  numerator : Nat
  denominator : Nat

/-- `numerator / denominator · 2 ^ exponent`. -/
def Fraction.ofBinary (significand : Nat) (exponent : Int) : Fraction :=
  match exponent with
  | .ofNat e => ⟨significand * Nat.pow 2 e, 1⟩
  | .negSucc e => ⟨significand, Nat.pow 2 (e + 1)⟩

/-- The reals that round to a number: both ends are included if its significand is even. -/
structure Interval where
  low : Fraction
  high : Fraction
  closed : Bool

/-- The reals that round to `significand · 2 ^ exponent`; below a power of two the numbers lie twice
as dense. -/
def interval (significand : Nat) (exponent : Int) : Interval :=
  let low :=
    if significand = Nat.pow 2 52 ∧ exponent ≠ Binary64.leastExponent then
      Fraction.ofBinary (4 * significand - 1) (exponent - 2)
    else Fraction.ofBinary (2 * significand - 1) (exponent - 1)
  ⟨low, Fraction.ofBinary (2 * significand + 1) (exponent - 1), significand % 2 = 0⟩

def Fraction.before (a b : Fraction) : Bool :=
  a.numerator * b.denominator < b.numerator * a.denominator

def Interval.contains (i : Interval) (x : Fraction) : Bool :=
  if i.closed then !x.before i.low && !i.high.before x else i.low.before x && x.before i.high

/-- `digits · 10 ^ exponent`. -/
def Fraction.ofDecimal (digits : Nat) (exponent : Int) : Fraction :=
  match exponent with
  | .ofNat e => ⟨digits * Nat.pow 10 e, 1⟩
  | .negSucc e => ⟨digits, Nat.pow 10 (e + 1)⟩

/-- The integral part of `x / 10 ^ exponent`. -/
def Fraction.floorAt (x : Fraction) (exponent : Int) : Nat :=
  match exponent with
  | .ofNat e => x.numerator / (x.denominator * Nat.pow 10 e)
  | .negSucc e => x.numerator * Nat.pow 10 (e + 1) / x.denominator

/-- The power of ten at or below a positive fraction, found downwards from a start above it. -/
def magnitude (x : Fraction) : Nat → Int → Int
  | 0, start => start
  | fuel + 1, start =>
    if x.before (Fraction.ofDecimal 1 start) then magnitude x fuel (start - 1) else start

/-- Of the two neighbours of `x` among the multiples of `10 ^ exponent`, the nearer one in the
interval; the even one of two that are equally near. -/
def nearestAt? (x : Fraction) (i : Interval) (exponent : Int) : Option Nat :=
  let down := x.floorAt exponent
  let up := down + 1
  let keepsDown := down ≠ 0 && i.contains (Fraction.ofDecimal down exponent)
  let keepsUp := i.contains (Fraction.ofDecimal up exponent)
  let middle : Fraction := Fraction.ofDecimal (10 * down + 5) (exponent - 1)
  match keepsDown, keepsUp with
  | true, true =>
    if x.before middle then some down
    else if middle.before x then some up
    else if down % 2 = 0 then some down else some up
  | true, false => some down
  | false, true => some up
  | false, false => none

/-- Trailing zeros of the digits go into the exponent. -/
def dropZeros : Nat → Nat → Int → Nat × Int
  | 0, digits, exponent => (digits, exponent)
  | fuel + 1, digits, exponent =>
    if digits ≠ 0 ∧ digits % 10 = 0 then dropZeros fuel (digits / 10) (exponent + 1)
    else (digits, exponent)

/-- Try more and more digits, down from the power of ten `top`. -/
def search (x : Fraction) (i : Interval) (top : Int) : Nat → Nat → Nat × Int
  | 0, _ => (0, 0)
  | fuel + 1, count =>
    match nearestAt? x i (top - count) with
    | some digits => dropZeros 20 digits (top - count)
    | none => search x i top fuel (count + 1)

/-- Digits and exponent of the shortest decimal of a positive number. -/
def decimal (significand : Nat) (exponent : Int) : Nat × Int :=
  let x := Fraction.ofBinary significand exponent
  let start : Int := ((significand.log2 : Int) + exponent) * 30103 / 100000 + 2
  search x (interval significand exponent) (magnitude x 4 start) 20 0

end Shortest

namespace Binary64

/-- Up to this power of ten numbers are written positionally. -/
def positionalBelow : Int := 16

/-- From this power of ten on numbers are written positionally. -/
def positionalFrom : Int := -4

/-- Digits with the point after the first `point` of them, and zeros where digits are missing. -/
def positional (digits : Text) (point : Int) : Text :=
  match point with
  | .ofNat n =>
    let whole := digits.take n ++ List.replicate (n - digits.length) (CodePoint.scalar '0')
    let part := digits.drop n
    let orZero (digits : Text) : Text := if digits.isEmpty then "0" else digits
    orZero whole ++ "." ++ orZero part
  | .negSucc n => "0." ++ List.replicate (n + 1) (CodePoint.scalar '0') ++ digits

/-- Digits with the point after the first of them, and an exponent. -/
def scientific (digits : Text) (exponent : Int) : Text :=
  let mantissa := match digits with
    | [] => []
    | [d] => [d]
    | d :: rest => d :: CodePoint.scalar '.' :: rest
  let power := Decimal.ofNat exponent.natAbs
  let power := if power.length < 2 then CodePoint.scalar '0' :: power else power
  mantissa ++ "e" ++ (if exponent < 0 then "-" else "+") ++ power

/-- A number as text. -/
def toText : Binary64 → Text
  | .nan => "nan"
  | .infinity negative => if negative then "-inf" else "inf"
  | .finite negative significand exponent =>
    let sign : Text := if negative then "-" else []
    if significand = 0 then sign ++ "0.0"
    else
      let (digits, power) := Shortest.decimal significand exponent
      let digits := Decimal.ofNat digits
      let leading : Int := power + digits.length - 1
      if positionalFrom ≤ leading ∧ leading < positionalBelow then
        sign ++ positional digits (leading + 1)
      else sign ++ scientific digits leading

end Binary64

end ModuleCatalog
