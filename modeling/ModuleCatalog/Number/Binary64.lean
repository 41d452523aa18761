/-!
# Floating-point numbers of 64 bits

A number is a sign, a significand below `2 ^ 53` and an exponent from `-1074` to `971`, and stands for
`± significand · 2 ^ exponent`. Every operation computes with exact fractions and rounds once, to the
nearest number and to the even significand between two.
-/

namespace ModuleCatalog

inductive Binary64
  | nan
  | infinity (negative : Bool)
  | finite (negative : Bool) (significand : Nat) (exponent : Int)
  deriving DecidableEq, Repr

namespace Binary64

/-- The least exponent. -/
def leastExponent : Int := -1074

/-- The greatest exponent. -/
def greatestExponent : Int := 971

/-- The bits of a significand. -/
def precision : Nat := 53

/-- A zero with a sign. -/
def zero (negative : Bool) : Binary64 := .finite negative 0 leastExponent

/-- The quotient of two natural numbers, rounded to the nearest integer and to the even one of two. -/
def roundQuotient (numerator denominator : Nat) : Nat :=
  let quotient := numerator / denominator
  let rest := 2 * (numerator % denominator)
  if rest < denominator ∨ (rest = denominator ∧ quotient % 2 = 0) then quotient else quotient + 1

/-- `numerator / denominator` divided by `2 ^ exponent`, as a fraction. -/
def scaled (numerator denominator : Nat) (exponent : Int) : Nat × Nat :=
  match exponent with
  | .ofNat e => (numerator, denominator * Nat.pow 2 e)
  | .negSucc e => (numerator * Nat.pow 2 (e + 1), denominator)

/-- The exponent at which a positive fraction has a significand of full length, not below the least. -/
def exponentFor (numerator denominator : Nat) : Int :=
  let guess := (numerator.log2 : Int) - (denominator.log2 : Int) - (precision : Int) + 1
  let (n, d) := scaled numerator denominator guess
  let exact := if n < d * Nat.pow 2 (precision - 1) then guess - 1 else guess
  max exact leastExponent

/-- The number nearest to a fraction. -/
def ofFraction (negative : Bool) (numerator denominator : Nat) : Binary64 :=
  if numerator = 0 then zero negative
  else
    let exponent := exponentFor numerator denominator
    let (n, d) := scaled numerator denominator exponent
    let significand := roundQuotient n d
    let (significand, exponent) :=
      if significand = Nat.pow 2 precision then (Nat.pow 2 (precision - 1), exponent + 1)
      else (significand, exponent)
    if exponent > greatestExponent then .infinity negative else .finite negative significand exponent

/-- The number nearest to `digits · 10 ^ exponent`. Exponents far outside the range are decided from
the number of digits alone. -/
def ofDecimal (negative : Bool) (digits : Nat) (exponent : Int) : Binary64 :=
  if digits = 0 then zero negative
  else
    let magnitude : Int := (digits.log2 : Int) * 30103 / 100000 + exponent
    if magnitude > 400 then .infinity negative
    else if magnitude < -400 then zero negative
    else
      match exponent with
      | .ofNat e => ofFraction negative (digits * Nat.pow 10 e) 1
      | .negSucc e => ofFraction negative digits (Nat.pow 10 (e + 1))

/-- The number nearest to an integer. -/
def ofInt (i : Int) : Binary64 := ofFraction (i < 0) i.natAbs 1

/-- Whether a number is zero, of either sign. -/
def isZero : Binary64 → Bool
  | .finite _ significand _ => significand = 0
  | _ => false

def isFinite : Binary64 → Bool
  | .finite .. => true
  | _ => false

def negate : Binary64 → Binary64
  | .nan => .nan
  | .infinity negative => .infinity !negative
  | .finite negative significand exponent => .finite (!negative) significand exponent

/-- A finite number as an integer numerator over a power of two. -/
def toFraction (negative : Bool) (significand : Nat) (exponent : Int) : Int × Nat :=
  let (n, d) :=
    match exponent with
    | .ofNat e => (significand * Nat.pow 2 e, 1)
    | .negSucc e => (significand, Nat.pow 2 (e + 1))
  (if negative then -(n : Int) else n, d)

/-- Whether a number is exactly an integer. -/
def equalsInt (x : Binary64) (i : Int) : Bool :=
  match x with
  | .finite negative significand exponent =>
    let (n, d) := toFraction negative significand exponent
    n = i * d
  | _ => false

/-- The sum, rounded once. -/
def add : Binary64 → Binary64 → Binary64
  | .nan, _ => .nan
  | _, .nan => .nan
  | .infinity a, .infinity b => if a = b then .infinity a else .nan
  | .infinity a, .finite .. => .infinity a
  | .finite .., .infinity b => .infinity b
  | .finite s m e, .finite t n f =>
    let (a, c) := toFraction s m e
    let (b, d) := toFraction t n f
    let sum := a * d + b * c
    if sum = 0 then zero (s && t) else ofFraction (sum < 0) sum.natAbs (c * d)

/-- The product, rounded once. -/
def mul : Binary64 → Binary64 → Binary64
  | .nan, _ => .nan
  | _, .nan => .nan
  | .infinity a, .infinity b => .infinity (a != b)
  | .infinity a, .finite t n _ => if n = 0 then .nan else .infinity (a != t)
  | .finite s m _, .infinity b => if m = 0 then .nan else .infinity (s != b)
  | .finite s m e, .finite t n f =>
    let (a, c) := toFraction false m e
    let (b, d) := toFraction false n f
    ofFraction (s != t) (a.natAbs * b.natAbs) (c * d)

end Binary64

end ModuleCatalog
