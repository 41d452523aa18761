import ModuleCatalog.Number.Binary64
import ModuleCatalog.Number.Decimal

/-!
# Floating-point numbers as people write them

A number is digits with at most one point and an optional exponent, or one of the names of the infinity
and of the number that is none; blanks around it and a sign in front of it are allowed, letters may have
either case, and digits may come from any script. Information separators are no such blanks.
-/

namespace ModuleCatalog.FloatText

/-- Digits of any script at the front of a text, and the rest. -/
def spanDigits (t : Text) : List Nat × Text :=
  match t with
  | [] => ([], [])
  | c :: rest =>
    match c.decimalValue? with
    | some d => let (ds, rest) := spanDigits rest; (d :: ds, rest)
    | none => ([], c :: rest)

def toNat (digits : List Nat) : Nat := digits.foldl (fun n d => n * 10 + d) 0

/-- An exponent at the end of a number; without one it is zero. -/
def exponent? : Text → Option Int
  | [] => some 0
  | .scalar e :: rest =>
    if e = 'e' ∨ e = 'E' then
      let (negative, rest) := match rest with
        | .scalar '-' :: rest => (true, rest)
        | .scalar '+' :: rest => (false, rest)
        | rest => (false, rest)
      match spanDigits rest with
      | ([], _) => none
      | (digits, []) => some (if negative then -(toNat digits : Int) else toNat digits)
      | _ => none
    else none
  | .surrogate _ :: _ => none

/-- A letter of the basic alphabet in lower case. -/
def lowerAscii : CodePoint → CodePoint
  | .scalar c => .scalar c.toLower
  | c => c

/-- A number without its sign. -/
def magnitude? (negative : Bool) (t : Text) : Option Binary64 :=
  let name := t.map lowerAscii
  if name = "inf" ∨ name = "infinity" then some (.infinity negative)
  else if name = "nan" then some .nan
  else
    let (whole, rest) := spanDigits t
    let (part, rest) := match rest with
      | .scalar '.' :: rest => spanDigits rest
      | rest => ([], rest)
    if whole.isEmpty && part.isEmpty then none
    else (exponent? rest).map fun e =>
      Binary64.ofDecimal negative (toNat (whole ++ part)) (e - part.length)

/-- The number nearest to what a text says. -/
def read? (t : Text) : Option Binary64 :=
  match t.trimAround with
  | .scalar '-' :: rest => magnitude? true rest
  | .scalar '+' :: rest => magnitude? false rest
  | rest => magnitude? false rest

end ModuleCatalog.FloatText
