import ModuleCatalog.Text.Digit
import ModuleCatalog.Text.Blank

/-!
# Integers as text

Integers are written in base ten without leading zeros. Reading one that a person wrote is more
generous: blanks around it, a sign, single underscores between digits and the digits of any script.
Information separators are no such blanks.
-/

namespace ModuleCatalog

namespace Decimal

/-- The digit of a number below ten. -/
def digit (n : Nat) : CodePoint := .scalar (Char.ofNat (0x30 + n))

/-- The last `fuel` digits of a number, in front of `rest`, without leading zeros. -/
def digitsBefore : Nat → Nat → Text → Text
  | 0, _, rest => rest
  | fuel + 1, n, rest =>
    if n < 10 then digit n :: rest else digitsBefore fuel (n / 10) (digit (n % 10) :: rest)

/-- A natural number in base ten. -/
def ofNat (n : Nat) : Text := digitsBefore (n + 1) n []

/-- An integer in base ten, a minus sign in front of the negative ones. -/
def ofInt (i : Int) : Text :=
  match i with
  | .ofNat n => ofNat n
  | .negSucc n => .scalar '-' :: ofNat (n + 1)

/-- The number that a run of basic digits stands for. -/
def toNat (digits : Text) : Nat := digits.foldl (fun n c => n * 10 + (c.toNat - 0x30)) 0

end Decimal

namespace IntegerText

/-- Digits of a base, single underscores allowed between two of them; `value` is the number read so
far and `afterDigit` says whether a digit stands right before. -/
def digits? (base : Nat) : Bool → Nat → Text → Option Nat
  | true, value, [] => some value
  | false, _, [] => none
  | afterDigit, value, c :: t =>
    match c.digitValue? base with
    | some d => digits? base true (value * base + d) t
    | none => if afterDigit && c = .scalar '_' then digits? base false value t else none

/-- The letter that may announce a base after a zero. -/
def baseLetter? (base : Nat) : Option (Char × Char) :=
  match base with
  | 2 => some ('b', 'B')
  | 8 => some ('o', 'O')
  | 16 => some ('x', 'X')
  | _ => none

/-- A zero and the letter of the base are left out, with one underscore after them. -/
def dropBase (base : Nat) (t : Text) : Text :=
  match baseLetter? base, t with
  | some (low, high), first :: c :: rest =>
    if first.decimalValue? = some 0 ∧ (c = .scalar low ∨ c = .scalar high) then
      match rest with
      | .scalar '_' :: rest => rest
      | _ => rest
    else t
  | _, _ => t

/-- An integer of a base, with blanks around it and a sign in front of it allowed. -/
def read? (base : Nat) (t : Text) : Option Int :=
  match t.trimAround with
  | .scalar '-' :: rest => (digits? base false 0 (dropBase base rest)).map fun n => -(n : Int)
  | .scalar '+' :: rest => (digits? base false 0 (dropBase base rest)).map Int.ofNat
  | rest => (digits? base false 0 (dropBase base rest)).map Int.ofNat

end IntegerText

end ModuleCatalog
