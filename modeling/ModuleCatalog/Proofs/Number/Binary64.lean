import Mathlib.Tactic.FieldSimp
import Mathlib.Tactic.NormNum
import ModuleCatalog.Number.Binary64

/-!
# The value of a floating-point number

A finite number stands for a rational one. The comparison with an integer is exact: it is the equality of
rational numbers.
-/

namespace ModuleCatalog.Binary64

/-- The rational number that a number stands for, if it is finite. -/
def toRat? : Binary64 → Option ℚ
  | .finite negative significand exponent =>
    some ((if negative then -1 else 1) * significand * (2 : ℚ) ^ exponent)
  | .nan | .infinity _ => none

theorem toFraction_eq (negative : Bool) (significand : Nat) (exponent : Int) :
    ((toFraction negative significand exponent).1 : ℚ) =
      (if negative then -1 else 1) * significand * (2 : ℚ) ^ exponent *
        (toFraction negative significand exponent).2 := by
  cases exponent with
  | ofNat e => cases negative <;> simp [toFraction]
  | negSucc e => cases negative <;> simp [toFraction]

theorem toFraction_pos (negative : Bool) (significand : Nat) (exponent : Int) :
    0 < (toFraction negative significand exponent).2 := by
  cases exponent with
  | ofNat e => exact Nat.one_pos
  | negSucc e => exact Nat.pow_pos (by decide)

/-- A number is found equal to an integer exactly if it stands for it. -/
theorem equalsInt_iff (x : Binary64) (i : Int) : x.equalsInt i ↔ x.toRat? = some (i : ℚ) := by
  cases x with
  | nan => simp [equalsInt, toRat?]
  | infinity negative => simp [equalsInt, toRat?]
  | finite negative significand exponent =>
    have hvalue := toFraction_eq negative significand exponent
    have hpos : ((toFraction negative significand exponent).2 : ℚ) ≠ 0 := by
      exact_mod_cast (toFraction_pos negative significand exponent).ne'
    simp only [equalsInt, toRat?, decide_eq_true_eq, Option.some.injEq]
    constructor
    · intro h
      apply mul_right_cancel₀ hpos
      rw [← hvalue, h]
      push_cast
      rfl
    · intro h
      rw [h] at hvalue
      exact_mod_cast hvalue

end ModuleCatalog.Binary64
