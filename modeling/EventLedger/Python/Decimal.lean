import Mathlib.Data.Nat.Log
import Mathlib.Tactic.Ring

namespace EventLedger.Python

/-- A decimal counts ten-thousandths, the scale of every amount that the schemas and columns admit. -/
@[ext] structure Decimal where
  units : Int
  deriving DecidableEq, Repr

namespace Decimal

/-- The default decimal context keeps 28 significant digits. -/
def precision : Nat := 28

/-- This function rounds a coefficient to a multiple of the scale, with ties to the even multiple. -/
def roundHalfEven (coefficient scale : Nat) : Nat :=
  let quotient := coefficient / scale
  let remainder := coefficient % scale
  if 2 * remainder < scale then quotient * scale
  else if scale < 2 * remainder then (quotient + 1) * scale
  else if quotient % 2 = 0 then quotient * scale
  else (quotient + 1) * scale

/-- A result with too many digits keeps the leading digits of the context precision. -/
def fix (units : Int) : Decimal :=
  if units.natAbs < 10 ^ precision then ⟨units⟩
  else
    let digits := Nat.log 10 units.natAbs + 1
    ⟨units.sign * roundHalfEven units.natAbs (10 ^ (digits - precision))⟩

instance : Zero Decimal := ⟨⟨0⟩⟩

/-- The decimal sum is rounded to the context precision. -/
instance : Add Decimal := ⟨fun left right => fix (left.units + right.units)⟩

/-- The decimal negation is rounded to the context precision. -/
instance : Neg Decimal := ⟨fun value => fix (-value.units)⟩

/-- The context represents these numbers of ten-thousandths without rounding. -/
def Exact (units : Int) : Prop := fix units = ⟨units⟩

instance (units : Int) : Decidable (Exact units) := inferInstanceAs (Decidable (_ = _))

@[simp] theorem zero_units : (0 : Decimal).units = 0 := rfl

/-- A number of at most 28 digits is not rounded. -/
theorem exact_of_lt {units : Int} (small : units.natAbs < 10 ^ precision) : Exact units :=
  if_pos small

theorem fix_units {units : Int} (fits : Exact units) : (fix units).units = units :=
  congrArg Decimal.units fits

/-- The rounding is symmetric. -/
theorem fix_neg (units : Int) : fix (-units) = ⟨-(fix units).units⟩ := by
  unfold fix
  rw [Int.natAbs_neg, Int.sign_neg]
  split
  · rfl
  · exact Decimal.ext (Int.neg_mul ..)

theorem Exact.neg {units : Int} (fits : Exact units) : Exact (-units) := by
  rw [Exact, fix_neg, fix_units fits]

/-- A sum that the context represents is exact. -/
theorem add_units {left right : Decimal} (fits : Exact (left.units + right.units)) :
    (left + right).units = left.units + right.units := fix_units fits

/-- The negation of an accepted amount is exact. -/
theorem neg_units {value : Decimal} (fits : Exact value.units) :
    (-value).units = -value.units :=
  fix_units fits.neg

end Decimal
end EventLedger.Python
