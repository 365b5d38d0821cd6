import EventLedger.Library.Rounding
import EventLedger.Python.Decimal
import EventLedger.Python.Datetime

namespace EventLedger.Python
open Library

/-- A column type may change a value between the write and the read. -/
structure Storage where
  numeric : Decimal → Decimal
  dateTime : Datetime → Datetime

/-- The numeric columns return the decimals that were written. -/
def Storage.Exact (storage : Storage) : Prop := ∀ value, storage.numeric value = value

/-- The numeric columns keep each decimal, and the datetime column keeps the wall clock and drops the
UTC offset. -/
def Storage.wallClock : Storage := ⟨fun value => value, Datetime.dropOffset⟩

theorem Storage.wallClock_exact : Storage.wallClock.Exact := fun _ => rfl

/-- The numeric column stores a decimal as the nearest number with a significand of 53 bits. -/
def toBinary64 (value : Decimal) : Rat := roundSignificand 53 (value.units / 10 ^ 4)

/-- A read rounds the stored number to four decimals. -/
def readBinary64 (stored : Rat) : Decimal := ⟨roundEven (stored * 10 ^ 4)⟩

/-- The numeric columns store a binary number and the datetime column drops the UTC offset. -/
def Storage.binary64 : Storage :=
  ⟨fun value => readBinary64 (toBinary64 value), Datetime.dropOffset⟩

/-- The decimal survives the rounding to 53 bits and back to four decimals. -/
def Survives (value : Decimal) : Prop :=
  roundEven (roundSignificand 53 (value.units / 10 ^ 4) * 10 ^ 4) = value.units

instance (value : Decimal) : Decidable (Survives value) := inferInstanceAs (Decidable (_ = _))

/-- The numeric column reads back exactly the decimals that survive. -/
theorem binary64_eq_iff (value : Decimal) :
    Storage.binary64.numeric value = value ↔ Survives value := by
  simp only [Storage.binary64, readBinary64, toBinary64, Survives, Decimal.ext_iff]

/-- Every decimal below `2 ^ 39` in magnitude survives. -/
theorem survives_of_small {value : Decimal} (small : value.units.natAbs < 2 ^ 39 * 10 ^ 4) :
    Survives value := by
  unfold Survives
  generalize stored : (value.units / 10 ^ 4 : Rat) = x
  have units : x * 10 ^ 4 = value.units := by
    rw [← stored]
    exact div_mul_cancel₀ _ (by norm_num)
  refine roundEven_eq ?_
  rw [← units, ← sub_mul, abs_mul]
  by_cases zero : x = 0
  · simp [zero, roundSignificand, roundEven]
  · have magnitude : |x| < 2 ^ (39 : Int) := by
      have bound : |(value.units : Rat)| < 2 ^ 39 * 10 ^ 4 := by
        rw [← Int.cast_abs, Int.abs_eq_natAbs]
        exact_mod_cast small
      rw [← stored, abs_div]
      norm_num at bound ⊢
      linarith
    have exponents : exponent 53 x ≤ -14 := exponent_lt zero magnitude
    have error := abs_roundSignificand_sub_le 53 x
    have unit : (2 : Rat) ^ exponent 53 x ≤ 2 ^ (-14 : Int) :=
      zpow_le_zpow_right₀ one_le_two exponents
    norm_num at unit ⊢
    linarith

/-- A decimal above `2 ^ 39` is read back one ten-thousandth short. -/
theorem binary64_rounds :
    Storage.binary64.numeric ⟨5497558138880003⟩ = ⟨5497558138880002⟩ := by
  have stored : roundSignificand 53 (5497558138880003 / 10 ^ 4) =
      (4503599627370498 : Int) * 2 ^ ((39 : Int) - ((53 : Nat) - 1)) := by
    refine roundSignificand_eq ?_ ?_ ?_
    · norm_num [abs_of_pos]
    · norm_num [abs_of_pos]
    · norm_num [abs_lt]
  have read : roundEven (roundSignificand 53 (5497558138880003 / 10 ^ 4) * 10 ^ 4) =
      5497558138880002 := by
    refine roundEven_eq ?_
    rw [stored]
    norm_num [abs_lt]
  simp only [Storage.binary64, readBinary64, toBinary64, Int.cast_ofNat, read]

end EventLedger.Python
