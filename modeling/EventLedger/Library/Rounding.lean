import Mathlib.Algebra.Order.Floor.Ring
import Mathlib.Data.Int.Log
import Mathlib.Data.Rat.Floor
import Mathlib.Tactic.Linarith
import Mathlib.Tactic.Ring

namespace EventLedger.Library

/-- The nearest integer, and the even one of two that are equally near. -/
def roundEven (x : Rat) : Int :=
  let below := ⌊x⌋
  if x - below < 1 / 2 then below
  else if 1 / 2 < x - below then below + 1
  else if below % 2 = 0 then below
  else below + 1

/-- The exponent scales a number to a significand of the given number of bits. -/
def exponent (bits : Nat) (x : Rat) : Int := Int.log 2 |x| - (bits - 1)

/-- The nearest number whose significand has the given number of bits. -/
def roundSignificand (bits : Nat) (x : Rat) : Rat :=
  roundEven (x / 2 ^ exponent bits x) * 2 ^ exponent bits x

section RoundEven
variable {x : Rat}

/-- An integer is at most half away from a number that is rounded to it. -/
theorem abs_roundEven_sub_le (x : Rat) : |roundEven x - x| ≤ 1 / 2 := by
  have low := Int.floor_le x
  have high := Int.lt_floor_add_one x
  rw [abs_le]
  simp only [roundEven]
  split
  · constructor <;> linarith
  · split
    · push_cast
      constructor <;> linarith
    · split
      · constructor <;> linarith
      · push_cast
        constructor <;> linarith

/-- A number that is less than half away from an integer is rounded to it. -/
theorem roundEven_eq {n : Int} (near : |x - n| < 1 / 2) : roundEven x = n := by
  have half := abs_roundEven_sub_le x
  rw [abs_lt] at near
  rw [abs_le] at half
  have above : (roundEven x : Rat) < n + 1 := by linarith
  have below : (n : Rat) - 1 < roundEven x := by linarith
  have upper : roundEven x < n + 1 := by exact_mod_cast above
  have lower : n - 1 < roundEven x := by exact_mod_cast below
  omega

end RoundEven

section Significand
variable {bits : Nat} {x : Rat}

/-- A rounded significand is at most half a unit in the last place away. -/
theorem abs_roundSignificand_sub_le (bits : Nat) (x : Rat) :
    |roundSignificand bits x - x| ≤ 2 ^ exponent bits x / 2 := by
  have unit : (0 : Rat) < 2 ^ exponent bits x := zpow_pos two_pos _
  have half := abs_roundEven_sub_le (x / 2 ^ exponent bits x)
  have scaled : roundSignificand bits x - x =
      (roundEven (x / 2 ^ exponent bits x) - x / 2 ^ exponent bits x) * 2 ^ exponent bits x := by
    unfold roundSignificand
    rw [sub_mul, div_mul_cancel₀ _ unit.ne']
  rw [scaled, abs_mul, abs_of_pos unit]
  calc |roundEven (x / 2 ^ exponent bits x) - x / 2 ^ exponent bits x| * 2 ^ exponent bits x
      ≤ 1 / 2 * 2 ^ exponent bits x := mul_le_mul_of_nonneg_right half unit.le
    _ = 2 ^ exponent bits x / 2 := by ring

/-- A small number has a small exponent. -/
theorem exponent_lt {k : Int} (nonzero : x ≠ 0) (small : |x| < 2 ^ k) :
    exponent bits x ≤ k - bits := by
  have log := (Int.lt_zpow_iff_log_lt one_lt_two (abs_pos.mpr nonzero)).mp (by exact_mod_cast small)
  unfold exponent
  omega

/-- The exponent is found between two powers of two. -/
theorem exponent_eq {k : Int} (low : 2 ^ k ≤ |x|) (high : |x| < 2 ^ (k + 1)) :
    exponent bits x = k - (bits - 1) := by
  have positive : 0 < |x| := lt_of_lt_of_le (zpow_pos two_pos k) low
  have above := (Int.lt_zpow_iff_log_lt one_lt_two positive).mp (by exact_mod_cast high)
  have below := (Int.zpow_le_iff_le_log one_lt_two positive).mp (by exact_mod_cast low)
  unfold exponent
  omega

/-- The significand is the integer that is less than half a unit in the last place away. -/
theorem roundSignificand_eq {k n : Int} (low : 2 ^ k ≤ |x|) (high : |x| < 2 ^ (k + 1))
    (near : |x / 2 ^ (k - (bits - 1)) - n| < 1 / 2) :
    roundSignificand bits x = n * 2 ^ (k - (bits - 1)) := by
  unfold roundSignificand
  rw [exponent_eq low high, roundEven_eq near]

end Significand

end EventLedger.Library
