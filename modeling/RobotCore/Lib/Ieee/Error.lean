import RobotCore.Lib.Ieee.Number

/-!
# Rounding errors

How far `roundTo` moves a number: by half a quantum at most, which is a bound from the size of the
number alone (`abs_roundTo_sub_le`) and, above the smallest quantum, a part of the number itself
(`abs_roundTo_sub_le_mul`).
-/

namespace Ieee

variable {f : Format}

theorem abs_roundHalfEven_sub_le (q : ℚ) : |(roundHalfEven q : ℚ) - q| ≤ 1 / 2 := by
  have hlo := Int.floor_le q
  have hhi := Int.lt_floor_add_one q
  unfold roundHalfEven
  rw [abs_le]
  split_ifs <;> push_cast <;> constructor <;> linarith

theorem abs_roundTo_sub_le_quantum (q : ℚ) :
    |roundTo f q - q| ≤ 2 ^ quantumExponent f q / 2 := by
  have hpos := two_zpow_pos (quantumExponent f q)
  have heq : roundTo f q - q
      = (roundHalfEven (q / 2 ^ quantumExponent f q) - q / 2 ^ quantumExponent f q)
        * 2 ^ quantumExponent f q := by
    unfold roundTo
    field_simp
  rw [heq, abs_mul, abs_of_pos hpos]
  calc |(roundHalfEven (q / 2 ^ quantumExponent f q) : ℚ) - q / 2 ^ quantumExponent f q|
        * 2 ^ quantumExponent f q
      ≤ 1 / 2 * 2 ^ quantumExponent f q :=
        mul_le_mul_of_nonneg_right (abs_roundHalfEven_sub_le _) hpos.le
    _ = 2 ^ quantumExponent f q / 2 := by ring

/-- The quantum of a number below a power of two. -/
theorem quantumExponent_le {q : ℚ} {k : ℤ} (hq : q ≠ 0) (h : |q| < 2 ^ k)
    (hmin : f.minExponent ≤ k - f.precision) : quantumExponent f q ≤ k - f.precision := by
  have hlog : Int.log 2 |q| < k :=
    (Int.lt_zpow_iff_log_lt (by norm_num) (abs_pos.mpr hq)).mp (by exact_mod_cast h)
  exact max_le hmin (by omega)

/-- Below `2 ^ k` the error is at most half a quantum of that size. -/
theorem abs_roundTo_sub_le {q : ℚ} {k : ℤ} (h : |q| < 2 ^ k)
    (hmin : f.minExponent ≤ k - f.precision) :
    |roundTo f q - q| ≤ 2 ^ (k - f.precision) / 2 := by
  rcases eq_or_ne q 0 with rfl | hq
  · rw [roundTo_zero, sub_zero, abs_zero]
    exact div_nonneg (two_zpow_pos _).le (by norm_num)
  · refine (abs_roundTo_sub_le_quantum q).trans (div_le_div_of_nonneg_right ?_ (by norm_num))
    exact zpow_le_zpow_right₀ (by norm_num) (quantumExponent_le hq h hmin)

/-- Above the smallest quantum the error is a small part of the number. -/
theorem abs_roundTo_sub_le_mul {q : ℚ} (hq : q ≠ 0) (h : f.minExponent < quantumExponent f q) :
    |roundTo f q - q| ≤ |q| / 2 ^ f.precision := by
  refine (abs_roundTo_sub_le_quantum q).trans ?_
  have hle := two_zpow_le_abs_of_lt_quantum hq h
  rw [add_sub_assoc, zpow_add₀ (by norm_num), zpow_sub₀ (by norm_num), zpow_one, zpow_natCast]
    at hle
  rw [le_div_iff₀ (by positivity)]
  linarith

end Ieee
