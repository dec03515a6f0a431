import RobotCore.Lib.Scalar.Magnitude

/-!
# A reference library

The functions of the reals, cut to a multiple of a minute power of two and then rounded, make an
accurate library (`accurate_referenceLibrary`).
-/

namespace Ieee

/-- The bits that a cut keeps behind the point. -/
def cutBits : ℕ := 1200

section Cut

attribute [local instance] Numeral.atLeastTwo_two

/-- The multiple of a minute power of two below a number. -/
noncomputable def cut (r : ℝ) : ℚ := ⌊r * 2 ^ cutBits⌋ / 2 ^ cutBits

end Cut

/-- The cut rounded; no function here comes near the greatest double. -/
noncomputable def nearest (r : ℝ) : Binary64 :=
  ⟨.finite (roundTo binary64 (cut r)), representable_roundTo (cut r)⟩

/-- The functions of the reals; a root of what is negative or a nan is a nan. -/
noncomputable def referenceLibrary : MathLibrary binary64 where
  pi := nearest Real.pi
  sqrt x := match x.value with
    | .finite q => if 0 ≤ q then nearest (Real.sqrt q) else .nan
    | .infinity negative => if negative then .nan else x
    | .nan => .nan
  sin x := nearest (Real.sin x.toRat)
  cos x := nearest (Real.cos x.toRat)
  asin x := nearest (Real.arcsin x.toRat)
  acos x := nearest (Real.arccos x.toRat)
  atan2 y x := nearest (Complex.arg ⟨x.toRat, y.toRat⟩)

theorem abs_cut_sub_le (r : ℝ) : |(cut r : ℝ) - r| ≤ 1 / 2 ^ cutBits := by
  have hpos : (0 : ℝ) < 2 ^ cutBits := by positivity
  have hlow := Int.floor_le (r * 2 ^ cutBits)
  have hhigh := Int.lt_floor_add_one (r * 2 ^ cutBits)
  have heq : (cut r : ℝ) - r = (⌊r * 2 ^ cutBits⌋ - r * 2 ^ cutBits) / 2 ^ cutBits := by
    rw [cut]
    push_cast
    field_simp
  rw [heq, abs_div, abs_of_pos hpos]
  refine div_le_div_of_nonneg_right ?_ hpos.le
  rw [abs_le]
  constructor <;> linarith

theorem cutError_le {n : ℕ} (h : n ≤ cutBits) : (1 : ℝ) / 2 ^ cutBits ≤ 1 / 2 ^ n :=
  one_div_le_one_div_of_le (by positivity) (pow_le_pow_right₀ (by norm_num) h)

/-- A number of a few units is rounded with a small error. -/
theorem exists_nearest {r : ℝ} (h : |r| ≤ 4) :
    ∃ q, (nearest r).value = .finite q ∧ |(q : ℝ) - r| ≤ libraryError := by
  have hcut := (abs_cut_sub_le r).trans (cutError_le (n := 52) (by decide))
  have hlt : |cut r| < 2 ^ (3 : ℤ) := by
    have hreal : |(cut r : ℝ)| < 2 ^ (3 : ℤ) := by
      have htriangle := abs_sub_abs_le_abs_sub (cut r : ℝ) r
      norm_num at hcut ⊢
      linarith
    exact_mod_cast hreal
  have hround := abs_roundTo_sub_le (f := binary64) hlt (by norm_num [binary64])
  refine ⟨_, rfl, ?_⟩
  have hround' : |((roundTo binary64 (cut r) : ℚ) : ℝ) - cut r| ≤ 1 / 2 ^ 51 := by
    have hrat : |roundTo binary64 (cut r) - cut r| ≤ 1 / 2 ^ 51 :=
      hround.trans (by norm_num [binary64])
    simpa using (Rat.cast_le (K := ℝ)).mpr hrat
  calc |((roundTo binary64 (cut r) : ℚ) : ℝ) - r|
      ≤ |((roundTo binary64 (cut r) : ℚ) : ℝ) - cut r| + |(cut r : ℝ) - r| := abs_sub_le _ _ _
    _ ≤ 1 / 2 ^ 51 + 1 / 2 ^ 52 := add_le_add hround' hcut
    _ ≤ libraryError := by norm_num [libraryError]

/-! ### Roots -/

theorem two_pow_le_sqrt {q : ℚ} {n : ℕ} (hq : 1 / 2 ^ (n * 2) ≤ q) :
    (1 : ℝ) / 2 ^ n ≤ Real.sqrt q := by
  refine Real.le_sqrt_of_sq_le ?_
  rw [div_pow, one_pow, ← pow_mul]
  simpa using (Rat.cast_le (K := ℝ)).mpr hq

/-- What is far from minute is rounded with a small relative error. -/
theorem abs_roundTo_sub_le_of_large {q : ℚ} (h : 1 / 2 ^ 538 ≤ q) :
    |roundTo binary64 q - q| ≤ q / 2 ^ 53 := by
  have hpos : 0 < q := lt_of_lt_of_le (by positivity) h
  have hlog : (-538 : ℤ) ≤ Int.log 2 |q| := by
    refine (Int.zpow_le_iff_le_log (by norm_num) (abs_pos.mpr hpos.ne')).mp ?_
    rw [abs_of_pos hpos, Nat.cast_ofNat, zpow_neg, zpow_ofNat, ← one_div]
    exact h
  have hquantum : binary64.minExponent < quantumExponent binary64 q := by
    refine lt_of_lt_of_le ?_ (le_max_right _ _)
    have hmin : binary64.minExponent = -1074 := rfl
    have hprecision : (binary64.precision : ℤ) = 53 := rfl
    omega
  have herror := abs_roundTo_sub_le_mul hpos.ne' hquantum
  rwa [abs_of_pos hpos] at herror

theorem exists_nearest_sqrt {q : ℚ} (hq : 1 / 2 ^ (537 * 2) ≤ q) :
    ∃ r, (nearest (Real.sqrt q)).value = .finite r ∧
      |(r : ℝ) - Real.sqrt q| ≤ Real.sqrt q * libraryError := by
  have hlow := two_pow_le_sqrt hq
  have hcut := abs_cut_sub_le (Real.sqrt q)
  generalize Real.sqrt q = s at hlow hcut
  have hpos : 0 < s := lt_of_lt_of_le (by positivity) hlow
  have hcut' : |(cut s : ℝ) - s| ≤ s / 2 ^ 60 := by
    refine hcut.trans ((cutError_le (n := 537 + 60) (by decide)).trans ?_)
    rw [pow_add, ← div_div]
    exact div_le_div_of_nonneg_right hlow (by positivity)
  obtain ⟨hclow, hchigh⟩ := abs_le.mp hcut'
  have hhalf : (1 : ℚ) / 2 ^ 538 ≤ cut s := by
    have hreal : (1 : ℝ) / 2 ^ 538 ≤ cut s := by
      rw [pow_succ, ← div_div]
      calc (1 : ℝ) / 2 ^ 537 / 2 ≤ s / 2 := div_le_div_of_nonneg_right hlow (by norm_num)
        _ ≤ cut s := by linarith only [hclow, hpos]
    exact (Rat.cast_le (K := ℝ)).mp (by simpa using hreal)
  have hround := abs_roundTo_sub_le_of_large hhalf
  have hreal : |((roundTo binary64 (cut s) : ℚ) : ℝ) - cut s| ≤ cut s / 2 ^ 53 := by
    simpa using (Rat.cast_le (K := ℝ)).mpr hround
  refine ⟨_, rfl, ?_⟩
  calc |((roundTo binary64 (cut s) : ℚ) : ℝ) - s|
      ≤ |((roundTo binary64 (cut s) : ℚ) : ℝ) - cut s| + |(cut s : ℝ) - s| := abs_sub_le _ _ _
    _ ≤ cut s / 2 ^ 53 + s / 2 ^ 60 := add_le_add hreal hcut'
    _ ≤ s * libraryError := by
        rw [libraryError]
        linarith only [hchigh, hpos]

/-- A positive number of the format is not below the least one. -/
theorem le_of_representable {q : ℚ} (h : Representable binary64 q) (hq : 0 < q) :
    1 / 2 ^ (537 * 2) ≤ q := by
  obtain ⟨m, e, rfl, -, he⟩ := h
  have hpow : (0 : ℚ) < 2 ^ e := two_zpow_pos e
  have hm : (1 : ℚ) ≤ m := by
    have hm0 : (0 : ℚ) < m := pos_of_mul_pos_left hq hpow.le
    exact_mod_cast hm0
  have hmin : binary64.minExponent = -((537 * 2 : ℕ) : ℤ) := rfl
  calc (1 : ℚ) / 2 ^ (537 * 2) = 2 ^ (-((537 * 2 : ℕ) : ℤ)) := by
        rw [zpow_neg, zpow_natCast, one_div]
    _ ≤ 2 ^ e := zpow_le_zpow_right₀ (by norm_num) (hmin ▸ he)
    _ ≤ m * 2 ^ e := le_mul_of_one_le_left hpow.le hm

/-! ### The library is accurate -/

theorem abs_le_four_of_abs_le_one {r : ℝ} (h : |r| ≤ 1) : |r| ≤ 4 := h.trans (by norm_num)

theorem accurate_referenceLibrary : referenceLibrary.Accurate where
  pi := exists_nearest (by rw [abs_of_pos Real.pi_pos]; exact Real.pi_le_four)
  sqrt x q hx hq := by
    have hsqrt : referenceLibrary.sqrt x = nearest (Real.sqrt q) := by
      simp only [referenceLibrary]
      rw [hx]
      exact if_pos hq
    rw [hsqrt]
    rcases hq.eq_or_lt with rfl | hpos
    · refine ⟨0, ?_, ?_⟩
      · simp [nearest, cut]
      · simp
    · have hrepresentable : Representable binary64 q := by
        have hformat := x.inFormat
        rwa [hx] at hformat
      exact exists_nearest_sqrt (le_of_representable hrepresentable hpos)
  sqrt_of_not_isFinite x hx := by
    have hvalue : ∀ q, x.value ≠ .finite q := by
      intro q hq
      rw [Number.isFinite_iff.mpr ⟨q, hq⟩] at hx
      cases hx
    simp only [referenceLibrary]
    cases hv : x.value with
    | nan => rfl
    | infinity negative =>
      cases negative
      · exact hx
      · rfl
    | finite q => exact absurd hv (hvalue q)
  sin x q hx := by
    simp only [referenceLibrary, Number.toRat_of_finite hx]
    exact exists_nearest (abs_le_four_of_abs_le_one (Real.abs_sin_le_one q))
  cos x q hx := by
    simp only [referenceLibrary, Number.toRat_of_finite hx]
    exact exists_nearest (abs_le_four_of_abs_le_one (Real.abs_cos_le_one q))
  asin x q hx _ := by
    simp only [referenceLibrary, Number.toRat_of_finite hx]
    refine exists_nearest (abs_le.mpr ⟨?_, ?_⟩)
    · linarith [Real.neg_pi_div_two_le_arcsin (q : ℝ), Real.pi_le_four]
    · linarith [Real.arcsin_le_pi_div_two (q : ℝ), Real.pi_le_four]
  acos x q hx _ := by
    simp only [referenceLibrary, Number.toRat_of_finite hx]
    refine exists_nearest (abs_le.mpr ⟨?_, ?_⟩)
    · linarith [Real.arccos_nonneg (q : ℝ)]
    · exact (Real.arccos_le_pi _).trans Real.pi_le_four
  atan2 y x p q hy hx := by
    simp only [referenceLibrary, Number.toRat_of_finite hx, Number.toRat_of_finite hy]
    obtain ⟨r, hr, hle⟩ := exists_nearest ((Complex.abs_arg_le_pi ⟨(q : ℝ), (p : ℝ)⟩).trans
      Real.pi_le_four)
    exact ⟨r, hr, Or.inl hle⟩

end Ieee
