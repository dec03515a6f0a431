import RobotCore.Lib.Scalar.Double

/-!
# Magnitudes

`Mag x n` says that the double `x` is finite and at most `2 ^ n` in absolute value, and `Away x n`
that it is at least `1 / 2 ^ n`.  Each operation has one rule for the magnitude of its result, so
that a computation is followed from the magnitudes of its arguments, and nothing overflows as long
as the exponents stay below 1024.
-/

namespace Ieee

namespace Double

open Scalar

variable {library : MathLibrary binary64} {x y z : Double library} {p q : ℚ} {a b c n : ℕ}

theorem representable_two_pow (h : n ≤ 1023) : Representable binary64 ((2 : ℚ) ^ n) :=
  ⟨1, n, by simp, by norm_num [binary64], by
    have hmin : binary64.minExponent = -1074 := rfl
    omega⟩

theorem representable_inv (h : n ≤ 1074) : Representable binary64 (1 / 2 ^ n) :=
  ⟨1, -n, by rw [zpow_neg, zpow_natCast, one_div, Int.cast_one, one_mul], by norm_num [binary64], by
    have hmin : binary64.minExponent = -1074 := rfl
    omega⟩

theorem two_pow_lt (h : n ≤ 1023) : (2 : ℚ) ^ n < 2 ^ binary64.maxExponent := by
  have hmax : binary64.maxExponent = ((1024 : ℕ) : ℤ) := rfl
  rw [hmax, zpow_natCast]
  exact pow_lt_pow_right₀ (by norm_num) (by omega)

theorem representable_of_value (hx : x.value = .finite q) : Representable binary64 q := by
  have hformat := Number.inFormat (f := binary64) x
  have hvalue : Number.value (f := binary64) x = .finite q := hx
  rwa [hvalue] at hformat

theorem eq_roundTo {r : ℚ} (h : (ofRat q : Double library).value = .finite r) :
    r = roundTo binary64 q := by
  have hvalue : (Number.ofRat binary64 q).value = .finite r := h
  unfold Number.ofRat at hvalue
  split_ifs at hvalue
  · cases hvalue
  · exact (Value.finite.inj hvalue).symm

/-- A number of the format is not rounded. -/
theorem value_ofRat (h : Representable binary64 q) (hq : |q| ≤ 2 ^ n) (hn : n ≤ 1023) :
    (ofRat q : Double library).value = .finite q := by
  have hround : roundTo binary64 q = q := roundTo_of_representable h
  refine (Number.value_ofRat (f := binary64) ?_).trans (by rw [hround])
  rw [hround]
  exact hq.trans_lt (two_pow_lt hn)

theorem value_ofRat_zero : (ofRat 0 : Double library).value = .finite 0 :=
  value_ofRat ⟨0, 0, by simp, by norm_num [binary64], by norm_num [binary64]⟩ (n := 0) (by simp)
    (by omega)

theorem value_ofRat_one : (ofRat 1 : Double library).value = .finite 1 :=
  value_ofRat (by simpa using representable_two_pow (n := 0) (by omega)) (n := 0) (by simp)
    (by omega)

theorem value_ofRat_inv (h : n ≤ 1074) :
    (ofRat (1 / 2 ^ n) : Double library).value = .finite (1 / 2 ^ n) :=
  value_ofRat (representable_inv h) (n := 0) (by
    rw [abs_of_pos (by positivity), pow_zero]
    exact div_le_one_of_le₀ (one_le_pow₀ (by norm_num)) (by positivity)) (by omega)

/-- The double is finite and at most `2 ^ n` in absolute value. -/
def Mag (x : Double library) (n : ℕ) : Prop := ∃ q, x.value = .finite q ∧ |q| ≤ 2 ^ n

theorem le_of_mag (hx : Mag x n) (hq : x.value = .finite q) : q ≤ 2 ^ n := by
  obtain ⟨p, hp, hle⟩ := hx
  obtain rfl : p = q := Value.finite.inj (hp.symm.trans hq)
  exact le_of_abs_le hle

/-- The double is finite and at least `1 / 2 ^ n` in absolute value. -/
def Away (x : Double library) (n : ℕ) : Prop := ∃ q, x.value = .finite q ∧ 1 / 2 ^ n ≤ |q|

theorem two_pow_le (h : a ≤ n) : (2 : ℚ) ^ a ≤ 2 ^ n := pow_le_pow_right₀ (by norm_num) h

namespace Mag

theorem mono (hx : Mag x a) (h : a ≤ n) : Mag x n := by
  obtain ⟨q, hq, hle⟩ := hx
  exact ⟨q, hq, hle.trans (two_pow_le h)⟩

theorem isFinite (hx : Mag x a) : Scalar.isFinite x = true := by
  obtain ⟨q, hq, -⟩ := hx
  exact isFinite_iff.mpr ⟨q, hq⟩

theorem isNan (hx : Mag x a) : Scalar.isNan x = false := by
  obtain ⟨q, hq, -⟩ := hx
  exact isNan_of_value hq

/-- The rounding of a rational. -/
theorem ofRat (h : |q| ≤ 2 ^ n) (hn : n ≤ 1023) : Mag (Scalar.ofRat q : Double library) n :=
  Number.AbsLe.ofRat (f := binary64) (representable_two_pow hn) (two_pow_lt hn) h

theorem neg (hx : Mag x n) : Mag (-x) n := Number.AbsLe.neg (f := binary64) hx

theorem abs (hx : Mag x n) : Mag (Scalar.abs x) n := by
  obtain ⟨q, hq, hle⟩ := hx
  exact ⟨|q|, value_abs hq, (abs_abs q).trans_le hle⟩

theorem add (hx : Mag x a) (hy : Mag y b) (ha : a < n) (hb : b < n) (hn : n ≤ 1023) :
    Mag (x + y) n := by
  obtain ⟨p, hp, hpa⟩ := hx
  obtain ⟨q, hq, hqb⟩ := hy
  rw [value_add hp hq]
  refine ofRat ((abs_add_le p q).trans ?_) hn
  obtain ⟨m, rfl⟩ : ∃ m, n = m + 1 := ⟨n - 1, by omega⟩
  calc |p| + |q| ≤ 2 ^ m + 2 ^ m :=
        add_le_add (hpa.trans (two_pow_le (by omega))) (hqb.trans (two_pow_le (by omega)))
    _ = 2 ^ (m + 1) := by ring

theorem sub (hx : Mag x a) (hy : Mag y b) (ha : a < n) (hb : b < n) (hn : n ≤ 1023) :
    Mag (x - y) n :=
  hx.add hy.neg ha hb hn

theorem mul (hx : Mag x a) (hy : Mag y b) (h : a + b ≤ n) (hn : n ≤ 1023) : Mag (x * y) n := by
  obtain ⟨p, hp, hpa⟩ := hx
  obtain ⟨q, hq, hqb⟩ := hy
  rw [value_mul hp hq]
  refine ofRat ?_ hn
  calc |p * q| = |p| * |q| := abs_mul p q
    _ ≤ 2 ^ a * 2 ^ b := mul_le_mul hpa hqb (abs_nonneg q) (by positivity)
    _ = 2 ^ (a + b) := (pow_add 2 a b).symm
    _ ≤ 2 ^ n := two_pow_le h

theorem div (hx : Mag x a) (hy : Away y b) (h : a + b ≤ n) (hn : n ≤ 1023) : Mag (x / y) n := by
  obtain ⟨p, hp, hpa⟩ := hx
  obtain ⟨q, hq, hqb⟩ := hy
  have hpos : 0 < |q| := lt_of_lt_of_le (by positivity) hqb
  rw [value_div hp hq (abs_pos.mp hpos)]
  refine ofRat ?_ hn
  rw [abs_div, div_le_iff₀ hpos]
  have hone : 1 ≤ |q| * 2 ^ b := (div_le_iff₀ (by positivity)).mp hqb
  calc |p| ≤ 2 ^ a * 1 := by rw [mul_one]; exact hpa
    _ ≤ 2 ^ a * (|q| * 2 ^ b) := mul_le_mul_of_nonneg_left hone (by positivity)
    _ = 2 ^ (a + b) * |q| := by ring
    _ ≤ 2 ^ n * |q| := mul_le_mul_of_nonneg_right (two_pow_le h) hpos.le

theorem pow (hx : Mag x a) (k : ℕ) (h : k * a ≤ n) (hn : n ≤ 1023) : Mag (Scalar.pow x k) n := by
  induction k generalizing n with
  | zero => exact ofRat (by simpa using one_le_pow₀ (by norm_num : (1 : ℚ) ≤ 2)) hn
  | succ k ih =>
    have hk : k * a + a ≤ n := by linarith
    exact (ih le_rfl (by omega)).mul hx hk hn

/-- The remainder is below the divisor. -/
theorem mod (hx : Mag x a) (hy : Mag y n) (hy' : Away y b) (hn : n ≤ 1023) :
    Mag (Scalar.mod x y) n := by
  obtain ⟨p, hp, -⟩ := hx
  obtain ⟨q, hq, hqn⟩ := hy
  obtain ⟨r, hr, hrb⟩ := hy'
  obtain rfl : q = r := Value.finite.inj (hq.symm.trans hr)
  have hne : q ≠ 0 := abs_pos.mp (lt_of_lt_of_le (by positivity) hrb)
  rw [value_mod hp hq hne]
  refine ofRat (le_trans ?_ hqn) hn
  have hsplit : p - q * ⌊p / q⌋ = q * Int.fract (p / q) := by
    unfold Int.fract
    field_simp
  rw [hsplit, abs_mul, abs_of_nonneg (Int.fract_nonneg (p / q))]
  exact mul_le_of_le_one_right (abs_nonneg q) (Int.fract_lt_one _).le

/-- Clipped into an interval. -/
theorem clip (hx : Scalar.isNan x = false) (hy : y.value = .finite p) (hz : z.value = .finite q)
    (hle : p ≤ q) (hp : |p| ≤ 2 ^ n) (hq : |q| ≤ 2 ^ n) :
    Mag (Scalar.clip x y z) n := by
  obtain ⟨r, hr, hpr, hrq⟩ := clip_mem hx hy hz hle
  exact ⟨r, hr, abs_le.mpr ⟨(neg_le_of_abs_le hp).trans hpr, hrq.trans (le_of_abs_le hq)⟩⟩

end Mag

/-! ### Divisors -/

namespace Away

theorem mono (hx : Away x a) (h : a ≤ n) : Away x n := by
  obtain ⟨q, hq, hle⟩ := hx
  exact ⟨q, hq, (one_div_le_one_div_of_le (by positivity) (two_pow_le h)).trans hle⟩

theorem ofRat (h : 1 / 2 ^ n ≤ |q|) (hn : n ≤ 1074) (hq : |q| ≤ 2 ^ a) (ha : a ≤ 1023) :
    Away (Scalar.ofRat q : Double library) n := by
  have hrep := representable_inv hn
  have hle : |roundTo binary64 q| < 2 ^ binary64.maxExponent :=
    (abs_roundTo_le (representable_two_pow ha) hq).trans_lt (two_pow_lt ha)
  refine ⟨roundTo binary64 q, Number.value_ofRat hle, ?_⟩
  rw [abs_roundTo]
  exact (roundTo_of_representable hrep).symm.trans_le (roundTo_mono h)

theorem mul (hx : Away x a) (hy : Away y b) (hx' : Mag x c) (hy' : Mag y c) (h : a + b ≤ n)
    (hn : n ≤ 1074) (hc : c + c ≤ 1023) : Away (x * y) n := by
  obtain ⟨p, hp, hpa⟩ := hx
  obtain ⟨q, hq, hqb⟩ := hy
  obtain ⟨p', hp', hpc⟩ := hx'
  obtain ⟨q', hq', hqc⟩ := hy'
  obtain rfl : p = p' := Value.finite.inj (hp.symm.trans hp')
  obtain rfl : q = q' := Value.finite.inj (hq.symm.trans hq')
  rw [value_mul hp hq]
  refine ofRat ?_ hn (a := c + c) ?_ hc
  · calc (1 : ℚ) / 2 ^ n ≤ 1 / 2 ^ (a + b) :=
          one_div_le_one_div_of_le (by positivity) (two_pow_le h)
      _ = 1 / 2 ^ a * (1 / 2 ^ b) := by rw [pow_add]; ring
      _ ≤ |p| * |q| := mul_le_mul hpa hqb (by positivity) (abs_nonneg p)
      _ = |p * q| := (abs_mul p q).symm
  · rw [abs_mul, pow_add]
    exact mul_le_mul hpc hqc (abs_nonneg q) (by positivity)

theorem pow (hx : Away x a) (hx' : Mag x b) (k : ℕ) (h : k * a ≤ n) (hn : n ≤ 1074)
    (hb : k * b + k * b ≤ 1023) : Away (Scalar.pow x k) n := by
  induction k generalizing n with
  | zero =>
    refine ofRat (a := 0) ?_ hn (by norm_num) (by norm_num)
    rw [abs_one]
    exact div_le_one_of_le₀ (one_le_pow₀ (by norm_num)) (by positivity)
  | succ k ih =>
    have hk : k * b + b = (k + 1) * b := by ring
    have hle : k * a + a ≤ n := by linarith
    exact (ih le_rfl (by omega) (by omega)).mul hx (hx'.pow k (by omega) (by omega))
      (hx'.mono (by omega) : Mag x (k * b + b)) hle hn (by omega)

/-- A quotient by a number that is not large. -/
theorem div {d : ℕ} (hx : Away x a) (hy : Mag y b) (hx' : Mag x c) (hy' : Away y d)
    (h : a + b ≤ n) (hn : n ≤ 1074) (hcd : c + d ≤ 1023) : Away (x / y) n := by
  obtain ⟨p, hp, hpa⟩ := hx
  obtain ⟨q, hq, hqb⟩ := hy
  obtain ⟨p', hp', hpc⟩ := hx'
  obtain ⟨q', hq', hqd⟩ := hy'
  obtain rfl : p = p' := Value.finite.inj (hp.symm.trans hp')
  obtain rfl : q = q' := Value.finite.inj (hq.symm.trans hq')
  have hpos : 0 < |q| := lt_of_lt_of_le (by positivity) hqd
  rw [value_div hp hq (abs_pos.mp hpos)]
  refine ofRat (a := c + d) ?_ hn ?_ hcd
  · rw [abs_div]
    calc (1 : ℚ) / 2 ^ n ≤ 1 / 2 ^ (a + b) :=
          one_div_le_one_div_of_le (by positivity) (two_pow_le h)
      _ = 1 / 2 ^ a / 2 ^ b := by rw [pow_add, div_div]
      _ ≤ |p| / |q| := div_le_div₀ (abs_nonneg p) hpa hpos hqb
  · rw [abs_div, div_le_iff₀ hpos, pow_add]
    have hone : 1 ≤ |q| * 2 ^ d := (div_le_iff₀ (by positivity)).mp hqd
    calc |p| ≤ 2 ^ c * 1 := by rw [mul_one]; exact hpc
      _ ≤ 2 ^ c * (|q| * 2 ^ d) := mul_le_mul_of_nonneg_left hone (by positivity)
      _ = 2 ^ c * 2 ^ d * |q| := by ring

/-- The greater one of a positive number and any other. -/
theorem pyMax (hx : x.value = .finite p) (hp : 1 / 2 ^ n ≤ p) (hy : Mag y a) :
    Away (Scalar.pyMax x y) n := by
  obtain ⟨q, hq, -⟩ := hy
  exact ⟨max p q, value_pyMax hx hq, (hp.trans (le_max_left p q)).trans (le_abs_self _)⟩

end Away

/-! ### Small numbers -/

/-- The double is finite and at most `1 / 2 ^ n` in absolute value. -/
def Small (x : Double library) (n : ℕ) : Prop := ∃ q, x.value = .finite q ∧ |q| ≤ 1 / 2 ^ n

namespace Small

theorem ofRat (h : |q| ≤ 1 / 2 ^ n) (hn : n ≤ 1074) :
    Small (Scalar.ofRat q : Double library) n := by
  have hmax : (1 : ℚ) / 2 ^ n < 2 ^ binary64.maxExponent := by
    refine lt_of_le_of_lt ?_ (two_pow_lt (n := 0) (by omega))
    rw [pow_zero]
    exact div_le_one_of_le₀ (one_le_pow₀ (by norm_num)) (by positivity)
  exact Number.AbsLe.ofRat (f := binary64) (representable_inv hn) hmax h

theorem mono (hx : Small x a) (h : n ≤ a) : Small x n := by
  obtain ⟨q, hq, hle⟩ := hx
  exact ⟨q, hq, hle.trans (one_div_le_one_div_of_le (by positivity) (two_pow_le h))⟩

theorem mul_mag (hx : Small x a) (hy : Mag y b) (h : n + b ≤ a) (hn : n ≤ 1074) :
    Small (x * y) n := by
  obtain ⟨p, hp, hpa⟩ := hx
  obtain ⟨q, hq, hqb⟩ := hy
  rw [value_mul hp hq]
  refine ofRat ?_ hn
  calc |p * q| = |p| * |q| := abs_mul p q
    _ ≤ 1 / 2 ^ a * 2 ^ b := mul_le_mul hpa hqb (abs_nonneg q) (by positivity)
    _ ≤ 1 / 2 ^ (n + b) * 2 ^ b := mul_le_mul_of_nonneg_right
        (one_div_le_one_div_of_le (by positivity) (two_pow_le h)) (by positivity)
    _ = 1 / 2 ^ n := by rw [pow_add]; field_simp

theorem mag_mul (hx : Mag x b) (hy : Small y a) (h : n + b ≤ a) (hn : n ≤ 1074) :
    Small (x * y) n := by
  have hsmall := hy.mul_mag hx h hn
  obtain ⟨p, hp, -⟩ := hx
  obtain ⟨q, hq, -⟩ := hy
  rwa [value_mul hp hq, mul_comm p q, ← value_mul hq hp]

theorem add (hx : Small x (n + 1)) (hy : Small y (n + 1)) (hn : n ≤ 1074) : Small (x + y) n := by
  obtain ⟨p, hp, hpa⟩ := hx
  obtain ⟨q, hq, hqb⟩ := hy
  rw [value_add hp hq]
  refine ofRat ((abs_add_le p q).trans ?_) hn
  calc |p| + |q| ≤ 1 / 2 ^ (n + 1) + 1 / 2 ^ (n + 1) := add_le_add hpa hqb
    _ = 1 / 2 ^ n := by rw [pow_succ]; field_simp; norm_num

end Small

/-- Different numbers that are not small are not close. -/
theorem away_sub (hx : x.value = .finite p) (hy : y.value = .finite q) (hp : 1 / 2 ^ n ≤ p)
    (hpq : p < q) (hq : q ≤ 2 ^ a) (ha : a ≤ 1023) (hn : n + 52 ≤ 1074) :
    Away (y - x) (n + 52) := by
  rw [value_sub hy hx]
  have hp0 : 0 < p := lt_of_lt_of_le (by positivity) hp
  -- Both are multiples of a quantum.
  have hmultiple : ∀ r : ℚ, Representable binary64 r → 1 / 2 ^ n ≤ r →
      ∃ m : ℤ, r = m * 2 ^ (-(n + 52 : ℕ) : ℤ) := by
    rintro r ⟨m, e, rfl, hm, -⟩ hr
    refine ⟨_, mul_two_zpow_eq_of_le (d := -(n + 52 : ℕ)) ?_⟩
    have hlt : (2 : ℚ) ^ (-(n : ℤ)) < 2 ^ (e + 53) := by
      calc (2 : ℚ) ^ (-(n : ℤ)) = 1 / 2 ^ n := by rw [zpow_neg, zpow_natCast, one_div]
        _ ≤ m * 2 ^ e := hr
        _ ≤ |(m : ℚ)| * 2 ^ e := mul_le_mul_of_nonneg_right (le_abs_self _) (two_zpow_pos e).le
        _ < 2 ^ 53 * 2 ^ e := mul_lt_mul_of_pos_right (by exact_mod_cast hm) (two_zpow_pos e)
        _ = 2 ^ (e + 53) := by rw [zpow_add₀ (by norm_num), mul_comm]; norm_cast
    have := (zpow_lt_zpow_iff_right₀ (by norm_num : (1 : ℚ) < 2)).mp hlt
    omega
  obtain ⟨m, hm⟩ := hmultiple p (representable_of_value hx) hp
  obtain ⟨k, hk⟩ := hmultiple q (representable_of_value hy) (hp.trans hpq.le)
  have hpos := two_zpow_pos (-(n + 52 : ℕ) : ℤ)
  have hmk : m + 1 ≤ k := by
    have hlt : (m : ℚ) * 2 ^ (-(n + 52 : ℕ) : ℤ) < k * 2 ^ (-(n + 52 : ℕ) : ℤ) := hm ▸ hk ▸ hpq
    exact_mod_cast lt_of_mul_lt_mul_right hlt hpos.le
  refine Away.ofRat ?_ hn (a := a) ?_ ha
  · rw [abs_of_pos (sub_pos.mpr hpq), hk, hm, ← sub_mul]
    have hone : (1 : ℚ) ≤ k - m := by
      have : (m : ℚ) + 1 ≤ k := by exact_mod_cast hmk
      linarith
    calc (1 : ℚ) / 2 ^ (n + 52) = 1 * 2 ^ (-(n + 52 : ℕ) : ℤ) := by
          rw [zpow_neg, zpow_natCast, one_div, one_mul]
      _ ≤ (k - m) * 2 ^ (-(n + 52 : ℕ) : ℤ) := mul_le_mul_of_nonneg_right hone hpos.le
  · rw [abs_of_pos (sub_pos.mpr hpq)]
    linarith

/-! ### Numbers that are not negative -/

/-- The double is finite and not negative. -/
def Nonneg (x : Double library) : Prop := ∃ q, x.value = .finite q ∧ 0 ≤ q

namespace Nonneg

theorem ofRat (hq : 0 ≤ q) (hx : Mag (Scalar.ofRat q : Double library) n) :
    Nonneg (Scalar.ofRat q : Double library) := by
  obtain ⟨r, hr, -⟩ := hx
  exact ⟨r, hr, eq_roundTo hr ▸ roundTo_nonneg hq⟩

theorem add (hx : Nonneg x) (hy : Nonneg y) (h : Mag (x + y) n) : Nonneg (x + y) := by
  obtain ⟨p, hp, hp0⟩ := hx
  obtain ⟨q, hq, hq0⟩ := hy
  rw [value_add hp hq] at h ⊢
  exact ofRat (add_nonneg hp0 hq0) h

theorem mul (hx : Nonneg x) (hy : Nonneg y) (h : Mag (x * y) n) : Nonneg (x * y) := by
  obtain ⟨p, hp, hp0⟩ := hx
  obtain ⟨q, hq, hq0⟩ := hy
  rw [value_mul hp hq] at h ⊢
  exact ofRat (mul_nonneg hp0 hq0) h

theorem div (hx : Nonneg x) (hy : Nonneg y) (hy' : Away y a) (h : Mag (x / y) n) :
    Nonneg (x / y) := by
  obtain ⟨p, hp, hp0⟩ := hx
  obtain ⟨q, hq, hq0⟩ := hy
  obtain ⟨q', hq', hle⟩ := hy'
  obtain rfl : q = q' := Value.finite.inj (hq.symm.trans hq')
  rw [value_div hp hq (abs_pos.mp (lt_of_lt_of_le (by positivity) hle))] at h ⊢
  exact ofRat (div_nonneg hp0 hq0) h

end Nonneg

theorem Mag.small (hx : Small x a) : Mag x 0 := by
  obtain ⟨q, hq, hle⟩ := hx
  refine ⟨q, hq, hle.trans ?_⟩
  rw [pow_zero]
  exact div_le_one_of_le₀ (one_le_pow₀ (by norm_num)) (by positivity)

/-- Zero times anything finite. -/
theorem value_mul_zero (hx : Mag x a) (hy : y.value = .finite 0) : (x * y).value = .finite 0 := by
  obtain ⟨p, hp, -⟩ := hx
  rw [value_mul hp hy, mul_zero]
  exact value_ofRat_zero

theorem value_zero_mul (hx : x.value = .finite 0) (hy : Mag y a) : (x * y).value = .finite 0 := by
  obtain ⟨q, hq, -⟩ := hy
  rw [value_mul hx hq, zero_mul]
  exact value_ofRat_zero

/-! ### Functions -/

section Functions

variable (h : library.Accurate)

theorem libraryError_le : libraryError ≤ 1 / 1024 := by
  norm_num [libraryError]

/-- A number near a real is bounded as that is. -/
theorem mag_of_near {r : ℝ} (hx : x.value = .finite q) (hq : |(q : ℝ) - r| ≤ 1)
    (hr : |r| + 1 ≤ 2 ^ n) : Mag x n := by
  refine ⟨q, hx, ?_⟩
  have hle : |(q : ℝ)| ≤ 2 ^ n := by
    calc |(q : ℝ)| = |(q - r) + r| := by rw [sub_add_cancel]
      _ ≤ |(q : ℝ) - r| + |r| := abs_add_le _ _
      _ ≤ 2 ^ n := by linarith
  exact_mod_cast hle

include h in
theorem mag_sin (hx : Mag x a) : Mag (sin x) 1 := by
  obtain ⟨q, hq, -⟩ := hx
  obtain ⟨r, hr, hle⟩ := h.sin x q hq
  refine mag_of_near hr (hle.trans (libraryError_le.trans (by norm_num))) ?_
  linarith [Real.abs_sin_le_one (q : ℝ)]

include h in
theorem mag_cos (hx : Mag x a) : Mag (cos x) 1 := by
  obtain ⟨q, hq, -⟩ := hx
  obtain ⟨r, hr, hle⟩ := h.cos x q hq
  refine mag_of_near hr (hle.trans (libraryError_le.trans (by norm_num))) ?_
  linarith [Real.abs_cos_le_one (q : ℝ)]

include h in
/-- The cosine of zero. -/
theorem half_le_cos_zero (hx : x.value = .finite 0) :
    ∃ r, (cos x).value = .finite r ∧ 1 / 2 ≤ r := by
  obtain ⟨r, hr, hle⟩ := h.cos x 0 hx
  refine ⟨r, hr, ?_⟩
  have hlow := (abs_le.mp (hle.trans libraryError_le)).1
  rw [Rat.cast_zero, Real.cos_zero] at hlow
  have hhalf : (1 / 2 : ℝ) ≤ r := by linarith
  refine (Rat.cast_le (K := ℝ)).mp ?_
  push_cast
  simpa using hhalf

include h in
theorem away_cos_zero (hx : x.value = .finite 0) : Away (cos x) 1 := by
  obtain ⟨r, hr, hle⟩ := half_le_cos_zero h hx
  exact ⟨r, hr, (pow_one (2 : ℚ)).symm ▸ hle.trans (le_abs_self r)⟩

include h in
theorem mag_atan2 (hy : Mag y a) (hx : Mag x b) : Mag (atan2 y x) 3 := by
  obtain ⟨p, hp, -⟩ := hy
  obtain ⟨q, hq, -⟩ := hx
  obtain ⟨r, hr, hle⟩ := h.atan2 y x p q hp hq
  have hpi := Complex.abs_arg_le_pi ⟨(q : ℝ), (p : ℝ)⟩
  rcases hle with hle | ⟨-, hle⟩
  · refine mag_of_near hr (hle.trans (libraryError_le.trans (by norm_num))) ?_
    linarith [Real.pi_le_four]
  · refine mag_of_near hr (hle.trans (libraryError_le.trans (by norm_num))) ?_
    rw [abs_neg]
    linarith [Real.pi_le_four]

include h in
/-- The arcsine of a clipped number. -/
theorem mag_asin_clip (hx : isNan x = false) :
    Mag (asin (clip x (ofRat (-1)) (ofRat 1))) 2 := by
  have hone : Representable binary64 1 := by
    simpa using representable_two_pow (n := 0) (by omega)
  obtain ⟨q, hq, hlow, hhigh⟩ := clip_mem hx
    (value_ofRat (representable_neg hone) (n := 0) (by norm_num) (by norm_num))
    (value_ofRat hone (n := 0) (by norm_num) (by norm_num)) (by norm_num)
  obtain ⟨r, hr, hle⟩ := h.asin _ q hq (abs_le.mpr ⟨hlow, hhigh⟩)
  refine mag_of_near hr (hle.trans (libraryError_le.trans (by norm_num))) ?_
  have harcsin : |Real.arcsin q| ≤ Real.pi / 2 :=
    abs_le.mpr ⟨Real.neg_pi_div_two_le_arcsin q, Real.arcsin_le_pi_div_two q⟩
  linarith [Real.pi_le_four]

include h in
theorem mag_pi : Mag (Scalar.pi : Double library) 3 := by
  obtain ⟨q, hq, hle⟩ := h.pi
  refine mag_of_near hq (hle.trans (libraryError_le.trans (by norm_num))) ?_
  rw [abs_of_pos Real.pi_pos]
  linarith [Real.pi_le_four]

include h in
theorem away_pi : Away (Scalar.pi : Double library) 0 := by
  obtain ⟨q, hq, hle⟩ := h.pi
  refine ⟨q, hq, ?_⟩
  have hone : (1 : ℝ) ≤ |(q : ℝ)| := by
    have := (abs_le.mp (hle.trans libraryError_le)).1
    exact le_trans (by linarith [Real.two_le_pi]) (le_abs_self _)
  rw [pow_zero, div_one]
  exact_mod_cast hone

include h in
theorem mag_sqrt (hx : x.value = .finite q) (hq : 0 ≤ q) (hle : q ≤ 2 ^ (2 * n)) :
    Mag (sqrt x) (n + 1) := by
  obtain ⟨r, hr, herror⟩ := h.sqrt x q hx hq
  refine ⟨r, hr, ?_⟩
  have hroot : Real.sqrt q ≤ 2 ^ n := by
    rw [Real.sqrt_le_left (by positivity), ← pow_mul, mul_comm]
    exact_mod_cast hle
  have habs : |(r : ℝ)| ≤ 2 ^ (n + 1) := by
    have hnonneg := Real.sqrt_nonneg (q : ℝ)
    calc |(r : ℝ)| = |(r - Real.sqrt q) + Real.sqrt q| := by rw [sub_add_cancel]
      _ ≤ |(r : ℝ) - Real.sqrt q| + |Real.sqrt q| := abs_add_le _ _
      _ ≤ Real.sqrt q * 1 + Real.sqrt q := by
        rw [abs_of_nonneg hnonneg]
        have := mul_le_mul_of_nonneg_left (libraryError_le.trans (by norm_num : (1 : ℝ) / 1024 ≤ 1))
          hnonneg
        linarith
      _ ≤ 2 ^ (n + 1) := by rw [pow_succ]; linarith
  exact_mod_cast habs

include h in
theorem nonneg_sqrt (hx : x.value = .finite q) (hq : 0 ≤ q) : Nonneg (sqrt x) := by
  obtain ⟨r, hr, herror⟩ := h.sqrt x q hx hq
  refine ⟨r, hr, ?_⟩
  have hnonneg := Real.sqrt_nonneg (q : ℝ)
  have hsmall := mul_le_mul_of_nonneg_left (libraryError_le.trans (by norm_num :
    (1 : ℝ) / 1024 ≤ 1)) hnonneg
  have hlow := (abs_le.mp herror).1
  have hreal : (0 : ℝ) ≤ r := by linarith
  exact_mod_cast hreal

include h in
theorem small_sqrt (hx : x.value = .finite q) (hq : 0 ≤ q) (hle : q ≤ 1 / 2 ^ (2 * (n + 1))) :
    Small (sqrt x) n := by
  obtain ⟨r, hr, herror⟩ := h.sqrt x q hx hq
  refine ⟨r, hr, ?_⟩
  have hroot : Real.sqrt q ≤ 1 / 2 ^ (n + 1) := by
    rw [Real.sqrt_le_left (by positivity), div_pow, one_pow, ← pow_mul, mul_comm (n + 1)]
    have hreal := (Rat.cast_le (K := ℝ)).mpr hle
    push_cast at hreal
    exact hreal
  have habs : |(r : ℝ)| ≤ 1 / 2 ^ n := by
    have hnonneg := Real.sqrt_nonneg (q : ℝ)
    have herror' := mul_le_mul_of_nonneg_left (libraryError_le.trans (by norm_num :
      (1 : ℝ) / 1024 ≤ 1)) hnonneg
    calc |(r : ℝ)| = |(r - Real.sqrt q) + Real.sqrt q| := by rw [sub_add_cancel]
      _ ≤ |(r : ℝ) - Real.sqrt q| + |Real.sqrt q| := abs_add_le _ _
      _ ≤ Real.sqrt q * 1 + Real.sqrt q := by
        rw [abs_of_nonneg hnonneg]
        linarith
      _ ≤ 1 / 2 ^ (n + 1) * 1 + 1 / 2 ^ (n + 1) := by linarith
      _ = 1 / 2 ^ n := by rw [pow_succ]; field_simp; norm_num
  refine (Rat.cast_le (K := ℝ)).mp ?_
  push_cast
  exact habs

include h in
theorem away_sqrt (hx : x.value = .finite q) (hle : 1 / 2 ^ (2 * n) ≤ q) :
    Away (sqrt x) (n + 1) := by
  have hpos : 0 ≤ q := le_trans (by positivity) hle
  obtain ⟨r, hr, herror⟩ := h.sqrt x q hx hpos
  refine ⟨r, hr, ?_⟩
  have hroot : 1 / 2 ^ n ≤ Real.sqrt q := by
    rw [Real.le_sqrt (by positivity) (by exact_mod_cast hpos), div_pow, one_pow, ← pow_mul,
      mul_comm n]
    have hreal := (Rat.cast_le (K := ℝ)).mpr hle
    push_cast at hreal
    exact hreal
  have habs : 1 / 2 ^ (n + 1) ≤ |(r : ℝ)| := by
    have hnonneg := Real.sqrt_nonneg (q : ℝ)
    have hhalf := mul_le_mul_of_nonneg_left (libraryError_le.trans (by norm_num :
      (1 : ℝ) / 1024 ≤ 1 / 2)) hnonneg
    have hlow := (abs_le.mp herror).1
    calc (1 : ℝ) / 2 ^ (n + 1) = 1 / 2 ^ n * (1 / 2) := by rw [pow_succ]; ring
      _ ≤ Real.sqrt q * (1 / 2) := mul_le_mul_of_nonneg_right hroot (by norm_num)
      _ ≤ r := by linarith
      _ ≤ |(r : ℝ)| := le_abs_self _
  refine (Rat.cast_le (K := ℝ)).mp ?_
  push_cast
  exact habs

end Functions

/-! ### Sums of squares -/

/-- A sum is at least each of its parts. -/
theorem exists_add (hx : x.value = .finite p) (hy : y.value = .finite q) (hp : 0 ≤ p) (hq : 0 ≤ q)
    (hpa : p ≤ 2 ^ a) (hqb : q ≤ 2 ^ b) (ha : a < n) (hb : b < n) (hn : n ≤ 1023) :
    ∃ r, (x + y).value = .finite r ∧ p ≤ r ∧ q ≤ r ∧ r ≤ 2 ^ n := by
  have hmag : Mag (x + y) n := Mag.add ⟨p, hx, by rwa [abs_of_nonneg hp]⟩
    ⟨q, hy, by rwa [abs_of_nonneg hq]⟩ ha hb hn
  rw [value_add hx hy] at hmag ⊢
  obtain ⟨r, hr, hle⟩ := hmag
  have hround := eq_roundTo hr
  refine ⟨r, hr, ?_, ?_, le_of_abs_le hle⟩ <;> rw [hround]
  · exact (roundTo_of_representable (representable_of_value hx)).symm.trans_le
      (roundTo_mono (by linarith))
  · exact (roundTo_of_representable (representable_of_value hy)).symm.trans_le
      (roundTo_mono (by linarith))

theorem exists_mul_self (hx : x.value = .finite p) (hp : |p| ≤ 2 ^ a) (ha : 2 * a ≤ 1023) :
    ∃ r, (x * x).value = .finite r ∧ 0 ≤ r ∧ r ≤ 2 ^ (2 * a) ∧
      ∀ k, 2 * k ≤ 1074 → 1 / 2 ^ k ≤ |p| → 1 / 2 ^ (2 * k) ≤ r := by
  have hmag : Mag (x * x) (2 * a) := Mag.mul ⟨p, hx, hp⟩ ⟨p, hx, hp⟩ (by omega) ha
  rw [value_mul hx hx] at hmag ⊢
  obtain ⟨r, hr, hle⟩ := hmag
  have hround := eq_roundTo hr
  refine ⟨r, hr, hround ▸ roundTo_nonneg (mul_self_nonneg p), le_of_abs_le hle, fun k hk hle => ?_⟩
  have hrep := representable_inv hk
  rw [hround, ← roundTo_of_representable hrep]
  refine roundTo_mono ?_
  calc (1 : ℚ) / 2 ^ (2 * k) = 1 / 2 ^ k * (1 / 2 ^ k) := by rw [two_mul, pow_add]; ring
    _ ≤ |p| * |p| := mul_le_mul hle hle (by positivity) (abs_nonneg p)
    _ = p * p := abs_mul_abs_self p

/-! ### Vectors and quaternions -/

/-- The components are bounded. -/
structure VecMag (v : Vec (Double library)) (n : ℕ) : Prop where
  x : Mag v.x n
  y : Mag v.y n
  z : Mag v.z n

namespace VecMag

variable {u v : Vec (Double library)}

theorem allFinite (hv : VecMag v n) : v.allFinite = true := by
  rw [Vec.allFinite, Vec.all, hv.x.isFinite, hv.y.isFinite, hv.z.isFinite]
  rfl

theorem add (hu : VecMag u a) (hv : VecMag v b) (ha : a < n) (hb : b < n) (hn : n ≤ 1023) :
    VecMag (u + v) n :=
  ⟨hu.x.add hv.x ha hb hn, hu.y.add hv.y ha hb hn, hu.z.add hv.z ha hb hn⟩

theorem sub (hu : VecMag u a) (hv : VecMag v b) (ha : a < n) (hb : b < n) (hn : n ≤ 1023) :
    VecMag (u - v) n :=
  ⟨hu.x.sub hv.x ha hb hn, hu.y.sub hv.y ha hb hn, hu.z.sub hv.z ha hb hn⟩

theorem scale (hx : Mag x a) (hv : VecMag v b) (h : a + b ≤ n) (hn : n ≤ 1023) :
    VecMag (v.scale x) n :=
  ⟨hx.mul hv.x h hn, hx.mul hv.y h hn, hx.mul hv.z h hn⟩

theorem map_div (hv : VecMag v a) (hx : Away x b) (h : a + b ≤ n) (hn : n ≤ 1023) :
    VecMag (v.map (· / x)) n :=
  ⟨hv.x.div hx h hn, hv.y.div hx h hn, hv.z.div hx h hn⟩

theorem dot (hu : VecMag u a) (hv : VecMag v b) (h : a + b + 2 ≤ n) (hn : n ≤ 1023) :
    Mag (u.dot v) n :=
  ((hu.x.mul hv.x le_rfl (by omega)).add (hu.y.mul hv.y le_rfl (by omega)) (lt_add_one _)
    (lt_add_one _) (by omega)).add (hu.z.mul hv.z le_rfl (by omega)) (by omega) (by omega) hn

/-- The square norm is at least each of the squares. -/
theorem exists_dot_self (hv : VecMag v a) (ha : 2 * a + 2 ≤ 1023) :
    ∃ d, (v.dot v).value = .finite d ∧ 0 ≤ d ∧ d ≤ 2 ^ (2 * a + 2) ∧
      ∀ k, 2 * k ≤ 1074 → Away v.x k ∨ Away v.y k ∨ Away v.z k → 1 / 2 ^ (2 * k) ≤ d := by
  obtain ⟨⟨p, hp, hpa⟩, ⟨q, hq, hqa⟩, r, hr, hra⟩ := hv
  obtain ⟨sx, hsx, hsx0, hsxa, hsxk⟩ := exists_mul_self hp hpa (by omega)
  obtain ⟨sy, hsy, hsy0, hsya, hsyk⟩ := exists_mul_self hq hqa (by omega)
  obtain ⟨sz, hsz, hsz0, hsza, hszk⟩ := exists_mul_self hr hra (by omega)
  obtain ⟨s, hs, hxs, hys, hsa⟩ := exists_add (n := 2 * a + 1) hsx hsy hsx0 hsy0 hsxa hsya
    (by omega) (by omega) (by omega)
  obtain ⟨d, hd, hsd, hzd, hda⟩ := exists_add (n := 2 * a + 2) hs hsz (hsx0.trans hxs) hsz0 hsa hsza
    (by omega) (by omega) ha
  refine ⟨d, hd, hsz0.trans hzd, hda, fun k hk haway => ?_⟩
  rcases haway with ⟨p', hp', hle⟩ | ⟨q', hq', hle⟩ | ⟨r', hr', hle⟩
  · obtain rfl : p = p' := Value.finite.inj (hp.symm.trans hp')
    exact ((hsxk k hk hle).trans hxs).trans hsd
  · obtain rfl : q = q' := Value.finite.inj (hq.symm.trans hq')
    exact ((hsyk k hk hle).trans hys).trans hsd
  · obtain rfl : r = r' := Value.finite.inj (hr.symm.trans hr')
    exact (hszk k hk hle).trans hzd

theorem norm (h : library.Accurate) (hv : VecMag v a) (hn : a + 2 ≤ n) (ha : 2 * a + 2 ≤ 1023) :
    Mag v.norm n := by
  obtain ⟨d, hd, hd0, hda, -⟩ := hv.exists_dot_self ha
  exact (mag_sqrt h hd hd0 (n := a + 1) (hda.trans (two_pow_le (by omega)))).mono hn

end VecMag

/-- The components are bounded. -/
structure QuatMag (q : Quat (Double library)) (n : ℕ) : Prop where
  w : Mag q.w n
  x : Mag q.x n
  y : Mag q.y n
  z : Mag q.z n

theorem QuatMag.mono {q : Quat (Double library)} (hq : QuatMag q a) (h : a ≤ n) : QuatMag q n :=
  ⟨hq.w.mono h, hq.x.mono h, hq.y.mono h, hq.z.mono h⟩

end Double

end Ieee
