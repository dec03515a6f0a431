import RobotCore.Lib.Scalar.Magnitude

/-!
# Accuracy

Below 16 an operation of doubles is off by at most `roundingError`.  Sines and cosines lie nearly on
the unit circle, a product of nearly unit quaternions is known up to a few roundings, and a
quaternion divided by its norm has small components.
-/

namespace Ieee

namespace Double

open Scalar

variable {library : MathLibrary binary64} {x y z : Double library} {p q r : ℚ} {a b n : ℕ}

/-- A bound on the error of an operation below 16. -/
def roundingError : ℚ := 1 / 2 ^ 49

theorem value_rounded (h : |q| < 16) :
    ∃ r, (ofRat q : Double library).value = .finite r ∧ |r - q| ≤ roundingError := by
  have hmag : Mag (ofRat q : Double library) 4 := Mag.ofRat (h.le.trans (by norm_num)) (by omega)
  obtain ⟨r, hr, -⟩ := hmag
  refine ⟨r, hr, ?_⟩
  rw [eq_roundTo hr]
  refine (abs_roundTo_sub_le (k := 4) (h.trans_le (by norm_num)) (by norm_num [binary64])).trans ?_
  norm_num [roundingError, binary64]

theorem rounded_add (hx : x.value = .finite p) (hy : y.value = .finite q) (h : |p + q| < 16) :
    ∃ r, (x + y).value = .finite r ∧ |r - (p + q)| ≤ roundingError := by
  rw [value_add hx hy]
  exact value_rounded h

theorem rounded_mul (hx : x.value = .finite p) (hy : y.value = .finite q) (h : |p * q| < 16) :
    ∃ r, (x * y).value = .finite r ∧ |r - p * q| ≤ roundingError := by
  rw [value_mul hx hy]
  exact value_rounded h

theorem rounded_div (hx : x.value = .finite p) (hy : y.value = .finite q) (hq : q ≠ 0)
    (h : |p / q| < 16) : ∃ r, (x / y).value = .finite r ∧ |r - p / q| ≤ roundingError := by
  rw [value_div hx hy hq]
  exact value_rounded h

theorem roundingError_pos : 0 < roundingError := by norm_num [roundingError]

/-- Squares of close numbers are close. -/
theorem abs_mul_self_sub_le {e : ℚ} (h : |p - q| ≤ e) (hq : |q| ≤ 2) (he : e ≤ 1) :
    |p * p - q * q| ≤ 5 * e := by
  have hsplit : p * p - q * q = (p - q) * (p - q + 2 * q) := by ring
  rw [hsplit, abs_mul]
  have hsum : |p - q + 2 * q| ≤ 5 := by
    calc |p - q + 2 * q| ≤ |p - q| + |2 * q| := abs_add_le _ _
      _ = |p - q| + 2 * |q| := by rw [abs_mul, abs_two]
      _ ≤ 5 := by linarith
  calc |p - q| * |p - q + 2 * q| ≤ e * 5 :=
        mul_le_mul h hsum (abs_nonneg _) ((abs_nonneg _).trans h)
    _ = 5 * e := mul_comm _ _

/-- Three factors of at most two. -/
theorem rounded_mul_mul (hx : x.value = .finite p) (hy : y.value = .finite q)
    (hz : z.value = .finite r) (hp : |p| ≤ 3 / 2) (hq : |q| ≤ 3 / 2) (hr : |r| ≤ 3 / 2) :
    ∃ s, (x * y * z).value = .finite s ∧ |s - p * q * r| ≤ 3 * roundingError := by
  have hpq : |p * q| ≤ 9 / 4 := by
    rw [abs_mul]
    nlinarith [abs_nonneg p, abs_nonneg q]
  obtain ⟨t, ht, hterror⟩ := rounded_mul hx hy (hpq.trans_lt (by norm_num))
  have herror : roundingError ≤ 1 / 4 := by norm_num [roundingError]
  have htle : |t| ≤ 5 / 2 := by
    calc |t| = |(t - p * q) + p * q| := by rw [sub_add_cancel]
      _ ≤ |t - p * q| + |p * q| := abs_add_le _ _
      _ ≤ 5 / 2 := by linarith
  have htr : |t * r| ≤ 15 / 4 := by
    rw [abs_mul]
    nlinarith [abs_nonneg t, abs_nonneg r]
  obtain ⟨s, hs, hserror⟩ := rounded_mul ht hz (htr.trans_lt (by norm_num))
  refine ⟨s, hs, ?_⟩
  have hsplit : s - p * q * r = (s - t * r) + (t - p * q) * r := by ring
  rw [hsplit]
  calc |(s - t * r) + (t - p * q) * r| ≤ |s - t * r| + |t - p * q| * |r| := by
        rw [← abs_mul]
        exact abs_add_le _ _
    _ ≤ roundingError + roundingError * (3 / 2) :=
        add_le_add hserror (mul_le_mul hterror hr (abs_nonneg r) roundingError_pos.le)
    _ ≤ 3 * roundingError := by linarith [roundingError_pos]

section Circle

variable (h : library.Accurate)

/-- A point nearly on the unit circle. -/
structure OnCircle (s c : ℚ) : Prop where
  sin_le : |s| ≤ 3 / 2
  cos_le : |c| ≤ 3 / 2
  norm : |s * s + c * c - 1| ≤ 1 / 2 ^ 45

include h in
theorem onCircle_sin_cos (hx : Mag x a) :
    ∃ s c, (sin x).value = .finite s ∧ (cos x).value = .finite c ∧ OnCircle s c := by
  obtain ⟨q, hq, -⟩ := hx
  obtain ⟨s, hs, hserror⟩ := h.sin x q hq
  obtain ⟨c, hc, hcerror⟩ := h.cos x q hq
  have hsin := Real.abs_sin_le_one (q : ℝ)
  have hcos := Real.abs_cos_le_one (q : ℝ)
  have hunit := Real.sin_sq_add_cos_sq (q : ℝ)
  -- an error of a number of the unit interval is tripled at most by squaring it
  have hbound : ∀ (u : ℚ) (v : ℝ), |v| ≤ 1 → |(u : ℝ) - v| ≤ libraryError →
      |(u : ℝ)| ≤ 3 / 2 ∧ |(u : ℝ) * u - v * v| ≤ 3 * libraryError := by
    intro u v hv hu
    have hsmall : libraryError ≤ 1 / 2 := libraryError_le.trans (by norm_num)
    have hpos : 0 ≤ libraryError := (abs_nonneg _).trans hu
    refine ⟨?_, ?_⟩
    · calc |(u : ℝ)| = |(u - v) + v| := by rw [sub_add_cancel]
        _ ≤ |(u : ℝ) - v| + |v| := abs_add_le _ _
        _ ≤ 3 / 2 := by linarith
    · have hsplit : (u : ℝ) * u - v * v = (u - v) * ((u - v) + 2 * v) := by ring
      have hsum : |((u : ℝ) - v) + 2 * v| ≤ 3 := by
        calc |((u : ℝ) - v) + 2 * v| ≤ |(u : ℝ) - v| + |2 * v| := abs_add_le _ _
          _ = |(u : ℝ) - v| + 2 * |v| := by rw [abs_mul, abs_two]
          _ ≤ 3 := by linarith
      rw [hsplit, abs_mul]
      calc |(u : ℝ) - v| * |(u - v) + 2 * v| ≤ libraryError * 3 :=
            mul_le_mul hu hsum (abs_nonneg _) hpos
        _ = 3 * libraryError := mul_comm _ _
  obtain ⟨hs32, hsquare⟩ := hbound s _ hsin hserror
  obtain ⟨hc32, hcsquare⟩ := hbound c _ hcos hcerror
  refine ⟨s, c, hs, hc, ⟨(Rat.cast_le (K := ℝ)).mp (by push_cast; exact hs32),
    (Rat.cast_le (K := ℝ)).mp (by push_cast; exact hc32), ?_⟩⟩
  have hreal : |(s : ℝ) * s + c * c - 1| ≤ 1 / 2 ^ 45 := by
    have hsplit : (s : ℝ) * s + c * c - 1 = ((s : ℝ) * s - Real.sin q * Real.sin q) +
        ((c : ℝ) * c - Real.cos q * Real.cos q) := by
      linear_combination hunit
    rw [hsplit]
    refine (abs_add_le _ _).trans ((add_le_add hsquare hcsquare).trans ?_)
    norm_num [libraryError]
  refine (Rat.cast_le (K := ℝ)).mp ?_
  push_cast
  exact hreal

end Circle

/-! ### Quaternions -/

/-- What the components of a quaternion stand for. -/
structure QuatValue (q : Quat (Double library)) (w x y z : ℚ) : Prop where
  w : q.w.value = .finite w
  x : q.x.value = .finite x
  y : q.y.value = .finite y
  z : q.z.value = .finite z

/-- A quaternion of nearly unit norm. -/
def NearUnit (q : Quat (Double library)) : Prop :=
  ∃ w x y z, QuatValue q w x y z ∧ |w * w + x * x + y * y + z * z - 1| ≤ 1 / 2 ^ 40

theorem abs_le_of_mul_self_le {u v : ℚ} (hv : 0 ≤ v) (h : u * u ≤ v * v) : |u| ≤ v :=
  abs_le_of_sq_le_sq (by simpa only [sq] using h) hv

/-- The components of a quaternion with a square norm of at most four. -/
theorem abs_components_le {w x y z : ℚ} (h : w * w + x * x + y * y + z * z ≤ 4) :
    |w| ≤ 2 ∧ |x| ≤ 2 ∧ |y| ≤ 2 ∧ |z| ≤ 2 := by
  have hw := mul_self_nonneg w
  have hx := mul_self_nonneg x
  have hy := mul_self_nonneg y
  have hz := mul_self_nonneg z
  refine ⟨?_, ?_, ?_, ?_⟩ <;> exact abs_le_of_mul_self_le (by norm_num) (by linarith)

theorem NearUnit.quatMag {q : Quat (Double library)} (h : NearUnit q) : QuatMag q 1 := by
  obtain ⟨w, x, y, z, hq, hle⟩ := h
  obtain ⟨hw, hx, hy, hz⟩ := abs_components_le (w := w) (x := x) (y := y) (z := z)
    (by linarith [(abs_le.mp hle).2])
  exact ⟨⟨w, hq.w, by simpa using hw⟩, ⟨x, hq.x, by simpa using hx⟩, ⟨y, hq.y, by simpa using hy⟩,
    z, hq.z, by simpa using hz⟩

/-- Square norms of close quaternions are close. -/
theorem abs_norm_sub_le {w x y z w' x' y' z' e : ℚ} (hw : |w - w'| ≤ e) (hx : |x - x'| ≤ e)
    (hy : |y - y'| ≤ e) (hz : |z - z'| ≤ e) (he : e ≤ 1)
    (h : w' * w' + x' * x' + y' * y' + z' * z' ≤ 4) :
    |w * w + x * x + y * y + z * z - (w' * w' + x' * x' + y' * y' + z' * z')| ≤ 20 * e := by
  obtain ⟨hw', hx', hy', hz'⟩ := abs_components_le h
  have hsplit : w * w + x * x + y * y + z * z - (w' * w' + x' * x' + y' * y' + z' * z') =
      (w * w - w' * w') + (x * x - x' * x') + (y * y - y' * y') + (z * z - z' * z') := by ring
  have hsum := abs_add_le ((w * w - w' * w') + (x * x - x' * x') + (y * y - y' * y'))
    (z * z - z' * z')
  have hsum' := abs_add_three (w * w - w' * w') (x * x - x' * x') (y * y - y' * y')
  rw [hsplit]
  linarith [abs_mul_self_sub_le hw hw' he, abs_mul_self_sub_le hx hx' he,
    abs_mul_self_sub_le hy hy' he, abs_mul_self_sub_le hz hz' he]

theorem abs_mul_mul_le {u v w : ℚ} (hu : |u| ≤ 3 / 2) (hv : |v| ≤ 3 / 2) (hw : |w| ≤ 3 / 2) :
    |u * v * w| ≤ 4 := by
  rw [abs_mul, abs_mul]
  have huv : |u| * |v| ≤ 3 / 2 * (3 / 2) := mul_le_mul hu hv (abs_nonneg v) (by norm_num)
  have huvw : |u| * |v| * |w| ≤ 3 / 2 * (3 / 2) * (3 / 2) :=
    mul_le_mul huv hw (abs_nonneg w) (by norm_num)
  linarith

/-- The sum of two products of three factors. -/
theorem rounded_add_products {p' q' : ℚ} (hx : x.value = .finite p) (hy : y.value = .finite q)
    (hp : |p - p'| ≤ 3 * roundingError) (hq : |q - q'| ≤ 3 * roundingError) (hp' : |p'| ≤ 4)
    (hq' : |q'| ≤ 4) : ∃ r, (x + y).value = .finite r ∧ |r - (p' + q')| ≤ 7 * roundingError := by
  have herror : roundingError ≤ 1 / 4 := by norm_num [roundingError]
  have hsum : |p + q - (p' + q')| ≤ 6 * roundingError := by
    have hsplit : p + q - (p' + q') = (p - p') + (q - q') := by ring
    rw [hsplit]
    linarith [abs_add_le (p - p') (q - q')]
  have hbound : |p + q| < 16 := by
    calc |p + q| = |(p + q - (p' + q')) + (p' + q')| := by rw [sub_add_cancel]
      _ ≤ |p + q - (p' + q')| + |p' + q'| := abs_add_le _ _
      _ ≤ 6 * roundingError + (|p'| + |q'|) := add_le_add hsum (abs_add_le _ _)
      _ < 16 := by linarith
  obtain ⟨r, hr, hrerror⟩ := rounded_add hx hy hbound
  refine ⟨r, hr, ?_⟩
  have hsplit : r - (p' + q') = (r - (p + q)) + (p + q - (p' + q')) := by ring
  rw [hsplit]
  linarith [abs_add_le (r - (p + q)) (p + q - (p' + q'))]

theorem rounded_sub_products {p' q' : ℚ} (hx : x.value = .finite p) (hy : y.value = .finite q)
    (hp : |p - p'| ≤ 3 * roundingError) (hq : |q - q'| ≤ 3 * roundingError) (hp' : |p'| ≤ 4)
    (hq' : |q'| ≤ 4) : ∃ r, (x - y).value = .finite r ∧ |r - (p' - q')| ≤ 7 * roundingError := by
  rw [sub_eq_add_neg p' q']
  refine rounded_add_products hx (value_neg hy) hp ?_ hp' (by rwa [abs_neg])
  rwa [neg_sub_neg, abs_sub_comm]

theorem abs_product_sub_one_le {u v w : ℚ} (hu : |u - 1| ≤ 1 / 2 ^ 45) (hv : |v - 1| ≤ 1 / 2 ^ 45)
    (hw : |w - 1| ≤ 1 / 2 ^ 45) : |u * v * w - 1| ≤ 1 / 2 ^ 42 := by
  have hpair {a b e : ℚ} (ha : |a - 1| ≤ e) (hb : |b - 1| ≤ 1 / 2 ^ 45) (he : e ≤ 1) :
      |a * b - 1| ≤ e + 2 / 2 ^ 45 := by
    have hsplit : a * b - 1 = (a - 1) + a * (b - 1) := by ring
    have hale : |a| ≤ 2 := by
      calc |a| = |(a - 1) + 1| := by rw [sub_add_cancel]
        _ ≤ |a - 1| + |1| := abs_add_le _ _
        _ ≤ 2 := by rw [abs_one]; linarith
    have hmul : |a| * |b - 1| ≤ 2 * (1 / 2 ^ 45) :=
      mul_le_mul hale hb (abs_nonneg _) (by norm_num)
    rw [hsplit]
    calc |(a - 1) + a * (b - 1)| ≤ |a - 1| + |a * (b - 1)| := abs_add_le _ _
      _ ≤ e + 2 / 2 ^ 45 := by rw [abs_mul]; linarith
  exact (hpair (hpair hu hv (by norm_num)) hw (by norm_num)).trans (by norm_num)

/-! ### Norms -/

variable (hlibrary : library.Accurate)

/-- Both parts of a finite sum are finite, and it is the rounding of theirs. -/
theorem exists_of_add (h : (x + y).value = .finite r) :
    ∃ p q, x.value = .finite p ∧ y.value = .finite q ∧ r = roundTo binary64 (p + q) := by
  obtain ⟨p, q, hx, hy⟩ := Number.exists_of_add (f := binary64) h
  exact ⟨p, q, hx, hy, eq_roundTo (value_add hx hy ▸ h)⟩

theorem exists_of_mul_self (h : (x * x).value = .finite r) :
    ∃ p, x.value = .finite p ∧ r = roundTo binary64 (p * p) := by
  obtain ⟨p, hx⟩ := Number.exists_of_mul_self (f := binary64) h
  exact ⟨p, hx, eq_roundTo (value_mul hx hx ▸ h)⟩

/-- A finite square norm is at least the rounding of each of the squares. -/
theorem exists_of_dot_self {q : Quat (Double library)} {d : ℚ} (h : (q.dot q).value = .finite d) :
    ∃ w x y z, QuatValue q w x y z ∧ ∀ u ∈ [w, x, y, z], roundTo binary64 (u * u) ≤ d := by
  -- a rounded sum of numbers of the format is not below either of them
  have hgrow {a b : ℚ} (ha : 0 ≤ a) (hb : 0 ≤ b) (ha' : Representable binary64 a)
      (hb' : Representable binary64 b) :
      a ≤ roundTo binary64 (a + b) ∧ b ≤ roundTo binary64 (a + b) :=
    ⟨(roundTo_of_representable ha').symm.trans_le (roundTo_mono (by linarith)),
      (roundTo_of_representable hb').symm.trans_le (roundTo_mono (by linarith))⟩
  have hsquare (u : ℚ) : 0 ≤ roundTo binary64 (u * u) ∧
      Representable binary64 (roundTo binary64 (u * u)) :=
    ⟨roundTo_nonneg (mul_self_nonneg u), representable_roundTo _⟩
  -- from the sum down to the components, all of which are finite
  obtain ⟨wxy, zz, hwxy, hzz, rfl⟩ := exists_of_add h
  obtain ⟨wx, yy, hwx, hyy, rfl⟩ := exists_of_add hwxy
  obtain ⟨ww, xx, hww, hxx, rfl⟩ := exists_of_add hwx
  obtain ⟨w, hw, rfl⟩ := exists_of_mul_self hww
  obtain ⟨x, hx, rfl⟩ := exists_of_mul_self hxx
  obtain ⟨y, hy, rfl⟩ := exists_of_mul_self hyy
  obtain ⟨z, hz, rfl⟩ := exists_of_mul_self hzz
  obtain ⟨hw1, hx1⟩ := hgrow (hsquare w).1 (hsquare x).1 (hsquare w).2 (hsquare x).2
  have hwx0 := (hsquare w).1.trans hw1
  obtain ⟨hwx2, hy2⟩ := hgrow hwx0 (hsquare y).1 (representable_roundTo _) (hsquare y).2
  have hwxy0 := hwx0.trans hwx2
  obtain ⟨hwxy3, hz3⟩ := hgrow hwxy0 (hsquare z).1 (representable_roundTo _) (hsquare z).2
  refine ⟨w, x, y, z, ⟨hw, hx, hy, hz⟩, fun u hu => ?_⟩
  simp only [List.mem_cons, List.not_mem_nil, or_false] at hu
  rcases hu with rfl | rfl | rfl | rfl
  · exact (hw1.trans hwx2).trans hwxy3
  · exact (hx1.trans hwx2).trans hwxy3
  · exact hy2.trans hwxy3
  · exact hz3

/-- A square that is not minute is rounded to more than half of it. -/
theorem half_le_roundTo_mul_self {u : ℚ} (hu : 1 / 2 ^ 100 ≤ |u|) :
    u * u / 2 ≤ roundTo binary64 (u * u) := by
  have hpos : 0 < |u| := lt_of_lt_of_le (by positivity) hu
  have hne : u * u ≠ 0 := mul_self_ne_zero.mpr (abs_pos.mp hpos)
  have hlow : ((2 : ℕ) : ℚ) ^ (-200 : ℤ) ≤ |u * u| := by
    rw [abs_mul]
    calc ((2 : ℕ) : ℚ) ^ (-200 : ℤ) = 1 / 2 ^ 100 * (1 / 2 ^ 100) := by
          rw [Nat.cast_ofNat, zpow_neg, one_div, ← mul_inv, ← pow_add]
          norm_cast
      _ ≤ |u| * |u| := mul_le_mul hu hu (by positivity) hpos.le
  have hlog : (-200 : ℤ) ≤ Int.log 2 |u * u| :=
    (Int.zpow_le_iff_le_log (by norm_num) (abs_pos.mpr hne)).mp hlow
  have hquantum : binary64.minExponent < quantumExponent binary64 (u * u) := by
    refine lt_of_lt_of_le ?_ (le_max_right _ _)
    have hmin : binary64.minExponent = -1074 := rfl
    have hprecision : (binary64.precision : ℤ) = 53 := rfl
    omega
  have herror := abs_roundTo_sub_le_mul hne hquantum
  have habs : |u * u| = u * u := abs_of_nonneg (mul_self_nonneg u)
  have hsmall : |u * u| / 2 ^ binary64.precision ≤ u * u / 2 := by
    rw [habs]
    exact div_le_div_of_nonneg_left (mul_self_nonneg u) (by norm_num) (by norm_num [binary64])
  linarith [(abs_le.mp (herror.trans hsmall)).1]

include hlibrary in
/-- The components are at most twice the norm. -/
theorem abs_le_norm {x : Double library} {u d n : ℚ} {k : ℕ} (hd : x.value = .finite d)
    (hu : roundTo binary64 (u * u) ≤ d) (hn : (sqrt x).value = .finite n) (hk : k ≤ 100)
    (hle : 1 / 2 ^ k ≤ |n|) : |u| ≤ 2 * |n| := by
  -- a minute component is below the norm, and the square of another is not lost by rounding
  rcases le_total |u| (1 / 2 ^ 100) with hsmall | hlarge
  · have hpow : (1 : ℚ) / 2 ^ 100 ≤ 1 / 2 ^ k :=
      one_div_le_one_div_of_le (by positivity) (two_pow_le hk)
    linarith [abs_nonneg n]
  · have hhalf := (half_le_roundTo_mul_self hlarge).trans hu
    have hd0 : 0 ≤ d := (by linarith [mul_self_nonneg u] : 0 ≤ d)
    obtain ⟨n', hn', herror⟩ := hlibrary.sqrt x d hd hd0
    obtain rfl : n = n' := Value.finite.inj (hn.symm.trans hn')
    have hroot : |(u : ℝ)| ≤ Real.sqrt d * (3 / 2) := by
      have hreal := (Rat.cast_le (K := ℝ)).mpr hhalf
      push_cast at hreal
      have hd0' : (0 : ℝ) ≤ d := by exact_mod_cast hd0
      have hsquare : (u : ℝ) ^ 2 ≤ d * (3 / 2) ^ 2 := by
        rw [sq]
        linarith
      refine (Real.abs_le_sqrt hsquare).trans_eq ?_
      rw [Real.sqrt_mul hd0', Real.sqrt_sq (by norm_num)]
    have hnonneg := Real.sqrt_nonneg (d : ℝ)
    have hsmall := mul_le_mul_of_nonneg_left libraryError_le hnonneg
    have hlow := (abs_le.mp herror).1
    have hreal : |(u : ℝ)| ≤ 2 * |(n : ℝ)| := by
      linarith [le_abs_self (n : ℝ)]
    refine (Rat.cast_le (K := ℝ)).mp ?_
    push_cast
    exact hreal

include hlibrary in
theorem exists_dot_of_norm {q : Quat (Double library)} (h : isFinite q.norm = true) :
    ∃ d, (q.dot q).value = .finite d := by
  by_contra hdot
  have hinfinite : isFinite (q.dot q) = false := by
    rw [Bool.eq_false_iff, Ne, isFinite_iff]
    exact hdot
  have hnorm : isFinite q.norm = false := hlibrary.sqrt_of_not_isFinite _ hinfinite
  rw [hnorm] at h
  cases h

include hlibrary in
/-- A quaternion divided by a norm that is not small has small components. -/
theorem quatMag_divide_norm {q : Quat (Double library)} {k : ℕ} (h : Away q.norm k)
    (hk : k ≤ 100) : QuatMag (q.divide q.norm) 1 := by
  have hfinite : isFinite q.norm = true := by
    obtain ⟨n, hn, -⟩ := h
    exact isFinite_iff.mpr ⟨n, hn⟩
  obtain ⟨d, hd⟩ := exists_dot_of_norm hlibrary hfinite
  obtain ⟨w, x, y, z, hq, hle⟩ := exists_of_dot_self hd
  obtain ⟨n, hn, hnk⟩ := h
  have hpos : 0 < |n| := lt_of_lt_of_le (by positivity) hnk
  have hcomponent {c : Double library} {u : ℚ} (hc : c.value = .finite u)
      (hu : u ∈ [w, x, y, z]) : Mag (c / q.norm) 1 := by
    have hbound := abs_le_norm hlibrary hd (hle u hu) hn hk hnk
    rw [value_div hc hn (abs_pos.mp hpos)]
    refine Mag.ofRat ?_ (by omega)
    rw [abs_div, div_le_iff₀ hpos, pow_one]
    exact hbound
  exact ⟨hcomponent hq.w (by simp), hcomponent hq.x (by simp), hcomponent hq.y (by simp),
    hcomponent hq.z (by simp)⟩

/-! ### Products of quaternions -/

theorem abs_mul_le {u v : ℚ} (hu : |u| ≤ 3 / 2) (hv : |v| ≤ 3 / 2) : |u * v| ≤ 9 / 4 := by
  rw [abs_mul]
  have huv : |u| * |v| ≤ 3 / 2 * (3 / 2) := mul_le_mul hu hv (abs_nonneg v) (by norm_num)
  linarith

/-- One more term of a sum. -/
theorem rounded_step {s t p' q' e f c d : ℚ} (hx : x.value = .finite s) (hy : y.value = .finite t)
    (hs : |s - p'| ≤ e) (ht : |t - q'| ≤ f) (hp : |p'| ≤ c) (hq : |q'| ≤ d)
    (h : e + f + c + d < 16) :
    ∃ r, (x + y).value = .finite r ∧ |r - (p' + q')| ≤ e + f + roundingError := by
  have hsum : |s + t - (p' + q')| ≤ e + f := by
    have hsplit : s + t - (p' + q') = (s - p') + (t - q') := by ring
    rw [hsplit]
    linarith [abs_add_le (s - p') (t - q')]
  have hbound : |s + t| < 16 := by
    calc |s + t| = |(s + t - (p' + q')) + (p' + q')| := by rw [sub_add_cancel]
      _ ≤ |s + t - (p' + q')| + |p' + q'| := abs_add_le _ _
      _ ≤ (e + f) + (|p'| + |q'|) := add_le_add hsum (abs_add_le _ _)
      _ < 16 := by linarith
  obtain ⟨r, hr, hrerror⟩ := rounded_add hx hy hbound
  refine ⟨r, hr, ?_⟩
  have hsplit : r - (p' + q') = (r - (s + t)) + (s + t - (p' + q')) := by ring
  rw [hsplit]
  linarith [abs_add_le (r - (s + t)) (s + t - (p' + q'))]

theorem rounded_dot {p q : Quat (Double library)} {w x y z w' x' y' z' : ℚ}
    (hp : QuatValue p w x y z) (hq : QuatValue q w' x' y' z')
    (hp' : ∀ u ∈ [w, x, y, z], |u| ≤ 3 / 2) (hq' : ∀ u ∈ [w', x', y', z'], |u| ≤ 3 / 2) :
    ∃ d, (p.dot q).value = .finite d ∧
      |d - (w * w' + x * x' + y * y' + z * z')| ≤ 7 * roundingError := by
  have herror : roundingError ≤ 1 / 16 := by norm_num [roundingError]
  have hproduct {a b : Double library} {u v : ℚ} (ha : a.value = .finite u)
      (hb : b.value = .finite v) (hu : |u| ≤ 3 / 2) (hv : |v| ≤ 3 / 2) :=
    And.intro (rounded_mul ha hb ((abs_mul_le hu hv).trans_lt (by norm_num))) (abs_mul_le hu hv)
  obtain ⟨⟨_, hww, hww'⟩, hwle⟩ := hproduct hp.w hq.w (hp' w (by simp)) (hq' w' (by simp))
  obtain ⟨⟨_, hxx, hxx'⟩, hxle⟩ := hproduct hp.x hq.x (hp' x (by simp)) (hq' x' (by simp))
  obtain ⟨⟨_, hyy, hyy'⟩, hyle⟩ := hproduct hp.y hq.y (hp' y (by simp)) (hq' y' (by simp))
  obtain ⟨⟨_, hzz, hzz'⟩, hzle⟩ := hproduct hp.z hq.z (hp' z (by simp)) (hq' z' (by simp))
  obtain ⟨_, hwx, hwx'⟩ := rounded_step hww hxx hww' hxx' hwle hxle (by linarith)
  have hwxle := (abs_add_le (w * w') (x * x')).trans (add_le_add hwle hxle)
  obtain ⟨_, hwxy, hwxy'⟩ := rounded_step hwx hyy hwx' hyy' hwxle hyle (by linarith)
  have hwxyle := (abs_add_le (w * w' + x * x') (y * y')).trans (add_le_add hwxle hyle)
  obtain ⟨d, hd, hd'⟩ := rounded_step hwxy hzz hwxy' hzz' hwxyle hzle (by linarith)
  exact ⟨d, hd, hd'.trans (by linarith)⟩

theorem QuatMag.dot {p q : Quat (Double library)} (hp : QuatMag p a) (hq : QuatMag q b)
    (h : a + b + 3 ≤ n) (hn : n ≤ 1023) : Mag (p.dot q) n := by
  have hww := hp.w.mul hq.w le_rfl (by omega)
  have hxx := hp.x.mul hq.x le_rfl (by omega)
  have hyy := hp.y.mul hq.y le_rfl (by omega)
  have hzz := hp.z.mul hq.z le_rfl (by omega)
  exact ((hww.add hxx (lt_add_one _) (lt_add_one _) (by omega)).add hyy (lt_add_one _) (by omega)
    (by omega)).add hzz (by omega) (by omega) hn

include hlibrary in
/-- The norm is not small when a component is not. -/
theorem away_norm {q : Quat (Double library)} {w x y z : ℚ} {k : ℕ} (hq : QuatMag q a)
    (hvalue : QuatValue q w x y z) (hu : ∃ u ∈ [w, x, y, z], 1 / 2 ^ k ≤ |u|)
    (ha : a + a + 3 ≤ 1023) (hk : 2 * k ≤ 1074) : Away q.norm (k + 1) := by
  obtain ⟨d, hd, -⟩ := hq.dot hq le_rfl ha
  obtain ⟨w', x', y', z', hvalue', hle⟩ := exists_of_dot_self hd
  obtain rfl : w = w' := Value.finite.inj (hvalue.w.symm.trans hvalue'.w)
  obtain rfl : x = x' := Value.finite.inj (hvalue.x.symm.trans hvalue'.x)
  obtain rfl : y = y' := Value.finite.inj (hvalue.y.symm.trans hvalue'.y)
  obtain rfl : z = z' := Value.finite.inj (hvalue.z.symm.trans hvalue'.z)
  obtain ⟨u, hu, huk⟩ := hu
  refine away_sqrt hlibrary hd (le_trans ?_ (hle u hu))
  rw [← roundTo_of_representable (representable_inv hk)]
  refine roundTo_mono ?_
  calc (1 : ℚ) / 2 ^ (2 * k) = 1 / 2 ^ k * (1 / 2 ^ k) := by rw [two_mul, pow_add]; ring
    _ ≤ |u| * |u| := mul_le_mul huk huk (by positivity) (abs_nonneg u)
    _ = u * u := abs_mul_abs_self u

/-- The components of a quaternion that is not long. -/
theorem abs_le_of_norm {w x y z : ℚ} (h : w * w + x * x + y * y + z * z ≤ 3 / 2) :
    ∀ u ∈ [w, x, y, z], |u| ≤ 3 / 2 := by
  have hw := mul_self_nonneg w
  have hx := mul_self_nonneg x
  have hy := mul_self_nonneg y
  have hz := mul_self_nonneg z
  intro u hu
  simp only [List.mem_cons, List.not_mem_nil, or_false] at hu
  refine abs_le_of_mul_self_le (by norm_num) ?_
  rcases hu with rfl | rfl | rfl | rfl <;> linarith

include hlibrary in
/-- The root of a number near one. -/
theorem sqrt_near_one {d : ℚ} (hd : x.value = .finite d) (hlow : 49 / 50 ≤ d)
    (hhigh : d ≤ 51 / 50) : ∃ n, (sqrt x).value = .finite n ∧ 9 / 10 ≤ n ∧ n ≤ 11 / 10 := by
  obtain ⟨n, hn, herror⟩ := hlibrary.sqrt x d hd (by linarith)
  have hlow' : (49 / 50 : ℝ) ≤ d := by
    exact_mod_cast (by simpa using (Rat.cast_le (K := ℝ)).mpr hlow)
  have hhigh' : (d : ℝ) ≤ 51 / 50 := by
    exact_mod_cast (by simpa using (Rat.cast_le (K := ℝ)).mpr hhigh)
  have hroot : 19 / 20 ≤ Real.sqrt d := Real.le_sqrt_of_sq_le (by linarith)
  have hroot' : Real.sqrt d ≤ 21 / 20 := Real.sqrt_le_iff.mpr ⟨by norm_num, by linarith⟩
  have hsmall := mul_le_mul_of_nonneg_left libraryError_le (Real.sqrt_nonneg (d : ℝ))
  obtain ⟨hnlow, hnhigh⟩ := abs_le.mp herror
  refine ⟨n, hn, (Rat.cast_le (K := ℝ)).mp ?_, (Rat.cast_le (K := ℝ)).mp ?_⟩
  · push_cast
    linarith
  · push_cast
    linarith

include hlibrary in
theorem NearUnit.exists_norm {q : Quat (Double library)} (hq : NearUnit q) :
    ∃ n, q.norm.value = .finite n ∧ 9 / 10 ≤ n ∧ n ≤ 11 / 10 := by
  obtain ⟨w, x, y, z, hvalue, hunit⟩ := hq
  obtain ⟨hlow, hhigh⟩ := abs_le.mp hunit
  have hbound := abs_le_of_norm (w := w) (x := x) (y := y) (z := z) (by linarith)
  obtain ⟨d, hd, herror⟩ := rounded_dot hvalue hvalue hbound hbound
  have hsmall : 7 * roundingError ≤ 1 / 100 := by norm_num [roundingError]
  obtain ⟨hdlow, hdhigh⟩ := abs_le.mp (herror.trans hsmall)
  exact sqrt_near_one hlibrary hd (by linarith) (by linarith)

include hlibrary in
/-- A nearly unit quaternion divided by its norm. -/
theorem NearUnit.exists_divide_norm {q : Quat (Double library)} (hq : NearUnit q) :
    ∃ w x y z, QuatValue (q.divide q.norm) w x y z ∧ 1 / 2 ≤ w * w + x * x + y * y + z * z ∧
      w * w + x * x + y * y + z * z ≤ 3 / 2 := by
  obtain ⟨n, hn, hnlow, hnhigh⟩ := hq.exists_norm hlibrary
  obtain ⟨w, x, y, z, hvalue, hunit⟩ := hq
  obtain ⟨hlow, hhigh⟩ := abs_le.mp hunit
  have hbound := abs_le_of_norm (w := w) (x := x) (y := y) (z := z) (by linarith)
  have hpos : 0 < n := by linarith
  have hcomponent {c : Double library} {u : ℚ} (hc : c.value = .finite u) (hu : |u| ≤ 3 / 2) :
      ∃ r, (c / q.norm).value = .finite r ∧ |r - u / n| ≤ roundingError := by
    refine rounded_div hc hn hpos.ne' ?_
    rw [abs_div, abs_of_pos hpos, div_lt_iff₀ hpos]
    linarith
  obtain ⟨w', hw, hw'⟩ := hcomponent hvalue.w (hbound w (by simp))
  obtain ⟨x', hx, hx'⟩ := hcomponent hvalue.x (hbound x (by simp))
  obtain ⟨y', hy, hy'⟩ := hcomponent hvalue.y (hbound y (by simp))
  obtain ⟨z', hz, hz'⟩ := hcomponent hvalue.z (hbound z (by simp))
  -- the exact quotient has a norm near one, and the roundings move it a little
  have hexact : w / n * (w / n) + x / n * (x / n) + y / n * (y / n) + z / n * (z / n) =
      (w * w + x * x + y * y + z * z) / (n * n) := by
    field_simp
  have hsquare : 4 / 5 ≤ n * n ∧ n * n ≤ 5 / 4 := ⟨by nlinarith, by nlinarith⟩
  have hratio : 3 / 4 ≤ (w * w + x * x + y * y + z * z) / (n * n) ∧
      (w * w + x * x + y * y + z * z) / (n * n) ≤ 4 / 3 := by
    have hnn : 0 < n * n := mul_pos hpos hpos
    exact ⟨(le_div_iff₀ hnn).mpr (by linarith), (div_le_iff₀ hnn).mpr (by linarith)⟩
  have hclose := abs_norm_sub_le hw' hx' hy' hz' (by norm_num [roundingError])
    (by rw [hexact]; linarith)
  rw [hexact] at hclose
  have hsmall' : 20 * roundingError ≤ 1 / 8 := by norm_num [roundingError]
  obtain ⟨hclow, hchigh⟩ := abs_le.mp (hclose.trans hsmall')
  exact ⟨w', x', y', z', ⟨hw, hx, hy, hz⟩, by linarith, by linarith⟩

/-! ### Combinations -/

/-- A combination of two long quaternions that are not opposite has a large component. -/
theorem exists_large_component {w x y z w' x' y' z' s t m δ : ℚ}
    (hp : 1 / 2 ≤ w * w + x * x + y * y + z * z)
    (hq : 1 / 2 ≤ w' * w' + x' * x' + y' * y' + z' * z')
    (hdot : -δ ≤ s * t * (w * w' + x * x' + y * y' + z * z'))
    (h : 4 * (m * m) + 2 * δ < (s * s + t * t) / 2) :
    m ≤ |s * w + t * w'| ∨ m ≤ |s * x + t * x'| ∨ m ≤ |s * y + t * y'| ∨ m ≤ |s * z + t * z'| := by
  -- otherwise the square norm of the combination is below four small squares
  by_contra hall
  simp only [not_or, not_le] at hall
  have hsquare {u : ℚ} (hu : |u| < m) : u * u ≤ m * m := by
    rw [← abs_mul_abs_self u]
    exact mul_self_le_mul_self (abs_nonneg u) hu.le
  have hexpand : (s * w + t * w') * (s * w + t * w') + (s * x + t * x') * (s * x + t * x') +
      (s * y + t * y') * (s * y + t * y') + (s * z + t * z') * (s * z + t * z') =
      s * s * (w * w + x * x + y * y + z * z) + t * t * (w' * w' + x' * x' + y' * y' + z' * z') +
        2 * (s * t * (w * w' + x * x' + y * y' + z * z')) := by ring
  have hs := mul_le_mul_of_nonneg_left hp (mul_self_nonneg s)
  have ht := mul_le_mul_of_nonneg_left hq (mul_self_nonneg t)
  linarith [hsquare hall.1, hsquare hall.2.1, hsquare hall.2.2.1, hsquare hall.2.2.2]

end Double

end Ieee
