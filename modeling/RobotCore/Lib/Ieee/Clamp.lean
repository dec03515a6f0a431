import RobotCore.Lib.Clip
import RobotCore.Lib.Ieee.Numeric

/-!
# Clamped sums

`std::clamp` at a finite limit hides an overflow.  `IsRounded z q` says that `z` is the rational `q`
rounded, an overflow included; clamping then clips the rounded rational.  A sum with one infinite
operand is such a `z` too, once the infinity is replaced by a number that outweighs every finite
one (`saturated`).
-/

namespace Ieee

namespace Number

variable {f : Format}

/-- The rational in place of a number: an infinity is twice as far as the format reaches. -/
def saturated (x : Number f) : ℚ :=
  match x.value with
  | .nan => 0
  | .infinity negative => if negative then -2 ^ (f.maxExponent + 1) else 2 ^ (f.maxExponent + 1)
  | .finite q => q

theorem saturated_of_finite {x : Number f} {q : ℚ} (h : x.value = .finite q) : x.saturated = q := by
  unfold saturated
  rw [h]

theorem saturated_of_above {x : Number f} (h : x.value = .infinity false) :
    x.saturated = 2 ^ (f.maxExponent + 1) := by
  unfold saturated
  rw [h]
  rfl

theorem saturated_of_below {x : Number f} (h : x.value = .infinity true) :
    x.saturated = -2 ^ (f.maxExponent + 1) := by
  unfold saturated
  rw [h]
  rfl

/-! ### Negation -/

theorem value_neg_nan {x : Number f} (h : x.value = .nan) : (-x).value = .nan := by
  obtain ⟨v, hv⟩ := x
  obtain rfl : v = .nan := h
  rfl

theorem value_neg_infinity {x : Number f} {negative : Bool} (h : x.value = .infinity negative) :
    (-x).value = .infinity !negative := by
  obtain ⟨v, hv⟩ := x
  obtain rfl : v = .infinity negative := h
  rfl

@[simp] theorem saturated_neg (x : Number f) : (-x).saturated = -x.saturated := by
  cases hx : x.value with
  | nan =>
    unfold saturated
    rw [hx, value_neg_nan hx]
    exact neg_zero.symm
  | infinity negative =>
    cases negative with
    | false => rw [saturated_of_above hx, saturated_of_below (value_neg_infinity hx)]
    | true => rw [saturated_of_below hx, saturated_of_above (value_neg_infinity hx), neg_neg]
  | finite q => rw [saturated_of_finite hx, saturated_of_finite (value_neg hx)]

@[simp] theorem isNan_neg (x : Number f) : (-x).isNan = x.isNan := by
  unfold isNan
  cases hx : x.value with
  | nan => rw [value_neg_nan hx]
  | infinity negative => rw [value_neg_infinity hx]
  | finite q => rw [value_neg hx]

@[simp] theorem isFinite_neg (x : Number f) : (-x).isFinite = x.isFinite := by
  unfold isFinite
  cases hx : x.value with
  | nan => rw [value_neg_nan hx]
  | infinity negative => rw [value_neg_infinity hx]
  | finite q => rw [value_neg hx]

/-! ### Numbers in range -/

/-- A finite number is one the format reaches. -/
def InRange (x : Number f) : Prop := ∀ q, x.value = .finite q → |q| < 2 ^ f.maxExponent

theorem inRange_of_not_finite {x : Number f} (h : x.isFinite = false) : InRange x := by
  intro q hq
  rw [isFinite_of_value hq] at h
  cases h

theorem InRange.neg {x : Number f} (h : InRange x) : InRange (-x) := by
  cases hx : x.value with
  | finite p =>
    intro q hq
    rw [value_neg hx] at hq
    obtain rfl := Value.finite.inj hq
    rw [abs_neg]
    exact h p hx
  | _ => exact inRange_of_not_finite (by rw [isFinite_neg, isFinite, hx])

theorem inRange_ofRat (q : ℚ) : InRange (ofRat f q) := by
  intro p hp
  unfold ofRat at hp
  split_ifs at hp with hover
  · cases hp
  · obtain rfl := Value.finite.inj hp
    exact not_le.mp hover

/-- Products are rounded, so that they are in range. -/
theorem inRange_mul (x y : Number f) : InRange (x * y) := by
  obtain ⟨v, hv⟩ := x
  obtain ⟨w, hw⟩ := y
  cases v with
  | nan => exact inRange_of_not_finite rfl
  | infinity s =>
    cases w with
    | finite q =>
      change InRange (if q = 0 then nan else infinity (s != decide (q < 0)))
      split_ifs <;> exact inRange_of_not_finite rfl
    | _ => exact inRange_of_not_finite rfl
  | finite q =>
    cases w with
    | nan => exact inRange_of_not_finite rfl
    | infinity t =>
      change InRange (if q = 0 then nan else infinity (decide (q < 0) != t))
      split_ifs <;> exact inRange_of_not_finite rfl
    | finite b => exact inRange_ofRat _

/-! ### Rounding with overflow -/

/-- `z` is the rational `q` rounded to the format, or the infinity on its side. -/
inductive IsRounded (z : Number f) (q : ℚ) : Prop where
  | finite (h : z.value = .finite (roundTo f q))
  | above (h : z.value = .infinity false) (hq : 2 ^ f.maxExponent ≤ roundTo f q)
  | below (h : z.value = .infinity true) (hq : roundTo f q ≤ -2 ^ f.maxExponent)

theorem value_ofRat_of_overflow {q : ℚ} (h : 2 ^ f.maxExponent ≤ |roundTo f q|) :
    (ofRat f q).value = .infinity (decide (q < 0)) := by
  unfold ofRat
  rw [if_pos h]
  rfl

theorem isRounded_ofRat (q : ℚ) : IsRounded (ofRat f q) q := by
  by_cases hover : 2 ^ f.maxExponent ≤ |roundTo f q|
  · have hvalue := value_ofRat_of_overflow hover
    rcases lt_or_ge q 0 with hq | hq
    · have hnonpos : roundTo f q ≤ 0 := by
        have := roundTo_mono (f := f) hq.le
        rwa [roundTo_zero] at this
      rw [decide_eq_true hq] at hvalue
      rw [abs_of_nonpos hnonpos] at hover
      exact .below hvalue (le_neg_of_le_neg hover)
    · rw [decide_eq_false hq.not_gt] at hvalue
      rw [abs_of_nonneg (roundTo_nonneg hq)] at hover
      exact .above hvalue hover
  · exact .finite (value_ofRat (not_le.mp hover))

theorem representable_two_zpow (h : f.minExponent ≤ f.maxExponent) :
    Representable f (2 ^ f.maxExponent) := by
  refine ⟨1, f.maxExponent, by rw [Int.cast_one, one_mul], ?_, h⟩
  rw [abs_one]
  exact one_lt_pow₀ (by norm_num) f.precision_pos.ne'

/-- An infinity and a finite number together still overflow. -/
theorem le_roundTo_add (hformat : f.minExponent ≤ f.maxExponent) {q : ℚ}
    (hq : |q| < 2 ^ f.maxExponent) :
    2 ^ f.maxExponent ≤ roundTo f (2 ^ (f.maxExponent + 1) + q) := by
  have htwice : (2 : ℚ) ^ (f.maxExponent + 1) = 2 ^ f.maxExponent + 2 ^ f.maxExponent := by
    rw [zpow_add_one₀ (by norm_num), mul_two]
  have hle : 2 ^ f.maxExponent ≤ 2 ^ (f.maxExponent + 1) + q := by
    rw [htwice]
    linarith [(abs_lt.mp hq).1]
  have := roundTo_mono (f := f) hle
  rwa [roundTo_of_representable (representable_two_zpow hformat)] at this

theorem infinity_add {x y : Number f} {negative : Bool} {q : ℚ} (hx : x.value = .infinity negative)
    (hy : y.value = .finite q) : x + y = infinity negative := by
  obtain ⟨v, hv⟩ := x
  obtain ⟨w, hw⟩ := y
  obtain rfl : v = .infinity negative := hx
  obtain rfl : w = .finite q := hy
  rfl

protected theorem add_comm (x y : Number f) : x + y = y + x := by
  obtain ⟨v, hv⟩ := x
  obtain ⟨w, hw⟩ := y
  cases v with
  | nan => cases w <;> rfl
  | infinity s =>
    cases w with
    | infinity t => cases s <;> cases t <;> rfl
    | _ => rfl
  | finite a =>
    cases w with
    | finite b => exact congrArg (ofRat f) (add_comm a b)
    | _ => rfl

/-- The sum of two numbers, one of them finite. -/
theorem isRounded_add (hformat : f.minExponent ≤ f.maxExponent) {x y : Number f}
    (hx : x.isNan = false) (hy : InRange y) (hfinite : y.isFinite = true) :
    IsRounded (x + y) (x.saturated + y.saturated) := by
  obtain ⟨q, hq⟩ := isFinite_iff.mp hfinite
  rw [saturated_of_finite hq]
  cases hvalue : x.value with
  | nan => rw [isNan_iff.mpr hvalue] at hx; cases hx
  | infinity negative =>
    rw [infinity_add hvalue hq]
    cases negative with
    | false =>
      rw [saturated_of_above hvalue]
      exact .above rfl (le_roundTo_add hformat (hy q hq))
    | true =>
      rw [saturated_of_below hvalue]
      refine .below rfl ?_
      have := le_roundTo_add hformat (q := -q) (by rw [abs_neg]; exact hy q hq)
      rw [← sub_eq_add_neg] at this
      rw [neg_add_eq_sub, ← neg_sub, roundTo_neg]
      exact neg_le_neg this
  | finite p =>
    rw [saturated_of_finite hvalue, add_eq_ofRat hvalue hq]
    exact isRounded_ofRat _

/-- Clamping hides the overflow. -/
theorem IsRounded.value_clamp {z limit : Number f} {q c : ℚ} (hz : IsRounded z q)
    (hlimit : limit.value = .finite c) (hc : 0 ≤ c) (hmax : c ≤ 2 ^ f.maxExponent) :
    (z.clamp (-limit) limit).value = .finite (Clip.clip (roundTo f q) (-c) c) := by
  have hneg := value_neg hlimit
  unfold clamp
  cases hz with
  | finite hvalue =>
    by_cases hlo : roundTo f q < -c
    · rw [if_pos ((lt_iff_of_finite hvalue hneg).mpr hlo),
        Clip.clip_eq_lower (neg_le_self hc) hlo.le, hneg]
    rw [if_neg fun h => hlo ((lt_iff_of_finite hvalue hneg).mp h)]
    by_cases hhi : c < roundTo f q
    · rw [if_pos ((lt_iff_of_finite hlimit hvalue).mpr hhi),
        Clip.clip_eq_upper (neg_le_self hc) hhi.le, hlimit]
    · rw [if_neg fun h => hhi ((lt_iff_of_finite hlimit hvalue).mp h), hvalue,
        Clip.clip_eq_self (not_lt.mp hlo) (not_lt.mp hhi)]
  | above hvalue hq =>
    have hlo : z.lt (-limit) = false := by rw [lt, hvalue, hneg]
    have hhi : limit.lt z = true := by rw [lt, hvalue, hlimit]; rfl
    rw [hlo, if_neg (by decide), hhi, if_pos rfl, hlimit,
      Clip.clip_eq_upper (neg_le_self hc) (hmax.trans hq)]
  | below hvalue hq =>
    have hlo : z.lt (-limit) = true := by rw [lt, hvalue, hneg]
    rw [hlo, if_pos rfl, hneg,
      Clip.clip_eq_lower (neg_le_self hc) (hq.trans (neg_le_neg hmax))]

/-! ### The sign of a product -/

theorem IsRounded.pos_of_saturated {z : Number f} {q : ℚ} (hz : IsRounded z q)
    (h : 0 < z.saturated) : 0 < q := by
  by_contra hq
  have hnonpos : roundTo f q ≤ 0 := by
    have := roundTo_mono (f := f) (not_lt.mp hq)
    rwa [roundTo_zero] at this
  cases hz with
  | finite hvalue =>
    rw [saturated_of_finite hvalue] at h
    exact hnonpos.not_gt h
  | above hvalue hmax => exact (two_zpow_pos f.maxExponent).not_ge (hmax.trans hnonpos)
  | below hvalue =>
    rw [saturated_of_below hvalue] at h
    exact (two_zpow_pos _).not_gt (neg_pos.mp h)

theorem finite_mul_nan {x y : Number f} {q : ℚ} (hx : x.value = .finite q) (hy : y.value = .nan) :
    x * y = nan := by
  obtain ⟨v, hv⟩ := x
  obtain ⟨w, hw⟩ := y
  obtain rfl : v = .finite q := hx
  obtain rfl : w = .nan := hy
  rfl

theorem finite_mul_infinity {x y : Number f} {q : ℚ} {negative : Bool} (hx : x.value = .finite q)
    (hy : y.value = .infinity negative) :
    x * y = if q = 0 then nan else infinity (decide (q < 0) != negative) := by
  obtain ⟨v, hv⟩ := x
  obtain ⟨w, hw⟩ := y
  obtain rfl : v = .finite q := hx
  obtain rfl : w = .infinity negative := hy
  rfl

/-- A positive product with a number that is not negative has a positive factor. -/
theorem pos_of_saturated_mul {x y : Number f} {q : ℚ} (hx : x.value = .finite q) (hq : 0 ≤ q)
    (h : 0 < (x * y).saturated) : (0 : Number f).lt y = true := by
  cases hy : y.value with
  | nan =>
    rw [finite_mul_nan hx hy] at h
    exact absurd h (lt_irrefl 0)
  | infinity negative =>
    rw [finite_mul_infinity hx hy, decide_eq_false hq.not_gt] at h
    split_ifs at h
    · exact absurd h (lt_irrefl 0)
    · cases negative with
      | false => rw [lt, hy, value_zero]; rfl
      | true =>
        rw [saturated_of_below rfl] at h
        exact absurd (neg_pos.mp h) (two_zpow_pos _).not_gt
  | finite b =>
    rw [mul_eq_ofRat hx hy] at h
    have hpos := (isRounded_ofRat (q * b)).pos_of_saturated h
    rw [lt_iff_of_finite value_zero hy]
    exact lt_of_mul_lt_mul_left (by rwa [mul_zero]) hq

theorem ofRat_neg (q : ℚ) : ofRat f (-q) = -ofRat f q := by
  refine Number.ext ?_
  by_cases hover : 2 ^ f.maxExponent ≤ |roundTo f q|
  · have hne : q ≠ 0 := by
      rintro rfl
      rw [roundTo_zero, abs_zero] at hover
      exact (two_zpow_pos f.maxExponent).not_ge hover
    have hflip : decide (-q < 0) = !decide (q < 0) := by
      rw [← decide_not, decide_eq_decide, neg_lt_zero, not_lt, lt_iff_le_and_ne]
      exact ⟨And.left, fun h => ⟨h, hne.symm⟩⟩
    rw [value_neg_infinity (value_ofRat_of_overflow hover), ← hflip]
    exact value_ofRat_of_overflow (by rwa [roundTo_neg, abs_neg])
  · have hfits := not_le.mp hover
    rw [value_neg (value_ofRat hfits), ← roundTo_neg]
    exact value_ofRat (by rwa [roundTo_neg, abs_neg])

theorem finite_mul_neg {x y : Number f} {q : ℚ} (hx : x.value = .finite q) :
    x * -y = -(x * y) := by
  cases hy : y.value with
  | nan => rw [finite_mul_nan hx hy, finite_mul_nan hx (value_neg_nan hy)]; rfl
  | infinity negative =>
    rw [finite_mul_infinity hx hy, finite_mul_infinity hx (value_neg_infinity hy)]
    split_ifs
    · rfl
    · cases negative <;> cases decide (q < 0) <;> rfl
  | finite b =>
    rw [mul_eq_ofRat hx hy, mul_eq_ofRat hx (value_neg hy), mul_neg, ofRat_neg]

/-- And a negative one a negative factor. -/
theorem neg_of_saturated_mul {x y : Number f} {q : ℚ} (hx : x.value = .finite q) (hq : 0 ≤ q)
    (h : (x * y).saturated < 0) : y.lt 0 = true := by
  have hneg : 0 < (x * -y).saturated := by
    rw [finite_mul_neg hx, saturated_neg]
    exact neg_pos.mpr h
  have hlt := pos_of_saturated_mul hx hq hneg
  cases hy : y.value with
  | nan => rw [lt, value_neg_nan hy, value_zero] at hlt; cases hlt
  | infinity negative =>
    rw [lt, value_neg_infinity hy, value_zero] at hlt
    dsimp only at hlt
    rw [Bool.not_not] at hlt
    rw [lt, hy, value_zero]
    exact hlt
  | finite b =>
    rw [lt_iff_of_finite value_zero (value_neg hy)] at hlt
    rw [lt_iff_of_finite hy value_zero]
    exact neg_pos.mp hlt

end Number

end Ieee
