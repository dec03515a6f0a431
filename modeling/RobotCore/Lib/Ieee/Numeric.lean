import RobotCore.Lib.Ieee.Number

/-!
# Operations of `math` and NumPy

Division, `np.maximum`, `np.minimum`, `np.clip` and `math.isclose` on a `Number`.  A NaN goes
through the first four; `math.isclose` is false for it.
-/

namespace Ieee

namespace Number

variable {f : Format}

/-- `x / y`.  The sign of a zero is not kept, so a zero divisor gives a NaN. -/
def divide (x y : Number f) : Number f :=
  match x.value, y.value with
  | .nan, _ => nan
  | _, .nan => nan
  | .infinity _, .infinity _ => nan
  | .infinity s, .finite q => if q = 0 then nan else infinity (s != decide (q < 0))
  | .finite _, .infinity _ => 0
  | .finite a, .finite b => if b = 0 then nan else ofRat f (a / b)

def isNan (x : Number f) : Bool :=
  match x.value with
  | .nan => true
  | _ => false

/-- `np.maximum` -/
def maximum (x y : Number f) : Number f :=
  if x.isNan || y.isNan then nan else if x.lt y then y else x

/-- `np.minimum` -/
def minimum (x y : Number f) : Number f :=
  if x.isNan || y.isNan then nan else if y.lt x then y else x

/-- `np.clip(x, lo, hi)` -/
def clip (x lo hi : Number f) : Number f := (x.maximum lo).minimum hi

/-- `math.isclose(x, y, rel_tol=relTol, abs_tol=absTol)` -/
def isclose (x y relTol absTol : Number f) : Bool :=
  if !x.isFinite || !y.isFinite then decide (x = y) && !x.isNan
  else
    let difference := (y - x).abs
    difference.le (relTol * y).abs || difference.le (relTol * x).abs || difference.le absTol

/-! ### Clipping -/

theorem isNan_iff {x : Number f} : x.isNan = true ↔ x.value = .nan := by
  unfold isNan
  cases x.value <;> simp

theorem isNan_of_finite {x : Number f} {q : ℚ} (h : x.value = .finite q) : x.isNan = false := by
  unfold isNan
  rw [h]

theorem isFinite_of_value {x : Number f} {q : ℚ} (h : x.value = .finite q) : x.isFinite = true :=
  isFinite_iff.mpr ⟨q, h⟩

theorem le_iff_of_finite {x y : Number f} {a b : ℚ} (hx : x.value = .finite a)
    (hy : y.value = .finite b) : x.le y = true ↔ a ≤ b := by
  unfold le
  rw [hx, hy, Bool.not_eq_true', ← Bool.not_eq_true, lt_iff_of_finite hy hx, not_lt]

/-- What lies between two finite numbers is finite. -/
theorem value_of_le_of_le {x lo hi : Number f} {b c : ℚ} (hlo : lo.value = .finite b)
    (hhi : hi.value = .finite c) (hle : lo.le x = true) (hle' : x.le hi = true) :
    ∃ q, x.value = .finite q ∧ b ≤ q ∧ q ≤ c := by
  cases hx : x.value with
  | nan => simp [le, hlo, hx] at hle
  | infinity negative =>
    cases negative with
    | true => simp [le, lt, hlo, hx] at hle
    | false => simp [le, lt, hhi, hx] at hle'
  | finite q =>
    exact ⟨q, rfl, (le_iff_of_finite hlo hx).mp hle, (le_iff_of_finite hx hhi).mp hle'⟩

theorem value_abs {x : Number f} {q : ℚ} (h : x.value = .finite q) :
    x.abs.value = .finite |q| := by
  obtain ⟨value, hvalue⟩ := x
  obtain rfl : value = .finite q := h
  unfold abs
  dsimp only
  split_ifs with hneg
  · rw [abs_of_neg hneg]
  · rw [abs_of_nonneg (not_lt.mp hneg)]

theorem value_divide_ne_nan {x y : Number f} {q : ℚ} (hx : x.value ≠ .nan)
    (hy : y.value = .finite q) (hq : q ≠ 0) : (x.divide y).value ≠ .nan := by
  obtain ⟨v, hv⟩ := x
  unfold divide
  rw [hy]
  cases v with
  | nan => exact absurd rfl hx
  | infinity s =>
    dsimp only
    rw [if_neg hq]
    exact nofun
  | finite p =>
    dsimp only
    rw [if_neg hq]
    exact value_ofRat_ne_nan (p / q)

/-- A number whose absolute value is at most a finite one. -/
theorem value_of_abs_le {x y : Number f} {q : ℚ} (hy : y.value = .finite q)
    (h : x.abs.le y = true) : ∃ p, x.value = .finite p ∧ |p| ≤ q := by
  obtain ⟨value, hvalue⟩ := x
  cases value with
  | nan => cases h
  | infinity negative =>
    have hle : (infinity false : Number f).le y = true := h
    unfold le lt at hle
    rw [hy] at hle
    cases hle
  | finite p => exact ⟨p, rfl, (le_iff_of_finite (value_abs rfl) hy).mp h⟩

/-- The quotient of a bounded number by a number at least one is as bounded. -/
theorem AbsLe.divide {x y : Number f} {c q : ℚ} (hx : AbsLe x c) (hy : y.value = .finite q)
    (hq : 1 ≤ q) (hc : Representable f c) (hmax : c < 2 ^ f.maxExponent) :
    AbsLe (x.divide y) c := by
  obtain ⟨p, hp, hpc⟩ := hx
  have hdivide : x.divide y = Number.ofRat f (p / q) := by
    unfold Number.divide
    rw [hp, hy]
    exact if_neg (by linarith)
  rw [hdivide]
  refine AbsLe.ofRat hc hmax ?_
  rw [abs_div, abs_of_pos (by linarith : 0 < q)]
  exact (div_le_self (abs_nonneg p) hq).trans hpc

theorem value_maximum {x y : Number f} {a b : ℚ} (hx : x.value = .finite a)
    (hy : y.value = .finite b) : (x.maximum y).value = .finite (max a b) := by
  unfold maximum
  rw [isNan_of_finite hx, isNan_of_finite hy, if_neg (by decide)]
  by_cases hlt : a < b
  · rw [if_pos ((lt_iff_of_finite hx hy).mpr hlt), max_eq_right hlt.le, hy]
  · rw [if_neg fun h => hlt ((lt_iff_of_finite hx hy).mp h), max_eq_left (not_lt.mp hlt), hx]

theorem value_minimum {x y : Number f} {a b : ℚ} (hx : x.value = .finite a)
    (hy : y.value = .finite b) : (x.minimum y).value = .finite (min a b) := by
  unfold minimum
  rw [isNan_of_finite hx, isNan_of_finite hy, if_neg (by decide)]
  by_cases hlt : b < a
  · rw [if_pos ((lt_iff_of_finite hy hx).mpr hlt), min_eq_right hlt.le, hy]
  · rw [if_neg fun h => hlt ((lt_iff_of_finite hy hx).mp h), min_eq_left (not_lt.mp hlt), hx]

theorem value_clip {x lo hi : Number f} {a b c : ℚ} (hx : x.value = .finite a)
    (hlo : lo.value = .finite b) (hhi : hi.value = .finite c) :
    (x.clip lo hi).value = .finite (min (max a b) c) :=
  value_minimum (value_maximum hx hlo) hhi

/-- Everything but a NaN is clipped into the interval. -/
theorem clip_mem {x lo hi : Number f} {b c : ℚ} (hx : x.isNan = false)
    (hlo : lo.value = .finite b) (hhi : hi.value = .finite c) (hle : b ≤ c) :
    ∃ q, (x.clip lo hi).value = .finite q ∧ b ≤ q ∧ q ≤ c := by
  cases hvalue : x.value with
  | nan => simp [isNan_iff.mpr hvalue] at hx
  | infinity negative =>
    -- An infinity is replaced by the end point on its side.
    have hmax : x.maximum lo = if negative then lo else x := by
      unfold maximum
      rw [hx, isNan_of_finite hlo, if_neg (by decide)]
      unfold lt
      rw [hvalue, hlo]
    unfold clip
    rw [hmax]
    cases negative with
    | true =>
      simp only [if_true]
      exact ⟨_, value_minimum hlo hhi, le_min le_rfl hle, min_le_right _ _⟩
    | false =>
      have hmin : x.minimum hi = hi := by
        unfold minimum
        rw [hx, isNan_of_finite hhi, if_neg (by decide), if_pos]
        unfold lt
        rw [hvalue, hhi]
        rfl
      simp only [Bool.false_eq_true, if_false]
      rw [hmin]
      exact ⟨c, hhi, hle, le_rfl⟩
  | finite q =>
    exact ⟨_, value_clip hvalue hlo hhi, le_min (le_max_right _ _) hle, min_le_right _ _⟩

/-- Clipped to a symmetric interval, everything but a NaN is bounded. -/
theorem absLe_clip {x limit : Number f} {c : ℚ} (hx : x.isNan = false)
    (hlimit : limit.value = .finite c) (hc : 0 ≤ c) : AbsLe (x.clip (-limit) limit) c := by
  obtain ⟨q, hq, hlo, hhi⟩ := clip_mem hx (value_neg hlimit) hlimit (by linarith)
  exact ⟨q, hq, abs_le.mpr ⟨hlo, hhi⟩⟩

theorem clip_of_isNan {x lo hi : Number f} (h : x.isNan = true) : (x.clip lo hi).isNan = true := by
  unfold clip maximum
  rw [h, Bool.true_or, if_pos rfl]
  rfl

/-- A number within the interval is not changed. -/
theorem value_clip_of_absLe {x limit : Number f} {a c : ℚ} (hx : x.value = .finite a)
    (hlimit : limit.value = .finite c) (h : |a| ≤ c) :
    (x.clip (-limit) limit).value = .finite a := by
  obtain ⟨hlo, hhi⟩ := abs_le.mp h
  rw [value_clip hx (value_neg hlimit) hlimit, max_eq_left hlo, min_eq_left hhi]

end Number

end Ieee
