import Mathlib.Analysis.SpecialFunctions.Complex.Arg
import RobotCore.Lib.Ieee.Clamp
import RobotCore.Lib.Ieee.Error
import RobotCore.Lib.Numeral
import RobotCore.Lib.Scalar.Ieee

/-!
# Doubles

`Double library` are the doubles of a program that computes with the functions of a mathematical
library, and `MathLibrary.Accurate` is what is known of such a library: that its functions are those
of the reals up to a small error.
-/

namespace Ieee

/-! ### The library -/

section Error

attribute [local instance] Numeral.atLeastTwo_two

/-- A bound on the error of the functions of a library. -/
noncomputable def libraryError : ℝ := 1 / 2 ^ 50

end Error

/-- The functions are those of the reals up to a small error, with either sign of a zero; an
infinity or a nan has no root. -/
structure MathLibrary.Accurate (library : MathLibrary binary64) : Prop where
  pi : ∃ p : ℚ, library.pi.value = .finite p ∧ |(p : ℝ) - Real.pi| ≤ libraryError
  sqrt : ∀ (x : Binary64) (q : ℚ), x.value = .finite q → 0 ≤ q →
    ∃ r : ℚ, (library.sqrt x).value = .finite r ∧
      |(r : ℝ) - Real.sqrt q| ≤ Real.sqrt q * libraryError
  sqrt_of_not_isFinite : ∀ x : Binary64, x.isFinite = false → (library.sqrt x).isFinite = false
  sin : ∀ (x : Binary64) (q : ℚ), x.value = .finite q →
    ∃ r : ℚ, (library.sin x).value = .finite r ∧ |(r : ℝ) - Real.sin q| ≤ libraryError
  cos : ∀ (x : Binary64) (q : ℚ), x.value = .finite q →
    ∃ r : ℚ, (library.cos x).value = .finite r ∧ |(r : ℝ) - Real.cos q| ≤ libraryError
  asin : ∀ (x : Binary64) (q : ℚ), x.value = .finite q → |q| ≤ 1 →
    ∃ r : ℚ, (library.asin x).value = .finite r ∧ |(r : ℝ) - Real.arcsin q| ≤ libraryError
  acos : ∀ (x : Binary64) (q : ℚ), x.value = .finite q → |q| ≤ 1 →
    ∃ r : ℚ, (library.acos x).value = .finite r ∧ |(r : ℝ) - Real.arccos q| ≤ libraryError
  atan2 : ∀ (y x : Binary64) (p q : ℚ), y.value = .finite p → x.value = .finite q →
    ∃ r : ℚ, (library.atan2 y x).value = .finite r ∧
      (|(r : ℝ) - Complex.arg ⟨q, p⟩| ≤ libraryError ∨
        p = 0 ∧ |(r : ℝ) - -Complex.arg ⟨q, p⟩| ≤ libraryError)

/-- The doubles of a program that computes with the functions of a library. -/
def Double (_library : MathLibrary binary64) : Type := Binary64

namespace Double

open Scalar

variable {library : MathLibrary binary64}

instance : Scalar (Double library) := (scalar library : Scalar Binary64)

/-- What a double stands for. -/
def value (x : Double library) : Value := Number.value (f := binary64) x

variable {x y z : Double library} {p q : ℚ} {a b m n : ℕ}

/-! ### Finite values -/

theorem isFinite_iff : isFinite x = true ↔ ∃ q, x.value = .finite q :=
  Number.isFinite_iff (f := binary64)

theorem value_add (hx : x.value = .finite p) (hy : y.value = .finite q) :
    x + y = ofRat (p + q) :=
  Number.add_eq_ofRat (f := binary64) hx hy

theorem value_sub (hx : x.value = .finite p) (hy : y.value = .finite q) :
    x - y = ofRat (p - q) :=
  Number.sub_eq_ofRat (f := binary64) hx hy

theorem value_neg (hx : x.value = .finite q) : (-x).value = .finite (-q) :=
  Number.value_neg (f := binary64) hx

theorem value_abs (hx : x.value = .finite q) : (Scalar.abs x).value = .finite |q| :=
  Number.value_abs (f := binary64) hx

theorem value_mul (hx : x.value = .finite p) (hy : y.value = .finite q) :
    x * y = ofRat (p * q) :=
  Number.mul_eq_ofRat (f := binary64) hx hy

theorem value_div (hx : x.value = .finite p) (hy : y.value = .finite q) (hq : q ≠ 0) :
    x / y = ofRat (p / q) := by
  have hdivide : x / y = Number.divide (f := binary64) x y := rfl
  unfold value at hx hy
  rw [hdivide]
  unfold Number.divide
  rw [hx, hy]
  exact if_neg hq

theorem value_mod (hx : x.value = .finite p) (hy : y.value = .finite q) (hq : q ≠ 0) :
    mod x y = ofRat (p - q * ⌊p / q⌋) := by
  have hmod : mod x y = Number.mod (f := binary64) x y := rfl
  unfold value at hx hy
  rw [hmod]
  unfold Number.mod
  rw [hx, hy]
  exact if_neg hq

theorem isNan_iff : isNan x = true ↔ x.value = .nan := by
  have hle : isNan x = !Number.le (f := binary64) x x := rfl
  rw [hle]
  unfold Number.le Number.lt value
  cases Number.value (f := binary64) x with
  | nan => simp
  | infinity negative => cases negative <;> simp
  | finite q => simp

theorem isNan_of_value (h : x.value = .finite q) : isNan x = false := by
  rw [Bool.eq_false_iff, Ne, isNan_iff, h]
  exact nofun

theorem lt_eq (hx : x.value = .finite p) (hy : y.value = .finite q) :
    lt x y = decide (p < q) := by
  rw [Bool.eq_iff_iff, decide_eq_true_iff]
  exact Number.lt_iff_of_finite (f := binary64) hx hy

theorem le_eq (hx : x.value = .finite p) (hy : y.value = .finite q) :
    le x y = decide (p ≤ q) := by
  rw [Bool.eq_iff_iff, decide_eq_true_iff]
  exact Number.le_iff_of_finite (f := binary64) hx hy

/-- Numbers are ordered. -/
theorem le_of_lt_eq_false (hx : isNan x = false) (hy : isNan y = false) (h : lt x y = false) :
    Number.le (f := binary64) y x = true := by
  rw [Bool.eq_false_iff, Ne, isNan_iff] at hx hy
  have hlt : Number.lt (f := binary64) x y = false := h
  unfold Number.le
  unfold value at hx hy
  cases hvx : Number.value (f := binary64) x with
  | nan => exact absurd hvx hx
  | _ =>
    cases hvy : Number.value (f := binary64) y with
    | nan => exact absurd hvy hy
    | _ => simp [hlt]

/-! ### Choices -/

/-- What holds of two numbers holds of the greater one. -/
theorem pyMax_of {P : Double library → Prop} (hx : P x) (hy : P y) : P (pyMax x y) := by
  rw [pyMax]
  split_ifs
  · exact hy
  · exact hx

theorem pyMin_of {P : Double library → Prop} (hx : P x) (hy : P y) : P (pyMin x y) := by
  rw [pyMin]
  split_ifs
  · exact hy
  · exact hx

theorem clip_of {P : Double library → Prop} (hx : P x) (hy : P y) (hz : P z) :
    P (clip x y z) := by
  have hmaximum : P (maximum x y) := by
    rw [maximum]
    split_ifs
    · exact hx
    · exact hy
    · exact hx
  rw [clip, minimum]
  split_ifs
  · exact hmaximum
  · exact hz
  · exact hmaximum

theorem value_pyMax (hx : x.value = .finite p) (hy : y.value = .finite q) :
    (pyMax x y).value = .finite (max p q) := by
  rw [pyMax, lt_eq hx hy]
  rcases lt_or_ge p q with hlt | hge
  · rw [if_pos (decide_eq_true hlt), max_eq_right hlt.le, hy]
  · rw [if_neg (by simpa using hge), max_eq_left hge, hx]

theorem value_pyMin (hx : x.value = .finite p) (hy : y.value = .finite q) :
    (pyMin x y).value = .finite (min p q) := by
  rw [pyMin, lt_eq hy hx]
  rcases lt_or_ge q p with hlt | hge
  · rw [if_pos (decide_eq_true hlt), min_eq_right hlt.le, hy]
  · rw [if_neg (by simpa using hge), min_eq_left hge, hx]

/-- A number is clipped to one. -/
theorem value_clip {r : ℚ} (hx : x.value = .finite p) (hy : y.value = .finite q)
    (hz : z.value = .finite r) : (clip x y z).value = .finite (min (max p q) r) := by
  have hmaximum : maximum x y = pyMax x y := by
    rw [maximum, isNan_of_value hx, isNan_of_value hy, Bool.false_or, if_neg Bool.false_ne_true]
    rfl
  have hmax := value_pyMax hx hy
  rw [clip, hmaximum, minimum, isNan_of_value hmax, isNan_of_value hz, Bool.false_or,
    if_neg Bool.false_ne_true]
  exact value_pyMin hmax hz

/-- Everything but a nan is clipped into the interval. -/
theorem clip_mem (hx : isNan x = false) (hy : y.value = .finite p) (hz : z.value = .finite q)
    (hle : p ≤ q) : ∃ r, (clip x y z).value = .finite r ∧ p ≤ r ∧ r ≤ q := by
  have hmaximum : (maximum x y = x ∧ lt x y = false) ∨ maximum x y = y := by
    rw [maximum, hx, isNan_of_value hy, Bool.false_or, if_neg Bool.false_ne_true]
    cases lt x y with
    | true => exact Or.inr (if_pos rfl)
    | false => exact Or.inl ⟨if_neg Bool.false_ne_true, rfl⟩
  have hminimum : ∀ w : Double library, isNan w = false →
      minimum w z = if lt z w then z else w := by
    intro w hw
    rw [minimum, hw, isNan_of_value hz, Bool.false_or, if_neg Bool.false_ne_true]
  rcases hmaximum with ⟨hmaximum, hlow⟩ | hmaximum
  · rw [clip, hmaximum, hminimum x hx]
    cases hhigh : lt z x with
    | true =>
      rw [if_pos rfl]
      exact ⟨q, hz, hle, le_rfl⟩
    | false =>
      -- neither below nor above, so a number in between
      rw [if_neg Bool.false_ne_true]
      refine Number.value_of_le_of_le (f := binary64) hy hz ?_ ?_
      · exact le_of_lt_eq_false hx (isNan_of_value hy) hlow
      · exact le_of_lt_eq_false (isNan_of_value hz) hx hhigh
  · rw [clip, hmaximum, hminimum y (isNan_of_value hy), lt_eq hz hy,
      if_neg (by simpa using hle)]
    exact ⟨p, hy, le_rfl, hle⟩

/-! ### Nans -/

theorem isNan_add (h : isNan x = true ∨ isNan y = true) : isNan (x + y) = true := by
  rw [isNan_iff, isNan_iff] at h
  exact isNan_iff.mpr (Number.value_add_nan (f := binary64) h)

theorem isNan_mul (h : isNan x = true ∨ isNan y = true) : isNan (x * y) = true := by
  rw [isNan_iff, isNan_iff] at h
  exact isNan_iff.mpr (Number.value_mul_nan (f := binary64) h)

theorem isNan_neg (h : isNan x = true) : isNan (-x) = true := by
  rw [isNan_iff] at h ⊢
  exact Number.value_neg_nan (f := binary64) h

theorem isNan_clip (h : isNan x = true) : isNan (clip x y z) = true := by
  have hmaximum : maximum x y = x := by rw [maximum, h, if_pos rfl]
  rw [clip, hmaximum, minimum, h, if_pos rfl]
  exact h

/-- A nan is not finite. -/
theorem isFinite_of_isNan (h : isNan x = true) : isFinite x = false := by
  rw [isNan_iff] at h
  rw [Bool.eq_false_iff, Ne, isFinite_iff, h]
  rintro ⟨q, hq⟩
  cases hq

/-- Adding a finite number makes no nan. -/
theorem isNan_add_eq_false (hx : isNan x = false) (hy : isFinite y = true) :
    isNan (x + y) = false := by
  rw [Bool.eq_false_iff, Ne, isNan_iff] at hx ⊢
  exact Number.value_add_ne_nan (f := binary64) hx hy

theorem isNan_of_isFinite (h : isFinite x = true) : isNan x = false := by
  obtain ⟨q, hq⟩ := isFinite_iff.mp h
  exact isNan_of_value hq

/-- Nor does dividing by a number that is not zero. -/
theorem isNan_div_eq_false (hx : isNan x = false) (hy : y.value = .finite q) (hq : q ≠ 0) :
    isNan (x / y) = false := by
  rw [Bool.eq_false_iff, Ne, isNan_iff] at hx ⊢
  exact Number.value_divide_ne_nan (f := binary64) hx hy hq

end Double

end Ieee
