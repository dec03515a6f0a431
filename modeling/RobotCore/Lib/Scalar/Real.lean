import Mathlib.Analysis.SpecialFunctions.Complex.Arg
import Mathlib.Analysis.SpecialFunctions.Trigonometric.Inverse
import RobotCore.Lib.Scalar.Extended
import RobotCore.Lib.Numeral

/-!
# Real scalars

The real numbers as scalars, and the mathematical library of the exact scalars over them, with the
special values of floating-point libraries.
-/

/-- The real numbers with their functions. -/
@[reducible] noncomputable def realScalar : Scalar ℝ where
  toAdd := inferInstance
  toSub := inferInstance
  toMul := inferInstance
  toDiv := inferInstance
  toNeg := inferInstance
  ofRat q := q
  pi := Real.pi
  lt a b := decide (a < b)
  le a b := decide (a ≤ b)
  isFinite _ := true
  abs a := |a|
  mod a b := a - b * ⌊a / b⌋
  sqrt := Real.sqrt
  sin := Real.sin
  cos := Real.cos
  asin := Real.arcsin
  acos := Real.arccos
  atan2 y x := Complex.arg ⟨x, y⟩

section RealScalar

open Scalar

attribute [local instance] realScalar

theorem ofRat_real (q : ℚ) : (ofRat q : ℝ) = q := rfl

theorem pi_real : (Scalar.pi : ℝ) = Real.pi := rfl

theorem sin_real (a : ℝ) : Scalar.sin a = Real.sin a := rfl

theorem cos_real (a : ℝ) : Scalar.cos a = Real.cos a := rfl

theorem lt_real (a b : ℝ) : lt a b = decide (a < b) := rfl

theorem le_real (a b : ℝ) : le a b = decide (a ≤ b) := rfl

theorem isNan_real (a : ℝ) : isNan a = false := by
  rw [isNan, le_real, decide_eq_true le_rfl, Bool.not_true]

theorem maximum_real (a b : ℝ) : maximum a b = max a b := by
  rw [maximum, isNan_real, isNan_real, if_neg Bool.false_ne_true, Bool.false_or, lt_real]
  rcases lt_or_ge a b with hlt | hge
  · rw [if_pos (decide_eq_true hlt), max_eq_right hlt.le]
  · rw [if_neg (by simpa using hge), max_eq_left hge]

theorem minimum_real (a b : ℝ) : minimum a b = min a b := by
  rw [minimum, isNan_real, isNan_real, if_neg Bool.false_ne_true, Bool.false_or, lt_real]
  rcases lt_or_ge b a with hlt | hge
  · rw [if_pos (decide_eq_true hlt), min_eq_right hlt.le]
  · rw [if_neg (by simpa using hge), min_eq_left hge]

theorem clip_real (a lower upper : ℝ) : clip a lower upper = min (max a lower) upper := by
  rw [clip, maximum_real, minimum_real]

theorem pyMax_real (a b : ℝ) : pyMax a b = max a b := by
  rw [pyMax, lt_real]
  rcases lt_or_ge a b with hlt | hge
  · rw [if_pos (decide_eq_true hlt), max_eq_right hlt.le]
  · rw [if_neg (by simpa using hge), max_eq_left hge]

theorem pyMin_real (a b : ℝ) : pyMin a b = min a b := by
  rw [pyMin, lt_real]
  rcases lt_or_ge b a with hlt | hge
  · rw [if_pos (decide_eq_true hlt), min_eq_right hlt.le]
  · rw [if_neg (by simpa using hge), min_eq_left hge]

theorem pow_real (a : ℝ) (n : ℕ) : Scalar.pow a n = a ^ n := by
  induction n with
  | zero => rw [Scalar.pow, ofRat_real, Rat.cast_one, pow_zero]
  | succ n ih => rw [Scalar.pow, ih, pow_succ]

end RealScalar

namespace Extended

open Real

attribute [local instance] Numeral.atLeastTwo_two

noncomputable instance realLibrary : MathLibrary ℝ where
  pi := π
  sqrt
    | finite a => if a < 0 then nan else finite √a
    | infinity s => if s then nan else infinity false
    | nan => nan
  sin
    | finite a => finite (sin a)
    | _ => nan
  cos
    | finite a => finite (cos a)
    | _ => nan
  asin
    | finite a => if -1 ≤ a ∧ a ≤ 1 then finite (arcsin a) else nan
    | _ => nan
  acos
    | finite a => if -1 ≤ a ∧ a ≤ 1 then finite (arccos a) else nan
    | _ => nan
  atan2
    | finite y, finite x => finite (Complex.arg ⟨x, y⟩)
    | finite y, infinity s => finite (if s then if y < 0 then -π else π else 0)
    | infinity s, finite _ => finite (if s then -(π / 2) else π / 2)
    | infinity s, infinity t =>
      finite ((if s then -1 else 1) * if t then 3 * π / 4 else π / 4)
    | _, _ => nan
  sqrt_finite a ha := ⟨√a, if_neg (not_lt.mpr ha), sqrt_nonneg a, mul_self_sqrt ha⟩
  sqrt_of_not_isFinite x hx := by
    cases x with
    | nan => rfl
    | infinity s => cases s <;> rfl
    | finite a => cases hx
  sin_cos_finite a := ⟨sin a, cos a, rfl, rfl, by rw [← sq, ← sq, sin_sq_add_cos_sq]⟩
  asin_finite a hlow hhigh := ⟨arcsin a, if_pos ⟨hlow, hhigh⟩⟩
  atan2_finite a b := ⟨Complex.arg ⟨b, a⟩, rfl⟩

end Extended
