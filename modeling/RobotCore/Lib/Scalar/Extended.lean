import Mathlib.Algebra.Order.Floor.Ring
import Mathlib.Algebra.Order.Group.Abs
import Mathlib.Tactic.FieldSimp
import Mathlib.Tactic.Linarith
import Mathlib.Tactic.LinearCombination
import RobotCore.Lib.Scalar

/-!
# Exact scalars

`Extended K` has the numbers of an ordered field, the infinities and a nan.  Arithmetic is exact and
follows the floating-point rules for the rest, with one zero; the functions are those of a
`MathLibrary`, which says what they are at the numbers of the field.

What is finite goes through a computation without division by zero, and a quaternion is `IsUnit`
when it is finite with the square norm one.
-/

/-- The numbers of `K`, the infinities and a nan. -/
inductive Extended (K : Type) where
  | nan
  | infinity (negative : Bool)
  | finite (a : K)

namespace Extended

variable {K : Type} [Field K] [LinearOrder K]

protected def add : Extended K → Extended K → Extended K
  | nan, _ => nan
  | _, nan => nan
  | infinity s, infinity t => if s = t then infinity s else nan
  | infinity s, finite _ => infinity s
  | finite _, infinity t => infinity t
  | finite a, finite b => finite (a + b)

protected def neg : Extended K → Extended K
  | nan => nan
  | infinity s => infinity !s
  | finite a => finite (-a)

protected def mul : Extended K → Extended K → Extended K
  | nan, _ => nan
  | _, nan => nan
  | infinity s, infinity t => infinity (s != t)
  | infinity s, finite a => if a = 0 then nan else infinity (s != decide (a < 0))
  | finite a, infinity t => if a = 0 then nan else infinity (decide (a < 0) != t)
  | finite a, finite b => finite (a * b)

protected def div : Extended K → Extended K → Extended K
  | nan, _ => nan
  | _, nan => nan
  | infinity _, infinity _ => nan
  | infinity s, finite a => infinity (s != decide (a < 0))
  | finite _, infinity _ => finite 0
  | finite a, finite b =>
    if b = 0 then if a = 0 then nan else infinity (decide (a < 0)) else finite (a / b)

protected def lt : Extended K → Extended K → Bool
  | finite a, finite b => decide (a < b)
  | infinity s, finite _ => s
  | finite _, infinity t => !t
  | infinity s, infinity t => s && !t
  | _, _ => false

protected def le : Extended K → Extended K → Bool
  | nan, _ => false
  | _, nan => false
  | x, y => !Extended.lt y x

protected def isFinite : Extended K → Bool
  | finite _ => true
  | _ => false

protected def abs [IsStrictOrderedRing K] : Extended K → Extended K
  | nan => nan
  | infinity _ => infinity false
  | finite a => finite |a|

variable [IsStrictOrderedRing K] [FloorRing K]

/-- `x % y` of Python -/
protected def mod : Extended K → Extended K → Extended K
  | finite a, finite b => if b = 0 then nan else finite (a - b * ⌊a / b⌋)
  | finite a, infinity t => if a = 0 ∨ decide (a < 0) = t then finite a else infinity t
  | _, _ => nan

end Extended

open Extended in
/-- What a mathematical library computes, with what is finite of it. -/
class MathLibrary (K : Type) [Field K] [LinearOrder K] where
  pi : K
  sqrt : Extended K → Extended K
  sin : Extended K → Extended K
  cos : Extended K → Extended K
  asin : Extended K → Extended K
  acos : Extended K → Extended K
  atan2 : Extended K → Extended K → Extended K
  sqrt_finite : ∀ a, 0 ≤ a → ∃ b, sqrt (finite a) = finite b ∧ 0 ≤ b ∧ b * b = a
  sqrt_of_not_isFinite : ∀ x, x.isFinite = false → (sqrt x).isFinite = false
  sin_cos_finite : ∀ a, ∃ s c, sin (finite a) = finite s ∧ cos (finite a) = finite c ∧
    s * s + c * c = 1
  asin_finite : ∀ a, -1 ≤ a → a ≤ 1 → ∃ b, asin (finite a) = finite b
  atan2_finite : ∀ a b, ∃ c, atan2 (finite a) (finite b) = finite c

namespace Extended

open Scalar

variable {K : Type} [Field K] [LinearOrder K] [IsStrictOrderedRing K] [FloorRing K]
  [MathLibrary K]

instance : Scalar (Extended K) where
  add := Extended.add
  sub x y := x.add y.neg
  mul := Extended.mul
  div := Extended.div
  neg := Extended.neg
  ofRat q := finite q
  lt := Extended.lt
  le := Extended.le
  isFinite := Extended.isFinite
  abs := Extended.abs
  mod := Extended.mod
  pi := finite (MathLibrary.pi)
  sqrt := MathLibrary.sqrt
  sin := MathLibrary.sin
  cos := MathLibrary.cos
  asin := MathLibrary.asin
  acos := MathLibrary.acos
  atan2 := MathLibrary.atan2

/-! ### Finite scalars -/

variable {a b : K} {x y : Extended K}

@[simp] theorem isFinite_finite : isFinite (finite a) = true := rfl

@[simp] theorem ofRat_eq (q : ℚ) : (ofRat q : Extended K) = finite (q : K) := rfl

@[simp] theorem finite_add : finite a + finite b = finite (a + b) := rfl

@[simp] theorem finite_mul : finite a * finite b = finite (a * b) := rfl

@[simp] theorem finite_neg : -finite a = finite (-a) := rfl

@[simp] theorem finite_sub : finite a - finite b = finite (a - b) :=
  congrArg finite (sub_eq_add_neg a b).symm

theorem finite_div (hb : b ≠ 0) : finite a / finite b = finite (a / b) := if_neg hb

@[simp] theorem lt_finite : lt (finite a) (finite b) = decide (a < b) := rfl

theorem isFinite_iff : isFinite x = true ↔ ∃ a, x = finite a := by
  cases x with
  | nan => exact ⟨fun h => (Bool.false_ne_true h).elim, fun ⟨_, h⟩ => nomatch h⟩
  | infinity s => exact ⟨fun h => (Bool.false_ne_true h).elim, fun ⟨_, h⟩ => nomatch h⟩
  | finite a => exact ⟨fun _ => ⟨a, rfl⟩, fun _ => rfl⟩

/-- A sum is finite only when its parts are. -/
theorem isFinite_add : isFinite (x + y) = (isFinite x && isFinite y) := by
  cases x <;> cases y <;> try rfl
  case infinity.infinity s t =>
    change Extended.isFinite (if s = t then infinity s else nan) = false
    split_ifs <;> rfl

/-- So is a square. -/
theorem isFinite_mul_self : isFinite (x * x) = isFinite x := by
  cases x <;> rfl

theorem isFinite_neg : isFinite (-x) = isFinite x := by
  cases x <;> rfl

theorem isFinite_sub : isFinite (x - y) = (isFinite x && isFinite y) := by
  change isFinite (x + -y) = _
  rw [isFinite_add, isFinite_neg]

theorem isFinite_mul (hx : isFinite x = true) (hy : isFinite y = true) :
    isFinite (x * y) = true := by
  obtain ⟨a, rfl⟩ := isFinite_iff.mp hx
  obtain ⟨b, rfl⟩ := isFinite_iff.mp hy
  rfl

theorem isFinite_div {q : ℚ} (hq : q ≠ 0) : isFinite (x / ofRat q) = isFinite x := by
  cases x with
  | nan => rfl
  | infinity s => rfl
  | finite a =>
    rw [ofRat_eq, finite_div (Rat.cast_ne_zero.mpr hq)]
    rfl

protected theorem mul_comm (x y : Extended K) : x * y = y * x := by
  change x.mul y = y.mul x
  cases x <;> cases y <;> simp only [Extended.mul, Bool.xor_comm, mul_comm]

theorem isNan_finite (a : K) : isNan (finite a) = false := by
  change (!(!decide (a < a))) = false
  rw [decide_eq_false (lt_irrefl a)]
  rfl

theorem maximum_finite (a b : K) : maximum (finite a) (finite b) = finite (max a b) := by
  rw [maximum, isNan_finite, isNan_finite, if_neg Bool.false_ne_true, Bool.false_or, lt_finite]
  rcases lt_or_ge a b with hlt | hge
  · rw [if_pos (decide_eq_true hlt), max_eq_right hlt.le]
  · rw [if_neg (by simpa using hge), max_eq_left hge]

theorem minimum_finite (a b : K) : minimum (finite a) (finite b) = finite (min a b) := by
  rw [minimum, isNan_finite, isNan_finite, if_neg Bool.false_ne_true, Bool.false_or, lt_finite]
  rcases lt_or_ge b a with hlt | hge
  · rw [if_pos (decide_eq_true hlt), min_eq_right hlt.le]
  · rw [if_neg (by simpa using hge), min_eq_left hge]

@[simp] theorem clip_finite (a lower upper : K) :
    clip (finite a) (finite lower) (finite upper) = finite (min (max a lower) upper) := by
  rw [clip, maximum_finite, minimum_finite]

theorem sin_cos_finite (a : K) : ∃ s c, sin (finite a) = finite s ∧ cos (finite a) = finite c ∧
    s * s + c * c = 1 :=
  MathLibrary.sin_cos_finite a

theorem isFinite_atan2 (hx : isFinite x = true) (hy : isFinite y = true) :
    isFinite (atan2 x y) = true := by
  obtain ⟨a, rfl⟩ := isFinite_iff.mp hx
  obtain ⟨b, rfl⟩ := isFinite_iff.mp hy
  exact isFinite_iff.mpr (MathLibrary.atan2_finite a b)

/-- The arcsine of a clipped number. -/
theorem isFinite_asin_clip (hx : isFinite x = true) :
    isFinite (asin (clip x (ofRat (-1)) (ofRat 1))) = true := by
  obtain ⟨a, rfl⟩ := isFinite_iff.mp hx
  rw [ofRat_eq, ofRat_eq, clip_finite]
  refine isFinite_iff.mpr (MathLibrary.asin_finite _ (le_min ?_ ?_) ?_)
  · exact le_max_of_le_right (by simp)
  · simp
  · exact (min_le_right _ _).trans (by simp)

/-! ### Vectors and quaternions -/

theorem allFinite_iff {v : Vec (Extended K)} :
    v.allFinite = true ↔ isFinite v.x = true ∧ isFinite v.y = true ∧ isFinite v.z = true := by
  rw [Vec.allFinite, Vec.all, Bool.and_eq_true, Bool.and_eq_true, and_assoc]

theorem allFinite_add {u v : Vec (Extended K)} (hu : u.allFinite = true)
    (hv : v.allFinite = true) : (u + v).allFinite = true := by
  rw [allFinite_iff] at hu hv ⊢
  obtain ⟨hux, huy, huz⟩ := hu
  obtain ⟨hvx, hvy, hvz⟩ := hv
  refine ⟨?_, ?_, ?_⟩ <;> exact isFinite_add.trans (by simp only [*, Bool.and_self])

theorem allFinite_sub {u v : Vec (Extended K)} (hu : u.allFinite = true)
    (hv : v.allFinite = true) : (u - v).allFinite = true := by
  rw [allFinite_iff] at hu hv ⊢
  obtain ⟨hux, huy, huz⟩ := hu
  obtain ⟨hvx, hvy, hvz⟩ := hv
  refine ⟨?_, ?_, ?_⟩ <;> exact isFinite_sub.trans (by simp only [*, Bool.and_self])

theorem allFinite_scale {c : Extended K} {v : Vec (Extended K)} (hc : isFinite c = true)
    (hv : v.allFinite = true) : (v.scale c).allFinite = true := by
  rw [allFinite_iff] at hv ⊢
  exact ⟨isFinite_mul hc hv.1, isFinite_mul hc hv.2.1, isFinite_mul hc hv.2.2⟩

theorem allFinite_cross {u v : Vec (Extended K)} (hu : u.allFinite = true)
    (hv : v.allFinite = true) : (u.cross v).allFinite = true := by
  rw [allFinite_iff] at hu hv ⊢
  obtain ⟨hux, huy, huz⟩ := hu
  obtain ⟨hvx, hvy, hvz⟩ := hv
  refine ⟨?_, ?_, ?_⟩ <;> refine isFinite_sub.trans ?_ <;>
    rw [isFinite_mul ‹_› ‹_›, isFinite_mul ‹_› ‹_›] <;> rfl

/-- The square norm is finite only when the components are. -/
theorem isFinite_dot_self (q : Quat (Extended K)) : isFinite (q.dot q) = q.allFinite := by
  simp only [Quat.dot, Quat.allFinite, isFinite_add, isFinite_mul_self]

/-- A quaternion of finite numbers with the square norm one. -/
def IsUnit (q : Quat (Extended K)) : Prop :=
  ∃ w x y z : K, q = ⟨finite w, finite x, finite y, finite z⟩ ∧ w * w + x * x + y * y + z * z = 1

variable {q : Quat (Extended K)}

theorem IsUnit.allFinite (h : IsUnit q) : q.allFinite = true := by
  obtain ⟨w, x, y, z, rfl, -⟩ := h
  rfl

/-- The norm of a finite quaternion. -/
theorem norm_finite (w x y z : K) :
    ∃ n, Quat.norm (⟨finite w, finite x, finite y, finite z⟩ : Quat (Extended K)) = finite n ∧
      0 ≤ n ∧ n * n = w * w + x * x + y * y + z * z :=
  MathLibrary.sqrt_finite _ (add_nonneg (add_nonneg (add_nonneg (mul_self_nonneg w)
    (mul_self_nonneg x)) (mul_self_nonneg y)) (mul_self_nonneg z))

theorem IsUnit.norm_eq_one (h : IsUnit q) : q.norm = finite 1 := by
  obtain ⟨w, x, y, z, rfl, hsq⟩ := h
  obtain ⟨n, hn, hnonneg, hmul⟩ := norm_finite w x y z
  rw [hn, show n = 1 by nlinarith]

/-- The norm of a quaternion is finite only when its components are. -/
theorem isFinite_norm (q : Quat (Extended K)) : isFinite q.norm = q.allFinite := by
  cases h : q.allFinite with
  | false =>
    exact MathLibrary.sqrt_of_not_isFinite _ ((isFinite_dot_self q).trans h)
  | true =>
    simp only [Quat.allFinite, Bool.and_eq_true, isFinite_iff] at h
    obtain ⟨⟨⟨⟨w, hw⟩, x, hx⟩, y, hy⟩, z, hz⟩ := h
    obtain ⟨n, hn, -⟩ := norm_finite w x y z
    rw [show q = ⟨finite w, finite x, finite y, finite z⟩ from Quat.ext hw hx hy hz, hn]
    rfl

/-- Dividing by a positive norm gives a unit. -/
theorem isUnit_divide_norm (hfinite : q.allFinite = true) {c : ℚ} (hc : 0 < c)
    (hnorm : lt q.norm (ofRat c) = false) : IsUnit (q.divide q.norm) := by
  simp only [Quat.allFinite, Bool.and_eq_true, isFinite_iff] at hfinite
  obtain ⟨⟨⟨⟨w, hw⟩, x, hx⟩, y, hy⟩, z, hz⟩ := hfinite
  obtain rfl : q = ⟨finite w, finite x, finite y, finite z⟩ := Quat.ext hw hx hy hz
  obtain ⟨n, hn, -, hmul⟩ := norm_finite w x y z
  rw [hn] at hnorm ⊢
  rw [ofRat_eq, lt_finite, decide_eq_false_iff_not, not_lt] at hnorm
  have hpos : n ≠ 0 := (lt_of_lt_of_le (Rat.cast_pos.mpr hc) hnorm).ne'
  refine ⟨w / n, x / n, y / n, z / n, ?_, ?_⟩
  · simp only [Quat.divide, Quat.map, finite_div hpos]
  · field_simp
    linear_combination -hmul

/-- A unit is its own direction. -/
theorem IsUnit.divide_one (h : IsUnit q) : q.divide (finite 1) = q := by
  obtain ⟨w, x, y, z, rfl, -⟩ := h
  simp only [Quat.divide, Quat.map, finite_div one_ne_zero, div_one]

end Extended
