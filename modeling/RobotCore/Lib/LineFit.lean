import Mathlib.Algebra.BigOperators.Group.List.Lemmas
import Mathlib.Algebra.BigOperators.Ring.List
import Mathlib.Algebra.Field.Basic
import Mathlib.Tactic.FieldSimp
import Mathlib.Tactic.Ring

/-!
# Least-squares lines

The line through a list of points with the least squares of the vertical distances: it passes
through the mean point, with the slope `slope`.  Points on a line have that line
(`slope_eq_of_affine`, `mean_eq_of_affine`).
-/

namespace LineFit

variable {K : Type*} [Field K]

def mean (xs : List K) : K := xs.sum / (xs.length : K)

/-- The sum of the squared distances from the mean. -/
def spread (xs : List K) : K := (xs.map fun x => (x - mean xs) * (x - mean xs)).sum

/-- The sum of the products of the distances of both coordinates from their means. -/
def coSpread (points : List (K × K)) : K :=
  (points.map fun p => (p.1 - mean (points.map Prod.fst)) * (p.2 - mean (points.map Prod.snd))).sum

def slope (points : List (K × K)) : K := coSpread points / spread (points.map Prod.fst)

variable {a b : K} {points : List (K × K)}

theorem sum_eq_of_affine (h : ∀ p ∈ points, p.2 = a + b * p.1) :
    (points.map Prod.snd).sum = points.length * a + b * (points.map Prod.fst).sum := by
  induction points with
  | nil => simp
  | cons p points ih =>
    obtain ⟨hp, hpoints⟩ := List.forall_mem_cons.mp h
    rw [List.map_cons, List.map_cons, List.sum_cons, List.sum_cons, List.length_cons, ih hpoints,
      hp]
    push_cast
    ring

/-- The mean point of points on a line lies on it. -/
theorem mean_eq_of_affine [CharZero K] (hne : points ≠ [])
    (h : ∀ p ∈ points, p.2 = a + b * p.1) :
    mean (points.map Prod.snd) = a + b * mean (points.map Prod.fst) := by
  have hlength : (points.length : K) ≠ 0 :=
    Nat.cast_ne_zero.mpr (List.length_pos_iff.mpr hne).ne'
  rw [mean, mean, sum_eq_of_affine h, List.length_map, List.length_map]
  field_simp

/-- The fitted slope of points on a line is that of the line. -/
theorem slope_eq_of_affine [CharZero K] (hspread : spread (points.map Prod.fst) ≠ 0)
    (h : ∀ p ∈ points, p.2 = a + b * p.1) : slope points = b := by
  have hne : points ≠ [] := by
    rintro rfl
    exact hspread rfl
  have hco : coSpread points = b * spread (points.map Prod.fst) := by
    rw [coSpread, spread, List.map_map, ← List.sum_map_mul_left]
    refine congrArg List.sum (List.map_congr_left fun p hp => ?_)
    rw [Function.comp_apply, h p hp, mean_eq_of_affine hne h]
    ring
  rw [slope, hco, mul_div_assoc, div_self hspread, mul_one]

end LineFit
