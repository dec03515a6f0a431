import Mathlib.Analysis.SpecialFunctions.Complex.Arg
import RobotCore.Fusion.Alignment
import RobotCore.Fusion.Geometry
import RobotCore.Lib.Numeral

/-!
# Rotation vectors

`exp_quaternion`, `log_quaternion` and `rotation_distance` of `geometry.hpp` in exact arithmetic.
-/

namespace RobotCore

open Matrix

attribute [local instance] Numeral.neZero_three Numeral.atLeastTwo_two Numeral.atLeastTwo_ten

noncomputable section

/-- `vec()` -/
def quaternionVec (q : Quaternion ℝ) : Fin 3 → ℝ := ![q.imI, q.imJ, q.imK]

/-- `std::atan2` -/
def stdAtan2 (y x : ℝ) : ℝ := Complex.arg ⟨x, y⟩

/-- `exp_quaternion` -/
def expQuaternion (θ : Fin 3 → ℝ) : Quaternion ℝ :=
  let angle := norm3 θ
  if angle < 1 / 10 ^ 10 then
    normalizedQuaternion ⟨1, 1 / 2 * θ 0, 1 / 2 * θ 1, 1 / 2 * θ 2⟩
  else
    let s := Real.sin (1 / 2 * angle)
    ⟨Real.cos (1 / 2 * angle), s * (θ 0 / angle), s * (θ 1 / angle), s * (θ 2 / angle)⟩

/-- `log_quaternion` -/
def logQuaternion (q : Quaternion ℝ) : Fin 3 → ℝ :=
  let q := normalizedQuaternion q
  let q := if q.re < 0 then -q else q
  let n := norm3 (quaternionVec q)
  if n < 1 / 10 ^ 10 then (2 : ℝ) • quaternionVec q
  else (2 * stdAtan2 n (max (-1) (min q.re 1)) / n) • quaternionVec q

/-- `rotation_distance` -/
def rotationDistance (a b : Matrix (Fin 3) (Fin 3) ℝ) : ℝ :=
  Real.arccos (max (-1) (min ((aᵀ * b).trace * (1 / 2) - 1 / 2) 1))

/-- What the source takes of Eigen: the quaternion of a rotation matrix, and the interpolation
from the second rotation to the third. -/
structure EigenRotations where
  ofLinear : Matrix (Fin 3) (Fin 3) ℝ → Quaternion ℝ
  slerp : ℝ → Quaternion ℝ → Quaternion ℝ → Quaternion ℝ

end

end RobotCore
