import Mathlib.Analysis.Quaternion
import RobotCore.Lib.RigidMotion
import RobotCore.Lib.Numeral

/-!
# Poses

The rigid transforms of `geometry.hpp` in exact arithmetic.  An `Isometry3d` carries that its linear
part is a rotation; `poseTransform` builds one from every position and quaternion.
-/

namespace RobotCore

open Matrix RigidMotion

attribute [local instance] Numeral.atLeastTwo_two

/-- A rigid transform. -/
structure Isometry3d extends Motion ℝ where
  rigid : toMotion.IsRigid

namespace Isometry3d

def mul (a b : Isometry3d) : Isometry3d := ⟨a.toMotion.mul b.toMotion, a.rigid.mul b.rigid⟩

def inverse (a : Isometry3d) : Isometry3d := ⟨a.toMotion.inverse, a.rigid.inverse⟩

end Isometry3d

/-! ### Quaternions -/

/-- `normalized()`, which leaves the zero quaternion as it is. -/
noncomputable def normalizedQuaternion (q : Quaternion ℝ) : Quaternion ℝ := ‖q‖⁻¹ • q

/-- `toRotationMatrix()` -/
def toRotationMatrix (q : Quaternion ℝ) : Matrix (Fin 3) (Fin 3) ℝ :=
  let w := q.re
  let x := q.imI
  let y := q.imJ
  let z := q.imK
  !![1 - (2 * y * y + 2 * z * z), 2 * x * y - 2 * w * z, 2 * x * z + 2 * w * y;
    2 * x * y + 2 * w * z, 1 - (2 * x * x + 2 * z * z), 2 * y * z - 2 * w * x;
    2 * x * z - 2 * w * y, 2 * y * z + 2 * w * x, 1 - (2 * x * x + 2 * y * y)]

theorem normalizedQuaternion_eq (q : Quaternion ℝ) :
    normalizedQuaternion q = 0 ∨ ‖normalizedQuaternion q‖ = 1 := by
  rcases eq_or_ne q 0 with rfl | hq
  · exact Or.inl (smul_zero _)
  · right
    rw [normalizedQuaternion, norm_smul, norm_inv, norm_norm,
      inv_mul_cancel₀ (norm_ne_zero_iff.mpr hq)]

/-- The matrix of a unit quaternion is a rotation, and that of the zero quaternion the identity. -/
theorem toRotationMatrix_isRigid (q : Quaternion ℝ) (p : Fin 3 → ℝ) :
    Motion.IsRigid ⟨toRotationMatrix (normalizedQuaternion q), p⟩ := by
  rcases normalizedQuaternion_eq q with h | h
  · have hone : toRotationMatrix (normalizedQuaternion q) = 1 := by
      rw [h]
      ext i j
      fin_cases i <;> fin_cases j <;> simp [toRotationMatrix, Quaternion.re_zero,
        Quaternion.imI_zero, Quaternion.imJ_zero, Quaternion.imK_zero]
    rw [hone]
    exact ⟨by rw [transpose_one, Matrix.one_mul], det_one⟩
  have hunit : (normalizedQuaternion q).re ^ 2 + (normalizedQuaternion q).imI ^ 2 +
      (normalizedQuaternion q).imJ ^ 2 + (normalizedQuaternion q).imK ^ 2 = 1 := by
    have hnorm := Quaternion.normSq_eq_norm_mul_self (normalizedQuaternion q)
    rw [Quaternion.normSq_def', h, mul_one] at hnorm
    exact hnorm
  constructor
  · ext i j
    fin_cases i <;> fin_cases j <;>
      simp [toRotationMatrix, mul_apply, Fin.sum_univ_three] <;> grind
  · simp only [toRotationMatrix, det_fin_three, of_apply, cons_val]
    grind

/-- `pose_transform` -/
noncomputable def poseTransform (p : Fin 3 → ℝ) (q : Quaternion ℝ) : Isometry3d :=
  ⟨⟨toRotationMatrix (normalizedQuaternion q), p⟩, toRotationMatrix_isRigid q p⟩

end RobotCore
