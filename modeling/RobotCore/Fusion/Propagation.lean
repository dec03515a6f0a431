import Mathlib.Logic.Equiv.Fin.Basic
import RobotCore.Fusion.Alignment
import RobotCore.Fusion.Geometry

/-!
# The covariance of an alignment candidate

`alignment_candidate_covariance` of `covariance.hpp`: the covariance of `T_map_odom`, the quotient
of `T_map_base` and `T_odom_base`, from those of the two poses.  All covariances are of a
translation and a rotation vector in the fixed axes of the respective parent frame.
-/

namespace RobotCore

open Matrix RigidMotion

noncomputable section

/-- The rows of the translation and those of the rotation. -/
def splitRows : Fin 6 ≃ Fin 3 ⊕ Fin 3 := (finSumFinEquiv : Fin 3 ⊕ Fin 3 ≃ Fin (3 + 3)).symm

/-- A 6x6 matrix of four blocks. -/
def blocks6 (A B C D : Matrix (Fin 3) (Fin 3) ℝ) : FixedCovariance 6 :=
  (fromBlocks A B C D).submatrix splitRows splitRows

def mapFromBaseJacobian (mapFromOdom odomFromBase : Isometry3d) : FixedCovariance 6 :=
  blocks6 1 (skew (mapFromOdom.linear *ᵥ odomFromBase.translation)) 0 1

def odomFromBaseJacobian (mapFromOdom odomFromBase : Isometry3d) : FixedCovariance 6 :=
  blocks6 (-mapFromOdom.linear) (-mapFromOdom.linear * skew odomFromBase.translation) 0
    (-mapFromOdom.linear)

def alignmentCandidateCovariance (mapFromBaseCovariance odomFromBaseCovariance : FixedCovariance 6)
    (odomFromBase mapFromOdom : Isometry3d) : FixedCovariance 6 :=
  let J := mapFromBaseJacobian mapFromOdom odomFromBase
  let K := odomFromBaseJacobian mapFromOdom odomFromBase
  symmetrizedCovariance (J * mapFromBaseCovariance * Jᵀ + K * odomFromBaseCovariance * Kᵀ)

end

end RobotCore
