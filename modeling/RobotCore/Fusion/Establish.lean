import RobotCore.Fusion.Rotation
import RobotCore.Fusion.State
import RobotCore.Lib.Numeral

/-!
# Establishing the alignment

`establish_alignment` of `VioTagFusionComponent`: the mean of the candidates with the covariance
that is reported for it, and `covariance_sum_with_unknown_correlation` of `covariance.hpp`.  Exact
arithmetic.
-/

namespace RobotCore

open Matrix

attribute [local instance] Numeral.atLeastTwo_two

noncomputable section

/-- `covariance_sum_with_unknown_correlation` -/
def covarianceSumWithUnknownCorrelation {n : ℕ} (first second : FixedCovariance n) :
    FixedCovariance n :=
  let upperBound := (2 : ℝ) • (first + second)
  symmetrizedCovariance upperBound

/-- A candidate with its transform and covariance. -/
abbrev MatrixCandidate := AlignmentCandidate Isometry3d (FixedCovariance 6)

variable (R : EigenRotations)

/-! ### The mean pose -/

/-- The `translation` of the loop over the candidates. -/
def summedTranslation (candidates : List MatrixCandidate) : Fin 3 → ℝ :=
  candidates.foldl (fun translation c => translation + c.mapFromOdom.translation) 0

/-- The turn of `orientation` towards the candidate at an index. -/
def turnedOrientation (orientation : Quaternion ℝ) (c : MatrixCandidate × ℕ) : Quaternion ℝ :=
  if c.2 = 0 then orientation
  else normalizedQuaternion
    (R.slerp (1 / ((c.2 + 1 : ℕ) : ℝ)) orientation (R.ofLinear c.1.mapFromOdom.linear))

/-- The `orientation` of the loop, from that of the first candidate. -/
def meanOrientation (candidates : List MatrixCandidate) (first : MatrixCandidate) :
    Quaternion ℝ :=
  candidates.zipIdx.foldl (turnedOrientation R) (R.ofLinear first.mapFromOdom.linear)

/-- The mean of candidates that start with `first`. -/
def meanPose (candidates : List MatrixCandidate) (first : MatrixCandidate) : Isometry3d :=
  poseTransform ((candidates.length : ℝ)⁻¹ • summedTranslation candidates)
    (meanOrientation R candidates first)

/-! ### Its covariance -/

/-- `residual` -/
def candidateResidual (mean : Isometry3d) (c : MatrixCandidate) : Fin 6 → ℝ :=
  Fin.append (c.mapFromOdom.translation - mean.translation)
    (logQuaternion (R.ofLinear (c.mapFromOdom.linear * mean.linearᵀ)))

/-- `alignment_covariance += candidate.covariance / count` -/
def addReported (count : ℝ) (covariance : FixedCovariance 6) (c : MatrixCandidate) :
    FixedCovariance 6 :=
  covariance + count⁻¹ • c.covariance

/-- `alignment_covariance += residual * residual.transpose() / (count - 1.0)`.  At least two
candidates are required, and the divisor is positive. -/
def addScatter (count : ℝ) (mean : Isometry3d) (covariance : FixedCovariance 6)
    (c : MatrixCandidate) : FixedCovariance 6 :=
  let residual := candidateResidual R mean c
  covariance + (count - 1)⁻¹ • vecMulVec residual residual

def establishedCovariance (candidates : List MatrixCandidate) (mean : Isometry3d) :
    FixedCovariance 6 :=
  let count : ℝ := candidates.length
  symmetrizedCovariance (candidates.foldl
    (fun covariance c => addScatter R count mean (addReported count covariance c) c) 0)

open Classical in
/-- `establish_alignment`: the new alignment, or `none` where the source returns `false`. -/
def establishAlignment (candidates : List MatrixCandidate) :
    Option (Isometry3d × FixedCovariance 6) :=
  match candidates with
  | [] => none
  | first :: _ =>
    let mapFromOdom := meanPose R candidates first
    let alignmentCovariance := establishedCovariance R candidates mapFromOdom
    if ValidCovariance alignmentCovariance then some (mapFromOdom, alignmentCovariance) else none

end

end RobotCore
