import Mathlib.Analysis.Matrix.HermitianFunctionalCalculus
import RobotCore.Lib.JointCovariance
import RobotCore.Lib.Machine

/-!
# The update of the alignment

`update_alignment` of `VioTagFusionComponent` with its matrices, in exact arithmetic: the
covariances are real matrices, a self-adjoint eigensolver finds the eigenvalues, and a
decomposition that succeeds solves exactly.  The poses are abstract; what the update reads of them
is the innovation, and what it does to them is the correction.
-/

namespace RobotCore

open Matrix JointCovariance

noncomputable section

/-- `FixedCovariance<Size>` -/
abbrev FixedCovariance (n : ℕ) := Matrix (Fin n) (Fin n) ℝ

def kCovarianceSymmetryTolerance : ℝ := 1 / 10 ^ 10
def kCovariancePsdTolerance : ℝ := 1 / 10 ^ 12
def kCovarianceRepairTolerance : ℝ := 1 / 10 ^ 10
def kCovarianceEigenvalueFloor : ℝ := 1 / 10 ^ 12

/-! ### Covariances -/

section Covariance

variable {n : ℕ}

def symmetrizedCovariance (covariance : FixedCovariance n) : FixedCovariance n :=
  (1 / 2 : ℝ) • (covariance + covarianceᵀ)

theorem isHermitian_symmetrizedCovariance (covariance : FixedCovariance n) :
    (symmetrizedCovariance covariance).IsHermitian := by
  unfold symmetrizedCovariance IsHermitian
  rw [conjTranspose_eq_transpose_of_trivial, transpose_smul, transpose_add, transpose_transpose,
    add_comm]

/-- `cwiseAbs().maxCoeff()` -/
def maxAbsCoeff (covariance : FixedCovariance n) : ℝ := ⨆ p : Fin n × Fin n, |covariance p.1 p.2|

/-- `std::max(1.0, covariance.cwiseAbs().maxCoeff())` -/
def covarianceScale (covariance : FixedCovariance n) : ℝ := max 1 (maxAbsCoeff covariance)

/-- The eigenvalues of the symmetrized covariance. -/
def covarianceEigenvalues (covariance : FixedCovariance n) : Fin n → ℝ :=
  (isHermitian_symmetrizedCovariance covariance).eigenvalues

/-- `valid_covariance` -/
def ValidCovariance (covariance : FixedCovariance n) : Prop :=
  maxAbsCoeff (covariance - covarianceᵀ)
      ≤ kCovarianceSymmetryTolerance * covarianceScale covariance ∧
    ∀ i, -kCovariancePsdTolerance * covarianceScale covariance
      ≤ covarianceEigenvalues covariance i

/-- The matrix with the same eigenvectors whose eigenvalues are raised to the floor. -/
def raisedCovariance (covariance : FixedCovariance n) (floor : ℝ) : FixedCovariance n :=
  (isHermitian_symmetrizedCovariance covariance).cfc fun eigenvalue => max eigenvalue floor

open Classical in
/-- `stabilize_covariance`: the stabilized matrix, or `none` where the source returns `false`. -/
def stabilizeCovariance (covariance : FixedCovariance n) : Option (FixedCovariance n) :=
  let scale := covarianceScale (symmetrizedCovariance covariance)
  if ∃ i, covarianceEigenvalues covariance i < -kCovarianceRepairTolerance * scale then none
  else
    let projected := raisedCovariance covariance (kCovarianceEigenvalueFloor * scale)
    let stabilized := symmetrizedCovariance projected
    if ValidCovariance stabilized then some stabilized else none

end Covariance

/-! ### The update -/

def head3 (v : Fin 6 → ℝ) : Fin 3 → ℝ := fun i => v (Fin.castAdd 3 i)
def tail3 (v : Fin 6 → ℝ) : Fin 3 → ℝ := fun i => v (Fin.natAdd 3 i)

/-- `norm()` -/
def norm3 (v : Fin 3 → ℝ) : ℝ := √(v ⬝ᵥ v)

theorem norm3_zero : norm3 0 = 0 := by
  unfold norm3
  rw [zero_dotProduct, Real.sqrt_zero]

theorem norm3_sub_comm (p q : Fin 3 → ℝ) : norm3 (p - q) = norm3 (q - p) := by
  unfold norm3
  rw [← neg_sub, neg_dotProduct_neg]

/-- `passes_three_dof_gate`.  The decomposition of a matrix is positive when the matrix is. -/
def PassesThreeDofGate (residual : Fin 3 → ℝ) (covariance : FixedCovariance 3) (gateChi2 : ℝ) :
    Prop :=
  0 < gateChi2 ∧ (symmetrizedCovariance covariance).PosSemidef ∧
    residual ⬝ᵥ (symmetrizedCovariance covariance)⁻¹ *ᵥ residual ≤ gateChi2

open Classical in
def scaledVectorWithNormLimit (value : Fin 3 → ℝ) (gain maximumNorm : ℝ) : Fin 3 → ℝ :=
  let scaled := gain • value
  let norm := norm3 scaled
  if norm ≤ maximumNorm ∨ norm < 1 / 10 ^ 12 then scaled else (maximumNorm / norm) • scaled

/-- What the update needs of the poses: the difference of two as translation and rotation vector,
and a pose moved by a translation and a rotation vector. -/
structure PoseOps (P : Type) where
  innovation : P → P → Fin 6 → ℝ
  correct : P → (Fin 3 → ℝ) → (Fin 3 → ℝ) → P

/-- The parameters of the update, as the constructor accepts them. -/
structure AlignmentConfig where
  alignmentUpdateGain : ℝ
  alignmentMaxTranslationStepM : ℝ
  alignmentMaxRotationStepRad : ℝ
  tagGateChi2 : ℝ
  gain_pos : 0 < alignmentUpdateGain
  gain_le_one : alignmentUpdateGain ≤ 1

/-- The information of the equal-weight covariance intersection. -/
def fusedInformation (prior observation : FixedCovariance 6) : FixedCovariance 6 :=
  symmetrizedCovariance ((1 / 2 : ℝ) • prior⁻¹ + (1 - 1 / 2 : ℝ) • observation⁻¹)

/-- The gain of the covariance intersection, `fused_covariance * (1.0 - prior_weight) *
observation_information`. -/
def intersectionGain (prior observation : FixedCovariance 6) : FixedCovariance 6 :=
  (fusedInformation prior observation)⁻¹ * ((1 - 1 / 2 : ℝ) • observation⁻¹)

section Update

variable {P : Type} (ops : PoseOps P) (cfg : AlignmentConfig)

/-- Both parts of the innovation pass their gates. -/
def PassesGates (innovation : Fin 6 → ℝ) (prior observation : FixedCovariance 6) : Prop :=
  let innovationCovariance := symmetrizedCovariance (prior + observation)
  PassesThreeDofGate (head3 innovation)
      (innovationCovariance.submatrix (Fin.castAdd 3) (Fin.castAdd 3)) cfg.tagGateChi2 ∧
    PassesThreeDofGate (tail3 innovation)
      (innovationCovariance.submatrix (Fin.natAdd 3) (Fin.natAdd 3)) cfg.tagGateChi2

/-- The pose moved by a part of the correction of the covariance intersection. -/
def correctedPose (pose : P) (correction : Fin 6 → ℝ) : P :=
  ops.correct pose
    (scaledVectorWithNormLimit (head3 correction) cfg.alignmentUpdateGain
      cfg.alignmentMaxTranslationStepM)
    (scaledVectorWithNormLimit (tail3 correction) cfg.alignmentUpdateGain
      cfg.alignmentMaxRotationStepRad)

open Classical in
/-- `update_alignment` with an alignment: the new alignment and its covariance. -/
def updateAlignment (alignment candidate : P × FixedCovariance 6) :
    Option (P × FixedCovariance 6) :=
  match stabilizeCovariance alignment.2, stabilizeCovariance candidate.2 with
  | some prior, some observation =>
    let innovation := ops.innovation candidate.1 alignment.1
    if ¬PassesGates cfg innovation prior observation then none
    else if ¬(prior.PosSemidef ∧ observation.PosSemidef ∧
        (fusedInformation prior observation).PosSemidef) then none
    else
      let correction := intersectionGain prior observation *ᵥ innovation
      (stabilizeCovariance (fusedInformation prior observation)⁻¹).map fun fused =>
        (correctedPose ops cfg alignment.1 correction, fused)
  | _, _ => none

end Update

end

end RobotCore
