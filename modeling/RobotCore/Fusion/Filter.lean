import RobotCore.Fusion.Ekf
import RobotCore.Fusion.Rotation
import RobotCore.Lib.Numeral

/-!
# The updates of the filter

`update_position`, `update_orientation`, `update_linear_velocity` and `update_angular_velocity` of
`VioTagEkf` with their matrices, in exact arithmetic: the numbers are real, and a decomposition that
succeeds solves exactly.  A coordinate of the error state is a block and an axis, in the order of
the source.
-/

namespace RobotCore

open Matrix RigidMotion

attribute [local instance] Numeral.neZero_four Numeral.atLeastTwo_two

noncomputable section

inductive UpdateBlock where
  | position
  | linearVelocity
  | orientation
  | angularVelocity
  deriving DecidableEq

def UpdateBlock.index : UpdateBlock ≃ Fin 4 where
  toFun
    | .position => 0
    | .linearVelocity => 1
    | .orientation => 2
    | .angularVelocity => 3
  invFun := ![.position, .linearVelocity, .orientation, .angularVelocity]
  left_inv block := by cases block <;> rfl
  right_inv i := by fin_cases i <;> rfl

instance : Fintype UpdateBlock := Fintype.ofEquiv (Fin 4) UpdateBlock.index.symm

abbrev ErrorIndex := UpdateBlock × Fin 3

/-- `Matrix12d` -/
abbrev Matrix12d := Matrix ErrorIndex ErrorIndex ℝ

/-- The observation of three coordinates. -/
abbrev Observation := Matrix (Fin 3) ErrorIndex ℝ

/-- The estimate of the filter, as the updates read and write it. -/
structure FilterState where
  position : Fin 3 → ℝ
  velocity : Fin 3 → ℝ
  orientation : Quaternion ℝ
  angularVelocity : Fin 3 → ℝ
  covariance : Matrix12d
  /-- the source normalises what it assigns to the orientation -/
  orientation_normalized : normalizedQuaternion orientation = orientation

/-- `velocity_correction_limit_mps`, where `none` is `INFINITY`.  The one caller that gives a limit
has checked its sign. -/
abbrev CorrectionLimit := Option { limit : ℝ // 0 < limit }

def segment (v : ErrorIndex → ℝ) (block : UpdateBlock) : Fin 3 → ℝ := fun i => v (block, i)

/-- The observation with a matrix for each block. -/
def observationOf (blocks : UpdateBlock → Matrix (Fin 3) (Fin 3) ℝ) : Observation :=
  of fun i p => blocks p.1 i p.2

/-- The row of the source: the blocks start at 0, 3, 6 and 9. -/
def rowIndex : ErrorIndex ≃ Fin 12 :=
  (UpdateBlock.index.prodCongr (Equiv.refl (Fin 3))).trans finProdFinEquiv

/-- `stabilize_covariance<12>` -/
def stabilizeStateCovariance (covariance : Matrix12d) : Option Matrix12d :=
  (stabilizeCovariance (covariance.submatrix rowIndex.symm rowIndex.symm)).map fun stabilized =>
    stabilized.submatrix rowIndex rowIndex

/-! ### The gain -/

/-- The gain with the rows of the other blocks set to zero. -/
def blockGain (gain : Matrix ErrorIndex (Fin 3) ℝ) (updateBlock : UpdateBlock) :
    Matrix ErrorIndex (Fin 3) ℝ :=
  of fun p j => if p.1 = updateBlock then gain p j else 0

/-- The correction of the velocity is longer than its limit. -/
def LimitEngages (limit : CorrectionLimit) (correction : ErrorIndex → ℝ) : Prop :=
  ∃ bound ∈ limit, bound.val < norm3 (segment correction .linearVelocity)

open Classical in
/-- `bounded_influence`, and one where the limit does not engage. -/
def boundedInfluence (limit : CorrectionLimit) (correction : ErrorIndex → ℝ) : ℝ :=
  match limit with
  | none => 1
  | some bound =>
    let velocityCorrectionMps := norm3 (segment correction .linearVelocity)
    if bound.val < velocityCorrectionMps then bound.val / velocityCorrectionMps else 1

namespace FilterState

variable (s : FilterState)

section Update

variable (innovation : Fin 3 → ℝ) (observation : Observation)
  (measurementCovariance : FixedCovariance 3)

def innovationCovariance : FixedCovariance 3 :=
  symmetrizedCovariance (observation * s.covariance * observationᵀ + measurementCovariance)

/-- The checks of `update`.  The decomposition of a matrix is positive when the matrix is. -/
def PassesGate (gateChi2 : ℝ) : Prop :=
  let innovationCovariance := s.innovationCovariance observation measurementCovariance
  0 < gateChi2 ∧ measurementCovariance.PosSemidef ∧ innovationCovariance.PosSemidef ∧
    innovation ⬝ᵥ innovationCovariance⁻¹ *ᵥ innovation ≤ gateChi2

/-- The gain of the block before the limit. -/
def unlimitedGain (updateBlock : UpdateBlock) : Matrix ErrorIndex (Fin 3) ℝ :=
  blockGain
    (s.covariance * observationᵀ * (s.innovationCovariance observation measurementCovariance)⁻¹)
    updateBlock

variable (updateBlock : UpdateBlock) (limit : CorrectionLimit)

def influence : ℝ :=
  boundedInfluence limit
    (s.unlimitedGain observation measurementCovariance updateBlock *ᵥ innovation)

def gain : Matrix ErrorIndex (Fin 3) ℝ :=
  s.influence innovation observation measurementCovariance updateBlock limit •
    s.unlimitedGain observation measurementCovariance updateBlock

def correction : ErrorIndex → ℝ :=
  s.influence innovation observation measurementCovariance updateBlock limit •
    s.unlimitedGain observation measurementCovariance updateBlock *ᵥ innovation

def updatedCovariance : Matrix12d :=
  let gain := s.gain innovation observation measurementCovariance updateBlock limit
  let residual := 1 - gain * observation
  residual * s.covariance * residualᵀ + gain * measurementCovariance * gainᵀ

end Update

/-! ### Injecting the correction -/

theorem normalizedQuaternion_idem (q : Quaternion ℝ) :
    normalizedQuaternion (normalizedQuaternion q) = normalizedQuaternion q := by
  rcases normalizedQuaternion_eq q with h | h
  · rw [h]
    exact smul_zero _
  · rw [normalizedQuaternion, h, inv_one, one_smul]

/-- `inject` before its reset: the mean moves. -/
def injectMean (correction : ErrorIndex → ℝ) : FilterState where
  position := s.position + segment correction .position
  velocity := s.velocity + segment correction .linearVelocity
  orientation :=
    normalizedQuaternion (s.orientation * expQuaternion (segment correction .orientation))
  angularVelocity := s.angularVelocity + segment correction .angularVelocity
  covariance := s.covariance
  orientation_normalized := normalizedQuaternion_idem _

/-- The identity less half of the cross product in the block of the orientation. -/
def resetMatrix (correction : ErrorIndex → ℝ) : Matrix12d :=
  1 - of fun p q =>
    if p.1 = .orientation ∧ q.1 = .orientation then
      (1 / 2 : ℝ) * skew (segment correction .orientation) p.2 q.2
    else 0

/-- The reset of `inject`. -/
def resetCovariance (correction : ErrorIndex → ℝ) : FilterState :=
  { s with
    covariance := resetMatrix correction * s.covariance * (resetMatrix correction)ᵀ }

def inject (correction : ErrorIndex → ℝ) : FilterState :=
  (s.injectMean correction).resetCovariance correction

/-! ### The updates -/

section Update

variable (innovation : Fin 3 → ℝ) (observation : Observation)
  (measurementCovariance : FixedCovariance 3) (gateChi2 : ℝ) (updateBlock : UpdateBlock)
  (limit : CorrectionLimit)

/-- The state of `update` at the reset in `inject`. -/
def beforeReset : FilterState :=
  { s with
    covariance :=
      s.updatedCovariance innovation observation measurementCovariance updateBlock limit
    }.injectMean (s.correction innovation observation measurementCovariance updateBlock limit)

open Classical in
def update : BlockUpdate FilterState :=
  if ¬s.PassesGate innovation observation measurementCovariance gateChi2 then .rejected
  else
    let correction := s.correction innovation observation measurementCovariance updateBlock limit
    let injected :=
      { s with
        covariance :=
          s.updatedCovariance innovation observation measurementCovariance updateBlock limit
        }.inject correction
    match stabilizeStateCovariance injected.covariance with
    | some covariance => .accepted { injected with covariance := covariance }
    | none => .failed

end Update

/-- The observation of a block of the state. -/
def identityObservation (block : UpdateBlock) : Observation :=
  observationOf fun b => if b = block then 1 else 0

def updatePosition (position : Fin 3 → ℝ) (covariance : FixedCovariance 3) (gateChi2 : ℝ) :
    BlockUpdate FilterState :=
  s.update (position - s.position) (identityObservation .position) covariance gateChi2 .position
    none

def updateOrientation (orientation : Quaternion ℝ) (covariance : FixedCovariance 3)
    (gateChi2 : ℝ) : BlockUpdate FilterState :=
  s.update (logQuaternion (star s.orientation * normalizedQuaternion orientation))
    (identityObservation .orientation) covariance gateChi2 .orientation none

def bodyFromOdom : Matrix (Fin 3) (Fin 3) ℝ := toRotationMatrix (star s.orientation)

/-- The velocity of the body also observes the orientation. -/
def linearVelocityObservation : Observation :=
  observationOf fun
    | .linearVelocity => s.bodyFromOdom
    | .orientation => skew (s.bodyFromOdom *ᵥ s.velocity)
    | .position | .angularVelocity => 0

open Classical in
def updateLinearVelocity (bodyVelocity : Fin 3 → ℝ) (covariance : FixedCovariance 3)
    (gateChi2 correctionLimitMps innovationRejectionLimitMps : ℝ) : BlockUpdate FilterState :=
  let innovation := bodyVelocity - s.bodyFromOdom *ᵥ s.velocity
  if hlimit : 0 < correctionLimitMps then
    if innovationRejectionLimitMps ≤ 0 ∨ innovationRejectionLimitMps < norm3 innovation then
      .rejected
    else
      s.update innovation s.linearVelocityObservation covariance gateChi2 .linearVelocity
        (some ⟨correctionLimitMps, hlimit⟩)
  else .rejected

def updateAngularVelocity (angularVelocity : Fin 3 → ℝ) (covariance : FixedCovariance 3)
    (gateChi2 : ℝ) : BlockUpdate FilterState :=
  s.update (angularVelocity - s.angularVelocity) (identityObservation .angularVelocity) covariance
    gateChi2 .angularVelocity none

end FilterState

end

end RobotCore
