import RobotCore.Fusion.History
import Mathlib.Data.Rat.Defs

/-!
# The state of the VIO/Tag estimator

The messages `VioTagFusionComponent` receives, its parameters and its members.  The mutex makes a
callback run to its end before the next one.

What the component computes from the numbers of a message and of the filter is a `FusionKernel`.
Statistics, rates, residuals and the published body state are left out, with the members that only
they read.
-/

namespace RobotCore

variable {σ δ ρ P C : Type}

/-! ### Messages -/

/-- `sensor_msgs/Imu`; its numbers are `data`. -/
structure ImuMsg (ρ : Type) where
  stampNs : ℤ
  frameId : String
  data : ρ

/-- `nav_msgs/Odometry` of the VIO -/
structure OdometryMsg (ρ : Type) where
  stampNs : ℤ
  childFrameId : String
  data : ρ

/-- `map_generation` is a 64-bit counter of the map reloads of one process. -/
structure AprilTagPoseEstimate (ρ : Type) where
  stampNs : ℤ
  frameId : String
  mapGeneration : ℕ
  relocalizationRequested : Bool := false
  poseValid : Bool := false
  inlierTagCount : ℤ := 0
  data : ρ

/-- One reading of both clocks. -/
structure ClockReading where
  rosNs : ℤ
  steadyNs : ℤ

/-! ### Parameters and computations -/

structure FusionConfig where
  /-- `history_duration_s_` in nanoseconds, which the constructor checks -/
  historyNs : ℤ := 3000000000
  historyNs_pos : 0 < historyNs := by decide
  requireZedTrackingOk : Bool := true
  zedStatusTimeoutS : ℚ := 1 / 5
  minimumAlignmentTagCount : ℕ := 2
  alignmentCandidateCount : ℕ := 4
  alignmentCandidateWindowNs : ℤ := 8000000000
  mapFrame : String := "map"
  baseFrame : String := "base_link"

structure AlignmentCandidate (P C : Type) where
  stampNs : ℤ
  mapFromOdom : P
  covariance : C
  deriving DecidableEq

/-- The computations of the component, on transforms in `P`, their covariances in `C` and the
numbers of a message in `ρ`. -/
structure FusionKernel (σ δ ρ P C : Type) extends EkfKernel σ δ where
  /-- the angular velocity of an IMU sample, when it is finite with a valid covariance -/
  imuAngularVelocity : ρ → Option δ
  /-- the specific force, when it is used and finite with a valid covariance -/
  imuLinearAcceleration : ρ → Option δ
  /-- the pose of the base and its twist, when the pose, the twist and the pose covariance are
  valid; the twist is left out without a valid covariance -/
  vioMeasurement : ρ → P → Option (δ × Option δ)
  /-- the identity transform -/
  identity : P
  /-- the candidate of a Tag estimate at a filter state, when its pose and covariances are valid -/
  candidate : AprilTagPoseEstimate ρ → EkfState σ → Option (P × C)
  /-- `tightest_consistent_pose_cluster` with the configured count and tolerances -/
  tightestConsistentPoseCluster : List P → List ℕ
  /-- the mean of the candidates and its covariance, in `establish_alignment` -/
  meanAlignment : List (AlignmentCandidate P C) → P × C
  validCovariance : C → Bool
  /-- the fused alignment of `update_alignment`, when its checks and gates pass -/
  fusedAlignment : P × C → P × C → Option (P × C)
  /-- `fill_covariances` succeeds -/
  fillCovariances : EkfState σ → Option (P × C) → Bool

/-! ### Members -/

structure Fusion (σ δ P C : Type) where
  history : FilterHistory σ δ
  /-- the last reading of `clock_jump_detector_` -/
  lastReading : Option ClockReading := none
  measurementSequence : ℕ := 0
  lastImuMeasurementStampNs : ℤ := 0
  lastVioMeasurementStampNs : ℤ := 0
  /-- the arrival of the last ZED status and whether it was `OK` -/
  zedStatus : Option (ℤ × Bool) := none
  cachedSourceFrame : String := ""
  baseFromVioSource : Option P := none
  /-- `map_from_odom_` with `alignment_covariance_`, which is zero without it -/
  mapFromOdom : Option (P × C) := none
  alignmentCandidates : List (AlignmentCandidate P C) := []
  lastTagCandidateStampNs : ℤ := 0
  lastTagMapGeneration : ℕ := 0

/-- What a callback does to the history of the filter and to the alignment. -/
inductive FusionEffect (δ : Type) where
  /-- `clear_filter_and_alignment` -/
  | cleared
  /-- the filter is initialised from the measurement -/
  | initialized (event : Measurement δ)
  /-- `initialize_filter` fails and leaves no filter -/
  | uninitialized
  | kept (event : Measurement δ)
  /-- erased again because no update accepted it -/
  | erased (event : Measurement δ)
  deriving DecidableEq

end RobotCore
