import RobotCore.Lib.Scalar

/-!
# State of the trajectory command node

The parameters and members of `TrajectoryCommandNode`, and the messages it reads and publishes.
The scalars are any, since nothing here depends on their rounding and functions; Python's exceptions
for results that overflow are left out.
-/

namespace RobotCore

open Scalar

/-! ### Parameters -/

structure TrajectoryConfig (α : Type) where
  trajectoryType : String
  controlMode : String
  attitudeMode : String
  relativeToInitialPose : Bool
  publishRateHz : α
  centerX : α
  centerY : α
  centerZ : α
  ampX : α
  ampY : α
  ampZ : α
  radiusM : α
  trajectorySpeedMps : α
  trajectoryRampS : α
  holdBeforeMotionS : α
  moveDurationS : α
  requirePoolBounds : Bool
  poolMinXyz : List α
  poolMaxXyz : List α
  trajectoryLimitsConfigured : Bool
  maxLinearSpeedMps : α
  maxAngularSpeedRps : α
  attitudeMinRpyDeg : List α
  attitudeMaxRpyDeg : List α
  manualVerticalSpeedMps : α
  manualInputAgeS : α
  stationLinearInputGainMps : α
  stationLateralInputGainMps : α
  stationYawInputGainRps : α

namespace TrajectoryConfig

variable {α : Type} (config : TrajectoryConfig α)

/-- `str(self.get_parameter("trajectory_type").value).lower()` -/
def activeType : String := config.trajectoryType.toLower

def activeMode : String := config.controlMode.toLower

def center : Vec α := ⟨config.centerX, config.centerY, config.centerZ⟩

variable [Scalar α]

/-- `hold_s` -/
def holdS : α := pyMax (ofRat 0) config.holdBeforeMotionS

/-- `move_s` -/
def moveS : α := pyMax (ofRat (1 / 10)) config.moveDurationS

end TrajectoryConfig

/-- `AUTOMATIC_TRAJECTORY_TYPES` -/
def automaticTrajectoryTypes : List String :=
  ["spatial_lissajous", "circle", "racetrack", "straight_line"]

def isAutomatic (trajectoryType : String) : Bool := automaticTrajectoryTypes.contains trajectoryType

/-- `{"hold", *AUTOMATIC_TRAJECTORY_TYPES}` -/
def isManaged (trajectoryType : String) : Bool :=
  trajectoryType == "hold" || isAutomatic trajectoryType

/-- The control modes with a station target. -/
def stationModes : List String := ["station_hold", "station_hold_fast", "rl_policy"]

def isStation (controlMode : String) : Bool := stationModes.contains controlMode

/-- `control_mode_is_compatible` -/
def controlModeIsCompatible (trajectoryType controlMode : String) : Bool :=
  if trajectoryType == "hold" then controlMode == "altitude_hold" || isStation controlMode
  else isAutomatic trajectoryType && isStation controlMode

/-! ### Messages -/

/-- What the node reads of a `BodyState`. -/
structure BodyPose (α : Type) where
  stateValid : Bool
  positionEstimated : Bool
  position : Vec α
  orientation : Quat α

structure ImuReading (α : Type) where
  frameId : String
  /-- the first element of `orientation_covariance` -/
  orientationCovariance : α
  orientation : Quat α
  angularVelocity : Vec α

structure ManualCommand (α : Type) where
  source : String
  enable : Bool
  action : Vector α 8

/-- The components of a `TwistStamped` the node reads. -/
structure OperatorInput (α : Type) where
  linear : Vec α
  angularZ : α

structure TrajectoryTarget (α : Type) where
  position : Vec α
  orientation : Quat α
  velocity : Vec α
  angularVelocity : Vec α
  acceleration : Vec α
  angularAcceleration : Vec α
  trajectoryType : String
  controlMode : String
  trajectoryPhase : String
  timeS : α
  valid : Bool

/-- `TrajectorySample` -/
structure TrajectorySample (α : Type) where
  position : Vec α
  velocity : Vec α
  acceleration : Vec α

/-- A sample that does not move. -/
def TrajectorySample.still {α : Type} [Scalar α] (position : Vec α) : TrajectorySample α :=
  ⟨position, Vec.zero, Vec.zero⟩

/-! ### Members -/

structure TrajectoryNode (α : Type) where
  config : TrajectoryConfig α
  startedNs : ℤ
  trackingStarted : Bool := false
  initialPosition : Option (Vec α) := none
  initialQuaternion : Option (Quat α) := none
  latestPosition : Option (Vec α) := none
  latestMapYaw : Option α := none
  latestQuaternion : Option (Quat α) := none
  latestAngularVelocity : Option (Vec α) := none
  motionStartPosition : Option (Vec α) := none
  motionStartQuaternion : Option (Quat α) := none
  altitudeHoldZ : Option α := none
  altitudeHeaveActive : Bool := false
  stationTargetPosition : Option (Vec α) := none
  stationTargetQuaternion : Option (Quat α) := none
  stationPlanarActive : Bool := false
  stationHeaveActive : Bool := false
  stationYawActive : Bool := false
  operatorTargetInput : Option (OperatorInput α) := none
  operatorTargetInputNs : Option ℤ := none
  manualCommand : Option (ManualCommand α) := none
  manualCommandNs : Option ℤ := none
  envelopeChecked : Bool := false
  envelopeValid : Bool := false
  envelopeRejectionReason : String := ""

end RobotCore
