import RobotCore.Trajectory.Attitude

/-!
# The envelope of a scenario

`validate_scenario_envelope`: the checks of a hold, and the samples of an approach and of one lap of
a path.  An error carries the text of `envelope_rejection_reason`.
-/

namespace RobotCore

open Scalar

variable {α : Type} [Scalar α]

/-- Corners of a box, each component of the first below that of the second. -/
def box? (lower upper : List α) : Option (Vec α × Vec α) :=
  match Vec.ofList? lower, Vec.ofList? upper with
  | some lower, some upper => if lower.all₂ upper lt then some (lower, upper) else none
  | _, _ => none

def TrajectoryConfig.poolBox? (config : TrajectoryConfig α) : Option (Vec α × Vec α) :=
  box? config.poolMinXyz config.poolMaxXyz

structure EnvelopeLimits (α : Type) where
  minimum : Vec α
  maximum : Vec α
  maximumLinearSpeed : α
  maximumAngularSpeed : α
  attitudeMin : Vec α
  attitudeMax : Vec α

/-- The limits that a scenario is checked against, when they are configured. -/
def TrajectoryConfig.envelopeLimits? (config : TrajectoryConfig α) : Option (EnvelopeLimits α) := do
  let (minimum, maximum) ← config.poolBox?
  let (attitudeMin, attitudeMax) ← box? (config.attitudeMinRpyDeg.map radians)
    (config.attitudeMaxRpyDeg.map radians)
  if !config.trajectoryLimitsConfigured || le config.maxLinearSpeedMps (ofRat 0) ||
      le config.maxAngularSpeedRps (ofRat 0) then none
  else
    some
      { minimum, maximum, attitudeMin, attitudeMax
        maximumLinearSpeed := config.maxLinearSpeedMps
        maximumAngularSpeed := config.maxAngularSpeedRps }

namespace EnvelopeLimits

variable (limits : EnvelopeLimits α)

def contains (point : Vec α) : Bool := point.inBox limits.minimum limits.maximum

def excludes (point : Vec α) : Bool := point.outside limits.minimum limits.maximum

/-- The roll or the pitch is beyond the limits. -/
def excludesTilt (rpy : Vec α) : Bool :=
  lt rpy.x limits.attitudeMin.x || lt rpy.y limits.attitudeMin.y ||
    lt limits.attitudeMax.x rpy.x || lt limits.attitudeMax.y rpy.y

/-- The check of a sampled instant. -/
def excludesSample (sample : TrajectorySample α) (angularVelocity rpy : Vec α)
    (allAxes : Bool) : Bool :=
  limits.excludes sample.position ||
    lt limits.maximumLinearSpeed sample.velocity.norm ||
    lt limits.maximumAngularSpeed angularVelocity.norm ||
    (if allAxes then rpy.outside limits.attitudeMin limits.attitudeMax
      else limits.excludesTilt rpy)

end EnvelopeLimits

/-- `1e-9` -/
def smallNorm : α := ofRat (1 / 10 ^ 9)

section Validate

variable (node : TrajectoryNode α) (limits : EnvelopeLimits α)

/-- The envelope of a station hold. -/
def TrajectoryNode.stationEnvelope (controlMode : String) : Bool :=
  match node.motionStartPosition, node.motionStartQuaternion with
  | some point, some quaternion =>
    let target :=
      if controlMode == "station_hold" then { point with z := node.config.centerZ } else point
    point.allFinite && target.allFinite && quaternion.allFinite && lt smallNorm quaternion.norm &&
      limits.contains point && limits.contains target
  | _, _ => false

/-- The envelope of an altitude hold. -/
def TrajectoryNode.altitudeEnvelope : Except String Unit :=
  match node.motionStartPosition, node.motionStartQuaternion, node.latestAngularVelocity with
  | some point, some quaternion, some angularVelocity =>
    let target := { point with z := node.config.centerZ }
    if !point.allFinite || !target.allFinite || !quaternion.allFinite ||
        !angularVelocity.allFinite || le quaternion.norm smallNorm then
      .error "altitude hold requires a finite current pose, attitude, and angular rate"
    else if limits.excludes point || limits.excludes target then
      .error "altitude hold start or configured height is outside pool bounds"
    else if limits.excludesTilt (quaternionToRpy quaternion) then
      .error "altitude hold start roll/pitch exceeds configured limits"
    else if lt limits.maximumAngularSpeed angularVelocity.norm then
      .error "altitude hold start angular rate exceeds configured limit"
    else if lt limits.maximumLinearSpeed (abs node.config.manualVerticalSpeedMps) then
      .error "altitude hold manual vertical speed exceeds configured limit"
    else .ok ()
  | _, _, _ => .error "altitude hold requires a finite current pose, attitude, and angular rate"

/-- `prelude_duration` and `move_duration` of the approach. -/
def TrajectoryNode.preludeExcluded (preludeTimeS : α) : Bool :=
  let moveDuration := node.config.moveS
  let turnTimeS := pyMax (ofRat 0) (preludeTimeS - moveDuration)
  limits.excludesSample (node.sampleApproach (clip preludeTimeS (ofRat 0) moveDuration))
    (angularVelocityAt node.approachAttitude turnTimeS node.config.attitudeStep)
    (quaternionToRpy (node.approachAttitude turnTimeS)) false

/-- The envelope of the approach of an automatic path. -/
def TrajectoryNode.preludeEnvelope : Except String Unit :=
  let preludeDuration := node.config.holdS
  if lt (preludeDuration - node.config.moveS) (ofRat (1 / 10)) then
    .error ("automatic trajectory prelude must include at least 0.1 s " ++
      "for heading alignment after the start approach")
  else if (linspace preludeDuration 200).any (node.preludeExcluded limits) then
    .error "automatic trajectory start approach exceeds configured limits"
  else .ok ()

/-- `path_duration` -/
def TrajectoryConfig.pathDuration (config : TrajectoryConfig α) (trajectoryType : String) : α :=
  let speed := pyMax smallDistance (pathSpeed config)
  if trajectoryType == "spatial_lissajous" then lissajousLapLength config / speed
  else if trajectoryType == "circle" then twoPi * circleRadius config / speed
  else if trajectoryType == "racetrack" then racetrackLapLength config / speed
  else twoPi * halfLength config / speed

def TrajectoryNode.pathExcluded (trajectoryType : String) (timeS : α) : Bool :=
  limits.excludesSample (node.samplePath trajectoryType timeS)
    (angularVelocityAt (node.pathAttitude trajectoryType) timeS node.config.attitudeStep)
    (quaternionToRpy (node.pathAttitude trajectoryType timeS)) (!isAutomatic trajectoryType)

/-- The envelope of one lap. -/
def TrajectoryNode.pathEnvelope (trajectoryType : String) : Bool :=
  let duration := pyMax (node.config.pathDuration trajectoryType + rampS node.config)
    (node.config.moveDurationS + ofRat 1)
  !(linspace duration 360).any (node.pathExcluded limits trajectoryType)

/-- Without a reason. -/
def envelopeResult (valid : Bool) : Except String Unit := if valid then .ok () else .error ""

def TrajectoryNode.validateScenarioEnvelope : Except String Unit :=
  let trajectoryType := node.config.activeType
  let controlMode := node.config.activeMode
  if isManaged trajectoryType && node.motionStartPosition.isNone then .error ""
  else if node.motionStartPosition.isNone && node.initialPosition.isNone &&
      node.config.relativeToInitialPose then .error ""
  else
    match node.config.envelopeLimits? with
    | none => .error ""
    | some limits =>
      if trajectoryType == "hold" && isStation controlMode then
        envelopeResult (node.stationEnvelope limits controlMode)
      else if trajectoryType == "hold" && controlMode == "altitude_hold" then
        node.altitudeEnvelope limits
      else do
        if isAutomatic trajectoryType then node.preludeEnvelope limits
        envelopeResult (node.pathEnvelope limits trajectoryType)

end Validate

end RobotCore
