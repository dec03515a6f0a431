import RobotCore.Trajectory.Kinematics

/-!
# Samples and attitudes

The quaternion functions of `TrajectoryCommandNode`, and the position and the attitude of a target
at a time since the start.
-/

namespace RobotCore

open Scalar

variable {α : Type} [Scalar α]

/-! ### Quaternions -/

def quaternionToRpy (q : Quat α) : Vec α where
  x := atan2 (ofRat 2 * (q.w * q.x + q.y * q.z)) (ofRat 1 - ofRat 2 * (q.x * q.x + q.y * q.y))
  y := asin (clip (ofRat 2 * (q.w * q.y - q.z * q.x)) (ofRat (-1)) (ofRat 1))
  z := atan2 (ofRat 2 * (q.w * q.z + q.x * q.y)) (ofRat 1 - ofRat 2 * (q.y * q.y + q.z * q.z))

def rpyQuaternion (roll pitch yaw : α) : Quat α :=
  let cr := cos (roll / ofRat 2)
  let sr := sin (roll / ofRat 2)
  let cp := cos (pitch / ofRat 2)
  let sp := sin (pitch / ofRat 2)
  let cy := cos (yaw / ofRat 2)
  let sy := sin (yaw / ofRat 2)
  { w := cr * cp * cy + sr * sp * sy
    x := sr * cp * cy - cr * sp * sy
    y := cr * sp * cy + sr * cp * sy
    z := cr * cp * sy - sr * sp * cy }

def levelHeadingQuaternion (q : Quat α) : Quat α :=
  rpyQuaternion (ofRat 0) (ofRat 0) (quaternionToRpy q).z

/-- `10 * tau**3 - 15 * tau**4 + 6 * tau**5` -/
def quinticBlend (tau : α) : α :=
  ofRat 10 * pow tau 3 - ofRat 15 * pow tau 4 + ofRat 6 * pow tau 5

def quaternionSlerp (start target : Quat α) (fraction : α) : Quat α :=
  let start := start.divide start.norm
  let target := target.divide target.norm
  let dot := start.dot target
  let (target, dot) := if lt dot (ofRat 0) then (target.map (-·), -dot) else (target, dot)
  let dot := clip dot (ofRat (-1)) (ofRat 1)
  let weight := clip fraction (ofRat 0) (ofRat 1)
  if lt (ofRat (9995 / 10000)) dot then
    let difference := target.add (start.map (-·))
    let result := start.add (difference.scale weight)
    result.divide result.norm
  else
    let angle := acos dot
    let sine := sin angle
    let result := (start.scale (sin ((ofRat 1 - weight) * angle) / sine)).add
      (target.scale (sin (weight * angle) / sine))
    result.divide result.norm

/-- The rows of `rotation_matrix`. -/
structure Rotation (α : Type) where
  row0 : Vec α
  row1 : Vec α
  row2 : Vec α

def rotationMatrix (q : Quat α) : Rotation α where
  row0 :=
    ⟨ofRat 1 - ofRat 2 * (q.y * q.y + q.z * q.z), ofRat 2 * (q.x * q.y - q.z * q.w),
      ofRat 2 * (q.x * q.z + q.y * q.w)⟩
  row1 :=
    ⟨ofRat 2 * (q.x * q.y + q.z * q.w), ofRat 1 - ofRat 2 * (q.x * q.x + q.z * q.z),
      ofRat 2 * (q.y * q.z - q.x * q.w)⟩
  row2 :=
    ⟨ofRat 2 * (q.x * q.z - q.y * q.w), ofRat 2 * (q.y * q.z + q.x * q.w),
      ofRat 1 - ofRat 2 * (q.x * q.x + q.y * q.y)⟩

/-- `rotation @ v` -/
def Rotation.apply (r : Rotation α) (v : Vec α) : Vec α :=
  ⟨r.row0.dot v, r.row1.dot v, r.row2.dot v⟩

/-- `(after - before) / (2 * step)` -/
def Rotation.difference (after before : Rotation α) (step : α) : Rotation α :=
  let rate (u v : Vec α) : Vec α := (u - v).map (· / (ofRat 2 * step))
  ⟨rate after.row0 before.row0, rate after.row1 before.row1, rate after.row2 before.row2⟩

/-! ### Positions -/

section Sample

variable (node : TrajectoryNode α)

/-- The center of the path. -/
def TrajectoryNode.origin : Vec α :=
  if node.config.relativeToInitialPose then
    ((node.motionStartPosition <|> node.initialPosition).getD node.config.center)
  else node.config.center

/-- `sample` of a configured type. -/
def TrajectoryNode.samplePath (trajectoryType : String) (timeS : α) : TrajectorySample α :=
  if isAutomatic trajectoryType then
    let path := trajectoryKinematics node.config trajectoryType timeS
    ⟨node.origin + path.offset, path.velocity, path.acceleration⟩
  else ⟨node.origin + Vec.zero, Vec.zero, Vec.zero⟩

/-- `start` of the approach -/
def TrajectoryNode.approachStart : Vec α :=
  (node.motionStartPosition <|> node.latestPosition).getD node.origin

/-- `goal` of the approach -/
def TrajectoryNode.approachGoal : Vec α :=
  (node.samplePath node.config.activeType (ofRat 0)).position

/-- `sample("move_to_trajectory_start", time_s)` -/
def TrajectoryNode.sampleApproach (timeS : α) : TrajectorySample α :=
  let start := node.approachStart
  let displacement := node.approachGoal - start
  let duration := node.config.moveS
  let tau := clip (timeS / duration) (ofRat 0) (ofRat 1)
  let blendRate := (ofRat 30 * pow tau 2 - ofRat 60 * pow tau 3 + ofRat 30 * pow tau 4) / duration
  let blendAcceleration :=
    (ofRat 60 * tau - ofRat 180 * pow tau 2 + ofRat 120 * pow tau 3) / pow duration 2
  { position := start + displacement.scale (quinticBlend tau)
    velocity := displacement.scale blendRate
    acceleration := displacement.scale blendAcceleration }

/-! ### Attitudes -/

/-- The first attitude of the node there is. -/
def TrajectoryNode.baseQuaternion : Quat α :=
  (node.motionStartQuaternion <|> node.latestQuaternion <|> node.initialQuaternion).getD
    Quat.identity

/-- `attitude_quaternion("move_to_trajectory_start", time_s)` -/
def TrajectoryNode.approachAttitude (timeS : α) : Quat α :=
  let duration := pyMax (ofRat (1 / 10))
    (node.config.holdBeforeMotionS - node.config.moveDurationS)
  let fraction := clip (timeS / duration) (ofRat 0) (ofRat 1)
  let startYaw := (trajectoryKinematics node.config node.config.activeType (ofRat 0)).yaw
  quaternionSlerp node.baseQuaternion (rpyQuaternion (ofRat 0) (ofRat 0) startYaw)
    (quinticBlend fraction)

/-- `attitude_quaternion` of a configured type. -/
def TrajectoryNode.pathAttitude (trajectoryType : String) (timeS : α) : Quat α :=
  if isAutomatic trajectoryType then
    rpyQuaternion (ofRat 0) (ofRat 0) (trajectoryKinematics node.config trajectoryType timeS).yaw
  else
    let mode := node.config.attitudeMode.toLower
    let base :=
      if mode == "hold_initial" then node.baseQuaternion
      else if node.config.relativeToInitialPose then node.initialQuaternion.getD Quat.identity
      else Quat.identity
    if mode == "fixed_identity" then Quat.identity else base

/-- `angular_velocity_at` of an attitude over time. -/
def angularVelocityAt (attitude : α → Quat α) (timeS step : α) : Vec α :=
  let before := rotationMatrix (attitude (pyMax (ofRat 0) (timeS - step)))
  let current := rotationMatrix (attitude timeS)
  let after := rotationMatrix (attitude (timeS + step))
  let dot := after.difference before step
  -- the entries of `rotation_dot @ rotation_current.T`
  ⟨dot.row2.dot current.row1, dot.row0.dot current.row2, dot.row1.dot current.row0⟩

/-- `step` -/
def TrajectoryConfig.attitudeStep (config : TrajectoryConfig α) : α :=
  ofRat 1 / pyMax (ofRat 20) config.publishRateHz

structure AttitudeSample (α : Type) where
  orientation : Quat α
  angularVelocity : Vec α
  angularAcceleration : Vec α

/-- `sample_attitude` of an attitude over time. -/
def sampleAttitude (config : TrajectoryConfig α) (attitude : α → Quat α) (timeS : α) :
    AttitudeSample α :=
  let step := config.attitudeStep
  let before := angularVelocityAt attitude (pyMax (ofRat 0) (timeS - step)) step
  let after := angularVelocityAt attitude (timeS + step) step
  { orientation := attitude timeS
    angularVelocity := angularVelocityAt attitude timeS step
    angularAcceleration := (after - before).map (· / (ofRat 2 * step)) }

end Sample

end RobotCore
