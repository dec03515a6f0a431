import Mathlib.Data.List.OfFn
import RobotCore.Policy.State

/-!
# The policy node in Python

`T60ObservationState`, with the exceptions it raises, and the way `BodyPolicyNode` and its runner
drive it.  A numerical array is the list of its elements.
-/

/-- The elements of a vector. -/
def Vec.toList {α : Type} (v : Vec α) : List α := [v.x, v.y, v.z]

/-- The elements of a quaternion. -/
def Quat.toList {α : Type} (q : Quat α) : List α := [q.w, q.x, q.y, q.z]

namespace RobotCore

open Scalar

/-- `T60ObservationState` -/
structure T60ObservationState (α : Type) where
  history : List (List α)
  pendingHistoryFrame : Option (List α)

namespace T60ObservationState

variable {α : Type} [Scalar α]

/-- `OBS_SCALE` -/
def obsScale : List α :=
  [1 / 4, 1 / 4, 1 / 4, 2 / 5, 2 / 5, 2 / 5, 1 / 5, 1 / 5, 1 / 5, 1, 1, 1, 1, 4 / 5, 4 / 5, 4 / 5,
    4 / 5, 4 / 5, 4 / 5, 9 / 20, 9 / 20, 9 / 20, 1, 1, 1, 1, 1, 1, 1, 1].map ofRat

/-- `HISTORY_SCALE` -/
def historyScale : List α :=
  [1 / 4, 1 / 4, 1 / 4, 1 / 5, 1 / 5, 1 / 5, 1, 1, 1, 1, 4 / 5, 4 / 5, 4 / 5, 1, 1, 1, 1, 1, 1, 1,
    1].map ofRat

def currentDim : ℕ := 30

def historyLength : ℕ := 8

def historySampleDim : ℕ := 21

def observationDim : ℕ := 198

/-- `__init__`, and what `reset` leaves -/
def initial : T60ObservationState α where
  history := List.replicate historyLength (List.replicate historySampleDim (ofRat 0))
  pendingHistoryFrame := none

/-! ### Checked arrays -/

/-- `if not condition: raise RuntimeError(text)` -/
def require (condition : Bool) (text : String) : Except String Unit :=
  if condition then .ok () else .error text

/-- The check of the shape of an array with one axis. -/
def requireShape (label : String) (array : List α) (dim : ℕ) : Except String Unit :=
  require (array.length == dim)
    (label ++ " has shape (" ++ toString array.length ++ ",), expected (" ++ toString dim ++ ",)")

/-- The check of `_vec3`, which returns the vector. -/
def requireVec3 (values : Vec α) (label : String) : Except String Unit :=
  require values.allFinite (label ++ " must contain three finite values")

/-- `_unit_quaternion` -/
def unitQuaternion (values : Quat α) (label : String) : Except String (Quat α) :=
  if values.allFinite then
    if lt values.norm (ofRat (1 / 10 ^ 6)) then .error (label ++ " quaternion norm is zero")
    else .ok (values.divide values.norm)
  else .error (label ++ " must be a finite wxyz quaternion")

/-! ### Quaternions -/

/-- `_quat_conjugate` -/
def quatConjugate (quaternion : Quat α) : Quat α where
  w := quaternion.w * ofRat 1
  x := quaternion.x * ofRat (-1)
  y := quaternion.y * ofRat (-1)
  z := quaternion.z * ofRat (-1)

/-- `_quat_multiply` -/
def quatMultiply (left right : Quat α) : Quat α where
  w := left.w * right.w - left.x * right.x - left.y * right.y - left.z * right.z
  x := left.w * right.x + left.x * right.w + left.y * right.z - left.z * right.y
  y := left.w * right.y - left.x * right.z + left.y * right.w + left.z * right.x
  z := left.w * right.z + left.x * right.y - left.y * right.x + left.z * right.w

/-- `_quat_unique` -/
def quatUnique (quaternion : Quat α) : Quat α :=
  if lt quaternion.w (ofRat 0) then quaternion.map (-·) else quaternion

/-- `_quat_apply` -/
def quatApply (quaternion : Quat α) (vector : Vec α) : Vec α :=
  let xyz : Vec α := ⟨quaternion.x, quaternion.y, quaternion.z⟩
  let cross := (xyz.cross vector).scale (ofRat 2)
  vector + cross.scale quaternion.w + xyz.cross cross

/-- `_quaternion_to_rpy` -/
def quaternionToRpy (quaternion : Quat α) : Vec α :=
  let ⟨w, x, y, z⟩ := quaternion
  { x := atan2 (ofRat 2 * (w * x + y * z)) (ofRat 1 - ofRat 2 * (x * x + y * y))
    y := asin (clip (ofRat 2 * (w * y - z * x)) (ofRat (-1)) (ofRat 1))
    z := atan2 (ofRat 2 * (w * z + x * y)) (ofRat 1 - ofRat 2 * (y * y + z * z)) }

/-- `_rpy_quaternion` -/
def rpyQuaternion (rpy : Vec α) : Quat α :=
  let cr := cos (rpy.x * ofRat (1 / 2))
  let sr := sin (rpy.x * ofRat (1 / 2))
  let cp := cos (rpy.y * ofRat (1 / 2))
  let sp := sin (rpy.y * ofRat (1 / 2))
  let cy := cos (rpy.z * ofRat (1 / 2))
  let sy := sin (rpy.z * ofRat (1 / 2))
  let quaternion : Quat α :=
    { w := cr * cp * cy + sr * sp * sy
      x := sr * cp * cy - cr * sp * sy
      y := cr * sp * cy + sr * cp * sy
      z := cr * cp * sy - sr * sp * cy }
  quaternion.divide quaternion.norm

/-! ### Frames -/

/-- `raw_obs30` and `raw_history_frame`, seen from a body with the attitude `measured`. -/
def rawFrames (observation : PolicyInputs α) (measured target : Quat α) : List α × List α :=
  let toBody := quatConjugate measured
  let positionError := quatApply toBody (observation.target.position - observation.body.position)
  let targetVelocity := quatApply toBody observation.target.linearVelocity
  let velocityError := targetVelocity - observation.body.linearVelocity
  let attitudeError := quatUnique (quatMultiply toBody target)
  let measuredRate := observation.imu.angularVelocity
  let targetRate := quatApply toBody observation.target.angularVelocity
  let rateError := targetRate - measuredRate
  let targetAcceleration := quatApply toBody observation.target.linearAcceleration
  let previousCommand := List.ofFn observation.command
  (positionError.toList ++ targetVelocity.toList ++ velocityError.toList ++
      attitudeError.toList ++ measuredRate.toList ++ targetRate.toList ++
      targetAcceleration.toList ++ previousCommand,
    positionError.toList ++ velocityError.toList ++ attitudeError.toList ++ rateError.toList ++
      previousCommand)

/-- `_build_frames` -/
def buildFrames (observation : PolicyInputs α) : Except String (List α × List α) := do
  require observation.target.valid "t60 observation requires a valid trajectory target"
  requireVec3 observation.body.position "body position"
  let localization ← unitQuaternion observation.body.orientation "body orientation"
  let imu ← unitQuaternion observation.imu.orientation "external IMU orientation"
  let localizationRpy := quaternionToRpy localization
  let imuRpy := quaternionToRpy imu
  let measured := rpyQuaternion ⟨imuRpy.x, imuRpy.y, localizationRpy.z⟩
  requireVec3 observation.body.linearVelocity "body linear velocity"
  requireVec3 observation.imu.angularVelocity "external IMU angular velocity"
  requireVec3 observation.target.position "target position"
  let target ← unitQuaternion observation.target.orientation "target orientation"
  requireVec3 observation.target.linearVelocity "target linear velocity"
  requireVec3 observation.target.angularVelocity "target angular velocity"
  requireVec3 observation.target.linearAcceleration "target linear acceleration"
  let (rawObs30, rawHistoryFrame) := rawFrames observation measured target
  requireShape "t60 current observation" rawObs30 currentDim
  requireShape "t60 history frame" rawHistoryFrame historySampleDim
  return (List.zipWith (· / ·) rawObs30 obsScale,
    List.zipWith (· / ·) rawHistoryFrame historyScale)

/-- `build`: the observation, and the state that waits for its commit. -/
def build (state : T60ObservationState α) (observation : PolicyInputs α) :
    Except String (List α × T60ObservationState α) := do
  let (obs30, historyFrame) ← buildFrames observation
  let policyInput := obs30 ++ state.history.flatten
  requireShape "t60 observation" policyInput observationDim
  require (policyInput.all isFinite) "t60 observation contains a non-finite value"
  return (policyInput, { state with pendingHistoryFrame := some historyFrame })

def commit (state : T60ObservationState α) : Except String (T60ObservationState α) :=
  match state.pendingHistoryFrame with
  | none => .error "cannot commit t60 history before building an observation"
  | some frame => .ok { history := frame :: state.history.dropLast, pendingHistoryFrame := none }

end T60ObservationState

/-! ### The node -/

/-- `BodyPolicyNode` with a runner. -/
structure BodyPolicyNode (α : Type) where
  observationState : T60ObservationState α
  lastInputReady : Bool := false

namespace BodyPolicyNode

variable {α : Type} [Scalar α]

/-- The runner is reset once when its inputs stop being ready. -/
def notReady (node : BodyPolicyNode α) : BodyPolicyNode α where
  observationState := if node.lastInputReady then .initial else node.observationState
  lastInputReady := false

/-- `run` of the runner, the reset after an exception included. -/
def run (node : BodyPolicyNode α) (inputs : PolicyInputs α) (inference : Except String Unit) :
    BodyPolicyNode α × PolicyOutput α :=
  match node.observationState.build inputs with
  | .error text => (⟨.initial, false⟩, ⟨none, ["inference: " ++ text]⟩)
  | .ok (observation, state) =>
    match inference.bind fun _ => state.commit with
    | .error text => (⟨.initial, false⟩, ⟨some observation, ["inference: " ++ text]⟩)
    | .ok state => (⟨state, true⟩, ⟨some observation, []⟩)

/-- `tick` -/
def tick (node : BodyPolicyNode α) : PolicyTick α → BodyPolicyNode α × PolicyOutput α
  | .missing names => (node.notReady, ⟨none, names⟩)
  | .ready inputs inference =>
    if inputs.missing.isEmpty then node.run inputs inference
    else (node.notReady, ⟨none, inputs.missing⟩)

end BodyPolicyNode

end RobotCore
