import Mathlib.Data.List.FinRange
import RobotCore.Policy.State

/-!
# The policy node in C++

`build_frame`, `pack_observation` and `tick` of `T60PolicyNode`.  An array is the list of its
elements, written at their offsets.
-/

namespace RobotCore

open Scalar

/-- `ObservationFrame` -/
structure ObservationFrame (α : Type) where
  current : List α
  history : List α
  angularVelocityError : Vec α

/-- `T60PolicyNode`, with its frames newest first. -/
structure T60PolicyNode (α : Type) where
  history : List (List α) := []

namespace T60PolicyNode

variable {α : Type} [Scalar α]

/-- `kObservationScale` -/
def observationScale : List α :=
  [1 / 4, 1 / 4, 1 / 4, 2 / 5, 2 / 5, 2 / 5, 1 / 5, 1 / 5, 1 / 5, 1, 1, 1, 1, 4 / 5, 4 / 5, 4 / 5,
    4 / 5, 4 / 5, 4 / 5, 9 / 20, 9 / 20, 9 / 20, 1, 1, 1, 1, 1, 1, 1, 1].map ofRat

/-- `kHistoryScale` -/
def historyScale : List α :=
  [1 / 4, 1 / 4, 1 / 4, 1 / 5, 1 / 5, 1 / 5, 1, 1, 1, 1, 4 / 5, 4 / 5, 4 / 5, 1, 1, 1, 1, 1, 1, 1,
    1].map ofRat

/-- `kHistoryFrames` -/
def historyFrames : ℕ := 8

/-- `kHistoryFrameSize` -/
def historyFrameSize : ℕ := 21

/-- `kCurrentSize` -/
def currentSize : ℕ := 30

/-! ### Quaternions -/

/-- `std::clamp` -/
def clamp (value lower upper : α) : α :=
  if lt value lower then lower else if lt upper value then upper else value

def normalized (value : Quat α) : Except String (Quat α) :=
  let norm := value.norm
  if !isFinite norm || lt norm (ofRat (1 / 10 ^ 9)) then .error "zero or non-finite quaternion"
  else .ok (value.divide norm)

def conjugate (value : Quat α) : Quat α := ⟨value.w, -value.x, -value.y, -value.z⟩

def multiply (left right : Quat α) : Quat α where
  w := left.w * right.w - left.x * right.x - left.y * right.y - left.z * right.z
  x := left.w * right.x + left.x * right.w + left.y * right.z - left.z * right.y
  y := left.w * right.y - left.x * right.z + left.y * right.w + left.z * right.x
  z := left.w * right.z + left.x * right.y - left.y * right.x + left.z * right.w

def quaternionToRpy (value : Quat α) : Vec α where
  x := atan2 (ofRat 2 * (value.w * value.x + value.y * value.z))
    (ofRat 1 - ofRat 2 * (value.x * value.x + value.y * value.y))
  y := asin (clamp (ofRat 2 * (value.w * value.y - value.z * value.x)) (ofRat (-1)) (ofRat 1))
  z := atan2 (ofRat 2 * (value.w * value.z + value.x * value.y))
    (ofRat 1 - ofRat 2 * (value.y * value.y + value.z * value.z))

def quaternionFromRpy (value : Vec α) : Except String (Quat α) :=
  let cr := cos (ofRat (1 / 2) * value.x)
  let sr := sin (ofRat (1 / 2) * value.x)
  let cp := cos (ofRat (1 / 2) * value.y)
  let sp := sin (ofRat (1 / 2) * value.y)
  let cy := cos (ofRat (1 / 2) * value.z)
  let sy := sin (ofRat (1 / 2) * value.z)
  normalized
    { w := cr * cp * cy + sr * sp * sy
      x := sr * cp * cy - cr * sp * sy
      y := cr * sp * cy + sr * cp * sy
      z := cr * cp * sy - sr * sp * cy }

def rotate (quaternion : Quat α) (vector : Vec α) : Vec α :=
  let xyz : Vec α := ⟨quaternion.x, quaternion.y, quaternion.z⟩
  let twiceCross := (xyz.cross vector).scale (ofRat 2)
  vector + twiceCross.scale quaternion.w + xyz.cross twiceCross

/-! ### Frames -/

/-- `write_vec` -/
def writeVec (output : List α) (offset : ℕ) (value : Vec α) : List α :=
  ((output.set offset value.x).set (offset + 1) value.y).set (offset + 2) value.z

/-- Four elements from `offset` on. -/
def writeQuat (output : List α) (offset : ℕ) (value : Quat α) : List α :=
  (((output.set offset value.w).set (offset + 1) value.x).set (offset + 2) value.y).set (offset + 3)
    value.z

/-- The elements of the command from `offset` on. -/
def writeCommand (output : List α) (offset : ℕ) (command : Fin 8 → α) : List α :=
  (List.finRange 8).foldl
    (fun output (channel : Fin 8) => output.set (offset + channel.val) (command channel)) output

/-- The vectors of a frame. -/
structure FrameVectors (α : Type) where
  positionError : Vec α
  targetVelocity : Vec α
  velocityError : Vec α
  attitudeError : Quat α
  measuredRate : Vec α
  targetRate : Vec α
  targetAcceleration : Vec α
  rateError : Vec α

/-- `frame.current` before its scale divides it. -/
def writeCurrent (vectors : FrameVectors α) (command : Fin 8 → α) : List α :=
  let current := List.replicate currentSize (ofRat 0)
  let current := writeVec current 0 vectors.positionError
  let current := writeVec current 3 vectors.targetVelocity
  let current := writeVec current 6 vectors.velocityError
  let current := writeQuat current 9 vectors.attitudeError
  let current := writeVec current 13 vectors.measuredRate
  let current := writeVec current 16 vectors.targetRate
  let current := writeVec current 19 vectors.targetAcceleration
  writeCommand current 22 command

/-- `frame.history` before its scale divides it. -/
def writeHistory (vectors : FrameVectors α) (command : Fin 8 → α) : List α :=
  let history := List.replicate historyFrameSize (ofRat 0)
  let history := writeVec history 0 vectors.positionError
  let history := writeVec history 3 vectors.velocityError
  let history := writeQuat history 6 vectors.attitudeError
  let history := writeVec history 10 vectors.rateError
  writeCommand history 13 command

/-- The quaternion with the sign that makes its scalar part non-negative. -/
def withSign (attitudeError : Quat α) : Quat α :=
  if lt attitudeError.w (ofRat 0) then attitudeError.map (-·) else attitudeError

/-- The vectors of a frame, seen from a body with the attitude `measured`. -/
def frameVectors (inputs : PolicyInputs α) (measured target : Quat α) :
    Except String (FrameVectors α) := do
  let toBody := conjugate measured
  let targetVelocity := rotate toBody inputs.target.linearVelocity
  let attitudeError ← normalized (multiply toBody target)
  let targetRate := rotate toBody inputs.target.angularVelocity
  return {
    positionError := rotate toBody (inputs.target.position - inputs.body.position)
    targetVelocity
    velocityError := targetVelocity - inputs.body.linearVelocity
    attitudeError := withSign attitudeError
    measuredRate := inputs.imu.angularVelocity
    targetRate
    targetAcceleration := rotate toBody inputs.target.linearAcceleration
    rateError := targetRate - inputs.imu.angularVelocity }

def buildFrame (inputs : PolicyInputs α) : Except String (ObservationFrame α) := do
  let localization ← normalized inputs.body.orientation
  let imu ← normalized inputs.imu.orientation
  let localizationRpy := quaternionToRpy localization
  let imuRpy := quaternionToRpy imu
  -- the roll and pitch of the IMU, with the absolute yaw of the localization
  let measured ← quaternionFromRpy ⟨imuRpy.x, imuRpy.y, localizationRpy.z⟩
  let target ← normalized inputs.target.orientation
  let vectors ← frameVectors inputs measured target
  return {
    current := List.zipWith (· / ·) (writeCurrent vectors inputs.command) observationScale
    history := List.zipWith (· / ·) (writeHistory vectors inputs.command) historyScale
    angularVelocityError := vectors.rateError }

/-- `pack_observation` -/
def packObservation (node : T60PolicyNode α) (current : List α) : List α :=
  current ++ (List.range historyFrames).flatMap fun frame =>
    (node.history[frame]?).getD (List.replicate historyFrameSize (ofRat 0))

/-! ### The timer -/

/-- `history_.push_front` -/
def pushFront (node : T60PolicyNode α) (frame : List α) : T60PolicyNode α :=
  let history := frame :: node.history
  { node with history := if historyFrames < history.length then history.dropLast else history }

/-- The tick of inputs none of which is missing. -/
def infer (node : T60PolicyNode α) (inputs : PolicyInputs α) (inference : Except String Unit) :
    T60PolicyNode α × PolicyOutput α :=
  match buildFrame inputs with
  | .error text => ({ node with history := [] }, ⟨none, ["inference: " ++ text]⟩)
  | .ok frame =>
    let observation := node.packObservation frame.current
    match inference with
    | .error text => ({ node with history := [] }, ⟨some observation, ["inference: " ++ text]⟩)
    | .ok () => (node.pushFront frame.history, ⟨some observation, []⟩)

/-- `tick` -/
def tick (node : T60PolicyNode α) : PolicyTick α → T60PolicyNode α × PolicyOutput α
  | .missing names => ({ node with history := [] }, ⟨none, names⟩)
  | .ready inputs inference =>
    if inputs.missing.isEmpty then node.infer inputs inference
    else ({ node with history := [] }, ⟨none, inputs.missing⟩)

end T60PolicyNode

end RobotCore
