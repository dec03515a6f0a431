import RobotCore.Lib.Scalar
import RobotCore.Pid.Mix

/-!
# The attitude and the rate in `control_math`

The quaternion functions of `control_math` and `timestamped_rate_prediction`, with the exceptions
they raise.  The order in which `numpy` adds the elements of an array is its own.
-/

namespace RobotCore.ControlMath

open Scalar

variable {α : Type} [Scalar α]

/-! ### Quaternions -/

def normalizeQuaternion (quaternion : Quat α) : Except ValueError (Quat α) :=
  if !quaternion.allFinite then .error ⟨"expected 4 finite values"⟩
  else if le quaternion.norm (ofRat (1 / 10 ^ 9)) then .error ⟨"quaternion norm is zero"⟩
  else .ok (quaternion.divide quaternion.norm)

def rpyToQuaternion (rpy : Vec α) : Except ValueError (Quat α) :=
  let half (a : α) := a * ofRat (1 / 2)
  let cr := cos (half rpy.x)
  let sr := sin (half rpy.x)
  let cp := cos (half rpy.y)
  let sp := sin (half rpy.y)
  let cy := cos (half rpy.z)
  let sy := sin (half rpy.z)
  normalizeQuaternion
    { w := cr * cp * cy + sr * sp * sy
      x := sr * cp * cy - cr * sp * sy
      y := cr * sp * cy + sr * cp * sy
      z := cr * cp * sy - sr * sp * cy }

def quaternionToRpy (quaternion : Quat α) : Except ValueError (Vec α) := do
  let q ← normalizeQuaternion quaternion
  return {
    x := atan2 (ofRat 2 * (q.w * q.x + q.y * q.z)) (ofRat 1 - ofRat 2 * (q.x * q.x + q.y * q.y))
    y := asin (clip (ofRat 2 * (q.w * q.y - q.z * q.x)) (ofRat (-1)) (ofRat 1))
    z := atan2 (ofRat 2 * (q.w * q.z + q.x * q.y)) (ofRat 1 - ofRat 2 * (q.y * q.y + q.z * q.z)) }

def attitudeWithHeading (tiltQuaternion headingQuaternion : Quat α) :
    Except ValueError (Quat α) := do
  let tiltRpy ← quaternionToRpy tiltQuaternion
  let headingRpy ← quaternionToRpy headingQuaternion
  rpyToQuaternion ⟨tiltRpy.x, tiltRpy.y, headingRpy.z⟩

def quaternionSlerp (current target : Quat α) (weight : α) : Except ValueError (Quat α) := do
  let start ← normalizeQuaternion current
  let finish ← normalizeQuaternion target
  let amount := clip weight (ofRat 0) (ofRat 1)
  let dot := start.dot finish
  let (finish, dot) := if lt dot (ofRat 0) then (finish.map (-·), -dot) else (finish, dot)
  let dot := clip dot (ofRat (-1)) (ofRat 1)
  if lt (ofRat (9995 / 10000)) dot then
    normalizeQuaternion (start.add ((finish.add (start.map (-·))).scale amount))
  else
    let angle := acos dot
    let sine := sin angle
    normalizeQuaternion
      ((start.scale (sin ((ofRat 1 - amount) * angle) / sine)).add
        (finish.scale (sin (amount * angle) / sine)))

/-! ### The prediction of the rate -/

/-- `numpy.sum`, the sum over the first axis for one column, and `numpy.dot`. -/
structure Numpy (α : Type) where
  sum : List α → α
  columnSum : List α → α
  dot : List α → List α → α

/-- What `timestamped_rate_prediction` raises. -/
inductive PredictionError where
  /-- a timestamp that is no `int64` -/
  | overflowError
  | valueError (text : String)
  deriving DecidableEq

def fitsInt64 (t : ℤ) : Bool := -2 ^ 63 ≤ t && t < 2 ^ 63

/-- The difference of two elements of type `int64`. -/
def int64Sub (a b : ℤ) : ℤ := (a - b).bmod (2 ^ 64)

/-- `not np.any(np.diff(times) <= 0)` -/
def strictlyIncreasing (times : List ℤ) : Bool :=
  (times.zip times.tail).all fun pair => 0 < int64Sub pair.2 pair.1

/-- `math.isfinite(value) and value >= 0.0` -/
def isLimit (value : α) : Bool := isFinite value && le (ofRat 0) value

section Prediction

variable (numpy : Numpy α)

/-- One axis of the prediction, from the relative times and the samples. -/
def predictedAxis (relativeTime rates : List α) (latest horizon accelerationLimit
    correctionLimit denominator : α) : α :=
  let meanTime := numpy.sum relativeTime / ofRat relativeTime.length
  let meanRate := numpy.columnSum rates / ofRat rates.length
  let slope := numpy.columnSum
    (List.zipWith (fun time rate => (time - meanTime) * (rate - meanRate)) relativeTime rates) /
      denominator
  let slope := clip slope (-accelerationLimit) accelerationLimit
  let fittedLatest := meanRate - slope * meanTime
  let predicted := fittedLatest + slope * horizon
  latest + clip (predicted - latest) (-correctionLimit) correctionLimit

/-- The prediction of checked samples, from the newest one. -/
def predictedRate (times : List ℤ) (rates : List (Vec α)) (latest : Vec α)
    (horizon accelerationLimit correctionLimit : α) : Vec α :=
  if times.length < 3 || le horizon (ofRat 0) || le accelerationLimit (ofRat 0) ||
      le correctionLimit (ofRat 0) then
    latest
  else
    let relativeTime : List α :=
      times.map fun t => ofRat (int64Sub t (times.getLastD 0)) * ofRat (1 / 10 ^ 9)
    let centeredTime := relativeTime.map
      (· - numpy.sum relativeTime / ofRat relativeTime.length)
    let denominator := numpy.dot centeredTime centeredTime
    if le denominator (ofRat (1 / 10 ^ 12)) then latest
    else
      let axis (a : Vec.Axis) := predictedAxis numpy relativeTime (rates.map (·.component a))
        (latest.component a) horizon accelerationLimit correctionLimit denominator
      ⟨axis .x, axis .y, axis .z⟩

def timestampedRatePrediction (sampleTimesNs : List ℤ) (rateSamples : List (Vec α))
    (predictionHorizonS accelerationLimitRps2 correctionLimitRps : α) :
    Except PredictionError (Vec α) :=
  if !sampleTimesNs.all fitsInt64 then .error .overflowError
  else
    match rateSamples.getLast? with
    | none => .error (.valueError "timestamped rates must be a non-empty sequence of three-vectors")
    | some latest =>
      if rateSamples.length ≠ sampleTimesNs.length || !rateSamples.all Vec.allFinite then
        .error (.valueError "timestamped rates must be a non-empty sequence of three-vectors")
      else if !strictlyIncreasing sampleTimesNs then
        .error (.valueError "rate sample timestamps must be strictly increasing")
      else if !(isLimit predictionHorizonS && isLimit accelerationLimitRps2 &&
          isLimit correctionLimitRps) then
        .error (.valueError "rate prediction limits must be finite and non-negative")
      else
        .ok (predictedRate numpy sampleTimesNs rateSamples latest predictionHorizonS
          accelerationLimitRps2 correctionLimitRps)

end Prediction

end RobotCore.ControlMath
