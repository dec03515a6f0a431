import RobotCore.Lib.Scalar.Ieee
import RobotCore.Pid.ControlMath
import RobotCore.Pid.Imu

/-!
# The IMU of the PID node

All of `on_imu` with the filters of the rate and the attitude, and what else writes the members it
keeps: `on_body` and the change of the selected source.  An exception leaves the callback where it
is raised.
-/

namespace RobotCore

open Ieee Machine

/-- `header.stamp` -/
structure ImuStamp where
  sec : Int32
  nanosec : UInt32

def ImuStamp.ns (stamp : ImuStamp) : ℤ := stamp.sec.toInt * 1000000000 + stamp.nanosec.toNat

/-- `Imu` as `on_imu` reads it. -/
structure SensorImu where
  stamp : ImuStamp
  frameId : String
  orientationCovariance : Binary64
  orientation : Quat Binary64
  angularVelocity : Vec Binary64

/-- The message as the rate filter sees it. -/
def SensorImu.toImuMessage (message : SensorImu) : ImuMessage where
  frameId := message.frameId
  orientationCovariance := message.orientationCovariance
  orientation := message.orientation
  angularVelocity := message.angularVelocity
  stampNs := message.stamp.ns

/-- `BodyState` as `on_imu` reads it. -/
structure BodyHeading where
  stateValid : Bool
  positionEstimated : Bool
  orientation : Quat Binary64

/-- What the node takes of `math` and `numpy`. -/
structure ImuMath where
  library : MathLibrary binary64
  expm1 : Binary64 → Binary64
  numpy : ControlMath.Numpy Binary64

/-- The settings of the estimator, as `load_configuration` checks them. -/
structure ImuFilterConfig extends ImuRateConfig where
  predictionHorizonS : Binary64
  predictionAccelLimitRps2 : Binary64
  predictionDeltaLimitRps : Binary64
  rateFilterTimeConstantS : Binary64
  orientationFilterTimeConstantS : Binary64
  predictionHorizonS_ok : (predictionHorizonS.isFinite && Number.le 0 predictionHorizonS) = true
  predictionAccelLimitRps2_ok :
    (predictionAccelLimitRps2.isFinite && Number.le 0 predictionAccelLimitRps2) = true
  predictionDeltaLimitRps_ok :
    (predictionDeltaLimitRps.isFinite && Number.le 0 predictionDeltaLimitRps) = true
  rateFilterTimeConstantS_ok :
    (rateFilterTimeConstantS.isFinite && Number.le 0 rateFilterTimeConstantS) = true
  orientationFilterTimeConstantS_ok :
    (orientationFilterTimeConstantS.isFinite && Number.le 0 orientationFilterTimeConstantS) = true

structure ImuFilterNode where
  pidSelected : Bool := false
  body : Option BodyHeading := none
  /-- `imu_angular_velocity`, `imu_orientation` and `imu_ns` -/
  angularVelocity : Option (Vec Binary64) := none
  orientation : Option (Quat Binary64) := none
  imuNs : Option ℤ := none
  /-- `imu_angular_velocity_filtered`, `imu_orientation_filtered` and `imu_filter_ns` -/
  angularVelocityFiltered : Option (Vec Binary64) := none
  orientationFiltered : Option (Quat Binary64) := none
  filterNs : Option ℤ := none
  /-- `imu_rate_samples`, the newest last -/
  rateSamples : List (ℤ × Vec Binary64) := []

/-- Where an exception leaves `on_imu`. -/
inductive OnImuError where
  | normalizeQuaternion (e : ValueError)
  | rejectVectorOutlier (e : ValueError)
  | timestampedRatePrediction (e : ControlMath.PredictionError)
  /-- the arithmetic with a filtered member that is `None` -/
  | typeError
  | quaternionSlerp (e : ValueError)

section Node

variable (math : ImuMath) (cfg : ImuFilterConfig)

/-- `1.0` without a time constant, else `-math.expm1(-dt / time_constant)` -/
def filterAlpha (dt timeConstantS : Binary64) : Binary64 :=
  if timeConstantS.le 0 then constant 1 else -math.expm1 ((-dt).divide timeConstantS)

/-- The attitude with the heading of the body; `none` where `on_imu` returns. -/
def attitudeOfBody (node : ImuFilterNode) (orientation : Quat Binary64) : Option (Quat Binary64) :=
  letI := scalar math.library
  match node.body with
  | none => none
  | some body =>
    if !(body.stateValid || body.positionEstimated) then none
    else
      (do
        let heading ← ControlMath.normalizeQuaternion body.orientation
        ControlMath.attitudeWithHeading orientation heading).toOption

/-- The first sample, and one that does not follow the last one within 0.2 s. -/
def startSegment (node : ImuFilterNode) (sampleNs : ℤ) (angularVelocity : Vec Binary64)
    (orientation : Quat Binary64) : ImuFilterNode :=
  { node with
    rateSamples := appendBounded cfg.historySamples [] (sampleNs, angularVelocity)
    angularVelocityFiltered := some angularVelocity
    orientationFiltered := some orientation }

/-- The samples once one more rate is accepted. -/
def acceptedSamples (node : ImuFilterNode) (sampleNs : ℤ) (acceptedRate : Vec Binary64) :
    List (ℤ × Vec Binary64) :=
  appendBounded cfg.historySamples node.rateSamples (sampleNs, acceptedRate)

/-- The next sample of a segment. -/
def continueSegment (node : ImuFilterNode) (sampleNs : ℤ) (dt : Binary64)
    (angularVelocity : Vec Binary64) (orientation : Quat Binary64) :
    Except OnImuError ImuFilterNode :=
  letI := scalar math.library
  do
    let acceptedRate ←
      (RobotCore.rejectVectorOutlier (node.rateSamples.map Prod.snd) angularVelocity
        cfg.outlierLimitRps).mapError .rejectVectorOutlier
    let samples := acceptedSamples cfg node sampleNs acceptedRate
    let predictedRate ←
      (ControlMath.timestampedRatePrediction math.numpy (samples.map Prod.fst)
        (samples.map Prod.snd) cfg.predictionHorizonS cfg.predictionAccelLimitRps2
        cfg.predictionDeltaLimitRps).mapError .timestampedRatePrediction
    match node.angularVelocityFiltered, node.orientationFiltered with
    | some rate, some current =>
      let rateAlpha := filterAlpha math dt cfg.rateFilterTimeConstantS
      let orientationAlpha := filterAlpha math dt cfg.orientationFilterTimeConstantS
      let filtered ←
        (ControlMath.quaternionSlerp current orientation orientationAlpha).mapError .quaternionSlerp
      return { node with
        rateSamples := samples
        angularVelocityFiltered := some (rate + (predictedRate - rate).scale rateAlpha)
        orientationFiltered := some filtered }
    | _, _ => throw .typeError

/-- The history and the filters with the sample of a message. -/
def updateFilters (node : ImuFilterNode) (message : SensorImu) (orientation : Quat Binary64) :
    Except OnImuError ImuFilterNode :=
  let sampleNs := message.stamp.ns
  match node.filterNs with
  | none => .ok (startSegment cfg node sampleNs message.angularVelocity orientation)
  | some filterNs =>
    if continuesSegment sampleNs (some filterNs) then
      continueSegment math cfg node sampleNs (imuElapsedS sampleNs filterNs)
        message.angularVelocity orientation
    else .ok (startSegment cfg node sampleNs message.angularVelocity orientation)

/-- `on_imu` after the checks of the message. -/
def filterImu (node : ImuFilterNode) (message : SensorImu) (orientation : Quat Binary64)
    (nowNs : ℤ) : Except OnImuError ImuFilterNode := do
  let updated ← updateFilters math cfg node message orientation
  return { updated with
    orientation := some orientation
    angularVelocity := some message.angularVelocity
    imuNs := some nowNs
    filterNs := some message.stamp.ns }

/-- `on_imu` -/
def ImuFilterNode.onImu (node : ImuFilterNode) (message : SensorImu) (nowNs : ℤ) :
    Except OnImuError ImuFilterNode :=
  letI := scalar math.library
  if !node.pidSelected || !message.toImuMessage.isUsable math.library.sqrt then .ok node
  else do
    let orientation ←
      (ControlMath.normalizeQuaternion message.orientation).mapError .normalizeQuaternion
    match attitudeOfBody math node orientation with
    | none => return node
    | some orientation => filterImu math cfg node message orientation nowNs

/-- `on_authority_status`: `_disconnect_pid_inputs` forgets the inputs. -/
def onFilterSelection (node : ImuFilterNode) (message : ControlAuthorityStatus) : ImuFilterNode :=
  let selected := (strip message.selectedSource).toLower == "pid"
  if selected == node.pidSelected then node
  else if selected then { node with pidSelected := true }
  else {}

inductive ImuFilterInput where
  | authorityStatus (message : ControlAuthorityStatus)
  | body (message : BodyHeading)
  | imu (message : SensorImu) (nowNs : ℤ)

/-- One callback.  After an exception the process ends, and there is no next state. -/
def imuFilterStep (node : ImuFilterNode) : ImuFilterInput → Option (ImuFilterNode × Unit)
  | .authorityStatus message => some (onFilterSelection node message, ())
  | .body message => some ({ node with body := some message }, ())
  | .imu message nowNs => (ImuFilterNode.onImu math cfg node message nowNs).toOption.map (·, ())

def imuFilterMachine : Machine ImuFilterNode ImuFilterInput Unit where
  init := {}
  step := imuFilterStep math cfg

end Node

end RobotCore
