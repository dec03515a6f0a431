import RobotCore.Lib.Machine
import RobotCore.Lib.Scalar
import RobotCore.Pid.Mix
import RobotCore.Pid.Node

/-!
# The gyro of the PID node

`on_imu` as far as the angular rate: the checks of a message, the segments of samples and the spike
filter with its history of accepted rates.  The prediction, the low pass and the orientation read
the accepted rates and write nothing that is read here.
-/

namespace RobotCore

open Ieee Machine

/-! ### The spike filter -/

/-- `numpy.median` of three numbers. -/
def median (a b c : Binary64) : Binary64 :=
  if a.le b then if b.le c then b else if a.le c then c else a
  else if a.le c then a else if b.le c then c else b

/-- One axis of `np.where(np.abs(current - median) > limit, median, current)`. -/
def rejectOutlier (limit a b current : Binary64) : Binary64 :=
  if limit.lt (current - median a b current).abs then median a b current else current

/-- Every component is finite. -/
def finiteVec (v : Vec Binary64) : Bool := v.all Number.isFinite

/-- `reject_vector_outlier` -/
def rejectVectorOutlier (recentSamples : List (Vec Binary64)) (sample : Vec Binary64)
    (threshold : Binary64) : Except ValueError (Vec Binary64) :=
  if !finiteVec sample then .error ⟨"expected 3 finite values"⟩
  else if !threshold.isFinite || threshold.lt 0 then
    .error ⟨"outlier threshold must be finite and non-negative"⟩
  else
    -- the two newest samples are the last ones
    match recentSamples.reverse with
    | b :: a :: _ =>
      if threshold.le 0 then .ok sample
      else if !recentSamples.all finiteVec then
        .error ⟨"recent vector samples must be finite three-vectors"⟩
      else
        .ok
          ⟨rejectOutlier threshold a.x b.x sample.x, rejectOutlier threshold a.y b.y sample.y,
            rejectOutlier threshold a.z b.z sample.z⟩
    | _ => .ok sample

/-! ### The node -/

/-- The settings of the rate filter, as `load_configuration` checks them. -/
structure ImuRateConfig where
  outlierLimitRps : Binary64
  historySamples : ℕ
  outlierLimitRps_ok : (outlierLimitRps.isFinite && Number.le 0 outlierLimitRps) = true
  /-- as for every finite `float` -/
  outlierLimitRps_lt : outlierLimitRps.toRat < 2 ^ binary64.maxExponent
  historySamples_ok : 3 ≤ historySamples ∧ historySamples ≤ 15

structure ImuMessage where
  frameId : String
  /-- `orientation_covariance[0]` -/
  orientationCovariance : Binary64
  orientation : Quat Binary64
  angularVelocity : Vec Binary64
  stampNs : ℤ

structure ImuNode where
  pidSelected : Bool := false
  /-- `imu_rate_samples`, the newest last -/
  rateSamples : List (ℤ × Vec Binary64) := []
  /-- `imu_filter_ns` -/
  filterNs : Option ℤ := none
  /-- `imu_angular_velocity`, the last raw sample -/
  angularVelocity : Option (Vec Binary64) := none

inductive PidImuInput where
  | authorityStatus (message : ControlAuthorityStatus)
  /-- `headingKnown` is that `self.body` has an estimate and `attitude_with_heading` does not
  raise -/
  | imu (message : ImuMessage) (headingKnown : Bool)

/-- `append` of a `deque` -/
def appendBounded {α : Type} (maxlen : ℕ) (samples : List α) (sample : α) : List α :=
  (samples ++ [sample]).drop (samples.length + 1 - maxlen)

/-- `(sample_ns - self.imu_filter_ns) * 1e-9` -/
def imuElapsedS (sampleNs filterNs : ℤ) : Binary64 :=
  Number.ofRat binary64 (sampleNs - filterNs : ℤ) * constant (1 / 10 ^ 9)

/-- `0.0 < dt <= 0.2` -/
def continuesSegment (sampleNs : ℤ) (filterNs : Option ℤ) : Bool :=
  match filterNs with
  | none => false
  | some filterNs =>
    Number.lt 0 (imuElapsedS sampleNs filterNs) && (imuElapsedS sampleNs filterNs).le
      (constant (1 / 5))

section Node

/- `sqrt` is that of the mathematical library. -/
variable (sqrt : Binary64 → Binary64) (cfg : ImuRateConfig)

/-- The checks of a message. -/
def ImuMessage.isUsable (message : ImuMessage) : Bool :=
  let q := message.orientation
  message.frameId == "base_link" && !message.orientationCovariance.lt 0 &&
    finiteVec message.angularVelocity &&
    (q.w.isFinite && q.x.isFinite && q.y.isFinite && q.z.isFinite) &&
    !(sqrt (q.w * q.w + q.x * q.x + q.y * q.y + q.z * q.z)).lt (constant (1 / 10 ^ 9))

/-- `on_imu`, with the rate that is accepted. -/
def onImuMessage (node : ImuNode) (message : ImuMessage) (headingKnown : Bool) :
    Except ValueError (ImuNode × Option (Vec Binary64)) :=
  if !node.pidSelected || !message.isUsable sqrt || !headingKnown then .ok (node, none)
  else do
    let acceptedRate ←
      if continuesSegment message.stampNs node.filterNs then
        rejectVectorOutlier (node.rateSamples.map Prod.snd) message.angularVelocity
          cfg.outlierLimitRps
      else .ok message.angularVelocity
    let samples := if continuesSegment message.stampNs node.filterNs then node.rateSamples else []
    return (
      { node with
        rateSamples := appendBounded cfg.historySamples samples (message.stampNs, acceptedRate)
        filterNs := some message.stampNs
        angularVelocity := some message.angularVelocity },
      some acceptedRate)

/-- `on_authority_status`: `_disconnect_pid_inputs` forgets the samples. -/
def onImuSelection (node : ImuNode) (message : ControlAuthorityStatus) : ImuNode :=
  let selected := (strip message.selectedSource).toLower == "pid"
  if selected == node.pidSelected then node
  else if selected then { node with pidSelected := true }
  else {}

/-- An exception would leave `rclpy.spin`; the step after it does not occur. -/
def imuStep (node : ImuNode) : PidImuInput → Option (ImuNode × Option (Vec Binary64))
  | .authorityStatus message => some (onImuSelection node message, none)
  | .imu message headingKnown => (onImuMessage sqrt cfg node message headingKnown).toOption

def pidImuMachine : Machine ImuNode PidImuInput (Option (Vec Binary64)) where
  init := {}
  step := imuStep sqrt cfg

end Node

abbrev ImuTransition := Transition ImuNode PidImuInput (Option (Vec Binary64))

abbrev ImuHistory := History ImuNode PidImuInput (Option (Vec Binary64))

end RobotCore
