import RobotCore.Lib.Clip
import RobotCore.Lib.LineFit
import RobotCore.Lib.Scalar
import RobotCore.Pid.Mix
import RobotCore.Lib.Numeral

/-!
# The prediction of the angular rate

`timestamped_rate_prediction` of `control_math` in exact arithmetic: its rates are those of an
ordered field, where everything is finite, and its timestamps are integers.
-/

namespace RobotCore.Exact

open Clip LineFit

attribute [local instance] Numeral.atLeastTwo_ten

variable {K : Type} [Field K] [LinearOrder K]

/-- `(times - times[-1]).astype(np.float64) * 1e-9` -/
def relativeTimes (sampleTimesNs : List ℤ) : List K :=
  sampleTimesNs.map fun t => ((t - sampleTimesNs.getLastD 0 : ℤ) : K) * (1 / 10 ^ 9)

/-- One axis of the prediction, from the samples and the newest one. -/
def predictedAxis (relativeTime rates : List K) (latest horizon accelerationLimit
    correctionLimit : K) : K :=
  let slope := clip (slope (relativeTime.zip rates)) (-accelerationLimit) accelerationLimit
  let fittedLatest := mean rates - slope * mean relativeTime
  let predicted := fittedLatest + slope * horizon
  latest + clip (predicted - latest) (-correctionLimit) correctionLimit

/-- The prediction of checked samples, from the newest one. -/
def predictedRate (sampleTimesNs : List ℤ) (rateSamples : List (Vec K)) (latest : Vec K)
    (horizon accelerationLimit correctionLimit : K) : Vec K :=
  if sampleTimesNs.length < 3 ∨ horizon ≤ 0 ∨ accelerationLimit ≤ 0 ∨ correctionLimit ≤ 0 then
    latest
  else
    let relativeTime := relativeTimes sampleTimesNs
    if spread relativeTime ≤ 1 / 10 ^ 12 then latest
    else
      let axis (a : Vec.Axis) := predictedAxis relativeTime (rateSamples.map (·.component a))
        (latest.component a) horizon accelerationLimit correctionLimit
      ⟨axis .x, axis .y, axis .z⟩

/-- `timestamped_rate_prediction` -/
def timestampedRatePrediction (sampleTimesNs : List ℤ) (rateSamples : List (Vec K))
    (predictionHorizonS accelerationLimitRps2 correctionLimitRps : K) :
    Except ValueError (Vec K) :=
  match rateSamples.getLast? with
  | none => .error ⟨"timestamped rates must be a non-empty sequence of three-vectors"⟩
  | some latest =>
    if rateSamples.length ≠ sampleTimesNs.length then
      .error ⟨"timestamped rates must be a non-empty sequence of three-vectors"⟩
    else if ¬sampleTimesNs.IsChain (· < ·) then
      .error ⟨"rate sample timestamps must be strictly increasing"⟩
    else if predictionHorizonS < 0 ∨ accelerationLimitRps2 < 0 ∨ correctionLimitRps < 0 then
      .error ⟨"rate prediction limits must be finite and non-negative"⟩
    else .ok (predictedRate sampleTimesNs rateSamples latest predictionHorizonS
      accelerationLimitRps2 correctionLimitRps)

end RobotCore.Exact
