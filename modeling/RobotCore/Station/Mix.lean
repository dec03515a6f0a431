import Mathlib.Data.Fin.VecNotation
import Mathlib.Data.Sign.Defs
import RobotCore.Station.ConditionalPid

/-!
# Efforts and their mixing

The functions of `control_math` that the direct hold modes of the PID node go through, in exact
arithmetic.  Their checks for finite arguments always pass; the others raise a `ValueError`.
-/

namespace RobotCore.Exact

open Clip

attribute [local instance] Numeral.neZero_four Numeral.atLeastTwo_ten Numeral.atLeastTwo_oneThousand

variable {K : Type*} [Field K] [LinearOrder K]

/-- `math.isclose(a, b, abs_tol=absTol)` -/
def IsClose (a b absTol : K) : Prop := |a - b| ≤ max (1 / 10 ^ 9 * max |a| |b|) absTol

instance (a b absTol : K) : Decidable (IsClose a b absTol) := by
  unfold IsClose
  infer_instance

/-- `math.copysign(1.0, sign)` of a sign other than zero -/
def copysignOne (sign : K) : K := if sign < 0 then -1 else 1

/-- `np.max(np.abs(values))` of four values -/
def peak (values : Fin 4 → K) : K :=
  max (max (max |values 0| |values 1|) |values 2|) |values 3|

/-- `np.max(values)` of four values -/
def largest (values : Fin 4 → K) : K :=
  max (max (max (values 0) (values 1)) (values 2)) (values 3)

/-- `np.min(values)` of four values -/
def smallest (values : Fin 4 → K) : K :=
  min (min (min (values 0) (values 1)) (values 2)) (values 3)

/-- The commands of the eight thrusters. -/
@[ext]
structure Commands (K : Type*) where
  /-- T1--T4 -/
  vertical : Fin 4 → K
  /-- T5--T8 -/
  horizontal : Fin 4 → K
  deriving DecidableEq

/-! ### Setpoints -/

def altitudeVelocitySetpoint (targetHeight actualHeight targetVerticalVelocity positionKp : K) :
    K :=
  targetVerticalVelocity + positionKp * (targetHeight - actualHeight)

def stationVelocitySetpoints (targetVelocityBody positionErrorBody positionKp : Fin 2 → K)
    (surgeLimit swayLimit : K) (centerApproach : Bool) : Except ValueError (Fin 2 → K) :=
  let limits := ![surgeLimit, swayLimit]
  if (∃ i, positionKp i < 0) ∨ ∃ i, limits i < 0 then
    .error ⟨"station position gains and speed limits must be non-negative"⟩
  else
    let requested := fun i => targetVelocityBody i + positionKp i * positionErrorBody i
    .ok (if centerApproach then requested else fun i => clip (requested i) (-limits i) (limits i))

def directionalVelocityFeedforward (velocitySetpoint positiveGain negativeGain outputLimit : K) :
    Except ValueError K :=
  if positiveGain < 0 ∨ negativeGain < 0 ∨ outputLimit < 0 then
    .error ⟨"velocity feedforward gains and limit must be non-negative"⟩
  else
    let gain := if 0 ≤ velocitySetpoint then positiveGain else negativeGain
    .ok (clip (gain * velocitySetpoint) (-outputLimit) outputLimit)

def slewRateLimit (previous requested dt rateLimitPerS : K) : Except ValueError K :=
  if dt ≤ 0 then .error ⟨"slew-rate timestep must be positive"⟩
  else if rateLimitPerS < 0 then .error ⟨"slew-rate limit must be non-negative"⟩
  else .ok (slew previous requested (rateLimitPerS * dt))

def firstOrderLowPass (math : MathModule K) (previous : Option K) (sample dt timeConstantS : K) :
    Except ValueError K :=
  if dt ≤ 0 then .error ⟨"low-pass dt must be positive"⟩
  else
    match previous with
    | none => .ok sample
    | some previous =>
      if timeConstantS ≤ 0 then .ok sample
      else
        let alpha := -math.expm1 (-dt / timeConstantS)
        .ok (previous + alpha * (sample - previous))

/-! ### Integrals -/

/-- Whether the integral is reset, and the new sign of the error. -/
def integralResetAfterErrorCrossing (previousErrorSign : SignType)
    (error integralEffort hysteresis : K) : Except ValueError (Bool × SignType) :=
  if hysteresis < 0 then .error ⟨"integral crossing hysteresis must be non-negative"⟩
  else if |error| ≤ hysteresis then .ok (false, previousErrorSign)
  else
    let currentErrorSign : SignType := if 0 < error then 1 else -1
    let crossed := previousErrorSign != 0 && currentErrorSign != previousErrorSign
    let opposing := decide (integralEffort * error < 0)
    .ok (crossed && opposing, currentErrorSign)

def conditionalAxisIntegralEffort (currentEffort error integralGain dt effortLimit : K)
    (baseEfforts : Fin 2 → K) (axis : Fin 2) (combinedLimit : K) : Except ValueError K :=
  if integralGain < 0 ∨ effortLimit < 0 ∨ combinedLimit < 0 then
    .error ⟨"integral gain and effort limits must be non-negative"⟩
  else if dt ≤ 0 then .error ⟨"integral timestep must be positive"⟩
  else
    let limit := effortLimit
    let current := clip currentEffort (-limit) limit
    let proposed := clip (current + integralGain * error * dt) (-limit) limit
    let currentTotal := Function.update baseEfforts axis (baseEfforts axis + current)
    let proposedTotal := Function.update baseEfforts axis (baseEfforts axis + proposed)
    let currentPeak := |currentTotal 0| + |currentTotal 1|
    let proposedPeak := |proposedTotal 0| + |proposedTotal 1|
    if combinedLimit + tolerance < proposedPeak ∧ currentPeak + tolerance < proposedPeak then
      .ok current
    else .ok proposed

/-! ### Vertical thrusters -/

/-- What `level_attitude_rate_efforts` returns. -/
structure LevelEfforts (K : Type*) where
  efforts : Fin 2 → K
  raw : Fin 2 → K
  desiredRate : Fin 2 → K
  saturated : Bool

def levelAttitudeRateEfforts (orientationError targetAngularRate measuredAngularRate angleToRateKp
    rateKp angularRateLimit : Fin 2 → K) (combinedLimit : K)
    (effortFeedforward effortIntegral : Fin 2 → K) : Except ValueError (LevelEfforts K) :=
  if (∃ i, angleToRateKp i < 0) ∨ (∃ i, rateKp i < 0) ∨ (∃ i, angularRateLimit i < 0) ∨
      combinedLimit < 0 then
    .error ⟨"level cascade gains, rate limits and effort limit must be finite and non-negative"⟩
  else
    let desiredRate := fun i =>
      clip (targetAngularRate i + angleToRateKp i * orientationError i) (-angularRateLimit i)
        (angularRateLimit i)
    let raw := fun i =>
      rateKp i * (desiredRate i - measuredAngularRate i) + effortFeedforward i + effortIntegral i
    let peak := |raw 0| + |raw 1|
    .ok {
      efforts := fun i => raw i * scaleToLimit combinedLimit peak
      raw := raw
      desiredRate := desiredRate
      saturated := decide (combinedLimit < peak ∧ 0 < peak) }

def surgePitchDecouplingEffort (appliedSurgeEffort forwardGain reverseGain outputLimit : K) :
    Except ValueError K :=
  if forwardGain < 0 ∨ reverseGain < 0 ∨ outputLimit < 0 then
    .error ⟨"surge-pitch gains and limit must be non-negative"⟩
  else
    let gain := if 0 ≤ appliedSurgeEffort then forwardGain else reverseGain
    .ok (clip (-gain * appliedSurgeEffort) (-outputLimit) outputLimit)

def altitudeCollectivePwmCommands (pidOutput commandLimit commandSign : K) :
    Except ValueError (Commands K) :=
  if IsClose commandSign 0 tolerance then
    .error ⟨"altitude PWM command sign must be non-zero"⟩
  else
    let limit := |commandLimit|
    let common := clip (copysignOne commandSign * pidOutput) (-limit) limit
    .ok ⟨fun _ => common, fun _ => 0⟩

/-- The attitude of `altitude_level_pwm_commands`, before it is scaled down to the limit. -/
def attitudeMix (roll pitch : K) : Fin 4 → K := fun i =>
  roll * ![1, 1, -1, -1] i + pitch * ![1, -1, 1, -1] i

def altitudeLevelPwmCommands
    (altitudePidOutput rollPdOutput pitchPdOutput commandLimit altitudeCommandSign : K) :
    Except ValueError (Commands K) :=
  if IsClose altitudeCommandSign 0 tolerance then
    .error ⟨"altitude PWM command sign must be non-zero"⟩
  else
    let limit := |commandLimit|
    let attitude := attitudeMix rollPdOutput pitchPdOutput
    let attitudePeak := peak attitude
    let attitude := fun i => attitude i * scaleToLimit limit attitudePeak
    let requestedCollective := copysignOne altitudeCommandSign * altitudePidOutput
    let collectiveMin := -limit - smallest attitude
    let collectiveMax := limit - largest attitude
    let collective := clip requestedCollective collectiveMin collectiveMax
    .ok ⟨fun i => clip (collective + attitude i) (-limit) limit, fun _ => 0⟩

/-! ### Horizontal thrusters -/

/-- Direction-specific coefficients of the sway. -/
def swayMix (sway : K) : Fin 4 → K := fun i =>
  if 0 ≤ sway then sway * ![-1, 0, -893 / 1000, 608 / 1000] i
  else -sway * ![0, -1, 608 / 1000, -893 / 1000] i

/-- Direction-specific coefficients of the yaw. -/
def yawMix (yaw : K) : Fin 4 → K := fun i =>
  if 0 ≤ yaw then yaw * ![1, -998 / 1000, -355 / 1000, 722 / 1000] i
  else -yaw * ![-998 / 1000, 1, 722 / 1000, -355 / 1000] i

/-- `upper`, before it is scaled down to the limit. -/
def horizontalMix (surge sway yaw : K) : Fin 4 → K := fun i =>
  surge * ![-1, -1, 1, 1] i + swayMix sway i + yawMix yaw i

/-- The mixed efforts of T5--T8 and the common scale applied at saturation. -/
def stationHorizontalPwmMix (surgePOutput swayPOutput yawPOutput commandLimit : K) :
    (Fin 4 → K) × K :=
  let limit := |commandLimit|
  let surge := clip surgePOutput (-limit) limit
  let sway := clip swayPOutput (-limit) limit
  let yaw := clip yawPOutput (-limit) limit
  let upper := horizontalMix surge sway yaw
  let scale := scaleToLimit limit (peak upper)
  (fun i => upper i * scale, scale)

def altitudeStationPwmCommands (altitudePidOutput surgePOutput swayPOutput yawPOutput commandLimit
    altitudeCommandSign rollEffort pitchEffort : K) : Except ValueError (Commands K) := do
  let commands ← altitudeLevelPwmCommands altitudePidOutput rollEffort pitchEffort commandLimit
    altitudeCommandSign
  let (horizontal, _) := stationHorizontalPwmMix surgePOutput swayPOutput yawPOutput commandLimit
  return { commands with horizontal := horizontal }

end RobotCore.Exact
