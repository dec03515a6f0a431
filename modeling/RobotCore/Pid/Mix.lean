import RobotCore.Interfaces
import RobotCore.Lib.Ieee.Numeric

/-!
# Mixing of PID efforts

The functions of `control_math` that turn the efforts of the axes into the efforts of the eight
thrusters.  They raise a `ValueError` for an argument that is not finite.
-/

namespace RobotCore

open Ieee

/-- The exception of `control_math`. -/
structure ValueError where
  text : String
  deriving DecidableEq

/-- The `float` constant with the value `q`. -/
def constant (q : ℚ) : Binary64 := Number.ofRat binary64 q

/-- `x * np.asarray(coefficients)` -/
def times {n : ℕ} (x : Binary64) (coefficients : Vector ℚ n) : Vector Binary64 n :=
  coefficients.map fun q => x * constant q

/-- `np.max(np.abs(values))` of four values -/
def peak (values : Vector Binary64 4) : Binary64 :=
  ((values[0].abs.maximum values[1].abs).maximum values[2].abs).maximum values[3].abs

/-- `np.max(values)` of four values -/
def largest (values : Vector Binary64 4) : Binary64 :=
  ((values[0].maximum values[1]).maximum values[2]).maximum values[3]

/-- `np.min(values)` of four values -/
def smallest (values : Vector Binary64 4) : Binary64 :=
  ((values[0].minimum values[1]).minimum values[2]).minimum values[3]

/-- The factor `limit / peak`, where the peak exceeds the limit. -/
def saturationScale (limit peak : Binary64) : Option Binary64 :=
  if limit.lt peak && Number.lt 0 peak then some (limit.divide peak) else none

def scaleBy {n : ℕ} (scale : Option Binary64) (values : Vector Binary64 n) : Vector Binary64 n :=
  match scale with
  | none => values
  | some scale => values.map (· * scale)

/-- `math.isclose(sign, 0.0, abs_tol=1e-12)` -/
def isZeroSign (sign : Binary64) : Bool :=
  sign.isclose 0 (constant (1 / 10 ^ 9)) (constant (1 / 10 ^ 12))

/-- `math.copysign(1.0, sign)` of a sign other than zero -/
def copysignOne (sign : Binary64) : Binary64 :=
  if sign.lt 0 then constant (-1) else constant 1

def altitudeCollectivePwmCommands (pidOutput commandLimit commandSign : Binary64) :
    Except ValueError (Vector Binary64 8) :=
  if !(pidOutput.isFinite && commandLimit.isFinite && commandSign.isFinite) then
    .error ⟨"altitude PWM inputs must be finite"⟩
  else if isZeroSign commandSign then
    .error ⟨"altitude PWM command sign must be non-zero"⟩
  else
    let limit := commandLimit.abs
    let common := (copysignOne commandSign * pidOutput).clip (-limit) limit
    .ok (Vector.ofFn fun i => if i.val < 4 then common else 0)

/-- The attitude of `altitude_level_pwm_commands`, scaled down to the limit. -/
def levelAttitude (rollPdOutput pitchPdOutput limit : Binary64) : Vector Binary64 4 :=
  let attitude := Vector.zipWith (· + ·) (times rollPdOutput #v[1, 1, -1, -1])
    (times pitchPdOutput #v[1, -1, 1, -1])
  scaleBy (saturationScale limit (peak attitude)) attitude

def altitudeLevelPwmCommands
    (altitudePidOutput rollPdOutput pitchPdOutput commandLimit altitudeCommandSign : Binary64) :
    Except ValueError (Vector Binary64 8) :=
  if !(altitudePidOutput.isFinite && rollPdOutput.isFinite && pitchPdOutput.isFinite &&
      commandLimit.isFinite && altitudeCommandSign.isFinite) then
    .error ⟨"altitude-level PWM inputs must be finite"⟩
  else if isZeroSign altitudeCommandSign then
    .error ⟨"altitude PWM command sign must be non-zero"⟩
  else
    let limit := commandLimit.abs
    let attitude := levelAttitude rollPdOutput pitchPdOutput limit
    let requestedCollective := copysignOne altitudeCommandSign * altitudePidOutput
    let collectiveMin := -limit - smallest attitude
    let collectiveMax := limit - largest attitude
    let collective := requestedCollective.clip collectiveMin collectiveMax
    .ok (Vector.ofFn fun i =>
      if h : i.val < 4 then (collective + attitude[i.val]).clip (-limit) limit else 0)

/-- Direction-specific coefficients of the sway. -/
def swayMix (sway : Binary64) : Vector Binary64 4 :=
  if Number.le 0 sway then times sway #v[-1, 0, -893 / 1000, 608 / 1000]
  else times (-sway) #v[0, -1, 608 / 1000, -893 / 1000]

/-- Direction-specific coefficients of the yaw. -/
def yawMix (yaw : Binary64) : Vector Binary64 4 :=
  if Number.le 0 yaw then times yaw #v[1, -998 / 1000, -355 / 1000, 722 / 1000]
  else times (-yaw) #v[-998 / 1000, 1, 722 / 1000, -355 / 1000]

/-- `upper`, before it is scaled down to the limit. -/
def horizontalMix (surge sway yaw : Binary64) : Vector Binary64 4 :=
  Vector.zipWith (· + ·) (Vector.zipWith (· + ·) (times surge #v[-1, -1, 1, 1]) (swayMix sway))
    (yawMix yaw)

/-- The mixed efforts of T5--T8 and the scale applied at saturation. -/
def stationHorizontalPwmMix (surgePOutput swayPOutput yawPOutput commandLimit : Binary64) :
    Except ValueError (Vector Binary64 4 × Binary64) :=
  if !(surgePOutput.isFinite && swayPOutput.isFinite && yawPOutput.isFinite &&
      commandLimit.isFinite) then
    .error ⟨"station horizontal PWM inputs must be finite"⟩
  else
    let limit := commandLimit.abs
    let surge := surgePOutput.clip (-limit) limit
    let sway := swayPOutput.clip (-limit) limit
    let yaw := yawPOutput.clip (-limit) limit
    let upper := horizontalMix surge sway yaw
    let scale := saturationScale limit (peak upper)
    .ok (scaleBy scale upper, scale.getD (constant 1))

def altitudeStationPwmCommands (altitudePidOutput surgePOutput swayPOutput yawPOutput
    commandLimit altitudeCommandSign rollEffort pitchEffort : Binary64) :
    Except ValueError (Vector Binary64 8) := do
  let commands ← altitudeLevelPwmCommands altitudePidOutput rollEffort pitchEffort commandLimit
    altitudeCommandSign
  let (horizontal, _) ← stationHorizontalPwmMix surgePOutput swayPOutput yawPOutput commandLimit
  return Vector.ofFn fun i =>
    if h : 4 ≤ i.val then horizontal.get ⟨i.val - 4, by omega⟩ else commands[i]

end RobotCore
