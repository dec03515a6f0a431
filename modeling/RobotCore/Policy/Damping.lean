import Mathlib.Data.Fin.VecNotation
import RobotCore.Interfaces
import RobotCore.Lib.Ieee.Numeric
import RobotCore.Lib.Scalar

/-!
# The damping of the vertical thrusters

`apply_vertical_rate_damping` of `t60_policy_node.cpp`, with the parameters that the constructor of
the node accepts.  The corrections are bounded as a `double` and added to the actions as a `float`.
-/

namespace RobotCore

open Ieee

/-- `kActionSize` -/
abbrev kActionSize : ℕ := 8

/-- The constant `1.0` -/
def oneD : Binary64 := Number.ofRat binary64 1

/-- The constructor throws `rate damping parameters are invalid`. -/
def rateDampingInvalid
    (rollRateDampingGain pitchRateDampingGain rateDampingActionLimit : Binary64) : Bool :=
  !rollRateDampingGain.isFinite || rollRateDampingGain.lt 0 ||
    !pitchRateDampingGain.isFinite || pitchRateDampingGain.lt 0 ||
    !rateDampingActionLimit.isFinite ||
    rateDampingActionLimit.le 0 || oneD.lt rateDampingActionLimit

/-- The damping parameters, as the constructor accepts them. -/
structure DampingGains where
  rollRateDampingGain : Binary64
  pitchRateDampingGain : Binary64
  rateDampingActionLimit : Binary64
  accepted :
    rateDampingInvalid rollRateDampingGain pitchRateDampingGain rateDampingActionLimit = false

namespace DampingGains

variable (gains : DampingGains) (targetMinusMeasuredRate : Vec Binary64)

def measuredMinusTargetRoll : Binary64 := -targetMinusMeasuredRate.x

def measuredMinusTargetPitch : Binary64 := -targetMinusMeasuredRate.y

def roll : Binary64 := gains.rollRateDampingGain * measuredMinusTargetRoll targetMinusMeasuredRate

def pitch : Binary64 :=
  gains.pitchRateDampingGain * measuredMinusTargetPitch targetMinusMeasuredRate

/-- T1 and T2 are starboard, T3 and T4 port; T1 and T3 are forward, T2 and T4 aft. -/
def correction : Fin 4 → Binary64 :=
  let roll := gains.roll targetMinusMeasuredRate
  let pitch := gains.pitch targetMinusMeasuredRate
  ![-roll - pitch, -roll + pitch, roll - pitch, roll + pitch]

def bounded (channel : Fin 4) : Binary32 :=
  ((gains.correction targetMinusMeasuredRate channel).clamp
    (-gains.rateDampingActionLimit) gains.rateDampingActionLimit).narrow

/-- `apply_vertical_rate_damping` -/
def applyVerticalRateDamping (action : Fin kActionSize → Binary32) :
    Fin kActionSize → Binary32 := fun channel =>
  if h : channel.val < 4 then
    (action channel + gains.bounded targetMinusMeasuredRate ⟨channel.val, h⟩).clamp minusOneF oneF
  else action channel

end DampingGains

end RobotCore
