import RobotCore.Interfaces

/-!
# The state of the command authority

The messages `CommandAuthorityNode` receives, with the fields it reads, its parameters, and its
members.  The executor is single-threaded, so a callback runs to its end before the next one.

The rates of the timers, the status topic and the real-time priority are left out.
-/

namespace RobotCore

open Ieee

/-! ### Messages -/

structure BodyStateMsg where
  linearVelocityValid : Bool := false
  positionEstimated : Bool := false
  stateValid : Bool := false
  deriving DecidableEq

structure TrajectoryTargetMsg where
  controlMode : String := ""
  valid : Bool := false
  deriving DecidableEq

structure SafetyEventMsg where
  code : String := ""
  message : String := ""
  abortActive : Bool := false
  deriving DecidableEq

structure SetControlAuthorityRequest where
  source : String := ""
  arm : Bool := false
  clearFault : Bool := false
  updatePwmLimit : Bool := false
  pwmLimitUs : Binary64 := 0
  deriving DecidableEq

structure SetControlAuthorityResponse where
  accepted : Bool
  selectedSource : String
  armed : Bool
  faultLatched : Bool
  pwmLimitUs : Binary64
  message : String
  deriving DecidableEq

/-! ### Parameters and members -/

/-- `kActionPwmSpanUs` and `kMaximumPwmLimitUs` are both `250.0`. -/
def kPwmSpanUs : Binary64 := Number.ofRat binary64 250
def kMaximumAction : Binary64 := Number.ofRat binary64 1

structure AuthorityConfig where
  sourceCommandTimeoutS : Binary64 := Number.ofRat binary64 (10 / 100)
  stateTimeoutS : Binary64 := Number.ofRat binary64 (15 / 100)
  targetTimeoutS : Binary64 := Number.ofRat binary64 (15 / 100)
  safetyHeartbeatTimeoutS : Binary64 := Number.ofRat binary64 (25 / 100)
  pwmLimitUs : Binary64 := kPwmSpanUs
  allowRlHardware : Bool := true

structure TimedSourceCommand where
  message : ThrusterCommand
  stampNs : ℤ
  deriving DecidableEq

structure TimedBody where
  message : BodyStateMsg
  stampNs : ℤ

structure TimedTarget where
  message : TrajectoryTargetMsg
  stampNs : ℤ

structure Authority where
  sourceCommands : String → Option TimedSourceCommand := fun _ => none
  body : Option TimedBody := none
  target : Option TimedTarget := none
  safetyStampNs : Option ℤ := none
  output : Vector Binary64 8 := Vector.replicate _ 0
  selectedSource : String := "manual"
  activeSource : String := "manual"
  faultCode : String := ""
  message : String := "disarmed"
  armed : Bool := false
  abortActive : Bool := false
  faultLatched : Bool := false
  outputEnabled : Bool := false
  absoluteLocalizationSeen : Bool := false
  armGeneration : UInt64 := 0
  actionLimit : Binary64

/-- `std::clamp(std::abs(pwm_limit_us) / kActionPwmSpanUs, 0.0, kMaximumAction)` -/
def initialActionLimit (cfg : AuthorityConfig) : Binary64 :=
  (cfg.pwmLimitUs.abs.divConst 250).clamp 0 kMaximumAction

/-- The node right after its constructor. -/
def Authority.initial (cfg : AuthorityConfig) : Authority :=
  { actionLimit := initialActionLimit cfg }

/-- `std::chrono::duration<double>(now - stamp).count()` on a nanosecond clock. -/
def durationS (ns : ℤ) : Binary64 := (Number.ofRat binary64 ns).divConst 1000000000

/-- The exception of `unordered_map::at` for a missing key. -/
structure OutOfRange where
  key : String
  deriving DecidableEq

def Authority.at (s : Authority) (source : String) : Except OutOfRange TimedSourceCommand :=
  match s.sourceCommands source with
  | some item => .ok item
  | none => .error ⟨source⟩

/-- `output_.fill(0.0)` -/
def zeroOutput : Vector Binary64 8 := Vector.replicate _ 0

end RobotCore
