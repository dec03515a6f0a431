import RobotCore.Station.Mix

/-!
# The direct hold modes of the PID node

`tick` of `SixDofPidNode` in exact arithmetic: the altitude loop, the horizontal loop of the station
modes and the level loop of the fast one, with the state that lasts from tick to tick.  A tick is
given what the node has received, turned into the frame of the body.
-/

namespace RobotCore.Exact

open Clip Machine

attribute [local instance] Numeral.neZero_two Numeral.neZero_three Numeral.atLeastTwo_two
  Numeral.atLeastTwo_three Numeral.atLeastTwo_ten Numeral.atLeastTwo_oneHundred
  Numeral.atLeastTwo_oneHundredEighty

variable {K : Type} [Field K] [LinearOrder K]

/-! ### Constants and parameters -/

def actionPwmSpanUs : K := 250
def pidEffortPwmSpanUs : K := 500
def maximumPwmLimitUs : K := 250
def fastStationSurgeDirectionDeadband : K := 1 / 100
def fastStationLateralActiveVelocityMps : K := 3 / 100
def stationYawManeuverRateThresholdRps : K := 1 / 100

/-- `math.radians(0.2)` -/
def stationYawErrorCrossingHysteresisRad (math : MathModule K) : K := 2 / 10 * (math.pi / 180)

/-- A parameter that `load_configuration` rejects when it is negative. -/
abbrev NonNeg (K : Type) [Zero K] [LE K] := {value : K // 0 ≤ value}

/-- The parameters `load_configuration` has accepted, and the PWM limit at the start. -/
structure StationConfig (K : Type) [Field K] [LinearOrder K] where
  pwmLimitUs : K
  derivativeCutoffHz : NonNeg K
  altitudePositionKp : NonNeg K
  altitudePwmKp : NonNeg K
  altitudePwmKi : NonNeg K
  altitudePwmKd : NonNeg K
  altitudePwmIntegralLimit : NonNeg K
  altitudeVelocityFilterTimeConstantS : NonNeg K
  altitudePwmCommandSign : K
  /-- It is read through `math.copysign`. -/
  sign_unit : altitudePwmCommandSign = 1 ∨ altitudePwmCommandSign = -1
  stationPositionKp : Fin 2 → NonNeg K
  stationSurgePwmKp : NonNeg K
  stationSurgePwmKi : NonNeg K
  stationSurgePwmKd : NonNeg K
  stationSurgeIntegralLimit : NonNeg K
  stationSwayPwmKp : NonNeg K
  fastStationSwayPwmKp : NonNeg K
  fastStationSwayPwmFeedforwardPositiveGain : NonNeg K
  fastStationSwayPwmFeedforwardNegativeGain : NonNeg K
  fastStationSwayEffortSlewRatePerS : NonNeg K
  stationSwayPwmKi : NonNeg K
  stationSwayPwmKd : NonNeg K
  stationSwayIntegralLimit : NonNeg K
  stationYawPwmKp : NonNeg K
  stationYawPwmKi : NonNeg K
  stationYawIntegralLimit : NonNeg K
  stationYawHeadingKp : NonNeg K
  stationHorizontalAxisLimit : NonNeg K
  stationYawAxisLimit : NonNeg K
  stationSurgeRateLimit : NonNeg K
  fastStationSurgeRateLimit : NonNeg K
  stationSwayRateLimit : NonNeg K
  fastStationSwayRateLimit : NonNeg K
  fastStationLateralYawAxisLimit : NonNeg K
  fastStationSwayYawCompensationGain : NonNeg K
  fastStationLateralYawEffortSlewRatePerS : NonNeg K
  stationYawRateLimit : NonNeg K
  fastStationLevelPwmLimit : NonNeg K
  fastStationLevelAngleToRateKp : Fin 2 → NonNeg K
  fastStationLevelRateKp : Fin 2 → NonNeg K
  fastStationLevelRateLimitRps : Fin 2 → NonNeg K
  fastStationPitchRateKi : NonNeg K
  fastStationPitchRateIntegralEffortLimit : NonNeg K
  fastStationSurgePitchDecouplingEnabled : Bool
  fastStationSurgePitchForwardGain : NonNeg K
  fastStationSurgePitchReverseGain : NonNeg K
  fastStationSurgePitchLimit : NonNeg K

namespace StationConfig

def altitudeGains (cfg : StationConfig K) : PidGains K where
  kp := cfg.altitudePwmKp
  ki := cfg.altitudePwmKi
  kd := cfg.altitudePwmKd
  integralLimit := cfg.altitudePwmIntegralLimit
  outputLimit := 1
  derivativeCutoffHz := cfg.derivativeCutoffHz

def surgeGains (cfg : StationConfig K) : PidGains K where
  kp := cfg.stationSurgePwmKp
  ki := cfg.stationSurgePwmKi
  kd := cfg.stationSurgePwmKd
  integralLimit := cfg.stationSurgeIntegralLimit
  outputLimit := 1
  derivativeCutoffHz := cfg.derivativeCutoffHz

def swayGains (cfg : StationConfig K) : PidGains K where
  kp := cfg.stationSwayPwmKp
  ki := cfg.stationSwayPwmKi
  kd := cfg.stationSwayPwmKd
  integralLimit := cfg.stationSwayIntegralLimit
  outputLimit := 1
  derivativeCutoffHz := cfg.derivativeCutoffHz

def fastSwayGains (cfg : StationConfig K) : PidGains K :=
  { cfg.swayGains with kp := cfg.fastStationSwayPwmKp }

def yawGains (cfg : StationConfig K) : PidGains K where
  kp := cfg.stationYawPwmKp
  ki := cfg.stationYawPwmKi
  kd := 0
  integralLimit := cfg.stationYawIntegralLimit
  outputLimit := 1
  derivativeCutoffHz := cfg.derivativeCutoffHz

end StationConfig

/-! ### The state -/

structure StationNode (K : Type) where
  pidSelected : Bool
  pwmLimitUs : K
  altitudeHoldActive : Bool
  stationHoldActive : Bool
  fastStationHoldActive : Bool
  stationTrajectoryPhase : String
  altitudePid : ConditionalPid K
  stationSurgePid : ConditionalPid K
  stationSwayPid : ConditionalPid K
  fastStationSwayPid : ConditionalPid K
  stationYawPid : ConditionalPid K
  stationYawManeuverActive : Bool
  stationYawHeadingErrorSign : SignType
  fastStationSwayLimitedEffort : K
  fastStationLateralYawLimitedEffort : K
  fastStationPitchRateIntegralEffort : K
  fastStationSurgeDirection : SignType
  altitudeVerticalVelocityFiltered : Option K
  deriving DecidableEq

namespace StationNode

/-- The node right after its constructor. -/
def initial (cfg : StationConfig K) : StationNode K where
  pidSelected := false
  pwmLimitUs := clip cfg.pwmLimitUs 0 maximumPwmLimitUs
  altitudeHoldActive := false
  stationHoldActive := false
  fastStationHoldActive := false
  stationTrajectoryPhase := ""
  altitudePid := .new cfg.altitudeGains
  stationSurgePid := .new cfg.surgeGains
  stationSwayPid := .new cfg.swayGains
  fastStationSwayPid := .new cfg.fastSwayGains
  stationYawPid := .new cfg.yawGains
  stationYawManeuverActive := false
  stationYawHeadingErrorSign := 0
  fastStationSwayLimitedEffort := 0
  fastStationLateralYawLimitedEffort := 0
  fastStationPitchRateIntegralEffort := 0
  fastStationSurgeDirection := 0
  altitudeVerticalVelocityFiltered := none

def resetControllers (node : StationNode K) : StationNode K :=
  { node with
    altitudePid := node.altitudePid.reset
    stationSurgePid := node.stationSurgePid.reset
    stationSwayPid := node.stationSwayPid.reset
    fastStationSwayPid := node.fastStationSwayPid.reset
    stationYawPid := node.stationYawPid.reset
    stationYawManeuverActive := false
    stationYawHeadingErrorSign := 0
    fastStationSwayLimitedEffort := 0
    fastStationLateralYawLimitedEffort := 0
    fastStationPitchRateIntegralEffort := 0
    fastStationSurgeDirection := 0
    altitudeVerticalVelocityFiltered := none }

def commandLimit (node : StationNode K) : K := node.pwmLimitUs / pidEffortPwmSpanUs

def select (node : StationNode K) (selected : Bool) : StationNode K :=
  if selected != node.pidSelected then { node with pidSelected := selected }.resetControllers
  else node

/-- A status of the command authority: whether it selects the PID, and its action limit. -/
def onAuthorityStatus (node : StationNode K) (selected : Bool) (actionLimit : K) : StationNode K :=
  let node := node.select selected
  if ¬ (0 ≤ actionLimit ∧ actionLimit ≤ 1) then node
  else
    let pwmLimitUs := actionLimit * actionPwmSpanUs
    if IsClose pwmLimitUs node.pwmLimitUs (1 / 10 ^ 9) then node
    else { node with pwmLimitUs := pwmLimitUs }.resetControllers

end StationNode

/-! ### What a tick is given -/

/-- The control modes of a target, in lower case. -/
inductive ControlMode
  | idle
  | altitudeHold
  | stationHold
  | stationHoldFast
  | unsupported
  deriving DecidableEq

namespace ControlMode

def isStation (mode : ControlMode) : Bool := mode == .stationHold || mode == .stationHoldFast

/-- `direct_altitude_mode` -/
def isDirectAltitude (mode : ControlMode) : Bool := mode == .altitudeHold || mode.isStation

end ControlMode

/-- The body state, the target and the angular velocity of a tick, in the frame of the body where
the loops compare them. -/
structure StationInput (K : Type) where
  controlMode : ControlMode
  /-- in lower case -/
  trajectoryPhase : String
  targetHeight : K
  currentHeight : K
  targetVerticalVelocity : K
  /-- in the frame of the map -/
  actualVerticalVelocity : K
  positionErrorBody : Fin 2 → K
  orientationErrorBody : Fin 3 → K
  targetLinearBody : Fin 2 → K
  targetAngularBody : Fin 3 → K
  actualLinearBody : Fin 2 → K
  imuAngularVelocityFiltered : Fin 3 → K

/-- The first two components. -/
def planar (values : Fin 3 → K) : Fin 2 → K := fun i => values i.castSucc

namespace StationInput

def yawManeuverActive (input : StationInput K) : Bool :=
  decide (stationYawManeuverRateThresholdRps < |input.targetAngularBody 2|)

def straightLateralManeuver (input : StationInput K) (node : StationNode K) : Bool :=
  input.controlMode == .stationHoldFast && !input.yawManeuverActive &&
    (decide (stationYawManeuverRateThresholdRps < |input.targetLinearBody 1|) ||
      decide (fastStationSurgeDirectionDeadband < |node.fastStationSwayLimitedEffort|) ||
      decide (fastStationLateralActiveVelocityMps < |input.actualLinearBody 1|))

end StationInput

/-! ### The horizontal loop -/

/-- What the horizontal loop arrives at. -/
structure Horizontal (K : Type) where
  surgeEffort : K
  swayEffort : K
  yawEffort : K
  mixScale : K
  saturated : Bool

namespace Horizontal

/-- `applied_surge_effort` -/
def appliedSurgeEffort (efforts : Horizontal K) : K := efforts.surgeEffort * efforts.mixScale

/-- `applied_sway_effort` -/
def appliedSwayEffort (efforts : Horizontal K) : K := efforts.swayEffort * efforts.mixScale

/-- `applied_yaw_effort` -/
def appliedYawEffort (efforts : Horizontal K) : K := efforts.yawEffort * efforts.mixScale

/-- No effort, outside the station modes. -/
def zero : Horizontal K := ⟨0, 0, 0, 1, false⟩

end Horizontal

namespace StationNode

def horizontalAxisLimit (cfg : StationConfig K) (node : StationNode K) (input : StationInput K) :
    K :=
  if input.controlMode == .stationHoldFast || input.trajectoryPhase == "start_approach" then
    node.commandLimit
  else min node.commandLimit cfg.stationHorizontalAxisLimit

def yawAxisLimit (cfg : StationConfig K) (node : StationNode K) (input : StationInput K) : K :=
  let yawAxisLimit := min node.commandLimit cfg.stationYawAxisLimit
  if input.straightLateralManeuver node then min yawAxisLimit cfg.fastStationLateralYawAxisLimit
  else yawAxisLimit

/-- `desired_planar_velocity` -/
def desiredPlanarVelocity (cfg : StationConfig K) (input : StationInput K) :
    Except ValueError (Fin 2 → K) :=
  let fast := input.controlMode == .stationHoldFast
  stationVelocitySetpoints input.targetLinearBody input.positionErrorBody
    (fun i => cfg.stationPositionKp i)
    (if fast then cfg.fastStationSurgeRateLimit else cfg.stationSurgeRateLimit)
    (if fast then cfg.fastStationSwayRateLimit else cfg.stationSwayRateLimit)
    (input.trajectoryPhase == "start_approach")

def desiredYawRate (cfg : StationConfig K) (input : StationInput K) : K :=
  clip (input.targetAngularBody 2 + cfg.stationYawHeadingKp * input.orientationErrorBody 2)
    (-cfg.stationYawRateLimit) cfg.stationYawRateLimit

/-- The PID of the yaw without an integral that the manoeuvre of the tick does not allow, and the
sign of its error. -/
def preparedYawPid (math : MathModule K) (cfg : StationConfig K) (node : StationNode K)
    (input : StationInput K) : Except ValueError (ConditionalPid K × SignType) :=
  if input.yawManeuverActive || input.straightLateralManeuver node then
    .ok ({ node.stationYawPid with integral := 0 }, 0)
  else if node.stationYawManeuverActive then .ok (node.stationYawPid.reset, 0)
  else do
    let (resetYawIntegral, errorSign) ← integralResetAfterErrorCrossing
      node.stationYawHeadingErrorSign (input.orientationErrorBody 2)
      (cfg.stationYawPwmKi * node.stationYawPid.integral)
      (stationYawErrorCrossingHysteresisRad math)
    return (if resetYawIntegral then { node.stationYawPid with integral := 0 }
      else node.stationYawPid, errorSign)

def prepareYaw (math : MathModule K) (cfg : StationConfig K) (node : StationNode K)
    (input : StationInput K) : Except ValueError (StationNode K) := do
  let (pid, errorSign) ← node.preparedYawPid math cfg input
  return { node with
    stationYawPid := pid
    stationYawHeadingErrorSign := errorSign
    stationYawManeuverActive := input.yawManeuverActive }

/-- The PID of the sway in the mode of the tick. -/
def swayPid (node : StationNode K) (fast : Bool) : ConditionalPid K :=
  if fast then node.fastStationSwayPid else node.stationSwayPid

def setSwayPid (node : StationNode K) (fast : Bool) (pid : ConditionalPid K) : StationNode K :=
  if fast then { node with fastStationSwayPid := pid } else { node with stationSwayPid := pid }

def surgeLoop (math : MathModule K) (cfg : StationConfig K) (node : StationNode K)
    (input : StationInput K) (dt desiredSurgeVelocity : K) :
    Except ValueError (K × StationNode K) := do
  let (surgeEffort, pid) ← node.stationSurgePid.step math {
    setpoint := desiredSurgeVelocity
    measurement := input.actualLinearBody 0
    dt := dt
    feedforward := 0
    outputLimit := some (node.horizontalAxisLimit cfg input) }
  return (surgeEffort, { node with stationSurgePid := pid })

def swayFeedforward (cfg : StationConfig K) (node : StationNode K) (input : StationInput K)
    (desiredSwayVelocity : K) : Except ValueError K :=
  if input.controlMode == .stationHoldFast then
    directionalVelocityFeedforward desiredSwayVelocity cfg.fastStationSwayPwmFeedforwardPositiveGain
      cfg.fastStationSwayPwmFeedforwardNegativeGain (node.horizontalAxisLimit cfg input)
  else .ok 0

def swayLoop (math : MathModule K) (cfg : StationConfig K) (node : StationNode K)
    (input : StationInput K) (dt desiredSwayVelocity : K) :
    Except ValueError (K × StationNode K) := do
  let fast := input.controlMode == .stationHoldFast
  let swayFeedforward ← node.swayFeedforward cfg input desiredSwayVelocity
  let (requestedSwayEffort, pid) ← (node.swayPid fast).step math {
    setpoint := desiredSwayVelocity
    measurement := input.actualLinearBody 1
    dt := dt
    feedforward := swayFeedforward
    outputLimit := some (node.horizontalAxisLimit cfg input) }
  let node := node.setSwayPid fast pid
  if fast then
    let swayEffort ← slewRateLimit node.fastStationSwayLimitedEffort requestedSwayEffort dt
      cfg.fastStationSwayEffortSlewRatePerS
    return (swayEffort, { node with fastStationSwayLimitedEffort := swayEffort })
  else return (requestedSwayEffort, { node with fastStationSwayLimitedEffort := 0 })

def yawLoop (math : MathModule K) (cfg : StationConfig K) (node : StationNode K)
    (input : StationInput K) (dt : K) (straightLateralManeuver : Bool)
    (yawAxisLimit swayEffort : K) :
    Except ValueError (K × StationNode K) := do
  let (requestedYawEffort, pid) ← node.stationYawPid.step math {
    setpoint := desiredYawRate cfg input
    measurement := input.imuAngularVelocityFiltered 2
    dt := dt
    feedforward :=
      if straightLateralManeuver then -cfg.fastStationSwayYawCompensationGain * swayEffort else 0
    outputLimit := some yawAxisLimit
    integralEnabled := !(input.yawManeuverActive || straightLateralManeuver) }
  let node := { node with stationYawPid := pid }
  if straightLateralManeuver then
    let yawEffort ← slewRateLimit node.fastStationLateralYawLimitedEffort requestedYawEffort dt
      cfg.fastStationLateralYawEffortSlewRatePerS
    return (yawEffort, { node with fastStationLateralYawLimitedEffort := yawEffort })
  else return (requestedYawEffort, { node with fastStationLateralYawLimitedEffort := 0 })

/-- The horizontal integrals of another state. -/
def withIntegrals (node before : StationNode K) (fast : Bool) : StationNode K :=
  let node := node.setSwayPid fast
    { node.swayPid fast with integral := (before.swayPid fast).integral }
  { node with
    stationSurgePid := { node.stationSurgePid with integral := before.stationSurgePid.integral }
    stationYawPid := { node.stationYawPid with integral := before.stationYawPid.integral } }

def horizontalLoop (math : MathModule K) (cfg : StationConfig K) (node : StationNode K)
    (input : StationInput K) (dt : K) : Except ValueError (Horizontal K × StationNode K) := do
  let fast := input.controlMode == .stationHoldFast
  let straightLateralManeuver := input.straightLateralManeuver node
  let yawAxisLimit := node.yawAxisLimit cfg input
  let desired ← desiredPlanarVelocity cfg input
  let before ← node.prepareYaw math cfg input
  let (surgeEffort, node) ← before.surgeLoop math cfg input dt (desired 0)
  let (swayEffort, node) ← node.swayLoop math cfg input dt (desired 1)
  let (yawEffort, node) ←
    node.yawLoop math cfg input dt straightLateralManeuver yawAxisLimit swayEffort
  let (_, scale) := stationHorizontalPwmMix surgeEffort swayEffort yawEffort node.commandLimit
  -- The individual axis PIDs cannot see saturation caused by combining axes.
  let node := if scale < 1 - tolerance then node.withIntegrals before fast else node
  return (
    { surgeEffort := surgeEffort
      swayEffort := swayEffort
      yawEffort := yawEffort
      mixScale := scale
      saturated := node.stationSurgePid.saturated || (node.swayPid fast).saturated ||
        node.stationYawPid.saturated || decide (scale < 1 - tolerance) },
    node)

/-! ### The level loop -/

/-- `surge_direction` -/
def surgeDirection (appliedSurgeEffort : K) : SignType :=
  if fastStationSurgeDirectionDeadband < appliedSurgeEffort then 1
  else if appliedSurgeEffort < -fastStationSurgeDirectionDeadband then -1
  else 0

/-- One pass of the level cascade. -/
def levelCascade (cfg : StationConfig K) (input : StationInput K)
    (levelLimit pitchDecouplingEffort pitchIntegralEffort : K) :
    Except ValueError (LevelEfforts K) :=
  levelAttitudeRateEfforts (planar input.orientationErrorBody) (planar input.targetAngularBody)
    (planar input.imuAngularVelocityFiltered) (fun i => cfg.fastStationLevelAngleToRateKp i)
    (fun i => cfg.fastStationLevelRateKp i) (fun i => cfg.fastStationLevelRateLimitRps i)
    levelLimit ![0, pitchDecouplingEffort] ![0, pitchIntegralEffort]

def pitchDecouplingEffort (cfg : StationConfig K) (appliedSurgeEffort : K) :
    Except ValueError K :=
  if cfg.fastStationSurgePitchDecouplingEnabled then
    surgePitchDecouplingEffort appliedSurgeEffort cfg.fastStationSurgePitchForwardGain
      cfg.fastStationSurgePitchReverseGain cfg.fastStationSurgePitchLimit
  else .ok 0

def levelLoop (cfg : StationConfig K) (node : StationNode K) (input : StationInput K)
    (dt appliedSurgeEffort : K) : Except ValueError (LevelEfforts K × StationNode K) := do
  let direction := surgeDirection appliedSurgeEffort
  let pitchIntegral :=
    if direction ≠ node.fastStationSurgeDirection then 0
    else node.fastStationPitchRateIntegralEffort
  let pitchDecouplingEffort ← pitchDecouplingEffort cfg appliedSurgeEffort
  let levelLimit := min node.commandLimit cfg.fastStationLevelPwmLimit
  let base ← levelCascade cfg input levelLimit pitchDecouplingEffort 0
  let pitchIntegral ← conditionalAxisIntegralEffort pitchIntegral
    (base.desiredRate 1 - input.imuAngularVelocityFiltered 1) cfg.fastStationPitchRateKi dt
    cfg.fastStationPitchRateIntegralEffortLimit base.raw 1 levelLimit
  let level ← levelCascade cfg input levelLimit pitchDecouplingEffort pitchIntegral
  return (level, { node with
    fastStationSurgeDirection := direction
    fastStationPitchRateIntegralEffort := pitchIntegral })

/-! ### The altitude loop and the mixing -/

/-- The efforts of a tick. -/
structure Efforts (K : Type) where
  horizontal : Horizontal K
  levelEfforts : Fin 2 → K
  altitudeOutputLimit : K
  controllerEffort : K
  commands : Commands K
  allocationSaturation : Bool

/-- A horizontal command has reached the limit. -/
def horizontalAtLimit (commands : Commands K) (commandLimit : K) : Bool :=
  decide (0 < commandLimit) && decide (commandLimit - 1 / 10 ^ 9 ≤ peak commands.horizontal)

/-- The horizontal loop of the station modes. -/
def horizontalEfforts (math : MathModule K) (cfg : StationConfig K) (node : StationNode K)
    (input : StationInput K) (dt : K) : Except ValueError (Horizontal K × StationNode K) :=
  if input.controlMode.isStation then node.horizontalLoop math cfg input dt
  else .ok (Horizontal.zero, node)

/-- The level loop of the fast station mode. -/
def levelEfforts (cfg : StationConfig K) (node : StationNode K) (input : StationInput K)
    (dt appliedSurgeEffort : K) : Except ValueError (LevelEfforts K × StationNode K) :=
  if input.controlMode == .stationHoldFast then node.levelLoop cfg input dt appliedSurgeEffort
  else .ok (⟨fun _ => 0, fun _ => 0, fun _ => 0, false⟩, node)

/-- The altitude integrator sees only the headroom left by the level loop. -/
def altitudeOutputLimit (node : StationNode K) (mode : ControlMode) (levelEfforts : Fin 2 → K) :
    K :=
  if mode == .stationHoldFast then
    max 0 (node.commandLimit - (|levelEfforts 0| + |levelEfforts 1|))
  else node.commandLimit

def mixCommands (cfg : StationConfig K) (node : StationNode K) (mode : ControlMode)
    (controllerEffort : K) (horizontal : Horizontal K) (levelEfforts : Fin 2 → K) :
    Except ValueError (Commands K) :=
  if mode.isStation then
    altitudeStationPwmCommands controllerEffort horizontal.surgeEffort horizontal.swayEffort
      horizontal.yawEffort node.commandLimit cfg.altitudePwmCommandSign (levelEfforts 0)
      (levelEfforts 1)
  else altitudeCollectivePwmCommands controllerEffort node.commandLimit cfg.altitudePwmCommandSign

/-- The branch of the direct hold modes. -/
def directHold (math : MathModule K) (cfg : StationConfig K) (node : StationNode K)
    (input : StationInput K) (dt : K) : Except ValueError (Efforts K × StationNode K) := do
  let filtered ← firstOrderLowPass math node.altitudeVerticalVelocityFiltered
    input.actualVerticalVelocity dt cfg.altitudeVelocityFilterTimeConstantS
  let node := { node with altitudeVerticalVelocityFiltered := some filtered }
  let desiredVerticalVelocity := altitudeVelocitySetpoint input.targetHeight input.currentHeight
    input.targetVerticalVelocity cfg.altitudePositionKp
  let (horizontal, node) ← node.horizontalEfforts math cfg input dt
  let (level, node) ← node.levelEfforts cfg input dt horizontal.appliedSurgeEffort
  let altitudeOutputLimit := node.altitudeOutputLimit input.controlMode level.efforts
  let (controllerEffort, altitudePid) ← node.altitudePid.step math {
    setpoint := desiredVerticalVelocity
    measurement := filtered
    dt := dt
    feedforward := 0
    outputLimit := some altitudeOutputLimit }
  let node := { node with altitudePid := altitudePid }
  let commands ← node.mixCommands cfg input.controlMode controllerEffort horizontal level.efforts
  return (
    { horizontal := horizontal
      levelEfforts := level.efforts
      altitudeOutputLimit := altitudeOutputLimit
      controllerEffort := controllerEffort
      commands := commands
      allocationSaturation := altitudePid.saturated ||
        input.controlMode.isStation &&
          (horizontal.saturated || horizontalAtLimit commands node.commandLimit ||
          level.saturated) },
    node)

/-! ### The tick -/

/-- The command a tick publishes. -/
structure Publication (K : Type) where
  enable : Bool
  action : Commands K
  /-- the efforts of the direct hold modes -/
  efforts : Option (Efforts K)

/-- `publish_disabled` -/
def Publication.disabled : Publication K := ⟨false, ⟨fun _ => 0, fun _ => 0⟩, none⟩

/-- The action of an effort. -/
def actionOf (value : K) : K := clip (value * pidEffortPwmSpanUs / actionPwmSpanUs) (-1) 1

/-- The controllers are reset where the mode or the phase of the trajectory changes. -/
def enterMode (node : StationNode K) (mode : ControlMode) (phase : String) : StationNode K :=
  let changed := mode.isDirectAltitude != node.altitudeHoldActive ||
    mode.isStation != node.stationHoldActive ||
    (mode == .stationHoldFast) != node.fastStationHoldActive ||
    mode.isStation && phase != node.stationTrajectoryPhase
  { (if changed then node.resetControllers else node) with
    altitudeHoldActive := mode.isDirectAltitude
    stationHoldActive := mode.isStation
    fastStationHoldActive := mode == .stationHoldFast
    stationTrajectoryPhase := if mode.isStation then phase else "" }

/-- One tick: `ready` is the answer of `input_status`, and `dt` the time since the last tick. -/
def tick (math : MathModule K) (cfg : StationConfig K) (node : StationNode K) (ready : Bool)
    (dt : K)
    (input : StationInput K) : Except ValueError (StationNode K × Option (Publication K)) :=
  if !node.pidSelected then .ok (node, none)
  else if !ready then .ok (node.resetControllers, some .disabled)
  else if ¬ (1 / 10 ^ 4 ≤ dt ∧ dt ≤ 1 / 10) then .ok (node.resetControllers, some .disabled)
  else
    let node := node.enterMode input.controlMode input.trajectoryPhase
    match input.controlMode with
    | .idle => .ok (node.resetControllers, some ⟨true, ⟨fun _ => 0, fun _ => 0⟩, none⟩)
    | .unsupported => .ok (node, some .disabled)
    | .altitudeHold | .stationHold | .stationHoldFast => do
      let (efforts, node) ← node.directHold math cfg input dt
      let action : Commands K :=
        ⟨fun i => actionOf (efforts.commands.vertical i),
          fun i => actionOf (efforts.commands.horizontal i)⟩
      return (node, some ⟨true, action, some efforts⟩)

end StationNode

/-! ### Runs of the node -/

inductive StationEvent (K : Type)
  | authorityStatus (selected : Bool) (actionLimit : K)
  | tick (ready : Bool) (dt : K) (input : StationInput K)

/-- The node between its messages; what it hands out is the command of a tick.  A tick that raises
an exception ends the run. -/
def stationMachine (math : MathModule K) (cfg : StationConfig K) :
    Machine (StationNode K) (StationEvent K) (Option (StationNode.Publication K)) where
  init := .initial cfg
  step node
    | .authorityStatus selected actionLimit =>
      some (node.onAuthorityStatus selected actionLimit, none)
    | .tick ready dt input => (node.tick math cfg ready dt input).toOption

end RobotCore.Exact
