import RobotCore.Lib.Machine
import RobotCore.Pid.Mix

/-!
# The PID node

The PWM limit of `SixDofPidNode`, which follows the status of the command authority, and the end of
`tick`, which mixes the efforts of the axes and publishes them as actions.  What the input checks
and the control law of a tick arrive at is an argument of the tick: any efforts can come out of it.
-/

namespace RobotCore

open Ieee Machine

/-- `ControlAuthorityStatus.msg`, as far as the PID node reads it. -/
structure ControlAuthorityStatus where
  selectedSource : String := ""
  actionLimit : Binary64 := 0
  deriving DecidableEq

def actionPwmSpanUs : ℚ := 250
def pidEffortPwmSpanUs : ℚ := 500
def maximumPwmLimitUs : ℚ := 250

structure PidConfig where
  pwmLimitUs : Binary64 := constant maximumPwmLimitUs
  altitudePwmCommandSign : Binary64 := constant (-1)

structure PidNode where
  pidSelected : Bool := false
  pwmLimitUs : Binary64
  deriving DecidableEq

/-- The node right after its constructor. -/
def PidNode.initial (cfg : PidConfig) : PidNode :=
  { pwmLimitUs := cfg.pwmLimitUs.clip 0 (constant maximumPwmLimitUs) }

/-- The characters `str.strip` removes. -/
def isPythonSpace (c : Char) : Bool :=
  let n := c.val.toNat
  (9 ≤ n && n ≤ 13) || (28 ≤ n && n ≤ 32) || n == 0x85 || n == 0xA0 || n == 0x1680 ||
    (0x2000 ≤ n && n ≤ 0x200A) || n == 0x2028 || n == 0x2029 || n == 0x202F || n == 0x205F ||
    n == 0x3000

def strip (text : String) : String :=
  String.ofList
    ((text.toList.dropWhile isPythonSpace).reverse.dropWhile isPythonSpace).reverse

/-- `math.isfinite(action_limit)` and `0.0 <= action_limit <= 1.0` -/
def actionLimitValid (actionLimit : Binary64) : Bool :=
  actionLimit.isFinite && Number.le 0 actionLimit && actionLimit.le (constant 1)

def onAuthorityStatus (node : PidNode) (message : ControlAuthorityStatus) : PidNode :=
  let node := { node with pidSelected := (strip message.selectedSource).toLower == "pid" }
  if !actionLimitValid message.actionLimit then node
  else
    let pwmLimitUs := message.actionLimit * constant actionPwmSpanUs
    if pwmLimitUs.isclose node.pwmLimitUs (constant (1 / 10 ^ 9)) (constant (1 / 10 ^ 9)) then node
    else { node with pwmLimitUs := pwmLimitUs }

/-- `command_limit` -/
def PidNode.commandLimit (node : PidNode) : Binary64 := node.pwmLimitUs.divConst pidEffortPwmSpanUs

/-- What the input checks and the control law of a tick arrive at. -/
inductive PidTick where
  /-- an input is missing, or the time since the last tick is out of range -/
  | disabled
  /-- the target is idle: neutral until Start -/
  | idle
  /-- altitude hold -/
  | altitude (controllerEffort : Binary64)
  /-- station hold -/
  | station (controllerEffort surgeEffort swayEffort yawEffort rollEffort pitchEffort : Binary64)

/-- `commands` of an enabled tick: the mixed efforts of the thrusters. -/
def tickCommands (cfg : PidConfig) (node : PidNode) :
    PidTick → Except ValueError (Vector Binary64 8)
  | .disabled | .idle => .ok (Vector.replicate _ 0)
  | .altitude controllerEffort =>
    altitudeCollectivePwmCommands controllerEffort node.commandLimit cfg.altitudePwmCommandSign
  | .station controllerEffort surgeEffort swayEffort yawEffort rollEffort pitchEffort =>
    altitudeStationPwmCommands controllerEffort surgeEffort swayEffort yawEffort node.commandLimit
      cfg.altitudePwmCommandSign rollEffort pitchEffort

/-- The action of one effort, as it is stored in the message. -/
def effortAction (effort : Binary64) : Binary32 :=
  (((effort * constant pidEffortPwmSpanUs).divConst actionPwmSpanUs).clip (-constant 1)
    (constant 1)).narrow

def pidCommand (commands : Vector Binary64 8) : ThrusterCommand where
  action := commands.map effortAction
  enable := true
  source := "pid_controller"

/-- The command of `publish_disabled` -/
def disabledCommand : ThrusterCommand := { source := "pid_controller" }

def tick (cfg : PidConfig) (node : PidNode) (outcome : PidTick) :
    Except ValueError (Option ThrusterCommand) :=
  if !node.pidSelected then .ok none
  else
    match outcome with
    | .disabled => .ok (some disabledCommand)
    | outcome => (tickCommands cfg node outcome).map fun commands => some (pidCommand commands)

inductive PidInput where
  | authorityStatus (message : ControlAuthorityStatus)
  | tick (outcome : PidTick)

/-- One callback.  The state after an exception is of no account: the process has ended. -/
def pidStep (cfg : PidConfig) (node : PidNode) :
    PidInput → Option (PidNode × Except ValueError (Option ThrusterCommand))
  | .authorityStatus message => some (onAuthorityStatus node message, .ok none)
  | .tick outcome => some (node, tick cfg node outcome)

/-- One lifetime of the PID node. -/
def pidMachine (cfg : PidConfig) :
    Machine PidNode PidInput (Except ValueError (Option ThrusterCommand)) where
  init := PidNode.initial cfg
  step := pidStep cfg

abbrev PidHistory := History PidNode PidInput (Except ValueError (Option ThrusterCommand))

end RobotCore
