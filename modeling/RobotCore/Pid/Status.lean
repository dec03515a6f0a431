import RobotCore.Lib.Ieee.Numeric
import RobotCore.Pid.Node
import RobotCore.Runtime.Experiment

/-!
# The status of the PID node

The inputs `SixDofPidNode` keeps, `input_status`, and the status a tick publishes.  What is left of
an IMU message is that the filter has accepted it, and of the control law that it disables the
output or not.
-/

namespace RobotCore

open Ieee

/-- What `input_status` reads of a `BodyState`. -/
structure PidBody where
  stateValid : Bool
  positionEstimated : Bool
  linearVelocityValid : Bool
  /-- `quaternion_from_message` does not raise -/
  quaternionValid : Bool

structure PidReadiness where
  /-- `pid_configured` -/
  configured : Bool
  /-- `max_input_age_s` and `control_rate_hz` -/
  maxInputAgeS : Binary64
  controlRateHz : Binary64
  pidSelected : Bool := false
  body : Option (PidBody × ℤ) := none
  absoluteLocalizationSeen : Bool := false
  /-- `imu_ns`, which is set with the filtered members -/
  imuNs : Option ℤ := none
  target : Option (ScenarioTarget × ℤ) := none
  lastTickNs : Option ℤ := none

/-! ### Subscriptions -/

/-- `on_authority_status`: the inputs are connected while PID is selected. -/
def onPidSelection (node : PidReadiness) (message : ControlAuthorityStatus) : PidReadiness :=
  let selected := (strip message.selectedSource).toLower == "pid"
  if selected == node.pidSelected then node
  else if selected then { node with pidSelected := true, lastTickNs := none }
  else
    { node with
      pidSelected := false, lastTickNs := none, body := none, imuNs := none, target := none }

def onPidBody (node : PidReadiness) (message : PidBody) (nowNs : ℤ) : PidReadiness :=
  if node.pidSelected then
    { node with
      body := some (message, nowNs)
      absoluteLocalizationSeen := node.absoluteLocalizationSeen || message.stateValid }
  else node

/-- An IMU message the filter accepts. -/
def onPidImu (node : PidReadiness) (nowNs : ℤ) : PidReadiness :=
  if node.pidSelected then { node with imuNs := some nowNs } else node

/-- `on_target` -/
def onPidTarget (node : PidReadiness) (message : ScenarioTarget) (nowNs : ℤ) : PidReadiness :=
  { node with target := some (message, nowNs) }

/-! ### Input status -/

/-- The age of an input is above the allowed one; an input without a time is infinitely old. -/
def PidReadiness.tooOld (node : PidReadiness) (stampNs : Option ℤ) (nowNs : ℤ) : Bool :=
  match stampNs with
  | none => true
  | some stampNs =>
    node.maxInputAgeS.lt
      (Number.ofRat binary64 (nowNs - stampNs : ℤ) * Number.ofRat binary64 (1 / 10 ^ 9))

def pidTrajectoryTypes : List String :=
  ["idle", "hold", "spatial_lissajous", "circle", "racetrack", "straight_line"]

def pidControlModes : List String := ["idle", "altitude_hold", "station_hold", "station_hold_fast"]

/-- `compatible_target` -/
def compatibleTarget (trajectoryType controlMode : String) : Bool :=
  (trajectoryType == "idle" && controlMode == "idle") ||
    (trajectoryType == "hold" &&
      ["altitude_hold", "station_hold", "station_hold_fast"].contains controlMode) ||
    (["spatial_lissajous", "circle", "racetrack", "straight_line"].contains trajectoryType &&
      ["station_hold", "station_hold_fast"].contains controlMode)

/-- A reason when the condition holds. -/
def missingIf (condition : Bool) (reason : String) : List String :=
  if condition then [reason] else []

/-- `missing` of `input_status` -/
def PidReadiness.missingInputs (node : PidReadiness) (nowNs : ℤ) : List String :=
  let target := node.target.map (·.1)
  let trajectoryType := (target.map (·.trajectoryType.toLower)).getD ""
  let controlMode := (target.map (·.controlMode.toLower)).getD ""
  missingIf (!node.configured) "pid_parameters_not_approved" ++
  missingIf (!pidTrajectoryTypes.contains trajectoryType) "unsupported_trajectory_type" ++
  missingIf (!pidControlModes.contains controlMode) "unsupported_control_mode" ++
  missingIf (target.isSome && !compatibleTarget trajectoryType controlMode)
    "incompatible_trajectory_control_mode" ++
  missingIf (node.tooOld (node.body.map (·.2)) nowNs) "/robot/body_state" ++
  missingIf (node.tooOld node.imuNs nowNs) "/sensors/external_imu" ++
  missingIf (node.tooOld (node.target.map (·.2)) nowNs) "/runtime/trajectory_target" ++
  (match node.body with
    | none => []
    | some (body, _) =>
      missingIf (!body.linearVelocityValid) "linear_velocity_invalid" ++
      missingIf (!(body.stateValid || body.positionEstimated)) "localization_invalid" ++
      missingIf (!node.absoluteLocalizationSeen) "absolute_localization_not_seen" ++
      missingIf (!body.quaternionValid) "localization_quaternion_invalid") ++
  missingIf (target.any fun target => !target.valid) "trajectory_target_invalid"

/-! ### The tick -/

/-- `dt` -/
def PidReadiness.dt (node : PidReadiness) (nowNs : ℤ) : Binary64 :=
  match node.lastTickNs with
  | none =>
    let rate := node.controlRateHz
    let one := Number.ofRat binary64 1
    one.divide (if one.lt rate then rate else one)
  | some lastTickNs =>
    Number.ofRat binary64 (nowNs - lastTickNs : ℤ) * Number.ofRat binary64 (1 / 10 ^ 9)

/-- What a tick with usable inputs comes to. -/
inductive PidLaw where
  | command
  /-- the output is disabled after all -/
  | disabled (reasons : List String)
  /-- an exception ends the process before anything is published -/
  | exception
  deriving DecidableEq

/-- The status a tick publishes, if it does. -/
def pidTickStatus (node : PidReadiness) (nowNs : ℤ) (law : PidLaw) :
    PidReadiness × Option PidStatus :=
  if !node.pidSelected then (node, none)
  else
    let missing := node.missingInputs nowNs
    let next := { node with lastTickNs := some nowNs }
    if !missing.isEmpty then (next, some ⟨false, false, missing⟩)
    else
      let dt := node.dt nowNs
      if !((Number.ofRat binary64 (1 / 10 ^ 4)).le dt && dt.le (Number.ofRat binary64 (1 / 10)))
      then (next, some ⟨false, false, ["control_dt_invalid"]⟩)
      else
        match law with
        | .command => (next, some ⟨true, true, []⟩)
        | .disabled reasons => (next, some ⟨false, false, reasons⟩)
        | .exception => (next, none)

end RobotCore
