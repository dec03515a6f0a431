import RobotCore.Lib.Clip
import RobotCore.Lib.Machine
import RobotCore.Pid.Mix
import RobotCore.Lib.Numeral

/-!
# The PID controller with conditional integration

`ConditionalPid` of `control_math` in exact arithmetic: its numbers are those of an ordered field,
where everything is finite, so that the checks for finite arguments always pass.  The functions of
Python's `math` are a parameter.
-/

namespace RobotCore.Exact

open Clip Machine

attribute [local instance] Numeral.atLeastTwo_two Numeral.atLeastTwo_ten

/-- `math`, as far as the controllers use it. -/
structure MathModule (K : Type*) [Zero K] [LT K] where
  pi : K
  pi_pos : 0 < pi
  exp : K → K
  expm1 : K → K

structure PidGains (K : Type*) where
  kp : K
  ki : K
  kd : K
  integralLimit : K
  outputLimit : K
  derivativeCutoffHz : K
  deriving DecidableEq

structure ConditionalPid (K : Type*) where
  gains : PidGains K
  integral : K
  previousMeasurement : Option K
  filteredDerivative : K
  saturated : Bool
  deriving DecidableEq

/-- The arguments of `step`. -/
structure StepCall (K : Type*) where
  setpoint : K
  measurement : K
  dt : K
  feedforward : K
  outputLimit : Option K := none
  integralEnabled : Bool := true

variable {K : Type*} [Field K] [LinearOrder K]

/-- The tolerance `1e-12` of the comparisons. -/
def tolerance : K := 1 / 10 ^ 12

def StepCall.error (call : StepCall K) : K := call.setpoint - call.measurement

/-- The output limit of a step. -/
def PidGains.limit (gains : PidGains K) (call : StepCall K) : K :=
  |call.outputLimit.getD gains.outputLimit|

namespace ConditionalPid

/-- The controller right after its constructor. -/
def new (gains : PidGains K) : ConditionalPid K := ⟨gains, 0, none, 0, false⟩

def reset (pid : ConditionalPid K) : ConditionalPid K := new pid.gains

def rawDerivative (pid : ConditionalPid K) (call : StepCall K) : K :=
  match pid.previousMeasurement with
  | none => 0
  | some previousMeasurement => -(call.measurement - previousMeasurement) / call.dt

def alpha (math : MathModule K) (pid : ConditionalPid K) (call : StepCall K) : K :=
  let cutoff := max 0 pid.gains.derivativeCutoffHz
  if cutoff ≤ 0 then 1 else 1 - math.exp (-2 * math.pi * cutoff * call.dt)

/-- The measurement, remembered and differentiated. -/
def differentiate (math : MathModule K) (pid : ConditionalPid K) (call : StepCall K) :
    ConditionalPid K :=
  { pid with
    previousMeasurement := some call.measurement
    filteredDerivative := pid.filteredDerivative +
      pid.alpha math call * (pid.rawDerivative call - pid.filteredDerivative) }

def proposedIntegral (pid : ConditionalPid K) (call : StepCall K) : K :=
  clip (pid.integral + call.error * call.dt) (-|pid.gains.integralLimit|) |pid.gains.integralLimit|

/-- The raw output with a given integral. -/
def unsaturated (pid : ConditionalPid K) (call : StepCall K) (integral : K) : K :=
  call.feedforward + pid.gains.kp * call.error + pid.gains.ki * integral +
    pid.gains.kd * pid.filteredDerivative

/-- Integrate when unsaturated, or when the error would pull an already saturated command back
toward the feasible interval. -/
def CanIntegrate (pid : ConditionalPid K) (call : StepCall K) : Prop :=
  Admits tolerance (pid.gains.limit call) call.error
    (pid.unsaturated call (pid.proposedIntegral call))

instance (pid : ConditionalPid K) (call : StepCall K) : Decidable (pid.CanIntegrate call) := by
  unfold CanIntegrate
  infer_instance

def integrate (pid : ConditionalPid K) (call : StepCall K) : ConditionalPid K :=
  if call.integralEnabled then
    if pid.CanIntegrate call then { pid with integral := pid.proposedIntegral call } else pid
  else
    -- PD operation must not retain integral state accumulated by a previous controller mode.
    { pid with integral := 0 }

def step (math : MathModule K) (pid : ConditionalPid K) (call : StepCall K) :
    Except ValueError (K × ConditionalPid K) :=
  if call.dt ≤ 0 then .error ⟨"PID dt must be positive"⟩
  else
    let pid := (pid.differentiate math call).integrate call
    let limit := pid.gains.limit call
    let unsaturated := pid.unsaturated call pid.integral
    let saturated := clip unsaturated (-limit) limit
    .ok (saturated, { pid with saturated := !decide (|unsaturated - saturated| ≤ tolerance) })

end ConditionalPid

/-! ### Runs of a controller -/

inductive PidInput (K : Type*)
  | step (call : StepCall K)
  | reset

/-- A controller that is stepped and reset. -/
def conditionalPid (math : MathModule K) (gains : PidGains K) :
    Machine (ConditionalPid K) (PidInput K) (Option (Except ValueError K)) where
  init := .new gains
  step pid
    | .step call =>
      match pid.step math call with
      | .error e => some (pid, some (.error e))
      | .ok (output, pid') => some (pid', some (.ok output))
    | .reset => some (pid.reset, none)

end RobotCore.Exact
