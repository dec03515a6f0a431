import RobotCore.Lib.Scalar

/-!
# Inputs of the trajectory policy

What the two programs that run the policy read of its four topics, and what a tick gives them and
hands out.  A tick with a missing or a stale topic brings the names of the missing ones.
-/

namespace RobotCore

/-- What is read of `/robot/body_state`. -/
structure PolicyBody (α : Type) where
  stateValid : Bool
  positionEstimated : Bool
  linearVelocityValid : Bool
  position : Vec α
  orientation : Quat α
  linearVelocity : Vec α

/-- What is read of `/sensors/external_imu`. -/
structure PolicyImu (α : Type) where
  orientation : Quat α
  angularVelocity : Vec α

/-- What is read of `/runtime/trajectory_target`. -/
structure PolicyTarget (α : Type) where
  valid : Bool
  position : Vec α
  orientation : Quat α
  linearVelocity : Vec α
  angularVelocity : Vec α
  linearAcceleration : Vec α

structure PolicyInputs (α : Type) where
  body : PolicyBody α
  imu : PolicyImu α
  /-- `action` of `/control/thruster_cmd` -/
  command : Fin 8 → α
  target : PolicyTarget α

/-- What is missing of inputs that are there and fresh. -/
def PolicyInputs.missing {α : Type} (inputs : PolicyInputs α) : List String :=
  (if inputs.body.stateValid || inputs.body.positionEstimated then []
    else ["/robot/body_state(localization_invalid)"]) ++
  (if inputs.body.linearVelocityValid then []
    else ["/robot/body_state(linear_velocity_invalid)"]) ++
  (if inputs.target.valid then [] else ["/runtime/trajectory_target(invalid)"])

/-- What a tick finds. -/
inductive PolicyTick (α : Type) where
  | missing (names : List String)
  /-- Inputs that are there and fresh, and the outcome of an inference from them. -/
  | ready (inputs : PolicyInputs α) (inference : Except String Unit)

/-- What a tick hands out: the observation given to the actor, and the missing inputs of the
status. -/
structure PolicyOutput (α : Type) where
  observation : Option (List α)
  missing : List String

end RobotCore
