import RobotCore.Lib.Machine
import RobotCore.Lib.RecentLog
import RobotCore.Policy.T60Node

/-!
# The inputs of the policy node

`T60PolicyNode` with its four subscriptions, which keep the last messages of their topics with the
stamps of their headers, and its timer, which takes from each the message that has arrived last
among those that are not stamped later than the tick.

The counters and latencies of the status are left out.
-/

namespace RobotCore

open Machine

/-- `StampedMessage` -/
structure StampedMessage (μ : Type) where
  stampNs : ℤ
  message : μ

/-- The bound in `append_message`. -/
def kMessageHistory : ℕ := 256

def appendMessage {μ : Type} (history : List (StampedMessage μ)) (sample : StampedMessage μ) :
    List (StampedMessage μ) :=
  RecentLog.push kMessageHistory history sample

def latestAt {μ : Type} (history : List (StampedMessage μ)) (tickNs : ℤ) :
    Option (StampedMessage μ) :=
  RecentLog.latest? (fun sample => sample.stampNs ≤ tickNs) history

/-- `valid_age`: the name of a topic without a recent sample. -/
def validAge {μ : Type} (maxInputAgeNs : ℤ) (sample : Option (StampedMessage μ)) (tickNs : ℤ)
    (name : String) : List String :=
  match sample with
  | none => [name]
  | some sample => if tickNs - sample.stampNs > maxInputAgeNs then [name] else []

/-- The members of the node that its inputs change. -/
structure PolicyNode (α : Type) where
  body : List (StampedMessage (PolicyBody α)) := []
  imu : List (StampedMessage (PolicyImu α)) := []
  command : List (StampedMessage (Fin 8 → α)) := []
  target : List (StampedMessage (PolicyTarget α)) := []
  node : T60PolicyNode α := {}

inductive PolicyNodeInput (α : Type) where
  | bodyState (sample : StampedMessage (PolicyBody α))
  | externalImu (sample : StampedMessage (PolicyImu α))
  | thrusterCommand (sample : StampedMessage (Fin 8 → α))
  | trajectoryTarget (sample : StampedMessage (PolicyTarget α))
  | tick (tickNs : ℤ) (inference : Except String Unit)

variable {α : Type}

/-- The flags of a sample of the body state. -/
def PolicyBody.missing (body : PolicyBody α) : List String :=
  (if body.stateValid || body.positionEstimated then []
    else ["/robot/body_state(localization_invalid)"]) ++
  (if body.linearVelocityValid then []
    else ["/robot/body_state(linear_velocity_invalid)"])

/-- The flag of a sample of the target. -/
def PolicyTarget.missing (target : PolicyTarget α) : List String :=
  if target.valid then [] else ["/runtime/trajectory_target(invalid)"]

/-- What a tick finds in the queues. -/
def PolicyNode.inputs (maxInputAgeNs : ℤ) (s : PolicyNode α) (tickNs : ℤ)
    (inference : Except String Unit) : PolicyTick α :=
  let body := latestAt s.body tickNs
  let imu := latestAt s.imu tickNs
  let command := latestAt s.command tickNs
  let target := latestAt s.target tickNs
  let missing :=
    validAge maxInputAgeNs body tickNs "/robot/body_state" ++
    validAge maxInputAgeNs imu tickNs "/sensors/external_imu" ++
    validAge maxInputAgeNs command tickNs "/control/thruster_cmd" ++
    validAge maxInputAgeNs target tickNs "/runtime/trajectory_target"
  match missing, body, imu, command, target with
  | [], some body, some imu, some command, some target =>
    -- the flags are checked by the tick
    .ready ⟨body.message, imu.message, command.message, target.message⟩ inference
  | missing, body, _, _, target =>
    .missing (missing ++ body.elim [] (·.message.missing) ++ target.elim [] (·.message.missing))

variable [Scalar α]

def PolicyNode.step (maxInputAgeNs : ℤ) (s : PolicyNode α) :
    PolicyNodeInput α → PolicyNode α × Option (PolicyOutput α)
  | .bodyState sample => ({ s with body := appendMessage s.body sample }, none)
  | .externalImu sample => ({ s with imu := appendMessage s.imu sample }, none)
  | .thrusterCommand sample => ({ s with command := appendMessage s.command sample }, none)
  | .trajectoryTarget sample => ({ s with target := appendMessage s.target sample }, none)
  | .tick tickNs inference =>
    let (node, output) := s.node.tick (s.inputs maxInputAgeNs tickNs inference)
    ({ s with node := node }, some output)

/-- The node from its start on. -/
def policyMachine (α : Type) [Scalar α] (maxInputAgeNs : ℤ) :
    Machine (PolicyNode α) (PolicyNodeInput α) (Option (PolicyOutput α)) where
  init := {}
  step s input := some (s.step maxInputAgeNs input)

abbrev PolicyNodeTransition (α : Type) :=
  Transition (PolicyNode α) (PolicyNodeInput α) (Option (PolicyOutput α))

abbrev PolicyNodeHistory (α : Type) :=
  History (PolicyNode α) (PolicyNodeInput α) (Option (PolicyOutput α))

end RobotCore
