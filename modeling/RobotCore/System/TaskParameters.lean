import RobotCore.Runtime.Experiment

/-!
# The tasks and the parameters of the trajectory node

The experiment server with the parameters its goals set.  A request with parameters is served
before the goal it comes from goes on, and sets each of them: the node has declared them with their
types, and checks no more.  The tasks are executed one after the other.
-/

namespace RobotCore

open Ieee Machine

/-- The parameters of the trajectory node that a task can set. -/
abbrev TrajectoryParameters := (k : TrajectoryParameter) → k.type.Value

/-- `declare_parameter` -/
def declaredParameters : TrajectoryParameters
  | .trajectoryType => "hold"
  | .controlMode => "idle"
  | .attitudeMode => "fixed_identity"
  | .relativeToInitialPose => false
  | .centerX => (0 : Binary64)
  | .centerY => (0 : Binary64)
  | .centerZ => Number.ofRat binary64 (9 / 10)
  | .holdBeforeMotionS => (0 : Binary64)
  | .ampX => Number.ofRat binary64 (3 / 2)
  | .ampY => Number.ofRat binary64 (3 / 4)
  | .ampZ => Number.ofRat binary64 (4 / 10)
  | .radiusM => Number.ofRat binary64 1
  | .periodS => Number.ofRat binary64 16
  | .trajectorySpeedMps => Number.ofRat binary64 (1 / 10)
  | .trajectoryRampS => (0 : Binary64)
  | .moveDurationS => Number.ofRat binary64 18
  | .manualVerticalSpeedMps => Number.ofRat binary64 (20 / 100)
  | .stationLinearInputGainMps => Number.ofRat binary64 (30 / 100)
  | .stationLateralInputGainMps => Number.ofRat binary64 (20 / 100)
  | .stationYawInputGainRps => Number.ofRat binary64 (60 / 100)

/-- What a call does to the parameters. -/
def ExperimentEvent.configure (parameters : TrajectoryParameters) :
    ExperimentEvent → TrajectoryParameters
  | .setParameters settings =>
    settings.foldl (fun p setting => Function.update p setting.1 setting.2) parameters
  | _ => parameters

/-- What some progress does to the parameters. -/
def configured (parameters : TrajectoryParameters) (events : List ExperimentEvent) :
    TrajectoryParameters :=
  events.foldl ExperimentEvent.configure parameters

/-- The goal has not begun, or is done. -/
def ExperimentPc.isIdle : ExperimentPc → Bool
  | .start | .done _ => true
  | _ => false

structure TaskSystem where
  server : ExperimentServer ℕ := {}
  parameters : TrajectoryParameters
  /-- the goal that is executed -/
  active : Option ℕ := none

/-- The goals are executed one after the other. -/
def TaskSystem.admits (s : TaskSystem) : ExperimentInput ℕ → Bool
  | .resume i _ => s.active.all (· == i)
  | _ => true

/-- The goal that is executed after a step. -/
def nextActive (s : TaskSystem) (server : ExperimentServer ℕ) : ExperimentInput ℕ → Option ℕ
  | .resume i _ => if (server.goals i).pc.isIdle then none else some i
  | _ => s.active

section System

variable (catalog : TaskCatalog) (requests : ℕ → String)

def taskStep (s : TaskSystem) (input : ExperimentInput ℕ) :
    Option (TaskSystem × List ExperimentEvent) :=
  if s.admits input then
    (experimentStep (fun i => catalog.task (requests i)) s.server input).map
      fun (server, events) =>
        ({ server, parameters := configured s.parameters events,
           active := nextActive s server input }, events)
  else none

/-- One lifetime of the server, with the ids of the tasks it is sent. -/
def taskMachine (parameters : TrajectoryParameters) :
    Machine TaskSystem (ExperimentInput ℕ) (List ExperimentEvent) where
  init := { parameters }
  step := taskStep catalog requests

end System

abbrev TaskTransition := Transition TaskSystem (ExperimentInput ℕ) (List ExperimentEvent)

end RobotCore
