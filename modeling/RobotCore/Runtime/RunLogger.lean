import RobotCore.Lib.Machine
import RobotCore.Runtime.RunRecorder
import RobotCore.Runtime.TaskCatalog

/-!
# The run logger

One process lifetime of `run_logger`: its run services, the recorder processes it starts, and its
end.  An exception of a handler leaves `rclpy.spin`, `main` destroys the node and no launch file
starts it again.
-/

namespace RobotCore

open Machine

structure RunLogger where
  recorder : RunRecorder := {}
  /-- the process of the member `rosbag_process` runs -/
  rosbagRuns : Bool := false
  /-- recorder processes that run and whose member was replaced -/
  orphans : ℕ := 0
  /-- `rclpy.spin` has returned -/
  ended : Bool := false
  deriving DecidableEq

/-- The recorder processes that run. -/
def RunLogger.rosbagCount (s : RunLogger) : ℕ := s.orphans + s.rosbagRuns.toNat

inductive RunLoggerInput where
  /-- `hangs` is that the recorder outlives the `SIGINT` of `destroy_node` -/
  | startRun (taskName runDir : String) (failure : Option StartStage) (hangs : Bool)
  | stopRun (failure : Option StopStage) (hangs : Bool)
  | rosbagExits
  deriving DecidableEq

inductive RunLoggerOutput where
  /-- `none` is an exception -/
  | started (response : Option StartRunResponse)
  | stopped (response : Option StopRunResponse)
  | exited
  deriving DecidableEq

/-- The step of `on_start_run` that fails.  `snapshot_control_configs` looks up the task. -/
def startFailure (catalog : TaskCatalog) (taskName : String) (failure : Option StartStage) :
    Option StartStage :=
  match failure with
  | some .runDirectory | some .eventLog => failure
  | _ =>
    match catalog.task taskName with
    | .ok _ => failure
    | .error _ => some .snapshot

/-- `on_start_run` gets past `subprocess.Popen`. -/
def startsRosbag (s : RunRecorder) (failure : Option StartStage) : Bool :=
  !s.eventLogHandle &&
    (failure == none || failure == some .startEvent || failure == some .rosbagExit)

/-- `destroy_node` -/
def RunLogger.destroyNode (s : RunLogger) (hangs : Bool) : RunLogger :=
  if s.recorder.rosbagProcess && !hangs then
    { s with
      recorder := { s.recorder with rosbagProcess := false, rosbagOutputHandle := false }
      rosbagRuns := false
      ended := true }
  else { s with ended := true }

/-- `on_start_run` and the process it starts. -/
def RunLogger.startRun (s : RunLogger) (runDir : String) (failure : Option StartStage) :
    RunLogger × Option StartRunResponse :=
  let r := onStartRun s.recorder runDir failure
  (if startsRosbag s.recorder failure then
    { s with
      recorder := r.1
      rosbagRuns := failure != some .rosbagExit
      orphans := s.rosbagCount }
  else { s with recorder := r.1 }, r.2)

/-- `on_stop_run` and the process it waits for, which has ended when the member is `None` again. -/
def RunLogger.stopRun (s : RunLogger) (failure : Option StopStage) :
    RunLogger × Option StopRunResponse :=
  let r := onStopRun s.recorder failure
  ({ s with recorder := r.1, rosbagRuns := s.rosbagRuns && r.1.rosbagProcess }, r.2)

/-- The process after a handler; an exception ends it. -/
def RunLogger.afterHandler (s : RunLogger) (raised hangs : Bool) : RunLogger :=
  if raised then s.destroyNode hangs else s

def runLoggerStep (catalog : TaskCatalog) (s : RunLogger) :
    RunLoggerInput → Option (RunLogger × RunLoggerOutput)
  | .startRun taskName runDir failure hangs =>
    if s.ended then none
    else
      let r := s.startRun runDir (startFailure catalog taskName failure)
      some (r.1.afterHandler r.2.isNone hangs, .started r.2)
  | .stopRun failure hangs =>
    if s.ended then none
    else
      let r := s.stopRun failure
      some (r.1.afterHandler r.2.isNone hangs, .stopped r.2)
  | .rosbagExits =>
    if s.rosbagRuns then some ({ s with rosbagRuns := false }, .exited) else none

def runLogger (catalog : TaskCatalog) : Machine RunLogger RunLoggerInput RunLoggerOutput where
  init := {}
  step := runLoggerStep catalog

abbrev RunLoggerTransition := Transition RunLogger RunLoggerInput RunLoggerOutput

abbrev RunLoggerHistory := History RunLogger RunLoggerInput RunLoggerOutput

end RobotCore
