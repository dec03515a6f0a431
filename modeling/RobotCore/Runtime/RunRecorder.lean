/-!
# The run recorder

The two services of `RunLogger` that start and stop a run, with the members they write.  The file
system and the recorder process may fail at every step; an exception leaves the members as they are
at that point and the request without an answer.  What is written to the files is left out.
-/

namespace RobotCore

structure RunRecorder where
  runDir : Option String := none
  /-- `event_log_handle` is set -/
  eventLogHandle : Bool := false
  rosbagProcess : Bool := false
  rosbagOutputHandle : Bool := false
  deriving DecidableEq

structure StartRunResponse where
  success : Bool
  runDir : String
  message : String
  deriving DecidableEq

structure StopRunResponse where
  accepted : Bool
  runDir : String
  message : String
  deriving DecidableEq

/-- `str(self.run_dir)` -/
def RunRecorder.runDirText (s : RunRecorder) : String := s.runDir.getD "None"

/-- The steps of `on_start_run` that can fail, in their order. -/
inductive StartStage where
  | runDirectory
  | eventLog
  | snapshot
  | rosbagOutput
  | rosbagProcess
  /-- the recorder process ends within half a second -/
  | rosbagExit
  | startEvent
  deriving DecidableEq

/-- `on_start_run` with the directory that is created; `none` is an exception. -/
def onStartRun (s : RunRecorder) (runDir : String) (failure : Option StartStage) :
    RunRecorder × Option StartRunResponse :=
  if s.eventLogHandle then
    (s,
      some
        { success := false, runDir := s.runDirText, message := "a tracking run is already active" })
  else
    match failure with
    | some .runDirectory => (s, none)
    | some .eventLog => ({ s with runDir := some runDir }, none)
    | some .snapshot => ({ s with runDir := some runDir, eventLogHandle := true }, none)
    | some .rosbagOutput => ({ s with runDir := some runDir, eventLogHandle := true }, none)
    | some .rosbagProcess =>
      ({ s with runDir := some runDir, eventLogHandle := true, rosbagOutputHandle := true }, none)
    | some .rosbagExit | some .startEvent => (⟨some runDir, true, true, true⟩, none)
    | none =>
      (⟨some runDir, true, true, true⟩,
        some
          { success := true, runDir := runDir,
            message := "run directory and rosbag recording started" })

/-- The steps of `on_stop_run` that can fail. -/
inductive StopStage where
  | endEvent
  /-- the recorder process does not end within ten seconds -/
  | rosbagWait
  deriving DecidableEq

/-- `on_stop_run`; `none` is an exception, also that of a member that is `None`. -/
def onStopRun (s : RunRecorder) (failure : Option StopStage) :
    RunRecorder × Option StopRunResponse :=
  if s.eventLogHandle && failure == some .endEvent then (s, none)
  else if !s.rosbagProcess || failure == some .rosbagWait then (s, none)
  else if !s.rosbagOutputHandle then ({ s with rosbagProcess := false }, none)
  else if !s.eventLogHandle then
    ({ s with rosbagProcess := false, rosbagOutputHandle := false }, none)
  else
    ({},
      some
        { accepted := true, runDir := s.runDirText,
          message := "run log and rosbag recording stopped" })

end RobotCore
