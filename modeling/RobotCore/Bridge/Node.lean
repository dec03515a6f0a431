import RobotCore.Bridge.Write
import RobotCore.Lib.Machine

/-!
# The bridge as a machine

Two threads share the node: the executor runs the ROS callbacks one after the other, the io thread
runs the serial handlers one after the other, and both take `state_mutex_` for their critical
sections.  An input of the machine is one critical section (with the code of its thread around
it), so a run is an interleaving of the two threads.  The clock readings, the publisher counts,
the graph and the session ids drawn are arbitrary.

The output of a step is the write request handed to the serial port in it.
-/

namespace RobotCore

open Machine

inductive BridgeInput where
  -- the executor
  | onCommand (publisherCount : ℕ) (nowNs : ℤ) (message : ThrusterCommand)
  | writeCommand (publisherCount : ℕ) (nowNs : ℤ) (drawn : UInt32)
  | enqueueLatestWrite
  | publishStatus (graph : Option (List Endpoint)) (publisherCount : ℕ)
  | calibrateImuGyro (nowNs imuArrivalNs : ℤ)
  | destroy
  -- the io thread
  | openSerial (outcome : OpenOutcome) (drawn : UInt32)
  | boardStatus (board : BoardStatusFrame) (nowNs : ℤ) (drawn : UInt32)
  | drainLatestWrite
  | writeCompleted (failed : Bool)
  | writeDeadline
  | readFailed
  | beginShutdown
  | shutdownDeadline
  | continueIo (nowNs : ℤ) (drawn : UInt32)

/-- The session id an input draws, if its handler may rotate the session. -/
def BridgeInput.drawn? : BridgeInput → Option UInt32
  | .writeCommand _ _ drawn => some drawn
  | .openSerial _ drawn => some drawn
  | .boardStatus _ _ drawn => some drawn
  | .continueIo _ drawn => some drawn
  | _ => none

/-- The rejection loop of `rotate_session_locked` only stops at a nonzero id other than the
current one. -/
def drawAccepted (s : Bridge) (input : BridgeInput) : Bool :=
  match input.drawn? with
  | some drawn => drawn != 0 && drawn != s.session.sessionId
  | none => true

/-- The next piece of the running io handler. -/
def continueIo (cfg : BridgeConfig) (s : Bridge) (nowNs : ℤ) (drawn : UInt32) :
    Option (Bridge × Option WriteRequest) :=
  match s.task with
  | .idle => none
  | .linkOpened => some (linkOpenedIo s, none)
  | .faultRotate operation => some (faultRotateIo s operation drawn, none)
  | .dispatchNeutral => some (dispatchNeutralCurrentSessionIo s, none)
  | .queueWrite request => some (queueWriteIo s request, none)
  | .startWrite request => some (startWriteIo cfg s request nowNs)

/-- A callback of the executor, which is free between two callbacks. -/
def executorStep (cfg : BridgeConfig) (s : Bridge) : BridgeInput → Option Bridge
  | .onCommand publisherCount nowNs message =>
    some (onCommand cfg s publisherCount nowNs message)
  | .writeCommand publisherCount nowNs drawn =>
    some (writeCommand cfg s publisherCount nowNs drawn)
  | .publishStatus graph publisherCount => some (publishStatus cfg s graph publisherCount)
  | .calibrateImuGyro nowNs imuArrivalNs => some (calibrateImuGyro cfg s nowNs imuArrivalNs)
  | .destroy => some { s with shuttingDown := true }
  | _ => none

/-- A handler of the io thread, which is free between two handlers. -/
def ioStep (s : Bridge) : BridgeInput → Option Bridge
  | .openSerial outcome drawn => some (openSerialIo s outcome drawn)
  | .boardStatus board nowNs drawn => some (acceptBoardStatusIo s board nowNs drawn)
  | .drainLatestWrite => some (drainLatestWriteIo s)
  | .writeCompleted failed =>
    s.activeWrite.map fun completed => writeCompletedIo s completed failed
  | .writeDeadline => s.activeWrite.map fun _ => handleIoFaultIo s "write deadline"
  | .readFailed => some (handleIoFaultIo s "read")
  | .beginShutdown => if s.shuttingDown then some (beginShutdownIo s) else none
  | .shutdownDeadline => if s.shutdownNeutralQueued then some (finishShutdownIo s) else none
  | _ => none

def bridgeStep (cfg : BridgeConfig) (s : Bridge) (input : BridgeInput) :
    Option (Bridge × Option WriteRequest) :=
  if !drawAccepted s input then none
  else
    match input with
    | .continueIo nowNs drawn => continueIo cfg s nowNs drawn
    | .enqueueLatestWrite =>
      s.builtRequest.map fun request => (enqueueLatestWrite s request, none)
    | input =>
      match s.builtRequest, executorStep cfg s input with
      | none, some s' => some (s', none)
      | _, _ =>
        match s.task, ioStep s input with
        | .idle, some s' => some (s', none)
        | _, _ => none

/-- The bridge node, with the session id its constructor draws. -/
def bridgeMachine (cfg : BridgeConfig) (initialSession : UInt32) :
    Machine Bridge BridgeInput (Option WriteRequest) where
  init := Bridge.initial initialSession
  step := bridgeStep cfg

/-- A transition of the bridge. -/
abbrev BridgeTransition := Transition Bridge BridgeInput (Option WriteRequest)

/-- A history of the bridge. -/
abbrev BridgeHistory := History Bridge BridgeInput (Option WriteRequest)

end RobotCore
