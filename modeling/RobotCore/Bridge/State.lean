import RobotCore.Interfaces
import RobotCore.Protocol.Codec

/-!
# The state of the Aquaboard bridge

The members of `AboardBridgeNode` that decide what is written to the board.  They are grouped by
what resets them: the control session, the command state with its arm barrier, what is known of
the board, and the IMU calibration.  Members guarded by `state_mutex_` are only touched inside one
critical section at a time; the others belong to the io thread, to the executor, or are atomics.

Counters that only feed the diagnostics are left out.
-/

namespace RobotCore

open Ieee

/-! ### Constants and parameters -/

def kMinimumReportedPwmUs : UInt16 := 1000
def kMaximumReportedPwmUs : UInt16 := 2000
/-- The `double` constant `250.0`. -/
def kActionPwmSpanUs : Binary64 := Number.ofRat binary64 250
def kMaximumAckSequenceLag : UInt32 := 8
def kDispatchHistoryDepth : ℕ := 16
def kImuCalibrationStartTimeout : ℤ := 3000000000
def kImuCalibrationOverallTimeout : ℤ := 25000000000
def kAuthoritySourcePrefix : String := "command_authority:"

/-- The node parameters the modelled handlers read.  The constructor raises both timeouts to at
least one millisecond. -/
structure BridgeConfig where
  commandTimeoutMs : ℤ := 150
  heartbeatTimeoutMs : ℤ := 250
  authorityNodeName : String := "command_authority"
  authorityNodeNamespace : String := "/"

/-! ### The parts of the state -/

/-- Everything `rotate_session_locked` starts afresh. -/
structure Session where
  sessionId : UInt32 := 0
  commandSequence : UInt32 := 0
  haveDispatchedSequence : Bool := false
  lastDispatchedSequence : UInt32 := 0
  haveHandshakeSequence : Bool := false
  handshakeSequence : UInt32 := 0
  haveAckBaseline : Bool := false
  lastAckReceived : UInt32 := 0
  lastAckApplied : UInt32 := 0
  sessionAcknowledged : Bool := false
  ackFaultLatched : Bool := false
  dispatchedHistory : List CommandFrame := []
  deriving DecidableEq

/-- The last command of the authority, its publisher gate and the arm barrier. -/
structure CommandState where
  commandPublisherGate : Bool := false
  authorityPublisherIdentified : Bool := false
  authorityRefreshRequested : Bool := true
  authorityEpoch : UInt64 := 0
  commandPublisherCount : ℕ := 0
  commandValid : Bool := false
  commandEnabled : Bool := false
  commandArmed : Bool := false
  commandArmGeneration : UInt64 := 0
  authorizedGeneration : UInt64 := 0
  armAuthorized : Bool := false
  sawDisarmedAfterSession : Bool := false
  disarmedGeneration : UInt64 := 0
  lastCommandNs : ℤ := 0
  commandTimeoutLatched : Bool := false
  commandSource : String := ""
  commandOffsets : Vector Int16 kThrusterChannels := Vector.replicate _ 0
  deriving DecidableEq

/-- What the bridge knows of the board. -/
structure BoardState where
  latestStatus : BoardStatusFrame := {}
  haveStatus : Bool := false
  statusSemanticFault : Bool := false
  heartbeatTimeoutLatched : Bool := false
  haveBootIdentity : Bool := false
  haveIdentityTick : Bool := false
  haveLinkBootChallenge : Bool := false
  bootIdentity : UInt32 := 0
  lastIdentityTick : UInt32 := 0
  linkBootId : UInt32 := 0
  lastStatusNs : ℤ := 0
  deriving DecidableEq

/-- The external IMU gyro calibration. -/
structure Calibration where
  requested : Bool := false
  seenActive : Bool := false
  localFailed : Bool := false
  requestNs : ℤ := 0
  deriving DecidableEq

/-- A frame on its way to the serial port. -/
structure WriteRequest where
  frame : List UInt8 := List.replicate kCommandV2FrameSize 0
  offsets : Vector Int16 kThrusterChannels := Vector.replicate _ 0
  bootId : UInt32 := 0
  sessionId : UInt32 := 0
  sequence : UInt32 := 0
  enable : Bool := false
  calibrateImuGyro : Bool := false
  shutdown : Bool := false
  deriving DecidableEq

/-- What is left of the handler the io thread is running.  Between two of its critical sections
the executor may take the lock. -/
inductive IoTask where
  | idle
  /-- `open_serial_io` after its critical section -/
  | linkOpened
  /-- `handle_io_fault_io` before its critical section -/
  | faultRotate (operation : String)
  /-- `dispatch_neutral_current_session_io` -/
  | dispatchNeutral
  /-- `queue_write_io` -/
  | queueWrite (request : WriteRequest)
  /-- `start_write_io` -/
  | startWrite (request : WriteRequest)
  deriving DecidableEq

/-- The request the running io handler holds. -/
def IoTask.request? : IoTask → Option WriteRequest
  | .queueWrite request => some request
  | .startWrite request => some request
  | _ => none

/-- The bridge node. -/
structure Bridge where
  session : Session := {}
  command : CommandState := {}
  board : BoardState := {}
  calibration : Calibration := {}
  transitionReason : String := "process start"
  -- atomics
  connected : Bool := false
  shuttingDown : Bool := false
  -- the executor, between the critical section of `write_command` and `enqueue_latest_write`
  builtRequest : Option WriteRequest := none
  -- `outbound_mutex_`
  latestOutbound : Option WriteRequest := none
  outboundNotificationPosted : Bool := false
  -- the io thread
  task : IoTask := .idle
  linkOpen : Bool := false
  serialOpen : Bool := false
  activeWrite : Option WriteRequest := none
  pendingWrite : Option WriteRequest := none
  shutdownFinished : Bool := false
  shutdownNeutralQueued : Bool := false
  shutdownSessionId : UInt32 := 0
  shutdownSequence : UInt32 := 0

/-- The node right after its constructor, with the first session id drawn. -/
def Bridge.initial (drawn : UInt32) : Bridge := { session := { sessionId := drawn } }

/-- The boot id a command carries: the challenge of the link, or zero while none is known. -/
def Bridge.expectedBootId (s : Bridge) : UInt32 :=
  if s.board.haveLinkBootChallenge then s.board.linkBootId else 0

/-- The requests that are built and not yet dispatched. -/
def Bridge.waiting (s : Bridge) : List WriteRequest :=
  s.builtRequest.toList ++ s.latestOutbound.toList ++ s.task.request?.toList ++
    s.pendingWrite.toList

end RobotCore
