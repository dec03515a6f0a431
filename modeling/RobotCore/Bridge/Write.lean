import RobotCore.Bridge.Status

/-!
# Writing commands to the board

The way of a command from `write_command` to the serial port: it is built on the executor, handed
over through `latest_outbound_`, queued on the io thread behind an active write, and dispatched by
`start_write_io`, which checks it once more and enters it in the dispatch history.  Opening,
closing and shutting down the link are here too.
-/

namespace RobotCore

/-! ### The executor side -/

def heartbeatTimedOut (cfg : BridgeConfig) (s : Bridge) (nowNs : ℤ) : Bool :=
  s.connected && s.board.haveStatus && s.board.lastStatusNs > 0 &&
    (nowNs - s.board.lastStatusNs).tdiv 1000000 > cfg.heartbeatTimeoutMs

def latchHeartbeatTimeout (cfg : BridgeConfig) (s : Bridge) (nowNs : ℤ) (drawn : UInt32) :
    Bridge :=
  if heartbeatTimedOut cfg s nowNs && !s.board.heartbeatTimeoutLatched then
    let s := rotateSessionLocked s drawn "board-status heartbeat timeout" false
    { s with board := { s.board with heartbeatTimeoutLatched := true } }
  else s

/-- An IMU calibration request that took too long is given up. -/
def expireCalibration (s : Bridge) (nowNs : ℤ) : Bridge :=
  if s.calibration.requested then
    let elapsed := nowNs - s.calibration.requestNs
    let startTimeout := !s.calibration.seenActive && elapsed > kImuCalibrationStartTimeout
    let overallTimeout := elapsed > kImuCalibrationOverallTimeout
    if startTimeout || overallTimeout then
      { s with
        calibration := { s.calibration with requested := false, localFailed := true }
        transitionReason :=
          if startTimeout then "Aquaboard firmware did not acknowledge IMU calibration"
          else "external IMU calibration timed out" }
    else s
  else s

/-- `++command_sequence_` -/
def allocateSequence (s : Bridge) : Bridge :=
  { s with session := { s.session with commandSequence := s.session.commandSequence + 1 } }

/-- `write_command` up to the point where it builds the request. -/
def prepareCommand (cfg : BridgeConfig) (s : Bridge) (publisherCount : ℕ) (nowNs : ℤ)
    (drawn : UInt32) : Bridge :=
  let s := latchCommandTimeoutLocked cfg s nowNs
  let s := { s with command := updatePublisherGateLocked s.command publisherCount }
  let s := latchHeartbeatTimeout cfg s nowNs drawn
  allocateSequence (expireCalibration s nowNs)

/-- The request `write_command` builds from the current state. -/
def buildRequest (cfg : BridgeConfig) (s : Bridge) (nowNs : ℤ) : WriteRequest :=
  let enable := hostEnableAllowedLocked cfg s nowNs
  { sessionId := s.session.sessionId
    bootId := s.expectedBootId
    sequence := s.session.commandSequence
    calibrateImuGyro := s.calibration.requested
    enable := enable
    offsets := if enable then s.command.commandOffsets else Vector.replicate _ 0 }

/-- The critical section of `write_command`. -/
def writeCommand (cfg : BridgeConfig) (s : Bridge) (publisherCount : ℕ) (nowNs : ℤ)
    (drawn : UInt32) : Bridge :=
  let s := prepareCommand cfg s publisherCount nowNs drawn
  { s with builtRequest := some (buildRequest cfg s nowNs) }

def enqueueLatestWrite (s : Bridge) (request : WriteRequest) : Bridge :=
  let s := { s with builtRequest := none }
  if s.shuttingDown then s
  else { s with latestOutbound := some request, outboundNotificationPosted := true }

/-! ### The io side -/

def drainLatestWriteIo (s : Bridge) : Bridge :=
  let request := s.latestOutbound
  let s := { s with outboundNotificationPosted := false, latestOutbound := none }
  match request with
  | none => s
  | some request =>
    if s.shuttingDown && !request.shutdown then s else { s with task := .queueWrite request }

/-- `queue_write_io`: a request of another session or boot is dropped; behind an active write the
newest request of a session waits. -/
def queueWriteIo (s : Bridge) (request : WriteRequest) : Bridge :=
  let s := { s with task := .idle }
  if request.sessionId != s.session.sessionId then s
  else if request.bootId != s.expectedBootId then s
  else
    match s.activeWrite, s.pendingWrite with
    | none, _ => { s with task := .startWrite request }
    | some _, some pending =>
      if pending.sessionId == request.sessionId &&
          !sequenceNewer request.sequence pending.sequence then s
      else { s with pendingWrite := some request }
    | some _, none => { s with pendingWrite := some request }

/-- The request as `start_write_io` sends it: enabled only if that is still allowed, and never
together with a calibration. -/
def recheckRequest (cfg : BridgeConfig) (s : Bridge) (request : WriteRequest) (nowNs : ℤ) :
    WriteRequest :=
  let request :=
    if request.enable && !hostEnableAllowedLocked cfg s nowNs then
      { request with enable := false, offsets := Vector.replicate _ 0 }
    else request
  if request.calibrateImuGyro then
    { request with enable := false, offsets := Vector.replicate _ 0 }
  else request

/-- The history entry of a request. -/
def dispatchedFrame (request : WriteRequest) : CommandFrame where
  flags := commandFlags request.enable request.calibrateImuGyro
  bootId := request.bootId
  sessionId := request.sessionId
  sequence := request.sequence
  offsetsUs := request.offsets

/-- `push_back`, then `pop_front` down to the history depth. -/
def pushHistory (history : List CommandFrame) (frame : CommandFrame) : List CommandFrame :=
  let history := history ++ [frame]
  history.drop (history.length - kDispatchHistoryDepth)

/-- What a dispatch records in the session. -/
def recordDispatch (s : Session) (request : WriteRequest) : Session :=
  let s := { s with lastDispatchedSequence := request.sequence, haveDispatchedSequence := true }
  let s :=
    if !request.enable && !s.haveHandshakeSequence then
      { s with handshakeSequence := request.sequence, haveHandshakeSequence := true }
    else s
  { s with dispatchedHistory := pushHistory s.dispatchedHistory (dispatchedFrame request) }

/-- `start_write_io`, and the request whose frame it hands to the serial port. -/
def startWriteIo (cfg : BridgeConfig) (s : Bridge) (request : WriteRequest) (nowNs : ℤ) :
    Bridge × Option WriteRequest :=
  let s := { s with task := .idle }
  if !s.linkOpen || !s.serialOpen then
    (if request.shutdown then finishShutdownIo s else s, none)
  else if request.sessionId != s.session.sessionId then (s, none)
  else if s.session.haveDispatchedSequence &&
      !sequenceNewer request.sequence s.session.lastDispatchedSequence then (s, none)
  else
    let request := recheckRequest cfg s request nowNs
    let sent :=
      { request with
        frame := buildCommandV2 request.bootId request.sessionId request.sequence request.enable
          request.offsets request.calibrateImuGyro }
    ({ s with session := recordDispatch s.session request, activeWrite := some sent }, some sent)

/-- A neutral request for the current session. -/
def neutralRequest (s : Bridge) (shutdown : Bool) : WriteRequest :=
  { sessionId := s.session.sessionId
    bootId := s.expectedBootId
    sequence := s.session.commandSequence
    shutdown := shutdown }

def dispatchNeutralCurrentSessionIo (s : Bridge) : Bridge :=
  let s := { s with task := .idle }
  if !s.linkOpen || s.shuttingDown then s
  else
    let s := allocateSequence s
    { s with task := .queueWrite (neutralRequest s false) }

/-! ### The link -/

/-- How far `open_serial_io` got with the port. -/
inductive OpenOutcome where
  | cannotOpen
  | setupFailed
  | opened

/-- `open_serial_io` up to the end of its critical section. -/
def openSerialIo (s : Bridge) (outcome : OpenOutcome) (drawn : UInt32) : Bridge :=
  if s.shuttingDown || s.linkOpen then s
  else
    match outcome with
    | .cannotOpen => { s with connected := false }
    | .setupFailed => { s with serialOpen := false }
    | .opened =>
      let s :=
        { s with
          serialOpen := true
          board :=
            { s.board with
              lastStatusNs := 0
              statusSemanticFault := false
              heartbeatTimeoutLatched := false
              haveLinkBootChallenge := false
              linkBootId := 0 } }
      { rotateSessionLocked s drawn "serial link opened" false with task := .linkOpened }

/-- The rest of `open_serial_io`. -/
def linkOpenedIo (s : Bridge) : Bridge :=
  { s with linkOpen := true, connected := true, task := .dispatchNeutral }

/-- `handle_io_fault_io` up to its critical section. -/
def handleIoFaultIo (s : Bridge) (operation : String) : Bridge :=
  if !s.linkOpen then s
  else
    { s with
      linkOpen := false, connected := false, pendingWrite := none, task := .faultRotate operation }

/-- The rest of `handle_io_fault_io`. -/
def faultRotateIo (s : Bridge) (operation : String) (drawn : UInt32) : Bridge :=
  let s :=
    { s with board := { s.board with lastStatusNs := 0, statusSemanticFault := false } }
  let s := rotateSessionLocked s drawn ("serial " ++ operation ++ " fault") false
  let s := { s with serialOpen := false, task := .idle }
  if s.shuttingDown then finishShutdownIo s else s

/-- The completion handler of `async_write`. -/
def writeCompletedIo (s : Bridge) (completed : WriteRequest) (failed : Bool) : Bridge :=
  let s := { s with activeWrite := none }
  if failed then handleIoFaultIo s "write"
  else if completed.shutdown then s
  else
    match s.pendingWrite with
    | none => s
    | some next => { s with pendingWrite := none, task := .startWrite next }

def beginShutdownIo (s : Bridge) : Bridge :=
  let s := { s with latestOutbound := none, outboundNotificationPosted := false }
  if !s.linkOpen || !s.serialOpen then finishShutdownIo s
  else
    let s := allocateSequence s
    let neutral := neutralRequest s true
    let s :=
      { s with
        shutdownNeutralQueued := true
        shutdownSessionId := neutral.sessionId
        shutdownSequence := neutral.sequence }
    match s.activeWrite with
    | some _ => { s with pendingWrite := some neutral }
    | none => { s with task := .startWrite neutral }

end RobotCore
