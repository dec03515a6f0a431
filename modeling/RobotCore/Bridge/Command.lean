import RobotCore.Bridge.State

/-!
# Command handling in the bridge

Session rotation, the arm barrier, the publisher gate, `on_command`, the calibration service and
the check every enabled frame has to pass (`host_enable_allowed_locked`).  Each function is one
critical section under `state_mutex_`; what the source samples before it takes the lock (the
publisher count, the clock) is an argument.
-/

namespace RobotCore

open Ieee

def sequenceNewer (candidate reference : UInt32) : Bool :=
  let delta := candidate - reference
  delta != 0 && delta < 0x80000000

def generationNewer (candidate reference : UInt64) : Bool :=
  let delta := candidate - reference
  delta != 0 && delta < 0x8000000000000000

def startsWith (text pre : String) : Bool := pre.toList.isPrefixOf text.toList

/-! ### Rotation and barrier -/

def resetArmBarrierLocked (c : CommandState) : CommandState :=
  { c with armAuthorized := false, sawDisarmedAfterSession := false, disarmedGeneration := 0 }

/-- `drawn` is the value of `make_session_id` with which the rejection loop stops. -/
def rotateSessionLocked (s : Bridge) (drawn : UInt32) (reason : String) (ackFault : Bool) :
    Bridge :=
  { s with
    session :=
      { sessionId := drawn
        commandSequence := 0
        haveDispatchedSequence := false
        lastDispatchedSequence := 0
        haveHandshakeSequence := false
        handshakeSequence := 0
        haveAckBaseline := false
        lastAckReceived := 0
        lastAckApplied := 0
        sessionAcknowledged := false
        ackFaultLatched := ackFault
        dispatchedHistory := [] }
    command :=
      { s.command with
        armAuthorized := false, sawDisarmedAfterSession := false, disarmedGeneration := 0 }
    transitionReason := reason }

/-- More than `command_timeout_ms_` since the last accepted command. -/
def commandExpired (cfg : BridgeConfig) (c : CommandState) (nowNs : ℤ) : Bool :=
  c.lastCommandNs > 0 && (nowNs - c.lastCommandNs).tdiv 1000000 > cfg.commandTimeoutMs

def latchCommandTimeoutLocked (cfg : BridgeConfig) (s : Bridge) (nowNs : ℤ) : Bridge :=
  if !commandExpired cfg s.command nowNs || s.command.commandTimeoutLatched then s
  else
    { s with
      command :=
        resetArmBarrierLocked
          { s.command with
            commandTimeoutLatched := true, commandValid := false, commandEnabled := false }
      transitionReason := "command_authority freshness timeout" }

def updatePublisherGateLocked (c : CommandState) (publisherCount : ℕ) : CommandState :=
  let c := { c with commandPublisherCount := publisherCount }
  let c :=
    if publisherCount != 1 then
      { c with authorityPublisherIdentified := false, authorityRefreshRequested := true }
    else if !c.authorityPublisherIdentified then { c with authorityRefreshRequested := true }
    else c
  let validGate := publisherCount == 1 && c.authorityPublisherIdentified
  let c :=
    if !validGate then
      let c := if c.commandPublisherGate || c.commandValid then resetArmBarrierLocked c else c
      { c with commandValid := false, commandEnabled := false }
    else c
  { c with commandPublisherGate := validGate }

/-! ### The authority endpoint -/

/-- A publisher as the ROS graph reports it. -/
structure Endpoint where
  nodeName : String
  nodeNamespace : String

/-- The graph shows the authority as the only publisher.  `none` stands for a failed query. -/
def discoveredAuthority (cfg : BridgeConfig) : Option (List Endpoint) → Bool
  | some [endpoint] =>
    endpoint.nodeName == cfg.authorityNodeName &&
      endpoint.nodeNamespace == cfg.authorityNodeNamespace
  | _ => false

def refreshAuthorityEndpoint (cfg : BridgeConfig) (s : Bridge) (graph : Option (List Endpoint))
    (publisherCount : ℕ) : Bridge :=
  let graphPublisherCount := (graph.getD []).length
  let validEndpoint :=
    publisherCount == 1 && graphPublisherCount == 1 && discoveredAuthority cfg graph
  let endpointAppeared := validEndpoint && !s.command.authorityPublisherIdentified
  let endpointLost := !validEndpoint && s.command.authorityPublisherIdentified
  let s :=
    if endpointAppeared || endpointLost then
      { s with
        command :=
          { resetArmBarrierLocked
              { s.command with commandValid := false, commandEnabled := false } with
            authorityEpoch := s.command.authorityEpoch + 1 }
        transitionReason :=
          if endpointAppeared then "command_authority publisher epoch changed"
          else "command_authority endpoint lost" }
    else s
  { s with
    command :=
      updatePublisherGateLocked
        { s.command with authorityPublisherIdentified := validEndpoint } publisherCount }

/-- The part of `publish_status` that changes the state: a requested endpoint refresh. -/
def publishStatus (cfg : BridgeConfig) (s : Bridge) (graph : Option (List Endpoint))
    (publisherCount : ℕ) : Bridge :=
  if s.command.authorityRefreshRequested then
    refreshAuthorityEndpoint cfg
      { s with command := { s.command with authorityRefreshRequested := false } } graph
      publisherCount
  else s

/-! ### Commands -/

/-- `static_cast<std::int16_t>(std::lround(static_cast<double>(action) * kActionPwmSpanUs))` -/
def actionOffset (action : Binary32) : Int16 :=
  Int16.ofInt (action.widen * kActionPwmSpanUs).lround

def commandValuesValid (message : ThrusterCommand) : Bool :=
  message.action.toList.all actionValueValid

def commandSourceValid (message : ThrusterCommand) : Bool :=
  startsWith message.source kAuthoritySourcePrefix

/-- The state in which `on_command` decides: the timeout latched and the gate updated. -/
def beforeCommand (cfg : BridgeConfig) (s : Bridge) (publisherCount : ℕ) (nowNs : ℤ) : Bridge :=
  let s := latchCommandTimeoutLocked cfg s nowNs
  { s with command := updatePublisherGateLocked s.command publisherCount }

/-- `message_valid` of `on_command`. -/
def commandMessageValid (cfg : BridgeConfig) (s : Bridge) (publisherCount : ℕ) (nowNs : ℤ)
    (message : ThrusterCommand) : Bool :=
  (beforeCommand cfg s publisherCount nowNs).command.commandPublisherGate &&
    commandValuesValid message && commandSourceValid message

/-- The end of `on_command`: what an accepted command does to the arm barrier. -/
def updateArmBarrier (c : CommandState) (message : ThrusterCommand) : CommandState :=
  if !message.armed then
    { c with
      armAuthorized := false
      sawDisarmedAfterSession := true
      disarmedGeneration := message.armGeneration }
  else if c.armAuthorized && message.armGeneration == c.authorizedGeneration then c
  else if c.sawDisarmedAfterSession &&
      generationNewer message.armGeneration c.disarmedGeneration then
    { c with
      armAuthorized := true
      authorizedGeneration := message.armGeneration
      sawDisarmedAfterSession := false }
  else { c with armAuthorized := false, sawDisarmedAfterSession := false }

/-- The fields `on_command` stores from an accepted command. -/
def storeCommand (c : CommandState) (nowNs : ℤ) (message : ThrusterCommand) : CommandState :=
  { c with
    commandValid := true
    commandEnabled := message.enable
    commandArmed := message.armed
    commandArmGeneration := message.armGeneration
    commandSource := message.source
    commandOffsets := message.action.map actionOffset
    lastCommandNs := nowNs
    commandTimeoutLatched := false }

def onCommand (cfg : BridgeConfig) (s : Bridge) (publisherCount : ℕ) (nowNs : ℤ)
    (message : ThrusterCommand) : Bridge :=
  let messageValid := commandMessageValid cfg s publisherCount nowNs message
  let s := beforeCommand cfg s publisherCount nowNs
  if !messageValid then
    let c :=
      if !s.command.commandPublisherGate then
        { s.command with authorityRefreshRequested := true }
      else s.command
    { s with
      command := resetArmBarrierLocked { c with commandValid := false, commandEnabled := false } }
  else
    { s with command := updateArmBarrier (storeCommand s.command nowNs message) message }

/-! ### Permission to enable -/

/-- A status frame not older than `heartbeat_timeout_ms_`. -/
def statusFresh (cfg : BridgeConfig) (b : BoardState) (nowNs : ℤ) : Bool :=
  b.haveStatus && b.lastStatusNs > 0 &&
    (nowNs - b.lastStatusNs).tdiv 1000000 ≤ cfg.heartbeatTimeoutMs

/-- A command not older than `command_timeout_ms_`. -/
def commandFresh (cfg : BridgeConfig) (c : CommandState) (nowNs : ℤ) : Bool :=
  c.lastCommandNs > 0 && (nowNs - c.lastCommandNs).tdiv 1000000 ≤ cfg.commandTimeoutMs

def hostEnableAllowedLocked (cfg : BridgeConfig) (s : Bridge) (nowNs : ℤ) : Bool :=
  let boardSession := s.board.haveStatus &&
    hasFlag s.board.latestStatus.flags kStatusFlagSessionEstablished &&
    s.board.latestStatus.sessionId == s.session.sessionId
  let boardSafe := s.board.haveStatus && !hasFlag s.board.latestStatus.flags kStatusFlagFailsafe
  let calibrationInhibit := s.calibration.requested ||
    (s.board.haveStatus && hasFlag s.board.latestStatus.flags kStatusFlagImuCalibrating)
  s.connected && statusFresh cfg s.board nowNs && !s.board.statusSemanticFault && boardSession &&
    boardSafe && s.session.sessionAcknowledged && !s.session.ackFaultLatched &&
    !calibrationInhibit &&
    s.command.commandPublisherGate && s.command.commandValid &&
    commandFresh cfg s.command nowNs && s.command.commandEnabled && s.command.commandArmed &&
    s.command.armAuthorized && s.command.commandArmGeneration == s.command.authorizedGeneration

/-! ### Gyro calibration -/

/-- The answer of the calibration service: the refusal text, or `none` when it accepts. -/
def calibrationRefusal (cfg : BridgeConfig) (s : Bridge) (nowNs imuArrivalNs : ℤ) :
    Option String :=
  let imuFresh := imuArrivalNs > 0 && nowNs - imuArrivalNs ≤ 100000000
  let boardOutputsDisabled := s.board.haveStatus &&
    !hasFlag s.board.latestStatus.flags kStatusFlagOutputsEnabled &&
    s.board.latestStatus.pwmUs.toList.all (· == 1500)
  if !s.connected || !statusFresh cfg s.board nowNs || s.board.statusSemanticFault ||
      !s.session.sessionAcknowledged then
    some "Aquaboard link/session is not healthy"
  else if !s.command.commandValid || s.command.commandArmed || s.command.commandEnabled ||
      !boardOutputsDisabled then
    some "disarm first and wait for all PWM outputs to report 1500 us"
  else if !imuFresh then some "external IMU stream is not fresh"
  else if s.calibration.requested ||
      hasFlag s.board.latestStatus.flags kStatusFlagImuCalibrating then
    some "external IMU gyro calibration is already active"
  else none

def calibrateImuGyro (cfg : BridgeConfig) (s : Bridge) (nowNs imuArrivalNs : ℤ) : Bridge :=
  match calibrationRefusal cfg s nowNs imuArrivalNs with
  | some _ => s
  | none =>
    { s with
      calibration :=
        { requested := true, seenActive := false, localFailed := false, requestNs := nowNs }
      command := resetArmBarrierLocked s.command
      transitionReason := "external IMU gyro calibration requested" }

end RobotCore
