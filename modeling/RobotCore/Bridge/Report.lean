import RobotCore.Bridge.Node

/-!
# The status the bridge publishes

The second half of `publish_status`: the bridge takes a snapshot of its members under the lock and
builds a `BoardStatus` from it, reading `connected_` twice on the way.  The io thread may run
between these steps, the executor does not.  The time is read before the snapshot is taken, so the
snapshot may be newer than it.

The runtime statistics, which have a topic of their own, are left out.
-/

namespace RobotCore

open Machine

/-- What `publish_status` uses of a `StateSnapshot`. -/
structure StateSnapshot where
  board : BoardStatusFrame
  haveStatus : Bool
  semanticFault : Bool
  sessionAcknowledged : Bool
  ackFault : Bool
  commandValid : Bool
  commandArmed : Bool
  armAuthorized : Bool
  publisherGate : Bool
  imuCalibrationLocalFailed : Bool
  sessionId : UInt32
  lastStatusNs : ℤ
  lastCommandNs : ℤ

def snapshotState (s : Bridge) : StateSnapshot where
  board := s.board.latestStatus
  haveStatus := s.board.haveStatus
  semanticFault := s.board.statusSemanticFault
  sessionAcknowledged := s.session.sessionAcknowledged
  ackFault := s.session.ackFaultLatched
  commandValid := s.command.commandValid
  commandArmed := s.command.commandArmed
  armAuthorized := s.command.armAuthorized
  publisherGate := s.command.commandPublisherGate
  imuCalibrationLocalFailed := s.calibration.localFailed
  sessionId := s.session.sessionId
  lastStatusNs := s.board.lastStatusNs
  lastCommandNs := s.command.lastCommandNs

/-- `robotcore_interfaces::msg::BoardStatus` -/
structure BoardStatusMessage where
  connected : Bool
  heartbeatOk : Bool
  sessionEstablished : Bool
  outputsEnabled : Bool
  imuGyroCalibrationActive : Bool
  imuGyroCalibrationSucceeded : Bool
  imuGyroCalibrationFailed : Bool
  failsafeActive : Bool
  protocolVersion : UInt8
  boardTickMs : UInt32
  bootId : UInt32
  resetCause : UInt8
  controlSessionId : UInt32
  receivedSequence : UInt32
  appliedSequence : UInt32
  commandAgeMs : UInt16
  rxCrcErrors : UInt16
  safetyReason : UInt8
  pwmUs : Vector UInt16 kThrusterChannels
  deriving DecidableEq

/-- `heartbeat` of `publish_status` -/
def reportedHeartbeat (cfg : BridgeConfig) (snapshot : StateSnapshot) (connected : Bool)
    (steadyNs : ℤ) : Bool :=
  connected && snapshot.haveStatus && !snapshot.semanticFault && snapshot.lastStatusNs > 0 &&
    (steadyNs - snapshot.lastStatusNs).tdiv 1000000 ≤ cfg.heartbeatTimeoutMs

/-- The message built from a snapshot, with `connected_` as it is read for it. -/
def boardStatusMessage (cfg : BridgeConfig) (snapshot : StateSnapshot)
    (heartbeat connected : Bool) (steadyNs : ℤ) : BoardStatusMessage :=
  let flag (mask : UInt8) := snapshot.haveStatus && hasFlag snapshot.board.flags mask
  let reportedSession := flag kStatusFlagSessionEstablished &&
    snapshot.board.sessionId == snapshot.sessionId
  let reportedFailsafe := flag kStatusFlagFailsafe
  let sessionOk := heartbeat && reportedSession && snapshot.sessionAcknowledged &&
    !snapshot.ackFault
  let commandFresh := snapshot.lastCommandNs > 0 &&
    (steadyNs - snapshot.lastCommandNs).tdiv 1000000 ≤ cfg.commandTimeoutMs
  let publisherFault := !snapshot.publisherGate || !snapshot.commandValid || !commandFresh
  let rearmRequired := snapshot.commandValid && snapshot.commandArmed && !snapshot.armAuthorized
  { connected := connected
    heartbeatOk := heartbeat
    sessionEstablished := sessionOk
    outputsEnabled := flag kStatusFlagOutputsEnabled
    imuGyroCalibrationActive := flag kStatusFlagImuCalibrating
    imuGyroCalibrationSucceeded := flag kStatusFlagImuCalibrationOk
    imuGyroCalibrationFailed :=
      snapshot.imuCalibrationLocalFailed || flag kStatusFlagImuCalibrationFail
    failsafeActive := !heartbeat || !sessionOk || snapshot.semanticFault || snapshot.ackFault ||
      reportedFailsafe || publisherFault || rearmRequired
    protocolVersion := if snapshot.haveStatus then snapshot.board.protocolVersion else 0
    boardTickMs := snapshot.board.boardTickMs
    bootId := snapshot.board.bootId
    resetCause := snapshot.board.resetCause
    controlSessionId := snapshot.board.sessionId
    receivedSequence := snapshot.board.receivedSequence
    appliedSequence := snapshot.board.appliedSequence
    commandAgeMs := snapshot.board.commandAgeMs
    rxCrcErrors := snapshot.board.rxCrcErrors
    safetyReason := snapshot.board.safetyReason
    pwmUs := if snapshot.haveStatus then snapshot.board.pwmUs else Vector.replicate _ 1500 }

/-! ### The bridge with its reports -/

/-- How far `publish_status` has come. -/
inductive Publishing where
  | idle
  | snapshotTaken (steadyNs : ℤ) (snapshot : StateSnapshot)
  | heartbeatKnown (steadyNs : ℤ) (snapshot : StateSnapshot) (heartbeat : Bool)

structure Reporting where
  bridge : Bridge
  publishing : Publishing := .idle

inductive ReportingInput where
  | bridge (input : BridgeInput)
  | snapshotState (steadyNs : ℤ)
  | loadConnected
  | publish

structure ReportingOutput where
  write : Option WriteRequest := none
  status : Option BoardStatusMessage := none

/-- The input is a callback of the executor. -/
def BridgeInput.isExecutor : BridgeInput → Bool
  | .onCommand .. => true
  | .writeCommand .. => true
  | .enqueueLatestWrite => true
  | .publishStatus .. => true
  | .calibrateImuGyro .. => true
  | .destroy => true
  | _ => false

def reportingStep (cfg : BridgeConfig) (s : Reporting) :
    ReportingInput → Option (Reporting × ReportingOutput)
  | .bridge input =>
    match s.publishing, input.isExecutor with
    | .idle, _ | _, false =>
      (bridgeStep cfg s.bridge input).map fun (bridge, write) =>
        ({ s with bridge := bridge }, { write := write })
    | _, true => none
  | .snapshotState steadyNs =>
    match s.publishing, s.bridge.builtRequest with
    | .idle, none =>
      some ({ s with publishing := .snapshotTaken steadyNs (snapshotState s.bridge) }, {})
    | _, _ => none
  | .loadConnected =>
    match s.publishing with
    | .snapshotTaken steadyNs snapshot =>
      let heartbeat := reportedHeartbeat cfg snapshot s.bridge.connected steadyNs
      some ({ s with publishing := .heartbeatKnown steadyNs snapshot heartbeat }, {})
    | _ => none
  | .publish =>
    match s.publishing with
    | .heartbeatKnown steadyNs snapshot heartbeat =>
      let status := boardStatusMessage cfg snapshot heartbeat s.bridge.connected steadyNs
      some ({ s with publishing := .idle }, { status := some status })
    | _ => none

/-- The bridge node with the status it publishes. -/
def reportingMachine (cfg : BridgeConfig) (initialSession : UInt32) :
    Machine Reporting ReportingInput ReportingOutput where
  init := { bridge := Bridge.initial initialSession }
  step := reportingStep cfg

abbrev ReportingTransition := Transition Reporting ReportingInput ReportingOutput

abbrev ReportingHistory := History Reporting ReportingInput ReportingOutput

/-- A transition as the bridge sees it. -/
def reported? (x : ReportingTransition) : Option BridgeTransition :=
  match x.input with
  | .bridge input => some ⟨x.pre.bridge, input, x.output.write, x.post.bridge⟩
  | _ => none

end RobotCore
