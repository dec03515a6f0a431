import RobotCore.Bridge.Command

/-!
# Board status in the bridge

`accept_board_status_io` as one critical section followed by what the io thread does next.  The
section is written as its stages: the boot identity of the board, the calibration progress, a
dropped session, and the validation of the acknowledgement.
-/

namespace RobotCore

/-! ### Semantic validity -/

/-- The reason `board_status_semantically_valid` reports, or `none` for a valid status. -/
def boardStatusSemanticReason (status : BoardStatusFrame) : Option String :=
  let calibrationFlags := status.flags &&&
    (kStatusFlagImuCalibrating ||| kStatusFlagImuCalibrationOk ||| kStatusFlagImuCalibrationFail)
  if hasFlag status.flags (~~~kStatusFlagMask) then some "unknown board-status flag"
  else if status.safetyReason > kMaximumSafetyReason then some "unknown board safety reason"
  else if !boardStatusReasonFlagsConsistent status then
    some "board safety reason contradicts session/failsafe flags"
  else if calibrationFlags != 0 && calibrationFlags &&& (calibrationFlags - 1) != 0 then
    some "contradictory IMU calibration flags"
  else if hasFlag status.flags kStatusFlagImuCalibrating &&
      hasFlag status.flags kStatusFlagOutputsEnabled then
    some "outputs enabled during IMU calibration"
  else if status.bootId == 0 then some "zero board boot challenge"
  else if status.pwmUs.toList.any
      fun pwm => pwm < kMinimumReportedPwmUs || pwm > kMaximumReportedPwmUs then
    some "board PWM command echo outside firmware limits"
  else none

/-! ### Stages of an accepted status -/

/-- The state with the reason of the rotation this status has caused so far. -/
structure StatusProgress where
  bridge : Bridge
  rotatedFor : Option String

/-- The board tick ran backwards, other than by wrapping around. -/
def tickRolledBack (b : BoardState) (board : BoardStatusFrame) : Bool :=
  b.haveIdentityTick && board.boardTickMs < b.lastIdentityTick &&
    b.lastIdentityTick - board.boardTickMs ≤ 0x80000000

/-- The boot identity: a first challenge, another boot, or a tick running backwards starts a new
session. -/
def updateBootIdentity (s : Bridge) (board : BoardStatusFrame) (drawn : UInt32) :
    StatusProgress :=
  if !s.board.haveLinkBootChallenge then
    let bootChanged := s.board.haveBootIdentity && board.bootId != s.board.bootIdentity
    let tickRolledBack :=
      s.board.haveBootIdentity && !bootChanged && tickRolledBack s.board board
    let reason :=
      if bootChanged then "board boot_id changed while link was down"
      else if tickRolledBack then "board tick rolled backwards while link was down"
      else "fresh board boot challenge acquired"
    let s :=
      { s with
        board :=
          { s.board with
            haveLinkBootChallenge := true
            linkBootId := board.bootId
            haveBootIdentity := true
            bootIdentity := board.bootId
            lastIdentityTick := board.boardTickMs
            haveIdentityTick := true } }
    ⟨rotateSessionLocked s drawn reason false, some reason⟩
  else if board.bootId != s.board.bootIdentity then
    let reason := "board boot_id changed"
    let s :=
      { s with
        board :=
          { s.board with
            linkBootId := board.bootId
            bootIdentity := board.bootId
            lastIdentityTick := board.boardTickMs
            haveIdentityTick := true } }
    ⟨rotateSessionLocked s drawn reason false, some reason⟩
  else
    let reason := "board tick rolled backwards"
    let rolledBack := tickRolledBack s.board board
    let s :=
      { s with
        board :=
          { s.board with lastIdentityTick := board.boardTickMs, haveIdentityTick := true } }
    if rolledBack then ⟨rotateSessionLocked s drawn reason false, some reason⟩ else ⟨s, none⟩

def storeStatus (s : Bridge) (board : BoardStatusFrame) (nowNs : ℤ) : Bridge :=
  { s with
    board := { s.board with latestStatus := board, haveStatus := true, lastStatusNs := nowNs } }

/-- Calibration progress: the request is over once the board was seen calibrating and then reports
success or failure. -/
def updateCalibration (s : Bridge) (board : BoardStatusFrame) : Bridge :=
  let calibrationActive := hasFlag board.flags kStatusFlagImuCalibrating
  let seenActive :=
    s.calibration.seenActive || (s.calibration.requested && calibrationActive)
  let s := { s with calibration := { s.calibration with seenActive := seenActive } }
  if s.calibration.requested && seenActive && !calibrationActive then
    if hasFlag board.flags kStatusFlagImuCalibrationOk then
      { s with
        calibration := { s.calibration with requested := false }
        transitionReason := "external IMU gyro calibration succeeded" }
    else if hasFlag board.flags kStatusFlagImuCalibrationFail then
      { s with
        calibration := { s.calibration with requested := false }
        transitionReason := "external IMU gyro calibration failed" }
    else s
  else s

/-- The status is established for the current session. -/
def reportedSession (s : Session) (board : BoardStatusFrame) : Bool :=
  hasFlag board.flags kStatusFlagSessionEstablished && board.sessionId == s.sessionId

/-- The loop over `dispatched_history_`, in which the last match wins. -/
def findDispatched (history : List CommandFrame) (sequence : UInt32) : Option CommandFrame :=
  history.foldl (fun found command => if command.sequence == sequence then some command else found)
    none

/-- `lag >= 0x80000000U || lag > kMaximumAckSequenceLag` -/
def lagExceeded (lastDispatched sequence : UInt32) : Bool :=
  let lag := lastDispatched - sequence
  lag ≥ 0x80000000 || lag > kMaximumAckSequenceLag

/-- The two history lookups: both frames found, and the received one bound to this boot and
session. -/
def identifyDispatched (s : Session) (board : BoardStatusFrame) : Option CommandFrame :=
  match findDispatched s.dispatchedHistory board.receivedSequence,
      findDispatched s.dispatchedHistory board.appliedSequence with
  | some received, some applied =>
    if received.bootId != board.bootId || received.sessionId != board.sessionId then none
    else some applied
  | _, _ => none

/-- The checks on an acknowledgement, in the order of the source: the reason of the first one that
fails, or `none` for a valid acknowledgement. -/
def ackFaultReason (s : Session) (board : BoardStatusFrame) : Option String :=
  if !s.haveDispatchedSequence then some "board ACK before any command dispatch"
  else if sequenceNewer board.appliedSequence board.receivedSequence then
    some "board applied sequence is newer than received sequence"
  else if sequenceNewer board.receivedSequence s.lastDispatchedSequence then
    some "board ACK is newer than the last dispatched command"
  else if s.haveAckBaseline &&
      (sequenceNewer s.lastAckReceived board.receivedSequence ||
        sequenceNewer s.lastAckApplied board.appliedSequence) then
    some "board ACK sequence moved backwards"
  else if lagExceeded s.lastDispatchedSequence board.receivedSequence then
    some "board received-sequence ACK exceeded lag budget"
  else if lagExceeded s.lastDispatchedSequence board.appliedSequence then
    some "board applied-sequence ACK exceeded lag budget"
  else
    match identifyDispatched s board with
    | none => some "board ACK does not identify a dispatched boot-bound command"
    | some applied =>
      if boardStatusMatchesAppliedCommand board applied then none
      else some "board applied ACK/PWM echo does not match dispatched command"

/-- A valid acknowledgement moves the baseline; one that covers the handshake frame acknowledges
the session. -/
def acceptAck (s : Session) (board : BoardStatusFrame) : Session :=
  let s :=
    { s with
      haveAckBaseline := true
      lastAckReceived := board.receivedSequence
      lastAckApplied := board.appliedSequence }
  let handshakeApplied := s.haveHandshakeSequence &&
    (board.appliedSequence == s.handshakeSequence ||
      sequenceNewer board.appliedSequence s.handshakeSequence)
  if handshakeApplied then { s with sessionAcknowledged := true, ackFaultLatched := false } else s

/-- The session stages: a dropped session and the acknowledgement. -/
def updateSession (p : StatusProgress) (board : BoardStatusFrame) (drawn : UInt32) :
    StatusProgress :=
  let s := p.bridge
  let reported := reportedSession s.session board
  match p.rotatedFor with
  | some _ => p
  | none =>
    if s.session.sessionAcknowledged && !reported then
      let reason := "board dropped the acknowledged session"
      ⟨rotateSessionLocked s drawn reason false, some reason⟩
    else if reported then
      match ackFaultReason s.session board with
      | some reason => ⟨rotateSessionLocked s drawn reason true, some reason⟩
      | none => ⟨{ s with session := acceptAck s.session board }, none⟩
    else p

/-- The neutral frame of the shutdown has been applied by the board. -/
def shutdownNeutralApplied (s : Bridge) (board : BoardStatusFrame) : Bool :=
  s.shuttingDown && s.shutdownNeutralQueued && board.sessionId == s.shutdownSessionId &&
    hasFlag board.flags kStatusFlagSessionEstablished &&
    !hasFlag board.flags kStatusFlagOutputsEnabled &&
    (board.appliedSequence == s.shutdownSequence ||
      sequenceNewer board.appliedSequence s.shutdownSequence)

/-! ### The handler -/

def finishShutdownIo (s : Bridge) : Bridge :=
  if s.shutdownFinished then s
  else
    { s with shutdownFinished := true, linkOpen := false, connected := false, serialOpen := false }

/-- The critical section for a semantically valid status. -/
def acceptValidStatus (s : Bridge) (board : BoardStatusFrame) (nowNs : ℤ) (drawn : UInt32) :
    StatusProgress :=
  let s :=
    { s with
      board := { s.board with statusSemanticFault := false, heartbeatTimeoutLatched := false } }
  let p := updateBootIdentity s board drawn
  let p := { p with bridge := updateCalibration (storeStatus p.bridge board nowNs) board }
  updateSession p board drawn

def acceptBoardStatusIo (s : Bridge) (board : BoardStatusFrame) (nowNs : ℤ) (drawn : UInt32) :
    Bridge :=
  match boardStatusSemanticReason board with
  | some _ =>
    if s.board.statusSemanticFault then s
    else
      let s := rotateSessionLocked s drawn "invalid board-status semantics" true
      { s with board := { s.board with statusSemanticFault := true }, task := .dispatchNeutral }
  | none =>
    let p := acceptValidStatus s board nowNs drawn
    match p.rotatedFor with
    | some _ => { p.bridge with task := .dispatchNeutral }
    | none =>
      if shutdownNeutralApplied p.bridge board then finishShutdownIo p.bridge else p.bridge

end RobotCore
