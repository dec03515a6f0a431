import RobotCore.Bridge.Node

/-!
# The steps of the bridge

`BridgeRule` lists the handlers with the guards under which they run; `rule_of_step` is the
inversion of `bridgeStep` that every later proof starts from.  Three lemmas then say once what a
step can do to a part of the node: `session_step` to the control session, `waiting_step` to the
requests not yet dispatched, and `bootId_step` to the boot challenge.
-/

namespace RobotCore

open Machine

variable {cfg : BridgeConfig} {s s' : Bridge} {i : BridgeInput} {o : Option WriteRequest}

/-! ### The rules -/

/-- The rejection loop of `rotate_session_locked` stops at `drawn`. -/
def DrawOk (s : Bridge) (drawn : UInt32) : Prop := drawn ≠ 0 ∧ drawn ≠ s.session.sessionId

/-- The steps of the bridge. -/
inductive BridgeRule (cfg : BridgeConfig) (s : Bridge) :
    BridgeInput → Bridge → Option WriteRequest → Prop
  | onCommand {publisherCount nowNs message} (free : s.builtRequest = none) :
    BridgeRule cfg s (.onCommand publisherCount nowNs message)
      (onCommand cfg s publisherCount nowNs message) none
  | writeCommand {publisherCount nowNs drawn} (free : s.builtRequest = none)
      (draw : DrawOk s drawn) :
    BridgeRule cfg s (.writeCommand publisherCount nowNs drawn)
      (writeCommand cfg s publisherCount nowNs drawn) none
  | enqueueLatestWrite {request} (built : s.builtRequest = some request) :
    BridgeRule cfg s .enqueueLatestWrite (enqueueLatestWrite s request) none
  | publishStatus {graph publisherCount} (free : s.builtRequest = none) :
    BridgeRule cfg s (.publishStatus graph publisherCount)
      (publishStatus cfg s graph publisherCount) none
  | calibrateImuGyro {nowNs imuArrivalNs} (free : s.builtRequest = none) :
    BridgeRule cfg s (.calibrateImuGyro nowNs imuArrivalNs)
      (calibrateImuGyro cfg s nowNs imuArrivalNs) none
  | destroy (free : s.builtRequest = none) :
    BridgeRule cfg s .destroy { s with shuttingDown := true } none
  | openSerial {outcome drawn} (idle : s.task = .idle) (draw : DrawOk s drawn) :
    BridgeRule cfg s (.openSerial outcome drawn) (openSerialIo s outcome drawn) none
  | boardStatus {board nowNs drawn} (idle : s.task = .idle) (draw : DrawOk s drawn) :
    BridgeRule cfg s (.boardStatus board nowNs drawn) (acceptBoardStatusIo s board nowNs drawn)
      none
  | drainLatestWrite (idle : s.task = .idle) :
    BridgeRule cfg s .drainLatestWrite (drainLatestWriteIo s) none
  | writeCompleted {completed failed} (idle : s.task = .idle)
      (active : s.activeWrite = some completed) :
    BridgeRule cfg s (.writeCompleted failed) (writeCompletedIo s completed failed) none
  | writeDeadline {active} (idle : s.task = .idle) (isActive : s.activeWrite = some active) :
    BridgeRule cfg s .writeDeadline (handleIoFaultIo s "write deadline") none
  | readFailed (idle : s.task = .idle) :
    BridgeRule cfg s .readFailed (handleIoFaultIo s "read") none
  | beginShutdown (idle : s.task = .idle) (shutting : s.shuttingDown = true) :
    BridgeRule cfg s .beginShutdown (beginShutdownIo s) none
  | shutdownDeadline (idle : s.task = .idle) (queued : s.shutdownNeutralQueued = true) :
    BridgeRule cfg s .shutdownDeadline (finishShutdownIo s) none
  | linkOpened {nowNs drawn} (task : s.task = .linkOpened) :
    BridgeRule cfg s (.continueIo nowNs drawn) (linkOpenedIo s) none
  | faultRotate {nowNs drawn operation} (task : s.task = .faultRotate operation)
      (draw : DrawOk s drawn) :
    BridgeRule cfg s (.continueIo nowNs drawn) (faultRotateIo s operation drawn) none
  | dispatchNeutral {nowNs drawn} (task : s.task = .dispatchNeutral) :
    BridgeRule cfg s (.continueIo nowNs drawn) (dispatchNeutralCurrentSessionIo s) none
  | queueWrite {nowNs drawn request} (task : s.task = .queueWrite request) :
    BridgeRule cfg s (.continueIo nowNs drawn) (queueWriteIo s request) none
  | startWrite {nowNs drawn request} (task : s.task = .startWrite request) :
    BridgeRule cfg s (.continueIo nowNs drawn) (startWriteIo cfg s request nowNs).1
      (startWriteIo cfg s request nowNs).2

theorem drawOk_of_drawAccepted {drawn : UInt32} (hi : i.drawn? = some drawn)
    (h : drawAccepted s i = true) : DrawOk s drawn := by
  unfold drawAccepted at h
  rw [hi] at h
  simpa [DrawOk] using h

/-- **Inversion of a step.** -/
theorem rule_of_step (h : bridgeStep cfg s i = some (s', o)) : BridgeRule cfg s i s' o := by
  unfold bridgeStep at h
  cases hd : drawAccepted s i with
  | false =>
    rw [hd] at h
    cases h
  | true =>
    rw [hd, Bool.not_true, if_neg Bool.false_ne_true] at h
    cases i with
    | continueIo nowNs drawn =>
      -- the io thread goes on with the task it has
      simp only [continueIo] at h
      have hdraw := drawOk_of_drawAccepted rfl hd
      split at h
      · cases h
      all_goals
        rename_i htask
        obtain ⟨rfl, rfl⟩ := Prod.mk.inj (Option.some.inj h)
      · exact .linkOpened htask
      · exact .faultRotate htask hdraw
      · exact .dispatchNeutral htask
      · exact .queueWrite htask
      · exact .startWrite htask
    | enqueueLatestWrite =>
      obtain ⟨request, hbuilt, heq⟩ := Option.map_eq_some_iff.mp h
      obtain ⟨rfl, rfl⟩ := Prod.mk.inj heq
      exact .enqueueLatestWrite hbuilt
    | onCommand | writeCommand | publishStatus | calibrateImuGyro | destroy =>
      -- the callbacks of the executor run while the io thread is anywhere
      simp only [executorStep, ioStep] at h
      split at h
      · rename_i hfree heq
        cases h
        cases heq
        first
          | exact .onCommand hfree
          | exact .writeCommand hfree (drawOk_of_drawAccepted rfl hd)
          | exact .publishStatus hfree
          | exact .calibrateImuGyro hfree
          | exact .destroy hfree
      · split at h <;> simp_all
    | openSerial | boardStatus | drainLatestWrite | readFailed =>
      -- the io thread begins something new only while it is idle
      simp only [executorStep, ioStep] at h
      split at h
      · simp_all
      · split at h
        · rename_i hidle heq
          cases h
          cases heq
          first
            | exact .openSerial hidle (drawOk_of_drawAccepted rfl hd)
            | exact .boardStatus hidle (drawOk_of_drawAccepted rfl hd)
            | exact .drainLatestWrite hidle
            | exact .readFailed hidle
        · cases h
    | writeCompleted | writeDeadline =>
      simp only [executorStep, ioStep] at h
      split at h
      · simp_all
      · split at h
        · rename_i hidle heq
          -- there is a write to complete or to time out
          obtain ⟨active, hactive, rfl⟩ := Option.map_eq_some_iff.mp heq
          cases h
          first
            | exact .writeCompleted hidle hactive
            | exact .writeDeadline hidle hactive
        · cases h
    | beginShutdown | shutdownDeadline =>
      simp only [executorStep, ioStep] at h
      split at h
      · simp_all
      · split at h
        · rename_i hidle heq
          -- the shutdown has its own guard
          obtain ⟨hguard, heq⟩ := Option.ite_none_right_eq_some.mp heq
          cases h
          cases heq
          first
            | exact .beginShutdown hidle hguard
            | exact .shutdownDeadline hidle hguard
        · cases h

/-! ### What the critical sections leave alone -/

/-- The parts of the node no command handler of the executor touches. -/
structure SameLink (s s' : Bridge) : Prop where
  session : s'.session = s.session
  board : s'.board = s.board
  connected : s'.connected = s.connected
  waiting : s'.waiting = s.waiting

theorem SameLink.refl (s : Bridge) : SameLink s s := ⟨rfl, rfl, rfl, rfl⟩

theorem SameLink.trans {s₁ s₂ s₃ : Bridge} (h : SameLink s₁ s₂) (h' : SameLink s₂ s₃) :
    SameLink s₁ s₃ :=
  ⟨h'.session.trans h.session, h'.board.trans h.board, h'.connected.trans h.connected,
    h'.waiting.trans h.waiting⟩

theorem SameLink.expectedBootId (h : SameLink s s') : s'.expectedBootId = s.expectedBootId := by
  unfold Bridge.expectedBootId
  rw [h.board]

section Frame

variable (cfg : BridgeConfig) (s : Bridge) (publisherCount : ℕ) (nowNs imuArrivalNs : ℤ)
  (message : ThrusterCommand) (drawn : UInt32) (reason : String) (ackFault : Bool)
  (graph : Option (List Endpoint)) (board : BoardStatusFrame) (request : WriteRequest)

theorem sameLink_latchCommandTimeout : SameLink s (latchCommandTimeoutLocked cfg s nowNs) := by
  unfold latchCommandTimeoutLocked
  split <;> exact ⟨rfl, rfl, rfl, rfl⟩

theorem sameLink_command (c : CommandState) : SameLink s { s with command := c } :=
  ⟨rfl, rfl, rfl, rfl⟩

theorem sameLink_beforeCommand : SameLink s (beforeCommand cfg s publisherCount nowNs) :=
  (sameLink_latchCommandTimeout cfg s nowNs).trans (sameLink_command _ _)

theorem sameLink_onCommand : SameLink s (onCommand cfg s publisherCount nowNs message) := by
  unfold onCommand
  dsimp only
  split <;> exact (sameLink_beforeCommand cfg s publisherCount nowNs).trans (sameLink_command _ _)

theorem sameLink_refreshAuthorityEndpoint :
    SameLink s (refreshAuthorityEndpoint cfg s graph publisherCount) := by
  unfold refreshAuthorityEndpoint
  dsimp only
  split <;> exact ⟨rfl, rfl, rfl, rfl⟩

theorem sameLink_publishStatus : SameLink s (publishStatus cfg s graph publisherCount) := by
  unfold publishStatus
  split
  · exact (sameLink_command s _).trans
      (sameLink_refreshAuthorityEndpoint cfg _ publisherCount graph)
  · exact .refl s

theorem sameLink_calibrateImuGyro : SameLink s (calibrateImuGyro cfg s nowNs imuArrivalNs) := by
  unfold calibrateImuGyro
  split <;> exact ⟨rfl, rfl, rfl, rfl⟩

theorem sameLink_expireCalibration : SameLink s (expireCalibration s nowNs) := by
  unfold expireCalibration
  dsimp only
  split
  · split <;> exact ⟨rfl, rfl, rfl, rfl⟩
  · exact .refl s

theorem sameLink_updateCalibration : SameLink s (updateCalibration s board) := by
  unfold updateCalibration
  dsimp only
  split
  · split
    · exact ⟨rfl, rfl, rfl, rfl⟩
    · split <;> exact ⟨rfl, rfl, rfl, rfl⟩
  · exact ⟨rfl, rfl, rfl, rfl⟩

/-! ### Sessions -/

/-- The session right after a rotation. -/
def Session.fresh (drawn : UInt32) (ackFault : Bool) : Session :=
  { sessionId := drawn, ackFaultLatched := ackFault }

/-- The session with one more sequence number issued. -/
def Session.issued (s : Session) : Session := { s with commandSequence := s.commandSequence + 1 }

@[simp] theorem session_rotate :
    (rotateSessionLocked s drawn reason ackFault).session = .fresh drawn ackFault := rfl

@[simp] theorem waiting_rotate :
    (rotateSessionLocked s drawn reason ackFault).waiting = s.waiting := rfl

@[simp] theorem board_rotate : (rotateSessionLocked s drawn reason ackFault).board = s.board := rfl

@[simp] theorem calibration_rotate :
    (rotateSessionLocked s drawn reason ackFault).calibration = s.calibration := rfl

/-- The heartbeat timeout of `write_command` rotates the session or does nothing. -/
theorem latchHeartbeatTimeout_cases :
    latchHeartbeatTimeout cfg s nowNs drawn = s ∨
      latchHeartbeatTimeout cfg s nowNs drawn
        = { rotateSessionLocked s drawn "board-status heartbeat timeout" false with
            board := { s.board with heartbeatTimeoutLatched := true } } := by
  unfold latchHeartbeatTimeout
  split
  · exact Or.inr rfl
  · exact Or.inl rfl

theorem session_prepareCommand :
    (prepareCommand cfg s publisherCount nowNs drawn).session = s.session.issued ∨
      (prepareCommand cfg s publisherCount nowNs drawn).session
        = (Session.fresh drawn false).issued := by
  unfold prepareCommand
  dsimp only
  have hlatch := (sameLink_latchCommandTimeout cfg s nowNs).session
  set s₁ := latchCommandTimeoutLocked cfg s nowNs
  set s₂ : Bridge := { s₁ with command := updatePublisherGateLocked s₁.command publisherCount }
  have hexpire :=
    (sameLink_expireCalibration (latchHeartbeatTimeout cfg s₂ nowNs drawn) nowNs).session
  unfold allocateSequence
  dsimp only
  rw [hexpire]
  rcases latchHeartbeatTimeout_cases cfg s₂ nowNs drawn with heq | heq
  · rw [heq, ← hlatch]
    exact Or.inl rfl
  · rw [heq]
    exact Or.inr rfl

theorem waiting_prepareCommand :
    (prepareCommand cfg s publisherCount nowNs drawn).waiting = s.waiting := by
  unfold prepareCommand
  dsimp only
  have hlatch := (sameLink_latchCommandTimeout cfg s nowNs).waiting
  set s₁ := latchCommandTimeoutLocked cfg s nowNs
  set s₂ : Bridge := { s₁ with command := updatePublisherGateLocked s₁.command publisherCount }
  have hexpire :=
    (sameLink_expireCalibration (latchHeartbeatTimeout cfg s₂ nowNs drawn) nowNs).waiting
  refine Eq.trans
    (b := (expireCalibration (latchHeartbeatTimeout cfg s₂ nowNs drawn) nowNs).waiting) rfl ?_
  rw [hexpire]
  rcases latchHeartbeatTimeout_cases cfg s₂ nowNs drawn with heq | heq <;> rw [heq] <;> exact hlatch

/-! ### Board status -/

theorem waiting_updateBootIdentity :
    (updateBootIdentity s board drawn).bridge.waiting = s.waiting := by
  unfold updateBootIdentity
  dsimp only
  split
  · rfl
  · split
    · rfl
    · split <;> rfl

/-- The boot identity stage rotates the session, or finds the boot it knows. -/
theorem updateBootIdentity_cases :
    ((∃ reason, (updateBootIdentity s board drawn).rotatedFor = some reason) ∧
      (updateBootIdentity s board drawn).bridge.session = .fresh drawn false) ∨
    ((updateBootIdentity s board drawn).rotatedFor = none ∧
      s.board.haveLinkBootChallenge = true ∧ board.bootId = s.board.bootIdentity ∧
      tickRolledBack s.board board = false ∧
      (updateBootIdentity s board drawn).bridge
        = { s with
            board :=
              { s.board with
                lastIdentityTick := board.boardTickMs, haveIdentityTick := true } }) := by
  unfold updateBootIdentity
  dsimp only
  split
  · exact Or.inl ⟨⟨_, rfl⟩, rfl⟩
  · rename_i hlink
    split
    · exact Or.inl ⟨⟨_, rfl⟩, rfl⟩
    · rename_i hboot
      split
      · exact Or.inl ⟨⟨_, rfl⟩, rfl⟩
      · rename_i htick
        exact Or.inr ⟨rfl, by simpa using hlink, by simpa using hboot, by simpa using htick, rfl⟩

/-- After the boot identity stage the challenge of the link is the boot that reports. -/
theorem board_updateBootIdentity (hlink : s.board.haveLinkBootChallenge = true →
      s.board.linkBootId = s.board.bootIdentity) :
    (updateBootIdentity s board drawn).bridge.board.haveLinkBootChallenge = true ∧
      (updateBootIdentity s board drawn).bridge.board.linkBootId = board.bootId ∧
      (updateBootIdentity s board drawn).bridge.board.bootIdentity = board.bootId := by
  rcases updateBootIdentity_cases s drawn board with h | ⟨-, hhave, hboot, -, heq⟩
  · clear h
    unfold updateBootIdentity
    dsimp only
    split
    · exact ⟨rfl, rfl, rfl⟩
    · rename_i hhave
      have hhave : s.board.haveLinkBootChallenge = true := by simpa using hhave
      split
      · exact ⟨hhave, rfl, rfl⟩
      · rename_i hboot
        have hboot : board.bootId = s.board.bootIdentity := by simpa using hboot
        split
        · exact ⟨hhave, (hlink hhave).trans hboot.symm, hboot.symm⟩
        · exact ⟨hhave, (hlink hhave).trans hboot.symm, hboot.symm⟩
  · rw [heq]
    exact ⟨hhave, (hlink hhave).trans hboot.symm, hboot.symm⟩

/-- The state between the boot identity and the session stages. -/
def afterBootIdentity (s : Bridge) (board : BoardStatusFrame) (nowNs : ℤ) (drawn : UInt32) :
    StatusProgress :=
  let s :=
    { s with
      board := { s.board with statusSemanticFault := false, heartbeatTimeoutLatched := false } }
  let p := updateBootIdentity s board drawn
  { p with bridge := updateCalibration (storeStatus p.bridge board nowNs) board }

theorem acceptValidStatus_eq :
    acceptValidStatus s board nowNs drawn
      = updateSession (afterBootIdentity s board nowNs drawn) board drawn := rfl

theorem session_afterBootIdentity :
    ((∃ reason, (afterBootIdentity s board nowNs drawn).rotatedFor = some reason) ∧
      (afterBootIdentity s board nowNs drawn).bridge.session = .fresh drawn false) ∨
    ((afterBootIdentity s board nowNs drawn).rotatedFor = none ∧
      s.board.haveLinkBootChallenge = true ∧ board.bootId = s.board.bootIdentity ∧
      tickRolledBack s.board board = false ∧
      (afterBootIdentity s board nowNs drawn).bridge.session = s.session) := by
  unfold afterBootIdentity
  dsimp only
  rw [(sameLink_updateCalibration _ board).session]
  rcases updateBootIdentity_cases { s with board := { s.board with
    statusSemanticFault := false, heartbeatTimeoutLatched := false } } drawn board with
    ⟨hrot, hs⟩ | ⟨hrot, hhave, hboot, htick, heq⟩
  · exact Or.inl ⟨hrot, hs⟩
  · refine Or.inr ⟨hrot, hhave, hboot, htick, ?_⟩
    rw [heq]
    rfl

theorem waiting_afterBootIdentity :
    (afterBootIdentity s board nowNs drawn).bridge.waiting = s.waiting := by
  unfold afterBootIdentity
  dsimp only
  rw [(sameLink_updateCalibration _ board).waiting]
  exact waiting_updateBootIdentity _ drawn board

theorem board_afterBootIdentity (hlink : s.board.haveLinkBootChallenge = true →
      s.board.linkBootId = s.board.bootIdentity) :
    (afterBootIdentity s board nowNs drawn).bridge.board.haveLinkBootChallenge = true ∧
      (afterBootIdentity s board nowNs drawn).bridge.board.linkBootId = board.bootId ∧
      (afterBootIdentity s board nowNs drawn).bridge.board.bootIdentity = board.bootId := by
  unfold afterBootIdentity
  dsimp only
  rw [(sameLink_updateCalibration _ board).board]
  exact board_updateBootIdentity _ drawn board hlink

/-- The session stage: the session has been rotated, or it is not reported and not acknowledged,
or its acknowledgement is valid. -/
theorem updateSession_cases (p : StatusProgress) :
    (∃ reason, (updateSession p board drawn).rotatedFor = some reason ∧
      (p.rotatedFor = some reason ∧ updateSession p board drawn = p ∨
        p.rotatedFor = none ∧ p.bridge.session.sessionAcknowledged = true ∧
          reportedSession p.bridge.session board = false ∧
          (updateSession p board drawn).bridge = rotateSessionLocked p.bridge drawn reason false ∨
        p.rotatedFor = none ∧ reportedSession p.bridge.session board = true ∧
          ackFaultReason p.bridge.session board = some reason ∧
          (updateSession p board drawn).bridge = rotateSessionLocked p.bridge drawn reason true)) ∨
    ((updateSession p board drawn).rotatedFor = none ∧ p.rotatedFor = none ∧
      (reportedSession p.bridge.session board = false ∧
          p.bridge.session.sessionAcknowledged = false ∧
          (updateSession p board drawn).bridge = p.bridge ∨
        reportedSession p.bridge.session board = true ∧
          ackFaultReason p.bridge.session board = none ∧
          (updateSession p board drawn).bridge
            = { p.bridge with session := acceptAck p.bridge.session board })) := by
  unfold updateSession
  dsimp only
  cases hrot : p.rotatedFor with
  | some reason => exact Or.inl ⟨reason, hrot, Or.inl ⟨rfl, rfl⟩⟩
  | none =>
    dsimp only
    cases hrep : reportedSession p.bridge.session board with
    | false =>
      cases hack : p.bridge.session.sessionAcknowledged with
      | false => exact Or.inr ⟨hrot, rfl, Or.inl ⟨rfl, rfl, rfl⟩⟩
      | true => exact Or.inl ⟨_, rfl, Or.inr (Or.inl ⟨rfl, rfl, rfl, rfl⟩)⟩
    | true =>
      rw [Bool.not_true, Bool.and_false, if_neg Bool.false_ne_true, if_pos rfl]
      cases hfault : ackFaultReason p.bridge.session board with
      | none => exact Or.inr ⟨rfl, rfl, Or.inr ⟨rfl, rfl, rfl⟩⟩
      | some reason => exact Or.inl ⟨reason, rfl, Or.inr (Or.inr ⟨rfl, rfl, rfl, rfl⟩)⟩

end Frame

end RobotCore
