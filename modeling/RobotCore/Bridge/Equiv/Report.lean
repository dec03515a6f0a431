import RobotCore.Bridge.Equiv.Enable
import RobotCore.Bridge.Report

/-!
# What a published status says

* `report_agrees`: in every reachable state the status built from it is healthy, and the held
  command enabled and armed with no calibration going on, exactly when `host_enable_allowed_locked`
  allows enabling.
* `healthy_of_report`: a healthy status that is published goes back to a snapshot of a bridge whose
  board reported last, on the open link, that it holds the running session without a failsafe,
  whose handshake is complete, and whose last command was accepted.
-/

namespace RobotCore

open Machine

variable {cfg : BridgeConfig} {initialSession : UInt32} {s : Bridge} {x : BridgeTransition}
  {tr : BridgeHistory} {nowNs : ℤ}

/-! ### The status that is held -/

/-- A status of the board with the time of its arrival. -/
def receivedStatus (x : BridgeTransition) : Option (BoardStatusFrame × ℤ) :=
  match x.input with
  | .boardStatus board nowNs _ => some (board, nowNs)
  | _ => none

/-- The serial port has been opened. -/
def opensLink (x : BridgeTransition) : Bool :=
  match x.input with
  | .openSerial .. => x.post.task == .linkOpened
  | _ => false

/-- The status received last on the open link. -/
def linkStatus (tr : BridgeHistory) : Option (BoardStatusFrame × ℤ) :=
  (sinceLast opensLink tr).findSome? receivedStatus

/-- A change of the board state that is none of its last status. -/
structure SameStatus (b b' : BoardState) : Prop where
  latest : b'.latestStatus = b.latestStatus
  stamp : b'.lastStatusNs = b.lastStatusNs
  fault : b'.statusSemanticFault = b.statusSemanticFault

/-- What a transition does to the status that is held. -/
inductive StatusChange (x : BridgeTransition) : Prop
  | same (opens : opensLink x = false) (received : receivedStatus x = none)
      (status : SameStatus x.pre.board x.post.board)
  | cleared (stamp : x.post.board.lastStatusNs = 0)
  | refused (fault : x.post.board.statusSemanticFault = true)
  | stored (board : BoardStatusFrame) (nowNs : ℤ) (drawn : UInt32)
      (input : x.input = .boardStatus board nowNs drawn)
      (semantic : boardStatusSemanticReason board = none)
      (latest : x.post.board.latestStatus = board) (stamp : x.post.board.lastStatusNs = nowNs)

theorem SameStatus.of_board {b b' : BoardState} (h : b' = b) : SameStatus b b' := by
  rw [h]
  exact ⟨rfl, rfl, rfl⟩

theorem sameStatus_prepareCommand (s : Bridge) (publisherCount : ℕ) (nowNs : ℤ)
    (drawn : UInt32) :
    SameStatus s.board (prepareCommand cfg s publisherCount nowNs drawn).board := by
  have hbefore := (sameLink_beforeCommand cfg s publisherCount nowNs).board
  have hprepare : (prepareCommand cfg s publisherCount nowNs drawn).board =
      (latchHeartbeatTimeout cfg (beforeCommand cfg s publisherCount nowNs) nowNs drawn).board :=
    (sameLink_expireCalibration _ nowNs).board
  rcases latchHeartbeatTimeout_cases cfg (beforeCommand cfg s publisherCount nowNs) nowNs drawn
    with heq | heq
  · rw [heq] at hprepare
    exact .of_board (hprepare.trans hbefore)
  · rw [hprepare, heq, hbefore]
    exact ⟨rfl, rfl, rfl⟩

theorem status_acceptBoardStatus {board : BoardStatusFrame} {drawn : UInt32}
    (hx : x = ⟨s, .boardStatus board nowNs drawn, none,
      acceptBoardStatusIo s board nowNs drawn⟩) : StatusChange x := by
  subst hx
  cases hsem : boardStatusSemanticReason board with
  | some reason =>
    refine .refused ?_
    unfold acceptBoardStatusIo
    rw [hsem]
    dsimp only
    split
    · assumption
    · rfl
  | none =>
    have hstored : (acceptBoardStatusIo s board nowNs drawn).board.latestStatus = board ∧
        (acceptBoardStatusIo s board nowNs drawn).board.lastStatusNs = nowNs := by
      have hvalid : (acceptBoardStatusIo s board nowNs drawn).board =
          (afterBootIdentity s board nowNs drawn).bridge.board := by
        rw [← board_updateSession _ board drawn, ← acceptValidStatus_eq]
        unfold acceptBoardStatusIo
        rw [hsem]
        dsimp only
        split
        · rfl
        · split
          · exact board_finishShutdown
          · rfl
      rw [hvalid, afterBootIdentity, (sameLink_updateCalibration _ board).board]
      exact ⟨rfl, rfl⟩
    exact .stored board nowNs drawn rfl hsem hstored.1 hstored.2

theorem status_step (h : BridgeRule cfg x.pre x.input x.post x.output) : StatusChange x := by
  obtain ⟨pre, input, output, post⟩ := x
  dsimp only at h
  cases h with
  | boardStatus _ _ => exact status_acceptBoardStatus rfl
  | onCommand _ => exact .same rfl rfl (.of_board (sameLink_onCommand ..).board)
  | writeCommand _ _ => exact .same rfl rfl (sameStatus_prepareCommand ..)
  | publishStatus _ => exact .same rfl rfl (.of_board (sameLink_publishStatus ..).board)
  | calibrateImuGyro _ => exact .same rfl rfl (.of_board (sameLink_calibrateImuGyro ..).board)
  | @openSerial outcome drawn idle _ =>
    unfold openSerialIo
    cases outcome with
    | opened =>
      -- a link that opens forgets the status that was held
      split
      · exact .same (by simp [opensLink, idle]) rfl (.of_board rfl)
      · exact .cleared rfl
    | cannotOpen | setupFailed =>
      split <;> exact .same (by simp [opensLink, idle]) rfl (.of_board rfl)
  | faultRotate _ _ =>
    -- so does a fault
    refine .cleared ?_
    unfold faultRotateIo
    dsimp only
    split
    · rw [board_finishShutdown]
      rfl
    · rfl
  | shutdownDeadline _ _ => exact .same rfl rfl (.of_board board_finishShutdown)
  | destroy _ | linkOpened _ => exact .same rfl rfl (.of_board rfl)
  | enqueueLatestWrite _ =>
    refine .same rfl rfl (.of_board ?_)
    unfold enqueueLatestWrite
    dsimp only
    split <;> rfl
  | drainLatestWrite _ =>
    refine .same rfl rfl (.of_board ?_)
    unfold drainLatestWriteIo
    dsimp only
    split
    · rfl
    · split <;> rfl
  | writeCompleted _ _ =>
    refine .same rfl rfl (.of_board ?_)
    unfold writeCompletedIo
    dsimp only
    split
    · exact (sameCore_handleIoFault { pre with activeWrite := none } "write").board
    · split
      · rfl
      · split <;> rfl
  | writeDeadline _ _ | readFailed _ =>
    exact .same rfl rfl (.of_board (sameCore_handleIoFault _ _).board)
  | beginShutdown _ _ =>
    refine .same rfl rfl (.of_board ?_)
    unfold beginShutdownIo
    dsimp only
    split
    · exact board_finishShutdown
    · split <;> rfl
  | dispatchNeutral _ =>
    refine .same rfl rfl (.of_board ?_)
    unfold dispatchNeutralCurrentSessionIo
    dsimp only
    split <;> rfl
  | queueWrite _ =>
    refine .same rfl rfl (.of_board ?_)
    unfold queueWriteIo
    dsimp only
    split_ifs
    · rfl
    · rfl
    · split
      · rfl
      · split <;> rfl
      · rfl
  | startWrite _ =>
    refine .same rfl rfl (.of_board ?_)
    unfold startWriteIo
    dsimp only
    split_ifs
    · exact board_finishShutdown
    · rfl
    · rfl
    · rfl
    · rfl

/-- A status that is held without a fault is the one received last on the open link. -/
def StatusTrace (tr : BridgeHistory) (b : BoardState) : Prop :=
  0 < b.lastStatusNs → b.statusSemanticFault = false →
    linkStatus tr = some (b.latestStatus, b.lastStatusNs) ∧
      boardStatusSemanticReason b.latestStatus = none

theorem statusTrace_step (h : StatusChange x) (hi : StatusTrace tr x.pre.board) :
    StatusTrace (x :: tr) x.post.board := by
  intro hstamp hfault
  cases h with
  | same opens received status =>
    rw [status.stamp] at hstamp ⊢
    rw [status.fault] at hfault
    rw [status.latest, linkStatus, sinceLast_cons_of_neg opens,
      List.findSome?_cons_of_isNone (by rw [received]; rfl)]
    exact hi hstamp hfault
  | cleared stamp => exact absurd (stamp ▸ hstamp) (lt_irrefl _)
  | refused fault => exact absurd (hfault.symm.trans fault) Bool.false_ne_true
  | stored board nowNs drawn input semantic latest stamp =>
    have hopens : opensLink x = false := by rw [opensLink, input]
    have hreceived : receivedStatus x = some (board, nowNs) := by rw [receivedStatus, input]
    rw [latest, stamp, linkStatus, sinceLast_cons_of_neg hopens,
      List.findSome?_cons_of_isSome (by rw [hreceived]; rfl), hreceived]
    exact ⟨rfl, semantic⟩

theorem statusTrace_of_run (h : (bridgeMachine cfg initialSession).Run tr s) :
    StatusTrace tr s.board :=
  h.invariant (I := fun tr s => StatusTrace tr s.board) (fun hstamp => absurd hstamp (lt_irrefl _))
    fun _ s i s' o _ hi hstep =>
      statusTrace_step (x := ⟨s, i, o, s'⟩) (status_step (rule_of_step hstep)) hi

/-! ### The command that is held -/

/-- The arrival of a command: its time, and the message if it is accepted. -/
def receivedCommand (cfg : BridgeConfig) (x : BridgeTransition) :
    Option (ℤ × Option ThrusterCommand) :=
  match x.input with
  | .onCommand _ nowNs _ => some (nowNs, acceptedCommand cfg x)
  | _ => none

/-- A change that leaves a valid command and its time alone. -/
structure SameCommand (c c' : CommandState) : Prop where
  valid : c'.commandValid = true → c.commandValid = true
  stamp : c'.lastCommandNs = c.lastCommandNs

theorem SameCommand.of_held {c c' : CommandState} (h : SameHeld c c')
    (stamp : c'.lastCommandNs = c.lastCommandNs) : SameCommand c c' := ⟨h.valid, stamp⟩

theorem stamp_updatePublisherGate (c : CommandState) (publisherCount : ℕ) :
    (updatePublisherGateLocked c publisherCount).lastCommandNs = c.lastCommandNs := by
  rw [updatePublisherGate_eq]

theorem stamp_beforeCommand (cfg : BridgeConfig) (s : Bridge) (publisherCount : ℕ) (nowNs : ℤ) :
    (beforeCommand cfg s publisherCount nowNs).command.lastCommandNs =
      s.command.lastCommandNs := by
  unfold beforeCommand
  dsimp only
  rw [stamp_updatePublisherGate]
  unfold latchCommandTimeoutLocked
  split <;> rfl

theorem stamp_publishStatus (s : Bridge) (graph : Option (List Endpoint)) (publisherCount : ℕ) :
    (publishStatus cfg s graph publisherCount).command.lastCommandNs =
      s.command.lastCommandNs := by
  unfold publishStatus
  split
  · unfold refreshAuthorityEndpoint
    dsimp only
    rw [stamp_updatePublisherGate]
    split <;> rfl
  · rfl

/-- A step that receives no command leaves it alone. -/
theorem sameCommand_of_none (h : BridgeRule cfg x.pre x.input x.post x.output)
    (hx : receivedCommand cfg x = none) : SameCommand x.pre.command x.post.command := by
  have haccepted : acceptedCommand cfg x = none := by
    unfold receivedCommand at hx
    unfold acceptedCommand
    split <;> simp_all
  refine .of_held (held_of_noCommand h haccepted) ?_
  obtain ⟨pre, input, output, post⟩ := x
  have hcore := core_step h
  dsimp only at hcore
  cases hcore with
  | onCommand => cases hx
  | @writeCommand publisherCount nowNs drawn draw =>
    have hbefore := stamp_beforeCommand cfg pre publisherCount nowNs
    rcases (command_writeCommand cfg pre publisherCount nowNs draw).1 with ⟨-, heq⟩ | ⟨-, heq⟩ <;>
      (dsimp only; rw [heq]; exact hbefore)
  | publishStatus => exact stamp_publishStatus ..
  | calibrateImuGyro =>
    dsimp only
    unfold calibrateImuGyro
    split <;> rfl
  | boardStatus draw =>
    rcases command_acceptBoardStatus draw with ⟨-, heq⟩ | ⟨-, heq, -⟩
    · dsimp only
      rw [heq]
      rfl
    · dsimp only
      rw [heq]
  | linkRotated _ _ _ command =>
    dsimp only
    rw [command]
    rfl
  | kept _ core =>
    dsimp only
    rw [core.command]

/-- A valid command is the one received last, which was accepted. -/
def CommandTrace (cfg : BridgeConfig) (tr : BridgeHistory) (c : CommandState) : Prop :=
  c.commandValid = true → ∃ message,
    tr.findSome? (receivedCommand cfg) = some (c.lastCommandNs, some message)

theorem commandTrace_step (h : BridgeRule cfg x.pre x.input x.post x.output)
    (hi : CommandTrace cfg tr x.pre.command) : CommandTrace cfg (x :: tr) x.post.command := by
  intro hvalid
  cases hx : receivedCommand cfg x with
  | none =>
    obtain ⟨hpre, hstamp⟩ := sameCommand_of_none h hx
    rw [List.findSome?_cons, hx, hstamp]
    exact hi (hpre hvalid)
  | some received =>
    obtain ⟨pre, input, output, post⟩ := x
    dsimp only at h hvalid
    cases h with
    | @onCommand publisherCount nowNs message _ =>
      rcases command_onCommand cfg pre publisherCount nowNs message with
        ⟨hrefused, -⟩ | ⟨hmessage, hpost⟩
      · -- A command that is not accepted leaves none valid.
        unfold onCommand at hvalid
        rw [hrefused] at hvalid
        exact absurd hvalid Bool.false_ne_true
      · obtain ⟨_, _, _, _, heq⟩ := updateArmBarrier_eq
          (storeCommand (beforeCommand cfg pre publisherCount nowNs).command nowNs message) message
        have hstamp : (onCommand cfg pre publisherCount nowNs message).command.lastCommandNs =
            nowNs := by
          rw [hpost, heq]
          rfl
        refine ⟨message, ?_⟩
        rw [hstamp, List.findSome?_cons]
        simp only [receivedCommand, acceptedCommand, hmessage, if_true]
    | _ => cases hx

theorem commandTrace_of_run (h : (bridgeMachine cfg initialSession).Run tr s) :
    CommandTrace cfg tr s.command :=
  h.invariant (I := fun tr s => CommandTrace cfg tr s.command)
    (fun hvalid => absurd hvalid Bool.false_ne_true)
    fun _ s i s' o _ hi hstep => commandTrace_step (x := ⟨s, i, o, s'⟩) (rule_of_step hstep) hi

/-- The barrier is open for the held command only, which is armed. -/
theorem held_of_authorized {g : UInt64}
    (h : Interlock.run generationNewer (resetsBarrier cfg) (acceptedSignal cfg) tr
      = .authorized g) :
    ∃ message, heldCommand cfg tr = some message ∧ message.armed = true ∧
      message.armGeneration = g := by
  induction tr with
  | nil => cases h
  | cons x tr ih =>
    rw [Interlock.run_cons] at h
    unfold heldCommand at ih ⊢
    rcases (Interlock.step_eq_authorized h).2 with ⟨hnone, hb⟩ | ⟨hsome, -⟩
    · have hno : acceptedCommand cfg x = none := Option.map_eq_none_iff.mp hnone
      rw [List.findSome?_cons_of_isNone (by rw [hno]; rfl)]
      exact ih hb
    · obtain ⟨message, hmessage, harmed, hgeneration⟩ := armed_of_signal hsome
      rw [List.findSome?_cons_of_isSome (by rw [hmessage]; rfl), hmessage]
      exact ⟨message, rfl, harmed, hgeneration⟩

theorem authorized_of_run (h : (bridgeMachine cfg initialSession).Run tr s)
    (hauth : s.command.armAuthorized = true) :
    Interlock.run generationNewer (resetsBarrier cfg) (acceptedSignal cfg) tr
      = .authorized s.command.authorizedGeneration := by
  rw [← (barrier_of_run h).2, barrierOf, if_pos hauth]

/-- While the barrier is open the held command has the authorized generation. -/
theorem generation_of_authorized (h : (bridgeMachine cfg initialSession).Run tr s)
    (hauth : s.command.armAuthorized = true) :
    s.command.commandArmGeneration = s.command.authorizedGeneration := by
  obtain ⟨message, hheld, -, hgeneration⟩ := held_of_authorized (authorized_of_run h hauth)
  exact ((heldTrace_of_run h).holds message hheld).generation.trans hgeneration

/-! ### The status and the permission to enable -/

/-- What the safety monitor takes for a healthy board. -/
def BoardStatusMessage.healthy (status : BoardStatusMessage) : Bool :=
  status.connected && status.heartbeatOk && !status.failsafeActive

/-- The status that is built from a state, both readings of `connected_` included. -/
def statusNow (cfg : BridgeConfig) (s : Bridge) (steadyNs : ℤ) : BoardStatusMessage :=
  boardStatusMessage cfg (snapshotState s)
    (reportedHeartbeat cfg (snapshotState s) s.connected steadyNs) s.connected steadyNs

/-- The command asks for enabled outputs, and no calibration stands against it. -/
def enableRequested (s : Bridge) : Bool :=
  s.command.commandEnabled && s.command.commandArmed && !s.calibration.requested &&
    !(s.board.haveStatus && hasFlag s.board.latestStatus.flags kStatusFlagImuCalibrating)

/-- **The status and the permission agree.** -/
theorem report_agrees (h : (bridgeMachine cfg initialSession).Run tr s) (nowNs : ℤ) :
    hostEnableAllowedLocked cfg s nowNs
      = ((statusNow cfg s nowNs).healthy && enableRequested s) := by
  have hgeneration := generation_of_authorized h
  unfold hostEnableAllowedLocked BoardStatusMessage.healthy enableRequested statusNow
  simp only [boardStatusMessage, reportedHeartbeat, snapshotState, statusFresh, commandFresh]
  cases hauth : s.command.armAuthorized with
  | false =>
    -- An armed command that is not authorized is reported as a failsafe.
    cases s.command.commandValid <;> cases s.command.commandArmed <;> simp
  | true =>
    rw [hgeneration hauth]
    grind

/-- The last of `enabledInputs` before the request is built. -/
def armedInputs : List BridgeInput :=
  handshakeInputs ++
    [.publishStatus (some [authorityEndpoint]) 1,
      .onCommand 1 1000000000 (authorityCommand false 0),
      .onCommand 1 1000000000 (authorityCommand true 1)]

theorem report_agrees_armedInputs :
    ∃ tr s, (bridgeMachine {} 1).Run tr s ∧ (statusNow {} s 1000000000).healthy = true ∧
      hostEnableAllowedLocked {} s 1000000000
        = ((statusNow {} s 1000000000).healthy && enableRequested s) := by
  obtain ⟨x, tr, s, hrun, hx⟩ := run_of_execCheck (bridgeMachine {} 1) armedInputs
    (fun x _ => (statusNow {} x.post 1000000000).healthy) (by decide +kernel)
  obtain rfl := hrun.head_post
  exact ⟨x :: tr, x.post, hrun, hx, report_agrees hrun 1000000000⟩

/-! ### Published statuses -/

/-- The bridge as a healthy status describes it.  On the open link the board has reported last that
it holds the running session, without a failsafe.  The session has completed its handshake with the
boot of the link.  The last command was accepted, and if it is armed, the barrier is open for it. -/
structure BridgeHealthy (cfg : BridgeConfig) (tr : BridgeHistory) (s : Bridge) (steadyNs : ℤ) :
    Prop where
  status : ∃ board stampNs, linkStatus tr = some (board, stampNs) ∧
    boardStatusSemanticReason board = none ∧
    (steadyNs - stampNs).tdiv 1000000 ≤ cfg.heartbeatTimeoutMs ∧
    reportedSession s.session board = true ∧ hasFlag board.flags kStatusFlagFailsafe = false
  handshake : HandshakeDone tr s
  command : ∃ message stampNs, tr.findSome? (receivedCommand cfg) = some (stampNs, some message) ∧
    (steadyNs - stampNs).tdiv 1000000 ≤ cfg.commandTimeoutMs ∧
    (message.armed = true →
      Interlock.run generationNewer (resetsBarrier cfg) (acceptedSignal cfg) tr
        = .authorized message.armGeneration)
  gate : s.command.commandPublisherGate = true

/-- A command that was received last and accepted is the one held. -/
theorem held_of_received {message : ThrusterCommand} {stampNs : ℤ}
    (h : tr.findSome? (receivedCommand cfg) = some (stampNs, some message)) :
    heldCommand cfg tr = some message := by
  induction tr with
  | nil => cases h
  | cons x tr ih =>
    unfold heldCommand at ih ⊢
    rw [List.findSome?_cons] at h
    cases hx : receivedCommand cfg x with
    | none =>
      have haccepted : acceptedCommand cfg x = none := by
        unfold receivedCommand at hx
        unfold acceptedCommand
        split <;> simp_all
      rw [hx] at h
      rw [List.findSome?_cons_of_isNone (by rw [haccepted]; rfl)]
      exact ih h
    | some received =>
      rw [hx] at h
      obtain rfl := Option.some.inj h
      have haccepted : acceptedCommand cfg x = some message := by
        unfold receivedCommand at hx
        split at hx
        · exact (Prod.mk.inj (Option.some.inj hx)).2
        · cases hx
      rw [List.findSome?_cons_of_isSome (by rw [haccepted]; rfl), haccepted]

/-- What a healthy status says of its snapshot. -/
structure SnapshotHealthy (cfg : BridgeConfig) (snapshot : StateSnapshot) (steadyNs : ℤ) :
    Prop where
  stamp : 0 < snapshot.lastStatusNs
  fault : snapshot.semanticFault = false
  fresh : (steadyNs - snapshot.lastStatusNs).tdiv 1000000 ≤ cfg.heartbeatTimeoutMs
  established : hasFlag snapshot.board.flags kStatusFlagSessionEstablished = true
  session : snapshot.board.sessionId = snapshot.sessionId
  acknowledged : snapshot.sessionAcknowledged = true
  failsafe : hasFlag snapshot.board.flags kStatusFlagFailsafe = false
  gate : snapshot.publisherGate = true
  valid : snapshot.commandValid = true
  commandFresh : (steadyNs - snapshot.lastCommandNs).tdiv 1000000 ≤ cfg.commandTimeoutMs
  rearmed : snapshot.commandArmed = true → snapshot.armAuthorized = true

theorem snapshotHealthy_of_healthy {snapshot : StateSnapshot} {connected connected' : Bool}
    {steadyNs : ℤ}
    (h : (boardStatusMessage cfg snapshot (reportedHeartbeat cfg snapshot connected steadyNs)
      connected' steadyNs).healthy = true) : SnapshotHealthy cfg snapshot steadyNs := by
  unfold BoardStatusMessage.healthy at h
  simp only [boardStatusMessage, reportedHeartbeat] at h
  constructor <;> grind

/-- A healthy snapshot is one of a healthy bridge. -/
theorem bridgeHealthy_of_snapshot (h : (bridgeMachine cfg initialSession).Run tr s) {steadyNs : ℤ}
    (hsnapshot : SnapshotHealthy cfg (snapshotState s) steadyNs) :
    BridgeHealthy cfg tr s steadyNs where
  status := by
    obtain ⟨hstatus, hsemantic⟩ := statusTrace_of_run h hsnapshot.stamp hsnapshot.fault
    refine ⟨_, _, hstatus, hsemantic, hsnapshot.fresh, ?_, hsnapshot.failsafe⟩
    rw [reportedSession, Bool.and_eq_true, beq_iff_eq]
    exact ⟨hsnapshot.established, hsnapshot.session⟩
  handshake := (handshakeTrace_of_run h).done hsnapshot.acknowledged
  command := by
    obtain ⟨message, hreceived⟩ := commandTrace_of_run h hsnapshot.valid
    have hholds := (heldTrace_of_run h).holds message (held_of_received hreceived)
    refine ⟨message, _, hreceived, hsnapshot.commandFresh, fun harmed => ?_⟩
    have hauth := hsnapshot.rearmed (hholds.armed.trans harmed)
    rw [authorized_of_run h hauth, ← generation_of_authorized h hauth, hholds.generation]
  gate := hsnapshot.gate

/-! ### The bridge with its reports -/

variable {r : Reporting} {y : ReportingTransition} {rtr : ReportingHistory}

/-- The steps of the bridge with its reports. -/
inductive ReportingRule (cfg : BridgeConfig) : ReportingTransition → Prop
  | bridge {pre input bridge write} (step : bridgeStep cfg pre.bridge input = some (bridge, write))
      (free : pre.publishing = .idle ∨ input.isExecutor = false) :
    ReportingRule cfg ⟨pre, .bridge input, { write := write }, { pre with bridge := bridge }⟩
  | snapshotState {pre steadyNs} (idle : pre.publishing = .idle) :
    ReportingRule cfg ⟨pre, .snapshotState steadyNs, {},
      { pre with publishing := .snapshotTaken steadyNs (snapshotState pre.bridge) }⟩
  | loadConnected {pre steadyNs snapshot}
      (taken : pre.publishing = .snapshotTaken steadyNs snapshot) :
    ReportingRule cfg ⟨pre, .loadConnected, {},
      { pre with
        publishing := .heartbeatKnown steadyNs snapshot
          (reportedHeartbeat cfg snapshot pre.bridge.connected steadyNs) }⟩
  | publish {pre steadyNs snapshot heartbeat}
      (known : pre.publishing = .heartbeatKnown steadyNs snapshot heartbeat) :
    ReportingRule cfg ⟨pre, .publish,
      { status := some
          (boardStatusMessage cfg snapshot heartbeat pre.bridge.connected steadyNs) },
      { pre with publishing := .idle }⟩

theorem reportingRule_of_step (h : reportingStep cfg y.pre y.input = some (y.post, y.output)) :
    ReportingRule cfg y := by
  obtain ⟨pre, input, output, post⟩ := y
  dsimp only at h
  unfold reportingStep at h
  cases input with
  | bridge input =>
    dsimp only at h
    split at h
    · obtain ⟨⟨bridge, write⟩, hstep, heq⟩ := Option.map_eq_some_iff.mp h
      obtain ⟨rfl, rfl⟩ := Prod.mk.inj heq
      exact .bridge hstep (Or.inl ‹_›)
    · obtain ⟨⟨bridge, write⟩, hstep, heq⟩ := Option.map_eq_some_iff.mp h
      obtain ⟨rfl, rfl⟩ := Prod.mk.inj heq
      exact .bridge hstep (Or.inr ‹_›)
    · cases h
  | snapshotState | loadConnected | publish =>
    dsimp only at h
    split at h
    · obtain ⟨rfl, rfl⟩ := Prod.mk.inj (Option.some.inj h)
      first
        | exact .snapshotState ‹_›
        | exact .loadConnected ‹_›
        | exact .publish ‹_›
    · cases h

/-- The bridge's side of a run is a run of the bridge. -/
theorem bridge_of_reporting (h : (reportingMachine cfg initialSession).Run rtr r) :
    (bridgeMachine cfg initialSession).Run (rtr.filterMap reported?) r.bridge := by
  refine h.filterMap Reporting.bridge reported? rfl fun x hx => ?_
  cases reportingRule_of_step hx with
  | bridge step _ => exact Or.inr ⟨_, rfl, rfl, rfl, step⟩
  | snapshotState _ | loadConnected _ | publish _ => exact Or.inl ⟨rfl, rfl⟩

/-- The executor begins a callback. -/
def beginsCallback (y : ReportingTransition) : Bool :=
  match y.input with
  | .bridge input => input.isExecutor
  | .snapshotState _ => true
  | _ => false

/-- The snapshot was taken in the run, and the executor has begun nothing since. -/
def Snapshotted (rtr : ReportingHistory) (steadyNs : ℤ) (snapshot : StateSnapshot) : Prop :=
  ∃ newer z older, rtr = newer ++ z :: older ∧ z.input = .snapshotState steadyNs ∧
    snapshot = snapshotState z.pre.bridge ∧ ∀ t ∈ newer, beginsCallback t = false

/-- What a publication in progress has done in the run. -/
def PublishingTrace (cfg : BridgeConfig) (rtr : ReportingHistory) : Publishing → Prop
  | .idle => True
  | .snapshotTaken steadyNs snapshot => Snapshotted rtr steadyNs snapshot
  | .heartbeatKnown steadyNs snapshot heartbeat =>
    Snapshotted rtr steadyNs snapshot ∧
      ∃ connected, heartbeat = reportedHeartbeat cfg snapshot connected steadyNs

theorem Snapshotted.cons {steadyNs : ℤ} {snapshot : StateSnapshot}
    (h : Snapshotted rtr steadyNs snapshot) (hy : beginsCallback y = false) :
    Snapshotted (y :: rtr) steadyNs snapshot := by
  obtain ⟨newer, z, older, rfl, hz, hsnapshot, hnewer⟩ := h
  exact ⟨y :: newer, z, older, rfl, hz, hsnapshot, List.forall_mem_cons.mpr ⟨hy, hnewer⟩⟩

theorem publishingTrace_step (h : ReportingRule cfg y)
    (hi : PublishingTrace cfg rtr y.pre.publishing) :
    PublishingTrace cfg (y :: rtr) y.post.publishing := by
  cases h with
  | @bridge pre input bridge write _ free =>
    dsimp only at hi ⊢
    cases hpublishing : pre.publishing with
    | idle => trivial
    | snapshotTaken steadyNs snapshot =>
      rw [hpublishing] at hi free
      exact Snapshotted.cons hi (free.resolve_left nofun)
    | heartbeatKnown steadyNs snapshot heartbeat =>
      rw [hpublishing] at hi free
      exact ⟨hi.1.cons (free.resolve_left nofun), hi.2⟩
  | snapshotState _ => exact ⟨[], _, rtr, rfl, rfl, rfl, fun t ht => (nomatch ht)⟩
  | loadConnected taken =>
    dsimp only at hi
    rw [taken] at hi
    exact ⟨Snapshotted.cons hi rfl, _, rfl⟩
  | publish _ => trivial

theorem publishingTrace_of_run (h : (reportingMachine cfg initialSession).Run rtr r) :
    PublishingTrace cfg rtr r.publishing := by
  refine h.invariant (I := fun rtr r => PublishingTrace cfg rtr r.publishing)
    (by trivial) fun _ r input r' output _ hi hstep => ?_
  exact publishingTrace_step (y := ⟨r, input, output, r'⟩) (reportingRule_of_step hstep) hi

/-- **Healthy statuses.**  A healthy status is published in the callback that has taken a snapshot
of a healthy bridge. -/
theorem healthy_of_report {status : BoardStatusMessage}
    (h : (reportingMachine cfg initialSession).Run (y :: rtr) r)
    (hstatus : y.output.status = some status) (hhealthy : status.healthy = true) :
    ∃ newer z older steadyNs, rtr = newer ++ z :: older ∧ z.input = .snapshotState steadyNs ∧
      (∀ t ∈ newer, beginsCallback t = false) ∧
      BridgeHealthy cfg (older.filterMap reported?) z.pre.bridge steadyNs := by
  have hpublishing := publishingTrace_of_run h.tail
  have hrun := h.tail
  cases reportingRule_of_step h.head_step with
  | bridge _ _ | snapshotState _ | loadConnected _ => cases hstatus
  | publish known =>
    dsimp only at hpublishing hstatus hrun
    obtain rfl := Option.some.inj hstatus
    rw [known] at hpublishing
    obtain ⟨⟨newer, z, older, rfl, hz, rfl, hnewer⟩, connected, rfl⟩ := hpublishing
    exact ⟨newer, z, older, _, rfl, hz, hnewer, bridgeHealthy_of_snapshot
      (bridge_of_reporting hrun.split.tail) (snapshotHealthy_of_healthy hhealthy)⟩

/-- A publication at one second. -/
def reportInputs : List ReportingInput :=
  armedInputs.map .bridge ++ [.snapshotState 1000000000, .loadConnected, .publish]

theorem healthy_of_report_armedInputs :
    ∃ y newer z older r steadyNs, (reportingMachine {} 1).Run (y :: (newer ++ z :: older)) r ∧
      y.output.status.any (·.healthy) = true ∧
      BridgeHealthy {} (older.filterMap reported?) z.pre.bridge steadyNs := by
  obtain ⟨y, rtr, r, hrun, hy⟩ := run_of_execCheck (reportingMachine {} 1)
    reportInputs (fun y _ => y.output.status.any (·.healthy))
    (by decide +kernel)
  obtain ⟨status, hstatus, hhealthy⟩ := (Option.any_eq_true _ _).mp hy
  obtain ⟨newer, z, older, steadyNs, rfl, -, -, hbridge⟩ := healthy_of_report hrun hstatus hhealthy
  exact ⟨y, newer, z, older, r, steadyNs, hrun, hy, hbridge⟩

end RobotCore
