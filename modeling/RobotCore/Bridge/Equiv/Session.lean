import RobotCore.Bridge.Equiv.Step

/-!
# What a step does to the session and to the waiting requests

`session_step` lists the changes of the control session: it is rotated, a sequence number is
issued, an acknowledgement is accepted, or a frame is dispatched.  `waiting_step` says that a
request waiting after a step was waiting before or has just been built for the current session.
-/

namespace RobotCore

open Machine

/-! ### The session -/

/-- The request `start_write_io` hands to the serial port. -/
def sentRequest (cfg : BridgeConfig) (s : Bridge) (request : WriteRequest) (nowNs : ℤ) :
    WriteRequest :=
  let request := recheckRequest cfg s request nowNs
  { request with
    frame := buildCommandV2 request.bootId request.sessionId request.sequence request.enable
      request.offsets request.calibrateImuGyro }

/-- What a step does to the control session. -/
inductive SessionChange (cfg : BridgeConfig) (s : Bridge) :
    BridgeInput → Bridge → Option WriteRequest → Prop
  | kept {i s'} (session : s'.session = s.session) : SessionChange cfg s i s' none
  | issued {i s'} (session : s'.session = s.session.issued) : SessionChange cfg s i s' none
  | rotated {i s' drawn ackFault} (draw : DrawOk s drawn)
      (session : s'.session = .fresh drawn ackFault) : SessionChange cfg s i s' none
  | rotatedIssued {i s' drawn} (draw : DrawOk s drawn)
      (session : s'.session = (Session.fresh drawn false).issued) : SessionChange cfg s i s' none
  | acked {board nowNs drawn s'} (semantic : boardStatusSemanticReason board = none)
      (challenge : s.board.haveLinkBootChallenge = true)
      (boot : board.bootId = s.board.bootIdentity)
      (reported : reportedSession s.session board = true)
      (valid : ackFaultReason s.session board = none)
      (session : s'.session = acceptAck s.session board) :
    SessionChange cfg s (.boardStatus board nowNs drawn) s' none
  | dispatched {nowNs drawn request s'} (task : s.task = .startWrite request)
      (current : request.sessionId = s.session.sessionId)
      (inOrder : s.session.haveDispatchedSequence = true →
        sequenceNewer request.sequence s.session.lastDispatchedSequence = true)
      (session : s'.session = recordDispatch s.session (sentRequest cfg s request nowNs)) :
    SessionChange cfg s (.continueIo nowNs drawn) s' (some (sentRequest cfg s request nowNs))

variable {cfg : BridgeConfig} {s s' : Bridge} {i : BridgeInput} {o : Option WriteRequest}
  {w : WriteRequest}

/-- A semantically valid status rotates the session, or comes from the known boot and leaves the
session alone or moves its acknowledgement. -/
theorem acceptValidStatus_cases (s : Bridge) (board : BoardStatusFrame) (nowNs : ℤ)
    (drawn : UInt32) :
    (∃ reason ackFault, (acceptValidStatus s board nowNs drawn).rotatedFor = some reason ∧
      (acceptValidStatus s board nowNs drawn).bridge.session = .fresh drawn ackFault) ∨
    ((acceptValidStatus s board nowNs drawn).rotatedFor = none ∧
      s.board.haveLinkBootChallenge = true ∧ board.bootId = s.board.bootIdentity ∧
      (reportedSession s.session board = false ∧ s.session.sessionAcknowledged = false ∧
          (acceptValidStatus s board nowNs drawn).bridge.session = s.session ∨
        reportedSession s.session board = true ∧ ackFaultReason s.session board = none ∧
          (acceptValidStatus s board nowNs drawn).bridge.session = acceptAck s.session board)) := by
  rw [acceptValidStatus_eq]
  have hafter := session_afterBootIdentity s nowNs drawn board
  set p := afterBootIdentity s board nowNs drawn
  rcases updateSession_cases drawn board p with ⟨reason, hrot, hcases⟩ | ⟨hrot, hp, hcases⟩
  · rcases hcases with ⟨hp, heq⟩ | ⟨-, -, -, heq⟩ | ⟨-, -, -, heq⟩
    · rcases hafter with ⟨-, hs⟩ | ⟨hnone, -⟩
      · exact Or.inl ⟨reason, false, hrot, by rw [heq]; exact hs⟩
      · rw [hnone] at hp
        cases hp
    · exact Or.inl ⟨reason, false, hrot, by rw [heq]; rfl⟩
    · exact Or.inl ⟨reason, true, hrot, by rw [heq]; rfl⟩
  · rcases hafter with ⟨⟨reason, hsome⟩, -⟩ | ⟨-, hhave, hboot, -, hs⟩
    · rw [hp] at hsome
      cases hsome
    · rw [hs] at hcases
      refine Or.inr ⟨hrot, hhave, hboot, ?_⟩
      rcases hcases with ⟨hrep, hack, heq⟩ | ⟨hrep, hvalid, heq⟩
      · exact Or.inl ⟨hrep, hack, by rw [heq, hs]⟩
      · exact Or.inr ⟨hrep, hvalid, by rw [heq]⟩

theorem session_finishShutdown : (finishShutdownIo s).session = s.session := by
  unfold finishShutdownIo
  split <;> rfl

theorem recordDispatch_sessionId (s : Session) (request : WriteRequest) :
    (recordDispatch s request).sessionId = s.sessionId := by
  unfold recordDispatch
  dsimp only
  split <;> rfl

theorem session_acceptBoardStatus {board : BoardStatusFrame} {nowNs : ℤ} {drawn : UInt32}
    (draw : DrawOk s drawn) :
    SessionChange cfg s (.boardStatus board nowNs drawn) (acceptBoardStatusIo s board nowNs drawn)
      none := by
  unfold acceptBoardStatusIo
  cases hsem : boardStatusSemanticReason board with
  | some reason =>
    dsimp only
    split
    · exact .kept rfl
    · exact .rotated draw rfl
  | none =>
    dsimp only
    rcases acceptValidStatus_cases s board nowNs drawn with
      ⟨reason, ackFault, hrot, hs⟩ | ⟨hrot, hhave, hboot, hcases⟩
    · rw [hrot]
      exact .rotated draw hs
    · rw [hrot]
      dsimp only
      have hfinish : ∀ t : Bridge, (if shutdownNeutralApplied t board = true
          then finishShutdownIo t else t).session = t.session := by
        intro t
        split
        · exact session_finishShutdown
        · rfl
      rcases hcases with ⟨-, -, hs⟩ | ⟨hrep, hvalid, hs⟩
      · exact .kept (by rw [hfinish, hs])
      · exact .acked hsem hhave hboot hrep hvalid (by rw [hfinish, hs])

/-- **What a step does to the control session.** -/
theorem session_step (h : BridgeRule cfg s i s' o) : SessionChange cfg s i s' o := by
  cases h with
  | onCommand => exact .kept (sameLink_onCommand ..).session
  | @writeCommand publisherCount nowNs drawn _ draw =>
    -- a heartbeat that has timed out draws the session anew before the frame is built
    rcases session_prepareCommand cfg s publisherCount nowNs drawn with heq | heq
    · exact .issued heq
    · exact .rotatedIssued draw heq
  | enqueueLatestWrite =>
    unfold enqueueLatestWrite
    dsimp only
    split <;> exact .kept rfl
  | publishStatus => exact .kept (sameLink_publishStatus ..).session
  | calibrateImuGyro => exact .kept (sameLink_calibrateImuGyro ..).session
  | destroy => exact .kept rfl
  | @openSerial outcome drawn _ draw =>
    unfold openSerialIo
    split
    · exact .kept rfl
    · cases outcome with
      | cannotOpen => exact .kept rfl
      | setupFailed => exact .kept rfl
      -- a link that opens starts a session
      | opened => exact .rotated draw rfl
  | boardStatus _ draw => exact session_acceptBoardStatus draw
  | drainLatestWrite =>
    unfold drainLatestWriteIo
    dsimp only
    split
    · exact .kept rfl
    · split <;> exact .kept rfl
  | @writeCompleted completed failed =>
    unfold writeCompletedIo handleIoFaultIo
    dsimp only
    split
    · split <;> exact .kept rfl
    · split
      · exact .kept rfl
      · split <;> exact .kept rfl
  | writeDeadline | readFailed =>
    unfold handleIoFaultIo
    split <;> exact .kept rfl
  | beginShutdown =>
    unfold beginShutdownIo finishShutdownIo
    dsimp only
    split
    · split <;> exact .kept rfl
    -- the neutral frame takes a number of the session
    · split <;> exact .issued rfl
  | shutdownDeadline =>
    unfold finishShutdownIo
    split <;> exact .kept rfl
  | linkOpened => exact .kept rfl
  | @faultRotate nowNs drawn operation _ draw =>
    unfold faultRotateIo finishShutdownIo
    dsimp only
    split
    · split <;> exact .rotated draw rfl
    · exact .rotated draw rfl
  | dispatchNeutral =>
    unfold dispatchNeutralCurrentSessionIo
    dsimp only
    split
    · exact .kept rfl
    · exact .issued rfl
  | @queueWrite nowNs drawn request =>
    unfold queueWriteIo
    dsimp only
    split
    · exact .kept rfl
    · split
      · exact .kept rfl
      · split
        · exact .kept rfl
        · split <;> exact .kept rfl
        · exact .kept rfl
  | @startWrite nowNs drawn request task =>
    unfold startWriteIo finishShutdownIo
    dsimp only
    split
    · split
      · split <;> exact .kept rfl
      · exact .kept rfl
    · split
      · exact .kept rfl
      · rename_i hcurrent
        split
        · exact .kept rfl
        -- dispatched: of the running session, and behind the last one
        · rename_i horder
          refine .dispatched task (by simpa using hcurrent) (fun hhave => ?_) rfl
          simpa [hhave] using horder

/-- A frame is handed to the serial port by `start_write_io` alone. -/
theorem dispatch_of_output (h : BridgeRule cfg s i s' (some w)) :
    ∃ nowNs drawn request, i = .continueIo nowNs drawn ∧ s.task = .startWrite request ∧
      request.sessionId = s.session.sessionId ∧
      (s.session.haveDispatchedSequence = true →
        sequenceNewer request.sequence s.session.lastDispatchedSequence = true) ∧
      w = sentRequest cfg s request nowNs ∧ s'.session = recordDispatch s.session w := by
  cases session_step h with
  | dispatched task current inOrder session =>
    exact ⟨_, _, _, rfl, task, current, inOrder, rfl, session⟩

/-! ### The waiting requests -/

/-- A request built in the step that leads to `s'`. -/
structure NewRequest (cfg : BridgeConfig) (i : BridgeInput) (s' : Bridge) (w : WriteRequest) :
    Prop where
  session : w.sessionId = s'.session.sessionId
  boot : w.bootId = s'.expectedBootId
  sequence : w.sequence = s'.session.commandSequence
  neutral : w.enable = false → w.offsets = Vector.replicate _ 0
  enabled : w.enable = true → w.offsets = s'.command.commandOffsets ∧
    ∃ publisherCount nowNs drawn, i = .writeCommand publisherCount nowNs drawn ∧
      hostEnableAllowedLocked cfg s' nowNs = true
  calibrating : w.calibrateImuGyro = true → s'.calibration.requested = true
  issued : ∃ base : Session, s'.session = base.issued

theorem mem_waiting : w ∈ s.waiting ↔ s.builtRequest = some w ∨ s.latestOutbound = some w ∨
    s.task.request? = some w ∨ s.pendingWrite = some w := by
  simp [Bridge.waiting]

theorem mem_waiting_of_startWrite {request : WriteRequest} (h : s.task = .startWrite request) :
    request ∈ s.waiting := by
  rw [mem_waiting, h]
  exact Or.inr (Or.inr (Or.inl rfl))

theorem newRequest_writeCommand {publisherCount : ℕ} {nowNs : ℤ} {drawn : UInt32} :
    NewRequest cfg (.writeCommand publisherCount nowNs drawn)
      (writeCommand cfg s publisherCount nowNs drawn)
      (buildRequest cfg (prepareCommand cfg s publisherCount nowNs drawn) nowNs) where
  session := rfl
  boot := rfl
  sequence := rfl
  neutral h := if_neg (by simpa [buildRequest] using h)
  enabled h := ⟨if_pos h, _, _, _, rfl, h⟩
  calibrating h := h
  issued := ⟨_, rfl⟩

/-- A neutral request that was just given the next sequence number. -/
theorem newRequest_neutral {shutdown : Bool} (hs : s'.session = s.session.issued)
    (hboot : s'.expectedBootId = s.expectedBootId) :
    NewRequest cfg i s' (neutralRequest (allocateSequence s) shutdown) where
  session := by rw [hs]; rfl
  boot := by rw [hboot]; rfl
  sequence := by rw [hs]; rfl
  neutral _ := rfl
  enabled h := by cases h
  calibrating h := by cases h
  issued := ⟨_, hs⟩

theorem waiting_finishShutdown : (finishShutdownIo s).waiting = s.waiting := by
  unfold finishShutdownIo
  split <;> rfl

/-- Dropping the task that holds no request, for another that holds none, loses nothing. -/
theorem waiting_withTask (task : IoTask) (h : task.request? = none)
    (hw : w ∈ { s with task := task }.waiting) : w ∈ s.waiting := by
  rw [mem_waiting] at hw ⊢
  rcases hw with hw | hw | hw | hw
  · exact Or.inl hw
  · exact Or.inr (Or.inl hw)
  · exact absurd (hw.symm.trans h) (by simp)
  · exact Or.inr (Or.inr (Or.inr hw))

theorem waiting_acceptBoardStatus {board : BoardStatusFrame} {nowNs : ℤ} {drawn : UInt32}
    (h : w ∈ (acceptBoardStatusIo s board nowNs drawn).waiting) : w ∈ s.waiting := by
  have hsession : ∀ p : StatusProgress,
      (updateSession p board drawn).bridge.waiting = p.bridge.waiting := by
    intro p
    rcases updateSession_cases drawn board p with
      ⟨reason, -, ⟨-, heq⟩ | ⟨-, -, -, heq⟩ | ⟨-, -, -, heq⟩⟩ |
      ⟨-, -, ⟨-, -, heq⟩ | ⟨-, -, heq⟩⟩ <;>
      rw [heq] <;> rfl
  have haccept := waiting_afterBootIdentity s nowNs drawn board
  rw [← hsession, ← acceptValidStatus_eq] at haccept
  unfold acceptBoardStatusIo at h
  cases hsem : boardStatusSemanticReason board with
  | some reason =>
    rw [hsem] at h
    dsimp only at h
    split at h
    · exact h
    · exact waiting_withTask (s := rotateSessionLocked s drawn _ true) _ rfl h
  | none =>
    rw [hsem] at h
    dsimp only at h
    split at h
    · exact haccept ▸ waiting_withTask _ rfl h
    · rw [← haccept]
      split at h
      · rwa [waiting_finishShutdown] at h
      · exact h

theorem waiting_handleIoFault {operation : String} (h : w ∈ (handleIoFaultIo s operation).waiting) :
    w ∈ s.waiting := by
  unfold handleIoFaultIo at h
  split at h
  · exact h
  · rw [mem_waiting] at h ⊢
    rcases h with h | h | h | h
    · exact Or.inl h
    · exact Or.inr (Or.inl h)
    · cases h
    · cases h

/-- **A request that waits after a step was waiting before, or has just been built.** -/
theorem waiting_step (h : BridgeRule cfg s i s' o) (hw : w ∈ s'.waiting) :
    w ∈ s.waiting ∨ NewRequest cfg i s' w := by
  cases h with
  | onCommand => exact Or.inl ((sameLink_onCommand ..).waiting ▸ hw)
  | @writeCommand publisherCount nowNs drawn =>
    rw [mem_waiting] at hw
    -- what waits is the frame just built, or has waited before
    rcases hw with hw | hw
    · obtain rfl := Option.some.inj hw
      exact Or.inr newRequest_writeCommand
    · left
      rw [← waiting_prepareCommand cfg s publisherCount nowNs drawn, mem_waiting]
      exact Or.inr hw
  | @enqueueLatestWrite request built =>
    left
    -- a newer request takes the place of the latest one
    unfold enqueueLatestWrite at hw
    rw [mem_waiting] at hw ⊢
    dsimp only at hw
    split at hw
    · exact Or.inr (hw.resolve_left (by simp))
    · rcases hw with hw | hw | hw
      · cases hw
      · exact Or.inl (built.trans hw)
      · exact Or.inr (Or.inr hw)
  | publishStatus => exact Or.inl ((sameLink_publishStatus ..).waiting ▸ hw)
  | calibrateImuGyro => exact Or.inl ((sameLink_calibrateImuGyro ..).waiting ▸ hw)
  | destroy => exact Or.inl hw
  | @openSerial outcome drawn =>
    left
    unfold openSerialIo at hw
    split at hw
    · exact hw
    · cases outcome with
      | cannotOpen | setupFailed => exact hw
      | opened => exact waiting_withTask .linkOpened rfl hw
  | boardStatus => exact Or.inl (waiting_acceptBoardStatus hw)
  | drainLatestWrite =>
    left
    -- the drain moves the latest request on to the port or to the pending write
    unfold drainLatestWriteIo at hw
    rw [mem_waiting]
    dsimp only at hw
    split at hw
    · rw [mem_waiting] at hw
      exact hw.imp_right fun hw => Or.inr (hw.resolve_left (by simp))
    · rename_i request hlatest
      split at hw
      · rw [mem_waiting] at hw
        exact hw.imp_right fun hw => Or.inr (hw.resolve_left (by simp))
      · rw [mem_waiting] at hw
        rcases hw with hw | hw | hw | hw
        · exact Or.inl hw
        · cases hw
        · exact Or.inr (Or.inl (hlatest.trans hw))
        · exact Or.inr (Or.inr (Or.inr hw))
  | @writeCompleted completed failed =>
    left
    unfold writeCompletedIo at hw
    dsimp only at hw
    -- a failed write is a fault; after a completed one the pending request is next
    split at hw
    · exact waiting_handleIoFault (s := { s with activeWrite := none }) hw
    · split at hw
      · exact hw
      · split at hw
        · exact hw
        · rename_i next hnext
          rw [mem_waiting] at hw ⊢
          rcases hw with hw | hw | hw | hw
          · exact Or.inl hw
          · exact Or.inr (Or.inl hw)
          · exact Or.inr (Or.inr (Or.inr (hnext.trans hw)))
          · cases hw
  | writeDeadline | readFailed => exact Or.inl (waiting_handleIoFault hw)
  | beginShutdown =>
    generalize hs' : beginShutdownIo s = s' at hw ⊢
    unfold beginShutdownIo at hs'
    dsimp only at hs'
    -- the shutdown drops the latest request
    have hdrop :
        w ∈ { s with latestOutbound := none, outboundNotificationPosted := false }.waiting →
        w ∈ s.waiting := by
      intro hw
      rw [mem_waiting] at hw ⊢
      exact hw.imp_right fun hw => Or.inr (hw.resolve_left (by simp))
    split at hs'
    · subst hs'
      rw [waiting_finishShutdown] at hw
      exact Or.inl (hdrop hw)
    · split at hs' <;> subst hs' <;> rw [mem_waiting] at hw <;> rcases hw with hw | hw | hw | hw
      · exact Or.inl (hdrop (mem_waiting.mpr (Or.inl hw)))
      · cases hw
      · exact Or.inl (hdrop (mem_waiting.mpr (Or.inr (Or.inr (Or.inl hw)))))
      -- the neutral frame of the shutdown is a request of its own
      · obtain rfl := Option.some.inj hw
        exact Or.inr (newRequest_neutral (s := { s with
          latestOutbound := none, outboundNotificationPosted := false }) rfl rfl)
      · exact Or.inl (hdrop (mem_waiting.mpr (Or.inl hw)))
      · cases hw
      · obtain rfl := Option.some.inj hw
        exact Or.inr (newRequest_neutral (s := { s with
          latestOutbound := none, outboundNotificationPosted := false }) rfl rfl)
      · exact Or.inl (hdrop (mem_waiting.mpr (Or.inr (Or.inr (Or.inr hw)))))
  | shutdownDeadline => exact Or.inl (waiting_finishShutdown ▸ hw)
  | linkOpened task => exact Or.inl (waiting_withTask .dispatchNeutral rfl hw)
  | @faultRotate nowNs drawn operation =>
    left
    unfold faultRotateIo at hw
    dsimp only at hw
    -- a fault ends the task, and while shutting down the link too
    split at hw
    · rw [waiting_finishShutdown] at hw
      exact waiting_withTask .idle rfl hw
    · exact waiting_withTask .idle rfl hw
  | dispatchNeutral =>
    generalize hs' : dispatchNeutralCurrentSessionIo s = s' at hw ⊢
    unfold dispatchNeutralCurrentSessionIo at hs'
    dsimp only at hs'
    split at hs' <;> subst hs'
    · exact Or.inl (waiting_withTask .idle rfl hw)
    · rw [mem_waiting] at hw
      rcases hw with hw | hw | hw | hw
      · exact Or.inl (mem_waiting.mpr (Or.inl hw))
      · exact Or.inl (mem_waiting.mpr (Or.inr (Or.inl hw)))
      · obtain rfl := Option.some.inj hw
        exact Or.inr (newRequest_neutral (s := { s with task := .idle }) rfl rfl)
      · exact Or.inl (mem_waiting.mpr (Or.inr (Or.inr (Or.inr hw))))
  | @queueWrite nowNs drawn request task =>
    left
    -- the request of the task is started, kept as the pending one or dropped; no other comes up
    have hqueued : ∀ t : IoTask, t.request? = some request ∨ t.request? = none →
       ∀ p, p = s.pendingWrite ∨ p = some request →
       w ∈ { s with task := t, pendingWrite := p }.waiting → w ∈ s.waiting := by
      intro t ht p hp hw
      have hreq : s.task.request? = some request := by rw [task]; rfl
      rw [mem_waiting] at hw ⊢
      rw [hreq]
      rcases hw with hw | hw | hw | hw
      · exact Or.inl hw
      · exact Or.inr (Or.inl hw)
      · rcases ht with ht | ht
        · exact Or.inr (Or.inr (Or.inl (ht.symm.trans hw)))
        · rw [ht] at hw
          cases hw
      · rcases hp with hp | hp
        · exact Or.inr (Or.inr (Or.inr (hp.symm.trans hw)))
        · exact Or.inr (Or.inr (Or.inl (hp.symm.trans hw)))
    unfold queueWriteIo at hw
    dsimp only at hw
    split at hw
    · exact hqueued .idle (Or.inr rfl) _ (Or.inl rfl) hw
    · split at hw
      · exact hqueued .idle (Or.inr rfl) _ (Or.inl rfl) hw
      · split at hw
        · exact hqueued (.startWrite request) (Or.inl rfl) _ (Or.inl rfl) hw
        · split at hw
          · exact hqueued .idle (Or.inr rfl) _ (Or.inl rfl) hw
          · exact hqueued .idle (Or.inr rfl) _ (Or.inr rfl) hw
        · exact hqueued .idle (Or.inr rfl) _ (Or.inr rfl) hw
  | @startWrite nowNs drawn request task =>
    left
    -- the request leaves the task: it is written or dropped
    have hidle : ∀ t : Bridge, t.waiting = { s with task := .idle }.waiting → w ∈ t.waiting →
        w ∈ s.waiting := fun t ht hw => waiting_withTask .idle rfl (ht ▸ hw)
    unfold startWriteIo at hw
    dsimp only at hw
    split at hw
    · split at hw
      · exact hidle _ waiting_finishShutdown hw
      · exact hidle _ rfl hw
    · split at hw
      · exact hidle _ rfl hw
      · split at hw <;> exact hidle _ rfl hw

/-! ### The steps that only move requests -/

/-- The clock reading with which a handler checks the age of the last command. -/
def BridgeInput.commandClock? : BridgeInput → Option ℤ
  | .onCommand _ nowNs _ => some nowNs
  | .writeCommand _ nowNs _ => some nowNs
  | _ => none

/-- Everything the handlers decide on is unchanged, but for the counters of the session. -/
structure SameCore (s s' : Bridge) : Prop where
  session : s'.session.sessionId = s.session.sessionId
  board : s'.board = s.board
  command : s'.command = s.command
  calibration : s'.calibration = s.calibration

theorem sameCore_finishShutdown : SameCore s (finishShutdownIo s) := by
  unfold finishShutdownIo
  split <;> exact ⟨rfl, rfl, rfl, rfl⟩

theorem sameCore_handleIoFault (s : Bridge) (operation : String) :
    SameCore s (handleIoFaultIo s operation) := by
  unfold handleIoFaultIo
  split <;> exact ⟨rfl, rfl, rfl, rfl⟩

/-- The steps that decide something; all others only move requests. -/
inductive CoreChange (cfg : BridgeConfig) (s : Bridge) : BridgeInput → Bridge → Prop
  | onCommand {publisherCount nowNs message} :
    CoreChange cfg s (.onCommand publisherCount nowNs message)
      (onCommand cfg s publisherCount nowNs message)
  | writeCommand {publisherCount nowNs drawn} (draw : DrawOk s drawn) :
    CoreChange cfg s (.writeCommand publisherCount nowNs drawn)
      (writeCommand cfg s publisherCount nowNs drawn)
  | publishStatus {graph publisherCount} :
    CoreChange cfg s (.publishStatus graph publisherCount)
      (publishStatus cfg s graph publisherCount)
  | calibrateImuGyro {nowNs imuArrivalNs} :
    CoreChange cfg s (.calibrateImuGyro nowNs imuArrivalNs)
      (calibrateImuGyro cfg s nowNs imuArrivalNs)
  | boardStatus {board nowNs drawn} (draw : DrawOk s drawn) :
    CoreChange cfg s (.boardStatus board nowNs drawn) (acceptBoardStatusIo s board nowNs drawn)
  | linkRotated {input : BridgeInput} {post : Bridge} (clock : input.commandClock? = none)
      (session : post.session.sessionId ≠ s.session.sessionId)
      (board : post.board.haveLinkBootChallenge = false ∨
        post.board.haveLinkBootChallenge = s.board.haveLinkBootChallenge ∧
          post.board.linkBootId = s.board.linkBootId ∧
          post.board.bootIdentity = s.board.bootIdentity)
      (command : post.command = resetArmBarrierLocked s.command)
      (calibration : post.calibration = s.calibration) : CoreChange cfg s input post
  | kept {input : BridgeInput} {post : Bridge} (clock : input.commandClock? = none)
      (core : SameCore s post) : CoreChange cfg s input post

/-- **The steps that decide something.** -/
theorem core_step (h : BridgeRule cfg s i s' o) : CoreChange cfg s i s' := by
  cases h with
  | onCommand => exact .onCommand
  | writeCommand _ draw => exact .writeCommand draw
  | publishStatus => exact .publishStatus
  | calibrateImuGyro => exact .calibrateImuGyro
  | boardStatus _ draw => exact .boardStatus draw
  | shutdownDeadline => exact .kept rfl sameCore_finishShutdown
  | destroy | linkOpened => exact .kept rfl ⟨rfl, rfl, rfl, rfl⟩
  | @openSerial outcome drawn _ draw =>
    unfold openSerialIo
    split
    · exact .kept rfl ⟨rfl, rfl, rfl, rfl⟩
    · cases outcome with
      | cannotOpen | setupFailed => exact .kept rfl ⟨rfl, rfl, rfl, rfl⟩
      -- the session is drawn anew when the link opens, and below after a fault
      | opened => exact .linkRotated rfl draw.2 (Or.inl rfl) rfl rfl
  | @faultRotate nowNs drawn operation _ draw =>
    unfold faultRotateIo
    dsimp only
    split
    · obtain ⟨hsession, hboard, hcommand, hcalibration⟩ := sameCore_finishShutdown (s := { s with
        board := { s.board with lastStatusNs := 0, statusSemanticFault := false } })
      unfold finishShutdownIo
      split <;> exact .linkRotated rfl draw.2 (Or.inr ⟨rfl, rfl, rfl⟩) rfl rfl
    · exact .linkRotated rfl draw.2 (Or.inr ⟨rfl, rfl, rfl⟩) rfl rfl
  | enqueueLatestWrite =>
    unfold enqueueLatestWrite
    dsimp only
    split <;> exact .kept rfl ⟨rfl, rfl, rfl, rfl⟩
  | drainLatestWrite =>
    unfold drainLatestWriteIo
    dsimp only
    split
    · exact .kept rfl ⟨rfl, rfl, rfl, rfl⟩
    · split <;> exact .kept rfl ⟨rfl, rfl, rfl, rfl⟩
  | writeCompleted =>
    unfold writeCompletedIo
    dsimp only
    split
    · obtain ⟨hsession, hboard, hcommand, hcalibration⟩ :=
        -- a fault touches the link and leaves the session to the callback that rotates it
        sameCore_handleIoFault { s with activeWrite := none } "write"
      exact .kept rfl ⟨hsession, hboard, hcommand, hcalibration⟩
    · split
      · exact .kept rfl ⟨rfl, rfl, rfl, rfl⟩
      · split <;> exact .kept rfl ⟨rfl, rfl, rfl, rfl⟩
  | writeDeadline | readFailed => exact .kept rfl (sameCore_handleIoFault _ _)
  | beginShutdown =>
    unfold beginShutdownIo
    dsimp only
    split
    · obtain ⟨hsession, hboard, hcommand, hcalibration⟩ := sameCore_finishShutdown (s := { s with
        latestOutbound := none, outboundNotificationPosted := false })
      exact .kept rfl ⟨hsession, hboard, hcommand, hcalibration⟩
    · split <;> exact .kept rfl ⟨rfl, rfl, rfl, rfl⟩
  | dispatchNeutral =>
    unfold dispatchNeutralCurrentSessionIo
    dsimp only
    split <;> exact .kept rfl ⟨rfl, rfl, rfl, rfl⟩
  | queueWrite =>
    unfold queueWriteIo
    dsimp only
    split
    · exact .kept rfl ⟨rfl, rfl, rfl, rfl⟩
    · split
      · exact .kept rfl ⟨rfl, rfl, rfl, rfl⟩
      · split
        · exact .kept rfl ⟨rfl, rfl, rfl, rfl⟩
        · split <;> exact .kept rfl ⟨rfl, rfl, rfl, rfl⟩
        · exact .kept rfl ⟨rfl, rfl, rfl, rfl⟩
  | startWrite =>
    unfold startWriteIo
    dsimp only
    split
    · split
      · obtain ⟨hsession, hboard, hcommand, hcalibration⟩ :=
          sameCore_finishShutdown (s := { s with task := .idle })
        exact .kept rfl ⟨hsession, hboard, hcommand, hcalibration⟩
      · exact .kept rfl ⟨rfl, rfl, rfl, rfl⟩
    · split
      · exact .kept rfl ⟨rfl, rfl, rfl, rfl⟩
      · split
        · exact .kept rfl ⟨rfl, rfl, rfl, rfl⟩
        · exact .kept rfl ⟨recordDispatch_sessionId _ _, rfl, rfl, rfl⟩

/-! ### The boot challenge -/

/-- The challenge of the link is the boot that reported last, and not zero. -/
def LinkBootOk (s : Bridge) : Prop :=
  s.board.haveLinkBootChallenge = true →
    s.board.linkBootId = s.board.bootIdentity ∧ s.board.linkBootId ≠ 0

/-- The boot challenge and the boot identity are unchanged. -/
structure SameBoot (s s' : Bridge) : Prop where
  challenge : s'.board.haveLinkBootChallenge = s.board.haveLinkBootChallenge
  link : s'.board.linkBootId = s.board.linkBootId
  identity : s'.board.bootIdentity = s.board.bootIdentity

theorem SameBoot.of_board (h : s'.board = s.board) : SameBoot s s' := by
  constructor <;> rw [h]

theorem SameBoot.expectedBootId (h : SameBoot s s') : s'.expectedBootId = s.expectedBootId := by
  unfold Bridge.expectedBootId
  rw [h.challenge, h.link]

theorem SameBoot.linkBootOk (h : SameBoot s s') (hs : LinkBootOk s) : LinkBootOk s' := by
  intro hhave
  rw [h.link, h.identity]
  exact hs (h.challenge ▸ hhave)

theorem bootId_ne_zero {board : BoardStatusFrame} (h : boardStatusSemanticReason board = none) :
    board.bootId ≠ 0 := by
  intro hzero
  unfold boardStatusSemanticReason at h
  dsimp only at h
  split_ifs at h with _ _ _ _ _ hboot
  exact hboot (beq_iff_eq.mpr hzero)

/-- What a step does to the boot challenge: only a rotation changes it, and then it is dropped or
becomes the boot that reports. -/
inductive BootChange (s s' : Bridge) : Prop
  | same (boot : SameBoot s s')
  | dropped (rotated : s'.session.sessionId ≠ s.session.sessionId)
      (challenge : s'.board.haveLinkBootChallenge = false)
  | acquired (rotated : s'.session.sessionId ≠ s.session.sessionId)
      (link : s'.board.linkBootId = s'.board.bootIdentity) (nonzero : s'.board.linkBootId ≠ 0)

theorem board_finishShutdown : (finishShutdownIo s).board = s.board := by
  unfold finishShutdownIo
  split <;> rfl

theorem board_updateSession (p : StatusProgress) (board : BoardStatusFrame) (drawn : UInt32) :
    (updateSession p board drawn).bridge.board = p.bridge.board := by
  rcases updateSession_cases drawn board p with
    ⟨reason, -, ⟨-, heq⟩ | ⟨-, -, -, heq⟩ | ⟨-, -, -, heq⟩⟩ | ⟨-, -, ⟨-, -, heq⟩ | ⟨-, -, heq⟩⟩ <;>
    rw [heq] <;> rfl

theorem boot_acceptBoardStatus {board : BoardStatusFrame} {nowNs : ℤ} {drawn : UInt32}
    (draw : DrawOk s drawn) (hs : LinkBootOk s) :
    BootChange s (acceptBoardStatusIo s board nowNs drawn) := by
  unfold acceptBoardStatusIo
  cases hsem : boardStatusSemanticReason board with
  | some reason =>
    dsimp only
    split <;> exact .same ⟨rfl, rfl, rfl⟩
  | none =>
    dsimp only
    obtain ⟨hchallenge, hlink, hidentity⟩ :=
      board_afterBootIdentity s nowNs drawn board fun h => (hs h).1
    rw [← board_updateSession _ board drawn, ← acceptValidStatus_eq] at hchallenge hlink hidentity
    rcases acceptValidStatus_cases s board nowNs drawn with
      ⟨reason, ackFault, hrot, hsession⟩ | ⟨hrot, hhave, hboot, -⟩
    · rw [hrot]
      refine .acquired ?_ (hlink.trans hidentity.symm) ?_
      · dsimp only
        rw [hsession]
        exact draw.2
      · dsimp only
        rw [hlink]
        exact bootId_ne_zero hsem
    · rw [hrot]
      have hsame : SameBoot s (acceptValidStatus s board nowNs drawn).bridge :=
        ⟨hchallenge.trans hhave.symm, hlink.trans (hboot.trans (hs hhave).1.symm),
          hidentity.trans hboot⟩
      dsimp only
      split
      · exact .same ⟨by rw [board_finishShutdown, hsame.challenge],
          by rw [board_finishShutdown, hsame.link], by rw [board_finishShutdown, hsame.identity]⟩
      · exact .same hsame

theorem sameBoot_prepareCommand {publisherCount : ℕ} {nowNs : ℤ} {drawn : UInt32} (s : Bridge) :
    SameBoot s (prepareCommand cfg s publisherCount nowNs drawn) := by
  have hlatch := (sameLink_latchCommandTimeout cfg s nowNs).board
  set s₁ := latchCommandTimeoutLocked cfg s nowNs
  set s₂ : Bridge := { s₁ with command := updatePublisherGateLocked s₁.command publisherCount }
  have hexpire :=
    (sameLink_expireCalibration (latchHeartbeatTimeout cfg s₂ nowNs drawn) nowNs).board
  have hprepare : (prepareCommand cfg s publisherCount nowNs drawn).board
      = (latchHeartbeatTimeout cfg s₂ nowNs drawn).board := hexpire
  rcases latchHeartbeatTimeout_cases cfg s₂ nowNs drawn with heq | heq <;>
    constructor <;> rw [hprepare, heq, ← hlatch]

/-- **What a step does to the boot challenge.** -/
theorem boot_step (h : BridgeRule cfg s i s' o) (hs : LinkBootOk s) : BootChange s s' := by
  cases core_step h with
  | onCommand => exact .same (.of_board (sameLink_onCommand ..).board)
  | writeCommand =>
    obtain ⟨hchallenge, hlink, hidentity⟩ := sameBoot_prepareCommand s
    exact .same ⟨hchallenge, hlink, hidentity⟩
  | publishStatus => exact .same (.of_board (sameLink_publishStatus ..).board)
  | calibrateImuGyro => exact .same (.of_board (sameLink_calibrateImuGyro ..).board)
  | boardStatus draw => exact boot_acceptBoardStatus draw hs
  | linkRotated _ session board =>
    rcases board with hnone | ⟨hchallenge, hlink, hidentity⟩
    · exact .dropped session hnone
    · exact .same ⟨hchallenge, hlink, hidentity⟩
  | kept _ core => exact .same (.of_board core.board)

end RobotCore
