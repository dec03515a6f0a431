import RobotCore.Bridge.Equiv.Trace
import RobotCore.Lib.Interlock

/-!
# The arm barrier

The flags of the command state are an arming interlock (`barrierOf`).  `resetsBarrier` and
`acceptedSignal` say what a transition does to it in the words of the ROS interface: what resets
the barrier, and which command is accepted.  `barrier_step` is the refinement: the flags move as
the interlock does, and `barrier_of_run` follows it along a run.
-/

namespace RobotCore

open Machine

variable {cfg : BridgeConfig} {initialSession : UInt32} {s s' : Bridge} {i : BridgeInput}
  {o : Option WriteRequest} {x : BridgeTransition} {tr : BridgeHistory}

/-! ### What a transition does to the barrier -/

/-- The message a transition accepts as a valid command. -/
def acceptedCommand (cfg : BridgeConfig) (x : BridgeTransition) : Option ThrusterCommand :=
  match x.input with
  | .onCommand publisherCount nowNs message =>
    if commandMessageValid cfg x.pre publisherCount nowNs message then some message else none
  | _ => none

/-- The transition receives a command that is not valid. -/
def rejectsCommand (cfg : BridgeConfig) (x : BridgeTransition) : Bool :=
  match x.input with
  | .onCommand publisherCount nowNs message =>
    !commandMessageValid cfg x.pre publisherCount nowNs message
  | _ => false

/-- The transition finds the last command too old. -/
def timesOut (cfg : BridgeConfig) (x : BridgeTransition) : Bool :=
  x.input.commandClock?.any fun nowNs => commandExpired cfg x.pre.command nowNs

/-- **The barrier resets**: a session rotation, a command timeout, an invalid command, the publisher
gate closed, the authority endpoint appearing or lost, or a calibration request. -/
def resetsBarrier (cfg : BridgeConfig) (x : BridgeTransition) : Bool :=
  rotates x || timesOut cfg x || rejectsCommand cfg x || !x.post.command.commandPublisherGate ||
    x.post.command.authorityPublisherIdentified != x.pre.command.authorityPublisherIdentified ||
    (x.post.calibration.requested && !x.pre.calibration.requested)

/-- What an accepted command says to the barrier. -/
def commandSignal (message : ThrusterCommand) : Interlock.Signal UInt64 :=
  if message.armed then .armed message.armGeneration else .disarmed message.armGeneration

def acceptedSignal (cfg : BridgeConfig) (x : BridgeTransition) : Option (Interlock.Signal UInt64) :=
  (acceptedCommand cfg x).map commandSignal

/-- The barrier as its flags have it. -/
def barrierOf (c : CommandState) : Interlock UInt64 :=
  if c.armAuthorized then .authorized c.authorizedGeneration
  else if c.sawDisarmedAfterSession then .sawDisarmed c.disarmedGeneration
  else .closed

/-- The flags are those of an interlock, which is closed while the publisher gate is or after a
command timeout. -/
structure BarrierOk (c : CommandState) : Prop where
  exclusive : c.armAuthorized = true → c.sawDisarmedAfterSession = false
  gate : c.commandPublisherGate = false → barrierOf c = .closed
  timeout : c.commandTimeoutLatched = true → barrierOf c = .closed

theorem barrierOf_eq_closed_iff {c : CommandState} :
    barrierOf c = .closed ↔ c.armAuthorized = false ∧ c.sawDisarmedAfterSession = false := by
  unfold barrierOf
  cases c.armAuthorized <;> cases c.sawDisarmedAfterSession <;> simp

/-- With both flags clear the barrier is closed and consistent. -/
theorem barrierOk_of_closed {c : CommandState} (h : barrierOf c = .closed) : BarrierOk c :=
  ⟨fun _ => (barrierOf_eq_closed_iff.mp h).2, fun _ => h, fun _ => h⟩

/-! ### The building blocks -/

/-- The publisher gate after an update: one publisher, and it is the identified authority. -/
def gateOpens (c : CommandState) (publisherCount : ℕ) : Bool :=
  publisherCount == 1 && c.authorityPublisherIdentified

/-- `update_publisher_gate_locked` in one piece. -/
theorem updatePublisherGate_eq (c : CommandState) (publisherCount : ℕ) :
    updatePublisherGateLocked c publisherCount =
      let opens := gateOpens c publisherCount
      let closes := !opens && (c.commandPublisherGate || c.commandValid)
      { c with
        commandPublisherCount := publisherCount
        authorityPublisherIdentified := opens
        authorityRefreshRequested := c.authorityRefreshRequested || !opens
        commandPublisherGate := opens
        commandValid := c.commandValid && opens
        commandEnabled := c.commandEnabled && opens
        armAuthorized := c.armAuthorized && !closes
        sawDisarmedAfterSession := c.sawDisarmedAfterSession && !closes
        disarmedGeneration := if closes then 0 else c.disarmedGeneration } := by
  unfold updatePublisherGateLocked gateOpens resetArmBarrierLocked
  obtain ⟨gate, identified, refresh, epoch, count, valid, enabled⟩ := c
  rcases eq_or_ne publisherCount 1 with rfl | hcount
  · cases identified <;> cases gate <;> cases valid <;> simp
  · cases gate <;> cases valid <;> simp [hcount]

theorem barrier_updatePublisherGate {c : CommandState} (publisherCount : ℕ) (hc : BarrierOk c) :
    BarrierOk (updatePublisherGateLocked c publisherCount) ∧
      barrierOf (updatePublisherGateLocked c publisherCount)
        = if gateOpens c publisherCount then barrierOf c else .closed := by
  rw [updatePublisherGate_eq]
  cases hopens : gateOpens c publisherCount with
  | true =>
    refine ⟨⟨?_, ?_, ?_⟩, ?_⟩
    · simpa using hc.exclusive
    · simp
    · simpa [barrierOf] using hc.timeout
    · simp [barrierOf]
  | false =>
    -- The gate closes now, or was closed already.
    have hclosed : (c.commandPublisherGate || c.commandValid) = false → barrierOf c = .closed :=
      fun h => hc.gate (Bool.or_eq_false_iff.mp h).1
    have : ∀ c', barrierOf c' = .closed → BarrierOk c' ∧ barrierOf c' = .closed :=
      fun c' h => ⟨barrierOk_of_closed h, h⟩
    refine this _ (barrierOf_eq_closed_iff.mpr ?_)
    cases hold : c.commandPublisherGate || c.commandValid with
    | true => simp
    | false => simpa using barrierOf_eq_closed_iff.mp (hclosed hold)

theorem barrier_latchCommandTimeout (cfg : BridgeConfig) (nowNs : ℤ) (hs : BarrierOk s.command) :
    BarrierOk (latchCommandTimeoutLocked cfg s nowNs).command ∧
      barrierOf (latchCommandTimeoutLocked cfg s nowNs).command
        = if commandExpired cfg s.command nowNs then .closed else barrierOf s.command := by
  unfold latchCommandTimeoutLocked
  cases hexp : commandExpired cfg s.command nowNs with
  | false => exact ⟨hs, rfl⟩
  | true =>
    cases hlatched : s.command.commandTimeoutLatched with
    | true => exact ⟨hs, hs.timeout hlatched⟩
    | false => exact ⟨barrierOk_of_closed rfl, rfl⟩

theorem identified_latchCommandTimeout {nowNs : ℤ} :
    (latchCommandTimeoutLocked cfg s nowNs).command.authorityPublisherIdentified
      = s.command.authorityPublisherIdentified := by
  unfold latchCommandTimeoutLocked
  split <;> rfl

/-- The state in which a command handler decides: the barrier is closed by a timeout or a closed
gate. -/
theorem barrier_beforeCommand (cfg : BridgeConfig) (publisherCount : ℕ) (nowNs : ℤ)
    (hs : BarrierOk s.command) :
    BarrierOk (beforeCommand cfg s publisherCount nowNs).command ∧
      (beforeCommand cfg s publisherCount nowNs).command.commandPublisherGate
        = gateOpens s.command publisherCount ∧
      (beforeCommand cfg s publisherCount nowNs).command.authorityPublisherIdentified
        = gateOpens s.command publisherCount ∧
      barrierOf (beforeCommand cfg s publisherCount nowNs).command
        = if commandExpired cfg s.command nowNs || !gateOpens s.command publisherCount then .closed
          else barrierOf s.command := by
  obtain ⟨hok, hbarrier⟩ := barrier_latchCommandTimeout cfg nowNs hs
  have hopens : gateOpens (latchCommandTimeoutLocked cfg s nowNs).command publisherCount
      = gateOpens s.command publisherCount := by
    unfold gateOpens
    rw [identified_latchCommandTimeout]
  obtain ⟨hok', hbarrier'⟩ := barrier_updatePublisherGate publisherCount hok
  have heq := updatePublisherGate_eq (latchCommandTimeoutLocked cfg s nowNs).command publisherCount
  rw [hopens] at heq hbarrier'
  refine ⟨hok', congrArg CommandState.commandPublisherGate heq,
    congrArg CommandState.authorityPublisherIdentified heq, hbarrier'.trans ?_⟩
  rw [hbarrier]
  cases gateOpens s.command publisherCount <;> cases commandExpired cfg s.command nowNs <;> rfl

theorem command_updateCalibration (s : Bridge) (board : BoardStatusFrame) :
    (updateCalibration s board).command = s.command ∧
      ((updateCalibration s board).calibration.requested = true →
        s.calibration.requested = true) := by
  unfold updateCalibration
  dsimp only
  split
  · split
    · exact ⟨rfl, fun h => (Bool.false_ne_true h).elim⟩
    · split
      · exact ⟨rfl, fun h => (Bool.false_ne_true h).elim⟩
      · exact ⟨rfl, id⟩
  · exact ⟨rfl, id⟩

theorem command_updateBootIdentity (s : Bridge) (board : BoardStatusFrame) (drawn : UInt32) :
    (updateBootIdentity s board drawn).bridge.calibration = s.calibration ∧
      (updateBootIdentity s board drawn).bridge.command
        = if (updateBootIdentity s board drawn).rotatedFor.isSome
          then resetArmBarrierLocked s.command else s.command := by
  unfold updateBootIdentity
  dsimp only
  split
  · exact ⟨rfl, rfl⟩
  · split
    · exact ⟨rfl, rfl⟩
    · split <;> exact ⟨rfl, rfl⟩

/-- A valid status resets the barrier exactly when it rotates the session. -/
theorem command_acceptValidStatus (s : Bridge) (board : BoardStatusFrame) (nowNs : ℤ)
    (drawn : UInt32) :
    ((acceptValidStatus s board nowNs drawn).bridge.calibration.requested = true →
        s.calibration.requested = true) ∧
      (acceptValidStatus s board nowNs drawn).bridge.command
        = if (acceptValidStatus s board nowNs drawn).rotatedFor.isSome
          then resetArmBarrierLocked s.command else s.command := by
  rw [acceptValidStatus_eq]
  set s₁ : Bridge :=
    { s with
      board := { s.board with statusSemanticFault := false, heartbeatTimeoutLatched := false } }
  obtain ⟨hcal, hcommand⟩ := command_updateBootIdentity s₁ board drawn
  obtain ⟨hcommand', hcal'⟩ := command_updateCalibration
    (storeStatus (updateBootIdentity s₁ board drawn).bridge board nowNs) board
  have hpcal : (afterBootIdentity s board nowNs drawn).bridge.calibration.requested = true →
      s.calibration.requested = true := fun h => congrArg Calibration.requested hcal ▸ hcal' h
  have hpcommand : (afterBootIdentity s board nowNs drawn).bridge.command
      = if (afterBootIdentity s board nowNs drawn).rotatedFor.isSome
        then resetArmBarrierLocked s.command else s.command := hcommand'.trans hcommand
  set p := afterBootIdentity s board nowNs drawn
  rcases updateSession_cases drawn board p with
    ⟨reason, hrot, ⟨hp, heq⟩ | ⟨hp, -, -, heq⟩ | ⟨hp, -, -, heq⟩⟩ |
    ⟨hrot, hp, ⟨-, -, heq⟩ | ⟨-, -, heq⟩⟩
  · rw [heq]
    exact ⟨hpcal, hpcommand⟩
  · rw [hp] at hpcommand
    rw [heq, hrot]
    exact ⟨hpcal, congrArg resetArmBarrierLocked hpcommand⟩
  · rw [hp] at hpcommand
    rw [heq, hrot]
    exact ⟨hpcal, congrArg resetArmBarrierLocked hpcommand⟩
  · rw [hp] at hpcommand
    rw [heq, hrot]
    exact ⟨hpcal, hpcommand⟩
  · rw [hp] at hpcommand
    rw [heq, hrot]
    exact ⟨hpcal, hpcommand⟩

/-- A status resets the barrier if it rotates the session, and changes nothing else here. -/
theorem command_acceptBoardStatus {board : BoardStatusFrame} {nowNs : ℤ} {drawn : UInt32}
    (draw : DrawOk s drawn) :
    ((acceptBoardStatusIo s board nowNs drawn).session.sessionId ≠ s.session.sessionId ∧
      (acceptBoardStatusIo s board nowNs drawn).command = resetArmBarrierLocked s.command) ∨
    ((acceptBoardStatusIo s board nowNs drawn).session.sessionId = s.session.sessionId ∧
      (acceptBoardStatusIo s board nowNs drawn).command = s.command ∧
      ((acceptBoardStatusIo s board nowNs drawn).calibration.requested = true →
        s.calibration.requested = true)) := by
  unfold acceptBoardStatusIo
  cases hsem : boardStatusSemanticReason board with
  | some reason =>
    dsimp only
    split
    · exact Or.inr ⟨rfl, rfl, id⟩
    · exact Or.inl ⟨draw.2, rfl⟩
  | none =>
    dsimp only
    obtain ⟨hcal, hcommand⟩ := command_acceptValidStatus s board nowNs drawn
    rcases acceptValidStatus_cases s board nowNs drawn with
      ⟨reason, ackFault, hrot, hs⟩ | ⟨hrot, -, -, hcases⟩
    · rw [hrot] at hcommand ⊢
      refine Or.inl ⟨?_, hcommand⟩
      dsimp only
      rw [hs]
      exact draw.2
    · rw [hrot] at hcommand ⊢
      have hid : (acceptValidStatus s board nowNs drawn).bridge.session.sessionId
          = s.session.sessionId := by
        rcases hcases with ⟨-, -, hs⟩ | ⟨-, -, hs⟩
        · rw [hs]
        · rw [hs, acceptAck_sessionId]
      dsimp only
      split
      · obtain ⟨hsession, -, hcommand', hcalibration⟩ :=
          sameCore_finishShutdown (s := (acceptValidStatus s board nowNs drawn).bridge)
        exact Or.inr ⟨hsession.trans hid, hcommand'.trans hcommand,
          fun h => hcal (hcalibration ▸ h)⟩
      · exact Or.inr ⟨hid, hcommand, hcal⟩

/-! ### The refinement -/

/-- `updateArmBarrier` touches the members of the barrier only. -/
theorem updateArmBarrier_eq (c : CommandState) (message : ThrusterCommand) :
    ∃ authorized generation saw disarmed, updateArmBarrier c message =
      { c with
        armAuthorized := authorized, authorizedGeneration := generation,
        sawDisarmedAfterSession := saw, disarmedGeneration := disarmed } := by
  unfold updateArmBarrier
  split_ifs <;> exact ⟨_, _, _, _, rfl⟩

/-- An accepted command moves the flags as it moves the interlock. -/
theorem barrier_updateArmBarrier (c : CommandState) (message : ThrusterCommand)
    (hexclusive : c.armAuthorized = true → c.sawDisarmedAfterSession = false) :
    ((updateArmBarrier c message).armAuthorized = true →
        (updateArmBarrier c message).sawDisarmedAfterSession = false) ∧
      barrierOf (updateArmBarrier c message)
        = Interlock.accept generationNewer (barrierOf c) (commandSignal message) := by
  unfold updateArmBarrier commandSignal
  cases harmed : message.armed with
  | false =>
    refine ⟨fun h => (Bool.false_ne_true h).elim, ?_⟩
    cases barrierOf c <;> rfl
  | true =>
    -- armed: a command of the held generation keeps it, and one of another closes the barrier
    cases hauth : c.armAuthorized with
    | true =>
      have hbarrier : barrierOf c = .authorized c.authorizedGeneration := by
        unfold barrierOf
        rw [hauth, if_pos rfl]
      rw [hbarrier]
      simp only [hexclusive hauth, Bool.not_true, Bool.false_eq_true, if_false, Bool.true_and,
        Bool.false_and, beq_iff_eq, if_true, Interlock.accept]
      split
      · rename_i hgeneration
        exact ⟨fun _ => hexclusive hauth, by rw [hbarrier, hgeneration]⟩
      · exact ⟨fun _ => rfl, rfl⟩
    | false =>
      cases hsaw : c.sawDisarmedAfterSession with
      -- a disarmed command has been seen, and a newer generation opens the barrier
      | true =>
        have hbarrier : barrierOf c = .sawDisarmed c.disarmedGeneration := by
          unfold barrierOf
          rw [hauth, hsaw, if_neg Bool.false_ne_true, if_pos rfl]
        rw [hbarrier]
        simp only [Bool.not_true, Bool.false_eq_true, if_false, Bool.true_and, Bool.false_and,
          if_true, Interlock.accept]
        split <;> exact ⟨fun _ => rfl, rfl⟩
      -- a closed barrier stays closed
      | false =>
        rw [show barrierOf c = .closed from barrierOf_eq_closed_iff.mpr ⟨hauth, hsaw⟩]
        simp only [Bool.not_true, Bool.false_eq_true, if_false, Bool.false_and, if_true,
          Interlock.accept]
        exact ⟨fun _ => trivial, rfl⟩

/-- A transition that accepts no command closes the barrier or leaves it alone. -/
theorem barrier_of_noCommand (hsignal : acceptedSignal cfg x = none)
    (hreset : resetsBarrier cfg x = true → barrierOf x.post.command = .closed)
    (hkeep : resetsBarrier cfg x = false → barrierOf x.post.command = barrierOf x.pre.command) :
    barrierOf x.post.command
      = Interlock.step generationNewer (resetsBarrier cfg) (acceptedSignal cfg)
          (barrierOf x.pre.command) x := by
  rw [Interlock.step_of_signal_none hsignal]
  cases hr : resetsBarrier cfg x with
  | true => exact hreset hr
  | false => exact hkeep hr

/-- The resets of a command handler that neither rotates the session nor rejects a command: a
timeout, and a publisher gate that does not open. -/
theorem resetsBarrier_of_gate {publisherCount : ℕ} (hrot : rotates x = false)
    (hreject : rejectsCommand cfg x = false)
    (hgate : x.post.command.commandPublisherGate = gateOpens x.pre.command publisherCount)
    (hid : x.post.command.authorityPublisherIdentified = gateOpens x.pre.command publisherCount)
    (hcal : x.post.calibration.requested = true → x.pre.calibration.requested = true) :
    resetsBarrier cfg x = (timesOut cfg x || !gateOpens x.pre.command publisherCount) := by
  have hcal' : (x.post.calibration.requested && !x.pre.calibration.requested) = false := by
    cases hpost : x.post.calibration.requested with
    | false => rfl
    | true => rw [hcal hpost]; rfl
  unfold resetsBarrier
  rw [hrot, hreject, hgate, hid, hcal', Bool.false_or, Bool.or_false, Bool.or_false]
  cases hopens : gateOpens x.pre.command publisherCount with
  | true =>
    unfold gateOpens at hopens
    rw [(Bool.and_eq_true_iff.mp hopens).2]
    cases timesOut cfg x <;> rfl
  | false => cases timesOut cfg x <;> rfl

theorem calibration_beforeCommand (cfg : BridgeConfig) (s : Bridge) (publisherCount : ℕ)
    (nowNs : ℤ) :
    (beforeCommand cfg s publisherCount nowNs).calibration = s.calibration := by
  unfold beforeCommand latchCommandTimeoutLocked
  dsimp only
  split <;> rfl

theorem calibration_onCommand (cfg : BridgeConfig) (s : Bridge) (publisherCount : ℕ) (nowNs : ℤ)
    (message : ThrusterCommand) :
    (onCommand cfg s publisherCount nowNs message).calibration = s.calibration := by
  unfold onCommand
  dsimp only
  split <;> exact calibration_beforeCommand cfg s publisherCount nowNs

/-- The command state `on_command` leaves behind. -/
theorem command_onCommand (cfg : BridgeConfig) (s : Bridge) (publisherCount : ℕ) (nowNs : ℤ)
    (message : ThrusterCommand) :
    (commandMessageValid cfg s publisherCount nowNs message = false ∧
      barrierOf (onCommand cfg s publisherCount nowNs message).command = .closed) ∨
    (commandMessageValid cfg s publisherCount nowNs message = true ∧
      (onCommand cfg s publisherCount nowNs message).command = updateArmBarrier
        (storeCommand (beforeCommand cfg s publisherCount nowNs).command nowNs message)
        message) := by
  unfold onCommand
  cases commandMessageValid cfg s publisherCount nowNs message with
  | false => exact Or.inl ⟨rfl, rfl⟩
  | true => exact Or.inr ⟨rfl, rfl⟩

theorem barrier_onCommand {publisherCount : ℕ} {nowNs : ℤ} {message : ThrusterCommand}
    (hs : BarrierOk s.command)
    (hx : x = ⟨s, .onCommand publisherCount nowNs message, o,
      onCommand cfg s publisherCount nowNs message⟩) :
    BarrierOk x.post.command ∧
      barrierOf x.post.command
        = Interlock.step generationNewer (resetsBarrier cfg) (acceptedSignal cfg)
            (barrierOf x.pre.command) x := by
  obtain ⟨hok, hgate, hid, hbarrier⟩ := barrier_beforeCommand cfg publisherCount nowNs hs
  rcases command_onCommand cfg s publisherCount nowNs message with
    ⟨hvalid, hpost⟩ | ⟨hvalid, hpost⟩
  -- an invalid command closes the barrier
  · subst hx
    refine ⟨barrierOk_of_closed hpost, barrier_of_noCommand ?_ (fun _ => hpost) fun h => ?_⟩
    · simp [acceptedSignal, acceptedCommand, hvalid]
    · simp [resetsBarrier, rejectsCommand, hvalid] at h
  · -- The gate is open, so a timeout is the only reset of this transition.
    have hopen : gateOpens s.command publisherCount = true := by
      unfold commandMessageValid at hvalid
      simp only [Bool.and_eq_true] at hvalid
      rw [← hgate, hvalid.1.1]
    obtain ⟨authorized, generation, saw, disarmed, heq⟩ := updateArmBarrier_eq
      (storeCommand (beforeCommand cfg s publisherCount nowNs).command nowNs message) message
    obtain ⟨hex, hstep⟩ := barrier_updateArmBarrier
      (storeCommand (beforeCommand cfg s publisherCount nowNs).command nowNs message) message
      hok.exclusive
    rw [← hpost] at heq hex hstep
    have hpostGate : (onCommand cfg s publisherCount nowNs message).command.commandPublisherGate
        = gateOpens s.command publisherCount := by
      rw [heq]
      exact hgate
    have hreset : resetsBarrier cfg x = commandExpired cfg s.command nowNs := by
      subst hx
      rw [resetsBarrier_of_gate (rotates_of_same (congrArg _ (sameLink_onCommand ..).session))
        (by simp [rejectsCommand, hvalid]) hpostGate (by rw [heq]; exact hid)
        (by rw [calibration_onCommand]; exact id), hopen, Bool.not_true, Bool.or_false]
      rfl
    have hsignal : acceptedSignal cfg x = some (commandSignal message) := by
      subst hx
      simp [acceptedSignal, acceptedCommand, hvalid]
    rw [Interlock.step_of_signal_some hsignal, hreset]
    subst hx
    refine ⟨⟨hex, fun h => ?_, fun h => ?_⟩, hstep.trans ?_⟩
    · rw [hpostGate, hopen] at h
      cases h
    · rw [heq] at h
      cases h
    · rw [hopen, Bool.not_true, Bool.or_false] at hbarrier
      rw [← hbarrier]
      rfl

theorem command_expireCalibration (s : Bridge) (nowNs : ℤ) :
    (expireCalibration s nowNs).command = s.command ∧
      ((expireCalibration s nowNs).calibration.requested = true →
        s.calibration.requested = true) := by
  unfold expireCalibration
  dsimp only
  split
  · split
    · exact ⟨rfl, fun h => (Bool.false_ne_true h).elim⟩
    · exact ⟨rfl, id⟩
  · exact ⟨rfl, id⟩

/-- The command state with which `write_command` builds its request. -/
theorem command_writeCommand (cfg : BridgeConfig) (s : Bridge) (publisherCount : ℕ) (nowNs : ℤ)
    {drawn : UInt32} (draw : DrawOk s drawn) :
    let before := beforeCommand cfg s publisherCount nowNs
    let after := writeCommand cfg s publisherCount nowNs drawn
    (after.session.sessionId ≠ s.session.sessionId ∧
        after.command = resetArmBarrierLocked before.command ∨
      after.session.sessionId = s.session.sessionId ∧ after.command = before.command) ∧
    (after.calibration.requested = true → s.calibration.requested = true) := by
  dsimp only
  set before := beforeCommand cfg s publisherCount nowNs with hbefore
  have hsession : before.session = s.session := (sameLink_beforeCommand ..).session
  have hcal : before.calibration = s.calibration :=
    calibration_beforeCommand cfg s publisherCount nowNs
  obtain ⟨hcommand, hexpire⟩ :=
    command_expireCalibration (latchHeartbeatTimeout cfg before nowNs drawn) nowNs
  have hid := congrArg Session.sessionId
    (sameLink_expireCalibration (latchHeartbeatTimeout cfg before nowNs drawn) nowNs).session
  have hcommand' : (writeCommand cfg s publisherCount nowNs drawn).command
      = (latchHeartbeatTimeout cfg before nowNs drawn).command := hcommand
  have hid' : (writeCommand cfg s publisherCount nowNs drawn).session.sessionId
      = (latchHeartbeatTimeout cfg before nowNs drawn).session.sessionId := hid
  have hexpire' : (writeCommand cfg s publisherCount nowNs drawn).calibration.requested = true →
      (latchHeartbeatTimeout cfg before nowNs drawn).calibration.requested = true := hexpire
  rcases latchHeartbeatTimeout_cases cfg before nowNs drawn with heq | heq
  · rw [heq] at hcommand' hid' hexpire'
    exact ⟨Or.inr ⟨by rw [hid', hsession], hcommand'⟩, fun h => hcal ▸ hexpire' h⟩
  · rw [heq] at hcommand' hid' hexpire'
    exact ⟨Or.inl ⟨by rw [hid']; exact draw.2, hcommand'⟩, fun h => hcal ▸ hexpire' h⟩

theorem barrier_writeCommand {publisherCount : ℕ} {nowNs : ℤ} {drawn : UInt32}
    (hs : BarrierOk s.command) (draw : DrawOk s drawn)
    (hx : x = ⟨s, .writeCommand publisherCount nowNs drawn, o,
      writeCommand cfg s publisherCount nowNs drawn⟩) :
    BarrierOk x.post.command ∧
      barrierOf x.post.command
        = Interlock.step generationNewer (resetsBarrier cfg) (acceptedSignal cfg)
            (barrierOf x.pre.command) x := by
  obtain ⟨hok, hgate, hid, hbarrier⟩ := barrier_beforeCommand cfg publisherCount nowNs hs
  obtain ⟨hcommand, hcal⟩ := command_writeCommand cfg s publisherCount nowNs draw
  subst hx
  rcases hcommand with ⟨hrot, hpost⟩ | ⟨hrot, hpost⟩
  · have hclosed : barrierOf (writeCommand cfg s publisherCount nowNs drawn).command = .closed := by
      rw [hpost]
      rfl
    refine ⟨barrierOk_of_closed hclosed, barrier_of_noCommand rfl (fun _ => hclosed) fun h => ?_⟩
    have : rotates ⟨s, .writeCommand publisherCount nowNs drawn, o,
        writeCommand cfg s publisherCount nowNs drawn⟩ = true := bne_iff_ne.mpr hrot
    simp [resetsBarrier, this] at h
  · have hreset : resetsBarrier cfg ⟨s, .writeCommand publisherCount nowNs drawn, o,
        writeCommand cfg s publisherCount nowNs drawn⟩
        = (commandExpired cfg s.command nowNs || !gateOpens s.command publisherCount) :=
      resetsBarrier_of_gate (rotates_of_same hrot) rfl (by rw [hpost]; exact hgate)
        (by rw [hpost]; exact hid) hcal
    have hpost' := (congrArg barrierOf hpost).trans hbarrier
    refine ⟨by rw [hpost]; exact hok, barrier_of_noCommand rfl (fun h => ?_) fun h => ?_⟩
    · rw [hreset] at h
      rwa [h, if_pos rfl] at hpost'
    · rw [hreset] at h
      rwa [h, if_neg Bool.false_ne_true] at hpost'

/-- A transition that leaves the command state alone keeps the barrier, which a closed gate has
already closed. -/
theorem barrier_of_kept (hs : BarrierOk x.pre.command) (clock : x.input.commandClock? = none)
    (session : x.post.session.sessionId = x.pre.session.sessionId)
    (command : x.post.command = x.pre.command)
    (calibration : x.post.calibration.requested = true → x.pre.calibration.requested = true) :
    BarrierOk x.post.command ∧
      barrierOf x.post.command
        = Interlock.step generationNewer (resetsBarrier cfg) (acceptedSignal cfg)
            (barrierOf x.pre.command) x := by
  obtain ⟨hsignal, hreject⟩ : acceptedSignal cfg x = none ∧ rejectsCommand cfg x = false := by
    unfold acceptedSignal acceptedCommand rejectsCommand
    revert clock
    cases x.input <;> first | exact fun _ => ⟨rfl, rfl⟩ | exact fun h => by cases h
  have hcal : (x.post.calibration.requested && !x.pre.calibration.requested) = false := by
    cases hpost : x.post.calibration.requested with
    | false => rfl
    | true => rw [calibration hpost]; rfl
  have hreset : resetsBarrier cfg x = !x.pre.command.commandPublisherGate := by
    unfold resetsBarrier timesOut
    rw [rotates_of_same session, clock, hreject, command, hcal]
    simp
  refine ⟨by rw [command]; exact hs, barrier_of_noCommand hsignal (fun h => ?_) fun _ => ?_⟩
  · rw [hreset] at h
    rw [command]
    exact hs.gate (by simpa using h)
  · rw [command]

theorem barrier_of_sameCore (hs : BarrierOk x.pre.command) (clock : x.input.commandClock? = none)
    (core : SameCore x.pre x.post) :
    BarrierOk x.post.command ∧
      barrierOf x.post.command
        = Interlock.step generationNewer (resetsBarrier cfg) (acceptedSignal cfg)
            (barrierOf x.pre.command) x :=
  barrier_of_kept hs clock core.session core.command fun h => core.calibration ▸ h

/-- The endpoint the graph shows is the authority. -/
def endpointValid (cfg : BridgeConfig) (graph : Option (List Endpoint)) (publisherCount : ℕ) :
    Bool :=
  publisherCount == 1 && (graph.getD []).length == 1 && discoveredAuthority cfg graph

theorem withIdentified {c : CommandState} {identified : Bool}
    (h : c.authorityPublisherIdentified = identified) :
    { c with authorityPublisherIdentified := identified } = c := by
  rw [← h]

/-- An endpoint refresh closes the barrier when the endpoint appears or is lost, and then updates
the publisher gate. -/
theorem command_refreshAuthorityEndpoint (cfg : BridgeConfig) (s : Bridge)
    (graph : Option (List Endpoint)) (publisherCount : ℕ) :
    (refreshAuthorityEndpoint cfg s graph publisherCount).calibration = s.calibration ∧
      ∃ c, (refreshAuthorityEndpoint cfg s graph publisherCount).command
          = updatePublisherGateLocked c publisherCount ∧
        c.authorityPublisherIdentified = endpointValid cfg graph publisherCount ∧
        (endpointValid cfg graph publisherCount = s.command.authorityPublisherIdentified →
          c = s.command) ∧
        (endpointValid cfg graph publisherCount ≠ s.command.authorityPublisherIdentified →
          barrierOf c = .closed) := by
  have hvalid :
      (publisherCount == 1 && (graph.getD []).length == 1 && discoveredAuthority cfg graph)
      = endpointValid cfg graph publisherCount := rfl
  unfold refreshAuthorityEndpoint
  dsimp only
  rw [hvalid]
  generalize endpointValid cfg graph publisherCount = valid
  cases hid : s.command.authorityPublisherIdentified with
  | true =>
    cases valid with
    | true =>
      refine ⟨rfl, _, rfl, rfl, fun _ => ?_, fun h => absurd rfl h⟩
      exact withIdentified hid
    | false =>
      refine ⟨rfl, _, rfl, rfl, fun h => absurd h Bool.false_ne_true, fun _ => ?_⟩
      rfl
  | false =>
    cases valid with
    | true =>
      refine ⟨rfl, _, rfl, rfl, fun h => absurd h.symm Bool.false_ne_true, fun _ => ?_⟩
      rfl
    | false =>
      refine ⟨rfl, _, rfl, rfl, fun _ => ?_, fun h => absurd rfl h⟩
      exact withIdentified hid

/-- `publish_status` resets the barrier when the endpoint appears or is lost. -/
theorem barrier_publishStatus {graph : Option (List Endpoint)} {publisherCount : ℕ}
    (hs : BarrierOk s.command)
    (hx : x = ⟨s, .publishStatus graph publisherCount, o,
      publishStatus cfg s graph publisherCount⟩) :
    BarrierOk x.post.command ∧
      barrierOf x.post.command
        = Interlock.step generationNewer (resetsBarrier cfg) (acceptedSignal cfg)
            (barrierOf x.pre.command) x := by
  cases hrefresh : s.command.authorityRefreshRequested with
  | false =>
    -- no refresh is due
    have hkept : publishStatus cfg s graph publisherCount = s := by
      unfold publishStatus
      rw [hrefresh, if_neg Bool.false_ne_true]
    rw [hkept] at hx
    subst hx
    exact barrier_of_sameCore hs rfl ⟨rfl, rfl, rfl, rfl⟩
  | true =>
    set s₁ : Bridge := { s with command := { s.command with authorityRefreshRequested := false } }
    have hs₁ : BarrierOk s₁.command := ⟨hs.exclusive, hs.gate, hs.timeout⟩
    have hpost : publishStatus cfg s graph publisherCount
        = refreshAuthorityEndpoint cfg s₁ graph publisherCount := by
      unfold publishStatus
      rw [hrefresh, if_pos rfl]
    obtain ⟨hcal, c, hcommand, hid, hsame, hchanged⟩ :=
      command_refreshAuthorityEndpoint cfg s₁ graph publisherCount
    -- a change of the endpoint closes the barrier
    have hc : BarrierOk c := by
      by_cases hvalid : endpointValid cfg graph publisherCount
          = s₁.command.authorityPublisherIdentified
      · rw [hsame hvalid]
        exact hs₁
      · exact barrierOk_of_closed (hchanged hvalid)
    have hopens : gateOpens c publisherCount = endpointValid cfg graph publisherCount := by
      unfold gateOpens
      rw [hid]
      unfold endpointValid
      cases publisherCount == 1 <;> rfl
    obtain ⟨hok, hbarrier⟩ := barrier_updatePublisherGate publisherCount hc
    have heq := updatePublisherGate_eq c publisherCount
    rw [hopens] at hbarrier heq
    rw [← hcommand] at hok hbarrier heq
    -- so the transition resets exactly when the gate is closed or the endpoint has changed
    have hreset : resetsBarrier cfg ⟨s, .publishStatus graph publisherCount, o,
        refreshAuthorityEndpoint cfg s₁ graph publisherCount⟩
        = (!endpointValid cfg graph publisherCount ||
          endpointValid cfg graph publisherCount != s.command.authorityPublisherIdentified) := by
      have hrot : rotates ⟨s, .publishStatus graph publisherCount, o,
          refreshAuthorityEndpoint cfg s₁ graph publisherCount⟩ = false :=
        rotates_of_same (congrArg _ (sameLink_refreshAuthorityEndpoint cfg s₁ _ _).session)
      unfold resetsBarrier
      rw [hrot, heq, hcal]
      cases s₁.calibration.requested <;> simp [timesOut, BridgeInput.commandClock?, rejectsCommand]
    rw [hpost] at hx
    subst hx
    refine ⟨hok, barrier_of_noCommand rfl (fun h => ?_) fun h => ?_⟩
    · rw [hreset] at h
      rw [hbarrier]
      cases hvalid : endpointValid cfg graph publisherCount with
      | false => rfl
      | true =>
        rw [hvalid, Bool.not_true, Bool.false_or, bne_iff_ne] at h
        exact hchanged (by rw [hvalid]; exact h)
    · rw [hreset, Bool.or_eq_false_iff, Bool.not_eq_false', bne_eq_false_iff_eq] at h
      rw [hbarrier, h.1, if_pos rfl, hsame h.2]
      rfl

theorem barrier_calibrateImuGyro {nowNs imuArrivalNs : ℤ} (hs : BarrierOk s.command)
    (hx : x = ⟨s, .calibrateImuGyro nowNs imuArrivalNs, o,
      calibrateImuGyro cfg s nowNs imuArrivalNs⟩) :
    BarrierOk x.post.command ∧
      barrierOf x.post.command
        = Interlock.step generationNewer (resetsBarrier cfg) (acceptedSignal cfg)
            (barrierOf x.pre.command) x := by
  cases hrefusal : calibrationRefusal cfg s nowNs imuArrivalNs with
  | some reason =>
    have hkept : calibrateImuGyro cfg s nowNs imuArrivalNs = s := by
      unfold calibrateImuGyro
      rw [hrefusal]
    rw [hkept] at hx
    subst hx
    exact barrier_of_sameCore hs rfl ⟨rfl, rfl, rfl, rfl⟩
  | none =>
    have hold : s.calibration.requested = false := by
      unfold calibrationRefusal at hrefusal
      dsimp only at hrefusal
      split_ifs at hrefusal with _ _ _ hactive
      simp only [Bool.or_eq_true, not_or] at hactive
      simpa using hactive.1
    have hpost : calibrateImuGyro cfg s nowNs imuArrivalNs =
        { s with
          calibration :=
            { requested := true, seenActive := false, localFailed := false, requestNs := nowNs }
          command := resetArmBarrierLocked s.command
          transitionReason := "external IMU gyro calibration requested" } := by
      unfold calibrateImuGyro
      rw [hrefusal]
    rw [hpost] at hx
    subst hx
    refine ⟨barrierOk_of_closed rfl, barrier_of_noCommand rfl (fun _ => rfl) fun h => ?_⟩
    simp [resetsBarrier, hold] at h

theorem barrier_of_rotates (hrot : rotates x = true) (clock : x.input.commandClock? = none)
    (command : x.post.command = resetArmBarrierLocked x.pre.command) :
    BarrierOk x.post.command ∧
      barrierOf x.post.command
        = Interlock.step generationNewer (resetsBarrier cfg) (acceptedSignal cfg)
            (barrierOf x.pre.command) x := by
  have hclosed : barrierOf x.post.command = .closed := by
    rw [command]
    rfl
  have hsignal : acceptedSignal cfg x = none := by
    unfold acceptedSignal acceptedCommand
    revert clock
    cases x.input <;> first | exact fun _ => rfl | exact fun h => by cases h
  refine ⟨barrierOk_of_closed hclosed, barrier_of_noCommand hsignal (fun _ => hclosed) fun h => ?_⟩
  simp [resetsBarrier, hrot] at h

/-- **The flags move as the interlock does.** -/
theorem barrier_step (h : BridgeRule cfg x.pre x.input x.post x.output)
    (hs : BarrierOk x.pre.command) :
    BarrierOk x.post.command ∧
      barrierOf x.post.command
        = Interlock.step generationNewer (resetsBarrier cfg) (acceptedSignal cfg)
            (barrierOf x.pre.command) x := by
  obtain ⟨pre, input, output, post⟩ := x
  have hcore := core_step h
  dsimp only at hs hcore
  cases hcore with
  | onCommand => exact barrier_onCommand hs rfl
  | writeCommand draw => exact barrier_writeCommand hs draw rfl
  | publishStatus => exact barrier_publishStatus hs rfl
  | calibrateImuGyro => exact barrier_calibrateImuGyro hs rfl
  | boardStatus draw =>
    rcases command_acceptBoardStatus draw with ⟨hrot, hcommand⟩ | ⟨hid, hcommand, hcal⟩
    · exact barrier_of_rotates (bne_iff_ne.mpr hrot) rfl hcommand
    · exact barrier_of_kept hs rfl hid hcommand hcal
  | linkRotated clock session board command =>
    exact barrier_of_rotates (bne_iff_ne.mpr session) clock command
  | kept clock core => exact barrier_of_sameCore hs clock core

/-- **The barrier along a run** is the interlock that has processed its transitions. -/
theorem barrier_of_run (h : (bridgeMachine cfg initialSession).Run tr s) :
    BarrierOk s.command ∧
      barrierOf s.command
        = Interlock.run generationNewer (resetsBarrier cfg) (acceptedSignal cfg) tr := by
  refine h.invariant (I := fun tr s => BarrierOk s.command ∧ barrierOf s.command
    = Interlock.run generationNewer (resetsBarrier cfg) (acceptedSignal cfg) tr) ?_ ?_
  · exact ⟨barrierOk_of_closed rfl, rfl⟩
  · intro tr s i s' o _ ⟨hok, hbarrier⟩ hstep
    obtain ⟨hok', hbarrier'⟩ := barrier_step (x := ⟨s, i, o, s'⟩) (rule_of_step hstep) hok
    exact ⟨hok', hbarrier'.trans (by rw [hbarrier, Interlock.run_cons])⟩

end RobotCore
