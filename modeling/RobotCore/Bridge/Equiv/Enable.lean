import RobotCore.Bridge.Equiv.Barrier
import RobotCore.Bridge.Equiv.Handshake

/-!
# When a frame is enabled

The command the node holds is the last one it accepted (`heldTrace_of_run`).  Together with the
barrier this says what an enabled frame rests on, in `armed_since_reset`: since the last barrier
reset a disarmed command and then an armed one of a newer generation were accepted, and the held
command is armed, enabled, fresh and of the authorized generation.
-/

namespace RobotCore

open Machine

variable {cfg : BridgeConfig} {initialSession : UInt32} {s : Bridge} {w : WriteRequest}
  {x : BridgeTransition} {tr : BridgeHistory} {c c' c'' : CommandState}

/-! ### The held command -/

/-- The command that was accepted last. -/
def heldCommand (cfg : BridgeConfig) (tr : BridgeHistory) : Option ThrusterCommand :=
  tr.findSome? (acceptedCommand cfg)

/-- A change of the command state that stores no command. -/
structure SameHeld (c c' : CommandState) : Prop where
  armed : c'.commandArmed = c.commandArmed
  generation : c'.commandArmGeneration = c.commandArmGeneration
  source : c'.commandSource = c.commandSource
  offsets : c'.commandOffsets = c.commandOffsets
  enabled : c'.commandEnabled = true → c.commandEnabled = true
  valid : c'.commandValid = true → c.commandValid = true

theorem SameHeld.refl (c : CommandState) : SameHeld c c := ⟨rfl, rfl, rfl, rfl, id, id⟩

theorem SameHeld.trans (h : SameHeld c c') (h' : SameHeld c' c'') : SameHeld c c'' :=
  ⟨h'.armed.trans h.armed, h'.generation.trans h.generation, h'.source.trans h.source,
    h'.offsets.trans h.offsets, h.enabled ∘ h'.enabled, h.valid ∘ h'.valid⟩

theorem sameHeld_reset (c : CommandState) : SameHeld c (resetArmBarrierLocked c) :=
  ⟨rfl, rfl, rfl, rfl, id, id⟩

theorem sameHeld_updatePublisherGate (c : CommandState) (publisherCount : ℕ) :
    SameHeld c (updatePublisherGateLocked c publisherCount) := by
  rw [updatePublisherGate_eq]
  exact ⟨rfl, rfl, rfl, rfl, fun h => (Bool.and_eq_true_iff.mp h).1,
    fun h => (Bool.and_eq_true_iff.mp h).1⟩

theorem sameHeld_beforeCommand (cfg : BridgeConfig) (s : Bridge) (publisherCount : ℕ) (nowNs : ℤ) :
    SameHeld s.command (beforeCommand cfg s publisherCount nowNs).command := by
  have hlatch : SameHeld s.command (latchCommandTimeoutLocked cfg s nowNs).command := by
    unfold latchCommandTimeoutLocked
    split
    · exact .refl _
    · exact ⟨rfl, rfl, rfl, rfl, fun h => (Bool.false_ne_true h).elim,
        fun h => (Bool.false_ne_true h).elim⟩
  exact hlatch.trans (sameHeld_updatePublisherGate _ _)

theorem sameHeld_publishStatus (cfg : BridgeConfig) (s : Bridge) (graph : Option (List Endpoint))
    (publisherCount : ℕ) :
    SameHeld s.command (publishStatus cfg s graph publisherCount).command := by
  unfold publishStatus
  split
  · unfold refreshAuthorityEndpoint
    dsimp only
    refine SameHeld.trans ?_ (sameHeld_updatePublisherGate _ _)
    split
    · exact ⟨rfl, rfl, rfl, rfl, fun h => (Bool.false_ne_true h).elim,
        fun h => (Bool.false_ne_true h).elim⟩
    · exact ⟨rfl, rfl, rfl, rfl, id, id⟩
  · exact .refl _

/-- A transition that accepts no command keeps the held one. -/
theorem held_of_noCommand (h : BridgeRule cfg x.pre x.input x.post x.output)
    (hx : acceptedCommand cfg x = none) : SameHeld x.pre.command x.post.command := by
  obtain ⟨pre, input, output, post⟩ := x
  have hcore := core_step h
  dsimp only at hcore
  cases hcore with
  | @onCommand publisherCount nowNs message =>
    rcases command_onCommand cfg pre publisherCount nowNs message with
      ⟨hinvalid, -⟩ | ⟨hvalid, -⟩
    -- an invalid command closes the gate, and what is held stays
    · refine (sameHeld_beforeCommand cfg pre publisherCount nowNs).trans ?_
      dsimp only
      unfold onCommand
      rw [hinvalid]
      dsimp only
      rw [Bool.not_false, if_pos rfl]
      split <;> exact ⟨rfl, rfl, rfl, rfl, fun h => (Bool.false_ne_true h).elim,
        fun h => (Bool.false_ne_true h).elim⟩
    · simp [acceptedCommand, hvalid] at hx
  | @writeCommand publisherCount nowNs drawn draw =>
    have hbefore := sameHeld_beforeCommand cfg pre publisherCount nowNs
    -- a heartbeat that has timed out resets the barrier
    rcases (command_writeCommand cfg pre publisherCount nowNs draw).1 with ⟨-, heq⟩ | ⟨-, heq⟩
    · dsimp only
      rw [heq]
      exact hbefore.trans (sameHeld_reset _)
    · dsimp only
      rw [heq]
      exact hbefore
  | publishStatus => exact sameHeld_publishStatus ..
  | calibrateImuGyro =>
    dsimp only
    unfold calibrateImuGyro
    split
    · exact .refl _
    · exact sameHeld_reset _
  | boardStatus draw =>
    -- so does a status that rotates the session
    rcases command_acceptBoardStatus draw with ⟨-, heq⟩ | ⟨-, heq, -⟩
    · dsimp only
      rw [heq]
      exact sameHeld_reset _
    · dsimp only
      rw [heq]
      exact .refl _
  | linkRotated _ _ _ command =>
    dsimp only
    rw [command]
    exact sameHeld_reset _
  | kept _ core =>
    dsimp only
    rw [core.command]
    exact .refl _

/-- What the command state says of the command it holds. -/
structure Holds (c : CommandState) (message : ThrusterCommand) : Prop where
  armed : c.commandArmed = message.armed
  generation : c.commandArmGeneration = message.armGeneration
  source : c.commandSource = message.source
  offsets : c.commandOffsets = message.action.map actionOffset
  enabled : c.commandEnabled = true → message.enable = true

theorem Holds.sameHeld {message : ThrusterCommand} (h : Holds c message) (h' : SameHeld c c') :
    Holds c' message :=
  ⟨h'.armed.trans h.armed, h'.generation.trans h.generation, h'.source.trans h.source,
    h'.offsets.trans h.offsets, h.enabled ∘ h'.enabled⟩

/-- An accepted command is held afterwards. -/
theorem held_of_command {message : ThrusterCommand}
    (h : BridgeRule cfg x.pre x.input x.post x.output)
    (hx : acceptedCommand cfg x = some message) : Holds x.post.command message := by
  obtain ⟨pre, input, output, post⟩ := x
  have hcore := core_step h
  dsimp only at hcore
  cases hcore with
  | @onCommand publisherCount nowNs message' =>
    rcases command_onCommand cfg pre publisherCount nowNs message' with
      ⟨hinvalid, -⟩ | ⟨hvalid, hpost⟩
    · simp [acceptedCommand, hinvalid] at hx
    · simp only [acceptedCommand, hvalid, if_true, Option.some.injEq] at hx
      subst hx
      obtain ⟨_, _, _, _, heq⟩ := updateArmBarrier_eq
        (storeCommand (beforeCommand cfg pre publisherCount nowNs).command nowNs message') message'
      dsimp only
      rw [hpost, heq]
      exact ⟨rfl, rfl, rfl, rfl, id⟩
  | writeCommand | publishStatus | calibrateImuGyro | boardStatus => cases hx
  | linkRotated clock | kept clock =>
    unfold acceptedCommand at hx
    revert clock hx
    cases input <;> first | exact fun h => by cases h | exact fun _ h => by cases h

/-- The command state holds the command that was accepted last. -/
structure HeldTrace (cfg : BridgeConfig) (tr : BridgeHistory) (c : CommandState) : Prop where
  holds : ∀ message ∈ heldCommand cfg tr, Holds c message
  valid : c.commandValid = true → (heldCommand cfg tr).isSome = true

theorem heldTrace_step (h : BridgeRule cfg x.pre x.input x.post x.output)
    (hi : HeldTrace cfg tr x.pre.command) : HeldTrace cfg (x :: tr) x.post.command := by
  cases hx : acceptedCommand cfg x with
  | none =>
    have hheld : heldCommand cfg (x :: tr) = heldCommand cfg tr := by
      unfold heldCommand
      rw [List.findSome?_cons_of_isNone (by rw [hx]; rfl)]
    have hsame := held_of_noCommand h hx
    exact ⟨fun message hm => (hi.holds message (hheld ▸ hm)).sameHeld hsame,
      fun hvalid => hheld ▸ hi.valid (hsame.valid hvalid)⟩
  | some message =>
    have hheld : heldCommand cfg (x :: tr) = some message := by
      unfold heldCommand
      rw [List.findSome?_cons_of_isSome (by rw [hx]; rfl), hx]
    refine ⟨fun message' hm => ?_, fun _ => by rw [hheld]; rfl⟩
    rw [hheld] at hm
    obtain rfl := Option.some.inj hm
    exact held_of_command h hx

theorem heldTrace_of_run (h : (bridgeMachine cfg initialSession).Run tr s) :
    HeldTrace cfg tr s.command :=
  h.invariant (I := fun tr s => HeldTrace cfg tr s.command)
    ⟨fun _ hm => (nomatch hm), fun hvalid => absurd hvalid Bool.false_ne_true⟩
    fun _ s i s' o _ hi hstep => heldTrace_step (x := ⟨s, i, o, s'⟩) (rule_of_step hstep) hi

/-! ### The command a request is built from -/

/-- The request `w` was built from the command `message`: the command was held, and enabling was
allowed, when `write_command` built it. -/
def BuiltFrom (cfg : BridgeConfig) (tr : BridgeHistory) (w : WriteRequest)
    (message : ThrusterCommand) : Prop :=
  ∃ after b before publisherCount nowNs drawn, tr = after ++ b :: before ∧
    b.input = .writeCommand publisherCount nowNs drawn ∧ EnableAllowed cfg b.post nowNs ∧
    heldCommand cfg (b :: before) = some message ∧ w.offsets = message.action.map actionOffset

/-- Every enabled request that waits was built from a command. -/
theorem builtFrom_of_waiting (h : (bridgeMachine cfg initialSession).Run tr s) :
    ∀ w ∈ s.waiting, w.enable = true → ∃ message, BuiltFrom cfg tr w message := by
  refine h.invariant (I := fun tr s => ∀ w ∈ s.waiting, w.enable = true →
    ∃ message, BuiltFrom cfg tr w message) ?_ ?_
  · simp [bridgeMachine, Bridge.initial, Bridge.waiting, IoTask.request?]
  · intro tr s i s' o hrun hi hstep w hw hen
    have hrule := rule_of_step hstep
    rcases waiting_step hrule hw with hold | hbuilt
    · obtain ⟨message, after, b, before, n, nowNs, drawn, rfl, hb⟩ := hi w hold hen
      exact ⟨message, ⟨s, i, o, s'⟩ :: after, b, before, n, nowNs, drawn, rfl, hb⟩
    · obtain ⟨hoffsets, n, nowNs, drawn, hinput, hallowed⟩ := hbuilt.enabled hen
      have hallowed := enableAllowed_of_host hallowed
      have hheld := heldTrace_of_run (.step hrun hstep)
      obtain ⟨message, hmessage⟩ := Option.isSome_iff_exists.mp (hheld.valid hallowed.valid)
      exact ⟨message, [], ⟨s, i, o, s'⟩, tr, n, nowNs, drawn, rfl, hinput, hallowed, hmessage,
        hoffsets.trans (hheld.holds message hmessage).offsets⟩

/-! ### The barrier and the held command -/

theorem disarmed_of_signal {generation : UInt64}
    (h : acceptedSignal cfg x = some (.disarmed generation)) :
    ∃ message, acceptedCommand cfg x = some message ∧ message.armed = false ∧
      message.armGeneration = generation := by
  obtain ⟨message, hmessage, hsignal⟩ := Option.map_eq_some_iff.mp h
  unfold commandSignal at hsignal
  cases harmed : message.armed with
  | true => simp [harmed] at hsignal
  | false =>
    rw [harmed, if_neg Bool.false_ne_true] at hsignal
    exact ⟨message, hmessage, harmed, Interlock.Signal.disarmed.inj hsignal⟩

theorem armed_of_signal {generation : UInt64}
    (h : acceptedSignal cfg x = some (.armed generation)) :
    ∃ message, acceptedCommand cfg x = some message ∧ message.armed = true ∧
      message.armGeneration = generation := by
  obtain ⟨message, hmessage, hsignal⟩ := Option.map_eq_some_iff.mp h
  unfold commandSignal at hsignal
  cases harmed : message.armed with
  | true =>
    rw [harmed, if_pos rfl] at hsignal
    exact ⟨message, hmessage, harmed, Interlock.Signal.armed.inj hsignal⟩
  | false => simp [harmed] at hsignal

/-! ### Main result -/

/-- A frame is dispatched enabled only by `host_enable_allowed_locked`. -/
theorem enableAllowed_of_dispatch (h : (bridgeMachine cfg initialSession).Run (x :: tr) s)
    (hw : x.output = some w) (hen : w.enable = true) :
    ∃ nowNs drawn, x.input = .continueIo nowNs drawn ∧ EnableAllowed cfg x.pre nowNs := by
  obtain ⟨nowNs, drawn, request, hinput, -, -, -, rfl, -⟩ :=
    dispatch_of_output (hw ▸ rule_of_step h.head_step)
  exact ⟨nowNs, drawn, hinput,
    enableAllowed_of_host (sentRequest_enable cfg x.pre request nowNs hen).2.1⟩

/-- The arm barrier is open when a frame is dispatched enabled. -/
theorem barrier_of_dispatch (h : (bridgeMachine cfg initialSession).Run (x :: tr) s)
    (hw : x.output = some w) (hen : w.enable = true) :
    Interlock.run generationNewer (resetsBarrier cfg) (acceptedSignal cfg) tr
      = .authorized x.pre.command.authorizedGeneration := by
  obtain ⟨nowNs, drawn, -, hallowed⟩ := enableAllowed_of_dispatch h hw hen
  rw [← (barrier_of_run h.tail).2]
  unfold barrierOf
  rw [hallowed.authorized, if_pos rfl]

/-- **The arm barrier.**  When a frame is dispatched enabled, a valid disarmed command and later a
valid armed command of a strictly newer generation were accepted since the last barrier reset, and
the held command is armed, enabled, fresh and of the authorized generation. -/
theorem armed_since_reset (h : (bridgeMachine cfg initialSession).Run (x :: tr) s)
    (hw : x.output = some w) (hen : w.enable = true) :
    (∃ later y mid z before armedCommand disarmedCommand,
      tr = later ++ y :: mid ++ z :: before ∧
      (∀ t ∈ later ++ y :: mid, resetsBarrier cfg t = false) ∧
      acceptedCommand cfg z = some disarmedCommand ∧ disarmedCommand.armed = false ∧
      acceptedCommand cfg y = some armedCommand ∧ armedCommand.armed = true ∧
      armedCommand.armGeneration = x.pre.command.authorizedGeneration ∧
      SerialNumber.newer 64 armedCommand.armGeneration.toNat
        disarmedCommand.armGeneration.toNat) ∧
    (∃ held, heldCommand cfg tr = some held ∧ held.armed = true ∧ held.enable = true ∧
      held.armGeneration = x.pre.command.authorizedGeneration) ∧
    (∃ nowNs drawn, x.input = .continueIo nowNs drawn ∧ EnableAllowed cfg x.pre nowNs) := by
  obtain ⟨nowNs, drawn, hinput, hallowed⟩ := enableAllowed_of_dispatch h hw hen
  have hheld := heldTrace_of_run h.tail
  refine ⟨?_, ?_, nowNs, drawn, hinput, hallowed⟩
  · obtain ⟨later, y, mid, z, before, d, htr, hz, hy, hnewer, hreset, -, -⟩ :=
      Interlock.run_eq_authorized (barrier_of_dispatch h hw hen)
    obtain ⟨disarmedCommand, hzc, hzarmed, rfl⟩ := disarmed_of_signal hz
    obtain ⟨armedCommand, hyc, hyarmed, hgen⟩ := armed_of_signal hy
    exact ⟨later, y, mid, z, before, armedCommand, disarmedCommand, htr, hreset, hzc, hzarmed,
      hyc, hyarmed, hgen, (generationNewer_iff _ _).mp (hgen ▸ hnewer)⟩
  · obtain ⟨held, hsome⟩ := Option.isSome_iff_exists.mp (hheld.valid hallowed.valid)
    have hholds := hheld.holds held hsome
    exact ⟨held, hsome, hholds.armed ▸ hallowed.armed, hholds.enabled hallowed.enabled,
      hholds.generation.symm.trans hallowed.generation⟩

theorem armed_since_reset_enabledInputs :
    ∃ x tr s, (bridgeMachine {} 1).Run (x :: tr) s ∧ dispatchesEnabled x = true ∧
      ∃ held, heldCommand {} tr = some held ∧ held.armed = true ∧
        held.armGeneration = x.pre.command.authorizedGeneration := by
  obtain ⟨x, tr, s, hrun, hx⟩ :=
    run_of_execCheck (bridgeMachine {} 1) enabledInputs (fun x _ => dispatchesEnabled x)
      (by decide +kernel)
  obtain ⟨w, hw, hen⟩ := dispatchesEnabled_iff.mp hx
  obtain ⟨-, ⟨held, hheld, harmed, -, hgen⟩, -⟩ := armed_since_reset hrun hw hen
  exact ⟨x, tr, s, hrun, hx, held, hheld, harmed, hgen⟩

end RobotCore
