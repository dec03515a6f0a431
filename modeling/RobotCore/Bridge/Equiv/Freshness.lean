import RobotCore.Bridge.Equiv.Enable

/-!
# Freshness at dispatch

A frame is checked once more when it is dispatched: enabling must still be allowed, but its offsets
and its calibration flag are those it was built with.  So a request that waits across a disarmed
command and a new authorization is sent under an authorization it was not built for
(`authorizesStale`), and one that waits until the calibration is over still starts a calibration
(`calibratesStale`).

`fresh_at_dispatch`: in every run without these two schedules an enabled frame carries the offsets
of a command accepted since the last disarmed command or barrier reset, and a calibrating frame is
dispatched while a calibration is requested.
-/

namespace RobotCore

open Machine

variable {cfg : BridgeConfig} {initialSession : UInt32} {s : Bridge} {w : WriteRequest}
  {x : BridgeTransition} {tr : BridgeHistory} {message : ThrusterCommand}

/-! ### Commands since the last closing -/

/-- The transition closes the barrier: it resets it, or accepts a disarmed command. -/
def closesBarrier (cfg : BridgeConfig) (x : BridgeTransition) : Bool :=
  resetsBarrier cfg x || (acceptedCommand cfg x).any fun message => !message.armed

/-- The commands accepted since the barrier was closed last, newest first. -/
def currentCommands (cfg : BridgeConfig) (tr : BridgeHistory) : List ThrusterCommand :=
  (sinceLast (closesBarrier cfg) tr).filterMap (acceptedCommand cfg)

theorem currentCommands_cons (hx : closesBarrier cfg x = false) :
    currentCommands cfg (x :: tr) = (acceptedCommand cfg x).toList ++ currentCommands cfg tr := by
  unfold currentCommands
  rw [sinceLast_cons_of_neg hx, List.filterMap_cons]
  cases acceptedCommand cfg x <;> rfl

/-- A transition that leaves the interlock open does not close the barrier. -/
theorem closesBarrier_of_signal {g : UInt64} (hreset : resetsBarrier cfg x = false)
    (hsignal : acceptedSignal cfg x = none ∨ acceptedSignal cfg x = some (.armed g)) :
    closesBarrier cfg x = false := by
  unfold closesBarrier
  rw [hreset, Bool.false_or]
  rcases hsignal with hnone | hsome
  · rw [Option.map_eq_none_iff.mp hnone]
    rfl
  · obtain ⟨message, hmessage, harmed, -⟩ := armed_of_signal hsome
    rw [hmessage, Option.any_some, harmed]
    rfl

/-- While the barrier is open, the held command is one of the current ones. -/
theorem mem_currentCommands_of_held {g : UInt64}
    (hopen : Interlock.run generationNewer (resetsBarrier cfg) (acceptedSignal cfg) tr
      = .authorized g) (hheld : heldCommand cfg tr = some message) :
    message ∈ currentCommands cfg tr := by
  induction tr with
  | nil => cases hopen
  | cons x tr ih =>
    rw [Interlock.run_cons] at hopen
    obtain ⟨hreset, hcases⟩ := Interlock.step_eq_authorized hopen
    have hcloses : closesBarrier cfg x = false :=
      closesBarrier_of_signal hreset (hcases.imp And.left And.left)
    rw [currentCommands_cons hcloses]
    unfold heldCommand at hheld
    rcases hcases with ⟨hnone, hb⟩ | ⟨hsome, -⟩
    · have hno : acceptedCommand cfg x = none := Option.map_eq_none_iff.mp hnone
      rw [List.findSome?_cons_of_isNone (by rw [hno]; rfl)] at hheld
      exact List.mem_append_right _ (ih hb hheld)
    · obtain ⟨message', hmessage, -, -⟩ := armed_of_signal hsome
      rw [List.findSome?_cons_of_isSome (by rw [hmessage]; rfl), hmessage] at hheld
      obtain rfl := Option.some.inj hheld
      rw [hmessage]
      exact List.mem_append_left _ List.mem_cons_self

theorem rotates_of_not_resets (h : resetsBarrier cfg x = false) : rotates x = false := by
  unfold resetsBarrier at h
  simp only [Bool.or_eq_false_iff] at h
  exact h.1.1.1.1.1

/-! ### The schedules that leave a request behind -/

/-- An armed command authorizes a new generation while an enabled request of the session waits. -/
def authorizesStale (x : BridgeTransition) : Bool :=
  !x.pre.command.armAuthorized && x.post.command.armAuthorized &&
    x.pre.waiting.any fun w => w.enable && w.sessionId == x.pre.session.sessionId

/-- The calibration ends, or a rotation draws a session id after its end, while a calibrating
request of that session waits. -/
def calibratesStale (x : BridgeTransition) : Bool :=
  (x.pre.calibration.requested || rotates x) && !x.post.calibration.requested &&
    x.pre.waiting.any fun w => w.calibrateImuGyro && w.sessionId == x.post.session.sessionId

/-- What waits for the running session is fresh: its offsets are those of a current command while
the barrier is open, and it calibrates only while a calibration is requested. -/
structure FreshTrace (cfg : BridgeConfig) (tr : BridgeHistory) (s : Bridge) : Prop where
  enabled : s.command.armAuthorized = true →
    ∀ w ∈ s.waiting, w.enable = true → w.sessionId = s.session.sessionId →
      ∃ message ∈ currentCommands cfg tr, w.offsets = message.action.map actionOffset
  calibrating : ∀ w ∈ s.waiting, w.calibrateImuGyro = true → w.sessionId = s.session.sessionId →
    s.calibration.requested = true

theorem freshTrace_step (hrun : (bridgeMachine cfg initialSession).Run (x :: tr) s)
    (hi : FreshTrace cfg tr x.pre) (hauth : authorizesStale x = false)
    (hcal : calibratesStale x = false) : FreshTrace cfg (x :: tr) x.post := by
  have hrule := rule_of_step hrun.head_step
  obtain rfl := hrun.head_post
  refine ⟨fun hopen w hw hen hid => ?_, fun w hw hcalibrate hid => ?_⟩
  · have hbarrier : Interlock.run generationNewer (resetsBarrier cfg) (acceptedSignal cfg) (x :: tr)
        = .authorized x.post.command.authorizedGeneration := by
      rw [← (barrier_of_run hrun).2]
      unfold barrierOf
      rw [hopen, if_pos rfl]
    have hstep := hbarrier
    rw [Interlock.run_cons] at hstep
    obtain ⟨hreset, hcases⟩ := Interlock.step_eq_authorized hstep
    rcases waiting_step hrule hw with hold | hbuilt
    · have hrot : rotates x = false := rotates_of_not_resets hreset
      have hid' : w.sessionId = x.pre.session.sessionId :=
        hid.trans (bne_eq_false_iff_eq.mp hrot)
      cases hpre : x.pre.command.armAuthorized with
      | true =>
        obtain ⟨message, hmessage, hoffsets⟩ := hi.enabled hpre w hold hen hid'
        rw [currentCommands_cons (closesBarrier_of_signal hreset (hcases.imp And.left And.left))]
        exact ⟨message, List.mem_append_right _ hmessage, hoffsets⟩
      | false =>
        -- Authorizing now would leave the waiting request behind.
        unfold authorizesStale at hauth
        rw [hpre, hopen, Bool.not_false, Bool.true_and, Bool.true_and] at hauth
        exact absurd (List.any_eq_false.mp hauth w hold) (by simp [hen, hid'])
    · obtain ⟨hoffsets, _, _, _, _, hallowed⟩ := hbuilt.enabled hen
      have hheld := heldTrace_of_run hrun
      obtain ⟨message, hmessage⟩ :=
        Option.isSome_iff_exists.mp (hheld.valid (enableAllowed_of_host hallowed).valid)
      exact ⟨message, mem_currentCommands_of_held hbarrier hmessage,
        hoffsets.trans (hheld.holds message hmessage).offsets⟩
  · rcases waiting_step hrule hw with hold | hbuilt
    · cases hpost : x.post.calibration.requested with
      | true => rfl
      | false =>
        unfold calibratesStale at hcal
        rw [hpost, Bool.not_false, Bool.and_true, Bool.and_eq_false_iff, Bool.or_eq_false_iff]
          at hcal
        rcases hcal with ⟨hrequested, hrot⟩ | hnone
        · have hid' : w.sessionId = x.pre.session.sessionId :=
            hid.trans (bne_eq_false_iff_eq.mp hrot)
          rw [hi.calibrating w hold hcalibrate hid'] at hrequested
          cases hrequested
        · exact absurd (List.any_eq_false.mp hnone w hold) (by simp [hcalibrate, hid])
    · exact hbuilt.calibrating hcalibrate

theorem freshTrace_of_run (h : (bridgeMachine cfg initialSession).Run tr s)
    (hstale : ∀ y ∈ tr, authorizesStale y = false ∧ calibratesStale y = false) :
    FreshTrace cfg tr s := by
  refine h.invariant_of (C := fun y => authorizesStale y = false ∧ calibratesStale y = false)
    (I := FreshTrace cfg) ?_ ?_ hstale
  · exact ⟨fun hopen => absurd hopen Bool.false_ne_true, by
      simp [bridgeMachine, Bridge.initial, Bridge.waiting, IoTask.request?]⟩
  · intro tr s i s' o hrun hi hstep hx
    exact freshTrace_step (x := ⟨s, i, o, s'⟩) (hrun.step hstep) hi hx.1 hx.2

/-! ### Main result -/

/-- A frame `w`, dispatched in `x` after the history `tr`, that is fresh. -/
structure FreshAtDispatch (cfg : BridgeConfig) (tr : BridgeHistory) (x : BridgeTransition)
    (w : WriteRequest) : Prop where
  enabled : w.enable = true →
    ∃ message ∈ currentCommands cfg tr, w.offsets = message.action.map actionOffset
  calibrating : w.calibrateImuGyro = true → x.pre.calibration.requested = true

/-- **Freshness at dispatch.**  In every run in which no authorization and no end of a calibration
leaves a waiting request behind, every frame is fresh when it is dispatched. -/
theorem fresh_at_dispatch (h : (bridgeMachine cfg initialSession).Run (x :: tr) s)
    (hstale : ∀ y ∈ tr, authorizesStale y = false ∧ calibratesStale y = false)
    (hw : x.output = some w) : FreshAtDispatch cfg tr x w := by
  have hfresh := freshTrace_of_run h.tail hstale
  obtain ⟨nowNs, drawn, request, -, htask, hcurrent, -, rfl, -⟩ :=
    dispatch_of_output (hw ▸ rule_of_step h.head_step)
  have hmem := mem_waiting_of_startWrite htask
  refine ⟨fun hen => ?_, fun hcalibrate => ?_⟩
  · obtain ⟨hreq, hallowed, -, hoffsets⟩ := sentRequest_enable cfg x.pre request nowNs hen
    rw [hoffsets]
    exact hfresh.enabled (enableAllowed_of_host hallowed).authorized request hmem hreq hcurrent
  · rw [sentRequest_calibrateImuGyro] at hcalibrate
    exact hfresh.calibrating request hmem hcalibrate hcurrent

theorem fresh_at_dispatch_enabledInputs :
    ∃ x tr s w, (bridgeMachine {} 1).Run (x :: tr) s ∧ x.output = some w ∧ w.enable = true ∧
      FreshAtDispatch {} tr x w := by
  obtain ⟨x, tr, s, hrun, hx⟩ := run_of_execCheck (bridgeMachine {} 1) enabledInputs
    (fun x tr => dispatchesEnabled x && tr.all fun y => !authorizesStale y && !calibratesStale y)
    (by decide +kernel)
  simp only [Bool.and_eq_true, List.all_eq_true, Bool.not_eq_true'] at hx
  obtain ⟨w, hw, hen⟩ := dispatchesEnabled_iff.mp hx.1
  exact ⟨x, tr, s, w, hrun, hw, hen, fresh_at_dispatch hrun hx.2 hw⟩

/-- A request that lets the running io handler queue it. -/
def queueInputs : List BridgeInput :=
  [.writeCommand 1 1000000000 5, .enqueueLatestWrite, .drainLatestWrite, nextIo]

/-- A command of generation 1 for full power on all thrusters waits behind an active write while
the authority disarms and arms generation 2. -/
def staleEnableInputs : List BridgeInput :=
  enabledInputs ++
    [.onCommand 1 1000000000
      { authorityCommand true 1 with action := Vector.replicate _ oneF }] ++
    queueInputs ++
    [.onCommand 1 1000000000 (authorityCommand false 1),
      .onCommand 1 1000000000 (authorityCommand true 2), .writeCompleted false, nextIo]

/-- A calibrating request waits behind an active write while the board finishes the calibration. -/
def staleCalibrationInputs : List BridgeInput :=
  handshakeInputs ++
    [.publishStatus (some [authorityEndpoint]) 1,
      .onCommand 1 1000000000 (authorityCommand false 0),
      .calibrateImuGyro 1000000000 1000000000] ++
    queueInputs ++
    [.writeCompleted false, nextIo,
      .boardStatus (neutralStatus (kStatusFlagSessionEstablished ||| kStatusFlagImuCalibrating)
        kSafetyReasonDisabled 7 3 2 2 7) 1000000000 4] ++
    queueInputs ++
    [.boardStatus (neutralStatus (kStatusFlagSessionEstablished ||| kStatusFlagImuCalibrationOk)
        kSafetyReasonDisabled 7 3 2 2 8) 1000000000 4,
      .writeCompleted false, nextIo]

/-- Both kinds of requests can be left behind. -/
theorem not_fresh_at_dispatch :
    (¬ ∀ (cfg : BridgeConfig) (initialSession : UInt32) (tr : BridgeHistory)
      (x : BridgeTransition) (s : Bridge) (w : WriteRequest),
      (bridgeMachine cfg initialSession).Run (x :: tr) s → x.output = some w → w.enable = true →
      ∃ message ∈ currentCommands cfg tr, w.offsets = message.action.map actionOffset) ∧
    (¬ ∀ (cfg : BridgeConfig) (initialSession : UInt32) (tr : BridgeHistory)
      (x : BridgeTransition) (s : Bridge) (w : WriteRequest),
      (bridgeMachine cfg initialSession).Run (x :: tr) s → x.output = some w →
      w.calibrateImuGyro = true → x.pre.calibration.requested = true) := by
  refine ⟨fun hall => ?_, fun hall => ?_⟩
  · obtain ⟨x, tr, s, hrun, hx⟩ := run_of_execCheck (bridgeMachine {} 1) staleEnableInputs
      (fun x tr => x.output.any fun w => w.enable && (currentCommands {} tr).all fun message =>
        w.offsets != message.action.map actionOffset) (by decide +kernel)
    simp only [Option.any_eq_true, Bool.and_eq_true, List.all_eq_true, bne_iff_ne] at hx
    obtain ⟨w, hw, hen, hstale⟩ := hx
    obtain ⟨message, hmessage, hoffsets⟩ := hall {} 1 tr x s w hrun hw hen
    exact hstale message hmessage hoffsets
  · obtain ⟨x, tr, s, hrun, hx⟩ := run_of_execCheck (bridgeMachine {} 1) staleCalibrationInputs
      (fun x _ => x.output.any fun w => w.calibrateImuGyro && !x.pre.calibration.requested)
      (by decide +kernel)
    simp only [Option.any_eq_true, Bool.and_eq_true, Bool.not_eq_true'] at hx
    obtain ⟨w, hw, hcalibrate, hover⟩ := hx
    rw [hall {} 1 tr x s w hrun hw hcalibrate] at hover
    cases hover

end RobotCore
