import RobotCore.System.Equiv.Readiness.Goal
import RobotCore.System.Equiv.TaskIsolation
import RobotCore.Trajectory.Equiv.Approval

/-!
# The invariant of the preparation

What a goal has done by the time it stands where it stands (`Stage`), with what the messages on the
links say about the last reset (`ReadinessInvariant`), and the rule for the steps that leave the
goals alone (`ReadinessInvariant.frame`).
-/

namespace RobotCore

open Ieee Machine Scalar

/-! ### Messages of a reset -/

section Messages

variable {α : Type} (s : ReadinessSystem α)

/-- The target was published after the last reset request, and not while idle. -/
def ReadinessSystem.ofReset (k : ℕ) : Bool :=
  decide (s.resetRequested ≤ k) && s.targets[k]?.any fun target => target.trajectoryType != "idle"

/-- A valid target is one of the reset. -/
def ReadinessSystem.isCurrent (k : ℕ) : Bool :=
  s.targets[k]?.all fun target => !target.valid || s.ofReset k

/-- A ready status comes from a tick that has used a target of the reset. -/
def ReadinessSystem.usesReset (j : ℕ) : Bool :=
  s.statuses[j]?.all fun used => !used.status.ready || used.target.any s.ofReset

/-- Nothing older than the reset is left with the PID node or on its way to it, or comes from it. -/
def ReadinessSystem.isUndelayed : Bool :=
  s.pidTarget.all s.isCurrent && s.targetsToPid.all s.isCurrent &&
    s.statusesToServer.all s.usesReset

end Messages

variable {α : Type} [Scalar α] {ofDouble : Binary64 → α} {catalog : TaskCatalog}
  {requests : ℕ → String}

/-- Nothing older than the reset is left when a goal of the PID controller first sees the target of
its scenario. -/
def seesUndelayed (catalog : TaskCatalog) (requests : ℕ → String) (x : ReadinessTransition α) :
    Bool :=
  match x.input with
  | .resume i w =>
    match catalog.task (requests i) with
    | .ok task =>
      !(decide (task.controller = .pid) &&
          firstSees task x.pre.server.node w (x.pre.server.goals i).pc) || x.pre.isUndelayed
    | .error _ => true
  | _ => true

/-! ### The parameters of a goal -/

/-- The node has the scenario of the task. -/
def Prepared (task : TrackingTask) (config : TrajectoryConfig α) : Prop :=
  config.activeType = task.trajectory.trajectoryType.toLower ∧
    config.activeMode = task.controlMode.toLower

omit [Scalar α] in
theorem foldl_set (settings : List ParameterSetting) (config : TrajectoryConfig α)
    (p : TrajectoryParameters) (htype : config.trajectoryType = p .trajectoryType)
    (hmode : config.controlMode = p .controlMode) :
    (settings.foldl (TrajectoryConfig.set ofDouble) config).trajectoryType =
        configured p [.setParameters settings] .trajectoryType ∧
      (settings.foldl (TrajectoryConfig.set ofDouble) config).controlMode =
        configured p [.setParameters settings] .controlMode := by
  induction settings generalizing config p with
  | nil => exact ⟨htype, hmode⟩
  | cons setting settings ih =>
    obtain ⟨k, value⟩ := setting
    refine ih _ (Function.update p k value) ?_ ?_
    · cases k <;> first | exact htype | rfl
    · cases k <;> first | exact hmode | rfl

omit [Scalar α] in
/-- The request of a goal gives the node the scenario of its task. -/
theorem prepared_of_setParameters {task : TrackingTask} (config : TrajectoryConfig α)
    (htype : (task.trajectory .trajectoryType).isSome) :
    Prepared task ((scenarioParameters task).foldl (TrajectoryConfig.set ofDouble) config) := by
  let p : TrajectoryParameters :=
    Function.update (Function.update declaredParameters .trajectoryType config.trajectoryType)
      .controlMode config.controlMode
  obtain ⟨htype', hmode'⟩ := @foldl_set _ ofDouble (scenarioParameters task) config p
    rfl rfl
  rw [configure_scenarioParameters] at htype' hmode'
  obtain ⟨value, hvalue⟩ := Option.isSome_iff_exists.mp htype
  have hdeclared : task.overlay p .trajectoryType = value := by
    simp [TrackingTask.overlay, TrackingTask.declared, Scenario.set, hvalue]
  constructor
  · unfold TrajectoryConfig.activeType Scenario.trajectoryType
    rw [htype', hdeclared, hvalue]
    rfl
  · unfold TrajectoryConfig.activeMode
    rw [hmode']
    rfl

/-! ### The node while it tracks -/

/-- The parameters stay, and the node tracks or not as before. -/
structure KeepsTracking (node node' : TrajectoryNode α) : Prop where
  config : node'.config = node.config
  trackingStarted : node'.trackingStarted = node.trackingStarted

/-- The target is one of the scenario of the node. -/
def TargetOf (node : TrajectoryNode α) (target : ScenarioTarget) : Prop :=
  target.trajectoryType = node.config.activeType ∧ target.controlMode = node.config.activeMode

theorem keepsTracking_targetIsValid (node : TrajectoryNode α) (position : Vec α) :
    KeepsTracking node (targetIsValid node position).1 := by
  unfold targetIsValid
  dsimp only
  split_ifs
  · exact ⟨rfl, rfl⟩
  · exact ⟨rfl, rfl⟩
  · exact ⟨rfl, rfl⟩
  · obtain ⟨valid, reason, heq⟩ := checkEnvelope_eq node
    rw [heq]
    exact ⟨rfl, rfl⟩

theorem trackingTarget_spec (node : TrajectoryNode α) (nowNs : ℤ) :
    KeepsTracking node (trackingTarget node nowNs).1 ∧
      (trackingTarget node nowNs).2.trajectoryType = node.config.activeType ∧
        (trackingTarget node nowNs).2.controlMode = node.config.activeMode := by
  have hscenario (node' : TrajectoryNode α) (hkeeps : KeepsTracking node node')
      (sample : TrajectorySample α) (attitude : AttitudeSample α) (phase : String) :
      KeepsTracking node (scenarioTarget node' sample attitude phase).1 ∧
        (scenarioTarget node' sample attitude phase).2.trajectoryType = node.config.activeType ∧
          (scenarioTarget node' sample attitude phase).2.controlMode = node.config.activeMode := by
    have hvalid := keepsTracking_targetIsValid node' sample.position
    have hconfig := hvalid.config.trans hkeeps.config
    refine ⟨⟨hconfig, hvalid.trackingStarted.trans hkeeps.trackingStarted⟩, ?_, ?_⟩
    · exact congrArg (·.activeType) hconfig
    · exact congrArg (·.activeMode) hconfig
  unfold trackingTarget
  dsimp only
  split_ifs
  · exact hscenario (altitudeHoldSample node nowNs).1 ⟨rfl, rfl⟩ _ _ _
  · exact hscenario (stationHoldTarget node nowNs).1 ⟨rfl, rfl⟩ _ _ _
  · exact hscenario _ ⟨rfl, rfl⟩ _ _ _
  · exact hscenario _ ⟨rfl, rfl⟩ _ _ _
  · exact hscenario _ ⟨rfl, rfl⟩ _ _ _
  · exact ⟨⟨rfl, rfl⟩, rfl, rfl⟩

/-- A tick publishes a target of the scenario, or an idle one. -/
theorem trajectoryTick_spec (node : TrajectoryNode α) (nowNs : ℤ) :
    KeepsTracking node (trajectoryTick node nowNs).1 ∧
      (TargetOf node (trajectoryTick node nowNs).2.scenario ∨
        node.trackingStarted = false ∧
          (trajectoryTick node nowNs).2.scenario.trajectoryType = "idle") := by
  unfold trajectoryTick
  dsimp only
  split_ifs with htracking
  · obtain ⟨hkeeps, htype, hmode⟩ := trackingTarget_spec node nowNs
    exact ⟨hkeeps, Or.inl ⟨htype, hmode⟩⟩
  · exact ⟨⟨rfl, rfl⟩, Or.inr ⟨Bool.eq_false_iff.mpr htracking, rfl⟩⟩

/-- The node tracks a scenario. -/
structure Tracks (node : TrajectoryNode α) : Prop where
  trackingStarted : node.trackingStarted = true
  compatible : controlModeIsCompatible node.config.activeType node.config.activeMode = true

omit [Scalar α] in
theorem KeepsTracking.tracks {node node' : TrajectoryNode α} (h : KeepsTracking node node')
    (htracks : Tracks node) : Tracks node' :=
  ⟨h.trackingStarted.trans htracks.trackingStarted, h.config ▸ htracks.compatible⟩

omit [Scalar α] in
theorem Tracks.ne_idle {node : TrajectoryNode α} (h : Tracks node) :
    node.config.activeType ≠ "idle" := by
  intro hidle
  have hmanaged := isManaged_of_compatible h.compatible
  rw [hidle] at hmanaged
  exact absurd hmanaged (by decide)

/-- A reset that succeeds starts tracking. -/
theorem onResetScenario_spec (node : TrajectoryNode α) (nowNs : ℤ) :
    (onResetScenario node nowNs).1.config = node.config ∧
      ((onResetScenario node nowNs).2.success = true → Tracks (onResetScenario node nowNs).1) := by
  have hlatch : (latchHold node).config = node.config := by
    unfold latchHold
    split_ifs <;> rfl
  unfold onResetScenario
  dsimp only
  split_ifs with hcompatible hposition hquaternion
  · exact ⟨rfl, nofun⟩
  · exact ⟨rfl, nofun⟩
  · exact ⟨rfl, nofun⟩
  · rw [Bool.not_eq_true, Bool.not_eq_false'] at hcompatible
    exact ⟨hlatch, fun _ => ⟨rfl, hlatch ▸ hcompatible⟩⟩

theorem config_onValidateScenario (node : TrajectoryNode α) :
    (onValidateScenario node).1.config = node.config := by
  rcases onValidateScenario_cases node with heq | ⟨-, heq⟩
  · rw [heq]
  · rw [heq]
    obtain ⟨valid, reason, heq⟩ := checkEnvelope_eq { node with
      motionStartPosition := node.latestPosition
      motionStartQuaternion := node.latestQuaternion }
    rw [heq]

/-! ### The invariant -/

/-- What there is of a goal that has no run. -/
structure Quiet (pc : ExperimentPc) (call : Option PendingCall) : Prop where
  stands : isUnstarted pc = true ∨ isWithdrawn pc = true ∨ pc.hasStopped = true
  sent : ∀ event, call = some (.sent event) → event.callsTrajectory = false
  answered : ∀ reply, call = some (.answered reply) → reply.startsRun = false

theorem quiet_none {pc : ExperimentPc}
    (h : isUnstarted pc = true ∨ isWithdrawn pc = true ∨ pc.hasStopped = true) : Quiet pc none :=
  ⟨h, fun _ heq => (by cases heq), fun _ heq => (by cases heq)⟩

/-- The targets since the last reset request are idle ones and ones of the scenario of the node. -/
def ResetTargets (s : ReadinessSystem α) : Prop :=
  ∀ k target, s.resetRequested ≤ k → s.targets[k]? = some target →
    target.trajectoryType = "idle" ∨ TargetOf s.trajectory target

/-- Nothing older than the reset is left, and the status that has arrived is not older. -/
structure Undelayed (s : ReadinessSystem α) (sequence : ℕ) : Prop where
  links : s.isUndelayed = true
  latest : sequence < s.server.node.pidStatusSequence →
    ∀ j, s.latestStatus = some j → s.usesReset j = true

/-- What a goal with a run has done by the time it stands where it stands. -/
def Stage (task : TrackingTask) (s : ReadinessSystem α) (i : ℕ) : ExperimentPc → Prop
  | .configuring _ =>
    s.calls i = some (.sent (.setParameters (scenarioParameters task))) ∨
      (∃ reply, s.calls i = some (.answered reply)) ∧ Prepared task s.trajectory.config
  | .validating _ =>
    (s.calls i = some (.sent .validate) ∨ ∃ reply, s.calls i = some (.answered reply)) ∧
      Prepared task s.trajectory.config
  | .resetting _ _ =>
    (s.calls i = some (.sent .reset) ∨
      ∃ reply, s.calls i = some (.answered reply) ∧
        ∀ message, reply = .trigger true message → Tracks s.trajectory) ∧
      Prepared task s.trajectory.config ∧ ResetTargets s
  | .waitingReady _ wait =>
    s.calls i = none ∧ Prepared task s.trajectory.config ∧ Tracks s.trajectory ∧ ResetTargets s ∧
      (task.controller = .pid → ∀ sequence, wait.controllerSequenceAtTarget = some sequence →
        Undelayed s sequence)
  | _ => True

structure ReadinessInvariant (catalog : TaskCatalog) (requests : ℕ → String)
    (s : ReadinessSystem α) : Prop where
  quiet : ∀ i, s.active ≠ some i → Quiet (s.server.goals i).pc (s.calls i)
  stage : ∀ i task, s.active = some i → catalog.task (requests i) = .ok task →
    Stage task s i (s.server.goals i).pc
  requested : s.resetRequested ≤ s.targets.length
  held : ∀ target stampNs, s.pid.target = some (target, stampNs) →
    ∃ k, s.pidTarget = some k ∧ s.targets[k]? = some target
  unselected : s.pid.pidSelected = false → s.pid.target = none ∧ s.targetsToPid = []
  latest : ∀ status, s.server.node.latestPidStatus = some status →
    ∃ j used, s.latestStatus = some j ∧ s.statuses[j]? = some used ∧ used.status = status

variable {task : TrackingTask} {s s' : ReadinessSystem α} {i : ℕ} {pc : ExperimentPc}

omit [Scalar α] in
/-- The rule for a step that is not one of the goal. -/
theorem Stage.mono (h : Stage task s i pc) (hcalls : s'.calls i = s.calls i)
    (hkeeps : KeepsTracking s.trajectory s'.trajectory)
    (htargets : ResetTargets s → ResetTargets s')
    (hundelayed : Tracks s.trajectory → ResetTargets s → ∀ sequence, Undelayed s sequence →
      Undelayed s' sequence) : Stage task s' i pc := by
  unfold Stage at h ⊢
  rw [hcalls, hkeeps.config]
  split
  case h_1 => exact h
  case h_2 => exact h
  case h_3 =>
    obtain ⟨hcall, hprepared, hreset⟩ := h
    refine ⟨hcall.imp_right ?_, hprepared, htargets hreset⟩
    rintro ⟨reply, hreply, htracks⟩
    exact ⟨reply, hreply, fun message heq => hkeeps.tracks (htracks message heq)⟩
  case h_4 =>
    obtain ⟨hcall, hprepared, htracks, hreset, hwait⟩ := h
    exact ⟨hcall, hprepared, hkeeps.tracks htracks, htargets hreset,
      fun hpid sequence hmark => hundelayed htracks hreset sequence (hwait hpid sequence hmark)⟩
  case h_5 => exact trivial

omit [Scalar α] in
/-- The rule for a step that is not one of a goal or of the parameters. -/
theorem ReadinessInvariant.frame (h : ReadinessInvariant catalog requests s)
    (hgoals : ∀ i, (s'.server.goals i).pc = (s.server.goals i).pc) (hcalls : s'.calls = s.calls)
    (hactive : s'.active = s.active) (hkeeps : KeepsTracking s.trajectory s'.trajectory)
    (htargets : ResetTargets s → ResetTargets s')
    (hundelayed : Tracks s.trajectory → ResetTargets s → ∀ sequence, Undelayed s sequence →
      Undelayed s' sequence)
    (hrequested : s'.resetRequested ≤ s'.targets.length)
    (hheld : ∀ target stampNs, s'.pid.target = some (target, stampNs) →
      ∃ k, s'.pidTarget = some k ∧ s'.targets[k]? = some target)
    (hunselected : s'.pid.pidSelected = false → s'.pid.target = none ∧ s'.targetsToPid = [])
    (hlatest : ∀ status, s'.server.node.latestPidStatus = some status →
      ∃ j used, s'.latestStatus = some j ∧ s'.statuses[j]? = some used ∧ used.status = status) :
    ReadinessInvariant catalog requests s' where
  quiet i hi := by
    rw [hgoals, hcalls]
    exact h.quiet i (hactive ▸ hi)
  stage i task hi htask := by
    rw [hgoals]
    exact (h.stage i task (hactive ▸ hi) htask).mono (congrFun hcalls i) hkeeps htargets hundelayed
  requested := hrequested
  held := hheld
  unselected := hunselected
  latest := hlatest

end RobotCore
