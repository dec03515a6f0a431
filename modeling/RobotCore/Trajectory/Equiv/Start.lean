import RobotCore.Trajectory.Equiv.Approval

/-!
# Starting a scenario

A Start request is accepted when a compatible scenario is latched (`reset_of_latched`), which a
Validate request does once a pose and an attitude are measured; `exists_started` is such a run.
-/

namespace RobotCore

open Scalar Machine

variable {α : Type} [Scalar α] {node : TrajectoryNode α}

theorem ne_hold_of_automatic {trajectoryType : String} (h : isAutomatic trajectoryType = true) :
    (trajectoryType == "hold") = false := by
  rw [beq_eq_false_iff_ne]
  rintro rfl
  cases h

/-- A Start request that is accepted. -/
def startsScenario (x : TrajectoryTransition α) : Bool :=
  match x.input with
  | .reset _ => x.output.response.any (·.success)
  | _ => false

/-- What an accepted Start request leaves behind. -/
theorem started_of_reset {nowNs : ℤ} (h : (onResetScenario node nowNs).2.success = true) :
    (onResetScenario node nowNs).1.trackingStarted = true ∧
      (onResetScenario node nowNs).1.startedNs = nowNs ∧
      ∃ start, (onResetScenario node nowNs).1.motionStartPosition = some start := by
  unfold onResetScenario at h ⊢
  dsimp only at h ⊢
  split_ifs at h ⊢ with hcompatible hposition
  · cases h
  · rw [Bool.not_eq_true, Bool.not_eq_false'] at hcompatible
    rw [isManaged_of_compatible hcompatible, Bool.true_and] at hposition
    refine ⟨rfl, rfl, Option.isSome_iff_exists.mp ?_⟩
    have hlatch : (latchHold node).motionStartPosition = node.motionStartPosition := by
      unfold latchHold
      split_ifs <;> rfl
    exact hlatch ▸ isSome_of_not_isNone hposition

variable {config : TrajectoryConfig α} {startedNs : ℤ} {s : TrajectoryNode α}
  {x : TrajectoryTransition α} {before : TrajectoryHistory α}

theorem started_of_startsScenario
    (hrun : (trajectoryMachine config startedNs).Run (x :: before) s)
    (hstarts : startsScenario x = true) :
    ∃ startNs, x.input = .reset startNs ∧ x.post.trackingStarted = true ∧
      x.post.startedNs = startNs ∧ ∃ start, x.post.motionStartPosition = some start := by
  have hstep := Option.some.inj hrun.head_step
  obtain ⟨pre, input, output, post⟩ := x
  dsimp only [startsScenario] at hstarts hstep ⊢
  cases input with
  | reset startNs =>
    obtain ⟨rfl, rfl⟩ := Prod.mk.inj hstep
    exact ⟨startNs, rfl, started_of_reset hstarts⟩
  | _ => cases hstarts

/-! ### An accepted request -/

/-- A valid pose with a direction is taken over. -/
theorem measured_of_bodyPose (node : TrajectoryNode α) {msg : BodyPose α}
    (hvalid : msg.stateValid = true)
    (hposition : msg.position.allFinite = true)
    (hnorm : (isFinite msg.orientation.norm && lt smallNorm msg.orientation.norm) = true) :
    let node' := onBodyPose node msg
    node'.latestPosition = some msg.position ∧ node'.latestMapYaw.isSome = true ∧
      node'.config = node.config := by
  have hrejected : (!(msg.stateValid || msg.positionEstimated) || !msg.position.allFinite) =
      false := by
    rw [hvalid, hposition]
    rfl
  dsimp only [onBodyPose]
  rw [hrejected, hnorm, if_neg Bool.false_ne_true, if_pos rfl]
  split_ifs <;> exact ⟨rfl, rfl, rfl⟩

/-- The attitude of a message is accepted. -/
def ImuReading.accepted (msg : ImuReading α) : Bool :=
  !(msg.frameId != "base_link" || lt msg.orientationCovariance (ofRat 0) ||
    !isFinite msg.orientation.norm || le msg.orientation.norm smallNorm)

/-- With a heading of the map an attitude is taken over. -/
theorem measured_of_imu {msg : ImuReading α} (haccepted : msg.accepted = true)
    (hyaw : node.latestMapYaw.isSome = true) :
    let node' := onImu node msg
    node'.latestPosition = node.latestPosition ∧
      (∃ roll pitch yaw, node'.latestQuaternion = some (rpyQuaternion roll pitch yaw)) ∧
      node'.config = node.config := by
  obtain ⟨yaw, hyaw⟩ := Option.isSome_iff_exists.mp hyaw
  rw [ImuReading.accepted, Bool.not_eq_true'] at haccepted
  dsimp only [onImu]
  rw [hyaw]
  dsimp only
  rw [haccepted, if_neg Bool.false_ne_true]
  exact ⟨rfl, ⟨_, _, _, rfl⟩, rfl⟩

/-- A Validate request latches a pose that is measured. -/
theorem latched_of_validate
    (hcompatible : controlModeIsCompatible node.config.activeType node.config.activeMode = true)
    (hposition : node.latestPosition.isSome = true)
    (hquaternion : node.latestQuaternion.isSome = true) :
    let node' := (onValidateScenario node).1
    node'.scenario = (node.config, node.latestPosition, node.latestQuaternion) ∧
      (node'.validateScenarioEnvelope = .ok () → node'.envelopeValid = true) := by
  let latched : TrajectoryNode α :=
    { node with
      motionStartPosition := node.latestPosition
      motionStartQuaternion := node.latestQuaternion }
  have hvalid : (checkEnvelope latched).validateScenarioEnvelope = .ok () →
      (checkEnvelope latched).envelopeValid = true := by
    rw [validateScenarioEnvelope_checkEnvelope, checkEnvelope]
    intro h
    rw [h]
  have hscenario : (checkEnvelope latched).scenario =
      (node.config, node.latestPosition, node.latestQuaternion) := by
    obtain ⟨valid, reason, heq⟩ := checkEnvelope_eq latched
    rw [heq]
    rfl
  have hmeasured : (node.latestPosition.isNone || node.latestQuaternion.isNone) = false := by
    rw [← Option.not_isSome, ← Option.not_isSome, hposition, hquaternion]
    rfl
  dsimp only [onValidateScenario]
  rw [hcompatible, isManaged_of_compatible hcompatible, hmeasured, if_neg (by decide),
    if_pos rfl, if_neg Bool.false_ne_true]
  exact ⟨hscenario, hvalid⟩

/-- A Start request of a latched scenario is accepted. -/
theorem reset_of_latched {position : Vec α} {quaternion : Quat α}
    (hlatched : node.scenario = (config, some position, some quaternion))
    (hcompatible : controlModeIsCompatible config.activeType config.activeMode = true)
    (nowNs : ℤ) :
    (onResetScenario node nowNs).2.success = true ∧
      (onResetScenario node nowNs).1.scenario = node.scenario := by
  have hconfig : node.config = config := congrArg (·.1) hlatched
  have hposition : node.motionStartPosition = some position := congrArg (·.2.1) hlatched
  have hquaternion : node.motionStartQuaternion = some quaternion := congrArg (·.2.2) hlatched
  have hlatch : (latchHold node).scenario = node.scenario := by
    unfold latchHold
    split_ifs <;> rfl
  dsimp only [onResetScenario]
  rw [hconfig, hcompatible, hposition, hquaternion, if_neg (by decide), if_neg (by simp),
    if_neg (by simp)]
  exact ⟨rfl, hlatch⟩

/-- The inputs of a scenario that is measured, validated and started. -/
def startInputs (pose : BodyPose α) (imu : ImuReading α) (startNs : ℤ) :
    List (TrajectoryInput α) :=
  [.bodyPose pose, .imu imu, .validate, .reset startNs]

/-- What a run of these inputs leaves behind. -/
structure StartedRun (config : TrajectoryConfig α) (pose : BodyPose α)
    (inputs : List (TrajectoryInput α)) (x : TrajectoryTransition α)
    (before : TrajectoryHistory α) : Prop where
  inputs : ((x :: before).map (·.input)).reverse = inputs
  starts : startsScenario x = true
  config : x.post.config = config
  position : x.post.motionStartPosition = some pose.position
  attitude : ∃ roll pitch yaw, x.post.motionStartQuaternion = some (rpyQuaternion roll pitch yaw)
  validated : ∃ y ∈ before, y.post.scenario = x.post.scenario ∧
    (y.post.validateScenarioEnvelope = .ok () → approves y = true)

theorem exists_started {pose : BodyPose α} {imu : ImuReading α}
    (hcompatible : controlModeIsCompatible config.activeType config.activeMode = true)
    (hvalid : pose.stateValid = true) (hposition : pose.position.allFinite = true)
    (hnorm : (isFinite pose.orientation.norm && lt smallNorm pose.orientation.norm) = true)
    (haccepted : imu.accepted = true) (startedNs startNs : ℤ) :
    ∃ x before s, (trajectoryMachine config startedNs).Run (x :: before) s ∧
      StartedRun config pose (startInputs pose imu startNs) x before := by
  have hexec : ∃ x before s,
      (trajectoryMachine config startedNs).exec (startInputs pose imu startNs) =
          some (x :: before, s) ∧
        StartedRun config pose (startInputs pose imu startNs) x before := by
    refine ⟨_, _, _, rfl, ?_⟩
    obtain ⟨hlatest, hyaw, hpose⟩ := measured_of_bodyPose
      (trajectoryMachine config startedNs).init hvalid hposition hnorm
    obtain ⟨hlatest', ⟨roll, pitch, yaw, hquaternion⟩, himu⟩ := measured_of_imu haccepted hyaw
    have hmeasured := himu.trans hpose
    have hsome := hlatest'.trans hlatest
    obtain ⟨hlatched, hvalid⟩ := latched_of_validate (by rw [hmeasured]; exact hcompatible)
      (by rw [hsome]; rfl) (by rw [hquaternion]; rfl)
    rw [hmeasured, hsome, hquaternion] at hlatched
    obtain ⟨hsuccess, hkept⟩ := reset_of_latched hlatched hcompatible startNs
    have hscenario := hkept.trans hlatched
    exact
      { inputs := rfl
        starts := hsuccess
        config := congrArg (·.1) hscenario
        position := congrArg (·.2.1) hscenario
        attitude := ⟨roll, pitch, yaw, congrArg (·.2.2) hscenario⟩
        validated := ⟨_, List.mem_cons_self, hkept.symm, hvalid⟩ }
  obtain ⟨x, before, s, hexec, hx⟩ := hexec
  exact ⟨x, before, s, run_of_exec hexec, hx⟩

end RobotCore
