import RobotCore.Lib.Scalar.Ieee
import RobotCore.Trajectory.Node

/-!
# Targets of approved scenarios

While the node tracks, the start pose is latched and the envelope is checked, so that only a
Validate request decides whether targets are valid (`ApprovalInvariant`).  A parameter that is set
afterwards does not undo this decision: the scenario of a valid target is the approved one exactly
when the parameters are those of the last Validate request (`approved_iff_settled`), which they need
not be (`unapproved_target`).
-/

namespace RobotCore

open Scalar Machine

variable {α : Type} [Scalar α]

/-! ### Approvals -/

/-- `validate_scenario_envelope` returns True in the transition. -/
def approves (x : TrajectoryTransition α) : Bool :=
  match x.input with
  | .validate => x.post.envelopeValid
  | .tick _ => !x.pre.envelopeChecked && x.post.envelopeChecked && x.post.envelopeValid
  | _ => false

/-- The parameters and the latched start pose of a node. -/
def TrajectoryNode.scenario (node : TrajectoryNode α) :
    TrajectoryConfig α × Option (Vec α) × Option (Quat α) :=
  (node.config, node.motionStartPosition, node.motionStartQuaternion)

/-- The scenario of the node is the one on which `validate_scenario_envelope` last returned True. -/
def Approved (tr : TrajectoryHistory α) (node : TrajectoryNode α) : Prop :=
  ∃ x, tr.find? approves = some x ∧ x.post.validateScenarioEnvelope = .ok () ∧
    x.post.scenario = node.scenario

/-- A Validate request. -/
def isValidate (x : TrajectoryTransition α) : Bool :=
  match x.input with
  | .validate => true
  | _ => false

/-- The parameters are those that the last Validate request found. -/
def ParametersValidated (tr : TrajectoryHistory α) (node : TrajectoryNode α) : Prop :=
  ∃ x, tr.find? isValidate = some x ∧ x.pre.config = node.config

/-- A tick publishes a valid target that is not idle. -/
def publishesValid (x : TrajectoryTransition α) : Bool :=
  x.output.target.any fun target => target.valid && target.trajectoryType != "idle"

/-! ### What a callback does to the scenario -/

/-- The members that decide about the scenario are the same. -/
structure SameScenario (node node' : TrajectoryNode α) : Prop where
  config : node'.config = node.config
  trackingStarted : node'.trackingStarted = node.trackingStarted
  latestPosition : node'.latestPosition = node.latestPosition
  initialPosition : node'.initialPosition = node.initialPosition
  motionStartPosition : node'.motionStartPosition = node.motionStartPosition
  motionStartQuaternion : node'.motionStartQuaternion = node.motionStartQuaternion
  envelopeChecked : node'.envelopeChecked = node.envelopeChecked
  envelopeValid : node'.envelopeValid = node.envelopeValid

variable {node node' node'' : TrajectoryNode α}

omit [Scalar α] in
theorem SameScenario.refl (node : TrajectoryNode α) : SameScenario node node :=
  ⟨rfl, rfl, rfl, rfl, rfl, rfl, rfl, rfl⟩

omit [Scalar α] in
theorem SameScenario.trans (h : SameScenario node node') (h' : SameScenario node' node'') :
    SameScenario node node'' where
  config := h'.config.trans h.config
  trackingStarted := h'.trackingStarted.trans h.trackingStarted
  latestPosition := h'.latestPosition.trans h.latestPosition
  initialPosition := h'.initialPosition.trans h.initialPosition
  motionStartPosition := h'.motionStartPosition.trans h.motionStartPosition
  motionStartQuaternion := h'.motionStartQuaternion.trans h.motionStartQuaternion
  envelopeChecked := h'.envelopeChecked.trans h.envelopeChecked
  envelopeValid := h'.envelopeValid.trans h.envelopeValid

omit [Scalar α] in
theorem SameScenario.scenario (h : SameScenario node node') : node'.scenario = node.scenario := by
  unfold TrajectoryNode.scenario
  rw [h.config, h.motionStartPosition, h.motionStartQuaternion]

theorem sameScenario_onImu (node : TrajectoryNode α) (msg : ImuReading α) :
    SameScenario node (onImu node msg) := by
  unfold onImu
  dsimp only
  split
  · exact .refl node
  · split_ifs
    · exact .refl node
    all_goals exact ⟨rfl, rfl, rfl, rfl, rfl, rfl, rfl, rfl⟩

omit [Scalar α] in
theorem sameScenario_onManualCommand (node : TrajectoryNode α) (msg : ManualCommand α)
    (nowNs : ℤ) : SameScenario node (onManualCommand node msg nowNs) := by
  unfold onManualCommand
  split_ifs
  · exact .refl node
  · exact ⟨rfl, rfl, rfl, rfl, rfl, rfl, rfl, rfl⟩

/-- The target of a scenario that is checked is checked no more. -/
theorem sameScenario_scenarioTarget (h : node.envelopeChecked = true)
    (sample : TrajectorySample α) (attitude : AttitudeSample α) (phase : String) :
    SameScenario node (scenarioTarget node sample attitude phase).1 := by
  unfold scenarioTarget targetIsValid
  dsimp only
  split_ifs <;> exact .refl node

theorem sameScenario_trackingTarget (h : node.envelopeChecked = true) (nowNs : ℤ) :
    SameScenario node (trackingTarget node nowNs).1 := by
  have haltitude : SameScenario node (altitudeHoldSample node nowNs).1 :=
    ⟨rfl, rfl, rfl, rfl, rfl, rfl, rfl, rfl⟩
  have hstation : SameScenario node (stationHoldTarget node nowNs).1 :=
    ⟨rfl, rfl, rfl, rfl, rfl, rfl, rfl, rfl⟩
  unfold trackingTarget
  dsimp only
  split_ifs
  · exact haltitude.trans (sameScenario_scenarioTarget (haltitude.envelopeChecked.trans h) _ _ _)
  · exact hstation.trans (sameScenario_scenarioTarget (hstation.envelopeChecked.trans h) _ _ _)
  · exact sameScenario_scenarioTarget h _ _ _
  · exact sameScenario_scenarioTarget h _ _ _
  · exact sameScenario_scenarioTarget h _ _ _
  · exact .refl node

theorem sameScenario_trajectoryTick
    (h : node.trackingStarted = true → node.envelopeChecked = true) (nowNs : ℤ) :
    SameScenario node (trajectoryTick node nowNs).1 := by
  unfold trajectoryTick
  dsimp only
  split_ifs with htracking
  · exact sameScenario_trackingTarget (h htracking) nowNs
  · exact .refl node

theorem isSome_of_not_isNone {β : Type} {o : Option β} (h : ¬o.isNone = true) : o.isSome = true :=
  Option.isSome_iff_ne_none.mpr fun hnone => h (Option.isNone_iff_eq_none.mpr hnone)

theorem isManaged_of_compatible {trajectoryType controlMode : String}
    (h : controlModeIsCompatible trajectoryType controlMode = true) :
    isManaged trajectoryType = true := by
  unfold controlModeIsCompatible at h
  unfold isManaged
  split_ifs at h with hhold
  · rw [hhold, Bool.true_or]
  · rw [Bool.and_eq_true] at h
    rw [h.1, Bool.or_true]

/-- A reset starts a scenario whose start is latched, or leaves the node as it is. -/
theorem onResetScenario_cases (node : TrajectoryNode α) (nowNs : ℤ) :
    (onResetScenario node nowNs).1 = node ∨
      node.motionStartPosition.isSome = true ∧
        SameScenario { node with trackingStarted := true } (onResetScenario node nowNs).1 := by
  have hlatch : SameScenario { node with trackingStarted := true }
      { latchHold node with startedNs := nowNs, trackingStarted := true } := by
    unfold latchHold
    split_ifs <;> exact ⟨rfl, rfl, rfl, rfl, rfl, rfl, rfl, rfl⟩
  unfold onResetScenario
  dsimp only
  split_ifs with hcompatible hposition hquaternion
  · exact Or.inl rfl
  · exact Or.inl rfl
  · exact Or.inl rfl
  · refine Or.inr ⟨?_, hlatch⟩
    rw [Bool.not_eq_true, Bool.not_eq_false'] at hcompatible
    rw [isManaged_of_compatible hcompatible, Bool.true_and] at hposition
    exact isSome_of_not_isNone hposition

/-- The check reads none of the members it writes. -/
theorem validateScenarioEnvelope_checkEnvelope (node : TrajectoryNode α) :
    (checkEnvelope node).validateScenarioEnvelope = node.validateScenarioEnvelope := by
  unfold checkEnvelope
  split <;> rfl

theorem checkEnvelope_eq (node : TrajectoryNode α) :
    ∃ valid reason, checkEnvelope node = { node with
        envelopeChecked := true, envelopeValid := valid, envelopeRejectionReason := reason } := by
  unfold checkEnvelope
  split <;> exact ⟨_, _, rfl⟩

/-- The envelope is valid when the check returns True. -/
theorem validateScenarioEnvelope_of_valid (h : (checkEnvelope node).envelopeValid = true) :
    (checkEnvelope node).validateScenarioEnvelope = .ok () := by
  rw [validateScenarioEnvelope_checkEnvelope]
  unfold checkEnvelope at h
  split at h
  · assumption
  · cases h

/-- A Validate request rejects the scenario, or latches the measured pose and checks it. -/
theorem onValidateScenario_cases (node : TrajectoryNode α) :
    (onValidateScenario node).1 = { node with envelopeValid := false, envelopeChecked := true } ∨
      node.latestPosition.isSome = true ∧
        (onValidateScenario node).1 = checkEnvelope
          { node with
            motionStartPosition := node.latestPosition
            motionStartQuaternion := node.latestQuaternion } := by
  unfold onValidateScenario
  dsimp only
  split_ifs with hcompatible hmanaged hlatest
  · exact Or.inl rfl
  · exact Or.inl rfl
  · rw [Bool.or_eq_true, not_or] at hlatest
    exact Or.inr ⟨isSome_of_not_isNone hlatest.1, rfl⟩
  · rw [Bool.not_eq_true, Bool.not_eq_false'] at hcompatible
    exact absurd (isManaged_of_compatible hcompatible) hmanaged

/-- A first position opens the check of the envelope, a later one does not. -/
structure KeepsScenario (node node' : TrajectoryNode α) : Prop where
  scenario : node'.scenario = node.scenario
  trackingStarted : node'.trackingStarted = node.trackingStarted
  envelopeValid : node'.envelopeValid = node.envelopeValid
  initial : node'.initialPosition.isSome = true ∨
    node'.initialPosition = node.initialPosition ∧ node'.latestPosition = node.latestPosition
  checked : node.initialPosition.isSome = true → node'.envelopeChecked = node.envelopeChecked

theorem keepsScenario_onBodyPose (node : TrajectoryNode α) (msg : BodyPose α) :
    KeepsScenario node (onBodyPose node msg) := by
  unfold onBodyPose
  dsimp only
  split_ifs with hrejected hnorm hinitial hinitial
  · exact ⟨rfl, rfl, rfl, Or.inr ⟨rfl, rfl⟩, fun _ => rfl⟩
  · exact ⟨rfl, rfl, rfl, Or.inl rfl, fun h =>
      absurd (Option.isNone_iff_eq_none.mp hinitial) (Option.isSome_iff_ne_none.mp h)⟩
  · exact ⟨rfl, rfl, rfl, Or.inl (isSome_of_not_isNone hinitial), fun _ => rfl⟩
  · exact ⟨rfl, rfl, rfl, Or.inl rfl, fun h =>
      absurd (Option.isNone_iff_eq_none.mp hinitial) (Option.isSome_iff_ne_none.mp h)⟩
  · exact ⟨rfl, rfl, rfl, Or.inl (isSome_of_not_isNone hinitial), fun _ => rfl⟩

/-! ### The invariant -/

/-- The last Validate request has approved the latched start pose. -/
def LastApproval (tr : TrajectoryHistory α) (node : TrajectoryNode α) : Prop :=
  ∃ x, tr.find? isValidate = some x ∧ tr.find? approves = some x ∧
    x.post.validateScenarioEnvelope = .ok () ∧ x.post.config = x.pre.config ∧
      x.post.scenario.2 = node.scenario.2

/-- The start pose of a scenario that is tracked is latched and its envelope checked, and an
envelope that is valid is that of the last Validate request. -/
structure ApprovalInvariant (tr : TrajectoryHistory α) (node : TrajectoryNode α) : Prop where
  initial : node.latestPosition.isSome = true → node.initialPosition.isSome = true
  latched : node.trackingStarted = true → node.motionStartPosition.isSome = true
  checked : node.motionStartPosition.isSome = true →
    node.initialPosition.isSome = true ∧ node.envelopeChecked = true
  approved : node.motionStartPosition.isSome = true → node.envelopeValid = true →
    LastApproval tr node

variable {tr : TrajectoryHistory α} {x : TrajectoryTransition α}

/-- An approval lasts while there is no other and the start pose stays. -/
theorem LastApproval.cons (h : LastApproval tr node) (hvalidate : isValidate x = false)
    (hx : approves x = false) (hstart : node'.scenario.2 = node.scenario.2) :
    LastApproval (x :: tr) node' := by
  obtain ⟨y, hy, hy', hvalid, hconfig, heq⟩ := h
  refine ⟨y, ?_, ?_, hvalid, hconfig, heq.trans hstart.symm⟩
  · rwa [List.find?_cons_of_neg (by simp [hvalidate])]
  · rwa [List.find?_cons_of_neg (by simp [hx])]

variable {input : TrajectoryInput α}

/-- The rule for a callback that keeps the start pose, and is no Validate request. -/
theorem ApprovalInvariant.keep (h : ApprovalInvariant tr node) {output : TrajectoryOutput α}
    (hvalidate : isValidate ⟨node, input, output, node'⟩ = false)
    (hstart : node'.scenario.2 = node.scenario.2)
    (happroves : node.motionStartPosition.isSome = true →
      approves ⟨node, input, output, node'⟩ = false)
    (hvalid : node'.envelopeValid = node.envelopeValid)
    (hinitial : node'.latestPosition.isSome = true → node'.initialPosition.isSome = true)
    (htracking : node'.trackingStarted = true → node.motionStartPosition.isSome = true)
    (hchecked : node.motionStartPosition.isSome = true →
      node'.initialPosition.isSome = true ∧ node'.envelopeChecked = true) :
    ApprovalInvariant (⟨node, input, output, node'⟩ :: tr) node' := by
  have hposition : node'.motionStartPosition = node.motionStartPosition :=
    congrArg (·.1) hstart
  refine ⟨hinitial, fun htrack => hposition ▸ htracking htrack,
    fun hsome => hchecked (hposition ▸ hsome), fun hsome hv => ?_⟩
  rw [hposition] at hsome
  exact (h.approved hsome (hvalid ▸ hv)).cons hvalidate (happroves hsome) hstart

/-- The rule for a callback that leaves the members of the scenario as they are. -/
theorem ApprovalInvariant.same (h : ApprovalInvariant tr node) {output : TrajectoryOutput α}
    (hsame : SameScenario node node')
    (hvalidate : isValidate ⟨node, input, output, node'⟩ = false)
    (happroves : node.motionStartPosition.isSome = true →
      approves ⟨node, input, output, node'⟩ = false) :
    ApprovalInvariant (⟨node, input, output, node'⟩ :: tr) node' := by
  refine h.keep hvalidate (congrArg (·.2) hsame.scenario) happroves hsame.envelopeValid ?_ ?_ ?_
  · rw [hsame.latestPosition, hsame.initialPosition]
    exact h.initial
  · rw [hsame.trackingStarted]
    exact h.latched
  · rw [hsame.initialPosition, hsame.envelopeChecked]
    exact h.checked

theorem approvalInvariant_reset (h : ApprovalInvariant tr node) (nowNs : ℤ)
    (output : TrajectoryOutput α) :
    ApprovalInvariant (⟨node, .reset nowNs, output, (onResetScenario node nowNs).1⟩ :: tr)
      (onResetScenario node nowNs).1 := by
  rcases onResetScenario_cases node nowNs with heq | ⟨hposition, hsame⟩
  · rw [heq]
    exact h.same (.refl node) rfl fun _ => rfl
  · refine h.keep rfl (congrArg (·.2) hsame.scenario) (fun _ => rfl) hsame.envelopeValid ?_
      (fun _ => hposition) ?_
    · rw [hsame.latestPosition, hsame.initialPosition]
      exact h.initial
    · rw [hsame.initialPosition, hsame.envelopeChecked]
      exact h.checked

theorem approvalInvariant_stop (h : ApprovalInvariant tr node) (nowNs : ℤ)
    (output : TrajectoryOutput α) :
    ApprovalInvariant (⟨node, .stop nowNs, output, (onStopScenario node nowNs).1⟩ :: tr)
      (onStopScenario node nowNs).1 where
  initial := h.initial
  latched := nofun
  checked := nofun
  approved := nofun

theorem approvalInvariant_validate (h : ApprovalInvariant tr node) (output : TrajectoryOutput α) :
    ApprovalInvariant (⟨node, .validate, output, (onValidateScenario node).1⟩ :: tr)
      (onValidateScenario node).1 := by
  rcases onValidateScenario_cases node with heq | ⟨hlatest, heq⟩
  · rw [heq]
    exact ⟨h.initial, h.latched, fun hsome => ⟨(h.checked hsome).1, rfl⟩, fun _ => nofun⟩
  · let latched : TrajectoryNode α :=
      { node with
        motionStartPosition := node.latestPosition
        motionStartQuaternion := node.latestQuaternion }
    have hvalid : (checkEnvelope latched).envelopeValid = true →
        (checkEnvelope latched).validateScenarioEnvelope = .ok () :=
      validateScenarioEnvelope_of_valid
    obtain ⟨valid, reason, hcheck⟩ := checkEnvelope_eq latched
    rw [← heq] at hvalid hcheck
    generalize (onValidateScenario node).1 = node' at hvalid hcheck ⊢
    refine ⟨?_, ?_, ?_, fun _ hv => ⟨_, List.find?_cons_of_pos rfl, List.find?_cons_of_pos hv,
      hvalid hv, ?_, rfl⟩⟩
    all_goals rw [hcheck]
    · exact h.initial
    · exact fun _ => hlatest
    · exact fun _ => ⟨h.initial hlatest, rfl⟩

theorem approvalInvariant_tick (h : ApprovalInvariant tr node) (nowNs : ℤ)
    (output : TrajectoryOutput α) :
    ApprovalInvariant (⟨node, .tick nowNs, output, (trajectoryTick node nowNs).1⟩ :: tr)
      (trajectoryTick node nowNs).1 := by
  have hsame := sameScenario_trajectoryTick (fun htracking => (h.checked (h.latched htracking)).2)
    nowNs
  refine h.same hsame rfl fun hsome => ?_
  simp [approves, (h.checked hsome).2]

/-- Every callback keeps the invariant. -/
theorem approvalInvariant_callback (h : ApprovalInvariant tr node) (input : TrajectoryInput α) :
    ApprovalInvariant
      (⟨node, input, (trajectoryCallback node input).2, (trajectoryCallback node input).1⟩ :: tr)
      (trajectoryCallback node input).1 := by
  cases input with
  | bodyPose msg =>
    have hkeeps := keepsScenario_onBodyPose node msg
    refine h.keep rfl (congrArg (·.2) hkeeps.scenario) (fun _ => rfl) hkeeps.envelopeValid ?_ ?_ ?_
    · rcases hkeeps.initial with hsome | ⟨hinitial, hlatest⟩
      · exact fun _ => hsome
      · exact fun hsome => hinitial ▸ h.initial (hlatest ▸ hsome)
    · exact fun htracking => h.latched (hkeeps.trackingStarted ▸ htracking)
    · intro hsome
      obtain ⟨hinitial, hchecked⟩ := h.checked hsome
      refine ⟨?_, (hkeeps.checked hinitial).trans hchecked⟩
      rcases hkeeps.initial with hsome | ⟨hsame, -⟩
      · exact hsome
      · exact hsame.symm ▸ hinitial
  | imu msg => exact h.same (sameScenario_onImu node msg) rfl fun _ => rfl
  | manualCommand msg nowNs =>
    exact h.same (sameScenario_onManualCommand node msg nowNs) rfl fun _ => rfl
  | operatorTargetInput msg nowNs =>
    have hsame : SameScenario node (onOperatorTargetInput node msg nowNs) :=
      ⟨rfl, rfl, rfl, rfl, rfl, rfl, rfl, rfl⟩
    exact h.same hsame rfl fun _ => rfl
  | reset nowNs => exact approvalInvariant_reset h nowNs _
  | stop nowNs => exact approvalInvariant_stop h nowNs _
  | validate => exact approvalInvariant_validate h _
  | setParameters config =>
    exact h.keep rfl rfl (fun _ => rfl) rfl h.initial h.latched h.checked
  | tick nowNs => exact approvalInvariant_tick h nowNs _

/-! ### Targets -/

/-- A target in the bounds of the pool is valid only if the envelope is. -/
theorem envelopeValid_of_scenarioTarget (hbounds : node.config.requirePoolBounds = true)
    (hchecked : node.envelopeChecked = true) {sample : TrajectorySample α}
    {attitude : AttitudeSample α} {phase : String}
    (h : (scenarioTarget node sample attitude phase).2.valid = true) :
    node.envelopeValid = true := by
  unfold scenarioTarget targetIsValid at h
  dsimp only at h
  rw [hbounds, hchecked] at h
  simp only [Bool.not_true, Bool.false_eq_true, if_false, if_true] at h
  split_ifs at h
  rw [Bool.and_eq_true] at h
  exact h.1

theorem envelopeValid_of_trackingTarget (hbounds : node.config.requirePoolBounds = true)
    (hchecked : node.envelopeChecked = true) {nowNs : ℤ}
    (h : (trackingTarget node nowNs).2.valid = true) : node.envelopeValid = true := by
  unfold trackingTarget at h
  dsimp only at h
  split_ifs at h
  · have hvalid : (altitudeHoldSample node nowNs).1.envelopeValid = true :=
      envelopeValid_of_scenarioTarget hbounds hchecked h
    exact hvalid
  · have hvalid : (stationHoldTarget node nowNs).1.envelopeValid = true :=
      envelopeValid_of_scenarioTarget hbounds hchecked h
    exact hvalid
  · exact envelopeValid_of_scenarioTarget hbounds hchecked h
  · exact envelopeValid_of_scenarioTarget hbounds hchecked h
  · exact envelopeValid_of_scenarioTarget hbounds hchecked h

/-- A tick that publishes a valid target that is not idle tracks a scenario. -/
theorem tracking_of_publishesValid
    (hstep : trajectoryCallback x.pre x.input = (x.post, x.output))
    (h : publishesValid x = true) :
    ∃ nowNs, x.input = .tick nowNs ∧ x.pre.trackingStarted = true ∧
      (trackingTarget x.pre nowNs).2.valid = true := by
  obtain ⟨pre, input, output, post⟩ := x
  unfold publishesValid at h
  dsimp only at hstep h ⊢
  cases input with
  | tick nowNs =>
    refine ⟨nowNs, rfl, ?_⟩
    have htarget : output.target = some (trajectoryTick pre nowNs).2 := by
      rw [← (Prod.mk.inj hstep).2]
      rfl
    rw [htarget, Option.any_some, Bool.and_eq_true] at h
    unfold trajectoryTick at h
    dsimp only at h
    split_ifs at h with htracking
    · have hvalid : ((trackingTarget pre nowNs).2.valid && controlModeIsCompatible
          pre.config.activeType pre.config.activeMode) = true := h.1
      rw [Bool.and_eq_true] at hvalid
      exact ⟨htracking, hvalid.1⟩
    · exact absurd h.2 (by simp [TickTarget.message, idleTarget])
  | _ =>
    have htarget : output.target = none := by
      rw [← (Prod.mk.inj hstep).2]
    rw [htarget] at h
    exact absurd h Bool.false_ne_true

/-! ### Runs -/

variable {config : TrajectoryConfig α} {startedNs : ℤ}

theorem approvalInvariant_init : ApprovalInvariant [] { config, startedNs } where
  initial h := absurd h Bool.false_ne_true
  latched h := absurd h Bool.false_ne_true
  checked h := absurd h Bool.false_ne_true
  approved h := absurd h Bool.false_ne_true

theorem approvalInvariant_of_run (hrun : (trajectoryMachine config startedNs).Run tr node) :
    ApprovalInvariant tr node := by
  refine hrun.invariant (I := ApprovalInvariant) approvalInvariant_init ?_
  rintro tr s input s' output - hinv hstep
  obtain ⟨rfl, rfl⟩ := Prod.mk.inj (Option.some.inj hstep)
  exact approvalInvariant_callback hinv input

variable {s : TrajectoryNode α}

/-- A valid target owes its approval to the last Validate request. -/
theorem lastApproval_of_publishes (hrun : (trajectoryMachine config startedNs).Run (x :: tr) s)
    (hbounds : x.pre.config.requirePoolBounds = true) (hpublishes : publishesValid x = true) :
    s.scenario = x.pre.scenario ∧ ∃ y, tr.find? isValidate = some y ∧
      (x :: tr).find? approves = some y ∧ y.post.validateScenarioEnvelope = .ok () ∧
        y.post.config = y.pre.config ∧ y.post.scenario.2 = x.pre.scenario.2 := by
  have hstep := Option.some.inj hrun.head_step
  obtain ⟨nowNs, hinput, htracking, hvalid⟩ := tracking_of_publishesValid hstep hpublishes
  have hinv := approvalInvariant_of_run hrun.tail
  have hlatched := hinv.latched htracking
  have hchecked := (hinv.checked hlatched).2
  obtain ⟨y, hlast, happroves, henvelope, hconfig, hstart⟩ :=
    hinv.approved hlatched (envelopeValid_of_trackingTarget hbounds hchecked hvalid)
  refine ⟨?_, y, hlast, ?_, henvelope, hconfig, hstart⟩
  · rw [← hrun.head_post]
    rw [hinput] at hstep
    rw [← (Prod.mk.inj hstep).1]
    exact (sameScenario_trajectoryTick (fun _ => hchecked) nowNs).scenario
  · -- the tick approves nothing
    have hnone : approves x = false := by
      unfold approves
      rw [hinput, hchecked]
      rfl
    rwa [List.find?_cons_of_neg (by simp [hnone])]

theorem settled_of_approved (hrun : (trajectoryMachine config startedNs).Run (x :: tr) s)
    (hbounds : x.pre.config.requirePoolBounds = true) (hpublishes : publishesValid x = true)
    (happroved : Approved (x :: tr) s) : ParametersValidated tr x.pre := by
  obtain ⟨hsame, y, hlast, happroves, -, hconfig, -⟩ :=
    lastApproval_of_publishes hrun hbounds hpublishes
  obtain ⟨y', hy', -, hscenario⟩ := happroved
  obtain rfl : y = y' := Option.some.inj (happroves.symm.trans hy')
  exact ⟨y, hlast, hconfig.symm.trans (congrArg (·.1) (hscenario.trans hsame))⟩

theorem approved_of_settled (hrun : (trajectoryMachine config startedNs).Run (x :: tr) s)
    (hbounds : x.pre.config.requirePoolBounds = true) (hpublishes : publishesValid x = true)
    (hsettled : ParametersValidated tr x.pre) : Approved (x :: tr) s := by
  obtain ⟨hsame, y, hlast, happroves, henvelope, hconfig, hstart⟩ :=
    lastApproval_of_publishes hrun hbounds hpublishes
  obtain ⟨y', hy', hsettled⟩ := hsettled
  obtain rfl : y = y' := Option.some.inj (hlast.symm.trans hy')
  refine ⟨y, happroves, henvelope, ?_⟩
  rw [hsame]
  exact Prod.ext (hconfig.trans hsettled) hstart

/-- **Approved scenarios.**  A valid target of a node that requires the bounds of the pool belongs
to the scenario that was approved last if and only if the parameters are still those of the last
Validate request. -/
theorem approved_iff_settled (hrun : (trajectoryMachine config startedNs).Run (x :: tr) s)
    (hbounds : x.pre.config.requirePoolBounds = true) (hpublishes : publishesValid x = true) :
    Approved (x :: tr) s ↔ ParametersValidated tr x.pre :=
  ⟨settled_of_approved hrun hbounds hpublishes, approved_of_settled hrun hbounds hpublishes⟩

/-! ### A hold at another height -/

section Hold

open Ieee

/-- The functions of a mathematical library at rest: at zero and, the square root and the cosine, at
one. -/
def restingLibrary : MathLibrary binary64 where
  pi := Number.ofRat binary64 (884279719003555 / 281474976710656)
  sqrt x := x
  sin _ := 0
  cos _ := Number.ofRat binary64 1
  asin _ := 0
  acos _ := 0
  atan2 _ _ := 0

local instance restingScalar : Scalar Binary64 := scalar restingLibrary

/-- A number of the sample inputs. -/
def double (q : ℚ) : Binary64 := Number.ofRat binary64 q

/-- A station hold in a box of one metre. -/
def holdConfig : TrajectoryConfig Binary64 where
  trajectoryType := "hold"
  controlMode := "station_hold"
  attitudeMode := "level_heading"
  relativeToInitialPose := false
  publishRateHz := double 10
  centerX := double 0
  centerY := double 0
  centerZ := double (1 / 2)
  ampX := double (3 / 2)
  ampY := double (3 / 4)
  ampZ := double (2 / 5)
  radiusM := double 1
  trajectorySpeedMps := double (1 / 10)
  trajectoryRampS := double 0
  holdBeforeMotionS := double 0
  moveDurationS := double 18
  requirePoolBounds := true
  poolMinXyz := [double 0, double 0, double 0]
  poolMaxXyz := [double 1, double 1, double 1]
  trajectoryLimitsConfigured := true
  maxLinearSpeedMps := double 1
  maxAngularSpeedRps := double 1
  attitudeMinRpyDeg := [double (-90), double (-90), double (-90)]
  attitudeMaxRpyDeg := [double 90, double 90, double 90]
  manualVerticalSpeedMps := double (1 / 5)
  manualInputAgeS := double (3 / 20)
  stationLinearInputGainMps := double (3 / 10)
  stationLateralInputGainMps := double (1 / 5)
  stationYawInputGainRps := double (3 / 5)

def level : Quat Binary64 := ⟨double 1, double 0, double 0, double 0⟩

/-- A pose is measured and the scenario validated. -/
def validatedInputs : List (TrajectoryInput Binary64) :=
  [.bodyPose ⟨true, true, ⟨double (1 / 2), double (1 / 2), double (1 / 2)⟩, level⟩,
    .imu ⟨"base_link", double 0, level, ⟨double 0, double 0, double 0⟩⟩, .validate]

theorem approved_iff_settled_validatedInputs :
    ∃ x tr s, (trajectoryMachine holdConfig 0).Run (x :: tr) s ∧
      x.pre.config.requirePoolBounds = true ∧ publishesValid x = true ∧
        (Approved (x :: tr) s ↔ ParametersValidated tr x.pre) := by
  obtain ⟨x, tr, s, hrun, hx⟩ := run_of_execCheck (trajectoryMachine holdConfig 0)
    (validatedInputs ++ [.reset 0, .tick 0])
    (fun x _ => x.pre.config.requirePoolBounds && publishesValid x) (by decide +kernel)
  rw [Bool.and_eq_true] at hx
  exact ⟨x, tr, s, hrun, hx.1, hx.2, approved_iff_settled hrun hx.1 hx.2⟩

/-- The same hold a little higher. -/
def raisedConfig : TrajectoryConfig Binary64 := { holdConfig with centerZ := double (3 / 5) }

/-- The height of the last Validate request is not that of the parameters. -/
def raisedSince (x : TrajectoryTransition Binary64) (tr : TrajectoryHistory Binary64) : Bool :=
  match tr.find? isValidate with
  | some y => decide (y.pre.config.centerZ ≠ x.pre.config.centerZ)
  | none => true

/-- A hold that is validated at one height is tracked at another. -/
theorem unapproved_target :
    ∃ x tr s, (trajectoryMachine holdConfig 0).Run (x :: tr) s ∧
      x.pre.config.requirePoolBounds = true ∧ publishesValid x = true ∧
        ¬ Approved (x :: tr) s := by
  obtain ⟨x, tr, s, hrun, hx⟩ := run_of_execCheck (trajectoryMachine holdConfig 0)
    (validatedInputs ++ [.setParameters raisedConfig, .reset 0, .tick 0])
    (fun x tr => x.pre.config.requirePoolBounds && publishesValid x && raisedSince x tr)
    (by decide +kernel)
  rw [Bool.and_eq_true, Bool.and_eq_true] at hx
  obtain ⟨⟨hbounds, hpublishes⟩, hraised⟩ := hx
  refine ⟨x, tr, s, hrun, hbounds, hpublishes, fun happroved => ?_⟩
  obtain ⟨y, hy, hconfig⟩ := settled_of_approved hrun hbounds hpublishes happroved
  unfold raisedSince at hraised
  rw [hy] at hraised
  exact of_decide_eq_true hraised (congrArg (·.centerZ) hconfig)

end Hold

end RobotCore
