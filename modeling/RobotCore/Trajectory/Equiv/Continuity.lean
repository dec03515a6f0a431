import RobotCore.Trajectory.Equiv.Motion
import RobotCore.Trajectory.Equiv.Start
import RobotCore.Lib.Numeral

/-!
# The target of a whole scenario

After a Start request the ticks publish one function of the time, the `scenarioSample` of the node
that was started, until something starts, stops or changes a scenario (`SamePlan`).  Approach and
path join at rest, so that the target moves continuously (`scenario_motion`).
-/

namespace RobotCore

open Scalar Machine

/-! ### One scenario -/

/-- The target of an automatic path at a time since the start. -/
def TrajectoryNode.scenarioSample {α : Type} [Scalar α] (node : TrajectoryNode α) (timeS : α) :
    TrajectorySample α :=
  if lt timeS node.config.holdS then node.sampleApproach (pyMin timeS node.config.moveS)
  else node.samplePath node.config.activeType (pyMax (ofRat 0) (timeS - node.config.holdS))

/-- The automatic paths in the plane. -/
def planarTypes : List String := ["circle", "racetrack", "straight_line"]

attribute [local instance] realScalar

section Scenario

variable {config : TrajectoryConfig ℝ} {trajectoryType : String}

theorem trajectoryKinematics_planar (config : TrajectoryConfig ℝ)
    (h : trajectoryType ∈ planarTypes) :
    trajectoryKinematics config trajectoryType = circleKinematics config ∨
      trajectoryKinematics config trajectoryType = racetrackKinematics config ∨
      trajectoryKinematics config trajectoryType = straightLineKinematics config := by
  simp only [planarTypes, List.mem_cons, List.not_mem_nil, or_false] at h
  rcases h with rfl | rfl | rfl
  · exact Or.inl rfl
  · exact Or.inr (Or.inl rfl)
  · exact Or.inr (Or.inr rfl)

theorem isVecMotion_trajectory (h : trajectoryType ∈ planarTypes)
    (hramp : 0 < config.trajectoryRampS) :
    IsVecMotion (fun t => (trajectoryKinematics config trajectoryType t).offset)
      fun t => (trajectoryKinematics config trajectoryType t).velocity := by
  rcases trajectoryKinematics_planar config h with h | h | h
  · rw [h]
    exact isVecMotion_circle config hramp
  · rw [h]
    exact isVecMotion_racetrack config hramp
  · rw [h]
    exact isVecMotion_straightLine config hramp

theorem phaseRate_zero (hramp : 0 < config.trajectoryRampS) (distance : ℝ) :
    (phaseKinematics config 0 distance).rate = 0 := by
  have hrate : (rampedTimeKinematics config 0).rate = 0 := by
    rw [(rampedTime_eq config 0).2, if_pos ⟨lt_max_of_lt_right hramp, lt_max_of_lt_right hramp⟩]
    simp
  simp only [phaseKinematics]
  split_ifs
  · exact Rat.cast_zero
  · rw [hrate, mul_zero, zero_div]

/-- A path starts at rest. -/
theorem trajectory_rest (h : trajectoryType ∈ planarTypes) (hramp : 0 < config.trajectoryRampS)
    (axis : Vec.Axis) :
    (trajectoryKinematics config trajectoryType 0).velocity.component axis = 0 := by
  rcases trajectoryKinematics_planar config h with h | h | h
  · rw [h, show (circleKinematics config 0).velocity = Vec.scale (phaseKinematics config 0
      (circleRadius config)).rate _ from rfl, component_scale, phaseRate_zero hramp, zero_mul]
  · rw [h, racetrack_velocity, component_scale, phaseRate_zero hramp, zero_mul]
  · rw [h, show (straightLineKinematics config 0).velocity = Vec.scale (phaseKinematics config 0
      (halfLength config)).rate _ from rfl, component_scale, phaseRate_zero hramp, zero_mul]

theorem trajectory_speed (config : TrajectoryConfig ℝ) (trajectoryType : String) (t : ℝ) :
    (trajectoryKinematics config trajectoryType t).velocity.norm ≤ pathSpeed config := by
  unfold trajectoryKinematics
  split_ifs
  · exact spatialLissajous_speed config t
  · exact circle_speed config t
  · exact racetrack_speed config t
  · exact straightLine_speed config t
  · exact norm_zero.trans_le (pathSpeed_nonneg config)

end Scenario

section Join

variable {node : TrajectoryNode ℝ}

theorem approachFraction_of_ge {t : ℝ} (h : node.config.moveS ≤ t) :
    node.approachFraction t = 1 := by
  have hone : 1 ≤ t / node.config.moveS := (one_le_div (moveS_pos node)).mpr h
  rw [TrajectoryNode.approachFraction, max_eq_left (zero_le_one.trans hone), min_eq_right hone]

/-- The approach is over after its duration. -/
theorem sampleApproach_min (t : ℝ) :
    (node.sampleApproach (min t node.config.moveS)).position = (node.sampleApproach t).position ∧
      (node.sampleApproach (min t node.config.moveS)).velocity =
      (node.sampleApproach t).velocity := by
  have hfraction : node.approachFraction (min t node.config.moveS) = node.approachFraction t := by
    rcases le_total t node.config.moveS with hle | hge
    · rw [min_eq_left hle]
    · rw [min_eq_right hge, approachFraction_of_ge le_rfl, approachFraction_of_ge hge]
  simp only [sampleApproach_eq, hfraction, and_self]

theorem samplePath_eq (h : isAutomatic node.config.activeType = true) (t : ℝ) :
    node.samplePath node.config.activeType t =
      let path := trajectoryKinematics node.config node.config.activeType t
      ⟨node.origin + path.offset, path.velocity, path.acceleration⟩ := if_pos h

theorem isAutomatic_of_planar {trajectoryType : String} (h : trajectoryType ∈ planarTypes) :
    isAutomatic trajectoryType = true := by
  simp only [planarTypes, List.mem_cons, List.not_mem_nil, or_false] at h
  rcases h with rfl | rfl | rfl <;> rfl

theorem scenarioSample_before {t : ℝ} (h : t < node.config.holdS) :
    (node.scenarioSample t).position = (node.sampleApproach t).position ∧
      (node.scenarioSample t).velocity = (node.sampleApproach t).velocity := by
  rw [TrajectoryNode.scenarioSample, lt_real, if_pos (decide_eq_true h), pyMin_real]
  exact sampleApproach_min t

theorem scenarioSample_after {t : ℝ} (h : node.config.holdS ≤ t) :
    node.scenarioSample t =
      node.samplePath node.config.activeType (t - node.config.holdS) := by
  rw [TrajectoryNode.scenarioSample, lt_real, if_neg (by simpa using h), pyMax_real, ofRat_real,
    Rat.cast_zero, max_eq_right (sub_nonneg.mpr h)]

/-- Approach and path join at rest. -/
theorem isVecMotion_scenario (htype : node.config.activeType ∈ planarTypes)
    (hmove : node.config.moveS ≤ node.config.holdS) (hramp : 0 < node.config.trajectoryRampS) :
    IsVecMotion (fun t => (node.scenarioSample t).position)
      fun t => (node.scenarioSample t).velocity := by
  intro axis
  set hold := node.config.holdS with hhold
  have hautomatic := isAutomatic_of_planar htype
  have hpath := samplePath_eq hautomatic
  have hlater : IsMotion (fun t => t - hold) fun _ => 1 :=
    (IsMotion.time.const_add (-hold)).congr (fun t => by ring) fun _ => rfl
  have htracking := ((isVecMotion_trajectory htype hramp axis).comp hlater).const_add
    (node.origin.component axis)
  have happroach := isVecMotion_approach node axis
  refine (happroach.ite (a := hold) htracking ?_ ?_).congr (fun t => ?_) fun t => ?_
  · have hgoal : node.approachGoal.component axis = node.origin.component axis +
        (trajectoryKinematics node.config node.config.activeType 0).offset.component axis := by
      rw [TrajectoryNode.approachGoal, hpath, ofRat_real, Rat.cast_zero]
      exact component_add _ _ axis
    dsimp only
    rw [(sampleApproach_eq node hold).1, approachFraction_of_ge hmove, component_add,
      component_scale, component_sub, quinticBlend_real, sub_self, ← hgoal]
    ring
  · dsimp only
    rw [(sampleApproach_eq node hold).2, approachFraction_of_ge hmove, component_scale, sub_self,
      trajectory_rest htype hramp axis, quinticRate]
    ring
  · dsimp only
    rcases lt_or_ge t hold with hlt | hge
    · rw [if_pos hlt, (scenarioSample_before hlt).1]
    · rw [if_neg (not_lt.mpr hge), scenarioSample_after hge, hpath]
      exact component_add _ _ axis
  · dsimp only
    rcases lt_or_ge t hold with hlt | hge
    · rw [if_pos hlt, (scenarioSample_before hlt).2]
    · rw [if_neg (not_lt.mpr hge), scenarioSample_after hge, hpath, mul_one]

end Join

/-! ### Runs -/

section Plan

variable {α : Type} [Scalar α] {node node' node'' : TrajectoryNode α}

/-- The members that decide where the target is at a time are the same. -/
structure SamePlan (node node' : TrajectoryNode α) : Prop where
  config : node'.config = node.config
  startedNs : node'.startedNs = node.startedNs
  trackingStarted : node'.trackingStarted = node.trackingStarted
  motionStartPosition : node'.motionStartPosition = node.motionStartPosition

omit [Scalar α] in
theorem SamePlan.refl (node : TrajectoryNode α) : SamePlan node node := ⟨rfl, rfl, rfl, rfl⟩

omit [Scalar α] in
theorem SamePlan.trans (h : SamePlan node node') (h' : SamePlan node' node'') :
    SamePlan node node'' where
  config := h'.config.trans h.config
  startedNs := h'.startedNs.trans h.startedNs
  trackingStarted := h'.trackingStarted.trans h.trackingStarted
  motionStartPosition := h'.motionStartPosition.trans h.motionStartPosition

/-- Inputs that neither start nor stop a scenario, nor change it. -/
def TrajectoryInput.keepsPlan : TrajectoryInput α → Bool
  | .reset _ | .stop _ | .validate | .setParameters _ => false
  | _ => true

theorem samePlan_scenarioTarget (sample : TrajectorySample α) (attitude : AttitudeSample α)
    (phase : String) : SamePlan node (scenarioTarget node sample attitude phase).1 := by
  unfold scenarioTarget targetIsValid
  dsimp only
  split_ifs
  · exact .refl node
  · exact .refl node
  · exact .refl node
  · obtain ⟨valid, reason, heq⟩ := checkEnvelope_eq node
    rw [heq]
    exact ⟨rfl, rfl, rfl, rfl⟩

theorem samePlan_trackingTarget (nowNs : ℤ) : SamePlan node (trackingTarget node nowNs).1 := by
  have haltitude : SamePlan node (altitudeHoldSample node nowNs).1 := ⟨rfl, rfl, rfl, rfl⟩
  have hstation : SamePlan node (stationHoldTarget node nowNs).1 := ⟨rfl, rfl, rfl, rfl⟩
  unfold trackingTarget
  dsimp only
  split_ifs
  · exact haltitude.trans (samePlan_scenarioTarget _ _ _)
  · exact hstation.trans (samePlan_scenarioTarget _ _ _)
  · exact samePlan_scenarioTarget _ _ _
  · exact samePlan_scenarioTarget _ _ _
  · exact samePlan_scenarioTarget _ _ _
  · exact .refl node

theorem samePlan_callback {input : TrajectoryInput α} (h : input.keepsPlan = true) :
    SamePlan node (trajectoryCallback node input).1 := by
  cases input with
  | bodyPose msg =>
    change SamePlan node (onBodyPose node msg)
    unfold onBodyPose
    dsimp only
    split_ifs <;> exact ⟨rfl, rfl, rfl, rfl⟩
  | imu msg =>
    change SamePlan node (onImu node msg)
    unfold onImu
    dsimp only
    split
    · exact .refl node
    · split_ifs <;> exact ⟨rfl, rfl, rfl, rfl⟩
  | manualCommand msg nowNs =>
    change SamePlan node (onManualCommand node msg nowNs)
    unfold onManualCommand
    split_ifs <;> exact ⟨rfl, rfl, rfl, rfl⟩
  | operatorTargetInput msg nowNs => exact ⟨rfl, rfl, rfl, rfl⟩
  | reset nowNs => cases h
  | stop nowNs => cases h
  | validate => cases h
  | setParameters config => cases h
  | tick nowNs =>
    change SamePlan node (trajectoryTick node nowNs).1
    unfold trajectoryTick
    dsimp only
    split_ifs
    · exact samePlan_trackingTarget nowNs
    · exact .refl node

/-- A latched start decides the samples of a scenario. -/
theorem SamePlan.scenarioSample (h : SamePlan node node')
    (hlatched : node.motionStartPosition.isSome = true) :
    node'.scenarioSample = node.scenarioSample := by
  obtain ⟨start, hstart⟩ := Option.isSome_iff_exists.mp hlatched
  have hstart' := h.motionStartPosition.trans hstart
  have horigin : node'.origin = node.origin := by
    rw [TrajectoryNode.origin, TrajectoryNode.origin, h.config, hstart, hstart']
    rfl
  have hpath : node'.samplePath = node.samplePath := by
    funext trajectoryType t
    rw [TrajectoryNode.samplePath, TrajectoryNode.samplePath, horigin, h.config]
  have happroach : node'.sampleApproach = node.sampleApproach := by
    funext t
    have happroachStart : node'.approachStart = node.approachStart := by
      rw [TrajectoryNode.approachStart, TrajectoryNode.approachStart, hstart, hstart']
      rfl
    have hgoal : node'.approachGoal = node.approachGoal := by
      rw [TrajectoryNode.approachGoal, TrajectoryNode.approachGoal, hpath, h.config]
    rw [TrajectoryNode.sampleApproach, TrajectoryNode.sampleApproach, happroachStart, hgoal,
      h.config]
  funext t
  rw [TrajectoryNode.scenarioSample, TrajectoryNode.scenarioSample, hpath, happroach, h.config]

/-- A tick of a tracked automatic path publishes its sample. -/
theorem tick_scenarioSample (htracking : node.trackingStarted = true)
    (hautomatic : isAutomatic node.config.activeType = true) (nowNs : ℤ) :
    (trajectoryTick node nowNs).2.position = (node.scenarioSample (node.timeS nowNs)).position ∧
      (trajectoryTick node nowNs).2.velocity =
        (node.scenarioSample (node.timeS nowNs)).velocity ∧
      (trajectoryTick node nowNs).2.timeS = node.timeS nowNs := by
  have hsample : (trackingTarget node nowNs).2.sample = node.scenarioSample (node.timeS nowNs) := by
    unfold trackingTarget TrajectoryNode.scenarioSample
    dsimp only
    rw [ne_hold_of_automatic hautomatic, hautomatic]
    simp only [Bool.false_and, Bool.true_and, Bool.false_eq_true, if_false, if_true]
    split_ifs <;> rfl
  rw [← hsample, trajectoryTick, if_pos htracking]
  exact ⟨rfl, rfl, rfl⟩

variable {config : TrajectoryConfig α} {startedNs : ℤ} {s : TrajectoryNode α}
  {x : TrajectoryTransition α} {before after : TrajectoryHistory α}

/-- The plan of a Start request lasts while nothing starts, stops or changes a scenario. -/
theorem samePlan_of_run
    (hrun : (trajectoryMachine config startedNs).Run (after ++ x :: before) s)
    (hkeeps : ∀ y ∈ after, y.input.keepsPlan = true) : SamePlan x.post s := by
  induction after generalizing s with
  | nil =>
    rw [List.nil_append] at hrun
    rw [hrun.head_post]
    exact .refl s
  | cons y after ih =>
    have hprevious := ih hrun.tail fun z hz => hkeeps z (List.mem_cons_of_mem y hz)
    have hstep := Option.some.inj hrun.head_step
    rw [← hrun.head_post, ← (Prod.mk.inj hstep).1]
    exact hprevious.trans (samePlan_callback (hkeeps y List.mem_cons_self))

end Plan

/-! ### Motion of a scenario -/

section Speed

variable {node : TrajectoryNode ℝ} {start : Vec ℝ}

theorem approachStart_eq (h : node.motionStartPosition = some start) :
    node.approachStart = start := by
  rw [TrajectoryNode.approachStart, h]
  rfl

theorem moveS_eq (h : 1 / 10 ≤ node.config.moveDurationS) :
    node.config.moveS = node.config.moveDurationS := by
  rw [TrajectoryConfig.moveS, pyMax_real, ofRat_real]
  push_cast
  exact max_eq_right h

theorem holdS_eq (h : 0 ≤ node.config.holdBeforeMotionS) :
    node.config.holdS = node.config.holdBeforeMotionS := by
  rw [TrajectoryConfig.holdS, pyMax_real, ofRat_real, Rat.cast_zero]
  exact max_eq_right h

/-- The target is on the segment from the latched start to the start of the path. -/
theorem scenario_segment (hstart : node.motionStartPosition = some start) {t : ℝ}
    (ht : t < node.config.holdS) : ∃ b, 0 ≤ b ∧ b ≤ 1 ∧ (node.scenarioSample t).position =
      start + (node.approachGoal - start).scale b := by
  rw [(scenarioSample_before ht).1, ← approachStart_eq hstart]
  exact approach_segment node t

theorem scenario_approachSpeed (hstart : node.motionStartPosition = some start) {t : ℝ}
    (ht : t < node.config.holdS) : (node.scenarioSample t).velocity.norm ≤
      15 / 8 * (node.approachGoal - start).norm / node.config.moveS := by
  rw [(scenarioSample_before ht).2, ← approachStart_eq hstart]
  exact approach_speed node t

theorem scenario_trackingSpeed {t : ℝ} (ht : node.config.holdS ≤ t) :
    (node.scenarioSample t).velocity.norm ≤ |node.config.trajectorySpeedMps| := by
  rw [scenarioSample_after ht, TrajectoryNode.samplePath]
  split_ifs
  · exact trajectory_speed node.config _ _
  · exact norm_zero.trans_le (abs_nonneg _)

end Speed

section Run

variable {config : TrajectoryConfig ℝ} {startedNs : ℤ} {s : TrajectoryNode ℝ}
  {x : TrajectoryTransition ℝ} {before after : TrajectoryHistory ℝ}

theorem timeS_eq {node : TrajectoryNode ℝ} (h : node.trackingStarted = true) (nowNs : ℤ) :
    node.timeS nowNs = max 0 (((nowNs : ℝ) - node.startedNs) / 10 ^ 9) := by
  rw [TrajectoryNode.timeS, if_pos h, pyMax_real, ofRat_real, Rat.cast_zero, seconds, ofRat_real,
    ofRat_real]
  push_cast
  rw [mul_one_div]

/-- Every tick after a Start request publishes the sample of its time. -/
theorem published_of_run
    (hrun : (trajectoryMachine config startedNs).Run (after ++ x :: before) s)
    (hstarts : startsScenario x = true) (hkeeps : ∀ y ∈ after, y.input.keepsPlan = true)
    (hautomatic : isAutomatic x.post.config.activeType = true) (nowNs : ℤ) :
    let target := (trajectoryTick s nowNs).2
    target.timeS = max 0 (((nowNs : ℝ) - x.post.startedNs) / 10 ^ 9) ∧
      target.position = (x.post.scenarioSample target.timeS).position ∧
      target.velocity = (x.post.scenarioSample target.timeS).velocity := by
  obtain ⟨startNs, -, htracking, -, start, hlatched⟩ := started_of_startsScenario hrun.split hstarts
  have hplan := samePlan_of_run hrun hkeeps
  have hsample := hplan.scenarioSample (Option.isSome_iff_exists.mpr ⟨start, hlatched⟩)
  have htracking' : s.trackingStarted = true := hplan.trackingStarted.trans htracking
  obtain ⟨hposition, hvelocity, htime⟩ :=
    tick_scenarioSample htracking' (hplan.config.symm ▸ hautomatic) nowNs
  dsimp only
  rw [hposition, hvelocity, htime, hsample, timeS_eq htracking', hplan.startedNs]
  exact ⟨rfl, rfl, rfl⟩

/-- **Continuous targets.**  After a Start request every tick of an automatic path publishes the
position and the velocity of one motion: on the segment from the latched start to the start of the
path until the path starts, and from then on no faster than the speed of the parameters.  In the
plane the velocity is the continuous derivative of the position. -/
theorem scenario_motion
    (hrun : (trajectoryMachine config startedNs).Run (after ++ x :: before) s)
    (hstarts : startsScenario x = true) (hkeeps : ∀ y ∈ after, y.input.keepsPlan = true)
    (hautomatic : isAutomatic x.post.config.activeType = true)
    (hmove : 1 / 10 ≤ x.post.config.moveDurationS)
    (hhold : x.post.config.moveDurationS + 1 / 10 ≤ x.post.config.holdBeforeMotionS)
    (hramp : 0 < x.post.config.trajectoryRampS) :
    ∃ startNs start, x.input = .reset startNs ∧ x.post.motionStartPosition = some start ∧
      (∀ nowNs,
        let target := (trajectoryTick s nowNs).2
        target.timeS = max 0 (((nowNs : ℝ) - startNs) / 10 ^ 9) ∧
          target.position = (x.post.scenarioSample target.timeS).position ∧
          target.velocity = (x.post.scenarioSample target.timeS).velocity) ∧
      (x.post.config.activeType ∈ planarTypes →
        IsVecMotion (fun t => (x.post.scenarioSample t).position)
          fun t => (x.post.scenarioSample t).velocity) ∧
      (∀ t < x.post.config.holdBeforeMotionS,
        (∃ b, 0 ≤ b ∧ b ≤ 1 ∧ (x.post.scenarioSample t).position =
          start + (x.post.approachGoal - start).scale b) ∧
        (x.post.scenarioSample t).velocity.norm ≤
          15 / 8 * (x.post.approachGoal - start).norm / x.post.config.moveDurationS) ∧
      ∀ t ≥ x.post.config.holdBeforeMotionS,
        (x.post.scenarioSample t).velocity.norm ≤ |x.post.config.trajectorySpeedMps| := by
  obtain ⟨startNs, hinput, -, hstarted, start, hlatched⟩ :=
    started_of_startsScenario hrun.split hstarts
  have hholdS : x.post.config.holdS = x.post.config.holdBeforeMotionS := holdS_eq (by linarith)
  have hmoveS := moveS_eq hmove
  refine ⟨startNs, start, hinput, hlatched, ?_, fun hplanar => ?_, fun t ht => ?_, fun t ht => ?_⟩
  · rw [← hstarted]
    exact published_of_run hrun hstarts hkeeps hautomatic
  · refine isVecMotion_scenario hplanar ?_ hramp
    rw [hholdS, hmoveS]
    linarith
  · rw [← hholdS] at ht
    exact ⟨scenario_segment hlatched ht, hmoveS ▸ scenario_approachSpeed hlatched ht⟩
  · rw [← hholdS] at ht
    exact scenario_trackingSpeed ht

end Run

/-! ### A circle -/

section Circle

attribute [local instance] Numeral.atLeastTwo_two Numeral.atLeastTwo_three Numeral.atLeastTwo_four
  Numeral.atLeastTwo_ten

/-- A circle of one metre around the latched start, at some speed. -/
noncomputable def circleConfig (speed : ℝ) : TrajectoryConfig ℝ where
  trajectoryType := "circle"
  controlMode := "station_hold"
  attitudeMode := "level_heading"
  relativeToInitialPose := true
  publishRateHz := 10
  centerX := 0
  centerY := 0
  centerZ := 0
  ampX := 3 / 2
  ampY := 3 / 4
  ampZ := 2 / 5
  radiusM := 1
  trajectorySpeedMps := speed
  trajectoryRampS := 3
  holdBeforeMotionS := 20
  moveDurationS := 18
  requirePoolBounds := false
  poolMinXyz := [0, 0, 0]
  poolMaxXyz := [1, 1, 1]
  trajectoryLimitsConfigured := true
  maxLinearSpeedMps := 1
  maxAngularSpeedRps := 1
  attitudeMinRpyDeg := [-90, -90, -90]
  attitudeMaxRpyDeg := [90, 90, 90]
  manualVerticalSpeedMps := 1 / 5
  manualInputAgeS := 3 / 20
  stationLinearInputGainMps := 3 / 10
  stationLateralInputGainMps := 1 / 5
  stationYawInputGainRps := 3 / 5

theorem norm_identity : (Quat.identity : Quat ℝ).norm = 1 := by
  rw [Quat.norm, Quat.dot, Quat.identity]
  simp only [ofRat_real, Rat.cast_one, Rat.cast_zero]
  exact (congrArg Real.sqrt (by norm_num)).trans Real.sqrt_one

theorem smallNorm_lt : (smallNorm : ℝ) < 1 := by
  rw [smallNorm, ofRat_real]
  norm_num

end Circle

theorem activeType_circle (speed : ℝ) : (circleConfig speed).activeType = "circle" := by
  have hlower : "circle".toLower = "circle" := by decide +kernel
  exact hlower

theorem activeMode_circle (speed : ℝ) : (circleConfig speed).activeMode = "station_hold" := by
  have hlower : "station_hold".toLower = "station_hold" := by decide +kernel
  exact hlower

/-- A circle that is measured at the origin of the map, and started. -/
theorem circle_started (speed : ℝ) :
    ∃ x before s, (trajectoryMachine (circleConfig speed) 0).Run (x :: before) s ∧
      startsScenario x = true ∧ x.post.config = circleConfig speed := by
  let pose : BodyPose ℝ := ⟨true, true, Vec.zero, Quat.identity⟩
  let imu : ImuReading ℝ := ⟨"base_link", 0, Quat.identity, Vec.zero⟩
  have hcompatible : controlModeIsCompatible (circleConfig speed).activeType
      (circleConfig speed).activeMode = true := by
    rw [activeType_circle, activeMode_circle]
    rfl
  have hnorm : (isFinite pose.orientation.norm && lt smallNorm pose.orientation.norm) = true := by
    rw [norm_identity, lt_real, decide_eq_true smallNorm_lt]
    rfl
  have haccepted : imu.accepted = true := by
    rw [ImuReading.accepted, norm_identity, lt_real, le_real, ofRat_real, Rat.cast_zero,
      decide_eq_false (lt_irrefl (0 : ℝ)), decide_eq_false (not_le.mpr smallNorm_lt)]
    rfl
  obtain ⟨x, before, s, hrun, hstarted⟩ := exists_started hcompatible rfl rfl hnorm haccepted 0 0
  exact ⟨x, before, s, hrun, hstarted.starts, hstarted.config⟩

theorem circle_conditions (speed : ℝ) :
    isAutomatic (circleConfig speed).activeType = true ∧
      (circleConfig speed).activeType ∈ planarTypes ∧
      1 / 10 ≤ (circleConfig speed).moveDurationS ∧
      (circleConfig speed).moveDurationS + 1 / 10 ≤ (circleConfig speed).holdBeforeMotionS ∧
      0 < (circleConfig speed).trajectoryRampS := by
  refine ⟨?_, ?_, ?_, ?_, ?_⟩
  · rw [activeType_circle]
    rfl
  · rw [activeType_circle, planarTypes]
    exact List.mem_cons_self
  all_goals norm_num [circleConfig]

theorem scenario_motion_circle :
    ∃ x : TrajectoryTransition ℝ, ∃ startNs start, x.input = .reset startNs ∧
      x.post.motionStartPosition = some start ∧ x.post.config = circleConfig (1 / 10) ∧
      IsVecMotion (fun t => (x.post.scenarioSample t).position)
        (fun t => (x.post.scenarioSample t).velocity) ∧
      ∀ t ≥ x.post.config.holdBeforeMotionS,
        (x.post.scenarioSample t).velocity.norm ≤ |x.post.config.trajectorySpeedMps| := by
  obtain ⟨x, before, s, hrun, hstarts, hconfig⟩ := circle_started (1 / 10)
  obtain ⟨hautomatic, hplanar, hmove, hhold, hramp⟩ := circle_conditions (1 / 10)
  rw [← hconfig] at hautomatic hplanar hmove hhold hramp
  have hrun' : (trajectoryMachine (circleConfig (1 / 10)) 0).Run ([] ++ x :: before) s := hrun
  obtain ⟨startNs, start, hinput, hlatched, -, hmotion, -, hspeed⟩ :=
    scenario_motion hrun' hstarts (fun _ => nofun) hautomatic hmove hhold hramp
  exact ⟨x, startNs, start, hinput, hlatched, hconfig, hmotion hplanar, hspeed⟩

/-- A negative speed caps no speed. -/
theorem scenario_speed_negative : ∃ x before s,
    (trajectoryMachine (circleConfig (-1)) 0).Run (x :: before) s ∧
      startsScenario x = true ∧ x.post.config = circleConfig (-1) ∧
      x.post.config.activeType ∈ planarTypes ∧
      1 / 10 ≤ x.post.config.moveDurationS ∧
      x.post.config.moveDurationS + 1 / 10 ≤ x.post.config.holdBeforeMotionS ∧
      0 < x.post.config.trajectoryRampS ∧
      ∃ nowNs, x.post.config.holdBeforeMotionS ≤ (trajectoryTick s nowNs).2.timeS ∧
        ¬ (trajectoryTick s nowNs).2.velocity.norm ≤ x.post.config.trajectorySpeedMps := by
  obtain ⟨x, before, s, hrun, hstarts, hconfig⟩ := circle_started (-1)
  obtain ⟨hautomatic, hplanar, hmove, hhold, hramp⟩ := circle_conditions (-1)
  rw [← hconfig] at hautomatic hplanar hmove hhold hramp
  obtain ⟨startNs, hinput, htracking, hstarted, -⟩ := started_of_startsScenario hrun hstarts
  have hrun' : (trajectoryMachine (circleConfig (-1)) 0).Run ([] ++ x :: before) s := hrun
  obtain ⟨htime, -⟩ := published_of_run hrun' hstarts (fun _ => nofun) hautomatic
    (x.post.startedNs + 30 * 10 ^ 9)
  refine ⟨x, before, s, hrun, hstarts, hconfig, hplanar, hmove, hhold, hramp,
    x.post.startedNs + 30 * 10 ^ 9, ?_, ?_⟩
  · rw [htime, hconfig]
    refine le_max_of_le_right ?_
    push_cast
    norm_num [circleConfig]
  · rw [hconfig, not_le]
    exact neg_one_lt_zero.trans_le (Real.sqrt_nonneg _)

end RobotCore
