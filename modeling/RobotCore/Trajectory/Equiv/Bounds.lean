import RobotCore.Trajectory.Equiv.Continuity
import RobotCore.Trajectory.Equiv.Extent

/-!
# Targets inside the limits

What `validate_scenario_envelope` has checked when it returns True (`validated_of_ok`), and what
follows for the targets of every tick (`target_inside_of_approved`).  The start and the goal of the
approach are among the samples, so that the segment between them is in the box.  At the sampled
instants of a lap the path is in the box and its speeds are within their limits; between them a
planar path is as near to the box as its speed lets it leave.  The peak speed of the approach, the
speed and the extent of the path and the gains of a station hold are not sampled (`withinLimits`).
-/

namespace RobotCore

open Scalar Machine

attribute [local instance] realScalar

/-! ### What the validation checks -/

/-- The duration of the lap that is sampled. -/
def TrajectoryConfig.lapDuration {α : Type} [Scalar α] (config : TrajectoryConfig α) : α :=
  pyMax (config.pathDuration config.activeType + rampS config) (config.moveDurationS + ofRat 1)

/-- The sampled instants of a lap. -/
def TrajectoryConfig.lapSamples {α : Type} [Scalar α] (config : TrajectoryConfig α) : List α :=
  linspace config.lapDuration 360

/-- What the validation of a path knows of a sampled instant. -/
structure SampleOk (node : TrajectoryNode ℝ) (lower upper : Vec ℝ) (t : ℝ) : Prop where
  position : (node.samplePath node.config.activeType t).position.inBox lower upper = true
  speed : (node.samplePath node.config.activeType t).velocity.norm ≤ node.config.maxLinearSpeedMps
  angularSpeed : (angularVelocityAt (node.pathAttitude node.config.activeType) t
    node.config.attitudeStep).norm ≤ node.config.maxAngularSpeedRps

/-- What the validation of a station hold knows of its start. -/
def StationOk (node : TrajectoryNode ℝ) (lower upper : Vec ℝ) : Prop :=
  ∃ point, node.motionStartPosition = some point ∧ point.inBox lower upper = true ∧
    (node.config.activeMode = "station_hold" →
      { point with z := node.config.centerZ }.inBox lower upper = true)

/-- What is known of a scenario on which `validate_scenario_envelope` returns True. -/
structure Validated (node : TrajectoryNode ℝ) (lower upper : Vec ℝ) : Prop where
  box : node.config.poolBox? = some (lower, upper)
  speed : 0 < node.config.maxLinearSpeedMps
  latched : isManaged node.config.activeType = true → ∃ start, node.motionStartPosition = some start
  vertical : node.config.activeType = "hold" → node.config.activeMode = "altitude_hold" →
    |node.config.manualVerticalSpeedMps| ≤ node.config.maxLinearSpeedMps
  station : node.config.activeType = "hold" → isStation node.config.activeMode = true →
    StationOk node lower upper
  alignment : isAutomatic node.config.activeType = true → node.config.moveS ≤ node.config.holdS
  start : isAutomatic node.config.activeType = true →
    node.approachStart.inBox lower upper = true
  goal : isAutomatic node.config.activeType = true → node.approachGoal.inBox lower upper = true
  sampled : isAutomatic node.config.activeType = true →
    ∀ t ∈ node.config.lapSamples, SampleOk node lower upper t

section Validation

variable {node : TrajectoryNode ℝ} {limits : EnvelopeLimits ℝ}

theorem envelopeLimits?_eq_some {config : TrajectoryConfig ℝ}
    (h : config.envelopeLimits? = some limits) :
    config.poolBox? = some (limits.minimum, limits.maximum) ∧
      limits.maximumLinearSpeed = config.maxLinearSpeedMps ∧
      limits.maximumAngularSpeed = config.maxAngularSpeedRps ∧ 0 < config.maxLinearSpeedMps := by
  unfold TrajectoryConfig.envelopeLimits? at h
  cases hbox : config.poolBox? with
  | none => simp [hbox] at h
  | some corners =>
    obtain ⟨attitude, hattitude, h⟩ : ∃ attitude, box? (config.attitudeMinRpyDeg.map radians)
        (config.attitudeMaxRpyDeg.map radians) = some attitude ∧ _ := by
      simpa only [hbox, Option.bind_eq_bind, Option.bind_some, Option.bind_eq_some_iff] using h
    split_ifs at h with hlimits
    obtain rfl := Option.some.inj h
    simp only [Bool.or_eq_true, le_real, decide_eq_true_eq, not_or, not_le, ofRat_real,
      Rat.cast_zero] at hlimits
    exact ⟨rfl, rfl, rfl, hlimits.1.2⟩

theorem inBox_iff {point lower upper : Vec ℝ} : point.inBox lower upper = true ↔
    ∀ axis, lower.component axis ≤ point.component axis ∧
      point.component axis ≤ upper.component axis := by
  simp only [Vec.inBox, Vec.all₂, le_real, Bool.and_eq_true, decide_eq_true_eq]
  constructor
  · rintro ⟨⟨⟨hx, hy⟩, hz⟩, ⟨hx', hy'⟩, hz'⟩ axis
    cases axis with
    | x => exact ⟨hx, hx'⟩
    | y => exact ⟨hy, hy'⟩
    | z => exact ⟨hz, hz'⟩
  · intro h
    exact ⟨⟨⟨(h .x).1, (h .y).1⟩, (h .z).1⟩, ⟨(h .x).2, (h .y).2⟩, (h .z).2⟩

/-- A point is in a box when it is not outside. -/
theorem inBox_of_not_outside {point lower upper : Vec ℝ} (h : point.outside lower upper = false) :
    point.inBox lower upper = true := by
  simp only [Vec.outside, Vec.any₂, lt_real, Bool.or_eq_false_iff, decide_eq_false_iff_not,
    not_lt] at h
  simp only [Vec.inBox, Vec.all₂, le_real, Bool.and_eq_true, decide_eq_true_eq]
  exact ⟨⟨⟨h.1.1.1, h.1.1.2⟩, h.1.2⟩, ⟨h.2.1.1, h.2.1.2⟩, h.2.2⟩

theorem mem_linspace_zero (stop : ℝ) (n : ℕ) (hn : n ≠ 0) : 0 ∈ linspace stop n := by
  refine List.mem_map.mpr ⟨0, by simp, ?_⟩
  rw [if_neg hn.symm, ofRat_real]
  simp

theorem mem_linspace_stop (stop : ℝ) (n : ℕ) : stop ∈ linspace stop n :=
  List.mem_map.mpr ⟨n, by simp, if_pos rfl⟩

theorem approachFraction_zero : node.approachFraction 0 = 0 := by
  rw [TrajectoryNode.approachFraction, zero_div, max_self, min_eq_left zero_le_one]

theorem sampleApproach_zero : (node.sampleApproach 0).position = node.approachStart := by
  have hblend : quinticBlend (0 : ℝ) = 0 := by
    rw [quinticBlend_real]
    norm_num
  rw [(sampleApproach_eq node 0).1, approachFraction_zero, hblend]
  refine Vec.ext ?_ ?_ ?_ <;> exact (congrArg _ (zero_mul _)).trans (add_zero _)

theorem sampleApproach_end :
    (node.sampleApproach node.config.moveS).position = node.approachGoal := by
  have hblend : quinticBlend (1 : ℝ) = 1 := by
    rw [quinticBlend_real]
    norm_num
  rw [(sampleApproach_eq node _).1, approachFraction_of_ge le_rfl, hblend]
  refine Vec.ext ?_ ?_ ?_ <;> exact (congrArg _ (one_mul _)).trans (add_sub_cancel _ _)

/-- A sampled instant of the approach is in the box. -/
theorem inBox_of_not_preludeExcluded {t : ℝ} (h : node.preludeExcluded limits t = false) :
    (node.sampleApproach (clip t 0 node.config.moveS)).position.inBox limits.minimum
      limits.maximum = true := by
  unfold TrajectoryNode.preludeExcluded EnvelopeLimits.excludesSample at h
  simp only [Bool.or_eq_false_iff] at h
  rw [ofRat_real, Rat.cast_zero] at h
  exact inBox_of_not_outside h.1.1.1

theorem prelude_of_ok (h : node.preludeEnvelope limits = .ok ()) :
    node.config.moveS ≤ node.config.holdS ∧
      node.approachStart.inBox limits.minimum limits.maximum = true ∧
      node.approachGoal.inBox limits.minimum limits.maximum = true := by
  unfold TrajectoryNode.preludeEnvelope at h
  dsimp only at h
  split_ifs at h with hshort hexcluded
  rw [lt_real, decide_eq_true_eq, not_lt, ofRat_real] at hshort
  rw [Bool.not_eq_true, List.any_eq_false] at hexcluded
  have hmove := moveS_pos node
  have horder : node.config.moveS ≤ node.config.holdS := by
    push_cast at hshort
    linarith
  have hincluded (t : ℝ) (ht : t ∈ linspace node.config.holdS 200) :=
    inBox_of_not_preludeExcluded (Bool.eq_false_of_not_eq_true (hexcluded t ht))
  refine ⟨horder, ?_, ?_⟩
  · have hzero := hincluded 0 (mem_linspace_zero _ 200 (by norm_num))
    rwa [clip_real, max_self, min_eq_left hmove.le, sampleApproach_zero] at hzero
  · have hend := hincluded _ (mem_linspace_stop _ 200)
    rwa [clip_real, max_eq_left (hmove.le.trans horder), min_eq_right horder,
      sampleApproach_end] at hend

/-- The speed of an altitude hold is checked. -/
theorem vertical_of_ok (h : node.altitudeEnvelope limits = .ok ()) :
    |node.config.manualVerticalSpeedMps| ≤ limits.maximumLinearSpeed := by
  unfold TrajectoryNode.altitudeEnvelope at h
  split at h
  · dsimp only at h
    split_ifs at h with _ _ _ _ hspeed
    rw [lt_real, decide_eq_true_eq, not_lt] at hspeed
    exact hspeed
  · cases h

/-- A sampled instant of the path is within the limits. -/
theorem sampleOk_of_not_pathExcluded {t : ℝ}
    (hspeed : limits.maximumLinearSpeed = node.config.maxLinearSpeedMps)
    (hangular : limits.maximumAngularSpeed = node.config.maxAngularSpeedRps)
    (h : node.pathExcluded limits node.config.activeType t = false) :
    SampleOk node limits.minimum limits.maximum t := by
  unfold TrajectoryNode.pathExcluded EnvelopeLimits.excludesSample at h
  simp only [Bool.or_eq_false_iff, lt_real, decide_eq_false_iff_not, not_lt] at h
  exact ⟨inBox_of_not_outside h.1.1.1, hspeed ▸ h.1.1.2, hangular ▸ h.1.2⟩

theorem path_of_true (hspeed : limits.maximumLinearSpeed = node.config.maxLinearSpeedMps)
    (hangular : limits.maximumAngularSpeed = node.config.maxAngularSpeedRps)
    (h : node.pathEnvelope limits node.config.activeType = true) :
    ∀ t ∈ node.config.lapSamples, SampleOk node limits.minimum limits.maximum t := by
  unfold TrajectoryNode.pathEnvelope at h
  rw [Bool.not_eq_true', List.any_eq_false] at h
  exact fun t ht =>
    sampleOk_of_not_pathExcluded hspeed hangular (Bool.eq_false_of_not_eq_true (h t ht))

theorem station_of_true
    (h : node.stationEnvelope limits node.config.activeMode = true) :
    StationOk node limits.minimum limits.maximum := by
  unfold TrajectoryNode.stationEnvelope at h
  split at h
  · rename_i point quaternion hpoint _
    dsimp only at h
    rw [Bool.and_eq_true, Bool.and_eq_true] at h
    refine ⟨point, hpoint, h.1.2, fun hmode => ?_⟩
    have htarget := h.2
    rwa [hmode, if_pos (beq_self_eq_true _)] at htarget
  · cases h

/-- The checks behind a validation that returns True. -/
theorem checks_of_ok (h : node.validateScenarioEnvelope = .ok ()) :
    (isManaged node.config.activeType = true → node.motionStartPosition.isSome = true) ∧
      ∃ limits, node.config.envelopeLimits? = some limits ∧
        (node.config.activeType = "hold" → isStation node.config.activeMode = true →
          node.stationEnvelope limits node.config.activeMode = true) ∧
        (node.config.activeType = "hold" → node.config.activeMode = "altitude_hold" →
          node.altitudeEnvelope limits = .ok ()) ∧
        (isAutomatic node.config.activeType = true → node.preludeEnvelope limits = .ok () ∧
          node.pathEnvelope limits node.config.activeType = true) := by
  unfold TrajectoryNode.validateScenarioEnvelope at h
  dsimp only at h
  by_cases hlatched : (isManaged node.config.activeType && node.motionStartPosition.isNone) = true
  · rw [if_pos hlatched] at h
    cases h
  rw [if_neg hlatched] at h
  by_cases hrelative : (node.motionStartPosition.isNone && node.initialPosition.isNone &&
      node.config.relativeToInitialPose) = true
  · rw [if_pos hrelative] at h
    cases h
  rw [if_neg hrelative] at h
  have hresult {valid : Bool} (hvalid : envelopeResult valid = .ok ()) : valid = true := by
    unfold envelopeResult at hvalid
    split_ifs at hvalid with htrue
    exact htrue
  refine ⟨fun hmanaged => ?_, ?_⟩
  · rw [hmanaged, Bool.true_and] at hlatched
    exact isSome_of_not_isNone hlatched
  cases hlimits : node.config.envelopeLimits? with
  | none => simp [hlimits] at h
  | some limits =>
    rw [hlimits] at h
    refine ⟨limits, rfl, fun htype hstation => ?_, fun htype hmode => ?_, fun hautomatic => ?_⟩
    · rw [htype, hstation] at h
      exact hresult h
    · rw [htype, hmode] at h
      exact h
    · rw [ne_hold_of_automatic hautomatic, hautomatic] at h
      cases hprelude : node.preludeEnvelope limits with
      | ok =>
        simp only [hprelude, Bool.false_and, Bool.false_eq_true, if_false, if_true] at h
        exact ⟨rfl, hresult h⟩
      | error reason =>
        simp only [hprelude, Bool.false_and, Bool.false_eq_true, if_false, if_true] at h
        cases h

theorem validated_of_ok (h : node.validateScenarioEnvelope = .ok ()) :
    ∃ lower upper, Validated node lower upper := by
  obtain ⟨hlatched, limits, hlimits, hstation, haltitude, hautomatic⟩ := checks_of_ok h
  obtain ⟨hbox, hspeed, hangular, hpositive⟩ := envelopeLimits?_eq_some hlimits
  exact ⟨limits.minimum, limits.maximum,
    { box := hbox
      speed := hpositive
      latched := fun hmanaged => Option.isSome_iff_exists.mp (hlatched hmanaged)
      vertical := fun htype hmode => hspeed ▸ vertical_of_ok (haltitude htype hmode)
      station := fun htype hmode => station_of_true (hstation htype hmode)
      alignment := fun h => (prelude_of_ok (hautomatic h).1).1
      start := fun h => (prelude_of_ok (hautomatic h).1).2.1
      goal := fun h => (prelude_of_ok (hautomatic h).1).2.2
      sampled := fun h => path_of_true hspeed hangular (hautomatic h).2 }⟩

end Validation

/-! ### Published targets -/

section Limits

variable {α : Type} [Scalar α] (node : TrajectoryNode α)

/-- The fastest that a station target moves. -/
def TrajectoryConfig.stationVelocity (config : TrajectoryConfig α) : Vec α :=
  ⟨config.stationLinearInputGainMps, config.stationLateralInputGainMps,
    config.manualVerticalSpeedMps⟩

/-- The limits that the samples of a validation leave open: the gains of a station hold, the peak of
the approach, and the speed and the extent of a path that moves. -/
def TrajectoryNode.withinLimits (lower upper : Vec α) : Bool :=
  let config := node.config
  if config.activeType == "hold" then
    !isStation config.activeMode || le config.stationVelocity.norm config.maxLinearSpeedMps
  else
    let extent := pathExtent config config.activeType
    le (ofRat (15 / 8) * (node.approachGoal - node.approachStart).norm / config.moveS)
        config.maxLinearSpeedMps &&
      (!pathMoves config config.activeType ||
        le (pathSpeed config) config.maxLinearSpeedMps &&
          (node.origin - extent).inBox lower upper && (node.origin + extent).inBox lower upper)

end Limits

section Targets

variable {node : TrajectoryNode ℝ} {lower upper : Vec ℝ}

theorem norm_le_norm {u v : Vec ℝ} (h : ∀ axis, |u.component axis| ≤ |v.component axis|) :
    u.norm ≤ v.norm := by
  have hx := mul_self_le_mul_self (abs_nonneg _) (h .x)
  have hy := mul_self_le_mul_self (abs_nonneg _) (h .y)
  have hz := mul_self_le_mul_self (abs_nonneg _) (h .z)
  simp only [abs_mul_abs_self] at hx hy hz
  exact Real.sqrt_le_sqrt (add_le_add (add_le_add hx hy) hz)

theorem abs_clip_unit_le (value : ℝ) : |clip value (ofRat (-1)) (ofRat 1)| ≤ 1 := by
  rw [clip_real, ofRat_real, ofRat_real, abs_le]
  push_cast
  exact ⟨le_min (le_max_right _ _) (by norm_num), min_le_right _ _⟩

theorem abs_heave_le (node : TrajectoryNode ℝ) (nowNs : ℤ) :
    |currentManualHeave node nowNs| ≤ 1 := by
  have hzero : |(ofRat 0 : ℝ)| ≤ 1 := by
    rw [ofRat_real, Rat.cast_zero, abs_zero]
    exact zero_le_one
  unfold currentManualHeave
  split
  · exact hzero
  · split_ifs
    · exact hzero
    · exact hzero
    · exact abs_clip_unit_le _

theorem abs_stationInput_le (node : TrajectoryNode ℝ) (nowNs : ℤ) :
    let input := currentStationInput node nowNs
    |input.forward| ≤ 1 ∧ |input.left| ≤ 1 ∧ |input.up| ≤ 1 := by
  have hzero : |(ofRat 0 : ℝ)| ≤ 1 := by
    rw [ofRat_real, Rat.cast_zero, abs_zero]
    exact zero_le_one
  unfold currentStationInput
  split
  · exact ⟨hzero, hzero, hzero⟩
  · split_ifs
    · exact ⟨hzero, hzero, hzero⟩
    · exact ⟨abs_clip_unit_le _, abs_clip_unit_le _, abs_clip_unit_le _⟩

theorem abs_stick_mul_le {stick : ℝ} (h : |stick| ≤ 1) (gain : ℝ) :
    |stick * (|gain|)| ≤ |gain| := by
  rw [mul_comm]
  exact abs_mul_le_of_abs_le_one (abs_nonneg gain) h

theorem abs_verticalVelocity_le (node : TrajectoryNode ℝ) {stick : ℝ} (h : |stick| ≤ 1) :
    |node.verticalVelocity stick| ≤ |node.config.manualVerticalSpeedMps| :=
  abs_stick_mul_le ((abs_neg stick).trans_le h) _

/-- A rotation to a level heading keeps lengths in the plane. -/
theorem levelHeading_planar (q : Quat ℝ) (a b : ℝ) :
    let v := (rotationMatrix (levelHeadingQuaternion q)).apply ⟨a, b, ofRat 0⟩
    v.x * v.x + v.y * v.y = a * a + b * b := by
  obtain ⟨c, d, hunit, heq⟩ : ∃ c d : ℝ, d * d + c * c = 1 ∧
      levelHeadingQuaternion q = ⟨c, 0, 0, d⟩ := by
    refine ⟨Real.cos ((quaternionToRpy q).z / 2), Real.sin ((quaternionToRpy q).z / 2), ?_, ?_⟩
    · rw [← sq, ← sq]
      exact Real.sin_sq_add_cos_sq _
    · simp only [levelHeadingQuaternion, rpyQuaternion, ofRat_real, cos_real, sin_real]
      refine Quat.ext ?_ ?_ ?_ ?_ <;> norm_num
  simp only [heq, rotationMatrix, Rotation.apply, Vec.dot, ofRat_real]
  push_cast
  have hturn : (1 - 2 * (d * d)) * (1 - 2 * (d * d)) + 4 * (c * d) * (c * d) = 1 := by
    have hc : c * c = 1 - d * d := by linarith
    linear_combination 4 * (d * d) * hc
  linear_combination (a * a + b * b) * hturn

theorem station_speed (nowNs : ℤ) :
    (stationHoldTarget node nowNs).2.sample.velocity.norm ≤ node.config.stationVelocity.norm := by
  obtain ⟨hforward, hleft, hup⟩ := abs_stationInput_le node nowNs
  have hlinear := abs_stick_mul_le hforward node.config.stationLinearInputGainMps
  have hlateral := abs_stick_mul_le hleft node.config.stationLateralInputGainMps
  have hvertical := abs_verticalVelocity_le node hup
  obtain ⟨q, hvelocity⟩ : ∃ q, (stationHoldTarget node nowNs).2.sample.velocity =
      let planar := (rotationMatrix (levelHeadingQuaternion q)).apply
        ⟨(currentStationInput node nowNs).forward * |node.config.stationLinearInputGainMps|,
          (currentStationInput node nowNs).left * |node.config.stationLateralInputGainMps|, ofRat 0⟩
      ⟨planar.x, planar.y, node.verticalVelocity (currentStationInput node nowNs).up⟩ := ⟨_, rfl⟩
  have hplanar := levelHeading_planar q
    ((currentStationInput node nowNs).forward * |node.config.stationLinearInputGainMps|)
    ((currentStationInput node nowNs).left * |node.config.stationLateralInputGainMps|)
  rw [hvelocity]
  refine Real.sqrt_le_sqrt ?_
  dsimp only [Vec.dot, TrajectoryConfig.stationVelocity] at hplanar ⊢
  rw [hplanar]
  have hsq {u v : ℝ} (h : |u| ≤ |v|) : u * u ≤ v * v := by
    have := mul_self_le_mul_self (abs_nonneg u) h
    rwa [abs_mul_abs_self, abs_mul_abs_self] at this
  exact add_le_add (add_le_add (hsq hlinear) (hsq hlateral)) (hsq hvertical)

/-- A segment with ends in a box is in it. -/
theorem segment_inBox {start goal : Vec ℝ} (hstart : start.inBox lower upper = true)
    (hgoal : goal.inBox lower upper = true) {b : ℝ} (hlow : 0 ≤ b) (hhigh : b ≤ 1) :
    (start + (goal - start).scale b).inBox lower upper = true := by
  rw [inBox_iff] at *
  intro axis
  obtain ⟨hlow₁, hhigh₁⟩ := hstart axis
  obtain ⟨hlow₂, hhigh₂⟩ := hgoal axis
  rw [component_add, component_scale, component_sub]
  constructor <;> nlinarith

theorem inBox_of_extent {origin offset extent : Vec ℝ}
    (h : ∀ axis, |offset.component axis| ≤ extent.component axis)
    (hlow : (origin - extent).inBox lower upper = true)
    (hhigh : (origin + extent).inBox lower upper = true) :
    (origin + offset).inBox lower upper = true := by
  rw [inBox_iff] at *
  intro axis
  have hoffset := abs_le.mp (h axis)
  have hlow := (hlow axis).1
  have hhigh := (hhigh axis).2
  rw [component_sub] at hlow
  rw [component_add] at hhigh ⊢
  constructor <;> linarith

/-- The approach of a validated scenario is in the box, between the samples too. -/
theorem approach_inBox (h : Validated node lower upper)
    (hautomatic : isAutomatic node.config.activeType = true) (t : ℝ) :
    (node.sampleApproach t).position.inBox lower upper = true := by
  obtain ⟨b, hlow, hhigh, hposition⟩ := approach_segment node t
  rw [hposition]
  exact segment_inBox (h.start hautomatic) (h.goal hautomatic) hlow hhigh

/-- The path of a scenario within its limits is in the box. -/
theorem path_inBox (h : Validated node lower upper)
    (hautomatic : isAutomatic node.config.activeType = true)
    (hlimits : node.withinLimits lower upper = true) (t : ℝ) :
    (node.samplePath node.config.activeType t).position.inBox lower upper = true := by
  rw [TrajectoryNode.withinLimits, ne_hold_of_automatic hautomatic, if_neg Bool.false_ne_true,
    Bool.and_eq_true] at hlimits
  rw [samplePath_eq hautomatic]
  cases hmoves : pathMoves node.config node.config.activeType with
  | false =>
    have hgoal := h.goal hautomatic
    rw [TrajectoryNode.approachGoal, samplePath_eq hautomatic] at hgoal
    dsimp only at hgoal ⊢
    rwa [(trajectory_resting hautomatic hmoves t).1,
      ← (trajectory_resting hautomatic hmoves (ofRat 0)).1]
  | true =>
    rw [hmoves, Bool.not_true, Bool.false_or, Bool.and_eq_true, Bool.and_eq_true] at hlimits
    exact inBox_of_extent (trajectory_extent hautomatic t) hlimits.2.1.2 hlimits.2.2

theorem path_speed (h : Validated node lower upper)
    (hautomatic : isAutomatic node.config.activeType = true)
    (hlimits : node.withinLimits lower upper = true) (t : ℝ) :
    (node.samplePath node.config.activeType t).velocity.norm ≤ node.config.maxLinearSpeedMps := by
  rw [TrajectoryNode.withinLimits, ne_hold_of_automatic hautomatic, if_neg Bool.false_ne_true,
    Bool.and_eq_true] at hlimits
  rw [samplePath_eq hautomatic]
  cases hmoves : pathMoves node.config node.config.activeType with
  | false => exact (trajectory_resting hautomatic hmoves t).2.trans_le h.speed.le
  | true =>
    rw [hmoves, Bool.not_true, Bool.false_or, Bool.and_eq_true, Bool.and_eq_true] at hlimits
    exact (trajectory_speed node.config _ t).trans (of_decide_eq_true hlimits.2.1.1)

theorem approach_withinLimits (hautomatic : isAutomatic node.config.activeType = true)
    (hlimits : node.withinLimits lower upper = true) (t : ℝ) :
    (node.sampleApproach t).velocity.norm ≤ node.config.maxLinearSpeedMps := by
  rw [TrajectoryNode.withinLimits, ne_hold_of_automatic hautomatic, if_neg Bool.false_ne_true,
    Bool.and_eq_true] at hlimits
  have hpeak := of_decide_eq_true hlimits.1
  rw [ofRat_real] at hpeak
  push_cast at hpeak
  exact (approach_speed node t).trans hpeak

/-! ### Between the samples -/

theorem mem_linspace_of_le {stop : ℝ} {n i : ℕ} (hn : 0 < n) (hi : i ≤ n) :
    i * (stop / n) ∈ linspace stop n := by
  refine List.mem_map.mpr ⟨i, List.mem_range.mpr (by omega), ?_⟩
  have hn' : (n : ℝ) ≠ 0 := Nat.cast_ne_zero.mpr hn.ne'
  split_ifs with heq
  · rw [heq, mul_div_cancel₀ _ hn']
  · rw [ofRat_real, ofRat_real, Rat.cast_natCast, Rat.cast_natCast]

/-- No instant of a lap is farther from a sample than half a step. -/
theorem exists_sample_near {stop t : ℝ} {n : ℕ} (hn : 0 < n) (hlow : 0 ≤ t) (hhigh : t ≤ stop) :
    ∃ u ∈ linspace stop n, |t - u| ≤ stop / (2 * n) := by
  have hn' : (0 : ℝ) < n := Nat.cast_pos.mpr hn
  rcases (hlow.trans hhigh).eq_or_lt with rfl | hstop
  · obtain rfl := le_antisymm hhigh hlow
    exact ⟨0, mem_linspace_zero 0 n hn.ne', by simp⟩
  -- The nearest sample is the one with the rounded number.
  set i := ⌊t / (stop / n) + 1 / 2⌋₊ with hi
  have hstep : 0 < stop / n := div_pos hstop hn'
  have hpos : 0 ≤ t / (stop / n) + 1 / 2 := by positivity
  have hfloor := Nat.floor_le hpos
  have hlt := Nat.lt_floor_add_one (t / (stop / n) + 1 / 2)
  rw [← hi] at hfloor hlt
  have hratio : t / (stop / n) ≤ n := by
    rw [div_le_iff₀ hstep, mul_div_cancel₀ _ hn'.ne']
    exact hhigh
  have hin : i ≤ n := by
    have : (i : ℝ) < n + 1 := by linarith
    exact Nat.lt_succ_iff.mp (by exact_mod_cast this)
  refine ⟨_, mem_linspace_of_le hn hin, ?_⟩
  have ht : t = t / (stop / n) * (stop / n) := (div_mul_cancel₀ t hstep.ne').symm
  have hhalf : stop / (2 * n) = 1 / 2 * (stop / n) := by field_simp
  rw [hhalf, ht, ← sub_mul, abs_mul, abs_of_pos hstep]
  refine mul_le_mul_of_nonneg_right (abs_le.mpr ⟨?_, ?_⟩) hstep.le <;> linarith

/-- How far a path can leave the box between two samples. -/
def drift {α : Type} [Scalar α] (config : TrajectoryConfig α) : α :=
  pathSpeed config * (config.lapDuration / ofRat 720)

theorem abs_component_le_norm (v : Vec ℝ) (axis : Vec.Axis) : |v.component axis| ≤ v.norm := by
  refine Real.abs_le_sqrt ?_
  unfold Vec.dot
  cases axis <;> dsimp only [Vec.component] <;> nlinarith [mul_self_nonneg v.x, mul_self_nonneg v.y,
    mul_self_nonneg v.z]

/-- Within the sampled lap a planar path stays near the box. -/
theorem path_near (h : Validated node lower upper) (htype : node.config.activeType ∈ planarTypes)
    (hramp : 0 < node.config.trajectoryRampS) {t : ℝ} (hlow : 0 ≤ t)
    (hhigh : t ≤ node.config.lapDuration) (axis : Vec.Axis) :
    let position := (node.samplePath node.config.activeType t).position
    lower.component axis - drift node.config ≤ position.component axis ∧
      position.component axis ≤ upper.component axis + drift node.config := by
  have hautomatic := isAutomatic_of_planar htype
  obtain ⟨u, hu, hnear⟩ := exists_sample_near (n := 360) (by norm_num) hlow hhigh
  obtain ⟨hlower, hupper⟩ := inBox_iff.mp (h.sampled hautomatic u hu).position axis
  have hmotion := (isVecMotion_trajectory htype hramp axis).abs_sub_le
    (fun t => (abs_component_le_norm _ axis).trans (trajectory_speed node.config _ t)) u t
  have hdrift : pathSpeed node.config * |t - u| ≤ drift node.config := by
    refine mul_le_mul_of_nonneg_left (hnear.trans_eq ?_) (pathSpeed_nonneg node.config)
    rw [ofRat_real]
    norm_num
  have hmoved := abs_le.mp (hmotion.trans hdrift)
  rw [samplePath_eq hautomatic] at hlower hupper ⊢
  dsimp only at hlower hupper ⊢
  rw [component_add] at hlower hupper ⊢
  constructor
  · linarith [hmoved.1]
  · linarith [hmoved.2]

/-! ### Targets -/

/-- The phases before the path. -/
def preludePhases : List String := ["start_approach", "heading_alignment"]

/-- What holds of a target of a validated scenario. -/
structure TrajectoryTarget.Inside (target : TrajectoryTarget ℝ) (node : TrajectoryNode ℝ)
    (lower upper : Vec ℝ) : Prop where
  /-- the start approach never leaves the pool -/
  approach : target.trajectoryPhase ∈ preludePhases → target.position.inBox lower upper = true
  /-- an altitude hold keeps the speed limit -/
  altitude : node.config.activeMode = "altitude_hold" → target.trajectoryPhase = "hold" →
    target.velocity.norm ≤ node.config.maxLinearSpeedMps
  /-- a station hold starts in the pool -/
  station : node.config.activeType = "hold" → isStation node.config.activeMode = true →
    StationOk node lower upper
  /-- at a sampled instant the path is in the pool and keeps the speed limits -/
  sampled : target.trajectoryPhase = "tracking" →
    target.timeS - node.config.holdS ∈ node.config.lapSamples →
    target.position.inBox lower upper = true ∧
      target.velocity.norm ≤ node.config.maxLinearSpeedMps ∧
      target.angularVelocity.norm ≤ node.config.maxAngularSpeedRps
  /-- in the sampled lap a planar path stays near the pool -/
  near : target.trajectoryPhase = "tracking" → node.config.activeType ∈ planarTypes →
    0 < node.config.trajectoryRampS → target.timeS - node.config.holdS ≤ node.config.lapDuration →
    ∀ axis, lower.component axis - drift node.config ≤ target.position.component axis ∧
      target.position.component axis ≤ upper.component axis + drift node.config
  /-- within the limits that the samples leave open everything does -/
  speed : node.withinLimits lower upper = true →
    target.velocity.norm ≤ node.config.maxLinearSpeedMps
  tracking : node.withinLimits lower upper = true → target.trajectoryPhase = "tracking" →
    target.position.inBox lower upper = true

theorem altitude_speed (nowNs : ℤ) :
    (altitudeHoldSample node nowNs).2.velocity.norm ≤ |node.config.manualVerticalSpeedMps| := by
  have hvertical := abs_verticalVelocity_le node (abs_heave_le node nowNs)
  refine le_trans (le_of_eq ?_) hvertical
  change √(((0 : ℚ) : ℝ) * ((0 : ℚ) : ℝ) + ((0 : ℚ) : ℝ) * ((0 : ℚ) : ℝ) +
    node.verticalVelocity (currentManualHeave node nowNs) *
      node.verticalVelocity (currentManualHeave node nowNs)) = _
  rw [Rat.cast_zero, mul_zero, add_zero, zero_add, ← sq, Real.sqrt_sq_eq_abs]

/-- A target that is not one of the path. -/
theorem inside_message (h : Validated node lower upper) {target : TickTarget ℝ} (timeS : ℝ)
    (hphase : target.phase ≠ "tracking")
    (happroach : target.phase ∈ preludePhases →
      target.sample.position.inBox lower upper = true)
    (haltitude : node.config.activeMode = "altitude_hold" → target.phase = "hold" →
      target.sample.velocity.norm ≤ node.config.maxLinearSpeedMps)
    (hspeed : node.withinLimits lower upper = true →
      target.sample.velocity.norm ≤ node.config.maxLinearSpeedMps) :
    (target.message timeS).Inside node lower upper where
  approach := happroach
  altitude := haltitude
  station := h.station
  sampled htracking := absurd htracking hphase
  near htracking := absurd htracking hphase
  speed := hspeed
  tracking _ htracking := absurd htracking hphase

/-- The turn of a message is about the vertical. -/
theorem norm_vertical_le (v : Vec ℝ) : (⟨ofRat 0, ofRat 0, v.z⟩ : Vec ℝ).norm ≤ v.norm := by
  refine norm_le_norm fun axis => ?_
  cases axis
  · exact (abs_nonneg v.x).trans_eq' (by simp [Vec.component, ofRat_real])
  · exact (abs_nonneg v.y).trans_eq' (by simp [Vec.component, ofRat_real])
  · exact le_rfl

/-- A target of the path. -/
theorem inside_path (h : Validated node lower upper)
    (hautomatic : isAutomatic node.config.activeType = true) {target : TickTarget ℝ} {timeS : ℝ}
    (hphase : target.phase = "tracking") (htime : node.config.holdS ≤ timeS)
    (hsample : target.sample =
      node.samplePath node.config.activeType (timeS - node.config.holdS))
    (hattitude : target.attitude = sampleAttitude node.config
      (node.pathAttitude node.config.activeType) (timeS - node.config.holdS)) :
    (target.message timeS).Inside node lower upper := by
  have hnot {phase : String} (hne : "tracking" ≠ phase) : target.phase ≠ phase := hphase ▸ hne
  refine
    { approach := fun hprelude => ?_
      altitude := fun _ hhold => absurd hhold (hnot (by decide))
      station := h.station
      sampled := fun _ hsampled => ?_
      near := fun _ htype hramp hlap axis => ?_
      speed := fun hlimits => ?_
      tracking := fun hlimits _ => ?_ }
  · have hprelude : target.phase ∈ preludePhases := hprelude
    rw [hphase] at hprelude
    exact absurd hprelude (by decide)
  · obtain ⟨hposition, hlinear, hangular⟩ := h.sampled hautomatic _ hsampled
    refine ⟨?_, ?_, ?_⟩
    · change target.sample.position.inBox lower upper = true
      rwa [hsample]
    · change target.sample.velocity.norm ≤ _
      rwa [hsample]
    · change (⟨ofRat 0, ofRat 0, target.attitude.angularVelocity.z⟩ : Vec ℝ).norm ≤ _
      rw [hattitude]
      exact (norm_vertical_le _).trans hangular
  · change _ ≤ target.sample.position.component axis ∧ target.sample.position.component axis ≤ _
    rw [hsample]
    exact path_near h htype hramp (sub_nonneg.mpr htime) hlap axis
  · change target.sample.velocity.norm ≤ _
    rw [hsample]
    exact path_speed h hautomatic hlimits _
  · change target.sample.position.inBox lower upper = true
    rw [hsample]
    exact path_inBox h hautomatic hlimits _

theorem inside_tracking (h : Validated node lower upper) (nowNs : ℤ) (valid : Bool) :
    ({ (trackingTarget node nowNs).2 with valid }.message (node.timeS nowNs)).Inside node lower
      upper := by
  have hstill : (Vec.zero : Vec ℝ).norm ≤ node.config.maxLinearSpeedMps :=
    norm_zero.trans_le h.speed.le
  have hhold : "hold" ∉ preludePhases := by decide
  have hinvalid : "invalid" ∉ preludePhases := by decide
  unfold trackingTarget
  dsimp only
  split_ifs with haltitude hstation happroach hmove hpath
  · rw [Bool.and_eq_true, beq_iff_eq, beq_iff_eq] at haltitude
    have hspeed : (altitudeHoldSample node nowNs).2.velocity.norm ≤
        node.config.maxLinearSpeedMps :=
      (altitude_speed nowNs).trans (h.vertical haltitude.1 haltitude.2)
    exact inside_message h _ (show "hold" ≠ "tracking" by decide)
      (fun hphase => absurd hphase hhold) (fun _ _ => hspeed) fun _ => hspeed
  · rw [Bool.and_eq_true] at hstation
    refine inside_message h _ (show "hold" ≠ "tracking" by decide)
      (fun hphase => absurd hphase hhold) (fun hmode _ => ?_) fun hlimits => ?_
    · rw [hmode] at hstation
      exact absurd hstation.2 (by decide)
    · rw [TrajectoryNode.withinLimits, if_pos hstation.1, hstation.2, Bool.not_true,
        Bool.false_or] at hlimits
      exact (station_speed nowNs).trans (of_decide_eq_true hlimits)
  · rw [Bool.and_eq_true] at happroach
    exact inside_message h _ (show "start_approach" ≠ "tracking" by decide)
      (fun _ => approach_inBox h happroach.1 _)
      (fun _ hphase => absurd (show "start_approach" = "hold" from hphase) (by decide))
      fun hlimits => approach_withinLimits happroach.1 hlimits _
  · rw [Bool.and_eq_true] at happroach
    exact inside_message h _ (show "heading_alignment" ≠ "tracking" by decide)
      (fun _ => approach_inBox h happroach.1 _)
      (fun _ hphase => absurd (show "heading_alignment" = "hold" from hphase) (by decide))
      fun hlimits => approach_withinLimits happroach.1 hlimits _
  · have htime : node.config.holdS ≤ node.timeS nowNs := by
      rw [hpath, Bool.true_and, lt_real, decide_eq_true_eq, not_lt] at happroach
      exact happroach
    have heffective : pyMax (ofRat 0) (node.timeS nowNs - node.config.holdS) =
        node.timeS nowNs - node.config.holdS := by
      rw [pyMax_real, ofRat_real, Rat.cast_zero, max_eq_right (sub_nonneg.mpr htime)]
    rw [heffective]
    exact inside_path h hpath rfl htime rfl rfl
  · exact inside_message h _ (show "invalid" ≠ "tracking" by decide)
      (fun hphase => absurd hphase hinvalid)
      (fun _ hphase => absurd (show "invalid" = "hold" from hphase) (by decide)) fun _ => hstill

end Targets

/-! ### Approved scenarios -/

section Approved

variable {node node' : TrajectoryNode ℝ} {lower upper : Vec ℝ} {config : TrajectoryConfig ℝ}
  {startedNs : ℤ} {s : TrajectoryNode ℝ} {x y : TrajectoryTransition ℝ}
  {tr : TrajectoryHistory ℝ}

/-- What a validation knows depends on the scenario only. -/
theorem Validated.congr (h : Validated node lower upper)
    (hscenario : node.scenario = node'.scenario) : Validated node' lower upper := by
  -- the scenario is the parameters and the latched start
  have hconfig : node.config = node'.config := congrArg (·.1) hscenario
  have hlatch : node.motionStartPosition = node'.motionStartPosition :=
    congrArg (·.2.1) hscenario
  -- the origin of the path depends on these only, and with it the path, its ends and its attitude
  have horigin (hmanaged : isManaged node.config.activeType = true) :
      node'.origin = node.origin := by
    obtain ⟨start, hstart⟩ := h.latched hmanaged
    rw [TrajectoryNode.origin, TrajectoryNode.origin, hconfig, hstart, hlatch.symm.trans hstart]
    rfl
  have hmanaged (hautomatic : isAutomatic node.config.activeType = true) :
      isManaged node.config.activeType = true := by
    rw [isManaged, hautomatic, Bool.or_true]
  have hpath (hautomatic : isAutomatic node.config.activeType = true) :
      node'.samplePath = node.samplePath := by
    funext trajectoryType t
    rw [TrajectoryNode.samplePath, TrajectoryNode.samplePath, horigin (hmanaged hautomatic),
      hconfig]
  have hends (hautomatic : isAutomatic node.config.activeType = true) :
      node'.approachStart = node.approachStart ∧ node'.approachGoal = node.approachGoal := by
    obtain ⟨start, hstart⟩ := h.latched (hmanaged hautomatic)
    refine ⟨(approachStart_eq (hlatch.symm.trans hstart)).trans (approachStart_eq hstart).symm, ?_⟩
    rw [TrajectoryNode.approachGoal, TrajectoryNode.approachGoal, hpath hautomatic, hconfig]
  have hattitude (hautomatic : isAutomatic node.config.activeType = true) :
      node'.pathAttitude node.config.activeType = node.pathAttitude node.config.activeType := by
    funext t
    rw [TrajectoryNode.pathAttitude, TrajectoryNode.pathAttitude, if_pos hautomatic,
      if_pos hautomatic, hconfig]
  have hsampled (hautomatic : isAutomatic node.config.activeType = true) :
      ∀ t ∈ node.config.lapSamples, SampleOk node' lower upper t := by
    intro t ht
    obtain ⟨hposition, hlinear, hangular⟩ := h.sampled hautomatic t ht
    rw [← hpath hautomatic, hconfig] at hposition hlinear
    rw [← hattitude hautomatic, hconfig] at hangular
    exact ⟨hposition, hlinear, hangular⟩
  have hstation (htype : node.config.activeType = "hold")
      (hmode : isStation node.config.activeMode = true) : StationOk node' lower upper := by
    have hok := h.station htype hmode
    rwa [StationOk, hlatch, hconfig] at hok
  rw [hconfig] at hends hsampled hstation
  obtain ⟨hbox, hspeed, hlatched, hvertical, -, halignment, hstart, hgoal, -⟩ := h
  rw [hconfig] at hbox hspeed hlatched hvertical halignment hstart hgoal
  rw [hlatch] at hlatched
  exact
    { box := hbox
      speed := hspeed
      latched := hlatched
      vertical := hvertical
      station := hstation
      alignment := halignment
      start := fun hautomatic => (hends hautomatic).1 ▸ hstart hautomatic
      goal := fun hautomatic => (hends hautomatic).2 ▸ hgoal hautomatic
      sampled := hsampled }

/-- The scenario of an approving transition passes the check. -/
theorem validated_of_approves (hrun : (trajectoryMachine config startedNs).Run (y :: tr) s)
    (happroves : approves y = true) : y.post.validateScenarioEnvelope = .ok () := by
  have hstep := Option.some.inj hrun.head_step
  have hinv := approvalInvariant_of_run hrun.tail
  obtain ⟨pre, input, output, post⟩ := y
  dsimp only [approves] at happroves hstep hinv ⊢
  cases input with
  | validate =>
    obtain rfl : (onValidateScenario pre).1 = post := (Prod.mk.inj hstep).1
    dsimp only at happroves
    rcases onValidateScenario_cases pre with heq | ⟨-, heq⟩
    · rw [heq] at happroves
      cases happroves
    · rw [heq] at happroves ⊢
      exact validateScenarioEnvelope_of_valid happroves
  | tick nowNs =>
    obtain rfl : (trajectoryTick pre nowNs).1 = post := (Prod.mk.inj hstep).1
    simp only [Bool.and_eq_true, Bool.not_eq_true'] at happroves
    cases htracking : pre.trackingStarted with
    | true =>
      -- a scenario that is tracked has been checked
      have hchecked := (hinv.checked (hinv.latched htracking)).2
      rw [happroves.1.1] at hchecked
      cases hchecked
    | false =>
      rw [trajectoryTick, htracking, if_neg Bool.false_ne_true] at happroves
      exact absurd (happroves.1.1.symm.trans happroves.1.2) Bool.false_ne_true
  | _ => cases happroves

/-- **Targets inside the limits.**  While the parameters and the latched start are those on which
the validation has returned True, the start approach stays in the box of the pool at every time, an
altitude hold keeps the speed limit and a station hold starts in the box.  A target of the path is
in the box and keeps the speed limits at the sampled instants, and stays near the box between them.
Within the limits that the samples leave open it does both at every time. -/
theorem target_inside_of_approved (hrun : (trajectoryMachine config startedNs).Run (x :: tr) s)
    (hy : y ∈ tr) (happroves : approves y = true) (hscenario : y.post.scenario = x.pre.scenario)
    (hinput : ∃ nowNs, x.input = .tick nowNs) (htracking : x.pre.trackingStarted = true) :
    ∃ target lower upper, x.output.target = some target ∧
      x.pre.config.poolBox? = some (lower, upper) ∧ target.Inside x.pre lower upper := by
  obtain ⟨after, before, rfl⟩ := List.append_of_mem hy
  have hvalid := validated_of_approves hrun.tail.split happroves
  obtain ⟨lower, upper, hvalidated⟩ := validated_of_ok hvalid
  have hpre := hvalidated.congr hscenario
  obtain ⟨nowNs, hinput⟩ := hinput
  have hstep := Option.some.inj hrun.head_step
  rw [hinput] at hstep
  have houtput : x.output.target = some (trajectoryTick x.pre nowNs).2 :=
    congrArg (·.target) (Prod.mk.inj hstep).2.symm
  refine ⟨_, lower, upper, houtput, hpre.box, ?_⟩
  rw [trajectoryTick, if_pos htracking]
  exact inside_tracking hpre nowNs _

end Approved

/-! ### A station hold -/

section StationHold

/-- A station hold of the circle's box with the gains of the parameters. -/
noncomputable def stationHoldConfig : TrajectoryConfig ℝ :=
  { circleConfig 0 with trajectoryType := "hold" }

theorem activeType_stationHold : stationHoldConfig.activeType = "hold" := by
  have hlower : "hold".toLower = "hold" := by decide +kernel
  exact hlower

theorem activeMode_stationHold : stationHoldConfig.activeMode = "station_hold" := by
  have hlower : "station_hold".toLower = "station_hold" := by decide +kernel
  exact hlower

theorem norm_rpyQuaternion (roll pitch yaw : ℝ) : (rpyQuaternion roll pitch yaw).norm = 1 := by
  have hunit (angle : ℝ) : Real.sin angle ^ 2 + Real.cos angle ^ 2 = 1 :=
    Real.sin_sq_add_cos_sq angle
  rw [Quat.norm, Quat.dot]
  simp only [rpyQuaternion, ofRat_real, cos_real, sin_real]
  push_cast
  refine (congrArg Real.sqrt ?_).trans Real.sqrt_one
  have hroll := hunit (roll / 2)
  have hpitch := hunit (pitch / 2)
  have hyaw := hunit (yaw / 2)
  generalize Real.sin (roll / 2) = sr, Real.cos (roll / 2) = cr at *
  generalize Real.sin (pitch / 2) = sp, Real.cos (pitch / 2) = cp at *
  generalize Real.sin (yaw / 2) = sy, Real.cos (yaw / 2) = cy at *
  have hproduct : (sr ^ 2 + cr ^ 2) * (sp ^ 2 + cp ^ 2) * (sy ^ 2 + cy ^ 2) = 1 := by
    rw [hroll, hpitch, hyaw, one_mul, one_mul]
  linear_combination hproduct

theorem envelopeLimits?_stationHold : ∃ limits, stationHoldConfig.envelopeLimits? = some limits ∧
    limits.minimum = ⟨0, 0, 0⟩ ∧ limits.maximum = ⟨1, 1, 1⟩ := by
  have hdegrees : radians (-90 : ℝ) < radians 90 := by
    have hpi := Real.pi_pos
    rw [radians, radians, ofRat_real, pi_real]
    push_cast
    linarith
  have hpool : stationHoldConfig.poolBox? = some (⟨0, 0, 0⟩, ⟨1, 1, 1⟩) := by
    simp [TrajectoryConfig.poolBox?, box?, stationHoldConfig, circleConfig, Vec.ofList?, Vec.all₂,
      lt_real]
  have hattitude : box? (stationHoldConfig.attitudeMinRpyDeg.map radians)
      (stationHoldConfig.attitudeMaxRpyDeg.map radians) =
        some (⟨radians (-90), radians (-90), radians (-90)⟩,
          ⟨radians 90, radians 90, radians 90⟩) := by
    simp [box?, stationHoldConfig, circleConfig, Vec.ofList?, Vec.all₂, lt_real, hdegrees]
  have hconfigured : (!stationHoldConfig.trajectoryLimitsConfigured ||
      le stationHoldConfig.maxLinearSpeedMps (ofRat 0) ||
      le stationHoldConfig.maxAngularSpeedRps (ofRat 0)) = false := by
    simp [stationHoldConfig, circleConfig, le_real, ofRat_real]
  rw [TrajectoryConfig.envelopeLimits?, hpool, hattitude]
  dsimp only [Option.bind_eq_bind, Option.bind_some]
  rw [hconfigured, if_neg Bool.false_ne_true]
  exact ⟨_, rfl, rfl, rfl⟩

theorem validateScenarioEnvelope_stationHold {node : TrajectoryNode ℝ} {roll pitch yaw : ℝ}
    (hscenario : node.scenario =
      (stationHoldConfig, some Vec.zero, some (rpyQuaternion roll pitch yaw))) :
    node.validateScenarioEnvelope = .ok () := by
  have hconfig : node.config = stationHoldConfig := congrArg (·.1) hscenario
  have hposition : node.motionStartPosition = some Vec.zero := congrArg (·.2.1) hscenario
  have hquaternion : node.motionStartQuaternion = some (rpyQuaternion roll pitch yaw) :=
    congrArg (·.2.2) hscenario
  obtain ⟨limits, hlimits, hminimum, hmaximum⟩ := envelopeLimits?_stationHold
  have hcontains (z : ℝ) (hz : z = 0) :
      limits.contains { (Vec.zero : Vec ℝ) with z } = true := by
    rw [EnvelopeLimits.contains, hminimum, hmaximum, inBox_iff, hz]
    intro axis
    cases axis <;> simp [Vec.component, Vec.zero, ofRat_real]
  have hstation : node.stationEnvelope limits "station_hold" = true := by
    have hlatched : limits.contains Vec.zero = true := hcontains _ Rat.cast_zero
    unfold TrajectoryNode.stationEnvelope
    rw [hposition, hquaternion]
    dsimp only
    rw [norm_rpyQuaternion, lt_real, decide_eq_true smallNorm_lt, hlatched,
      if_pos (beq_self_eq_true "station_hold"),
      hcontains node.config.centerZ (congrArg (·.centerZ) hconfig)]
    rfl
  unfold TrajectoryNode.validateScenarioEnvelope
  rw [hposition, hconfig, hlimits, activeType_stationHold, activeMode_stationHold]
  dsimp only
  rw [hstation]
  rfl

theorem withinLimits_stationHold {node : TrajectoryNode ℝ}
    (hconfig : node.config = stationHoldConfig) (lower upper : Vec ℝ) :
    node.withinLimits lower upper = true := by
  have hspeed : stationHoldConfig.stationVelocity.norm ≤ 1 := by
    rw [Vec.norm]
    refine Real.sqrt_le_one.mpr ?_
    simp only [Vec.dot, TrajectoryConfig.stationVelocity, stationHoldConfig, circleConfig]
    norm_num
  rw [TrajectoryNode.withinLimits, hconfig, activeType_stationHold,
    if_pos (beq_self_eq_true "hold"), le_real]
  rw [decide_eq_true (show stationHoldConfig.stationVelocity.norm ≤
    stationHoldConfig.maxLinearSpeedMps from hspeed), Bool.or_true]

theorem target_inside_stationHold : ∃ x : TrajectoryTransition ℝ, ∃ target lower upper,
    x.output.target = some target ∧ x.pre.config.poolBox? = some (lower, upper) ∧
      target.Inside x.pre lower upper ∧ x.pre.withinLimits lower upper = true := by
  let pose : BodyPose ℝ := ⟨true, true, Vec.zero, Quat.identity⟩
  let imu : ImuReading ℝ := ⟨"base_link", 0, Quat.identity, Vec.zero⟩
  have hcompatible : controlModeIsCompatible stationHoldConfig.activeType
      stationHoldConfig.activeMode = true := by
    rw [activeType_stationHold, activeMode_stationHold]
    rfl
  have hnorm : (isFinite pose.orientation.norm && lt smallNorm pose.orientation.norm) = true := by
    rw [norm_identity, lt_real, decide_eq_true smallNorm_lt]
    rfl
  have haccepted : imu.accepted = true := by
    rw [ImuReading.accepted, norm_identity, lt_real, le_real, ofRat_real, Rat.cast_zero,
      decide_eq_false (lt_irrefl (0 : ℝ)), decide_eq_false (not_le.mpr smallNorm_lt)]
    rfl
  obtain ⟨x, before, s, hrun, hstarted⟩ := exists_started hcompatible rfl rfl hnorm haccepted 0 0
  obtain ⟨roll, pitch, yaw, hattitude⟩ := hstarted.attitude
  obtain ⟨y, hy, hscenario, happroves⟩ := hstarted.validated
  have hvalid : y.post.validateScenarioEnvelope = .ok () := by
    have hpost : y.post.scenario =
        (stationHoldConfig, some Vec.zero, some (rpyQuaternion roll pitch yaw)) := by
      rw [hscenario, TrajectoryNode.scenario, hstarted.config, hstarted.position, hattitude]
    exact validateScenarioEnvelope_stationHold hpost
  obtain ⟨-, -, htracking, -⟩ := started_of_startsScenario hrun hstarted.starts
  have htick := hrun.step (i := .tick 0) rfl
  obtain rfl := hrun.head_post
  obtain ⟨target, lower, upper, htarget, hbox, hinside⟩ :=
    target_inside_of_approved htick (List.mem_cons_of_mem x hy) (happroves hvalid) hscenario
      ⟨0, rfl⟩ htracking
  exact ⟨_, target, lower, upper, htarget, hbox, hinside,
    withinLimits_stationHold hstarted.config lower upper⟩

end StationHold

end RobotCore
