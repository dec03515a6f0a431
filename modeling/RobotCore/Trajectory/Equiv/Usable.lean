import RobotCore.Lib.Scalar.Reference
import RobotCore.Trajectory.Equiv.Attitude
import RobotCore.Trajectory.Equiv.Magnitude
import RobotCore.Trajectory.Equiv.Start

/-!
# Usable targets

In doubles, and with parameters, positions and clocks in range, every callback keeps the members of
the node bounded, whatever its message (`bounded_callback`), so that no operation of a target
generator overflows.  The one way to an unusable target are the sticks of the operator, which are
clipped but not checked: a nan passes through into a target that is valid, and nothing else does
(`usable_iff_not_usesNan`).  Out of range, the sum of finite parameters overflows in a target that
is valid, too (`unusable_target`).
-/

namespace RobotCore

open Scalar Machine Ieee Ieee.Double

/-! ### Ranges -/

section Ranges

variable {α : Type} [Scalar α]

/-- A clock counts the nanoseconds in 64 bits. -/
def clockInRange (ns : ℤ) : Bool := decide (|ns| ≤ 2 ^ 63)

/-- The parameters, the positions and the clocks of an input are in range. -/
def TrajectoryInput.inRange : TrajectoryInput α → Bool
  | .bodyPose msg => !msg.position.allFinite || msg.position.all RobotCore.inRange
  | .reset nowNs => clockInRange nowNs
  | .stop nowNs => clockInRange nowNs
  | .tick nowNs => clockInRange nowNs
  | .setParameters config => config.inRange
  | _ => true

theorem abs_le_of_clockInRange {ns : ℤ} (h : clockInRange ns = true) : |ns| ≤ 2 ^ 63 :=
  decide_eq_true_iff.mp h

end Ranges

/-! ### Members -/

variable {library : MathLibrary binary64}

/-- The members are bounded, and the attitudes units. -/
structure TrajectoryNode.Bounded (node : TrajectoryNode (Double library)) : Prop where
  config : node.config.inRange = true
  startedNs : clockInRange node.startedNs = true
  initialPosition : ∀ p ∈ node.initialPosition, VecMag p 100
  latestPosition : ∀ p ∈ node.latestPosition, VecMag p 100
  motionStartPosition : ∀ p ∈ node.motionStartPosition, VecMag p 100
  stationTargetPosition : ∀ p ∈ node.stationTargetPosition, VecMag p 100
  altitudeHoldZ : ∀ z ∈ node.altitudeHoldZ, Mag z 100
  latestMapYaw : ∀ yaw ∈ node.latestMapYaw, Mag yaw 3
  initialQuaternion : ∀ q ∈ node.initialQuaternion, NearUnit q
  latestQuaternion : ∀ q ∈ node.latestQuaternion, NearUnit q
  motionStartQuaternion : ∀ q ∈ node.motionStartQuaternion, NearUnit q
  stationTargetQuaternion : ∀ q ∈ node.stationTargetQuaternion, NearUnit q

section Optional

variable {β : Type} {P : β → Prop} {o o' : Option β}

theorem forall_mem_none : ∀ b ∈ (none : Option β), P b :=
  fun b hb => absurd hb (Option.not_mem_none b)

theorem forall_mem_orElse (h : ∀ b ∈ o, P b) (h' : ∀ b ∈ o', P b) : ∀ b ∈ (o <|> o'), P b := by
  cases o with
  | none => exact h'
  | some a => exact h

theorem getD_of_forall_mem (h : ∀ b ∈ o, P b) {d : β} (hd : P d) : P (o.getD d) := by
  cases o with
  | none => exact hd
  | some a => exact h a rfl

end Optional

/-- Every component is finite. -/
structure TrajectorySample.AllFinite (sample : TrajectorySample (Double library)) : Prop where
  position : sample.position.allFinite = true
  velocity : sample.velocity.allFinite = true
  acceleration : sample.acceleration.allFinite = true

section Samples

variable (hlibrary : library.Accurate) {node : TrajectoryNode (Double library)} (h : node.Bounded)
  {t : Double library}

theorem vecMag_zero {n : ℕ} (hn : n ≤ 1023) : VecMag (Vec.zero : Vec (Double library)) n :=
  ⟨mag_zero hn, mag_zero hn, mag_zero hn⟩

include h in
theorem vecMag_center : VecMag node.config.center 100 := by
  have hvalue {x : Double library} (hx : x ∈ node.config.values) : Mag x 100 :=
    mag_value h.config hx
  exact ⟨hvalue (x := node.config.centerX) (by simp [TrajectoryConfig.values]),
    hvalue (x := node.config.centerY) (by simp [TrajectoryConfig.values]),
    hvalue (x := node.config.centerZ) (by simp [TrajectoryConfig.values])⟩

include h in
theorem vecMag_origin : VecMag node.origin 100 := by
  rw [TrajectoryNode.origin]
  split_ifs
  · exact getD_of_forall_mem (P := (VecMag · 100))
      (forall_mem_orElse h.motionStartPosition h.initialPosition) (vecMag_center h)
  · exact vecMag_center h

include hlibrary h in
theorem mag_samplePath (trajectoryType : String) (ht : Mag t 104) :
    VecMag (node.samplePath trajectoryType t).position 113 ∧
      (node.samplePath trajectoryType t).AllFinite := by
  have horigin := vecMag_origin h
  rw [TrajectoryNode.samplePath]
  split_ifs
  · obtain ⟨hoffset, hvelocity, hacceleration, -⟩ :=
      mag_trajectory hlibrary h.config trajectoryType ht
    have hposition := horigin.add hoffset (n := 113) (by omega) (by omega) (by omega)
    exact ⟨hposition, hposition.allFinite, hvelocity.allFinite, hacceleration.allFinite⟩
  · have hzero : VecMag (Vec.zero : Vec (Double library)) 0 := vecMag_zero (by omega)
    have hposition := horigin.add hzero (n := 113) (by omega) (by omega) (by omega)
    exact ⟨hposition, hposition.allFinite, hzero.allFinite, hzero.allFinite⟩

/-- A tenth is not small. -/
theorem value_tenth : ∃ d, (ofRat (1 / 10) : Double library).value = .finite d ∧ 1 / 2 ^ 4 ≤ d := by
  obtain ⟨d, hd, -⟩ : Mag (ofRat (1 / 10) : Double library) 0 :=
    mag_literal (by norm_num) (by omega)
  refine ⟨d, hd, ?_⟩
  rw [eq_roundTo hd, ← roundTo_of_representable (representable_inv (n := 4) (by omega))]
  exact roundTo_mono (by norm_num)

include h in
theorem mag_moveS : Mag node.config.moveS 100 ∧ Away node.config.moveS 4 := by
  have hvalue : Mag node.config.moveDurationS 100 :=
    mag_value h.config (by simp [TrajectoryConfig.values])
  obtain ⟨d, hd, hle⟩ := @value_tenth library
  exact ⟨pyMax_of (P := (Mag · 100)) (mag_literal (by norm_num) (by omega)) hvalue,
    Away.pyMax hd hle hvalue⟩

/-- A literal times a power of a number of the unit interval. -/
theorem mag_term {tau : Double library} {q : ℚ} (hq : |q| ≤ 2 ^ 8) (htau : Mag tau 0) (k : ℕ) :
    Mag (ofRat q * pow tau k) 8 :=
  (mag_literal hq (by omega)).mul (htau.pow k (n := 0) (by omega) (by omega)) (by omega) (by omega)

theorem mag_alternating {a b c : Double library} (ha : Mag a 8) (hb : Mag b 8) (hc : Mag c 8) :
    Mag (a - b + c) 10 :=
  (ha.sub hb (n := 9) (by omega) (by omega) (by omega)).add hc (by omega) (by omega) (by omega)

theorem mag_quinticBlend {tau : Double library} (htau : Mag tau 0) : Mag (quinticBlend tau) 10 :=
  mag_alternating (mag_term (by norm_num) htau 3) (mag_term (by norm_num) htau 4)
    (mag_term (by norm_num) htau 5)

include hlibrary h in
theorem allFinite_sampleApproach (ht : Mag t 104) : (node.sampleApproach t).AllFinite := by
  have hstart : VecMag node.approachStart 100 :=
    getD_of_forall_mem (P := (VecMag · 100))
      (forall_mem_orElse h.motionStartPosition h.latestPosition) (vecMag_origin h)
  have hgoal : VecMag node.approachGoal 113 :=
    (mag_samplePath hlibrary h node.config.activeType (mag_zero (by omega))).1
  have hdisplacement := hgoal.sub hstart (n := 114) (by omega) (by omega) (by omega)
  obtain ⟨hmove, hmove'⟩ := mag_moveS h
  have htau : Mag (clip (t / node.config.moveS) (ofRat 0) (ofRat 1)) 0 :=
    mag_clip_unit (ht.div hmove' le_rfl (by omega)).isNan
  unfold TrajectoryNode.sampleApproach
  dsimp only
  generalize clip (t / node.config.moveS) (ofRat 0) (ofRat 1) = tau at htau
  have hlinear : Mag (ofRat 60 * tau) 8 :=
    (mag_literal (n := 8) (by norm_num) (by omega)).mul htau (by omega) (by omega)
  have hblend := mag_quinticBlend htau
  have hrate := (mag_alternating (mag_term (q := 30) (by norm_num) htau 2)
    (mag_term (q := 60) (by norm_num) htau 3) (mag_term (q := 30) (by norm_num) htau 4)).div hmove'
      (n := 14) (by omega) (by omega)
  have hacceleration := (mag_alternating hlinear (mag_term (q := 180) (by norm_num) htau 2)
    (mag_term (q := 120) (by norm_num) htau 3)).div (hmove'.pow hmove 2 (n := 8) (by omega)
      (by omega) (by omega)) (n := 18) (by omega) (by omega)
  exact ⟨(hstart.add (VecMag.scale hblend hdisplacement le_rfl (by omega)) (n := 125) (by omega)
      (by omega) (by omega)).allFinite,
    (VecMag.scale hrate hdisplacement le_rfl (by omega)).allFinite,
    (VecMag.scale hacceleration hdisplacement le_rfl (by omega)).allFinite⟩

/-! ### Attitudes -/

include h in
theorem nearUnit_base : NearUnit node.baseQuaternion :=
  getD_of_forall_mem (forall_mem_orElse h.motionStartQuaternion
    (forall_mem_orElse h.latestQuaternion h.initialQuaternion)) nearUnit_identity

include hlibrary h in
theorem quatMag_approachAttitude (ht : Mag t 104) : QuatMag (node.approachAttitude t) 2 := by
  have hmove : Mag node.config.moveDurationS 100 :=
    mag_value h.config (by simp [TrajectoryConfig.values])
  have hhold : Mag node.config.holdBeforeMotionS 100 :=
    mag_value h.config (by simp [TrajectoryConfig.values])
  have hyaw := (mag_trajectory hlibrary h.config node.config.activeType
    (t := ofRat 0) (mag_zero (by omega))).yaw
  have hzero : Mag (ofRat 0 : Double library) 3 := mag_zero (by omega)
  obtain ⟨d, hd, hle⟩ := @value_tenth library
  have hduration := Away.pyMax hd hle
    (hhold.sub hmove (n := 101) (by omega) (by omega) (by omega))
  have hfraction : Mag (clip (t / pyMax (ofRat (1 / 10))
      (node.config.holdBeforeMotionS - node.config.moveDurationS)) (ofRat 0) (ofRat 1)) 0 :=
    mag_clip_unit (ht.div hduration le_rfl (by omega)).isNan
  exact (quatMag_quaternionSlerp hlibrary (nearUnit_base h)
    (nearUnit_rpyQuaternion hlibrary hzero hzero hyaw (by omega))
    (mag_quinticBlend hfraction)).mono (by omega)

include hlibrary h in
theorem quatMag_pathAttitude (trajectoryType : String) (ht : Mag t 104) :
    QuatMag (node.pathAttitude trajectoryType t) 2 := by
  have hyaw := (mag_trajectory hlibrary h.config trajectoryType ht).yaw
  have hzero : Mag (ofRat 0 : Double library) 3 := mag_zero (by omega)
  have hunit {q : Quat (Double library)} (hq : NearUnit q) : QuatMag q 2 :=
    hq.quatMag.mono (by omega)
  unfold TrajectoryNode.pathAttitude
  dsimp only
  split_ifs
  · exact hunit (nearUnit_rpyQuaternion hlibrary hzero hzero hyaw (by omega))
  · exact hunit nearUnit_identity
  · exact hunit (nearUnit_base h)
  · exact hunit (getD_of_forall_mem h.initialQuaternion nearUnit_identity)
  · exact hunit nearUnit_identity

include h in
theorem mag_attitudeStep : Mag node.config.attitudeStep 0 ∧ Away node.config.attitudeStep 100 := by
  have hrate : Mag node.config.publishRateHz 100 :=
    mag_value h.config (by simp [TrajectoryConfig.values])
  obtain ⟨d, hd, -⟩ : Mag (ofRat 20 : Double library) 5 := mag_literal (by norm_num) (by omega)
  have hd1 : 1 / 2 ^ 0 ≤ d := by
    rw [eq_roundTo hd, ← roundTo_of_representable (representable_inv (n := 0) (by omega))]
    exact roundTo_mono (by norm_num)
  have hdivisor := Away.pyMax hd hd1 hrate
  have hdivisor' : Mag (pyMax (ofRat 20) node.config.publishRateHz) 100 :=
    pyMax_of (P := (Mag · 100)) (mag_literal (by norm_num) (by omega)) hrate
  have hone : Mag (ofRat 1 : Double library) 0 := mag_literal (by norm_num) (by omega)
  have hone' : Away (ofRat 1 : Double library) 0 := ⟨1, value_ofRat_one, by norm_num⟩
  exact ⟨hone.div hdivisor (by omega) (by omega),
    hone'.div hdivisor' hone hdivisor (by omega) (by omega) (by omega)⟩

/-- Every component is finite, and the attitude bounded. -/
structure AttitudeSample.Bounded (sample : AttitudeSample (Double library)) : Prop where
  orientation : QuatMag sample.orientation 2
  angularVelocity : sample.angularVelocity.allFinite = true
  angularAcceleration : sample.angularAcceleration.allFinite = true

include h in
theorem bounded_sampleAttitude {attitude : Double library → Quat (Double library)}
    (hattitude : ∀ t, Mag t 104 → QuatMag (attitude t) 2) (ht : Mag t 102) :
    (sampleAttitude node.config attitude t).Bounded := by
  obtain ⟨hstep, hstep'⟩ := mag_attitudeStep h
  have hbefore : Mag (pyMax (ofRat 0) (t - node.config.attitudeStep)) 103 :=
    pyMax_of (P := (Mag · 103)) (mag_zero (by omega)) (ht.sub hstep (by omega) (by omega)
      (by omega))
  have hafter : Mag (t + node.config.attitudeStep) 103 :=
    ht.add hstep (by omega) (by omega) (by omega)
  have hrate {s : Double library} {a : ℕ} (hs : Mag s a) (ha : a ≤ 103) :=
    mag_angularVelocityAt hattitude hstep hstep' hs ha
  exact ⟨hattitude t (ht.mono (by omega)), (hrate ht (by omega)).allFinite,
    (mag_quotient (hrate hafter (by omega)) (hrate hbefore (by omega)) hstep hstep' (n := 221)
      (by omega) (by omega)).allFinite⟩

end Samples

/-! ### Holds -/

section Holds

variable (hlibrary : library.Accurate) {node : TrajectoryNode (Double library)} (h : node.Bounded)
  (nowNs : ℤ)

/-- A stick is clipped to one. -/
theorem mag_stick {x : Double library} (hx : isNan x = false) :
    Mag (clip x (ofRat (-1)) (ofRat 1)) 0 := by
  have hone : Representable binary64 1 := by
    simpa using representable_two_pow (n := 0) (by omega)
  exact Mag.clip hx (value_ofRat (representable_neg hone) (n := 0) (by simp) (by omega))
    value_ofRat_one (by norm_num) (by simp) (by simp)

include h in
theorem mag_verticalVelocity {stick : Double library} (hstick : Mag stick 0) :
    Mag (node.verticalVelocity stick) 100 :=
  hstick.neg.mul (mag_value h.config (x := node.config.manualVerticalSpeedMps)
    (by simp [TrajectoryConfig.values])).abs (by omega) (by omega)

/-- A heave is bounded, since a command that is not finite is ignored; the sum of its actions may
overflow, but then it is clipped. -/
theorem mag_currentManualHeave : Mag (currentManualHeave node nowNs) 0 := by
  unfold currentManualHeave
  split
  · exact mag_zero (by omega)
  · rename_i command hcommand
    split_ifs with hignored hfinite
    · exact mag_zero (by omega)
    · exact mag_zero (by omega)
    · -- the sum of finite actions may be infinite, but it is no nan
      have hactions : ∀ i (hi : i < 8), isFinite command.action[i] = true := by
        intro i hi
        rw [Bool.not_eq_true, Bool.not_eq_false', List.all_eq_true] at hfinite
        exact hfinite _ (Vector.mem_toList_iff.mpr (Vector.getElem_mem hi))
      have hrepresentable := representable_two_pow (n := 2) (by omega)
      rw [show (2 : ℚ) ^ 2 = 4 by norm_num] at hrepresentable
      have hfour : (ofRat 4 : Double library).value = .finite 4 :=
        value_ofRat hrepresentable (n := 2) (by norm_num) (by omega)
      exact mag_stick (isNan_div_eq_false (isNan_add_eq_false (isNan_add_eq_false
        (isNan_add_eq_false (isNan_of_isFinite (hactions 0 (by omega))) (hactions 1 (by omega)))
          (hactions 2 (by omega))) (hactions 3 (by omega))) hfour (by norm_num))

include h in
theorem bounded_altitudeHoldSample :
    (altitudeHoldSample node nowNs).1.Bounded ∧ (altitudeHoldSample node nowNs).2.AllFinite := by
  have hposition : VecMag ((node.latestPosition <|> node.motionStartPosition).getD Vec.zero) 100 :=
    getD_of_forall_mem (P := (VecMag · 100))
      (forall_mem_orElse h.latestPosition h.motionStartPosition) (vecMag_zero (by omega))
  unfold altitudeHoldSample
  dsimp only
  have haltitude : ∀ z ∈ (if (inputActive (currentManualHeave node nowNs) ||
      node.altitudeHeaveActive) = true
      then some ((node.latestPosition <|> node.motionStartPosition).getD Vec.zero).z
      else node.altitudeHoldZ), Mag z 100 := by
    split_ifs
    · rintro z hz'
      obtain rfl := Option.mem_some_iff.mp hz'
      exact hposition.z
    · exact h.altitudeHoldZ
  have hzero : Mag (ofRat 0 : Double library) 100 := mag_zero (by omega)
  refine ⟨{ h with altitudeHoldZ := haltitude }, ?_, ?_, ?_⟩
  · exact VecMag.allFinite ⟨hposition.x, hposition.y,
      getD_of_forall_mem (P := (Mag · 100)) haltitude hposition.z⟩
  · exact VecMag.allFinite ⟨hzero, hzero, mag_verticalVelocity h (mag_currentManualHeave nowNs)⟩
  · exact (vecMag_zero (n := 0) (by omega)).allFinite

/-- The operator input that a tick uses has a nan. -/
def TrajectoryNode.nanInput {α : Type} [Scalar α] (node : TrajectoryNode α) (nowNs : ℤ) : Bool :=
  match node.operatorTargetInput with
  | none => false
  | some input =>
    !node.tooOld node.operatorTargetInputNs nowNs &&
      (isNan input.linear.x || isNan input.linear.y || isNan input.linear.z || isNan input.angularZ)

/-- Every stick is bounded. -/
structure StationInput.Bounded (input : StationInput (Double library)) : Prop where
  forward : Mag input.forward 0
  left : Mag input.left 0
  up : Mag input.up 0
  yaw : Mag input.yaw 0

/-- The sticks are bounded without a nan. -/
theorem bounded_currentStationInput (hnan : node.nanInput nowNs = false) :
    (currentStationInput node nowNs).Bounded := by
  have hzero : Mag (ofRat 0 : Double library) 0 := mag_zero (by omega)
  unfold TrajectoryNode.nanInput at hnan
  unfold currentStationInput
  cases hinput : node.operatorTargetInput with
  | none => exact ⟨hzero, hzero, hzero, hzero⟩
  | some input =>
    rw [hinput] at hnan
    dsimp only at hnan ⊢
    split_ifs with hold
    · exact ⟨hzero, hzero, hzero, hzero⟩
    · rw [Bool.not_eq_true] at hold
      rw [hold, Bool.not_false, Bool.true_and, Bool.or_eq_false_iff, Bool.or_eq_false_iff,
        Bool.or_eq_false_iff] at hnan
      exact ⟨mag_stick hnan.1.1.1, mag_stick hnan.1.1.2, mag_stick hnan.1.2, mag_stick hnan.2⟩

/-- A nan passes through the clipping. -/
theorem isNan_currentStationInput (hnan : node.nanInput nowNs = true) :
    isNan (currentStationInput node nowNs).forward = true ∨
      isNan (currentStationInput node nowNs).left = true ∨
      isNan (currentStationInput node nowNs).up = true ∨
      isNan (currentStationInput node nowNs).yaw = true := by
  unfold TrajectoryNode.nanInput at hnan
  unfold currentStationInput
  cases hinput : node.operatorTargetInput with
  | none =>
    rw [hinput] at hnan
    cases hnan
  | some input =>
    rw [hinput] at hnan
    dsimp only at hnan ⊢
    rw [Bool.and_eq_true, Bool.not_eq_true', Bool.or_eq_true, Bool.or_eq_true,
      Bool.or_eq_true] at hnan
    obtain ⟨hfresh, hsticks⟩ := hnan
    rw [hfresh, if_neg Bool.false_ne_true]
    rcases hsticks with ((hstick | hstick) | hstick) | hstick
    · exact Or.inl (isNan_clip hstick)
    · exact Or.inr (Or.inl (isNan_clip hstick))
    · exact Or.inr (Or.inr (Or.inl (isNan_clip hstick)))
    · exact Or.inr (Or.inr (Or.inr (isNan_clip hstick)))

include hlibrary h in
/-- The heading of a station target. -/
theorem nearUnit_stationOrientation : NearUnit (stationHoldTarget node nowNs).2.orientation := by
  have hsource : NearUnit ((node.motionStartQuaternion <|> node.latestQuaternion).getD
      Quat.identity) :=
    getD_of_forall_mem (forall_mem_orElse h.motionStartQuaternion h.latestQuaternion)
      nearUnit_identity
  have hlevel {q : Quat (Double library)} (hq : NearUnit q) : NearUnit (levelHeadingQuaternion q) :=
    nearUnit_levelHeading hlibrary (hq.quatMag.mono (by omega))
  have htarget := getD_of_forall_mem h.stationTargetQuaternion (hlevel hsource)
  unfold stationHoldTarget
  dsimp only
  split
  · rename_i latest hlatest
    split_ifs
    · exact hlevel (h.latestQuaternion latest hlatest)
    · exact htarget
  · exact htarget

include hlibrary h in
theorem mag_stationRotation {q : Quat (Double library)} (hq : NearUnit q) :
    RotationMag (rotationMatrix (levelHeadingQuaternion (node.latestQuaternion.getD q))) 7 :=
  mag_rotationMatrix ((nearUnit_levelHeading hlibrary
    ((getD_of_forall_mem h.latestQuaternion hq).quatMag.mono (by omega))).quatMag.mono (by omega))

include hlibrary h in
/-- The velocities of a station target come from the sticks. -/
theorem stationHoldTarget_velocity :
    ∃ rotation : Rotation (Double library), RotationMag rotation 7 ∧
      (let input := currentStationInput node nowNs
        let planar := rotation.apply
          ⟨input.forward * Scalar.abs node.config.stationLinearInputGainMps,
            input.left * Scalar.abs node.config.stationLateralInputGainMps, ofRat 0⟩
        (stationHoldTarget node nowNs).2.sample.velocity =
            ⟨planar.x, planar.y, node.verticalVelocity input.up⟩ ∧
          (stationHoldTarget node nowNs).2.angularVelocity = rotation.apply
            ⟨ofRat 0, ofRat 0, input.yaw * Scalar.abs node.config.stationYawInputGainRps⟩) :=
  ⟨_, mag_stationRotation hlibrary h (nearUnit_stationOrientation hlibrary h nowNs), rfl, rfl⟩

theorem RotationMag.apply {rotation : Rotation (Double library)} {v : Vec (Double library)}
    (hrotation : RotationMag rotation 7) (hv : VecMag v 100) : VecMag (rotation.apply v) 109 :=
  ⟨hrotation.row0.dot hv (by omega) (by omega), hrotation.row1.dot hv (by omega) (by omega),
    hrotation.row2.dot hv (by omega) (by omega)⟩

/-- A nan component makes a nan product. -/
theorem isNan_dot {u v : Vec (Double library)}
    (hv : isNan v.x = true ∨ isNan v.y = true ∨ isNan v.z = true) : isNan (u.dot v) = true := by
  rcases hv with hv | hv | hv
  · exact isNan_add (Or.inl (isNan_add (Or.inl (isNan_mul (Or.inr hv)))))
  · exact isNan_add (Or.inl (isNan_add (Or.inr (isNan_mul (Or.inr hv)))))
  · exact isNan_add (Or.inr (isNan_mul (Or.inr hv)))

include hlibrary h in
/-- The velocities of a station target are finite but for a nan of the operator. -/
theorem isFinite_stationVelocity :
    ((stationHoldTarget node nowNs).2.sample.velocity.allFinite &&
      isFinite (stationHoldTarget node nowNs).2.angularVelocity.z) = !node.nanInput nowNs := by
  obtain ⟨rotation, hrotation, hvelocity, hangular⟩ :=
    stationHoldTarget_velocity hlibrary h nowNs
  rw [hvelocity, hangular]
  cases hnan : node.nanInput nowNs with
  | false =>
    -- bounded sticks, gains and rotations
    have hinput := bounded_currentStationInput nowNs hnan
    have hgain {x k : Double library} (hx : Mag x 0) (hk : k ∈ node.config.values) :
        Mag (x * Scalar.abs k) 100 :=
      hx.mul (mag_value h.config hk).abs (by omega) (by omega)
    have hzero : Mag (ofRat 0 : Double library) 100 := mag_zero (by omega)
    have hplanar := hrotation.apply (v := ⟨_, _, _⟩)
      ⟨hgain hinput.forward (k := node.config.stationLinearInputGainMps)
          (by simp [TrajectoryConfig.values]),
        hgain hinput.left (k := node.config.stationLateralInputGainMps)
          (by simp [TrajectoryConfig.values]), hzero⟩
    have hyaw := hrotation.apply (v := ⟨_, _, _⟩)
      ⟨hzero, hzero, hgain hinput.yaw (k := node.config.stationYawInputGainRps)
        (by simp [TrajectoryConfig.values])⟩
    have hvertical : Mag (node.verticalVelocity (currentStationInput node nowNs).up) 109 :=
      (mag_verticalVelocity h hinput.up).mono (by omega)
    rw [VecMag.allFinite (v := ⟨_, _, node.verticalVelocity (currentStationInput node nowNs).up⟩)
      ⟨hplanar.x, hplanar.y, hvertical⟩, hyaw.z.isFinite]
    rfl
  | true =>
    rw [Bool.not_true, Bool.and_eq_false_iff]
    have hnone {v : Vec (Double library)} (hv : isNan v.x = true ∨ isNan v.z = true) :
        v.allFinite = false := by
      rw [Vec.allFinite, Vec.all]
      rcases hv with hv | hv <;> simp [isFinite_of_isNan hv]
    -- each stick reaches a component of the velocities
    rcases isNan_currentStationInput nowNs hnan with hstick | hstick | hstick | hstick
    · exact Or.inl (hnone (Or.inl (isNan_dot (Or.inl (isNan_mul (Or.inl hstick))))))
    · exact Or.inl (hnone (Or.inl (isNan_dot (Or.inr (Or.inl (isNan_mul (Or.inl hstick)))))))
    · exact Or.inl (hnone (Or.inr (isNan_mul (Or.inl (isNan_neg hstick)))))
    · exact Or.inr (isFinite_of_isNan (isNan_dot (Or.inr (Or.inr (isNan_mul (Or.inl hstick))))))

theorem vecMag_stationPosition {target : Vec (Double library)}
    {latest : Option (Vec (Double library))} (htarget : VecMag target 100)
    (hlatest : ∀ p ∈ latest, VecMag p 100) (planar heave : Bool) :
    VecMag (stationPosition target latest planar heave) 100 := by
  cases latest with
  | none => exact htarget
  | some latest =>
    have hlatest := hlatest latest rfl
    cases planar <;> cases heave
    · exact ⟨htarget.x, htarget.y, htarget.z⟩
    · exact ⟨htarget.x, htarget.y, hlatest.z⟩
    · exact ⟨hlatest.x, hlatest.y, htarget.z⟩
    · exact ⟨hlatest.x, hlatest.y, hlatest.z⟩

theorem mem_of_ofList? {α : Type} {values : List α} {v : Vec α} (h : Vec.ofList? values = some v) :
    v.x ∈ values ∧ v.y ∈ values ∧ v.z ∈ values := by
  unfold Vec.ofList? at h
  split at h
  · obtain rfl := Option.some.inj h
    simp
  · cases h

include h in
theorem vecMag_clipToPool {point : Vec (Double library)} (hpoint : VecMag point 100) :
    VecMag (node.config.clipToPool point) 100 := by
  unfold TrajectoryConfig.clipToPool
  split_ifs
  · split
    · rename_i lower upper hlower hupper
      have hvalue {x : Double library}
          (hx : x ∈ node.config.poolMinXyz ∨ x ∈ node.config.poolMaxXyz) : Mag x 100 := by
        refine mag_value h.config ?_
        rcases hx with hx | hx <;> simp [TrajectoryConfig.values, hx]
      have hclip {x y z : Double library} (hx : Mag x 100) (hy : y ∈ node.config.poolMinXyz)
          (hz : z ∈ node.config.poolMaxXyz) : Mag (clip x y z) 100 :=
        clip_of (P := (Mag · 100)) hx (hvalue (Or.inl hy)) (hvalue (Or.inr hz))
      obtain ⟨hlx, hly, hlz⟩ := mem_of_ofList? hlower
      obtain ⟨hux, huy, huz⟩ := mem_of_ofList? hupper
      exact ⟨hclip hpoint.x hlx hux, hclip hpoint.y hly huy, hclip hpoint.z hlz huz⟩
    · exact hpoint
  · exact hpoint

include hlibrary h in
theorem bounded_stationHoldTarget :
    (stationHoldTarget node nowNs).1.Bounded ∧
      VecMag (stationHoldTarget node nowNs).2.sample.position 100 ∧
      NearUnit (stationHoldTarget node nowNs).2.orientation := by
  have hposition : ∀ planar heave, VecMag (node.config.clipToPool (stationPosition
      (node.stationTargetPosition.getD
        ((node.motionStartPosition <|> node.latestPosition).getD Vec.zero))
      node.latestPosition planar heave)) 100 := fun planar heave =>
    vecMag_clipToPool h (vecMag_stationPosition
      (getD_of_forall_mem (P := (VecMag · 100)) h.stationTargetPosition
        (getD_of_forall_mem (P := (VecMag · 100))
          (forall_mem_orElse h.motionStartPosition h.latestPosition) (vecMag_zero (by omega))))
      h.latestPosition planar heave)
  have hquaternion := nearUnit_stationOrientation hlibrary h nowNs
  refine ⟨{ h with
    stationTargetPosition := fun p hp => ?_, stationTargetQuaternion := fun q hq => ?_ },
    hposition _ _, hquaternion⟩
  · obtain rfl := Option.mem_some_iff.mp hp
    exact hposition _ _
  · obtain rfl := Option.mem_some_iff.mp hq
    exact hquaternion

end Holds

/-! ### Targets -/

/-- A finite position, a unit up to roundings for the orientation, and finite velocities and
accelerations. -/
structure TrajectoryTarget.Usable (target : TrajectoryTarget (Double library)) : Prop where
  position : target.position.allFinite = true
  orientation : NearUnit target.orientation
  velocity : target.velocity.allFinite = true
  angularVelocity : target.angularVelocity.allFinite = true
  acceleration : target.acceleration.allFinite = true
  angularAcceleration : target.angularAcceleration.allFinite = true

/-- A tick uses an operator input with a nan. -/
def TrajectoryNode.usesNan {α : Type} [Scalar α] (node : TrajectoryNode α) (nowNs : ℤ) : Bool :=
  node.trackingStarted && node.config.activeType == "hold" && isStation node.config.activeMode &&
    node.nanInput nowNs

section Targets

variable (hlibrary : library.Accurate) {node : TrajectoryNode (Double library)} (h : node.Bounded)
  {nowNs : ℤ} (hnow : clockInRange nowNs = true) {target : TickTarget (Double library)}
  {timeS : Double library}

/-- A turn about the vertical. -/
theorem allFinite_vertical {x : Double library} :
    (⟨ofRat 0, ofRat 0, x⟩ : Vec (Double library)).allFinite = isFinite x := by
  have hzero : isFinite (ofRat 0 : Double library) = true := (mag_zero (n := 0) (by omega)).isFinite
  rw [Vec.allFinite, Vec.all, hzero]
  rfl

include hlibrary in
/-- What the message of a target takes from it. -/
theorem usable_message (hposition : target.sample.position.allFinite = true)
    (hacceleration : target.sample.acceleration.allFinite = true)
    (horientation : QuatMag target.attitude.orientation 2)
    (hangular : isFinite target.attitude.angularAcceleration.z = true) :
    (target.message timeS).Usable ↔ (target.sample.velocity.allFinite &&
      isFinite target.attitude.angularVelocity.z) = true := by
  rw [Bool.and_eq_true]
  constructor
  · rintro ⟨-, -, hvelocity, hrate, -, -⟩
    exact ⟨hvelocity, allFinite_vertical.symm.trans hrate⟩
  · rintro ⟨hvelocity, hrate⟩
    exact ⟨hposition, nearUnit_levelHeading hlibrary horientation, hvelocity,
      allFinite_vertical.trans hrate, hacceleration, allFinite_vertical.trans hangular⟩

theorem isFinite_z {v : Vec (Double library)} (hv : v.allFinite = true) : isFinite v.z = true := by
  rw [Vec.allFinite, Vec.all, Bool.and_eq_true] at hv
  exact hv.2

include hlibrary in
/-- A target of bounded samples is usable. -/
theorem usable_of_bounded (hsample : target.sample.AllFinite)
    (hattitude : target.attitude.Bounded) : (target.message timeS).Usable := by
  rw [usable_message hlibrary hsample.position hsample.acceleration hattitude.orientation
    (isFinite_z hattitude.angularAcceleration), hsample.velocity,
    isFinite_z hattitude.angularVelocity]
  rfl

include hlibrary h in
theorem bounded_restingAttitude : node.restingAttitude.Bounded where
  orientation := getD_of_forall_mem (P := (QuatMag · 2))
    (fun q hq => (h.latestQuaternion q hq).quatMag.mono (by omega))
    (quatMag_pathAttitude hlibrary h "hold" (mag_zero (by omega)))
  angularVelocity := (vecMag_zero (n := 0) (by omega)).allFinite
  angularAcceleration := (vecMag_zero (n := 0) (by omega)).allFinite

include h in
theorem allFinite_idleHoldSample : (idleHoldSample node).AllFinite where
  position := (getD_of_forall_mem (P := (VecMag · 100)) h.latestPosition
    (vecMag_center h)).allFinite
  velocity := (vecMag_zero (n := 0) (by omega)).allFinite
  acceleration := (vecMag_zero (n := 0) (by omega)).allFinite

include h in
/-- Checking the envelope touches nothing that is computed with. -/
theorem bounded_checkEnvelope : (checkEnvelope node).Bounded := by
  obtain ⟨valid, reason, heq⟩ := checkEnvelope_eq node
  rw [heq]
  exact { h with }

include h in
theorem bounded_scenarioTarget (sample : TrajectorySample (Double library))
    (attitude : AttitudeSample (Double library)) (phase : String) :
    (scenarioTarget node sample attitude phase).1.Bounded := by
  unfold scenarioTarget targetIsValid
  dsimp only
  split_ifs
  · exact h
  · exact h
  · exact h
  · exact bounded_checkEnvelope h

include h hnow in
theorem mag_timeS : Mag (node.timeS nowNs) 64 := by
  unfold TrajectoryNode.timeS
  split_ifs
  · have hclock : |nowNs - node.startedNs| ≤ 2 ^ 64 := by
      have hstarted := abs_le_of_clockInRange h.startedNs
      exact (abs_sub _ _).trans (by linarith [abs_le_of_clockInRange hnow])
    have hns : Mag (ofRat ((nowNs - node.startedNs : ℤ) : ℚ) : Double library) 64 :=
      mag_literal (by exact_mod_cast hclock) (by omega)
    have hunit : Mag (ofRat (1 / 10 ^ 9) : Double library) 0 :=
      mag_literal (by norm_num) (by omega)
    exact pyMax_of (P := (Mag · 64)) (mag_zero (by omega)) (hns.mul hunit le_rfl (by omega))
  · exact mag_zero (by omega)

theorem not_isStation_altitude : isStation "altitude_hold" = false := by decide

include hlibrary h hnow in
/-- The target of a scenario is usable unless it uses an operator input with a nan. -/
theorem usable_trackingTarget (htracking : node.trackingStarted = true) :
    (trackingTarget node nowNs).1.Bounded ∧
      (((trackingTarget node nowNs).2.message timeS).Usable ↔ node.usesNan nowNs = false) := by
  have htime := mag_timeS h hnow
  have hmove := (mag_moveS h).1
  have hzero : Mag (ofRat 0 : Double library) 102 := mag_zero (by omega)
  unfold trackingTarget TrajectoryNode.usesNan
  dsimp only
  rw [htracking, Bool.true_and]
  generalize (if lt (node.timeS nowNs) node.config.moveS = true then "start_approach"
    else "heading_alignment") = phase
  split_ifs with haltitude hstation happroach hautomatic
  -- an altitude hold checks the actions it uses
  · obtain ⟨hnode, hsample⟩ := bounded_altitudeHoldSample h nowNs
    rw [Bool.and_eq_true, beq_iff_eq, beq_iff_eq] at haltitude
    rw [haltitude.2, not_isStation_altitude, Bool.and_false, Bool.false_and]
    exact ⟨bounded_scenarioTarget hnode _ _ _, iff_of_true
      (usable_of_bounded hlibrary hsample (bounded_restingAttitude hlibrary hnode)) rfl⟩
  -- a station hold does not
  · obtain ⟨hnode, hposition, horientation⟩ := bounded_stationHoldTarget hlibrary h nowNs
    have hstill : (Vec.zero : Vec (Double library)).allFinite = true :=
      (vecMag_zero (n := 0) (by omega)).allFinite
    rw [hstation, Bool.true_and]
    refine ⟨bounded_scenarioTarget hnode _ _ _, (usable_message hlibrary hposition.allFinite hstill
      (horientation.quatMag.mono (by omega)) (isFinite_z hstill)).trans ?_⟩
    rw [← Bool.not_eq_true', ← isFinite_stationVelocity hlibrary h nowNs]
    rfl
  -- the approach, the path, and a type that is none of these
  · rw [Bool.and_eq_true] at happroach
    rw [ne_hold_of_automatic happroach.1, Bool.false_and, Bool.false_and]
    have hearly : Mag (pyMin (node.timeS nowNs) node.config.moveS) 104 :=
      pyMin_of (P := (Mag · 104)) (htime.mono (by omega)) (hmove.mono (by omega))
    have hlater : Mag (pyMax (ofRat 0) (node.timeS nowNs - node.config.moveS)) 102 :=
      pyMax_of (P := (Mag · 102)) hzero (htime.sub hmove (by omega) (by omega) (by omega))
    exact ⟨bounded_scenarioTarget h _ _ _, iff_of_true (usable_of_bounded hlibrary
      (allFinite_sampleApproach hlibrary h hearly)
      (bounded_sampleAttitude h (fun t ht => quatMag_approachAttitude hlibrary h ht) hlater)) rfl⟩
  · rw [ne_hold_of_automatic hautomatic, Bool.false_and, Bool.false_and]
    have hhold : Mag node.config.holdS 100 := pyMax_of (P := (Mag · 100)) (mag_zero (by omega))
      (mag_value h.config (x := node.config.holdBeforeMotionS) (by simp [TrajectoryConfig.values]))
    have hlater : Mag (pyMax (ofRat 0) (node.timeS nowNs - node.config.holdS)) 102 :=
      pyMax_of (P := (Mag · 102)) hzero (htime.sub hhold (by omega) (by omega) (by omega))
    exact ⟨bounded_scenarioTarget h _ _ _, iff_of_true (usable_of_bounded hlibrary
      (mag_samplePath hlibrary h _ (hlater.mono (by omega))).2
      (bounded_sampleAttitude h (fun t ht => quatMag_pathAttitude hlibrary h _ ht) hlater)) rfl⟩
  · rw [Bool.not_eq_true] at hstation
    rw [hstation, Bool.false_and]
    exact ⟨h, iff_of_true (usable_of_bounded hlibrary (allFinite_idleHoldSample h)
      (bounded_restingAttitude hlibrary h)) rfl⟩

end Targets

/-! ### Runs -/

section Runs

variable (hlibrary : library.Accurate) {node : TrajectoryNode (Double library)}

theorem value_smallNorm : ∃ d, (smallNorm : Double library).value = .finite d ∧
    1 / 2 ^ 30 ≤ d ∧ d ≤ 1 / 2 ^ 1 :=
  value_smallDistance

include hlibrary in
/-- A quaternion with a finite norm that is not small has a direction. -/
theorem quatMag_direction {q : Quat (Double library)} (hfinite : isFinite q.norm = true)
    (hnorm : le q.norm smallNorm = false) : QuatMag (q.divide q.norm) 2 := by
  obtain ⟨n, hn⟩ := isFinite_iff.mp hfinite
  obtain ⟨d, hd, hle, -⟩ := @value_smallNorm library
  rw [le_eq hn hd, decide_eq_false_iff_not, not_le] at hnorm
  have haway : Away q.norm 30 := ⟨n, hn, (hle.trans hnorm.le).trans (le_abs_self n)⟩
  exact (quatMag_divide_norm hlibrary haway (by omega)).mono (by omega)

theorem le_of_lt_smallNorm {x : Double library} (hfinite : isFinite x = true)
    (h : lt smallNorm x = true) : le x smallNorm = false := by
  obtain ⟨n, hn⟩ := isFinite_iff.mp hfinite
  obtain ⟨d, hd, -⟩ := @value_smallNorm library
  rw [lt_eq hd hn, decide_eq_true_eq] at h
  rw [le_eq hn hd, decide_eq_false_iff_not, not_le]
  exact h

theorem vecMag_of_inRange {v : Vec (Double library)} (h : v.all RobotCore.inRange = true) :
    VecMag v 100 := by
  rw [Vec.all, Bool.and_eq_true, Bool.and_eq_true] at h
  exact ⟨mag_of_inRange h.1.1, mag_of_inRange h.1.2, mag_of_inRange h.2⟩

include hlibrary in
theorem bounded_onBodyPose (h : node.Bounded) {msg : BodyPose (Double library)}
    (hmsg : (TrajectoryInput.bodyPose msg).inRange = true) : (onBodyPose node msg).Bounded := by
  have hyaw : (isFinite msg.orientation.norm && lt smallNorm msg.orientation.norm) = true →
      ∀ yaw ∈ some (quaternionToRpy (msg.orientation.divide msg.orientation.norm)).z,
        Mag yaw 3 := by
    rintro hnorm yaw hmem
    obtain rfl := Option.mem_some_iff.mp hmem
    rw [Bool.and_eq_true] at hnorm
    exact (mag_quaternionToRpy hlibrary (quatMag_direction hlibrary hnorm.1
      (le_of_lt_smallNorm hnorm.1 hnorm.2))).z
  unfold onBodyPose
  dsimp only
  by_cases hrejected : (!(msg.stateValid || msg.positionEstimated) || !msg.position.allFinite) =
      true
  · rw [if_pos hrejected]
    exact h
  · rw [if_neg hrejected]
    have hposition : ∀ p ∈ some msg.position, VecMag p 100 := by
      rintro p hp
      obtain rfl := Option.mem_some_iff.mp hp
      rw [Bool.or_eq_true, Bool.not_eq_true', Bool.not_eq_true', not_or, Bool.not_eq_false,
        Bool.not_eq_false] at hrejected
      rw [TrajectoryInput.inRange, hrejected.2, Bool.not_true, Bool.false_or] at hmsg
      exact vecMag_of_inRange hmsg
    split_ifs with hnorm
    · exact { h with
        latestPosition := hposition, initialPosition := hposition, latestMapYaw := hyaw hnorm }
    · exact { h with latestPosition := hposition, latestMapYaw := hyaw hnorm }
    · exact { h with latestPosition := hposition, initialPosition := hposition }
    · exact { h with latestPosition := hposition }

include hlibrary in
theorem bounded_onImu (h : node.Bounded) (msg : ImuReading (Double library)) :
    (onImu node msg).Bounded := by
  unfold onImu
  dsimp only
  split
  · exact h
  · rename_i yaw hyaw
    by_cases hrejected : (msg.frameId != "base_link" || lt msg.orientationCovariance (ofRat 0) ||
        !isFinite msg.orientation.norm || le msg.orientation.norm smallNorm) = true
    · rw [if_pos hrejected]
      exact h
    · rw [if_neg hrejected]
      simp only [Bool.or_eq_true, Bool.not_eq_true', not_or, Bool.not_eq_false,
        Bool.not_eq_true] at hrejected
      obtain ⟨hroll, hpitch, -⟩ := mag_quaternionToRpy hlibrary
        (quatMag_direction hlibrary hrejected.1.2 hrejected.2)
      have hunit := nearUnit_rpyQuaternion hlibrary hroll hpitch (h.latestMapYaw yaw hyaw)
        (by omega)
      have hlatest : ∀ q ∈ some (rpyQuaternion
          (quaternionToRpy (msg.orientation.divide msg.orientation.norm)).x
          (quaternionToRpy (msg.orientation.divide msg.orientation.norm)).y yaw),
          NearUnit q := by
        rintro q hq
        obtain rfl := Option.mem_some_iff.mp hq
        exact hunit
      exact { h with
        latestQuaternion := hlatest
        initialQuaternion := forall_mem_orElse h.initialQuaternion hlatest }

include hlibrary in
theorem bounded_latchHold (h : node.Bounded) : (latchHold node).Bounded := by
  have hcenter := (vecMag_center h).z
  have hquaternion : ∀ q ∈ node.motionStartQuaternion.map levelHeadingQuaternion, NearUnit q := by
    intro q hq
    obtain ⟨start, hstart, rfl⟩ := Option.mem_map.mp hq
    exact nearUnit_levelHeading hlibrary
      ((h.motionStartQuaternion start hstart).quatMag.mono (by omega))
  have hraised : ∀ p ∈ node.motionStartPosition.map
      fun position => { position with z := node.config.centerZ }, VecMag p 100 := by
    intro p hp
    obtain ⟨start, hstart, rfl⟩ := Option.mem_map.mp hp
    have hstart := h.motionStartPosition start hstart
    exact ⟨hstart.x, hstart.y, hcenter⟩
  unfold latchHold
  split_ifs
  · refine { h with altitudeHoldZ := fun z hz => ?_ }
    obtain rfl := Option.mem_some_iff.mp hz
    exact hcenter
  · exact { h with stationTargetPosition := hraised, stationTargetQuaternion := hquaternion }
  · rw [Option.map_id']
    exact { h with
      stationTargetPosition := h.motionStartPosition, stationTargetQuaternion := hquaternion }
  · exact h

include hlibrary in
theorem bounded_onResetScenario (h : node.Bounded) {nowNs : ℤ} (hnow : clockInRange nowNs = true) :
    (onResetScenario node nowNs).1.Bounded := by
  unfold onResetScenario
  dsimp only
  split_ifs
  · exact h
  · exact h
  · exact h
  · exact { bounded_latchHold hlibrary h with startedNs := hnow }

theorem bounded_onStopScenario (h : node.Bounded) {nowNs : ℤ} (hnow : clockInRange nowNs = true) :
    (onStopScenario node nowNs).1.Bounded :=
  { h with
    startedNs := hnow
    motionStartPosition := forall_mem_none
    motionStartQuaternion := forall_mem_none
    altitudeHoldZ := forall_mem_none
    stationTargetPosition := forall_mem_none
    stationTargetQuaternion := forall_mem_none }

theorem bounded_onValidateScenario (h : node.Bounded) : (onValidateScenario node).1.Bounded := by
  unfold onValidateScenario
  dsimp only
  split_ifs
  · exact { h with }
  · exact { h with }
  · exact bounded_checkEnvelope { h with
      motionStartPosition := h.latestPosition, motionStartQuaternion := h.latestQuaternion }
  · exact bounded_checkEnvelope { h with
      motionStartPosition := forall_mem_none, motionStartQuaternion := forall_mem_none }

theorem bounded_onManualCommand (h : node.Bounded) (msg : ManualCommand (Double library))
    (nowNs : ℤ) : (onManualCommand node msg nowNs).Bounded := by
  unfold onManualCommand
  split_ifs
  · exact h
  · exact { h with }

/-- The flag of a target does not make it usable. -/
theorem usable_withValid {target : TickTarget (Double library)} {timeS : Double library}
    (valid : Bool) : ({ target with valid }.message timeS).Usable ↔ (target.message timeS).Usable :=
  ⟨fun h => ⟨h.position, h.orientation, h.velocity, h.angularVelocity, h.acceleration,
      h.angularAcceleration⟩,
    fun h => ⟨h.position, h.orientation, h.velocity, h.angularVelocity, h.acceleration,
      h.angularAcceleration⟩⟩

include hlibrary in
theorem usable_trajectoryTick (h : node.Bounded) {nowNs : ℤ} (hnow : clockInRange nowNs = true) :
    (trajectoryTick node nowNs).1.Bounded ∧
      ((trajectoryTick node nowNs).2.Usable ↔ node.usesNan nowNs = false) := by
  unfold trajectoryTick
  dsimp only
  split_ifs with htracking
  · obtain ⟨hnode, husable⟩ := usable_trackingTarget hlibrary h hnow htracking
    exact ⟨hnode, (usable_withValid _).trans husable⟩
  · rw [Bool.not_eq_true] at htracking
    rw [TrajectoryNode.usesNan, htracking, Bool.false_and, Bool.false_and, Bool.false_and]
    exact ⟨h, iff_of_true (usable_of_bounded hlibrary (allFinite_idleHoldSample h)
      (bounded_restingAttitude hlibrary h)) rfl⟩

include hlibrary in
/-- Every callback keeps the members bounded, whatever else its message has. -/
theorem bounded_callback (h : node.Bounded) {input : TrajectoryInput (Double library)}
    (hinput : input.inRange = true) : (trajectoryCallback node input).1.Bounded := by
  cases input with
  | bodyPose msg => exact bounded_onBodyPose hlibrary h hinput
  | imu msg => exact bounded_onImu hlibrary h msg
  | manualCommand msg nowNs => exact bounded_onManualCommand h msg nowNs
  | operatorTargetInput msg nowNs => exact { h with }
  | reset nowNs => exact bounded_onResetScenario hlibrary h hinput
  | stop nowNs => exact bounded_onStopScenario h hinput
  | validate => exact bounded_onValidateScenario h
  | setParameters config => exact { h with config := hinput }
  | tick nowNs => exact (usable_trajectoryTick hlibrary h hinput).1

theorem bounded_init {config : TrajectoryConfig (Double library)} {startedNs : ℤ}
    (h : config.inRange = true) (hstarted : clockInRange startedNs = true) :
    ({ config, startedNs } : TrajectoryNode (Double library)).Bounded where
  config := h
  startedNs := hstarted
  initialPosition := forall_mem_none
  latestPosition := forall_mem_none
  motionStartPosition := forall_mem_none
  stationTargetPosition := forall_mem_none
  altitudeHoldZ := forall_mem_none
  latestMapYaw := forall_mem_none
  initialQuaternion := forall_mem_none
  latestQuaternion := forall_mem_none
  motionStartQuaternion := forall_mem_none
  stationTargetQuaternion := forall_mem_none

variable {config : TrajectoryConfig (Double library)} {startedNs nowNs : ℤ}
  {s : TrajectoryNode (Double library)} {x : TrajectoryTransition (Double library)}
  {tr : TrajectoryHistory (Double library)} {target : TrajectoryTarget (Double library)}

include hlibrary in
theorem bounded_of_run (hrun : (trajectoryMachine config startedNs).Run tr s)
    (hconfig : config.inRange = true) (hstarted : clockInRange startedNs = true)
    (hinputs : ∀ y ∈ tr, y.input.inRange = true) : s.Bounded := by
  refine hrun.invariant_of (C := fun y => y.input.inRange = true)
    (I := fun _ s => s.Bounded) (bounded_init hconfig hstarted) ?_ hinputs
  rintro tr s input s' output - h hstep hinput
  obtain ⟨rfl, -⟩ := Prod.mk.inj (Option.some.inj hstep)
  exact bounded_callback hlibrary h hinput

include hlibrary in
/-- **Usable targets.**  With parameters, positions and clocks in range, a target is usable if and
only if the tick that publishes it does not use an operator input with a nan, whatever the messages
before it. -/
theorem usable_iff_not_usesNan (hrun : (trajectoryMachine config startedNs).Run (x :: tr) s)
    (hconfig : config.inRange = true) (hstarted : clockInRange startedNs = true)
    (hinputs : ∀ y ∈ x :: tr, y.input.inRange = true) (hinput : x.input = .tick nowNs)
    (htarget : x.output.target = some target) :
    target.Usable ↔ x.pre.usesNan nowNs = false := by
  have hnow : clockInRange nowNs = true := by
    have htick := hinputs x List.mem_cons_self
    rwa [hinput] at htick
  have hstep := Option.some.inj hrun.head_step
  rw [hinput] at hstep
  obtain rfl : (trajectoryTick x.pre nowNs).2 = target := by
    rw [← (Prod.mk.inj hstep).2] at htarget
    exact Option.some.inj htarget
  exact (usable_trajectoryTick hlibrary (bounded_of_run hlibrary hrun.tail hconfig hstarted
    fun y hy => hinputs y (List.mem_cons_of_mem x hy)) hnow).2

end Runs

/-! ### A nan of the operator -/

section Operator

/-- A station hold without bounds. -/
def stationConfig {α : Type} [Scalar α] : TrajectoryConfig α where
  trajectoryType := "hold"
  controlMode := "station_hold"
  attitudeMode := "level_heading"
  relativeToInitialPose := false
  publishRateHz := ofRat 10
  centerX := ofRat 0
  centerY := ofRat 0
  centerZ := ofRat 0
  ampX := ofRat 1
  ampY := ofRat 1
  ampZ := ofRat 1
  radiusM := ofRat 1
  trajectorySpeedMps := ofRat 1
  trajectoryRampS := ofRat 0
  holdBeforeMotionS := ofRat 0
  moveDurationS := ofRat 18
  requirePoolBounds := false
  poolMinXyz := []
  poolMaxXyz := []
  trajectoryLimitsConfigured := false
  maxLinearSpeedMps := ofRat 0
  maxAngularSpeedRps := ofRat 0
  attitudeMinRpyDeg := []
  attitudeMaxRpyDeg := []
  manualVerticalSpeedMps := ofRat 1
  manualInputAgeS := ofRat 1
  stationLinearInputGainMps := ofRat 1
  stationLateralInputGainMps := ofRat 1
  stationYawInputGainRps := ofRat 1

theorem inRange_ofRat {q : ℚ} (h : |q| ≤ 2 ^ 5) : inRange (ofRat q : Double library) = true := by
  obtain ⟨r, hr, hle⟩ : Mag (ofRat q : Double library) 5 := mag_literal h (by omega)
  have hlimit : (ofRat (2 ^ 100) : Double library).value = .finite (2 ^ 100) :=
    value_ofRat (representable_two_pow (by omega)) (n := 100) (by rw [abs_of_pos (by positivity)])
      (by omega)
  rw [inRange, le_eq (Double.value_abs hr) hlimit, decide_eq_true_iff]
  exact hle.trans (two_pow_le (by omega))

theorem inRange_stationConfig : (stationConfig : TrajectoryConfig (Double library)).inRange =
    true := by
  have hzero : inRange (ofRat 0 : Double library) = true := inRange_ofRat (by norm_num)
  have hone : inRange (ofRat 1 : Double library) = true := inRange_ofRat (by norm_num)
  have hten : inRange (ofRat 10 : Double library) = true := inRange_ofRat (by norm_num)
  have height : inRange (ofRat 18 : Double library) = true := inRange_ofRat (by norm_num)
  have hramp : le (ofRat 0 : Double library) (ofRat 0) = true := by
    rw [le_eq value_ofRat_zero value_ofRat_zero]
    rfl
  simp [TrajectoryConfig.inRange, TrajectoryConfig.values, stationConfig, hzero, hone, hten,
    height, hramp]

theorem value_seconds_zero : (seconds 0 : Double library).value = .finite 0 := by
  obtain ⟨r, hr, -⟩ : Mag (ofRat (1 / 10 ^ 9) : Double library) 0 :=
    mag_literal (by norm_num) (by omega)
  rw [seconds, Int.cast_zero, value_mul value_ofRat_zero hr, zero_mul]
  exact value_ofRat_zero

theorem exists_isNan : ∃ x : Double library, isNan x = true :=
  ⟨(Number.nan : Binary64), isNan_iff.mpr rfl⟩

/-- A scenario with any parameters is measured, validated and started at once. -/
theorem exists_tracking (hlibrary : library.Accurate) {config : TrajectoryConfig (Double library)}
    (hcompatible : controlModeIsCompatible config.activeType config.activeMode = true) :
    ∃ tr s, (trajectoryMachine config 0).Run tr s ∧ (∀ y ∈ tr, y.input.inRange = true) ∧
      s.config = config ∧ s.trackingStarted = true ∧ s.startedNs = 0 := by
  let pose : BodyPose (Double library) := ⟨true, true, Vec.zero, Quat.identity⟩
  let imu : ImuReading (Double library) := ⟨"base_link", ofRat 0, Quat.identity, Vec.zero⟩
  -- the identity has a norm near one
  obtain ⟨n, hn, hnlow, -⟩ := (@nearUnit_identity library).exists_norm hlibrary
  obtain ⟨d, hd, -, hhalf⟩ := @value_smallNorm library
  have hfinite : isFinite (Quat.identity : Quat (Double library)).norm = true :=
    isFinite_iff.mpr ⟨n, hn⟩
  have hdirection : lt smallNorm (Quat.identity : Quat (Double library)).norm = true := by
    rw [lt_eq hd hn, decide_eq_true_iff]
    linarith
  have hnorm : (isFinite pose.orientation.norm && lt smallNorm pose.orientation.norm) = true := by
    rw [hfinite, hdirection]
    rfl
  have haccepted : imu.accepted = true := by
    have hcovariance : lt (ofRat 0 : Double library) (ofRat 0) = false := by
      rw [lt_eq value_ofRat_zero value_ofRat_zero]
      rfl
    rw [ImuReading.accepted, hcovariance, hfinite, le_of_lt_smallNorm hfinite hdirection]
    rfl
  -- the scenario starts
  obtain ⟨x, before, s, hrun, hstarted⟩ := exists_started hcompatible rfl
    (vecMag_zero (n := 0) (by omega)).allFinite hnorm haccepted 0 0
  obtain ⟨startNs, hreset, htracking, hstartNs, -⟩ := started_of_startsScenario hrun hstarted.starts
  obtain rfl := hrun.head_post
  have hinputs : (x :: before).map (·.input) = (startInputs pose imu 0).reverse := by
    rw [← hstarted.inputs, List.reverse_reverse]
  obtain rfl : startNs = 0 := by
    have hhead : x.input = .reset 0 := (List.cons.inj hinputs).1
    rw [hreset] at hhead
    exact TrajectoryInput.reset.inj hhead
  refine ⟨_, _, hrun, fun y hy => ?_, hstarted.config, htracking, hstartNs⟩
  have hmem := List.mem_map_of_mem (f := (·.input)) hy
  rw [hinputs, List.mem_reverse] at hmem
  simp only [startInputs, List.mem_cons, List.not_mem_nil, or_false] at hmem
  rcases hmem with hmem | hmem | hmem | hmem <;> rw [hmem]
  · have hzero : (Vec.zero : Vec (Double library)).all RobotCore.inRange = true := by
      rw [Vec.all, Vec.zero, inRange_ofRat (by norm_num)]
      rfl
    rw [TrajectoryInput.inRange, hzero, Bool.or_true]
  · rfl
  · rfl
  · rfl

theorem trajectoryTick_of_tracking {node : TrajectoryNode (Double library)} {nowNs : ℤ}
    (h : node.trackingStarted = true) :
    (trajectoryTick node nowNs).2 = ({ (trackingTarget node nowNs).2 with
      valid := (trackingTarget node nowNs).2.valid && controlModeIsCompatible
        node.config.activeType node.config.activeMode } : TickTarget (Double library)).message
          (node.timeS nowNs) := by
  rw [trajectoryTick, if_pos h]

/-- A started station hold, with an operator input of the same time. -/
theorem station_run (hlibrary : library.Accurate) (forward : Double library) :
    ∃ tr s, (trajectoryMachine (α := Double library) stationConfig 0).Run tr s ∧
      (∀ y ∈ tr, y.input.inRange = true) ∧ (trajectoryTick s 0).2.valid = true ∧
      s.usesNan 0 = isNan forward := by
  have htype : (stationConfig : TrajectoryConfig (Double library)).activeType = "hold" := by
    have hlower : "hold".toLower = "hold" := by decide +kernel
    exact hlower
  have hmode : (stationConfig : TrajectoryConfig (Double library)).activeMode =
      "station_hold" := by
    have hlower : "station_hold".toLower = "station_hold" := by decide +kernel
    exact hlower
  -- the pair of type and mode is accepted
  have hcompatible : controlModeIsCompatible
      (stationConfig : TrajectoryConfig (Double library)).activeType
      (stationConfig : TrajectoryConfig (Double library)).activeMode = true := by
    rw [htype, hmode]
    rfl
  obtain ⟨tr, s, hrun, hinputs, hconfig, htracking, -⟩ := exists_tracking hlibrary hcompatible
  -- an input of the operator arrives, with anything as its forward stick
  let input : OperatorInput (Double library) := ⟨⟨forward, ofRat 0, ofRat 0⟩, ofRat 0⟩
  let node := onOperatorTargetInput s input 0
  have hnode : node.config = stationConfig := hconfig
  have hfresh : node.tooOld (some 0) 0 = false := by
    have hage : (seconds 0 : Double library).value = .finite 0 := value_seconds_zero
    rw [TrajectoryNode.tooOld, hnode]
    change lt (ofRat 1) (seconds 0) = false
    rw [lt_eq value_ofRat_one hage]
    rfl
  refine ⟨_, node, .step hrun (i := .operatorTargetInput input 0) rfl, ?_, ?_, ?_⟩
  · rintro y (_ | ⟨_, hy⟩)
    · rfl
    · exact hinputs y hy
  -- the target is valid: the check looks at its position only
  · have htarget : (trackingTarget node 0).2.valid = true := by
      have hkept : (stationHoldTarget node 0).1.config = stationConfig := hnode
      unfold trackingTarget
      dsimp only
      rw [hnode, htype, hmode, if_neg (by decide), if_pos (by decide)]
      unfold scenarioTarget targetIsValid
      rw [hkept]
      rfl
    have hstill : node.trackingStarted = true := htracking
    rw [trajectoryTick_of_tracking hstill, TickTarget.message, htarget, hnode, hcompatible]
    rfl
  -- the tick uses the input while it is fresh
  · have hstill : isNan (ofRat 0 : Double library) = false := isNan_of_value value_ofRat_zero
    have hnan : node.nanInput 0 = isNan forward := by
      change (!node.tooOld (some 0) 0 && (isNan forward || isNan (ofRat 0 : Double library) ||
        isNan (ofRat 0 : Double library) || isNan (ofRat 0 : Double library))) = isNan forward
      rw [hfresh, hstill, Bool.or_false, Bool.or_false, Bool.or_false]
      rfl
    rw [TrajectoryNode.usesNan, hnan, hnode, htype, hmode,
      show node.trackingStarted = true from htracking]
    rfl

/-! ### An overflow -/

/-- A double whose sum with its half is none. -/
def farOff : ℚ := 3 * 2 ^ 1022

/-- A circle as wide as its center is far off. -/
def farConfig {α : Type} [Scalar α] : TrajectoryConfig α :=
  { (stationConfig : TrajectoryConfig α) with
    trajectoryType := "circle"
    centerY := ofRat (-farOff)
    radiusM := ofRat farOff
    trajectorySpeedMps := ofRat 0 }

theorem farOff_pos : 0 < farOff := mul_pos (by norm_num) (by positivity)

theorem representable_farOff : Representable binary64 farOff :=
  ⟨3, 1022, rfl, by norm_num [binary64], by norm_num [binary64]⟩

theorem representable_half_farOff : Representable binary64 (farOff / 2) := by
  refine ⟨3, 1021, ?_, by norm_num [binary64], by norm_num [binary64]⟩
  have hpow : (2 : ℚ) ^ 1022 = 2 ^ 1021 * 2 := pow_succ 2 1021
  rw [farOff, hpow, Int.cast_ofNat, mul_div_assoc, mul_div_cancel_right₀ _ (two_ne_zero' ℚ)]
  exact congrArg (3 * ·) (zpow_natCast 2 1021).symm

theorem two_pow_le_farOff : 2 ^ 1024 ≤ farOff + farOff / 2 := by
  have hpow : (2 : ℚ) ^ 1024 = 2 ^ 1022 * 2 ^ 2 := pow_add 2 1022 2
  have hpos : (0 : ℚ) < 2 ^ 1022 := by positivity
  rw [hpow, farOff]
  generalize (2 : ℚ) ^ 1022 = u at hpos ⊢
  linarith

theorem value_of_abs_farOff {q : ℚ} (h : Representable binary64 q) (hq : |q| = farOff) :
    (ofRat q : Double library).value = .finite q := by
  have hround : roundTo binary64 q = q := roundTo_of_representable h
  refine (Number.value_ofRat (f := binary64) ?_).trans (by rw [hround])
  have hmax : (2 : ℚ) ^ binary64.maxExponent = 4 * 2 ^ 1022 := by
    rw [show (4 : ℚ) = 2 ^ 2 by norm_num, ← pow_add]
    exact zpow_natCast 2 1024
  rw [hround, hmax, hq]
  exact mul_lt_mul_of_pos_right (by norm_num) (by positivity)

/-- What lies below all doubles overflows. -/
theorem isFinite_ofRat_of_le {q : ℚ} (h : q ≤ -2 ^ 1024) :
    isFinite (ofRat q : Double library) = false := by
  have hmax : (2 : ℚ) ^ binary64.maxExponent = 2 ^ 1024 := zpow_natCast 2 1024
  have hlimit : Representable binary64 (-2 ^ 1024) :=
    ⟨-1, 1024, by rw [Int.cast_neg, Int.cast_one, neg_one_mul]; exact congrArg Neg.neg hmax.symm,
      by norm_num [binary64], by norm_num [binary64]⟩
  have hround : roundTo binary64 q ≤ -2 ^ 1024 :=
    (roundTo_mono h).trans_eq (roundTo_of_representable hlimit)
  have hover : 2 ^ binary64.maxExponent ≤ |roundTo binary64 q| := by
    rw [hmax]
    exact (le_neg.mpr hround).trans (neg_le_abs _)
  have hvalue : (ofRat q : Double library).value = .infinity (decide (q < 0)) :=
    Number.value_ofRat_of_overflow (f := binary64) hover
  rw [Bool.eq_false_iff, Ne, isFinite_iff, hvalue]
  rintro ⟨r, hr⟩
  cases hr

/-- The start of the circle is not finite. -/
theorem isFinite_farOff (hlibrary : library.Accurate) {phase : Double library}
    (hphase : phase.value = .finite 0) :
    isFinite (ofRat (-farOff) + -Scalar.abs (ofRat farOff) * cos phase) = false := by
  have hcenter : (ofRat (-farOff) : Double library).value = .finite (-farOff) :=
    value_of_abs_farOff (representable_neg representable_farOff)
      (by rw [abs_neg, abs_of_pos farOff_pos])
  have hradius : (-Scalar.abs (ofRat farOff : Double library)).value = .finite (-farOff) := by
    rw [value_neg (Double.value_abs (value_of_abs_farOff representable_farOff
      (abs_of_pos farOff_pos))), abs_of_pos farOff_pos]
  obtain ⟨c, hc, hlow⟩ := half_le_cos_zero hlibrary hphase
  rw [Bool.eq_false_iff, Ne, isFinite_iff]
  rintro ⟨r, hr⟩
  -- both parts would be finite, and the second of them below minus a half of the radius
  obtain ⟨-, q, -, hq, -⟩ := exists_of_add hr
  have hproduct : (ofRat (-farOff * c) : Double library).value = .finite q :=
    value_mul hradius hc ▸ hq
  have hoffset : q ≤ -(farOff / 2) := by
    rw [eq_roundTo hproduct,
      ← roundTo_of_representable (representable_neg representable_half_farOff)]
    refine roundTo_mono ?_
    have hscaled := mul_le_mul_of_nonneg_left hlow farOff_pos.le
    linarith
  have hsum : -farOff + q ≤ -(farOff + farOff / 2) := by linarith
  have hsum := hsum.trans (neg_le_neg two_pow_le_farOff)
  have hover : isFinite (ofRat (-farOff + q) : Double library) = false := isFinite_ofRat_of_le hsum
  rw [Bool.eq_false_iff, Ne, isFinite_iff, ← Double.value_add hcenter hq] at hover
  exact hover ⟨r, hr⟩

theorem isFinite_farConfig :
    (farConfig : TrajectoryConfig (Double library)).values.all isFinite = true := by
  have hfar : isFinite (ofRat farOff : Double library) = true :=
    isFinite_iff.mpr ⟨_, value_of_abs_farOff representable_farOff (abs_of_pos farOff_pos)⟩
  have hcenter : isFinite (ofRat (-farOff) : Double library) = true :=
    isFinite_iff.mpr ⟨_, value_of_abs_farOff (representable_neg representable_farOff)
      (by rw [abs_neg, abs_of_pos farOff_pos])⟩
  have hsmall {q : ℚ} (h : |q| ≤ 2 ^ 5) : isFinite (ofRat q : Double library) = true :=
    (mag_literal h (by omega)).isFinite
  have hzero := hsmall (q := 0) (by norm_num)
  have hone := hsmall (q := 1) (by norm_num)
  have hten := hsmall (q := 10) (by norm_num)
  have height := hsmall (q := 18) (by norm_num)
  simp [TrajectoryConfig.values, farConfig, stationConfig, hfar, hcenter, hzero, hone, hten,
    height]

theorem activeType_farConfig :
    (farConfig : TrajectoryConfig (Double library)).activeType = "circle" := by
  have hlower : "circle".toLower = "circle" := by decide +kernel
  exact hlower

theorem activeMode_farConfig :
    (farConfig : TrajectoryConfig (Double library)).activeMode = "station_hold" := by
  have hlower : "station_hold".toLower = "station_hold" := by decide +kernel
  exact hlower

/-- Without a speed, the circle stays at its start. -/
theorem phase_farConfig (t : Double library) :
    (phaseKinematics farConfig t (circleRadius farConfig)).value = ofRat 0 := by
  have hspeed : le (pathSpeed farConfig : Double library) (ofRat 0) = true := by
    refine (le_eq (Double.value_abs value_ofRat_zero) value_ofRat_zero).trans ?_
    rw [abs_zero]
    rfl
  rw [phaseKinematics, hspeed]
  rfl

section Far

variable {s : TrajectoryNode (Double library)} (hconfig : s.config = farConfig)
  (htracking : s.trackingStarted = true) (hstarted : s.startedNs = 0)

include hconfig in
theorem isFinite_samplePath_farConfig (hlibrary : library.Accurate) (t : Double library) :
    isFinite (s.samplePath "circle" t).position.y = false := by
  have hy : (s.samplePath "circle" t).position.y =
      ofRat (-farOff) + -Scalar.abs (ofRat farOff) * cos (ofRat 0) := by
    rw [TrajectoryNode.samplePath, if_pos (by decide), TrajectoryNode.origin, hconfig,
      ← phase_farConfig t]
    rfl
  rw [hy]
  exact isFinite_farOff hlibrary value_ofRat_zero

include hconfig htracking hstarted in
/-- The hold before the motion is over at once. -/
theorem trackingTarget_farConfig : ∃ t, trackingTarget s 0 = scenarioTarget s
    (s.samplePath "circle" t) (sampleAttitude s.config (s.pathAttitude "circle") t) "tracking" := by
  have htime : (s.timeS 0 : Double library).value = .finite 0 := by
    rw [TrajectoryNode.timeS, if_pos htracking, hstarted]
    exact pyMax_of (P := fun x => x.value = .finite 0) value_ofRat_zero value_seconds_zero
  have hhold : lt (s.timeS 0) s.config.holdS = false := by
    have hzero : (pyMax (ofRat 0) (ofRat 0) : Double library).value = .finite 0 :=
      pyMax_of (P := fun x => x.value = .finite 0) value_ofRat_zero value_ofRat_zero
    rw [hconfig]
    exact (lt_eq htime hzero).trans (decide_eq_false (lt_irrefl 0))
  refine ⟨pyMax (ofRat 0) (s.timeS 0 - s.config.holdS), ?_⟩
  unfold trackingTarget
  dsimp only
  rw [hhold, hconfig, activeType_farConfig, activeMode_farConfig, if_neg (by decide),
    if_neg (by decide), if_neg (by decide), if_pos (by decide)]

end Far

/-- A started circle, as wide as its center is far off. -/
theorem far_run (hlibrary : library.Accurate) :
    ∃ tr s, (trajectoryMachine (α := Double library) farConfig 0).Run tr s ∧
      (∀ y ∈ tr, y.input.inRange = true) ∧ (trajectoryTick s 0).2.valid = true ∧
      s.usesNan 0 = false ∧ isFinite (trajectoryTick s 0).2.position.y = false := by
  have hcompatible : controlModeIsCompatible
      (farConfig : TrajectoryConfig (Double library)).activeType
      (farConfig : TrajectoryConfig (Double library)).activeMode = true := by
    rw [activeType_farConfig, activeMode_farConfig]
    rfl
  obtain ⟨tr, s, hrun, hinputs, hconfig, htracking, hstarted⟩ :=
    exists_tracking hlibrary hcompatible
  obtain ⟨t, htarget⟩ := trackingTarget_farConfig hconfig htracking hstarted
  refine ⟨tr, s, hrun, hinputs, ?_, ?_, ?_⟩
  · have hvalid : (trackingTarget s 0).2.valid = true := by
      rw [htarget]
      unfold scenarioTarget targetIsValid
      rw [hconfig]
      rfl
    rw [trajectoryTick_of_tracking htracking, TickTarget.message, hvalid, hconfig, hcompatible]
    rfl
  · rw [TrajectoryNode.usesNan, hconfig, activeType_farConfig, activeMode_farConfig]
    simp
  · rw [trajectoryTick_of_tracking htracking, htarget]
    exact isFinite_samplePath_farConfig hconfig hlibrary t

/-- A stick at rest. -/
theorem usable_iff_not_usesNan_resting : ∃ x tr s target,
    (trajectoryMachine (α := Double referenceLibrary) stationConfig 0).Run (x :: tr) s ∧
      x.output.target = some target ∧ target.valid = true ∧ x.pre.usesNan 0 = false ∧
      target.Usable := by
  obtain ⟨tr, s, hrun, hinputs, hvalid, hnan⟩ :=
    station_run accurate_referenceLibrary (ofRat 0)
  rw [isNan_of_value value_ofRat_zero] at hnan
  have hrun' := hrun.step (i := .tick 0) rfl
  refine ⟨_, tr, _, _, hrun', rfl, hvalid, hnan, (usable_iff_not_usesNan accurate_referenceLibrary
    hrun' inRange_stationConfig rfl ?_ rfl rfl).mpr hnan⟩
  rintro y (_ | ⟨_, hy⟩)
  · rfl
  · exact hinputs y hy

/-- A nan of the operator is in a valid target, and so is an overflow of finite parameters. -/
theorem unusable_target :
    (∃ x tr s target,
      (trajectoryMachine (α := Double referenceLibrary) stationConfig 0).Run (x :: tr) s ∧
      (∀ y ∈ x :: tr, y.input.inRange = true) ∧ x.output.target = some target ∧
      target.valid = true ∧ ¬target.Usable) ∧
    (farConfig : TrajectoryConfig (Double referenceLibrary)).values.all isFinite = true ∧
    ∃ x tr s target,
      (trajectoryMachine (α := Double referenceLibrary) farConfig 0).Run (x :: tr) s ∧
      (∀ y ∈ x :: tr, y.input.inRange = true) ∧ x.pre.usesNan 0 = false ∧
      x.output.target = some target ∧ target.valid = true ∧ ¬target.Usable := by
  have htick {tr : TrajectoryHistory (Double referenceLibrary)}
      {x : TrajectoryTransition (Double referenceLibrary)} (hx : x.input = .tick 0)
      (h : ∀ y ∈ tr, y.input.inRange = true) : ∀ y ∈ x :: tr, y.input.inRange = true := by
    rintro y (_ | ⟨_, hy⟩)
    · rw [hx]
      rfl
    · exact h y hy
  refine ⟨?_, isFinite_farConfig, ?_⟩
  · obtain ⟨forward, hforward⟩ := @exists_isNan referenceLibrary
    obtain ⟨tr, s, hrun, hinputs, hvalid, hnan⟩ := station_run accurate_referenceLibrary forward
    have hbounded :=
      bounded_of_run accurate_referenceLibrary hrun inRange_stationConfig rfl hinputs
    refine ⟨_, tr, _, _, hrun.step (i := .tick 0) rfl, htick rfl hinputs, rfl, hvalid,
      fun husable => ?_⟩
    rw [(usable_trajectoryTick accurate_referenceLibrary hbounded rfl).2, hnan, hforward]
      at husable
    cases husable
  · obtain ⟨tr, s, hrun, hinputs, hvalid, hnan, hfinite⟩ := far_run accurate_referenceLibrary
    refine ⟨_, tr, _, _, hrun.step (i := .tick 0) rfl, htick rfl hinputs, hnan, rfl, hvalid,
      fun husable => ?_⟩
    have hposition : ((isFinite _ && isFinite _) && isFinite _) = true := husable.position
    rw [hfinite, Bool.and_false, Bool.false_and] at hposition
    cases hposition

end Operator

end RobotCore
