import RobotCore.Trajectory.Equiv.Motion

/-!
# How far a path goes

A path stays within an extent from its center (`trajectory_extent`), and one that does not move
stays at its start (`trajectory_resting`).
-/

namespace RobotCore

open Scalar

section Extent

variable {α : Type} [Scalar α] (config : TrajectoryConfig α)

/-- The distance for each radian of the phase. -/
def pathDistance (trajectoryType : String) : α :=
  if trajectoryType == "spatial_lissajous" then lissajousLapLength config
  else if trajectoryType == "circle" then circleRadius config
  else if trajectoryType == "racetrack" then racetrackLapLength config / twoPi
  else halfLength config

/-- The target does not rest at the start of the path. -/
def pathMoves (trajectoryType : String) : Bool :=
  lt (ofRat 0) (pathSpeed config) && lt smallDistance (pathDistance config trajectoryType)

/-- How far a path goes from its center. -/
def pathExtent (trajectoryType : String) : Vec α :=
  if trajectoryType == "spatial_lissajous" then lissajousAmplitude config
  else if trajectoryType == "circle" then ⟨circleRadius config, circleRadius config, ofRat 0⟩
  else if trajectoryType == "racetrack" then
    ⟨straightHalfLength config + racetrackRadius config, racetrackRadius config, ofRat 0⟩
  else ⟨halfLength config, ofRat 0, ofRat 0⟩

end Extent

attribute [local instance] realScalar

section Extent

variable {config : TrajectoryConfig ℝ} {trajectoryType : String}

theorem automatic_cases (h : isAutomatic trajectoryType = true) :
    trajectoryType = "spatial_lissajous" ∨ trajectoryType = "circle" ∨
      trajectoryType = "racetrack" ∨ trajectoryType = "straight_line" := by
  simpa [isAutomatic, automaticTrajectoryTypes] using h

/-- The check that a path rests. -/
theorem rests_eq (distance : ℝ) : (le distance smallDistance || le (pathSpeed config) (ofRat 0)) =
    !(lt (ofRat 0) (pathSpeed config) && lt smallDistance distance) := by
  simp only [le_real, lt_real, Bool.not_and, ← decide_not, not_lt]
  exact Bool.or_comm _ _

theorem phase_resting (hdistance : 0 ≤ pathDistance config trajectoryType)
    (hmoves : pathMoves config trajectoryType = false) (t : ℝ) :
    phaseKinematics config t (pathDistance config trajectoryType) =
      ⟨ofRat 0, ofRat 0, ofRat 0⟩ := by
  rw [pathMoves] at hmoves
  generalize pathDistance config trajectoryType = distance at *
  have habs : Scalar.abs distance = distance := abs_of_nonneg hdistance
  simp only [phaseKinematics]
  rw [habs, Bool.or_comm, rests_eq, hmoves, if_pos (by decide)]

theorem twoPi_pos : (0 : ℝ) < twoPi := by
  rw [twoPi_real]
  exact mul_pos two_pos Real.pi_pos

/-- A path that does not move stays at its start. -/
theorem trajectory_resting (h : isAutomatic trajectoryType = true)
    (hmoves : pathMoves config trajectoryType = false) (t : ℝ) :
    (trajectoryKinematics config trajectoryType t).offset =
        (trajectoryKinematics config trajectoryType 0).offset ∧
      (trajectoryKinematics config trajectoryType t).velocity.norm = 0 := by
  have hstill (first : Vec ℝ) : (first.scale (ofRat 0)).norm = 0 := by
    rw [norm_scale, ofRat_real, Rat.cast_zero, abs_zero, zero_mul]
  rcases automatic_cases h with rfl | rfl | rfl | rfl
  · change (spatialLissajousKinematics config t).offset =
      (spatialLissajousKinematics config 0).offset ∧
        (spatialLissajousKinematics config t).velocity.norm = 0
    have hrests : ∀ t, spatialLissajousKinematics config t = .still := by
      intro t
      unfold spatialLissajousKinematics
      dsimp only
      rw [rests_eq, if_pos]
      rw [Bool.not_eq_true']
      exact hmoves
    rw [hrests, hrests]
    exact ⟨rfl, norm_zero⟩
  · have hdistance : 0 ≤ pathDistance config "circle" := abs_nonneg _
    have hphase := phase_resting hdistance hmoves
    change (circleKinematics config t).offset = (circleKinematics config 0).offset ∧
      (circleKinematics config t).velocity.norm = 0
    unfold circleKinematics
    dsimp only
    rw [show circleRadius config = pathDistance config "circle" from rfl, hphase, hphase]
    exact ⟨rfl, hstill _⟩
  · have hdistance : 0 ≤ pathDistance config "racetrack" :=
      div_nonneg (racetrackLapLength_pos config).le twoPi_pos.le
    have hphase := phase_resting hdistance hmoves
    change (racetrackKinematics config t).offset = (racetrackKinematics config 0).offset ∧
      (racetrackKinematics config t).velocity.norm = 0
    unfold racetrackKinematics
    dsimp only
    rw [show racetrackLapLength config / twoPi = pathDistance config "racetrack" from rfl, hphase,
      hphase]
    exact ⟨rfl, hstill _⟩
  · have hdistance : 0 ≤ pathDistance config "straight_line" := abs_nonneg _
    have hphase := phase_resting hdistance hmoves
    change (straightLineKinematics config t).offset = (straightLineKinematics config 0).offset ∧
      (straightLineKinematics config t).velocity.norm = 0
    unfold straightLineKinematics
    dsimp only
    rw [show halfLength config = pathDistance config "straight_line" from rfl, hphase, hphase]
    exact ⟨rfl, hstill _⟩

/-- A product with a sine or a cosine. -/
theorem abs_mul_le_of_abs_le_one {a c : ℝ} (ha : 0 ≤ a) (hc : |c| ≤ 1) : |a * c| ≤ a := by
  rw [abs_mul, abs_of_nonneg ha]
  exact mul_le_of_le_one_right ha hc

theorem racetrackPoint_extent {distance : ℝ} (h : 0 ≤ distance) (axis : Vec.Axis) :
    |(racetrackPoint config distance).1.component axis| ≤
      (pathExtent config "racetrack").component axis := by
  obtain ⟨hx, hy, hz, -⟩ := racetrackPoint_eq config distance
  have hradius := racetrackRadius_pos config
  have hhalf := straightHalfLength_nonneg config
  have hextent : pathExtent config "racetrack" =
      ⟨straightHalfLength config + racetrackRadius config, racetrackRadius config, 0⟩ := by
    refine Vec.ext rfl rfl ?_
    exact Rat.cast_zero
  rw [hextent]
  generalize racetrackRadius config = r at *
  generalize straightHalfLength config = half at *
  have hturn (c : ℝ) (hc : |c| ≤ 1) : -r ≤ r * c ∧ r * c ≤ r :=
    abs_le.mp (abs_mul_le_of_abs_le_one hradius.le hc)
  cases axis with
  | x =>
    change |(racetrackPoint config distance).1.x| ≤ half + r
    rw [hx, abs_le]
    split_ifs with hfirst hsecond hthird
    · constructor <;> linarith
    · have hcos := hturn _ (Real.abs_cos_le_one (-(Real.pi / 2) + (distance - 2 * half) / r))
      constructor <;> linarith
    · constructor <;> linarith
    · have hcos := hturn _ (Real.abs_cos_le_one
        (Real.pi / 2 + (distance - 2 * (2 * half) - Real.pi * r) / r))
      constructor <;> linarith
  | y =>
    change |(racetrackPoint config distance).1.y| ≤ r
    rw [hy, abs_le]
    split_ifs
    · constructor <;> linarith
    · exact hturn _ (Real.abs_sin_le_one _)
    · constructor <;> linarith
    · exact hturn _ (Real.abs_sin_le_one _)
  | z =>
    change |(racetrackPoint config distance).1.z| ≤ 0
    rw [hz, abs_zero]

/-- A path stays within its extent. -/
theorem trajectory_extent (h : isAutomatic trajectoryType = true) (t : ℝ) (axis : Vec.Axis) :
    |(trajectoryKinematics config trajectoryType t).offset.component axis| ≤
      (pathExtent config trajectoryType).component axis := by
  have hzero : |((0 : ℚ) : ℝ)| ≤ ((0 : ℚ) : ℝ) := by simp
  rcases automatic_cases h with rfl | rfl | rfl | rfl
  · change |(spatialLissajousKinematics config t).offset.component axis| ≤
      (lissajousAmplitude config).component axis
    have hamp : 0 ≤ (lissajousAmplitude config).component axis := by
      cases axis <;> exact abs_nonneg _
    unfold spatialLissajousKinematics
    dsimp only
    split_ifs
    · refine le_trans (le_of_eq ?_) hamp
      cases axis <;> exact (congrArg _ Rat.cast_zero).trans abs_zero
    · cases axis <;> exact abs_mul_le_of_abs_le_one hamp (Real.abs_sin_le_one _)
  · change |(circleKinematics config t).offset.component axis| ≤
      Vec.component ⟨circleRadius config, circleRadius config, ofRat 0⟩ axis
    have hradius : 0 ≤ circleRadius config := abs_nonneg _
    cases axis with
    | x => exact abs_mul_le_of_abs_le_one hradius (Real.abs_sin_le_one _)
    | y =>
      change |-circleRadius config * Real.cos _| ≤ circleRadius config
      rw [neg_mul, abs_neg]
      exact abs_mul_le_of_abs_le_one hradius (Real.abs_cos_le_one _)
    | z => exact hzero
  · have hmod (phase : ℝ) : 0 ≤ mod phase (twoPi : ℝ) := by
      change 0 ≤ phase - twoPi * ⌊phase / twoPi⌋
      rw [mul_comm]
      exact Int.sub_floor_div_mul_nonneg phase twoPi_pos
    exact racetrackPoint_extent (div_nonneg
      (mul_nonneg (hmod _) (racetrackLapLength_pos config).le) twoPi_pos.le) axis
  · change |(straightLineKinematics config t).offset.component axis| ≤
      Vec.component ⟨halfLength config, ofRat 0, ofRat 0⟩ axis
    cases axis with
    | x =>
      change |-halfLength config * Real.cos _| ≤ halfLength config
      rw [neg_mul, abs_neg]
      exact abs_mul_le_of_abs_le_one (abs_nonneg _) (Real.abs_cos_le_one _)
    | y => exact hzero
    | z => exact hzero

end Extent

end RobotCore
