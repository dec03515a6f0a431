import RobotCore.Lib.Piecewise
import RobotCore.Lib.Scalar.Real
import RobotCore.Trajectory.Node

/-!
# The motion of the target

In exact arithmetic the planar paths are piecewise motions (`isVecMotion_circle`,
`isVecMotion_straightLine`, `isVecMotion_racetrack`): the ramp and the laps of the racetrack join
without a jump of position or velocity.  No path is faster than its path speed, and the approach
stays on its segment (`approach_segment`) with a speed that peaks in its middle (`approach_speed`).
-/

namespace RobotCore

open Scalar

attribute [local instance] realScalar

section Paths

variable (config : TrajectoryConfig ℝ)

/-- The effective time of the ramp, from the fraction of it that has passed. -/
theorem rampedTime_eq (t : ℝ) :
    let ramp := max 0 config.trajectoryRampS
    let f := min (max (t / ramp) 0) 1
    (rampedTimeKinematics config t).value =
        (if 0 < ramp ∧ t < ramp then ramp * (f ^ 3 - 1 / 2 * f ^ 4) else t - 1 / 2 * ramp) ∧
      (rampedTimeKinematics config t).rate =
        if 0 < ramp ∧ t < ramp then 3 * f ^ 2 - 2 * f ^ 3 else 1 := by
  simp only [rampedTimeKinematics, rampS, pyMax_real, clip_real, pow_real, lt_real, ofRat_real,
    Bool.and_eq_true, decide_eq_true_eq, Rat.cast_zero]
  constructor <;> split_ifs <;> norm_num

/-- The rate of the ramp lies between rest and full speed. -/
theorem rampedRate_mem (t : ℝ) :
    0 ≤ (rampedTimeKinematics config t).rate ∧ (rampedTimeKinematics config t).rate ≤ 1 := by
  rw [(rampedTime_eq config t).2]
  split_ifs
  · have hlow : 0 ≤ min (max (t / max 0 config.trajectoryRampS) 0) 1 :=
      le_min (le_max_right _ _) zero_le_one
    have hhigh := min_le_right (max (t / max 0 config.trajectoryRampS) 0) 1
    constructor <;> nlinarith [mul_nonneg hlow hlow, sq_nonneg
      (1 - min (max (t / max 0 config.trajectoryRampS) 0) 1)]
  · exact ⟨zero_le_one, le_rfl⟩

/-- The effective time starts at rest, and runs at full rate after the ramp. -/
theorem isMotion_rampedTime (hramp : 0 < config.trajectoryRampS) :
    IsMotion (fun t => (rampedTimeKinematics config t).value)
      fun t => (rampedTimeKinematics config t).rate := by
  set ramp := config.trajectoryRampS with hrampdef
  have hne : ramp ≠ 0 := hramp.ne'
  have hpoly := ((IsMotion.pow 2).add ((IsMotion.pow 3).const_mul (-1 / 2))).comp
    (IsMotion.time.div_const ramp)
  have hstart : IsMotion (fun t => ramp * ((t / ramp) ^ 3 - 1 / 2 * (t / ramp) ^ 4))
      fun t => 3 * (t / ramp) ^ 2 - 2 * (t / ramp) ^ 3 :=
    (hpoly.const_mul ramp).congr (fun t => by ring) fun t => by field_simp; ring
  have hline : IsMotion (fun t => t - 1 / 2 * ramp) fun _ => 1 :=
    (IsMotion.time.const_add (-(1 / 2 * ramp))).congr (fun t => by ring) fun t => rfl
  have hjoined := (IsMotion.const 0).ite (a := 0) (hstart.ite (a := ramp) hline
    (by field_simp) (by field_simp; ring)) (by simp [hramp]) (by simp [hramp])
  have hfraction (t : ℝ) (ht : t < ramp) :
      min (max (t / max 0 ramp) 0) 1 = if t < 0 then 0 else t / ramp := by
    rw [max_eq_right hramp.le]
    rcases lt_or_ge t 0 with hneg | hpos
    · rw [if_pos hneg, max_eq_right (div_nonpos_of_nonpos_of_nonneg hneg.le hramp.le)]
      exact min_eq_left zero_le_one
    · rw [if_neg (not_lt.mpr hpos), max_eq_left (div_nonneg hpos hramp.le)]
      exact min_eq_left ((div_le_one hramp).mpr ht.le)
  refine hjoined.congr (fun t => ?_) fun t => ?_
  · rw [(rampedTime_eq config t).1, ← hrampdef]
    rcases lt_or_ge t ramp with hlt | hge
    · rw [if_pos ⟨lt_max_of_lt_right hramp, lt_max_of_lt_right hlt⟩, hfraction t hlt,
        max_eq_right hramp.le, if_pos hlt]
      split_ifs <;> norm_num
    · rw [max_eq_right hramp.le, if_neg fun h => not_lt.mpr hge h.2, if_neg (not_lt.mpr hge),
        if_neg (not_lt.mpr (hramp.le.trans hge))]
  · rw [(rampedTime_eq config t).2, ← hrampdef]
    rcases lt_or_ge t ramp with hlt | hge
    · rw [if_pos ⟨lt_max_of_lt_right hramp, lt_max_of_lt_right hlt⟩, hfraction t hlt, if_pos hlt]
      split_ifs <;> norm_num
    · rw [max_eq_right hramp.le, if_neg fun h => not_lt.mpr hge h.2, if_neg (not_lt.mpr hge),
        if_neg (not_lt.mpr (hramp.le.trans hge))]

theorem isMotion_phase (hramp : 0 < config.trajectoryRampS) (distance : ℝ) :
    IsMotion (fun t => (phaseKinematics config t distance).value)
      fun t => (phaseKinematics config t distance).rate := by
  simp only [phaseKinematics]
  split_ifs
  · exact (IsMotion.const 0).congr (fun _ => Rat.cast_zero) fun _ => Rat.cast_zero
  · exact ((isMotion_rampedTime config hramp).const_mul _).div_const _

/-- Every coordinate moves with that of the velocity. -/
def IsVecMotion (x v : ℝ → Vec ℝ) : Prop :=
  ∀ axis : Vec.Axis, IsMotion (fun t => (x t).component axis) fun t => (v t).component axis

theorem isVecMotion_of {x v : ℝ → Vec ℝ} (hx : IsMotion (fun t => (x t).x) fun t => (v t).x)
    (hy : IsMotion (fun t => (x t).y) fun t => (v t).y)
    (hz : IsMotion (fun t => (x t).z) fun t => (v t).z) : IsVecMotion x v
  | .x => hx
  | .y => hy
  | .z => hz

theorem component_scale (c : ℝ) (v : Vec ℝ) (axis : Vec.Axis) :
    (v.scale c).component axis = c * v.component axis := by
  cases axis <;> rfl

theorem component_add (u v : Vec ℝ) (axis : Vec.Axis) :
    (u + v).component axis = u.component axis + v.component axis := by
  cases axis <;> rfl

theorem component_sub (u v : Vec ℝ) (axis : Vec.Axis) :
    (u - v).component axis = u.component axis - v.component axis := by
  cases axis <;> rfl

theorem dot_scale (c : ℝ) (v : Vec ℝ) : (v.scale c).dot (v.scale c) = c ^ 2 * v.dot v := by
  simp only [Vec.dot, Vec.scale]
  ring

theorem norm_scale (c : ℝ) (v : Vec ℝ) : (v.scale c).norm = |c| * v.norm := by
  change Real.sqrt _ = |c| * Real.sqrt _
  rw [dot_scale, Real.sqrt_mul (sq_nonneg c), Real.sqrt_sq_eq_abs]

theorem norm_zero : (Vec.zero : Vec ℝ).norm = 0 := by
  simp only [Vec.norm, Vec.zero, Vec.dot, ofRat_real, Rat.cast_zero, mul_zero, add_zero]
  exact Real.sqrt_zero

theorem isMotion_still {x v : ℝ → ℝ} (c : ℝ) (hx : ∀ t, x t = c) (hv : ∀ t, v t = 0) :
    IsMotion x v :=
  (IsMotion.const c).congr hx hv

theorem isVecMotion_circle (hramp : 0 < config.trajectoryRampS) :
    IsVecMotion (fun t => (circleKinematics config t).offset)
      fun t => (circleKinematics config t).velocity := by
  have hphase := isMotion_phase config hramp (circleRadius config)
  refine isVecMotion_of ?_ ?_ (isMotion_still 0 (fun _ => Rat.cast_zero) fun t => ?_)
  · refine ((IsMotion.sin.comp hphase).const_mul (circleRadius config)).congr (fun _ => rfl)
      fun t => ?_
    change _ * (circleRadius config * Real.cos _) = _
    ring
  · refine ((IsMotion.cos.comp hphase).const_mul (-circleRadius config)).congr (fun _ => rfl)
      fun t => ?_
    change _ * (circleRadius config * Real.sin _) = _
    ring
  · exact (congrArg _ Rat.cast_zero).trans (mul_zero _)

theorem isVecMotion_straightLine (hramp : 0 < config.trajectoryRampS) :
    IsVecMotion (fun t => (straightLineKinematics config t).offset)
      fun t => (straightLineKinematics config t).velocity := by
  have hphase := isMotion_phase config hramp (halfLength config)
  refine isVecMotion_of ?_ (isMotion_still 0 (fun _ => Rat.cast_zero) fun t => ?_)
    (isMotion_still 0 (fun _ => Rat.cast_zero) fun t => ?_)
  · refine ((IsMotion.cos.comp hphase).const_mul (-halfLength config)).congr (fun _ => rfl)
      fun t => ?_
    change _ * (halfLength config * Real.sin _) = _
    ring
  · exact (congrArg _ Rat.cast_zero).trans (mul_zero _)
  · exact (congrArg _ Rat.cast_zero).trans (mul_zero _)

/-! ### The racetrack -/

theorem racetrackRadius_pos : 0 < racetrackRadius config := by
  rw [racetrackRadius, pyMax_real, ofRat_real]
  exact lt_max_of_lt_left (by norm_num)

theorem straightHalfLength_nonneg : 0 ≤ straightHalfLength config := by
  rw [straightHalfLength, pyMax_real]
  exact sub_nonneg.mpr (le_max_left _ _)

theorem twoPi_real : (twoPi : ℝ) = 2 * Real.pi := by
  rw [twoPi, ofRat_real, pi_real, Rat.cast_ofNat]

theorem halfPi_real : (halfPi : ℝ) = Real.pi / 2 := by
  rw [halfPi, ofRat_real, pi_real]
  norm_num
  ring

/-- The coordinates and the tangent of the racetrack after some distance. -/
theorem racetrackPoint_eq (distance : ℝ) :
    let radius := racetrackRadius config
    let half := straightHalfLength config
    let first := -(Real.pi / 2) + (distance - 2 * half) / radius
    let second := Real.pi / 2 + (distance - 2 * (2 * half) - Real.pi * radius) / radius
    let point := racetrackPoint config distance
    point.1.x =
        (if distance < 2 * half then -half + distance
        else if distance < 2 * half + Real.pi * radius then half + radius * Real.cos first
        else if distance < 2 * (2 * half) + Real.pi * radius then
          half - (distance - 2 * half - Real.pi * radius)
        else -half + radius * Real.cos second) ∧
      point.1.y =
        (if distance < 2 * half then -radius
        else if distance < 2 * half + Real.pi * radius then radius * Real.sin first
        else if distance < 2 * (2 * half) + Real.pi * radius then radius
        else radius * Real.sin second) ∧
      point.1.z = 0 ∧
      point.2.1.x =
        (if distance < 2 * half then 1
        else if distance < 2 * half + Real.pi * radius then -Real.sin first
        else if distance < 2 * (2 * half) + Real.pi * radius then -1
        else -Real.sin second) ∧
      point.2.1.y =
        (if distance < 2 * half then 0
        else if distance < 2 * half + Real.pi * radius then Real.cos first
        else if distance < 2 * (2 * half) + Real.pi * radius then 0
        else Real.cos second) ∧
      point.2.1.z = 0 := by
  simp only [racetrackPoint, lt_real, decide_eq_true_eq, ofRat_real, halfPi_real, pi_real,
    sin_real, cos_real, Rat.cast_ofNat]
  split_ifs <;> refine ⟨?_, ?_, ?_, ?_, ?_, ?_⟩ <;> simp

/-- The racetrack, once around. -/
theorem isVecMotion_racetrackPoint :
    IsVecMotion (fun d => (racetrackPoint config d).1) fun d => (racetrackPoint config d).2.1 := by
  have hpoint := racetrackPoint_eq config
  have hradius := racetrackRadius_pos config
  have hhalf := straightHalfLength_nonneg config
  simp only at hpoint
  generalize racetrackRadius config = r at hpoint hradius
  generalize straightHalfLength config = half at hpoint hhalf
  have hne : r ≠ 0 := hradius.ne'
  have hpi : 0 ≤ Real.pi * r := mul_nonneg Real.pi_nonneg hradius.le
  -- the angles on the two half circles
  have hfirst : IsMotion (fun t => -(Real.pi / 2) + (t - 2 * half) / r) fun _ => 1 / r :=
    ((((IsMotion.time.const_add (-(2 * half)))).div_const r).const_add (-(Real.pi / 2))).congr
      (fun t => by ring) fun _ => rfl
  have hsecond : IsMotion (fun t => Real.pi / 2 + (t - 2 * (2 * half) - Real.pi * r) / r)
      fun _ => 1 / r :=
    ((((IsMotion.time.const_add (-(2 * (2 * half)) - Real.pi * r))).div_const r).const_add
      (Real.pi / 2)).congr (fun t => by ring) fun _ => rfl
  -- they meet the straights at quarter turns
  have hfirstStart : -(Real.pi / 2) + (2 * half - 2 * half) / r = -(Real.pi / 2) := by simp
  have hfirstEnd : -(Real.pi / 2) + (2 * half + Real.pi * r - 2 * half) / r = Real.pi / 2 := by
    field_simp
    ring
  have hsecondStart : Real.pi / 2 +
      (2 * (2 * half) + Real.pi * r - 2 * (2 * half) - Real.pi * r) / r = Real.pi / 2 := by
    simp
  refine isVecMotion_of ?_ ?_ (isMotion_still 0 (fun d => (hpoint d).2.2.1)
    fun d => (hpoint d).2.2.2.2.2)
  -- along the track: a straight, a half circle, the straight back and a half circle
  · have hturn {angle : ℝ → ℝ} (h : IsMotion angle fun _ => 1 / r) (x : ℝ) :
        IsMotion (fun t => x + r * Real.cos (angle t)) fun t => -Real.sin (angle t) :=
      (((IsMotion.cos.comp h).const_mul r).const_add x).congr (fun _ => rfl)
        fun t => by field_simp
    have hback : IsMotion (fun t => half - (t - 2 * half - Real.pi * r)) fun _ => -1 :=
      ((IsMotion.time.const_mul (-1)).const_add (3 * half + Real.pi * r)).congr
        (fun t => by ring) fun _ => by ring
    refine (IsMotion.joinFour (a := 2 * half) (b := 2 * half + Real.pi * r)
      (c := 2 * (2 * half) + Real.pi * r) (by linarith) (by linarith)
      (IsMotion.time.const_add (-half)) (hturn hfirst half) hback (hturn hsecond (-half))
      ⟨?_, ?_⟩ ⟨?_, ?_⟩ ⟨?_, ?_⟩).congr (fun d => (hpoint d).1) fun d => (hpoint d).2.2.2.1
    all_goals simp only [hfirstStart, hfirstEnd, hsecondStart, Real.cos_neg, Real.sin_neg,
      Real.cos_pi_div_two, Real.sin_pi_div_two]
    all_goals ring
  -- across the track: the straights stand still
  · have hturn {angle : ℝ → ℝ} (h : IsMotion angle fun _ => 1 / r) :
        IsMotion (fun t => r * Real.sin (angle t)) fun t => Real.cos (angle t) :=
      ((IsMotion.sin.comp h).const_mul r).congr (fun _ => rfl) fun t => by field_simp
    refine (IsMotion.joinFour (a := 2 * half) (b := 2 * half + Real.pi * r)
      (c := 2 * (2 * half) + Real.pi * r) (by linarith) (by linarith)
      (IsMotion.const (-r)) (hturn hfirst) (IsMotion.const r) (hturn hsecond)
      ⟨?_, ?_⟩ ⟨?_, ?_⟩ ⟨?_, ?_⟩).congr (fun d => (hpoint d).2.1) fun d => (hpoint d).2.2.2.2.1
    all_goals simp only [hfirstStart, hfirstEnd, hsecondStart, Real.cos_neg, Real.sin_neg,
      Real.cos_pi_div_two, Real.sin_pi_div_two]
    all_goals ring

theorem racetrackLapLength_pos : 0 < racetrackLapLength config := by
  rw [racetrackLapLength, ofRat_real, twoPi_real, Rat.cast_ofNat]
  have hturns : 0 < 2 * Real.pi * racetrackRadius config :=
    mul_pos (mul_pos two_pos Real.pi_pos) (racetrackRadius_pos config)
  linarith [straightHalfLength_nonneg config]

/-- A lap of the racetrack ends as it began. -/
theorem racetrackPoint_lap :
    (racetrackPoint config (racetrackLapLength config)).1 = (racetrackPoint config 0).1 ∧
      (racetrackPoint config (racetrackLapLength config)).2.1 = (racetrackPoint config 0).2.1 := by
  have hpoint := racetrackPoint_eq config
  have hradius := racetrackRadius_pos config
  have hhalf := straightHalfLength_nonneg config
  have hlap : racetrackLapLength config =
      4 * straightHalfLength config + 2 * Real.pi * racetrackRadius config := by
    rw [racetrackLapLength, ofRat_real, twoPi_real, Rat.cast_ofNat]
  simp only at hpoint
  rw [hlap]
  generalize racetrackRadius config = r at hpoint hradius
  generalize straightHalfLength config = half at hpoint hhalf
  have hpi : 0 < Real.pi * r := mul_pos Real.pi_pos hradius
  have hne : r ≠ 0 := hradius.ne'
  obtain ⟨hx, hy, hz, htx, hty, htz⟩ := hpoint (4 * half + 2 * Real.pi * r)
  obtain ⟨hx₀, hy₀, hz₀, htx₀, hty₀, htz₀⟩ := hpoint 0
  -- one lap on, the second half circle has reached half a turn
  have hangle : Real.pi / 2 + (4 * half + 2 * Real.pi * r - 2 * (2 * half) - Real.pi * r) / r =
      Real.pi / 2 + Real.pi := by
    field_simp
    ring
  have hsecond : ¬ 4 * half + 2 * Real.pi * r < 2 * (2 * half) + Real.pi * r := by linarith
  rw [if_neg (by linarith), if_neg (by linarith), if_neg hsecond, hangle] at hx hy htx hty
  have hstart : (racetrackPoint config 0).1.x = -half ∧ (racetrackPoint config 0).1.y = -r ∧
      (racetrackPoint config 0).2.1.x = 1 ∧ (racetrackPoint config 0).2.1.y = 0 := by
    -- without straights the lap starts on the first half circle
    rcases hhalf.lt_or_eq with hpos | rfl
    · rw [if_pos (by linarith)] at hx₀ hy₀ htx₀ hty₀
      exact ⟨hx₀.trans (add_zero _), hy₀, htx₀, hty₀⟩
    · rw [if_neg (by simp), if_pos (by simpa using hpi)] at hx₀ hy₀ htx₀ hty₀
      simp [hx₀, hy₀, htx₀, hty₀]
  obtain ⟨hx₁, hy₁, htx₁, hty₁⟩ := hstart
  refine ⟨Vec.ext ?_ ?_ (hz.trans hz₀.symm), Vec.ext ?_ ?_ (htz.trans htz₀.symm)⟩
  · rw [hx, hx₁, Real.cos_add_pi, Real.cos_pi_div_two]
    ring
  · rw [hy, hy₁, Real.sin_add_pi, Real.sin_pi_div_two]
    ring
  · rw [htx, htx₁, Real.sin_add_pi, Real.sin_pi_div_two, neg_neg]
  · rw [hty, hty₁, Real.cos_add_pi, Real.cos_pi_div_two, neg_zero]

theorem racetrack_velocity (t : ℝ) :
    let phase := phaseKinematics config t (racetrackLapLength config / twoPi)
    let distance := mod phase.value twoPi * racetrackLapLength config / twoPi
    (racetrackKinematics config t).velocity =
      ((racetrackPoint config distance).2.1.scale (racetrackLapLength config / twoPi)).scale
        phase.rate := rfl

theorem isVecMotion_racetrack (hramp : 0 < config.trajectoryRampS) :
    IsVecMotion (fun t => (racetrackKinematics config t).offset)
      fun t => (racetrackKinematics config t).velocity := by
  set lap := racetrackLapLength config with hlap
  have hturn : (0 : ℝ) < twoPi := by
    rw [twoPi_real]
    exact mul_pos two_pos Real.pi_pos
  have hphase := isMotion_phase config hramp (lap / twoPi)
  have hlapPoint := racetrackPoint_lap config
  intro axis
  have hscaled : IsMotion (fun u => (racetrackPoint config (u * lap / twoPi)).1.component axis)
      fun u => (racetrackPoint config (u * lap / twoPi)).2.1.component axis * (lap / twoPi) :=
    ((isVecMotion_racetrackPoint config axis).comp
      ((IsMotion.time.const_mul lap).div_const twoPi)).congr
        (fun u => by rw [mul_comm u]) fun u => by rw [mul_comm u, mul_one]
  have hend : twoPi * lap / twoPi = lap := mul_div_cancel_left₀ _ hturn.ne'
  have hlaps := (hscaled.mod hturn (by rw [hend, zero_mul, zero_div, ← hlapPoint.1])
    (by rw [hend, zero_mul, zero_div, ← hlapPoint.2])).comp hphase
  refine hlaps.congr (fun t => ?_) fun t => ?_
  · rfl
  · dsimp only
    rw [racetrack_velocity, component_scale, component_scale, mul_comm,
      mul_comm (racetrackLapLength config / twoPi)]
    rfl

/-! ### Speeds -/

theorem pathSpeed_nonneg : 0 ≤ pathSpeed config := abs_nonneg _

/-- A phase moves a point no faster than the path speed. -/
theorem norm_scaled_le (t distance : ℝ) {first : Vec ℝ} (hfirst : first.dot first ≤ distance ^ 2) :
    (first.scale (phaseKinematics config t distance).rate).norm ≤ pathSpeed config := by
  have hspeed := pathSpeed_nonneg config
  obtain ⟨hlow, hhigh⟩ := rampedRate_mem config t
  have hnorm : first.norm ≤ |distance| := by
    rw [← Real.sqrt_sq_eq_abs]
    exact Real.sqrt_le_sqrt hfirst
  rw [norm_scale]
  simp only [phaseKinematics]
  split_ifs with hstill
  · simp only [ofRat_real, Rat.cast_zero, abs_zero, zero_mul]
    exact hspeed
  · simp only [le_real, Bool.or_eq_true, decide_eq_true_eq, not_or, not_le] at hstill
    have hpos : (0 : ℝ) < Scalar.abs distance :=
      lt_trans (by norm_num [smallDistance, ofRat_real]) hstill.2
    rw [abs_of_nonneg (div_nonneg (mul_nonneg hspeed hlow) hpos.le), div_mul_eq_mul_div,
      div_le_iff₀ hpos]
    exact mul_le_mul (mul_le_of_le_one_right hspeed hhigh) hnorm (Real.sqrt_nonneg _) hspeed

theorem circle_speed (t : ℝ) : (circleKinematics config t).velocity.norm ≤ pathSpeed config := by
  refine norm_scaled_le config t (circleRadius config) ?_
  simp only [Vec.dot, ofRat_real, Rat.cast_zero, sin_real, cos_real]
  nlinarith [Real.sin_sq_add_cos_sq (phaseKinematics config t (circleRadius config)).value]

theorem straightLine_speed (t : ℝ) :
    (straightLineKinematics config t).velocity.norm ≤ pathSpeed config := by
  refine norm_scaled_le config t (halfLength config) ?_
  simp only [Vec.dot, ofRat_real, Rat.cast_zero, sin_real]
  nlinarith [mul_le_of_le_one_right (sq_nonneg (halfLength config))
    (Real.sin_sq_le_one (phaseKinematics config t (halfLength config)).value)]

theorem racetrack_speed (t : ℝ) :
    (racetrackKinematics config t).velocity.norm ≤ pathSpeed config := by
  rw [racetrack_velocity]
  refine norm_scaled_le config t (racetrackLapLength config / twoPi) ?_
  have htangent (d : ℝ) : (racetrackPoint config d).2.1.dot (racetrackPoint config d).2.1 = 1 := by
    obtain ⟨-, -, -, hx, hy, hz⟩ := racetrackPoint_eq config d
    rw [Vec.dot, hx, hy, hz]
    split_ifs <;> nlinarith [Real.sin_sq_add_cos_sq (-(Real.pi / 2) +
      (d - 2 * straightHalfLength config) / racetrackRadius config), Real.sin_sq_add_cos_sq
      (Real.pi / 2 + (d - 2 * (2 * straightHalfLength config) - Real.pi * racetrackRadius config) /
        racetrackRadius config)]
  rw [dot_scale, htangent, mul_one]

theorem spatialLissajous_speed (t : ℝ) :
    (spatialLissajousKinematics config t).velocity.norm ≤ pathSpeed config := by
  have hspeed := pathSpeed_nonneg config
  obtain ⟨hlow, hhigh⟩ := rampedRate_mem config t
  simp only [spatialLissajousKinematics]
  split_ifs
  · exact norm_zero.trans_le hspeed
  · simp only [composeKinematics]
    rw [norm_scale, pyMax_real]
    generalize lissajousFirst (lissajousAmplitude config) _ = first
    have hpos : 0 < max (smallDistance : ℝ) first.norm :=
      lt_max_of_lt_left (by norm_num [smallDistance, ofRat_real])
    rw [abs_of_nonneg (div_nonneg (mul_nonneg hspeed hlow) hpos.le), div_mul_eq_mul_div,
      div_le_iff₀ hpos]
    exact mul_le_mul (mul_le_of_le_one_right hspeed hhigh) (le_max_right _ _) (Real.sqrt_nonneg _)
      hspeed

end Paths

/-! ### The approach -/

section Approach

variable (node : TrajectoryNode ℝ)

theorem moveS_pos : 0 < node.config.moveS := by
  rw [TrajectoryConfig.moveS, pyMax_real, ofRat_real]
  exact lt_max_of_lt_left (by norm_num)

/-- The fraction of the approach that has passed. -/
noncomputable def TrajectoryNode.approachFraction (t : ℝ) : ℝ :=
  min (max (t / node.config.moveS) 0) 1

/-- The rate of the blend, for the fraction that has passed. -/
noncomputable def quinticRate (u : ℝ) : ℝ := 30 * u ^ 2 - 60 * u ^ 3 + 30 * u ^ 4

theorem quinticBlend_real (u : ℝ) : quinticBlend u = 10 * u ^ 3 - 15 * u ^ 4 + 6 * u ^ 5 := by
  simp only [quinticBlend, pow_real, ofRat_real, Rat.cast_ofNat]

theorem sampleApproach_eq (t : ℝ) :
    let displacement := node.approachGoal - node.approachStart
    (node.sampleApproach t).position =
        node.approachStart + displacement.scale (quinticBlend (node.approachFraction t)) ∧
      (node.sampleApproach t).velocity =
        displacement.scale (quinticRate (node.approachFraction t) / node.config.moveS) := by
  simp only [TrajectoryNode.sampleApproach, TrajectoryNode.approachFraction, quinticRate, clip_real,
    pow_real, ofRat_real, Rat.cast_ofNat, Rat.cast_zero, Rat.cast_one, and_self]

theorem isMotion_quintic : IsMotion quinticBlend quinticRate := by
  have hpoly := (((IsMotion.pow 2).const_mul 10).add ((IsMotion.pow 3).const_mul (-15))).add
    ((IsMotion.pow 4).const_mul 6)
  refine hpoly.congr (fun u => ?_) fun u => ?_
  · rw [quinticBlend_real]
    ring
  · rw [quinticRate]
    push_cast
    ring

theorem isVecMotion_approach :
    IsVecMotion (fun t => (node.sampleApproach t).position)
      fun t => (node.sampleApproach t).velocity := by
  intro axis
  have hfraction := (isMotion_quintic.clip (by norm_num [quinticRate])
    (by norm_num [quinticRate])).comp (IsMotion.time.div_const node.config.moveS)
  refine ((hfraction.const_mul ((node.approachGoal - node.approachStart).component axis)).const_add
    (node.approachStart.component axis)).congr (fun t => ?_) fun t => ?_
  · dsimp only
    rw [(sampleApproach_eq node t).1, component_add, component_scale, mul_comm]
    rfl
  · dsimp only
    rw [(sampleApproach_eq node t).2, component_scale, TrajectoryNode.approachFraction]
    ring

theorem approachFraction_mem (t : ℝ) :
    0 ≤ node.approachFraction t ∧ node.approachFraction t ≤ 1 :=
  ⟨le_min (le_max_right _ _) zero_le_one, min_le_right _ _⟩

theorem quinticBlend_mem {u : ℝ} (hlow : 0 ≤ u) (hhigh : u ≤ 1) :
    0 ≤ quinticBlend u ∧ quinticBlend u ≤ 1 := by
  have hbelow : quinticBlend u = u ^ 3 * ((12 * u - 15) ^ 2 / 24 + 5 / 8) := by
    rw [quinticBlend_real]
    ring
  have habove : 1 - quinticBlend u = (1 - u) ^ 3 * (1 + 3 * u + 6 * u ^ 2) := by
    rw [quinticBlend_real]
    ring
  constructor
  · rw [hbelow]
    exact mul_nonneg (pow_nonneg hlow 3) (by positivity)
  · refine sub_nonneg.mp (habove ▸ ?_)
    exact mul_nonneg (pow_nonneg (sub_nonneg.mpr hhigh) 3) (by positivity)

/-- The blend is fastest in the middle of the approach. -/
theorem quinticRate_mem {u : ℝ} (hlow : 0 ≤ u) (hhigh : u ≤ 1) :
    0 ≤ quinticRate u ∧ quinticRate u ≤ 15 / 8 := by
  have hsquare : quinticRate u = 30 * (u * (1 - u)) ^ 2 := by
    rw [quinticRate]
    ring
  have hproduct : 0 ≤ u * (1 - u) := mul_nonneg hlow (sub_nonneg.mpr hhigh)
  have hquarter : u * (1 - u) ≤ 1 / 4 := by nlinarith [sq_nonneg (2 * u - 1)]
  rw [hsquare]
  constructor
  · positivity
  · nlinarith

/-- The approach stays on the segment from its start to the start of the path. -/
theorem approach_segment (t : ℝ) : ∃ b, 0 ≤ b ∧ b ≤ 1 ∧ (node.sampleApproach t).position =
    node.approachStart + (node.approachGoal - node.approachStart).scale b := by
  obtain ⟨hlow, hhigh⟩ := approachFraction_mem node t
  obtain ⟨hblend, hblend'⟩ := quinticBlend_mem hlow hhigh
  exact ⟨_, hblend, hblend', (sampleApproach_eq node t).1⟩

theorem approach_speed (t : ℝ) : (node.sampleApproach t).velocity.norm ≤
    15 / 8 * (node.approachGoal - node.approachStart).norm / node.config.moveS := by
  obtain ⟨hlow, hhigh⟩ := approachFraction_mem node t
  obtain ⟨hrate, hrate'⟩ := quinticRate_mem hlow hhigh
  have hduration := moveS_pos node
  rw [(sampleApproach_eq node t).2, norm_scale, abs_of_nonneg (div_nonneg hrate hduration.le),
    div_mul_eq_mul_div]
  gcongr
  exact Real.sqrt_nonneg _

end Approach

end RobotCore
