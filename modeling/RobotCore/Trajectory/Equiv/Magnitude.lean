import RobotCore.Lib.Scalar.Magnitude
import RobotCore.Trajectory.Node

/-!
# Magnitudes of the paths

With parameters and times in range the four paths are bounded in doubles (`mag_trajectory`): each
divisor is bounded from below or checked, so that no operation overflows.
-/

namespace RobotCore

open Scalar Ieee Ieee.Double

/-! ### Parameters -/

/-- The numbers among the parameters. -/
def TrajectoryConfig.values {α : Type} (config : TrajectoryConfig α) : List α :=
  [config.publishRateHz, config.centerX, config.centerY, config.centerZ, config.ampX, config.ampY,
    config.ampZ, config.radiusM, config.trajectorySpeedMps, config.trajectoryRampS,
    config.holdBeforeMotionS, config.moveDurationS, config.maxLinearSpeedMps,
    config.maxAngularSpeedRps, config.manualVerticalSpeedMps, config.manualInputAgeS,
    config.stationLinearInputGainMps, config.stationLateralInputGainMps,
    config.stationYawInputGainRps] ++ config.poolMinXyz ++ config.poolMaxXyz ++
    config.attitudeMinRpyDeg ++ config.attitudeMaxRpyDeg

section Ranges

variable {α : Type} [Scalar α]

/-- The number is far from overflow: at most `2 ^ 100` in absolute value. -/
def inRange (x : α) : Bool := le (abs x) (ofRat (2 ^ 100))

/-- Every parameter is in range, and a ramp is none or not minute. -/
def TrajectoryConfig.inRange (config : TrajectoryConfig α) : Bool :=
  config.values.all RobotCore.inRange &&
    (le config.trajectoryRampS (ofRat 0) || le (ofRat (1 / 2 ^ 100)) config.trajectoryRampS)

end Ranges

section Paths

variable {library : MathLibrary binary64} (hlibrary : library.Accurate)
  {config : TrajectoryConfig (Double library)} (h : config.inRange = true)
  {t distance : Double library}

theorem mag_of_inRange {x : Double library} (h : inRange x = true) : Mag x 100 := by
  have hlimit : (ofRat (2 ^ 100) : Double library).value = .finite (2 ^ 100) :=
    value_ofRat (representable_two_pow (by omega)) (n := 100) (by rw [abs_of_pos (by positivity)])
      (by omega)
  exact Number.value_of_abs_le (f := binary64) hlimit h

include h in
theorem mag_value {x : Double library} (hx : x ∈ config.values) : Mag x 100 := by
  rw [TrajectoryConfig.inRange, Bool.and_eq_true, List.all_eq_true] at h
  exact mag_of_inRange (h.1 x hx)

include h in
/-- A ramp that is positive is not minute. -/
theorem away_ramp (hpos : lt (ofRat 0) (rampS config) = true) : Away (rampS config) 100 := by
  obtain ⟨r, hr, -⟩ := mag_value h (x := config.trajectoryRampS) (by simp [TrajectoryConfig.values])
  have hzero : (ofRat 0 : Double library).value = .finite 0 := value_ofRat_zero
  have hmax := value_pyMax hzero hr
  rw [rampS] at hpos ⊢
  rw [lt_eq hzero hmax, decide_eq_true_iff] at hpos
  rw [TrajectoryConfig.inRange, Bool.and_eq_true, Bool.or_eq_true] at h
  refine ⟨max 0 r, hmax, ?_⟩
  -- the ramp is positive, so that the range keeps it away from zero
  have hr0 : 0 < r := (lt_max_iff.mp hpos).resolve_left (lt_irrefl 0)
  rw [max_eq_right hr0.le, abs_of_pos hr0]
  rcases h.2 with hnone | haway
  · rw [le_eq hr hzero, decide_eq_true_iff] at hnone
    exact absurd hr0 (not_lt.mpr hnone)
  · rw [le_eq (value_ofRat_inv (n := 100) (by omega)) hr, decide_eq_true_iff] at haway
    exact haway

/-! ### Phases -/

/-- What the members of a phase may grow to. -/
structure Phase.Mag (phase : Phase (Double library)) (value rate acceleration : ℕ) : Prop where
  value : Double.Mag phase.value value
  rate : Double.Mag phase.rate rate
  acceleration : Double.Mag phase.acceleration acceleration

structure PathKinematics.Mag (path : PathKinematics (Double library)) : Prop where
  offset : VecMag path.offset 112
  velocity : VecMag path.velocity 300
  acceleration : VecMag path.acceleration 700
  yaw : Double.Mag path.yaw 3

theorem mag_literal {q : ℚ} {n : ℕ} (h : |q| ≤ 2 ^ n) (hn : n ≤ 1023) :
    Mag (ofRat q : Double library) n := Mag.ofRat h hn

theorem mag_zero {n : ℕ} (hn : n ≤ 1023) : Mag (ofRat 0 : Double library) n :=
  Mag.ofRat (by rw [abs_zero]; positivity) hn

/-- Clipped to the unit interval. -/
theorem mag_clip_unit {x : Double library} (hx : isNan x = false) :
    Mag (clip x (ofRat 0) (ofRat 1)) 0 :=
  Mag.clip hx value_ofRat_zero value_ofRat_one zero_le_one (by simp) (by simp)

include h in
theorem mag_rampS : Mag (rampS config) 100 :=
  pyMax_of (P := (Mag · 100)) (mag_zero (by omega))
    (mag_value h (by simp [TrajectoryConfig.values]))

include h in
theorem mag_rampedTime (ht : Mag t 104) : (rampedTimeKinematics config t).Mag 105 3 104 := by
  have hramp := mag_rampS h
  unfold rampedTimeKinematics
  dsimp only
  split_ifs with hpos
  · rw [Bool.and_eq_true] at hpos
    -- the ramp divides on this branch only
    have haway := away_ramp h hpos.1
    have hf : Mag (clip (t / rampS config) (ofRat 0) (ofRat 1)) 0 :=
      mag_clip_unit (ht.div haway le_rfl (by omega)).isNan
    generalize clip (t / rampS config) (ofRat 0) (ofRat 1) = f at hf
    have hpow (k : ℕ) : Mag (pow f k) 0 := hf.pow k (by omega) (by omega)
    refine ⟨?_, ?_, ?_⟩
    · have hhalf : Mag (ofRat (1 / 2) * pow f 4) 0 :=
        (mag_literal (by norm_num) (by omega)).mul (hpow 4) le_rfl (by omega)
      exact hramp.mul ((hpow 3).sub hhalf (n := 1) (by omega) (by omega) (by omega)) (by omega)
        (by omega)
    · have hsquare : Mag (ofRat 3 * pow f 2) 2 :=
        (mag_literal (by norm_num) (by omega)).mul (hpow 2) le_rfl (by omega)
      have hcube : Mag (ofRat 2 * pow f 3) 2 :=
        (mag_literal (by norm_num) (by omega)).mul (hpow 3) le_rfl (by omega)
      exact hsquare.sub hcube (by omega) (by omega) (by omega)
    · have hlinear : Mag (ofRat 6 * f) 3 :=
        (mag_literal (by norm_num) (by omega)).mul hf le_rfl (by omega)
      have hsquare : Mag (ofRat 6 * pow f 2) 3 :=
        (mag_literal (by norm_num) (by omega)).mul (hpow 2) le_rfl (by omega)
      exact (hlinear.sub hsquare (n := 4) (by omega) (by omega) (by omega)).div haway (by omega)
        (by omega)
  · have hhalf : Mag (ofRat (1 / 2) * rampS config) 100 :=
      (mag_literal (n := 0) (by norm_num) (by omega)).mul hramp (by omega) (by omega)
    exact ⟨ht.sub hhalf (by omega) (by omega) (by omega), mag_literal (by norm_num) (by omega),
      mag_zero (by omega)⟩

include h in
theorem mag_pathSpeed : Mag (pathSpeed config) 100 :=
  (mag_value h (by simp [TrajectoryConfig.values])).abs

theorem value_smallDistance : ∃ d, (smallDistance : Double library).value = .finite d ∧
    1 / 2 ^ 30 ≤ d ∧ d ≤ 1 / 2 ^ 1 := by
  obtain ⟨d, hd, -⟩ : Mag (smallDistance : Double library) 0 :=
    mag_literal (by norm_num) (by omega)
  refine ⟨d, hd, ?_, ?_⟩
  · rw [eq_roundTo hd, ← roundTo_of_representable (representable_inv (n := 30) (by omega))]
    exact roundTo_mono (by norm_num)
  · rw [eq_roundTo hd, ← roundTo_of_representable (representable_inv (n := 1) (by omega))]
    exact roundTo_mono (by norm_num)

include h in
/-- A phase of a distance that is not small. -/
theorem mag_phase (ht : Mag t 104) (hdistance : Mag distance 105) :
    (phaseKinematics config t distance).Mag 240 140 240 := by
  have hspeed := mag_pathSpeed h
  obtain ⟨hvalue, hrate, hacceleration⟩ := mag_rampedTime h ht
  unfold phaseKinematics
  dsimp only
  split_ifs with hstill
  · exact ⟨mag_zero (by omega), mag_zero (by omega), mag_zero (by omega)⟩
  · -- the check of the program keeps the divisor from being small
    obtain ⟨d, hd, hle⟩ := hdistance.abs
    obtain ⟨s, hs, hs30, -⟩ := @value_smallDistance library
    rw [Bool.or_eq_true, not_or, le_eq hd hs, decide_eq_true_eq, not_le] at hstill
    have haway : Away (abs distance) 30 := ⟨d, hd, (hs30.trans hstill.2.le).trans (le_abs_self d)⟩
    exact ⟨(hspeed.mul hvalue le_rfl (by omega)).div haway (by omega) (by omega),
      (hspeed.mul hrate le_rfl (by omega)).div haway (by omega) (by omega),
      (hspeed.mul hacceleration le_rfl (by omega)).div haway (by omega) (by omega)⟩

include hlibrary in
theorem mag_compose {u v w : Vec (Double library)} {rate acceleration : Double library}
    {a b c : ℕ} (hoffset : VecMag u 112) (hfirst : VecMag v a) (hsecond : VecMag w b)
    (hrate : Mag rate 140) (hacceleration : Mag acceleration c) (ha : a ≤ 110) (hb : b ≤ 250)
    (hc : c ≤ 540) : (composeKinematics u v w rate acceleration).Mag where
  offset := hoffset
  velocity := VecMag.scale hrate hfirst (by omega) (by omega)
  acceleration :=
    (VecMag.scale (hrate.pow 2 (n := 280) (by omega) (by omega)) hsecond le_rfl (by omega)).add
      (VecMag.scale hacceleration hfirst le_rfl (by omega)) (by omega) (by omega) (by omega)
  yaw := mag_atan2 hlibrary hfirst.y hfirst.x

theorem mag_still : (PathKinematics.still : PathKinematics (Double library)).Mag :=
  have hzero {n : ℕ} (hn : n ≤ 1023) : VecMag (Vec.zero : Vec (Double library)) n :=
    ⟨mag_zero hn, mag_zero hn, mag_zero hn⟩
  ⟨hzero (by omega), hzero (by omega), hzero (by omega), mag_zero (by omega)⟩

/-! ### Planar paths -/

include hlibrary h in
theorem mag_circle (ht : Mag t 104) : (circleKinematics config t).Mag := by
  have hradius : Mag (circleRadius config) 100 :=
    (mag_value h (by simp [TrajectoryConfig.values])).abs
  have hphase := mag_phase h ht (hradius.mono (by omega) : Mag (circleRadius config) 105)
  have hsin := mag_sin hlibrary hphase.value
  have hcos := mag_cos hlibrary hphase.value
  have hzero : Mag (ofRat 0 : Double library) 101 := mag_zero (by omega)
  unfold circleKinematics
  dsimp only
  refine mag_compose hlibrary (a := 101) (b := 101) ⟨?_, ?_, mag_zero (by omega)⟩ ⟨?_, ?_, hzero⟩
    ⟨?_, ?_, hzero⟩ hphase.rate hphase.acceleration (by omega) (by omega) (by omega)
  · exact hradius.mul hsin (by omega) (by omega)
  · exact hradius.neg.mul hcos (by omega) (by omega)
  · exact hradius.mul hcos (by omega) (by omega)
  · exact hradius.mul hsin (by omega) (by omega)
  · exact hradius.neg.mul hsin (by omega) (by omega)
  · exact hradius.mul hcos (by omega) (by omega)

include hlibrary h in
theorem mag_straightLine (ht : Mag t 104) : (straightLineKinematics config t).Mag := by
  have hhalf : Mag (halfLength config) 100 :=
    (mag_value h (by simp [TrajectoryConfig.values])).abs
  have hphase := mag_phase h ht (hhalf.mono (by omega) : Mag (halfLength config) 105)
  have hsin := mag_sin hlibrary hphase.value
  have hcos := mag_cos hlibrary hphase.value
  have hzero : Mag (ofRat 0 : Double library) 101 := mag_zero (by omega)
  unfold straightLineKinematics
  dsimp only
  have hpath := mag_compose hlibrary (a := 101) (b := 101)
    (u := ⟨-halfLength config *
      cos (phaseKinematics config t (halfLength config)).value, ofRat 0, ofRat 0⟩)
    (v := ⟨halfLength config *
      sin (phaseKinematics config t (halfLength config)).value, ofRat 0, ofRat 0⟩)
    (w := ⟨halfLength config *
      cos (phaseKinematics config t (halfLength config)).value, ofRat 0, ofRat 0⟩)
    ⟨hhalf.neg.mul hcos (by omega) (by omega), mag_zero (by omega), mag_zero (by omega)⟩
    ⟨hhalf.mul hsin (by omega) (by omega), hzero, hzero⟩
    ⟨hhalf.mul hcos (by omega) (by omega), hzero, hzero⟩ hphase.rate hphase.acceleration
    (by omega) (by omega) (by omega)
  exact ⟨hpath.offset, hpath.velocity, hpath.acceleration, mag_zero (by omega)⟩

include hlibrary in
theorem mag_twoPi : Mag (twoPi : Double library) 4 :=
  (mag_literal (n := 1) (by norm_num) (by omega)).mul (mag_pi hlibrary) (by omega) (by omega)

include hlibrary in
theorem away_twoPi : Away (twoPi : Double library) 0 := by
  have htwo : Away (ofRat 2 : Double library) 0 :=
    Away.ofRat (a := 1) (by norm_num) (by omega) (by norm_num) (by omega)
  exact htwo.mul (away_pi hlibrary) (c := 3) (mag_literal (by norm_num) (by omega))
    (mag_pi hlibrary) (by omega) (by omega) (by omega)

include hlibrary in
theorem mag_halfPi : Mag (halfPi : Double library) 3 :=
  (mag_literal (n := 0) (by norm_num) (by omega)).mul (mag_pi hlibrary) (by omega) (by omega)

include h in
theorem mag_racetrackRadius :
    Mag (racetrackRadius config) 100 ∧ Away (racetrackRadius config) 20 := by
  have hy : Mag (Scalar.abs config.ampY) 100 :=
    (mag_value h (by simp [TrajectoryConfig.values])).abs
  have hsmall : Mag (ofRat (1 / 10 ^ 6) : Double library) 0 := mag_literal (by norm_num) (by omega)
  refine ⟨pyMax_of (P := (Mag · 100)) (hsmall.mono (by omega)) hy, ?_⟩
  obtain ⟨d, hd, -⟩ := hsmall
  refine Away.pyMax hd ?_ hy
  rw [eq_roundTo hd, ← roundTo_of_representable (representable_inv (n := 20) (by omega))]
  exact roundTo_mono (by norm_num)

include h in
theorem mag_straightHalfLength : Mag (straightHalfLength config) 101 := by
  have hx : Mag (Scalar.abs config.ampX) 100 :=
    (mag_value h (by simp [TrajectoryConfig.values])).abs
  have hradius := (mag_racetrackRadius h).1
  exact (pyMax_of (P := (Mag · 100)) hradius hx).sub hradius (by omega) (by omega) (by omega)

include hlibrary h in
theorem mag_racetrackLapLength : Mag (racetrackLapLength config) 105 := by
  have hhalf : Mag (ofRat 4 * straightHalfLength config) 103 :=
    (mag_literal (n := 2) (by norm_num) (by omega)).mul (mag_straightHalfLength h) (by omega)
      (by omega)
  have hturn : Mag (twoPi * racetrackRadius config) 104 :=
    (mag_twoPi hlibrary).mul (mag_racetrackRadius h).1 (by omega) (by omega)
  exact hhalf.add hturn (by omega) (by omega) (by omega)

include hlibrary h in
theorem mag_racetrackPoint (hdistance : Mag distance 109) :
    VecMag (racetrackPoint config distance).1 112 ∧
      VecMag (racetrackPoint config distance).2.1 1 ∧
      VecMag (racetrackPoint config distance).2.2 21 := by
  obtain ⟨hradius, haway⟩ := mag_racetrackRadius h
  have hhalf := mag_straightHalfLength h
  have hstraight : Mag (ofRat 2 * straightHalfLength config) 102 :=
    (mag_literal (n := 1) (by norm_num) (by omega)).mul hhalf (by omega) (by omega)
  have harc : Mag (Scalar.pi * racetrackRadius config) 103 :=
    (mag_pi hlibrary).mul hradius (by omega) (by omega)
  -- the two turns and the two straights differ by their centers and signs only
  have hturn : ∀ center angle : Double library, Mag center 101 → Mag angle 140 →
      VecMag ⟨center + racetrackRadius config * cos angle, racetrackRadius config * sin angle,
        ofRat 0⟩ 112 ∧ VecMag ⟨-sin angle, cos angle, ofRat 0⟩ 1 ∧
        VecMag ⟨-cos angle / racetrackRadius config, -sin angle / racetrackRadius config,
          ofRat 0⟩ 21 := by
    intro center angle hcenter hangle
    have hsin := mag_sin hlibrary hangle
    have hcos := mag_cos hlibrary hangle
    exact ⟨⟨hcenter.add (hradius.mul hcos le_rfl (by omega)) (by omega) (by omega) (by omega),
        hradius.mul hsin (by omega) (by omega), mag_zero (by omega)⟩,
      ⟨hsin.neg, hcos, mag_zero (by omega)⟩,
      ⟨hcos.neg.div haway (by omega) (by omega), hsin.neg.div haway (by omega) (by omega),
        mag_zero (by omega)⟩⟩
  have hflat : ∀ x : Double library, Mag x 112 → ∀ y : Double library, Mag y 112 →
      ∀ s : Double library, Mag s 1 →
      VecMag (⟨x, y, ofRat 0⟩ : Vec (Double library)) 112 ∧ VecMag ⟨s, ofRat 0, ofRat 0⟩ 1 ∧
        VecMag (Vec.zero : Vec (Double library)) 21 := by
    intro x hx y hy s hs
    exact ⟨⟨hx, hy, mag_zero (by omega)⟩, ⟨hs, mag_zero (by omega), mag_zero (by omega)⟩,
      ⟨mag_zero (by omega), mag_zero (by omega), mag_zero (by omega)⟩⟩
  have hdifference : Mag (distance - ofRat 2 * straightHalfLength config) 110 :=
    hdistance.sub hstraight (by omega) (by omega) (by omega)
  have hdouble : Mag (ofRat 2 * (ofRat 2 * straightHalfLength config)) 103 :=
    (mag_literal (n := 1) (by norm_num) (by omega)).mul hstraight (by omega) (by omega)
  unfold racetrackPoint
  dsimp only
  split_ifs
  · exact hflat _ (hhalf.neg.add hdistance (by omega) (by omega) (by omega)) _
      (hradius.neg.mono (by omega)) _ (mag_literal (by norm_num) (by omega))
  · refine hturn _ _ hhalf ?_
    exact (mag_halfPi hlibrary).neg.add (hdifference.div haway le_rfl (by omega)) (by omega)
      (by omega) (by omega)
  · refine hflat _ ?_ _ (hradius.mono (by omega)) _ (mag_literal (by norm_num) (by omega))
    exact hhalf.sub (hdifference.sub harc (n := 111) (by omega) (by omega) (by omega)) (by omega)
      (by omega) (by omega)
  · refine hturn _ _ hhalf.neg ?_
    have hrest : Mag (distance - ofRat 2 * (ofRat 2 * straightHalfLength config)) 110 :=
      hdistance.sub hdouble (by omega) (by omega) (by omega)
    exact (mag_halfPi hlibrary).add ((hrest.sub harc (n := 111) (by omega) (by omega)
      (by omega)).div haway le_rfl (by omega)) (by omega) (by omega) (by omega)

include hlibrary h in
theorem mag_racetrack (ht : Mag t 104) : (racetrackKinematics config t).Mag := by
  have hlap := mag_racetrackLapLength hlibrary h
  have hturn := away_twoPi hlibrary
  have hperPhase : Mag (racetrackLapLength config / twoPi) 105 :=
    hlap.div hturn (by omega) (by omega)
  have hphase := mag_phase h ht hperPhase
  have hdistance : Mag (mod (phaseKinematics config t (racetrackLapLength config / twoPi)).value
      twoPi * racetrackLapLength config / twoPi) 109 :=
    ((hphase.value.mod (mag_twoPi hlibrary) hturn (by omega)).mul hlap le_rfl (by omega)).div hturn
      (by omega) (by omega)
  obtain ⟨hoffset, htangent, hcurvature⟩ := mag_racetrackPoint hlibrary h hdistance
  unfold racetrackKinematics
  dsimp only
  exact mag_compose hlibrary hoffset (VecMag.scale hperPhase htangent (n := 106) (by omega)
    (by omega)) (VecMag.scale (hperPhase.pow 2 (n := 210) (by omega) (by omega)) hcurvature
    (n := 231) (by omega) (by omega)) hphase.rate hphase.acceleration (by omega) (by omega)
    (by omega)

/-! ### Spatial Lissajous -/

section Lissajous

variable {amp : Vec (Double library)} {phase : Double library}

include hlibrary in
theorem mag_lissajous (hamp : VecMag amp 100) (hphase : Mag phase 500) :
    VecMag (lissajousOffset amp phase) 101 ∧ VecMag (lissajousFirst amp phase) 103 ∧
      VecMag (lissajousSecond amp phase) 105 := by
  have htwo : Mag (ofRat 2 * phase) 501 :=
    (mag_literal (n := 1) (by norm_num) (by omega)).mul hphase (by omega) (by omega)
  have hthree : Mag (ofRat 3 * phase) 502 :=
    (mag_literal (n := 2) (by norm_num) (by omega)).mul hphase (by omega) (by omega)
  have hscaled {q : ℚ} {x : Double library} {n : ℕ} (hq : |q| ≤ 2 ^ n) (hn : n ≤ 4)
      (hx : Mag x 100) : Mag (ofRat q * x) (n + 100) :=
    (mag_literal hq (by omega)).mul hx le_rfl (by omega)
  refine ⟨⟨?_, ?_, ?_⟩, ⟨?_, ?_, ?_⟩, ?_, ?_, ?_⟩
  · exact hamp.x.mul (mag_sin hlibrary hphase) (by omega) (by omega)
  · exact hamp.y.mul (mag_sin hlibrary htwo) (by omega) (by omega)
  · exact hamp.z.mul (mag_sin hlibrary hthree) (by omega) (by omega)
  · exact hamp.x.mul (mag_cos hlibrary hphase) (by omega) (by omega)
  · exact (hscaled (n := 1) (by norm_num) (by omega) hamp.y).mul (mag_cos hlibrary htwo) (by omega)
      (by omega)
  · exact (hscaled (n := 2) (by norm_num) (by omega) hamp.z).mul (mag_cos hlibrary hthree)
      (by omega) (by omega)
  · exact hamp.x.neg.mul (mag_sin hlibrary hphase) (by omega) (by omega)
  · exact (hscaled (n := 2) (by norm_num) (by omega) hamp.y).mul (mag_sin hlibrary htwo) (by omega)
      (by omega)
  · exact (hscaled (n := 4) (by norm_num) (by omega) hamp.z).mul (mag_sin hlibrary hthree)
      (by omega) (by omega)

include hlibrary in
/-- At the start of the lap the path is not slow unless the amplitudes are minute. -/
theorem away_lissajousFirst (hamp : VecMag amp 100) (hphase : phase.value = .finite 0)
    (haway : Away amp.x 200 ∨ Away amp.y 200 ∨ Away amp.z 200) :
    Away (lissajousFirst amp phase).x 202 ∨ Away (lissajousFirst amp phase).y 202 ∨
      Away (lissajousFirst amp phase).z 202 := by
  -- at phase zero all three cosines are near one
  have hcos {x : Double library} (hx : x.value = .finite 0) : Away (cos x) 1 ∧ Mag (cos x) 104 :=
    have hmag : Mag x 0 := ⟨0, hx, by simp⟩
    ⟨away_cos_zero hlibrary hx, (mag_cos hlibrary hmag).mono (by omega)⟩
  have hliteral {q : ℚ} (hq : 1 ≤ q) (hq' : q ≤ 4) {x : Double library} (hx : Away x 200)
      (hx' : Mag x 100) : Away (ofRat q * x) 200 ∧ Mag (ofRat q * x) 104 := by
    have hpos : 0 < q := lt_of_lt_of_le one_pos hq
    have hmag : Mag (ofRat q : Double library) 2 :=
      mag_literal (by rw [abs_of_pos hpos]; linarith) (by omega)
    have hone : Away (ofRat q : Double library) 0 :=
      Away.ofRat (a := 2) (by rw [abs_of_pos hpos]; linarith) (by omega)
        (by rw [abs_of_pos hpos]; linarith) (by omega)
    exact ⟨hone.mul hx (hmag.mono (by omega) : Mag _ 100) hx' (by omega) (by omega) (by omega),
      hmag.mul hx' (by omega) (by omega)⟩
  have hscaled {q : ℚ} (hq : |q| ≤ 2 ^ 2) :
      ((ofRat q : Double library) * phase).value = .finite 0 :=
    value_mul_zero (mag_literal hq (by omega)) hphase
  rcases haway with hx | hy | hz
  · obtain ⟨hcos, hcos'⟩ := hcos hphase
    exact Or.inl (hx.mul hcos (hamp.x.mono (by omega)) hcos' (by omega) (by omega) (by omega))
  · obtain ⟨hcos, hcos'⟩ := hcos (hscaled (q := 2) (by norm_num))
    obtain ⟨hy, hy'⟩ := hliteral (q := 2) (by norm_num) (by norm_num) hy hamp.y
    exact Or.inr (Or.inl (hy.mul hcos hy' hcos' (by omega) (by omega) (by omega)))
  · obtain ⟨hcos, hcos'⟩ := hcos (hscaled (q := 3) (by norm_num))
    obtain ⟨hz, hz'⟩ := hliteral (q := 3) (by norm_num) (by norm_num) hz hamp.z
    exact Or.inr (Or.inr (hz.mul hcos hz' hcos' (by omega) (by omega) (by omega)))

include hlibrary in
/-- With minute amplitudes the path is slow. -/
theorem small_lissajousFirst (hphase : Mag phase 500) (hx : Small amp.x 200) (hy : Small amp.y 200)
    (hz : Small amp.z 200) : Small (lissajousFirst amp phase).norm 94 := by
  have htwo : Mag (ofRat 2 * phase) 501 :=
    (mag_literal (n := 1) (by norm_num) (by omega)).mul hphase (by omega) (by omega)
  have hthree : Mag (ofRat 3 * phase) 502 :=
    (mag_literal (n := 2) (by norm_num) (by omega)).mul hphase (by omega) (by omega)
  have hscaled {q : ℚ} {x : Double library} (hq : |q| ≤ 2 ^ 2) (hx : Small x 200) :
      Small (ofRat q * x) 198 :=
    Small.mag_mul (mag_literal hq (by omega)) hx (by omega) (by omega)
  have hfirst : ∀ x ∈ [(lissajousFirst amp phase).x, (lissajousFirst amp phase).y,
      (lissajousFirst amp phase).z], Small x 197 := by
    intro x hmem
    simp only [List.mem_cons, List.not_mem_nil, or_false] at hmem
    rcases hmem with rfl | rfl | rfl
    · exact hx.mul_mag (mag_cos hlibrary hphase) (by omega) (by omega)
    · exact (hscaled (by norm_num) hy).mul_mag (mag_cos hlibrary htwo) (by omega) (by omega)
    · exact (hscaled (by norm_num) hz).mul_mag (mag_cos hlibrary hthree) (by omega) (by omega)
  -- a square may underflow, but it does not become negative
  have hsquare {x : Double library} (hx : Small x 197) : Small (x * x) 197 ∧ Nonneg (x * x) := by
    have hmag := Mag.small hx
    obtain ⟨q, hq, hle⟩ := hmag
    obtain ⟨r, hr, hr0, -⟩ := exists_mul_self hq hle (by omega)
    exact ⟨hx.mul_mag (Mag.small hx) (by omega) (by omega), r, hr, hr0⟩
  obtain ⟨hxx, hxx0⟩ := hsquare (hfirst (lissajousFirst amp phase).x (by simp))
  obtain ⟨hyy, hyy0⟩ := hsquare (hfirst (lissajousFirst amp phase).y (by simp))
  obtain ⟨hzz, hzz0⟩ := hsquare (hfirst (lissajousFirst amp phase).z (by simp))
  have hsum := hxx.add (n := 196) hyy (by omega)
  have hdot := hsum.add (n := 195) (hzz.mono (by omega)) (by omega)
  have hdot0 := (hxx0.add hyy0 (Mag.small hsum)).add hzz0 (Mag.small hdot)
  obtain ⟨d, hd, hle⟩ := hdot
  obtain ⟨d', hd', hd0⟩ := hdot0
  obtain rfl : d = d' := Value.finite.inj (hd.symm.trans hd')
  refine small_sqrt hlibrary hd hd0 ((le_of_abs_le hle).trans ?_)
  norm_num

/-- The sums grow, and stay below the sum of the bounds of the terms. -/
theorem mem_cumulativeSums {c T : ℚ} {k N : ℕ} {xs : List (Double library)}
    {total y : Double library} (hc : 0 ≤ c) (hrep : ∀ j ≤ N, Representable binary64 (j * c))
    (hN : N * c ≤ 2 ^ 200) (htotal : total.value = .finite T) (hT : 0 ≤ T) (hk : T ≤ k * c)
    (hlength : k + xs.length ≤ N)
    (hxs : ∀ x ∈ xs, ∃ s, x.value = .finite s ∧ 0 ≤ s ∧ s ≤ c)
    (hy : y ∈ cumulativeSums total xs) : ∃ r, y.value = .finite r ∧ T ≤ r ∧ r ≤ N * c := by
  have hmono {j : ℕ} (hj : j ≤ N) : (j : ℚ) * c ≤ N * c :=
    mul_le_mul_of_nonneg_right (by exact_mod_cast hj) hc
  induction xs generalizing total T k with
  | nil =>
    obtain rfl := List.mem_singleton.mp hy
    exact ⟨T, htotal, le_rfl, hk.trans (hmono (by omega))⟩
  | cons x xs ih =>
    rw [List.length_cons] at hlength
    rcases List.mem_cons.mp hy with rfl | hy
    · exact ⟨T, htotal, le_rfl, hk.trans (hmono (by omega))⟩
    · obtain ⟨s, hs, hs0, hsc⟩ := hxs x List.mem_cons_self
      have hle : T + s ≤ (k + 1 : ℕ) * c := by
        push_cast
        linarith
      -- rounding is monotone and keeps the bound and the last sum, which are in the format
      have hround : roundTo binary64 (T + s) ≤ (k + 1 : ℕ) * c :=
        (roundTo_mono hle).trans_eq (roundTo_of_representable (hrep (k + 1) (by omega)))
      have hgrow : T ≤ roundTo binary64 (T + s) :=
        (roundTo_of_representable (representable_of_value htotal)).symm.trans_le
          (roundTo_mono (by linarith))
      have hsum : (total + x).value = .finite (roundTo binary64 (T + s)) := by
        rw [Double.value_add htotal hs]
        refine Number.value_ofRat (f := binary64) ?_
        rw [abs_of_nonneg (hT.trans hgrow)]
        exact ((hround.trans (hmono (by omega))).trans hN).trans_lt (two_pow_lt (by omega))
      obtain ⟨r, hr, hlow, hhigh⟩ := ih hsum (hT.trans hgrow) hround (by omega)
        (fun z hz => hxs z (List.mem_cons_of_mem x hz)) hy
      exact ⟨r, hr, hgrow.trans hlow, hhigh⟩

theorem representable_mul_zpow {j : ℕ} {z : ℤ} (hj : j ≤ 4096) (hz : -1074 ≤ z) :
    Representable binary64 (j * 2 ^ z) := by
  refine ⟨j, z, by push_cast; rfl, ?_, hz⟩
  rw [Nat.abs_cast]
  have hlt : (4096 : ℤ) < 2 ^ binary64.precision := by norm_num [binary64]
  omega

/-- A segment of the table. -/
theorem segment_cases {a b step : Double library} (ha : Mag a 105) (ha0 : Nonneg a)
    (hb : Mag b 105) (hb0 : Nonneg b) (hstep : Mag step 4) (hstep0 : Nonneg step) :
    Mag (ofRat (1 / 2) * (a + b) * step) 110 ∧ Nonneg (ofRat (1 / 2) * (a + b) * step) ∧
      (Small a 94 → Small b 94 → Small (ofRat (1 / 2) * (a + b) * step) 89) := by
  have hhalf : Mag (ofRat (1 / 2) : Double library) 0 := mag_literal (by norm_num) (by omega)
  have hsum : Mag (a + b) 106 := ha.add hb (by omega) (by omega) (by omega)
  have hmean : Mag (ofRat (1 / 2) * (a + b)) 106 := hhalf.mul hsum (by omega) (by omega)
  have hproduct : Mag (ofRat (1 / 2) * (a + b) * step) 110 := hmean.mul hstep (by omega) (by omega)
  have hmean0 := (Nonneg.ofRat (by norm_num) hhalf).mul (ha0.add hb0 hsum) hmean
  refine ⟨hproduct, hmean0.mul hstep0 hproduct, fun hsa hsb => ?_⟩
  have hsmall := Small.mag_mul hhalf (hsa.add (n := 93) hsb (by omega)) (n := 93) (by omega)
    (by omega)
  exact hsmall.mul_mag hstep (by omega) (by omega)

/-! ### The table -/

theorem linspace_eq_cons {α : Type} [Scalar α] (stop : α) (n : ℕ) :
    ∃ rest, linspace stop (n + 1) = (ofRat 0 * (stop / ofRat ((n + 1 : ℕ) : ℚ))) :: rest ∧
      rest.length = n + 1 := by
  unfold linspace
  rw [List.range_succ_eq_map]
  refine ⟨_, rfl, ?_⟩
  rw [List.length_map, List.length_map, List.length_range]

theorem mag_natCast {i : ℕ} (hi : i ≤ 4096) : Mag (ofRat (i : ℚ) : Double library) 12 := by
  refine mag_literal ?_ (by omega)
  rw [abs_of_nonneg (Nat.cast_nonneg i)]
  exact (Nat.cast_le.mpr hi).trans (by norm_num)

theorem away_natCast {i : ℕ} (hi : i ≤ 4096) (hpos : 0 < i) :
    Away (ofRat (i : ℚ) : Double library) 0 := by
  have hone : (1 : ℚ) ≤ i := by exact_mod_cast hpos
  refine Away.ofRat (a := 12) ?_ (by omega) ?_ (by omega)
  · rw [abs_of_nonneg (by linarith)]
    simpa using hone
  · rw [abs_of_nonneg (by linarith)]
    exact (Nat.cast_le.mpr hi).trans (by norm_num)

include hlibrary in
theorem nonneg_twoPi : Nonneg (twoPi : Double library) := by
  have hpi : Nonneg (Scalar.pi : Double library) := by
    obtain ⟨q, hq, hle⟩ := hlibrary.pi
    refine ⟨q, hq, ?_⟩
    have hlow := (abs_le.mp (hle.trans libraryError_le)).1
    have hreal : (0 : ℝ) ≤ q := by linarith [Real.two_le_pi]
    exact_mod_cast hreal
  have htwo : Mag (ofRat 2 : Double library) 1 := mag_literal (by norm_num) (by omega)
  exact (Nonneg.ofRat (by norm_num) htwo).mul hpi (mag_twoPi hlibrary)

include hlibrary in
theorem mag_linspace {n : ℕ} (hn : n ≤ 4096) (hpos : 0 < n) {x : Double library}
    (hx : x ∈ linspace twoPi n) : Mag x 16 := by
  obtain ⟨i, hi, rfl⟩ := List.mem_map.mp hx
  have hlt : i < n + 1 := List.mem_range.mp hi
  split_ifs
  · exact (mag_twoPi hlibrary).mono (by omega)
  · have hstep : Mag (twoPi / ofRat (n : ℚ) : Double library) 4 :=
      (mag_twoPi hlibrary).div (away_natCast hn hpos) (by omega) (by omega)
    exact (mag_natCast (by omega)).mul hstep (by omega) (by omega)

/-- What is known of the lengths in the table. -/
structure Lengths (amp : Vec (Double library)) (lengths : List (Double library)) : Prop where
  mag : ∀ x ∈ lengths, Mag x 122
  /-- unless the amplitudes are minute, only the first length is -/
  start : Away amp.x 200 ∨ Away amp.y 200 ∨ Away amp.z 200 →
    ∃ rest, lengths = ofRat 0 :: rest ∧ ∀ x ∈ rest, ∃ r, x.value = .finite r ∧ 1 / 2 ^ 220 ≤ r
  small : Small amp.x 200 → Small amp.y 200 → Small amp.z 200 → ∀ x ∈ lengths, Small x 30

include hlibrary in
theorem lissajousArcTable_fst {x : Double library} (hx : x ∈ (lissajousArcTable amp).1) :
    Mag x 16 := by
  obtain ⟨n, hn, hle, hpos⟩ : ∃ n, arcSegments = n ∧ n ≤ 4096 ∧ 0 < n :=
    ⟨4096, rfl, le_rfl, by omega⟩
  unfold lissajousArcTable at hx
  dsimp only at hx
  rw [hn] at hx
  exact mag_linspace hlibrary hle hpos hx

include hlibrary in
theorem nonneg_norm {v : Vec (Double library)} (hv : VecMag v 103) :
    Mag v.norm 105 ∧ Nonneg v.norm := by
  obtain ⟨d, hd, hd0, -⟩ := hv.exists_dot_self (by omega)
  exact ⟨hv.norm hlibrary (by omega) (by omega), nonneg_sqrt hlibrary hd hd0⟩

include hlibrary in
/-- A segment that begins where the path is not slow. -/
theorem away_segment {v : Vec (Double library)} {b step : Double library} (hv : VecMag v 103)
    (haway : Away v.x 202 ∨ Away v.y 202 ∨ Away v.z 202) (hb : Mag b 105 ∧ Nonneg b)
    (hstep : Mag step 4) (hstep0 : Nonneg step) (hstepAway : Away step 12) :
    ∃ s, (ofRat (1 / 2) * (v.norm + b) * step).value = .finite s ∧ 0 ≤ s ∧ 1 / 2 ^ 220 ≤ s := by
  obtain ⟨d, hd, -, -, hlow⟩ := hv.exists_dot_self (by omega)
  obtain ⟨hnorm, hnorm0⟩ := nonneg_norm hlibrary hv
  obtain ⟨hsegment, ⟨s, hs, hs0⟩, -⟩ := segment_cases hnorm hnorm0 hb.1 hb.2 hstep hstep0
  obtain ⟨r, hr, hrle⟩ : Away v.norm 203 :=
    away_sqrt hlibrary hd (hlow 202 (by omega) haway)
  obtain ⟨r', hr', hr0⟩ := hnorm0
  obtain rfl : r = r' := Value.finite.inj (hr.symm.trans hr')
  obtain ⟨p, hp, hp0⟩ := hb.2
  have hsum : Away (v.norm + b) 203 := by
    obtain ⟨u, hu, hru, -, -⟩ := exists_add (a := 105) (b := 105) (n := 106) hr hp hr0 hp0
      (le_of_mag hnorm hr) (le_of_mag hb.1 hp) (by omega) (by omega) (by omega)
    rw [abs_of_nonneg hr0] at hrle
    exact ⟨u, hu, (hrle.trans hru).trans (le_abs_self u)⟩
  have hhalf : Away (ofRat (1 / 2) : Double library) 1 :=
    Away.ofRat (a := 0) (by norm_num) (by omega) (by norm_num) (by omega)
  have hsumMag : Mag (v.norm + b) 106 := hnorm.add hb.1 (by omega) (by omega) (by omega)
  have hmean : Away (ofRat (1 / 2) * (v.norm + b)) 204 :=
    hhalf.mul hsum (c := 106) (mag_literal (by norm_num) (by omega)) hsumMag (by omega) (by omega)
      (by omega)
  have hmeanMag : Mag (ofRat (1 / 2) * (v.norm + b)) 106 :=
    (mag_literal (n := 0) (by norm_num) (by omega)).mul hsumMag (by omega) (by omega)
  obtain ⟨s', hs', hle⟩ : Away (ofRat (1 / 2) * (v.norm + b) * step) 220 :=
    hmean.mul hstepAway hmeanMag (hstep.mono (by omega)) (by omega) (by omega) (by omega)
  obtain rfl : s = s' := Value.finite.inj (hs.symm.trans hs')
  exact ⟨s, hs, hs0, hle.trans_eq (abs_of_nonneg hs0)⟩

/-- The lengths of the segments of the table, from the speeds at its points. -/
def segments (step : Double library) (speeds : List (Double library)) : List (Double library) :=
  List.zipWith (fun a b => ofRat (1 / 2) * (a + b) * step) speeds speeds.tail

/-- What is known of the speeds at the points of the table. -/
structure Speeds (amp : Vec (Double library)) (step : Double library)
    (speeds : List (Double library)) : Prop where
  mag : ∀ x ∈ speeds, Mag x 105 ∧ Nonneg x
  small : Small amp.x 200 → Small amp.y 200 → Small amp.z 200 → ∀ x ∈ speeds, Small x 94
  head : ∃ phase rest, speeds = (lissajousFirst amp (ofRat 0 * step)).norm ::
    (lissajousFirst amp phase).norm :: rest
  count : speeds.tail.length ≤ 4096

include hlibrary in
theorem speeds_linspace (hamp : VecMag amp 100) {n : ℕ} (hn : n + 1 ≤ 4096) :
    Speeds amp (twoPi / ofRat ((n + 1 : ℕ) : ℚ))
      ((linspace twoPi (n + 1)).map fun phase => (lissajousFirst amp phase).norm) := by
  have hphases {x : Double library} (hx : x ∈ linspace twoPi (n + 1)) : Mag x 500 :=
    (mag_linspace hlibrary hn (by omega) hx).mono (by omega)
  obtain ⟨rest, hlinspace, hlength⟩ := linspace_eq_cons (twoPi : Double library) n
  refine ⟨fun x hx => ?_, fun hx hy hz x hmem => ?_, ?_, ?_⟩
  · obtain ⟨phase, hphase, rfl⟩ := List.mem_map.mp hx
    exact nonneg_norm hlibrary (mag_lissajous hlibrary hamp (hphases hphase)).2.1
  · obtain ⟨phase, hphase, rfl⟩ := List.mem_map.mp hmem
    exact small_lissajousFirst hlibrary (hphases hphase) hx hy hz
  · cases rest with
    | nil => cases hlength
    | cons phase rest => exact ⟨phase, _, by rw [hlinspace]; rfl⟩
  · rw [List.length_tail, List.length_map, hlinspace, List.length_cons, hlength]
    omega

section Sums

variable {step : Double library} {speeds : List (Double library)} (hspeeds : Speeds amp step speeds)
  (hstep : Mag step 4) (hstep0 : Nonneg step)

theorem mem_segments {x : Double library} (hx : x ∈ segments step speeds) :
    ∃ a ∈ speeds, ∃ b ∈ speeds, x = ofRat (1 / 2) * (a + b) * step := by
  rw [segments, ← List.map_uncurry_zip_eq_zipWith] at hx
  obtain ⟨⟨a, b⟩, hab, rfl⟩ := List.mem_map.mp hx
  exact ⟨a, (List.of_mem_zip hab).1, b, List.mem_of_mem_tail (List.of_mem_zip hab).2, rfl⟩

include hspeeds in
theorem length_segments : (segments step speeds).length ≤ 4096 := by
  rw [segments, List.length_zipWith]
  exact (min_le_right _ _).trans hspeeds.count

include hspeeds hstep hstep0 in
theorem bound_segments : ∀ x ∈ segments step speeds,
    ∃ s, x.value = .finite s ∧ 0 ≤ s ∧ s ≤ 2 ^ (110 : ℤ) := by
  intro x hx
  obtain ⟨a, ha, b, hb, rfl⟩ := mem_segments hx
  obtain ⟨⟨s, hs, hsle⟩, ⟨s', hs', hs0⟩, -⟩ := segment_cases (hspeeds.mag a ha).1
    (hspeeds.mag a ha).2 (hspeeds.mag b hb).1 (hspeeds.mag b hb).2 hstep hstep0
  obtain rfl : s = s' := Value.finite.inj (hs.symm.trans hs')
  exact ⟨s, hs, hs0, (le_of_abs_le hsle).trans_eq (by norm_cast)⟩

include hspeeds hstep hstep0 in
theorem small_segments (hsmall : ∀ x ∈ speeds, Small x 94) : ∀ x ∈ segments step speeds,
    ∃ s, x.value = .finite s ∧ 0 ≤ s ∧ s ≤ 2 ^ (-89 : ℤ) := by
  intro x hx
  obtain ⟨s, hs, hs0, -⟩ := bound_segments hspeeds hstep hstep0 x hx
  obtain ⟨a, ha, b, hb, rfl⟩ := mem_segments hx
  obtain ⟨s', hs', hsle⟩ := (segment_cases (hspeeds.mag a ha).1 (hspeeds.mag a ha).2
    (hspeeds.mag b hb).1 (hspeeds.mag b hb).2 hstep hstep0).2.2 (hsmall a ha) (hsmall b hb)
  obtain rfl : s = s' := Value.finite.inj (hs.symm.trans hs')
  exact ⟨s, hs, hs0, (le_of_abs_le hsle).trans (by norm_num)⟩

include hspeeds in
/-- Sums of segments that are all below a power of two are below 4096 times that power. -/
theorem bound_sums {z : ℤ} (hz : -1074 ≤ z) (hle : (4096 : ℕ) * (2 : ℚ) ^ z ≤ 2 ^ 200)
    (hbound : ∀ x ∈ segments step speeds, ∃ s, x.value = .finite s ∧ 0 ≤ s ∧ s ≤ 2 ^ z)
    {y : Double library} (hy : y ∈ cumulativeSums (ofRat 0) (segments step speeds)) :
    ∃ r, y.value = .finite r ∧ |r| ≤ (4096 : ℕ) * 2 ^ z := by
  have hlength : (segments step speeds).length ≤ 4096 := length_segments hspeeds
  obtain ⟨r, hr, hr0, hle⟩ := mem_cumulativeSums (k := 0) (N := 4096) (by positivity)
    (fun j hj => representable_mul_zpow hj hz) hle value_ofRat_zero le_rfl (by simp) (by omega)
    hbound hy
  exact ⟨r, hr, (abs_of_nonneg hr0).trans_le hle⟩

include hlibrary hspeeds hstep hstep0 in
/-- Every length but the first is at least that of the first segment. -/
theorem start_sums (hamp : VecMag amp 100) (hstepAway : Away step 12)
    (haway : Away amp.x 200 ∨ Away amp.y 200 ∨ Away amp.z 200) :
    ∃ rest, cumulativeSums (ofRat 0) (segments step speeds) = ofRat 0 :: rest ∧
      ∀ x ∈ rest, ∃ r, x.value = .finite r ∧ 1 / 2 ^ 220 ≤ r := by
  have hbound := bound_segments hspeeds hstep hstep0
  have hlength : (segments step speeds).length ≤ 4096 := length_segments hspeeds
  obtain ⟨phase, rest, hhead⟩ := hspeeds.head
  -- the path is not slow at the start of the lap, so that the first segment is not minute
  have hstart : Mag (ofRat 0 * step) 500 := (mag_zero (n := 0) (by omega)).mul hstep (by omega)
    (by omega)
  have hfirst := away_lissajousFirst hlibrary hamp (value_zero_mul value_ofRat_zero hstep) haway
  obtain ⟨s, hs, hs0, hslow⟩ := away_segment hlibrary (mag_lissajous hlibrary hamp hstart).2.1
    hfirst (hspeeds.mag (lissajousFirst amp phase).norm (by simp [hhead])) hstep hstep0 hstepAway
  rw [hhead] at hbound hlength ⊢
  refine ⟨_, rfl, fun x hx => ?_⟩
  have hsle : s ≤ 2 ^ (110 : ℤ) := by
    obtain ⟨s', hs', -, hle⟩ := hbound _ List.mem_cons_self
    obtain rfl : s = s' := Value.finite.inj (hs.symm.trans hs')
    exact hle
  have hsum : (ofRat 0 + ofRat (1 / 2) * ((lissajousFirst amp (ofRat 0 * step)).norm +
      (lissajousFirst amp phase).norm) * step).value = .finite s := by
    rw [Double.value_add value_ofRat_zero hs, zero_add]
    refine value_ofRat (representable_of_value hs) (n := 110) ?_ (by omega)
    rw [abs_of_nonneg hs0]
    exact hsle.trans_eq (by norm_cast)
  -- and the other sums only grow
  obtain ⟨r, hr, hle, -⟩ := mem_cumulativeSums (N := 4096) (by positivity)
    (fun j hj => representable_mul_zpow hj (by norm_num)) (by norm_num) hsum hs0
    (k := 1) (by simpa using hsle) (by rw [add_comm]; exact hlength)
    (fun y hy => hbound y (List.mem_cons_of_mem _ hy)) hx
  exact ⟨r, hr, hslow.trans hle⟩

end Sums

include hlibrary in
theorem lengths_lissajousArcTable (hamp : VecMag amp 100) :
    Lengths amp (lissajousArcTable amp).2 := by
  obtain ⟨n, hn, hle⟩ : ∃ n, arcSegments = n + 1 ∧ n + 1 ≤ 4096 := ⟨4095, rfl, by omega⟩
  have hcount : Mag (ofRat ((n + 1 : ℕ) : ℚ) : Double library) 12 := mag_natCast hle
  have hcount' : Away (ofRat ((n + 1 : ℕ) : ℚ) : Double library) 0 :=
    away_natCast hle (by omega)
  have hcount0 : Nonneg (ofRat ((n + 1 : ℕ) : ℚ) : Double library) :=
    Nonneg.ofRat (Nat.cast_nonneg _) hcount
  have hstep : Mag (twoPi / ofRat ((n + 1 : ℕ) : ℚ) : Double library) 4 :=
    (mag_twoPi hlibrary).div hcount' (by omega) (by omega)
  have hstep0 := (nonneg_twoPi hlibrary).div hcount0 hcount' hstep
  have hstepAway : Away (twoPi / ofRat ((n + 1 : ℕ) : ℚ) : Double library) 12 :=
    (away_twoPi hlibrary).div hcount (mag_twoPi hlibrary) hcount' (by omega) (by omega) (by omega)
  have hspeeds := speeds_linspace hlibrary hamp hle
  have htable : (lissajousArcTable amp).2 = cumulativeSums (ofRat 0)
      (segments (twoPi / ofRat ((n + 1 : ℕ) : ℚ)) ((linspace twoPi (n + 1)).map fun phase =>
        (lissajousFirst amp phase).norm)) := by
    rw [lissajousArcTable, hn]
    rfl
  rw [htable]
  refine ⟨fun x hx => ?_, start_sums hlibrary hspeeds hstep hstep0 hamp hstepAway,
    fun hx hy hz x hmem => ?_⟩
  · obtain ⟨r, hr, hr'⟩ := bound_sums hspeeds (by norm_num) (by norm_num)
      (bound_segments hspeeds hstep hstep0) hx
    exact ⟨r, hr, hr'.trans (by norm_num)⟩
  · obtain ⟨r, hr, hr'⟩ := bound_sums hspeeds (by norm_num) (by norm_num)
      (small_segments hspeeds hstep hstep0 (hspeeds.small hx hy hz)) hmem
    exact ⟨r, hr, hr'.trans (by norm_num)⟩

theorem small_or_away {x : Double library} {m n : ℕ} (hx : Mag x m) : Small x n ∨ Away x n := by
  obtain ⟨q, hq, -⟩ := hx
  rcases le_total |q| (1 / 2 ^ n) with hle | hle
  · exact Or.inl ⟨q, hq, hle⟩
  · exact Or.inr ⟨q, hq, hle⟩

/-- Lengths that differ are not close, since one lap is not small. -/
theorem pairwise_lengths {lengths : List (Double library)} (h : Lengths amp lengths)
    (haway : Away amp.x 200 ∨ Away amp.y 200 ∨ Away amp.z 200) :
    lengths.Pairwise fun x y => lt x y = true → Away (y - x) 272 := by
  obtain ⟨rest, rfl, hrest⟩ := h.start haway
  have hmag := h.mag
  rw [List.pairwise_cons]
  -- from the first length, which is zero, and between two later ones, which differ by a last place
  refine ⟨fun y hy _ => ?_, List.pairwise_of_forall_mem_list fun x hx y hy hlt => ?_⟩
  · obtain ⟨r, hr, hle⟩ := hrest y hy
    rw [value_sub hr value_ofRat_zero, sub_zero]
    have hr0 : 0 < r := lt_of_lt_of_le (by positivity) hle
    refine (Away.ofRat (n := 220) (a := 122) ?_ (by omega) ?_ (by omega)).mono (by omega)
    · rwa [abs_of_pos hr0]
    · rw [abs_of_pos hr0]
      exact le_of_mag (hmag y (List.mem_cons_of_mem _ hy)) hr
  · obtain ⟨p, hp, hple⟩ := hrest x hx
    obtain ⟨q, hq, -⟩ := hrest y hy
    rw [lt_eq hp hq, decide_eq_true_iff] at hlt
    exact away_sub hp hq hple hlt (le_of_mag (hmag y (List.mem_cons_of_mem _ hy)) hq) (by omega)
      (by omega)

/-- A value between two points of a table. -/
theorem mag_interpolate {x : Double library} (hx : Mag x 122)
    {points : List (Double library × Double library)}
    (hpoints : ∀ p ∈ points, Mag p.1 122 ∧ Mag p.2 16)
    (hpairs : points.Pairwise fun p q => lt p.1 q.1 = true → Away (q.1 - p.1) 272) :
    Mag (interpolate x points) 500 := by
  induction points using interpolate.induct x with
  | case1 => exact mag_zero (by omega)
  | case2 a f => exact (hpoints _ List.mem_cons_self).2.mono (by omega)
  | case3 a f b g rest hbelow =>
    rw [interpolate, if_pos hbelow]
    exact (hpoints _ List.mem_cons_self).2.mono (by omega)
  | case4 a f b g rest habove hbelow =>
    obtain ⟨ha, hf⟩ := hpoints _ List.mem_cons_self
    obtain ⟨hb, hg⟩ := hpoints _ (List.mem_cons_of_mem _ List.mem_cons_self)
    rw [interpolate, if_neg habove, if_pos hbelow]
    -- the point lies between different points
    have hlt : lt a b = true := by
      obtain ⟨p, hp, -⟩ := hx
      obtain ⟨q, hq, -⟩ := ha
      obtain ⟨r, hr, -⟩ := hb
      rw [lt_eq hp hq, decide_eq_true_iff, not_lt] at habove
      rw [lt_eq hp hr, decide_eq_true_iff] at hbelow
      rw [lt_eq hq hr, decide_eq_true_iff]
      exact habove.trans_lt hbelow
    have haway := (List.pairwise_cons.mp hpairs).1 (b, g) List.mem_cons_self hlt
    have hslope : Mag ((g - f) / (b - a)) 300 :=
      (hg.sub hf (n := 17) (by omega) (by omega) (by omega)).div haway (by omega) (by omega)
    have hoffset : Mag (x - a) 123 := hx.sub ha (by omega) (by omega) (by omega)
    exact (hslope.mul hoffset le_rfl (by omega)).add hf (by omega) (by omega) (by omega)
  | case5 a f b g rest habove hbelow ih =>
    rw [interpolate, if_neg habove, if_neg hbelow]
    exact ih (fun p hp => hpoints p (List.mem_cons_of_mem _ hp)) (List.pairwise_cons.mp hpairs).2

end Lissajous

theorem lissajousLapLength_mem :
    lissajousLapLength config ∈ (lissajousArcTable (lissajousAmplitude config)).2 := by
  have hne : ∀ (total : Double library) xs, cumulativeSums total xs ≠ [] := by
    intro total xs
    cases xs <;> exact nofun
  unfold lissajousLapLength
  cases hlast : (lissajousArcTable (lissajousAmplitude config)).2.getLast? with
  | none =>
    have hnil := List.getLast?_eq_none_iff.mp hlast
    unfold lissajousArcTable at hnil
    dsimp only at hnil
    exact (hne _ _ hnil).elim
  | some x => exact List.mem_of_getLast? hlast

theorem pairwise_zip {α β : Type} {R : α → α → Prop} {xs : List α} (h : xs.Pairwise R)
    (ys : List β) : (xs.zip ys).Pairwise fun p q => R p.1 q.1 := by
  induction xs generalizing ys with
  | nil => exact .nil
  | cons x xs ih =>
    rw [List.pairwise_cons] at h
    cases ys with
    | nil => exact .nil
    | cons y ys =>
      exact List.pairwise_cons.mpr ⟨fun p hp => h.1 p.1 (List.of_mem_zip hp).1, ih h.2 ys⟩

include hlibrary h in
theorem mag_spatialLissajous (ht : Mag t 104) : (spatialLissajousKinematics config t).Mag := by
  have hamp : VecMag (lissajousAmplitude config) 100 := by
    refine ⟨Mag.abs ?_, Mag.abs ?_, Mag.abs ?_⟩ <;>
      exact mag_value h (by simp [TrajectoryConfig.values])
  have hlengths := lengths_lissajousArcTable hlibrary hamp
  have hphases : ∀ x ∈ (lissajousArcTable (lissajousAmplitude config)).1, Mag x 16 :=
    fun x hx => lissajousArcTable_fst hlibrary hx
  have hspeed := mag_pathSpeed h
  obtain ⟨hvalue, hrate, hacceleration⟩ := mag_rampedTime h ht
  have hlap : lissajousLapLength config ∈ (lissajousArcTable (lissajousAmplitude config)).2 :=
    lissajousLapLength_mem
  obtain ⟨d, hd, hd30, -⟩ := @value_smallDistance library
  unfold spatialLissajousKinematics
  dsimp only
  split_ifs with hstill
  · exact mag_still
  · rw [Bool.or_eq_true, not_or] at hstill
    obtain ⟨l, hl, hle⟩ := hlengths.mag _ hlap
    rw [le_eq hl hd, decide_eq_true_eq, not_le] at hstill
    have hlapAway : Away (lissajousLapLength config) 30 :=
      ⟨l, hl, (hd30.trans hstill.1.le).trans (le_abs_self l)⟩
    have haway : Away (lissajousAmplitude config).x 200 ∨ Away (lissajousAmplitude config).y 200 ∨
        Away (lissajousAmplitude config).z 200 := by
      rcases small_or_away (n := 200) hamp.x with hx | hx
      · rcases small_or_away (n := 200) hamp.y with hy | hy
        · rcases small_or_away (n := 200) hamp.z with hz | hz
          · -- a lap of minute amplitudes is small
            obtain ⟨l', hl', hsmall⟩ := hlengths.small hx hy hz _ hlap
            obtain rfl : l = l' := Value.finite.inj (hl.symm.trans hl')
            exact absurd ((le_of_abs_le hsmall).trans hd30) (not_le.mpr hstill.1)
          · exact Or.inr (Or.inr hz)
        · exact Or.inr (Or.inl hy)
      · exact Or.inl hx
    have hdistance : Mag (mod (pathSpeed config * (rampedTimeKinematics config t).value)
        (lissajousLapLength config)) 122 :=
      (hspeed.mul hvalue (n := 205) (by omega) (by omega)).mod ⟨l, hl, hle⟩ hlapAway (by omega)
    have hphase : Mag (interp (mod (pathSpeed config * (rampedTimeKinematics config t).value)
        (lissajousLapLength config)) (List.zip (lissajousArcTable (lissajousAmplitude config)).2
        (lissajousArcTable (lissajousAmplitude config)).1)) 500 := by
      rw [interp, hdistance.isNan, if_neg Bool.false_ne_true]
      exact mag_interpolate hdistance (fun p hp => ⟨hlengths.mag _ (List.of_mem_zip hp).1,
        hphases _ (List.of_mem_zip hp).2⟩) (pairwise_zip (pairwise_lengths hlengths haway) _)
    generalize interp (mod (pathSpeed config * (rampedTimeKinematics config t).value)
      (lissajousLapLength config)) (List.zip (lissajousArcTable (lissajousAmplitude config)).2
        (lissajousArcTable (lissajousAmplitude config)).1) = phase at hphase ⊢
    obtain ⟨hoffset, hfirst, hsecond⟩ := mag_lissajous hlibrary hamp hphase
    have hnorm : Mag (lissajousFirst (lissajousAmplitude config) phase).norm 105 :=
      hfirst.norm hlibrary (by omega) (by omega)
    have hdivisor : Mag (pyMax smallDistance
        (lissajousFirst (lissajousAmplitude config) phase).norm) 105 :=
      pyMax_of (P := (Mag · 105)) (mag_literal (by norm_num) (by omega)) hnorm
    have hdivisor' := Away.pyMax hd hd30 hnorm
    have hrate' : Mag (pathSpeed config * (rampedTimeKinematics config t).rate) 103 :=
      hspeed.mul hrate (by omega) (by omega)
    have hacceleration' :
        Mag (pathSpeed config * (rampedTimeKinematics config t).acceleration) 204 :=
      hspeed.mul hacceleration (by omega) (by omega)
    have hturn : Mag ((lissajousFirst (lissajousAmplitude config) phase).dot
        (lissajousSecond (lissajousAmplitude config) phase) *
        pow (pathSpeed config * (rampedTimeKinematics config t).rate) 2) 416 :=
      (hfirst.dot hsecond (n := 210) (by omega) (by omega)).mul (hrate'.pow 2 (n := 206) (by omega)
        (by omega)) (by omega) (by omega)
    refine mag_compose hlibrary ⟨hoffset.x.mono (by omega), hoffset.y.mono (by omega),
      hoffset.z.mono (by omega)⟩ hfirst hsecond (hrate'.div hdivisor' (by omega) (by omega))
      (c := 537) ?_ (by omega) (by omega) (by omega)
    exact (hacceleration'.div hdivisor' (n := 234) (by omega) (by omega)).sub
      (hturn.div (hdivisor'.pow hdivisor 4 (n := 120) (by omega) (by omega) (by omega)) (n := 536)
        (by omega) (by omega)) (by omega) (by omega) (by omega)

include hlibrary h in
/-- Every path is bounded at every time in range. -/
theorem mag_trajectory (trajectoryType : String) (ht : Mag t 104) :
    (trajectoryKinematics config trajectoryType t).Mag := by
  unfold trajectoryKinematics
  split_ifs
  · exact mag_spatialLissajous hlibrary h ht
  · exact mag_circle hlibrary h ht
  · exact mag_racetrack hlibrary h ht
  · exact mag_straightLine hlibrary h ht
  · exact mag_still

end Paths

end RobotCore
