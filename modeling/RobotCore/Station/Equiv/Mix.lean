import Mathlib.Tactic.FinCases
import Mathlib.Tactic.NormNum
import RobotCore.Station.Equiv.ConditionalPid
import RobotCore.Station.Mix

/-!
# Correctness of the mixing

The four vertical commands are a collective plus an attitude that is scaled down to the limit before
(`altitudeLevelPwmCommands_eq`): what the attitude leaves of the limit bounds the collective, so
that the last clip changes nothing.  The four horizontal ones are the mix of the scaled efforts
(`stationHorizontalPwmMix_fst`), since the mix respects a common factor that is not negative.
-/

namespace RobotCore.Exact

open Clip

variable {K : Type*} [Field K] [LinearOrder K]

/-! ### Four values -/

theorem abs_le_peak (values : Fin 4 → K) (i : Fin 4) : |values i| ≤ peak values := by
  unfold peak
  fin_cases i
  · exact (le_max_left _ _).trans ((le_max_left _ _).trans (le_max_left _ _))
  · exact (le_max_right _ _).trans ((le_max_left _ _).trans (le_max_left _ _))
  · exact (le_max_right _ _).trans (le_max_left _ _)
  · exact le_max_right _ _

/-! ### The sign of the altitude -/

variable [IsStrictOrderedRing K]

/-- The signs that count as zero. -/
theorem isClose_zero_iff {sign : K} : IsClose sign 0 tolerance ↔ |sign| ≤ tolerance := by
  unfold IsClose
  rw [sub_zero, abs_zero, max_eq_left (abs_nonneg sign), le_max_iff]
  refine ⟨fun h => h.elim (fun h => ?_) id, Or.inr⟩
  have hzero : |sign| ≤ 0 := by
    have : (1 / 10 ^ 9 : K) < 1 := by norm_num
    nlinarith [abs_nonneg sign]
  exact hzero.trans ConditionalPid.tolerance_pos.le

/-! ### Vertical thrusters -/

omit [LinearOrder K] [IsStrictOrderedRing K] in
theorem attitudeMix_mul (roll pitch scale : K) (i : Fin 4) :
    attitudeMix roll pitch i * scale = attitudeMix (roll * scale) (pitch * scale) i := by
  unfold attitudeMix
  ring

/-- The largest differential on a thruster is that of both axes together. -/
theorem largest_attitudeMix (roll pitch : K) :
    largest (attitudeMix roll pitch) = |roll| + |pitch| := by
  simp only [largest, attitudeMix, Matrix.cons_val]
  rcases abs_cases roll with ⟨hr, _⟩ | ⟨hr, _⟩ <;> rcases abs_cases pitch with ⟨hp, _⟩ | ⟨hp, _⟩ <;>
    rw [hr, hp] <;> grind

theorem smallest_attitudeMix (roll pitch : K) :
    smallest (attitudeMix roll pitch) = -(|roll| + |pitch|) := by
  simp only [smallest, attitudeMix, Matrix.cons_val]
  rcases abs_cases roll with ⟨hr, _⟩ | ⟨hr, _⟩ <;> rcases abs_cases pitch with ⟨hp, _⟩ | ⟨hp, _⟩ <;>
    rw [hr, hp] <;> grind

theorem abs_attitudeMix_le (roll pitch : K) (i : Fin 4) :
    |attitudeMix roll pitch i| ≤ |roll| + |pitch| := by
  unfold attitudeMix
  refine (abs_add_le _ _).trans (add_le_add ?_ ?_) <;> fin_cases i <;> simp

theorem peak_attitudeMix (roll pitch : K) : peak (attitudeMix roll pitch) = |roll| + |pitch| := by
  refine le_antisymm ?_ ?_
  · exact max_le (max_le (max_le (abs_attitudeMix_le _ _ _) (abs_attitudeMix_le _ _ _))
      (abs_attitudeMix_le _ _ _)) (abs_attitudeMix_le _ _ _)
  · rw [← largest_attitudeMix]
    exact max_le (max_le (max_le ((le_abs_self _).trans (abs_le_peak _ _))
      ((le_abs_self _).trans (abs_le_peak _ _))) ((le_abs_self _).trans (abs_le_peak _ _)))
      ((le_abs_self _).trans (abs_le_peak _ _))

/-- What both axes take up of the limit, scaled down to it. -/
theorem applied_le {roll pitch limit : K} (hlimit : 0 ≤ limit) :
    |roll * scaleToLimit limit (|roll| + |pitch|)| +
      |pitch * scaleToLimit limit (|roll| + |pitch|)| ≤ limit := by
  have hscale := scaleToLimit_nonneg (|roll| + |pitch|) hlimit
  rw [abs_mul, abs_mul, abs_of_nonneg hscale, ← add_mul, mul_comm]
  exact scaleToLimit_mul_le hlimit

/-- The vertical commands are a collective and a scaled attitude. -/
theorem altitudeLevelPwmCommands_eq (altitude roll pitch commandLimit : K) {sign : K}
    (hsign : tolerance < |sign|) :
    let scale := scaleToLimit |commandLimit| (|roll| + |pitch|)
    let headroom := |commandLimit| - (|roll * scale| + |pitch * scale|)
    let collective := clip (copysignOne sign * altitude) (-headroom) headroom
    altitudeLevelPwmCommands altitude roll pitch commandLimit sign =
        .ok ⟨fun i => collective + attitudeMix (roll * scale) (pitch * scale) i, fun _ => 0⟩ ∧
      ∀ i, |collective + attitudeMix (roll * scale) (pitch * scale) i| ≤ |commandLimit| := by
  intro scale headroom collective
  have happlied : |roll * scale| + |pitch * scale| ≤ |commandLimit| := applied_le (abs_nonneg _)
  have hcollective : |collective| ≤ headroom := abs_clip_le (sub_nonneg.mpr happlied)
  have hbound : ∀ i, |collective + attitudeMix (roll * scale) (pitch * scale) i| ≤
      |commandLimit| := by
    intro i
    calc |collective + attitudeMix (roll * scale) (pitch * scale) i|
        ≤ |collective| + |attitudeMix (roll * scale) (pitch * scale) i| := abs_add_le _ _
      _ ≤ headroom + (|roll * scale| + |pitch * scale|) :=
          add_le_add hcollective (abs_attitudeMix_le _ _ i)
      _ = |commandLimit| := sub_add_cancel _ _
  refine ⟨?_, hbound⟩
  unfold altitudeLevelPwmCommands
  rw [if_neg (mt isClose_zero_iff.mp hsign.not_ge)]
  simp only [peak_attitudeMix, attitudeMix_mul, largest_attitudeMix, smallest_attitudeMix]
  have hmin : -|commandLimit| - -(|roll * scale| + |pitch * scale|) = -headroom := by
    rw [sub_neg_eq_add, neg_sub, neg_add_eq_sub]
  rw [hmin]
  exact congrArg Except.ok (Commands.ext (funext fun i => clip_of_abs_le (hbound i)) rfl)

/-! ### Horizontal thrusters -/

theorem swayMix_mul {scale : K} (hscale : 0 ≤ scale) (sway : K) (i : Fin 4) :
    swayMix (sway * scale) i = swayMix sway i * scale := by
  rcases hscale.eq_or_lt with rfl | hpos
  · simp [swayMix]
  · simp only [swayMix, mul_nonneg_iff_of_pos_right hpos]
    split_ifs <;> ring

theorem yawMix_mul {scale : K} (hscale : 0 ≤ scale) (yaw : K) (i : Fin 4) :
    yawMix (yaw * scale) i = yawMix yaw i * scale := by
  rcases hscale.eq_or_lt with rfl | hpos
  · simp [yawMix]
  · simp only [yawMix, mul_nonneg_iff_of_pos_right hpos]
    split_ifs <;> ring

/-- The mix respects a common factor: the directions of the efforts stay what they are. -/
theorem horizontalMix_mul {scale : K} (hscale : 0 ≤ scale) (surge sway yaw : K) (i : Fin 4) :
    horizontalMix (surge * scale) (sway * scale) (yaw * scale) i =
      horizontalMix surge sway yaw i * scale := by
  unfold horizontalMix
  rw [swayMix_mul hscale, yawMix_mul hscale]
  ring

/-- The horizontal commands of efforts within the limit are the mix of the scaled efforts. -/
theorem stationHorizontalPwmMix_fst {surge sway yaw limit : K} (hsurge : |surge| ≤ limit)
    (hsway : |sway| ≤ limit) (hyaw : |yaw| ≤ limit) (i : Fin 4) :
    let scale := (stationHorizontalPwmMix surge sway yaw limit).2
    (stationHorizontalPwmMix surge sway yaw limit).1 i =
      horizontalMix (surge * scale) (sway * scale) (yaw * scale) i := by
  have hlimit : |limit| = limit := abs_of_nonneg ((abs_nonneg _).trans hsurge)
  simp only [stationHorizontalPwmMix, hlimit, clip_of_abs_le hsurge, clip_of_abs_le hsway,
    clip_of_abs_le hyaw]
  exact (horizontalMix_mul (scaleToLimit_nonneg _ ((abs_nonneg _).trans hsurge)) _ _ _ i).symm

theorem abs_stationHorizontalPwmMix_le (surge sway yaw limit : K) (i : Fin 4) :
    |(stationHorizontalPwmMix surge sway yaw limit).1 i| ≤ |limit| := by
  have hscale := scaleToLimit_nonneg (peak (horizontalMix (clip surge (-|limit|) |limit|)
    (clip sway (-|limit|) |limit|) (clip yaw (-|limit|) |limit|))) (abs_nonneg limit)
  simp only [stationHorizontalPwmMix, abs_mul, abs_of_nonneg hscale]
  rw [mul_comm]
  exact (mul_le_mul_of_nonneg_left (abs_le_peak _ i) hscale).trans
    (scaleToLimit_mul_le (abs_nonneg _))

end RobotCore.Exact
