import RobotCore.Lib.Ieee.Number

/-!
# Messages of `robotcore_interfaces`

The messages the command authority and the hardware bridge exchange, with the fields these two
nodes read or write.
-/

namespace RobotCore

open Ieee

/-- `ThrusterCommand.msg`: a direct action for the thrusters T1..T8. -/
structure ThrusterCommand where
  action : Vector Binary32 8 := Vector.replicate _ 0
  enable : Bool := false
  armed : Bool := false
  armGeneration : UInt64 := 0
  source : String := ""
  deriving DecidableEq

/-- The constants `-1.0F` and `1.0F`. -/
def minusOneF : Binary32 := Number.ofRat binary32 (-1)
def oneF : Binary32 := Number.ofRat binary32 1

/-- `std::isfinite(value)` and neither `value < -1.0F` nor `value > 1.0F`. -/
def actionValueValid (value : Binary32) : Bool :=
  value.isFinite && !value.lt minusOneF && !oneF.lt value

theorem representable_one (f : Format) (h : f.minExponent ≤ 0) : Representable f 1 := by
  have := representable_natCast (f := f) (n := 1) (Nat.one_lt_two_pow f.precision_pos.ne') h
  rwa [Nat.cast_one] at this

theorem value_oneF : oneF.value = .finite 1 := by
  have hrep : Representable binary32 1 := representable_one _ (by decide)
  unfold oneF
  rw [Number.value_ofRat] <;> rw [roundTo_of_representable hrep]
  rw [abs_one]
  exact one_lt_zpow₀ (by norm_num) (by decide)

theorem value_minusOneF : minusOneF.value = .finite (-1) := by
  have hrep : Representable binary32 (-1) :=
    representable_neg (representable_one _ (by decide))
  unfold minusOneF
  rw [Number.value_ofRat] <;> rw [roundTo_of_representable hrep]
  rw [abs_neg, abs_one]
  exact one_lt_zpow₀ (by norm_num) (by decide)

/-- A valid action value is a number between -1 and 1. -/
theorem actionValueValid_iff (value : Binary32) :
    actionValueValid value = true ↔ Number.AbsLe value 1 := by
  unfold actionValueValid Number.AbsLe
  simp only [Bool.and_eq_true, Bool.not_eq_true', Number.isFinite_iff]
  constructor
  · rintro ⟨⟨⟨q, hq⟩, hlo⟩, hhi⟩
    rw [← Bool.not_eq_true, Number.lt_iff_of_finite hq value_minusOneF] at hlo
    rw [← Bool.not_eq_true, Number.lt_iff_of_finite value_oneF hq] at hhi
    exact ⟨q, hq, abs_le.mpr ⟨not_lt.mp hlo, not_lt.mp hhi⟩⟩
  · rintro ⟨q, hq, hle⟩
    obtain ⟨hlo, hhi⟩ := abs_le.mp hle
    refine ⟨⟨⟨q, hq⟩, ?_⟩, ?_⟩
    · rw [← Bool.not_eq_true, Number.lt_iff_of_finite hq value_minusOneF]
      exact not_lt.mpr hlo
    · rw [← Bool.not_eq_true, Number.lt_iff_of_finite value_oneF hq]
      exact not_lt.mpr hhi

end RobotCore
