import Mathlib.Order.Lattice
import RobotCore.Lib.Ieee.Numeric
import RobotCore.Lib.SpikeFilter

/-!
# Finite numbers and their distance

The finite numbers of a format are ordered as their rationals.  Their computed distance rounds the
exact one; since rounding is monotone, it never inverts the order of two distances, so that being
within a tolerance is a nearness.
-/

namespace Ieee

variable {f : Format}

/-- A number that is neither a NaN nor an infinity. -/
abbrev FiniteNumber (f : Format) := {x : Number f // x.isFinite = true}

namespace FiniteNumber

theorem value_eq (x : FiniteNumber f) : x.1.value = .finite x.1.toRat := by
  obtain ⟨q, hq⟩ := Number.isFinite_iff.mp x.2
  rw [Number.toRat_of_finite hq, hq]

theorem toRat_injective : Function.Injective fun x : FiniteNumber f => x.1.toRat := by
  intro x y h
  refine Subtype.ext (Number.ext ?_)
  rw [x.value_eq, y.value_eq]
  exact congrArg Value.finite h

instance : LinearOrder (FiniteNumber f) := LinearOrder.lift' (fun x => x.1.toRat) toRat_injective

theorem le_def {x y : FiniteNumber f} : x ≤ y ↔ x.1.toRat ≤ y.1.toRat := Iff.rfl

theorem le_iff {x y : FiniteNumber f} : x.1.le y.1 = true ↔ x ≤ y :=
  Number.le_iff_of_finite x.value_eq y.value_eq

end FiniteNumber

namespace Number

theorem abs_ofRat (q : ℚ) : (ofRat f q).abs = ofRat f |q| := by
  have habs : |roundTo f (|q|)| = |roundTo f q| := by rw [← abs_roundTo, abs_abs]
  by_cases h : 2 ^ f.maxExponent ≤ |roundTo f q|
  · unfold ofRat
    rw [if_pos h, if_pos (habs.symm ▸ h), decide_eq_false (not_lt.mpr (abs_nonneg q))]
    rfl
  · refine Number.ext ?_
    rw [value_abs (value_ofRat (not_le.mp h)), value_ofRat (habs.symm ▸ not_le.mp h), abs_roundTo]

/-- A non-negative rational is rounded to a number or overflows. -/
theorem value_ofRat_cases {q : ℚ} (h : 0 ≤ q) :
    (ofRat f q).value = .infinity false ∧ 2 ^ f.maxExponent ≤ roundTo f q ∨
      (ofRat f q).value = .finite (roundTo f q) ∧ roundTo f q < 2 ^ f.maxExponent := by
  have habs : |roundTo f q| = roundTo f q := abs_of_nonneg (roundTo_nonneg h)
  by_cases hover : 2 ^ f.maxExponent ≤ |roundTo f q|
  · refine Or.inl ⟨?_, habs ▸ hover⟩
    unfold ofRat
    rw [if_pos hover, decide_eq_false (not_lt.mpr h)]
    rfl
  · exact Or.inr ⟨value_ofRat (not_le.mp hover), habs ▸ not_le.mp hover⟩

/-- Rounding does not invert the order. -/
theorem lt_ofRat_mono {x : Number f} {p q : ℚ} (hp : 0 ≤ p) (hpq : p ≤ q)
    (h : x.lt (ofRat f p) = true) : x.lt (ofRat f q) = true := by
  have hround := roundTo_mono (f := f) hpq
  unfold lt at h ⊢
  rcases value_ofRat_cases (f := f) hp with ⟨hpv, hover⟩ | ⟨hpv, -⟩ <;>
    rcases value_ofRat_cases (f := f) (hp.trans hpq) with ⟨hqv, -⟩ | ⟨hqv, hfits⟩ <;>
    rw [hpv] at h <;> rw [hqv]
  · exact h
  · exact absurd (hover.trans hround) (not_le.mpr hfits)
  · cases hx : x.value with
    | nan => simp [hx] at h
    | infinity s => simpa [hx] using h
    | finite a => rfl
  · cases hx : x.value with
    | nan => simp [hx] at h
    | infinity s => simpa [hx] using h
    | finite a =>
      rw [hx, decide_eq_true_eq] at h
      exact decide_eq_true (h.trans_le hround)

/-- The distance the code computes. -/
theorem abs_sub_eq {x y : FiniteNumber f} :
    (x.1 - y.1).abs = ofRat f |x.1.toRat - y.1.toRat| := by
  rw [sub_eq_ofRat x.value_eq y.value_eq, abs_ofRat]

/-- Being within `limit` as it is computed. -/
def nearness (limit : Number f) : SpikeFilter.Nearness (FiniteNumber f) where
  near x y := !limit.lt (x.1 - y.1).abs
  symm x y := by rw [abs_sub_eq, abs_sub_eq, abs_sub_comm]
  of_le {x y z} hxy hyz h := by
    rw [FiniteNumber.le_def] at hxy hyz
    simp only [Bool.not_eq_true', abs_sub_eq] at h ⊢
    rw [abs_sub_comm, abs_of_nonneg (sub_nonneg.mpr (hxy.trans hyz))] at h
    rw [abs_sub_comm, abs_of_nonneg (sub_nonneg.mpr hxy), abs_sub_comm,
      abs_of_nonneg (sub_nonneg.mpr hyz)]
    refine ⟨Bool.eq_false_iff.mpr fun hfar => ?_, Bool.eq_false_iff.mpr fun hfar => ?_⟩
    · rw [lt_ofRat_mono (sub_nonneg.mpr hxy) (by linarith) hfar] at h
      cases h
    · rw [lt_ofRat_mono (sub_nonneg.mpr hyz) (by linarith) hfar] at h
      cases h

/-- What is within the limit is computed to be so. -/
theorem near_of_abs_le {limit : FiniteNumber f} {x y : FiniteNumber f}
    (hlimit : limit.1.toRat < 2 ^ f.maxExponent)
    (h : |x.1.toRat - y.1.toRat| ≤ limit.1.toRat) : (nearness limit.1).near x y = true := by
  have hrep : Representable f limit.1.toRat := by
    have := limit.1.inFormat
    rwa [limit.value_eq] at this
  obtain ⟨q, hq, hle⟩ := AbsLe.ofRat hrep hlimit ((abs_abs _).trans_le h)
  show (!limit.1.lt (x.1 - y.1).abs) = true
  rw [Bool.not_eq_true', abs_sub_eq, ← Bool.not_eq_true, lt_iff_of_finite limit.value_eq hq,
    not_lt]
  exact (le_abs_self q).trans hle

end Number

end Ieee
