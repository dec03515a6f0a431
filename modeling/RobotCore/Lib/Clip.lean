import Mathlib.Algebra.Order.Field.Basic
import Mathlib.Algebra.Order.Group.Abs
import Mathlib.Algebra.Order.Group.MinMax
import Mathlib.Tactic.Linarith

/-!
# Clipping

`clip x lower upper` is the value in the interval next to `x`.  A controller clips its output at two
stops, `slew` moves a value by at most a given distance, conditional integration (`Admits`) stops an
integrator that pushes the output further past a stop, and `scaleToLimit` is the common factor that
brings several values down to a limit of their peak.
-/

namespace Clip

section LinearOrder

variable {α : Type*} [LinearOrder α] {x y lower upper b : α}

/-- The bounds are ordered where they are used; otherwise the upper one wins. -/
def clip (x lower upper : α) : α := min (max x lower) upper

theorem clip_le_upper (x lower upper : α) : clip x lower upper ≤ upper := min_le_right _ _

theorem lower_le_clip (h : lower ≤ upper) : lower ≤ clip x lower upper :=
  le_min (le_max_right _ _) h

theorem clip_eq_self (hl : lower ≤ x) (hu : x ≤ upper) : clip x lower upper = x := by
  rw [clip, max_eq_left hl, min_eq_left hu]

theorem clip_eq_upper (hl : lower ≤ upper) (hu : upper ≤ x) : clip x lower upper = upper := by
  rw [clip, max_eq_left (hl.trans hu), min_eq_right hu]

theorem clip_eq_lower (hl : lower ≤ upper) (hu : x ≤ lower) : clip x lower upper = lower := by
  rw [clip, max_eq_right hu, min_eq_left hl]

theorem clip_le (hx : x ≤ b) (hl : lower ≤ b) : clip x lower upper ≤ b :=
  (min_le_left _ _).trans (max_le hx hl)

theorem le_clip (hx : b ≤ x) (hu : b ≤ upper) : b ≤ clip x lower upper :=
  le_min (hx.trans (le_max_left _ _)) hu

theorem clip_mono (h : x ≤ y) (lower upper : α) : clip x lower upper ≤ clip y lower upper :=
  min_le_min_right _ (max_le_max_right _ h)

theorem clip_lt (hx : x < b) (hl : lower < b) : clip x lower upper < b :=
  (min_le_left _ _).trans_lt (max_lt hx hl)

theorem lt_clip (hx : b < x) (hu : b < upper) : b < clip x lower upper :=
  lt_min (hx.trans_le (le_max_left _ _)) hu

end LinearOrder

/-! ### Clipping at opposite stops -/

section Group

variable {α : Type*} [AddCommGroup α] [LinearOrder α] [IsOrderedAddMonoid α] {x limit : α}

theorem abs_clip_le (h : 0 ≤ limit) : |clip x (-limit) limit| ≤ limit :=
  abs_le.mpr ⟨lower_le_clip (neg_le_self h), clip_le_upper _ _ _⟩

theorem clip_of_abs_le (h : |x| ≤ limit) : clip x (-limit) limit = x :=
  clip_eq_self (neg_le_of_abs_le h) (le_of_abs_le h)

theorem clip_neg (h : 0 ≤ limit) : clip (-x) (-limit) limit = -clip x (-limit) limit := by
  rcases le_total x (-limit) with hx | hx
  · rw [clip_eq_lower (neg_le_self h) hx, neg_neg,
      clip_eq_upper (neg_le_self h) (le_neg_of_le_neg hx)]
  rcases le_total limit x with hx' | hx'
  · rw [clip_eq_upper (neg_le_self h) hx', clip_eq_lower (neg_le_self h) (neg_le_neg hx')]
  · rw [clip_eq_self hx hx', clip_eq_self (neg_le_neg hx') (neg_le_of_neg_le hx)]

/-- The distance clipped off, above a stop. -/
theorem sub_clip_of_le (h : 0 ≤ limit) (hx : limit ≤ x) :
    |x - clip x (-limit) limit| = x - limit := by
  rw [clip_eq_upper (neg_le_self h) hx, abs_of_nonneg (sub_nonneg.mpr hx)]

/-! ### Conditional integration -/

/-- The output `raw` is not clipped by more than the tolerance, or the error pulls it back. -/
def Admits (tolerance limit error raw : α) : Prop :=
  |raw - clip raw (-limit) limit| ≤ tolerance ∨ limit < raw ∧ error < 0 ∨ raw < -limit ∧ 0 < error

instance (tolerance limit error raw : α) : Decidable (Admits tolerance limit error raw) := by
  unfold Admits
  infer_instance

variable {tolerance error raw : α}

theorem Admits.neg (hlimit : 0 ≤ limit) (h : Admits tolerance limit error raw) :
    Admits tolerance limit (-error) (-raw) := by
  rcases h with h | ⟨hraw, herror⟩ | ⟨hraw, herror⟩
  · refine Or.inl ?_
    rw [clip_neg hlimit, neg_sub_neg, abs_sub_comm]
    exact h
  · exact Or.inr (Or.inr ⟨neg_lt_neg hraw, neg_pos.mpr herror⟩)
  · exact Or.inr (Or.inl ⟨lt_neg_of_lt_neg hraw, neg_neg_of_pos herror⟩)

/-- What an update towards the upper stop leaves. -/
theorem Admits.le (hlimit : 0 ≤ limit) (htolerance : 0 ≤ tolerance) (herror : 0 ≤ error)
    (h : Admits tolerance limit error raw) : raw ≤ limit + tolerance := by
  rcases le_total raw limit with hraw | hraw
  · exact hraw.trans (le_add_of_nonneg_right htolerance)
  rcases h with h | ⟨_, h⟩ | ⟨h, _⟩
  · rw [sub_clip_of_le hlimit hraw] at h
    exact sub_le_iff_le_add'.mp h
  · exact absurd h herror.not_gt
  · exact absurd (h.trans_le (neg_le_self hlimit)) hraw.not_gt

/-- What an update towards the lower stop leaves. -/
theorem Admits.ge (hlimit : 0 ≤ limit) (htolerance : 0 ≤ tolerance) (herror : error ≤ 0)
    (h : Admits tolerance limit error raw) : -limit - tolerance ≤ raw := by
  have := (h.neg hlimit).le hlimit htolerance (neg_nonneg.mpr herror)
  rw [← neg_add']
  exact neg_le_of_neg_le this

/-- An output within its stops is admitted. -/
theorem admits_of_abs_le (htolerance : 0 ≤ tolerance) (h : |raw| ≤ limit) :
    Admits tolerance limit error raw := by
  refine Or.inl ?_
  rw [clip_of_abs_le h, sub_self, abs_zero]
  exact htolerance

/-! ### Slewing -/

/-- A value on its way to `requested`, by at most `delta`. -/
def slew (previous requested delta : α) : α :=
  previous + clip (requested - previous) (-delta) delta

/-- A value on its way stays between the stops that both ends are between. -/
theorem abs_slew_le {previous requested delta : α} (h : 0 ≤ delta) (hprevious : |previous| ≤ limit)
    (hrequested : |requested| ≤ limit) : |slew previous requested delta| ≤ limit := by
  obtain ⟨hpl, hpu⟩ := abs_le.mp hprevious
  obtain ⟨hrl, hru⟩ := abs_le.mp hrequested
  rw [slew, abs_le]
  rcases le_total previous requested with hle | hle
  · have hclip : 0 ≤ clip (requested - previous) (-delta) delta :=
      le_clip (sub_nonneg.mpr hle) h
    have hclip' : clip (requested - previous) (-delta) delta ≤ requested - previous :=
      clip_le le_rfl ((neg_nonpos.mpr h).trans (sub_nonneg.mpr hle))
    exact ⟨hpl.trans (le_add_of_nonneg_right hclip),
      (add_le_add_right hclip' previous).trans (by rw [add_sub_cancel]; exact hru)⟩
  · have hclip : clip (requested - previous) (-delta) delta ≤ 0 :=
      clip_le (sub_nonpos.mpr hle) (neg_nonpos.mpr h)
    have hclip' : requested - previous ≤ clip (requested - previous) (-delta) delta :=
      le_clip le_rfl ((sub_nonpos.mpr hle).trans h)
    refine ⟨?_, (add_le_of_nonpos_right hclip).trans hpu⟩
    refine hrl.trans ?_
    calc requested = previous + (requested - previous) := (add_sub_cancel _ _).symm
      _ ≤ _ := add_le_add_right hclip' previous

end Group

/-! ### Scaling down to a limit -/

section Field

variable {α : Type*} [Field α] [LinearOrder α] {limit peak : α}

/-- The factor that brings a peak down to the limit. -/
def scaleToLimit (limit peak : α) : α := if limit < peak ∧ 0 < peak then limit / peak else 1

theorem scaleToLimit_of_le (h : peak ≤ limit) : scaleToLimit limit peak = 1 :=
  if_neg fun hlt => hlt.1.not_ge h

/-- What is scaled down is within the limit. -/
theorem scaleToLimit_mul_le (h : 0 ≤ limit) : scaleToLimit limit peak * peak ≤ limit := by
  unfold scaleToLimit
  split_ifs with hlt
  · rw [div_mul_cancel₀ _ hlt.2.ne']
  · rw [one_mul]
    by_contra hgt
    exact hlt ⟨not_le.mp hgt, h.trans_lt (not_le.mp hgt)⟩

variable [IsStrictOrderedRing α]

theorem scaleToLimit_nonneg (peak : α) (h : 0 ≤ limit) : 0 ≤ scaleToLimit limit peak := by
  unfold scaleToLimit
  split_ifs with hlt
  · exact div_nonneg h hlt.2.le
  · exact zero_le_one

/-- The factor is the smaller one of one and the ratio of the limit to the peak. -/
theorem scaleToLimit_eq_min (h : 0 < peak) : scaleToLimit limit peak = min 1 (limit / peak) := by
  unfold scaleToLimit
  split_ifs with hlt
  · exact (min_eq_right ((div_le_one h).mpr hlt.1.le)).symm
  · have hle : peak ≤ limit := not_lt.mp fun h' => hlt ⟨h', h⟩
    exact (min_eq_left ((one_le_div h).mpr hle)).symm

end Field

end Clip
