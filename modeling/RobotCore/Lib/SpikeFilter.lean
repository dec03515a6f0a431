import Mathlib.Order.Lattice
import Mathlib.Order.MinMax

/-!
# Median filters that are fed their own output

A spike filter compares a sample with the middle one of itself and the two outputs before it, and
hands out the middle one instead when the sample is not near to it.  `Fed` is how the last two
outputs of a run and its last sample lie: the last output is the last sample, or it lies between the
output before it and the sample and is not near to the sample.

`reject_eq_iff` says when a sample near to its predecessor passes.
-/

namespace SpikeFilter

variable {α : Type*} [LinearOrder α]

/-- The middle one of three values. -/
def middle (a b c : α) : α := max (min a b) (min (max a b) c)

/-- A relation of nearness: values between two near values are near to both. -/
structure Nearness (α : Type*) [LinearOrder α] where
  near : α → α → Bool
  symm (x y : α) : near x y = near y x
  of_le {x y z : α} : x ≤ y → y ≤ z → near x z = true → near x y = true ∧ near y z = true

variable (N : Nearness α) {a b r last : α}

def reject (a b r : α) : α := if N.near r (middle a b r) then r else middle a b r

/-- How the outputs `a`, `b` and the last sample of a run lie. -/
def Fed (a b last : α) : Prop :=
  b = last ∨ N.near last b = false ∧ (a ≤ b ∧ b ≤ last ∨ last ≤ b ∧ b ≤ a)

/-- A sample lies between the outputs, or the output next to it is the middle one. -/
theorem middle_cases (a b r : α) :
    middle a b r = r ∨ middle a b r = max a b ∧ max a b ≤ r ∨
      middle a b r = min a b ∧ r ≤ min a b := by
  unfold middle
  rcases le_total (max a b) r with h | h
  · rw [min_eq_left h, max_eq_right min_le_max]
    exact Or.inr (Or.inl ⟨rfl, h⟩)
  · rw [min_eq_right h]
    rcases le_total r (min a b) with h' | h'
    · rw [max_eq_left h']
      exact Or.inr (Or.inr ⟨rfl, h'⟩)
    · rw [max_eq_right h']
      exact Or.inl rfl

/-- What is handed out in place of a sample. -/
theorem reject_cases (a b r : α) :
    reject N a b r = r ∨ reject N a b r = middle a b r ∧ N.near r (middle a b r) = false := by
  unfold reject
  split_ifs with h
  · exact Or.inl rfl
  · exact Or.inr ⟨rfl, Bool.eq_false_iff.mpr h⟩

/-- A sample near to the last output passes. -/
theorem reject_eq_of_near (h : N.near r b = true) : reject N a b r = r := by
  rcases reject_cases N a b r with heq | ⟨heq, hfar⟩
  · exact heq
  rcases middle_cases a b r with hm | ⟨hm, hr⟩ | ⟨hm, hr⟩
  · exact heq.trans hm
  · rw [hm, N.symm] at hfar
    rw [N.symm] at h
    exact absurd ((N.of_le (le_max_right a b) hr h).2.symm.trans hfar) nofun
  · rw [hm] at hfar
    exact absurd ((N.of_le hr (min_le_right a b) h).1.symm.trans hfar) nofun

/-- The outputs stay fed. -/
theorem fed_reject (a b r : α) : Fed N b (reject N a b r) r := by
  rcases reject_cases N a b r with heq | ⟨heq, hfar⟩
  · exact Or.inl heq
  rw [heq]
  refine Or.inr ⟨hfar, ?_⟩
  rcases middle_cases a b r with hm | ⟨hm, hr⟩ | ⟨hm, hr⟩
  · rw [hm]
    exact (le_total b r).imp (fun h => ⟨h, le_rfl⟩) fun h => ⟨le_rfl, h⟩
  · rw [hm]
    exact Or.inl ⟨le_max_right a b, hr⟩
  · rw [hm]
    exact Or.inr ⟨hr, min_le_right a b⟩

/-- A sample near to the last one does not cross an output that is not near to the last one. -/
theorem lt_of_near_last (hlast : N.near last b = false) (hb : b ≤ last)
    (h : N.near r last = true) : b < r := by
  by_contra hr
  have hnear := (N.of_le (not_lt.mp hr) hb h).2
  rw [N.symm, hlast] at hnear
  cases hnear

theorem lt_of_last_near (hlast : N.near last b = false) (hb : last ≤ b)
    (h : N.near r last = true) : r < b := by
  by_contra hr
  rw [N.symm] at h
  exact absurd ((N.of_le hb (not_lt.mp hr) h).1.symm.trans hlast) nofun

/-- **What passes.**  A sample near to the last one passes exactly when it is near to the last
output. -/
theorem reject_eq_iff (hfed : Fed N a b last) (h : N.near r last = true) :
    reject N a b r = r ↔ N.near r b = true := by
  refine ⟨fun heq => ?_, reject_eq_of_near N⟩
  rcases hfed with rfl | ⟨hlast, ⟨hab, hb⟩ | ⟨hb, hab⟩⟩
  · exact h
  · have hr := lt_of_near_last N hlast hb h
    have hm : middle a b r = b := by
      rw [middle, max_eq_right hab, min_eq_left hab, min_eq_left hr.le, max_eq_right hab]
    by_contra hfar
    unfold reject at heq
    rw [hm, if_neg hfar] at heq
    exact hr.ne heq
  · have hr := lt_of_last_near N hlast hb h
    have hm : middle a b r = b := by
      rw [middle, max_eq_left hab, min_eq_right hab, min_eq_right (hr.le.trans hab),
        max_eq_left hr.le]
    by_contra hfar
    unfold reject at heq
    rw [hm, if_neg hfar] at heq
    exact hr.ne' heq

end SpikeFilter
