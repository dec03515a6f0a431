import Mathlib.Analysis.Convex.Segment
import Mathlib.Order.CompletePartialOrder
import Mathlib.Tactic.Linarith
import Mathlib.Tactic.FieldSimp
import Mathlib.Tactic.LinearCombination

/-!
# Quadrilaterals of the plane

A quadrilateral is given by its four corners in order.  `orient p q r` is twice the signed area of a
triangle; a quadrilateral is strictly convex when every edge has the two other corners strictly on
the same side, and that side is the same all around.  The four turns decide this
(`strictlyConvex_of_turns`), and such a quadrilateral is simple.
-/

namespace Quadrilateral

variable {K : Type*} [Field K]

/-- A point of the plane. -/
abbrev Point (K : Type*) := K × K

/-- Twice the signed area of the triangle. -/
def orient (p q r : Point K) : K := (q.1 - p.1) * (r.2 - p.2) - (q.2 - p.2) * (r.1 - p.1)

theorem orient_rotate (p q r : Point K) : orient q r p = orient p q r := by
  unfold orient
  ring

theorem orient_reverse (p q r : Point K) : orient r q p = -orient p q r := by
  unfold orient
  ring

/-- The side of a line is affine. -/
theorem orient_combo (p q r s : Point K) {a b : K} (h : a + b = 1) :
    orient p q (a • r + b • s) = a * orient p q r + b * orient p q s := by
  obtain rfl : a = 1 - b := eq_sub_of_add_eq h
  simp only [orient, Prod.fst_add, Prod.snd_add, Prod.smul_fst, Prod.smul_snd, smul_eq_mul]
  ring

/-- The turn at a corner. -/
def turn (p : Fin 4 → Point K) (i : Fin 4) : K := orient (p (i - 1)) (p i) (p (i + 1))

/-- Twice the signed area, by the shoelace formula. -/
def shoelace (p : Fin 4 → Point K) : K :=
  ∑ i, ((p i).1 * (p (i + 1)).2 - (p i).2 * (p (i + 1)).1)

/-- A diagonal cuts the quadrilateral into two triangles. -/
theorem shoelace_eq (p : Fin 4 → Point K) :
    shoelace p = orient (p 0) (p 1) (p 2) + orient (p 2) (p 3) (p 0) := by
  simp only [shoelace, Fin.sum_univ_four, orient, Fin.isValue, Fin.reduceAdd]
  ring

variable [LinearOrder K]

/-- Every edge has the other corners strictly on the side `s`. -/
structure StrictlyConvex (p : Fin 4 → Point K) : Prop where
  side : ∃ s : K, (s = 1 ∨ s = -1) ∧ ∀ i j, j ≠ i → j ≠ i + 1 →
    0 < s * orient (p i) (p (i + 1)) (p j)

/-- Edges meet only in the corner they share. -/
structure Simple (p : Fin 4 → Point K) : Prop where
  opposite : ∀ i, Disjoint (segment K (p i) (p (i + 1))) (segment K (p (i + 2)) (p (i + 3)))
  adjacent : ∀ i, segment K (p i) (p (i + 1)) ∩ segment K (p (i + 1)) (p (i + 2)) = {p (i + 1)}

variable {p : Fin 4 → Point K}

/-- Four turns to the same side. -/
theorem strictlyConvex_of_turns {s : K} (hs : s = 1 ∨ s = -1) (h : ∀ i, 0 < s * turn p i) :
    StrictlyConvex p := by
  -- The other corners are the one after the edge and the one before it.
  have hothers : ∀ i j : Fin 4, j ≠ i → j ≠ i + 1 → j = i + 1 + 1 ∨ j = i - 1 := by decide
  refine ⟨s, hs, fun i j hji hji' => ?_⟩
  have hnext := h (i + 1)
  have hthis := h i
  rcases hothers i j hji hji' with rfl | rfl
  · rw [turn, add_sub_cancel_right] at hnext
    exact hnext
  · rw [turn, ← orient_rotate] at hthis
    exact hthis

theorem orient_of_mem_segment {a b x : Point K} (hx : x ∈ segment K a b) :
    orient a b x = 0 := by
  obtain ⟨u, v, -, -, huv, rfl⟩ := hx
  rw [orient_combo a b a b huv]
  unfold orient
  ring

variable [IsStrictOrderedRing K]

/-- A strictly convex quadrilateral does not cross itself. -/
theorem StrictlyConvex.simple (h : StrictlyConvex p) : Simple p := by
  obtain ⟨s, -, hside⟩ := h.side
  have hbeyond : ∀ i, 0 < s * orient (p i) (p (i + 1)) (p (i + 2)) := fun i =>
    hside i (i + 2) (by revert i; decide) (by revert i; decide)
  have hbefore : ∀ i, 0 < s * orient (p i) (p (i + 1)) (p (i + 3)) := fun i =>
    hside i (i + 3) (by revert i; decide) (by revert i; decide)
  constructor
  · intro i
    rw [Set.disjoint_left]
    rintro x hx ⟨u, v, hu, hv, huv, rfl⟩
    have hzero := orient_of_mem_segment hx
    rw [orient_combo _ _ _ _ huv] at hzero
    -- The whole opposite edge is beside the line.
    have hpos : 0 < s * (u * orient (p i) (p (i + 1)) (p (i + 2)) +
        v * orient (p i) (p (i + 1)) (p (i + 3))) := by
      have hsplit : s * (u * orient (p i) (p (i + 1)) (p (i + 2)) +
          v * orient (p i) (p (i + 1)) (p (i + 3))) =
            u * (s * orient (p i) (p (i + 1)) (p (i + 2))) +
              v * (s * orient (p i) (p (i + 1)) (p (i + 3))) := by ring
      rw [hsplit]
      rcases hu.eq_or_lt with rfl | hu
      · rw [zero_add] at huv
        rw [huv, zero_mul, zero_add, one_mul]
        exact hbefore i
      · exact add_pos_of_pos_of_nonneg (mul_pos hu (hbeyond i)) (mul_nonneg hv (hbefore i).le)
    rw [hzero, mul_zero] at hpos
    exact lt_irrefl _ hpos
  · intro i
    ext x
    constructor
    · rintro ⟨hx, u, v, hu, hv, huv, rfl⟩
      have hzero := orient_of_mem_segment hx
      rw [orient_combo _ _ _ _ huv] at hzero
      have hcorner : orient (p i) (p (i + 1)) (p (i + 1)) = 0 := by
        unfold orient
        ring
      have hne : orient (p i) (p (i + 1)) (p (i + 2)) ≠ 0 := by
        intro hzero'
        have := hbeyond i
        rw [hzero', mul_zero] at this
        exact lt_irrefl _ this
      rw [hcorner, mul_zero, zero_add] at hzero
      obtain rfl := (mul_eq_zero.mp hzero).resolve_right hne
      rw [add_zero] at huv
      rw [huv, one_smul, zero_smul, add_zero]
      rfl
    · rintro rfl
      exact ⟨right_mem_segment K _ _, left_mem_segment K _ _⟩

end Quadrilateral
