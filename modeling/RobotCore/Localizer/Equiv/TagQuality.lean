import Mathlib.Data.Fintype.Lattice
import RobotCore.Localizer.TagQuality

/-!
# What the image gate accepts

The scan over the corners ends when every corner is in the image, every turn is away from zero and
all turns are to one side (`scanCorners_eq_some`), and its variables are then the extrema of the
edges and the shoelace sum.  None of them depends on where the scan starts or on its direction, so
the quality is that of the unlabelled quadrilateral.
-/

namespace RobotCore

open Quadrilateral

attribute [local instance] Numeral.neZero_four

noncomputable section

variable {corners : Fin 4 → Point ℝ} {imageWidth imageHeight : ℕ}

/-! ### The scan -/

/-- `0 <= x < width` and `0 <= y < height` -/
def InImage (imageWidth imageHeight : ℕ) (p : Point ℝ) : Prop :=
  (0 ≤ p.1 ∧ p.1 < imageWidth) ∧ 0 ≤ p.2 ∧ p.2 < imageHeight

/-- The variables of the loop after one more corner. -/
def CornerScan.add (corners : Fin 4 → Point ℝ) (scan : CornerScan) (i : Fin 4) : CornerScan where
  shortest := min scan.shortest (edgeLength corners i)
  longest := max scan.longest (edgeLength corners i)
  signedTwiceArea := scan.signedTwiceArea +
    ((corners i).1 * (corners (i + 1)).2 - (corners i).2 * (corners (i + 1)).1)
  windingSign := copysignOfNonzero (turn corners i)

theorem cross_eq_turn (corners : Fin 4 → Point ℝ) (i : Fin 4) :
    (corners i - corners (i - 1)).1 * (corners (i + 1) - corners i).2 -
      (corners i - corners (i - 1)).2 * (corners (i + 1) - corners i).1 = turn corners i := by
  simp only [turn, orient, Prod.fst_sub, Prod.snd_sub]
  ring

theorem copysignOfNonzero_ne_zero (x : ℝ) : copysignOfNonzero x ≠ 0 := by
  unfold copysignOfNonzero
  split <;> norm_num

theorem copysignOfNonzero_mul_self (x : ℝ) : copysignOfNonzero x * x = |x| := by
  unfold copysignOfNonzero
  split
  · next h => rw [abs_of_neg h, neg_one_mul]
  · next h => rw [abs_of_nonneg (not_lt.mp h), one_mul]

theorem copysignOfNonzero_neg {x : ℝ} (h : x ≠ 0) :
    copysignOfNonzero (-x) = -copysignOfNonzero x := by
  unfold copysignOfNonzero
  rcases h.lt_or_gt with h | h
  · rw [if_pos h, if_neg (by linarith), neg_neg]
  · rw [if_neg h.not_gt, if_pos (by linarith)]

/-- One corner of the loop. -/
theorem scanCorner_eq_some {scan scan' : CornerScan} {i : Fin 4} :
    scanCorner corners imageWidth imageHeight scan i = some scan' ↔
      InImage imageWidth imageHeight (corners i) ∧ 1e-6 ≤ |turn corners i| ∧
        (scan.windingSign = 0 ∨ copysignOfNonzero (turn corners i) = scan.windingSign) ∧
        scan.add corners i = scan' := by
  simp only [scanCorner, cross_eq_turn]
  split
  · next hout =>
    simp only [reduceCtorEq, false_iff]
    rintro ⟨⟨⟨hx, hx'⟩, hy, hy'⟩, -⟩
    rcases hout with h | h | h | h <;> linarith
  next hin =>
  simp only [not_or, not_lt, not_le] at hin
  obtain ⟨hx, hy, hx', hy'⟩ := hin
  have himage : InImage imageWidth imageHeight (corners i) := ⟨⟨hx, hx'⟩, hy, hy'⟩
  split
  · next hflat =>
    simp only [reduceCtorEq, false_iff]
    rintro ⟨-, hturn, -⟩
    exact hturn.not_gt hflat
  next hturn =>
  split
  · next hside =>
    simp only [reduceCtorEq, false_iff]
    rintro ⟨-, -, hzero | hsame, -⟩
    · exact hside.1 hzero
    · exact hside.2 hsame
  next hside =>
  rw [Option.some.injEq]
  have hside' : scan.windingSign = 0 ∨
      copysignOfNonzero (turn corners i) = scan.windingSign := by
    by_contra h
    rw [not_or] at h
    exact hside h
  constructor
  · rintro rfl
    exact ⟨himage, not_lt.mp hturn, hside', rfl⟩
  · rintro ⟨-, -, -, rfl⟩
    rfl

/-- The loop from any corner on. -/
theorem foldlM_scanCorner_eq_some {l : List (Fin 4)} {scan scan' : CornerScan} :
    l.foldlM (scanCorner corners imageWidth imageHeight) scan = some scan' ↔
      (∀ i ∈ l, InImage imageWidth imageHeight (corners i) ∧ 1e-6 ≤ |turn corners i| ∧
        (scan.windingSign = 0 ∨ copysignOfNonzero (turn corners i) = scan.windingSign)) ∧
      (l.Pairwise fun i j =>
        copysignOfNonzero (turn corners i) = copysignOfNonzero (turn corners j)) ∧
      l.foldl (CornerScan.add corners) scan = scan' := by
  induction l generalizing scan with
  | nil => simp
  | cons i l ih =>
    rw [List.foldlM_cons, Option.bind_eq_bind, Option.bind_eq_some_iff, List.pairwise_cons,
      List.foldl_cons, List.forall_mem_cons]
    constructor
    · rintro ⟨next, hstep, hrest⟩
      obtain ⟨himage, hturn, hside, rfl⟩ := scanCorner_eq_some.mp hstep
      obtain ⟨hall, hpair, hfold⟩ := ih.mp hrest
      have hsame : ∀ j ∈ l,
          copysignOfNonzero (turn corners j) = copysignOfNonzero (turn corners i) := fun j hj =>
        (hall j hj).2.2.resolve_left (copysignOfNonzero_ne_zero _)
      refine ⟨⟨⟨himage, hturn, hside⟩, fun j hj => ⟨(hall j hj).1, (hall j hj).2.1, ?_⟩⟩,
        ⟨fun j hj => (hsame j hj).symm, hpair⟩, hfold⟩
      rw [hsame j hj]
      exact hside
    · rintro ⟨⟨⟨himage, hturn, hside⟩, hall⟩, ⟨hsame, hpair⟩, hfold⟩
      refine ⟨scan.add corners i, scanCorner_eq_some.mpr ⟨himage, hturn, hside, rfl⟩,
        ih.mpr ⟨fun j hj => ⟨(hall j hj).1, (hall j hj).2.1, Or.inr ?_⟩, hpair, hfold⟩⟩
      exact (hsame j hj).symm

/-- What the loop requires of the corners. -/
structure ProperCorners (corners : Fin 4 → Point ℝ) (imageWidth imageHeight : ℕ) : Prop where
  inImage : ∀ i, InImage imageWidth imageHeight (corners i)
  turns : ∀ i, 1e-6 ≤ |turn corners i|
  oneSide : ∀ i j, copysignOfNonzero (turn corners i) = copysignOfNonzero (turn corners j)

/-- The variables after the loop. -/
def scanAll (corners : Fin 4 → Point ℝ) : CornerScan :=
  (List.finRange 4).foldl (CornerScan.add corners) {}

theorem scanCorners_eq_some {scan : CornerScan} :
    scanCorners corners imageWidth imageHeight = some scan ↔
      ProperCorners corners imageWidth imageHeight ∧ scanAll corners = scan := by
  rw [scanCorners, foldlM_scanCorner_eq_some, ← and_assoc]
  refine and_congr_left fun _ => ⟨?_, ?_⟩
  · rintro ⟨hall, hpair⟩
    refine ⟨fun i => (hall i (List.mem_finRange i)).1, fun i => (hall i (List.mem_finRange i)).2.1,
      fun i j => ?_⟩
    exact List.Pairwise.forall_of_forall_of_flip (R := fun i j =>
      copysignOfNonzero (turn corners i) = copysignOfNonzero (turn corners j)) (fun _ _ => rfl)
      hpair (hpair.imp fun h => h.symm) (List.mem_finRange i) (List.mem_finRange j)
  · rintro ⟨himage, hturns, hside⟩
    exact ⟨fun i _ => ⟨himage i, hturns i, Or.inl rfl⟩,
      List.pairwise_of_forall fun i j => hside i j⟩

theorem scanCorners_eq_none (h : ¬ProperCorners corners imageWidth imageHeight) :
    scanCorners corners imageWidth imageHeight = none := by
  rw [Option.eq_none_iff_forall_not_mem]
  exact fun scan hscan => h (scanCorners_eq_some.mp hscan).1

/-! ### The variables after the loop -/

theorem le_shortest_foldl_iff {l : List (Fin 4)} {scan : CornerScan} {b : WithTop ℝ} :
    b ≤ (l.foldl (CornerScan.add corners) scan).shortest ↔
      b ≤ scan.shortest ∧ ∀ i ∈ l, b ≤ edgeLength corners i := by
  induction l generalizing scan with
  | nil => simp
  | cons i l ih =>
    rw [List.foldl_cons, ih, List.forall_mem_cons, CornerScan.add, le_min_iff, and_assoc]

theorem longest_foldl_le_iff {l : List (Fin 4)} {scan : CornerScan} {b : ℝ} :
    (l.foldl (CornerScan.add corners) scan).longest ≤ b ↔
      scan.longest ≤ b ∧ ∀ i ∈ l, edgeLength corners i ≤ b := by
  induction l generalizing scan with
  | nil => simp
  | cons i l ih =>
    rw [List.foldl_cons, ih, List.forall_mem_cons, CornerScan.add, max_le_iff, and_assoc]

theorem le_shortest_iff {b : WithTop ℝ} :
    b ≤ (scanAll corners).shortest ↔ ∀ i, b ≤ edgeLength corners i := by
  rw [scanAll, le_shortest_foldl_iff]
  simp

theorem edgeLength_nonneg (corners : Fin 4 → Point ℝ) (i : Fin 4) : 0 ≤ edgeLength corners i :=
  Real.sqrt_nonneg _

theorem longest_le_iff {b : ℝ} :
    (scanAll corners).longest ≤ b ↔ ∀ i, edgeLength corners i ≤ b := by
  rw [scanAll, longest_foldl_le_iff]
  simp only [List.mem_finRange, true_imp_iff, and_iff_right_iff_imp]
  exact fun h => (edgeLength_nonneg corners 0).trans (h 0)

theorem signedTwiceArea_eq (corners : Fin 4 → Point ℝ) :
    (scanAll corners).signedTwiceArea = shoelace corners := by
  rw [shoelace, Fin.sum_univ_four]
  simp [scanAll, List.finRange, CornerScan.add]

/-- The shortest edge is one of the edges. -/
theorem exists_shortest (corners : Fin 4 → Point ℝ) :
    ∃ x : ℝ, IsLeast (Set.range (edgeLength corners)) x ∧ (scanAll corners).shortest = x := by
  obtain ⟨i, hi⟩ := Finite.exists_min (edgeLength corners)
  refine ⟨edgeLength corners i, ⟨⟨i, rfl⟩, ?_⟩, le_antisymm ?_ ?_⟩
  · rintro _ ⟨j, rfl⟩
    exact hi j
  · exact le_shortest_iff.mp le_rfl i
  · exact le_shortest_iff.mpr fun j => WithTop.coe_le_coe.mpr (hi j)

/-- So is the longest. -/
theorem isGreatest_longest (corners : Fin 4 → Point ℝ) :
    IsGreatest (Set.range (edgeLength corners)) (scanAll corners).longest := by
  have hbound := longest_le_iff.mp (le_refl (scanAll corners).longest)
  obtain ⟨i, hi⟩ := Finite.exists_max (edgeLength corners)
  refine ⟨⟨i, le_antisymm (hbound i) (longest_le_iff.mpr hi)⟩, ?_⟩
  rintro _ ⟨j, rfl⟩
  exact hbound j

/-! ### What is accepted -/

theorem quality_of_shortest {scan : CornerScan} {x : ℝ} (h : scan.shortest = x) (m r : ℝ) :
    scan.quality m r =
      if x < m ∨ r < scan.longest / x ∨ 1 / 2 * |scan.signedTwiceArea| < 1 / 2 * m * m then {}
      else
        { accepted := true
          minimumEdgePx := x
          areaPx2 := 1 / 2 * |scan.signedTwiceArea|
          score := √(1 / 2 * |scan.signedTwiceArea|) * x / scan.longest } := by
  simp only [CornerScan.quality, h]

theorem ProperCorners.strictlyConvex (h : ProperCorners corners imageWidth imageHeight) :
    StrictlyConvex corners := by
  have hside : copysignOfNonzero (turn corners 0) = 1 ∨
      copysignOfNonzero (turn corners 0) = -1 := by
    unfold copysignOfNonzero
    split
    · exact Or.inr rfl
    · exact Or.inl rfl
  refine strictlyConvex_of_turns hside fun i => ?_
  rw [h.oneSide 0 i, copysignOfNonzero_mul_self]
  have := h.turns i
  linarith

/-- The area of a strictly convex quadrilateral is that of its two triangles. -/
theorem abs_shoelace (h : StrictlyConvex corners) :
    |shoelace corners| = |orient (corners 0) (corners 1) (corners 2)| +
      |orient (corners 2) (corners 3) (corners 0)| := by
  obtain ⟨s, hs, hside⟩ := h.side
  have hfirst := hside 0 2 (by decide) (by decide)
  have hsecond := hside 2 0 (by decide) (by decide)
  rw [shoelace_eq, abs_add_eq_add_abs_iff]
  rcases hs with rfl | rfl
  · left
    rw [one_mul] at hfirst hsecond
    exact ⟨hfirst.le, hsecond.le⟩
  · right
    rw [neg_one_mul, Left.neg_pos_iff] at hfirst hsecond
    exact ⟨hfirst.le, hsecond.le⟩

/-- An accepted Tag: a proper quadrilateral which meets the gates. -/
structure AcceptedQuadrilateral (corners : Fin 4 → Point ℝ) (imageWidth imageHeight : ℕ)
    (minimumEdgePx maximumEdgeRatio : ℝ) (quality : TagImageQuality) : Prop where
  strictlyConvex : StrictlyConvex corners
  simple : Simple corners
  inImage : ∀ i, InImage imageWidth imageHeight (corners i)
  shortest : IsLeast (Set.range (edgeLength corners)) quality.minimumEdgePx
  edges : minimumEdgePx ≤ quality.minimumEdgePx
  ratio : ∀ i j, edgeLength corners i ≤ maximumEdgeRatio * edgeLength corners j
  area : quality.areaPx2 = 1 / 2 * |orient (corners 0) (corners 1) (corners 2)| +
    1 / 2 * |orient (corners 2) (corners 3) (corners 0)|
  area_ge : 1 / 2 * minimumEdgePx * minimumEdgePx ≤ quality.areaPx2

theorem accepted_correct {m r : ℝ}
    (h : (assessTagImageQuality corners imageWidth imageHeight m r).accepted = true) :
    AcceptedQuadrilateral corners imageWidth imageHeight m r
      (assessTagImageQuality corners imageWidth imageHeight m r) := by
  unfold assessTagImageQuality at h ⊢
  split at h
  · exact absurd h Bool.false_ne_true
  next hparams =>
  rw [if_neg hparams]
  simp only [not_or, not_le, not_lt] at hparams
  obtain ⟨-, -, hm, hr⟩ := hparams
  split at h
  · exact absurd h Bool.false_ne_true
  next scan hscan =>
  obtain ⟨hproper, rfl⟩ := scanCorners_eq_some.mp hscan
  obtain ⟨x, hleast, hx⟩ := exists_shortest corners
  rw [quality_of_shortest hx] at h ⊢
  split at h
  · exact absurd h Bool.false_ne_true
  next hgates =>
  rw [if_neg hgates]
  simp only [not_or, not_lt] at hgates
  obtain ⟨hedge, hratio, harea⟩ := hgates
  have hconvex := hproper.strictlyConvex
  have hpos : 0 < x := hm.trans_le hedge
  refine ⟨hconvex, hconvex.simple, hproper.inImage, hleast, hedge, fun i j => ?_, ?_, harea⟩
  · calc edgeLength corners i ≤ (scanAll corners).longest :=
          (isGreatest_longest corners).2 ⟨i, rfl⟩
      _ ≤ r * x := (div_le_iff₀ hpos).mp hratio
      _ ≤ r * edgeLength corners j :=
          mul_le_mul_of_nonneg_left (hleast.2 ⟨j, rfl⟩) (by linarith)
  · show 1 / 2 * |(scanAll corners).signedTwiceArea| = _
    rw [signedTwiceArea_eq, abs_shoelace hconvex, mul_add]

/-- The gate refuses no other quadrilateral. -/
theorem accepted_of_proper {m r : ℝ} (hwidth : imageWidth ≠ 0) (hheight : imageHeight ≠ 0)
    (hm : 0 < m) (hr : 1 ≤ r) (hproper : ProperCorners corners imageWidth imageHeight)
    (hedge : ∀ i, m ≤ edgeLength corners i)
    (hratio : ∀ i j, edgeLength corners i ≤ r * edgeLength corners j)
    (harea : 1 / 2 * m * m ≤ 1 / 2 * |shoelace corners|) :
    (assessTagImageQuality corners imageWidth imageHeight m r).accepted = true := by
  obtain ⟨x, ⟨⟨i, rfl⟩, -⟩, hx⟩ := exists_shortest corners
  obtain ⟨j, hj⟩ := (isGreatest_longest corners).1
  have hparams : ¬(imageWidth = 0 ∨ imageHeight = 0 ∨ m ≤ 0 ∨ r < 1) := by
    rintro (h | h | h | h)
    · exact hwidth h
    · exact hheight h
    · exact hm.not_ge h
    · exact hr.not_gt h
  have hgates : ¬(edgeLength corners i < m ∨ r < (scanAll corners).longest / edgeLength corners i ∨
      1 / 2 * |(scanAll corners).signedTwiceArea| < 1 / 2 * m * m) := by
    rw [signedTwiceArea_eq, ← hj]
    rintro (h | h | h)
    · exact (hedge i).not_gt h
    · exact ((div_le_iff₀ (hm.trans_le (hedge i))).mpr (hratio j i)).not_gt h
    · exact harea.not_gt h
  rw [assessTagImageQuality, if_neg hparams, scanCorners_eq_some.mpr ⟨hproper, rfl⟩]
  show ((scanAll corners).quality m r).accepted = true
  rw [quality_of_shortest hx, if_neg hgates]

/-! ### The labelling -/

/-- The quadrilateral `q` is `p` with its corners in another order: the corners and the edges are
renumbered, and the side of the turns may change. -/
structure Relabels (q p : Fin 4 → Point ℝ) (corner edge : Fin 4 ≃ Fin 4) (s : ℝ) : Prop where
  side : s = 1 ∨ s = -1
  corner_eq : ∀ i, q i = p (corner i)
  turn_eq : ∀ i, turn q i = s * turn p (corner i)
  edge_eq : ∀ i, edgeLength q i = edgeLength p (edge i)
  area_eq : shoelace q = s * shoelace p

namespace Relabels

variable {q p : Fin 4 → Point ℝ} {corner edge : Fin 4 ≃ Fin 4} {s : ℝ}

theorem abs_side_mul (h : Relabels q p corner edge s) (x : ℝ) : |s * x| = |x| := by
  rcases h.side with rfl | rfl
  · rw [one_mul]
  · rw [neg_one_mul, abs_neg]

theorem copysignOfNonzero_eq (h : Relabels q p corner edge s) {x : ℝ} (hx : 1e-6 ≤ |x|) :
    copysignOfNonzero (s * x) = s * copysignOfNonzero x := by
  have hne : x ≠ 0 := by
    rintro rfl
    norm_num at hx
  rcases h.side with rfl | rfl
  · rw [one_mul, one_mul]
  · rw [neg_one_mul, neg_one_mul, copysignOfNonzero_neg hne]

theorem side_ne_zero (h : Relabels q p corner edge s) : s ≠ 0 := by
  rcases h.side with rfl | rfl <;> norm_num

theorem properCorners_iff (h : Relabels q p corner edge s) :
    ProperCorners q imageWidth imageHeight ↔ ProperCorners p imageWidth imageHeight := by
  have himage : (∀ i, InImage imageWidth imageHeight (q i)) ↔
      ∀ i, InImage imageWidth imageHeight (p i) := by
    simp only [h.corner_eq]
    exact corner.forall_congr_right (q := fun i => InImage imageWidth imageHeight (p i))
  have hturns : (∀ i, 1e-6 ≤ |turn q i|) ↔ ∀ i, 1e-6 ≤ |turn p i| := by
    simp only [h.turn_eq, h.abs_side_mul]
    exact corner.forall_congr_right (q := fun i => 1e-6 ≤ |turn p i|)
  have hside (hp : ∀ i, 1e-6 ≤ |turn p i|) :
      (∀ i j, copysignOfNonzero (turn q i) = copysignOfNonzero (turn q j)) ↔
        ∀ i j, copysignOfNonzero (turn p i) = copysignOfNonzero (turn p j) := by
    simp only [h.turn_eq, h.copysignOfNonzero_eq (hp _), mul_right_inj' h.side_ne_zero]
    constructor
    · intro hq i j
      have := hq (corner.symm i) (corner.symm j)
      rwa [corner.apply_symm_apply, corner.apply_symm_apply] at this
    · exact fun hp i j => hp (corner i) (corner j)
  constructor
  · rintro ⟨hi, ht, hs⟩
    exact ⟨himage.mp hi, hturns.mp ht, (hside (hturns.mp ht)).mp hs⟩
  · rintro ⟨hi, ht, hs⟩
    exact ⟨himage.mpr hi, hturns.mpr ht, (hside ht).mpr hs⟩

theorem shortest_eq (h : Relabels q p corner edge s) :
    (scanAll q).shortest = (scanAll p).shortest := by
  refine eq_of_forall_le_iff fun b => ?_
  simp only [le_shortest_iff, h.edge_eq]
  exact edge.forall_congr_right (q := fun i => b ≤ edgeLength p i)

theorem longest_eq (h : Relabels q p corner edge s) :
    (scanAll q).longest = (scanAll p).longest := by
  refine eq_of_forall_ge_iff fun b => ?_
  simp only [longest_le_iff, h.edge_eq]
  exact edge.forall_congr_right (q := fun i => edgeLength p i ≤ b)

theorem abs_signedTwiceArea_eq (h : Relabels q p corner edge s) :
    |(scanAll q).signedTwiceArea| = |(scanAll p).signedTwiceArea| := by
  rw [signedTwiceArea_eq, signedTwiceArea_eq, h.area_eq, h.abs_side_mul]

/-- The quality does not depend on the labelling. -/
theorem assessTagImageQuality_eq (h : Relabels q p corner edge s) (m r : ℝ) :
    assessTagImageQuality q imageWidth imageHeight m r =
      assessTagImageQuality p imageWidth imageHeight m r := by
  unfold assessTagImageQuality
  split
  · rfl
  by_cases hp : ProperCorners p imageWidth imageHeight
  · have hq := h.properCorners_iff.mpr hp
    rw [scanCorners_eq_some.mpr ⟨hq, rfl⟩, scanCorners_eq_some.mpr ⟨hp, rfl⟩]
    show (scanAll q).quality m r = (scanAll p).quality m r
    obtain ⟨x, -, hx⟩ := exists_shortest p
    rw [quality_of_shortest hx, quality_of_shortest (h.shortest_eq.trans hx), h.longest_eq,
      h.abs_signedTwiceArea_eq]
  · have hq := fun hq => hp (h.properCorners_iff.mp hq)
    rw [scanCorners_eq_none hq, scanCorners_eq_none hp]

end Relabels

/-- A rotation of the corners renumbers corners and edges alike. -/
theorem relabels_rotate (p : Fin 4 → Point ℝ) (k : Fin 4) :
    Relabels (fun i => p (i + k)) p (Equiv.addRight k) (Equiv.addRight k) 1 where
  side := Or.inl rfl
  corner_eq _ := rfl
  turn_eq i := by
    rw [one_mul]
    simp only [turn, Equiv.coe_addRight, sub_add_eq_add_sub, add_right_comm]
  edge_eq i := by simp only [edgeLength, Equiv.coe_addRight, add_right_comm]
  area_eq := by
    simp only [one_mul, shoelace, add_right_comm _ (1 : Fin 4) k]
    exact Equiv.sum_comp (Equiv.addRight k) fun i =>
      (p i).1 * (p (i + 1)).2 - (p i).2 * (p (i + 1)).1

/-- In the reversed order an edge goes from its end to its start. -/
theorem relabels_reverse (p : Fin 4 → Point ℝ) :
    Relabels (fun i => p i.rev) p Fin.revPerm ((Equiv.addRight 1).trans Fin.revPerm) (-1) where
  side := Or.inr rfl
  corner_eq _ := rfl
  turn_eq i := by
    have hprevious : (i - 1).rev = i.rev + 1 := by revert i; decide
    have hnext : (i + 1).rev = i.rev - 1 := by revert i; decide
    rw [turn, hprevious, hnext, orient_reverse, neg_one_mul]
    rfl
  edge_eq i := by
    have hnext : i.rev = (i + 1).rev + 1 := by revert i; decide
    simp only [edgeLength, Equiv.trans_apply, Equiv.coe_addRight, Fin.revPerm_apply, ← hnext]
    rw [sub_sq_comm, sub_sq_comm (p (i + 1).rev).2]
  area_eq := by
    have hnext : ∀ i : Fin 4, (i + 1).rev + 1 = i.rev := by decide
    have hsum := ((Equiv.addRight 1).trans Fin.revPerm).sum_comp fun i : Fin 4 =>
      (p i).1 * (p (i + 1)).2 - (p i).2 * (p (i + 1)).1
    simp only [Equiv.trans_apply, Equiv.coe_addRight, Fin.revPerm_apply, hnext] at hsum
    rw [neg_one_mul, shoelace, shoelace, ← hsum, ← Finset.sum_neg_distrib]
    exact Finset.sum_congr rfl fun i _ => by ring

/-! ### The gate -/

/-- An accepted Tag is a strictly convex quadrilateral in the image which meets the gates, and
neither the first corner nor the direction of the corners changes the quality. -/
theorem assessTagImageQuality_correct (corners : Fin 4 → Point ℝ) (imageWidth imageHeight : ℕ)
    (minimumEdgePx maximumEdgeRatio : ℝ) :
    ((assessTagImageQuality corners imageWidth imageHeight minimumEdgePx
        maximumEdgeRatio).accepted = true →
      AcceptedQuadrilateral corners imageWidth imageHeight minimumEdgePx maximumEdgeRatio
        (assessTagImageQuality corners imageWidth imageHeight minimumEdgePx maximumEdgeRatio)) ∧
    (∀ k, assessTagImageQuality (fun i => corners (i + k)) imageWidth imageHeight minimumEdgePx
        maximumEdgeRatio =
      assessTagImageQuality corners imageWidth imageHeight minimumEdgePx maximumEdgeRatio) ∧
    assessTagImageQuality (fun i => corners i.rev) imageWidth imageHeight minimumEdgePx
        maximumEdgeRatio =
      assessTagImageQuality corners imageWidth imageHeight minimumEdgePx maximumEdgeRatio :=
  ⟨accepted_correct, fun k => (relabels_rotate corners k).assessTagImageQuality_eq _ _,
    (relabels_reverse corners).assessTagImageQuality_eq _ _⟩

/-- A square of sixty pixels. -/
def squareCorners : Fin 4 → Point ℝ := ![(100, 100), (160, 100), (160, 160), (100, 160)]

theorem accepted_square :
    (assessTagImageQuality squareCorners 960 600 20 (5 / 2)).accepted = true := by
  unfold squareCorners
  have hcases : ∀ i : Fin 4, i = 0 ∨ i = 1 ∨ i = 2 ∨ i = 3 := by decide
  have hbefore : (0 : Fin 4) - 1 = 3 := rfl
  have hedge : ∀ i, edgeLength ![(100, 100), (160, 100), (160, 160), (100, 160)] i = 60 := by
    intro i
    rw [edgeLength, Real.sqrt_eq_iff_mul_self_eq_of_pos (by norm_num)]
    rcases hcases i with rfl | rfl | rfl | rfl <;> simp <;> norm_num
  have hturn : ∀ i, turn ![(100, 100), (160, 100), (160, 160), (100, 160)] i = (3600 : ℝ) := by
    intro i
    rcases hcases i with rfl | rfl | rfl | rfl <;>
      simp [turn, orient, hbefore] <;> norm_num
  apply accepted_of_proper (by decide) (by decide) (by norm_num) (by norm_num)
  · refine ⟨fun i => ?_, fun i => ?_, fun i j => ?_⟩
    · rcases hcases i with rfl | rfl | rfl | rfl <;> simp [InImage] <;> norm_num
    · rw [hturn]
      norm_num
    · rw [hturn, hturn]
  · intro i
    rw [hedge]
    norm_num
  · intro i j
    rw [hedge, hedge]
    norm_num
  · simp [shoelace, Fin.sum_univ_four]
    norm_num

theorem assessTagImageQuality_correct_square :
    AcceptedQuadrilateral squareCorners 960 600 20 (5 / 2)
      (assessTagImageQuality squareCorners 960 600 20 (5 / 2)) :=
  (assessTagImageQuality_correct squareCorners 960 600 20 (5 / 2)).1 accepted_square

end

end RobotCore
