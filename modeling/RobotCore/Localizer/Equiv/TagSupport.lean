import Mathlib.Order.Interval.Finset.Nat
import RobotCore.Lib.Tally
import RobotCore.Localizer.TagSupport

/-!
# A Tag is supported by its distinct points

After any part of the list the two tables of the loop are those of the set of points seen so far
(`foldlM_countInlier`), so a point that occurs again, or is none of the Tags', counts nothing.
-/

namespace RobotCore

open Tally

/-- The points of a list of inliers. -/
def inlierPoints (pointCount : ℕ) (indices : List ℤ) : Finset ℕ :=
  (Finset.range pointCount).filter fun i => (i : ℤ) ∈ indices

/-- The distinct points of a Tag among the inliers. -/
def ownedPoints (indices : List ℤ) (tagCount pointsPerTag tag : ℕ) : Finset ℕ :=
  ofClass (· / pointsPerTag) (inlierPoints (tagCount * pointsPerTag) indices) tag

/-- The tables of the points that were seen. -/
def tablesOf (tagCount pointsPerTag : ℕ) (S : Finset ℕ) : InlierTables where
  pointSeen := seen (tagCount * pointsPerTag) S
  inlierCounts := counts (· / pointsPerTag) tagCount S

/-- No Tag has more of the points than an `int` counts. -/
def Countable (pointsPerTag : ℕ) (S : Finset ℕ) : Prop :=
  ∀ tag, ((ofClass (· / pointsPerTag) S tag).card : ℤ) ≤ intMax

variable {tagCount pointsPerTag : ℕ} {S T : Finset ℕ} {indices : List ℤ}

theorem mem_inlierPoints {k i : ℕ} : i ∈ inlierPoints k indices ↔ i < k ∧ (i : ℤ) ∈ indices := by
  rw [inlierPoints, Finset.mem_filter, Finset.mem_range]

theorem Countable.subset (hT : Countable pointsPerTag T) (h : S ⊆ T) : Countable pointsPerTag S :=
  fun tag => le_trans (Int.ofNat_le.mpr (Finset.card_le_card (ofClass_mono h))) (hT tag)

theorem countable_insert_iff {i : ℕ} (hS : Countable pointsPerTag S) (hi : i ∉ S) :
    Countable pointsPerTag (insert i S) ↔
      ((ofClass (· / pointsPerTag) S (i / pointsPerTag)).card : ℤ) ≠ intMax := by
  constructor
  · intro h heq
    have hle := h (i / pointsPerTag)
    rw [card_ofClass_insert hi, if_pos rfl] at hle
    push_cast at hle
    omega
  · intro hne tag
    have hle := hS tag
    rw [card_ofClass_insert hi]
    split_ifs with htag
    · subst htag
      push_cast
      omega
    · simpa using hle

/-! ### The loop -/

open Classical in
/-- An inlier that is a point adds it to the points seen. -/
theorem countInlier_point {i : ℕ} (hi : i < tagCount * pointsPerTag)
    (hS : Countable pointsPerTag S) :
    countInlier pointsPerTag (tagCount * pointsPerTag) (tablesOf tagCount pointsPerTag S) i =
      if Countable pointsPerTag (insert i S) then
        some (tablesOf tagCount pointsPerTag (insert i S))
      else none := by
  have htag : i / pointsPerTag < tagCount := Nat.div_lt_of_lt_mul (by rwa [Nat.mul_comm])
  have hrange : decide (tagCount * pointsPerTag ≤ i) = false := decide_eq_false (not_le.mpr hi)
  have hlookup : (tablesOf tagCount pointsPerTag S).pointSeen.getD i false = decide (i ∈ S) :=
    getD_seen hi
  have hcount : (tablesOf tagCount pointsPerTag S).inlierCounts.getD (i / pointsPerTag) 0 =
      ((ofClass (· / pointsPerTag) S (i / pointsPerTag)).card : ℤ) := getD_counts htag
  unfold countInlier
  rw [if_neg (Int.natCast_nonneg i).not_gt]
  dsimp only
  rw [Int.toNat_natCast, hrange, hlookup, Bool.false_or]
  by_cases hseen : i ∈ S
  · rw [if_pos (decide_eq_true hseen), Finset.insert_eq_of_mem hseen, if_pos hS]
  · rw [if_neg (by simpa using hseen), hcount]
    by_cases hfull : ((ofClass (· / pointsPerTag) S (i / pointsPerTag)).card : ℤ) = intMax
    · rw [if_pos hfull, if_neg fun h => (countable_insert_iff hS hseen).mp h hfull]
    · rw [if_neg hfull, if_pos ((countable_insert_iff hS hseen).mpr hfull)]
      refine congrArg some ?_
      change InlierTables.mk ((seen _ S).set i true) ((counts _ _ S).modify _ _) = _
      rw [set_seen, modify_counts hseen]
      rfl

/-- Any other number is skipped. -/
theorem countInlier_skip {k : ℕ} {r : ℤ} (hr : ∀ i < k, (i : ℤ) ≠ r) (tables : InlierTables) :
    countInlier pointsPerTag k tables r = some tables := by
  unfold countInlier
  split_ifs with hneg
  · rfl
  · have hge : k ≤ r.toNat := by
      by_contra hlt
      exact hr r.toNat (not_le.mp hlt) (Int.toNat_of_nonneg (not_lt.mp hneg))
    dsimp only
    rw [decide_eq_true hge, Bool.true_or, if_pos rfl]

theorem inlierPoints_nil {k : ℕ} : inlierPoints k [] = ∅ := by
  ext i
  simp [mem_inlierPoints]

theorem inlierPoints_cons_point {k i : ℕ} (hi : i < k) :
    inlierPoints k ((i : ℤ) :: indices) = insert i (inlierPoints k indices) := by
  ext j
  rw [Finset.mem_insert, mem_inlierPoints, mem_inlierPoints, List.mem_cons, Int.natCast_inj]
  constructor
  · rintro ⟨hj, rfl | hmem⟩
    · exact Or.inl rfl
    · exact Or.inr ⟨hj, hmem⟩
  · rintro (rfl | ⟨hj, hmem⟩)
    · exact ⟨hi, Or.inl rfl⟩
    · exact ⟨hj, Or.inr hmem⟩

theorem inlierPoints_cons_skip {k : ℕ} {r : ℤ} (hr : ∀ i < k, (i : ℤ) ≠ r) :
    inlierPoints k (r :: indices) = inlierPoints k indices := by
  ext j
  rw [mem_inlierPoints, mem_inlierPoints, List.mem_cons]
  exact and_congr_right fun hj => or_iff_right (hr j hj)

open Classical in
/-- **The tables agree.**  The loop ends with the tables of all points that were seen. -/
theorem foldlM_countInlier (indices : List ℤ) {S : Finset ℕ} (hS : Countable pointsPerTag S) :
    let points := S ∪ inlierPoints (tagCount * pointsPerTag) indices
    indices.foldlM (countInlier pointsPerTag (tagCount * pointsPerTag))
        (tablesOf tagCount pointsPerTag S) =
      if Countable pointsPerTag points then some (tablesOf tagCount pointsPerTag points)
      else none := by
  induction indices generalizing S with
  | nil =>
    rw [inlierPoints_nil, Finset.union_empty]
    exact (if_pos hS).symm
  | cons r indices ih =>
    rw [List.foldlM_cons]
    by_cases hpoint : ∃ i < tagCount * pointsPerTag, (i : ℤ) = r
    · obtain ⟨i, hi, rfl⟩ := hpoint
      rw [inlierPoints_cons_point hi, Finset.union_insert, ← Finset.insert_union,
        countInlier_point hi hS]
      by_cases hfirst : Countable pointsPerTag (insert i S)
      · rw [if_pos hfirst]
        exact ih hfirst
      · rw [if_neg hfirst]
        exact (if_neg fun h => hfirst (h.subset Finset.subset_union_left)).symm
    · push Not at hpoint
      rw [inlierPoints_cons_skip hpoint, countInlier_skip hpoint]
      exact ih hS

/-! ### The supported Tags -/

/-- The Tags with enough distinct points, in ascending order. -/
def supportedTags (indices : List ℤ) (tagCount pointsPerTag : ℕ) (minimum : ℤ) : List ℕ :=
  (List.range tagCount).filter fun tag =>
    minimum ≤ ((ownedPoints indices tagCount pointsPerTag tag).card : ℤ)

theorem countable_empty : Countable pointsPerTag ∅ := by
  intro tag
  rw [ofClass, Finset.filter_empty, Finset.card_empty]
  decide

/-- Without Tags or without points there is nothing to support. -/
theorem supportedTags_of_eq_zero {minimum : ℤ} (hminimum : 0 < minimum)
    (hzero : tagCount * pointsPerTag = 0) :
    supportedTags indices tagCount pointsPerTag minimum = [] := by
  refine List.filter_eq_nil_iff.mpr fun tag _ => ?_
  have hnone : ownedPoints indices tagCount pointsPerTag tag = ∅ := by
    rw [ownedPoints, hzero, inlierPoints, Finset.range_zero, Finset.filter_empty, ofClass,
      Finset.filter_empty]
  rw [hnone, Finset.card_empty]
  simpa using hminimum

open Classical in
/-- What the function returns. -/
theorem independentlySupportedTagIndices_eq {minimum : ℤ}
    (hfits : tagCount * pointsPerTag < 2 ^ 64) (hminimum : 0 < minimum) :
    independentlySupportedTagIndices indices tagCount pointsPerTag minimum =
      if Countable pointsPerTag (inlierPoints (tagCount * pointsPerTag) indices) then
        some (supportedTags indices tagCount pointsPerTag minimum)
      else none := by
  unfold independentlySupportedTagIndices
  rw [decide_eq_false (not_le.mpr hminimum), Bool.or_false, Nat.mod_eq_of_lt hfits]
  by_cases hzero : tagCount * pointsPerTag = 0
  · have hcheck : (decide (tagCount = 0) || decide (pointsPerTag = 0)) = true := by
      simpa using Nat.mul_eq_zero.mp hzero
    have hpoints : inlierPoints (tagCount * pointsPerTag) indices = ∅ := by
      rw [hzero, inlierPoints, Finset.range_zero, Finset.filter_empty]
    rw [if_pos hcheck, hpoints, if_pos countable_empty, supportedTags_of_eq_zero hminimum hzero]
  · have hcheck : ¬(decide (tagCount = 0) || decide (pointsPerTag = 0)) = true := by
      simpa [not_or, Nat.mul_eq_zero] using hzero
    have htables : InlierTables.mk (List.replicate (tagCount * pointsPerTag) false)
        (List.replicate tagCount 0) = tablesOf tagCount pointsPerTag ∅ := by
      rw [tablesOf, seen_empty, counts_empty]
    have hloop := @foldlM_countInlier tagCount pointsPerTag indices ∅ countable_empty
    rw [Finset.empty_union] at hloop
    rw [if_neg hcheck]
    dsimp only
    rw [htables, hloop]
    split_ifs with hcountable
    · refine congrArg some (List.filter_congr fun tag htag => ?_)
      rw [tablesOf, getD_counts (List.mem_range.mp htag)]
      rfl
    · rfl

/-! ### What decides the result -/

/-- Only the points in the list decide, not their order or number. -/
theorem inlierPoints_congr {k : ℕ} {other : List ℤ}
    (h : ∀ i < k, (i : ℤ) ∈ other ↔ (i : ℤ) ∈ indices) :
    inlierPoints k other = inlierPoints k indices := by
  ext i
  rw [mem_inlierPoints, mem_inlierPoints]
  exact and_congr_right fun hi => h i hi

theorem inlierPoints_mono {k : ℕ} {other : List ℤ} (h : indices ⊆ other) :
    inlierPoints k indices ⊆ inlierPoints k other := by
  intro i hi
  rw [mem_inlierPoints] at hi ⊢
  exact ⟨hi.1, h hi.2⟩

theorem supportedTags_mono {other : List ℤ} {minimum : ℤ} (h : indices ⊆ other) :
    supportedTags indices tagCount pointsPerTag minimum ⊆
      supportedTags other tagCount pointsPerTag minimum := by
  intro tag htag
  rw [supportedTags, List.mem_filter, decide_eq_true_eq] at htag ⊢
  refine ⟨htag.1, htag.2.trans (Int.ofNat_le.mpr (Finset.card_le_card ?_))⟩
  exact ofClass_mono (inlierPoints_mono h)

theorem pairwise_supportedTags {minimum : ℤ} :
    (supportedTags indices tagCount pointsPerTag minimum).Pairwise (· < ·) :=
  List.Pairwise.filter _ List.pairwise_lt_range

/-- An `int` counts all points when there are no more than that. -/
theorem countable_of_le (h : ((tagCount * pointsPerTag : ℕ) : ℤ) ≤ intMax) :
    Countable pointsPerTag (inlierPoints (tagCount * pointsPerTag) indices) := by
  intro tag
  have hle := Finset.card_le_card ((Finset.filter_subset (· / pointsPerTag = tag) _).trans
    (Finset.filter_subset (fun i : ℕ => (i : ℤ) ∈ indices)
      (Finset.range (tagCount * pointsPerTag))))
  rw [Finset.card_range] at hle
  exact le_trans (Int.ofNat_le.mpr hle) h

/-- The result in terms of the points of the list, for every threshold. -/
theorem independentlySupportedTagIndices_congr {other : List ℤ} {minimum : ℤ}
    (hfits : tagCount * pointsPerTag < 2 ^ 64)
    (h : ∀ i < tagCount * pointsPerTag, (i : ℤ) ∈ other ↔ (i : ℤ) ∈ indices) :
    independentlySupportedTagIndices other tagCount pointsPerTag minimum =
      independentlySupportedTagIndices indices tagCount pointsPerTag minimum := by
  rcases le_or_gt minimum 0 with hminimum | hminimum
  · have hcheck : ∀ b : Bool, (b || decide (minimum ≤ 0)) = true := by
      intro b
      rw [decide_eq_true hminimum, Bool.or_true]
    unfold independentlySupportedTagIndices
    rw [if_pos (hcheck _), if_pos (hcheck _)]
  · rw [independentlySupportedTagIndices_eq hfits hminimum,
      independentlySupportedTagIndices_eq hfits hminimum, supportedTags, supportedTags]
    unfold ownedPoints
    rw [inlierPoints_congr h]

/-- **The Tags that are returned** are, in ascending order, those with enough distinct points, and
none for a threshold that is not positive. -/
theorem supported_iff_distinctPoints {minimum : ℤ} (hfits : tagCount * pointsPerTag < 2 ^ 64)
    (hcountable : ∀ tag, ((ownedPoints indices tagCount pointsPerTag tag).card : ℤ) ≤ intMax) :
    ∃ supported,
      independentlySupportedTagIndices indices tagCount pointsPerTag minimum = some supported ∧
        supported.Pairwise (· < ·) ∧
        (∀ tag, tag ∈ supported ↔ 0 < minimum ∧ tag < tagCount ∧
          minimum ≤ ((ownedPoints indices tagCount pointsPerTag tag).card : ℤ)) ∧
        (∀ other, indices.Perm other →
          independentlySupportedTagIndices other tagCount pointsPerTag minimum = some supported) ∧
        (∀ extra other,
          (∀ r ∈ extra, r ∈ indices ∨ r < 0 ∨ ((tagCount * pointsPerTag : ℕ) : ℤ) ≤ r) →
          (indices ++ extra).Perm other →
          independentlySupportedTagIndices other tagCount pointsPerTag minimum = some supported) ∧
        ∀ larger supported', indices ⊆ larger →
          independentlySupportedTagIndices larger tagCount pointsPerTag minimum = some supported' →
          supported ⊆ supported' := by
  obtain ⟨supported, hsupported, hascending, hmem⟩ : ∃ supported,
      independentlySupportedTagIndices indices tagCount pointsPerTag minimum = some supported ∧
        supported.Pairwise (· < ·) ∧ ∀ tag, tag ∈ supported ↔ 0 < minimum ∧ tag < tagCount ∧
          minimum ≤ ((ownedPoints indices tagCount pointsPerTag tag).card : ℤ) := by
    rcases le_or_gt minimum 0 with hminimum | hminimum
    · refine ⟨[], ?_, List.Pairwise.nil, fun tag => ?_⟩
      · unfold independentlySupportedTagIndices
        rw [if_pos (by rw [decide_eq_true hminimum, Bool.or_true])]
      · simp [hminimum.not_gt]
    · refine ⟨_, (independentlySupportedTagIndices_eq hfits hminimum).trans (if_pos hcountable),
        pairwise_supportedTags, fun tag => ?_⟩
      rw [supportedTags, List.mem_filter, List.mem_range, decide_eq_true_eq]
      exact (and_iff_right hminimum).symm
  refine ⟨supported, hsupported, hascending, hmem, fun other hperm => ?_,
    fun extra other hextra hperm => ?_, fun larger supported' hsubset hlarger => ?_⟩
  · rw [independentlySupportedTagIndices_congr hfits fun i _ => hperm.mem_iff.symm, hsupported]
  · refine (independentlySupportedTagIndices_congr hfits fun i hi => ?_).trans hsupported
    rw [← hperm.mem_iff, List.mem_append, or_iff_left_iff_imp]
    intro hmem
    rcases hextra i hmem with hin | hneg | hbeyond
    · exact hin
    · omega
    · omega
  · intro tag htag
    obtain ⟨hminimum, hrange, henough⟩ := (hmem tag).mp htag
    rw [independentlySupportedTagIndices_eq hfits hminimum] at hlarger
    split_ifs at hlarger
    obtain rfl := Option.some.inj hlarger
    refine supportedTags_mono hsubset ?_
    rw [supportedTags, List.mem_filter, List.mem_range, decide_eq_true_eq]
    exact ⟨hrange, henough⟩

/-- Points given twice, a negative number and one that is none of the points. -/
theorem supported_iff_distinctPoints_duplicates :
    ∃ supported, independentlySupportedTagIndices [0, 1, 1, 2, -1, 12] 3 4 3 = some supported ∧
      (0 ∈ supported ↔ (0 : ℤ) < 3 ∧ 0 < 3 ∧
        3 ≤ ((ownedPoints [0, 1, 1, 2, -1, 12] 3 4 0).card : ℤ)) := by
  obtain ⟨supported, hsupported, -, hmem, -⟩ :=
    @supported_iff_distinctPoints 3 4 [0, 1, 1, 2, -1, 12] 3 (by decide)
      (countable_of_le (by decide))
  exact ⟨supported, hsupported, hmem 0⟩

/-- A threshold of zero supports no Tag, though every Tag has that many points; and the count of
one Tag can pass the largest `int`. -/
theorem independentlySupportedTagIndices_zero_and_overflow :
    independentlySupportedTagIndices [] 1 1 0 = some [] ∧
      (0 : ℤ) ≤ ((ownedPoints [] 1 1 0).card : ℤ) ∧
      independentlySupportedTagIndices ((List.range (2 ^ 31)).map (↑)) 1 (2 ^ 31) 1 = none := by
  refine ⟨rfl, Int.natCast_nonneg _, ?_⟩
  have hall : ∀ k : ℕ, inlierPoints k ((List.range k).map (↑)) = Finset.range k := by
    intro k
    ext i
    rw [mem_inlierPoints, Finset.mem_range, and_iff_left_iff_imp]
    exact fun hi => List.mem_map.mpr ⟨i, List.mem_range.mpr hi, rfl⟩
  have hclass : ∀ k : ℕ, ofClass (· / k) (Finset.range k) 0 = Finset.range k := by
    intro k
    refine Finset.filter_true_of_mem fun i hi => Nat.div_eq_of_lt (Finset.mem_range.mp hi)
  rw [independentlySupportedTagIndices_eq (by decide) (by decide), Nat.one_mul, hall]
  refine if_neg fun h => ?_
  have hzero := h 0
  rw [hclass, Finset.card_range] at hzero
  exact absurd hzero (by decide)

end RobotCore
