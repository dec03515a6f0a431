import Mathlib.Data.List.GetD
import Mathlib.Order.Minimal
import RobotCore.Fusion.Cluster
import RobotCore.Lib.FirstFit

/-!
# The clusters that are found

The cluster of a seed is chosen first fit from the poses near it, the nearest first.  It is
consistent, and when it is not full nothing fits it.  A consistent set of poses can still be missed:
a pose nearer to the seed takes the place of the others (`decoyPoses`).
-/

namespace RobotCore

open FirstFit Matrix

/-! ### One seed -/

section Seed

variable {K : Type} [LinearOrder K] {distance : ℕ → ℕ → K} {limit : K} {count k seed : ℕ}

theorem growCluster_eq (cluster ranked : List ℕ) :
    growCluster distance limit k cluster ranked =
      firstFit (fun i j => distance i j ≤ limit) k cluster ranked := by
  induction ranked generalizing cluster with
  | nil => rfl
  | cons index ranked ih =>
    have hall : (cluster.all fun selected => decide (distance selected index ≤ limit)) =
        decide (∀ y ∈ cluster, distance y index ≤ limit) := by
      rw [Bool.eq_iff_iff, List.all_eq_true, decide_eq_true_eq]
      simp only [decide_eq_true_eq]
    unfold growCluster firstFit
    dsimp only
    rw [hall]
    by_cases hfits : ∀ y ∈ cluster, distance y index ≤ limit
    · rw [decide_eq_true hfits, if_pos hfits]
      simp only [Bool.not_true, Bool.false_eq_true, if_false, ih]
    · rw [decide_eq_false hfits, if_neg hfits, ← ih]
      rfl

theorem mem_rankedIndices {i : ℕ} :
    i ∈ rankedIndices distance limit count seed ↔ i < count ∧ distance seed i ≤ limit := by
  rw [rankedIndices, List.mem_insertionSort, List.mem_filter, List.mem_range, decide_eq_true_eq]

theorem nodup_rankedIndices : (rankedIndices distance limit count seed).Nodup :=
  (List.perm_insertionSort _ _).nodup_iff.mpr (List.nodup_range.filter _)

/-- The order of `ranked`. -/
theorem not_ranksBefore_iff {i j : ℕ} : (!ranksBefore distance seed j i) = true ↔
    distance seed i < distance seed j ∨ distance seed i = distance seed j ∧ j ≤ i := by
  unfold ranksBefore
  split_ifs with hne
  · rw [Bool.not_eq_true', decide_eq_false_iff_not, not_lt]
    constructor
    · exact fun h => Or.inl (lt_of_le_of_ne h (Ne.symm hne))
    · rintro (h | ⟨h, -⟩)
      · exact h.le
      · exact h.le
  · rw [Bool.not_eq_true', decide_eq_false_iff_not, not_lt]
    have heq := not_not.mp hne
    constructor
    · exact fun h => Or.inr ⟨heq.symm, h⟩
    · rintro (h | ⟨-, h⟩)
      · exact absurd heq h.ne'
      · exact h

/-- The nearer poses come first. -/
theorem rankedIndices_pairwise :
    (rankedIndices distance limit count seed).Pairwise fun i j =>
    distance seed i ≤ distance seed j := by
  let rel (i j : ℕ) : Prop := (!ranksBefore distance seed j i) = true
  have : Std.Total rel := ⟨fun a b => by
    rw [show rel a b ↔ _ from not_ranksBefore_iff, show rel b a ↔ _ from not_ranksBefore_iff]
    rcases lt_trichotomy (distance seed a) (distance seed b) with h | h | h
    · exact Or.inl (Or.inl h)
    · exact (le_total b a).imp (fun hba => Or.inr ⟨h, hba⟩) fun hab => Or.inr ⟨h.symm, hab⟩
    · exact Or.inr (Or.inl h)⟩
  have : IsTrans ℕ rel := ⟨fun a b c hab hbc => by
    refine not_ranksBefore_iff.mpr ?_
    rcases not_ranksBefore_iff.mp hab with hab | ⟨hab, hba⟩ <;>
      rcases not_ranksBefore_iff.mp hbc with hbc | ⟨hbc, hcb⟩
    · exact Or.inl (hab.trans hbc)
    · exact Or.inl (hbc ▸ hab)
    · exact Or.inl (hab ▸ hbc)
    · exact Or.inr ⟨hab.trans hbc, hcb.trans hba⟩⟩
  have hsorted : (rankedIndices distance limit count seed).Pairwise rel :=
    List.pairwise_insertionSort rel _
  refine hsorted.imp fun {i j} h => ?_
  rcases not_ranksBefore_iff.mp h with h | ⟨h, -⟩
  · exact h.le
  · exact h.le

/-- Every two members are within the limit. -/
def IsConsistent (distance : ℕ → ℕ → K) (limit : K) (count : ℕ) (S : Finset ℕ) : Prop :=
  (∀ i ∈ S, i < count) ∧ ∀ i ∈ S, ∀ j ∈ S, distance i j ≤ limit

theorem mem_seedCluster {i : ℕ} (h : i ∈ seedCluster distance limit count k seed) :
    i < count ∧ distance seed i ≤ limit := by
  rw [seedCluster, growCluster_eq] at h
  exact mem_rankedIndices.mp (firstFit_sublist.subset h)

theorem nodup_seedCluster : (seedCluster distance limit count k seed).Nodup := by
  rw [seedCluster, growCluster_eq]
  exact nodup_rankedIndices.sublist firstFit_sublist

theorem length_seedCluster_le (hk : 0 < k) :
    (seedCluster distance limit count k seed).length ≤ k := by
  rw [seedCluster, growCluster_eq]
  exact length_firstFit_le hk

/-- The members of a consistent set are found from one of them when all poses that are as near as
they are consistent with them. -/
theorem length_seedCluster_of_near {C : Finset ℕ} (hC : IsConsistent distance limit count C)
    (hk : 0 < k) (hcard : C.card = k) (hseed : seed ∈ C)
    (hnear : ∀ i < count, ∀ c ∈ C, distance seed i ≤ distance seed c →
      ∀ c ∈ C, distance i c ≤ limit) :
    (seedCluster distance limit count k seed).length = k := by
  have hranked : ∀ c ∈ C, c ∈ rankedIndices distance limit count seed :=
    fun c hc => mem_rankedIndices.mpr ⟨hC.1 c hc, hC.2 seed hseed c hc⟩
  have hcompatible : (rankedIndices distance limit count seed).Pairwise fun i c =>
      c ∈ C → distance i c ≤ limit := by
    refine rankedIndices_pairwise.imp_of_mem fun {i c} hi _ hle hc => ?_
    exact hnear i (mem_rankedIndices.mp hi).1 c hc hle c hc
  have hmost : (seedCluster distance limit count k seed).length ≤ k := length_seedCluster_le hk
  rw [seedCluster, growCluster_eq] at hmost ⊢
  have hnone : ∀ y ∈ ([] : List ℕ), ∀ c ∈ rankedIndices distance limit count seed, c ∈ C →
      distance y c ≤ limit := fun _ hy => by cases hy
  rcases mem_firstFit_of_compatible (k := k) hnone hcompatible with hfull | hmem
  · exact hfull
  · have hsubset : C ⊆ (firstFit (fun i j => distance i j ≤ limit) k []
        (rankedIndices distance limit count seed)).toFinset :=
      fun c hc => List.mem_toFinset.mpr (hmem c (hranked c hc) hc)
    have hcard' := (Finset.card_le_card hsubset).trans (List.toFinset_card_le _)
    omega

variable (hself : ∀ i, distance i i ≤ limit) (hsymm : ∀ i j, distance i j = distance j i)
include hself hsymm

theorem isConsistent_seedCluster :
    IsConsistent distance limit count (seedCluster distance limit count k seed).toFinset := by
  refine ⟨fun i hi => (mem_seedCluster (List.mem_toFinset.mp hi)).1, fun i hi j hj => ?_⟩
  have hpairwise : (seedCluster distance limit count k seed).Pairwise fun i j =>
      distance i j ≤ limit := by
    rw [seedCluster, growCluster_eq]
    exact pairwise_firstFit List.Pairwise.nil
  have hflip : (seedCluster distance limit count k seed).Pairwise (flip fun i j =>
      distance i j ≤ limit) := hpairwise.imp fun {i j} h => (hsymm j i).trans_le h
  exact List.Pairwise.forall_of_forall_of_flip (fun i _ => hself i) hpairwise hflip
    (List.mem_toFinset.mp hi)
    (List.mem_toFinset.mp hj)

/-- Nothing fits a cluster that is not full. -/
theorem maximal_seedCluster (hseed : seed < count)
    (hshort : (seedCluster distance limit count k seed).length < k) :
    Maximal (IsConsistent distance limit count)
        (seedCluster distance limit count k seed).toFinset ∧
      seed ∈ seedCluster distance limit count k seed := by
  have hmem : seed ∈ seedCluster distance limit count k seed := by
    have hseed : seed ∈ rankedIndices distance limit count seed :=
      mem_rankedIndices.mpr ⟨hseed, hself seed⟩
    have hcompatible : (rankedIndices distance limit count seed).Pairwise fun i c =>
        c = seed → distance i c ≤ limit := by
      refine List.pairwise_of_forall_mem_list fun i hi c _ hc => ?_
      rw [hc, hsymm]
      exact (mem_rankedIndices.mp hi).2
    rw [seedCluster, growCluster_eq] at hshort ⊢
    have hnone : ∀ y ∈ ([] : List ℕ), ∀ c ∈ rankedIndices distance limit count seed, c = seed →
        distance y c ≤ limit := fun _ hy => by cases hy
    rcases mem_firstFit_of_compatible (k := k) hnone hcompatible with hfull | hmem
    · exact absurd hfull hshort.ne
    · exact hmem seed hseed rfl
  refine ⟨⟨isConsistent_seedCluster hself hsymm, fun T hT hsubset i hi => ?_⟩, hmem⟩
  by_contra hnot
  rw [List.mem_toFinset] at hnot
  have hconsistent : ∀ j ∈ seedCluster distance limit count k seed, distance j i ≤ limit :=
    fun j hj => hT.2 j (hsubset (List.mem_toFinset.mpr hj)) i hi
  have hranked : i ∈ rankedIndices distance limit count seed :=
    mem_rankedIndices.mpr ⟨hT.1 i hi, hconsistent seed hmem⟩
  rw [seedCluster, growCluster_eq] at hshort hnot hconsistent
  obtain ⟨j, hj, hincompatible⟩ := exists_incompatible hshort i hranked hnot
  exact hincompatible (hconsistent j hj)

end Seed

/-! ### The best cluster -/

section Best

variable {distance : ℕ → ℕ → ℝ} {count k : ℕ}

/-- The best cluster is the old or the new one, and as long as both. -/
theorem tryCluster_cases (best : BestCluster) (cluster : List ℕ) :
    ((tryCluster distance best cluster).indices = cluster ∧ best.indices.length ≤ cluster.length) ∨
      (tryCluster distance best cluster).indices = best.indices ∧
        cluster.length ≤ best.indices.length := by
  unfold tryCluster
  split_ifs with hbetter
  · refine Or.inl ⟨rfl, ?_⟩
    simp only [isBetter, Bool.or_eq_true, Bool.and_eq_true, decide_eq_true_eq] at hbetter
    rcases hbetter with (h | ⟨h, -⟩) | ⟨⟨h, -⟩, -⟩
    · exact h.le
    · exact h.ge
    · exact h.ge
  · refine Or.inr ⟨rfl, ?_⟩
    simp only [isBetter, Bool.or_eq_true, decide_eq_true_eq, not_or, not_lt] at hbetter
    exact hbetter.1.1

/-- The best of some clusters is one of them, and as long as all. -/
theorem foldl_tryCluster {clusters : List (List ℕ)} (best : BestCluster) :
    let result := (clusters.foldl (tryCluster distance) best).indices
    (result = best.indices ∨ result ∈ clusters) ∧ best.indices.length ≤ result.length ∧
      ∀ cluster ∈ clusters, cluster.length ≤ result.length := by
  induction clusters generalizing best with
  | nil => exact ⟨Or.inl rfl, le_rfl, fun _ h => by cases h⟩
  | cons cluster clusters ih =>
    obtain ⟨hsource, hbest, hall⟩ := ih (tryCluster distance best cluster)
    rw [List.foldl_cons]
    rcases tryCluster_cases best cluster with ⟨heq, hle⟩ | ⟨heq, hle⟩
    all_goals rw [heq] at hsource hbest
    · refine ⟨Or.inr ?_, hle.trans hbest, fun c hc => ?_⟩
      · rcases hsource with h | h
        · rw [h]
          exact List.mem_cons_self
        · exact List.mem_cons_of_mem _ h
      · rcases List.mem_cons.mp hc with rfl | hc
        · exact hbest
        · exact hall c hc
    · refine ⟨hsource.imp_right (List.mem_cons_of_mem _), hbest, fun c hc => ?_⟩
      rcases List.mem_cons.mp hc with rfl | hc
      · exact hle.trans hbest
      · exact hall c hc

/-- The cluster of some seed, and as long as that of any. -/
theorem bestCluster_spec (hcount : 0 < count) :
    (∃ seed < count, (bestCluster distance count k).indices = seedCluster distance 1 count k seed) ∧
      ∀ seed < count, (seedCluster distance 1 count k seed).length ≤
        (bestCluster distance count k).indices.length := by
  have hfold : bestCluster distance count k =
      ((List.range count).reverse.map (seedCluster distance 1 count k)).foldl
        (tryCluster distance) {} := by
    rw [List.foldl_map]
    rfl
  obtain ⟨hsource, -, hall⟩ := @foldl_tryCluster distance
    ((List.range count).reverse.map (seedCluster distance 1 count k)) {}
  rw [← hfold] at hsource hall
  have hall' : ∀ seed < count, (seedCluster distance 1 count k seed).length ≤
      (bestCluster distance count k).indices.length := fun seed hseed =>
    hall _ (List.mem_map_of_mem (List.mem_reverse.mpr (List.mem_range.mpr hseed)))
  refine ⟨?_, hall'⟩
  rcases hsource with hempty | hmem
  · -- the first cluster is empty, too
    refine ⟨0, hcount, ?_⟩
    have hzero := hall' 0 hcount
    rw [hempty] at hzero ⊢
    exact (List.eq_nil_of_length_eq_zero (Nat.le_zero.mp hzero)).symm
  · obtain ⟨seed, hseed, heq⟩ := List.mem_map.mp hmem
    exact ⟨seed, List.mem_range.mp (List.mem_reverse.mp hseed), heq.symm⟩

end Best

/-! ### Distances of poses -/

theorem rotationDistance_self (a : Isometry3d) : rotationDistance a.linear a.linear = 0 := by
  have htrace : (a.linearᵀ * a.linear).trace * (1 / 2) - 1 / 2 = 1 := by
    rw [a.rigid.transpose_mul, trace_one, Fintype.card_fin]
    norm_num
  unfold rotationDistance
  rw [htrace, min_self, max_eq_right (by norm_num), Real.arccos_one]

theorem rotationDistance_comm (a b : Matrix (Fin 3) (Fin 3) ℝ) :
    rotationDistance a b = rotationDistance b a := by
  have htrace : (aᵀ * b).trace = (bᵀ * a).trace := by
    rw [← trace_transpose, transpose_mul, transpose_transpose]
  unfold rotationDistance
  rw [htrace]

section Poses

variable {poses : List Isometry3d} {translationToleranceM rotationToleranceRad : ℝ} {k : ℕ}

theorem poseDistance_self (i : ℕ) :
    poseDistance poses translationToleranceM rotationToleranceRad i i = 0 := by
  unfold poseDistance normalizedPoseDistance
  rw [sub_self, norm3_zero, rotationDistance_self, zero_div, zero_div, max_self]

theorem poseDistance_comm (i j : ℕ) :
    poseDistance poses translationToleranceM rotationToleranceRad i j =
      poseDistance poses translationToleranceM rotationToleranceRad j i := by
  unfold poseDistance normalizedPoseDistance
  rw [norm3_sub_comm, rotationDistance_comm]

/-- Poses of the list, every two of them within the tolerances. -/
abbrev ConsistentPoses (poses : List Isometry3d) (translationToleranceM rotationToleranceRad : ℝ)
    (S : Finset ℕ) : Prop :=
  IsConsistent (poseDistance poses translationToleranceM rotationToleranceRad) 1 poses.length S

variable (poses) (htranslation : 0 < translationToleranceM) (hrotation : 0 < rotationToleranceRad)
  (hk : 0 < k)
include htranslation hrotation hk

/-- What is returned is the cluster of some seed in ascending order, and as long as that of any. -/
theorem tightestConsistentPoseCluster_cases :
    poses = [] ∧ tightestConsistentPoseCluster poses k translationToleranceM
        rotationToleranceRad = [] ∨
      let distance := poseDistance poses translationToleranceM rotationToleranceRad
      (∃ seed < poses.length, (tightestConsistentPoseCluster poses k translationToleranceM
        rotationToleranceRad).Perm (seedCluster distance 1 poses.length k seed)) ∧
      ∀ seed < poses.length, (seedCluster distance 1 poses.length k seed).length ≤
        (tightestConsistentPoseCluster poses k translationToleranceM
          rotationToleranceRad).length := by
  unfold tightestConsistentPoseCluster
  split_ifs with hempty
  · refine Or.inl ⟨?_, rfl⟩
    rcases hempty with h | h | h | h
    · exact absurd h hk.ne'
    · exact h
    · exact absurd htranslation (not_lt.mpr h)
    · exact absurd hrotation (not_lt.mpr h)
  · have hpos : 0 < poses.length := List.length_pos_iff.mpr fun h => hempty (Or.inr (Or.inl h))
    obtain ⟨⟨seed, hseed, heq⟩, hall⟩ := @bestCluster_spec
      (poseDistance poses translationToleranceM rotationToleranceRad) poses.length k hpos
    refine Or.inr ⟨⟨seed, hseed, ?_⟩, fun s hs => ?_⟩
    · rw [← heq]
      exact List.perm_insertionSort _ _
    · rw [List.length_insertionSort]
      exact hall s hs

/-- The members of what is returned, and its order. -/
theorem sound_tightestConsistentPoseCluster :
    let cluster := tightestConsistentPoseCluster poses k translationToleranceM rotationToleranceRad
    cluster.Pairwise (· < ·) ∧ cluster.length ≤ k ∧
      ConsistentPoses poses translationToleranceM rotationToleranceRad cluster.toFinset := by
  intro cluster
  have hsorted : cluster.Pairwise (· ≤ ·) := by
    unfold cluster tightestConsistentPoseCluster
    split_ifs
    · exact List.Pairwise.nil
    · exact List.pairwise_insertionSort _ _
  rcases tightestConsistentPoseCluster_cases poses htranslation hrotation hk with
    ⟨-, hnil⟩ | ⟨⟨seed, hseed, hperm⟩, -⟩
  · rw [show cluster = [] from hnil]
    exact ⟨List.Pairwise.nil, Nat.zero_le k, fun i hi => by simp at hi, fun i hi => by simp at hi⟩
  · have hnodup : cluster.Nodup := hperm.nodup_iff.mpr nodup_seedCluster
    refine ⟨(hsorted.and hnodup).imp fun h => lt_of_le_of_ne h.1 h.2, ?_, ?_⟩
    · rw [hperm.length_eq]
      exact length_seedCluster_le hk
    · rw [List.toFinset_eq_of_perm _ _ hperm]
      exact isConsistent_seedCluster (fun i => (poseDistance_self i).trans_le zero_le_one)
        poseDistance_comm

/-- Nothing fits what is returned when it has fewer than `k` poses. -/
theorem maximal_tightestConsistentPoseCluster
    (hshort : (tightestConsistentPoseCluster poses k translationToleranceM
      rotationToleranceRad).length < k) :
    Maximal (ConsistentPoses poses translationToleranceM rotationToleranceRad)
      (tightestConsistentPoseCluster poses k translationToleranceM
        rotationToleranceRad).toFinset := by
  rcases tightestConsistentPoseCluster_cases poses htranslation hrotation hk with
    ⟨hempty, hnil⟩ | ⟨⟨seed, hseed, hperm⟩, -⟩
  · rw [hnil]
    refine ⟨⟨fun i hi => by simp at hi, fun i hi => by simp at hi⟩, fun T hT _ i hi => ?_⟩
    have hlt := hT.1 i hi
    rw [hempty] at hlt
    exact absurd hlt (Nat.not_lt_zero i)
  · rw [List.toFinset_eq_of_perm _ _ hperm]
    rw [hperm.length_eq] at hshort
    exact (maximal_seedCluster (fun i => (poseDistance_self i).trans_le zero_le_one)
      poseDistance_comm hseed hshort).1

/-- A pose that is in no maximal consistent set of fewer than `k` poses leads to `k` of them. -/
theorem length_of_maximal {p : ℕ} (hp : p < poses.length)
    (hlarge : ∀ S, Maximal (ConsistentPoses poses translationToleranceM rotationToleranceRad) S →
      p ∈ S → k ≤ S.card) :
    (tightestConsistentPoseCluster poses k translationToleranceM rotationToleranceRad).length =
      k := by
  have hmost := (sound_tightestConsistentPoseCluster poses htranslation hrotation hk).2.1
  rcases tightestConsistentPoseCluster_cases poses htranslation hrotation hk with
    ⟨hempty, -⟩ | ⟨-, hall⟩
  · rw [hempty] at hp
    exact absurd hp (Nat.not_lt_zero p)
  · refine le_antisymm hmost ((le_of_not_gt fun hshort => ?_).trans (hall p hp))
    obtain ⟨hmaximal, hmem⟩ := maximal_seedCluster
      (fun i => (poseDistance_self i).trans_le zero_le_one) poseDistance_comm hp hshort
    have hcard := (hlarge _ hmaximal (List.mem_toFinset.mpr hmem)).trans (List.toFinset_card_le _)
    exact absurd hcard (not_le.mpr hshort)

/-- Consistent poses that nothing as near as they are gets between are found. -/
theorem length_of_near {C : Finset ℕ}
    (hC : ConsistentPoses poses translationToleranceM rotationToleranceRad C) (hcard : C.card = k)
    {seed : ℕ} (hseed : seed ∈ C)
    (hnear : ∀ i < poses.length, ∀ c ∈ C,
      poseDistance poses translationToleranceM rotationToleranceRad seed i ≤
        poseDistance poses translationToleranceM rotationToleranceRad seed c →
      ∀ c ∈ C, poseDistance poses translationToleranceM rotationToleranceRad i c ≤ 1) :
    (tightestConsistentPoseCluster poses k translationToleranceM rotationToleranceRad).length =
      k := by
  have hmost := (sound_tightestConsistentPoseCluster poses htranslation hrotation hk).2.1
  have hlt := hC.1 seed hseed
  rcases tightestConsistentPoseCluster_cases poses htranslation hrotation hk with
    ⟨hempty, -⟩ | ⟨-, hall⟩
  · rw [hempty] at hlt
    exact absurd hlt (Nat.not_lt_zero seed)
  · refine le_antisymm hmost (le_trans (le_of_eq ?_) (hall seed hlt))
    exact (length_seedCluster_of_near hC hk hcard hseed hnear).symm

/-- Two consistent poses are always found. -/
theorem length_of_le_two (htwo : k ≤ 2) {C : Finset ℕ}
    (hC : ConsistentPoses poses translationToleranceM rotationToleranceRad C) (hcard : C.card = k) :
    (tightestConsistentPoseCluster poses k translationToleranceM rotationToleranceRad).length =
      k := by
  obtain ⟨p, hp⟩ := Finset.card_pos.mp (hcard ▸ hk)
  refine length_of_maximal poses htranslation hrotation hk (hC.1 p hp) fun S hS hpS => ?_
  by_contra hshort
  have hone : S = {p} := by
    refine Finset.eq_singleton_iff_unique_mem.mpr ⟨hpS, fun q hq => ?_⟩
    exact Finset.card_le_one.mp (by omega) q hq p hpS
  have hsubset : C ⊆ S := hS.2 hC (by
    rw [hone]
    exact Finset.singleton_subset_iff.mpr hp)
  have := Finset.card_le_card hsubset
  omega

end Poses

/-! ### A cluster that is missed -/

section Congr

variable {K K' : Type} [LinearOrder K] [LinearOrder K'] {distance : ℕ → ℕ → K}
  {distance' : ℕ → ℕ → K'} {limit : K} {limit' : K'}
  (hlimit : ∀ i j, distance i j ≤ limit ↔ distance' i j ≤ limit')
  (horder : ∀ s i j, distance s i < distance s j ↔ distance' s i < distance' s j)
include hlimit horder

/-- Only the order of the distances decides. -/
theorem seedCluster_congr (count k seed : ℕ) :
    seedCluster distance limit count k seed = seedCluster distance' limit' count k seed := by
  have hranks : ∀ i j, ranksBefore distance seed i j = ranksBefore distance' seed i j := by
    intro i j
    have hne : distance seed i ≠ distance seed j ↔ distance' seed i ≠ distance' seed j := by
      rw [ne_iff_lt_or_gt, ne_iff_lt_or_gt]
      exact or_congr (horder seed i j) (horder seed j i)
    simp only [ranksBefore, hne, horder]
  have hranked : rankedIndices distance limit count seed =
      rankedIndices distance' limit' count seed := by
    simp only [rankedIndices, hlimit, hranks]
  have hgrow : ∀ cluster ranked, growCluster distance limit k cluster ranked =
      growCluster distance' limit' k cluster ranked := by
    intro cluster ranked
    induction ranked generalizing cluster with
    | nil => rfl
    | cons index ranked ih => simp only [growCluster, hlimit, ih]
  rw [seedCluster, seedCluster, hranked, hgrow]

end Congr

/-- **The cluster that is returned** is consistent and has at most `k` poses; with fewer nothing
fits it.  It has `k` when a pose is in no maximal consistent set of fewer, when `k` is at most two
and there are `k` consistent poses, and when there are and from one of them nothing as near as they
are gets between. -/
theorem cluster_complete {poses : List Isometry3d} {k : ℕ}
    {translationToleranceM rotationToleranceRad : ℝ} (htranslation : 0 < translationToleranceM)
    (hrotation : 0 < rotationToleranceRad) (hk : 0 < k) :
    let distance := poseDistance poses translationToleranceM rotationToleranceRad
    let consistent := ConsistentPoses poses translationToleranceM rotationToleranceRad
    let cluster := tightestConsistentPoseCluster poses k translationToleranceM rotationToleranceRad
    (cluster.Pairwise (· < ·) ∧ (∀ i ∈ cluster, i < poses.length) ∧ cluster.length ≤ k ∧
        ∀ i ∈ cluster, ∀ j ∈ cluster, distance i j ≤ 1) ∧
      (cluster.length < k → Maximal consistent cluster.toFinset) ∧
      ((∃ p < poses.length, ∀ S, Maximal consistent S → p ∈ S → k ≤ S.card) →
        cluster.length = k) ∧
      (k ≤ 2 → ∀ C, consistent C → C.card = k → cluster.length = k) ∧
      ∀ C, consistent C → C.card = k →
        (∃ seed ∈ C, ∀ i < poses.length, ∀ c ∈ C, distance seed i ≤ distance seed c →
          ∀ c ∈ C, distance i c ≤ 1) →
        cluster.length = k := by
  intro distance consistent cluster
  obtain ⟨hascending, hmost, hrange, hpairs⟩ :=
    sound_tightestConsistentPoseCluster poses htranslation hrotation hk
  refine ⟨⟨hascending, fun i hi => hrange i (List.mem_toFinset.mpr hi), hmost, fun i hi j hj =>
      hpairs i (List.mem_toFinset.mpr hi) j (List.mem_toFinset.mpr hj)⟩,
    maximal_tightestConsistentPoseCluster poses htranslation hrotation hk, ?_, ?_, ?_⟩
  · rintro ⟨p, hp, hlarge⟩
    exact length_of_maximal poses htranslation hrotation hk hp hlarge
  · exact fun htwo C hC hcard => length_of_le_two poses htranslation hrotation hk htwo hC hcard
  · rintro C hC hcard ⟨seed, hseed, hnear⟩
    exact length_of_near poses htranslation hrotation hk hC hcard hseed hnear

/-- A level pose over a point of the plane. -/
noncomputable def planePose (point : ℤ × ℤ) : Isometry3d := poseTransform ![point.1, point.2, 0] 1

/-- A triangle with the sides 3, 4 and 5, and outside of each corner a pose near it. -/
def decoyPoints : List (ℤ × ℤ) := [(0, 0), (3, 0), (0, 4), (-2, -2), (5, -1), (-1, 6)]

noncomputable def decoyPoses : List Isometry3d := decoyPoints.map planePose

/-- The square of the distance of two of the points. -/
def squaredDistance (i j : ℕ) : ℤ :=
  let p := decoyPoints.getD i (0, 0)
  let q := decoyPoints.getD j (0, 0)
  (p.1 - q.1) ^ 2 + (p.2 - q.2) ^ 2

theorem poseDistance_decoyPoses (i j : ℕ) :
    poseDistance decoyPoses 5 1 i j = √(squaredDistance i j : ℝ) / 5 := by
  have hpose : ∀ i, decoyPoses.getD i identityPose = planePose (decoyPoints.getD i (0, 0)) := by
    intro i
    have hidentity : identityPose = planePose (0, 0) := by
      unfold identityPose planePose
      refine congrArg (poseTransform · 1) ?_
      ext a
      fin_cases a <;> simp
    rw [decoyPoses, hidentity, List.getD_map]
  have hnorm : ∀ p q : ℤ × ℤ, norm3 ((planePose p).translation - (planePose q).translation) =
      √(((p.1 - q.1) ^ 2 + (p.2 - q.2) ^ 2 : ℤ) : ℝ) := by
    intro p q
    unfold norm3
    refine congrArg Real.sqrt ?_
    simp [planePose, poseTransform, dotProduct, Fin.sum_univ_three]
    ring
  have hrotation : ∀ p q : ℤ × ℤ, rotationDistance (planePose p).linear (planePose q).linear = 0 :=
    fun p q => rotationDistance_self (planePose p)
  rw [poseDistance, normalizedPoseDistance, hpose, hpose, hnorm, hrotation, zero_div]
  exact max_eq_left (div_nonneg (Real.sqrt_nonneg _) (by norm_num))

theorem poseDistance_decoyPoses_le (i j : ℕ) :
    poseDistance decoyPoses 5 1 i j ≤ 1 ↔ squaredDistance i j ≤ 25 := by
  rw [poseDistance_decoyPoses, div_le_one (by norm_num), Real.sqrt_le_left (by norm_num)]
  norm_cast

theorem poseDistance_decoyPoses_lt (s i j : ℕ) :
    poseDistance decoyPoses 5 1 s i < poseDistance decoyPoses 5 1 s j ↔
      squaredDistance s i < squaredDistance s j := by
  have hnonneg : (0 : ℝ) ≤ squaredDistance s i := by
    have : 0 ≤ squaredDistance s i := add_nonneg (sq_nonneg _) (sq_nonneg _)
    exact_mod_cast this
  rw [poseDistance_decoyPoses, poseDistance_decoyPoses, div_lt_div_iff_of_pos_right (by norm_num),
    Real.sqrt_lt_sqrt_iff hnonneg]
  norm_cast

/-- Two corners of the triangle are found. -/
theorem cluster_complete_pair : (tightestConsistentPoseCluster decoyPoses 2 5 1).length = 2 := by
  refine (cluster_complete (by norm_num : (0 : ℝ) < 5) one_pos (by norm_num : 0 < 2)).2.2.2.1 le_rfl
    {0, 1} ⟨by decide, fun i hi j hj => ?_⟩ rfl
  rw [poseDistance_decoyPoses_le]
  revert i j
  decide

/-- The corners of the triangle are consistent, and fewer than three poses are returned. -/
theorem triangle_missed :
    ConsistentPoses decoyPoses 5 1 {0, 1, 2} ∧ ({0, 1, 2} : Finset ℕ).card = 3 ∧
      (tightestConsistentPoseCluster decoyPoses 3 5 1).length < 3 := by
  refine ⟨⟨by decide, fun i hi j hj => ?_⟩, rfl, ?_⟩
  · rw [poseDistance_decoyPoses_le]
    revert i j
    decide
  · rcases tightestConsistentPoseCluster_cases decoyPoses (by norm_num : (0 : ℝ) < 5) one_pos
      (by norm_num : 0 < 3) with ⟨-, hnil⟩ | ⟨⟨seed, hseed, hperm⟩, -⟩
    · rw [hnil]
      decide
    · rw [hperm.length_eq, seedCluster_congr poseDistance_decoyPoses_le poseDistance_decoyPoses_lt]
      have hshort : ∀ seed < 6, (seedCluster squaredDistance 25 6 3 seed).length < 3 := by
        decide +kernel
      exact hshort seed hseed

end RobotCore
