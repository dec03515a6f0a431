import RobotCore.Fusion.Establish
import RobotCore.Fusion.Equiv.Propagation

/-!
# Covariances under unknown correlation

`covariance_sum_with_unknown_correlation` bounds the covariance of a sum of two errors, and the
average of the reported covariances in `establish_alignment` that of a mean, for every joint
covariance with the reported ones as marginals.  The scatter of the candidates that is added to the
average only enlarges it.
-/

namespace RobotCore

open Matrix JointCovariance

/-! ### The accumulated covariance -/

/-- The average of the reported covariances, as the loop accumulates it. -/
noncomputable def averageCovariance (candidates : List MatrixCandidate) : FixedCovariance 6 :=
  symmetrizedCovariance (candidates.foldl (addReported candidates.length) 0)

/-- The scatter of the candidates, as the loop accumulates it. -/
noncomputable def scatterCovariance (R : EigenRotations) (candidates : List MatrixCandidate)
    (mean : Isometry3d) : FixedCovariance 6 :=
  symmetrizedCovariance (candidates.foldl (addScatter R candidates.length mean) 0)

variable {R : EigenRotations} {candidates : List MatrixCandidate} {mean : Isometry3d}

theorem symmetrizedCovariance_add {n : ℕ} (M N : FixedCovariance n) :
    symmetrizedCovariance (M + N) = symmetrizedCovariance M + symmetrizedCovariance N := by
  unfold symmetrizedCovariance
  rw [transpose_add]
  module

theorem posSemidef_symmetrizedCovariance {n : ℕ} {M : FixedCovariance n} (h : M.PosSemidef) :
    (symmetrizedCovariance M).PosSemidef := by
  rwa [symmetrizedCovariance_eq h.isHermitian]

theorem foldl_addReported (count : ℝ) (covariance : FixedCovariance 6) :
    candidates.foldl (addReported count) covariance =
      covariance + (candidates.map fun c => count⁻¹ • c.covariance).sum := by
  induction candidates generalizing covariance with
  | nil => simp
  | cons c candidates ih => rw [List.foldl_cons, ih, List.map_cons, List.sum_cons, addReported,
      add_assoc]

theorem foldl_addScatter (count : ℝ) (covariance : FixedCovariance 6) :
    candidates.foldl (addScatter R count mean) covariance =
      covariance + (candidates.map fun c => (count - 1)⁻¹ •
        vecMulVec (candidateResidual R mean c) (candidateResidual R mean c)).sum := by
  induction candidates generalizing covariance with
  | nil => simp
  | cons c candidates ih => rw [List.foldl_cons, ih, List.map_cons, List.sum_cons, addScatter,
      add_assoc]

/-- The loop accumulates the two parts together. -/
theorem establishedCovariance_eq :
    establishedCovariance R candidates mean =
      averageCovariance candidates + scatterCovariance R candidates mean := by
  have hloop : ∀ (cs : List MatrixCandidate) (count : ℝ) (M N : FixedCovariance 6),
      cs.foldl (fun covariance c => addScatter R count mean (addReported count covariance c) c)
          (M + N) =
        cs.foldl (addReported count) M + cs.foldl (addScatter R count mean) N := by
    intro cs count
    induction cs with
    | nil => intro M N; rfl
    | cons c cs ih =>
      intro M N
      rw [List.foldl_cons, List.foldl_cons, List.foldl_cons, ← ih]
      congr 1
      unfold addScatter addReported
      rw [add_assoc (M + N)]
      exact add_add_add_comm M N _ _
  rw [establishedCovariance, averageCovariance, scatterCovariance, ← symmetrizedCovariance_add,
    ← hloop, add_zero]

theorem posSemidef_list_sum {n : ℕ} {l : List (FixedCovariance n)}
    (h : ∀ M ∈ l, M.PosSemidef) : l.sum.PosSemidef := by
  induction l with
  | nil => exact PosSemidef.zero
  | cons M l ih =>
    rw [List.sum_cons]
    exact (h M List.mem_cons_self).add (ih fun N hN => h N (List.mem_cons_of_mem _ hN))

theorem posSemidef_scatterCovariance (R : EigenRotations) (mean : Isometry3d)
    (hlength : 1 ≤ candidates.length) :
    (scatterCovariance R candidates mean).PosSemidef := by
  have hcount : (0 : ℝ) ≤ ((candidates.length : ℝ) - 1)⁻¹ :=
    inv_nonneg.mpr (sub_nonneg.mpr (by exact_mod_cast hlength))
  refine posSemidef_symmetrizedCovariance ?_
  rw [foldl_addScatter, zero_add]
  refine posSemidef_list_sum fun M hM => ?_
  obtain ⟨c, -, rfl⟩ := List.mem_map.mp hM
  have hsquare := posSemidef_vecMulVec_self_star (candidateResidual R mean c)
  rw [star_trivial] at hsquare
  exact hsquare.smul hcount

/-- The average is that of the marginals. -/
theorem averageCovariance_eq {S : Matrix (Fin candidates.length × Fin 6) (Fin candidates.length ×
    Fin 6) ℝ} (hS : S.PosSemidef) (hmarginal : ∀ i, marginal S i = (candidates.get i).covariance) :
    averageCovariance candidates = ∑ i, (candidates.length : ℝ)⁻¹ • marginal S i := by
  have hpos : (∑ i, (candidates.length : ℝ)⁻¹ • marginal S i).PosSemidef :=
    posSemidef_sum _ fun i _ => (hS.submatrix _).smul (inv_nonneg.mpr (Nat.cast_nonneg _))
  rw [averageCovariance, foldl_addReported, zero_add, ← symmetrizedCovariance_eq hpos.isHermitian]
  congr 1
  simp only [hmarginal]
  rw [← List.sum_ofFn]
  congr 1
  exact (List.ofFn_getElem_eq_map candidates _).symm

/-! ### The bounds -/

theorem isSymm_of_posSemidef {n : ℕ} {M : FixedCovariance n} (h : M.PosSemidef) : M.IsSymm :=
  transpose_of_isHermitian h.isHermitian

section Bounds

variable {S : Matrix (Fin candidates.length × Fin 6) (Fin candidates.length × Fin 6) ℝ}

theorem averageCovariance_bounds (hlength : 1 ≤ candidates.length) (hS : S.PosSemidef)
    (hmarginal : ∀ i, marginal S i = (candidates.get i).covariance) :
    (averageCovariance candidates - meanCovariance S).PosSemidef ∧
      (averageCovariance candidates).PosSemidef := by
  have : Nonempty (Fin candidates.length) := ⟨⟨0, hlength⟩⟩
  rw [averageCovariance_eq hS hmarginal]
  have hmean := posSemidef_average_sub_mean hS
  rw [Fintype.card_fin] at hmean
  exact ⟨hmean, posSemidef_sum _ fun i _ =>
    (hS.submatrix _).smul (inv_nonneg.mpr (Nat.cast_nonneg _))⟩

theorem establishedCovariance_bounds (R : EigenRotations) (mean : Isometry3d)
    (hlength : 1 ≤ candidates.length) (hS : S.PosSemidef)
    (hmarginal : ∀ i, marginal S i = (candidates.get i).covariance) :
    (establishedCovariance R candidates mean - meanCovariance S).PosSemidef ∧
      (establishedCovariance R candidates mean).PosSemidef := by
  obtain ⟨hmean, hpos⟩ := averageCovariance_bounds hlength hS hmarginal
  have hscatter := posSemidef_scatterCovariance R mean hlength
  rw [establishedCovariance_eq, add_sub_right_comm]
  exact ⟨hmean.add hscatter, hpos.add hscatter⟩

/-- What `establish_alignment` keeps bounds the covariance of the mean of the errors. -/
theorem establishAlignment_bounds {alignment : Isometry3d × FixedCovariance 6}
    (h : establishAlignment R candidates = some alignment) (hS : S.PosSemidef)
    (hmarginal : ∀ i, marginal S i = (candidates.get i).covariance) :
    (alignment.2 - meanCovariance S).PosSemidef ∧ alignment.2.PosSemidef := by
  cases candidates with
  | nil => exact absurd h (by simp [establishAlignment])
  | cons first rest =>
    have heq : (meanPose R (first :: rest) first, establishedCovariance R (first :: rest)
        (meanPose R (first :: rest) first)) = alignment := by
      rw [establishAlignment] at h
      split at h
      · exact Option.some.inj h
      · cases h
    rw [← heq]
    exact establishedCovariance_bounds R _ (by simp) hS hmarginal

end Bounds

/-- **Unknown correlation.**  For every joint covariance of two errors the bound of their sum holds,
and for every joint covariance of the errors of the candidates, with the reported covariances as
marginals, the accumulated average bounds the covariance of their mean.  So does, for the two
candidates or more that the source requires, the average with the scatter added, and with it what
`establish_alignment` keeps. -/
theorem covariance_bounds_of_unknown_correlation :
    (∀ (n : ℕ) (P X Q : FixedCovariance n), IsJoint P X Q →
      let bound := covarianceSumWithUnknownCorrelation P Q
      (bound - (P + X + (Xᵀ + Q))).PosSemidef ∧ bound.IsSymm ∧ bound.PosSemidef) ∧
    ∀ (candidates : List MatrixCandidate)
      (S : Matrix (Fin candidates.length × Fin 6) (Fin candidates.length × Fin 6) ℝ),
      1 ≤ candidates.length → S.PosSemidef →
      (∀ i, marginal S i = (candidates.get i).covariance) →
      let average := averageCovariance candidates
      ((average - meanCovariance S).PosSemidef ∧ average.IsSymm ∧ average.PosSemidef) ∧
        ∀ (R : EigenRotations) (mean : Isometry3d), 2 ≤ candidates.length →
          let established := establishedCovariance R candidates mean
          ((established - meanCovariance S).PosSemidef ∧ established.IsSymm ∧
            established.PosSemidef) ∧
          ∀ alignment, establishAlignment R candidates = some alignment →
            (alignment.2 - meanCovariance S).PosSemidef ∧ alignment.2.PosSemidef := by
  constructor
  · intro n P X Q h bound
    have hpos : ((2 : ℝ) • (P + Q)).PosSemidef := (h.left.add h.right).smul zero_le_two
    have hbound : bound = (2 : ℝ) • (P + Q) := symmetrizedCovariance_eq hpos.isHermitian
    rw [hbound]
    exact ⟨posSemidef_two_smul_sub_sum h, isSymm_of_posSemidef hpos, hpos⟩
  · intro candidates S hlength hS hmarginal average
    obtain ⟨hmean, hpos⟩ := averageCovariance_bounds hlength hS hmarginal
    refine ⟨⟨hmean, isSymm_of_posSemidef hpos, hpos⟩, ?_⟩
    intro R mean _ established
    obtain ⟨hbound, hkept⟩ := establishedCovariance_bounds R mean hlength hS hmarginal
    exact ⟨⟨hbound, isSymm_of_posSemidef hkept, hkept⟩, fun alignment h =>
      establishAlignment_bounds h hS hmarginal⟩

/-- The joint covariance of two errors that are one and the same. -/
theorem isJoint_same : IsJoint (1 : FixedCovariance 6) (1 : FixedCovariance 6) 1 := by
  rw [isJoint_iff isHermitian_one isHermitian_one]
  intro x y
  have hsum := quad_nonneg (PosSemidef.one (n := Fin 6) (R := ℝ)) (x + y)
  simp only [quad, one_mulVec, add_dotProduct, dotProduct_add, dotProduct_comm y x] at hsum ⊢
  linarith

/-- Two errors that are one and the same, and two candidates that share their error. -/
theorem covariance_bounds_of_unknown_correlation_shared :
    (covarianceSumWithUnknownCorrelation (1 : FixedCovariance 6) 1 -
        (1 + 1 + (1ᵀ + 1))).PosSemidef ∧
      (averageCovariance [⟨0, poseTransform 0 1, 1⟩, ⟨1, poseTransform 0 1, 1⟩] -
        meanCovariance ((1 : FixedCovariance 6).submatrix Prod.snd Prod.snd :
          Matrix (Fin 2 × Fin 6) (Fin 2 × Fin 6) ℝ)).PosSemidef :=
  ⟨(covariance_bounds_of_unknown_correlation.1 6 1 1 1 isJoint_same).1,
    (covariance_bounds_of_unknown_correlation.2
      [⟨0, poseTransform 0 1, 1⟩, ⟨1, poseTransform 0 1, 1⟩] _ (by simp)
      (PosSemidef.one.submatrix Prod.snd) (by
        intro i
        fin_cases i <;> rfl)).1.1⟩

end RobotCore
