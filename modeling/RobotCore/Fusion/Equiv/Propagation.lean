import Mathlib.Algebra.Order.Star.Real
import RobotCore.Fusion.Propagation

/-!
# Correctness of the propagated covariance

The two Jacobians are the first-order law of `T_map_odom = T_map_base * T_odom_base⁻¹`: a motion
with dual coefficients is the perturbation of `T_map_odom` by a 6-vector exactly when that vector is
what the Jacobians make of the perturbations of the two poses (`perturbFixedAxes_eq_iff`).  The
covariance is propagated with them, and stays symmetric and positive semidefinite.
-/

namespace RobotCore

open Matrix JointCovariance RigidMotion

/-- The pose turned and shifted in its fixed axes by `ε δ`, a translation and a rotation vector. -/
def perturbFixedAxes (pose : Isometry3d) (δ : Fin 6 → ℝ) : Motion (DualNumber ℝ) :=
  perturb pose.toMotion (head3 δ) (tail3 δ)

theorem blocks6_mulVec (A B C D : Matrix (Fin 3) (Fin 3) ℝ) (δ : Fin 6 → ℝ) :
    head3 (blocks6 A B C D *ᵥ δ) = A *ᵥ head3 δ + B *ᵥ tail3 δ ∧
      tail3 (blocks6 A B C D *ᵥ δ) = C *ᵥ head3 δ + D *ᵥ tail3 δ := by
  have hblocks : ∀ x, (blocks6 A B C D *ᵥ δ) (splitRows.symm x) =
      (fromBlocks A B C D *ᵥ Sum.elim (head3 δ) (tail3 δ)) x := by
    intro x
    rw [blocks6, submatrix_mulVec_equiv, Function.comp_apply, Equiv.apply_symm_apply]
    refine congrArg (fun v => (fromBlocks A B C D *ᵥ v) x) (funext fun y => ?_)
    cases y <;> rfl
  constructor
  · ext i
    exact (hblocks (Sum.inl i)).trans (by rw [fromBlocks_mulVec]; rfl)
  · ext i
    exact (hblocks (Sum.inr i)).trans (by rw [fromBlocks_mulVec]; rfl)

theorem head3_tail3_ext {δ δ' : Fin 6 → ℝ} (hhead : head3 δ = head3 δ')
    (htail : tail3 δ = tail3 δ') : δ = δ' := by
  ext i
  obtain ⟨j | j, rfl⟩ := splitRows.symm.surjective i
  · exact congrFun hhead j
  · exact congrFun htail j

/-- The Jacobians are the derivative of the quotient, in both perturbations together. -/
theorem perturbFixedAxes_eq_iff (mapFromBase odomFromBase : Isometry3d) (δ₁ δ₂ δ : Fin 6 → ℝ) :
    let mapFromOdom := mapFromBase.mul odomFromBase.inverse
    (perturbFixedAxes mapFromBase δ₁).mul (perturbFixedAxes odomFromBase δ₂).inverse =
        perturbFixedAxes mapFromOdom δ ↔
      δ = mapFromBaseJacobian mapFromOdom odomFromBase *ᵥ δ₁ +
        odomFromBaseJacobian mapFromOdom odomFromBase *ᵥ δ₂ := by
  intro mapFromOdom
  have hquotient := perturb_mul_inverse mapFromBase.rigid odomFromBase.rigid (head3 δ₁) (tail3 δ₁)
    (head3 δ₂) (tail3 δ₂)
  obtain ⟨hJhead, hJtail⟩ := blocks6_mulVec 1
    (skew (mapFromOdom.linear *ᵥ odomFromBase.translation)) 0 1 δ₁
  obtain ⟨hKhead, hKtail⟩ := blocks6_mulVec (-mapFromOdom.linear)
    (-mapFromOdom.linear * skew odomFromBase.translation) 0 (-mapFromOdom.linear) δ₂
  set δ' := mapFromBaseJacobian mapFromOdom odomFromBase *ᵥ δ₁ +
    odomFromBaseJacobian mapFromOdom odomFromBase *ᵥ δ₂ with hδ'
  have hhead : head3 δ' = head3 δ₁ + skew (mapFromOdom.linear *ᵥ odomFromBase.translation) *ᵥ
      tail3 δ₁ - mapFromOdom.linear *ᵥ head3 δ₂ -
        mapFromOdom.linear *ᵥ skew odomFromBase.translation *ᵥ tail3 δ₂ := by
    change head3 (mapFromBaseJacobian mapFromOdom odomFromBase *ᵥ δ₁) +
      head3 (odomFromBaseJacobian mapFromOdom odomFromBase *ᵥ δ₂) = _
    rw [mapFromBaseJacobian, odomFromBaseJacobian, hJhead, hKhead, one_mulVec, neg_mulVec,
      ← mulVec_mulVec, neg_mulVec]
    abel
  have htail : tail3 δ' = tail3 δ₁ - mapFromOdom.linear *ᵥ tail3 δ₂ := by
    change tail3 (mapFromBaseJacobian mapFromOdom odomFromBase *ᵥ δ₁) +
      tail3 (odomFromBaseJacobian mapFromOdom odomFromBase *ᵥ δ₂) = _
    rw [mapFromBaseJacobian, odomFromBaseJacobian, hJtail, hKtail, one_mulVec, neg_mulVec,
      zero_mulVec, zero_mulVec]
    abel
  have hperturbed : (perturbFixedAxes mapFromBase δ₁).mul
      (perturbFixedAxes odomFromBase δ₂).inverse = perturbFixedAxes mapFromOdom δ' := by
    refine hquotient.trans ?_
    rw [perturbFixedAxes, hhead, htail]
    rfl
  rw [hperturbed]
  refine (perturb_inj mapFromOdom.rigid).trans ⟨fun h => ?_, fun h => ?_⟩
  · exact (head3_tail3_ext h.1 h.2).symm
  · rw [h]
    exact ⟨rfl, rfl⟩

/-! ### The propagated covariance -/

theorem symmetrizedCovariance_eq {n : ℕ} {M : FixedCovariance n} (h : M.IsHermitian) :
    symmetrizedCovariance M = M := by
  rw [symmetrizedCovariance, transpose_of_isHermitian h, ← two_smul ℝ, smul_smul]
  norm_num

theorem posSemidef_mul_mul_transpose {n : ℕ} {P : FixedCovariance n} (h : P.PosSemidef)
    (A : FixedCovariance n) : (A * P * Aᵀ).PosSemidef := by
  simpa only [conjTranspose_eq_transpose_of_trivial] using h.mul_mul_conjTranspose_same A

/-- **The first-order law.**  A 6-vector is the fixed-axis error of `T_map_base * T_odom_base⁻¹`
under perturbations of the two poses exactly when it is what the two Jacobians make of them, and the
covariance of a candidate is `J P Jᵀ + K Q Kᵀ`, symmetric and positive semidefinite. -/
theorem alignmentCandidateCovariance_firstOrder (mapFromBase odomFromBase : Isometry3d) :
    let mapFromOdom := mapFromBase.mul odomFromBase.inverse
    let J := mapFromBaseJacobian mapFromOdom odomFromBase
    let K := odomFromBaseJacobian mapFromOdom odomFromBase
    (∀ δ₁ δ₂ δ : Fin 6 → ℝ,
      (perturbFixedAxes mapFromBase δ₁).mul (perturbFixedAxes odomFromBase δ₂).inverse =
          perturbFixedAxes mapFromOdom δ ↔
        δ = J *ᵥ δ₁ + K *ᵥ δ₂) ∧
    ∀ P Q : FixedCovariance 6, P.PosSemidef → Q.PosSemidef →
      let covariance := alignmentCandidateCovariance P Q odomFromBase mapFromOdom
      covariance = J * P * Jᵀ + K * Q * Kᵀ ∧ covariance.IsSymm ∧ covariance.PosSemidef := by
  intro mapFromOdom J K
  refine ⟨perturbFixedAxes_eq_iff mapFromBase odomFromBase, ?_⟩
  intro P Q hP hQ covariance
  have hsum : (J * P * Jᵀ + K * Q * Kᵀ).PosSemidef :=
    (posSemidef_mul_mul_transpose hP J).add (posSemidef_mul_mul_transpose hQ K)
  have heq : covariance = J * P * Jᵀ + K * Q * Kᵀ := symmetrizedCovariance_eq hsum.isHermitian
  refine ⟨heq, ?_, heq ▸ hsum⟩
  rw [heq]
  exact transpose_of_isHermitian hsum.isHermitian

/-- Two poses apart, one of them turned half round, with unit covariances. -/
theorem alignmentCandidateCovariance_firstOrder_apart :
    let mapFromBase := poseTransform ![1, 2, 3] 1
    let odomFromBase := poseTransform ![4, 0, -1] ⟨0, 0, 0, 1⟩
    let mapFromOdom := mapFromBase.mul odomFromBase.inverse
    let J := mapFromBaseJacobian mapFromOdom odomFromBase
    let K := odomFromBaseJacobian mapFromOdom odomFromBase
    alignmentCandidateCovariance 1 1 odomFromBase mapFromOdom = J * 1 * Jᵀ + K * 1 * Kᵀ ∧
      (alignmentCandidateCovariance 1 1 odomFromBase mapFromOdom).PosSemidef := by
  intro mapFromBase odomFromBase mapFromOdom J K
  obtain ⟨heq, -, hpos⟩ := (alignmentCandidateCovariance_firstOrder mapFromBase odomFromBase).2 1 1
    PosSemidef.one PosSemidef.one
  exact ⟨heq, hpos⟩

end RobotCore
