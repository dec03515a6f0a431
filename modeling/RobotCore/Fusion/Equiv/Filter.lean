import RobotCore.Fusion.Filter
import RobotCore.Lib.Kalman

/-!
# What an update does to its block

An update of the filter uses the rows of the optimal gain that belong to its block, scaled by one
factor when the velocity limit engages, and zero for every other row.  So the observation takes
nothing off the covariances of the other blocks, and off that of its own a part of what the
Kalman filter takes off (`updatedCovariance_apply`); without the limit it is all of it.
-/

namespace RobotCore

open Matrix JointCovariance Kalman

/-! ### The influence of an update -/

theorem boundedInfluence_mem (limit : CorrectionLimit) (correction : ErrorIndex → ℝ) :
    0 ≤ boundedInfluence limit correction ∧ boundedInfluence limit correction ≤ 1 := by
  unfold boundedInfluence
  split
  · exact ⟨zero_le_one, le_rfl⟩
  · rename_i bound
    dsimp only
    split_ifs with h
    · exact ⟨div_nonneg bound.2.le (bound.2.trans h).le,
        div_le_one_of_le₀ h.le (bound.2.trans h).le⟩
    · exact ⟨zero_le_one, le_rfl⟩

theorem boundedInfluence_eq_one {limit : CorrectionLimit} {correction : ErrorIndex → ℝ}
    (h : ¬LimitEngages limit correction) : boundedInfluence limit correction = 1 := by
  unfold boundedInfluence
  split
  · rfl
  · rename_i bound
    exact if_neg fun hlt => h ⟨bound, rfl, hlt⟩

/-- What is taken off a variance of the block is a part of what the optimal gain takes off. -/
theorem two_mul_sub_sq_nonneg {c : ℝ} (h : 0 ≤ c ∧ c ≤ 1) : 0 ≤ c + c - c * c := by
  nlinarith [h.1, h.2]

/-! ### The mean -/

theorem normalizedQuaternion_one : normalizedQuaternion 1 = 1 := by
  rw [normalizedQuaternion, norm_one, inv_one, one_smul]

theorem expQuaternion_zero : expQuaternion 0 = 1 := by
  have hone : (⟨1, 1 / 2 * 0, 1 / 2 * 0, 1 / 2 * 0⟩ : Quaternion ℝ) = 1 := by
    ext <;> simp
  have hsmall : norm3 0 < 1 / 10 ^ 10 := by
    rw [norm3_zero]
    norm_num
  calc expQuaternion 0 = normalizedQuaternion ⟨1, 1 / 2 * 0, 1 / 2 * 0, 1 / 2 * 0⟩ := if_pos hsmall
    _ = normalizedQuaternion 1 := congrArg normalizedQuaternion hone
    _ = 1 := normalizedQuaternion_one

namespace FilterState

/-- The mean of a block is the same. -/
def SameMean (s s' : FilterState) : UpdateBlock → Prop
  | .position => s'.position = s.position
  | .linearVelocity => s'.velocity = s.velocity
  | .orientation => s'.orientation = s.orientation
  | .angularVelocity => s'.angularVelocity = s.angularVelocity

/-- A correction that is zero in a block leaves its mean. -/
theorem sameMean_injectMean (s : FilterState) {correction : ErrorIndex → ℝ} {block : UpdateBlock}
    (h : segment correction block = 0) : s.SameMean (s.injectMean correction) block := by
  cases block with
  | position => exact (congrArg (s.position + ·) h).trans (add_zero _)
  | linearVelocity => exact (congrArg (s.velocity + ·) h).trans (add_zero _)
  | orientation =>
    change normalizedQuaternion
      (s.orientation * expQuaternion (segment correction .orientation)) = _
    rw [h, expQuaternion_zero, mul_one, s.orientation_normalized]
  | angularVelocity => exact (congrArg (s.angularVelocity + ·) h).trans (add_zero _)

variable (s : FilterState) (innovation : Fin 3 → ℝ) (observation : Observation)
  (measurementCovariance : FixedCovariance 3) (updateBlock : UpdateBlock) (limit : CorrectionLimit)

theorem unlimitedGain_of_ne {p : ErrorIndex} (h : p.1 ≠ updateBlock) :
    s.unlimitedGain observation measurementCovariance updateBlock p = 0 :=
  funext fun _ => if_neg h

/-- Only the matching block is corrected. -/
theorem segment_correction_of_ne {block : UpdateBlock} (h : block ≠ updateBlock) :
    segment (s.correction innovation observation measurementCovariance updateBlock limit) block =
      0 := by
  ext i
  have hrow : (s.unlimitedGain observation measurementCovariance updateBlock *ᵥ innovation)
      (block, i) = 0 := by
    rw [mulVec, s.unlimitedGain_of_ne observation measurementCovariance updateBlock h,
      zero_dotProduct]
  rw [segment, correction, Pi.smul_apply, hrow, smul_zero, Pi.zero_apply]

/-! ### The covariance -/

/-- The factor of a row of the gain. -/
noncomputable def rowFactor (p : ErrorIndex) : ℝ :=
  if p.1 = updateBlock then
    s.influence innovation observation measurementCovariance updateBlock limit
  else 0

section Covariance

variable {s measurementCovariance} (hP : s.covariance.PosSemidef)
  (hR : measurementCovariance.PosDef)
include hP hR

/-- The matrix that is decomposed is already symmetric. -/
theorem innovationCovariance_eq : s.innovationCovariance observation measurementCovariance =
    Kalman.innovationCovariance s.covariance observation measurementCovariance := by
  have hsymm : (Kalman.innovationCovariance s.covariance observation measurementCovariance)ᵀ =
      Kalman.innovationCovariance s.covariance observation measurementCovariance := by
    simpa using (posDef_innovationCovariance hP hR observation).isHermitian.eq
  change symmetrizedCovariance (Kalman.innovationCovariance _ _ _) = _
  unfold symmetrizedCovariance
  rw [hsymm]
  module

/-- The rows of the optimal gain, each with its factor. -/
theorem gain_eq : s.gain innovation observation measurementCovariance updateBlock limit =
    scaledGain s.covariance observation measurementCovariance
      (s.rowFactor innovation observation measurementCovariance updateBlock limit) := by
  ext p j
  rw [scaledGain, diagonal_mul, optimalGain, ← innovationCovariance_eq observation hP hR, gain,
    Matrix.smul_apply, unlimitedGain, blockGain, of_apply, rowFactor]
  split_ifs
  · rfl
  · rw [smul_zero, zero_mul]

theorem updatedCovariance_eq :
    s.updatedCovariance innovation observation measurementCovariance updateBlock limit =
      joseph s.covariance observation measurementCovariance
        (scaledGain s.covariance observation measurementCovariance
          (s.rowFactor innovation observation measurementCovariance updateBlock limit)) := by
  rw [← gain_eq innovation observation updateBlock limit hP hR]
  rfl

/-- Away from the block nothing is taken off a covariance. -/
theorem marginal_updatedCovariance_of_ne {block : UpdateBlock} (h : block ≠ updateBlock) :
    marginal (s.updatedCovariance innovation observation measurementCovariance updateBlock limit)
      block = marginal s.covariance block := by
  ext i j
  rw [updatedCovariance_eq innovation observation updateBlock limit hP hR]
  change joseph _ _ _ _ (block, i) (block, j) = s.covariance (block, i) (block, j)
  have hfactor : ∀ i, s.rowFactor innovation observation measurementCovariance updateBlock limit
      (block, i) = 0 := fun _ => if_neg h
  rw [joseph_scaledGain_apply hP hR, hfactor, hfactor]
  ring

/-- In the block a part of the reduction of the Kalman filter is taken off. -/
theorem marginal_updatedCovariance_self :
    let c := s.influence innovation observation measurementCovariance updateBlock limit
    marginal (s.updatedCovariance innovation observation measurementCovariance updateBlock limit)
      updateBlock = marginal s.covariance updateBlock - (c + c - c * c) •
        marginal (reduction s.covariance observation measurementCovariance) updateBlock := by
  intro c
  ext i j
  rw [updatedCovariance_eq innovation observation updateBlock limit hP hR]
  change joseph _ _ _ _ (updateBlock, i) (updateBlock, j) = _
  have hfactor : ∀ i, s.rowFactor innovation observation measurementCovariance updateBlock limit
      (updateBlock, i) = c := fun _ => if_pos rfl
  rw [joseph_scaledGain_apply hP hR, hfactor, hfactor]
  rfl

theorem posSemidef_updatedCovariance :
    (s.updatedCovariance innovation observation measurementCovariance updateBlock
      limit).PosSemidef := by
  rw [updatedCovariance_eq innovation observation updateBlock limit hP hR]
  exact posSemidef_joseph hP hR.posSemidef _ _

/-- No update knows more than the Kalman filter. -/
theorem posSemidef_updatedCovariance_sub_posterior :
    (s.updatedCovariance innovation observation measurementCovariance updateBlock limit -
      posterior s.covariance observation measurementCovariance).PosSemidef := by
  rw [updatedCovariance_eq innovation observation updateBlock limit hP hR]
  exact posSemidef_joseph_sub_posterior hP hR _ _

/-- The covariance of the block does not grow. -/
theorem posSemidef_marginal_sub_updatedCovariance :
    (marginal s.covariance updateBlock - marginal (s.updatedCovariance innovation observation
      measurementCovariance updateBlock limit) updateBlock).PosSemidef := by
  rw [marginal_updatedCovariance_self innovation observation updateBlock limit hP hR,
    sub_sub_cancel]
  exact ((posSemidef_reduction hP hR observation).submatrix _).smul
    (two_mul_sub_sq_nonneg (boundedInfluence_mem _ _))

/-- Without the limit the block has the covariance of the Kalman filter. -/
theorem marginal_updatedCovariance_of_not_limitEngages
    (h : ¬LimitEngages limit
      (s.unlimitedGain observation measurementCovariance updateBlock *ᵥ innovation)) :
    marginal (s.updatedCovariance innovation observation measurementCovariance updateBlock limit)
      updateBlock =
        marginal (posterior s.covariance observation measurementCovariance) updateBlock := by
  have hone : s.influence innovation observation measurementCovariance updateBlock limit = 1 :=
    boundedInfluence_eq_one h
  rw [marginal_updatedCovariance_self innovation observation updateBlock limit hP hR, hone]
  norm_num
  rfl

end Covariance

/-! ### The update -/

variable {s innovation observation measurementCovariance}

/-- With a proper covariance of the state and of the measurement the gate is that of the NIS. -/
theorem passesGate_of_nis_le {gateChi2 : ℝ} (hP : s.covariance.PosSemidef)
    (hR : measurementCovariance.PosDef) (hgate : 0 < gateChi2)
    (hnis : innovation ⬝ᵥ (s.innovationCovariance observation measurementCovariance)⁻¹ *ᵥ
      innovation ≤ gateChi2) :
    s.PassesGate innovation observation measurementCovariance gateChi2 := by
  refine ⟨hgate, hR.posSemidef, ?_, hnis⟩
  rw [innovationCovariance_eq observation hP hR]
  exact Matrix.PosDef.posSemidef (posDef_innovationCovariance hP hR observation)

/-- **An update corrects its block only.**  At the reset the covariance is still one, the means and
the covariances of the other blocks are as they were, and that of the block has not grown; unless
the velocity limit engages it is that of the Kalman filter.  No update knows more than the Kalman
filter does. -/
theorem update_correctsBlock {gateChi2 : ℝ} (updateBlock : UpdateBlock) (limit : CorrectionLimit)
    (hP : s.covariance.PosSemidef) (hR : measurementCovariance.PosDef) (hgate : 0 < gateChi2)
    (hnis : innovation ⬝ᵥ (s.innovationCovariance observation measurementCovariance)⁻¹ *ᵥ
      innovation ≤ gateChi2) :
    let before := s.beforeReset innovation observation measurementCovariance updateBlock limit
    let injected := before.resetCovariance
      (s.correction innovation observation measurementCovariance updateBlock limit)
    s.update innovation observation measurementCovariance gateChi2 updateBlock limit =
        (match stabilizeStateCovariance injected.covariance with
        | some covariance => .accepted { injected with covariance := covariance }
        | none => .failed) ∧
      before.covariance.IsSymm ∧ before.covariance.PosSemidef ∧
      (∀ block ≠ updateBlock, s.SameMean before block ∧
        marginal before.covariance block = marginal s.covariance block) ∧
      (marginal s.covariance updateBlock - marginal before.covariance updateBlock).PosSemidef ∧
      (¬LimitEngages limit
          (s.unlimitedGain observation measurementCovariance updateBlock *ᵥ innovation) →
        marginal before.covariance updateBlock =
          marginal (posterior s.covariance observation measurementCovariance) updateBlock) ∧
      (before.covariance - posterior s.covariance observation
        measurementCovariance).PosSemidef := by
  intro before injected
  have hpos : before.covariance.PosSemidef :=
    posSemidef_updatedCovariance innovation observation updateBlock limit hP hR
  refine ⟨?_, ?_, hpos, fun block hblock => ⟨?_, ?_⟩, ?_, fun hlimit => ?_,
    posSemidef_updatedCovariance_sub_posterior innovation observation updateBlock limit hP hR⟩
  · exact if_neg (not_not_intro (passesGate_of_nis_le hP hR hgate hnis))
  · exact transpose_of_isHermitian hpos.isHermitian
  · exact sameMean_injectMean _
      (s.segment_correction_of_ne innovation observation measurementCovariance updateBlock limit
        hblock)
  · exact marginal_updatedCovariance_of_ne innovation observation updateBlock limit hP hR hblock
  · exact posSemidef_marginal_sub_updatedCovariance innovation observation updateBlock limit hP hR
  · exact marginal_updatedCovariance_of_not_limitEngages innovation observation updateBlock limit
      hP hR hlimit

/-- The first axes of the position and of the orientation share an error. -/
def sharedError : ErrorIndex → ℝ := fun p =>
  if (p.1 = .position ∨ p.1 = .orientation) ∧ p.2.val = 0 then 1 else 0

/-- A filter at rest whose position and orientation are correlated. -/
noncomputable def correlated : FilterState where
  position := 0
  velocity := 0
  orientation := 1
  angularVelocity := 0
  covariance := 1 + vecMulVec sharedError sharedError
  orientation_normalized := normalizedQuaternion_one

theorem posSemidef_correlated : correlated.covariance.PosSemidef := by
  have hshared := posSemidef_vecMulVec_self_star sharedError
  rw [star_trivial] at hshared
  exact PosSemidef.one.add hshared

theorem identityObservation_mul (block : UpdateBlock) {k : Type*} (M : Matrix ErrorIndex k ℝ) :
    identityObservation block * M = M.submatrix (Prod.mk block) id := by
  ext i j
  rw [mul_apply, Fintype.sum_eq_single (block, i)]
  · simp [identityObservation, observationOf]
  · rintro ⟨b, k⟩ hne
    by_cases hb : b = block
    · subst hb
      simp [identityObservation, observationOf, one_apply_ne fun h : i = k => hne (h ▸ rfl)]
    · simp [identityObservation, observationOf, hb]

theorem correlated_innovationCovariance :
    correlated.innovationCovariance (identityObservation .position) 1 =
      diagonal ![(3 : ℝ), 2, 2] := by
  have hright (A : Matrix (Fin 3) ErrorIndex ℝ) : A * (identityObservation .position)ᵀ =
      (Aᵀ.submatrix (Prod.mk UpdateBlock.position) id)ᵀ := by
    rw [← identityObservation_mul, transpose_mul, transpose_transpose]
  rw [innovationCovariance_eq (identityObservation .position) posSemidef_correlated PosDef.one,
    Kalman.innovationCovariance, identityObservation_mul, hright]
  ext i j
  fin_cases i <;> fin_cases j <;>
    norm_num [correlated, sharedError, vecMulVec_apply, one_apply, diagonal]

theorem update_correctsBlock_correlated :
    let before := correlated.beforeReset ![1, 0, 0] (identityObservation .position) 1 .position none
    (∀ block ≠ .position, marginal before.covariance block = marginal correlated.covariance block) ∧
      (marginal correlated.covariance .position -
        marginal before.covariance .position).PosSemidef := by
  have hinverse : (diagonal ![(3 : ℝ), 2, 2])⁻¹ = diagonal ![(3 : ℝ)⁻¹, 2⁻¹, 2⁻¹] := by
    refine inv_eq_right_inv ?_
    rw [diagonal_mul_diagonal, ← diagonal_one]
    congr 1
    ext i
    fin_cases i <;> norm_num
  have hnis : ![(1 : ℝ), 0, 0] ⬝ᵥ
      (correlated.innovationCovariance (identityObservation .position) 1)⁻¹ *ᵥ ![1, 0, 0] ≤ 1 := by
    rw [correlated_innovationCovariance, hinverse]
    have hlast : ![(1 : ℝ), 0, 0] 2 = 0 := rfl
    norm_num [dotProduct, mulVec, diagonal, Fin.sum_univ_three, hlast]
  have h :=
    @update_correctsBlock correlated ![1, 0, 0] (identityObservation .position) 1 1 .position
    none posSemidef_correlated PosDef.one one_pos hnis
  exact ⟨fun block hblock => (h.2.2.2.1 block hblock).2, h.2.2.2.2.1⟩

end FilterState

end RobotCore
