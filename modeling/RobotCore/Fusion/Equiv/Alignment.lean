import Mathlib.Algebra.Order.Star.Real
import Mathlib.Analysis.Matrix.PosDef
import RobotCore.Fusion.Alignment
import RobotCore.Fusion.Equiv.Propagation

/-!
# Consistency of the alignment covariance

The fused covariance bounds the error of the full covariance-intersection correction; the update
applies a part of it.  What an update moves and stores is `updateAlignment_spec`.  The bound holds
for the full correction and for a candidate that is in no direction more certain than the alignment
(`covered_of_gain_or_le`), and for no other candidate as long as the gain is at most 11/12
(`le_of_covered`).
-/

namespace RobotCore

open Matrix JointCovariance Unitary

section Covariance

variable {n : ℕ} {M N : FixedCovariance n}

/-! ### Raised eigenvalues -/

/-- Functions of the eigenvalues are ordered as their values. -/
theorem posSemidef_cfc (h : M.IsHermitian) {f : ℝ → ℝ} (hf : ∀ i, 0 ≤ f (h.eigenvalues i)) :
    (h.cfc f).PosSemidef := by
  unfold IsHermitian.cfc
  rw [conjStarAlgAut_apply, isUnit_coe.posSemidef_star_right_conjugate_iff,
    posSemidef_diagonal_iff]
  exact hf

theorem posDef_cfc (h : M.IsHermitian) {f : ℝ → ℝ} (hf : ∀ i, 0 < f (h.eigenvalues i)) :
    (h.cfc f).PosDef := by
  unfold IsHermitian.cfc
  rw [conjStarAlgAut_apply, isUnit_coe.posDef_star_right_conjugate_iff, posDef_diagonal_iff]
  exact hf

theorem cfc_sub_self (h : M.IsHermitian) (f : ℝ → ℝ) :
    h.cfc f - M = h.cfc fun x => f x - x := by
  refine (congrArg (h.cfc f - ·) h.spectral_theorem).trans ?_
  unfold IsHermitian.cfc
  rw [← map_sub, diagonal_sub]
  rfl

theorem covarianceScale_pos (M : FixedCovariance n) : 0 < covarianceScale M :=
  lt_of_lt_of_le one_pos (le_max_left _ _)

/-- A covariance is not lowered by raising its eigenvalues. -/
theorem quad_le_raisedCovariance (h : M.IsHermitian) (floor : ℝ) (v : Fin n → ℝ) :
    quad M v ≤ quad (raisedCovariance M floor) v := by
  have hS := isHermitian_symmetrizedCovariance M
  have hsub : (raisedCovariance M floor - symmetrizedCovariance M).PosSemidef := by
    unfold raisedCovariance
    rw [cfc_sub_self]
    exact posSemidef_cfc hS fun i => sub_nonneg.mpr (le_max_left _ _)
  rw [symmetrizedCovariance_eq h] at hsub
  have hraised : (raisedCovariance M floor).IsHermitian := by
    have := hsub.isHermitian.add h
    rwa [sub_add_cancel] at this
  exact (posSemidef_sub_iff h hraised).mp hsub v

theorem posDef_raisedCovariance (M : FixedCovariance n) {floor : ℝ} (h : 0 < floor) :
    (raisedCovariance M floor).PosDef :=
  posDef_cfc (isHermitian_symmetrizedCovariance M) fun _ => lt_max_of_lt_right h

/-- Eigenvalues above the floor are left alone. -/
theorem raisedCovariance_of_le (h : M.IsHermitian) {floor : ℝ}
    (hfloor : ∀ i, floor ≤ covarianceEigenvalues M i) : raisedCovariance M floor = M := by
  have hS := isHermitian_symmetrizedCovariance M
  have hsub : raisedCovariance M floor - symmetrizedCovariance M = 0 := by
    unfold raisedCovariance
    rw [cfc_sub_self]
    unfold IsHermitian.cfc
    have hzero : (RCLike.ofReal ∘ (fun x => max x floor - x) ∘ hS.eigenvalues : Fin n → ℝ)
        = 0 := by
      funext i
      show max (covarianceEigenvalues M i) floor - covarianceEigenvalues M i = 0
      rw [max_eq_left (hfloor i), sub_self]
    rw [hzero, diagonal_zero', map_zero]
  rw [symmetrizedCovariance_eq h] at hsub
  exact sub_eq_zero.mp hsub

/-! ### Stabilizing -/

/-- The stabilized form of a positive definite covariance. -/
noncomputable def stabilized (M : FixedCovariance n) : FixedCovariance n :=
  raisedCovariance M (kCovarianceEigenvalueFloor * covarianceScale M)

theorem eigenvalueFloor_pos (M : FixedCovariance n) :
    0 < kCovarianceEigenvalueFloor * covarianceScale M :=
  mul_pos (by norm_num [kCovarianceEigenvalueFloor]) (covarianceScale_pos M)

theorem posDef_stabilized (M : FixedCovariance n) : (stabilized M).PosDef :=
  posDef_raisedCovariance M (eigenvalueFloor_pos M)

theorem quad_le_stabilized (h : M.IsHermitian) (v : Fin n → ℝ) : quad M v ≤ quad (stabilized M) v :=
  quad_le_raisedCovariance h _ v

theorem covarianceEigenvalues_nonneg (h : M.PosSemidef) (i : Fin n) :
    0 ≤ covarianceEigenvalues M i := by
  have hS : (symmetrizedCovariance M).PosSemidef := by
    rwa [symmetrizedCovariance_eq h.isHermitian]
  exact hS.eigenvalues_nonneg i

theorem validCovariance_of_posSemidef (h : M.PosSemidef) : ValidCovariance M := by
  have hscale := covarianceScale_pos M
  constructor
  · rw [transpose_of_isHermitian h.isHermitian, sub_self]
    have hzero : maxAbsCoeff (0 : FixedCovariance n) = 0 := by
      unfold maxAbsCoeff
      simp
    rw [hzero]
    exact mul_nonneg (by norm_num [kCovarianceSymmetryTolerance]) hscale.le
  · intro i
    refine le_trans ?_ (covarianceEigenvalues_nonneg h i)
    exact mul_nonpos_of_nonpos_of_nonneg (by norm_num [kCovariancePsdTolerance]) hscale.le

/-- A positive definite covariance is always stabilized. -/
theorem stabilizeCovariance_of_posDef (h : M.PosDef) :
    stabilizeCovariance M = some (stabilized M) := by
  have hsym := symmetrizedCovariance_eq h.isHermitian
  have hstable := posDef_stabilized M
  have hraised : symmetrizedCovariance (stabilized M) = stabilized M :=
    symmetrizedCovariance_eq hstable.isHermitian
  unfold stabilizeCovariance
  dsimp only
  rw [hsym, if_neg]
  · have hdef : raisedCovariance M (kCovarianceEigenvalueFloor * covarianceScale M)
        = stabilized M := rfl
    rw [hdef, hraised, if_pos (validCovariance_of_posSemidef hstable.posSemidef)]
  · rintro ⟨i, hi⟩
    refine absurd (covarianceEigenvalues_nonneg h.posSemidef i) (not_le.mpr (hi.trans_le ?_))
    exact mul_nonpos_of_nonpos_of_nonneg (by norm_num [kCovarianceRepairTolerance])
      (covarianceScale_pos M).le

end Covariance

/-! ### The update -/

noncomputable section

/-- The gain of the covariance intersection of two covariances. -/
def alignmentGain (prior observation : FixedCovariance 6) : FixedCovariance 6 :=
  intersectionGain (stabilized prior) (stabilized observation)

/-- The covariance an accepted update stores. -/
def fusedCovariance (prior observation : FixedCovariance 6) : FixedCovariance 6 :=
  stabilized (fusedInformation (stabilized prior) (stabilized observation))⁻¹

/-- The covariance of the error `e₁ + gain W (e₂ - e₁)` after an update, for errors with the
covariances `P` and `Q` and the cross-covariance `X`. -/
def errorCovariance (gain : ℝ) (prior observation P X Q : FixedCovariance 6) :
    FixedCovariance 6 :=
  combined (1 - gain • alignmentGain prior observation) (gain • alignmentGain prior observation)
    P X Q

/-- In every direction the standard deviations of the two parts of the error add up to at most the
standard deviation of the fused covariance. -/
def Covered (gain : ℝ) (prior observation : FixedCovariance 6) : Prop :=
  ∀ v, √(quad prior ((1 - gain • alignmentGain prior observation)ᵀ *ᵥ v)) +
    √(quad observation ((gain • alignmentGain prior observation)ᵀ *ᵥ v))
      ≤ √(quad (fusedCovariance prior observation) v)

/-- The correction is applied in full, or the stabilized candidate is in no direction more certain
than the stabilized alignment. -/
def FullOrUncertain (gain : ℝ) (prior observation : FixedCovariance 6) : Prop :=
  gain = 1 ∨ ∀ v, quad (stabilized prior) v ≤ quad (stabilized observation) v

/-- Stabilizing changes none of the covariances of an update. -/
def FloorInactive (prior observation : FixedCovariance 6) : Prop :=
  stabilized prior = prior ∧ stabilized observation = observation ∧
    stabilized (fusedInformation prior observation)⁻¹ = (fusedInformation prior observation)⁻¹

/-- The correction of the covariance intersection, before the gain. -/
def alignmentCorrection {P : Type} (ops : PoseOps P) (alignment candidate : P × FixedCovariance 6) :
    Fin 6 → ℝ :=
  alignmentGain alignment.2 candidate.2 *ᵥ ops.innovation candidate.1 alignment.1

/-- Neither norm limit engages. -/
def LimitsInactive {P : Type} (ops : PoseOps P) (cfg : AlignmentConfig)
    (alignment candidate : P × FixedCovariance 6) : Prop :=
  cfg.alignmentUpdateGain * norm3 (head3 (alignmentCorrection ops alignment candidate))
      ≤ cfg.alignmentMaxTranslationStepM ∧
    cfg.alignmentUpdateGain * norm3 (tail3 (alignmentCorrection ops alignment candidate))
      ≤ cfg.alignmentMaxRotationStepRad

end

theorem posDef_fusedInformation {prior observation : FixedCovariance 6} (hprior : prior.PosDef)
    (hobservation : observation.PosDef) : (fusedInformation prior observation).PosDef := by
  have hsum : ((1 / 2 : ℝ) • prior⁻¹ + (1 - 1 / 2 : ℝ) • observation⁻¹).PosDef :=
    (hprior.inv.smul (by norm_num)).add (hobservation.inv.smul (by norm_num))
  unfold fusedInformation
  rwa [symmetrizedCovariance_eq hsum.isHermitian]

theorem norm3_smul {gain : ℝ} (h : 0 ≤ gain) (v : Fin 3 → ℝ) :
    norm3 (gain • v) = gain * norm3 v := by
  unfold norm3
  rw [smul_dotProduct, dotProduct_smul, smul_smul, smul_eq_mul, Real.sqrt_mul (mul_self_nonneg _),
    Real.sqrt_mul_self h]

/-- Below its limit a vector is only scaled. -/
theorem scaledVector_of_le {value : Fin 3 → ℝ} {gain maximumNorm : ℝ} (hgain : 0 ≤ gain)
    (h : gain * norm3 value ≤ maximumNorm) :
    scaledVectorWithNormLimit value gain maximumNorm = gain • value := by
  unfold scaledVectorWithNormLimit
  dsimp only
  rw [norm3_smul hgain, if_pos (Or.inl h)]

section Update

variable {P : Type} {ops : PoseOps P} {cfg : AlignmentConfig}
  {alignment candidate updated : P × FixedCovariance 6}

/-- An accepted update stores the fused covariance and, below the limits, moves the pose by the
gained correction. -/
theorem updateAlignment_spec (hprior : alignment.2.PosDef) (hobservation : candidate.2.PosDef)
    (h : updateAlignment ops cfg alignment candidate = some updated) :
    updated.2 = fusedCovariance alignment.2 candidate.2 ∧
      (LimitsInactive ops cfg alignment candidate →
        updated.1 = ops.correct alignment.1
          (head3 (cfg.alignmentUpdateGain • alignmentCorrection ops alignment candidate))
          (tail3 (cfg.alignmentUpdateGain • alignmentCorrection ops alignment candidate))) := by
  have hfused := posDef_fusedInformation (posDef_stabilized alignment.2)
    (posDef_stabilized candidate.2)
  unfold updateAlignment at h
  rw [stabilizeCovariance_of_posDef hprior, stabilizeCovariance_of_posDef hobservation] at h
  dsimp only at h
  split_ifs at h with hgates hpositive
  rw [stabilizeCovariance_of_posDef hfused.inv, Option.map_some] at h
  cases h
  refine ⟨rfl, fun hlimits => ?_⟩
  have hgain := cfg.gain_pos.le
  have htranslation := scaledVector_of_le hgain hlimits.1
  have hrotation := scaledVector_of_le hgain hlimits.2
  show ops.correct alignment.1
    (scaledVectorWithNormLimit (head3 (alignmentCorrection ops alignment candidate)) _ _)
    (scaledVectorWithNormLimit (tail3 (alignmentCorrection ops alignment candidate)) _ _) = _
  rw [htranslation, hrotation]
  rfl

end Update

/-! ### Where the bound holds -/

section Directions

variable {prior observation : FixedCovariance 6} (hprior : prior.PosDef)
  (hobservation : observation.PosDef)

include hprior hobservation

theorem fusedInformation_eq : fusedInformation prior observation
    = (1 / 2 : ℝ) • prior⁻¹ + (1 / 2 : ℝ) • observation⁻¹ := by
  have hsum : ((1 / 2 : ℝ) • prior⁻¹ + (1 - 1 / 2 : ℝ) • observation⁻¹).PosDef :=
    (hprior.inv.smul (by norm_num)).add (hobservation.inv.smul (by norm_num))
  unfold fusedInformation
  rw [symmetrizedCovariance_eq hsum.isHermitian]
  norm_num

/-- A direction, through its image under the fused covariance. -/
theorem direction_eq (v : Fin 6 → ℝ) {w : Fin 6 → ℝ}
    (hw : w = (fusedInformation prior observation)⁻¹ *ᵥ v) :
    v = (1 / 2 : ℝ) • prior⁻¹ *ᵥ w + (1 / 2 : ℝ) • observation⁻¹ *ᵥ w := by
  have hv : v = fusedInformation prior observation *ᵥ w := by
    rw [hw, mulVec_inv_mulVec (posDef_fusedInformation hprior hobservation)]
  rw [fusedInformation_eq hprior hobservation, add_mulVec, smul_mulVec, smul_mulVec] at hv
  exact hv

theorem transpose_intersectionGain_mulVec (v : Fin 6 → ℝ) :
    (intersectionGain prior observation)ᵀ *ᵥ v
      = (1 / 2 : ℝ) • observation⁻¹ *ᵥ ((fusedInformation prior observation)⁻¹ *ᵥ v) := by
  have hfused := (posDef_fusedInformation hprior hobservation).inv.isHermitian
  unfold intersectionGain
  rw [transpose_mul, transpose_smul, transpose_of_isHermitian hobservation.inv.isHermitian,
    transpose_of_isHermitian hfused, ← mulVec_mulVec, smul_mulVec]
  norm_num

/-- What is left of the prior error. -/
theorem quad_priorPart (gain : ℝ) (v : Fin 6 → ℝ) {w : Fin 6 → ℝ}
    (hw : w = (fusedInformation prior observation)⁻¹ *ᵥ v) :
    quad prior ((1 - gain • intersectionGain prior observation)ᵀ *ᵥ v)
      = (quad prior⁻¹ w + 2 * (1 - gain) * quad observation⁻¹ w
        + (1 - gain) ^ 2 * quad prior (observation⁻¹ *ᵥ w)) / 4 := by
  have hdirection : (1 - gain • intersectionGain prior observation)ᵀ *ᵥ v
      = (1 / 2 : ℝ) • (prior⁻¹ *ᵥ w + (1 - gain) • observation⁻¹ *ᵥ w) := by
    rw [transpose_sub, transpose_one, transpose_smul, sub_mulVec, one_mulVec, smul_mulVec,
      transpose_intersectionGain_mulVec hprior hobservation, ← hw,
      direction_eq hprior hobservation v hw]
    module
  have hcross : (prior⁻¹ *ᵥ w) ⬝ᵥ prior *ᵥ (observation⁻¹ *ᵥ w) = quad observation⁻¹ w := by
    rw [dotProduct_mulVec_comm hprior.isHermitian, mulVec_inv_mulVec hprior, dotProduct_comm]
    rfl
  rw [hdirection, quad_smul, quad_add_smul hprior.isHermitian, quad_inv_mulVec hprior, hcross]
  ring

/-- What comes in of the observation error. -/
theorem quad_observationPart (gain : ℝ) (v : Fin 6 → ℝ) {w : Fin 6 → ℝ}
    (hw : w = (fusedInformation prior observation)⁻¹ *ᵥ v) :
    quad observation ((gain • intersectionGain prior observation)ᵀ *ᵥ v)
      = gain ^ 2 * quad observation⁻¹ w / 4 := by
  rw [transpose_smul, smul_mulVec, transpose_intersectionGain_mulVec hprior hobservation, ← hw,
    smul_smul, quad_smul, quad_inv_mulVec hobservation]
  ring

theorem quad_fused (v : Fin 6 → ℝ) {w : Fin 6 → ℝ}
    (hw : w = (fusedInformation prior observation)⁻¹ *ᵥ v) :
    quad (fusedInformation prior observation)⁻¹ v
      = (quad prior⁻¹ w + quad observation⁻¹ w) / 2 := by
  unfold quad
  rw [← hw]
  conv_lhs => rw [direction_eq hprior hobservation v hw]
  rw [add_dotProduct, smul_dotProduct, smul_dotProduct, dotProduct_comm _ w, dotProduct_comm _ w]
  simp only [smul_eq_mul]
  ring

end Directions

/-- The inequality between the parts of one direction. -/
theorem parts_le {gain p q r : ℝ} (h0 : 0 < gain) (h1 : gain ≤ 1) (hp : 0 ≤ p) (hq : 0 ≤ q)
    (hr : 0 ≤ r) (h : gain = 1 ∨ r ≤ q ∧ q ≤ p) :
    √((p + 2 * (1 - gain) * q + (1 - gain) ^ 2 * r) / 4) + √(gain ^ 2 * q / 4)
      ≤ √((p + q) / 2) := by
  have hpos : 0 < 2 - gain := by linarith
  have hrest : 0 ≤ 1 - gain := by linarith
  refine sqrt_add_sqrt_le (s := gain / (2 - gain)) ?_ (by positivity) (div_pos h0 hpos) ?_
  · positivity
  · have hfirst : 1 + gain / (2 - gain) = 2 / (2 - gain) := by
      field_simp
      ring
    have hsecond : 1 + 1 / (gain / (2 - gain)) = 2 / gain := by
      field_simp
      ring
    rw [hfirst, hsecond]
    have hobservation : 2 / gain * (gain ^ 2 * q / 4) = gain * q / 2 := by
      field_simp
      ring
    rw [hobservation, div_mul_eq_mul_div, ← le_sub_iff_add_le, div_le_iff₀ hpos]
    rcases h with rfl | ⟨hrq, hqp⟩
    · linarith
    · have hr' : (1 - gain) ^ 2 * r ≤ (1 - gain) ^ 2 * q :=
        mul_le_mul_of_nonneg_left hrq (sq_nonneg _)
      have hqp' : 0 ≤ (1 - gain) * (p - q) := mul_nonneg hrest (sub_nonneg.mpr hqp)
      linarith

/-- The full correction, and an observation that is nowhere more certain than the prior, are
covered. -/
theorem covered_of_gain_or_le {gain : ℝ} (h0 : 0 < gain) (h1 : gain ≤ 1)
    {prior observation : FixedCovariance 6} (hprior : prior.IsHermitian)
    (hobservation : observation.IsHermitian) (h : FullOrUncertain gain prior observation) :
    Covered gain prior observation := by
  have hS := posDef_stabilized prior
  have hT := posDef_stabilized observation
  intro v
  set w := (fusedInformation (stabilized prior) (stabilized observation))⁻¹ *ᵥ v with hw
  have hp := quad_nonneg hS.inv.posSemidef w
  have hq := quad_nonneg hT.inv.posSemidef w
  have hr := quad_nonneg hS.posSemidef ((stabilized observation)⁻¹ *ᵥ w)
  have himage := quad_inv_mulVec hT w
  have hparts := parts_le h0 h1 hp hq hr (h.imp_right fun hle =>
    ⟨(hle _).trans himage.le, quad_inv_le hS hT hle w⟩)
  rw [← quad_priorPart hS hT gain v hw, ← quad_observationPart hS hT gain v hw,
    ← quad_fused hS hT v hw] at hparts
  calc _ ≤ _ := add_le_add (Real.sqrt_le_sqrt (quad_le_stabilized hprior _))
        (Real.sqrt_le_sqrt (quad_le_stabilized hobservation _))
    _ ≤ _ := hparts
    _ ≤ _ := Real.sqrt_le_sqrt
        (quad_le_stabilized (posDef_fusedInformation hS hT).inv.isHermitian v)

/-! ### Where it fails -/

/-- The cubic that decides whether the deviations of the parts add up to too much. -/
theorem cubic_pos {gain x : ℝ} (h0 : 0 ≤ gain) (h1 : gain ≤ 11 / 12) (hx : 1 < x) :
    0 < (1 - gain) ^ 2 * x ^ 3 + (1 - gain ^ 2) * x ^ 2 + (1 - 2 * gain) * x + 1 := by
  have hpos : 0 < x := one_pos.trans hx
  -- The cubic falls with the gain, and is still positive at the largest one.
  have hlargest : 0 < x ^ 3 + 23 * x ^ 2 - 120 * x + 144 := by
    nlinarith [mul_nonneg hpos.le (sq_nonneg (x - 9 / 4)), sq_nonneg (x - 9 / 4),
      sq_nonneg (x - 5 / 2)]
  have hsquare : (1 / 12) ^ 2 ≤ (1 - gain) ^ 2 :=
    pow_le_pow_left₀ (by norm_num) (by linarith) 2
  have hsquare' : gain ^ 2 ≤ (11 / 12) ^ 2 := pow_le_pow_left₀ h0 h1 2
  have hthird := mul_le_mul_of_nonneg_right hsquare (pow_pos hpos 3).le
  have hsecond := mul_le_mul_of_nonneg_right hsquare' (pow_pos hpos 2).le
  have hfirst := mul_le_mul_of_nonneg_right h1 hpos.le
  nlinarith

/-- In a direction in which the prior has more than the variance of the observation, the parts do
not fit under the fused covariance. -/
theorem parts_not_le {gain ratio variance : ℝ} (h0 : 0 < gain) (h1 : gain ≤ 11 / 12)
    (hratio : 1 < ratio) (hvariance : 0 < variance) :
    ¬√((variance / ratio + 2 * (1 - gain) * variance + (1 - gain) ^ 2 * (ratio * variance)) / 4) +
      √(gain ^ 2 * variance / 4) ≤ √((variance / ratio + variance) / 2) := by
  intro h
  obtain ⟨x, hx, rfl⟩ : ∃ x : ℝ, 1 < x ∧ x ^ 2 = ratio :=
    ⟨√ratio, Real.lt_sqrt_of_sq_lt (by linarith), Real.sq_sqrt (by linarith)⟩
  obtain ⟨d, hd, rfl⟩ : ∃ d : ℝ, 0 < d ∧ d ^ 2 = variance :=
    ⟨√variance, Real.sqrt_pos.mpr hvariance, Real.sq_sqrt hvariance.le⟩
  have hpos : 0 < x := one_pos.trans hx
  have hrest : 0 < 1 - gain := by linarith
  have hprior : (d ^ 2 / x ^ 2 + 2 * (1 - gain) * d ^ 2 + (1 - gain) ^ 2 * (x ^ 2 * d ^ 2)) / 4 =
      (d * (1 + (1 - gain) * x ^ 2) / (2 * x)) ^ 2 := by
    field_simp
    ring
  have hobservation : gain ^ 2 * d ^ 2 / 4 = (gain * d / 2) ^ 2 := by ring
  rw [hprior, hobservation, Real.sqrt_sq (by positivity), Real.sqrt_sq (by positivity)] at h
  have hsum : d * (1 + (1 - gain) * x ^ 2) / (2 * x) + gain * d / 2 =
      d * (1 + gain * x + (1 - gain) * x ^ 2) / (2 * x) := by
    field_simp
    ring
  have hsq := Real.le_sqrt' (by positivity) |>.mp (hsum ▸ h)
  have hfused : (d ^ 2 / x ^ 2 + d ^ 2) / 2 = d ^ 2 * (2 * (1 + x ^ 2)) / (2 * x) ^ 2 := by
    field_simp
  rw [hfused, div_pow, div_le_div_iff_of_pos_right (by positivity), mul_pow,
    mul_le_mul_iff_of_pos_left (by positivity)] at hsq
  have hcubic := mul_pos (sub_pos.mpr hx) (cubic_pos h0.le h1 hx)
  nlinarith

/-- Below a gain of 11/12 only an observation that is nowhere more certain than the prior is
covered. -/
theorem le_of_covered {gain : ℝ} (h0 : 0 < gain) (h1 : gain ≤ 11 / 12)
    {prior observation : FixedCovariance 6} (hprior : prior.PosDef)
    (hobservation : observation.PosDef) (hfloor : FloorInactive prior observation)
    (h : Covered gain prior observation) : ∀ v, quad prior v ≤ quad observation v := by
  by_contra hnot
  obtain ⟨hS, hT, hF⟩ := hfloor
  obtain ⟨ratio, u, hratio, hu, heigen⟩ :=
    exists_mulVec_eq_smul hprior.isHermitian hobservation hnot
  have hne : ratio ≠ 0 := by linarith
  -- the direction whose image under the fused covariance is that of `u` under the observation
  set w := observation *ᵥ u with hw
  set v := fusedInformation prior observation *ᵥ w with hv
  have himage : w = (fusedInformation prior observation)⁻¹ *ᵥ v := by
    rw [hv, mulVec_mulVec, nonsing_inv_mul _ ((isUnit_iff_isUnit_det _).mp
      (posDef_fusedInformation hprior hobservation).isUnit), one_mulVec]
  have hback : observation⁻¹ *ᵥ w = u := by
    rw [hw, mulVec_mulVec, nonsing_inv_mul _ ((isUnit_iff_isUnit_det _).mp hobservation.isUnit),
      one_mulVec]
  have hback' : prior⁻¹ *ᵥ w = ratio⁻¹ • u := by
    have hpre : w = prior *ᵥ (ratio⁻¹ • u) := by
      rw [mulVec_smul, heigen, smul_smul, inv_mul_cancel₀ hne, one_smul]
    rw [hpre, mulVec_mulVec, nonsing_inv_mul _ ((isUnit_iff_isUnit_det _).mp hprior.isUnit),
      one_mulVec]
  have hobservationQuad : quad observation⁻¹ w = quad observation u := by
    rw [quad, hback, dotProduct_comm]
    rfl
  have hpriorQuad : quad prior⁻¹ w = quad observation u / ratio := by
    rw [quad, hback', dotProduct_smul, dotProduct_comm, smul_eq_mul, inv_mul_eq_div]
    rfl
  have hcrossQuad : quad prior (observation⁻¹ *ᵥ w) = ratio * quad observation u := by
    rw [hback, quad, heigen, dotProduct_smul, smul_eq_mul]
    rfl
  have hcovered := h v
  rw [alignmentGain, fusedCovariance, hS, hT, hF, quad_priorPart hprior hobservation gain v himage,
    quad_observationPart hprior hobservation gain v himage, quad_fused hprior hobservation v himage,
    hobservationQuad, hpriorQuad, hcrossQuad] at hcovered
  exact parts_not_le h0 h1 hratio (quad_pos hobservation hu) hcovered

end RobotCore
