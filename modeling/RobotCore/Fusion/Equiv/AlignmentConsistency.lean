import RobotCore.Fusion.Equiv.Alignment
import RobotCore.Lib.Numeral

/-!
# Consistency under unknown correlation

The update applies a part of the covariance-intersection correction and stores the covariance of
the full one.  `alignment_consistent`: the stored covariance bounds the error of an update for
every cross-covariance when the correction is applied in full or the candidate is in no direction
more certain than the alignment, which with a smaller gain it has to be.  In a run of such updates
the stored covariance bounds the actual error throughout.
-/

namespace RobotCore

open Matrix JointCovariance Machine

attribute [local instance] Numeral.atLeastTwo_two Numeral.atLeastTwo_ten

variable {P : Type}

/-! ### The alignment and its error -/

noncomputable section

/-- An alignment with its stored covariance, and the actual covariance of its error. -/
structure TrackedAlignment (P : Type) where
  alignment : P × FixedCovariance 6
  error : FixedCovariance 6

inductive AlignmentInput (P : Type) where
  /-- an alignment is established, with the covariance of its error -/
  | establish (alignment : P × FixedCovariance 6) (error : FixedCovariance 6)
  /-- the alignment is given up -/
  | reset
  /-- a candidate, with the covariance of its error and its cross-covariance with the alignment -/
  | update (candidate : P × FixedCovariance 6) (error cross : FixedCovariance 6)

/-- A covariance of an error that a stored covariance claims to bound. -/
def Bounds (covariance error : FixedCovariance 6) : Prop :=
  covariance.PosDef ∧ error.PosSemidef ∧ (covariance - error).PosSemidef

open Classical in
/-- One step: the errors a step brings in are bounded by their covariances, and the errors of an
update have some joint covariance.  A step in which a norm limit engages is not followed. -/
def alignmentStep (ops : PoseOps P) (cfg : AlignmentConfig) (s : Option (TrackedAlignment P)) :
    AlignmentInput P → Option (Option (TrackedAlignment P) × Unit)
  | .establish alignment error =>
    if Bounds alignment.2 error then some (some ⟨alignment, error⟩, ()) else none
  | .reset => some (none, ())
  | .update candidate error cross =>
    match s with
    | none => none
    | some tracked =>
      if Bounds candidate.2 error ∧ IsJoint tracked.error cross error then
        match updateAlignment ops cfg tracked.alignment candidate with
        | none => some (some tracked, ())
        | some updated =>
          if LimitsInactive ops cfg tracked.alignment candidate then
            some (some ⟨updated, errorCovariance cfg.alignmentUpdateGain tracked.alignment.2
              candidate.2 tracked.error cross error⟩, ())
          else none
      else none

/-- The alignment of the estimator, from start on. -/
def alignmentMachine (ops : PoseOps P) (cfg : AlignmentConfig) :
    Machine (Option (TrackedAlignment P)) (AlignmentInput P) Unit where
  init := none
  step := alignmentStep ops cfg

abbrev AlignmentHistory (P : Type) := History (Option (TrackedAlignment P)) (AlignmentInput P) Unit

/-- The update of a transition, if it is accepted, applies the full correction or has a candidate
that is in no direction more certain than the alignment. -/
def FullOrUncertainTransition (ops : PoseOps P) (cfg : AlignmentConfig)
    (x : Transition (Option (TrackedAlignment P)) (AlignmentInput P) Unit) : Prop :=
  match x.pre, x.input with
  | some tracked, .update candidate _ _ =>
    (updateAlignment ops cfg tracked.alignment candidate).isSome →
      FullOrUncertain cfg.alignmentUpdateGain tracked.alignment.2 candidate.2
  | _, _ => True

end

/-! ### One update -/

variable {ops : PoseOps P} {cfg : AlignmentConfig} {gain : ℝ}
  {prior observation P' X Q' : FixedCovariance 6}

theorem posDef_fusedCovariance (prior observation : FixedCovariance 6) :
    (fusedCovariance prior observation).PosDef := posDef_stabilized _

/-- The fused covariance bounds the error for every cross-covariance exactly when the update is
covered. -/
theorem forall_errorCovariance_le_iff (hprior : prior.PosDef) (hobservation : observation.PosDef) :
    (∀ X, IsJoint prior X observation →
      (fusedCovariance prior observation
        - errorCovariance gain prior observation prior X observation).PosSemidef) ↔
      Covered gain prior observation :=
  forall_combined_le_iff hprior.posSemidef hobservation.posSemidef
    (posDef_fusedCovariance _ _).posSemidef

theorem quad_le_of_bounds {covariance error : FixedCovariance 6} (h : Bounds covariance error)
    (v : Fin 6 → ℝ) : quad error v ≤ quad covariance v :=
  (posSemidef_sub_iff h.2.1.isHermitian h.1.isHermitian).mp h.2.2 v

/-- A covered update keeps the bound. -/
theorem bounds_of_covered (hP : Bounds prior P') (hQ : Bounds observation Q')
    (hX : IsJoint P' X Q') (h : Covered gain prior observation) :
    Bounds (fusedCovariance prior observation)
      (errorCovariance gain prior observation P' X Q') := by
  have hfused := posDef_fusedCovariance prior observation
  refine ⟨hfused, posSemidef_combined hP.2.1 hQ.2.1 hX, ?_⟩
  exact posSemidef_sub_combined hP.2.1 hQ.2.1 hfused.posSemidef hX (quad_le_of_bounds hP)
    (quad_le_of_bounds hQ) h

/-! ### Runs -/

/-- What a step preserves. -/
theorem bounds_step {s s' : Option (TrackedAlignment P)} {input : AlignmentInput P} {output : Unit}
    (hs : ∀ tracked ∈ s, Bounds tracked.alignment.2 tracked.error)
    (h : (alignmentMachine ops cfg).step s input = some (s', output))
    (hcondition : FullOrUncertainTransition ops cfg ⟨s, input, output, s'⟩) :
    ∀ tracked ∈ s', Bounds tracked.alignment.2 tracked.error := by
  intro tracked' htracked'
  cases input with
  | establish alignment error =>
    simp only [alignmentMachine, alignmentStep] at h
    split_ifs at h with hbounds
    cases h
    cases htracked'
    exact hbounds
  | reset =>
    cases h
    cases htracked'
  | update candidate error cross =>
    cases s with
    | none => cases h
    | some tracked =>
      by_cases hjoint : Bounds candidate.2 error ∧ IsJoint tracked.error cross error
      · simp only [alignmentMachine, alignmentStep, if_pos hjoint] at h
        cases hupdated : updateAlignment ops cfg tracked.alignment candidate with
        | none =>
          rw [hupdated] at h
          cases h
          exact hs _ htracked'
        | some updated =>
          rw [hupdated] at h
          dsimp only at h
          split_ifs at h with hlimits
          cases h
          cases htracked'
          have hbounds := hs tracked rfl
          have hstored := (updateAlignment_spec hbounds.1 hjoint.1.1 hupdated).1
          have hcovered := covered_of_gain_or_le cfg.gain_pos cfg.gain_le_one
            hbounds.1.isHermitian hjoint.1.1.isHermitian (hcondition (by rw [hupdated]; rfl))
          dsimp only
          rw [hstored]
          exact bounds_of_covered hbounds hjoint.1 hjoint.2 hcovered
      · simp only [alignmentMachine, alignmentStep, if_neg hjoint] at h
        cases h

theorem bounds_of_run {tr : AlignmentHistory P} {s : Option (TrackedAlignment P)}
    (h : (alignmentMachine ops cfg).Run tr s)
    (hcondition : ∀ x ∈ tr, FullOrUncertainTransition ops cfg x) :
    ∀ tracked ∈ s, Bounds tracked.alignment.2 tracked.error := by
  refine h.invariant_of (C := FullOrUncertainTransition ops cfg)
    (I := fun _ s => ∀ tracked ∈ s, Bounds tracked.alignment.2 tracked.error) ?_ ?_ hcondition
  · intro tracked htracked
    cases htracked
  · intro tr s input s' output _ hs hstep hcondition
    exact bounds_step hs hstep hcondition

/-- **Consistency.**  An accepted update below the norm limits moves the pose by the gained
correction.  The covariance it stores bounds the first-order error for every cross-covariance when
the gain is one or the stabilized candidate is in no direction more certain than the stabilized
alignment; with a gain of at most 11/12, as long as stabilizing changes nothing, for no other
candidate.  In a run of such updates the stored covariance bounds the actual error covariance in
every state. -/
theorem alignment_consistent (ops : PoseOps P) (cfg : AlignmentConfig) :
    (∀ alignment candidate updated : P × FixedCovariance 6,
      alignment.2.PosDef → candidate.2.PosDef →
      updateAlignment ops cfg alignment candidate = some updated →
      LimitsInactive ops cfg alignment candidate →
      updated.1 = ops.correct alignment.1
          (head3 (cfg.alignmentUpdateGain • alignmentCorrection ops alignment candidate))
          (tail3 (cfg.alignmentUpdateGain • alignmentCorrection ops alignment candidate)) ∧
        (FullOrUncertain cfg.alignmentUpdateGain alignment.2 candidate.2 →
          ∀ X, IsJoint alignment.2 X candidate.2 →
            (updated.2 - errorCovariance cfg.alignmentUpdateGain alignment.2 candidate.2
              alignment.2 X candidate.2).PosSemidef) ∧
        (cfg.alignmentUpdateGain ≤ 11 / 12 → FloorInactive alignment.2 candidate.2 →
          ((∀ X, IsJoint alignment.2 X candidate.2 →
            (updated.2 - errorCovariance cfg.alignmentUpdateGain alignment.2 candidate.2
              alignment.2 X candidate.2).PosSemidef) ↔
            ∀ v, quad alignment.2 v ≤ quad candidate.2 v))) ∧
      ∀ (tr : AlignmentHistory P) (s : Option (TrackedAlignment P)),
        (alignmentMachine ops cfg).Run tr s →
        (∀ x ∈ tr, FullOrUncertainTransition ops cfg x) →
        ∀ tracked ∈ s, (tracked.alignment.2 - tracked.error).PosSemidef := by
  constructor
  · intro alignment candidate updated hprior hobservation hupdated hlimits
    obtain ⟨hstored, hpose⟩ := updateAlignment_spec hprior hobservation hupdated
    rw [hstored, forall_errorCovariance_le_iff hprior hobservation]
    have hcovered := covered_of_gain_or_le cfg.gain_pos cfg.gain_le_one hprior.isHermitian
      hobservation.isHermitian
    refine ⟨hpose hlimits, hcovered, fun hgain hfloor => ⟨?_, fun hle => hcovered (Or.inr ?_)⟩⟩
    · exact le_of_covered cfg.gain_pos hgain hprior hobservation hfloor
    · rwa [hfloor.1, hfloor.2.1]
  · intro tr s hrun hcondition tracked htracked
    exact (bounds_of_run hrun hcondition tracked htracked).2.2

/-! ### Multiples of the identity -/

section Scalar

variable {c : ℝ} (h0 : 0 < c)

include h0

theorem posDef_smul_one : (c • (1 : FixedCovariance 6)).PosDef := PosDef.one.smul h0

theorem covarianceEigenvalues_smul_one (i : Fin 6) :
    covarianceEigenvalues (c • (1 : FixedCovariance 6)) i = c := by
  have hsym := symmetrizedCovariance_eq (posDef_smul_one h0).isHermitian
  have hmem := (isHermitian_symmetrizedCovariance (c • (1 : FixedCovariance 6))
    ).eigenvalues_mem_spectrum_real i
  have hscalar : c • (1 : FixedCovariance 6) = algebraMap ℝ (FixedCovariance 6) c :=
    (Algebra.algebraMap_eq_smul_one c).symm
  have hspectrum : spectrum ℝ (symmetrizedCovariance (c • (1 : FixedCovariance 6))) = {c} := by
    rw [hsym, hscalar, spectrum.scalar_eq]
  exact Set.mem_singleton_iff.mp (hspectrum.subset hmem)

theorem covarianceScale_smul_one_le :
    covarianceScale (c • (1 : FixedCovariance 6)) ≤ max 1 c := by
  refine max_le_max le_rfl (ciSup_le fun p => ?_)
  rw [Matrix.smul_apply, one_apply]
  split_ifs
  · rw [smul_eq_mul, mul_one, abs_of_pos h0]
  · rw [smul_zero, abs_zero]
    exact h0.le

/-- A multiple of the identity that is not tiny is already stable. -/
theorem stabilized_smul_one (h : max 1 c ≤ 10 ^ 12 * c) :
    stabilized (c • (1 : FixedCovariance 6)) = c • (1 : FixedCovariance 6) := by
  refine raisedCovariance_of_le (posDef_smul_one h0).isHermitian fun i => ?_
  rw [covarianceEigenvalues_smul_one h0]
  have hscale := (covarianceScale_smul_one_le h0).trans h
  unfold kCovarianceEigenvalueFloor
  linarith

end Scalar

/-- A pose of which the update reads nothing. -/
noncomputable def stillOps : PoseOps Unit where
  innovation _ _ := 0
  correct pose _ _ := pose

/-- The default parameters. -/
noncomputable def defaultAlignmentConfig : AlignmentConfig where
  alignmentUpdateGain := 1 / 50
  alignmentMaxTranslationStepM := 2 / 1000
  alignmentMaxRotationStepRad := 1 / 10 * Real.pi / 180
  tagGateChi2 := 16266 / 1000
  gain_pos := by norm_num
  gain_le_one := by norm_num

theorem passesThreeDofGate_zero {covariance : FixedCovariance 3} (h : covariance.PosSemidef) :
    PassesThreeDofGate 0 covariance defaultAlignmentConfig.tagGateChi2 := by
  have hgate : defaultAlignmentConfig.tagGateChi2 = 16266 / 1000 := rfl
  refine ⟨by rw [hgate]; norm_num, ?_, ?_⟩
  · rwa [symmetrizedCovariance_eq h.isHermitian]
  · rw [zero_dotProduct, hgate]
    norm_num

theorem limitsInactive_still (alignment candidate : Unit × FixedCovariance 6) :
    LimitsInactive stillOps defaultAlignmentConfig alignment candidate := by
  have hzero : alignmentCorrection stillOps alignment candidate = 0 := mulVec_zero _
  have hnorm : norm3 0 = 0 := by rw [norm3, zero_dotProduct, Real.sqrt_zero]
  have hhead : head3 0 = 0 := rfl
  have htail : tail3 0 = 0 := rfl
  unfold LimitsInactive
  rw [hzero, hhead, htail, hnorm, mul_zero]
  constructor
  · norm_num [defaultAlignmentConfig]
  · exact div_nonneg (mul_nonneg (by norm_num) Real.pi_pos.le) (by norm_num)

/-- An update without innovation is accepted. -/
theorem updateAlignment_still {prior observation : FixedCovariance 6} (hprior : prior.PosDef)
    (hobservation : observation.PosDef) :
    updateAlignment stillOps defaultAlignmentConfig ((), prior) ((), observation)
      = some ((), fusedCovariance prior observation) := by
  have hS := posDef_stabilized prior
  have hT := posDef_stabilized observation
  have hfused := posDef_fusedInformation hS hT
  have hsum : (symmetrizedCovariance (stabilized prior + stabilized observation)).PosSemidef := by
    rw [symmetrizedCovariance_eq (hS.add hT).isHermitian]
    exact (hS.add hT).posSemidef
  have hgates : PassesGates defaultAlignmentConfig (stillOps.innovation () ()) (stabilized prior)
      (stabilized observation) :=
    ⟨passesThreeDofGate_zero (hsum.submatrix _), passesThreeDofGate_zero (hsum.submatrix _)⟩
  unfold updateAlignment
  rw [stabilizeCovariance_of_posDef hprior, stabilizeCovariance_of_posDef hobservation]
  dsimp only
  rw [if_neg (not_not.mpr hgates), if_neg (not_not.mpr ⟨hS.posSemidef, hT.posSemidef,
    hfused.posSemidef⟩), stabilizeCovariance_of_posDef hfused.inv]
  rfl

theorem inv_smul_one {c : ℝ} (h : c ≠ 0) :
    (c • (1 : FixedCovariance 6))⁻¹ = c⁻¹ • (1 : FixedCovariance 6) := by
  refine inv_eq_right_inv ?_
  rw [smul_mul_smul_comm, mul_one, mul_inv_cancel₀ h, one_smul]

section Damped

/-- An observation of a tenth of the standard deviation, at the default gain. -/
private theorem fusedInformation_hundredth :
    fusedInformation 1 ((1 / 100 : ℝ) • (1 : FixedCovariance 6))
      = (101 / 2 : ℝ) • (1 : FixedCovariance 6) := by
  have hsmall : ((1 / 100 : ℝ) • (1 : FixedCovariance 6)).PosDef := posDef_smul_one (by norm_num)
  rw [fusedInformation_eq PosDef.one hsmall, inv_one, inv_smul_one (by norm_num)]
  module

private theorem stabilized_one : stabilized (1 : FixedCovariance 6) = 1 := by
  have h := stabilized_smul_one (c := 1) one_pos (by norm_num)
  rwa [one_smul] at h

private theorem stabilized_hundredth : stabilized ((1 / 100 : ℝ) • (1 : FixedCovariance 6))
    = (1 / 100 : ℝ) • (1 : FixedCovariance 6) :=
  stabilized_smul_one (by norm_num) (by norm_num)

private theorem fusedCovariance_hundredth :
    fusedCovariance 1 ((1 / 100 : ℝ) • (1 : FixedCovariance 6))
      = (2 / 101 : ℝ) • (1 : FixedCovariance 6) := by
  unfold fusedCovariance
  rw [stabilized_one, stabilized_hundredth, fusedInformation_hundredth,
    inv_smul_one (by norm_num), stabilized_smul_one (by norm_num) (by norm_num)]
  norm_num

private theorem alignmentGain_hundredth :
    alignmentGain 1 ((1 / 100 : ℝ) • (1 : FixedCovariance 6))
      = (100 / 101 : ℝ) • (1 : FixedCovariance 6) := by
  unfold alignmentGain intersectionGain
  rw [stabilized_one, stabilized_hundredth, fusedInformation_hundredth,
    inv_smul_one (by norm_num), inv_smul_one (by norm_num), smul_smul, smul_mul_smul_comm, mul_one]
  norm_num

private theorem errorCovariance_hundredth :
    errorCovariance (1 / 50) 1 ((1 / 100 : ℝ) • (1 : FixedCovariance 6)) 1 0
      ((1 / 100 : ℝ) • (1 : FixedCovariance 6))
      = (2426 / 2525 : ℝ) • (1 : FixedCovariance 6) := by
  have hpart : (1 / 50 : ℝ) • (100 / 101 : ℝ) • (1 : FixedCovariance 6)
      = (2 / 101 : ℝ) • (1 : FixedCovariance 6) := by module
  have hrest : (1 : FixedCovariance 6) - (2 / 101 : ℝ) • (1 : FixedCovariance 6)
      = (99 / 101 : ℝ) • (1 : FixedCovariance 6) := by module
  unfold errorCovariance combined
  rw [alignmentGain_hundredth, hpart, hrest]
  simp only [transpose_smul, transpose_one, transpose_zero, smul_mul_smul_comm, mul_one, mul_zero,
    zero_mul]
  module

end Damped

private theorem floorInactive_hundredth :
    FloorInactive 1 ((1 / 100 : ℝ) • (1 : FixedCovariance 6)) := by
  refine ⟨stabilized_one, stabilized_hundredth, ?_⟩
  rw [fusedInformation_hundredth, inv_smul_one (by norm_num),
    stabilized_smul_one (by norm_num) (by norm_num)]

/-- At the default gain a candidate as certain as the alignment is bounded whatever the correlation
is, and one ten times as certain is not. -/
theorem alignment_consistent_default :
    (∀ X, IsJoint 1 X 1 →
      (fusedCovariance 1 1 - errorCovariance (1 / 50) 1 1 1 X 1).PosSemidef) ∧
    ¬∀ X, IsJoint 1 X ((1 / 100 : ℝ) • 1) →
      (fusedCovariance 1 ((1 / 100 : ℝ) • 1) - errorCovariance (1 / 50) 1 ((1 / 100 : ℝ) • 1)
        1 X ((1 / 100 : ℝ) • 1)).PosSemidef := by
  have hone : (1 : FixedCovariance 6).PosDef := PosDef.one
  have hsmall : ((1 / 100 : ℝ) • (1 : FixedCovariance 6)).PosDef := posDef_smul_one (by norm_num)
  have hgain : defaultAlignmentConfig.alignmentUpdateGain ≤ 11 / 12 := by
    norm_num [defaultAlignmentConfig]
  constructor
  · exact ((alignment_consistent stillOps defaultAlignmentConfig).1 ((), 1) ((), 1) _ hone hone
      (updateAlignment_still hone hone) (limitsInactive_still _ _)).2.1 (Or.inr fun v => le_rfl)
  · intro hbound
    have hle := (((alignment_consistent stillOps defaultAlignmentConfig).1 ((), 1)
      ((), (1 / 100 : ℝ) • 1) _ hone hsmall (updateAlignment_still hone hsmall)
      (limitsInactive_still _ _)).2.2 hgain floorInactive_hundredth).mp hbound (Pi.single 0 1)
    simp only [quad, smul_mulVec, one_mulVec, dotProduct_smul, single_one_dotProduct,
      Pi.single_eq_same, smul_eq_mul] at hle
    norm_num at hle

/-- A candidate ten times as certain as the alignment, with an independent error: the update moves
the pose by a fiftieth of the correction, and the covariance drops to that of the full one. -/
theorem damped_mean_full_covariance :
    ¬∀ alignment candidate updated : Unit × FixedCovariance 6,
      alignment.2.PosDef → candidate.2.PosDef →
      updateAlignment stillOps defaultAlignmentConfig alignment candidate = some updated →
      LimitsInactive stillOps defaultAlignmentConfig alignment candidate →
      ∀ X, IsJoint alignment.2 X candidate.2 →
        (updated.2 - errorCovariance defaultAlignmentConfig.alignmentUpdateGain alignment.2
          candidate.2 alignment.2 X candidate.2).PosSemidef := by
  intro h
  have hone : (1 : FixedCovariance 6).PosDef := PosDef.one
  have hsmall : ((1 / 100 : ℝ) • (1 : FixedCovariance 6)).PosDef := posDef_smul_one (by norm_num)
  have hbound := h ((), 1) ((), (1 / 100 : ℝ) • 1) _ hone hsmall (updateAlignment_still hone hsmall)
    (limitsInactive_still _ _) 0 (isJoint_zero hone.posSemidef hsmall.posSemidef)
  have hgain : defaultAlignmentConfig.alignmentUpdateGain = 1 / 50 := rfl
  dsimp only at hbound
  rw [hgain, fusedCovariance_hundredth, errorCovariance_hundredth, ← sub_smul] at hbound
  have hdiag := hbound.diag_nonneg (i := 0)
  rw [Matrix.smul_apply, one_apply_eq] at hdiag
  norm_num at hdiag

end RobotCore
