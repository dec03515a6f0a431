import Mathlib.Algebra.Order.Star.Real
import Mathlib.Analysis.Convex.Jensen
import Mathlib.Analysis.Matrix.Order
import Mathlib.Analysis.Matrix.PosDef
import Mathlib.Analysis.Real.Sqrt
import Mathlib.Algebra.QuadraticDiscriminant

/-!
# Covariances of two correlated errors

Two errors have covariances `P` and `Q`; what is known of their cross-covariance `X` is only that
the joint covariance is positive semidefinite (`IsJoint`).  `combined A B P X Q` is the covariance
of `A e₁ + B e₂`.

In a direction `v` the worst cross-covariance adds the standard deviations of the two parts, and it
is attained: a matrix `S` bounds the combination for every cross-covariance exactly when
`√(vᵀ A P Aᵀ v) + √(vᵀ B Q Bᵀ v) ≤ √(vᵀ S v)` in every direction (`forall_combined_le_iff`).
-/

namespace JointCovariance

open Matrix

variable {m n k : Type*} [Fintype m] [Fintype n] [Fintype k]

/-- The quadratic form of a matrix. -/
def quad (M : Matrix n n ℝ) (v : n → ℝ) : ℝ := v ⬝ᵥ M *ᵥ v

/-- `X` is a cross-covariance of two errors with the covariances `P` and `Q`. -/
def IsJoint (P : Matrix m m ℝ) (X : Matrix m n ℝ) (Q : Matrix n n ℝ) : Prop :=
  PosSemidef (fromBlocks P X Xᵀ Q)

/-- The covariance of `A e₁ + B e₂`. -/
def combined (A : Matrix k m ℝ) (B : Matrix k n ℝ) (P : Matrix m m ℝ) (X : Matrix m n ℝ)
    (Q : Matrix n n ℝ) : Matrix k k ℝ :=
  A * P * Aᵀ + A * X * Bᵀ + (B * Xᵀ * Aᵀ + B * Q * Bᵀ)

omit [Fintype n] in
theorem transpose_of_isHermitian {M : Matrix n n ℝ} (h : M.IsHermitian) : Mᵀ = M :=
  (conjTranspose_eq_transpose_of_trivial M).symm.trans h

/-! ### Quadratic forms -/

section Quad

variable {M N : Matrix n n ℝ} {v w : n → ℝ}

theorem quad_nonneg (h : M.PosSemidef) (v : n → ℝ) : 0 ≤ quad M v := by
  simpa [quad] using h.dotProduct_mulVec_nonneg v

theorem quad_pos (h : M.PosDef) (hv : v ≠ 0) : 0 < quad M v := by
  simpa [quad] using h.dotProduct_mulVec_pos hv

/-- The Loewner order is the order of the quadratic forms. -/
theorem posSemidef_sub_iff (hM : M.IsHermitian) (hN : N.IsHermitian) :
    (N - M).PosSemidef ↔ ∀ v, quad M v ≤ quad N v := by
  rw [posSemidef_iff_dotProduct_mulVec]
  constructor
  · rintro ⟨-, h⟩ v
    have := h v
    rw [star_trivial, sub_mulVec, dotProduct_sub] at this
    exact sub_nonneg.mp this
  · intro h
    refine ⟨hN.sub hM, fun v => ?_⟩
    rw [star_trivial, sub_mulVec, dotProduct_sub]
    exact sub_nonneg.mpr (h v)

theorem dotProduct_mulVec_comm (h : M.IsHermitian) (v w : n → ℝ) :
    v ⬝ᵥ M *ᵥ w = w ⬝ᵥ M *ᵥ v := by
  have ht : Mᵀ = M := by simpa using h.eq
  rw [dotProduct_mulVec, ← mulVec_transpose, ht, dotProduct_comm]

/-- The quadratic form of a multiple and a sum. -/
theorem quad_add_smul (h : M.IsHermitian) (v w : n → ℝ) (t : ℝ) :
    quad M (v + t • w) = quad M v + 2 * t * (v ⬝ᵥ M *ᵥ w) + t ^ 2 * quad M w := by
  unfold quad
  rw [mulVec_add, mulVec_smul, add_dotProduct, dotProduct_add, dotProduct_add, smul_dotProduct,
    dotProduct_smul, smul_dotProduct, dotProduct_smul, dotProduct_mulVec_comm h w v]
  simp only [smul_eq_mul]
  ring

theorem quad_smul (M : Matrix n n ℝ) (t : ℝ) (v : n → ℝ) :
    quad M (t • v) = t ^ 2 * quad M v := by
  unfold quad
  rw [mulVec_smul, smul_dotProduct, dotProduct_smul]
  simp only [smul_eq_mul]
  ring

/-- A nonnegative quadratic polynomial has no positive discriminant. -/
theorem sq_le_mul_of_forall {a b c : ℝ} (h : ∀ t : ℝ, 0 ≤ a + 2 * t * b + t ^ 2 * c) :
    b ^ 2 ≤ a * c := by
  have hdiscrim := discrim_le_zero (a := c) (b := 2 * b) (c := a) fun t => by
    linarith [h t, show c * (t * t) = t ^ 2 * c by ring, show 2 * b * t = 2 * t * b by ring]
  unfold discrim at hdiscrim
  linarith

/-- Cauchy-Schwarz for the form of a matrix. -/
theorem dotProduct_mulVec_sq_le (h : M.PosSemidef) (v w : n → ℝ) :
    (v ⬝ᵥ M *ᵥ w) ^ 2 ≤ quad M v * quad M w := by
  refine sq_le_mul_of_forall fun t => ?_
  rw [← quad_add_smul h.isHermitian]
  exact quad_nonneg h _

end Quad

theorem mulVec_inv_mulVec [DecidableEq n] {M : Matrix n n ℝ} (h : M.PosDef) (w : n → ℝ) :
    M *ᵥ (M⁻¹ *ᵥ w) = w := by
  rw [mulVec_mulVec, mul_nonsing_inv _ ((isUnit_iff_isUnit_det M).mp h.isUnit), one_mulVec]

theorem quad_inv_mulVec [DecidableEq n] {M : Matrix n n ℝ} (h : M.PosDef) (w : n → ℝ) :
    quad M (M⁻¹ *ᵥ w) = quad M⁻¹ w := by
  unfold quad
  rw [mulVec_inv_mulVec h, dotProduct_comm]

/-- The inverse reverses the order of the quadratic forms. -/
theorem quad_inv_le [DecidableEq n] {M N : Matrix n n ℝ} (hM : M.PosDef) (hN : N.PosDef)
    (h : ∀ v, quad M v ≤ quad N v) (w : n → ℝ) : quad N⁻¹ w ≤ quad M⁻¹ w := by
  have hcross : (N⁻¹ *ᵥ w) ⬝ᵥ M *ᵥ (M⁻¹ *ᵥ w) = quad N⁻¹ w := by
    unfold quad
    rw [mulVec_inv_mulVec hM, dotProduct_comm]
  -- Cauchy-Schwarz for `M` at the two images of `w`.
  have hsq : quad N⁻¹ w ^ 2 ≤ quad N⁻¹ w * quad M⁻¹ w :=
    calc quad N⁻¹ w ^ 2 = ((N⁻¹ *ᵥ w) ⬝ᵥ M *ᵥ (M⁻¹ *ᵥ w)) ^ 2 := by rw [hcross]
      _ ≤ quad M (N⁻¹ *ᵥ w) * quad M (M⁻¹ *ᵥ w) := dotProduct_mulVec_sq_le hM.posSemidef _ _
      _ ≤ quad N (N⁻¹ *ᵥ w) * quad M (M⁻¹ *ᵥ w) :=
          mul_le_mul_of_nonneg_right (h _) (quad_nonneg hM.posSemidef _)
      _ = quad N⁻¹ w * quad M⁻¹ w := by rw [quad_inv_mulVec hN, quad_inv_mulVec hM]
  have hN0 := quad_nonneg hN.inv.posSemidef w
  have hM0 := quad_nonneg hM.inv.posSemidef w
  nlinarith

open scoped MatrixOrder in
/-- Where one matrix is not below another, some direction is an eigenvector of the pair with a ratio
above one. -/
theorem exists_mulVec_eq_smul [DecidableEq n] {M N : Matrix n n ℝ} (hM : M.IsHermitian)
    (hN : N.PosDef) (h : ¬∀ v, quad M v ≤ quad N v) :
    ∃ (r : ℝ) (u : n → ℝ), 1 < r ∧ u ≠ 0 ∧ M *ᵥ u = r • N *ᵥ u := by
  obtain ⟨B, hB⟩ := CStarAlgebra.nonneg_iff_eq_star_mul_self.mp hN.posSemidef.nonneg
  rw [star_eq_conjTranspose] at hB
  have hdet : IsUnit B.det := by
    refine isUnit_iff_ne_zero.mpr fun hzero => hN.det_pos.ne' ?_
    rw [hB, det_mul, hzero, mul_zero]
  have hleft : B⁻¹ * B = 1 := nonsing_inv_mul B hdet
  have hright : B * B⁻¹ = 1 := mul_nonsing_inv B hdet
  have hright' : Bᴴ * (B⁻¹)ᴴ = 1 := by rw [← conjTranspose_mul, hleft, conjTranspose_one]
  -- In the coordinates of `B` the second matrix is the identity.
  have hE : ((B⁻¹)ᴴ * (N - M) * B⁻¹).IsHermitian :=
    isHermitian_conjTranspose_mul_mul _ (hN.isHermitian.sub hM)
  have hback : Bᴴ * ((B⁻¹)ᴴ * (N - M) * B⁻¹) * B = N - M := by
    rw [Matrix.mul_assoc, Matrix.mul_assoc, Matrix.mul_assoc, hleft, Matrix.mul_one,
      ← Matrix.mul_assoc, hright', Matrix.one_mul]
  have hneg : ¬∀ i, 0 ≤ hE.eigenvalues i := by
    intro hnonneg
    have hpos := (hE.posSemidef_iff_eigenvalues_nonneg.mpr hnonneg).conjTranspose_mul_mul_same B
    rw [hback] at hpos
    exact h ((posSemidef_sub_iff hM hN.isHermitian).mp hpos)
  obtain ⟨i, hi⟩ := not_forall.mp hneg
  set y : n → ℝ := (hE.eigenvectorBasis i).ofLp with hy
  have hyne : y ≠ 0 := by
    intro hzero
    refine (hE.eigenvectorBasis.orthonormal.ne_zero i) ?_
    ext j
    exact congrFun hzero j
  have heigen : ((B⁻¹)ᴴ * (N - M) * B⁻¹) *ᵥ y = hE.eigenvalues i • y :=
    hE.mulVec_eigenvectorBasis i
  have himage : B *ᵥ (B⁻¹ *ᵥ y) = y := by rw [mulVec_mulVec, hright, one_mulVec]
  refine ⟨1 - hE.eigenvalues i, B⁻¹ *ᵥ y, by linarith [not_le.mp hi], fun hzero => hyne ?_, ?_⟩
  · rw [← himage, hzero, mulVec_zero]
  · have hN' : N *ᵥ (B⁻¹ *ᵥ y) = Bᴴ *ᵥ y := by
      rw [congrArg (· *ᵥ (B⁻¹ *ᵥ y)) hB, ← mulVec_mulVec, himage]
    have hdiff : (N - M) *ᵥ (B⁻¹ *ᵥ y) = hE.eigenvalues i • N *ᵥ (B⁻¹ *ᵥ y) := by
      rw [hN', ← congrArg (· *ᵥ (B⁻¹ *ᵥ y)) hback, ← mulVec_mulVec, ← mulVec_mulVec, himage,
        heigen, mulVec_smul]
    rw [sub_mulVec] at hdiff
    rw [sub_smul, one_smul, ← hdiff, sub_sub_cancel]

/-- Young's inequality for standard deviations. -/
theorem sqrt_add_sqrt_le {a b c s : ℝ} (ha : 0 ≤ a) (hb : 0 ≤ b) (hs : 0 < s)
    (h : (1 + s) * a + (1 + 1 / s) * b ≤ c) : √a + √b ≤ √c := by
  refine Real.le_sqrt_of_sq_le ?_
  have hyoung : 2 * √a * √b ≤ s * a + 1 / s * b := by
    have hsq : 0 ≤ (s * √a - √b) ^ 2 / s := div_nonneg (sq_nonneg _) hs.le
    have hexpand : (s * √a - √b) ^ 2 / s = s * √a ^ 2 - 2 * √a * √b + 1 / s * √b ^ 2 := by
      field_simp
      ring
    rw [hexpand, Real.sq_sqrt ha, Real.sq_sqrt hb] at hsq
    linarith
  rw [add_sq, Real.sq_sqrt ha, Real.sq_sqrt hb]
  linarith

/-! ### Joint covariances -/

section Joint

variable {P : Matrix m m ℝ} {X : Matrix m n ℝ} {Q : Matrix n n ℝ}

theorem quad_fromBlocks (P : Matrix m m ℝ) (X : Matrix m n ℝ) (Q : Matrix n n ℝ) (x : m → ℝ)
    (y : n → ℝ) :
    quad (fromBlocks P X Xᵀ Q) (Sum.elim x y) = quad P x + 2 * (x ⬝ᵥ X *ᵥ y) + quad Q y := by
  have hcross : y ⬝ᵥ Xᵀ *ᵥ x = x ⬝ᵥ X *ᵥ y := by
    rw [mulVec_transpose, dotProduct_comm, dotProduct_mulVec]
  unfold quad
  rw [fromBlocks_mulVec, Sum.elim_comp_inl, Sum.elim_comp_inr, sumElim_dotProduct_sumElim,
    dotProduct_add, dotProduct_add, hcross]
  ring

theorem isJoint_iff (hP : P.IsHermitian) (hQ : Q.IsHermitian) :
    IsJoint P X Q ↔ ∀ x y, 0 ≤ quad P x + 2 * (x ⬝ᵥ X *ᵥ y) + quad Q y := by
  unfold IsJoint
  rw [posSemidef_iff_dotProduct_mulVec]
  constructor
  · rintro ⟨-, h⟩ x y
    rw [← quad_fromBlocks]
    simpa [quad] using h (Sum.elim x y)
  · intro h
    refine ⟨hP.fromBlocks (by rw [conjTranspose_eq_transpose_of_trivial]) hQ, fun v => ?_⟩
    have := h (v ∘ Sum.inl) (v ∘ Sum.inr)
    rw [← quad_fromBlocks, Sum.elim_comp_inl_inr] at this
    simpa [quad] using this

/-- Independent errors. -/
theorem isJoint_zero (hP : P.PosSemidef) (hQ : Q.PosSemidef) : IsJoint P 0 Q := by
  rw [isJoint_iff hP.isHermitian hQ.isHermitian]
  intro x y
  rw [zero_mulVec, dotProduct_zero, mul_zero, add_zero]
  exact add_nonneg (quad_nonneg hP x) (quad_nonneg hQ y)

/-- The cross-covariance is bounded by the standard deviations. -/
theorem IsJoint.cross_le (hP : P.PosSemidef) (hQ : Q.PosSemidef) (h : IsJoint P X Q) (x : m → ℝ)
    (y : n → ℝ) : x ⬝ᵥ X *ᵥ y ≤ √(quad P x) * √(quad Q y) := by
  rw [isJoint_iff hP.isHermitian hQ.isHermitian] at h
  have hsq : (x ⬝ᵥ X *ᵥ y) ^ 2 ≤ quad P x * quad Q y := by
    refine sq_le_mul_of_forall fun t => ?_
    have := h x (t • y)
    rw [quad_smul, mulVec_smul, dotProduct_smul, smul_eq_mul] at this
    linarith
  rw [← Real.sqrt_mul (quad_nonneg hP x)]
  exact Real.le_sqrt_of_sq_le hsq

/-- The worst cross-covariance in a pair of directions: the errors are proportional there. -/
theorem exists_isJoint (hP : P.PosSemidef) (hQ : Q.PosSemidef) (x : m → ℝ) (y : n → ℝ) :
    ∃ X, IsJoint P X Q ∧ x ⬝ᵥ X *ᵥ y = √(quad P x) * √(quad Q y) := by
  rcases (quad_nonneg hP x).eq_or_lt with hx | hx
  · refine ⟨0, isJoint_zero hP hQ, ?_⟩
    rw [← hx, Real.sqrt_zero, zero_mul, zero_mulVec, dotProduct_zero]
  rcases (quad_nonneg hQ y).eq_or_lt with hy | hy
  · refine ⟨0, isJoint_zero hP hQ, ?_⟩
    rw [← hy, Real.sqrt_zero, mul_zero, zero_mulVec, dotProduct_zero]
  have hsx : 0 < √(quad P x) := Real.sqrt_pos.mpr hx
  have hsy : 0 < √(quad Q y) := Real.sqrt_pos.mpr hy
  let X := (√(quad P x) * √(quad Q y))⁻¹ • vecMulVec (P *ᵥ x) (Q *ᵥ y)
  have hcross : ∀ u w, u ⬝ᵥ X *ᵥ w
      = (u ⬝ᵥ P *ᵥ x / √(quad P x)) * (w ⬝ᵥ Q *ᵥ y / √(quad Q y)) := by
    intro u w
    show u ⬝ᵥ ((√(quad P x) * √(quad Q y))⁻¹ • vecMulVec (P *ᵥ x) (Q *ᵥ y)) *ᵥ w = _
    rw [smul_mulVec, vecMulVec_mulVec, dotProduct_smul, dotProduct_smul, dotProduct_comm (Q *ᵥ y) w]
    simp only [smul_eq_mul, MulOpposite.smul_eq_mul_unop, MulOpposite.unop_op]
    field_simp
  refine ⟨X, ?_, ?_⟩
  · rw [isJoint_iff hP.isHermitian hQ.isHermitian]
    intro u w
    rw [hcross]
    -- The two factors are at most the standard deviations along `u` and `w`.
    have hu : (u ⬝ᵥ P *ᵥ x / √(quad P x)) ^ 2 ≤ quad P u := by
      rw [div_pow, Real.sq_sqrt hx.le, div_le_iff₀ hx]
      exact dotProduct_mulVec_sq_le hP u x
    have hw : (w ⬝ᵥ Q *ᵥ y / √(quad Q y)) ^ 2 ≤ quad Q w := by
      rw [div_pow, Real.sq_sqrt hy.le, div_le_iff₀ hy]
      exact dotProduct_mulVec_sq_le hQ w y
    nlinarith [sq_nonneg (u ⬝ᵥ P *ᵥ x / √(quad P x) + w ⬝ᵥ Q *ᵥ y / √(quad Q y))]
  · rw [hcross]
    show quad P x / √(quad P x) * (quad Q y / √(quad Q y)) = _
    rw [Real.div_sqrt, Real.div_sqrt]

end Joint

/-! ### Combinations -/

section Combined

variable {A : Matrix k m ℝ} {B : Matrix k n ℝ} {P : Matrix m m ℝ} {X : Matrix m n ℝ}
  {Q : Matrix n n ℝ} {S : Matrix k k ℝ}

theorem quad_mul_mul_transpose (A : Matrix k m ℝ) (P : Matrix m m ℝ) (v : k → ℝ) :
    quad (A * P * Aᵀ) v = quad P (Aᵀ *ᵥ v) := by
  unfold quad
  rw [← mulVec_mulVec, ← mulVec_mulVec, dotProduct_mulVec, ← mulVec_transpose]

theorem quad_combined (v : k → ℝ) :
    quad (combined A B P X Q) v
      = quad P (Aᵀ *ᵥ v) + 2 * (Aᵀ *ᵥ v ⬝ᵥ X *ᵥ (Bᵀ *ᵥ v)) + quad Q (Bᵀ *ᵥ v) := by
  have hcross : v ⬝ᵥ (A * X * Bᵀ) *ᵥ v = Aᵀ *ᵥ v ⬝ᵥ X *ᵥ (Bᵀ *ᵥ v) := by
    rw [← mulVec_mulVec, ← mulVec_mulVec, dotProduct_mulVec, ← mulVec_transpose]
  have hcross' : v ⬝ᵥ (B * Xᵀ * Aᵀ) *ᵥ v = Aᵀ *ᵥ v ⬝ᵥ X *ᵥ (Bᵀ *ᵥ v) := by
    have ht : B * Xᵀ * Aᵀ = (A * X * Bᵀ)ᵀ := by
      rw [transpose_mul, transpose_mul, transpose_transpose, Matrix.mul_assoc]
    rw [ht, mulVec_transpose, dotProduct_comm, ← dotProduct_mulVec, hcross]
  have hfirst := quad_mul_mul_transpose A P v
  have hlast := quad_mul_mul_transpose B Q v
  unfold combined
  unfold quad at hfirst hlast ⊢
  rw [add_mulVec, add_mulVec, add_mulVec, dotProduct_add, dotProduct_add, dotProduct_add, hcross,
    hcross', hfirst, hlast]
  ring

omit [Fintype k] in
theorem isHermitian_combined (hP : P.IsHermitian) (hQ : Q.IsHermitian) :
    (combined A B P X Q).IsHermitian := by
  unfold combined IsHermitian
  rw [conjTranspose_eq_transpose_of_trivial]
  simp only [transpose_add, transpose_mul, transpose_transpose, transpose_of_isHermitian hP,
    transpose_of_isHermitian hQ, Matrix.mul_assoc]
  abel

/-- The standard deviation of a combination is at most the sum of those of its parts. -/
theorem quad_combined_le (hP : P.PosSemidef) (hQ : Q.PosSemidef) (h : IsJoint P X Q)
    (v : k → ℝ) :
    quad (combined A B P X Q) v ≤ (√(quad P (Aᵀ *ᵥ v)) + √(quad Q (Bᵀ *ᵥ v))) ^ 2 := by
  have hcross := h.cross_le hP hQ (Aᵀ *ᵥ v) (Bᵀ *ᵥ v)
  rw [quad_combined, add_sq, Real.sq_sqrt (quad_nonneg hP _), Real.sq_sqrt (quad_nonneg hQ _)]
  linarith

theorem posSemidef_combined (hP : P.PosSemidef) (hQ : Q.PosSemidef) (h : IsJoint P X Q) :
    (combined A B P X Q).PosSemidef := by
  rw [posSemidef_iff_dotProduct_mulVec]
  refine ⟨isHermitian_combined hP.isHermitian hQ.isHermitian, fun v => ?_⟩
  rw [star_trivial]
  have := (isJoint_iff hP.isHermitian hQ.isHermitian).mp h (Aᵀ *ᵥ v) (Bᵀ *ᵥ v)
  rwa [← quad_combined] at this

/-- **Unknown correlation.**  A matrix bounds the combination for every cross-covariance exactly
when in every direction the standard deviations of the parts add up to at most its own. -/
theorem forall_combined_le_iff (hP : P.PosSemidef) (hQ : Q.PosSemidef) (hS : S.PosSemidef) :
    (∀ X, IsJoint P X Q → (S - combined A B P X Q).PosSemidef) ↔
      ∀ v, √(quad P (Aᵀ *ᵥ v)) + √(quad Q (Bᵀ *ᵥ v)) ≤ √(quad S v) := by
  constructor
  · intro h v
    obtain ⟨X, hX, hcross⟩ := exists_isJoint hP hQ (Aᵀ *ᵥ v) (Bᵀ *ᵥ v)
    have hle := (posSemidef_sub_iff (isHermitian_combined hP.isHermitian hQ.isHermitian)
      hS.isHermitian).mp (h X hX) v
    rw [quad_combined, hcross] at hle
    refine Real.le_sqrt_of_sq_le ?_
    rw [add_sq, Real.sq_sqrt (quad_nonneg hP _), Real.sq_sqrt (quad_nonneg hQ _)]
    linarith
  · intro h X hX
    rw [posSemidef_sub_iff (isHermitian_combined hP.isHermitian hQ.isHermitian) hS.isHermitian]
    intro v
    calc quad (combined A B P X Q) v
        ≤ (√(quad P (Aᵀ *ᵥ v)) + √(quad Q (Bᵀ *ᵥ v))) ^ 2 := quad_combined_le hP hQ hX v
      _ ≤ √(quad S v) ^ 2 :=
          pow_le_pow_left₀ (add_nonneg (Real.sqrt_nonneg _) (Real.sqrt_nonneg _)) (h v) 2
      _ = quad S v := Real.sq_sqrt (quad_nonneg hS v)

/-- Larger covariances of the parts bound the combination as well. -/
theorem posSemidef_sub_combined {P' : Matrix m m ℝ} {Q' : Matrix n n ℝ} (hP : P.PosSemidef)
    (hQ : Q.PosSemidef) (hS : S.PosSemidef) (h : IsJoint P X Q) (hPP' : ∀ v, quad P v ≤ quad P' v)
    (hQQ' : ∀ v, quad Q v ≤ quad Q' v)
    (hbound : ∀ v, √(quad P' (Aᵀ *ᵥ v)) + √(quad Q' (Bᵀ *ᵥ v)) ≤ √(quad S v)) :
    (S - combined A B P X Q).PosSemidef := by
  refine (forall_combined_le_iff hP hQ hS).mpr (fun v => ?_) X h
  exact (add_le_add (Real.sqrt_le_sqrt (hPP' _)) (Real.sqrt_le_sqrt (hQQ' _))).trans (hbound v)

end Combined

/-! ### The sum of two errors -/

section Sum

variable {P : Matrix n n ℝ} {X : Matrix n n ℝ} {Q : Matrix n n ℝ}

omit [Fintype n] in
theorem IsJoint.left (h : IsJoint P X Q) : P.PosSemidef := h.submatrix Sum.inl

omit [Fintype n] in
theorem IsJoint.right (h : IsJoint P X Q) : Q.PosSemidef := h.submatrix Sum.inr

/-- **Young's inequality.**  The covariance of a sum is at most twice the sum of the covariances. -/
theorem posSemidef_two_smul_sub_sum (h : IsJoint P X Q) :
    ((2 : ℝ) • (P + Q) - (P + X + (Xᵀ + Q))).PosSemidef := by
  have hP := h.left
  have hQ := h.right
  have hsum : (P + X + (Xᵀ + Q)).IsHermitian := by
    rw [IsHermitian, conjTranspose_eq_transpose_of_trivial]
    simp only [transpose_add, transpose_transpose, transpose_of_isHermitian hP.isHermitian,
      transpose_of_isHermitian hQ.isHermitian]
    abel
  have htwo : ((2 : ℝ) • (P + Q)).PosSemidef := (hP.add hQ).smul zero_le_two
  rw [posSemidef_sub_iff hsum htwo.isHermitian]
  intro v
  -- The difference of the two errors has a nonnegative variance.
  have hdiff := (isJoint_iff hP.isHermitian hQ.isHermitian).mp h v (-v)
  have hneg : quad Q (-v) = quad Q v := by
    rw [← neg_one_smul ℝ v, quad_smul]
    ring
  have hcross : v ⬝ᵥ Xᵀ *ᵥ v = v ⬝ᵥ X *ᵥ v := by
    rw [mulVec_transpose, dotProduct_comm, dotProduct_mulVec]
  rw [hneg, mulVec_neg, dotProduct_neg] at hdiff
  unfold quad at hdiff ⊢
  rw [smul_mulVec, add_mulVec, add_mulVec, add_mulVec, add_mulVec, dotProduct_smul,
    dotProduct_add, dotProduct_add, dotProduct_add, dotProduct_add, hcross, smul_eq_mul]
  linarith

end Sum

/-! ### The mean of a family of errors -/

section Mean

variable {ι : Type*} [Fintype ι] {S : Matrix (ι × n) (ι × n) ℝ}

/-- The covariance of one error of the family. -/
def marginal (S : Matrix (ι × n) (ι × n) ℝ) (i : ι) : Matrix n n ℝ :=
  S.submatrix (Prod.mk i) (Prod.mk i)

/-- The covariance of the mean of the errors. -/
noncomputable def meanCovariance (S : Matrix (ι × n) (ι × n) ℝ) : Matrix n n ℝ :=
  of fun a b => ((Fintype.card ι : ℝ)⁻¹) ^ 2 * ∑ i, ∑ j, S (i, a) (j, b)

theorem convexOn_quad {M : Matrix n n ℝ} (h : M.PosSemidef) : ConvexOn ℝ Set.univ (quad M) := by
  refine ⟨convex_univ, fun v _ w _ a b ha hb hab => ?_⟩
  have hw : a • v + b • w = w + a • (v - w) := by
    obtain rfl : b = 1 - a := by linarith
    module
  have hv : v = w + (1 : ℝ) • (v - w) := by module
  have hmid := quad_add_smul h.isHermitian w (v - w) a
  have hend := quad_add_smul h.isHermitian w (v - w) 1
  rw [← hv] at hend
  rw [hw, hmid, hend, smul_eq_mul, smul_eq_mul]
  have hnonneg := mul_nonneg (mul_nonneg ha hb) (quad_nonneg h (v - w))
  obtain rfl : b = 1 - a := by linarith
  linarith

variable [DecidableEq ι]

/-- The vector with `v` in the place of one error. -/
def single (i : ι) (v : n → ℝ) : ι × n → ℝ := fun p => if p.1 = i then v p.2 else 0

theorem quad_marginal (S : Matrix (ι × n) (ι × n) ℝ) (i : ι) (v : n → ℝ) :
    quad (marginal S i) v = quad S (single i v) := by
  simp [quad, marginal, single, dotProduct, mulVec, Fintype.sum_prod_type_right]

theorem quad_meanCovariance (S : Matrix (ι × n) (ι × n) ℝ) (v : n → ℝ) :
    quad (meanCovariance S) v = quad S (∑ i, (Fintype.card ι : ℝ)⁻¹ • single i v) := by
  have hspread : ∑ i, (Fintype.card ι : ℝ)⁻¹ • single i v =
      (Fintype.card ι : ℝ)⁻¹ • fun p : ι × n => v p.2 := by
    ext p
    simp [single]
  rw [hspread, quad_smul]
  simp only [quad, meanCovariance, dotProduct, mulVec, of_apply, Fintype.sum_prod_type_right,
    Finset.mul_sum, Finset.sum_mul]
  refine Finset.sum_congr rfl fun a _ => ?_
  rw [Finset.sum_comm]
  refine Finset.sum_congr rfl fun i _ => ?_
  refine Finset.sum_congr rfl fun b _ => ?_
  refine Finset.sum_congr rfl fun j _ => ?_
  ring

/-- **The mean.**  The average of the covariances bounds the covariance of the mean, whatever the
cross-covariances. -/
theorem posSemidef_average_sub_mean [Nonempty ι] (h : S.PosSemidef) :
    ((∑ i, (Fintype.card ι : ℝ)⁻¹ • marginal S i) - meanCovariance S).PosSemidef := by
  have hmarginal : ∀ i, (marginal S i).PosSemidef := fun i => h.submatrix _
  have hcard : (0 : ℝ) < Fintype.card ι := Nat.cast_pos.mpr Fintype.card_pos
  have hmean : (meanCovariance S).IsHermitian := by
    ext a b
    rw [conjTranspose_apply, star_trivial, meanCovariance, of_apply, of_apply, Finset.sum_comm]
    refine congrArg _ (Finset.sum_congr rfl fun i _ => Finset.sum_congr rfl fun j _ => ?_)
    simpa using h.isHermitian.apply (i, a) (j, b)
  have haverage : (∑ i, (Fintype.card ι : ℝ)⁻¹ • marginal S i).PosSemidef :=
    posSemidef_sum _ fun i _ => (hmarginal i).smul (inv_nonneg.mpr hcard.le)
  rw [posSemidef_sub_iff hmean haverage.isHermitian]
  intro v
  have hsplit : quad (∑ i, (Fintype.card ι : ℝ)⁻¹ • marginal S i) v =
      ∑ i, (Fintype.card ι : ℝ)⁻¹ • quad S (single i v) := by
    simp only [← quad_marginal]
    simp only [quad, Matrix.sum_mulVec, smul_mulVec, dotProduct_sum, dotProduct_smul]
  rw [hsplit, quad_meanCovariance]
  refine (convexOn_quad h).map_sum_le (fun i _ => inv_nonneg.mpr hcard.le) ?_ fun i _ => trivial
  rw [Finset.sum_const, Finset.card_univ, nsmul_eq_mul, mul_inv_cancel₀ hcard.ne']

end Mean

end JointCovariance
