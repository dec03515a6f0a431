import Mathlib.Algebra.DualNumber
import Mathlib.LinearAlgebra.Matrix.Adjugate
import Mathlib.Tactic.LinearCombination

/-!
# Rigid motions and their first-order perturbations

A motion of space is a linear map followed by a translation; it is rigid when the linear map is a
rotation.  A perturbation turns it by a rotation vector and shifts it, both in the frame it maps to.
To first order a turn by `ε θ` is `1 + ε [θ]`, where `[θ]` is the matrix `skew θ` of the cross
product and `ε ^ 2 = 0`: the perturbed motion has its coefficients in the dual numbers.

`perturb_mul_inverse` is the perturbation of a quotient of two motions.
-/

namespace RigidMotion

open Matrix DualNumber

variable {R : Type*} [CommRing R]

/-- The matrix of the cross product with `v`. -/
def skew (v : Fin 3 → R) : Matrix (Fin 3) (Fin 3) R :=
  !![0, -v 2, v 1; v 2, 0, -v 0; -v 1, v 0, 0]

@[ext]
structure Motion (R : Type*) where
  linear : Matrix (Fin 3) (Fin 3) R
  translation : Fin 3 → R

namespace Motion

/-- The second motion followed by the first. -/
def mul (a b : Motion R) : Motion R where
  linear := a.linear * b.linear
  translation := a.linear *ᵥ b.translation + a.translation

/-- The inverse of a rigid motion. -/
def inverse (a : Motion R) : Motion R where
  linear := a.linearᵀ
  translation := -(a.linearᵀ *ᵥ a.translation)

structure IsRigid (a : Motion R) : Prop where
  mul_transpose : a.linear * a.linearᵀ = 1
  det_eq_one : a.linear.det = 1

theorem IsRigid.transpose_mul {a : Motion R} (h : a.IsRigid) : a.linearᵀ * a.linear = 1 :=
  mul_eq_one_comm.mp h.mul_transpose

theorem IsRigid.inverse {a : Motion R} (h : a.IsRigid) : a.inverse.IsRigid where
  mul_transpose := h.transpose_mul
  det_eq_one := (det_transpose _).trans h.det_eq_one

theorem IsRigid.mul {a b : Motion R} (ha : a.IsRigid) (hb : b.IsRigid) : (a.mul b).IsRigid where
  mul_transpose := by
    change a.linear * b.linear * (a.linear * b.linear)ᵀ = 1
    rw [Matrix.transpose_mul, Matrix.mul_assoc, ← Matrix.mul_assoc b.linear, hb.mul_transpose,
      Matrix.one_mul, ha.mul_transpose]
  det_eq_one := by
    change (a.linear * b.linear).det = 1
    rw [det_mul, ha.det_eq_one, hb.det_eq_one, one_mul]

end Motion

/-! ### The cross product -/

theorem skew_transpose (v : Fin 3 → R) : (skew v)ᵀ = -skew v := by
  ext i j
  fin_cases i <;> fin_cases j <;> simp [skew]

theorem skew_sub (v w : Fin 3 → R) : skew (v - w) = skew v - skew w := by
  ext i j
  fin_cases i <;> fin_cases j <;> simp [skew] <;> ring

/-- The cross product changes its sign with the order. -/
theorem skew_mulVec_comm (v w : Fin 3 → R) : skew v *ᵥ w = -(skew w *ᵥ v) := by
  ext i
  fin_cases i <;> simp [skew, mulVec, dotProduct, Fin.sum_univ_three] <;> ring

/-- A linear map takes the cross product to that of the images under its cofactors. -/
theorem mul_skew_mul_transpose (A : Matrix (Fin 3) (Fin 3) R) (v : Fin 3 → R) :
    A * skew v * Aᵀ = skew (A.adjugateᵀ *ᵥ v) := by
  ext i j
  fin_cases i <;> fin_cases j <;>
    simp [skew, mul_apply, mulVec, dotProduct, Fin.sum_univ_three, adjugate_fin_three] <;> ring

/-- A rotation takes the cross product to that of the images. -/
theorem mul_skew {a : Motion R} (h : a.IsRigid) (v : Fin 3 → R) :
    a.linear * skew v = skew (a.linear *ᵥ v) * a.linear := by
  have hadjugate : a.linear.adjugateᵀ = a.linear := by
    have hinv : a.linear.adjugate = a.linearᵀ := by
      calc a.linear.adjugate = a.linear.adjugate * (a.linear * a.linearᵀ) := by
            rw [h.mul_transpose, Matrix.mul_one]
        _ = a.linearᵀ := by
            rw [← Matrix.mul_assoc, adjugate_mul, h.det_eq_one, one_smul, Matrix.one_mul]
    rw [hinv, transpose_transpose]
  calc a.linear * skew v = a.linear * skew v * a.linearᵀ * a.linear := by
        rw [Matrix.mul_assoc, h.transpose_mul, Matrix.mul_one]
    _ = skew (a.linear *ᵥ v) * a.linear := by rw [mul_skew_mul_transpose, hadjugate]

theorem skew_injective {v w : Fin 3 → R} (h : skew v = skew w) : v = w := by
  ext i
  fin_cases i
  · simpa [skew] using congrFun (congrFun h 2) 1
  · simpa [skew] using congrFun (congrFun h 0) 2
  · simpa [skew] using congrFun (congrFun h 1) 0

/-! ### Matrices and vectors of dual numbers -/

/-- The matrix `M + ε N`. -/
def dualMatrix (M N : Matrix (Fin 3) (Fin 3) R) : Matrix (Fin 3) (Fin 3) R[ε] :=
  of fun i j => TrivSqZeroExt.inl (M i j) + TrivSqZeroExt.inr (N i j)

/-- The vector `p + ε q`. -/
def dualVector (p q : Fin 3 → R) : Fin 3 → R[ε] :=
  fun i => TrivSqZeroExt.inl (p i) + TrivSqZeroExt.inr (q i)

theorem dualMatrix_mul (M N M' N' : Matrix (Fin 3) (Fin 3) R) :
    dualMatrix M N * dualMatrix M' N' = dualMatrix (M * M') (M * N' + N * M') := by
  ext i j
  · simp [dualMatrix, mul_apply, TrivSqZeroExt.fst_sum]
  · simp [dualMatrix, mul_apply, TrivSqZeroExt.snd_sum, Finset.sum_add_distrib]

theorem dualMatrix_transpose (M N : Matrix (Fin 3) (Fin 3) R) :
    (dualMatrix M N)ᵀ = dualMatrix Mᵀ Nᵀ := rfl

theorem dualMatrix_mulVec (M N : Matrix (Fin 3) (Fin 3) R) (p q : Fin 3 → R) :
    dualMatrix M N *ᵥ dualVector p q = dualVector (M *ᵥ p) (M *ᵥ q + N *ᵥ p) := by
  ext i
  · simp [dualMatrix, dualVector, mulVec, dotProduct, TrivSqZeroExt.fst_sum]
  · simp [dualMatrix, dualVector, mulVec, dotProduct, TrivSqZeroExt.snd_sum,
      Finset.sum_add_distrib]

theorem dualVector_add (p q p' q' : Fin 3 → R) :
    dualVector p q + dualVector p' q' = dualVector (p + p') (q + q') := by
  ext i <;> simp [dualVector]

theorem dualVector_neg (p q : Fin 3 → R) : -dualVector p q = dualVector (-p) (-q) := by
  ext i <;> simp [dualVector]

theorem dualMatrix_inj {M N M' N' : Matrix (Fin 3) (Fin 3) R} :
    dualMatrix M N = dualMatrix M' N' ↔ M = M' ∧ N = N' := by
  refine ⟨fun h => ?_, fun ⟨hM, hN⟩ => by rw [hM, hN]⟩
  constructor
  · ext i j
    simpa [dualMatrix] using congrArg TrivSqZeroExt.fst (congrFun (congrFun h i) j)
  · ext i j
    simpa [dualMatrix] using congrArg TrivSqZeroExt.snd (congrFun (congrFun h i) j)

theorem dualVector_inj {p q p' q' : Fin 3 → R} :
    dualVector p q = dualVector p' q' ↔ p = p' ∧ q = q' := by
  refine ⟨fun h => ?_, fun ⟨hp, hq⟩ => by rw [hp, hq]⟩
  constructor
  · ext i
    simpa [dualVector] using congrArg TrivSqZeroExt.fst (congrFun h i)
  · ext i
    simpa [dualVector] using congrArg TrivSqZeroExt.snd (congrFun h i)

/-! ### Perturbations -/

/-- The motion turned by `ε θ` and shifted by `ε t` in the frame it maps to. -/
def perturb (a : Motion R) (t θ : Fin 3 → R) : Motion R[ε] where
  linear := dualMatrix 1 (skew θ) * dualMatrix a.linear 0
  translation := dualVector a.translation t

theorem perturb_linear (a : Motion R) (t θ : Fin 3 → R) :
    (perturb a t θ).linear = dualMatrix a.linear (skew θ * a.linear) := by
  change dualMatrix 1 (skew θ) * dualMatrix a.linear 0 = _
  rw [dualMatrix_mul, Matrix.one_mul, Matrix.mul_zero, zero_add]

/-- A perturbation of a rigid motion is determined by the perturbed motion. -/
theorem perturb_inj {a : Motion R} (h : a.IsRigid) {t θ t' θ' : Fin 3 → R} :
    perturb a t θ = perturb a t' θ' ↔ t = t' ∧ θ = θ' := by
  refine ⟨fun heq => ?_, fun ⟨ht, hθ⟩ => by rw [ht, hθ]⟩
  have hlinear := congrArg Motion.linear heq
  rw [perturb_linear, perturb_linear, dualMatrix_inj] at hlinear
  refine ⟨(dualVector_inj.mp (congrArg Motion.translation heq)).2, skew_injective ?_⟩
  have hskew := congrArg (· * a.linearᵀ) hlinear.2
  simpa only [Matrix.mul_assoc, h.mul_transpose, Matrix.mul_one] using hskew

/-- **The perturbation of a quotient.**  When `a` is perturbed by `t`, `θ` and the rigid motion `b`
by `t'`, `θ'`, then `a b⁻¹` is perturbed by a shift that takes in the lever arm from its origin to
the image of the origin of `b`, and by a turn. -/
theorem perturb_mul_inverse {a b : Motion R} (ha : a.IsRigid) (hb : b.IsRigid)
    (t θ t' θ' : Fin 3 → R) :
    let c := a.mul b.inverse
    (perturb a t θ).mul (perturb b t' θ').inverse =
      perturb c
        (t + skew (c.linear *ᵥ b.translation) *ᵥ θ - c.linear *ᵥ t' -
          c.linear *ᵥ skew b.translation *ᵥ θ')
        (θ - c.linear *ᵥ θ') := by
  intro c
  have hc : c.IsRigid := ha.mul hb.inverse
  have hlinear : c.linear = a.linear * b.linearᵀ := rfl
  refine Motion.ext ?_ ?_
  · change (perturb a t θ).linear * (perturb b t' θ').linearᵀ = _
    rw [perturb_linear, perturb_linear, perturb_linear, dualMatrix_transpose, dualMatrix_mul,
      skew_sub, Matrix.sub_mul, ← mul_skew hc, transpose_mul, skew_transpose, hlinear]
    refine congrArg _ ?_
    rw [Matrix.mul_neg, Matrix.mul_neg, ← Matrix.mul_assoc, ← Matrix.mul_assoc]
    exact neg_add_eq_sub _ _
  · change (perturb a t θ).linear *ᵥ -((perturb b t' θ').linearᵀ *ᵥ dualVector b.translation t') +
      dualVector a.translation t = dualVector _ _
    rw [perturb_linear, perturb_linear, dualMatrix_transpose, dualMatrix_mulVec, dualVector_neg,
      dualMatrix_mulVec, dualVector_add]
    refine dualVector_inj.mpr ⟨rfl, ?_⟩
    have hshift : a.linear *ᵥ b.linearᵀ *ᵥ t' = c.linear *ᵥ t' := mulVec_mulVec _ _ _
    have hturn : a.linear *ᵥ (skew θ' * b.linear)ᵀ *ᵥ b.translation =
        c.linear *ᵥ skew b.translation *ᵥ θ' := by
      rw [transpose_mul, skew_transpose, Matrix.mul_neg, neg_mulVec, mulVec_neg, ← mulVec_mulVec,
        mulVec_mulVec _ a.linear, skew_mulVec_comm θ', mulVec_neg, neg_neg, hlinear]
    have hlever : (skew θ * a.linear) *ᵥ b.linearᵀ *ᵥ b.translation =
        -(skew (c.linear *ᵥ b.translation) *ᵥ θ) := by
      rw [← mulVec_mulVec, mulVec_mulVec _ a.linear, skew_mulVec_comm, hlinear]
    rw [mulVec_neg, mulVec_add, mulVec_neg, hshift, hturn, hlever]
    abel

end RigidMotion
