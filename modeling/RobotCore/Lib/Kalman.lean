import Mathlib.Algebra.Order.Star.Real
import Mathlib.Analysis.Matrix.PosDef
import Mathlib.Tactic.Abel
import Mathlib.Tactic.Linarith
import Mathlib.Tactic.Ring

/-!
# The linear update of a covariance

A state with the covariance `P` is observed through `H` with a noise of the covariance `R`.  An
update with the gain `K` leaves the covariance `joseph P H R K`, whatever the gain is;
`optimalGain P H R` is the one of the Kalman filter, which leaves `posterior P H R`.

Away from the optimal gain the covariance grows by the square of the difference
(`joseph_eq_posterior_add`), so the posterior is the least of them
(`posSemidef_joseph_sub_posterior`).  With each row of the optimal gain scaled by a factor, what the
observation takes off an entry is scaled by a number that depends on the two factors only
(`joseph_scaledGain_apply`).
-/

namespace Kalman

open Matrix

variable {m n : Type*} [Fintype m] [Fintype n]

/-- The covariance of the innovation. -/
def innovationCovariance (P : Matrix n n ℝ) (H : Matrix m n ℝ) (R : Matrix m m ℝ) : Matrix m m ℝ :=
  H * P * Hᵀ + R

theorem posDef_innovationCovariance {P : Matrix n n ℝ} {R : Matrix m m ℝ} (hP : P.PosSemidef)
    (hR : R.PosDef) (H : Matrix m n ℝ) : (innovationCovariance P H R).PosDef := by
  have hHPH := hP.mul_mul_conjTranspose_same H
  rw [conjTranspose_eq_transpose_of_trivial] at hHPH
  exact hR.posSemidef_add hHPH

section Gain

variable [DecidableEq m]

noncomputable def optimalGain (P : Matrix n n ℝ) (H : Matrix m n ℝ) (R : Matrix m m ℝ) :
    Matrix n m ℝ :=
  P * Hᵀ * (innovationCovariance P H R)⁻¹

/-- What the optimal update takes off the covariance. -/
noncomputable def reduction (P : Matrix n n ℝ) (H : Matrix m n ℝ) (R : Matrix m m ℝ) :
    Matrix n n ℝ :=
  optimalGain P H R * H * P

/-- The covariance after the update of the Kalman filter. -/
noncomputable def posterior (P : Matrix n n ℝ) (H : Matrix m n ℝ) (R : Matrix m m ℝ) :
    Matrix n n ℝ :=
  P - reduction P H R

end Gain

variable {P : Matrix n n ℝ} {R : Matrix m m ℝ}

section Optimal

variable [DecidableEq m] (hP : P.PosSemidef) (hR : R.PosDef) (H : Matrix m n ℝ)
include hP hR

theorem optimalGain_mul_innovationCovariance :
    optimalGain P H R * innovationCovariance P H R = P * Hᵀ := by
  have hunit := (isUnit_iff_isUnit_det _).mp (posDef_innovationCovariance hP hR H).isUnit
  rw [optimalGain, Matrix.mul_assoc, nonsing_inv_mul _ hunit, Matrix.mul_one]

/-- The reduction is the covariance of the correction. -/
theorem reduction_eq :
    reduction P H R = optimalGain P H R * innovationCovariance P H R * (optimalGain P H R)ᵀ := by
  have hsymm : (innovationCovariance P H R)⁻¹ᵀ = (innovationCovariance P H R)⁻¹ := by
    simpa using (posDef_innovationCovariance hP hR H).inv.isHermitian.eq
  have hPt : Pᵀ = P := by simpa using hP.isHermitian.eq
  rw [optimalGain_mul_innovationCovariance hP hR H, reduction, optimalGain, transpose_mul, hsymm,
    transpose_mul, hPt, transpose_transpose]
  simp only [Matrix.mul_assoc]

theorem posSemidef_reduction : (reduction P H R).PosSemidef := by
  have h := (posDef_innovationCovariance hP hR H).posSemidef.mul_mul_conjTranspose_same
    (optimalGain P H R)
  rwa [conjTranspose_eq_transpose_of_trivial, ← reduction_eq hP hR H] at h

end Optimal

/-! ### The update with any gain -/

variable [DecidableEq n]

/-- The covariance after an update with the gain `K`. -/
def joseph (P : Matrix n n ℝ) (H : Matrix m n ℝ) (R : Matrix m m ℝ) (K : Matrix n m ℝ) :
    Matrix n n ℝ :=
  (1 - K * H) * P * (1 - K * H)ᵀ + K * R * Kᵀ

/-- The update with any gain leaves a covariance. -/
theorem posSemidef_joseph (hP : P.PosSemidef) (hR : R.PosSemidef) (H : Matrix m n ℝ)
    (K : Matrix n m ℝ) : (joseph P H R K).PosSemidef := by
  have hstate := hP.mul_mul_conjTranspose_same (1 - K * H)
  have hnoise := hR.mul_mul_conjTranspose_same K
  rw [conjTranspose_eq_transpose_of_trivial] at hstate hnoise
  exact hstate.add hnoise

theorem joseph_eq (hP : Pᵀ = P) (H : Matrix m n ℝ) (K : Matrix n m ℝ) :
    joseph P H R K =
      P - K * (H * P) - (K * (H * P))ᵀ + K * innovationCovariance P H R * Kᵀ := by
  unfold joseph innovationCovariance
  simp only [transpose_sub, transpose_one, transpose_mul, hP, Matrix.sub_mul, Matrix.mul_sub,
    Matrix.one_mul, Matrix.mul_one, Matrix.mul_add, Matrix.add_mul, Matrix.mul_assoc]
  abel

section Square

variable [DecidableEq m] (hP : P.PosSemidef) (hR : R.PosDef) (H : Matrix m n ℝ)
include hP hR

/-- **The square is completed**: away from the optimal gain the covariance grows by the covariance
of the difference of the corrections. -/
theorem joseph_eq_posterior_add (K : Matrix n m ℝ) :
    joseph P H R K = posterior P H R + (K - optimalGain P H R) * innovationCovariance P H R *
      (K - optimalGain P H R)ᵀ := by
  have hPt : Pᵀ = P := by simpa using hP.isHermitian.eq
  have hSt : (innovationCovariance P H R)ᵀ = innovationCovariance P H R := by
    simpa using (posDef_innovationCovariance hP hR H).isHermitian.eq
  have hgain := optimalGain_mul_innovationCovariance hP hR H
  have hgain' : innovationCovariance P H R * (optimalGain P H R)ᵀ = H * P := by
    have := congrArg transpose hgain
    rwa [transpose_mul, hSt, transpose_mul, transpose_transpose, hPt] at this
  have hcross : K * innovationCovariance P H R * (optimalGain P H R)ᵀ = K * (H * P) := by
    rw [Matrix.mul_assoc, hgain']
  have hcross' : optimalGain P H R * innovationCovariance P H R * Kᵀ = (K * (H * P))ᵀ := by
    rw [hgain, transpose_mul, transpose_mul, hPt]
  rw [joseph_eq hPt, posterior, reduction_eq hP hR H, transpose_sub]
  simp only [Matrix.sub_mul, Matrix.mul_sub, hcross, hcross']
  abel

/-- The posterior is the least covariance that an update can leave. -/
theorem posSemidef_joseph_sub_posterior (K : Matrix n m ℝ) :
    (joseph P H R K - posterior P H R).PosSemidef := by
  have h := (posDef_innovationCovariance hP hR H).posSemidef.mul_mul_conjTranspose_same
    (K - optimalGain P H R)
  rwa [joseph_eq_posterior_add hP hR, add_sub_cancel_left,
    ← conjTranspose_eq_transpose_of_trivial (K - optimalGain P H R)]

end Square

/-! ### Scaled rows -/

/-- The optimal gain with the row `i` scaled by `d i`. -/
noncomputable def scaledGain [DecidableEq m] (P : Matrix n n ℝ) (H : Matrix m n ℝ)
    (R : Matrix m m ℝ) (d : n → ℝ) : Matrix n m ℝ :=
  diagonal d * optimalGain P H R

/-- What the update takes off an entry is scaled by a number between the two factors and one. -/
theorem joseph_scaledGain_apply [DecidableEq m] (hP : P.PosSemidef) (hR : R.PosDef)
    (H : Matrix m n ℝ) (d : n → ℝ) (i j : n) :
    joseph P H R (scaledGain P H R d) i j =
      P i j - (d i + d j - d i * d j) * reduction P H R i j := by
  have hdifference : scaledGain P H R d - optimalGain P H R =
      diagonal (d - 1) * optimalGain P H R := by
    have hsub : diagonal (d - 1) = diagonal d - 1 := by
      rw [← diagonal_one, diagonal_sub]
      rfl
    rw [scaledGain, hsub, Matrix.sub_mul, Matrix.one_mul]
  have hsquare : diagonal (d - 1) * optimalGain P H R * innovationCovariance P H R *
      (diagonal (d - 1) * optimalGain P H R)ᵀ =
        diagonal (d - 1) * reduction P H R * diagonal (d - 1) := by
    rw [transpose_mul, diagonal_transpose, reduction_eq hP hR H]
    simp only [Matrix.mul_assoc]
  rw [joseph_eq_posterior_add hP hR, hdifference, hsquare, posterior, Matrix.add_apply,
    Matrix.sub_apply, mul_diagonal, diagonal_mul]
  simp only [Pi.sub_apply, Pi.one_apply]
  ring

end Kalman
