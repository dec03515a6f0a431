import Mathlib.Analysis.Calculus.Deriv.Add
import Mathlib.Analysis.SpecialFunctions.Trigonometric.Deriv
import Mathlib.Topology.Algebra.Module.ModuleTopology
import Mathlib.Topology.Algebra.Order.Floor

/-!
# Piecewise motions

`IsMotion x v`: the position `x` is continuously differentiable with the velocity `v`.  Motions can
be joined where position and velocity agree (`IsMotion.ite`), saturated where they rest
(`IsMotion.clip`) and repeated when a lap ends as it began (`IsMotion.mod`).
-/

open Set Filter Topology

/-- The position `x` moves with the continuous velocity `v`. -/
structure IsMotion (x v : ℝ → ℝ) : Prop where
  hasDerivAt : ∀ t, HasDerivAt x (v t) t
  continuous : Continuous v

namespace IsMotion

variable {x y v w : ℝ → ℝ}

theorem const (c : ℝ) : IsMotion (fun _ => c) fun _ => 0 :=
  ⟨fun t => hasDerivAt_const t c, continuous_const⟩

theorem time : IsMotion (fun t => t) fun _ => 1 := ⟨hasDerivAt_id, continuous_const⟩

theorem add (h : IsMotion x v) (h' : IsMotion y w) :
    IsMotion (fun t => x t + y t) fun t => v t + w t :=
  ⟨fun t => (h.hasDerivAt t).add (h'.hasDerivAt t), h.continuous.add h'.continuous⟩

theorem const_mul (c : ℝ) (h : IsMotion x v) : IsMotion (fun t => c * x t) fun t => c * v t :=
  ⟨fun t => (h.hasDerivAt t).const_mul c, h.continuous.const_mul c⟩

theorem div_const (h : IsMotion x v) (c : ℝ) : IsMotion (fun t => x t / c) fun t => v t / c :=
  ⟨fun t => (h.hasDerivAt t).div_const c, h.continuous.div_const c⟩

theorem const_add (c : ℝ) (h : IsMotion x v) : IsMotion (fun t => c + x t) v :=
  ⟨fun t => (h.hasDerivAt t).const_add c, h.continuous⟩

theorem pow (n : ℕ) : IsMotion (fun t => t ^ (n + 1)) fun t => (n + 1) * t ^ n where
  hasDerivAt t := by
    have hpow := hasDerivAt_pow (n + 1) t
    rwa [Nat.add_sub_cancel, Nat.cast_add, Nat.cast_one] at hpow
  continuous := (continuous_pow n).const_mul _

theorem sin : IsMotion Real.sin Real.cos := ⟨Real.hasDerivAt_sin, by fun_prop⟩

theorem cos : IsMotion Real.cos fun t => -Real.sin t :=
  ⟨Real.hasDerivAt_cos, by fun_prop⟩

/-- The motion along a motion. -/
theorem comp (h : IsMotion x v) (h' : IsMotion y w) :
    IsMotion (fun t => x (y t)) fun t => v (y t) * w t where
  hasDerivAt t := (h.hasDerivAt (y t)).comp t (h'.hasDerivAt t)
  continuous :=
    (h.continuous.comp (continuous_iff_continuousAt.mpr fun t =>
      (h'.hasDerivAt t).continuousAt)).mul h'.continuous

theorem congr {x' v' : ℝ → ℝ} (h : IsMotion x v) (hx : ∀ t, x' t = x t) (hv : ∀ t, v' t = v t) :
    IsMotion x' v' := by
  obtain rfl := funext hx
  obtain rfl := funext hv
  exact h

/-- A motion covers no more than its greatest speed allows. -/
theorem abs_sub_le {c : ℝ} (h : IsMotion x v) (hc : ∀ t, |v t| ≤ c) (s t : ℝ) :
    |x t - x s| ≤ c * |t - s| := by
  have hbound := convex_univ.norm_image_sub_le_of_norm_hasDerivWithin_le
    (fun u _ => (h.hasDerivAt u).hasDerivWithinAt) (fun u _ => hc u) (mem_univ s) (mem_univ t)
  simpa only [Real.norm_eq_abs] using hbound

/-- One motion up to `a` and another from there on. -/
theorem ite {a : ℝ} (h : IsMotion x v) (h' : IsMotion y w) (hx : x a = y a) (hv : v a = w a) :
    IsMotion (fun t => if t < a then x t else y t) fun t => if t < a then v t else w t := by
  have hleft (t : ℝ) (ht : t ≤ a) : (if t < a then x t else y t) = x t := by
    rcases ht.lt_or_eq with hlt | rfl
    · exact if_pos hlt
    · rw [if_neg (lt_irrefl _), hx]
  have hright (t : ℝ) (ht : a ≤ t) : (if t < a then x t else y t) = y t :=
    if_neg (not_lt.mpr ht)
  constructor
  · intro t
    rcases lt_trichotomy t a with hlt | rfl | hgt
    · rw [if_pos hlt]
      refine (h.hasDerivAt t).congr_of_eventuallyEq ?_
      filter_upwards [Iio_mem_nhds hlt] with u hu
      exact hleft u (le_of_lt hu)
    · rw [if_neg (lt_irrefl _)]
      have hbelow : HasDerivWithinAt (fun u => if u < t then x u else y u) (w t) (Iic t) t :=
        ((hv ▸ h.hasDerivAt t).hasDerivWithinAt).congr (fun u hu => hleft u hu)
          (hleft t le_rfl)
      have habove : HasDerivWithinAt (fun u => if u < t then x u else y u) (w t) (Ici t) t :=
        ((h'.hasDerivAt t).hasDerivWithinAt).congr (fun u hu => hright u hu) (hright t le_rfl)
      have hunion := hbelow.union habove
      rwa [Iic_union_Ici, hasDerivWithinAt_univ] at hunion
    · rw [if_neg (not_lt.mpr hgt.le)]
      refine (h'.hasDerivAt t).congr_of_eventuallyEq ?_
      filter_upwards [Ioi_mem_nhds hgt] with u hu
      exact hright u (le_of_lt hu)
  · have hcontinuous : Continuous fun t => if a ≤ t then w t else v t :=
      Continuous.if_le h'.continuous h.continuous continuous_const continuous_id
        fun t ht => ht ▸ hv.symm
    refine hcontinuous.congr fun t => ?_
    · rcases lt_or_ge t a with hlt | hge
      · rw [if_neg (not_le.mpr hlt), if_pos hlt]
      · rw [if_pos hge, if_neg (not_lt.mpr hge)]

/-- Four motions one after the other. -/
theorem joinFour {x₁ x₂ x₃ x₄ v₁ v₂ v₃ v₄ : ℝ → ℝ} {a b c : ℝ} (hab : a ≤ b) (hbc : b ≤ c)
    (h₁ : IsMotion x₁ v₁) (h₂ : IsMotion x₂ v₂) (h₃ : IsMotion x₃ v₃) (h₄ : IsMotion x₄ v₄)
    (ha : x₁ a = x₂ a ∧ v₁ a = v₂ a) (hb : x₂ b = x₃ b ∧ v₂ b = v₃ b)
    (hc : x₃ c = x₄ c ∧ v₃ c = v₄ c) :
    IsMotion (fun t => if t < a then x₁ t else if t < b then x₂ t else if t < c then x₃ t else x₄ t)
      fun t => if t < a then v₁ t else if t < b then v₂ t else if t < c then v₃ t else v₄ t := by
  have hab' : ¬ b < a := not_lt.mpr hab
  have hbc' : ¬ c < b := not_lt.mpr hbc
  have hjoined := ((h₁.ite (a := a) h₂ ha.1 ha.2).ite (a := b) h₃
    (by rw [if_neg hab', hb.1]) (by rw [if_neg hab', hb.2])).ite (a := c) h₄
    (by rw [if_neg hbc', hc.1]) (by rw [if_neg hbc', hc.2])
  have hnest (z₁ z₂ z₃ z₄ t : ℝ) :
      (if t < a then z₁ else if t < b then z₂ else if t < c then z₃ else z₄) =
        if t < c then if t < b then if t < a then z₁ else z₂ else z₃ else z₄ := by
    split_ifs <;> first | rfl | (exfalso; linarith)
  exact hjoined.congr (fun t => hnest _ _ _ _ t) fun t => hnest _ _ _ _ t

/-- A motion that rests at `0` and at `1`, between them only. -/
theorem clip (h : IsMotion x v) (hzero : v 0 = 0) (hone : v 1 = 0) :
    IsMotion (fun t => x (min (max t 0) 1)) fun t => v (min (max t 0) 1) := by
  have hend := ite (a := 1) h (const (x 1)) rfl hone
  have hbegin := ite (a := 0) (const (x 0)) hend (by simp) (by simp [hzero])
  have hclip (z : ℝ → ℝ) (t : ℝ) : z (min (max t 0) 1) =
      if t < 0 then z 0 else if t < 1 then z t else z 1 := by
    rcases lt_or_ge t 0 with hneg | hpos
    · rw [if_pos hneg, max_eq_right hneg.le, min_eq_left zero_le_one]
    · rw [if_neg (not_lt.mpr hpos), max_eq_left hpos]
      rcases lt_or_ge t 1 with hlt | hge
      · rw [if_pos hlt, min_eq_left hlt.le]
      · rw [if_neg (not_lt.mpr hge), min_eq_right hge]
  refine hbegin.congr (hclip x) fun t => ?_
  rw [hclip v t, hzero, hone]

/-- The time since the last multiple of a positive period. -/
theorem sub_mul_floor_eq {p t : ℝ} {n : ℤ} (hp : 0 < p) (hlow : p * n ≤ t)
    (hhigh : t < p * (n + 1)) :
    t - p * ⌊t / p⌋ = t - p * n := by
  rw [Int.floor_eq_iff.mpr ⟨(le_div_iff₀' hp).mpr hlow, (div_lt_iff₀' hp).mpr hhigh⟩]

/-- A lap that ends as it began, again and again. -/
theorem mod {p : ℝ} (hp : 0 < p) (h : IsMotion x v) (hx : x p = x 0) (hv : v p = v 0) :
    IsMotion (fun t => x (t - p * ⌊t / p⌋)) fun t => v (t - p * ⌊t / p⌋) where
  hasDerivAt t := by
    have hshift (n : ℤ) (t : ℝ) : HasDerivAt (fun u => x (u - p * n)) (v (t - p * n)) t := by
      have hsub : HasDerivAt (fun u : ℝ => u - p * n) 1 t := (hasDerivAt_id t).sub_const _
      have hcomp := (h.hasDerivAt (t - p * n)).comp t hsub
      rwa [mul_one] at hcomp
    have hlow : p * ⌊t / p⌋ ≤ t := (le_div_iff₀' hp).mp (Int.floor_le _)
    have hhigh : t < p * (⌊t / p⌋ + 1) := (div_lt_iff₀' hp).mp (Int.lt_floor_add_one _)
    generalize ⌊t / p⌋ = n at hlow hhigh ⊢
    rcases hlow.lt_or_eq with hlt | heq
    · refine (hshift n t).congr_of_eventuallyEq ?_
      filter_upwards [Ioo_mem_nhds hlt hhigh] with u hu
      rw [sub_mul_floor_eq hp hu.1.le hu.2]
    · subst heq
      have habove : HasDerivWithinAt (fun u => x (u - p * ⌊u / p⌋)) (v 0) (Ici (p * n))
        (p * n) := by
        have hright := (hshift n (p * n)).hasDerivWithinAt (s := Ici (p * n))
        rw [sub_self] at hright
        refine hright.congr_of_eventuallyEq_of_mem ?_ self_mem_Ici
        filter_upwards [self_mem_nhdsWithin, mem_nhdsWithin_of_mem_nhds (Iio_mem_nhds hhigh)] with
          u hu hlt
        rw [sub_mul_floor_eq hp hu hlt]
      have hbelow : HasDerivWithinAt (fun u => x (u - p * ⌊u / p⌋)) (v 0) (Iic (p * n))
        (p * n) := by
        have hleft := (hshift (n - 1) (p * n)).hasDerivWithinAt (s := Iic (p * n))
        have hlap : p * n - p * (n - 1 : ℤ) = p := by push_cast; ring
        rw [hlap, hv] at hleft
        have hprevious : p * (n - 1 : ℤ) < p * n :=
          mul_lt_mul_of_pos_left (by exact_mod_cast sub_one_lt n) hp
        refine hleft.congr_of_eventuallyEq_of_mem ?_ self_mem_Iic
        filter_upwards [self_mem_nhdsWithin, mem_nhdsWithin_of_mem_nhds (Ioi_mem_nhds hprevious)]
          with u hu hgt
        rcases (mem_Iic.mp hu).lt_or_eq with hlt | rfl
        · rw [sub_mul_floor_eq hp (le_of_lt hgt) (by push_cast; linarith)]
        · rw [sub_mul_floor_eq hp le_rfl hhigh, sub_self, hlap, hx]
      have hunion := hbelow.union habove
      rw [Iic_union_Ici, hasDerivWithinAt_univ] at hunion
      rwa [sub_self]
  continuous := by
    have hcontinuous : ContinuousOn (fun a => v (p * a)) (Icc 0 1) :=
      (h.continuous.comp (continuous_const.mul continuous_id)).continuousOn
    have hfract := hcontinuous.comp_fract'' (by simp [hv])
    refine (hfract.comp (continuous_id.div_const p)).congr fun t => ?_
    simp only [Function.comp_apply, id_eq, Int.fract, mul_sub, mul_div_cancel₀ t hp.ne']

end IsMotion
