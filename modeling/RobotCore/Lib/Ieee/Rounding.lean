import Mathlib.Algebra.Order.Floor.Ring
import Mathlib.Data.Int.Log
import Mathlib.Data.Rat.Floor
import Mathlib.Tactic.FieldSimp
import Mathlib.Tactic.Linarith
import Mathlib.Tactic.NormNum
import Mathlib.Tactic.Positivity
import Mathlib.Tactic.Ring

/-!
# Rounding to a binary floating-point format

A `Format` is a precision, the exponent of its smallest quantum and the exponent at which it
overflows.  `roundTo f q` is the value of the format nearest to the rational `q`, ties to the even
significand, before overflow is looked at.  The rounding is computable, so a concrete computation
can be evaluated.

The facts the rest of the development uses: `roundTo` fixes the representable numbers
(`roundTo_of_representable`), lands in them (`representable_roundTo`), is odd (`roundTo_neg`) and
monotone (`roundTo_mono`); hence it never leaves an interval with representable end points
(`abs_roundTo_le`).
-/

namespace Ieee

/-! ### Round half to even -/

/-- The integer nearest to `q`, the even one when two are equally near. -/
def roundHalfEven (q : ℚ) : ℤ :=
  if q - ⌊q⌋ < 1 / 2 then ⌊q⌋
  else if 1 / 2 < q - ⌊q⌋ then ⌊q⌋ + 1
  else if ⌊q⌋ % 2 = 0 then ⌊q⌋
  else ⌊q⌋ + 1

@[simp] theorem roundHalfEven_intCast (n : ℤ) : roundHalfEven (n : ℚ) = n := by
  simp [roundHalfEven]

theorem floor_le_roundHalfEven (q : ℚ) : ⌊q⌋ ≤ roundHalfEven q := by
  unfold roundHalfEven
  split_ifs <;> omega

theorem roundHalfEven_le_floor_add_one (q : ℚ) : roundHalfEven q ≤ ⌊q⌋ + 1 := by
  unfold roundHalfEven
  split_ifs <;> omega

theorem roundHalfEven_mono {a b : ℚ} (hab : a ≤ b) : roundHalfEven a ≤ roundHalfEven b := by
  have hfloor : ⌊a⌋ ≤ ⌊b⌋ := Int.floor_mono hab
  rcases hfloor.lt_or_eq with hlt | heq
  · calc roundHalfEven a ≤ ⌊a⌋ + 1 := roundHalfEven_le_floor_add_one a
      _ ≤ ⌊b⌋ := hlt
      _ ≤ roundHalfEven b := floor_le_roundHalfEven b
  · -- In one unit interval the rounding only looks at the fractional part.
    have hfrac : a - ⌊b⌋ ≤ b - ⌊b⌋ := sub_le_sub_right hab _
    unfold roundHalfEven
    rw [heq]
    split_ifs <;> first | omega | (exfalso; linarith)

/-- Past the middle it rounds up. -/
theorem lt_roundHalfEven {q : ℚ} {n : ℤ} (h : n + 1 / 2 < q) : n < roundHalfEven q := by
  have hfloor : n ≤ ⌊q⌋ := Int.le_floor.mpr (by linarith)
  rcases hfloor.lt_or_eq with hlt | rfl
  · exact lt_of_lt_of_le hlt (floor_le_roundHalfEven q)
  · unfold roundHalfEven
    rw [if_neg (by linarith), if_pos (by linarith)]
    omega

theorem roundHalfEven_neg (q : ℚ) : roundHalfEven (-q) = -roundHalfEven q := by
  rcases eq_or_ne q ⌊q⌋ with hint | hne
  · rw [hint, ← Int.cast_neg, roundHalfEven_intCast, roundHalfEven_intCast]
  · have hlt : (⌊q⌋ : ℚ) < q := lt_of_le_of_ne (Int.floor_le q) (Ne.symm hne)
    have hlt' : q < ⌊q⌋ + 1 := Int.lt_floor_add_one q
    have hfloor : ⌊-q⌋ = -⌊q⌋ - 1 := by
      rw [Int.floor_eq_iff]
      push_cast
      constructor <;> linarith
    unfold roundHalfEven
    rw [hfloor]
    push_cast
    split_ifs <;> first | omega | (exfalso; linarith)

/-! ### Round half away from zero -/

/-- The integer nearest to `q`, the one further from zero when two are equally near. -/
def roundHalfAway (q : ℚ) : ℤ :=
  if 0 ≤ q then ⌊q + 1 / 2⌋ else -⌊-q + 1 / 2⌋

theorem roundHalfAway_neg (q : ℚ) : roundHalfAway (-q) = -roundHalfAway q := by
  unfold roundHalfAway
  rcases lt_trichotomy q 0 with hq | rfl | hq
  · rw [if_pos (by linarith), if_neg (by linarith), neg_neg]
  · norm_num
  · rw [if_neg (by linarith), if_pos hq.le, neg_neg]

theorem roundHalfAway_eq_zero_iff (q : ℚ) : roundHalfAway q = 0 ↔ |q| < 1 / 2 := by
  unfold roundHalfAway
  rcases le_or_gt 0 q with hq | hq
  · rw [if_pos hq, abs_of_nonneg hq, Int.floor_eq_iff]
    push_cast
    constructor
    · intro h
      linarith [h.2]
    · exact fun h => ⟨by linarith, by linarith⟩
  · rw [if_neg (not_le.mpr hq), abs_of_neg hq, neg_eq_zero, Int.floor_eq_iff]
    push_cast
    constructor
    · intro h
      linarith [h.2]
    · exact fun h => ⟨by linarith, by linarith⟩

theorem abs_roundHalfAway_le {q : ℚ} {n : ℕ} (h : |q| ≤ n) : |roundHalfAway q| ≤ n := by
  have hnonneg : ∀ p : ℚ, 0 ≤ p → p ≤ n → 0 ≤ ⌊p + 1 / 2⌋ ∧ ⌊p + 1 / 2⌋ ≤ n := by
    intro p hp hpn
    refine ⟨Int.floor_nonneg.mpr (by linarith), Int.lt_add_one_iff.mp (Int.floor_lt.mpr ?_)⟩
    push_cast
    linarith
  unfold roundHalfAway
  rcases le_or_gt 0 q with hq | hq
  · rw [abs_of_nonneg hq] at h
    obtain ⟨hlo, hhi⟩ := hnonneg q hq h
    rw [if_pos hq, abs_of_nonneg hlo]
    exact hhi
  · rw [abs_of_neg hq] at h
    obtain ⟨hlo, hhi⟩ := hnonneg (-q) (by linarith) h
    rw [if_neg (not_le.mpr hq), abs_neg, abs_of_nonneg hlo]
    exact hhi

/-! ### Formats -/

/-- A binary floating-point format: `precision` significand bits, smallest quantum
`2 ^ minExponent`, finite values below `2 ^ maxExponent`. -/
structure Format where
  precision : ℕ
  minExponent : ℤ
  maxExponent : ℤ
  precision_pos : 0 < precision

/-- IEEE 754 single precision, the C++ `float`. -/
def binary32 : Format := ⟨24, -149, 128, by decide⟩

/-- IEEE 754 double precision, the C++ `double`. -/
def binary64 : Format := ⟨53, -1074, 1024, by decide⟩

variable (f : Format)

/-- The exponent of the last significand bit of a number of the size of `q`. -/
def quantumExponent (q : ℚ) : ℤ :=
  max f.minExponent (Int.log 2 |q| + 1 - f.precision)

/-- The value of the format nearest to `q`, ties to even. -/
def roundTo (q : ℚ) : ℚ :=
  roundHalfEven (q / 2 ^ quantumExponent f q) * 2 ^ quantumExponent f q

/-- `q` is a significand of at most `precision` bits times an allowed power of two. -/
def Representable (q : ℚ) : Prop :=
  ∃ m e : ℤ, q = m * 2 ^ e ∧ |m| < 2 ^ f.precision ∧ f.minExponent ≤ e

variable {f}

theorem two_zpow_pos (e : ℤ) : (0 : ℚ) < 2 ^ e := zpow_pos (by norm_num) e

/-! ### The quantum of a number -/

theorem quantumExponent_neg (q : ℚ) : quantumExponent f (-q) = quantumExponent f q := by
  simp [quantumExponent]

theorem abs_lt_two_zpow_of_quantum (q : ℚ) :
    |q| < 2 ^ (quantumExponent f q + f.precision) := by
  have hlog : |q| < (2 : ℚ) ^ (Int.log 2 |q| + 1) := by
    exact_mod_cast Int.lt_zpow_succ_log_self (b := 2) (by norm_num) |q|
  refine hlog.trans_le (zpow_le_zpow_right₀ (by norm_num) ?_)
  have := le_max_right f.minExponent (Int.log 2 |q| + 1 - f.precision)
  unfold quantumExponent
  omega

/-- Above the smallest quantum, the leading bit of `q` sits `precision - 1` places up. -/
theorem two_zpow_le_abs_of_lt_quantum {q : ℚ} (hq : q ≠ 0)
    (h : f.minExponent < quantumExponent f q) :
    (2 : ℚ) ^ (quantumExponent f q + f.precision - 1) ≤ |q| := by
  have hexp : quantumExponent f q + f.precision - 1 = Int.log 2 |q| := by
    unfold quantumExponent at h ⊢
    omega
  rw [hexp]
  exact_mod_cast Int.zpow_log_le_self (b := 2) (by norm_num) (abs_pos.mpr hq)

theorem quantumExponent_mono {a b : ℚ} (ha : 0 < a) (hab : a ≤ b) :
    quantumExponent f a ≤ quantumExponent f b := by
  have hlog : Int.log 2 |a| ≤ Int.log 2 |b| := by
    rw [abs_of_pos ha, abs_of_pos (ha.trans_le hab)]
    exact Int.log_mono_right ha hab
  unfold quantumExponent
  omega

/-- The quantum of a representable number divides it. -/
theorem quantumExponent_le_of_eq {q : ℚ} {m e : ℤ} (hq : q ≠ 0) (hqe : q = m * 2 ^ e)
    (hm : |m| < 2 ^ f.precision) (he : f.minExponent ≤ e) : quantumExponent f q ≤ e := by
  by_contra hlt
  have hbig := two_zpow_le_abs_of_lt_quantum hq (lt_of_le_of_lt he (not_le.mp hlt))
  have hsmall : |q| < 2 ^ (e + f.precision) := by
    have hm' : |(m : ℚ)| < 2 ^ f.precision := by exact_mod_cast hm
    rw [hqe, abs_mul, abs_of_pos (two_zpow_pos e), zpow_add₀ (by norm_num), zpow_natCast, mul_comm]
    exact mul_lt_mul_of_pos_left hm' (two_zpow_pos e)
  have hexp : e + f.precision ≤ quantumExponent f q + f.precision - 1 := by omega
  have := zpow_le_zpow_right₀ (a := (2 : ℚ)) (by norm_num) hexp
  linarith

theorem mul_two_zpow_eq_of_le {m e d : ℤ} (h : d ≤ e) :
    (m : ℚ) * 2 ^ e = ((m * 2 ^ (e - d).toNat : ℤ) : ℚ) * 2 ^ d := by
  push_cast
  rw [mul_assoc, ← zpow_natCast, ← zpow_add₀ (by norm_num : (2 : ℚ) ≠ 0)]
  congr 2
  omega

/-! ### Fixed points -/

theorem roundTo_of_multiple {q : ℚ} {k : ℤ} (h : q = k * 2 ^ quantumExponent f q) :
    roundTo f q = q := by
  unfold roundTo
  conv_lhs => rw [show q / 2 ^ quantumExponent f q = (k : ℚ) by
    rw [div_eq_iff (two_zpow_pos _).ne']; exact h]
  rw [roundHalfEven_intCast, ← h]

@[simp] theorem roundTo_zero : roundTo f 0 = 0 :=
  roundTo_of_multiple (k := 0) (by simp)

theorem roundTo_of_representable {q : ℚ} (h : Representable f q) : roundTo f q = q := by
  obtain ⟨m, e, hqe, hm, he⟩ := h
  rcases eq_or_ne q 0 with rfl | hq
  · exact roundTo_zero
  · have hle := quantumExponent_le_of_eq hq hqe hm he
    exact roundTo_of_multiple (by rw [← mul_two_zpow_eq_of_le hle]; exact hqe)

theorem representable_natCast {n : ℕ} (hn : n < 2 ^ f.precision) (h : f.minExponent ≤ 0) :
    Representable f n :=
  ⟨n, 0, by simp, by rw [Nat.abs_cast]; exact_mod_cast hn, h⟩

theorem representable_neg {q : ℚ} (h : Representable f q) : Representable f (-q) := by
  obtain ⟨m, e, hqe, hm, he⟩ := h
  exact ⟨-m, e, by rw [hqe]; push_cast; ring, by rwa [abs_neg], he⟩

/-- Rounding lands in the format.  A significand rounded up to `2 ^ precision` is read as
`2 ^ (precision - 1)` one quantum higher. -/
theorem representable_roundTo (q : ℚ) : Representable f (roundTo f q) := by
  set e := quantumExponent f q with he
  set k := roundHalfEven (q / 2 ^ e) with hk
  have hmin : f.minExponent ≤ e := le_max_left _ _
  have hscaled : |q / 2 ^ e| < 2 ^ f.precision := by
    rw [abs_div, abs_of_pos (two_zpow_pos e), div_lt_iff₀ (two_zpow_pos e), ← zpow_natCast,
      ← zpow_add₀ (by norm_num), add_comm]
    exact abs_lt_two_zpow_of_quantum q
  have hbound : |k| ≤ 2 ^ f.precision := by
    obtain ⟨hlo, hhi⟩ := abs_lt.mp hscaled
    have hup := roundHalfEven_mono (a := q / 2 ^ e) (b := ((2 ^ f.precision : ℤ) : ℚ))
      (by push_cast; exact hhi.le)
    have hdown := roundHalfEven_mono (a := ((-2 ^ f.precision : ℤ) : ℚ)) (b := q / 2 ^ e)
      (by push_cast; exact hlo.le)
    rw [roundHalfEven_intCast] at hup hdown
    exact abs_le.mpr ⟨hdown, hup⟩
  rcases hbound.lt_or_eq with hlt | heq
  · exact ⟨k, e, rfl, hlt, hmin⟩
  · obtain ⟨p, hp⟩ : ∃ p, f.precision = p + 1 :=
      ⟨f.precision - 1, by have := f.precision_pos; omega⟩
    have hpow : (2 : ℤ) ^ p < 2 ^ (p + 1) := by
      rw [pow_succ]
      have : (0 : ℤ) < 2 ^ p := by positivity
      omega
    have hval : roundTo f q = (k : ℚ) * 2 ^ e := rfl
    rw [hp] at heq
    rcases abs_choice k with hk' | hk'
    · refine ⟨2 ^ p, e + 1, ?_, by rw [abs_of_pos (by positivity), hp]; exact hpow, by omega⟩
      rw [hval, ← hk', heq, zpow_add₀ (by norm_num)]
      push_cast
      ring
    · refine ⟨-2 ^ p, e + 1, ?_,
        by rw [abs_neg, abs_of_pos (by positivity), hp]; exact hpow, by omega⟩
      rw [hval, show k = -(2 ^ (p + 1)) by omega, zpow_add₀ (by norm_num)]
      push_cast
      ring

/-! ### Order -/

theorem roundTo_neg (q : ℚ) : roundTo f (-q) = -roundTo f q := by
  unfold roundTo
  rw [quantumExponent_neg, neg_div, roundHalfEven_neg]
  push_cast
  ring

/-- Rounding does not cross a multiple of the quantum from below. -/
theorem roundTo_le_of_le_multiple {q : ℚ} {k : ℤ} (h : q ≤ k * 2 ^ quantumExponent f q) :
    roundTo f q ≤ k * 2 ^ quantumExponent f q := by
  have hround : roundHalfEven (q / 2 ^ quantumExponent f q) ≤ k := by
    rw [← roundHalfEven_intCast k]
    exact roundHalfEven_mono ((div_le_iff₀ (two_zpow_pos _)).mpr h)
  exact mul_le_mul_of_nonneg_right (by exact_mod_cast hround) (two_zpow_pos _).le

/-- Nor from above. -/
theorem le_roundTo_of_multiple_le {q : ℚ} {k : ℤ} (h : k * 2 ^ quantumExponent f q ≤ q) :
    k * 2 ^ quantumExponent f q ≤ roundTo f q := by
  have hround : k ≤ roundHalfEven (q / 2 ^ quantumExponent f q) := by
    rw [← roundHalfEven_intCast k]
    exact roundHalfEven_mono ((le_div_iff₀ (two_zpow_pos _)).mpr h)
  exact mul_le_mul_of_nonneg_right (by exact_mod_cast hround) (two_zpow_pos _).le

theorem roundTo_nonneg {q : ℚ} (h : 0 ≤ q) : 0 ≤ roundTo f q := by
  simpa using le_roundTo_of_multiple_le (f := f) (q := q) (k := 0) (by simpa using h)

/-- Monotonicity on the positive numbers: with different quanta the power of two between the
arguments separates the results. -/
theorem roundTo_mono_of_pos {a b : ℚ} (ha : 0 < a) (hab : a ≤ b) : roundTo f a ≤ roundTo f b := by
  have hb : 0 < b := ha.trans_le hab
  rcases (quantumExponent_mono (f := f) ha hab).lt_or_eq with hlt | heq
  · have hmin : f.minExponent < quantumExponent f b := lt_of_le_of_lt (le_max_left _ _) hlt
    have hb' := two_zpow_le_abs_of_lt_quantum hb.ne' hmin
    have ha' := abs_lt_two_zpow_of_quantum (f := f) a
    rw [abs_of_pos hb] at hb'
    rw [abs_of_pos ha] at ha'
    have hp := f.precision_pos
    have hcut : (2 : ℚ) ^ (quantumExponent f a + f.precision)
        ≤ 2 ^ (quantumExponent f b + f.precision - 1) :=
      zpow_le_zpow_right₀ (by norm_num) (by omega)
    have hsplit : ∀ d : ℤ, d ≤ quantumExponent f b →
        ((2 ^ (quantumExponent f b + f.precision - 1 - d).toNat : ℤ) : ℚ) * 2 ^ d
          = 2 ^ (quantumExponent f b + f.precision - 1) := by
      intro d hd
      have := mul_two_zpow_eq_of_le (m := 1) (e := quantumExponent f b + f.precision - 1) (d := d)
        (by omega)
      rw [one_mul, Int.cast_one, one_mul] at this
      exact this.symm
    calc roundTo f a ≤ 2 ^ (quantumExponent f b + f.precision - 1) := by
          rw [← hsplit _ hlt.le]
          exact roundTo_le_of_le_multiple (by rw [hsplit _ hlt.le]; exact (ha'.trans_le hcut).le)
      _ ≤ roundTo f b := by
          rw [← hsplit _ le_rfl]
          exact le_roundTo_of_multiple_le (by rw [hsplit _ le_rfl]; exact hb')
  · unfold roundTo
    rw [heq]
    refine mul_le_mul_of_nonneg_right ?_ (two_zpow_pos _).le
    exact_mod_cast roundHalfEven_mono (div_le_div_of_nonneg_right hab (two_zpow_pos _).le)

theorem roundTo_mono : Monotone (roundTo f) := by
  intro a b hab
  rcases lt_trichotomy a 0 with ha | rfl | ha
  · rcases lt_or_ge b 0 with hb | hb
    · have := roundTo_mono_of_pos (f := f) (neg_pos.mpr hb) (neg_le_neg hab)
      rw [roundTo_neg, roundTo_neg] at this
      exact neg_le_neg_iff.mp this
    · have := roundTo_nonneg (f := f) (neg_nonneg.mpr ha.le)
      rw [roundTo_neg] at this
      exact (neg_nonneg.mp this).trans (roundTo_nonneg hb)
  · rw [roundTo_zero]
    exact roundTo_nonneg hab
  · exact roundTo_mono_of_pos ha hab

/-- Rounding keeps the order of absolute values. -/
theorem abs_roundTo_le_roundTo {q c : ℚ} (h : |q| ≤ c) : |roundTo f q| ≤ roundTo f c := by
  obtain ⟨hlo, hhi⟩ := abs_le.mp h
  have hdown := roundTo_mono (f := f) hlo
  rw [roundTo_neg] at hdown
  exact abs_le.mpr ⟨hdown, roundTo_mono hhi⟩

theorem abs_roundTo (q : ℚ) : |roundTo f q| = roundTo f |q| := by
  rcases le_total 0 q with hq | hq
  · rw [abs_of_nonneg hq, abs_of_nonneg (roundTo_nonneg hq)]
  · rw [abs_of_nonpos hq, roundTo_neg, abs_of_nonpos]
    have := roundTo_nonneg (f := f) (neg_nonneg.mpr hq)
    rw [roundTo_neg] at this
    exact neg_nonneg.mp this

/-- A representable bound survives rounding. -/
theorem abs_roundTo_le {q c : ℚ} (hc : Representable f c) (h : |q| ≤ c) : |roundTo f q| ≤ c := by
  have := abs_roundTo_le_roundTo (f := f) h
  rwa [roundTo_of_representable hc] at this

end Ieee
