import RobotCore.Authority.Equiv.Step
import Mathlib.Tactic.FinCases

/-!
# The published actions

`absLe_of_drives`: what an evaluation writes to a channel is published as a value between -1 and
1, except in an altitude hold whose `float` sums have been rounded up so far that the output
exceeds one by more than half the spacing of a `float` above one (`altitudeDrive`).
-/

namespace RobotCore

open Ieee

/-! ### The action limit -/

/-- The limit scales down. -/
def LimitOk (limit : Binary64) : Prop := ∃ q, limit.value = .finite q ∧ 0 ≤ q ∧ q ≤ 1

theorem LimitOk.absLe {limit : Binary64} (h : LimitOk limit) : Number.AbsLe limit 1 := by
  obtain ⟨q, hq, h0, h1⟩ := h
  exact ⟨q, hq, abs_le.mpr ⟨by linarith, h1⟩⟩

theorem value_kMaximumAction : kMaximumAction.value = .finite 1 := by decide +kernel

theorem value_kPwmSpanUs : kPwmSpanUs.value = .finite 250 := by decide +kernel

theorem limitOk_clamp {x : Binary64} (h : x.value ≠ .nan) :
    LimitOk (x.clamp 0 kMaximumAction) := by
  unfold Number.clamp
  split_ifs with hlo hhi
  · exact ⟨0, rfl, le_rfl, zero_le_one⟩
  · exact ⟨1, value_kMaximumAction, zero_le_one, le_rfl⟩
  · cases hx : x.value with
    | nan => exact absurd hx h
    | infinity negative =>
      cases negative <;> simp [Number.lt, hx, value_kMaximumAction] at hlo hhi
    | finite q =>
      rw [Number.lt_iff_of_finite hx Number.value_zero, not_lt] at hlo
      rw [Number.lt_iff_of_finite value_kMaximumAction hx, not_lt] at hhi
      exact ⟨q, hx, hlo, hhi⟩

theorem limitOk_initial {cfg : AuthorityConfig} (h : cfg.pwmLimitUs.value ≠ .nan) :
    LimitOk (initialActionLimit cfg) := by
  apply limitOk_clamp
  generalize cfg.pwmLimitUs = x at h
  obtain ⟨v, hv⟩ := x
  cases v with
  | nan => exact absurd rfl h
  | infinity negative => simp [Number.abs, Number.divConst, Number.infinity]
  | finite q =>
    unfold Number.abs Number.divConst
    dsimp only
    split_ifs <;> dsimp only <;> unfold Number.ofRat <;> split_ifs <;> simp [Number.infinity]

/-- A limit within 0..250 us is a factor between 0 and 1. -/
theorem limitOk_divConst {limitUs : Binary64} (h : pwmLimitValid limitUs = true) :
    LimitOk (limitUs.divConst 250) := by
  unfold pwmLimitValid at h
  simp only [Bool.and_eq_true, Bool.not_eq_true', Number.isFinite_iff] at h
  obtain ⟨⟨⟨q, hq⟩, hlo⟩, hhi⟩ := h
  rw [← Bool.not_eq_true, Number.lt_iff_of_finite hq Number.value_zero, not_lt] at hlo
  rw [← Bool.not_eq_true, Number.lt_iff_of_finite value_kPwmSpanUs hq, not_lt] at hhi
  have hdiv : |q / 250| ≤ 1 := by
    rw [abs_of_nonneg (by positivity)]
    linarith
  have hle := abs_roundTo_le (representable_one binary64 (by decide)) hdiv
  refine ⟨roundTo binary64 (q / 250), ?_, roundTo_nonneg (by positivity), (abs_le.mp hle).2⟩
  unfold Number.divConst
  rw [hq]
  exact Number.value_ofRat (hle.trans_lt (one_lt_zpow₀ (by norm_num) (by decide)))

/-! ### Altitude hold -/

/-- The largest output of an altitude hold with this manual command, before it is published. -/
def altitudeDrive (manual : ThrusterCommand) (limit : Binary64) : ℚ :=
  roundTo binary64
    (roundTo binary64 ((|(surgeSum manual).toRat| + |(yawSum manual).toRat|) / 4) * limit.toRat)

/-- The outputs below this bound are rounded to a `float` of at most one. -/
def altitudeBound : ℚ := 1 + 1 / 2 ^ 24

/-- The bound is where rounding to a `float` leaves one. -/
theorem roundTo_le_one_iff (q : ℚ) : roundTo binary32 q ≤ 1 ↔ q ≤ altitudeBound := by
  have hbound : roundTo binary32 altitudeBound = 1 := by decide +kernel
  have hspacing : roundTo binary32 (1 + 1 / 2 ^ 23) = 1 + 1 / 2 ^ 23 := by decide +kernel
  constructor
  · contrapose!
    intro hq
    unfold altitudeBound at hq
    rcases lt_or_ge q (1 + 1 / 2 ^ 23) with hlt | hge
    · -- Between one and its successor the spacing is constant.
      have hquantum : quantumExponent binary32 q = -23 := le_antisymm
        ((quantumExponent_mono (by linarith) hlt.le).trans (by decide +kernel))
        (le_trans (by decide +kernel) (quantumExponent_mono (a := 1) one_pos (by linarith)))
      have hup : (2 : ℤ) ^ 23 < roundHalfEven (q / 2 ^ (-23 : ℤ)) := by
        refine lt_roundHalfEven ?_
        norm_num
        linarith
      have hup' : (2 : ℚ) ^ 23 < roundHalfEven (q / 2 ^ (-23 : ℤ)) := by exact_mod_cast hup
      unfold roundTo
      rw [hquantum]
      calc (1 : ℚ) = 2 ^ 23 * 2 ^ (-23 : ℤ) := by norm_num
        _ < roundHalfEven (q / 2 ^ (-23 : ℤ)) * 2 ^ (-23 : ℤ) :=
          mul_lt_mul_of_pos_right hup' (two_zpow_pos _)
    · have := roundTo_mono (f := binary32) hge
      rw [hspacing] at this
      linarith
  · intro hq
    rw [← hbound]
    exact roundTo_mono hq

/-- Four valid actions sum up to at most four. -/
theorem absLe_sum {x y z w : Binary32} (hx : Number.AbsLe x 1) (hy : Number.AbsLe y 1)
    (hz : Number.AbsLe z 1) (hw : Number.AbsLe w 1) : Number.AbsLe (x + y + z + w) 4 := by
  rw [← Nat.cast_one] at hx hy hz hw
  have h2 := hx.add_natCast hy (by decide) (by decide) (by decide)
  have h3 := h2.add_natCast hz (by decide) (by decide) (by decide)
  have h4 := h3.add_natCast hw (by decide) (by decide) (by decide)
  exact_mod_cast h4

section Manual

variable {manual : ThrusterCommand}
  (h : ∀ i : Fin 8, Number.AbsLe (getElem manual.action i i.2) 1)

include h

theorem absLe_surgeSum : Number.AbsLe (surgeSum manual) 4 :=
  absLe_sum (h 4).neg (h 5).neg (h 6) (h 7)

theorem absLe_yawSum : Number.AbsLe (yawSum manual) 4 :=
  absLe_sum (h 4).neg (h 5) (h 6) (h 7).neg

end Manual

/-- A quarter of a `float` is exact in `double`. -/
theorem value_quarter {x : Binary32} (hx : Number.AbsLe x 4) :
    (kQuarter * x.widen).value = .finite (x.toRat / 4) := by
  obtain ⟨q, hq, hle⟩ := hx
  have hin := x.inFormat
  rw [hq] at hin
  obtain ⟨m, e, hme, hm, he⟩ := hin
  have hrep : Representable binary64 (1 / 4 * q) :=
    ⟨m, e - 2, by rw [hme, zpow_sub₀ (by norm_num)]; ring,
      hm.trans (by norm_num [binary32, binary64]), by
        have : binary64.minExponent ≤ binary32.minExponent - 2 := by decide
        omega⟩
  have hquarter : kQuarter.value = .finite (1 / 4) := by decide +kernel
  have hround := roundTo_of_representable hrep
  rw [Number.mul_eq_ofRat hquarter (Number.value_widen hq), Number.toRat_of_finite hq,
    Number.value_ofRat, hround]
  · congr 1
    ring
  · rw [hround, abs_mul]
    refine lt_of_le_of_lt (b := 1) ?_ (one_lt_zpow₀ (by norm_num) (by decide))
    rw [abs_of_pos (by norm_num : (0 : ℚ) < 1 / 4)]
    linarith

/-- A sum of two `double` values. -/
theorem value_add {x y : Binary64} {a b : ℚ} (hx : x.value = .finite a) (hy : y.value = .finite b)
    (hle : |a| + |b| ≤ 2) : (x + y).value = .finite (roundTo binary64 (a + b)) := by
  have hrep := representable_natCast (f := binary64) (n := 2) (by decide) (by decide)
  have hbound := abs_roundTo_le hrep ((abs_add_le a b).trans (by exact_mod_cast hle))
  rw [Number.add_eq_ofRat hx hy]
  refine Number.value_ofRat (hbound.trans_lt (lt_of_lt_of_le (b := (2 : ℚ) ^ (2 : ℤ)) ?_ ?_))
  · norm_num
  · exact zpow_le_zpow_right₀ (by norm_num) (by decide)

/-- Every channel of an altitude hold is a sum or a difference of surge and yaw. -/
theorem surgeYawOutput_cases (surge yaw : Binary64) (i : Fin 8) :
    getElem (surgeYawOutput surge yaw) i i.2 = 0 ∨
      ∃ x y, (x = surge ∨ x = -surge) ∧ (y = yaw ∨ y = -yaw) ∧
        getElem (surgeYawOutput surge yaw) i i.2 = x + y := by
  fin_cases i
  · exact Or.inl rfl
  · exact Or.inl rfl
  · exact Or.inl rfl
  · exact Or.inl rfl
  · exact Or.inr ⟨-surge, -yaw, Or.inr rfl, Or.inr rfl, rfl⟩
  · exact Or.inr ⟨-surge, yaw, Or.inr rfl, Or.inl rfl, rfl⟩
  · exact Or.inr ⟨surge, yaw, Or.inl rfl, Or.inl rfl, rfl⟩
  · exact Or.inr ⟨surge, -yaw, Or.inl rfl, Or.inr rfl, rfl⟩

theorem lt_maxExponent {f : Format} {q : ℚ} (hq : q ≤ 2) (h : 1 < f.maxExponent) :
    q < 2 ^ f.maxExponent :=
  hq.trans_lt (lt_of_eq_of_lt (zpow_one _).symm (zpow_lt_zpow_right₀ (by norm_num) h))

/-- A `double` is published as a value between -1 and 1 below the bound. -/
theorem absLe_narrow_iff {x : Binary64} {q : ℚ} (hx : x.value = .finite q) (hq : |q| ≤ 2) :
    Number.AbsLe x.narrow 1 ↔ |q| ≤ altitudeBound := by
  have hrep := representable_natCast (f := binary32) (n := 2) (by decide) (by decide)
  have hround : |roundTo binary32 q| ≤ 2 := by
    exact_mod_cast abs_roundTo_le hrep (by exact_mod_cast hq)
  have hvalue : x.narrow.value = .finite (roundTo binary32 q) := by
    rw [Number.narrow_eq_ofRat hx]
    exact Number.value_ofRat (lt_maxExponent hround (by decide))
  rw [← roundTo_le_one_iff, ← abs_roundTo]
  constructor
  · rintro ⟨p, hp, hle⟩
    rw [hvalue] at hp
    cases hp
    exact hle
  · exact fun h => ⟨_, hvalue, h⟩

/-- Scaling by the limit. -/
theorem value_mul_limit {x limit : Binary64} {q : ℚ} (hx : x.value = .finite q) (hq : |q| ≤ 2)
    (hlimit : LimitOk limit) :
    (x * limit).value = .finite (roundTo binary64 (q * limit.toRat)) ∧
      |roundTo binary64 (q * limit.toRat)| ≤ 2 := by
  obtain ⟨l, hl, h0, h1⟩ := hlimit
  have hrep := representable_natCast (f := binary64) (n := 2) (by decide) (by decide)
  have hmul : |q * l| ≤ 2 := by
    rw [abs_mul, abs_of_nonneg h0]
    exact (mul_le_of_le_one_right (abs_nonneg q) h1).trans hq
  have hround : |roundTo binary64 (q * l)| ≤ 2 := by
    exact_mod_cast abs_roundTo_le hrep (by exact_mod_cast hmul)
  rw [Number.toRat_of_finite hl, Number.mul_eq_ofRat hx hl]
  exact ⟨Number.value_ofRat (lt_maxExponent hround (by decide)), hround⟩

/-- A channel of an altitude hold: a sum of signed surge and yaw, scaled and published. -/
theorem absLe_channel_iff {x y limit : Binary64} {a b : ℚ} (hx : x.value = .finite a)
    (hy : y.value = .finite b) (hle : |a| + |b| ≤ 2) (hlimit : LimitOk limit) :
    Number.AbsLe ((x + y) * limit).narrow 1 ↔
      |roundTo binary64 (roundTo binary64 (a + b) * limit.toRat)| ≤ altitudeBound := by
  have hrep := representable_natCast (f := binary64) (n := 2) (by decide) (by decide)
  have hsum : |roundTo binary64 (a + b)| ≤ 2 := by
    exact_mod_cast abs_roundTo_le hrep ((abs_add_le a b).trans (by exact_mod_cast hle))
  obtain ⟨hvalue, hbound⟩ := value_mul_limit (value_add hx hy hle) hsum hlimit
  exact absLe_narrow_iff hvalue hbound

/-- All channels are published as values between -1 and 1 exactly when the largest one is. -/
theorem surgeYawOutput_absLe_iff {surge yaw limit : Binary64} {a b : ℚ}
    (ha : surge.value = .finite a) (hb : yaw.value = .finite b) (hle : |a| + |b| ≤ 2)
    (hlimit : LimitOk limit) :
    (∀ i : Fin 8, Number.AbsLe (getElem (surgeYawOutput surge yaw) i i.2 * limit).narrow 1) ↔
      roundTo binary64 (roundTo binary64 (|a| + |b|) * limit.toRat) ≤ altitudeBound := by
  have hlimit0 : 0 ≤ limit.toRat := by
    obtain ⟨l, hl, h0, -⟩ := hlimit
    rwa [Number.toRat_of_finite hl]
  have hsum0 : 0 ≤ roundTo binary64 (|a| + |b|) := roundTo_nonneg (by positivity)
  constructor
  · intro h
    -- With the signs of surge and yaw taken away, a channel is the sum of the absolute values.
    have hsigns : ∃ i : Fin 8, ∃ x y, (surgeYawOutput surge yaw)[i] = x + y ∧
        x.value = .finite |a| ∧ y.value = .finite |b| := by
      rcases le_total 0 a with h0a | h0a <;> rcases le_total 0 b with h0b | h0b
      · exact ⟨6, surge, yaw, rfl, by rw [abs_of_nonneg h0a, ha], by rw [abs_of_nonneg h0b, hb]⟩
      · exact ⟨7, surge, -yaw, rfl, by rw [abs_of_nonneg h0a, ha],
          by rw [abs_of_nonpos h0b, Number.value_neg hb]⟩
      · exact ⟨5, -surge, yaw, rfl, by rw [abs_of_nonpos h0a, Number.value_neg ha],
          by rw [abs_of_nonneg h0b, hb]⟩
      · exact ⟨4, -surge, -yaw, rfl, by rw [abs_of_nonpos h0a, Number.value_neg ha],
          by rw [abs_of_nonpos h0b, Number.value_neg hb]⟩
    obtain ⟨i, x, y, hi, hx, hy⟩ := hsigns
    have hchannel := h i
    rw [hi, absLe_channel_iff hx hy (by rwa [abs_abs, abs_abs]) hlimit] at hchannel
    exact (le_abs_self _).trans hchannel
  · intro h i
    obtain hzero | ⟨x, y, hx, hy, hi⟩ := surgeYawOutput_cases surge yaw i
    · rw [hzero]
      have hmul := (Number.AbsLe.zero (f := binary64) zero_le_one).mul hlimit.absLe
        (by rw [mul_one]; exact representable_one _ (by decide))
        (lt_maxExponent (by norm_num) (by decide))
      rw [mul_one] at hmul
      exact hmul.narrow (representable_one _ (by decide)) (lt_maxExponent (by norm_num) (by decide))
    · rw [hi]
      obtain ⟨p, hp, hpa⟩ : ∃ p, x.value = .finite p ∧ |p| = |a| := by
        rcases hx with rfl | rfl
        · exact ⟨a, ha, rfl⟩
        · exact ⟨-a, Number.value_neg ha, abs_neg a⟩
      obtain ⟨q, hq, hqb⟩ : ∃ q, y.value = .finite q ∧ |q| = |b| := by
        rcases hy with rfl | rfl
        · exact ⟨b, hb, rfl⟩
        · exact ⟨-b, Number.value_neg hb, abs_neg b⟩
      refine (absLe_channel_iff hp hq (by rwa [hpa, hqb]) hlimit).mpr (le_trans ?_ h)
      refine abs_roundTo_le_roundTo ?_
      rw [abs_mul, abs_of_nonneg hlimit0]
      refine mul_le_mul_of_nonneg_right (abs_roundTo_le_roundTo ?_) hlimit0
      rw [← hpa, ← hqb]
      exact abs_add_le p q

/-- **Altitude hold.**  The surge and yaw of a valid manual command are published as values
between -1 and 1 exactly when the largest output stays below the bound. -/
theorem altitudeDrive_le_iff {manual : ThrusterCommand} {limit : Binary64}
    (h : ∀ i : Fin 8, Number.AbsLe (getElem manual.action i i.2) 1) (hlimit : LimitOk limit) :
    (∀ i : Fin 8,
      Number.AbsLe (getElem (altitudeManualSurgeYaw manual) i i.2 * limit).narrow 1) ↔
      altitudeDrive manual limit ≤ altitudeBound := by
  have hS := absLe_surgeSum h
  have hY := absLe_yawSum h
  have hle : |(surgeSum manual).toRat / 4| + |(yawSum manual).toRat / 4| ≤ 2 := by
    obtain ⟨p, hp, hp4⟩ := hS
    obtain ⟨q, hq, hq4⟩ := hY
    rw [Number.toRat_of_finite hp, Number.toRat_of_finite hq, abs_div, abs_div,
      abs_of_pos (by norm_num : (0 : ℚ) < 4)]
    linarith
  have hdrive : altitudeDrive manual limit = roundTo binary64 (roundTo binary64
      (|(surgeSum manual).toRat / 4| + |(yawSum manual).toRat / 4|) * limit.toRat) := by
    rw [altitudeDrive, abs_div, abs_div, abs_of_pos (by norm_num : (0 : ℚ) < 4), add_div]
  rw [hdrive]
  exact surgeYawOutput_absLe_iff (value_quarter hS) (value_quarter hY) hle hlimit

/-! ### What an evaluation publishes -/

/-- An action of a valid command, scaled by the limit, is published as a value between -1 and 1. -/
theorem absLe_action {value : Binary32} {limit : Binary64} (h : Number.AbsLe value 1)
    (hlimit : LimitOk limit) : Number.AbsLe (value.widen * limit).narrow 1 := by
  have hmul := h.widen.mul hlimit.absLe (by rw [mul_one]; exact representable_one _ (by decide))
    (lt_maxExponent (by norm_num) (by decide))
  rw [mul_one] at hmul
  exact hmul.narrow (representable_one _ (by decide)) (lt_maxExponent (by norm_num) (by decide))

/-- The evaluation is an altitude hold that drives beyond the bound. -/
def overdrives (cfg : AuthorityConfig) (s : Authority) (nowNs : ℤ) : Bool :=
  (evaluationMode cfg s nowNs).hybridAltitudeHold &&
    (s.sourceCommands "manual").any fun item =>
      altitudeBound < altitudeDrive item.message s.actionLimit

/-- What an evaluation writes to a channel is published as a value between -1 and 1. -/
theorem absLe_of_drives {cfg : AuthorityConfig} {s : Authority} {nowNs : ℤ} {i : Fin 8}
    {value : Binary64} (h : Drives cfg s nowNs i value) (hlimit : LimitOk s.actionLimit)
    (hdrive : overdrives cfg s nowNs = false) : Number.AbsLe value.narrow 1 := by
  cases h with
  | action h => exact absLe_action (h.2 i) hlimit
  | @altitude manual hmode h =>
    obtain ⟨⟨stampNs, hmanual⟩, hvalues⟩ := h
    refine (altitudeDrive_le_iff hvalues hlimit).mpr ?_ i
    simpa [overdrives, hmode, hmanual] using hdrive

end RobotCore
