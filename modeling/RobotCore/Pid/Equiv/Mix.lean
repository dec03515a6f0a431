import Mathlib.Tactic.FinCases
import RobotCore.Lib.Ieee.Error
import RobotCore.Pid.Node

/-!
# The bound of the mixed efforts

A thruster gets a NaN or an effort within the command limit, up to the last bit of the limit: the
efforts of T5--T8 are scaled down to it, and the scaled product is rounded
(`tickCommands_bounded`).
-/

namespace RobotCore

open Ieee

/-- The command limit, up to its last bit. -/
def effortBound (limit : ℚ) : ℚ := roundTo binary64 (limit * (1 + 1 / 2 ^ 53))

/-- A NaN, or at most `c` in absolute value. -/
def NanOrLe (x : Binary64) (c : ℚ) : Prop := x.isNan = true ∨ Number.AbsLe x c

/-! ### Values -/

theorem value_abs {x : Binary64} {q : ℚ} (h : x.value = .finite q) :
    x.abs.value = .finite |q| := by
  obtain ⟨v, hv⟩ := x
  simp only at h
  subst h
  unfold Number.abs
  dsimp only
  split_ifs with hneg
  · rw [abs_of_neg hneg]
  · rw [abs_of_nonneg (not_lt.mp hneg)]

theorem divide_eq_ofRat {x y : Binary64} {a b : ℚ} (hx : x.value = .finite a)
    (hy : y.value = .finite b) (hb : b ≠ 0) : x.divide y = Number.ofRat binary64 (a / b) := by
  unfold Number.divide
  rw [hx, hy]
  exact if_neg hb

theorem lt_two_zpow_maxExponent {c : ℚ} (h : c ≤ 2) : c < 2 ^ binary64.maxExponent :=
  h.trans_lt (lt_of_eq_of_lt (zpow_one _).symm (zpow_lt_zpow_right₀ (by norm_num) (by decide)))

theorem representable_two_mul {c : ℚ} (h : Representable binary64 c) :
    Representable binary64 (c + c) := by
  obtain ⟨m, e, rfl, hm, he⟩ := h
  refine ⟨m, e + 1, ?_, hm, by omega⟩
  rw [zpow_add₀ (by norm_num), zpow_one]
  ring

theorem absLe_constant {q : ℚ} (h : |q| ≤ 1) : Number.AbsLe (constant q) 1 :=
  Number.AbsLe.ofRat (representable_one _ (by decide)) (one_lt_zpow₀ (by norm_num) (by decide)) h

/-! ### The horizontal mix -/

section Horizontal

variable {c : ℚ} (hc : Representable binary64 c) (hle : c ≤ 1 / 2)

include hc hle

theorem absLe_times {x : Binary64} {n : ℕ} {coefficients : Vector ℚ n} (hx : Number.AbsLe x c)
    (hcoefficients : ∀ i : Fin n, |coefficients[i]| ≤ 1) (i : Fin n) :
    Number.AbsLe (times x coefficients)[i] c := by
  have h := hx.mul (absLe_constant (hcoefficients i)) (by rwa [mul_one])
    (lt_two_zpow_maxExponent (by linarith))
  rw [mul_one] at h
  simpa [times] using h

theorem absLe_swayMix {sway : Binary64} (h : Number.AbsLe sway c) (i : Fin 4) :
    Number.AbsLe (swayMix sway)[i] c := by
  unfold swayMix
  split
  · exact absLe_times hc hle h (by decide +kernel) i
  · exact absLe_times hc hle h.neg (by decide +kernel) i

theorem absLe_yawMix {yaw : Binary64} (h : Number.AbsLe yaw c) (i : Fin 4) :
    Number.AbsLe (yawMix yaw)[i] c := by
  unfold yawMix
  split
  · exact absLe_times hc hle h (by decide +kernel) i
  · exact absLe_times hc hle h.neg (by decide +kernel) i

/-- Three axes within the limit mix to at most four times the limit. -/
theorem absLe_horizontalMix {surge sway yaw : Binary64} (hsurge : Number.AbsLe surge c)
    (hsway : Number.AbsLe sway c) (hyaw : Number.AbsLe yaw c) (i : Fin 4) :
    Number.AbsLe (horizontalMix surge sway yaw)[i] (c + c + (c + c)) := by
  have hc2 := representable_two_mul hc
  have hc0 : 0 ≤ c := by
    obtain ⟨q, -, hq⟩ := hsurge
    exact (abs_nonneg q).trans hq
  have h1 : Number.AbsLe (times surge #v[-1, -1, 1, 1])[i] c :=
    absLe_times hc hle hsurge (by decide +kernel) i
  have h2 := h1.add (absLe_swayMix hc hle hsway i) hc2 (lt_two_zpow_maxExponent (by linarith))
  have h3 := h2.add ((absLe_yawMix hc hle hyaw i).mono (le_add_of_nonneg_left hc0))
    (representable_two_mul hc2) (lt_two_zpow_maxExponent (by linarith))
  simpa [horizontalMix] using h3

end Horizontal

/-- The peak is attained and bounds every value. -/
theorem peak_spec {values : Vector Binary64 4} {c : ℚ}
    (h : ∀ i : Fin 4, Number.AbsLe values[i] c) :
    ∃ p, (peak values).value = .finite p ∧ p ≤ c ∧ ∀ i : Fin 4, Number.AbsLe values[i] p := by
  obtain ⟨a, ha, hac⟩ := h 0
  obtain ⟨b, hb, hbc⟩ := h 1
  obtain ⟨d, hd, hdc⟩ := h 2
  obtain ⟨e, he, hec⟩ := h 3
  refine ⟨max (max (max |a| |b|) |d|) |e|, ?_, ?_, ?_⟩
  · exact Number.value_maximum (Number.value_maximum (Number.value_maximum (value_abs ha)
      (value_abs hb)) (value_abs hd)) (value_abs he)
  · exact max_le (max_le (max_le hac hbc) hdc) hec
  · intro i
    fin_cases i
    · exact ⟨a, ha, le_max_of_le_left (le_max_of_le_left (le_max_left _ _))⟩
    · exact ⟨b, hb, le_max_of_le_left (le_max_of_le_left (le_max_right _ _))⟩
    · exact ⟨d, hd, le_max_of_le_left (le_max_right _ _)⟩
    · exact ⟨e, he, le_max_right _ _⟩

/-- A limit is within its bound. -/
theorem le_effortBound {c : ℚ} (hc : Representable binary64 c) (h0 : 0 ≤ c) :
    c ≤ effortBound c := by
  have h := roundTo_mono (f := binary64) (a := c) (b := c * (1 + 1 / 2 ^ 53)) (by linarith)
  rwa [roundTo_of_representable hc] at h

theorem effortBound_le {c : ℚ} (h : c ≤ 1 / 2) : effortBound c ≤ 1 / 2 :=
  calc effortBound c ≤ roundTo binary64 (1 / 2 * (1 + 1 / 2 ^ 53)) :=
        roundTo_mono (mul_le_mul_of_nonneg_right h (by norm_num))
    _ = 1 / 2 := by decide +kernel

/-- Values scaled down to the limit are within its bound. -/
theorem absLe_scaleBy {values : Vector Binary64 4} {limit : Binary64} {c : ℚ}
    (hlimit : limit.value = .finite c) (h0 : 0 ≤ c) (hle : c ≤ 1 / 2)
    (h : ∀ i : Fin 4, Number.AbsLe values[i] (c + c + (c + c))) (i : Fin 4) :
    Number.AbsLe (scaleBy (saturationScale limit (peak values)) values)[i] (effortBound c) := by
  have hc : Representable binary64 c := by
    have := limit.inFormat
    rwa [hlimit] at this
  obtain ⟨p, hp, hpc, hvalues⟩ := peak_spec h
  unfold saturationScale
  split
  · rename_i hscale
    rw [Bool.and_eq_true, Number.lt_iff_of_finite hlimit hp,
      Number.lt_iff_of_finite Number.value_zero hp] at hscale
    obtain ⟨hcp, hp0⟩ := hscale
    have hc0 : 0 < c := by linarith
    have hratio : 0 < c / p := div_pos hc0 hp0
    have hratio1 : c / p ≤ 1 := (div_le_one hp0).mpr hcp.le
    have hquarter : 1 / 4 ≤ c / p := by
      rw [le_div_iff₀ hp0]
      linarith
    -- The factor is a normal number, so its error is a part of itself.
    have hnormal : binary64.minExponent < quantumExponent binary64 (c / p) :=
      lt_of_lt_of_le (by decide +kernel) (quantumExponent_mono (a := 1 / 4) (by norm_num) hquarter)
    have herror := abs_roundTo_sub_le_mul hratio.ne' hnormal
    rw [abs_of_pos hratio] at herror
    have hvalue : (limit.divide (peak values)).value = .finite (roundTo binary64 (c / p)) := by
      rw [divide_eq_ofRat hlimit hp hp0.ne', Number.value_ofRat]
      have hone := abs_roundTo_le (representable_one binary64 (by decide))
        (q := c / p) (by rwa [abs_of_pos hratio])
      exact hone.trans_lt (one_lt_zpow₀ (by norm_num) (by decide))
    have hscale0 : 0 ≤ roundTo binary64 (c / p) := roundTo_nonneg hratio.le
    obtain ⟨u, hu, hup⟩ := hvalues i
    have hproduct : |u * roundTo binary64 (c / p)| ≤ c * (1 + 1 / 2 ^ 53) :=
      calc |u * roundTo binary64 (c / p)| = |u| * roundTo binary64 (c / p) := by
            rw [abs_mul, abs_of_nonneg hscale0]
        _ ≤ p * (c / p * (1 + 1 / 2 ^ 53)) := by
            refine mul_le_mul hup ?_ hscale0 hp0.le
            have := (abs_le.mp herror).2
            have hprecision : binary64.precision = 53 := rfl
            rw [hprecision] at this
            linarith
        _ = c * (1 + 1 / 2 ^ 53) := by
            rw [← mul_assoc, mul_div_cancel₀ _ hp0.ne']
    have hmul : (values[i] * limit.divide (peak values)) = Number.ofRat binary64
        (u * roundTo binary64 (c / p)) := Number.mul_eq_ofRat hu hvalue
    have hround := abs_roundTo_le_roundTo (f := binary64) hproduct
    have hgoal : Number.AbsLe (values[i] * limit.divide (peak values)) (effortBound c) := by
      rw [hmul]
      refine ⟨_, Number.value_ofRat ?_, hround⟩
      exact hround.trans_lt (lt_two_zpow_maxExponent ((effortBound_le hle).trans (by norm_num)))
    simpa [scaleBy] using hgoal
  · rename_i hscale
    rw [Bool.and_eq_true, Number.lt_iff_of_finite hlimit hp,
      Number.lt_iff_of_finite Number.value_zero hp, not_and_or, not_lt, not_lt] at hscale
    refine (hvalues i).mono (le_trans ?_ (le_effortBound hc h0))
    rcases hscale with hscale | hscale
    · exact hscale
    · exact hscale.trans h0

/-! ### The commands of a tick -/

theorem NanOrLe.mono {x : Binary64} {a b : ℚ} (h : NanOrLe x a) (hab : a ≤ b) : NanOrLe x b :=
  h.imp_right fun h => h.mono hab

theorem nanOrLe_clip {x limit : Binary64} {c : ℚ} (hlimit : limit.value = .finite c)
    (h0 : 0 ≤ c) : NanOrLe (x.clip (-limit) limit) c := by
  cases hx : x.isNan with
  | true => exact Or.inl (Number.clip_of_isNan hx)
  | false => exact Or.inr (Number.absLe_clip hx hlimit h0)

theorem nanOrLe_zero {c : ℚ} (h0 : 0 ≤ c) : NanOrLe 0 c := Or.inr (Number.AbsLe.zero h0)

section Commands

variable {commandLimit commandSign : Binary64} {c : ℚ} {commands : Vector Binary64 8}
  (hlimit : commandLimit.value = .finite c) (h0 : 0 ≤ c)

include hlimit h0

theorem value_abs_limit : commandLimit.abs.value = .finite c := by
  rw [value_abs hlimit, abs_of_nonneg h0]

theorem altitudeCollective_bounded {pidOutput : Binary64}
    (h : altitudeCollectivePwmCommands pidOutput commandLimit commandSign = .ok commands)
    (i : Fin 8) : NanOrLe (getElem commands i i.2) c := by
  unfold altitudeCollectivePwmCommands at h
  split_ifs at h
  cases h
  rw [Fin.getElem_fin, Vector.getElem_ofFn]
  split
  · exact nanOrLe_clip (value_abs_limit hlimit h0) h0
  · exact nanOrLe_zero h0

theorem altitudeLevel_bounded {altitudePidOutput roll pitch : Binary64}
    (h : altitudeLevelPwmCommands altitudePidOutput roll pitch commandLimit commandSign
      = .ok commands) (i : Fin 8) : NanOrLe (getElem commands i i.2) c := by
  unfold altitudeLevelPwmCommands at h
  split_ifs at h
  cases h
  rw [Fin.getElem_fin, Vector.getElem_ofFn]
  split
  · exact nanOrLe_clip (value_abs_limit hlimit h0) h0
  · exact nanOrLe_zero h0

theorem stationHorizontal_bounded (hle : c ≤ 1 / 2) {surge sway yaw scale : Binary64}
    {horizontal : Vector Binary64 4}
    (h : stationHorizontalPwmMix surge sway yaw commandLimit = .ok (horizontal, scale))
    (i : Fin 4) : Number.AbsLe horizontal[i] (effortBound c) := by
  have habs := value_abs_limit hlimit h0
  have hc : Representable binary64 c := by
    have := commandLimit.inFormat
    rwa [hlimit] at this
  unfold stationHorizontalPwmMix at h
  split_ifs at h with hfinite
  cases h
  simp only [Bool.not_eq_true', Bool.not_eq_false, Bool.and_eq_true, Number.isFinite_iff]
    at hfinite
  obtain ⟨⟨⟨⟨x, hx⟩, ⟨y, hy⟩⟩, ⟨z, hz⟩⟩, -⟩ := hfinite
  refine absLe_scaleBy habs h0 hle (absLe_horizontalMix hc hle ?_ ?_ ?_) i
  · exact Number.absLe_clip (Number.isNan_of_finite hx) habs h0
  · exact Number.absLe_clip (Number.isNan_of_finite hy) habs h0
  · exact Number.absLe_clip (Number.isNan_of_finite hz) habs h0

theorem altitudeStation_bounded (hle : c ≤ 1 / 2)
    {altitudePidOutput surge sway yaw roll pitch : Binary64}
    (h : altitudeStationPwmCommands altitudePidOutput surge sway yaw commandLimit commandSign
      roll pitch = .ok commands) (i : Fin 8) :
    NanOrLe (getElem commands i i.2) (effortBound c) := by
  have hc : Representable binary64 c := by
    have := commandLimit.inFormat
    rwa [hlimit] at this
  unfold altitudeStationPwmCommands at h
  cases hlevel : altitudeLevelPwmCommands altitudePidOutput roll pitch commandLimit commandSign with
  | error e =>
    rw [hlevel] at h
    cases h
  | ok level =>
    cases hmix : stationHorizontalPwmMix surge sway yaw commandLimit with
    | error e =>
      rw [hlevel, hmix] at h
      cases h
    | ok mixed =>
      obtain ⟨horizontal, scale⟩ := mixed
      rw [hlevel, hmix] at h
      cases h
      rw [Fin.getElem_fin, Vector.getElem_ofFn]
      split
      · exact Or.inr (stationHorizontal_bounded hlimit h0 hle hmix ⟨i.val - 4, by omega⟩)
      · exact (altitudeLevel_bounded hlimit h0 hlevel i).mono (le_effortBound hc h0)

end Commands

/-! ### The limit of the node -/

/-- The PWM limit is a NaN or within 0..250 us. -/
def PwmLimitOk (node : PidNode) : Prop :=
  node.pwmLimitUs.isNan = true ∨ ∃ q, node.pwmLimitUs.value = .finite q ∧ 0 ≤ q ∧ q ≤ 250

theorem value_constant_natCast {n : ℕ} (h : n < 2 ^ 53) : (constant n).value = .finite n := by
  have hrep : Representable binary64 n := representable_natCast h (by decide)
  unfold constant
  rw [Number.value_ofRat] <;> rw [roundTo_of_representable hrep]
  rw [Nat.abs_cast]
  calc (n : ℚ) < 2 ^ (53 : ℤ) := by exact_mod_cast h
    _ ≤ 2 ^ binary64.maxExponent := zpow_le_zpow_right₀ (by norm_num) (by decide)

theorem value_maximumPwmLimitUs : (constant maximumPwmLimitUs).value = .finite 250 :=
  value_constant_natCast (n := 250) (by norm_num)

theorem pwmLimitOk_initial (cfg : PidConfig) : PwmLimitOk (PidNode.initial cfg) := by
  unfold PwmLimitOk PidNode.initial
  cases hnan : cfg.pwmLimitUs.isNan with
  | true => exact Or.inl (Number.clip_of_isNan hnan)
  | false =>
    exact Or.inr (Number.clip_mem hnan Number.value_zero value_maximumPwmLimitUs (by norm_num))

theorem pwmLimitOk_onAuthorityStatus {node : PidNode} (h : PwmLimitOk node)
    (message : ControlAuthorityStatus) : PwmLimitOk (onAuthorityStatus node message) := by
  unfold onAuthorityStatus
  dsimp only
  split_ifs with hvalid hclose
  · exact h
  · exact h
  · unfold actionLimitValid at hvalid
    simp only [Bool.not_eq_true', Bool.not_eq_false, Bool.and_eq_true, Number.isFinite_iff]
      at hvalid
    obtain ⟨⟨⟨q, hq⟩, hlo⟩, hhi⟩ := hvalid
    rw [Number.le_iff_of_finite Number.value_zero hq] at hlo
    have hone : (constant 1).value = .finite (1 : ℕ) := value_constant_natCast (by norm_num)
    rw [Number.le_iff_of_finite hq hone] at hhi
    have hrep : Representable binary64 (250 : ℕ) := representable_natCast (by decide) (by decide)
    have hspan : (constant actionPwmSpanUs).value = .finite (250 : ℕ) :=
      value_constant_natCast (by norm_num)
    have hmul : |q * (250 : ℕ)| ≤ (250 : ℕ) := by
      rw [abs_of_nonneg (by positivity)]
      push_cast at hhi ⊢
      linarith
    have hround := abs_roundTo_le hrep hmul
    refine Or.inr ⟨roundTo binary64 (q * (250 : ℕ)), ?_, roundTo_nonneg (by positivity), ?_⟩
    · show (message.actionLimit * constant actionPwmSpanUs).value = _
      rw [Number.mul_eq_ofRat hq hspan]
      exact Number.value_ofRat (hround.trans_lt
        (lt_of_lt_of_le (b := (2 : ℚ) ^ (8 : ℤ)) (by norm_num)
          (zpow_le_zpow_right₀ (by norm_num) (by decide))))
    · exact_mod_cast (abs_le.mp hround).2

/-- In every run of the node its PWM limit is a NaN or within 0..250 us. -/
theorem pwmLimitOk_of_run {cfg : PidConfig} {tr : PidHistory} {node : PidNode}
    (h : (pidMachine cfg).Run tr node) : PwmLimitOk node := by
  refine h.invariant (I := fun _ node => PwmLimitOk node) (pwmLimitOk_initial cfg) ?_
  intro tr node input node' output _ hnode hstep
  cases input with
  | authorityStatus message =>
    cases hstep
    exact pwmLimitOk_onAuthorityStatus hnode message
  | tick outcome =>
    cases hstep
    exact hnode

/-- A limit within 0..250 us allows efforts up to a half. -/
theorem value_commandLimit {node : PidNode} (h : PwmLimitOk node) :
    node.commandLimit.isFinite = false ∨
      ∃ c, node.commandLimit.value = .finite c ∧ 0 ≤ c ∧ c ≤ 1 / 2 := by
  unfold PidNode.commandLimit Number.divConst
  rcases h with hnan | ⟨q, hq, h0, hle⟩
  · rw [Number.isNan_iff.mp hnan]
    exact Or.inl rfl
  · right
    have hrep : Representable binary64 (1 / 2) :=
      ⟨1, -1, by norm_num, by norm_num [binary64], by norm_num [binary64]⟩
    have hdiv : |q / pidEffortPwmSpanUs| ≤ 1 / 2 := by
      unfold pidEffortPwmSpanUs
      rw [abs_of_nonneg (by positivity)]
      linarith
    have hround := abs_roundTo_le hrep hdiv
    rw [hq]
    refine ⟨_, Number.value_ofRat ?_, roundTo_nonneg ?_, (abs_le.mp hround).2⟩
    · exact hround.trans_lt (lt_two_zpow_maxExponent (by norm_num))
    · unfold pidEffortPwmSpanUs
      positivity

theorem altitudeCollective_finite {pidOutput commandLimit commandSign : Binary64}
    {commands : Vector Binary64 8}
    (h : altitudeCollectivePwmCommands pidOutput commandLimit commandSign = .ok commands) :
    commandLimit.isFinite = true := by
  unfold altitudeCollectivePwmCommands at h
  split_ifs at h with hfinite
  simp only [Bool.not_eq_true', Bool.not_eq_false, Bool.and_eq_true] at hfinite
  exact hfinite.1.2

theorem altitudeStation_finite
    {altitudePidOutput surge sway yaw commandLimit commandSign roll pitch : Binary64}
    {commands : Vector Binary64 8}
    (h : altitudeStationPwmCommands altitudePidOutput surge sway yaw commandLimit commandSign
      roll pitch = .ok commands) : commandLimit.isFinite = true := by
  unfold altitudeStationPwmCommands altitudeLevelPwmCommands at h
  split_ifs at h with hfinite
  · cases h
  · cases h
  · simp only [Bool.not_eq_true', Bool.not_eq_false, Bool.and_eq_true] at hfinite
    exact hfinite.1.2

/-- **The mixed efforts.**  A thruster gets zero, a NaN, or an effort within the command limit. -/
theorem tickCommands_bounded {cfg : PidConfig} {node : PidNode} (hnode : PwmLimitOk node)
    {outcome : PidTick} {commands : Vector Binary64 8}
    (h : tickCommands cfg node outcome = .ok commands) (i : Fin 8) :
    getElem commands i i.2 = 0 ∨ ∃ c, node.commandLimit.value = .finite c ∧ c ≤ 1 / 2 ∧
      NanOrLe (getElem commands i i.2) (effortBound c) := by
  cases outcome with
  | disabled =>
    cases h
    exact Or.inl (by simp)
  | idle =>
    cases h
    exact Or.inl (by simp)
  | altitude controllerEffort =>
    have hfinite := altitudeCollective_finite h
    obtain ⟨c, hc, h0, hle⟩ := (value_commandLimit hnode).resolve_left (by rw [hfinite]; decide)
    have hrep : Representable binary64 c := by
      have := node.commandLimit.inFormat
      rwa [hc] at this
    exact Or.inr ⟨c, hc, hle,
      (altitudeCollective_bounded hc h0 h i).mono (le_effortBound hrep h0)⟩
  | station controllerEffort surgeEffort swayEffort yawEffort rollEffort pitchEffort =>
    have hfinite := altitudeStation_finite h
    obtain ⟨c, hc, h0, hle⟩ := (value_commandLimit hnode).resolve_left (by rw [hfinite]; decide)
    exact Or.inr ⟨c, hc, hle, altitudeStation_bounded hc h0 hle h i⟩

end RobotCore
