import RobotCore.Bridge.Equiv.Polarity
import RobotCore.Pid.Equiv.Mix
import RobotCore.System.PidPath

/-!
# The offset of a PID effort

The node bounds its efforts by the limit `L`, and the authority multiplies the published actions by
`L / 250` again, so that an effort `e` reaches the bridge as `2 |e| L` microseconds and not as
`500 |e|`.  `pid_offset`: the stored offset is the rounded effort exactly when `2 |e| L` is not
below the rounding boundary under `500 |e|`.  Next to a rounding boundary the binary32 messages
decide; they move the microseconds by at most `2 ^ -14`.
-/

namespace RobotCore

open Ieee

/-! ### Rounding -/

theorem roundHalfAway_eq_iff {q : ℚ} (h : 0 ≤ q) (n : ℤ) :
    roundHalfAway q = n ↔ (n : ℚ) - 1 / 2 ≤ q ∧ q < n + 1 / 2 := by
  unfold roundHalfAway
  rw [if_pos h, Int.floor_eq_iff]
  constructor
  · rintro ⟨hlo, hhi⟩
    exact ⟨by linarith, by linarith⟩
  · rintro ⟨hlo, hhi⟩
    exact ⟨by linarith, by linarith⟩

/-- The action of an effort: converted from the span of the efforts to the span of the actions, and
stored as a `float`. -/
def publishedAction (effort : ℚ) : ℚ :=
  roundTo binary32
    (roundTo binary64 (roundTo binary64 (effort * pidEffortPwmSpanUs) / actionPwmSpanUs))

/-- The action times the limit, as the authority publishes it. -/
def limitedAction (effort limit : ℚ) : ℚ :=
  roundTo binary32 (roundTo binary64 (publishedAction effort * limit))

/-- The microseconds of an effort after the second factor: the effort in the span of the actions,
times the limit. -/
def limitedUs (effort limitUs : ℚ) : ℚ := 2 * |effort| * limitUs

/-- The boundary below which fewer microseconds are stored than the effort asks for. -/
def lowerBoundary (effort : ℚ) : ℚ := roundHalfAway (500 * |effort|) - 1 / 2

/-- No rounding boundary is as near as the rounding of the messages may move the microseconds. -/
def OffBoundary (microseconds : ℚ) : Prop :=
  ∀ n : ℤ, 1 / 2 ^ 14 < |microseconds - (n + 1 / 2)|

theorem limitedAction_neg (effort limit : ℚ) :
    limitedAction (-effort) limit = -limitedAction effort limit := by
  unfold limitedAction publishedAction
  rw [neg_mul, roundTo_neg, neg_div, roundTo_neg, roundTo_neg, neg_mul, roundTo_neg, roundTo_neg]

theorem limitedAction_nonneg {effort limit : ℚ} (h : 0 ≤ effort) (hlimit : 0 ≤ limit) :
    0 ≤ limitedAction effort limit := by
  have hspan : (0 : ℚ) ≤ pidEffortPwmSpanUs := by norm_num [pidEffortPwmSpanUs]
  have hspan' : (0 : ℚ) ≤ actionPwmSpanUs := by norm_num [actionPwmSpanUs]
  have hpublished : 0 ≤ publishedAction effort :=
    roundTo_nonneg (roundTo_nonneg (div_nonneg (roundTo_nonneg (mul_nonneg h hspan)) hspan'))
  exact roundTo_nonneg (roundTo_nonneg (mul_nonneg hpublished hlimit))

/-! ### The size of the rounding errors -/

theorem abs_roundTo_double_sub_le {q : ℚ} (h : |q| ≤ 1) :
    |roundTo binary64 q - q| ≤ 1 / 2 ^ 53 := by
  have hlt : |q| < 2 ^ (1 : ℤ) := by norm_num; linarith
  have := abs_roundTo_sub_le (f := binary64) hlt (by decide)
  norm_num [binary64] at this ⊢
  exact this

theorem abs_roundTo_float_sub_le {q : ℚ} (h : |q| ≤ 1) :
    |roundTo binary32 q - q| ≤ 1 / 2 ^ 24 := by
  have hlt : |q| < 2 ^ (1 : ℤ) := by norm_num; linarith
  have := abs_roundTo_sub_le (f := binary32) hlt (by decide)
  norm_num [binary32] at this ⊢
  exact this

theorem abs_roundTo_effort_sub_le {q : ℚ} (h : |q| ≤ 250) :
    |roundTo binary64 q - q| ≤ 1 / 2 ^ 46 := by
  have hlt : |q| < 2 ^ (8 : ℤ) := by norm_num; linarith
  have := abs_roundTo_sub_le (f := binary64) hlt (by decide)
  norm_num [binary64] at this ⊢
  exact this

theorem representable_span250 : Representable binary64 250 :=
  ⟨250, 0, by norm_num, by norm_num [binary64], by norm_num [binary64]⟩

theorem abs_mul_span_le {effort : ℚ} (h : |effort| ≤ 1 / 2) :
    |effort * pidEffortPwmSpanUs| ≤ 250 := by
  rw [abs_mul, abs_of_pos (show (0 : ℚ) < pidEffortPwmSpanUs by norm_num [pidEffortPwmSpanUs])]
  unfold pidEffortPwmSpanUs
  linarith

theorem abs_div_span_le {q : ℚ} (h : |q| ≤ 250) : |q / actionPwmSpanUs| ≤ 1 := by
  rw [abs_div, abs_of_pos (show (0 : ℚ) < actionPwmSpanUs by norm_num [actionPwmSpanUs]),
    div_le_one (by norm_num [actionPwmSpanUs])]
  exact h

/-- The `double` before the action is stored. -/
theorem abs_unrounded_le {effort : ℚ} (h : |effort| ≤ 1 / 2) :
    |roundTo binary64 (roundTo binary64 (effort * pidEffortPwmSpanUs) / actionPwmSpanUs)| ≤ 1 :=
  abs_roundTo_le (representable_one _ (by decide))
    (abs_div_span_le (abs_roundTo_le representable_span250 (abs_mul_span_le h)))

theorem abs_publishedAction_le {effort : ℚ} (h : |effort| ≤ 1 / 2) :
    |publishedAction effort| ≤ 1 :=
  abs_roundTo_le (representable_one _ (by decide)) (abs_unrounded_le h)

theorem abs_publishedAction_sub_le {effort : ℚ} (h : |effort| ≤ 1 / 2) :
    |publishedAction effort - 2 * effort| ≤ 1 / 2 ^ 24 + 1 / 2 ^ 52 := by
  have hspan := abs_mul_span_le h
  have hround := abs_roundTo_le representable_span250 hspan
  have h1 := abs_le.mp (abs_roundTo_effort_sub_le hspan)
  have h2 := abs_le.mp (abs_roundTo_double_sub_le (abs_div_span_le hround))
  have h3 := abs_le.mp (abs_roundTo_float_sub_le (abs_unrounded_le h))
  unfold publishedAction
  set x := roundTo binary64 (effort * pidEffortPwmSpanUs) with hx
  set y := roundTo binary64 (x / actionPwmSpanUs) with hy
  have hspans : effort * pidEffortPwmSpanUs = 500 * effort ∧ x / actionPwmSpanUs = x / 250 :=
    ⟨by unfold pidEffortPwmSpanUs; ring, rfl⟩
  rw [hspans.1] at h1
  rw [hspans.2] at h2
  rw [abs_le]
  constructor
  · linarith [h1.1, h2.1, h3.1]
  · linarith [h1.2, h2.2, h3.2]

/-- The rounding of the messages moves the microseconds of an effort by little. -/
theorem abs_limitedAction_sub_le {effort limit : ℚ} (h : |effort| ≤ 1 / 2) (h0 : 0 ≤ limit)
    (h1 : limit ≤ 1) :
    |250 * limitedAction effort limit - 500 * effort * limit| ≤ 1 / 2 ^ 14 := by
  unfold limitedAction
  have haction := abs_publishedAction_sub_le h
  have hproduct : |publishedAction effort * limit| ≤ 1 := by
    rw [abs_mul, abs_of_nonneg h0]
    exact mul_le_one₀ (abs_publishedAction_le h) h0 h1
  have hround := abs_roundTo_le (representable_one binary64 (by decide)) hproduct
  have h2 := abs_le.mp (abs_roundTo_double_sub_le hproduct)
  have h3 := abs_le.mp (abs_roundTo_float_sub_le hround)
  have hscaled : |publishedAction effort * limit - 2 * effort * limit| ≤ 1 / 2 ^ 24 + 1 / 2 ^ 52 :=
    calc |publishedAction effort * limit - 2 * effort * limit|
        = |publishedAction effort - 2 * effort| * limit := by
          rw [← sub_mul, abs_mul, abs_of_nonneg h0]
      _ ≤ |publishedAction effort - 2 * effort| := mul_le_of_le_one_right (abs_nonneg _) h1
      _ ≤ 1 / 2 ^ 24 + 1 / 2 ^ 52 := haction
  have h4 := abs_le.mp hscaled
  set x := publishedAction effort * limit with hx
  set y := roundTo binary64 x with hy
  rw [abs_le]
  constructor
  · linarith [h2.1, h3.1, h4.1]
  · linarith [h2.2, h3.2, h4.2]

/-! ### Which efforts keep their offset -/

section Keeps

variable {effort limit : ℚ}

/-- Both sides are odd in the effort. -/
theorem keeps_iff_abs :
    roundHalfAway (250 * limitedAction effort limit) = roundHalfAway (500 * effort) ↔
      roundHalfAway (250 * limitedAction |effort| limit) = roundHalfAway (500 * |effort|) := by
  rcases le_total 0 effort with h | h
  · rw [abs_of_nonneg h]
  · rw [abs_of_nonpos h, limitedAction_neg, mul_neg, mul_neg, roundHalfAway_neg, roundHalfAway_neg,
      neg_inj]

theorem abs_limitedAction_sub_limitedUs_le (h : |effort| ≤ 1 / 2) (h0 : 0 ≤ limit)
    (h1 : limit ≤ 1) :
    |250 * limitedAction |effort| limit - limitedUs effort (250 * limit)| ≤ 1 / 2 ^ 14 := by
  have hbound := abs_limitedAction_sub_le ((abs_abs effort).trans_le h) h0 h1
  have hus : limitedUs effort (250 * limit) = 500 * |effort| * limit := by
    unfold limitedUs
    ring
  rwa [hus]

/-- An effort that keeps its offset reaches the boundary below it. -/
theorem reaches_of_keeps (h : |effort| ≤ 1 / 2) (h0 : 0 ≤ limit) (h1 : limit ≤ 1)
    (hkeeps : roundHalfAway (250 * limitedAction effort limit) = roundHalfAway (500 * effort)) :
    lowerBoundary effort ≤ limitedUs effort (250 * limit) + 1 / 2 ^ 14 := by
  have hnonneg := limitedAction_nonneg (abs_nonneg effort) h0
  have hstored := ((roundHalfAway_eq_iff (by positivity) _).mp (keeps_iff_abs.mp hkeeps)).1
  have hmoved := (abs_le.mp (abs_limitedAction_sub_limitedUs_le h h0 h1)).2
  unfold lowerBoundary
  linarith

/-- An effort that reaches its boundary by more than the rounding of the messages keeps its
offset. -/
theorem keeps_of_reaches (h : |effort| ≤ 1 / 2) (h0 : 0 ≤ limit) (h1 : limit ≤ 1)
    (hlower : lowerBoundary effort + 1 / 2 ^ 14 ≤ limitedUs effort (250 * limit))
    (hupper : limitedUs effort (250 * limit) + 1 / 2 ^ 14 < lowerBoundary effort + 1) :
    roundHalfAway (250 * limitedAction effort limit) = roundHalfAway (500 * effort) := by
  have hnonneg := limitedAction_nonneg (abs_nonneg effort) h0
  have hmoved := abs_le.mp (abs_limitedAction_sub_limitedUs_le h h0 h1)
  unfold lowerBoundary at hlower hupper
  refine keeps_iff_abs.mpr ((roundHalfAway_eq_iff (by positivity) _).mpr ⟨?_, ?_⟩)
  · linarith [hmoved.1]
  · linarith [hmoved.2]

/-- The second factor never adds microseconds, so the boundary above stays out of reach. -/
theorem limitedUs_lt (h1 : limit ≤ 1) :
    limitedUs effort (250 * limit) < lowerBoundary effort + 1 := by
  have hfull := ((roundHalfAway_eq_iff (q := 500 * |effort|) (by positivity) _).mp rfl).2
  have hle : |effort| * limit ≤ |effort| := mul_le_of_le_one_right (abs_nonneg _) h1
  unfold limitedUs lowerBoundary
  linarith

/-- Off the boundaries an effort keeps its offset exactly when it reaches the boundary below. -/
theorem keeps_iff_reaches (h : |effort| ≤ 1 / 2) (h0 : 0 ≤ limit) (h1 : limit ≤ 1)
    (hoff : OffBoundary (limitedUs effort (250 * limit))) :
    roundHalfAway (250 * limitedAction effort limit) = roundHalfAway (500 * effort) ↔
      lowerBoundary effort ≤ limitedUs effort (250 * limit) := by
  have hbelow := hoff (roundHalfAway (500 * |effort|) - 1)
  have habove := hoff (roundHalfAway (500 * |effort|))
  have hlt := @limitedUs_lt effort limit h1
  push_cast at hbelow
  constructor
  · intro hkeeps
    have hreaches := reaches_of_keeps h h0 h1 hkeeps
    by_contra hnot
    rw [not_le] at hnot
    unfold lowerBoundary at hreaches hnot
    rw [abs_of_neg (by linarith)] at hbelow
    linarith
  · intro hreaches
    unfold lowerBoundary at hreaches hlt
    rw [abs_of_nonneg (by linarith)] at hbelow
    rw [abs_of_neg (by linarith)] at habove
    refine keeps_of_reaches h h0 h1 ?_ ?_ <;> unfold lowerBoundary <;> linarith

end Keeps

/-! ### The path of an action -/

theorem value_effortAction {effort : Binary64} {q : ℚ} (hq : effort.value = .finite q)
    (h : |q| ≤ 1 / 2) : (effortAction effort).value = .finite (publishedAction q) := by
  have hspan : (constant pidEffortPwmSpanUs).value = .finite pidEffortPwmSpanUs :=
    value_constant_natCast (n := 500) (by norm_num)
  have hone : (constant 1).value = .finite 1 := by
    simpa using value_constant_natCast (n := 1) (by norm_num)
  have hproduct := abs_roundTo_le representable_span250 (abs_mul_span_le h)
  have hunrounded := abs_unrounded_le h
  have hmul : (effort * constant pidEffortPwmSpanUs).value
      = .finite (roundTo binary64 (q * pidEffortPwmSpanUs)) := by
    rw [Number.mul_eq_ofRat hq hspan]
    exact Number.value_ofRat (hproduct.trans_lt span_lt_max)
  have hdiv : ((effort * constant pidEffortPwmSpanUs).divConst actionPwmSpanUs).value
      = .finite
        (roundTo binary64 (roundTo binary64 (q * pidEffortPwmSpanUs) / actionPwmSpanUs)) := by
    unfold Number.divConst
    rw [hmul]
    exact Number.value_ofRat (hunrounded.trans_lt (one_lt_zpow₀ (by norm_num) (by decide)))
  have hclip := Number.value_clip_of_absLe hdiv hone hunrounded
  unfold effortAction
  rw [Number.narrow_eq_ofRat hclip]
  exact Number.value_ofRat ((abs_publishedAction_le h).trans_lt
    (one_lt_zpow₀ (by norm_num) (by decide)))

/-- A NaN is published as a NaN. -/
theorem effortAction_of_isNan {effort : Binary64} (h : effort.isNan = true) :
    (effortAction effort).value = .nan := by
  have hvalue := Number.isNan_iff.mp h
  have hmul : (effort * constant pidEffortPwmSpanUs).value = .nan := by
    obtain ⟨v, hv⟩ := effort
    simp only at hvalue
    subst hvalue
    rfl
  have hdiv : ((effort * constant pidEffortPwmSpanUs).divConst actionPwmSpanUs).isNan = true := by
    unfold Number.divConst
    rw [hmul]
    rfl
  have hclip : (((effort * constant pidEffortPwmSpanUs).divConst actionPwmSpanUs).clip
      (-constant 1) (constant 1)).value = .nan := Number.isNan_iff.mp (Number.clip_of_isNan hdiv)
  unfold effortAction Number.narrow
  rw [hclip]
  rfl

namespace PidDelivery

variable {pcfg : PidConfig} {acfg : AuthorityConfig} {bcfg : BridgeConfig}
  (d : PidDelivery pcfg acfg bcfg) (i : Fin 8)

/-- The authority's output is the published action times the limit. -/
theorem output_eq : HasCommand d.authority "pid" (pidCommand d.efforts) ∧
    d.evaluated.output = Vector.ofFn fun i =>
      (getElem (pidCommand d.efforts).action i i.2).widen * d.authority.actionLimit := by
  obtain ⟨message, hmessage, houtput⟩ := evaluate_pid d.evaluation d.active d.driving
  obtain ⟨⟨stampNs, hstored⟩, -⟩ := id hmessage
  rw [d.held] at hstored
  cases hstored
  exact ⟨hmessage, houtput⟩

theorem action_eq :
    getElem (pidCommand d.efforts).action i i.2 = effortAction (getElem d.efforts i i.2) := by
  simp [pidCommand]

/-- An effort that drives a thruster is a number of at most a half. -/
theorem value_effort :
    (getElem d.efforts i i.2).value = .finite (d.effort i) ∧ |d.effort i| ≤ 1 / 2 := by
  have hbounded : NanOrLe d.efforts[i] (1 / 2) := by
    obtain hzero | ⟨c, -, hle, h⟩ :=
      tickCommands_bounded (pwmLimitOk_of_run d.reached.choose_spec) d.mixed i
    · rw [hzero]
      exact nanOrLe_zero (by norm_num)
    · exact h.mono (effortBound_le hle)
  have hle : Number.AbsLe d.efforts[i] (1 / 2) := by
    refine hbounded.resolve_left fun hnan => ?_
    -- The authority drives no thruster from a NaN.
    obtain ⟨q, hq, -⟩ := d.output_eq.1.2 i
    rw [d.action_eq, effortAction_of_isNan hnan] at hq
    cases hq
  obtain ⟨q, hq, hle⟩ := hle
  rw [effort, Number.toRat_of_finite hq]
  exact ⟨hq, hle⟩

theorem limit_bounds : 0 ≤ d.limit ∧ d.limit ≤ 1 := by
  obtain ⟨l, hl, h0, h1⟩ := d.limitOk
  rw [limit, Number.toRat_of_finite hl]
  exact ⟨h0, h1⟩

/-- The published action of the authority. -/
theorem value_command : (getElem (makeCommand d.evaluated true).action i i.2).value
    = .finite (limitedAction (d.effort i) d.limit) ∧
      |limitedAction (d.effort i) d.limit| ≤ 1 := by
  obtain ⟨hvalue, hle⟩ := d.value_effort i
  obtain ⟨l, hl, h0, h1⟩ := d.limitOk
  have hlimit : d.limit = l := Number.toRat_of_finite hl
  have haction := value_effortAction hvalue hle
  have hpublished := abs_publishedAction_le hle
  have hproduct : |publishedAction (d.effort i) * l| ≤ 1 := by
    rw [abs_mul, abs_of_nonneg h0]
    exact mul_le_one₀ hpublished h0 h1
  have hone : (1 : ℚ) < 2 ^ binary64.maxExponent := one_lt_zpow₀ (by norm_num) (by decide)
  have hone' : (1 : ℚ) < 2 ^ binary32.maxExponent := one_lt_zpow₀ (by norm_num) (by decide)
  have hround := abs_roundTo_le (representable_one binary64 (by decide)) hproduct
  have hmul : (d.evaluated.output[i]).value
      = .finite (roundTo binary64 (publishedAction (d.effort i) * l)) := by
    rw [d.output_eq.2, Fin.getElem_fin, Vector.getElem_ofFn]
    show (((pidCommand d.efforts).action[i]).widen * d.authority.actionLimit).value = _
    rw [d.action_eq, Number.mul_eq_ofRat (Number.value_widen haction) hl]
    exact Number.value_ofRat (hround.trans_lt hone)
  have hlimited := abs_roundTo_le (representable_one binary32 (by decide)) hround
  unfold limitedAction
  rw [hlimit]
  refine ⟨?_, hlimited⟩
  have hnarrow : (makeCommand d.evaluated true).action[i] = (d.evaluated.output[i]).narrow := by
    simp [makeCommand]
  rw [hnarrow, Number.narrow_eq_ofRat hmul]
  exact Number.value_ofRat (hlimited.trans_lt hone')

/-- What the bridge stores. -/
theorem offset_eq : d.offset i = roundHalfAway (250 * limitedAction (d.effort i) d.limit) := by
  obtain ⟨hvalue, hle⟩ := d.value_command i
  have hoffsets : (onCommand bcfg d.bridge d.publisherCount d.arrivalNs
      (makeCommand d.evaluated true)).command.commandOffsets
      = (makeCommand d.evaluated true).action.map actionOffset := by
    unfold onCommand
    rw [d.accepted]
    dsimp only
    rw [Bool.not_true, if_neg Bool.false_ne_true]
    unfold updateArmBarrier
    split_ifs <;> rfl
  unfold offset
  rw [hoffsets, Fin.getElem_fin, Vector.getElem_map]
  exact toInt_actionOffset hvalue hle

end PidDelivery

/-- **The limit.**  With an effort `e` and a limit of `L` microseconds the stored offset is the
rounded effort exactly when `2 |e| L` is not below the rounding boundary under `500 |e|`.  That is
so wherever no rounding boundary is within `2 ^ -14` microseconds of `2 |e| L`.  In any case the
condition is necessary up to that much, and sufficient when it holds with that much to spare. -/
theorem pid_offset {pcfg : PidConfig} {acfg : AuthorityConfig} {bcfg : BridgeConfig}
    (d : PidDelivery pcfg acfg bcfg) (i : Fin 8) :
    (OffBoundary (limitedUs (d.effort i) d.limitUs) →
      (d.offset i = roundHalfAway (500 * d.effort i) ↔
        lowerBoundary (d.effort i) ≤ limitedUs (d.effort i) d.limitUs)) ∧
      (d.offset i = roundHalfAway (500 * d.effort i) →
        lowerBoundary (d.effort i) ≤ limitedUs (d.effort i) d.limitUs + 1 / 2 ^ 14) ∧
      (lowerBoundary (d.effort i) + 1 / 2 ^ 14 ≤ limitedUs (d.effort i) d.limitUs →
        limitedUs (d.effort i) d.limitUs + 1 / 2 ^ 14 < lowerBoundary (d.effort i) + 1 →
        d.offset i = roundHalfAway (500 * d.effort i)) := by
  obtain ⟨h0, h1⟩ := d.limit_bounds
  have heffort := (d.value_effort i).2
  rw [d.offset_eq, PidDelivery.limitUs]
  exact ⟨keeps_iff_reaches heffort h0 h1, reaches_of_keeps heffort h0 h1,
    keeps_of_reaches heffort h0 h1⟩

/-! ### Full effort at 250 and at 100 us -/

/-- The PID node hears of a limit. -/
def pidAt (limitUs : ℚ) : PidNode := (pidMachine {}).execState
  [.authorityStatus { selectedSource := "pid", actionLimit := (constant limitUs).divConst 250 }]

/-- An altitude hold with full effort. -/
def fullEfforts (limitUs : ℚ) : Vector Binary64 8 :=
  ((tickCommands {} (pidAt limitUs) (.altitude (constant 1))).toOption).getD zeroOutput

/-- The limit is set, the PID source is armed and sends the command. -/
def authorityAt (limitUs : ℚ) : Authority := (authorityMachine {}).execState
  [.setAuthority { updatePwmLimit := true, pwmLimitUs := constant limitUs } 0,
    .safetyEvent {} 0,
    .bodyState { linearVelocityValid := true, stateValid := true } 0,
    .trajectoryTarget { controlMode := "altitude_hold", valid := true } 0,
    .pidCommand { enable := true, source := "pid_controller" } 0 0,
    .setAuthority { source := "pid", arm := true } 0,
    .pidCommand (pidCommand (fullEfforts limitUs)) 0 0]

/-- The bridge has found the authority. -/
def bridgeReady : Bridge := (bridgeMachine {} 0).execState
  [.publishStatus (some [⟨"command_authority", "/"⟩]) 1]

theorem reachable_bridgeReady : (bridgeMachine {} 0).Reachable bridgeReady :=
  Machine.reachable_execState _ _

/-- What an evaluation leaves. -/
def evaluationResult (cfg : AuthorityConfig) (s : Authority) (nowNs : ℤ) : Authority :=
  ((evaluate cfg s nowNs).toOption).getD s

theorem evaluate_eq_evaluationResult (cfg : AuthorityConfig) (s : Authority) (nowNs : ℤ) :
    evaluate cfg s nowNs = .ok (evaluationResult cfg s nowNs) := by
  obtain ⟨s', hs', -⟩ := evaluate_spec cfg s nowNs
  unfold evaluationResult
  rw [hs']
  rfl

/-- At the full limit an effort of -0.5 is on its way. -/
def deliveryAt250 : PidDelivery {} {} {} where
  node := pidAt 250
  reached := Machine.reachable_execState _ _
  outcome := .altitude (constant 1)
  efforts := fullEfforts 250
  mixed := by decide +kernel
  authority := authorityAt 250
  limitOk := by
    rw [show (authorityAt 250).actionLimit = (constant 250).divConst 250 by decide +kernel]
    exact limitOk_divConst (by decide +kernel)
  reported := by decide +kernel
  stampNs := 0
  held := by decide +kernel
  nowNs := 0
  evaluated := evaluationResult {} (authorityAt 250) 0
  evaluation := evaluate_eq_evaluationResult _ _ _
  active := by decide +kernel
  driving := by decide +kernel
  bridge := bridgeReady
  publisherCount := 1
  arrivalNs := 0
  accepted := by decide +kernel

/-- The full limit takes nothing off. -/
theorem pid_offset_full :
    deliveryAt250.offset 0 = roundHalfAway (500 * deliveryAt250.effort 0) :=
  (pid_offset deliveryAt250 0).2.2 (by decide +kernel) (by decide +kernel)

/-- At 100 us an effort of -0.2 is on its way. -/
def deliveryAt100 : PidDelivery {} {} {} where
  node := pidAt 100
  reached := Machine.reachable_execState _ _
  outcome := .altitude (constant 1)
  efforts := fullEfforts 100
  mixed := by decide +kernel
  authority := authorityAt 100
  limitOk := by
    rw [show (authorityAt 100).actionLimit = (constant 100).divConst 250 by decide +kernel]
    exact limitOk_divConst (by decide +kernel)
  reported := by decide +kernel
  stampNs := 0
  held := by decide +kernel
  nowNs := 0
  evaluated := evaluationResult {} (authorityAt 100) 0
  evaluation := evaluate_eq_evaluationResult _ _ _
  active := by decide +kernel
  driving := by decide +kernel
  bridge := bridgeReady
  publisherCount := 1
  arrivalNs := 0
  accepted := by decide +kernel

/-- At 100 us the full effort asks for 100 us, and the bridge stores 40 us. -/
theorem limit_applied_twice :
    ¬ ∀ d : PidDelivery {} {} {}, (authorityMachine {}).Reachable d.authority →
      (bridgeMachine {} 0).Reachable d.bridge →
      ∀ i, d.offset i = roundHalfAway (500 * d.effort i) := by
  intro h
  have hequal := h deliveryAt100 (Machine.reachable_execState _ _) reachable_bridgeReady 0
  have hoffset : deliveryAt100.offset 0 = -40 := by decide +kernel
  have heffort : roundHalfAway (500 * deliveryAt100.effort 0) = -100 := by decide +kernel
  rw [hoffset, heffort] at hequal
  cases hequal

end RobotCore
