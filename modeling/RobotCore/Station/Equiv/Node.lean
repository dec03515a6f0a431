import RobotCore.Lib.Except
import RobotCore.Station.Equiv.Mix
import RobotCore.Station.Node

/-!
# Invariants of the direct hold modes

Each function of a tick succeeds, and one lemma for each says what it leaves: the efforts of the
three horizontal axes are within the command limit (`horizontalLoop_ensures`), the level efforts
together too (`levelLoop_ensures`).  The efforts that the fast station mode limits in their rate
last from tick to tick, and `StationNode.Inv` is what keeps them within a limit that changes.
-/

namespace RobotCore.Exact

open Clip Machine Except

attribute [local instance] Numeral.atLeastTwo_ten

variable {K : Type} [Field K] [LinearOrder K] [IsStrictOrderedRing K]

/-! ### The functions of the controllers -/

theorem ConditionalPid.step_ensures {math : MathModule K} {pid : ConditionalPid K}
    {call : StepCall K} {limit : K} (hdt : 0 < call.dt) (hlimit : call.outputLimit = some limit)
    (hpos : 0 ≤ limit) : (pid.step math call).Ensures fun r => |r.1| ≤ limit := by
  obtain ⟨output, pid', hstep, -, -, -, houtput⟩ := step_eq_ok math pid hdt
  refine ⟨_, hstep, ?_⟩
  have heq : pid.gains.limit call = limit := by
    rw [PidGains.limit, hlimit, Option.getD_some, abs_of_nonneg hpos]
  rw [houtput, heq]
  exact abs_clip_le hpos

theorem slewRateLimit_ensures {previous requested dt rate limit : K} (hdt : 0 < dt)
    (hrate : 0 ≤ rate) (hprevious : |previous| ≤ limit) (hrequested : |requested| ≤ limit) :
    (slewRateLimit previous requested dt rate).Ensures fun effort => |effort| ≤ limit :=
  ensures_ite_error hdt.not_ge (ensures_ite_error hrate.not_gt
    (ensures_ok (abs_slew_le (mul_nonneg hrate hdt.le) hprevious hrequested)))

omit [IsStrictOrderedRing K] in
theorem directionalVelocityFeedforward_ensures {velocity positive negative limit : K}
    (hpositive : 0 ≤ positive) (hnegative : 0 ≤ negative) (hlimit : 0 ≤ limit) :
    (directionalVelocityFeedforward velocity positive negative limit).Ensures fun _ => True :=
  ensures_ite_error (by simp [hpositive.not_gt, hnegative.not_gt, hlimit.not_gt])
    (ensures_ok trivial)

omit [IsStrictOrderedRing K] in
theorem desiredPlanarVelocity_ensures (cfg : StationConfig K) (input : StationInput K) :
    (StationNode.desiredPlanarVelocity cfg input).Ensures fun _ => True := by
  refine ensures_ite_error ?_ (ensures_ok trivial)
  rintro (⟨i, hi⟩ | ⟨i, hi⟩)
  · exact (cfg.stationPositionKp i).2.not_gt hi
  · refine hi.not_ge ?_
    fin_cases i <;> change (0 : K) ≤ ite _ _ _ <;> split_ifs <;> exact Subtype.prop _

omit [IsStrictOrderedRing K] in
theorem firstOrderLowPass_ensures {math : MathModule K} {previous : Option K}
    {sample dt timeConstantS : K} (hdt : 0 < dt) :
    (firstOrderLowPass math previous sample dt timeConstantS).Ensures fun _ => True := by
  refine ensures_ite_error hdt.not_ge ?_
  cases previous with
  | none => exact ensures_ok trivial
  | some previous =>
    dsimp only
    split_ifs
    · exact ensures_ok trivial
    · exact ensures_ok trivial

omit [IsStrictOrderedRing K] in
theorem conditionalAxisIntegralEffort_ensures {current error gain dt effortLimit limit : K}
    {base : Fin 2 → K} {axis : Fin 2} (hgain : 0 ≤ gain) (heffort : 0 ≤ effortLimit)
    (hlimit : 0 ≤ limit) (hdt : 0 < dt) :
    (conditionalAxisIntegralEffort current error gain dt effortLimit base axis limit).Ensures
      fun _ => True := by
  refine ensures_ite_error (by simp [hgain.not_gt, heffort.not_gt, hlimit.not_gt])
    (ensures_ite_error hdt.not_ge ?_)
  dsimp only
  split_ifs
  · exact ensures_ok trivial
  · exact ensures_ok trivial

omit [IsStrictOrderedRing K] in
theorem surgePitchDecouplingEffort_ensures {applied forward reverse limit : K}
    (hforward : 0 ≤ forward) (hreverse : 0 ≤ reverse) (hlimit : 0 ≤ limit) :
    (surgePitchDecouplingEffort applied forward reverse limit).Ensures fun _ => True :=
  ensures_ite_error (by simp [hforward.not_gt, hreverse.not_gt, hlimit.not_gt]) (ensures_ok trivial)

/-- The level efforts together are within the limit. -/
theorem levelCascade_ensures (cfg : StationConfig K) (input : StationInput K)
    {levelLimit : K} (hlimit : 0 ≤ levelLimit) (pitchDecoupling pitchIntegral : K) :
    (StationNode.levelCascade cfg input levelLimit pitchDecoupling pitchIntegral).Ensures
      fun level => |level.efforts 0| + |level.efforts 1| ≤ levelLimit := by
  refine ensures_ite_error ?_ (ensures_ok (applied_le hlimit))
  rintro (⟨i, hi⟩ | ⟨i, hi⟩ | ⟨i, hi⟩ | hi)
  · exact (cfg.fastStationLevelAngleToRateKp i).2.not_gt hi
  · exact (cfg.fastStationLevelRateKp i).2.not_gt hi
  · exact (cfg.fastStationLevelRateLimitRps i).2.not_gt hi
  · exact hlimit.not_gt hi

/-! ### The loops -/

namespace StationNode

omit [IsStrictOrderedRing K] in
theorem horizontalAxisLimit_le (cfg : StationConfig K) (node : StationNode K)
    (input : StationInput K) : node.horizontalAxisLimit cfg input ≤ node.commandLimit := by
  unfold horizontalAxisLimit
  split_ifs
  · exact le_rfl
  · exact min_le_left _ _

omit [IsStrictOrderedRing K] in
theorem horizontalAxisLimit_nonneg {cfg : StationConfig K} {node : StationNode K}
    {input : StationInput K} (hlimit : 0 ≤ node.commandLimit) :
    0 ≤ node.horizontalAxisLimit cfg input := by
  unfold horizontalAxisLimit
  split_ifs
  · exact hlimit
  · exact le_min hlimit (Subtype.prop _)

omit [IsStrictOrderedRing K] in
theorem yawAxisLimit_le (cfg : StationConfig K) (node : StationNode K) (input : StationInput K) :
    node.yawAxisLimit cfg input ≤ node.commandLimit := by
  unfold yawAxisLimit
  dsimp only
  split_ifs
  · exact (min_le_left _ _).trans (min_le_left _ _)
  · exact min_le_left _ _

omit [IsStrictOrderedRing K] in
theorem yawAxisLimit_nonneg {cfg : StationConfig K} {node : StationNode K}
    {input : StationInput K} (hlimit : 0 ≤ node.commandLimit) :
    0 ≤ node.yawAxisLimit cfg input := by
  have hbase : 0 ≤ min node.commandLimit cfg.stationYawAxisLimit := le_min hlimit (Subtype.prop _)
  unfold yawAxisLimit
  dsimp only
  split_ifs
  · exact le_min hbase (Subtype.prop _)
  · exact hbase

theorem preparedYawPid_ensures (math : MathModule K) (cfg : StationConfig K) (node : StationNode K)
    (input : StationInput K) : (node.preparedYawPid math cfg input).Ensures
      fun r => |r.1.integral| ≤ |node.stationYawPid.integral| := by
  have hzero : |(0 : K)| ≤ |node.stationYawPid.integral| := abs_zero.trans_le (abs_nonneg _)
  unfold preparedYawPid
  split_ifs
  · exact ensures_ok hzero
  · exact ensures_ok hzero
  have hcrossing : (integralResetAfterErrorCrossing node.stationYawHeadingErrorSign
      (input.orientationErrorBody 2) (cfg.stationYawPwmKi * node.stationYawPid.integral)
      (stationYawErrorCrossingHysteresisRad math)).Ensures fun _ => True := by
    have hhysteresis : 0 ≤ stationYawErrorCrossingHysteresisRad math := by
      have := math.pi_pos
      unfold stationYawErrorCrossingHysteresisRad
      positivity
    refine ensures_ite_error hhysteresis.not_gt ?_
    split
    · exact ensures_ok trivial
    · exact ensures_ok trivial
  refine hcrossing.bind fun r _ => ensures_pure ?_
  dsimp only
  split_ifs
  · exact hzero
  · exact le_rfl

/-- The limit is in its range, and the efforts that last are within it. -/
structure Inv (node : StationNode K) : Prop where
  pwmLimitUs_nonneg : 0 ≤ node.pwmLimitUs
  pwmLimitUs_le : node.pwmLimitUs ≤ maximumPwmLimitUs
  sway_le : |node.fastStationSwayLimitedEffort| ≤ node.commandLimit
  yaw_le : |node.fastStationLateralYawLimitedEffort| ≤ node.commandLimit

theorem Inv.commandLimit_nonneg {node : StationNode K} (h : Inv node) : 0 ≤ node.commandLimit :=
  (abs_nonneg _).trans h.sway_le

/-- The limit is what it was, and so are the sway PIDs that satisfy `p`. -/
structure Same (p : Bool → Prop) (node node' : StationNode K) : Prop where
  pwmLimitUs_eq : node'.pwmLimitUs = node.pwmLimitUs
  swayPid_eq : ∀ fast, p fast → node'.swayPid fast = node.swayPid fast

omit [LinearOrder K] [IsStrictOrderedRing K] in
theorem Same.commandLimit_eq {p : Bool → Prop} {node node' : StationNode K}
    (h : Same p node node') : node'.commandLimit = node.commandLimit :=
  congrArg (· / _) h.pwmLimitUs_eq

theorem prepareYaw_ensures (math : MathModule K) (cfg : StationConfig K) {node : StationNode K}
    (input : StationInput K) (h : Inv node) : (node.prepareYaw math cfg input).Ensures fun node' =>
      Inv node' ∧ Same (fun _ => True) node node' ∧
        node'.stationSurgePid = node.stationSurgePid ∧
        |node'.stationYawPid.integral| ≤ |node.stationYawPid.integral| :=
  (preparedYawPid_ensures math cfg node input).bind fun _ hyaw =>
    ensures_pure ⟨⟨h.1, h.2, h.3, h.4⟩, ⟨rfl, fun _ _ => rfl⟩, rfl, hyaw⟩

theorem surgeLoop_ensures {math : MathModule K} {cfg : StationConfig K} {node : StationNode K}
    {input : StationInput K} {dt desired : K} (h : Inv node) (hdt : 0 < dt) :
    (node.surgeLoop math cfg input dt desired).Ensures fun r =>
      Inv r.2 ∧ Same (fun _ => True) node r.2 ∧ |r.1| ≤ node.commandLimit :=
  (ConditionalPid.step_ensures hdt rfl (horizontalAxisLimit_nonneg h.commandLimit_nonneg)).bind
    fun _ heffort => ensures_pure ⟨⟨h.1, h.2, h.3, h.4⟩, ⟨rfl, fun _ _ => rfl⟩,
      heffort.trans (horizontalAxisLimit_le cfg node input)⟩

omit [IsStrictOrderedRing K] in
theorem swayFeedforward_ensures {cfg : StationConfig K} {node : StationNode K}
    {input : StationInput K} {desired : K} (hlimit : 0 ≤ node.commandLimit) :
    (node.swayFeedforward cfg input desired).Ensures fun _ => True := by
  unfold swayFeedforward
  split_ifs
  · exact directionalVelocityFeedforward_ensures (Subtype.prop _) (Subtype.prop _)
      (horizontalAxisLimit_nonneg hlimit)
  · exact ensures_ok trivial

/-- In the fast mode the effort is the one that lasts. -/
theorem swayLoop_ensures {math : MathModule K} {cfg : StationConfig K} {node : StationNode K}
    {input : StationInput K} {dt desired : K} (h : Inv node) (hdt : 0 < dt) :
    (node.swayLoop math cfg input dt desired).Ensures fun r =>
      Inv r.2 ∧ Same (· ≠ (input.controlMode == .stationHoldFast)) node r.2 ∧
        |r.1| ≤ node.commandLimit ∧
        (input.controlMode = .stationHoldFast → r.2.fastStationSwayLimitedEffort = r.1) := by
  have hpos := h.commandLimit_nonneg
  refine (swayFeedforward_ensures hpos).bind fun feedforward _ => ?_
  refine (ConditionalPid.step_ensures hdt rfl (horizontalAxisLimit_nonneg hpos)).bind
    fun r heffort => ?_
  have hrequested := heffort.trans (horizontalAxisLimit_le cfg node input)
  by_cases hfast : input.controlMode = .stationHoldFast
  · simp only [hfast, beq_self_eq_true, if_true]
    refine (slewRateLimit_ensures hdt (Subtype.prop _) h.sway_le hrequested).bind
      fun effort heffort => ensures_pure ⟨⟨h.1, h.2, heffort, h.4⟩, ⟨rfl, fun fast hne => ?_⟩,
        heffort, fun _ => rfl⟩
    obtain rfl : fast = false := Bool.eq_false_iff.mpr hne
    rfl
  · have hfalse : (input.controlMode == .stationHoldFast) = false := beq_eq_false_iff_ne.mpr hfast
    simp only [hfalse, Bool.false_eq_true, if_false]
    refine ensures_pure ⟨⟨h.1, h.2, abs_zero.trans_le hpos, h.4⟩, ⟨rfl, fun fast hne => ?_⟩,
      hrequested, fun h => absurd h hfast⟩
    obtain rfl : fast = true := Bool.not_eq_false _ ▸ hne
    rfl

/-- In a straight lateral manoeuvre the effort is the one that lasts. -/
theorem yawLoop_ensures {math : MathModule K} {cfg : StationConfig K} {node : StationNode K}
    {input : StationInput K} {dt yawAxisLimit swayEffort : K} {lateral : Bool} (h : Inv node)
    (hdt : 0 < dt) (hpos : 0 ≤ yawAxisLimit) (hle : yawAxisLimit ≤ node.commandLimit) :
    (node.yawLoop math cfg input dt lateral yawAxisLimit swayEffort).Ensures fun r =>
      Inv r.2 ∧ Same (fun _ => True) node r.2 ∧
        r.2.fastStationSwayLimitedEffort = node.fastStationSwayLimitedEffort ∧
        |r.1| ≤ node.commandLimit ∧
        (lateral = true → r.2.fastStationLateralYawLimitedEffort = r.1) := by
  refine (ConditionalPid.step_ensures hdt rfl hpos).bind fun r heffort => ?_
  have hrequested := heffort.trans hle
  cases lateral with
  | true =>
    exact (slewRateLimit_ensures hdt (Subtype.prop _) h.yaw_le hrequested).bind
      fun effort heffort => ensures_pure ⟨⟨h.1, h.2, h.3, heffort⟩, ⟨rfl, fun _ _ => rfl⟩, rfl,
        heffort, fun _ => rfl⟩
  | false =>
    exact ensures_pure ⟨⟨h.1, h.2, h.3, abs_zero.trans_le h.commandLimit_nonneg⟩,
      ⟨rfl, fun _ _ => rfl⟩, rfl, hrequested, fun h => absurd h Bool.false_ne_true⟩

/-! ### The horizontal loop -/

/-- None of the horizontal integrals is larger than before. -/
structure IntegralsHeld (node node' : StationNode K) : Prop where
  surge : |node'.stationSurgePid.integral| ≤ |node.stationSurgePid.integral|
  sway : ∀ fast, |(node'.swayPid fast).integral| ≤ |(node.swayPid fast).integral|
  yaw : |node'.stationYawPid.integral| ≤ |node.stationYawPid.integral|

omit [IsStrictOrderedRing K] in
/-- A state whose other sway PID is that of `before`, with the integrals of `before`. -/
theorem withIntegrals_held {node before : StationNode K} {fast : Bool}
    (hother : ∀ other, other ≠ fast → node.swayPid other = before.swayPid other) :
    IntegralsHeld before (node.withIntegrals before fast) := by
  refine ⟨le_rfl, fun other => ?_, le_rfl⟩
  have heq := fun hne => (congrArg (fun pid : ConditionalPid K => |pid.integral|)
    (hother other hne)).le
  cases fast <;> cases other
  · exact le_rfl
  · exact heq nofun
  · exact heq nofun
  · exact le_rfl

omit [IsStrictOrderedRing K] in
/-- The integrals alone are rolled back. -/
theorem ite_withIntegrals_spec {node : StationNode K} (before : StationNode K) (fast : Bool)
    (c : Prop) [Decidable c] (h : Inv node) :
    let node' := if c then node.withIntegrals before fast else node
    Inv node' ∧ node'.pwmLimitUs = node.pwmLimitUs ∧
      node'.fastStationSwayLimitedEffort = node.fastStationSwayLimitedEffort ∧
      node'.fastStationLateralYawLimitedEffort = node.fastStationLateralYawLimitedEffort := by
  intro node'
  by_cases hc : c
  · simp only [node', if_pos hc]
    cases fast
    · exact ⟨⟨h.1, h.2, h.3, h.4⟩, rfl, rfl, rfl⟩
    · exact ⟨⟨h.1, h.2, h.3, h.4⟩, rfl, rfl, rfl⟩
  · simp only [node', if_neg hc]
    exact ⟨h, trivial, trivial, trivial⟩

/-- What the horizontal loop arrives at and what it leaves. -/
structure HorizontalSpec (node : StationNode K) (input : StationInput K) (efforts : Horizontal K)
    (node' : StationNode K) : Prop where
  inv : Inv node'
  pwmLimitUs_eq : node'.pwmLimitUs = node.pwmLimitUs
  surge_le : |efforts.surgeEffort| ≤ node.commandLimit
  sway_le : |efforts.swayEffort| ≤ node.commandLimit
  yaw_le : |efforts.yawEffort| ≤ node.commandLimit
  mixScale_eq : efforts.mixScale = (stationHorizontalPwmMix efforts.surgeEffort efforts.swayEffort
    efforts.yawEffort node.commandLimit).2
  sway_eq : input.controlMode = .stationHoldFast →
    node'.fastStationSwayLimitedEffort = efforts.swayEffort
  yaw_eq : input.straightLateralManeuver node = true →
    node'.fastStationLateralYawLimitedEffort = efforts.yawEffort
  integrals : efforts.mixScale < 1 - tolerance → IntegralsHeld node node'

theorem horizontalLoop_ensures {math : MathModule K} {cfg : StationConfig K} {node : StationNode K}
    {input : StationInput K} {dt : K} (h : Inv node) (hdt : 0 < dt) :
    (node.horizontalLoop math cfg input dt).Ensures fun r => HorizontalSpec node input r.1 r.2 := by
  refine (desiredPlanarVelocity_ensures cfg input).bind fun desired _ => ?_
  refine (prepareYaw_ensures math cfg input h).bind fun before
    ⟨hbefore, hsame, hsurgePid, hyawPid⟩ => ?_
  refine (surgeLoop_ensures hbefore hdt).bind fun ⟨surge, node₁⟩ ⟨h₁, hsame₁, hsurge⟩ => ?_
  refine (swayLoop_ensures h₁ hdt).bind fun ⟨sway, node₂⟩ ⟨h₂, hsame₂, hsway, hswayEq⟩ => ?_
  have hlimit : before.commandLimit = node.commandLimit := hsame.commandLimit_eq
  have hlimit₁ : node₁.commandLimit = node.commandLimit := hsame₁.commandLimit_eq.trans hlimit
  have hlimit₂ : node₂.commandLimit = node.commandLimit := hsame₂.commandLimit_eq.trans hlimit₁
  refine (yawLoop_ensures h₂ hdt (yawAxisLimit_nonneg h.commandLimit_nonneg)
    ((yawAxisLimit_le cfg node input).trans_eq hlimit₂.symm)).bind
      fun ⟨yaw, node₃⟩ ⟨h₃, hsame₃, hswayLimited, hyaw, hyawEq⟩ => ?_
  have hlimit₃ : node₃.commandLimit = node.commandLimit := hsame₃.commandLimit_eq.trans hlimit₂
  have hpwm : node₃.pwmLimitUs = node.pwmLimitUs :=
    hsame₃.pwmLimitUs_eq.trans (hsame₂.pwmLimitUs_eq.trans
      (hsame₁.pwmLimitUs_eq.trans hsame.pwmLimitUs_eq))
  dsimp only at hsurge hsway hyaw hswayEq hyawEq hswayLimited
  refine ensures_pure ?_
  obtain ⟨hinv, hpwm', hswayLasts, hyawLasts⟩ := ite_withIntegrals_spec before
    (input.controlMode == .stationHoldFast)
    ((stationHorizontalPwmMix surge sway yaw node₃.commandLimit).2 < 1 - tolerance) h₃
  refine ⟨hinv, hpwm'.trans hpwm, hsurge.trans_eq hlimit, hsway.trans_eq hlimit₁,
    hyaw.trans_eq hlimit₂, ?_, fun hfast => ?_, fun hlateral => ?_, fun hscale => ?_⟩
  · exact congrArg (fun limit => (stationHorizontalPwmMix surge sway yaw limit).2) hlimit₃
  · exact hswayLasts.trans (hswayLimited.trans (hswayEq hfast))
  · exact hyawLasts.trans (hyawEq hlateral)
  · dsimp only at hscale ⊢
    rw [if_pos hscale]
    have hheld : IntegralsHeld before (node₃.withIntegrals before
        (input.controlMode == .stationHoldFast)) :=
      withIntegrals_held fun other hne => (hsame₃.swayPid_eq other trivial).trans
        ((hsame₂.swayPid_eq other hne).trans (hsame₁.swayPid_eq other trivial))
    exact ⟨hheld.surge.trans_eq (congrArg (fun pid => |pid.integral|) hsurgePid),
      fun fast => (hheld.sway fast).trans_eq
        (congrArg (fun pid => |pid.integral|) (hsame.swayPid_eq fast trivial)),
      hheld.yaw.trans hyawPid⟩

theorem horizontalEfforts_ensures {math : MathModule K} {cfg : StationConfig K}
    {node : StationNode K} {input : StationInput K} {dt : K} (h : Inv node) (hdt : 0 < dt) :
    (node.horizontalEfforts math cfg input dt).Ensures fun r =>
      Inv r.2 ∧ r.2.pwmLimitUs = node.pwmLimitUs ∧
        (input.controlMode.isStation = true → HorizontalSpec node input r.1 r.2) := by
  unfold horizontalEfforts
  split_ifs with hstation
  · exact (horizontalLoop_ensures h hdt).mono fun r hr => ⟨hr.inv, hr.pwmLimitUs_eq, fun _ => hr⟩
  · exact ensures_ok ⟨h, rfl, fun h => absurd h hstation⟩

/-! ### The level loop -/

/-- What a state keeps outside the horizontal loop. -/
structure SameHorizontal (node node' : StationNode K) : Prop where
  pwmLimitUs_eq : node'.pwmLimitUs = node.pwmLimitUs
  surgePid_eq : node'.stationSurgePid = node.stationSurgePid
  swayPid_eq : ∀ fast, node'.swayPid fast = node.swayPid fast
  yawPid_eq : node'.stationYawPid = node.stationYawPid
  swayLimited_eq : node'.fastStationSwayLimitedEffort = node.fastStationSwayLimitedEffort
  yawLimited_eq : node'.fastStationLateralYawLimitedEffort = node.fastStationLateralYawLimitedEffort

omit [IsStrictOrderedRing K] in
theorem pitchDecouplingEffort_ensures (cfg : StationConfig K) (applied : K) :
    (pitchDecouplingEffort cfg applied).Ensures fun _ => True := by
  unfold pitchDecouplingEffort
  split_ifs
  · exact surgePitchDecouplingEffort_ensures (Subtype.prop _) (Subtype.prop _) (Subtype.prop _)
  · exact ensures_ok trivial

theorem levelLoop_ensures {cfg : StationConfig K} {node : StationNode K} {input : StationInput K}
    {dt applied : K} (hlimit : 0 ≤ node.commandLimit) (hdt : 0 < dt) :
    (node.levelLoop cfg input dt applied).Ensures fun r =>
      |r.1.efforts 0| + |r.1.efforts 1| ≤ node.commandLimit ∧ SameHorizontal node r.2 := by
  have hpos : 0 ≤ min node.commandLimit cfg.fastStationLevelPwmLimit :=
    le_min hlimit (Subtype.prop _)
  refine (pitchDecouplingEffort_ensures cfg applied).bind fun decoupling _ => ?_
  refine (levelCascade_ensures cfg input hpos decoupling 0).bind fun base _ => ?_
  refine (conditionalAxisIntegralEffort_ensures (Subtype.prop _) (Subtype.prop _) hpos hdt).bind
    fun integral _ => ?_
  exact (levelCascade_ensures cfg input hpos decoupling integral).bind fun level hlevel =>
    ensures_pure ⟨hlevel.trans (min_le_left _ _), ⟨rfl, rfl, fun _ => rfl, rfl, rfl, rfl⟩⟩

theorem levelEfforts_ensures {cfg : StationConfig K} {node : StationNode K}
    {input : StationInput K} {dt applied : K} (hlimit : 0 ≤ node.commandLimit) (hdt : 0 < dt) :
    (node.levelEfforts cfg input dt applied).Ensures fun r =>
      |r.1.efforts 0| + |r.1.efforts 1| ≤ node.commandLimit ∧ SameHorizontal node r.2 ∧
        (input.controlMode ≠ .stationHoldFast → |r.1.efforts 0| + |r.1.efforts 1| = 0) := by
  unfold levelEfforts
  split_ifs with hfast
  · exact (levelLoop_ensures hlimit hdt).mono fun r h =>
      ⟨h.1, h.2, fun hne => absurd (beq_iff_eq.mp hfast) hne⟩
  · have hzero : |(0 : K)| + |(0 : K)| = 0 := by rw [abs_zero, add_zero]
    exact ensures_ok
      ⟨hzero.trans_le hlimit, ⟨rfl, rfl, fun _ => rfl, rfl, rfl, rfl⟩, fun _ => hzero⟩

omit [IsStrictOrderedRing K] in
theorem altitudeOutputLimit_nonneg {node : StationNode K} (mode : ControlMode)
    (levelEfforts : Fin 2 → K) (hlimit : 0 ≤ node.commandLimit) :
    0 ≤ node.altitudeOutputLimit mode levelEfforts := by
  unfold altitudeOutputLimit
  split_ifs
  · exact le_max_left _ _
  · exact hlimit

/-- The output of the altitude is limited to what the level loop leaves. -/
theorem altitudeOutputLimit_eq {node : StationNode K} {mode : ControlMode}
    {levelEfforts : Fin 2 → K} (hlevel : |levelEfforts 0| + |levelEfforts 1| ≤ node.commandLimit)
    (hzero : mode ≠ .stationHoldFast → |levelEfforts 0| + |levelEfforts 1| = 0) :
    node.altitudeOutputLimit mode levelEfforts =
      node.commandLimit - (|levelEfforts 0| + |levelEfforts 1|) := by
  unfold altitudeOutputLimit
  split_ifs with hfast
  · exact max_eq_right (sub_nonneg.mpr hlevel)
  · rw [hzero fun h => hfast (beq_iff_eq.mpr h), sub_zero]

/-! ### The mixing -/

theorem tolerance_lt_abs_sign (cfg : StationConfig K) :
    tolerance < |cfg.altitudePwmCommandSign| := by
  have htolerance : (tolerance : K) < 1 := by
    unfold tolerance
    norm_num
  rcases cfg.sign_unit with h | h
  · rwa [h, abs_one]
  · rwa [h, abs_neg, abs_one]

theorem copysignOne_sign (cfg : StationConfig K) :
    copysignOne cfg.altitudePwmCommandSign = cfg.altitudePwmCommandSign := by
  unfold copysignOne
  rcases cfg.sign_unit with h | h
  · rw [h, if_neg (not_lt.mpr zero_le_one)]
  · rw [h, if_pos neg_one_lt_zero]

omit [IsStrictOrderedRing K] in
theorem abs_sign_mul (cfg : StationConfig K) (effort : K) :
    |cfg.altitudePwmCommandSign * effort| = |effort| := by
  rcases cfg.sign_unit with h | h
  · rw [h, one_mul]
  · rw [h, neg_one_mul, abs_neg]

/-- What the mixing makes of the efforts of the loops. -/
structure MixSpec (cfg : StationConfig K) (limit controllerEffort : K) (levelEfforts : Fin 2 → K)
    (commands : Commands K) : Prop where
  vertical_le : ∀ i, |commands.vertical i| ≤ limit
  horizontal_le : ∀ i, |commands.horizontal i| ≤ limit
  vertical_eq : ∀ i, commands.vertical i = cfg.altitudePwmCommandSign * controllerEffort +
    attitudeMix (levelEfforts 0) (levelEfforts 1) i

/-- Neither the attitude nor the collective of the level loop and the altitude loop is clipped. -/
theorem altitudeLevelPwmCommands_unclipped {cfg : StationConfig K} {controllerEffort limit : K}
    {levelEfforts : Fin 2 → K} (hlevel : |levelEfforts 0| + |levelEfforts 1| ≤ limit)
    (hcontroller : |controllerEffort| ≤ limit - (|levelEfforts 0| + |levelEfforts 1|)) :
    (altitudeLevelPwmCommands controllerEffort (levelEfforts 0) (levelEfforts 1) limit
      cfg.altitudePwmCommandSign).Ensures (MixSpec cfg limit controllerEffort levelEfforts) := by
  have hpos : 0 ≤ limit := (add_nonneg (abs_nonneg _) (abs_nonneg _)).trans hlevel
  have hscale := scaleToLimit_of_le hlevel
  obtain ⟨hok, hbound⟩ := altitudeLevelPwmCommands_eq controllerEffort (levelEfforts 0)
    (levelEfforts 1) limit (tolerance_lt_abs_sign cfg)
  rw [abs_of_nonneg hpos, hscale, mul_one, mul_one, copysignOne_sign,
    clip_of_abs_le ((abs_sign_mul cfg _).trans_le hcontroller)] at hok hbound
  exact ⟨_, hok, hbound, fun _ => abs_zero.trans_le hpos, fun _ => rfl⟩

/-- The commands of a station mode. -/
theorem altitudeStationPwmCommands_ensures {cfg : StationConfig K}
    {controllerEffort surge sway yaw limit : K} {levelEfforts : Fin 2 → K}
    (hlevel : |levelEfforts 0| + |levelEfforts 1| ≤ limit)
    (hcontroller : |controllerEffort| ≤ limit - (|levelEfforts 0| + |levelEfforts 1|)) :
    (altitudeStationPwmCommands controllerEffort surge sway yaw limit cfg.altitudePwmCommandSign
      (levelEfforts 0) (levelEfforts 1)).Ensures fun commands =>
        MixSpec cfg limit controllerEffort levelEfforts commands ∧
          commands.horizontal = (stationHorizontalPwmMix surge sway yaw limit).1 := by
  have hpos : 0 ≤ limit := (add_nonneg (abs_nonneg _) (abs_nonneg _)).trans hlevel
  refine (altitudeLevelPwmCommands_unclipped hlevel hcontroller).bind fun commands h =>
    ensures_pure ⟨⟨h.vertical_le, fun i => ?_, h.vertical_eq⟩, rfl⟩
  exact (abs_stationHorizontalPwmMix_le surge sway yaw limit i).trans_eq (abs_of_nonneg hpos)

theorem altitudeCollectivePwmCommands_ensures {cfg : StationConfig K} {controllerEffort limit : K}
    {levelEfforts : Fin 2 → K} (hzero : |levelEfforts 0| + |levelEfforts 1| = 0)
    (hcontroller : |controllerEffort| ≤ limit) :
    (altitudeCollectivePwmCommands controllerEffort limit cfg.altitudePwmCommandSign).Ensures
      (MixSpec cfg limit controllerEffort levelEfforts) := by
  have hpos : 0 ≤ limit := (abs_nonneg _).trans hcontroller
  have hclip : clip (copysignOne cfg.altitudePwmCommandSign * controllerEffort) (-|limit|) |limit| =
      cfg.altitudePwmCommandSign * controllerEffort := by
    rw [copysignOne_sign, abs_of_nonneg hpos]
    exact clip_of_abs_le ((abs_sign_mul cfg _).trans_le hcontroller)
  refine ensures_ite_error (mt isClose_zero_iff.mp (tolerance_lt_abs_sign cfg).not_ge)
    (ensures_ok ⟨fun i => ?_, fun _ => abs_zero.trans_le hpos, fun i => ?_⟩)
  · dsimp only
    rw [hclip, abs_sign_mul]
    exact hcontroller
  · have hattitude := abs_attitudeMix_le (levelEfforts 0) (levelEfforts 1) i
    rw [hzero] at hattitude
    dsimp only
    rw [hclip, abs_nonpos_iff.mp hattitude, add_zero]

/-! ### The tick -/

omit [IsStrictOrderedRing K] in
theorem Inv.congr {node node' : StationNode K} (h : Inv node) (hsame : SameHorizontal node node') :
    Inv node' := by
  refine ⟨?_, ?_, ?_, ?_⟩
  · rw [hsame.pwmLimitUs_eq]
    exact h.pwmLimitUs_nonneg
  · rw [hsame.pwmLimitUs_eq]
    exact h.pwmLimitUs_le
  · rw [hsame.swayLimited_eq, commandLimit, hsame.pwmLimitUs_eq]
    exact h.sway_le
  · rw [hsame.yawLimited_eq, commandLimit, hsame.pwmLimitUs_eq]
    exact h.yaw_le

omit [IsStrictOrderedRing K] in
theorem HorizontalSpec.congr {node node₁ node₂ : StationNode K} {input : StationInput K}
    {efforts : Horizontal K} (h : HorizontalSpec node input efforts node₁)
    (hsame : SameHorizontal node₁ node₂) : HorizontalSpec node input efforts node₂ where
  inv := h.inv.congr hsame
  pwmLimitUs_eq := hsame.pwmLimitUs_eq.trans h.pwmLimitUs_eq
  surge_le := h.surge_le
  sway_le := h.sway_le
  yaw_le := h.yaw_le
  mixScale_eq := h.mixScale_eq
  sway_eq hfast := hsame.swayLimited_eq.trans (h.sway_eq hfast)
  yaw_eq hlateral := hsame.yawLimited_eq.trans (h.yaw_eq hlateral)
  integrals hscale := by
    obtain ⟨hsurge, hsway, hyaw⟩ := h.integrals hscale
    refine ⟨?_, fun fast => ?_, ?_⟩
    · rw [hsame.surgePid_eq]
      exact hsurge
    · rw [hsame.swayPid_eq]
      exact hsway fast
    · rw [hsame.yawPid_eq]
      exact hyaw

omit [IsStrictOrderedRing K] in
/-- The filtered velocity takes no part in the horizontal loop. -/
theorem HorizontalSpec.of_filtered {node node' : StationNode K} {filtered : Option K}
    {input : StationInput K} {efforts : Horizontal K}
    (h : HorizontalSpec { node with altitudeVerticalVelocityFiltered := filtered } input efforts
      node') : HorizontalSpec node input efforts node' :=
  { h with
    integrals := fun hscale =>
      let ⟨hsurge, hsway, hyaw⟩ := h.integrals hscale
      ⟨hsurge, hsway, hyaw⟩ }

/-- What a tick in a direct hold mode arrives at and what it leaves. -/
structure EffortsSpec (cfg : StationConfig K) (node : StationNode K) (input : StationInput K)
    (efforts : Efforts K) (node' : StationNode K) : Prop where
  inv : Inv node'
  level_le : |efforts.levelEfforts 0| + |efforts.levelEfforts 1| ≤ node.commandLimit
  output_eq : efforts.altitudeOutputLimit =
    node.commandLimit - (|efforts.levelEfforts 0| + |efforts.levelEfforts 1|)
  controller_le : |efforts.controllerEffort| ≤ efforts.altitudeOutputLimit
  mix : MixSpec cfg node.commandLimit efforts.controllerEffort efforts.levelEfforts efforts.commands
  station : input.controlMode.isStation = true →
    HorizontalSpec node input efforts.horizontal node' ∧
      efforts.commands.horizontal = (stationHorizontalPwmMix efforts.horizontal.surgeEffort
        efforts.horizontal.swayEffort efforts.horizontal.yawEffort node.commandLimit).1

/-- Outside the fast station mode no level effort takes part in the mix. -/
theorem mixCommands_ensures {cfg : StationConfig K} {node : StationNode K} {mode : ControlMode}
    {controllerEffort : K} {horizontal : Horizontal K} {levelEfforts : Fin 2 → K}
    (hlevel : |levelEfforts 0| + |levelEfforts 1| ≤ node.commandLimit)
    (hzero : mode ≠ .stationHoldFast → |levelEfforts 0| + |levelEfforts 1| = 0)
    (hcontroller :
      |controllerEffort| ≤ node.commandLimit - (|levelEfforts 0| + |levelEfforts 1|)) :
    (node.mixCommands cfg mode controllerEffort horizontal levelEfforts).Ensures fun commands =>
      MixSpec cfg node.commandLimit controllerEffort levelEfforts commands ∧
        (mode.isStation = true → commands.horizontal =
          (stationHorizontalPwmMix horizontal.surgeEffort horizontal.swayEffort
            horizontal.yawEffort node.commandLimit).1) := by
  unfold mixCommands
  split_ifs with hstation
  · exact (altitudeStationPwmCommands_ensures hlevel hcontroller).mono fun _ h =>
      ⟨h.1, fun _ => h.2⟩
  · have hsum : |levelEfforts 0| + |levelEfforts 1| = 0 := by
      refine hzero ?_
      rintro rfl
      exact hstation rfl
    rw [hsum, sub_zero] at hcontroller
    exact (altitudeCollectivePwmCommands_ensures hsum hcontroller).mono
      fun _ h => ⟨h, fun h => absurd h hstation⟩

theorem directHold_ensures (math : MathModule K) (cfg : StationConfig K) {node : StationNode K}
    (input : StationInput K) {dt : K} (h : Inv node) (hdt : 0 < dt) :
    (node.directHold math cfg input dt).Ensures fun r => EffortsSpec cfg node input r.1 r.2 := by
  refine (firstOrderLowPass_ensures hdt).bind fun filtered _ => ?_
  refine Ensures.bind (horizontalEfforts_ensures ?_ hdt) fun ⟨horizontal, node₁⟩ h₁ => ?_
  · exact ⟨h.1, h.2, h.3, h.4⟩
  obtain ⟨hinv₁, hpwm₁, hhorizontal⟩ := h₁
  dsimp only at hpwm₁
  have hlimit₁ : node₁.commandLimit = node.commandLimit := congrArg (· / _) hpwm₁
  refine (levelEfforts_ensures hinv₁.commandLimit_nonneg hdt).bind fun ⟨level, node₂⟩ h₂ => ?_
  obtain ⟨hlevel, hsame, hzero⟩ := h₂
  dsimp only at hlevel hsame hzero
  have hlimit₂ : node₂.commandLimit = node.commandLimit :=
    (congrArg (· / _) hsame.pwmLimitUs_eq).trans hlimit₁
  rw [hlimit₁] at hlevel
  have houtput := altitudeOutputLimit_eq (hlevel.trans_eq hlimit₂.symm) hzero
  refine (ConditionalPid.step_ensures hdt rfl
    (altitudeOutputLimit_nonneg _ _ (hinv₁.congr hsame).commandLimit_nonneg)).bind
      fun ⟨controllerEffort, altitudePid⟩ hcontroller => ?_
  dsimp only at hcontroller
  refine Ensures.bind (mixCommands_ensures ?_ hzero ?_) fun commands hmix => ensures_pure ?_
  · exact hlevel.trans_eq hlimit₂.symm
  · exact hcontroller.trans_eq houtput
  obtain ⟨hmix, hstation⟩ := hmix
  rw [hlimit₂] at houtput
  replace hsame : SameHorizontal node₁ { node₂ with altitudePid := altitudePid } :=
    ⟨hsame.1, hsame.2, hsame.3, hsame.4, hsame.5, hsame.6⟩
  exact {
    inv := hinv₁.congr hsame
    level_le := hlevel
    output_eq := houtput
    controller_le := hcontroller
    mix := hlimit₂ ▸ hmix
    station := fun h => ⟨(hhorizontal h).of_filtered.congr hsame, hlimit₂ ▸ hstation h⟩ }

/-- A command within the limit is not clipped to an action. -/
theorem actionOf_eq {node : StationNode K} (h : Inv node) {value : K}
    (hvalue : |value| ≤ node.commandLimit) : actionOf value = 2 * value := by
  have hscaled : 500 * |value| ≤ node.pwmLimitUs := by
    rw [commandLimit, pidEffortPwmSpanUs, le_div_iff₀ (by norm_num)] at hvalue
    linarith
  have heq : value * pidEffortPwmSpanUs / actionPwmSpanUs = 2 * value := by
    rw [pidEffortPwmSpanUs, actionPwmSpanUs]
    ring
  have hle := h.pwmLimitUs_le
  rw [maximumPwmLimitUs] at hle
  rw [actionOf, heq]
  refine clip_of_abs_le ?_
  rw [abs_mul, abs_of_pos (by norm_num : (0 : K) < 2)]
  linarith

/-- A command within the limit is an action within it. -/
theorem actionOf_le {node : StationNode K} (h : Inv node) {value : K}
    (hvalue : |value| ≤ node.commandLimit) : 250 * |actionOf value| ≤ node.pwmLimitUs := by
  rw [actionOf_eq h hvalue, abs_mul, abs_of_pos (by norm_num : (0 : K) < 2)]
  rw [commandLimit, pidEffortPwmSpanUs, le_div_iff₀ (by norm_num)] at hvalue
  linarith

theorem resetControllers_inv {node : StationNode K} (h : Inv node) : Inv node.resetControllers where
  pwmLimitUs_nonneg := h.pwmLimitUs_nonneg
  pwmLimitUs_le := h.pwmLimitUs_le
  sway_le := abs_zero.trans_le h.commandLimit_nonneg
  yaw_le := abs_zero.trans_le h.commandLimit_nonneg

theorem resetControllers_held (node : StationNode K) :
    IntegralsHeld node node.resetControllers := by
  refine ⟨abs_zero.trans_le (abs_nonneg _), fun fast => ?_, abs_zero.trans_le (abs_nonneg _)⟩
  cases fast
  · exact abs_zero.trans_le (abs_nonneg _)
  · exact abs_zero.trans_le (abs_nonneg _)

omit [IsStrictOrderedRing K] in
theorem IntegralsHeld.trans {node₁ node₂ node₃ : StationNode K} (h : IntegralsHeld node₁ node₂)
    (h' : IntegralsHeld node₂ node₃) : IntegralsHeld node₁ node₃ :=
  ⟨h'.surge.trans h.surge, fun fast => (h'.sway fast).trans (h.sway fast), h'.yaw.trans h.yaw⟩

/-- Entering a mode keeps the limit and does not raise an integral. -/
theorem enterMode_spec {node : StationNode K} (mode : ControlMode) (phase : String) (h : Inv node) :
    Inv (node.enterMode mode phase) ∧ (node.enterMode mode phase).pwmLimitUs = node.pwmLimitUs ∧
      IntegralsHeld node (node.enterMode mode phase) := by
  have hreset : ∀ changed : Bool, Inv (if changed then node.resetControllers else node) ∧
      (if changed then node.resetControllers else node).pwmLimitUs = node.pwmLimitUs ∧
      IntegralsHeld node (if changed then node.resetControllers else node) := by
    intro changed
    cases changed
    · exact ⟨h, rfl, ⟨le_rfl, fun _ => le_rfl, le_rfl⟩⟩
    · exact ⟨resetControllers_inv h, rfl, resetControllers_held node⟩
  obtain ⟨hinv, hpwm, hheld⟩ := hreset (mode.isDirectAltitude != node.altitudeHoldActive ||
    mode.isStation != node.stationHoldActive ||
    (mode == .stationHoldFast) != node.fastStationHoldActive ||
    mode.isStation && phase != node.stationTrajectoryPhase)
  exact ⟨⟨hinv.1, hinv.2, hinv.3, hinv.4⟩, hpwm, ⟨hheld.1, hheld.2, hheld.3⟩⟩

/-- What a tick publishes and what it leaves. -/
structure TickSpec (cfg : StationConfig K) (node : StationNode K) (input : StationInput K)
    (published : Option (Publication K)) (node' : StationNode K) : Prop where
  inv : Inv node'
  actions : ∀ p, published = some p → ∀ i,
    250 * |p.action.vertical i| ≤ node.pwmLimitUs ∧
      250 * |p.action.horizontal i| ≤ node.pwmLimitUs
  efforts : ∀ p, published = some p → ∀ efforts, p.efforts = some efforts →
    EffortsSpec cfg (node.enterMode input.controlMode input.trajectoryPhase) input efforts node'
  action_eq : ∀ p, published = some p → ∀ efforts, p.efforts = some efforts → ∀ i,
    p.action.vertical i = 2 * efforts.commands.vertical i ∧
      p.action.horizontal i = 2 * efforts.commands.horizontal i

/-- A tick that closes the loops of a direct hold mode. -/
def Closes (node : StationNode K) (ready : Bool) (dt : K) (input : StationInput K) : Prop :=
  node.pidSelected = true ∧ ready = true ∧ (1 / 10 ^ 4 ≤ dt ∧ dt ≤ 1 / 10) ∧
    input.controlMode.isDirectAltitude = true

/-- A tick without efforts. -/
theorem tickSpec_of_zero {cfg : StationConfig K} {node node' : StationNode K}
    {input : StationInput K} (h : Inv node) (h' : Inv node') (enable : Bool) :
    TickSpec cfg node input (some ⟨enable, ⟨fun _ => 0, fun _ => 0⟩, none⟩) node' := by
  refine ⟨h', fun p hp i => ?_, fun p hp efforts hefforts => ?_, fun p hp efforts hefforts => ?_⟩
  · obtain rfl := Option.some.inj hp
    rw [abs_zero, mul_zero]
    exact ⟨h.pwmLimitUs_nonneg, h.pwmLimitUs_nonneg⟩
  · obtain rfl := Option.some.inj hp
    cases hefforts
  · obtain rfl := Option.some.inj hp
    cases hefforts

theorem tick_ensures (math : MathModule K) (cfg : StationConfig K) {node : StationNode K}
    (ready : Bool) (dt : K) (input : StationInput K) (h : Inv node) :
    (node.tick math cfg ready dt input).Ensures fun r => TickSpec cfg node input r.2 r.1 := by
  unfold tick
  split
  · exact ensures_ok ⟨h, nofun, nofun, nofun⟩
  split
  · refine ensures_ok ?_
    exact tickSpec_of_zero h (resetControllers_inv h) false
  split
  · refine ensures_ok ?_
    exact tickSpec_of_zero h (resetControllers_inv h) false
  next hdt =>
  obtain ⟨hinv, hpwm, -⟩ := enterMode_spec input.controlMode input.trajectoryPhase h
  have hdirect : ((node.enterMode input.controlMode input.trajectoryPhase).directHold math cfg input
      dt >>= fun r => pure (r.2, some (⟨true, ⟨fun i => actionOf (r.1.commands.vertical i),
        fun i => actionOf (r.1.commands.horizontal i)⟩, some r.1⟩ : Publication K))).Ensures
      fun r => TickSpec cfg node input r.2 r.1 := by
    have hpos : 0 < dt := lt_of_lt_of_le (by positivity) (not_not.mp hdt).1
    refine (directHold_ensures math cfg input hinv hpos).bind fun r hr =>
      ensures_pure ⟨hr.inv, fun p hp i => ?_, fun p hp efforts hefforts => ?_,
        fun p hp efforts hefforts i => ?_⟩
    · obtain rfl := Option.some.inj hp
      rw [← hpwm]
      exact ⟨actionOf_le hinv (hr.mix.vertical_le i), actionOf_le hinv (hr.mix.horizontal_le i)⟩
    · obtain rfl := Option.some.inj hp
      obtain rfl := Option.some.inj hefforts
      exact hr
    · obtain rfl := Option.some.inj hp
      obtain rfl := Option.some.inj hefforts
      exact ⟨actionOf_eq hinv (hr.mix.vertical_le i), actionOf_eq hinv (hr.mix.horizontal_le i)⟩
  split
  · refine ensures_ok ?_
    exact tickSpec_of_zero h (resetControllers_inv hinv) true
  · refine ensures_ok ?_
    exact tickSpec_of_zero h hinv false
  · exact hdirect
  · exact hdirect
  · exact hdirect

/-- A tick that closes the loops publishes their efforts. -/
theorem tick_closes (math : MathModule K) (cfg : StationConfig K) {node : StationNode K}
    {ready : Bool} {dt : K} {input : StationInput K} (h : Inv node)
    (hcloses : Closes node ready dt input) : (node.tick math cfg ready dt input).Ensures
      fun r => ∃ p efforts, r.2 = some p ∧ p.efforts = some efforts := by
  obtain ⟨hselected, rfl, hdt, hmode⟩ := hcloses
  have hinv := (enterMode_spec input.controlMode input.trajectoryPhase h).1
  have hpos : 0 < dt := lt_of_lt_of_le (by positivity) hdt.1
  have hdirect := directHold_ensures math cfg input hinv hpos
  unfold tick
  rw [if_neg (by simp [hselected]), if_neg (by simp), if_neg (not_not.mpr hdt)]
  dsimp only
  split
  · rename_i hidle
    rw [hidle] at hmode
    cases hmode
  · rename_i hidle
    rw [hidle] at hmode
    cases hmode
  · exact hdirect.bind fun r _ => ensures_pure ⟨_, _, rfl, rfl⟩
  · exact hdirect.bind fun r _ => ensures_pure ⟨_, _, rfl, rfl⟩
  · exact hdirect.bind fun r _ => ensures_pure ⟨_, _, rfl, rfl⟩

/-! ### Runs -/

theorem initial_inv (cfg : StationConfig K) : Inv (initial cfg) := by
  have hmax : (0 : K) ≤ maximumPwmLimitUs := by
    rw [maximumPwmLimitUs]
    norm_num
  have hpos : 0 ≤ (initial cfg).commandLimit := by
    rw [commandLimit, pidEffortPwmSpanUs]
    exact div_nonneg (lower_le_clip hmax) (by norm_num)
  exact ⟨lower_le_clip hmax, clip_le_upper _ _ _, abs_zero.trans_le hpos, abs_zero.trans_le hpos⟩

theorem select_inv {node : StationNode K} (selected : Bool) (h : Inv node) :
    Inv (node.select selected) := by
  unfold select
  split_ifs
  · exact resetControllers_inv ⟨h.1, h.2, h.3, h.4⟩
  · exact h

theorem onAuthorityStatus_inv {node : StationNode K} (selected : Bool) (actionLimit : K)
    (h : Inv node) : Inv (node.onAuthorityStatus selected actionLimit) := by
  have hselected := select_inv selected h
  unfold onAuthorityStatus
  split
  · exact hselected
  next hvalid =>
  dsimp only
  split
  · exact hselected
  obtain ⟨hnonneg, hle⟩ := not_not.mp hvalid
  have hpos : 0 ≤ actionLimit * actionPwmSpanUs := by
    rw [actionPwmSpanUs]
    positivity
  have hmax : actionLimit * actionPwmSpanUs ≤ maximumPwmLimitUs := by
    rw [actionPwmSpanUs, maximumPwmLimitUs]
    linarith
  -- The efforts that last are dropped with the limit they were within.
  have hlimit : 0 ≤ actionLimit * actionPwmSpanUs / pidEffortPwmSpanUs := by
    rw [pidEffortPwmSpanUs]
    positivity
  exact ⟨hpos, hmax, abs_zero.trans_le hlimit, abs_zero.trans_le hlimit⟩

/-- A run of the node, up to a state that keeps its efforts within the limit. -/
theorem inv_of_run {math : MathModule K} {cfg : StationConfig K}
    {tr : History (StationNode K) (StationEvent K) (Option (Publication K))} {s : StationNode K}
    (h : (stationMachine math cfg).Run tr s) : Inv s := by
  refine h.invariant (I := fun _ s => Inv s) (initial_inv cfg) ?_
  intro tr s i s' o _ hs hstep
  cases i with
  | authorityStatus selected actionLimit =>
    obtain ⟨rfl, -⟩ := Prod.mk.inj (Option.some.inj hstep)
    exact onAuthorityStatus_inv selected actionLimit hs
  | tick ready dt input =>
    exact ((tick_ensures math cfg ready dt input hs).of_eq (toOption_eq_some_iff.mp hstep)).inv

/-- Every tick can take place after a run. -/
theorem tick_ne_none {math : MathModule K} {cfg : StationConfig K}
    {tr : History (StationNode K) (StationEvent K) (Option (Publication K))} {s : StationNode K}
    (h : (stationMachine math cfg).Run tr s) (ready : Bool) (dt : K) (input : StationInput K) :
    (stationMachine math cfg).step s (.tick ready dt input) ≠ none := by
  obtain ⟨r, hr, -⟩ := tick_ensures math cfg ready dt input (inv_of_run h)
  have hstep : (stationMachine math cfg).step s (.tick ready dt input) = some r :=
    toOption_eq_some_iff.mpr hr
  rw [hstep]
  exact Option.some_ne_none r

/-- What a tick of a run does. -/
theorem tick_of_run {math : MathModule K} {cfg : StationConfig K}
    {tr : History (StationNode K) (StationEvent K) (Option (Publication K))} {s : StationNode K}
    (h : (stationMachine math cfg).Run tr s)
    {x : Transition (StationNode K) (StationEvent K) (Option (Publication K))} (hx : x ∈ tr)
    {ready : Bool} {dt : K} {input : StationInput K} (hinput : x.input = .tick ready dt input) :
    Inv x.pre ∧ TickSpec cfg x.pre input x.output x.post ∧ (Closes x.pre ready dt input →
      ∃ p efforts, x.output = some p ∧ p.efforts = some efforts) := by
  obtain ⟨after, before, rfl⟩ := List.append_of_mem hx
  have hpre := inv_of_run h.split.tail
  have hstep := h.step_of_mem hx
  rw [hinput] at hstep
  exact ⟨hpre,
    (tick_ensures math cfg ready dt input hpre).of_eq (toOption_eq_some_iff.mp hstep),
    fun hcloses => (tick_closes math cfg hpre hcloses).of_eq (toOption_eq_some_iff.mp hstep)⟩

end StationNode

/-! ### A sample -/

def parameter (value : ℚ) : NonNeg ℚ := ⟨|value|, abs_nonneg value⟩

/-- The parameters of `real_pool_safety.yaml` with both filters off, so that no function of `math`
is asked for. -/
def poolConfig : StationConfig ℚ where
  pwmLimitUs := 250
  derivativeCutoffHz := parameter 0
  altitudePositionKp := parameter (25 / 100)
  altitudePwmKp := parameter (14 / 10)
  altitudePwmKi := parameter (45 / 100)
  altitudePwmKd := parameter (22 / 100)
  altitudePwmIntegralLimit := parameter (5 / 10)
  altitudeVelocityFilterTimeConstantS := parameter 0
  altitudePwmCommandSign := -1
  sign_unit := Or.inr rfl
  stationPositionKp := ![parameter (30 / 100), parameter (50 / 100)]
  stationSurgePwmKp := parameter (15 / 10)
  stationSurgePwmKi := parameter (25 / 100)
  stationSurgePwmKd := parameter 0
  stationSurgeIntegralLimit := parameter 1
  stationSwayPwmKp := parameter 1
  fastStationSwayPwmKp := parameter (60 / 100)
  fastStationSwayPwmFeedforwardPositiveGain := parameter (180 / 100)
  fastStationSwayPwmFeedforwardNegativeGain := parameter (190 / 100)
  fastStationSwayEffortSlewRatePerS := parameter (120 / 100)
  stationSwayPwmKi := parameter 0
  stationSwayPwmKd := parameter 0
  stationSwayIntegralLimit := parameter (5 / 10)
  stationYawPwmKp := parameter (70 / 100)
  stationYawPwmKi := parameter (12 / 100)
  stationYawIntegralLimit := parameter (8 / 10)
  stationYawHeadingKp := parameter (90 / 100)
  stationHorizontalAxisLimit := parameter (12 / 100)
  stationYawAxisLimit := parameter (20 / 100)
  stationSurgeRateLimit := parameter (40 / 100)
  fastStationSurgeRateLimit := parameter (50 / 100)
  stationSwayRateLimit := parameter (6 / 100)
  fastStationSwayRateLimit := parameter (20 / 100)
  fastStationLateralYawAxisLimit := parameter (10 / 100)
  fastStationSwayYawCompensationGain := parameter (55 / 1000)
  fastStationLateralYawEffortSlewRatePerS := parameter (30 / 100)
  stationYawRateLimit := parameter (60 / 100)
  fastStationLevelPwmLimit := parameter (10 / 100)
  fastStationLevelAngleToRateKp := ![parameter (130 / 100), parameter (80 / 100)]
  fastStationLevelRateKp := ![parameter (20 / 100), parameter (35 / 100)]
  fastStationLevelRateLimitRps := ![parameter (12 / 100), parameter (12 / 100)]
  fastStationPitchRateKi := parameter (20 / 100)
  fastStationPitchRateIntegralEffortLimit := parameter (10 / 100)
  fastStationSurgePitchDecouplingEnabled := true
  fastStationSurgePitchForwardGain := parameter (8 / 100)
  fastStationSurgePitchReverseGain := parameter (6 / 100)
  fastStationSurgePitchLimit := parameter (6 / 100)

/-- A target ahead, to the left and above. -/
def fastInput : StationInput ℚ where
  controlMode := .stationHoldFast
  trajectoryPhase := "hold"
  targetHeight := 1
  currentHeight := 0
  targetVerticalVelocity := 0
  actualVerticalVelocity := 0
  positionErrorBody := ![1, 1]
  orientationErrorBody := ![1 / 10, 1 / 10, 0]
  targetLinearBody := ![1, 1]
  targetAngularBody := ![0, 0, 0]
  actualLinearBody := ![0, 0]
  imuAngularVelocityFiltered := ![0, 0, 0]

/-- The PID is selected at half of the limit, and two ticks follow. -/
def fastEvents : List (StationEvent ℚ) :=
  [.authorityStatus true (1 / 2), .tick true (1 / 50) fastInput, .tick true (1 / 50) fastInput]

/-- The newest transition is a tick whose horizontal efforts are scaled down. -/
def scaledDown (x : Transition (StationNode ℚ) (StationEvent ℚ)
    (Option (StationNode.Publication ℚ))) : Bool :=
  match x.input, x.output with
  | .tick _ _ input, some p => input.controlMode == .stationHoldFast &&
      p.efforts.any fun efforts : StationNode.Efforts ℚ =>
        decide (efforts.horizontal.mixScale < 1 - tolerance)
  | _, _ => false

end RobotCore.Exact
