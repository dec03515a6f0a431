import RobotCore.Station.ConditionalPid

/-!
# Correctness of the conditional integration

The integral and the output of a controller stay within their limits, and no step winds the
integral up behind a stop of the output (`antiwindup_of_run`).  At a constant limit other than zero
the controller therefore leaves a stop in the first step whose error pulls it back: after any
history the integral alone reaches past the stop by no more than the tolerance
(`abs_ki_integral_le`).  The output that is limited to zero is at its stops whatever the error
(`not_insideStop_atZero`).
-/

namespace RobotCore.Exact

open Clip Machine

variable {K : Type*} [Field K]

namespace ConditionalPid

@[simp]
theorem new_gains (gains : PidGains K) : (new gains).gains = gains := rfl

@[simp]
theorem reset_gains (pid : ConditionalPid K) : pid.reset.gains = pid.gains := rfl

variable [LinearOrder K]

@[simp]
theorem differentiate_gains (math : MathModule K) (pid : ConditionalPid K) (call : StepCall K) :
    (pid.differentiate math call).gains = pid.gains := rfl

@[simp]
theorem differentiate_integral (math : MathModule K) (pid : ConditionalPid K) (call : StepCall K) :
    (pid.differentiate math call).integral = pid.integral := rfl

@[simp]
theorem proposedIntegral_differentiate (math : MathModule K) (pid : ConditionalPid K)
    (call : StepCall K) :
    (pid.differentiate math call).proposedIntegral call = pid.proposedIntegral call := rfl

@[simp]
theorem integrate_gains (pid : ConditionalPid K) (call : StepCall K) :
    (pid.integrate call).gains = pid.gains := by
  unfold integrate
  split_ifs <;> rfl

@[simp]
theorem unsaturated_integrate (pid : ConditionalPid K) (call : StepCall K) (integral : K) :
    (pid.integrate call).unsaturated call integral = pid.unsaturated call integral := by
  unfold integrate
  split_ifs <;> rfl

/-- The integral follows the error, or is left where it is, or is dropped. -/
theorem integrate_cases (pid : ConditionalPid K) (call : StepCall K) :
    (pid.integrate call).integral = 0 ∨ (pid.integrate call).integral = pid.integral ∨
      pid.CanIntegrate call ∧ (pid.integrate call).integral = pid.proposedIntegral call := by
  unfold integrate
  split_ifs with _ hcan
  · exact Or.inr (Or.inr ⟨hcan, rfl⟩)
  · exact Or.inr (Or.inl rfl)
  · exact Or.inl rfl

/-- What a step does when its `dt` is positive. -/
theorem step_eq_ok (math : MathModule K) (pid : ConditionalPid K) {call : StepCall K}
    (hdt : 0 < call.dt) :
    ∃ output pid', pid.step math call = .ok (output, pid') ∧ pid'.gains = pid.gains ∧
      pid'.integral = ((pid.differentiate math call).integrate call).integral ∧
      (∀ integral, pid'.unsaturated call integral =
        (pid.differentiate math call).unsaturated call integral) ∧
      output = clip (pid'.unsaturated call pid'.integral) (-pid.gains.limit call)
        (pid.gains.limit call) := by
  have hstep : pid.step math call = .ok _ := if_neg hdt.not_ge
  have hgains : ((pid.differentiate math call).integrate call).gains = pid.gains :=
    (integrate_gains _ _).trans (differentiate_gains _ _ _)
  refine ⟨_, _, hstep, hgains, rfl, fun integral => unsaturated_integrate _ _ _, ?_⟩
  rw [← hgains]
  rfl

theorem step_eq_error {math : MathModule K} {pid : ConditionalPid K} {call : StepCall K}
    (hdt : call.dt ≤ 0) : pid.step math call = .error ⟨"PID dt must be positive"⟩ :=
  if_pos hdt

variable [IsStrictOrderedRing K]

theorem tolerance_pos : (0 : K) < tolerance := by
  unfold tolerance
  positivity

theorem limit_nonneg (gains : PidGains K) (call : StepCall K) : 0 ≤ gains.limit call :=
  abs_nonneg _

/-! ### The integral -/

theorem abs_proposedIntegral_le (pid : ConditionalPid K) (call : StepCall K) :
    |pid.proposedIntegral call| ≤ |pid.gains.integralLimit| := abs_clip_le (abs_nonneg _)

theorem abs_integrate_le (pid : ConditionalPid K) (call : StepCall K)
    (h : |pid.integral| ≤ |pid.gains.integralLimit|) :
    |(pid.integrate call).integral| ≤ |pid.gains.integralLimit| := by
  unfold integrate
  split_ifs
  · exact abs_proposedIntegral_le pid call
  · exact h
  · rw [abs_zero]
    exact abs_nonneg _

/-- The proposed integral is on the side of the error. -/
theorem le_proposedIntegral {pid : ConditionalPid K} {call : StepCall K}
    (h : |pid.integral| ≤ |pid.gains.integralLimit|) (hdt : 0 < call.dt) (herror : 0 ≤ call.error) :
    pid.integral ≤ pid.proposedIntegral call :=
  le_clip (le_add_of_nonneg_right (mul_nonneg herror hdt.le)) (le_of_abs_le h)

theorem proposedIntegral_le {pid : ConditionalPid K} {call : StepCall K}
    (h : |pid.integral| ≤ |pid.gains.integralLimit|) (hdt : 0 < call.dt) (herror : call.error ≤ 0) :
    pid.proposedIntegral call ≤ pid.integral :=
  clip_le (add_le_of_nonpos_right (mul_nonpos_of_nonpos_of_nonneg herror hdt.le))
    (neg_le_of_abs_le h)

/-- An integral that was raised is the proposed one, and it was raised by a positive error. -/
theorem integrate_of_lt (pid : ConditionalPid K) {call : StepCall K}
    (h : |pid.integral| ≤ |pid.gains.integralLimit|) (hdt : 0 < call.dt)
    (henabled : call.integralEnabled = true)
    (hlt : pid.integral < (pid.integrate call).integral) :
    0 ≤ call.error ∧ pid.CanIntegrate call ∧
      (pid.integrate call).integral = pid.proposedIntegral call := by
  unfold integrate at hlt ⊢
  rw [if_pos henabled] at hlt ⊢
  by_cases hcan : pid.CanIntegrate call
  · rw [if_pos hcan] at hlt ⊢
    refine ⟨?_, hcan, rfl⟩
    by_contra hneg
    exact (proposedIntegral_le h hdt (not_le.mp hneg).le).not_gt hlt
  · rw [if_neg hcan] at hlt
    exact absurd hlt (lt_irrefl _)

theorem integrate_of_gt (pid : ConditionalPid K) {call : StepCall K}
    (h : |pid.integral| ≤ |pid.gains.integralLimit|) (hdt : 0 < call.dt)
    (henabled : call.integralEnabled = true)
    (hlt : (pid.integrate call).integral < pid.integral) :
    call.error ≤ 0 ∧ pid.CanIntegrate call ∧
      (pid.integrate call).integral = pid.proposedIntegral call := by
  unfold integrate at hlt ⊢
  rw [if_pos henabled] at hlt ⊢
  by_cases hcan : pid.CanIntegrate call
  · rw [if_pos hcan] at hlt ⊢
    refine ⟨?_, hcan, rfl⟩
    by_contra hpos
    exact (le_proposedIntegral h hdt (not_le.mp hpos).le).not_gt hlt
  · rw [if_neg hcan] at hlt
    exact absurd hlt (lt_irrefl _)

/-! ### One step -/

/-- What a step of a controller keeps, and how it integrates. -/
structure AntiWindup (pid : ConditionalPid K) (call : StepCall K) (output : K)
    (pid' : ConditionalPid K) : Prop where
  integral_bounded : |pid'.integral| ≤ |pid.gains.integralLimit|
  output_bounded : |output| ≤ pid.gains.limit call
  clips : output =
    clip (pid'.unsaturated call pid'.integral) (-pid.gains.limit call) (pid.gains.limit call)
  raises : call.integralEnabled = true → pid.integral < pid'.integral →
    pid'.unsaturated call pid'.integral ≤ pid.gains.limit call + tolerance
  lowers : call.integralEnabled = true → pid'.integral < pid.integral →
    -pid.gains.limit call - tolerance ≤ pid'.unsaturated call pid'.integral
  advances : call.integralEnabled = true →
    (|pid'.unsaturated call (pid.proposedIntegral call)| ≤ pid.gains.limit call ∨
      pid.gains.limit call < pid'.unsaturated call (pid.proposedIntegral call) ∧ call.error < 0 ∨
      pid'.unsaturated call (pid.proposedIntegral call) < -pid.gains.limit call ∧ 0 < call.error) →
    pid'.integral = pid.proposedIntegral call

/-- A step with a positive `dt`. -/
theorem antiwindup_step (math : MathModule K) {pid : ConditionalPid K} {call : StepCall K}
    (h : |pid.integral| ≤ |pid.gains.integralLimit|) (hdt : 0 < call.dt) :
    ∃ output pid', pid.step math call = .ok (output, pid') ∧ pid'.gains = pid.gains ∧
      AntiWindup pid call output pid' := by
  obtain ⟨output, pid', hstep, hgains, hintegral, hunsaturated, houtput⟩ :=
    step_eq_ok math pid hdt
  refine ⟨output, pid', hstep, hgains, ?_, ?_, houtput, fun henabled hlt => ?_,
    fun henabled hlt => ?_, fun henabled hadmits => ?_⟩
  · rw [hintegral]
    exact abs_integrate_le (pid.differentiate math call) call h
  · rw [houtput]
    exact abs_clip_le (limit_nonneg _ _)
  · rw [hintegral] at hlt ⊢
    obtain ⟨herror, hcan, heq⟩ :=
      integrate_of_lt (pid.differentiate math call) h hdt henabled hlt
    rw [heq, hunsaturated]
    exact hcan.le (limit_nonneg _ _) tolerance_pos.le herror
  · rw [hintegral] at hlt ⊢
    obtain ⟨herror, hcan, heq⟩ :=
      integrate_of_gt (pid.differentiate math call) h hdt henabled hlt
    rw [heq, hunsaturated]
    exact hcan.ge (limit_nonneg _ _) tolerance_pos.le herror
  · have hcan : (pid.differentiate math call).CanIntegrate call := by
      rw [hunsaturated] at hadmits
      exact hadmits.elim (admits_of_abs_le tolerance_pos.le) Or.inr
    rw [hintegral, integrate, if_pos henabled, if_pos hcan, proposedIntegral_differentiate]

/-! ### A constant limit -/

/-- A step with a given limit and without feedforward. -/
def HeldAt (gains : PidGains K) (limit : K) (call : StepCall K) : Prop :=
  gains.limit call = |limit| ∧ call.feedforward = 0

/-- Proportional and integral action. -/
structure IsPi (gains : PidGains K) : Prop where
  kp_pos : 0 < gains.kp
  ki_nonneg : 0 ≤ gains.ki
  kd_eq_zero : gains.kd = 0

/-- The output is inside the stop that the error pulls it away from. -/
def InsideStop (limit error output : K) : Prop :=
  (error < 0 → output < |limit|) ∧ (0 < error → -|limit| < output)

omit [IsStrictOrderedRing K] in
theorem unsaturated_of_isPi {pid : ConditionalPid K} {call : StepCall K} (limit : K)
    (hpi : IsPi pid.gains) (hheld : HeldAt pid.gains limit call) (integral : K) :
    pid.unsaturated call integral = pid.gains.kp * call.error + pid.gains.ki * integral := by
  rw [unsaturated, hheld.2, hpi.kd_eq_zero, zero_add, zero_mul, add_zero]

/-- The integral alone reaches past the stops by no more than the tolerance. -/
theorem abs_ki_integrate_le (pid : ConditionalPid K) {call : StepCall K} {limit : K}
    (hpi : IsPi pid.gains) (hheld : HeldAt pid.gains limit call)
    (h : |pid.integral| ≤ |pid.gains.integralLimit|) (hdt : 0 < call.dt)
    (hki : |pid.gains.ki * pid.integral| ≤ |limit| + tolerance) :
    |pid.gains.ki * (pid.integrate call).integral| ≤ |limit| + tolerance := by
  rcases integrate_cases pid call with heq | heq | ⟨hcan, heq⟩
  · rw [heq, mul_zero, abs_zero]
    exact add_nonneg (abs_nonneg _) tolerance_pos.le
  · rw [heq]
    exact hki
  obtain ⟨hlower, hupper⟩ := abs_le.mp hki
  rw [heq, abs_le]
  rcases le_total 0 call.error with herror | herror
  · have hraw := hcan.le (limit_nonneg _ _) tolerance_pos.le herror
    rw [unsaturated_of_isPi limit hpi hheld, hheld.1] at hraw
    exact ⟨hlower.trans (mul_le_mul_of_nonneg_left (le_proposedIntegral h hdt herror)
        hpi.ki_nonneg),
      (le_add_of_nonneg_left (mul_nonneg hpi.kp_pos.le herror)).trans hraw⟩
  · have hraw := hcan.ge (limit_nonneg _ _) tolerance_pos.le herror
    rw [unsaturated_of_isPi limit hpi hheld, hheld.1, ← neg_add'] at hraw
    exact ⟨hraw.trans (add_le_of_nonpos_left (mul_nonpos_of_nonneg_of_nonpos hpi.kp_pos.le herror)),
      (mul_le_mul_of_nonneg_left (proposedIntegral_le h hdt herror) hpi.ki_nonneg).trans hupper⟩

/-- A step whose error pulls away from a stop. -/
theorem insideStop_step {math : MathModule K} {pid : ConditionalPid K} {call : StepCall K}
    {limit : K} (hpi : IsPi pid.gains) (hlimit : limit ≠ 0) (hheld : HeldAt pid.gains limit call)
    (h : |pid.integral| ≤ |pid.gains.integralLimit|) (hdt : 0 < call.dt)
    (hki : |pid.gains.ki * pid.integral| ≤ |limit| + tolerance)
    (hreversed : tolerance < pid.gains.kp * |call.error|) :
    ∃ output pid', pid.step math call = .ok (output, pid') ∧
      InsideStop limit call.error output := by
  obtain ⟨output, pid', hstep, hgains, hintegral, -, houtput⟩ :=
    step_eq_ok math pid hdt
  have hki' := abs_ki_integrate_le (pid.differentiate math call) hpi hheld h hdt hki
  obtain ⟨hlower, hupper⟩ := abs_le.mp hki'
  rw [differentiate_gains, ← hintegral] at hlower hupper
  rw [hheld.1, unsaturated_of_isPi limit (hgains ▸ hpi) (hgains ▸ hheld), hgains]
    at houtput
  have hpos : 0 < |limit| := abs_pos.mpr hlimit
  refine ⟨output, pid', hstep, fun herror => ?_, fun herror => ?_⟩
  · rw [abs_of_neg herror] at hreversed
    rw [houtput]
    exact clip_lt (by linarith) (by linarith)
  · rw [abs_of_pos herror] at hreversed
    rw [houtput]
    exact lt_clip (by linarith) (by linarith)

end ConditionalPid

/-! ### Runs -/

variable [LinearOrder K]

/-- What an input can do to a controller. -/
theorem conditionalPid_step_cases {math : MathModule K} {gains : PidGains K}
    {pid pid' : ConditionalPid K} {i : PidInput K} {o : Option (Except ValueError K)}
    (h : (conditionalPid math gains).step pid i = some (pid', o)) :
    (i = .reset ∧ pid' = pid.reset ∧ o = none) ∨
      (∃ call, i = .step call ∧ call.dt ≤ 0 ∧ pid' = pid) ∨
      ∃ call output, i = .step call ∧ 0 < call.dt ∧ pid.step math call = .ok (output, pid') ∧
        o = some (.ok output) := by
  cases i with
  | reset =>
    obtain ⟨rfl, rfl⟩ := Prod.mk.inj (Option.some.inj h)
    exact Or.inl ⟨rfl, rfl, rfl⟩
  | step call =>
    refine Or.inr ?_
    rcases le_or_gt call.dt 0 with hdt | hdt
    · simp only [conditionalPid, ConditionalPid.step_eq_error hdt] at h
      exact Or.inl ⟨call, rfl, hdt, (Prod.mk.inj (Option.some.inj h)).1.symm⟩
    · obtain ⟨output, pid'', hstep, -⟩ :=
        ConditionalPid.step_eq_ok math pid hdt
      simp only [conditionalPid, hstep] at h
      obtain ⟨rfl, rfl⟩ := Prod.mk.inj (Option.some.inj h)
      exact Or.inr ⟨call, output, rfl, hdt, hstep, rfl⟩

/-- The controller keeps its gains and the limit of its integral. -/
def Sound (gains : PidGains K) (pid : ConditionalPid K) : Prop :=
  pid.gains = gains ∧ |pid.integral| ≤ |gains.integralLimit|

variable [IsStrictOrderedRing K]

theorem sound_new (gains : PidGains K) : Sound gains (.new gains) :=
  ⟨rfl, abs_zero.trans_le (abs_nonneg _)⟩

theorem Sound.step {math : MathModule K} {gains : PidGains K} {pid pid' : ConditionalPid K}
    {i : PidInput K} {o : Option (Except ValueError K)} (hpid : Sound gains pid)
    (h : (conditionalPid math gains).step pid i = some (pid', o)) : Sound gains pid' := by
  obtain ⟨rfl, hle⟩ := hpid
  rcases conditionalPid_step_cases h with ⟨-, rfl, -⟩ | ⟨call, -, -, rfl⟩ |
    ⟨call, output, -, hdt, hstep, -⟩
  · exact sound_new _
  · exact ⟨rfl, hle⟩
  · obtain ⟨output', pid'', hstep', hgains, hkeeps⟩ :=
      ConditionalPid.antiwindup_step math hle hdt
    obtain ⟨rfl, rfl⟩ := Prod.mk.inj (Except.ok.inj (hstep.symm.trans hstep'))
    exact ⟨hgains, hkeeps.integral_bounded⟩

theorem sound_of_run {math : MathModule K} {gains : PidGains K}
    {tr : History (ConditionalPid K) (PidInput K) (Option (Except ValueError K))}
    {s : ConditionalPid K} (h : (conditionalPid math gains).Run tr s) : Sound gains s :=
  h.invariant (I := fun _ s => Sound gains s) (sound_new gains)
    fun _ _ _ _ _ _ hpid hstep => hpid.step hstep

/-- A transition that is no step, or one with a given limit and without feedforward. -/
def StepHeldAt (gains : PidGains K) (limit : K)
    (x : Transition (ConditionalPid K) (PidInput K) (Option (Except ValueError K))) : Prop :=
  ∀ call, x.input = .step call → 0 < call.dt → ConditionalPid.HeldAt gains limit call

/-- Every step of a run so far has the same limit and no feedforward. -/
def AllHeldAt (gains : PidGains K) (limit : K)
    (tr : History (ConditionalPid K) (PidInput K) (Option (Except ValueError K))) : Prop :=
  ∀ x ∈ tr, StepHeldAt gains limit x

/-- What the integral of a controller with a constant limit can do alone. -/
theorem abs_ki_integral_le {math : MathModule K} {gains : PidGains K} {limit : K}
    {tr : History (ConditionalPid K) (PidInput K) (Option (Except ValueError K))}
    {s : ConditionalPid K} (hpi : ConditionalPid.IsPi gains)
    (h : (conditionalPid math gains).Run tr s) (hheld : AllHeldAt gains limit tr) :
    |gains.ki * s.integral| ≤ |limit| + tolerance := by
  refine h.invariant_of (C := StepHeldAt gains limit)
    (I := fun _ s => |gains.ki * s.integral| ≤ |limit| + tolerance) ?_ ?_ hheld
  · change |gains.ki * 0| ≤ _
    rw [mul_zero, abs_zero]
    exact add_nonneg (abs_nonneg _) ConditionalPid.tolerance_pos.le
  intro tr s i s' o hrun hki hstep hheld
  obtain ⟨rfl, hle⟩ := sound_of_run hrun
  rcases conditionalPid_step_cases hstep with ⟨-, rfl, -⟩ | ⟨call, -, -, rfl⟩ |
    ⟨call, output, rfl, hdt, hcall, -⟩
  · change |s.gains.ki * 0| ≤ _
    rw [mul_zero, abs_zero]
    exact add_nonneg (abs_nonneg _) ConditionalPid.tolerance_pos.le
  · exact hki
  · obtain ⟨output', pid'', hcall', -, hintegral, -⟩ :=
      ConditionalPid.step_eq_ok math s hdt
    obtain ⟨rfl, rfl⟩ := Prod.mk.inj (Except.ok.inj (hcall.symm.trans hcall'))
    rw [hintegral]
    exact ConditionalPid.abs_ki_integrate_le (s.differentiate math call) hpi
      (hheld call rfl hdt) hle hdt hki

/-- After any history of steps at a constant limit, a step whose error is reversed leaves the
stop. -/
def LeavesStops (math : MathModule K) (gains : PidGains K) (limit : K) : Prop :=
  ∀ tr s, (conditionalPid math gains).Run tr s → AllHeldAt gains limit tr →
    ∀ call : StepCall K, 0 < call.dt → ConditionalPid.HeldAt gains limit call →
      tolerance < gains.kp * |call.error| →
      ∃ output pid', s.step math call = .ok (output, pid') ∧
        ConditionalPid.InsideStop limit call.error output

/-- **No wind-up.**  In every run of a controller with any gains, every step with a positive `dt`
keeps the integral and the output within their limits, does not wind the integral up past a stop
and integrates whenever that winds nothing up; and at a constant limit other than zero a controller
with proportional and integral action leaves its stop as soon as the error is reversed. -/
theorem antiwindup_of_run (math : MathModule K) (gains : PidGains K) :
    (∀ tr s, (conditionalPid math gains).Run tr s →
      |s.integral| ≤ |gains.integralLimit| ∧
      ∀ x ∈ tr, ∀ call, x.input = .step call → 0 < call.dt →
        x.pre.gains = gains ∧ ∃ output, x.output = some (.ok output) ∧
          ConditionalPid.AntiWindup x.pre call output x.post) ∧
    ∀ limit, limit ≠ 0 → ConditionalPid.IsPi gains → LeavesStops math gains limit := by
  refine ⟨fun tr s hrun => ⟨(sound_of_run hrun).2, fun x hx call hinput hdt => ?_⟩,
    fun limit hlimit hpi tr s hrun hheld call hdt hcall hreversed => ?_⟩
  · obtain ⟨after, before, rfl⟩ := List.append_of_mem hx
    obtain ⟨hgains, hle⟩ := sound_of_run hrun.split.tail
    refine ⟨hgains, ?_⟩
    rw [← hgains] at hle
    obtain ⟨output, pid', hstep, -, hkeeps⟩ :=
      ConditionalPid.antiwindup_step math hle hdt
    have hx' := hrun.step_of_mem hx
    simp only [hinput, conditionalPid, hstep] at hx'
    obtain ⟨hpost, houtput⟩ := Prod.mk.inj (Option.some.inj hx')
    exact ⟨output, houtput.symm, hpost ▸ hkeeps⟩
  · have hki := abs_ki_integral_le hpi hrun hheld
    obtain ⟨rfl, hle⟩ := sound_of_run hrun
    exact ConditionalPid.insideStop_step hpi hlimit hcall hle hdt hki hreversed

/-! ### A limit of zero -/

/-- The tangents at zero, which is all that a controller without a derivative filter asks for. -/
def tangentMath : MathModule ℚ where
  pi := 355 / 113
  pi_pos := by decide +kernel
  exp x := 1 + x
  expm1 x := x

def sampleGains : PidGains ℚ where
  kp := 1
  ki := 1
  kd := 0
  integralLimit := 1
  outputLimit := 1
  derivativeCutoffHz := 0

/-- A step of a tenth of a second. -/
def sampleCall (error limit : ℚ) : StepCall ℚ where
  setpoint := error
  measurement := 0
  dt := 1 / 10
  feedforward := 0
  outputLimit := some limit

/-- The controller after a step at the limit zero. -/
def stoppedAtZero : ConditionalPid ℚ where
  gains := sampleGains
  integral := 0
  previousMeasurement := some 0
  filteredDerivative := 0
  saturated := true

/-- An output that is limited to zero stays at its stop when the error is reversed. -/
theorem not_leavesStops_atZero : ¬ LeavesStops tangentMath sampleGains 0 := by
  intro h
  have hrun : (conditionalPid tangentMath sampleGains).Run
      [⟨.new sampleGains, .step (sampleCall 1 0), some (.ok 0), stoppedAtZero⟩] stoppedAtZero :=
    .step .start (by decide +kernel)
  have hheld : AllHeldAt sampleGains 0
      [⟨.new sampleGains, .step (sampleCall 1 0), some (.ok 0), stoppedAtZero⟩] := by
    intro x hx call hcall _
    rw [List.mem_singleton.mp hx] at hcall
    obtain rfl := PidInput.step.inj hcall
    exact ⟨by decide +kernel, rfl⟩
  obtain ⟨output, pid', hstep, hinside, -⟩ := h _ _ hrun hheld (sampleCall (-1) 0)
    (by decide +kernel) ⟨by decide +kernel, rfl⟩ (by decide +kernel)
  have houtput : stoppedAtZero.step tangentMath (sampleCall (-1) 0) = .ok (0, stoppedAtZero) := by
    decide +kernel
  obtain ⟨rfl, -⟩ := Prod.mk.inj (Except.ok.inj (houtput.symm.trans hstep))
  exact absurd (hinside (by decide +kernel)) (by decide +kernel)

/-- A step at the limit one that is saturated leaves the controller in the same state; reversed, it
leaves the stop. -/
theorem antiwindup_of_run_saturated :
    |stoppedAtZero.integral| ≤ |sampleGains.integralLimit| ∧ ∃ output pid',
      (conditionalPid tangentMath sampleGains).Run
        [⟨.new sampleGains, .step (sampleCall 2 1), some (.ok 1), stoppedAtZero⟩] stoppedAtZero ∧
      stoppedAtZero.step tangentMath (sampleCall (-1) 1) = .ok (output, pid') ∧ output < 1 := by
  have hrun : (conditionalPid tangentMath sampleGains).Run
      [⟨.new sampleGains, .step (sampleCall 2 1), some (.ok 1), stoppedAtZero⟩] stoppedAtZero :=
    .step .start (by decide +kernel)
  have hheld : AllHeldAt sampleGains 1
      [⟨.new sampleGains, .step (sampleCall 2 1), some (.ok 1), stoppedAtZero⟩] := by
    intro x hx call hcall _
    rw [List.mem_singleton.mp hx] at hcall
    obtain rfl := PidInput.step.inj hcall
    exact ⟨by decide +kernel, rfl⟩
  have hleaves := (antiwindup_of_run tangentMath sampleGains).2 1 one_ne_zero
    ⟨by decide +kernel, by decide +kernel, rfl⟩
  obtain ⟨output, pid', hstep, hinside, -⟩ := hleaves _ _ hrun hheld (sampleCall (-1) 1)
    (by decide +kernel) ⟨by decide +kernel, rfl⟩ (by decide +kernel)
  refine ⟨((antiwindup_of_run tangentMath sampleGains).1 _ _ hrun).1, output, pid', hrun, hstep, ?_⟩
  have hlt := hinside (by decide +kernel)
  rwa [abs_one] at hlt

end RobotCore.Exact
