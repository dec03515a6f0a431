import RobotCore.Authority.Equiv.Latch
import RobotCore.Authority.Equiv.Output

/-!
# Safety of the command authority

`authority_safe`: whatever the callbacks and timers of a run, a latched fault means disarmed, an
abort silences the output until the node is armed again, the generation counts the arms, the
source stays while armed, a disabled output is zero, no lookup fails, and every published action
is between -1 and 1, as long as no altitude hold drives beyond the bound.  The published values of
a single altitude hold are treated exactly in `altitudeDrive_le_iff`.
-/

namespace RobotCore

open Ieee Machine

variable {cfg : AuthorityConfig} {s s' : Authority} {input : AuthorityInput}
  {output : AuthorityOutput} {tr : AuthorityHistory} {x : AuthorityTransition}

/-! ### The output -/

/-- The output is enabled only while armed, and zero while it is not enabled. -/
structure OutputGated (s : Authority) : Prop where
  armed : s.outputEnabled = true → s.armed = true
  neutral : s.outputEnabled = false → s.output = zeroOutput

/-- The output is published as values between -1 and 1. -/
structure OutputBounded (s : Authority) : Prop where
  published : ∀ i : Fin 8, Number.AbsLe (getElem s.output i i.2).narrow 1
  limit : LimitOk s.actionLimit

theorem absLe_zeroOutput (i : Fin 8) : Number.AbsLe (getElem zeroOutput i i.2).narrow 1 := by
  have hzero : zeroOutput[i] = 0 := by simp [zeroOutput]
  rw [hzero]
  exact (Number.AbsLe.zero zero_le_one).narrow (representable_one _ (by decide))
    (lt_maxExponent (by norm_num) (by decide))

theorem gated_of_zero (h : s.outputEnabled = false) (hzero : s.output = zeroOutput) :
    OutputGated s :=
  ⟨fun henabled => by simp [h] at henabled, fun _ => hzero⟩

theorem outputGated_step (h : AuthorityChange cfg s input s' output) (hs : OutputGated s) :
    OutputGated s' := by
  cases h with
  | quiet h _ =>
    refine ⟨fun henabled => ?_, fun hdisabled => ?_⟩
    · rw [h.armed]
      exact hs.armed (h.outputEnabled ▸ henabled)
    · rw [h.output]
      exact hs.neutral (h.outputEnabled ▸ hdisabled)
  | limit limitUs message _ _ => exact ⟨hs.armed, hs.neutral⟩
  | evaluated _ _ h _ =>
    cases h with
    | neutral activeSource message => exact gated_of_zero rfl rfl
    | tripped _ activeSource reason => exact gated_of_zero rfl rfl
    | driven harmed activeSource message _ => exact ⟨fun _ => harmed, fun h => by cases h⟩
  | aborted _ h code message _ => exact gated_of_zero rfl rfl
  | disarmed h _ => exact gated_of_zero rfl rfl
  | armed h hdisarmed _ message _ _ =>
    refine ⟨fun _ => rfl, fun hdisabled => ?_⟩
    exact h.output.trans (hs.neutral (h.outputEnabled.symm.trans hdisabled))

/-- The callback holds the altitude beyond the bound. -/
def overdrivenStep (cfg : AuthorityConfig) (s : Authority) (input : AuthorityInput) : Bool :=
  match evaluatedState s input with
  | some (s₀, nowNs) => overdrives cfg s₀ nowNs
  | none => false

theorem outputBounded_step (h : AuthorityChange cfg s input s' output) (hs : OutputBounded s)
    (hdrive : overdrivenStep cfg s input = false) : OutputBounded s' := by
  cases h with
  | quiet h _ => exact ⟨fun i => by rw [h.output]; exact hs.published i, h.actionLimit ▸ hs.limit⟩
  | limit limitUs message h _ => exact ⟨hs.published, limitOk_divConst h⟩
  | evaluated hstate hsame h _ =>
    have hlimit := hsame.actionLimit ▸ hs.limit
    cases h with
    | neutral activeSource message => exact ⟨absLe_zeroOutput, hlimit⟩
    | tripped _ activeSource reason => exact ⟨absLe_zeroOutput, hlimit⟩
    | driven _ activeSource message h =>
      rw [overdrivenStep, hstate] at hdrive
      exact ⟨fun i => absLe_of_drives (h i) hlimit hdrive, hlimit⟩
  | aborted _ h code message _ => exact ⟨absLe_zeroOutput, h.actionLimit ▸ hs.limit⟩
  | disarmed h _ => exact ⟨absLe_zeroOutput, h.actionLimit ▸ hs.limit⟩
  | armed h _ _ message _ _ =>
    exact ⟨fun i => by rw [h.output]; exact hs.published i, h.actionLimit ▸ hs.limit⟩

theorem outputGated_of_run (h : (authorityMachine cfg).Run tr s) : OutputGated s := by
  refine h.invariant (I := fun _ s => OutputGated s) (gated_of_zero rfl rfl) ?_
  intro tr s i s' o _ hs hstep
  obtain ⟨output, -, hchange⟩ := change_of_step (x := ⟨s, i, o, s'⟩) hstep
  exact outputGated_step hchange hs

theorem outputBounded_of_run (h : (authorityMachine cfg).Run tr s)
    (hlimit : cfg.pwmLimitUs.value ≠ .nan)
    (hdrive : ∀ x ∈ tr, overdrivenStep cfg x.pre x.input = false) : OutputBounded s := by
  refine h.invariant_of (C := fun x => overdrivenStep cfg x.pre x.input = false)
    (I := fun _ s => OutputBounded s) ⟨absLe_zeroOutput, limitOk_initial hlimit⟩ ?_ hdrive
  intro tr s i s' o _ hs hstep hdrive
  obtain ⟨output, -, hchange⟩ := change_of_step (x := ⟨s, i, o, s'⟩) hstep
  exact outputBounded_step hchange hs hdrive

/-! ### Published commands -/

/-- A published command is the state it is published in. -/
theorem command_of_change (h : AuthorityChange cfg s input s' output) {command : ThrusterCommand}
    (hcommand : output.command = some command) :
    command = makeCommand s' command.enable ∧
      (command.enable = true → s'.outputEnabled = true) := by
  have hstate : PublishesState s' output →
      command = makeCommand s' command.enable ∧
        (command.enable = true → s'.outputEnabled = true) := by
    rintro (hnone | hsome)
    · rw [hcommand] at hnone
      cases hnone
    · obtain rfl := Option.some.inj (hcommand.symm.trans hsome)
      exact ⟨rfl, id⟩
  cases h with
  | quiet _ h => exact hstate h
  | evaluated _ _ _ h => exact hstate h
  | limit _ _ _ h => simp [hcommand] at h
  | armed _ _ _ _ h _ => simp [hcommand] at h
  | aborted _ _ _ _ h =>
    obtain rfl := Option.some.inj (hcommand.symm.trans h)
    exact ⟨rfl, fun h => by cases h⟩
  | disarmed _ h =>
    obtain rfl := Option.some.inj (hcommand.symm.trans h)
    exact ⟨rfl, fun h => by cases h⟩

/-- A command published in a run carries the arming of the state after the step; an enabled one is
armed. -/
theorem publishedCommand_spec (h : (authorityMachine cfg).Run tr s) (hx : x ∈ tr)
    {command : ThrusterCommand} (hcommand : publishedCommand? x = some command) :
    command = makeCommand x.post command.enable ∧
      (command.enable = true → x.post.armed = true) := by
  obtain ⟨after, before, rfl⟩ := List.append_of_mem hx
  have hrun := h.split
  obtain ⟨output, hok, hchange⟩ := change_of_step hrun.head_step
  unfold publishedCommand? at hcommand
  rw [hok] at hcommand
  change output.command = some command at hcommand
  obtain ⟨heq, henabled⟩ := command_of_change hchange hcommand
  exact ⟨heq, fun henable => (outputGated_of_run hrun).armed (henabled henable)⟩

/-! ### Safety -/

/-- An abort event that finds the node armed. -/
def abortsArmed (x : AuthorityTransition) : Bool :=
  match x.input with
  | .safetyEvent event _ => event.abortActive && x.pre.armed
  | _ => false

/-- An accepted arm request. -/
def armAccepted (x : AuthorityTransition) : Bool :=
  match x.output with
  | .ok output => acceptsArm x.input output
  | .error _ => false

/-- What is expected of a run of the authority, but for the size of its actions. -/
structure AuthorityOrdered (tr : AuthorityHistory) (s : Authority) : Prop where
  fault : s.faultLatched = true → s.armed = false
  abort : ∀ after x before, tr = after ++ x :: before → abortsArmed x = true →
    (∀ y ∈ after, armAccepted y = false) →
    ∀ y ∈ after ++ [x], ∀ command, publishedCommand? y = some command → command.enable = false
  generation : tr.countP arms < 2 ^ 64 → s.armGeneration.toNat = tr.countP arms
  enabled : ∀ x ∈ tr, ∀ command, publishedCommand? x = some command → command.enable = true →
    command.armed = true ∧ command.armGeneration = x.post.armGeneration
  source : ∀ x ∈ tr, x.pre.armed = true → x.post.selectedSource = x.pre.selectedSource
  neutral : s.outputEnabled = false → s.output = zeroOutput
  lookups : ∀ x ∈ tr, ∃ output, x.output = .ok output

/-- What is expected of a run of the authority. -/
structure AuthoritySafe (tr : AuthorityHistory) (s : Authority) : Prop
    extends AuthorityOrdered tr s where
  bounded : ∀ x ∈ tr, ∀ command, publishedCommand? x = some command →
    ∀ i : Fin 8, Number.AbsLe (getElem command.action i i.2) 1

/-- The abort event itself disarms. -/
theorem disarmed_of_abort (h : authorityStep cfg x.pre x.input = some (x.post, x.output))
    (habort : abortsArmed x = true) : x.post.armed = false := by
  unfold abortsArmed at habort
  split at habort
  · rename_i event stampNs hinput
    rw [Bool.and_eq_true] at habort
    rw [hinput] at h
    simp only [authorityStep, authorityCallback, onSafety, habort.1, habort.2, Bool.and_self,
      if_true] at h
    obtain ⟨hpost, -⟩ := Prod.mk.inj (Option.some.inj h)
    rw [← hpost]
    rfl
  · cases habort

/-! ### Stops -/

/-- An abort event. -/
def aborts (x : AuthorityTransition) : Bool :=
  match x.input with
  | .safetyEvent event _ => event.abortActive
  | _ => false

/-- An accepted disarm request. -/
def disarmAccepted (x : AuthorityTransition) : Bool :=
  match x.input, x.output with
  | .setAuthority request _, .ok output =>
    !request.updatePwmLimit && !request.arm && output.response.any (·.accepted)
  | _, _ => false

/-- A trip, an abort or a disarm. -/
def stops (x : AuthorityTransition) : Bool :=
  (x.pre.armed && !x.post.armed) || aborts x || disarmAccepted x

/-- A request to disarm that is accepted leaves the node disarmed. -/
theorem disarmed_of_request {request : SetControlAuthorityRequest} {nowNs : ℤ}
    (h : onSetAuthority cfg s request nowNs = .ok (s', output))
    (hlimit : request.updatePwmLimit = false) (harm : request.arm = false)
    (haccepted : output.response.any (·.accepted) = true) : s'.armed = false := by
  have hrefused : ∀ text, answer s false text ≠ (s', output) := by
    rintro text heq
    obtain ⟨-, rfl⟩ := Prod.mk.inj heq
    cases haccepted
  have hdisarmed : ∀ s₀ requested, requestArm cfg s₀ request requested nowNs = .ok (s', output) →
      s'.armed = false := by
    intro s₀ requested h
    unfold requestArm at h
    rw [harm] at h
    obtain ⟨rfl, -⟩ := Prod.mk.inj (Except.ok.inj h)
    rfl
  unfold onSetAuthority at h
  rw [hlimit, if_neg Bool.false_ne_true] at h
  dsimp only at h
  split_ifs at h
  · exact absurd (Except.ok.inj h) (hrefused _)
  · exact absurd (Except.ok.inj h) (hrefused _)
  · exact absurd (Except.ok.inj h) (hrefused _)
  · unfold requestAuthority at h
    split_ifs at h
    · exact absurd (Except.ok.inj h) (hrefused _)
    · dsimp only at h
      split_ifs at h with hsame
      · -- Only the fault is cleared: the node is disarmed as requested.
        obtain ⟨rfl, -⟩ := Prod.mk.inj (Except.ok.inj h)
        rw [Bool.and_eq_true, beq_iff_eq, harm] at hsame
        exact hsame.1.symm
      · exact hdisarmed _ _ h
    · exact hdisarmed _ _ h

/-- Every stop leaves the node disarmed. -/
theorem disarmed_of_stops (h : authorityStep cfg x.pre x.input = some (x.post, x.output))
    (hstops : stops x = true) : x.post.armed = false := by
  unfold stops at hstops
  rw [Bool.or_eq_true, Bool.or_eq_true, Bool.and_eq_true, Bool.not_eq_true'] at hstops
  obtain (⟨-, hpost⟩ | habort) | hdisarm := hstops
  · exact hpost
  · cases harmed : x.pre.armed with
    | true =>
      refine disarmed_of_abort h ?_
      unfold aborts at habort
      unfold abortsArmed
      split at habort <;> simp_all
    | false =>
      -- An abort event does not arm.
      by_contra hpost
      have harms : arms x = true := by simpa [arms, harmed] using hpost
      obtain ⟨output, -, haccepts⟩ := acceptsArm_of_arms h harms
      unfold acceptsArm at haccepts
      unfold aborts at habort
      split at haccepts <;> simp_all
  · unfold disarmAccepted at hdisarm
    split at hdisarm
    · rename_i request nowNs output hinput houtput
      simp only [Bool.and_eq_true, Bool.not_eq_true'] at hdisarm
      obtain ⟨⟨hlimit, harm⟩, haccepted⟩ := hdisarm
      unfold authorityStep at h
      rw [hinput, houtput] at h
      simp only [authorityCallback] at h
      split at h
      · rename_i s' output' hok
        obtain ⟨hpost, heq⟩ := Prod.mk.inj (Option.some.inj h)
        obtain rfl := Except.ok.inj heq
        rw [← hpost]
        exact disarmed_of_request hok hlimit harm haccepted
      · obtain ⟨-, heq⟩ := Prod.mk.inj (Option.some.inj h)
        cases heq
    · cases hdisarm

/-! ### Safety in every run -/

/-- An arm in a run is an accepted arm request. -/
theorem arms_eq_false (h : (authorityMachine cfg).Run tr s) (hx : x ∈ tr)
    (hnot : armAccepted x = false) : arms x = false := by
  by_contra harms
  rw [Bool.not_eq_false] at harms
  obtain ⟨output, hok, haccepts⟩ := acceptsArm_of_arms (h.step_of_mem hx) harms
  simp [armAccepted, hok, haccepts] at hnot

/-- A node that has been disarmed stays so until an accepted arm request. -/
theorem disarmed_until_accepted {after before : AuthorityHistory}
    (h : (authorityMachine cfg).Run (after ++ x :: before) s) (hx : x.post.armed = false)
    (hafter : ∀ y ∈ after, armAccepted y = false) :
    ∀ y ∈ after ++ [x], y.post.armed = false := by
  intro y hy
  rcases List.mem_append.mp hy with hy | hy
  · obtain ⟨newer, older, rfl⟩ := List.append_of_mem hy
    rw [List.append_assoc, List.cons_append] at h
    have hrun := h.split
    rw [← List.cons_append] at hrun
    refine disarmed_since hrun hx fun z hz => ?_
    exact arms_eq_false hrun (List.mem_append_left _ hz) (hafter z (List.mem_append_right _ hz))
  · obtain rfl := List.mem_singleton.mp hy
    exact hx

theorem source_of_change (h : AuthorityChange cfg s input s' output) (harmed : s.armed = true) :
    s'.selectedSource = s.selectedSource := by
  cases h with
  | quiet h _ => exact h.selectedSource harmed
  | limit _ _ _ _ => rfl
  | evaluated _ hsame h _ => cases h <;> exact hsame.selectedSource harmed
  | aborted _ h _ _ _ => exact h.selectedSource harmed
  | disarmed h _ => exact h.selectedSource harmed
  | armed _ hdisarmed _ _ _ _ => simp [harmed] at hdisarmed

theorem authorityOrdered_of_run (h : (authorityMachine cfg).Run tr s) : AuthorityOrdered tr s where
  fault := disarmed_of_fault h
  abort := by
    rintro after x before rfl habort hafter y hy command hcommand
    have hdisarmed :=
      disarmed_until_accepted h (disarmed_of_abort h.split.head_step habort) hafter y hy
    have hmem : y ∈ after ++ x :: before := by
      rw [List.append_cons]
      exact List.mem_append_left _ hy
    by_contra henable
    have := (publishedCommand_spec h hmem hcommand).2 (by simpa using henable)
    simp [hdisarmed] at this
  generation := armGeneration_eq h
  enabled := by
    intro x hx command hcommand henable
    obtain ⟨heq, harmed⟩ := publishedCommand_spec h hx hcommand
    rw [heq]
    exact ⟨harmed henable, rfl⟩
  source := by
    intro x hx harmed
    obtain ⟨output, -, hchange⟩ := change_of_step (h.step_of_mem hx)
    exact source_of_change hchange harmed
  neutral := (outputGated_of_run h).neutral
  lookups := by
    intro x hx
    obtain ⟨output, hok, -⟩ := change_of_step (h.step_of_mem hx)
    exact ⟨output, hok⟩

/-- **Authority safety.**  In every run; and the actions stay between -1 and 1 in every run without
a NaN for a limit, all of whose altitude holds stay below the bound. -/
theorem authority_safe (h : (authorityMachine cfg).Run tr s) :
    AuthorityOrdered tr s ∧
      (cfg.pwmLimitUs.value ≠ .nan → (∀ x ∈ tr, overdrivenStep cfg x.pre x.input = false) →
        AuthoritySafe tr s) := by
  refine ⟨authorityOrdered_of_run h, fun hlimit hdrive => ⟨authorityOrdered_of_run h, ?_⟩⟩
  intro x hx command hcommand i
  obtain ⟨after, before, rfl⟩ := List.append_of_mem hx
  have hbounded := outputBounded_of_run h.split hlimit fun y hy =>
    hdrive y (List.mem_append_right _ hy)
  rw [(publishedCommand_spec h hx hcommand).1]
  simpa [makeCommand] using hbounded.published i

/-! ### An altitude hold -/

/-- A fresh, localized body, an altitude-hold target and a PID command, then armed. -/
def altitudeHoldInputs : List AuthorityInput :=
  [.safetyEvent {} 0,
    .bodyState { linearVelocityValid := true, stateValid := true } 0,
    .trajectoryTarget { controlMode := "altitude_hold", valid := true } 0,
    .pidCommand { enable := true, source := "pid_controller" } 0 0,
    .setAuthority { source := "pid", arm := true } 0]

/-- A manual command with these values of T5 to T8. -/
def manualSurgeYaw (t5 t6 t7 t8 : ℚ) : ThrusterCommand where
  action := #v[0, 0, 0, 0, Number.ofRat binary32 t5, Number.ofRat binary32 t6,
    Number.ofRat binary32 t7, Number.ofRat binary32 t8]
  enable := true
  source := "web_operator"

/-- Full surge is within the bound. -/
theorem authority_safe_altitudeHoldInputs :
    ∃ x tr s, (authorityMachine {}).Run (x :: tr) s ∧
      ((publishedCommand? x).any (·.enable)) = true ∧ AuthoritySafe (x :: tr) s := by
  obtain ⟨x, tr, s, hrun, hcheck⟩ := run_of_execCheck (authorityMachine {})
    (altitudeHoldInputs ++ [.manualCommand (manualSurgeYaw (-1) (-1) 1 1) 0 0])
    (fun x tr => (publishedCommand? x).any (·.enable) &&
      (x :: tr).all fun y => !overdrivenStep {} y.pre y.input) (by decide +kernel)
  rw [Bool.and_eq_true, List.all_eq_true] at hcheck
  exact ⟨x, tr, s, hrun, hcheck.1,
    (authority_safe hrun).2 (by decide +kernel) fun y hy => by simpa using hcheck.2 y hy⟩

/-- These four actions are `float` values in [-1, 1], but their sums are rounded up: a thruster is
sent the `float` after one. -/
theorem not_authority_safe_surgeYaw :
    ¬ ∀ (cfg : AuthorityConfig) (tr : AuthorityHistory) (s : Authority),
      (authorityMachine cfg).Run tr s → cfg.pwmLimitUs.value ≠ .nan → AuthoritySafe tr s := by
  intro h
  obtain ⟨x, tr, s, hrun, hcheck⟩ := run_of_execCheck (authorityMachine {})
    (altitudeHoldInputs ++ [.manualCommand
      (manualSurgeYaw (-1) (0x1518a54 / 2 ^ 28) 1 (-0x18faa2c / 2 ^ 25)) 0 0])
    (fun x _ => (publishedCommand? x).any fun command =>
      command.enable && command.action.toList.any fun value => !actionValueValid value)
    (by decide +kernel)
  obtain ⟨command, hcommand, hinvalid⟩ := (Option.any_eq_true _ _).mp hcheck
  rw [Bool.and_eq_true, List.any_eq_true] at hinvalid
  obtain ⟨-, value, hvalue, hbad⟩ := hinvalid
  obtain ⟨i, hi, rfl⟩ := List.getElem_of_mem hvalue
  have hbounded := (h {} _ s hrun (by decide +kernel)).bounded x List.mem_cons_self command hcommand
    ⟨i, by simpa using hi⟩
  rw [← actionValueValid_iff] at hbounded
  simp_all

end RobotCore
