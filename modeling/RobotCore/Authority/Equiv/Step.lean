import RobotCore.Authority.Equiv.Evaluate
import RobotCore.Authority.Node

/-!
# What a callback of the authority can do

`authorityCallback_spec`: no callback ends in an exception, and each one leaves arming and output
alone, changes the limit, evaluates, trips on an abort, disarms, or arms (`AuthorityChange`).
Every invariant of the authority is derived from this list.
-/

namespace RobotCore

open Ieee Machine

/-! ### Evaluations of a callback -/

/-- A fresh command of the source is evaluated. -/
def freshState (s : Authority) (source : String) (nowNs : ℤ) : Option (Authority × ℤ) :=
  if !s.armed || (source != s.selectedSource && source != "manual") then none else some (s, nowNs)

/-- The state and the clock reading with which a callback evaluates, if it does. -/
def evaluatedState (s : Authority) : AuthorityInput → Option (Authority × ℤ)
  | .manualCommand message stampNs nowNs =>
    if message.source != "web_operator" then none
    else freshState (setSourceCommand s "manual" (some ⟨message, stampNs⟩)) "manual" nowNs
  | .pidCommand message stampNs nowNs =>
    if message.source != "pid_controller" then none
    else freshState (setSourceCommand s "pid" (some ⟨message, stampNs⟩)) "pid" nowNs
  | .rlAction action stampNs nowNs =>
    freshState (setSourceCommand s "rl"
      (if rlActionValid action then some ⟨rlCommand action, stampNs⟩ else none)) "rl" nowNs
  | .evaluationTimer nowNs => some (s, nowNs)
  | _ => none

/-- An arm request that is accepted. -/
def acceptsArm (input : AuthorityInput) (output : AuthorityOutput) : Bool :=
  match input with
  | .setAuthority request _ => request.arm && output.response.any (·.accepted)
  | _ => false

/-! ### The cases -/

/-- Arming and output are as before; the selected source may change while disarmed, and a fault
may be cleared. -/
structure SameControl (s s' : Authority) : Prop where
  armed : s'.armed = s.armed
  armGeneration : s'.armGeneration = s.armGeneration
  outputEnabled : s'.outputEnabled = s.outputEnabled
  output : s'.output = s.output
  actionLimit : s'.actionLimit = s.actionLimit
  selectedSource : s.armed = true → s'.selectedSource = s.selectedSource
  faultLatched : s'.faultLatched = true → s.faultLatched = true

/-- A callback publishes nothing, or its state as it is. -/
def PublishesState (s : Authority) (output : AuthorityOutput) : Prop :=
  output.command = none ∨ output.command = some (makeCommand s s.outputEnabled)

inductive AuthorityChange (cfg : AuthorityConfig) (s : Authority) (input : AuthorityInput) :
    Authority → AuthorityOutput → Prop
  | quiet {s' output} (h : SameControl s s') (hcommand : PublishesState s' output) :
      AuthorityChange cfg s input s' output
  | limit {output} (limitUs : Binary64) (message : String) (h : pwmLimitValid limitUs = true)
      (hcommand : output.command = none) :
      AuthorityChange cfg s input
        { s with actionLimit := limitUs.divConst 250, message := message } output
  | evaluated {s₀ nowNs s' output} (hstate : evaluatedState s input = some (s₀, nowNs))
      (hsame : SameControl s s₀) (h : Evaluated cfg s₀ nowNs s')
      (hcommand : PublishesState s' output) :
      AuthorityChange cfg s input s' output
  | aborted {s₀ output} (harmed : s.armed = true) (h : SameControl s s₀) (code message : String)
      (hcommand : output.command = some (makeCommand (trip s₀ code message) false)) :
      AuthorityChange cfg s input (trip s₀ code message) output
  | disarmed {s₀ output} (h : SameControl s s₀)
      (hcommand : output.command = some (makeCommand (disarm s₀) false)) :
      AuthorityChange cfg s input (disarm s₀) output
  | armed {s₀ output} (h : SameControl s s₀) (hdisarmed : s.armed = false)
      (hfault : s₀.faultLatched = false) (message : String) (hcommand : output.command = none)
      (haccepted : acceptsArm input output = true) :
      AuthorityChange cfg s input
        { s₀ with armGeneration := s₀.armGeneration + 1, armed := true, message := message } output

variable {cfg : AuthorityConfig} {s s' : Authority} {input : AuthorityInput}

theorem SameControl.refl (s : Authority) : SameControl s s :=
  ⟨rfl, rfl, rfl, rfl, rfl, fun _ => rfl, id⟩

theorem SameControl.trans {s'' : Authority} (h : SameControl s s') (h' : SameControl s' s'') :
    SameControl s s'' where
  armed := h'.armed.trans h.armed
  armGeneration := h'.armGeneration.trans h.armGeneration
  outputEnabled := h'.outputEnabled.trans h.outputEnabled
  output := h'.output.trans h.output
  actionLimit := h'.actionLimit.trans h.actionLimit
  selectedSource harmed :=
    (h'.selectedSource (h.armed.trans harmed)).trans (h.selectedSource harmed)
  faultLatched := h.faultLatched ∘ h'.faultLatched

theorem sameControl_setSourceCommand (s : Authority) (source : String)
    (item : Option TimedSourceCommand) : SameControl s (setSourceCommand s source item) :=
  ⟨rfl, rfl, rfl, rfl, rfl, fun _ => rfl, id⟩

/-! ### The callbacks -/

/-- The callback ends normally, in one of the cases. -/
def CallbackSpec (cfg : AuthorityConfig) (s : Authority) (input : AuthorityInput)
    (result : Except OutOfRange (Authority × AuthorityOutput)) : Prop :=
  ∃ s' output, result = .ok (s', output) ∧ AuthorityChange cfg s input s' output

theorem publishFreshSourceCommand_spec {s₀ : Authority} {source : String} {nowNs : ℤ}
    (h : SameControl s s₀) (hstate : evaluatedState s input = freshState s₀ source nowNs) :
    CallbackSpec cfg s input (publishFreshSourceCommand cfg s₀ source nowNs) := by
  unfold freshState at hstate
  unfold publishFreshSourceCommand
  split
  · exact ⟨s₀, {}, rfl, .quiet h (Or.inl rfl)⟩
  · rw [if_neg ‹_›] at hstate
    obtain ⟨s', hok, hevaluated⟩ := evaluate_spec cfg s₀ nowNs
    rw [hok, ok_bind]
    exact ⟨s', _, rfl, .evaluated hstate h hevaluated (Or.inr rfl)⟩

theorem onSourceCommand_spec {source producer : String} {message : ThrusterCommand}
    {stampNs nowNs : ℤ}
    (hstate : evaluatedState s input =
      if message.source != producer then none
      else freshState (setSourceCommand s source (some ⟨message, stampNs⟩)) source nowNs) :
    CallbackSpec cfg s input (onSourceCommand cfg s source producer message stampNs nowNs) := by
  unfold onSourceCommand
  split
  · exact ⟨s, {}, rfl, .quiet (.refl s) (Or.inl rfl)⟩
  · rw [if_neg ‹_›] at hstate
    exact publishFreshSourceCommand_spec (sameControl_setSourceCommand _ _ _) hstate

theorem onSafety_spec (event : SafetyEventMsg) (stampNs : ℤ) :
    CallbackSpec cfg s input (.ok (onSafety s event stampNs)) := by
  have hsame : SameControl s
      { s with abortActive := event.abortActive, safetyStampNs := some stampNs } :=
    ⟨rfl, rfl, rfl, rfl, rfl, fun _ => rfl, id⟩
  unfold onSafety
  dsimp only
  split
  · rename_i habort
    rw [Bool.and_eq_true] at habort
    exact ⟨_, _, rfl, .aborted habort.2 hsame _ _ rfl⟩
  · exact ⟨_, _, rfl, .quiet hsame (Or.inl rfl)⟩

theorem updatePwmLimit_spec (request : SetControlAuthorityRequest) :
    CallbackSpec cfg s input (.ok (updatePwmLimit s request)) := by
  unfold updatePwmLimit
  split
  · exact ⟨_, _, rfl, .quiet (.refl s) (Or.inl rfl)⟩
  · split
    · exact ⟨_, _, rfl, .quiet (.refl s) (Or.inl rfl)⟩
    · exact ⟨_, _, rfl, .limit _ _ (by simp_all) rfl⟩

/-- A refusal changes the message only. -/
theorem answer_spec {s₀ : Authority} (h : SameControl s s₀) (accepted : Bool) (text : String) :
    CallbackSpec cfg s input (.ok (answer s₀ accepted text)) :=
  ⟨_, _, rfl, .quiet (h.trans ⟨rfl, rfl, rfl, rfl, rfl, fun _ => rfl, id⟩) (Or.inl rfl)⟩

theorem requestArm_spec {s₀ : Authority} {request : SetControlAuthorityRequest}
    {requested : String} {nowNs : ℤ} (h : SameControl s s₀)
    (hinput : input = .setAuthority request nowNs) :
    CallbackSpec cfg s input (requestArm cfg s₀ request requested nowNs) := by
  have hsame : SameControl s₀
      (if !s₀.armed then { s₀ with selectedSource := requested } else s₀) := by
    split
    · rename_i hdisarmed
      exact ⟨rfl, rfl, rfl, rfl, rfl, fun harmed => by simp [harmed] at hdisarmed, id⟩
    · exact .refl s₀
  unfold requestArm
  dsimp only
  have hsame' := h.trans hsame
  generalize (if !s₀.armed then { s₀ with selectedSource := requested } else s₀) = s₁ at hsame'
  split
  · exact ⟨_, _, rfl, .disarmed hsame' rfl⟩
  · rename_i harm
    obtain ⟨reason, hok, hnone⟩ := prearmFailure_spec cfg s₁ nowNs
    rw [hok, ok_bind]
    cases reason with
    | some reason => exact answer_spec hsame' _ _
    | none =>
      cases harmed : s₁.armed with
      | true =>
        refine ⟨_, _, rfl, .quiet (hsame'.trans ⟨?_, rfl, rfl, rfl, rfl, fun _ => rfl, id⟩)
          (Or.inl rfl)⟩
        exact harmed.symm
      | false =>
        refine ⟨_, _, rfl, .armed hsame' (hsame'.armed ▸ harmed) (hnone rfl).1 _ rfl ?_⟩
        rw [hinput]
        simpa [acceptsArm, fillResponse] using harm

theorem requestAuthority_spec {request : SetControlAuthorityRequest} {requested : String}
    {nowNs : ℤ} (hinput : input = .setAuthority request nowNs) :
    CallbackSpec cfg s input (requestAuthority cfg s request requested nowNs) := by
  unfold requestAuthority
  split
  · split
    · exact answer_spec (.refl s) _ _
    · have hcleared : SameControl s
          { s with faultLatched := false, faultCode := "", message := "fault cleared" } :=
        ⟨rfl, rfl, rfl, rfl, rfl, fun _ => rfl, fun h => by cases h⟩
      dsimp only
      split
      · exact ⟨_, _, rfl, .quiet hcleared (Or.inl rfl)⟩
      · exact requestArm_spec hcleared hinput
  · exact requestArm_spec (.refl s) hinput

theorem onSetAuthority_spec {request : SetControlAuthorityRequest} {nowNs : ℤ}
    (hinput : input = .setAuthority request nowNs) :
    CallbackSpec cfg s input (onSetAuthority cfg s request nowNs) := by
  unfold onSetAuthority
  dsimp only
  split
  · exact updatePwmLimit_spec request
  · split
    · exact answer_spec (.refl s) _ _
    · split
      · exact answer_spec (.refl s) _ _
      · split
        · exact answer_spec (.refl s) _ _
        · exact requestAuthority_spec hinput

/-- **Callbacks.**  No callback ends in an exception, and each does one of the listed things. -/
theorem authorityCallback_spec (cfg : AuthorityConfig) (s : Authority) (input : AuthorityInput) :
    CallbackSpec cfg s input (authorityCallback cfg s input) := by
  cases input with
  | manualCommand message stampNs nowNs => exact onSourceCommand_spec rfl
  | pidCommand message stampNs nowNs => exact onSourceCommand_spec rfl
  | rlAction action stampNs nowNs =>
    exact publishFreshSourceCommand_spec (sameControl_setSourceCommand _ _ _) rfl
  | bodyState message stampNs =>
    exact ⟨_, _, rfl, .quiet ⟨rfl, rfl, rfl, rfl, rfl, fun _ => rfl, id⟩ (Or.inl rfl)⟩
  | trajectoryTarget message stampNs =>
    exact ⟨_, _, rfl, .quiet ⟨rfl, rfl, rfl, rfl, rfl, fun _ => rfl, id⟩ (Or.inl rfl)⟩
  | safetyEvent event stampNs => exact onSafety_spec event stampNs
  | setAuthority request nowNs => exact onSetAuthority_spec rfl
  | evaluationTimer nowNs =>
    obtain ⟨s', hok, hevaluated⟩ := evaluate_spec cfg s nowNs
    have hstate : evaluatedState s (.evaluationTimer nowNs) = some (s, nowNs) := rfl
    refine ⟨s', {}, ?_, .evaluated hstate (.refl s) hevaluated (Or.inl rfl)⟩
    rw [authorityCallback, hok]
    rfl
  | commandTimer => exact ⟨s, _, rfl, .quiet (.refl s) (Or.inr rfl)⟩
  | statusTimer => exact ⟨s, {}, rfl, .quiet (.refl s) (Or.inl rfl)⟩

end RobotCore
