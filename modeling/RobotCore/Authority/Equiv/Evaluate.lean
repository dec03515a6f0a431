import RobotCore.Authority.Command
import RobotCore.Lib.Numeral

/-!
# What an evaluation does

`evaluate_spec`: an evaluation never looks up a missing source, and it ends in one of three ways:
neutral, tripped, or driving the thrusters from sources that have passed their checks
(`Evaluated`).
-/

namespace RobotCore

open Ieee

variable {cfg : AuthorityConfig} {s : Authority} {source : String} {nowNs : ℤ}

@[simp] theorem ok_bind {ε α β : Type} (a : α) (f : α → Except ε β) :
    (Except.ok a >>= f) = f a := rfl

/-! ### The checks -/

/-- The source has a command with eight valid action values. -/
def HasCommand (s : Authority) (source : String) (message : ThrusterCommand) : Prop :=
  (∃ stampNs, s.sourceCommands source = some ⟨message, stampNs⟩) ∧
    ∀ i : Fin 8, Number.AbsLe (getElem message.action i (Numeral.val_lt_eight i)) 1

theorem hasCommand_of_integrity
    (h : sourceCommandIntegrityFailure cfg s source nowNs = none) :
    ∃ message, HasCommand s source message := by
  unfold sourceCommandIntegrityFailure at h
  split at h
  · cases h
  · rename_i item hitem
    split_ifs at h with _ _ hvalues
    refine ⟨item.message, ⟨item.stampNs, hitem⟩, fun i => ?_⟩
    rw [Bool.not_eq_true', Bool.not_eq_false, List.all_eq_true] at hvalues
    exact (actionValueValid_iff _).mp (hvalues _ (by simp))

theorem HasCommand.at_eq {message : ThrusterCommand} (h : HasCommand s source message) :
    ∃ stampNs, s.at source = .ok ⟨message, stampNs⟩ := by
  obtain ⟨⟨stampNs, hitem⟩, -⟩ := h
  exact ⟨stampNs, by rw [Authority.at, hitem]⟩

theorem sourceCommandFailure_spec (cfg : AuthorityConfig) (s : Authority) (source : String)
    (nowNs : ℤ) : ∃ reason, sourceCommandFailure cfg s source nowNs = .ok reason ∧
      (reason = none → ∃ message, HasCommand s source message) := by
  unfold sourceCommandFailure
  cases hintegrity : sourceCommandIntegrityFailure cfg s source nowNs with
  | some reason => exact ⟨some reason, rfl, fun h => by cases h⟩
  | none =>
    obtain ⟨message, hmessage⟩ := hasCommand_of_integrity hintegrity
    obtain ⟨stampNs, hat⟩ := hmessage.at_eq
    dsimp only
    rw [hat, ok_bind]
    cases message.enable with
    | false => exact ⟨some (source ++ " command is not ready"), rfl, fun h => by cases h⟩
    | true => exact ⟨none, rfl, fun _ => ⟨message, hmessage⟩⟩

theorem commonFailure_none (h : commonFailure cfg s nowNs = none) : s.faultLatched = false := by
  unfold commonFailure at h
  split_ifs at h with habort hfault
  simpa using hfault

theorem prearmFailure_spec (cfg : AuthorityConfig) (s : Authority) (nowNs : ℤ) :
    ∃ reason, prearmFailure cfg s nowNs = .ok reason ∧
      (reason = none → s.faultLatched = false ∧
        ∃ message, HasCommand s s.selectedSource message) := by
  unfold prearmFailure
  cases hcommon : commonFailure cfg s nowNs with
  | some reason => exact ⟨some reason, rfl, fun h => by cases h⟩
  | none =>
    obtain ⟨reason, hreason, hmessage⟩ := sourceCommandFailure_spec cfg s s.selectedSource nowNs
    dsimp only
    rw [hreason]
    cases reason with
    | some reason => exact ⟨some reason, rfl, fun h => by cases h⟩
    | none => exact ⟨_, rfl, fun _ => ⟨commonFailure_none hcommon, hmessage rfl⟩⟩

/-! ### The mode -/

/-- A mode in which the manual source drives has a manual command. -/
theorem evaluationMode_manual
    (h : (evaluationMode cfg s nowNs).hybridAltitudeHold = true ∨
      (evaluationMode cfg s nowNs).manualOverride = true) :
    ∃ message, HasCommand s "manual" message := by
  refine hasCommand_of_integrity
    (show sourceCommandIntegrityFailure cfg s "manual" nowNs = none from ?_)
  unfold evaluationMode at h
  cases hintegrity : sourceCommandIntegrityFailure cfg s "manual" nowNs with
  | none => rfl
  | some reason => simp [hintegrity] at h

theorem evaluationMode_hybrid (h : (evaluationMode cfg s nowNs).hybridAltitudeHold = true) :
    s.selectedSource = "pid" ∧ (evaluationMode cfg s nowNs).manualOverride = false := by
  unfold evaluationMode at h ⊢
  dsimp only at h ⊢
  refine ⟨?_, by rw [h]; simp⟩
  simp only [Bool.and_eq_true, beq_iff_eq] at h
  exact h.1.1.2

/-! ### The evaluation -/

/-- How the checks of an evaluation end. -/
inductive Checked (s : Authority) (mode : EvaluationMode) : EvaluationCheck → Prop
  | disarmed (h : s.armed = false) : Checked s mode ⟨s, false, none⟩
  | passed (harmed : s.armed = true)
      (h : mode.manualOverride = true ∨ ∃ message, HasCommand s s.selectedSource message) :
      Checked s mode ⟨s, true, none⟩
  | idle (harmed : s.armed = true) (idleReason : String) :
      Checked s mode ⟨{ s with
        output := zeroOutput, message := "armed manual; neutral: " ++ idleReason }, true,
        some idleReason⟩
  | tripped (harmed : s.armed = true) (reason : String) (idleReason : Option String) :
      Checked s mode ⟨trip s "CONTROL_INPUT_INVALID" reason, false, idleReason⟩

theorem evaluationFailure_spec (cfg : AuthorityConfig) (s : Authority) (mode : EvaluationMode)
    (nowNs : ℤ) : ∃ reason, evaluationFailure cfg s mode nowNs = .ok reason ∧
      (reason = none → mode.manualOverride = true ∨
        ∃ message, HasCommand s s.selectedSource message) := by
  unfold evaluationFailure
  split
  · exact ⟨_, rfl, fun _ => Or.inl ‹_›⟩
  · obtain ⟨reason, hok, hnone⟩ := prearmFailure_spec cfg s nowNs
    exact ⟨reason, hok, fun h => Or.inr (hnone h).2⟩

theorem checkOutput_spec (cfg : AuthorityConfig) (s : Authority) (mode : EvaluationMode)
    (nowNs : ℤ) : ∃ check, checkOutput cfg s mode nowNs = .ok check ∧ Checked s mode check := by
  unfold checkOutput
  split
  · rename_i hdisarmed
    exact ⟨_, rfl, .disarmed (by simpa using hdisarmed)⟩
  · rename_i hnot
    have harmed : s.armed = true := by simpa using hnot
    obtain ⟨reason, hok, hnone⟩ := evaluationFailure_spec cfg s mode nowNs
    rw [hok, ok_bind]
    cases reason with
    | none => exact ⟨_, rfl, .passed harmed (hnone rfl)⟩
    | some reason =>
      cases manualIdleReason cfg s nowNs with
      | none => exact ⟨_, rfl, .tripped harmed _ _⟩
      | some idleReason =>
        dsimp only
        split
        · exact ⟨_, rfl, .idle harmed _⟩
        · exact ⟨_, rfl, .tripped harmed _ _⟩

/-- What an evaluation writes to a channel: a checked action, or in altitude hold the surge and
yaw of a checked manual command, each scaled by the limit. -/
inductive Drives (cfg : AuthorityConfig) (s : Authority) (nowNs : ℤ) (i : Fin 8) : Binary64 → Prop
  | action {source message} (h : HasCommand s source message) :
      Drives cfg s nowNs i ((getElem message.action i i.2).widen * s.actionLimit)
  | altitude {manual} (hmode : (evaluationMode cfg s nowNs).hybridAltitudeHold = true)
      (h : HasCommand s "manual" manual) :
      Drives cfg s nowNs i (getElem (altitudeManualSurgeYaw manual) i i.2 * s.actionLimit)

/-- The sources of the output are present. -/
theorem requestedOutput_spec (cfg : AuthorityConfig) (s : Authority) (nowNs : ℤ)
    (hselected : (evaluationMode cfg s nowNs).manualOverride = true ∨
      ∃ message, HasCommand s s.selectedSource message) :
    ∃ output, requestedOutput
        { s with activeSource := (evaluationMode cfg s nowNs).activeSource s.selectedSource }
        (evaluationMode cfg s nowNs) = .ok output ∧
      ∀ i : Fin 8, Drives cfg s nowNs i (getElem output i i.2) := by
  set mode := evaluationMode cfg s nowNs with hmode
  set active := { s with activeSource := mode.activeSource s.selectedSource } with hactive
  unfold requestedOutput altitudeManual
  cases hhybrid : mode.hybridAltitudeHold with
  | true =>
    obtain ⟨manual, hmanual⟩ := evaluationMode_manual (Or.inl hhybrid)
    obtain ⟨hpid, hoverride⟩ := evaluationMode_hybrid hhybrid
    obtain ⟨message, hmessage⟩ := hselected.resolve_left (by rw [hoverride]; decide)
    rw [hpid] at hmessage
    have hactiveManual : HasCommand active "manual" manual := hmanual
    have hactivePid : HasCommand active "pid" message := hmessage
    obtain ⟨manualNs, hatManual⟩ := hactiveManual.at_eq
    obtain ⟨pidNs, hatPid⟩ := hactivePid.at_eq
    rw [if_pos rfl, hatManual, ok_bind, if_pos rfl, hatPid]
    refine ⟨_, rfl, fun i => ?_⟩
    rw [Fin.getElem_fin, Vector.getElem_ofFn]
    split
    · exact .altitude hhybrid hmanual
    · exact .action hmessage
  | false =>
    have hsource : ∃ message, HasCommand active active.activeSource message := by
      simp only [hactive, EvaluationMode.activeSource, hhybrid]
      rw [if_neg Bool.false_ne_true]
      split
      · exact evaluationMode_manual (Or.inr ‹_›)
      · exact hselected.resolve_left ‹_›
    obtain ⟨message, hmessage⟩ := hsource
    obtain ⟨stampNs, hat⟩ := hmessage.at_eq
    rw [if_neg Bool.false_ne_true, ok_bind, if_neg Bool.false_ne_true, hat]
    refine ⟨_, rfl, fun i => ?_⟩
    rw [Fin.getElem_fin, Vector.getElem_ofFn]
    exact Drives.action hmessage

/-- How an evaluation ends. -/
inductive Evaluated (cfg : AuthorityConfig) (s : Authority) (nowNs : ℤ) : Authority → Prop
  | neutral (activeSource message : String) : Evaluated cfg s nowNs { s with
      activeSource := activeSource, output := zeroOutput, message := message,
      outputEnabled := false }
  | tripped (harmed : s.armed = true) (activeSource reason : String) : Evaluated cfg s nowNs
      (trip { s with activeSource := activeSource } "CONTROL_INPUT_INVALID" reason)
  | driven (harmed : s.armed = true) (activeSource message : String) {output : Vector Binary64 8}
      (h : ∀ i : Fin 8, Drives cfg s nowNs i (getElem output i i.2)) :
      Evaluated cfg s nowNs { s with
        activeSource := activeSource, output := output, message := message,
        outputEnabled := true }

/-- **Evaluation.**  No lookup fails, and the thrusters are driven only from checked sources. -/
theorem evaluate_spec (cfg : AuthorityConfig) (s : Authority) (nowNs : ℤ) :
    ∃ s', evaluate cfg s nowNs = .ok s' ∧ Evaluated cfg s nowNs s' := by
  unfold evaluate
  dsimp only
  set mode := evaluationMode cfg s nowNs with hmode
  set active := { s with activeSource := mode.activeSource s.selectedSource } with hactive
  obtain ⟨check, hcheck, hchecked⟩ := checkOutput_spec cfg active mode nowNs
  rw [hcheck, ok_bind]
  cases hchecked with
  | disarmed _ => exact ⟨_, rfl, .neutral _ _⟩
  | passed harmed hsource =>
    obtain ⟨output, houtput, hdrives⟩ := requestedOutput_spec cfg s nowNs hsource
    dsimp only
    rw [Option.isNone_none, Bool.and_true, if_pos rfl, houtput, ok_bind]
    have harmed : s.armed = true := harmed
    exact ⟨_, rfl, .driven harmed _ _ hdrives⟩
  | idle harmed idleReason => exact ⟨_, rfl, .neutral _ _⟩
  | tripped harmed reason idleReason =>
    have harmed : s.armed = true := harmed
    exact ⟨trip active "CONTROL_INPUT_INVALID" reason, rfl, .tripped harmed _ reason⟩

/-- An evaluation with the PID source active drives every thruster from its command. -/
theorem evaluate_pid {s' : Authority} (h : evaluate cfg s nowNs = .ok s')
    (hactive : s'.activeSource = "pid") (hdriving : s'.outputEnabled = true) :
    ∃ message, HasCommand s "pid" message ∧
      s'.output = Vector.ofFn fun i => (getElem message.action i i.2).widen * s.actionLimit := by
  unfold evaluate at h
  dsimp only at h
  set mode := evaluationMode cfg s nowNs with hmode
  set active := { s with activeSource := mode.activeSource s.selectedSource } with hactiveState
  obtain ⟨check, hcheck, hchecked⟩ := checkOutput_spec cfg active mode nowNs
  rw [hcheck, ok_bind] at h
  cases hchecked with
  | disarmed _ =>
    cases h
    cases hdriving
  | idle _ _ =>
    cases h
    cases hdriving
  | tripped _ _ _ =>
    cases h
    cases hdriving
  | passed _ hsource =>
    dsimp only at h
    rw [Option.isNone_none, Bool.and_true, if_pos rfl] at h
    cases houtput : requestedOutput active mode with
    | error e =>
      rw [houtput] at h
      cases h
    | ok output =>
      rw [houtput, ok_bind] at h
      cases h
      -- The manual source is named in the active source of the other modes.
      have hname : mode.activeSource s.selectedSource = "pid" := hactive
      have hhybrid : mode.hybridAltitudeHold = false := by
        cases hhybrid : mode.hybridAltitudeHold with
        | false => rfl
        | true => simp [EvaluationMode.activeSource, hhybrid] at hname
      have hoverride : mode.manualOverride = false := by
        cases hoverride : mode.manualOverride with
        | false => rfl
        | true => simp [EvaluationMode.activeSource, hhybrid, hoverride] at hname
      have hselected : s.selectedSource = "pid" := by
        simpa [EvaluationMode.activeSource, hhybrid, hoverride] using hname
      obtain ⟨message, hmessage⟩ := hsource.resolve_left (by rw [hoverride]; decide)
      have hpid : HasCommand s "pid" message := by
        rw [← hselected]
        exact hmessage
      have hactivePid : HasCommand active active.activeSource message := by
        rw [show active.activeSource = "pid" from hname]
        exact hpid
      obtain ⟨stampNs, hat⟩ := hactivePid.at_eq
      refine ⟨message, hpid, ?_⟩
      unfold requestedOutput altitudeManual at houtput
      rw [hhybrid, if_neg Bool.false_ne_true, ok_bind, if_neg Bool.false_ne_true, hat] at houtput
      cases houtput
      rfl

end RobotCore
