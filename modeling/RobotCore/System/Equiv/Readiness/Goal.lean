import RobotCore.System.Equiv.RefusedGoal
import RobotCore.System.Readiness

/-!
# A goal on its way to readiness

What a goal has seen when it takes its controller to be ready (`ready_cases`), and what it calls
while it prepares its trajectory (`prepares_resume`).
-/

namespace RobotCore

open Ieee Machine Scalar

/-! ### The checks of a goal -/

section Checks

variable (task : TrackingTask) (node : ExperimentNode) (w : Wakeup)

/-- The wait for readiness that a goal checks when it goes on, with the time of the check. -/
def readyCheck (pc : ExperimentPc) : Option (ReadyWait × ℤ) :=
  match pc, w.reply with
  | .resetting _ targetSequenceBeforeReset, .trigger true _ =>
    some ({ targetSequenceBeforeReset, deadlineNs := w.nowNs + oneSecondNs }, w.laterNs)
  | .waitingReady _ wait, .timer => some (wait, w.nowNs)
  | _, _ => none

/-- `wait_for_tracking_ready` returns `True`. -/
def trackingReady (pc : ExperimentPc) : Bool :=
  (readyCheck w pc).any fun (wait, nowNs) =>
    decide (nowNs < wait.deadlineNs) && controllerReady task node (markTarget task node wait)

/-- The goal sees a target of its scenario for the first time. -/
def firstSees (pc : ExperimentPc) : Bool :=
  (readyCheck w pc).any fun (wait, nowNs) =>
    decide (nowNs < wait.deadlineNs) && wait.controllerSequenceAtTarget.isNone &&
      targetSeen task node wait

variable {task node w}

theorem firstSees_of_mark {wait : ReadyWait} {nowNs : ℤ} {pc : ExperimentPc} {sequence : ℕ}
    (hcheck : readyCheck w pc = some (wait, nowNs)) (hnow : nowNs < wait.deadlineNs)
    (hnone : wait.controllerSequenceAtTarget = none)
    (hmark : (markTarget task node wait).controllerSequenceAtTarget = some sequence) :
    firstSees task node w pc = true := by
  have hseen : targetSeen task node wait = true := by
    by_contra hseen
    rw [markTarget, if_neg (by simp [hseen]), hnone] at hmark
    cases hmark
  unfold firstSees
  rw [hcheck]
  simp [hnow, hnone, hseen]

theorem mark_eq_of_pid {wait : ReadyWait} {sequence : ℕ} (hpid : task.controller = .pid)
    (hmark : (markTarget task node wait).controllerSequenceAtTarget = some sequence) :
    wait.controllerSequenceAtTarget = some sequence ∨
      wait.controllerSequenceAtTarget = none ∧ sequence = node.pidStatusSequence := by
  unfold markTarget at hmark
  split_ifs at hmark with hseen
  · rw [Bool.and_eq_true, Option.isNone_iff_eq_none] at hseen
    rw [hpid] at hmark
    exact Or.inr ⟨hseen.1, (Option.some.inj hmark).symm⟩
  · exact Or.inl hmark

/-- What a goal finds that takes the PID controller to be ready. -/
theorem ready_cases {pc : ExperimentPc} (hpid : task.controller = .pid)
    (h : trackingReady task node w pc = true) :
    ∃ runDir wait sequence status, pc = .waitingReady runDir wait ∧
      wait.controllerSequenceAtTarget = some sequence ∧ sequence < node.pidStatusSequence ∧
        node.latestPidStatus = some status ∧ status.ready = true := by
  unfold trackingReady at h
  obtain ⟨⟨wait, nowNs⟩, hcheck, h⟩ := (Option.any_eq_true _ _).mp h
  rw [Bool.and_eq_true, controllerReady, hpid] at h
  simp only [Bool.and_eq_true, Option.any_eq_true, decide_eq_true_eq] at h
  obtain ⟨-, ⟨sequence, hmark, hlt⟩, status, hstatus, ⟨hready, -⟩, -⟩ := h
  have hbefore : wait.controllerSequenceAtTarget = some sequence := by
    rcases mark_eq_of_pid hpid hmark with hbefore | ⟨-, rfl⟩
    · exact hbefore
    · exact absurd hlt (lt_irrefl _)
  unfold readyCheck at hcheck
  split at hcheck
  · cases hcheck
    cases hbefore
  · cases hcheck
    exact ⟨_, wait, sequence, status, rfl, hbefore, hlt, hstatus, hready⟩
  · cases hcheck

end Checks

/-! ### The steps of a goal that prepares its trajectory -/

/-- The event is a call of the trajectory node. -/
def ExperimentEvent.callsTrajectory : ExperimentEvent → Bool
  | .setParameters _ | .validate | .reset | .stopTrajectory _ => true
  | _ => false

/-- How a goal has come to where it stands. -/
def Prepares (task : TrackingTask) (node : ExperimentNode) (w : Wakeup) (pc : ExperimentPc)
    (progress : Progress) : Prop :=
  match progress.2 with
  | .configuring _ => progress.1 = [.setParameters (scenarioParameters task)]
  | .validating _ =>
    progress.1 = [.validate] ∧ ∃ runDir successful,
      pc = .configuring runDir ∧ w.reply = .parameters successful
  | .resetting _ _ =>
    progress.1 = [.reset] ∧ ∃ runDir message,
      pc = .validating runDir ∧ w.reply = .trigger true message
  | .waitingReady _ wait =>
    progress.1 = [] ∧ ∃ before nowNs, readyCheck w pc = some (before, nowNs) ∧
      nowNs < before.deadlineNs ∧ wait = markTarget task node before
  | .stoppingRun _ | .done _ =>
    ∀ event, newCall progress.1 = some (.sent event) → event.callsTrajectory = false
  | _ => True

section Resume

variable {task : TrackingTask} {node : ExperimentNode} {w : Wakeup} {cancelRequested : Bool}
  {pc : ExperimentPc} {progress : Progress}

theorem newCall_concat (events : List ExperimentEvent) {event : ExperimentEvent}
    (h : event.isCall = true) : newCall (events ++ [event]) = some (.sent event) := by
  unfold newCall
  rw [List.reverse_append, List.reverse_singleton, List.singleton_append,
    List.find?_cons_of_pos h]
  rfl

/-- Events that tell the client how a goal has ended are no calls. -/
theorem newCall_of_terminal {events : List ExperimentEvent}
    (h : ∀ event ∈ events, event.isTerminal = true) : newCall events = none := by
  unfold newCall
  rw [Option.map_eq_none_iff, List.find?_eq_none]
  intro event hevent hcall
  have hterminal := h event (List.mem_reverse.mp hevent)
  cases event with
  | terminal _ => exact absurd hcall Bool.false_ne_true
  | _ => cases hterminal

theorem prepares_refuse (message : String) : Prepares task node w pc (refuse message) := by
  have hterminal : ∀ event ∈ (refuse message).1, event.isTerminal = true :=
    List.forall_mem_singleton.mpr rfl
  intro event hcall
  rw [newCall_of_terminal hterminal] at hcall
  cases hcall

theorem prepares_stopRun (ending : RunEnd) (events : List ExperimentEvent) :
    Prepares task node w pc ((stopRun ending).after events) := by
  intro event hcall
  rw [Progress.after, stopRun, newCall_concat events rfl] at hcall
  cases hcall
  rfl

theorem newCall_finishRun (ending : RunEnd) : newCall (finishRun ending).1 = none := by
  refine newCall_of_terminal ?_
  unfold finishRun
  split_ifs
  · exact List.forall_mem_singleton.mpr rfl
  · exact List.forall_mem_nil _
  · exact List.forall_mem_singleton.mpr rfl

theorem prepares_finishRun (ending : RunEnd) : Prepares task node w pc (finishRun ending) := by
  intro event hcall
  rw [newCall_finishRun] at hcall
  cases hcall

theorem prepares_closeRun (ending : RunEnd) (events : List ExperimentEvent) :
    Prepares task node w pc ((closeRun task w ending).after events) := by
  unfold closeRun disarmRun setAuthority
  split_ifs
  · exact trivial
  · exact trivial
  · have h : Prepares task node w pc
        ((stopRun ending).after (events ++ [.stopTrajectory false])) := prepares_stopRun ending _
    rwa [Progress.after, List.append_assoc] at h

theorem prepares_failActiveRun (runDir message : String) :
    Prepares task node w pc (failActiveRun task w runDir message) :=
  prepares_closeRun _ []

theorem prepares_runLoop (runDir : String) (startedNs nowNs : ℤ) :
    Prepares task node w pc (runLoop task node w cancelRequested runDir startedNs nowNs) := by
  unfold runLoop
  dsimp only
  split_ifs
  · exact prepares_closeRun _ []
  · exact prepares_closeRun _ _
  · exact trivial
  · exact prepares_closeRun _ []

theorem prepares_awaitArmed (runDir : String) (armGenerationBefore : ℕ) (deadlineNs nowNs : ℤ) :
    Prepares task node w pc
    (awaitArmed task node w runDir armGenerationBefore deadlineNs nowNs) := by
  unfold awaitArmed
  dsimp only
  split_ifs
  · exact trivial
  · exact trivial
  · exact prepares_failActiveRun _ _

theorem prepares_awaitReady {runDir : String} {wait : ReadyWait} {nowNs : ℤ}
    (hcheck : readyCheck w pc = some (wait, nowNs)) :
    Prepares task node w pc (awaitReady task node w runDir wait nowNs) := by
  unfold awaitReady requestArming setAuthority
  dsimp only
  split_ifs with hnow hready hauthority
  · exact trivial
  · exact prepares_failActiveRun _ _
  · exact ⟨rfl, wait, nowNs, hcheck, hnow, rfl⟩
  · exact prepares_failActiveRun _ _

theorem callsTrajectory_of_isNeutral {event : ExperimentEvent} (h : event.isNeutral = true) :
    event.callsTrajectory = false := by
  cases event <;> first | rfl | cases h

theorem prepares_of_harmless (h : Harmless progress) : Prepares task node w pc progress := by
  obtain ⟨hneutral, hpc⟩ := h
  unfold Prepares
  split
  case h_5 => exact fun event hcall =>
    callsTrajectory_of_isNeutral (hneutral _ (mem_of_newCall hcall))
  case h_6 => exact fun event hcall =>
    callsTrajectory_of_isNeutral (hneutral _ (mem_of_newCall hcall))
  case h_7 => exact trivial
  all_goals
    rename_i heq
    rw [heq] at hpc
    rcases hpc with hpc | hpc <;> cases hpc

/-- Every step of a goal. -/
theorem prepares_resume (hresume : resume task node w cancelRequested pc = some progress) :
    Prepares task node w pc progress := by
  unfold resume at hresume
  split at hresume <;> cases hresume
  -- up to the start of the run nothing concerns the trajectory
  case h_1 => exact prepares_of_harmless harmless_beginExecution
  case h_2 accepted _ _ _ =>
    cases accepted with
    | true => exact prepares_of_harmless harmless_requestSelection
    | false => exact prepares_refuse _
  case h_3 accepted _ _ _ =>
    cases accepted with
    | true => exact prepares_of_harmless (harmless_awaitDisarmed _ _)
    | false => exact prepares_refuse _
  case h_4 => exact prepares_of_harmless (harmless_awaitDisarmed _ _)
  case h_5 => exact prepares_refuse _
  -- with the run the parameters are sent
  case h_6 success runDir message _ =>
    cases success with
    | true =>
      rw [if_pos rfl]
      unfold configure
      split_ifs
      · exact rfl
      · exact prepares_failActiveRun _ _
    | false =>
      exact prepares_of_harmless (harmless_disarmUnstarted message)
  -- their answer leads to the validation, and that to the reset
  case h_7 hreply =>
    split_ifs
    · exact prepares_failActiveRun _ _
    · exact ⟨rfl, _, _, rfl, hreply⟩
    · exact prepares_failActiveRun _ _
  case h_8 success message hreply =>
    cases success with
    | false => exact prepares_failActiveRun _ _
    | true =>
      simp only [Bool.not_true, Bool.false_eq_true, if_false]
      split_ifs
      · exact ⟨rfl, _, _, rfl, hreply⟩
      · exact prepares_failActiveRun _ _
  -- after the reset the goal waits for its controller
  case h_9 success message hreply =>
    cases success with
    | true =>
      rw [if_pos rfl]
      exact prepares_awaitReady (by unfold readyCheck; rw [hreply])
    | false => exact prepares_failActiveRun _ _
  case h_10 hreply => exact prepares_awaitReady (by unfold readyCheck; rw [hreply])
  -- from the arm request on the trajectory is left alone
  case h_11 =>
    split_ifs
    · exact prepares_awaitArmed _ _ _ _
    · exact prepares_failActiveRun _ _
  case h_12 => exact prepares_awaitArmed _ _ _ _
  case h_13 =>
    split_ifs
    · exact prepares_runLoop _ _ _
    · exact prepares_failActiveRun _ _
  case h_14 => exact prepares_runLoop _ _ _
  case h_15 =>
    unfold disarmRun setAuthority
    split_ifs
    · exact trivial
    · exact prepares_stopRun _ []
  case h_16 => exact prepares_stopRun _ []
  case h_17 => exact prepares_finishRun _

end Resume

end RobotCore
