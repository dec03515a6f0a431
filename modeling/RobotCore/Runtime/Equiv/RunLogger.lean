import RobotCore.Runtime.Equiv.Experiment
import RobotCore.Runtime.RunLogger

/-!
# The life of a run

* `runs_orderly_iff`: the handlers of a process answer every request, and a request that is refused
  leaves no half-started run and changes nothing, exactly when no request is out of order and no
  step of a handler fails; a second start during a run is refused, and in every run at most one
  recorder process exists.
* `stopRun_before_startRun`: a `StopRun` before the first `StartRun` ends the process.

While the process lives, the recorder is idle or has all its members (`Whole`): every exception
that leaves it between the two ends the process.
-/

namespace RobotCore

open Machine

/-- What a transition may do to the runs: no handler raises, a start that does not succeed leaves no
active run, and a stop without an active run is refused and changes nothing. -/
def KeepsRuns (x : RunLoggerTransition) : Prop :=
  match x.output with
  | .started none | .stopped none => False
  | .started (some response) => response.success = false → x.post.recorder = {}
  | .stopped (some response) =>
    x.pre.recorder.eventLogHandle = false → response.accepted = false ∧ x.post = x.pre
  | .exited => True

/-- A start has a known task, comes when no run is active and none of its steps fails; a stop comes
during a run and none of its steps fails. -/
def OrderlyRun (catalog : TaskCatalog) (x : RunLoggerTransition) : Prop :=
  match x.input with
  | .startRun taskName _ failure _ =>
    x.pre.recorder.eventLogHandle = false ∧ failure = none ∧ (catalog.task taskName).isOk = true
  | .stopRun failure _ => x.pre.recorder.eventLogHandle = true ∧ failure = none
  | .rosbagExits => True

/-! ### One request -/

/-- The recorder of a process that lives is idle or has all its members. -/
def Whole (recorder : RunRecorder) : Prop :=
  recorder = {} ∨ ∃ runDir, recorder = ⟨some runDir, true, true, true⟩

theorem onStartRun_active {s : RunRecorder} (h : s.eventLogHandle = true) (runDir : String)
    (failure : Option StartStage) :
    onStartRun s runDir failure =
      (s, some ⟨false, s.runDirText, "a tracking run is already active"⟩) :=
  if_pos h

theorem onStartRun_idle (runDir : String) :
    onStartRun {} runDir none =
      (⟨some runDir, true, true, true⟩,
        some ⟨true, runDir, "run directory and rosbag recording started"⟩) :=
  rfl

/-- A step that fails is an exception. -/
theorem onStartRun_failure (runDir : String) (stage : StartStage) :
    (onStartRun {} runDir (some stage)).2 = none := by
  cases stage <;> rfl

theorem onStopRun_idle (failure : Option StopStage) : onStopRun {} failure = ({}, none) := by
  cases failure <;> rfl

theorem onStopRun_active (runDir : String) :
    onStopRun ⟨some runDir, true, true, true⟩ none =
      ({}, some ⟨true, runDir, "run log and rosbag recording stopped"⟩) :=
  rfl

theorem onStopRun_failure (s : RunRecorder) (hs : Whole s) (stage : StopStage) :
    (onStopRun s (some stage)).2 = none := by
  rcases hs with rfl | ⟨runDir, rfl⟩ <;> cases stage <;> rfl

theorem onStopRun_answer {s : RunRecorder} (hs : Whole s) {failure : Option StopStage}
    (h : (onStopRun s failure).2.isSome = true) : (onStopRun s failure).1 = {} := by
  cases failure with
  | some stage =>
    rw [onStopRun_failure s hs] at h
    cases h
  | none =>
    rcases hs with rfl | ⟨runDir, rfl⟩
    · cases h
    · rfl

theorem startFailure_eq_none_iff {catalog : TaskCatalog} {taskName : String}
    {failure : Option StartStage} :
    startFailure catalog taskName failure = none ↔
      failure = none ∧ (catalog.task taskName).isOk = true := by
  unfold startFailure
  cases h : catalog.task taskName with
  | ok task => cases failure with
    | none => simp [Except.isOk, Except.toBool]
    | some stage => cases stage <;> simp
  | error message => cases failure with
    | none => simp [Except.isOk, Except.toBool]
    | some stage => cases stage <;> simp

@[simp]
theorem orphans_afterHandler (s : RunLogger) (raised hangs : Bool) :
    (s.afterHandler raised hangs).orphans = s.orphans := by
  unfold RunLogger.afterHandler RunLogger.destroyNode
  split_ifs <;> rfl

theorem afterHandler_raised {s : RunLogger} {raised hangs : Bool}
    (h : (s.afterHandler raised hangs).ended = false) :
    raised = false ∧ s.afterHandler raised hangs = s := by
  cases raised with
  | false => exact ⟨rfl, rfl⟩
  | true =>
    have hended : (s.destroyNode hangs).ended = true := by
      unfold RunLogger.destroyNode
      split_ifs <;> rfl
    exact absurd (hended.symm.trans h) nofun

theorem startsRosbag_active {s : RunRecorder} (h : s.eventLogHandle = true)
    (failure : Option StartStage) : startsRosbag s failure = false := by
  simp [startsRosbag, h]

/-- A second start during a run. -/
theorem startRun_active {s : RunLogger} (h : s.recorder.eventLogHandle = true) (runDir : String)
    (failure : Option StartStage) :
    s.startRun runDir failure =
      (s, some ⟨false, s.recorder.runDirText, "a tracking run is already active"⟩) := by
  unfold RunLogger.startRun
  rw [startsRosbag_active h, onStartRun_active h]
  rfl

theorem orphans_startRun (s : RunLogger) (runDir : String) (failure : Option StartStage) :
    (s.startRun runDir failure).1.orphans = s.orphans ∨
      (s.startRun runDir failure).1.orphans = s.rosbagCount := by
  unfold RunLogger.startRun
  dsimp only
  split_ifs
  · exact Or.inr rfl
  · exact Or.inl rfl

theorem response_startRun (s : RunLogger) (runDir : String) (failure : Option StartStage) :
    (s.startRun runDir failure).2 = (onStartRun s.recorder runDir failure).2 :=
  rfl

theorem response_stopRun (s : RunLogger) (failure : Option StopStage) :
    (s.stopRun failure).2 = (onStopRun s.recorder failure).2 :=
  rfl

theorem recorder_startRun (s : RunLogger) (runDir : String) (failure : Option StartStage) :
    (s.startRun runDir failure).1.recorder = (onStartRun s.recorder runDir failure).1 := by
  unfold RunLogger.startRun
  dsimp only
  split_ifs <;> rfl

/-! ### The states of a process -/

/-- While the process lives its recorder is whole, and an idle one has no process. -/
structure Recording (s : RunLogger) : Prop where
  orphans : s.orphans = 0
  whole : s.ended = false → Whole s.recorder
  idle : s.ended = false → s.recorder.eventLogHandle = false → s.rosbagRuns = false

variable {catalog : TaskCatalog} {tr : RunLoggerHistory} {s s' : RunLogger} {o : RunLoggerOutput}

theorem startRun_cases {taskName runDir : String} {failure : Option StartStage} {hangs : Bool}
    (h : runLoggerStep catalog s (.startRun taskName runDir failure hangs) = some (s', o)) :
    s.ended = false ∧ ∃ stage, startFailure catalog taskName failure = stage ∧
      o = .started (s.startRun runDir stage).2 ∧
      s' = (s.startRun runDir stage).1.afterHandler (s.startRun runDir stage).2.isNone hangs := by
  change (if s.ended then none else some _) = some (s', o) at h
  split_ifs at h with hended
  obtain ⟨rfl, rfl⟩ := Prod.mk.inj (Option.some.inj h)
  exact ⟨Bool.eq_false_iff.mpr hended, _, rfl, rfl, rfl⟩

theorem stopRun_cases {failure : Option StopStage} {hangs : Bool}
    (h : runLoggerStep catalog s (.stopRun failure hangs) = some (s', o)) :
    s.ended = false ∧ o = .stopped (s.stopRun failure).2 ∧
      s' = (s.stopRun failure).1.afterHandler (s.stopRun failure).2.isNone hangs := by
  change (if s.ended then none else some _) = some (s', o) at h
  split_ifs at h with hended
  obtain ⟨rfl, rfl⟩ := Prod.mk.inj (Option.some.inj h)
  exact ⟨Bool.eq_false_iff.mpr hended, rfl, rfl⟩

theorem empty_of_idle {s : RunLogger} (hs : Recording s) (hended : s.ended = false)
    (hidle : s.recorder.eventLogHandle = false) : s.recorder = {} := by
  rcases hs.whole hended with hempty | ⟨runDir, hwhole⟩
  · exact hempty
  · rw [hwhole] at hidle
    cases hidle

theorem recording_startRun (hs : Recording s) {taskName runDir : String}
    {failure : Option StartStage} {hangs : Bool}
    (h : runLoggerStep catalog s (.startRun taskName runDir failure hangs) = some (s', o)) :
    Recording s' := by
  obtain ⟨hended, stage, -, -, rfl⟩ := startRun_cases h
  by_cases hactive : s.recorder.eventLogHandle = true
  · rw [startRun_active hactive]
    exact hs
  have hidle := Bool.eq_false_iff.mpr hactive
  have hempty := empty_of_idle hs hended hidle
  -- a process that lives has answered, and an answer from the idle recorder is a whole run
  have hlive : ∀ {t : RunLogger}, t = (s.startRun runDir stage).1.afterHandler
      (s.startRun runDir stage).2.isNone hangs → t.ended = false →
      t.recorder = ⟨some runDir, true, true, true⟩ := by
    rintro t rfl hlive
    obtain ⟨hanswer, heq⟩ := afterHandler_raised hlive
    rw [heq, recorder_startRun, hempty]
    cases stage with
    | none => rfl
    | some stage =>
      change (onStartRun s.recorder runDir (some stage)).2.isNone = false at hanswer
      rw [hempty, onStartRun_failure] at hanswer
      cases hanswer
  refine ⟨?_, fun h => Or.inr ⟨runDir, hlive rfl h⟩, fun h hhandle => ?_⟩
  · rw [orphans_afterHandler]
    rcases orphans_startRun s runDir stage with h0 | h0
    · rw [h0, hs.orphans]
    · rw [h0, RunLogger.rosbagCount, hs.orphans, hs.idle hended hidle]
      rfl
  · rw [hlive rfl h] at hhandle
    cases hhandle

theorem recording_stopRun (hs : Recording s) {failure : Option StopStage} {hangs : Bool}
    (h : runLoggerStep catalog s (.stopRun failure hangs) = some (s', o)) : Recording s' := by
  obtain ⟨hended, -, rfl⟩ := stopRun_cases h
  have hlive : ∀ {t : RunLogger}, t = (s.stopRun failure).1.afterHandler
      (s.stopRun failure).2.isNone hangs → t.ended = false →
      t.recorder = {} ∧ t.rosbagRuns = false := by
    rintro t rfl hlive
    obtain ⟨hanswer, heq⟩ := afterHandler_raised hlive
    have hrecorder : (onStopRun s.recorder failure).1 = {} :=
      onStopRun_answer (hs.whole hended) (Option.isNone_eq_false_iff.mp hanswer)
    rw [heq]
    refine ⟨hrecorder, ?_⟩
    change (s.rosbagRuns && (onStopRun s.recorder failure).1.rosbagProcess) = false
    rw [hrecorder, Bool.and_false]
  refine ⟨?_, fun h => Or.inl (hlive rfl h).1, fun h _ => (hlive rfl h).2⟩
  rw [orphans_afterHandler]
  exact hs.orphans

theorem rosbagExits_eq (h : runLoggerStep catalog s .rosbagExits = some (s', o)) :
    o = .exited ∧ s' = { s with rosbagRuns := false } := by
  change (if s.rosbagRuns then some _ else none) = some (s', o) at h
  split_ifs at h
  obtain ⟨rfl, rfl⟩ := Prod.mk.inj (Option.some.inj h)
  exact ⟨rfl, rfl⟩

theorem recording_rosbagExits (hs : Recording s)
    (h : runLoggerStep catalog s .rosbagExits = some (s', o)) : Recording s' := by
  obtain ⟨-, rfl⟩ := rosbagExits_eq h
  exact ⟨hs.orphans, hs.whole, fun _ _ => rfl⟩

theorem recording_of_run (h : (runLogger catalog).Run tr s) : Recording s := by
  refine h.invariant (I := fun _ s => Recording s) ⟨rfl, fun _ => Or.inl rfl, fun _ _ => rfl⟩ ?_
  intro tr s i s' o _ hs hstep
  replace hstep : runLoggerStep catalog s i = some (s', o) := hstep
  cases i with
  | startRun taskName runDir failure hangs => exact recording_startRun hs hstep
  | stopRun failure hangs => exact recording_stopRun hs hstep
  | rosbagExits => exact recording_rosbagExits hs hstep

/-! ### The contract -/

/-- One transition from a state of a run. -/
theorem keepsRuns_iff_orderly {x : RunLoggerTransition} (hpre : Recording x.pre)
    (hstep : runLoggerStep catalog x.pre x.input = some (x.post, x.output)) :
    KeepsRuns x ↔ OrderlyRun catalog x := by
  obtain ⟨pre, input, output, post⟩ := x
  dsimp only at hpre hstep
  unfold KeepsRuns OrderlyRun
  cases input with
  | startRun taskName runDir failure hangs =>
    obtain ⟨hended, stage, hstage, rfl, rfl⟩ := startRun_cases hstep
    dsimp only
    rw [← startFailure_eq_none_iff, hstage]
    by_cases hactive : pre.recorder.eventLogHandle = true
    · rw [startRun_active hactive]
      refine iff_of_false (fun h => ?_) (by simp [hactive])
      have hempty : pre.recorder = {} := h rfl
      rw [hempty] at hactive
      cases hactive
    · have hempty := empty_of_idle hpre hended (Bool.eq_false_iff.mpr hactive)
      rw [response_startRun, hempty]
      cases stage with
      | none => simp [onStartRun_idle]
      | some stage => simp [onStartRun_failure]
  | stopRun failure hangs =>
    obtain ⟨hended, rfl, -⟩ := stopRun_cases hstep
    rw [response_stopRun]
    cases failure with
    | some stage => simp [onStopRun_failure _ (hpre.whole hended)]
    | none =>
      rcases hpre.whole hended with hempty | ⟨runDir, hwhole⟩
      · simp [hempty, onStopRun_idle]
      · simp [hwhole, onStopRun_active]
  | rosbagExits =>
    obtain ⟨rfl, -⟩ := rosbagExits_eq hstep
    exact Iff.rfl

/-- **The life of a run.** -/
theorem runs_orderly_iff (h : (runLogger catalog).Run tr s) :
    ((∀ x ∈ tr, KeepsRuns x) ↔ ∀ x ∈ tr, OrderlyRun catalog x) ∧
      (∀ x ∈ tr, ∀ taskName runDir failure hangs,
        x.input = .startRun taskName runDir failure hangs →
        x.pre.recorder.eventLogHandle = true →
        x.post = x.pre ∧
          x.output = .started (some
            ⟨false, x.pre.recorder.runDirText, "a tracking run is already active"⟩)) ∧
      s.rosbagCount ≤ 1 := by
  refine ⟨?_, ?_, ?_⟩
  · refine forall₂_congr fun x hx => ?_
    obtain ⟨after, before, rfl⟩ := List.append_of_mem hx
    have hrun := h.split
    exact keepsRuns_iff_orderly (recording_of_run hrun.tail) hrun.head_step
  · intro x hx taskName runDir failure hangs hinput hactive
    have hstep := h.step_of_mem hx
    rw [hinput] at hstep
    obtain ⟨-, stage, -, houtput, hpost⟩ := startRun_cases hstep
    rw [startRun_active hactive] at houtput hpost
    exact ⟨hpost, houtput⟩
  · rw [RunLogger.rosbagCount, (recording_of_run h).orphans, Nat.zero_add]
    exact Bool.toNat_le _

/-- A catalog of one task. -/
def sampleCatalog : TaskCatalog where
  tasks := [(sampleTask.name, sampleTask)]

/-- A run of the sample task and its end. -/
def sampleRun : RunLoggerHistory :=
  [⟨{ recorder := ⟨some "run", true, true, true⟩, rosbagRuns := true }, .stopRun none false,
      .stopped (some ⟨true, "run", "run log and rosbag recording stopped"⟩), {}⟩,
    ⟨{}, .startRun sampleTask.name "run" none false,
      .started (some ⟨true, "run", "run directory and rosbag recording started"⟩),
      { recorder := ⟨some "run", true, true, true⟩, rosbagRuns := true }⟩]

theorem run_sampleRun : (runLogger sampleCatalog).Run sampleRun {} :=
  .step (.step .start (by decide +kernel)) (by decide +kernel)

theorem runs_orderly_iff_sampleRun :
    ((∀ x ∈ sampleRun, KeepsRuns x) ↔ ∀ x ∈ sampleRun, OrderlyRun sampleCatalog x) ∧
      (∀ x ∈ sampleRun, ∀ taskName runDir failure hangs,
        x.input = .startRun taskName runDir failure hangs →
        x.pre.recorder.eventLogHandle = true →
        x.post = x.pre ∧
          x.output = .started (some
            ⟨false, x.pre.recorder.runDirText, "a tracking run is already active"⟩)) ∧
      RunLogger.rosbagCount {} ≤ 1 :=
  runs_orderly_iff run_sampleRun

/-- A `StopRun` before the first `StartRun` raises, and the process ends. -/
theorem stopRun_before_startRun (catalog : TaskCatalog) :
    (runLogger catalog).Run [⟨{}, .stopRun none false, .stopped none, { ended := true }⟩]
      { ended := true } :=
  .step .start rfl

theorem not_keepsRuns_stopRun :
    ¬ ∀ tr s, (runLogger sampleCatalog).Run tr s → ∀ x ∈ tr, KeepsRuns x :=
  fun h => h _ _ (stopRun_before_startRun sampleCatalog) _ List.mem_cons_self

end RobotCore
