import RobotCore.Runtime.Equiv.TaskCatalog
import RobotCore.System.Equiv.Readiness.Call

/-!
# When a controller is ready

A goal takes its controller to be ready once a ready status arrives after a target of its scenario.
The two come over links of their own, so that the status can be one of the idle phase before the
reset (`idle_status_taken_for_ready`).  It is one for a target of the reset scenario in every run in
which, whenever a goal first sees that target, nothing older is left with the PID node or on its way
to it and no older status is on its way to the server (`ready_status_of_reset`).
-/

namespace RobotCore

open Ieee Machine Scalar

section System

variable {α : Type} [Scalar α] {ofDouble : Binary64 → α} {catalog : TaskCatalog}
  {requests : ℕ → String}
  {task : TrackingTask} {s s' : ReadinessSystem α} {i : ℕ}

/-! ### Runs -/

theorem readinessInvariant_step (h : ReadinessInvariant catalog requests s)
    (htype : ∀ t task, catalog.task t = .ok task → (task.trajectory .trajectoryType).isSome)
    {input : ReadinessInput α} {events : List ExperimentEvent}
    (hstep : readinessStep ofDouble catalog requests s input = some (s', events))
    (hsees : seesUndelayed catalog requests ⟨s, input, events, s'⟩ = true) :
    ReadinessInvariant catalog requests s' := by
  cases input with
  | resume i w => exact h.resume hstep hsees
  | cancel i =>
    cases hstep
    refine h.frame (fun j => ?_) rfl rfl ⟨rfl, rfl⟩ (fun htargets => htargets)
      (fun _ _ _ h => ⟨h.links, h.latest⟩) h.requested h.held h.unselected h.latest
    by_cases hji : j = i
    · subst hji
      simp
    · simp [hji]
  | authority message =>
    cases hstep
    exact h.receive nofun
  | policy message =>
    cases hstep
    exact h.receive nofun
  | serve i nowNs reply =>
    obtain ⟨t, hserve, heq⟩ := Option.map_eq_some_iff.mp hstep
    cases heq
    exact h.serve htype hserve
  | bodyPose msg =>
    cases hstep
    exact h.withTrajectory (keepsTracking_onBodyPose _ msg)
  | imu msg =>
    cases hstep
    exact h.withTrajectory (sameScenario_onImu _ msg).keepsTracking
  | manualCommand msg nowNs =>
    cases hstep
    exact h.withTrajectory (sameScenario_onManualCommand _ msg nowNs).keepsTracking
  | operatorTargetInput msg nowNs =>
    cases hstep
    exact h.withTrajectory ⟨rfl, rfl⟩
  | trajectoryTick nowNs =>
    cases hstep
    exact h.publishTarget nowNs
  | pidSelection message =>
    cases hstep
    exact h.selectPid message
  | pidBody message nowNs =>
    cases hstep
    unfold onPidBody
    split_ifs
    · exact h.withPid rfl rfl
    · exact h.withPid rfl rfl
  | pidImu nowNs =>
    cases hstep
    unfold onPidImu
    split_ifs
    · exact h.withPid rfl rfl
    · exact h.withPid rfl rfl
  | pidTick nowNs law =>
    cases hstep
    exact h.publishStatus nowNs law
  | targetToPid skipped nowNs =>
    obtain ⟨t, hdeliver, heq⟩ := Option.map_eq_some_iff.mp hstep
    cases heq
    exact h.deliverTargetToPid hdeliver
  | targetToServer skipped =>
    obtain ⟨t, hdeliver, heq⟩ := Option.map_eq_some_iff.mp hstep
    cases heq
    exact h.deliverTargetToServer hdeliver
  | statusToServer skipped =>
    obtain ⟨t, hdeliver, heq⟩ := Option.map_eq_some_iff.mp hstep
    cases heq
    exact h.deliverStatusToServer hdeliver

variable {config : TrajectoryConfig α} {configured : Bool} {maxInputAgeS controlRateHz : Binary64}
  {tr : ReadinessHistory α}

theorem readinessInvariant_of_run
    (hrun : (readinessSystem ofDouble catalog requests config configured maxInputAgeS
      controlRateHz).Run tr s)
    (htype : ∀ t task, catalog.task t = .ok task → (task.trajectory .trajectoryType).isSome)
    (hsees : ∀ x ∈ tr, seesUndelayed catalog requests x = true) :
    ReadinessInvariant catalog requests s := by
  refine hrun.invariant_of (I := fun _ s => ReadinessInvariant catalog requests s) ?_ ?_ hsees
  · exact ⟨fun _ _ => quiet_none (Or.inl rfl), fun _ _ heq => (by cases heq), le_rfl,
      fun _ _ heq => (by cases heq), fun _ => ⟨rfl, rfl⟩, fun _ heq => (by cases heq)⟩
  · exact fun _ s input s' events _ h hstep hsees => readinessInvariant_step h htype hstep hsees

/-- The status the server has seen last comes from a tick that has used a target of the scenario of
the task, published after the last reset request. -/
def StatusOfReset (task : TrackingTask) (s : ReadinessSystem α) : Prop :=
  ∃ j used k target, s.latestStatus = some j ∧ s.statuses[j]? = some used ∧
    s.server.node.latestPidStatus = some used.status ∧ used.target = some k ∧
      s.resetRequested ≤ k ∧ s.targets[k]? = some target ∧
        target.trajectoryType = task.trajectory.trajectoryType.toLower ∧
          target.controlMode = task.controlMode.toLower

omit [Scalar α] in
theorem ReadinessInvariant.statusOfReset (h : ReadinessInvariant catalog requests s) {w : Wakeup}
    (htask : catalog.task (requests i) = .ok task) (hpid : task.controller = .pid)
    (hready : trackingReady task s.server.node w (s.server.goals i).pc = true) :
    StatusOfReset task s := by
  obtain ⟨runDir, wait, sequence, status, hpc, hmark, hlt, hstatus, hready⟩ :=
    ready_cases hpid hready
  have hactive : s.active = some i := by
    by_contra hactive
    have hstands := (h.quiet i hactive).stands
    rw [hpc] at hstands
    rcases hstands with h | h | h <;> cases h
  have hstage := h.stage i task hactive htask
  rw [hpc] at hstage
  obtain ⟨-, ⟨htype, hmode⟩, -, hreset, hwait⟩ := hstage
  obtain ⟨j, used, hj, hused, rfl⟩ := h.latest status hstatus
  have huses := (hwait hpid sequence hmark).latest hlt j hj
  unfold ReadinessSystem.usesReset at huses
  rw [hused, Option.all_some, hready, Bool.not_true, Bool.false_or, Option.any_eq_true] at huses
  obtain ⟨k, hk, hk'⟩ := huses
  unfold ReadinessSystem.ofReset at hk'
  rw [Bool.and_eq_true, decide_eq_true_eq, Option.any_eq_true] at hk'
  obtain ⟨hle, target, htarget, hidle⟩ := hk'
  rcases hreset k target hle htarget with heq | ⟨htype', hmode'⟩
  · exact absurd heq (bne_iff_ne.mp hidle)
  · exact ⟨j, used, k, target, hj, hused, hstatus, hk, hle, htarget, htype'.trans htype,
      hmode'.trans hmode⟩

/-- **Ready controllers.**  When a goal takes the PID controller to be ready, the status it relies
on comes from a tick that has used a target of its scenario published after the reset was requested:
in every run in which nothing older is left with the PID node, or on the way to it or from it,
whenever a goal first sees the target of its scenario. -/
theorem ready_status_of_reset {py : PyRepr} {document : List (Yaml × Yaml)}
    (hload : TaskCatalog.load py document = .ok catalog)
    (hrun : (readinessSystem ofDouble catalog requests config configured maxInputAgeS
      controlRateHz).Run tr s)
    (hsees : ∀ x ∈ tr, seesUndelayed catalog requests x = true) :
    ∀ x ∈ tr, ∀ i w, x.input = .resume i w → ∀ task, catalog.task (requests i) = .ok task →
      task.controller = .pid →
        trackingReady task x.pre.server.node w (x.pre.server.goals i).pc = true →
          StatusOfReset task x.pre := by
  intro x hx i w _ task htask hpid hready
  obtain ⟨after, before, rfl⟩ := List.append_of_mem hx
  have hinvariant := readinessInvariant_of_run hrun.split.tail
    (fun t task htask => hasType_of_load hload htask)
    (fun y hy => hsees y (List.mem_append_right _ (List.mem_cons_of_mem _ hy)))
  exact hinvariant.statusOfReset htask hpid hready

end System

/-! ### A status of the idle phase -/

section Idle

attribute [local instance] restingScalar

/-- A hold, and a task with it. -/
def holdDocument : List (Yaml × Yaml) :=
  [(.string "schema_version", .int 1),
    (.string "defaults", .mapping
      [(.string "duration_s", .int 60), (.string "run_until_stopped", .bool false)]),
    (.string "scenarios", .mapping
      [(.string "still", .mapping
          [(.string "trajectory_type", .string "hold"),
            (.string "attitude_mode", .string "level_heading")])]),
    (.string "tasks", .mapping
      [(.string "still", .mapping
          [(.string "label", .string "still"), (.string "scenario", .string "still"),
            (.string "control_mode", .string "station_hold")])])]

/-- The three nodes with the task of a catalog. -/
def holdSystem (catalog : TaskCatalog) :
    Machine (ReadinessSystem Binary64) (ReadinessInput Binary64) (List ExperimentEvent) :=
  readinessSystem id catalog (fun _ => "still") { holdConfig with controlMode := "idle" } true
    (double (1 / 4)) (double 50)

/-- The sensors deliver, and the PID node is selected. -/
def measuredInputs : List (ReadinessInput Binary64) :=
  [.bodyPose ⟨true, true, ⟨double (1 / 2), double (1 / 2), double (1 / 2)⟩, level⟩,
    .imu ⟨"base_link", double 0, level, ⟨double 0, double 0, double 0⟩⟩,
    .pidSelection { selectedSource := "pid" }, .pidBody ⟨true, true, true, true⟩ 0, .pidImu 0]

/-- A call is served and the goal goes on with the answer. -/
def answered (reply : ServiceReply) : List (ReadinessInput Binary64) :=
  [.serve 0 0 reply, .resume 0 (wakeAt 0 reply)]

/-- A goal up to its reset request. -/
def resettingInputs : List (ReadinessInput Binary64) :=
  [.authority ⟨false, false, "pid", 0⟩, .resume 0 (wakeAt 0 .begin)] ++
  answered (.authority true false "disarmed") ++
  answered (.authority true false "disarmed") ++
  answered (.startRun true "/runs/a" "started") ++
  answered (.parameters [true, true, true]) ++
  answered (.trigger true "trajectory envelope is inside all configured limits")

/-- The reset is served, and its target published and delivered to the server. -/
def resetInputs : List (ReadinessInput Binary64) :=
  answered (.trigger true "trajectory tracking started at 0.00 s") ++
  [.trajectoryTick 0, .targetToServer 0]

/-- The PID node has the target of the reset before the server. -/
def promptInputs : List (ReadinessInput Binary64) :=
  measuredInputs ++ resettingInputs ++ resetInputs ++
  [.targetToPid 0 0, .resume 0 (wakeAt 0 .timer), .pidTick 0 .command, .statusToServer 0,
    .resume 0 (wakeAt 0 .timer)]

/-- A status of a tick with an idle target is delivered after the target of the reset. -/
def idleInputs : List (ReadinessInput Binary64) :=
  measuredInputs ++ [.trajectoryTick 0, .targetToPid 0 0] ++ resettingInputs ++
  [.pidTick 0 .command] ++ answered (.trigger true "trajectory tracking started at 0.00 s") ++
  [.trajectoryTick 0, .targetToServer 1, .resume 0 (wakeAt 0 .timer), .statusToServer 0,
    .resume 0 (wakeAt 0 .timer)]

/-- The goal with the task of the catalog has a ready PID controller at the transition. -/
def findsReady (catalog : TaskCatalog) (x : ReadinessTransition Binary64) : Bool :=
  match x.input, catalog.task "still" with
  | .resume i w, .ok task =>
    decide (task.controller = .pid) &&
      trackingReady task x.pre.server.node w (x.pre.server.goals i).pc
  | _, _ => false

theorem ready_of_findsReady {catalog : TaskCatalog} {x : ReadinessTransition Binary64}
    (h : findsReady catalog x = true) :
    ∃ i w task, x.input = .resume i w ∧ catalog.task "still" = .ok task ∧ task.controller = .pid ∧
      trackingReady task x.pre.server.node w (x.pre.server.goals i).pc = true := by
  unfold findsReady at h
  split at h
  · rw [Bool.and_eq_true] at h
    exact ⟨_, _, _, ‹_›, ‹_›, of_decide_eq_true h.1, h.2⟩
  · cases h

/-- What there is to check of a catalog and a run of its system. -/
theorem exists_run_of_check (inputs : List (ReadinessInput Binary64))
    (check : TaskCatalog → ReadinessTransition Binary64 → ReadinessHistory Binary64 → Bool)
    (h : (TaskCatalog.load plainRepr holdDocument).toOption.any (fun catalog =>
      (holdSystem catalog).execCheck inputs fun x tr =>
        findsReady catalog x && check catalog x tr) = true) :
    ∃ catalog, TaskCatalog.load plainRepr holdDocument = .ok catalog ∧
      ∃ x tr s i w task, (holdSystem catalog).Run (x :: tr) s ∧ x.input = .resume i w ∧
        catalog.task "still" = .ok task ∧ task.controller = .pid ∧
          trackingReady task x.pre.server.node w (x.pre.server.goals i).pc = true ∧
            check catalog x tr = true := by
  obtain ⟨catalog, hload, h⟩ := exists_ok_of_any h
  obtain ⟨x, tr, s, hrun, h⟩ := run_of_execCheck _ inputs _ h
  rw [Bool.and_eq_true] at h
  obtain ⟨i, w, task, hinput, htask, hpid, hready⟩ := ready_of_findsReady h.1
  exact ⟨catalog, hload, x, tr, s, i, w, task, hrun, hinput, htask, hpid, hready, h.2⟩

theorem ready_status_of_reset_promptInputs :
    ∃ catalog, TaskCatalog.load plainRepr holdDocument = .ok catalog ∧
      ∃ x tr s i w task, (holdSystem catalog).Run (x :: tr) s ∧
        (∀ y ∈ x :: tr, seesUndelayed catalog (fun _ => "still") y = true) ∧
          x.input = .resume i w ∧ catalog.task "still" = .ok task ∧ task.controller = .pid ∧
            trackingReady task x.pre.server.node w (x.pre.server.goals i).pc = true ∧
              StatusOfReset task x.pre := by
  obtain ⟨catalog, hload, x, tr, s, i, w, task, hrun, hinput, htask, hpid, hready, hsees⟩ :=
    exists_run_of_check promptInputs
      (fun catalog x tr => (x :: tr).all (seesUndelayed catalog fun _ => "still"))
      (by decide +kernel)
  rw [List.all_eq_true] at hsees
  exact ⟨catalog, hload, x, tr, s, i, w, task, hrun, hsees, hinput, htask, hpid, hready,
    ready_status_of_reset hload hrun hsees x List.mem_cons_self i w hinput task htask hpid hready⟩

/-- The status the server has seen last comes from a tick with a target of before the reset. -/
def relyingOnOlder (s : ReadinessSystem Binary64) : Bool :=
  s.latestStatus.any fun j =>
    s.statuses[j]?.any fun used => used.target.any fun k => decide (k < s.resetRequested)

/-- A goal takes the controller to be ready for a status of the idle phase before the reset. -/
theorem idle_status_taken_for_ready :
    ∃ catalog, TaskCatalog.load plainRepr holdDocument = .ok catalog ∧
      ¬ ∀ tr s, (holdSystem catalog).Run tr s → ∀ x ∈ tr, ∀ i w, x.input = .resume i w →
        ∀ task, catalog.task "still" = .ok task → task.controller = .pid →
          trackingReady task x.pre.server.node w (x.pre.server.goals i).pc = true →
            StatusOfReset task x.pre := by
  obtain ⟨catalog, hload, x, tr, s, i, w, task, hrun, hinput, htask, hpid, hready, holder⟩ :=
    exists_run_of_check idleInputs (fun _ x _ => relyingOnOlder x.pre)
      (by decide +kernel)
  refine ⟨catalog, hload, fun h => ?_⟩
  obtain ⟨j, used, k, -, hj, hused, -, hk, hle, -⟩ :=
    h _ s hrun x List.mem_cons_self i w hinput task htask hpid hready
  unfold relyingOnOlder at holder
  rw [hj, Option.any_some, hused, Option.any_some, hk, Option.any_some] at holder
  exact absurd (of_decide_eq_true holder) (not_lt_of_ge hle)

end Idle

end RobotCore
