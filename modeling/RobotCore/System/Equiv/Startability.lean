import RobotCore.Pid.Status
import RobotCore.Runtime.Equiv.TaskCatalog
import RobotCore.Trajectory.State

/-!
# Which tasks can be started

The catalog, the trajectory node and the PID node each have a table of control modes, and the two
nodes one of trajectory types.  The catalog takes any type of trajectory.  Where the type is one of
the trajectory node, the three tables agree on the tasks of a catalog, and where it is not, both
nodes refuse (`startable_iff`).
-/

namespace RobotCore

/-! ### The tables -/

theorem toLower_of_mem_controlModes {controlMode : String} (h : controlMode ∈ controlModes) :
    controlMode.toLower = controlMode := by
  revert controlMode
  decide +kernel

theorem toLower_hold : "hold".toLower = "hold" := by decide +kernel

theorem not_isAutomatic_hold : isAutomatic "hold" = false := by decide

/-- A mode of the catalog which is no hold of the altitude has a station target. -/
theorem isStation_of_mem_controlModes {controlMode : String} (h : controlMode ∈ controlModes)
    (hne : controlMode ≠ "altitude_hold") : isStation controlMode = true := by
  revert controlMode
  decide

theorem mem_pidModes {controlMode : String} (h : controlMode ∈ controlModes)
    (hne : controlMode ≠ "rl_policy") :
    controlMode ∈ ["altitude_hold", "station_hold", "station_hold_fast"] := by
  revert controlMode
  decide

theorem mem_stationPidModes {controlMode : String} (h : controlMode ∈ controlModes)
    (hne : controlMode ≠ "rl_policy") (hne' : controlMode ≠ "altitude_hold") :
    controlMode ∈ ["station_hold", "station_hold_fast"] := by
  revert controlMode
  decide

section Task

variable {py : PyRepr} {scenarios : List (String × Scenario)} {rawTaskId : Yaml}
  {task : TrackingTask}

theorem Resolved.toLower_controlMode (h : Resolved py scenarios rawTaskId task) :
    task.controlMode.toLower = task.controlMode :=
  toLower_of_mem_controlModes h.controlMode

/-- An automatic trajectory does not hold the altitude. -/
theorem Resolved.ne_altitudeHold (h : Resolved py scenarios rawTaskId task)
    (hautomatic : isAutomatic task.trajectory.trajectoryType.toLower = true) :
    task.controlMode ≠ "altitude_hold" := by
  intro hmode
  rw [h.altitudeHold hmode, toLower_hold, not_isAutomatic_hold] at hautomatic
  cases hautomatic

theorem Resolved.ne_rlPolicy (h : Resolved py scenarios rawTaskId task)
    (hpid : task.controller = .pid) : task.controlMode ≠ "rl_policy" := by
  intro hmode
  rw [h.controller, hmode] at hpid
  cases hpid

/-- The trajectory node refuses a task for its type only. -/
theorem Resolved.controlModeIsCompatible_eq (h : Resolved py scenarios rawTaskId task) :
    controlModeIsCompatible task.trajectory.trajectoryType.toLower task.controlMode.toLower =
      isManaged task.trajectory.trajectoryType.toLower := by
  rw [h.toLower_controlMode, controlModeIsCompatible, isManaged]
  split
  · next hhold =>
    rw [hhold, Bool.true_or]
    by_cases hmode : task.controlMode = "altitude_hold"
    · rw [hmode]
      rfl
    · rw [isStation_of_mem_controlModes h.controlMode hmode, Bool.or_true]
  · next hhold =>
    rw [Bool.eq_false_iff.mpr hhold, Bool.false_or]
    cases hautomatic : isAutomatic task.trajectory.trajectoryType.toLower with
    | false => rfl
    | true => rw [isStation_of_mem_controlModes h.controlMode (h.ne_altitudeHold hautomatic)]; rfl

/-- So does the PID node. -/
theorem Resolved.compatibleTarget_eq (h : Resolved py scenarios rawTaskId task)
    (hpid : task.controller = .pid) :
    compatibleTarget task.trajectory.trajectoryType.toLower task.controlMode.toLower =
      isManaged task.trajectory.trajectoryType.toLower := by
  have hrl := h.ne_rlPolicy hpid
  have hmodes := List.contains_iff_mem.mpr (mem_pidModes h.controlMode hrl)
  have hidle : (task.controlMode == "idle") = false := by
    refine Bool.eq_false_iff.mpr fun hidle => ?_
    have := h.controlMode
    rw [beq_iff_eq.mp hidle] at this
    revert this
    decide
  rw [h.toLower_controlMode, compatibleTarget, isManaged, hidle, hmodes, Bool.and_false,
    Bool.false_or, Bool.and_true]
  refine congrArg _ ?_
  cases hautomatic : isAutomatic task.trajectory.trajectoryType.toLower with
  | false => exact (congrArg (· && _) hautomatic).trans (Bool.false_and _)
  | true =>
    rw [List.contains_iff_mem.mpr
      (mem_stationPidModes h.controlMode hrl (h.ne_altitudeHold hautomatic)), Bool.and_true]
    exact hautomatic

theorem Resolved.controlMode_mem_pidControlModes (h : Resolved py scenarios rawTaskId task)
    (hpid : task.controller = .pid) :
    pidControlModes.contains task.controlMode.toLower = true := by
  rw [h.toLower_controlMode]
  exact List.contains_iff_mem.mpr
    (List.mem_cons_of_mem _ (mem_pidModes h.controlMode (h.ne_rlPolicy hpid)))

end Task

/-! ### The missing inputs of the PID node -/

/-- What `input_status` reports of the type, the mode and the pairing of a target. -/
def pairingReasons : List String :=
  ["unsupported_trajectory_type", "unsupported_control_mode",
    "incompatible_trajectory_control_mode"]

theorem mem_missingIf {condition : Bool} {reason reason' : String} :
    reason' ∈ missingIf condition reason ↔ condition = true ∧ reason' = reason := by
  unfold missingIf
  cases condition <;> simp

/-- A managed type is one of the PID node. -/
theorem contains_pidTrajectoryTypes {trajectoryType : String}
    (h : isManaged trajectoryType = true) : pidTrajectoryTypes.contains trajectoryType = true := by
  rw [isManaged, Bool.or_eq_true, beq_iff_eq] at h
  rcases h with rfl | h
  · decide
  · exact List.contains_iff_mem.mpr
      (List.mem_cons_of_mem _ (List.mem_cons_of_mem _ (List.contains_iff_mem.mp h)))

/-- The reasons depend on the target only. -/
theorem pairingReasons_iff {node : PidReadiness} {target : ScenarioTarget} {stampNs nowNs : ℤ}
    (htarget : node.target = some (target, stampNs)) :
    (∀ reason ∈ pairingReasons, reason ∉ node.missingInputs nowNs) ↔
      pidTrajectoryTypes.contains target.trajectoryType.toLower = true ∧
      pidControlModes.contains target.controlMode.toLower = true ∧
      compatibleTarget target.trajectoryType.toLower target.controlMode.toLower = true := by
  -- The other reasons have other texts, whether there is a body or not.
  cases hbody : node.body <;>
    simp [pairingReasons, PidReadiness.missingInputs, htarget, hbody, mem_missingIf]

/-! ### The agreement of the tables -/

/-- **Starting a task.**  A task of a catalog is accepted by the trajectory node if and only if its
type of trajectory is a hold or an automatic one; if it is controlled by the PID node, that node
has no objection to the type, the mode and the pairing of its target in the same case. -/
theorem startable_iff {py : PyRepr} {path : String} {root : Yaml} {catalog : TaskCatalog}
    (hload : TaskCatalog.loadFile py path root = .ok catalog) {taskId : String}
    {task : TrackingTask} (htask : (taskId, task) ∈ catalog.tasks) :
    controlModeIsCompatible task.trajectory.trajectoryType.toLower task.controlMode.toLower =
      isManaged task.trajectory.trajectoryType.toLower ∧
    (task.controller = .pid → ∀ (node : PidReadiness) (target : ScenarioTarget) (stampNs nowNs : ℤ),
      node.target = some (target, stampNs) →
      target.trajectoryType = task.trajectory.trajectoryType →
        target.controlMode = task.controlMode →
      ((∀ reason ∈ pairingReasons, reason ∉ node.missingInputs nowNs) ↔
        isManaged task.trajectory.trajectoryType.toLower = true)) := by
  obtain ⟨document, -, hload⟩ := bind_eq_ok_iff.mp hload
  obtain ⟨rawScenarios, rawTasks, defaults, scenarios, hloaded⟩ := loaded_of_load hload
  obtain ⟨rawTaskId, hresolved⟩ := hloaded.resolved _ htask
  refine ⟨hresolved.controlModeIsCompatible_eq, fun hpid node target stampNs nowNs htarget htype
    hmode => ?_⟩
  rw [pairingReasons_iff htarget, htype, hmode, hresolved.compatibleTarget_eq hpid]
  constructor
  · exact fun h => h.2.2
  · exact fun h =>
      ⟨contains_pidTrajectoryTypes h, hresolved.controlMode_mem_pidControlModes hpid, h⟩

/-- A catalog with one task, a station hold along a path of the type. -/
def stationDocument (trajectoryType : String) : List (Yaml × Yaml) :=
  [(.string "schema_version", .int 1),
    (.string "defaults", .mapping
      [(.string "duration_s", .int 60), (.string "run_until_stopped", .bool false)]),
    (.string "scenarios", .mapping
      [(.string trajectoryType, .mapping
          [(.string "trajectory_type", .string trajectoryType),
            (.string "attitude_mode", .string "path_tangent")])]),
    (.string "tasks", .mapping
      [(.string trajectoryType, .mapping
          [(.string "label", .string trajectoryType), (.string "scenario", .string trajectoryType),
            (.string "control_mode", .string "station_hold")])])]

/-- The catalog loads, with a task for the PID node. -/
def HasStationTask (trajectoryType : String) (catalog : TaskCatalog) (task : TrackingTask) : Prop :=
  TaskCatalog.loadFile plainRepr "tracking_tasks.yaml" (.mapping (stationDocument trajectoryType)) =
      .ok catalog ∧ (trajectoryType, task) ∈ catalog.tasks ∧ task.controller = .pid ∧
    task.trajectory.trajectoryType = trajectoryType ∧ task.controlMode = "station_hold"

theorem exists_stationTask (trajectoryType : String)
    (hcheck : (TaskCatalog.loadFile plainRepr "tracking_tasks.yaml"
      (.mapping (stationDocument trajectoryType))).toOption.any (fun catalog =>
        (catalog.tasks.lookup trajectoryType).any fun task => decide (task.controller = .pid) &&
          task.trajectory.trajectoryType == trajectoryType && task.controlMode == "station_hold") =
            true) : ∃ catalog task, HasStationTask trajectoryType catalog task := by
  obtain ⟨catalog, hload, h⟩ := exists_ok_of_any hcheck
  obtain ⟨task, hlookup, h⟩ := (Option.any_eq_true _ _).mp h
  simp only [Bool.and_eq_true, decide_eq_true_eq, beq_iff_eq] at h
  exact ⟨catalog, task, hload, mem_of_lookup hlookup, h.1.1, h.1.2, h.2⟩

/-- Both nodes accept a circle and refuse a spiral. -/
theorem startable_iff_circle_spiral :
    (∃ catalog task, HasStationTask "circle" catalog task ∧
      controlModeIsCompatible task.trajectory.trajectoryType.toLower task.controlMode.toLower =
        true ∧
      ∀ (node : PidReadiness) (target : ScenarioTarget) (stampNs nowNs : ℤ),
        node.target = some (target, stampNs) →
        target.trajectoryType = task.trajectory.trajectoryType →
        target.controlMode = task.controlMode →
        ∀ reason ∈ pairingReasons, reason ∉ node.missingInputs nowNs) ∧
    ∃ catalog task, HasStationTask "spiral" catalog task ∧
      controlModeIsCompatible task.trajectory.trajectoryType.toLower task.controlMode.toLower =
        false ∧
      ∀ (node : PidReadiness) (target : ScenarioTarget) (stampNs nowNs : ℤ),
        node.target = some (target, stampNs) →
        target.trajectoryType = task.trajectory.trajectoryType →
        target.controlMode = task.controlMode →
        ∃ reason ∈ pairingReasons, reason ∈ node.missingInputs nowNs := by
  constructor
  · obtain ⟨catalog, task, htask⟩ := exists_stationTask "circle" (by decide +kernel)
    obtain ⟨hload, hmem, hpid, htype, -⟩ := id htask
    have hmanaged : isManaged task.trajectory.trajectoryType.toLower = true := by
      rw [htype]
      decide +kernel
    obtain ⟨haccepted, hready⟩ := startable_iff hload hmem
    exact ⟨catalog, task, htask, haccepted.trans hmanaged,
      fun node target stampNs nowNs htarget htype hmode =>
        (hready hpid node target stampNs nowNs htarget htype hmode).mpr hmanaged⟩
  · obtain ⟨catalog, task, htask⟩ := exists_stationTask "spiral" (by decide +kernel)
    obtain ⟨hload, hmem, hpid, htype, -⟩ := id htask
    have hmanaged : isManaged task.trajectory.trajectoryType.toLower = false := by
      rw [htype]
      decide +kernel
    obtain ⟨haccepted, hready⟩ := startable_iff hload hmem
    refine ⟨catalog, task, htask, haccepted.trans hmanaged,
      fun node target stampNs nowNs htarget htype hmode => ?_⟩
    by_contra hnone
    push Not at hnone
    have h := (hready hpid node target stampNs nowNs htarget htype hmode).mp hnone
    exact absurd (h.symm.trans hmanaged) (by decide)

/-- The catalog loads, and the trajectory node refuses its task. -/
theorem not_compatible_spiral :
    ∃ catalog task, HasStationTask "spiral" catalog task ∧
      controlModeIsCompatible task.trajectory.trajectoryType.toLower task.controlMode.toLower =
        false := by
  obtain ⟨catalog, task, htask⟩ := exists_stationTask "spiral" (by decide +kernel)
  obtain ⟨-, -, -, htype, hmode⟩ := id htask
  refine ⟨catalog, task, htask, ?_⟩
  rw [htype, hmode]
  decide +kernel

end RobotCore
