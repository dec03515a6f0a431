import RobotCore.Runtime.Equiv.TaskCatalog

/-!
# The keys of a catalog

The loader refuses a mapping with two equal keys, and the constructor stores a scenario and a task
under the text of its key.  Keys of different types may have one text; a later one then overwrites
an earlier one.  A catalog that loads has lost nothing exactly when the texts of its keys are
distinct (`losesNothing_iff`).
-/

namespace RobotCore

variable {py : PyRepr}

/-! ### The loader -/

mutual

/-- The loader gives back the document it accepts. -/
theorem eq_of_construct :
    ∀ (node : Yaml) {value : Yaml}, node.construct py = .ok value → value = node
  | .mapping entries, _, h => by
    rw [Yaml.construct] at h
    obtain ⟨mapping, hmapping, h⟩ := bind_eq_ok_iff.mp h
    cases h
    rw [eq_of_constructUniqueMapping entries hmapping, List.nil_append]
  | .list values, _, h => by
    rw [Yaml.construct] at h
    obtain ⟨values', hvalues, h⟩ := bind_eq_ok_iff.mp h
    cases h
    rw [eq_of_constructSequence values hvalues]
  | .null, _, h => (Except.ok.inj h).symm
  | .bool _, _, h => (Except.ok.inj h).symm
  | .int _, _, h => (Except.ok.inj h).symm
  | .float _, _, h => (Except.ok.inj h).symm
  | .string _, _, h => (Except.ok.inj h).symm
  | .other _, _, h => (Except.ok.inj h).symm

theorem eq_of_constructSequence :
    ∀ (nodes : List Yaml) {values : List Yaml}, constructSequence py nodes = .ok values →
      values = nodes
  | [], _, h => (Except.ok.inj h).symm
  | node :: nodes, _, h => by
    rw [constructSequence] at h
    obtain ⟨value, hvalue, h⟩ := bind_eq_ok_iff.mp h
    obtain ⟨rest, hrest, h⟩ := bind_eq_ok_iff.mp h
    cases h
    rw [eq_of_construct node hvalue, eq_of_constructSequence nodes hrest]

theorem eq_of_constructUniqueMapping :
    ∀ (nodes : List (Yaml × Yaml)) {mapping entries : List (Yaml × Yaml)},
      constructUniqueMapping py mapping nodes = .ok entries → entries = mapping ++ nodes
  | [], _, _, h => by
    rw [List.append_nil]
    exact (Except.ok.inj h).symm
  | (keyNode, valueNode) :: nodes, _, _, h => by
    rw [constructUniqueMapping] at h
    obtain ⟨key, hkey, h⟩ := bind_eq_ok_iff.mp h
    split_ifs at h
    obtain ⟨value, hvalue, h⟩ := bind_eq_ok_iff.mp h
    rw [eq_of_constructUniqueMapping nodes h, eq_of_construct keyNode hkey,
      eq_of_construct valueNode hvalue, List.append_assoc, List.singleton_append]

end

/-- The root of a catalog that loads is a mapping. -/
theorem exists_document_of_loadFile {path : String} {root : Yaml} {catalog : TaskCatalog}
    (h : TaskCatalog.loadFile py path root = .ok catalog) :
    ∃ document, root = .mapping document ∧ TaskCatalog.load py document = .ok catalog := by
  obtain ⟨document, hdocument, hload⟩ := bind_eq_ok_iff.mp h
  obtain ⟨value, hvalue, hdocument⟩ := bind_eq_ok_iff.mp hdocument
  split at hdocument
  · cases hdocument
    exact ⟨document, (eq_of_construct root hvalue).symm, hload⟩
  · cases hdocument

/-! ### What the constructor loses -/

/-- Each key of `scenarios` has a validated scenario, each key of `tasks` a resolved task, and each
task has the scenario written under the key it names. -/
def LosesNothing (py : PyRepr) (document : List (Yaml × Yaml)) (catalog : TaskCatalog) : Prop :=
  ∃ rawScenarios rawTasks defaults scenarios,
    Loaded py document catalog rawScenarios rawTasks defaults scenarios ∧
    OneEntryPerKey py (validatedScenario py) rawScenarios scenarios ∧
    OneEntryPerKey py (namedTask py defaults scenarios) rawTasks catalog.tasks ∧
    ∀ task ∈ catalog.tasks,
      (∃ raw ∈ rawScenarios, raw.1.str py = task.2.scenario) ∧
      ∀ raw ∈ rawScenarios, raw.1.str py = task.2.scenario →
        validatedScenario py raw.1 raw.2 = .ok (task.2.scenario, task.2.trajectory)

/-- No two keys of `scenarios` have one text, nor two keys of `tasks`. -/
def KeyTextsDistinct (py : PyRepr) (document : List (Yaml × Yaml)) : Prop :=
  ∀ name ∈ ["scenarios", "tasks"], ∀ raw, Yaml.get document name = some (.mapping raw) →
    (keyTexts py raw).Nodup

theorem name_of_validatedScenario {rawName rawScenario : Yaml} {entry : String × Scenario}
    (h : validatedScenario py rawName rawScenario = .ok entry) : entry.1 = rawName.str py := by
  obtain ⟨name, hname, h⟩ := bind_eq_ok_iff.mp h
  split at h
  · obtain ⟨-, -, h⟩ := bind_eq_ok_iff.mp h
    split_ifs at h
    obtain ⟨scenario, -, h⟩ := bind_eq_ok_iff.mp h
    split_ifs at h
    cases h
    exact eq_str_of_identifier hname
  · cases h

theorem name_of_namedTask {defaults : TaskDefaults} {scenarios : List (String × Scenario)}
    {rawTaskId rawTask : Yaml} {entry : String × TrackingTask}
    (h : namedTask py defaults scenarios rawTaskId rawTask = .ok entry) :
    entry.1 = rawTaskId.str py := by
  obtain ⟨htask, hname⟩ := namedTask_eq_ok_iff.mp h
  rw [hname, (resolved_of_resolvedTask htask).name]

variable {document rawScenarios rawTasks : List (Yaml × Yaml)} {catalog : TaskCatalog}
  {defaults : TaskDefaults} {scenarios : List (String × Scenario)}

/-- The scenario of a task, when each key has its own. -/
theorem Loaded.scenario_of_task
    (h : Loaded py document catalog rawScenarios rawTasks defaults scenarios)
    (hone : OneEntryPerKey py (validatedScenario py) rawScenarios scenarios)
    {task : String × TrackingTask} (htask : task ∈ catalog.tasks) :
    (∃ raw ∈ rawScenarios, raw.1.str py = task.2.scenario) ∧
      ∀ raw ∈ rawScenarios, raw.1.str py = task.2.scenario →
        validatedScenario py raw.1 raw.2 = .ok (task.2.scenario, task.2.trajectory) := by
  have hnodup : (scenarios.map Prod.fst).Nodup := by
    rw [map_fst_of_oneEntryPerKey hone]
    exact (oneEntryPerKey_iff (fun _ _ _ => name_of_validatedScenario) h.storeScenarios).mp hone
  obtain ⟨_, hresolved⟩ := h.resolved task htask
  have hmem := (lookup_eq_some_iff hnodup).mp hresolved.trajectory
  constructor
  · have hkey : task.2.scenario ∈ keyTexts py rawScenarios := by
      rw [← map_fst_of_oneEntryPerKey hone]
      exact List.mem_map.mpr ⟨_, hmem, rfl⟩
    exact List.mem_map.mp hkey
  · intro raw hraw hkey
    obtain ⟨entry, hentry, hname, hvalid⟩ := exists_mem_of_oneEntryPerKey hone hraw
    rw [hkey] at hname
    -- The dictionary has one scenario under the name.
    have hsame := (lookup_eq_some_iff hnodup).mpr (hname ▸ hentry : (task.2.scenario, entry.2) ∈ _)
    rw [hresolved.trajectory] at hsame
    rw [hvalid, Option.some.inj hsame, ← hname]

theorem losesNothing_iff_of_load (hload : TaskCatalog.load py document = .ok catalog) :
    LosesNothing py document catalog ↔ KeyTextsDistinct py document := by
  constructor
  · rintro ⟨rawScenarios, rawTasks, defaults, scenarios, h, hscenarios, htasks, -⟩
    rintro name hname raw hraw
    rw [List.mem_cons, List.mem_singleton] at hname
    rcases hname with rfl | rfl
    · obtain rfl := Yaml.mapping.inj (Option.some.inj (h.scenariosMapping.symm.trans hraw))
      exact (oneEntryPerKey_iff (fun _ _ _ => name_of_validatedScenario) h.storeScenarios).mp
        hscenarios
    · obtain rfl := Yaml.mapping.inj (Option.some.inj (h.tasksMapping.symm.trans hraw))
      exact (oneEntryPerKey_iff (fun _ _ _ => name_of_namedTask) h.storeTasks).mp htasks
  · intro hdistinct
    obtain ⟨rawScenarios, rawTasks, defaults, scenarios, h⟩ := loaded_of_load hload
    have hscenarios := (oneEntryPerKey_iff (fun _ _ _ => name_of_validatedScenario)
      h.storeScenarios).mpr (hdistinct "scenarios" (by simp) _ h.scenariosMapping)
    have htasks := (oneEntryPerKey_iff (fun _ _ _ => name_of_namedTask) h.storeTasks).mpr
      (hdistinct "tasks" (by simp) _ h.tasksMapping)
    exact ⟨rawScenarios, rawTasks, defaults, scenarios, h, hscenarios, htasks,
      fun task htask => h.scenario_of_task hscenarios htask⟩

/-- A catalog that loads has lost nothing exactly when the keys of its mappings have distinct
texts. -/
theorem losesNothing_iff {path : String} {root : Yaml}
    (hload : TaskCatalog.loadFile py path root = .ok catalog) :
    ∃ document, root = .mapping document ∧
      (LosesNothing py document catalog ↔ KeyTextsDistinct py document) := by
  obtain ⟨document, hroot, hload'⟩ := exists_document_of_loadFile hload
  exact ⟨document, hroot, losesNothing_iff_of_load hload'⟩

/-! ### A number and its text -/

/-- A scenario under the text `1`, another one under the number, and a task which names the text. -/
def numberedDocument : List (Yaml × Yaml) :=
  [(.string "schema_version", .int 1),
    (.string "defaults", .mapping
      [(.string "duration_s", .int 60), (.string "run_until_stopped", .bool false)]),
    (.string "scenarios", .mapping
      [(.string "1", .mapping
          [(.string "trajectory_type", .string "hold"),
            (.string "attitude_mode", .string "level_heading")]),
        (.int 1, .mapping
          [(.string "trajectory_type", .string "circle"),
            (.string "attitude_mode", .string "path_tangent")])]),
    (.string "tasks", .mapping
      [(.string "rest", .mapping
          [(.string "label", .string "rest"), (.string "scenario", .string "1"),
            (.string "control_mode", .string "station_hold")])])]

/-- The task which names the hold runs the circle. -/
theorem exists_numberedCatalog :
    ∃ catalog, TaskCatalog.loadFile plainRepr "tracking_tasks.yaml" (.mapping numberedDocument) =
      .ok catalog ∧
      (catalog.tasks.map fun task => task.2.trajectory.trajectoryType) = ["circle"] := by
  have hcheck : (TaskCatalog.loadFile plainRepr "tracking_tasks.yaml"
      (.mapping numberedDocument)).toOption.any (fun catalog =>
        (catalog.tasks.map fun task => task.2.trajectory.trajectoryType) == ["circle"]) = true := by
    decide +kernel
  obtain ⟨catalog, hload, h⟩ := exists_ok_of_any hcheck
  exact ⟨catalog, hload, beq_iff_eq.mp h⟩

theorem not_keyTextsDistinct_numbered : ¬KeyTextsDistinct plainRepr numberedDocument := by
  intro h
  have hnodup := h "scenarios" (by simp) _ rfl
  revert hnodup
  decide

theorem losesNothing_iff_numbered :
    ∃ catalog, TaskCatalog.loadFile plainRepr "tracking_tasks.yaml" (.mapping numberedDocument) =
      .ok catalog ∧ ∃ document, Yaml.mapping numberedDocument = .mapping document ∧
        (LosesNothing plainRepr document catalog ↔ KeyTextsDistinct plainRepr document) := by
  obtain ⟨catalog, hload, -⟩ := exists_numberedCatalog
  exact ⟨catalog, hload, losesNothing_iff hload⟩

/-- The catalog loads, and one of the two scenarios is lost. -/
theorem not_losesNothing_numbered :
    ∃ catalog, TaskCatalog.loadFile plainRepr "tracking_tasks.yaml" (.mapping numberedDocument) =
      .ok catalog ∧ ¬LosesNothing plainRepr numberedDocument catalog := by
  obtain ⟨catalog, hload, -⟩ := exists_numberedCatalog
  obtain ⟨document, hdocument, hload'⟩ := exists_document_of_loadFile hload
  obtain rfl := Yaml.mapping.inj hdocument
  exact ⟨catalog, hload, fun h =>
    not_keyTextsDistinct_numbered ((losesNothing_iff_of_load hload').mp h)⟩

end RobotCore
