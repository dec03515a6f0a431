import RobotCore.Lib.Except
import RobotCore.Runtime.TaskCatalog

/-!
# What is checked of a task

Every task of a catalog that loads has a scenario with a type of trajectory.
-/

namespace RobotCore

open Ieee

/-- The scenario has a type of trajectory. -/
def HasType (scenario : Scenario) : Prop := (scenario .trajectoryType).isSome = true

theorem mem_insertEntry {α : Type} {dictionary : List (String × α)} {key : String} {value : α}
    {entry : String × α} (h : entry ∈ insertEntry dictionary key value) :
    entry ∈ dictionary ∨ entry = (key, value) := by
  unfold insertEntry at h
  split_ifs at h
  · obtain ⟨old, hold, heq⟩ := List.mem_map.mp h
    split_ifs at heq
    · exact Or.inr heq.symm
    · exact Or.inl (heq ▸ hold)
  · rw [List.mem_append, List.mem_singleton] at h
    exact h

theorem mem_of_lookup {α : Type} {dictionary : List (String × α)} {key : String} {value : α}
    (h : dictionary.lookup key = some value) : (key, value) ∈ dictionary := by
  obtain ⟨before, after, rfl, -⟩ := List.lookup_eq_some_iff.mp h
  exact List.mem_append_right _ List.mem_cons_self

/-- Python on labels without white space. -/
def plainRepr : PyRepr where
  float _ := "0.0"
  strip text := text

/-! ### Dictionaries -/

section Dictionary

variable {α : Type} {dictionary : List (String × α)} {key : String} {value : α}

theorem insertEntry_of_fresh (h : key ∉ dictionary.map Prod.fst) :
    insertEntry dictionary key value = dictionary ++ [(key, value)] := by
  rw [insertEntry, if_neg]
  rw [List.any_eq_true]
  rintro ⟨entry, hentry, heq⟩
  exact h (List.mem_map.mpr ⟨entry, hentry, beq_iff_eq.mp heq⟩)

/-- Setting a key which is there changes no key. -/
theorem map_fst_insertEntry (h : key ∈ dictionary.map Prod.fst) :
    (insertEntry dictionary key value).map Prod.fst = dictionary.map Prod.fst := by
  obtain ⟨entry, hentry, rfl⟩ := List.mem_map.mp h
  have hany : (dictionary.any fun old => old.1 == entry.1) = true :=
    List.any_eq_true.mpr ⟨entry, hentry, beq_iff_eq.mpr rfl⟩
  rw [insertEntry, if_pos hany, List.map_map]
  refine List.map_congr_left fun old _ => ?_
  simp only [Function.comp_apply]
  split_ifs with heq
  · exact (beq_iff_eq.mp heq).symm
  · rfl

/-- The keys of a dictionary are distinct. -/
theorem nodup_insertEntry (h : (dictionary.map Prod.fst).Nodup) :
    ((insertEntry dictionary key value).map Prod.fst).Nodup := by
  by_cases hkey : key ∈ dictionary.map Prod.fst
  · rw [map_fst_insertEntry hkey]
    exact h
  · rw [insertEntry_of_fresh hkey, List.map_append, List.map_singleton]
    refine List.nodup_append.mpr ⟨h, List.nodup_singleton key, fun old hold new hnew => ?_⟩
    rintro rfl
    obtain rfl := List.mem_singleton.mp hnew
    exact hkey hold

theorem lookup_eq_some_iff (h : (dictionary.map Prod.fst).Nodup) :
    dictionary.lookup key = some value ↔ (key, value) ∈ dictionary := by
  induction dictionary with
  | nil => simp
  | cons entry dictionary ih =>
    obtain ⟨key', value'⟩ := entry
    rw [List.map_cons, List.nodup_cons] at h
    rw [List.lookup_cons, List.mem_cons, Prod.mk.injEq]
    split
    · next heq =>
      obtain rfl := beq_iff_eq.mp heq
      have hrest : (key, value) ∉ dictionary := fun hmem => h.1 (List.mem_map.mpr ⟨_, hmem, rfl⟩)
      simp [hrest, eq_comm]
    · next hne =>
      rw [ih h.2]
      have hne : key ≠ key' := by simpa using hne
      simp [hne]

/-- A loop which stores what `resolve` makes of each entry of a mapping. -/
def storeAll (resolve : Yaml → Yaml → Except CatalogError (String × α))
    (dictionary : List (String × α)) :
    List (Yaml × Yaml) → Except CatalogError (List (String × α))
  | [] => .ok dictionary
  | (rawKey, rawValue) :: rest => do
    let (key, value) ← resolve rawKey rawValue
    storeAll resolve (insertEntry dictionary key value) rest

variable {resolve : Yaml → Yaml → Except CatalogError (String × α)}
  {dictionary' : List (String × α)} {raw : List (Yaml × Yaml)}

/-- What holds of every entry before the loop and of all that `resolve` makes holds after it. -/
theorem forall_mem_of_storeAll {P : String × α → Prop} (hdictionary : ∀ entry ∈ dictionary, P entry)
    (hresolve : ∀ rawKey rawValue entry, resolve rawKey rawValue = .ok entry → P entry)
    (h : storeAll resolve dictionary raw = .ok dictionary') : ∀ entry ∈ dictionary', P entry := by
  induction raw generalizing dictionary with
  | nil =>
    cases h
    exact hdictionary
  | cons entry raw ih =>
    obtain ⟨⟨key, value⟩, hentry, h⟩ := bind_eq_ok_iff.mp h
    refine ih (fun entry hmem => ?_) h
    rcases mem_insertEntry hmem with hold | rfl
    · exact hdictionary entry hold
    · exact hresolve _ _ _ hentry

theorem nodup_of_storeAll (hdictionary : (dictionary.map Prod.fst).Nodup)
    (h : storeAll resolve dictionary raw = .ok dictionary') :
    (dictionary'.map Prod.fst).Nodup := by
  induction raw generalizing dictionary with
  | nil =>
    cases h
    exact hdictionary
  | cons entry raw ih =>
    obtain ⟨_, -, h⟩ := bind_eq_ok_iff.mp h
    exact ih (nodup_insertEntry hdictionary) h

variable {py : PyRepr}

/-- Each key of the mapping has an entry of its own, under its text, which is what `resolve` makes
of its value. -/
def OneEntryPerKey (py : PyRepr) (resolve : Yaml → Yaml → Except CatalogError (String × α))
    (raw : List (Yaml × Yaml)) (dictionary : List (String × α)) : Prop :=
  List.Forall₂ (fun rawEntry entry => entry.1 = rawEntry.1.str py ∧
    resolve rawEntry.1 rawEntry.2 = .ok entry) raw dictionary

/-- The texts of the keys of a mapping. -/
def keyTexts (py : PyRepr) (raw : List (Yaml × Yaml)) : List String := raw.map fun e => e.1.str py

theorem map_fst_of_oneEntryPerKey (h : OneEntryPerKey py resolve raw dictionary) :
    dictionary.map Prod.fst = keyTexts py raw := by
  induction h with
  | nil => rfl
  | cons hentry _ ih =>
    rw [keyTexts, List.map_cons, List.map_cons, hentry.1]
    exact congrArg _ ih

/-- The entry of a key. -/
theorem exists_mem_of_oneEntryPerKey (h : OneEntryPerKey py resolve raw dictionary)
    {rawEntry : Yaml × Yaml} (hraw : rawEntry ∈ raw) :
    ∃ entry ∈ dictionary, entry.1 = rawEntry.1.str py ∧
      resolve rawEntry.1 rawEntry.2 = .ok entry := by
  induction h with
  | nil => cases hraw
  | cons hentry _ ih =>
    rcases List.mem_cons.mp hraw with rfl | hraw
    · exact ⟨_, List.mem_cons_self, hentry⟩
    · obtain ⟨entry, hmem, h⟩ := ih hraw
      exact ⟨entry, List.mem_cons_of_mem _ hmem, h⟩

/-- Keys with distinct texts are all stored. -/
theorem exists_of_storeAll (hresolve : ∀ rawKey rawValue entry,
      resolve rawKey rawValue = .ok entry → entry.1 = rawKey.str py)
    (hnodup : (dictionary.map Prod.fst ++ keyTexts py raw).Nodup)
    (h : storeAll resolve dictionary raw = .ok dictionary') :
    ∃ added, dictionary' = dictionary ++ added ∧ OneEntryPerKey py resolve raw added := by
  induction raw generalizing dictionary with
  | nil =>
    cases h
    exact ⟨[], (List.append_nil _).symm, List.Forall₂.nil⟩
  | cons rawEntry raw ih =>
    obtain ⟨⟨key, value⟩, hentry, h⟩ := bind_eq_ok_iff.mp h
    obtain rfl := hresolve _ _ _ hentry
    have hfresh : rawEntry.1.str py ∉ dictionary.map Prod.fst := fun hmem =>
      List.disjoint_of_nodup_append hnodup hmem List.mem_cons_self
    dsimp only at h
    rw [insertEntry_of_fresh hfresh] at h
    have hnodup' : ((dictionary ++ [(rawEntry.1.str py, value)]).map Prod.fst ++
        keyTexts py raw).Nodup := by
      rw [List.map_append, List.append_assoc]
      exact hnodup
    obtain ⟨added, rfl, hadded⟩ := ih hnodup' h
    exact ⟨(rawEntry.1.str py, value) :: added, by rw [List.append_assoc, List.singleton_append],
      hadded.cons ⟨rfl, hentry⟩⟩

/-- The loop loses no key exactly when the keys have distinct texts. -/
theorem oneEntryPerKey_iff (hresolve : ∀ rawKey rawValue entry,
      resolve rawKey rawValue = .ok entry → entry.1 = rawKey.str py)
    (h : storeAll resolve [] raw = .ok dictionary') :
    OneEntryPerKey py resolve raw dictionary' ↔ (keyTexts py raw).Nodup := by
  constructor
  · intro hone
    rw [← map_fst_of_oneEntryPerKey hone]
    have hempty : (([] : List (String × α)).map Prod.fst).Nodup := List.nodup_nil
    exact nodup_of_storeAll hempty h
  · intro hnodup
    have hall : (([] : List (String × α)).map Prod.fst ++ keyTexts py raw).Nodup := hnodup
    obtain ⟨added, rfl, hadded⟩ := exists_of_storeAll hresolve hall h
    exact hadded

end Dictionary

/-! ### The catalog -/

section Load

variable {py : PyRepr}

theorem hasType_validatedScenario {rawName rawScenario : Yaml} {name : String} {scenario : Scenario}
    (h : validatedScenario py rawName rawScenario = .ok (name, scenario)) : HasType scenario := by
  obtain ⟨name', -, h⟩ := bind_eq_ok_iff.mp h
  split at h
  · obtain ⟨-, -, h⟩ := bind_eq_ok_iff.mp h
    split_ifs at h
    obtain ⟨scenario', -, h⟩ := bind_eq_ok_iff.mp h
    split_ifs at h with hnone
    cases h
    rw [Bool.or_eq_true, not_or, Option.isNone_iff_eq_none] at hnone
    exact Option.isSome_iff_ne_none.mpr hnone.1
  · cases h

/-- What the checks leave of a task. -/
structure Resolved (py : PyRepr) (scenarios : List (String × Scenario)) (rawTaskId : Yaml)
    (task : TrackingTask) : Prop where
  name : task.name = rawTaskId.str py
  trajectory : scenarios.lookup task.scenario = some task.trajectory
  controlMode : task.controlMode ∈ controlModes
  altitudeHold : task.controlMode = "altitude_hold" → task.trajectory.trajectoryType = "hold"
  controller : task.controller = if task.controlMode == "rl_policy" then .rl else .pid

theorem eq_str_of_identifier {value : Yaml} {label name : String}
    (h : identifier py value label = .ok name) : name = value.str py := by
  unfold identifier at h
  extract_lets at h
  split_ifs at h
  exact (Except.ok.inj h).symm

theorem resolved_of_resolvedTask {defaults : TaskDefaults}
    {scenarios : List (String × Scenario)} {rawTaskId rawTask : Yaml} {task : TrackingTask}
    (h : resolvedTask py defaults scenarios rawTaskId rawTask = .ok task) :
    Resolved py scenarios rawTaskId task := by
  obtain ⟨taskId, htaskId, h⟩ := bind_eq_ok_iff.mp h
  split at h
  · obtain ⟨-, -, h⟩ := bind_eq_ok_iff.mp h
    -- the label falls back on the identifier
    extract_lets withLabel at h
    obtain ⟨label, h⟩ : ∃ label, withLabel label = .ok task := by
      split at h
      · split_ifs at h
        all_goals
          obtain ⟨label, -, h⟩ := bind_eq_ok_iff.mp h
          exact ⟨label, h⟩
      · obtain ⟨label, -, h⟩ := bind_eq_ok_iff.mp h
        exact ⟨label, h⟩
    dsimp -zeta only [withLabel] at h
    -- the scenario is one of the catalog
    extract_lets withScenario at h
    obtain ⟨scenarioId, trajectory, hscenario, h⟩ : ∃ scenarioId trajectory,
        scenarios.lookup scenarioId = some trajectory ∧
          withScenario (scenarioId, trajectory) = .ok task := by
      split at h
      · split at h
        · next scenarioId _ _ trajectory hlookup => exact ⟨scenarioId, trajectory, hlookup, h⟩
        · cases h
      · cases h
    dsimp -zeta only [withScenario] at h
    -- the control mode is one of the table
    extract_lets withControlMode at h
    obtain ⟨controlMode, hmode, h⟩ : ∃ controlMode, controlMode ∈ controlModes ∧
        withControlMode controlMode = .ok task := by
      split at h
      · next mode _ =>
        split_ifs at h with hcontains
        · obtain ⟨controlMode, hok, h⟩ := bind_eq_ok_iff.mp h
          obtain rfl := Except.ok.inj hok
          exact ⟨mode, List.contains_iff_mem.mp hcontains, h⟩
        · obtain ⟨_, hok, -⟩ := bind_eq_ok_iff.mp h
          cases hok
      all_goals
        obtain ⟨_, hok, -⟩ := bind_eq_ok_iff.mp h
        cases hok
    dsimp -zeta only [withControlMode] at h
    -- a task that holds the altitude has a hold as its trajectory
    split at h
    · cases h
    · next haltitude =>
      -- the duration and the end fall back on the defaults
      extract_lets withDuration at h
      obtain ⟨durationS, h⟩ : ∃ durationS, withDuration durationS = .ok task := by
        split at h
        all_goals
          obtain ⟨durationS, -, h⟩ := bind_eq_ok_iff.mp h
          exact ⟨durationS, h⟩
      dsimp -zeta only [withDuration] at h
      split at h
      · cases h
      · extract_lets resolved at h
        obtain ⟨runUntilStopped, h⟩ : ∃ runUntilStopped, resolved runUntilStopped = .ok task := by
          split at h
          all_goals
            obtain ⟨runUntilStopped, -, h⟩ := bind_eq_ok_iff.mp h
            exact ⟨runUntilStopped, h⟩
        cases h
        refine ⟨eq_str_of_identifier htaskId, hscenario, hmode, fun hmode => ?_, rfl⟩
        simp only [Bool.and_eq_true, beq_iff_eq, bne_iff_ne, not_and, not_not] at haltitude
        exact haltitude hmode
  · cases h

/-! ### The loops -/

theorem validatedScenarios_eq (scenarios : List (String × Scenario)) (raw : List (Yaml × Yaml)) :
    validatedScenarios py scenarios raw = storeAll (validatedScenario py) scenarios raw := by
  induction raw generalizing scenarios with
  | nil => rfl
  | cons entry raw ih =>
    simp only [validatedScenarios, storeAll, ih]

/-- A task with its id. -/
def namedTask (py : PyRepr) (defaults : TaskDefaults) (scenarios : List (String × Scenario))
    (rawTaskId rawTask : Yaml) : Except CatalogError (String × TrackingTask) := do
  let task ← resolvedTask py defaults scenarios rawTaskId rawTask
  return (task.name, task)

theorem namedTask_eq_ok_iff {defaults : TaskDefaults} {scenarios : List (String × Scenario)}
    {rawTaskId rawTask : Yaml} {entry : String × TrackingTask} :
    namedTask py defaults scenarios rawTaskId rawTask = .ok entry ↔
      resolvedTask py defaults scenarios rawTaskId rawTask = .ok entry.2 ∧
        entry.1 = entry.2.name := by
  rw [namedTask, bind_eq_ok_iff]
  constructor
  · rintro ⟨task, htask, hentry⟩
    cases hentry
    exact ⟨htask, rfl⟩
  · rintro ⟨htask, hname⟩
    refine ⟨entry.2, htask, ?_⟩
    rw [← hname]
    rfl

theorem resolvedTasks_eq (defaults : TaskDefaults) (scenarios : List (String × Scenario))
    (tasks : List (String × TrackingTask)) (raw : List (Yaml × Yaml)) :
    resolvedTasks py defaults scenarios tasks raw =
      storeAll (namedTask py defaults scenarios) tasks raw := by
  induction raw generalizing tasks with
  | nil => rfl
  | cons entry raw ih =>
    obtain ⟨rawTaskId, rawTask⟩ := entry
    simp only [resolvedTasks, storeAll, namedTask, bind_assoc, pure_bind, ih]

/-- What the constructor reads and makes. -/
structure Loaded (py : PyRepr) (document : List (Yaml × Yaml)) (catalog : TaskCatalog)
    (rawScenarios rawTasks : List (Yaml × Yaml)) (defaults : TaskDefaults)
    (scenarios : List (String × Scenario)) : Prop where
  scenariosMapping : Yaml.get document "scenarios" = some (.mapping rawScenarios)
  tasksMapping : Yaml.get document "tasks" = some (.mapping rawTasks)
  taskDefaults : taskDefaults (Yaml.get document "defaults") = .ok defaults
  storeScenarios : storeAll (validatedScenario py) [] rawScenarios = .ok scenarios
  storeTasks : storeAll (namedTask py defaults scenarios) [] rawTasks = .ok catalog.tasks

theorem get_of_nonEmptyMapping {value : Option Yaml} {message : String}
    {entries : List (Yaml × Yaml)} (h : nonEmptyMapping value message = .ok entries) :
    value = some (.mapping entries) := by
  unfold nonEmptyMapping at h
  split at h
  · cases h
    rfl
  · cases h

theorem loaded_of_load {document : List (Yaml × Yaml)} {catalog : TaskCatalog}
    (hload : TaskCatalog.load py document = .ok catalog) :
    ∃ rawScenarios rawTasks defaults scenarios,
      Loaded py document catalog rawScenarios rawTasks defaults scenarios := by
  obtain ⟨-, -, h⟩ := bind_eq_ok_iff.mp hload
  split_ifs at h
  extract_lets withScenarios at h
  obtain ⟨rawScenarios, hrawScenarios, h⟩ : ∃ rawScenarios,
      Yaml.get document "scenarios" = some (.mapping rawScenarios) ∧
        withScenarios rawScenarios = .ok catalog := by
    split at h
    · obtain ⟨rawScenarios, hraw, h⟩ := bind_eq_ok_iff.mp h
      exact ⟨rawScenarios, get_of_nonEmptyMapping hraw, h⟩
    · obtain ⟨_, hraw, -⟩ := bind_eq_ok_iff.mp h
      cases hraw
  obtain ⟨rawTasks, hrawTasks, h⟩ := bind_eq_ok_iff.mp h
  obtain ⟨defaults, hdefaults, h⟩ := bind_eq_ok_iff.mp h
  obtain ⟨scenarios, hscenarios, h⟩ := bind_eq_ok_iff.mp h
  obtain ⟨tasks, htasks, h⟩ := bind_eq_ok_iff.mp h
  cases h
  exact ⟨rawScenarios, rawTasks, defaults, scenarios, hrawScenarios,
    get_of_nonEmptyMapping hrawTasks, hdefaults, validatedScenarios_eq [] rawScenarios ▸ hscenarios,
    resolvedTasks_eq defaults scenarios [] rawTasks ▸ htasks⟩

theorem mem_tasks_of_task {catalog : TaskCatalog} {t : String} {task : TrackingTask}
    (h : catalog.task t = .ok task) : (t, task) ∈ catalog.tasks := by
  unfold TaskCatalog.task at h
  split_ifs at h
  split at h
  · next hlookup =>
    cases h
    exact mem_of_lookup hlookup
  · cases h

/-- Every task of a catalog has passed the checks. -/
theorem Loaded.resolved {document : List (Yaml × Yaml)} {catalog : TaskCatalog}
    {rawScenarios rawTasks : List (Yaml × Yaml)} {defaults : TaskDefaults}
    {scenarios : List (String × Scenario)}
    (h : Loaded py document catalog rawScenarios rawTasks defaults scenarios) :
    ∀ entry ∈ catalog.tasks, ∃ rawTaskId, Resolved py scenarios rawTaskId entry.2 := by
  refine forall_mem_of_storeAll (List.forall_mem_nil _) (fun rawTaskId rawTask entry hentry => ?_)
    h.storeTasks
  exact ⟨rawTaskId, resolved_of_resolvedTask (namedTask_eq_ok_iff.mp hentry).1⟩

/-- Every task of a catalog that loads has a type of trajectory. -/
theorem hasType_of_load {document : List (Yaml × Yaml)} {catalog : TaskCatalog}
    (hload : TaskCatalog.load py document = .ok catalog) {t : String} {task : TrackingTask}
    (htask : catalog.task t = .ok task) : HasType task.trajectory := by
  obtain ⟨rawScenarios, rawTasks, defaults, scenarios, hloaded⟩ := loaded_of_load hload
  have htypes : ∀ entry ∈ scenarios, HasType entry.2 :=
    forall_mem_of_storeAll (List.forall_mem_nil _)
      (fun _ _ _ hentry => hasType_validatedScenario hentry) hloaded.storeScenarios
  obtain ⟨_, hresolved⟩ := hloaded.resolved _ (mem_tasks_of_task htask)
  exact htypes _ (mem_of_lookup hresolved.trajectory)

end Load

end RobotCore
