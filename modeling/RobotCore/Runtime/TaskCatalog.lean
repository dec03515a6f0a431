import RobotCore.Lib.Ieee.Number

/-!
# The task catalog

`TaskCatalog`: the tracking tasks a YAML document defines, with the checks of the constructor and
the texts of its errors.  The loader takes a document whose mappings may have equal keys and refuses
it if one has.  A value of a scenario has the type of the parameter it sets.

The text Python gives a float, and the removal of white space, are a parameter.
-/

namespace RobotCore

open Ieee

/-! ### Parameters of a trajectory -/

inductive ParameterType where
  | string
  | bool
  | double
  deriving DecidableEq

/-- The values of a parameter type. -/
def ParameterType.Value : ParameterType → Type
  | .string => String
  | .bool => Bool
  | .double => Binary64

instance (type : ParameterType) : DecidableEq type.Value :=
  match type with
  | .string => inferInstanceAs (DecidableEq String)
  | .bool => inferInstanceAs (DecidableEq Bool)
  | .double => inferInstanceAs (DecidableEq Binary64)

/-- The keys of `ALLOWED_PARAMETER_TYPES`. -/
inductive TrajectoryParameter where
  | trajectoryType
  | controlMode
  | attitudeMode
  | relativeToInitialPose
  | centerX
  | centerY
  | centerZ
  | holdBeforeMotionS
  | ampX
  | ampY
  | ampZ
  | radiusM
  | periodS
  | trajectorySpeedMps
  | trajectoryRampS
  | moveDurationS
  | manualVerticalSpeedMps
  | stationLinearInputGainMps
  | stationLateralInputGainMps
  | stationYawInputGainRps
  deriving DecidableEq

namespace TrajectoryParameter

/-- The keys, in the order of `ALLOWED_PARAMETER_TYPES`. -/
def all : List TrajectoryParameter :=
  [trajectoryType, controlMode, attitudeMode, relativeToInitialPose, centerX, centerY, centerZ,
    holdBeforeMotionS, ampX, ampY, ampZ, radiusM, periodS, trajectorySpeedMps, trajectoryRampS,
    moveDurationS, manualVerticalSpeedMps, stationLinearInputGainMps, stationLateralInputGainMps,
    stationYawInputGainRps]

/-- `ALLOWED_PARAMETER_TYPES` -/
def type : TrajectoryParameter → ParameterType
  | trajectoryType | controlMode | attitudeMode => .string
  | relativeToInitialPose => .bool
  | _ => .double

def name : TrajectoryParameter → String
  | trajectoryType => "trajectory_type"
  | controlMode => "control_mode"
  | attitudeMode => "attitude_mode"
  | relativeToInitialPose => "relative_to_initial_pose"
  | centerX => "center_x"
  | centerY => "center_y"
  | centerZ => "center_z"
  | holdBeforeMotionS => "hold_before_motion_s"
  | ampX => "amp_x"
  | ampY => "amp_y"
  | ampZ => "amp_z"
  | radiusM => "radius_m"
  | periodS => "period_s"
  | trajectorySpeedMps => "trajectory_speed_mps"
  | trajectoryRampS => "trajectory_ramp_s"
  | moveDurationS => "move_duration_s"
  | manualVerticalSpeedMps => "manual_vertical_speed_mps"
  | stationLinearInputGainMps => "station_linear_input_gain_mps"
  | stationLateralInputGainMps => "station_lateral_input_gain_mps"
  | stationYawInputGainRps => "station_yaw_input_gain_rps"

/-- `_TRAJECTORY_FIELDS`: a scenario does not set the control mode. -/
def fields : List TrajectoryParameter := all.filter (· ≠ controlMode)

end TrajectoryParameter

/-- Values for some parameters. -/
abbrev Scenario := (k : TrajectoryParameter) → Option k.type.Value

/-- `scenario[key] = value` -/
def Scenario.set (scenario : Scenario) (k : TrajectoryParameter) (value : k.type.Value) :
    Scenario :=
  fun k' => if h : k = k' then some (h ▸ value) else scenario k'

inductive Controller where
  | pid
  | rl
  deriving DecidableEq

def Controller.name : Controller → String
  | pid => "pid"
  | rl => "rl"

/-- A resolved task. -/
structure TrackingTask where
  name : String
  label : String
  scenario : String
  trajectoryName : String
  controlMode : String
  controller : Controller
  durationS : Binary64
  runUntilStopped : Bool
  trajectory : Scenario

/-! ### Documents -/

/-- What a YAML loader makes of a document. -/
inductive Yaml where
  | null
  | bool (value : Bool)
  | int (value : ℤ)
  | float (value : Binary64)
  | string (value : String)
  | list (values : List Yaml)
  | mapping (entries : List (Yaml × Yaml))
  /-- a value of another type, such as a date, with its `str` -/
  | other (text : String)

/-- `repr` of a float, and `str.strip`. -/
structure PyRepr where
  float : Binary64 → String
  strip : String → String

namespace Yaml

/-- `str(value)` of a key. -/
def str (py : PyRepr) : Yaml → String
  | null => "None"
  | bool value => if value then "True" else "False"
  | int value => toString value
  | float value => py.float value
  | string value => value
  | list _ => "[]"
  | mapping _ => "{}"
  | other text => text

/-- `mapping.get(key)` -/
def get (entries : List (Yaml × Yaml)) (key : String) : Option Yaml :=
  (entries.find? fun entry =>
    match entry.1 with
    | string name => name == key
    | _ => false).map (·.2)

/-- The number that is equal to a key: `True == 1 == 1.0`. -/
def number : Yaml → Option Value
  | bool value => some (.finite (if value then 1 else 0))
  | int value => some (.finite value)
  | float value => some value.value
  | _ => none

/-- `a == b` for keys. -/
def keyEq (a b : Yaml) : Bool :=
  match a.number, b.number with
  | some x, some y => x != .nan && x == y
  | none, none =>
    match a, b with
    | null, null => true
    | string a, string b => a == b
    | other a, other b => a == b
    | _, _ => false
  | _, _ => false

/-- A list or a dictionary cannot be a key. -/
def isHashable : Yaml → Bool
  | list _ => false
  | mapping _ => false
  | _ => true

end Yaml

/-- The exceptions of the constructor. -/
inductive CatalogError where
  | value (message : String)
  | type
  | overflow
  deriving DecidableEq

/-! ### The loader -/

mutual

/-- `construct_object` of `_UniqueKeyLoader`. -/
def Yaml.construct (py : PyRepr) : Yaml → Except CatalogError Yaml
  | .mapping entries => do return .mapping (← constructUniqueMapping py [] entries)
  | .list values => do return .list (← constructSequence py values)
  | value => .ok value

def constructSequence (py : PyRepr) : List Yaml → Except CatalogError (List Yaml)
  | [] => .ok []
  | value :: rest => do
    let value ← value.construct py
    return value :: (← constructSequence py rest)

/-- `_construct_unique_mapping` -/
def constructUniqueMapping (py : PyRepr) (mapping : List (Yaml × Yaml)) :
    List (Yaml × Yaml) → Except CatalogError (List (Yaml × Yaml))
  | [] => .ok mapping
  | (keyNode, valueNode) :: rest => do
    let key ← keyNode.construct py
    if !key.isHashable then .error .type
    else if mapping.any fun entry => entry.1.keyEq key then
      .error (.value ("duplicate YAML key: " ++ key.str py))
    else do
      let value ← valueNode.construct py
      constructUniqueMapping py (mapping ++ [(key, value)]) rest

end

/-- `_load_mapping` of a file that is YAML. -/
def loadMapping (py : PyRepr) (path : String) (root : Yaml) :
    Except CatalogError (List (Yaml × Yaml)) := do
  match ← root.construct py with
  | .mapping document => .ok document
  | _ => .error (.value ("YAML document must be a mapping: " ++ path))

/-! ### Checks -/

section Checks

variable (py : PyRepr)

/-- `_exact_keys`.  The names of unknown keys can only be joined when they are strings. -/
def exactKeys (entries : List (Yaml × Yaml)) (allowed : List String) (label : String) :
    Except CatalogError Unit :=
  let names := entries.map fun entry =>
    match entry.1 with
    | .string name => some name
    | _ => none
  let unknown := names.filter fun name => !(name.map allowed.contains).getD false
  if unknown.isEmpty then .ok ()
  else if unknown.contains none then .error .type
  else
    let names := (unknown.filterMap id).mergeSort fun a b => decide (a ≤ b)
    .error (.value (label ++ " contains unknown keys: " ++ ", ".intercalate names))

/-- The characters of an identifier. -/
def isIdentifierChar (c : Char) : Bool := c.isDigit || c.isLower || c == '_' || c == '-'

/-- `_IDENTIFIER.fullmatch` -/
def isIdentifier (text : String) : Bool :=
  match text.toList with
  | [] => false
  | c :: rest =>
    (c.isDigit || c.isLower) && decide (rest.length ≤ 63) && rest.all isIdentifierChar

def identifierPattern : String := "[a-z0-9][a-z0-9_-]\x7b0,63\x7d\\Z"

/-- `_identifier` -/
def identifier (value : Yaml) (label : String) : Except CatalogError String :=
  let text := value.str py
  if isIdentifier text then .ok text
  else .error (.value (label ++ " must match " ++ identifierPattern))

/-- `_finite_number` -/
def finiteNumber (value : Option Yaml) (label : String) : Except CatalogError Binary64 :=
  match value with
  | some (.int value) =>
    let number := Number.ofRat binary64 value
    if number.isFinite then .ok number else .error .overflow
  | some (.float value) =>
    if value.isFinite then .ok value else .error (.value (label ++ " must be finite"))
  | _ => .error (.value (label ++ " must be a number"))

/-- The value of a field of a scenario. -/
def scenarioValue (k : TrajectoryParameter) (value : Yaml) (label : String) :
    Except CatalogError k.type.Value :=
  match k.type with
  | .string =>
    match value with
    | .string text =>
      if text.isEmpty then .error (.value (label ++ " must be a non-empty string")) else .ok text
    | _ => .error (.value (label ++ " must be a non-empty string"))
  | .bool =>
    match value with
    | .bool flag => .ok flag
    | _ => .error (.value (label ++ " must be a boolean"))
  | .double => finiteNumber (some value) label

/-- The entries of a scenario, one after the other; every key is a field. -/
def scenarioEntries (name : String) (scenario : Scenario) :
    List (Yaml × Yaml) → Except CatalogError Scenario
  | [] => .ok scenario
  | (key, value) :: rest =>
    match TrajectoryParameter.fields.find? fun k => k.name == key.str py with
    | none => scenarioEntries name scenario rest
    | some k => do
      let value ← scenarioValue k value ("scenario " ++ name ++ "." ++ k.name)
      scenarioEntries name (scenario.set k value) rest

/-- One scenario of the document, with its id. -/
def validatedScenario (rawName rawScenario : Yaml) : Except CatalogError (String × Scenario) := do
  let name ← identifier py rawName "scenario id"
  match rawScenario with
  | .mapping entries =>
    exactKeys entries (TrajectoryParameter.fields.map (·.name)) ("scenario " ++ name)
    if entries.isEmpty then .error (.value ("scenario " ++ name ++ " must not be empty"))
    else do
      let scenario ← scenarioEntries py name (fun _ => none) entries
      if (scenario .trajectoryType).isNone || (scenario .attitudeMode).isNone then
        .error
          (.value ("scenario " ++ name ++ " must declare trajectory_type and attitude_mode"))
      else return (name, scenario)
  | _ => .error (.value ("scenario " ++ name ++ " must be a mapping"))

/-- `dictionary[key] = value` -/
def insertEntry {α : Type} (dictionary : List (String × α)) (key : String) (value : α) :
    List (String × α) :=
  if dictionary.any fun entry => entry.1 == key then
    dictionary.map fun entry => if entry.1 == key then (key, value) else entry
  else dictionary ++ [(key, value)]

/-- The loop over the scenarios. -/
def validatedScenarios (scenarios : List (String × Scenario)) :
    List (Yaml × Yaml) → Except CatalogError (List (String × Scenario))
  | [] => .ok scenarios
  | (rawName, rawScenario) :: rest => do
    let (name, scenario) ← validatedScenario py rawName rawScenario
    validatedScenarios (insertEntry scenarios name scenario) rest

/-- `_CONTROL_MODES` -/
def controlModes : List String :=
  ["altitude_hold", "station_hold", "station_hold_fast", "rl_policy"]

/-- `defaults` -/
structure TaskDefaults where
  durationS : Binary64
  runUntilStopped : Bool

/-- The type of the trajectory of a scenario; every validated scenario has one. -/
def Scenario.trajectoryType (scenario : Scenario) : String :=
  (scenario .trajectoryType).getD ("" : String)

/-- One task of the document. -/
def resolvedTask (defaults : TaskDefaults) (scenarios : List (String × Scenario))
    (rawTaskId rawTask : Yaml) : Except CatalogError TrackingTask := do
  let taskId ← identifier py rawTaskId "task id"
  match rawTask with
  | .mapping entries =>
    exactKeys entries ["label", "scenario", "control_mode", "duration_s", "run_until_stopped"]
      ("task " ++ taskId)
    let label ← match Yaml.get entries "label" with
      | some (.string label) =>
        if (py.strip label).isEmpty then
          .error (.value ("task " ++ taskId ++ ".label must be a non-empty string"))
        else .ok (py.strip label)
      | _ => .error (.value ("task " ++ taskId ++ ".label must be a non-empty string"))
    let (scenarioId, trajectory) ← match Yaml.get entries "scenario" with
      | some (.string scenarioId) =>
        match scenarios.lookup scenarioId with
        | some trajectory => .ok (scenarioId, trajectory)
        | none => .error (.value ("task " ++ taskId ++ " references an unknown scenario"))
      | _ => .error (.value ("task " ++ taskId ++ " references an unknown scenario"))
    let controlMode ← match Yaml.get entries "control_mode" with
      | some (.string mode) =>
        if controlModes.contains mode then .ok mode
        else .error (.value ("task " ++ taskId ++ " has unsupported control_mode"))
      | some (.list _) | some (.mapping _) => .error .type
      | _ => .error (.value ("task " ++ taskId ++ " has unsupported control_mode"))
    if controlMode == "altitude_hold" && trajectory.trajectoryType != "hold" then
      .error (.value ("task " ++ taskId ++ " altitude_hold requires a hold scenario"))
    else do
      let durationS ← match Yaml.get entries "duration_s" with
        | none => .ok defaults.durationS
        | some raw => finiteNumber (some raw) ("task " ++ taskId ++ ".duration_s")
      if durationS.le 0 then
        .error (.value ("task " ++ taskId ++ ".duration_s must be positive"))
      else do
        let runUntilStopped ← match Yaml.get entries "run_until_stopped" with
          | none => .ok defaults.runUntilStopped
          | some (.bool value) => .ok value
          | _ => .error (.value ("task " ++ taskId ++ ".run_until_stopped must be a boolean"))
        return {
          name := taskId
          label := label
          scenario := scenarioId
          trajectoryName := if trajectory.trajectoryType == "hold" then "none" else scenarioId
          controlMode := controlMode
          controller := if controlMode == "rl_policy" then .rl else .pid
          durationS := durationS
          runUntilStopped := runUntilStopped
          trajectory := trajectory }
  | _ => .error (.value ("task " ++ taskId ++ " must be a mapping"))

/-- The loop over the tasks. -/
def resolvedTasks (defaults : TaskDefaults) (scenarios : List (String × Scenario))
    (tasks : List (String × TrackingTask)) :
    List (Yaml × Yaml) → Except CatalogError (List (String × TrackingTask))
  | [] => .ok tasks
  | (rawTaskId, rawTask) :: rest => do
    let task ← resolvedTask py defaults scenarios rawTaskId rawTask
    resolvedTasks defaults scenarios (insertEntry tasks task.name task) rest

/-- `document.get("schema_version") == 1`, for which `True` and `1.0` are equal to `1`. -/
def isVersionOne : Option Yaml → Bool
  | some (.int value) => value == 1
  | some (.bool value) => value
  | some (.float value) => value == Number.ofRat binary64 1
  | _ => false

/-- `defaults` of the document. -/
def taskDefaults : Option Yaml → Except CatalogError TaskDefaults
  | some (.mapping entries) => do
    exactKeys entries ["duration_s", "run_until_stopped"] "task defaults"
    let durationS ← finiteNumber (Yaml.get entries "duration_s") "defaults.duration_s"
    if durationS.le 0 then .error (.value "defaults.duration_s must be positive")
    else
      match Yaml.get entries "run_until_stopped" with
      | some (.bool runUntilStopped) => .ok { durationS, runUntilStopped }
      | _ => .error (.value "defaults.run_until_stopped must be a boolean")
  | _ => .error (.value "tracking task defaults must be a mapping")

end Checks

/-! ### The catalog -/

/-- `TaskCatalog`: the resolved tasks by their ids. -/
structure TaskCatalog where
  tasks : List (String × TrackingTask)

/-- A non-empty mapping. -/
def nonEmptyMapping (value : Option Yaml) (message : String) :
    Except CatalogError (List (Yaml × Yaml)) :=
  match value with
  | some (.mapping (entry :: entries)) => .ok (entry :: entries)
  | _ => .error (.value message)

/-- `TaskCatalog.__init__`, given the document -/
def TaskCatalog.load (py : PyRepr) (document : List (Yaml × Yaml)) :
    Except CatalogError TaskCatalog := do
  exactKeys document ["schema_version", "defaults", "scenarios", "tasks"]
    "tracking task catalog"
  if !isVersionOne (Yaml.get document "schema_version") then
    .error (.value "tracking task catalog schema_version must be 1")
  else do
    let rawScenarios ← match Yaml.get document "defaults" with
      | some (.mapping _) =>
        nonEmptyMapping (Yaml.get document "scenarios")
          "tracking task scenarios must be a non-empty mapping"
      | _ => .error (.value "tracking task defaults must be a mapping")
    let rawTasks ← nonEmptyMapping (Yaml.get document "tasks")
      "tracking tasks must be a non-empty mapping"
    let defaults ← taskDefaults (Yaml.get document "defaults")
    let scenarios ← validatedScenarios py [] rawScenarios
    let tasks ← resolvedTasks py defaults scenarios [] rawTasks
    return { tasks }

/-- `TaskCatalog.__init__` -/
def TaskCatalog.loadFile (py : PyRepr) (path : String) (root : Yaml) :
    Except CatalogError TaskCatalog := do
  let document ← loadMapping py path root
  TaskCatalog.load py document

/-- `TaskCatalog.task`, with the text of the exception. -/
def TaskCatalog.task (catalog : TaskCatalog) (taskId : String) : Except String TrackingTask :=
  if isIdentifier taskId then
    match catalog.tasks.lookup taskId with
    | some task => .ok task
    | none => .error ("'unknown managed tracking task: " ++ taskId ++ "'")
  else .error ("task id must match " ++ identifierPattern)

end RobotCore
