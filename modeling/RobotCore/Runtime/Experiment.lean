import RobotCore.Lib.Ieee.Numeric
import RobotCore.Lib.Machine
import RobotCore.Runtime.TaskCatalog

/-!
# The tracking experiment server

`TrackingExperimentNode`: the members its subscriptions write, and `execute` as a coroutine.  A
goal stands where it waits for the reply of a service or for a timer; between two such points it
runs without interruption, so that the goals of the server interleave there and nowhere else.

Every step of a goal comes with what it finds: which services are there, the clock (no step reads
it more than twice) and the reply it waits for.
-/

namespace RobotCore

open Ieee Machine

/-! ### Messages -/

structure AuthorityStatus where
  armed : Bool
  faultLatched : Bool
  selectedSource : String
  armGeneration : ℕ
  deriving DecidableEq

structure ScenarioTarget where
  valid : Bool
  trajectoryType : String
  controlMode : String
  deriving DecidableEq

structure PidStatus where
  ready : Bool
  producingCommand : Bool
  missingInputs : List String
  deriving DecidableEq

structure PolicyStatus where
  loaded : Bool
  inputReady : Bool
  missingInputs : List String
  inferenceCount : ℕ
  deriving DecidableEq

inductive ExperimentMessage where
  | authority (message : AuthorityStatus)
  | trajectoryTarget (message : ScenarioTarget)
  | pidStatus (message : PidStatus)
  | policyStatus (message : PolicyStatus)

structure ExperimentNode where
  authority : Option AuthorityStatus := none
  latestTrajectoryTarget : Option ScenarioTarget := none
  trajectoryTargetSequence : ℕ := 0
  latestPidStatus : Option PidStatus := none
  pidStatusSequence : ℕ := 0
  latestPolicyStatus : Option PolicyStatus := none
  policyStatusSequence : ℕ := 0

/-- `on_authority`, `on_trajectory_target`, `on_pid_status` and `on_policy_status` -/
def ExperimentNode.receive (node : ExperimentNode) : ExperimentMessage → ExperimentNode
  | .authority message => { node with authority := some message }
  | .trajectoryTarget message =>
    { node with
      latestTrajectoryTarget := some message
      trajectoryTargetSequence := node.trajectoryTargetSequence + 1 }
  | .pidStatus message =>
    { node with
      latestPidStatus := some message
      pidStatusSequence := node.pidStatusSequence + 1 }
  | .policyStatus message =>
    { node with
      latestPolicyStatus := some message
      policyStatusSequence := node.policyStatusSequence + 1 }

/-! ### What a goal does -/

inductive Terminal where
  | succeed
  | abort
  | canceled
  deriving DecidableEq

/-- A parameter with its value. -/
abbrev ParameterSetting := (k : TrajectoryParameter) × k.type.Value

inductive ExperimentEvent where
  | setAuthority (source : String) (arm : Bool)
  | startRun (taskName controller : String) (durationS : Binary64)
  | setParameters (parameters : List ParameterSetting)
  | validate
  | reset
  /-- `stop_trajectory`, which sends nothing when the service is not there -/
  | stopTrajectory (sent : Bool)
  | stopRun (success : Bool) (message : String)
  | feedback (progress : Binary64) (phase : String) (elapsedS : Binary64)
  | terminal (transition : Terminal)
  deriving DecidableEq

structure ExperimentResult where
  success : Bool
  runDir : String
  message : String
  deriving DecidableEq

/-- How a run that was started ends. -/
structure RunEnd where
  runDir : String
  success : Bool
  canceled : Bool
  message : String
  deriving DecidableEq

/-- The local variables of `wait_for_tracking_ready`. -/
structure ReadyWait where
  targetSequenceBeforeReset : ℕ
  deadlineNs : ℤ
  controllerSequenceAtTarget : Option ℕ := none
  inferenceCountAtTarget : ℕ := 0
  deriving DecidableEq

/-- What a goal waits for. -/
inductive ExperimentPc where
  | start
  /-- the answer to the request that disarms the current source -/
  | neutralizing
  | selecting
  | waitingDisarmed (deadlineNs : ℤ)
  /-- the answer to the last request of a goal that started no run -/
  | disarmingUnstarted (message : String)
  | startingRun
  | configuring (runDir : String)
  | validating (runDir : String)
  | resetting (runDir : String) (targetSequenceBeforeReset : ℕ)
  | waitingReady (runDir : String) (wait : ReadyWait)
  | arming (runDir : String) (armGenerationBefore : ℕ)
  | waitingArmed (runDir : String) (armGenerationBefore : ℕ) (deadlineNs : ℤ)
  /-- the answer to the second reset -/
  | startingOfficially (runDir : String)
  | running (runDir : String) (startedNs : ℤ)
  | stoppingTrajectory (ending : RunEnd)
  | disarming (ending : RunEnd)
  | stoppingRun (ending : RunEnd)
  | done (result : ExperimentResult)
  deriving DecidableEq

/-! ### What a step finds -/

inductive ExperimentService where
  | authority
  | runStart
  | parameters
  | validate
  | reset
  | trajectoryStop
  deriving DecidableEq

inductive ServiceReply where
  /-- the goal begins -/
  | begin
  | timer
  | authority (accepted armed : Bool) (message : String)
  | startRun (success : Bool) (runDir message : String)
  | parameters (successful : List Bool)
  | trigger (success : Bool) (message : String)
  | stopRun
  deriving DecidableEq

structure Wakeup where
  available : ExperimentService → Bool
  nowNs : ℤ
  laterNs : ℤ
  reply : ServiceReply

/-! ### The coroutine -/

abbrev Progress := List ExperimentEvent × ExperimentPc

/-- Events before the others. -/
def Progress.after (progress : Progress) (events : List ExperimentEvent) : Progress :=
  (events ++ progress.1, progress.2)

/-- `finish(goal_handle, False, message)` -/
def refuse (message : String) : Progress :=
  ([.terminal .abort], .done { success := false, runDir := "", message })

section Execute

variable (task : TrackingTask) (node : ExperimentNode) (w : Wakeup)

/-- `await self.set_authority(source, arm)`, with what follows when there is no such service. -/
def setAuthority (source : String) (arm : Bool) (pc : ExperimentPc) (unavailable : Progress) :
    Progress :=
  if w.available .authority then ([.setAuthority source.toLower arm], pc) else unavailable

/-- The end of `execute`, and of `fail_active_run`. -/
def finishRun (ending : RunEnd) : Progress :=
  (if ending.success then [.terminal .succeed]
    else if ending.canceled then [] else [.terminal .abort],
    .done { success := ending.success, runDir := ending.runDir, message := ending.message })

/-- `await self.stop_run(success, message)` -/
def stopRun (ending : RunEnd) : Progress :=
  ([.stopRun ending.success ending.message], .stoppingRun ending)

/-- `await self.disarm(controller)` for a run. -/
def disarmRun (ending : RunEnd) : Progress :=
  setAuthority w task.controller.name false (.disarming ending) (stopRun ending)

/-- `await self.stop_trajectory()` and what follows. -/
def closeRun (ending : RunEnd) : Progress :=
  if w.available .trajectoryStop then ([.stopTrajectory true], .stoppingTrajectory ending)
  else (disarmRun task w ending).after [.stopTrajectory false]

/-- `fail_active_run` -/
def failActiveRun (runDir message : String) : Progress :=
  closeRun task w { runDir, success := false, canceled := false, message }

/-- `(now - started) * 1e-9` -/
def elapsedS (startedNs nowNs : ℤ) : Binary64 :=
  Number.ofRat binary64 (nowNs - startedNs : ℤ) * Number.ofRat binary64 (1 / 10 ^ 9)

/-- The feedback of one round. -/
def runFeedback (elapsed : Binary64) : ExperimentEvent :=
  let one := Number.ofRat binary64 1
  let smallest := Number.ofRat binary64 (1 / 10 ^ 6)
  let duration := if task.durationS.lt smallest then smallest else task.durationS
  let fraction := elapsed.divide duration
  let hold := (task.trajectory .holdBeforeMotionS).getD (0 : Binary64)
  .feedback (if task.runUntilStopped then 0 else if fraction.lt one then fraction else one)
    (if elapsed.lt hold then "hold" else "tracking") elapsed

/-- One round of the loop of `execute`. -/
def runLoop (cancelRequested : Bool) (runDir : String) (startedNs nowNs : ℤ) : Progress :=
  let elapsed := elapsedS startedNs nowNs
  if !task.runUntilStopped && task.durationS.le elapsed then
    closeRun task w { runDir, success := true, canceled := false, message := "completed" }
  else if cancelRequested then
    (closeRun task w
      { runDir, success := false, canceled := true, message := "canceled and disarmed" }).after
        [.terminal .canceled]
  else
    let healthy := node.authority.any fun authority =>
      authority.armed && authority.selectedSource == task.controller.name &&
        !authority.faultLatched
    if healthy then ([runFeedback task elapsed], .running runDir startedNs)
    else
      closeRun task w
        { runDir, success := false, canceled := false,
          message := "authority disarmed or faulted during experiment" }

/-- `controller.upper()` -/
def controllerLabel : String := task.controller.name.toUpper

/-- The loop of `wait_for_armed_status`, and the second reset. -/
def awaitArmed (runDir : String) (armGenerationBefore : ℕ) (deadlineNs nowNs : ℤ) : Progress :=
  if nowNs < deadlineNs then
    let confirmed := node.authority.any fun authority =>
      authority.armed && !authority.faultLatched &&
        authority.selectedSource == task.controller.name &&
        decide (armGenerationBefore < authority.armGeneration)
    if confirmed then ([.reset], .startingOfficially runDir)
    else ([], .waitingArmed runDir armGenerationBefore deadlineNs)
  else
    failActiveRun task w runDir
      (controllerLabel task ++ " re-arm was not confirmed by authority status")

/-- The request that arms. -/
def requestArming (runDir : String) : Progress :=
  let armGenerationBefore := (node.authority.map (·.armGeneration)).getD 0
  setAuthority w task.controller.name true (.arming runDir armGenerationBefore)
    (failActiveRun task w runDir
      (controllerLabel task ++
        " re-arm after trajectory reset failed: control authority service unavailable"))

/-- The target of the scenario has been seen since the reset. -/
def targetSeen (wait : ReadyWait) : Bool :=
  decide (wait.targetSequenceBeforeReset < node.trajectoryTargetSequence) &&
    node.latestTrajectoryTarget.any fun target =>
      target.valid &&
        target.trajectoryType.toLower == task.trajectory.trajectoryType.toLower &&
        target.controlMode.toLower == task.controlMode.toLower

/-- The first check of a round of `wait_for_tracking_ready`. -/
def markTarget (wait : ReadyWait) : ReadyWait :=
  if wait.controllerSequenceAtTarget.isNone && targetSeen task node wait then
    match task.controller with
    | .pid => { wait with controllerSequenceAtTarget := some node.pidStatusSequence }
    | .rl =>
      { wait with
        controllerSequenceAtTarget := some node.policyStatusSequence
        inferenceCountAtTarget :=
          (node.latestPolicyStatus.map (·.inferenceCount)).getD wait.inferenceCountAtTarget }
  else wait

/-- The second check: the controller has answered since. -/
def controllerReady (wait : ReadyWait) : Bool :=
  match task.controller with
  | .pid =>
    wait.controllerSequenceAtTarget.any (fun sequence => decide (sequence < node.pidStatusSequence))
      && node.latestPidStatus.any fun pid =>
        pid.ready && pid.producingCommand && pid.missingInputs.isEmpty
  | .rl =>
    wait.controllerSequenceAtTarget.any
      (fun sequence => decide (sequence < node.policyStatusSequence)) &&
      node.latestPolicyStatus.any fun policy =>
        policy.loaded && policy.inputReady && policy.missingInputs.isEmpty &&
          decide (wait.inferenceCountAtTarget < policy.inferenceCount)

/-- The loop of `wait_for_tracking_ready`. -/
def awaitReady (runDir : String) (wait : ReadyWait) (nowNs : ℤ) : Progress :=
  if nowNs < wait.deadlineNs then
    let wait := markTarget task node wait
    if controllerReady task node wait then requestArming task node w runDir
    else ([], .waitingReady runDir wait)
  else
    failActiveRun task w runDir
      ("reset trajectory target and ready " ++ controllerLabel task ++
        " command were not observed")

/-- The parameters of the request: the values of the scenario, and the control mode. -/
def scenarioParameters : List ParameterSetting :=
  let scenario := task.trajectory.set .controlMode task.controlMode
  TrajectoryParameter.all.filterMap fun k => (scenario k).map fun value => ⟨k, value⟩

/-- From the answer of the recorder to the request with the parameters. -/
def configure (runDir : String) : Progress :=
  if w.available .parameters then
    ([.setParameters (scenarioParameters task)], .configuring runDir)
  else failActiveRun task w runDir "trajectory parameter service unavailable"

/-- `await self.disarm(controller)` and `finish`, without a run. -/
def disarmUnstarted (message : String) : Progress :=
  setAuthority w task.controller.name false (.disarmingUnstarted message) (refuse message)

/-- The request that starts the run. -/
def requestRun : Progress :=
  if w.available .runStart then
    ([.startRun task.name task.controller.name task.durationS], .startingRun)
  else disarmUnstarted task w "run recorder service unavailable"

/-- The loop of `wait_for_disarmed_status`. -/
def awaitDisarmed (deadlineNs nowNs : ℤ) : Progress :=
  if nowNs < deadlineNs then
    let confirmed := node.authority.any fun authority =>
      !authority.armed && !authority.faultLatched &&
        authority.selectedSource == task.controller.name
    if confirmed then requestRun task w else ([], .waitingDisarmed deadlineNs)
  else refuse (controllerLabel task ++ " disarmed selection was not confirmed")

/-- The request that selects the controller. -/
def requestSelection : Progress :=
  setAuthority w task.controller.name false .selecting
    (refuse ("could not select " ++ controllerLabel task ++ " while disarmed"))

/-- The beginning of `execute`, with the task. -/
def beginExecution : Progress :=
  if node.authority.all (·.faultLatched) then
    refuse (controllerLabel task ++ " authority status must be available and healthy")
  else
    setAuthority w "" false .neutralizing
      (refuse "could not disarm current authority before preparing trajectory")

/-- `0.5` and `1.0` seconds. -/
def halfSecondNs : ℤ := 500000000
def oneSecondNs : ℤ := 1000000000

/-- From one suspension of `execute` to the next; `none` for a reply that is not waited for. -/
def resume (cancelRequested : Bool) (pc : ExperimentPc) : Option Progress :=
  match pc, w.reply with
  | .start, .begin => some (beginExecution task node w)
  | .neutralizing, .authority accepted _ _ =>
    some
      (if accepted then requestSelection task w
        else refuse "could not disarm current authority before preparing trajectory")
  | .selecting, .authority accepted _ _ =>
    some
      (if accepted then awaitDisarmed task node w (w.nowNs + halfSecondNs) w.laterNs
        else refuse ("could not select " ++ controllerLabel task ++ " while disarmed"))
  | .waitingDisarmed deadlineNs, .timer => some (awaitDisarmed task node w deadlineNs w.nowNs)
  | .disarmingUnstarted message, .authority _ _ _ => some (refuse message)
  | .startingRun, .startRun success runDir message =>
    some (if success then configure task w runDir else disarmUnstarted task w message)
  | .configuring runDir, .parameters successful =>
    some
      (if !successful.all id then
          failActiveRun task w runDir "trajectory scenario parameters rejected"
        else if w.available .validate then ([.validate], .validating runDir)
        else failActiveRun task w runDir "trajectory validation service unavailable")
  | .validating runDir, .trigger success message =>
    some
      (if !success then failActiveRun task w runDir message
        else if w.available .reset then
          ([.reset], .resetting runDir node.trajectoryTargetSequence)
        else failActiveRun task w runDir "trajectory reset service unavailable")
  | .resetting runDir targetSequenceBeforeReset, .trigger success message =>
    some
      (if success then
          awaitReady task node w runDir
            { targetSequenceBeforeReset, deadlineNs := w.nowNs + oneSecondNs } w.laterNs
        else failActiveRun task w runDir message)
  | .waitingReady runDir wait, .timer => some (awaitReady task node w runDir wait w.nowNs)
  | .arming runDir armGenerationBefore, .authority accepted armed message =>
    some
      (if accepted && armed then
          awaitArmed task node w runDir armGenerationBefore (w.nowNs + halfSecondNs) w.laterNs
        else
          failActiveRun task w runDir
            (controllerLabel task ++ " re-arm after trajectory reset failed: " ++ message))
  | .waitingArmed runDir armGenerationBefore deadlineNs, .timer =>
    some (awaitArmed task node w runDir armGenerationBefore deadlineNs w.nowNs)
  | .startingOfficially runDir, .trigger success message =>
    some
      (if success then runLoop task node w cancelRequested runDir w.nowNs w.laterNs
        else failActiveRun task w runDir message)
  | .running runDir startedNs, .timer =>
    some (runLoop task node w cancelRequested runDir startedNs w.nowNs)
  | .stoppingTrajectory ending, .trigger _ _ => some (disarmRun task w ending)
  | .disarming ending, .authority _ _ _ => some (stopRun ending)
  | .stoppingRun ending, .stopRun => some (finishRun ending)
  | _, _ => none

end Execute

/-! ### The server -/

structure ExperimentGoal where
  pc : ExperimentPc := .start
  cancelRequested : Bool := false

/-- The step of a goal, for the task the catalog has for it or the text of the exception. -/
def resumeGoal (task : Except String TrackingTask) (node : ExperimentNode) (goal : ExperimentGoal)
    (w : Wakeup) : Option Progress :=
  match task with
  | .ok task => resume task node w goal.cancelRequested goal.pc
  | .error reason =>
    match goal.pc, w.reply with
    | .start, .begin =>
      some (refuse ("managed tracking task is unavailable or invalid: " ++ reason))
    | _, _ => none

structure ExperimentServer (ι : Type) where
  node : ExperimentNode := {}
  goals : ι → ExperimentGoal := fun _ => {}

inductive ExperimentInput (ι : Type) where
  | receive (message : ExperimentMessage)
  | cancel (i : ι)
  | resume (i : ι) (w : Wakeup)

section Server

variable {ι : Type} [DecidableEq ι] (tasks : ι → Except String TrackingTask)

def experimentStep (s : ExperimentServer ι) :
    ExperimentInput ι → Option (ExperimentServer ι × List ExperimentEvent)
  | .receive message => some ({ s with node := s.node.receive message }, [])
  | .cancel i =>
    let goal := { s.goals i with cancelRequested := true }
    some ({ s with goals := Function.update s.goals i goal }, [])
  | .resume i w =>
    (resumeGoal (tasks i) s.node (s.goals i) w).map fun (events, pc) =>
      ({ s with goals := Function.update s.goals i { s.goals i with pc } }, events)

/-- One lifetime of the server, with the goals it is sent; the tasks are those of its catalog. -/
def experimentMachine :
    Machine (ExperimentServer ι) (ExperimentInput ι) (List ExperimentEvent) where
  init := {}
  step := experimentStep tasks

end Server

abbrev ExperimentTransition (ι : Type) :=
  Transition (ExperimentServer ι) (ExperimentInput ι) (List ExperimentEvent)

abbrev ExperimentHistory (ι : Type) :=
  History (ExperimentServer ι) (ExperimentInput ι) (List ExperimentEvent)

end RobotCore
