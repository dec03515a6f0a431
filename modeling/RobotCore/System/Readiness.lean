import RobotCore.Pid.Status
import RobotCore.System.Experiment
import RobotCore.Trajectory.Node

/-!
# From a reset to a ready controller

The experiment server, the trajectory node and the PID node.  Every target the trajectory node
publishes and every status the PID node publishes is kept with its number, and a link holds the
numbers of the messages that are on their way: a delivery hands out one of them and drops the older
ones.  The goals of the server interleave, and their calls wait to be served and then for the goal
to go on.  The recorder starts a run while no goal has one; otherwise what it and the authority
answer is arbitrary, as are the sensors.
-/

namespace RobotCore

open Ieee Machine Scalar

/-- A parameter is set; `period_s` is not read by the node. -/
def TrajectoryConfig.set {α : Type} (ofDouble : Binary64 → α) (config : TrajectoryConfig α) :
    ParameterSetting → TrajectoryConfig α
  | ⟨.trajectoryType, value⟩ => { config with trajectoryType := value }
  | ⟨.controlMode, value⟩ => { config with controlMode := value }
  | ⟨.attitudeMode, value⟩ => { config with attitudeMode := value }
  | ⟨.relativeToInitialPose, value⟩ => { config with relativeToInitialPose := value }
  | ⟨.centerX, value⟩ => { config with centerX := ofDouble value }
  | ⟨.centerY, value⟩ => { config with centerY := ofDouble value }
  | ⟨.centerZ, value⟩ => { config with centerZ := ofDouble value }
  | ⟨.holdBeforeMotionS, value⟩ => { config with holdBeforeMotionS := ofDouble value }
  | ⟨.ampX, value⟩ => { config with ampX := ofDouble value }
  | ⟨.ampY, value⟩ => { config with ampY := ofDouble value }
  | ⟨.ampZ, value⟩ => { config with ampZ := ofDouble value }
  | ⟨.radiusM, value⟩ => { config with radiusM := ofDouble value }
  | ⟨.periodS, _⟩ => config
  | ⟨.trajectorySpeedMps, value⟩ => { config with trajectorySpeedMps := ofDouble value }
  | ⟨.trajectoryRampS, value⟩ => { config with trajectoryRampS := ofDouble value }
  | ⟨.moveDurationS, value⟩ => { config with moveDurationS := ofDouble value }
  | ⟨.manualVerticalSpeedMps, value⟩ => { config with manualVerticalSpeedMps := ofDouble value }
  | ⟨.stationLinearInputGainMps, value⟩ =>
    { config with stationLinearInputGainMps := ofDouble value }
  | ⟨.stationLateralInputGainMps, value⟩ =>
    { config with stationLateralInputGainMps := ofDouble value }
  | ⟨.stationYawInputGainRps, value⟩ => { config with stationYawInputGainRps := ofDouble value }

/-- What the PID node and the experiment server read of a target. -/
def TrajectoryTarget.scenario {α : Type} (target : TrajectoryTarget α) : ScenarioTarget :=
  ⟨target.valid, target.trajectoryType, target.controlMode⟩

/-- A status with the number of the target its tick has used. -/
structure UsedStatus where
  status : PidStatus
  target : Option ℕ

structure ReadinessSystem (α : Type) where
  server : ExperimentServer ℕ := {}
  /-- the goal that has a run -/
  active : Option ℕ := none
  calls : ℕ → Option PendingCall := fun _ => none
  trajectory : TrajectoryNode α
  pid : PidReadiness
  /-- the targets and the statuses that were published, oldest first -/
  targets : List ScenarioTarget := []
  statuses : List UsedStatus := []
  /-- the numbers of the messages on their way, oldest first -/
  targetsToPid : List ℕ := []
  targetsToServer : List ℕ := []
  statusesToServer : List ℕ := []
  /-- the target the PID node holds and the status the server holds -/
  pidTarget : Option ℕ := none
  latestStatus : Option ℕ := none
  /-- the number of targets when the last reset was requested -/
  resetRequested : ℕ := 0

inductive ReadinessInput (α : Type) where
  | resume (i : ℕ) (w : Wakeup)
  | cancel (i : ℕ)
  | authority (message : AuthorityStatus)
  | policy (message : PolicyStatus)
  /-- the call of a goal is served, by a service outside the trajectory node with this reply -/
  | serve (i : ℕ) (nowNs : ℤ) (reply : ServiceReply)
  | bodyPose (msg : BodyPose α)
  | imu (msg : ImuReading α)
  | manualCommand (msg : ManualCommand α) (nowNs : ℤ)
  | operatorTargetInput (msg : OperatorInput α) (nowNs : ℤ)
  | trajectoryTick (nowNs : ℤ)
  | pidSelection (message : ControlAuthorityStatus)
  | pidBody (message : PidBody) (nowNs : ℤ)
  | pidImu (nowNs : ℤ)
  | pidTick (nowNs : ℤ) (law : PidLaw)
  /-- the message after `skipped` others is delivered -/
  | targetToPid (skipped : ℕ) (nowNs : ℤ)
  | targetToServer (skipped : ℕ)
  | statusToServer (skipped : ℕ)

section System

variable {α : Type} [Scalar α] (ofDouble : Binary64 → α) (catalog : TaskCatalog)
  (requests : ℕ → String)

/-- A request of the goal that is executed reaches the trajectory node. -/
def serveTrajectory (s : ReadinessSystem α) (event : ExperimentEvent) (nowNs : ℤ) :
    Option (ReadinessSystem α × ServiceReply) :=
  match event with
  | .setParameters settings =>
    let config := settings.foldl (TrajectoryConfig.set ofDouble) s.trajectory.config
    some ({ s with trajectory := { s.trajectory with config } },
      .parameters (settings.map fun _ => true))
  | .validate =>
    let (trajectory, response) := onValidateScenario s.trajectory
    some ({ s with trajectory }, .trigger response.success response.message)
  | .reset =>
    let (trajectory, response) := onResetScenario s.trajectory nowNs
    some ({ s with trajectory }, .trigger response.success response.message)
  | .stopTrajectory _ =>
    let (trajectory, response) := onStopScenario s.trajectory nowNs
    some ({ s with trajectory }, .trigger response.success response.message)
  | _ => none

/-- The goal has told the recorder to stop its run. -/
def ExperimentPc.hasStopped : ExperimentPc → Bool
  | .stoppingRun _ | .done _ => true
  | _ => false

/-- The goal that has a run after a goal has come to `pc`. -/
def ReadinessSystem.activeAfter (s : ReadinessSystem α) (i : ℕ) (pc : ExperimentPc) : Option ℕ :=
  if s.active == some i && pc.hasStopped then none else s.active

def resumeExecution (s : ReadinessSystem α) (i : ℕ) (w : Wakeup) :
    Option (ReadinessSystem α × List ExperimentEvent) :=
  if answers (s.calls i) w.reply then
    (experimentStep (fun i => catalog.task (requests i)) s.server (.resume i w)).map
      fun (server, events) =>
        ({ s with
            server
            active := s.activeAfter i (server.goals i).pc
            calls := Function.update s.calls i (newCall events)
            resetRequested :=
              if events.contains .reset then s.targets.length else s.resetRequested }, events)
  else none

/-- A message reaches the server. -/
def ReadinessSystem.receive (s : ReadinessSystem α) (message : ExperimentMessage) :
    ReadinessSystem α :=
  { s with server := { s.server with node := s.server.node.receive message } }

/-- The tick of the trajectory node; the PID node is connected while it is selected. -/
def publishTarget (s : ReadinessSystem α) (nowNs : ℤ) : ReadinessSystem α :=
  let (trajectory, target) := trajectoryTick s.trajectory nowNs
  let number := s.targets.length
  { s with
    trajectory
    targets := s.targets ++ [target.scenario]
    targetsToPid := if s.pid.pidSelected then s.targetsToPid ++ [number] else s.targetsToPid
    targetsToServer := s.targetsToServer ++ [number] }

/-- The tick of the PID node. -/
def publishPidStatus (s : ReadinessSystem α) (nowNs : ℤ) (law : PidLaw) : ReadinessSystem α :=
  match pidTickStatus s.pid nowNs law with
  | (pid, none) => { s with pid }
  | (pid, some status) =>
    { s with
      pid
      statuses := s.statuses ++ [⟨status, s.pidTarget⟩]
      statusesToServer := s.statusesToServer ++ [s.statuses.length] }

/-- The PID node is selected or not; its inputs are disconnected when it is not. -/
def selectPid (s : ReadinessSystem α) (message : ControlAuthorityStatus) : ReadinessSystem α :=
  let pid := onPidSelection s.pid message
  if pid.pidSelected then { s with pid }
  else { s with pid, pidTarget := none, targetsToPid := [] }

def deliverTargetToPid (s : ReadinessSystem α) (skipped : ℕ) (nowNs : ℤ) :
    Option (ReadinessSystem α) :=
  match s.targetsToPid.drop skipped with
  | [] => none
  | number :: rest =>
    s.targets[number]?.map fun target =>
      { s with
        pid := onPidTarget s.pid target nowNs, pidTarget := some number, targetsToPid := rest }

def deliverTargetToServer (s : ReadinessSystem α) (skipped : ℕ) : Option (ReadinessSystem α) :=
  match s.targetsToServer.drop skipped with
  | [] => none
  | number :: rest =>
    s.targets[number]?.map fun target =>
      { s.receive (.trajectoryTarget target) with targetsToServer := rest }

def deliverStatusToServer (s : ReadinessSystem α) (skipped : ℕ) : Option (ReadinessSystem α) :=
  match s.statusesToServer.drop skipped with
  | [] => none
  | number :: rest =>
    s.statuses[number]?.map fun used =>
      { s.receive (.pidStatus used.status) with
        latestStatus := some number, statusesToServer := rest }

/-- The reply is that a run was started. -/
def ServiceReply.startsRun : ServiceReply → Bool
  | .startRun success _ _ => success
  | _ => false

/-- The call of a goal is served. -/
def serveGoal (s : ReadinessSystem α) (i : ℕ) (nowNs : ℤ) (reply : ServiceReply) :
    Option (ReadinessSystem α) :=
  match s.calls i with
  | some (.sent event) =>
    match serveTrajectory ofDouble s event nowNs with
    | some (s, reply) =>
      some { s with calls := Function.update s.calls i (some (.answered reply)) }
    | none =>
      let calls := Function.update s.calls i (some (.answered reply))
      if reply.startsRun then
        if s.active.isNone then some { s with active := some i, calls } else none
      else some { s with calls }
  | _ => none

/-- A sensor message of the trajectory node. -/
def ReadinessSystem.withTrajectory (s : ReadinessSystem α) (trajectory : TrajectoryNode α) :
    Option (ReadinessSystem α × List ExperimentEvent) :=
  some ({ s with trajectory }, [])

def readinessStep (s : ReadinessSystem α) :
    ReadinessInput α → Option (ReadinessSystem α × List ExperimentEvent)
  | .resume i w => resumeExecution catalog requests s i w
  | .cancel i =>
    (experimentStep (fun i => catalog.task (requests i)) s.server (.cancel i)).map
      fun (server, events) => ({ s with server }, events)
  | .authority message => some (s.receive (.authority message), [])
  | .policy message => some (s.receive (.policyStatus message), [])
  | .serve i nowNs reply => (serveGoal ofDouble s i nowNs reply).map fun s => (s, [])
  | .bodyPose msg => s.withTrajectory (onBodyPose s.trajectory msg)
  | .imu msg => s.withTrajectory (onImu s.trajectory msg)
  | .manualCommand msg nowNs => s.withTrajectory (onManualCommand s.trajectory msg nowNs)
  | .operatorTargetInput msg nowNs =>
    s.withTrajectory (onOperatorTargetInput s.trajectory msg nowNs)
  | .trajectoryTick nowNs => some (publishTarget s nowNs, [])
  | .pidSelection message => some (selectPid s message, [])
  | .pidBody message nowNs => some ({ s with pid := onPidBody s.pid message nowNs }, [])
  | .pidImu nowNs => some ({ s with pid := onPidImu s.pid nowNs }, [])
  | .pidTick nowNs law => some (publishPidStatus s nowNs law, [])
  | .targetToPid skipped nowNs => (deliverTargetToPid s skipped nowNs).map fun s => (s, [])
  | .targetToServer skipped => (deliverTargetToServer s skipped).map fun s => (s, [])
  | .statusToServer skipped => (deliverStatusToServer s skipped).map fun s => (s, [])

/-- One lifetime of the three nodes, from their parameters on. -/
def readinessSystem (config : TrajectoryConfig α) (configured : Bool)
    (maxInputAgeS controlRateHz : Binary64) :
    Machine (ReadinessSystem α) (ReadinessInput α) (List ExperimentEvent) where
  init :=
    { trajectory := { config, startedNs := 0 }, pid := { configured, maxInputAgeS, controlRateHz } }
  step := readinessStep ofDouble catalog requests

end System

abbrev ReadinessTransition (α : Type) :=
  Transition (ReadinessSystem α) (ReadinessInput α) (List ExperimentEvent)

abbrev ReadinessHistory (α : Type) :=
  History (ReadinessSystem α) (ReadinessInput α) (List ExperimentEvent)

end RobotCore
