import RobotCore.Lib.Machine
import RobotCore.Trajectory.Envelope

/-!
# The trajectory command node

The subscriptions, the services and the timer of `TrajectoryCommandNode`.
-/

namespace RobotCore

open Scalar Machine

variable {α : Type} [Scalar α]

/-! ### Subscriptions -/

def onBodyPose (node : TrajectoryNode α) (msg : BodyPose α) : TrajectoryNode α :=
  if !(msg.stateValid || msg.positionEstimated) || !msg.position.allFinite then node
  else
    let norm := msg.orientation.norm
    let node := { node with latestPosition := some msg.position }
    let node :=
      if isFinite norm && lt smallNorm norm then
        { node with latestMapYaw := some (quaternionToRpy (msg.orientation.divide norm)).z }
      else node
    if node.initialPosition.isNone then
      { node with initialPosition := some msg.position, envelopeChecked := false }
    else node

def onImu (node : TrajectoryNode α) (msg : ImuReading α) : TrajectoryNode α :=
  let norm := msg.orientation.norm
  match node.latestMapYaw with
  | none => node
  | some yaw =>
    if msg.frameId != "base_link" || lt msg.orientationCovariance (ofRat 0) || !isFinite norm ||
        le norm smallNorm then node
    else
      let rpy := quaternionToRpy (msg.orientation.divide norm)
      let quaternion := rpyQuaternion rpy.x rpy.y yaw
      { node with
        latestQuaternion := some quaternion
        latestAngularVelocity :=
          if msg.angularVelocity.allFinite then some msg.angularVelocity else none
        initialQuaternion := node.initialQuaternion <|> some quaternion }

def onManualCommand (node : TrajectoryNode α) (msg : ManualCommand α) (nowNs : ℤ) :
    TrajectoryNode α :=
  if msg.source != "web_operator" then node
  else { node with manualCommand := some msg, manualCommandNs := some nowNs }

def onOperatorTargetInput (node : TrajectoryNode α) (msg : OperatorInput α) (nowNs : ℤ) :
    TrajectoryNode α :=
  { node with operatorTargetInput := some msg, operatorTargetInputNs := some nowNs }

/-! ### Operator inputs -/

/-- `1e-9` seconds for each nanosecond -/
def seconds (ns : ℤ) : α := ofRat ns * ofRat (1 / 10 ^ 9)

/-- The input is older than allowed; one without a time is infinitely old. -/
def TrajectoryNode.tooOld (node : TrajectoryNode α) (stampNs : Option ℤ) (nowNs : ℤ) : Bool :=
  match stampNs with
  | none => true
  | some stampNs => lt node.config.manualInputAgeS (seconds (nowNs - stampNs))

def currentManualHeave (node : TrajectoryNode α) (nowNs : ℤ) : α :=
  match node.manualCommand with
  | none => ofRat 0
  | some command =>
    if node.tooOld node.manualCommandNs nowNs || !command.enable ||
        command.source != "web_operator" then ofRat 0
    else if !command.action.toList.all isFinite then ofRat 0
    else
      let sum := command.action[0] + command.action[1] + command.action[2] + command.action[3]
      clip (sum / ofRat 4) (ofRat (-1)) (ofRat 1)

/-- `1e-3` -/
def inputTolerance : α := ofRat (1 / 10 ^ 3)

/-- The input is not close to zero. -/
def inputActive (value : α) : Bool := !isCloseToZero value inputTolerance

/-- The vertical velocity of a stick. -/
def TrajectoryNode.verticalVelocity (node : TrajectoryNode α) (stick : α) : α :=
  -stick * abs node.config.manualVerticalSpeedMps

def altitudeHoldSample (node : TrajectoryNode α) (nowNs : ℤ) :
    TrajectoryNode α × TrajectorySample α :=
  let position := (node.latestPosition <|> node.motionStartPosition).getD Vec.zero
  let heave := currentManualHeave node nowNs
  let heaveActive := inputActive heave
  let altitudeHoldZ :=
    if heaveActive || node.altitudeHeaveActive then some position.z else node.altitudeHoldZ
  ({ node with altitudeHoldZ, altitudeHeaveActive := heaveActive },
    { position := { position with z := altitudeHoldZ.getD position.z }
      velocity := ⟨ofRat 0, ofRat 0, node.verticalVelocity heave⟩
      acceleration := Vec.zero })

/-- `current_station_input`: forward, left, up and yaw. -/
structure StationInput (α : Type) where
  forward : α
  left : α
  up : α
  yaw : α

def currentStationInput (node : TrajectoryNode α) (nowNs : ℤ) : StationInput α :=
  match node.operatorTargetInput with
  | none => ⟨ofRat 0, ofRat 0, ofRat 0, ofRat 0⟩
  | some input =>
    if node.tooOld node.operatorTargetInputNs nowNs then ⟨ofRat 0, ofRat 0, ofRat 0, ofRat 0⟩
    else
      let limit (value : α) : α := clip value (ofRat (-1)) (ofRat 1)
      ⟨limit input.linear.x, limit input.linear.y, limit input.linear.z, limit input.angularZ⟩

/-! ### Station hold -/

/-- The position of the station target, with the height from one point and the rest from another. -/
def stationPosition (target : Vec α) (latest : Option (Vec α)) (planar heave : Bool) : Vec α :=
  match latest with
  | none => target
  | some latest =>
    { x := if planar then latest.x else target.x
      y := if planar then latest.y else target.y
      z := if heave then latest.z else target.z }

/-- The station target in the box of the pool, when there is one. -/
def TrajectoryConfig.clipToPool (config : TrajectoryConfig α) (point : Vec α) : Vec α :=
  if config.requirePoolBounds then
    match Vec.ofList? config.poolMinXyz, Vec.ofList? config.poolMaxXyz with
    | some lower, some upper =>
      ⟨clip point.x lower.x upper.x, clip point.y lower.y upper.y, clip point.z lower.z upper.z⟩
    | _, _ => point
  else point

structure StationTarget (α : Type) where
  sample : TrajectorySample α
  orientation : Quat α
  angularVelocity : Vec α

def stationHoldTarget (node : TrajectoryNode α) (nowNs : ℤ) :
    TrajectoryNode α × StationTarget α :=
  let position := node.stationTargetPosition.getD
    ((node.motionStartPosition <|> node.latestPosition).getD Vec.zero)
  let quaternion := node.stationTargetQuaternion.getD
    (levelHeadingQuaternion
      ((node.motionStartQuaternion <|> node.latestQuaternion).getD Quat.identity))
  let input := currentStationInput node nowNs
  let planarActive := inputActive input.forward || inputActive input.left
  let heaveActive := inputActive input.up
  let yawActive := inputActive input.yaw
  let position := stationPosition position node.latestPosition
    (planarActive || node.stationPlanarActive) (heaveActive || node.stationHeaveActive)
  let quaternion :=
    match node.latestQuaternion with
    | some latest =>
      if yawActive || node.stationYawActive then
        rpyQuaternion (ofRat 0) (ofRat 0) (quaternionToRpy latest).z
      else quaternion
    | none => quaternion
  let rotation := rotationMatrix
    (levelHeadingQuaternion (node.latestQuaternion.getD quaternion))
  let planarWorld := rotation.apply
    ⟨input.forward * abs node.config.stationLinearInputGainMps,
      input.left * abs node.config.stationLateralInputGainMps, ofRat 0⟩
  let angularWorld := rotation.apply
    ⟨ofRat 0, ofRat 0, input.yaw * abs node.config.stationYawInputGainRps⟩
  let position := node.config.clipToPool position
  ({ node with
      stationTargetPosition := some position
      stationTargetQuaternion := some quaternion
      stationPlanarActive := planarActive
      stationHeaveActive := heaveActive
      stationYawActive := yawActive },
    { sample :=
        { position
          velocity := ⟨planarWorld.x, planarWorld.y, node.verticalVelocity input.up⟩
          acceleration := Vec.zero }
      orientation := quaternion
      angularVelocity := angularWorld })

/-! ### Services -/

structure TriggerResponse where
  success : Bool
  message : String
  deriving DecidableEq

def incompatible (node : TrajectoryNode α) : TriggerResponse :=
  ⟨false, "trajectory " ++ node.config.activeType ++ " is incompatible with control mode " ++
    node.config.activeMode⟩

/-- The targets of a hold are those at its start. -/
def latchHold (node : TrajectoryNode α) : TrajectoryNode α :=
  if node.config.activeType == "hold" && node.config.activeMode == "altitude_hold" then
    { node with altitudeHoldZ := some node.config.centerZ, altitudeHeaveActive := false }
  else if node.config.activeType == "hold" && isStation node.config.activeMode then
    { node with
      stationTargetPosition := node.motionStartPosition.map fun position =>
        if node.config.activeMode == "station_hold" then
          { position with z := node.config.centerZ }
        else position
      stationTargetQuaternion := node.motionStartQuaternion.map levelHeadingQuaternion
      stationPlanarActive := false
      stationHeaveActive := false
      stationYawActive := false }
  else node

def onResetScenario (node : TrajectoryNode α) (nowNs : ℤ) :
    TrajectoryNode α × TriggerResponse :=
  let trajectoryType := node.config.activeType
  if !controlModeIsCompatible trajectoryType node.config.activeMode then (node, incompatible node)
  else if isManaged trajectoryType && node.motionStartPosition.isNone then
    (node, ⟨false, trajectoryType ++ " requires a validated current body pose"⟩)
  else if isManaged trajectoryType && node.motionStartQuaternion.isNone then
    (node, ⟨false, trajectoryType ++ " requires a validated current attitude"⟩)
  else
    ({ latchHold node with startedNs := nowNs, trackingStarted := true },
      ⟨true, "trajectory tracking started at 0.00 s"⟩)

def onStopScenario (node : TrajectoryNode α) (nowNs : ℤ) : TrajectoryNode α × TriggerResponse :=
  ({ node with
      trackingStarted := false
      startedNs := nowNs
      motionStartPosition := none
      motionStartQuaternion := none
      altitudeHoldZ := none
      altitudeHeaveActive := false
      stationTargetPosition := none
      stationTargetQuaternion := none
      stationPlanarActive := false
      stationHeaveActive := false
      stationYawActive := false
      operatorTargetInput := none
      operatorTargetInputNs := none
      manualCommand := none
      manualCommandNs := none },
    ⟨true, "trajectory ready; target time held at 0.00 s"⟩)

/-- `validate_scenario_envelope` with its result in the members. -/
def checkEnvelope (node : TrajectoryNode α) : TrajectoryNode α :=
  match node.validateScenarioEnvelope with
  | .ok () =>
    { node with envelopeChecked := true, envelopeValid := true, envelopeRejectionReason := "" }
  | .error reason =>
    { node with
      envelopeChecked := true, envelopeValid := false, envelopeRejectionReason := reason }

def envelopeResponse (node : TrajectoryNode α) : TriggerResponse :=
  if node.envelopeValid then ⟨true, "trajectory envelope is inside all configured limits"⟩
  else if node.envelopeRejectionReason.isEmpty then
    ⟨false, "trajectory envelope or safety limits are invalid"⟩
  else ⟨false, node.envelopeRejectionReason⟩

def onValidateScenario (node : TrajectoryNode α) : TrajectoryNode α × TriggerResponse :=
  let trajectoryType := node.config.activeType
  if !controlModeIsCompatible trajectoryType node.config.activeMode then
    ({ node with envelopeValid := false, envelopeChecked := true }, incompatible node)
  else if isManaged trajectoryType then
    if node.latestPosition.isNone || node.latestQuaternion.isNone then
      ({ node with envelopeValid := false, envelopeChecked := true },
        ⟨false, trajectoryType ++ " requires a current valid body pose"⟩)
    else
      let node := checkEnvelope
        { node with
          motionStartPosition := node.latestPosition
          motionStartQuaternion := node.latestQuaternion }
      (node, envelopeResponse node)
  else
    let node := checkEnvelope
      { node with motionStartPosition := none, motionStartQuaternion := none }
    (node, envelopeResponse node)

/-! ### The timer -/

/-- The point lies in the box of the pool. -/
def TrajectoryConfig.inPool (config : TrajectoryConfig α) (point : Vec α) : Bool :=
  match config.poolBox? with
  | some (lower, upper) => point.inBox lower upper
  | none => false

def targetIsValid (node : TrajectoryNode α) (position : Vec α) : TrajectoryNode α × Bool :=
  if node.config.relativeToInitialPose && node.motionStartPosition.isNone &&
      node.initialPosition.isNone then (node, false)
  else if !node.config.requirePoolBounds then (node, true)
  else
    let node := if node.envelopeChecked then node else checkEnvelope node
    (node, node.envelopeValid && node.config.inPool position)

def idleTargetIsValid (node : TrajectoryNode α) (position : Vec α) : Bool :=
  node.latestPosition.isSome &&
    (!node.config.requirePoolBounds || node.config.inPool position)

/-- `idle_hold_sample` -/
def idleHoldSample (node : TrajectoryNode α) : TrajectorySample α :=
  .still (node.latestPosition.getD node.config.center)

/-- `trajectory_time_s` -/
def TrajectoryNode.timeS (node : TrajectoryNode α) (nowNs : ℤ) : α :=
  if node.trackingStarted then pyMax (ofRat 0) (seconds (nowNs - node.startedNs)) else ofRat 0

/-- The attitude there is, or that of a hold. -/
def TrajectoryNode.measuredAttitude (node : TrajectoryNode α) : Quat α :=
  node.latestQuaternion.getD (node.pathAttitude "hold" (ofRat 0))

/-- What `tick` has computed before it levels the attitude and publishes. -/
structure TickTarget (α : Type) where
  sample : TrajectorySample α
  attitude : AttitudeSample α
  trajectoryType : String
  controlMode : String
  phase : String
  valid : Bool

/-- A target with an attitude at rest. -/
def TrajectoryNode.restingAttitude (node : TrajectoryNode α) : AttitudeSample α :=
  ⟨node.measuredAttitude, Vec.zero, Vec.zero⟩

/-- The target of an idle node. -/
def idleTarget (node : TrajectoryNode α) : TickTarget α :=
  let sample := idleHoldSample node
  { sample, attitude := node.restingAttitude, trajectoryType := "idle", controlMode := "idle"
    phase := "idle", valid := idleTargetIsValid node sample.position }

/-- The target of the scenario, checked. -/
def scenarioTarget (node : TrajectoryNode α) (sample : TrajectorySample α)
    (attitude : AttitudeSample α) (phase : String) : TrajectoryNode α × TickTarget α :=
  let (node, valid) := targetIsValid node sample.position
  (node,
    { sample, attitude, trajectoryType := node.config.activeType
      controlMode := node.config.activeMode, phase, valid })

/-- The branches of `tick` while tracking. -/
def trackingTarget (node : TrajectoryNode α) (nowNs : ℤ) : TrajectoryNode α × TickTarget α :=
  let timeS := node.timeS nowNs
  let trajectoryType := node.config.activeType
  let controlMode := node.config.activeMode
  let holdS := node.config.holdS
  if trajectoryType == "hold" && controlMode == "altitude_hold" then
    let (node, sample) := altitudeHoldSample node nowNs
    scenarioTarget node sample node.restingAttitude "hold"
  else if trajectoryType == "hold" && isStation controlMode then
    let (node, target) := stationHoldTarget node nowNs
    scenarioTarget node target.sample
      ⟨target.orientation, target.angularVelocity, Vec.zero⟩ "hold"
  else if isAutomatic trajectoryType && lt timeS holdS then
    let moveS := node.config.moveS
    scenarioTarget node (node.sampleApproach (pyMin timeS moveS))
      (sampleAttitude node.config node.approachAttitude (pyMax (ofRat 0) (timeS - moveS)))
      (if lt timeS moveS then "start_approach" else "heading_alignment")
  else if isAutomatic trajectoryType then
    let effectiveTimeS := pyMax (ofRat 0) (timeS - holdS)
    scenarioTarget node (node.samplePath trajectoryType effectiveTimeS)
      (sampleAttitude node.config (node.pathAttitude trajectoryType) effectiveTimeS) "tracking"
  else
    (node,
      { sample := idleHoldSample node, attitude := node.restingAttitude, trajectoryType, controlMode
        phase := "invalid", valid := false })

/-- The message of a target: level, and turning about the vertical only. -/
def TickTarget.message (target : TickTarget α) (timeS : α) : TrajectoryTarget α where
  position := target.sample.position
  orientation := levelHeadingQuaternion target.attitude.orientation
  velocity := target.sample.velocity
  angularVelocity := ⟨ofRat 0, ofRat 0, target.attitude.angularVelocity.z⟩
  acceleration := target.sample.acceleration
  angularAcceleration := ⟨ofRat 0, ofRat 0, target.attitude.angularAcceleration.z⟩
  trajectoryType := target.trajectoryType
  controlMode := target.controlMode
  trajectoryPhase := target.phase
  timeS := timeS
  valid := target.valid

/-- `tick` -/
def trajectoryTick (node : TrajectoryNode α) (nowNs : ℤ) :
    TrajectoryNode α × TrajectoryTarget α :=
  let timeS := node.timeS nowNs
  if node.trackingStarted then
    let (node', target) := trackingTarget node nowNs
    let compatible := controlModeIsCompatible node.config.activeType node.config.activeMode
    (node', { target with valid := target.valid && compatible }.message timeS)
  else (node, (idleTarget node).message timeS)

/-! ### The machine -/

inductive TrajectoryInput (α : Type) where
  | bodyPose (msg : BodyPose α)
  | imu (msg : ImuReading α)
  | manualCommand (msg : ManualCommand α) (nowNs : ℤ)
  | operatorTargetInput (msg : OperatorInput α) (nowNs : ℤ)
  | reset (nowNs : ℤ)
  | stop (nowNs : ℤ)
  | validate
  | setParameters (config : TrajectoryConfig α)
  | tick (nowNs : ℤ)

/-- What a callback hands out. -/
structure TrajectoryOutput (α : Type) where
  response : Option TriggerResponse := none
  target : Option (TrajectoryTarget α) := none

def trajectoryCallback (node : TrajectoryNode α) :
    TrajectoryInput α → TrajectoryNode α × TrajectoryOutput α
  | .bodyPose msg => (onBodyPose node msg, {})
  | .imu msg => (onImu node msg, {})
  | .manualCommand msg nowNs => (onManualCommand node msg nowNs, {})
  | .operatorTargetInput msg nowNs => (onOperatorTargetInput node msg nowNs, {})
  | .reset nowNs =>
    let (node, response) := onResetScenario node nowNs
    (node, { response := some response })
  | .stop nowNs =>
    let (node, response) := onStopScenario node nowNs
    (node, { response := some response })
  | .validate =>
    let (node, response) := onValidateScenario node
    (node, { response := some response })
  | .setParameters config => ({ node with config }, {})
  | .tick nowNs =>
    let (node, target) := trajectoryTick node nowNs
    (node, { target := some target })

/-- One lifetime of the node, from its parameters on. -/
def trajectoryMachine (config : TrajectoryConfig α) (startedNs : ℤ) :
    Machine (TrajectoryNode α) (TrajectoryInput α) (TrajectoryOutput α) where
  init := { config, startedNs }
  step node input := some (trajectoryCallback node input)

abbrev TrajectoryTransition (α : Type) :=
  Transition (TrajectoryNode α) (TrajectoryInput α) (TrajectoryOutput α)

abbrev TrajectoryHistory (α : Type) :=
  History (TrajectoryNode α) (TrajectoryInput α) (TrajectoryOutput α)

end RobotCore
