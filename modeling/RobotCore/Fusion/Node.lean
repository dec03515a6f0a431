import RobotCore.Fusion.State
import RobotCore.Lib.Machine

/-!
# The VIO/Tag estimator as a machine

The callbacks of `VioTagFusionComponent`.  An input of the machine is one of them with the message
and the clock readings it takes; the inputs arrive in any order.
-/

namespace RobotCore

open Machine

variable {σ δ ρ P C : Type}

/-! ### Resets -/

namespace FusionKernel

variable (K : FusionKernel σ δ ρ P C) (cfg : FusionConfig)

def clearFilterAndAlignment (s : Fusion σ δ P C) : Fusion σ δ P C :=
  { s with
    history := K.emptyHistory
    mapFromOdom := none
    alignmentCandidates := []
    lastVioMeasurementStampNs := 0
    lastTagCandidateStampNs := 0
    zedStatus := none
    lastImuMeasurementStampNs := 0 }

end FusionKernel

def resetForNewTagMap (s : Fusion σ δ P C) : Fusion σ δ P C :=
  { s with
    mapFromOdom := none
    alignmentCandidates := []
    lastTagCandidateStampNs := 0 }

/-- `RosClockOffsetJumpDetector::update` -/
def clockJumped (last : Option ClockReading) (reading : ClockReading) : Bool :=
  match last with
  | none => false
  | some last =>
    100000000 < ((reading.rosNs - last.rosNs) - (reading.steadyNs - last.steadyNs)).natAbs

/-- A stamp within two seconds of the arrival. -/
def currentEpoch (measurementNs arrivalNs : ℤ) : Bool :=
  0 < measurementNs && arrivalNs - 2000000000 ≤ measurementNs &&
    measurementNs ≤ arrivalNs + 2000000000

namespace FusionKernel

variable (K : FusionKernel σ δ ρ P C) (cfg : FusionConfig)

def resetOnClockJump (s : Fusion σ δ P C) (reading : ClockReading) :
    Fusion σ δ P C × List (FusionEffect δ) :=
  let jumped := clockJumped s.lastReading reading
  let s := { s with lastReading := some reading }
  if jumped then (K.clearFilterAndAlignment s, [.cleared]) else (s, [])

/-! ### IMU -/

/-- Keeps the measurement, and prunes the history when it was accepted. -/
def addMeasurement (s : Fusion σ δ P C) (event : Measurement δ)
    (accepts : MeasurementResult → Bool) : Bool × Fusion σ δ P C :=
  let (accepted, history) := K.keepMeasurement s.history event accepts
  (accepted,
    { s with history := if accepted then K.pruneHistory cfg.historyNs history else history })

/-- `on_imu` after the clock check. -/
def onImuSample (s : Fusion σ δ P C) (arrivalNs : ℤ) (message : ImuMsg ρ) :
    Fusion σ δ P C × List (FusionEffect δ) :=
  if !currentEpoch message.stampNs arrivalNs || message.stampNs ≤ s.lastImuMeasurementStampNs ||
      message.frameId != cfg.baseFrame then (s, [])
  else
    match K.imuAngularVelocity message.data with
    | none => (s, [])
    | some angularVelocity =>
      let s := { s with lastImuMeasurementStampNs := message.stampNs }
      match s.history.anchorState with
      | none => (s, [])
      | some anchor =>
        if !s.history.filter.initialized || message.stampNs ≤ anchor.stampNs then (s, [])
        else
          let s := { s with measurementSequence := s.measurementSequence + 1 }
          let event : Measurement δ :=
            { id := s.measurementSequence
              stampNs := message.stampNs
              externalAngularVelocity := some angularVelocity
              externalLinearAcceleration := K.imuLinearAcceleration message.data }
          let (accepted, s) := K.addMeasurement cfg s event fun result =>
            result.angularVelocityAccepted || result.linearAccelerationAccepted
          (s, [if accepted then .kept event else .erased event])

def onImu (s : Fusion σ δ P C) (reading : ClockReading) (message : ImuMsg ρ) :
    Fusion σ δ P C × List (FusionEffect δ) :=
  let (s, effects) := K.resetOnClockJump s reading
  let (s, more) := K.onImuSample cfg s reading.rosNs message
  (s, effects ++ more)

/-! ### Publication -/

/-- `publish_locked`, which resets the estimator on a clock jump or an invalid output covariance. -/
def publish (s : Fusion σ δ P C) (reading : ClockReading) :
    Fusion σ δ P C × List (FusionEffect δ) :=
  match K.resetOnClockJump s reading with
  | (s, effect :: effects) => (s, effect :: effects)
  | (s, []) =>
    if !s.history.filter.initialized then (s, [])
    else
      match K.propagateTo s.history.filter reading.rosNs with
      | none => (s, [])
      | some output =>
        if K.fillCovariances output.state s.mapFromOdom then (s, [])
        else (K.clearFilterAndAlignment s, [.cleared])

/-! ### VIO -/

def onZedStatus (s : Fusion σ δ P C) (arrivalNs : ℤ) (ok : Bool) : Fusion σ δ P C :=
  { s with zedStatus := some (arrivalNs, ok) }

end FusionKernel

def zedTrackingAllowsMeasurement (cfg : FusionConfig) (s : Fusion σ δ P C) (arrivalNs : ℤ) :
    Bool :=
  !cfg.requireZedTrackingOk ||
    match s.zedStatus with
    | none => false
    | some (statusNs, ok) =>
      ok && statusNs ≤ arrivalNs &&
        decide (((arrivalNs - statusNs : ℤ) : ℚ) / 10 ^ 9 ≤ cfg.zedStatusTimeoutS)

namespace FusionKernel

variable (K : FusionKernel σ δ ρ P C) (cfg : FusionConfig)

/-- `update_cached_extrinsic`: the transform of the source frame, from the cache or looked up. -/
def updateCachedExtrinsic (s : Fusion σ δ P C) (sourceFrame : String) (lookup : Option P) :
    Option (P × Fusion σ δ P C) :=
  let found (transform : P) : Option (P × Fusion σ δ P C) :=
    some (transform,
      { s with cachedSourceFrame := sourceFrame, baseFromVioSource := some transform })
  if sourceFrame = cfg.baseFrame then found K.identity
  else
    match s.baseFromVioSource with
    | some transform =>
      if s.cachedSourceFrame = sourceFrame then some (transform, s) else lookup.bind found
    | none => lookup.bind found

/-- `initialize_filter`, and the publication after a success. -/
def initializeFromVio (s : Fusion σ δ P C) (event : Measurement δ) (published : ClockReading) :
    Fusion σ δ P C × List (FusionEffect δ) :=
  let (initialized, history) := K.initializeFilter event
  let s := { s with history := history }
  if !initialized then (s, [.uninitialized])
  else
    let (s, effects) := K.publish s published
    (s, .initialized event :: effects)

/-- A VIO measurement at the filter: it starts the filter, or is added to the history. -/
def processVio (s : Fusion σ δ P C) (event : Measurement δ) (published : ClockReading) :
    Fusion σ δ P C × List (FusionEffect δ) :=
  if !s.history.filter.initialized then K.initializeFromVio s event published
  else
    match s.history.anchorState with
    | none => (s, [])
    | some anchor =>
      if event.stampNs ≤ anchor.stampNs then (s, [])
      else if 1000000000 < event.stampNs - s.history.filter.state.stampNs then
        K.initializeFromVio s event published
      else
        let (accepted, s) := K.addMeasurement cfg s event MeasurementResult.any
        if !accepted then (s, [.erased event])
        else
          let (s, effects) := K.publish s published
          (s, .kept event :: effects)

/-- `on_vio` after the clock check. -/
def onVioSample (s : Fusion σ δ P C) (arrivalNs : ℤ) (message : OdometryMsg ρ)
    (lookup : Option P) (published : ClockReading) : Fusion σ δ P C × List (FusionEffect δ) :=
  if !currentEpoch message.stampNs arrivalNs || message.stampNs ≤ s.lastVioMeasurementStampNs
  then (s, [])
  else
    let s := { s with lastVioMeasurementStampNs := message.stampNs }
    if !zedTrackingAllowsMeasurement cfg s arrivalNs || message.childFrameId.isEmpty then (s, [])
    else
      match K.updateCachedExtrinsic cfg s message.childFrameId lookup with
      | none => (s, [])
      | some (baseFromVioSource, s) =>
        match K.vioMeasurement message.data baseFromVioSource with
        | none => (s, [])
        | some (pose, twist) =>
          let s := { s with measurementSequence := s.measurementSequence + 1 }
          let event : Measurement δ :=
            { id := s.measurementSequence
              stampNs := message.stampNs
              pose := some pose
              twist := twist }
          K.processVio cfg s event published

def onVio (s : Fusion σ δ P C) (reading : ClockReading) (message : OdometryMsg ρ)
    (lookup : Option P) (published : ClockReading) : Fusion σ δ P C × List (FusionEffect δ) :=
  let (s, effects) := K.resetOnClockJump s reading
  let (s, more) := K.onVioSample cfg s reading.rosNs message lookup published
  (s, effects ++ more)

/-! ### Tags -/

/-- The candidate joins the buffer; whether a consistent cluster is left in it. -/
def addAlignmentCandidate (s : Fusion σ δ P C) (candidate : AlignmentCandidate P C) :
    Bool × Fusion σ δ P C :=
  let cutoffNs := candidate.stampNs - cfg.alignmentCandidateWindowNs
  let candidates :=
    (s.alignmentCandidates.dropWhile fun c => decide (c.stampNs < cutoffNs)) ++ [candidate]
  let candidates := candidates.drop (candidates.length - 256)
  let selected := K.tightestConsistentPoseCluster (candidates.map (·.mapFromOdom))
  if selected.length < cfg.alignmentCandidateCount then
    (false, { s with alignmentCandidates := candidates })
  else (true, { s with alignmentCandidates := selected.filterMap (candidates[·]?) })

def establishAlignment (s : Fusion σ δ P C) : Fusion σ δ P C :=
  let alignment := K.meanAlignment s.alignmentCandidates
  let s := { s with alignmentCandidates := [] }
  if K.validCovariance alignment.2 then { s with mapFromOdom := some alignment } else s

/-- A valid candidate establishes the alignment or updates it. -/
def processCandidate (s : Fusion σ δ P C) (candidate : AlignmentCandidate P C) : Fusion σ δ P C :=
  match s.mapFromOdom with
  | none =>
    let (consistent, s) := K.addAlignmentCandidate cfg s candidate
    if consistent then K.establishAlignment s else s
  | some alignment =>
    match K.fusedAlignment alignment (candidate.mapFromOdom, candidate.covariance) with
    | none => s
    | some fused => { s with mapFromOdom := some fused }

/-- `on_tag` after the reset for a new map. -/
def processTag (s : Fusion σ δ P C) (arrivalNs : ℤ) (message : AprilTagPoseEstimate ρ) :
    Fusion σ δ P C :=
  if !message.poseValid || message.frameId != cfg.mapFrame || !s.history.filter.initialized ||
      message.inlierTagCount < cfg.minimumAlignmentTagCount ||
      !currentEpoch message.stampNs arrivalNs ||
      message.stampNs ≤ s.lastTagCandidateStampNs then s
  else
    let s := { s with lastTagCandidateStampNs := message.stampNs }
    match K.stateAt s.history message.stampNs with
    | none => s
    | some localState =>
      match K.candidate message localState with
      | none => s
      | some (mapFromOdom, covariance) =>
        K.processCandidate cfg s ⟨message.stampNs, mapFromOdom, covariance⟩

def onTag (s : Fusion σ δ P C) (reading : ClockReading) (message : AprilTagPoseEstimate ρ) :
    Fusion σ δ P C × List (FusionEffect δ) :=
  let (s, effects) := K.resetOnClockJump s reading
  if message.mapGeneration < s.lastTagMapGeneration then (s, effects)
  else
    let mapChanged := s.lastTagMapGeneration != 0 &&
      decide (s.lastTagMapGeneration < message.mapGeneration)
    let s := if message.relocalizationRequested || mapChanged then resetForNewTagMap s else s
    let s := { s with lastTagMapGeneration := message.mapGeneration }
    (K.processTag cfg s reading.rosNs message, effects)

end FusionKernel

/-! ### The machine -/

inductive FusionInput (ρ P : Type) where
  | imu (reading : ClockReading) (message : ImuMsg ρ)
  /-- with the transform the buffer has and the clocks at the publication -/
  | vio (reading : ClockReading) (message : OdometryMsg ρ) (lookup : Option P)
      (published : ClockReading)
  | tag (reading : ClockReading) (message : AprilTagPoseEstimate ρ)
  | zedStatus (arrivalNs : ℤ) (ok : Bool)
  | publish (reading : ClockReading)

def fusionStep (K : FusionKernel σ δ ρ P C) (cfg : FusionConfig) (s : Fusion σ δ P C) :
    FusionInput ρ P → Fusion σ δ P C × List (FusionEffect δ)
  | .imu reading message => K.onImu cfg s reading message
  | .vio reading message lookup published => K.onVio cfg s reading message lookup published
  | .tag reading message => K.onTag cfg s reading message
  | .zedStatus arrivalNs ok => (FusionKernel.onZedStatus s arrivalNs ok, [])
  | .publish reading => K.publish s reading

/-- One lifetime of the estimator. -/
def fusionMachine (K : FusionKernel σ δ ρ P C) (cfg : FusionConfig) :
    Machine (Fusion σ δ P C) (FusionInput ρ P) (List (FusionEffect δ)) where
  init := { history := K.emptyHistory }
  step s input := some (fusionStep K cfg s input)

abbrev FusionTransition (σ δ ρ P C : Type) :=
  Transition (Fusion σ δ P C) (FusionInput ρ P) (List (FusionEffect δ))

abbrev FusionHistory (σ δ ρ P C : Type) :=
  History (Fusion σ δ P C) (FusionInput ρ P) (List (FusionEffect δ))

end RobotCore
