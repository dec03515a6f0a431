import RobotCore.Authority.State

/-!
# Command checks of the authority

What `CommandAuthorityNode` requires of its inputs, and `evaluate`, which turns the selected
source into the output.  A check returns the reason it fails, or `none` where the source returns
an empty string.
-/

namespace RobotCore

open Ieee

/-! ### Source checks -/

def supported (source : String) : Bool :=
  source == "manual" || source == "pid" || source == "rl"

def expectedProducers (source : String) : Option String :=
  if source == "manual" then some "web_operator"
  else if source == "pid" then some "pid_controller"
  else if source == "rl" then some "t60_policy"
  else none

/-- The item is older than the timeout. -/
def stale (timeoutS : Binary64) (stampNs nowNs : ℤ) : Bool :=
  timeoutS.lt (durationS (nowNs - stampNs))

def sourceCommandIntegrityFailure (cfg : AuthorityConfig) (s : Authority) (source : String)
    (nowNs : ℤ) : Option String :=
  match s.sourceCommands source with
  | none => some (source ++ " command is missing or stale")
  | some item =>
    if stale cfg.sourceCommandTimeoutS item.stampNs nowNs then
      some (source ++ " command is missing or stale")
    else if expectedProducers source != some item.message.source then
      some ("unexpected command producer: " ++ item.message.source)
    else if !item.message.action.toList.all actionValueValid then
      some "source action is not eight finite values in [-1, 1]"
    else none

def sourceCommandFailure (cfg : AuthorityConfig) (s : Authority) (source : String) (nowNs : ℤ) :
    Except OutOfRange (Option String) :=
  match sourceCommandIntegrityFailure cfg s source nowNs with
  | some reason => .ok (some reason)
  | none => do
    let item ← s.at source
    if !item.message.enable then return some (source ++ " command is not ready")
    return none

def commonFailure (cfg : AuthorityConfig) (s : Authority) (nowNs : ℤ) : Option String :=
  if s.abortActive then some "safety abort is active"
  else if s.faultLatched then some ("authority fault is latched: " ++ s.faultCode)
  else
    match s.safetyStampNs with
    | none => some "safety monitor heartbeat is missing"
    | some stampNs =>
      if stale cfg.safetyHeartbeatTimeoutS stampNs nowNs then
        some "safety monitor heartbeat is missing"
      else none

def automaticFailure (cfg : AuthorityConfig) (s : Authority) (nowNs : ℤ) : Option String :=
  match s.body with
  | none => some "body state is missing or stale"
  | some body =>
    if stale cfg.stateTimeoutS body.stampNs nowNs then some "body state is missing or stale"
    else
      match s.target with
      | none => some "trajectory target is missing or stale"
      | some target =>
        if stale cfg.targetTimeoutS target.stampNs nowNs then
          some "trajectory target is missing or stale"
        else if !s.absoluteLocalizationSeen then
          some "absolute localization has not been observed"
        else if !body.message.linearVelocityValid then some "linear velocity is invalid"
        else if !body.message.stateValid && !body.message.positionEstimated then
          some "localization is invalid"
        else if !target.message.valid then some "trajectory target is invalid"
        else none

def prearmFailure (cfg : AuthorityConfig) (s : Authority) (nowNs : ℤ) :
    Except OutOfRange (Option String) :=
  match commonFailure cfg s nowNs with
  | some reason => .ok (some reason)
  | none => do
    match ← sourceCommandFailure cfg s s.selectedSource nowNs with
    | some reason => return some reason
    | none =>
      return if s.selectedSource == "manual" then none else automaticFailure cfg s nowNs

def manualIdleReason (cfg : AuthorityConfig) (s : Authority) (nowNs : ℤ) : Option String :=
  if s.selectedSource != "manual" then none
  else
    match s.sourceCommands "manual" with
    | none => some "manual command is missing or stale"
    | some item =>
      if stale cfg.sourceCommandTimeoutS item.stampNs nowNs then
        some "manual command is missing or stale"
      else if !item.message.enable then some "manual command is not ready"
      else none

def altitudeHoldTargetActive (cfg : AuthorityConfig) (s : Authority) (nowNs : ℤ) : Bool :=
  match s.target with
  | none => false
  | some target =>
    (durationS (nowNs - target.stampNs)).le cfg.targetTimeoutS && target.message.valid &&
      target.message.controlMode.toLower == "altitude_hold"

/-! ### Altitude hold -/

/-- `-values[4] - values[5] + values[6] + values[7]`, in `float` -/
def surgeSum (manual : ThrusterCommand) : Binary32 :=
  -manual.action[4] - manual.action[5] + manual.action[6] + manual.action[7]

/-- `-values[4] + values[5] + values[6] - values[7]`, in `float` -/
def yawSum (manual : ThrusterCommand) : Binary32 :=
  -manual.action[4] + manual.action[5] + manual.action[6] - manual.action[7]

/-- The `double` constant `0.25`. -/
def kQuarter : Binary64 := Number.ofRat binary64 (1 / 4)

def surgeYawOutput (surge yaw : Binary64) : Vector Binary64 8 :=
  #v[0, 0, 0, 0, -surge - yaw, -surge + yaw, surge + yaw, surge - yaw]

/-- The surge and yaw of the manual command, without the rest of it. -/
def altitudeManualSurgeYaw (manual : ThrusterCommand) : Vector Binary64 8 :=
  surgeYawOutput (kQuarter * (surgeSum manual).widen) (kQuarter * (yawSum manual).widen)

/-! ### Evaluation -/

def trip (s : Authority) (code message : String) : Authority :=
  { s with
    armed := false
    faultLatched := true
    faultCode := code
    message := message
    output := zeroOutput
    outputEnabled := false }

/-- Which sources drive the thrusters. -/
structure EvaluationMode where
  hybridAltitudeHold : Bool
  manualOverride : Bool

def evaluationMode (cfg : AuthorityConfig) (s : Authority) (nowNs : ℤ) : EvaluationMode :=
  let manualActive := (sourceCommandIntegrityFailure cfg s "manual" nowNs).isNone &&
    (s.sourceCommands "manual").any (·.message.enable)
  let hybridAltitudeHold := s.armed && s.selectedSource == "pid" && manualActive &&
    altitudeHoldTargetActive cfg s nowNs
  { hybridAltitudeHold := hybridAltitudeHold
    manualOverride :=
      s.armed && s.selectedSource != "manual" && manualActive && !hybridAltitudeHold }

def EvaluationMode.activeSource (mode : EvaluationMode) (selectedSource : String) : String :=
  if mode.hybridAltitudeHold then "pid+manual"
  else if mode.manualOverride then "manual"
  else selectedSource

/-- What the checks of an evaluation leave: the state, `output_allowed` and `idle_reason`. -/
structure EvaluationCheck where
  authority : Authority
  outputAllowed : Bool
  idleReason : Option String

/-- The check of an armed evaluation: an override needs no more than the common one. -/
def evaluationFailure (cfg : AuthorityConfig) (s : Authority) (mode : EvaluationMode)
    (nowNs : ℤ) : Except OutOfRange (Option String) :=
  if mode.manualOverride then .ok (commonFailure cfg s nowNs) else prearmFailure cfg s nowNs

def checkOutput (cfg : AuthorityConfig) (s : Authority) (mode : EvaluationMode) (nowNs : ℤ) :
    Except OutOfRange EvaluationCheck :=
  if !s.armed then .ok ⟨s, false, none⟩
  else do
    match ← evaluationFailure cfg s mode nowNs with
    | none => return ⟨s, true, none⟩
    | some reason =>
      match manualIdleReason cfg s nowNs with
      | none => return ⟨trip s "CONTROL_INPUT_INVALID" reason, false, none⟩
      | some idleReason =>
        if reason == idleReason then
          return ⟨{ s with
              output := zeroOutput, message := "armed manual; neutral: " ++ idleReason },
            true, some idleReason⟩
        else return ⟨trip s "CONTROL_INPUT_INVALID" reason, false, some idleReason⟩

/-- `altitude_manual`, which is zero outside altitude hold. -/
def altitudeManual (s : Authority) (mode : EvaluationMode) :
    Except OutOfRange (Vector Binary64 8) :=
  if mode.hybridAltitudeHold then do
    let manual ← s.at "manual"
    return altitudeManualSurgeYaw manual.message
  else .ok zeroOutput

/-- The output the active sources request, scaled by the action limit. -/
def requestedOutput (s : Authority) (mode : EvaluationMode) :
    Except OutOfRange (Vector Binary64 8) := do
  let altitudeManual ← altitudeManual s mode
  let selected ← s.at (if mode.hybridAltitudeHold then "pid" else s.activeSource)
  return Vector.ofFn fun i =>
    (if mode.hybridAltitudeHold && 4 ≤ i.val then altitudeManual[i]
      else (selected.message.action[i]).widen) * s.actionLimit

def evaluate (cfg : AuthorityConfig) (s : Authority) (nowNs : ℤ) : Except OutOfRange Authority := do
  let mode := evaluationMode cfg s nowNs
  let s := { s with activeSource := mode.activeSource s.selectedSource }
  let ⟨s, outputAllowed, idleReason⟩ ← checkOutput cfg s mode nowNs
  if outputAllowed && idleReason.isNone then
    let output ← requestedOutput s mode
    return { s with
      output := output
      message :=
        if mode.manualOverride then "armed " ++ s.selectedSource ++ "; manual LB override"
        else if mode.hybridAltitudeHold then "armed pid; altitude hold + manual control"
        else "armed " ++ s.selectedSource
      outputEnabled := true }
  else return { s with output := zeroOutput, outputEnabled := false }

end RobotCore
