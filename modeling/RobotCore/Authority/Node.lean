import RobotCore.Authority.Command
import RobotCore.Lib.Machine

/-!
# The command authority as a machine

The callbacks and timers of `CommandAuthorityNode`.  An input of the machine is one of them with
the readings of the steady clock it takes; the inputs arrive in any order.  A callback hands out
the command it publishes and the response of the service, or the exception that ends the process.
-/

namespace RobotCore

open Ieee Machine

/-- What a callback sends. -/
structure AuthorityOutput where
  command : Option ThrusterCommand := none
  response : Option SetControlAuthorityResponse := none
  deriving DecidableEq

/-! ### Commands -/

def makeCommand (s : Authority) (enable : Bool) : ThrusterCommand where
  action := s.output.map Number.narrow
  enable := enable
  armed := s.armed
  armGeneration := s.armGeneration
  source := "command_authority:" ++ s.activeSource

def publishCommand (s : Authority) (enable : Bool) : AuthorityOutput :=
  { command := some (makeCommand s enable) }

def publishFreshSourceCommand (cfg : AuthorityConfig) (s : Authority) (source : String)
    (nowNs : ℤ) : Except OutOfRange (Authority × AuthorityOutput) :=
  if !s.armed || (source != s.selectedSource && source != "manual") then .ok (s, {})
  else do
    let s ← evaluate cfg s nowNs
    return (s, publishCommand s s.outputEnabled)

/-! ### Subscriptions -/

/-- `source_commands_[source] = item`, or its removal. -/
def setSourceCommand (s : Authority) (source : String) (item : Option TimedSourceCommand) :
    Authority :=
  { s with sourceCommands := fun key => if key = source then item else s.sourceCommands key }

/-- The callback of `create_source_subscription`. -/
def onSourceCommand (cfg : AuthorityConfig) (s : Authority) (source producer : String)
    (message : ThrusterCommand) (stampNs nowNs : ℤ) :
    Except OutOfRange (Authority × AuthorityOutput) :=
  if message.source != producer then .ok (s, {})
  else
    publishFreshSourceCommand cfg (setSourceCommand s source (some ⟨message, stampNs⟩)) source nowNs

/-- Eight finite values in [-1, 1]. -/
def rlActionValid (action : List Binary32) : Bool :=
  action.length == 8 &&
    action.all fun value => value.isFinite && minusOneF.le value && value.le oneF

def rlCommand (action : List Binary32) : ThrusterCommand where
  action := Vector.ofFn fun i => action.getD i 0
  enable := true
  source := "t60_policy"

def onRlAction (cfg : AuthorityConfig) (s : Authority) (action : List Binary32)
    (stampNs nowNs : ℤ) : Except OutOfRange (Authority × AuthorityOutput) :=
  let item := if rlActionValid action then some ⟨rlCommand action, stampNs⟩ else none
  publishFreshSourceCommand cfg (setSourceCommand s "rl" item) "rl" nowNs

def onBodyState (s : Authority) (message : BodyStateMsg) (stampNs : ℤ) : Authority :=
  { s with
    absoluteLocalizationSeen := s.absoluteLocalizationSeen || message.stateValid
    body := some ⟨message, stampNs⟩ }

def onTrajectoryTarget (s : Authority) (message : TrajectoryTargetMsg) (stampNs : ℤ) :
    Authority :=
  { s with target := some ⟨message, stampNs⟩ }

def onSafety (s : Authority) (event : SafetyEventMsg) (stampNs : ℤ) :
    Authority × AuthorityOutput :=
  let s := { s with abortActive := event.abortActive, safetyStampNs := some stampNs }
  if event.abortActive && s.armed then
    let s := trip s (if event.code.isEmpty then "ABORT_ACTIVE" else event.code)
      (if event.message.isEmpty then "safety abort" else event.message)
    (s, publishCommand s false)
  else (s, {})

/-! ### The service -/

def fillResponse (s : Authority) (accepted : Bool) (text : String) : AuthorityOutput :=
  { response := some
      { accepted := accepted
        selectedSource := s.selectedSource
        armed := s.armed
        faultLatched := s.faultLatched
        pwmLimitUs := s.actionLimit * kPwmSpanUs
        message := text } }

/-- `std::to_string` of a `double`: six decimals. -/
def toStringDouble (x : Binary64) : String :=
  match x.value with
  | .nan => "nan"
  | .infinity negative => if negative then "-inf" else "inf"
  | .finite q =>
    let scaled := (roundHalfEven (|q| * 1000000)).toNat
    let decimals := toString (scaled % 1000000)
    (if q < 0 then "-" else "") ++ toString (scaled / 1000000) ++ "." ++
      String.ofList (List.replicate (6 - decimals.length) '0') ++ decimals

/-- `std::isfinite(limit)` and neither `limit < 0.0` nor `limit > kMaximumPwmLimitUs`. -/
def pwmLimitValid (limit : Binary64) : Bool :=
  limit.isFinite && !limit.lt 0 && !kPwmSpanUs.lt limit

def updatePwmLimit (s : Authority) (request : SetControlAuthorityRequest) :
    Authority × AuthorityOutput :=
  if !request.source.isEmpty || request.arm || request.clearFault then
    (s, fillResponse s false "PWM limit update cannot change authority state")
  else if !pwmLimitValid request.pwmLimitUs then
    (s, fillResponse s false "PWM limit must be finite and within 0..250 us")
  else
    let s :=
      { s with
        actionLimit := request.pwmLimitUs.divConst 250
        message := "PWM limit set to " ++ toStringDouble request.pwmLimitUs ++ " us" }
    (s, fillResponse s true s.message)

/-- `message_ = text` and the response with this text. -/
def answer (s : Authority) (accepted : Bool) (text : String) : Authority × AuthorityOutput :=
  let s := { s with message := text }
  (s, fillResponse s accepted text)

def disarm (s : Authority) : Authority :=
  { s with armed := false, outputEnabled := false, output := zeroOutput, message := "disarmed" }

/-- The requested source is selected, and the node is disarmed or armed. -/
def requestArm (cfg : AuthorityConfig) (s : Authority) (request : SetControlAuthorityRequest)
    (requested : String) (nowNs : ℤ) : Except OutOfRange (Authority × AuthorityOutput) :=
  let s := if !s.armed then { s with selectedSource := requested } else s
  if !request.arm then
    let s := disarm s
    .ok (s, { fillResponse s true s.message with command := some (makeCommand s false) })
  else do
    match ← prearmFailure cfg s nowNs with
    | some reason => return answer s false reason
    | none =>
      let s := if !s.armed then { s with armGeneration := s.armGeneration + 1 } else s
      let s := { s with armed := true }
      return answer s true ("armed " ++ s.selectedSource)

/-- The requested source is allowed: a fault is cleared first. -/
def requestAuthority (cfg : AuthorityConfig) (s : Authority)
    (request : SetControlAuthorityRequest) (requested : String) (nowNs : ℤ) :
    Except OutOfRange (Authority × AuthorityOutput) :=
  if request.clearFault then
    if s.abortActive then
      .ok (answer s false "clear /safety/abort before clearing authority fault")
    else
      let s := { s with faultLatched := false, faultCode := "", message := "fault cleared" }
      if request.arm == s.armed && requested == s.selectedSource then
        .ok (s, fillResponse s true s.message)
      else requestArm cfg s request requested nowNs
  else requestArm cfg s request requested nowNs

def requestedSource (s : Authority) (request : SetControlAuthorityRequest) : String :=
  (if request.source.isEmpty then s.selectedSource else request.source).toLower

def onSetAuthority (cfg : AuthorityConfig) (s : Authority) (request : SetControlAuthorityRequest)
    (nowNs : ℤ) : Except OutOfRange (Authority × AuthorityOutput) :=
  if request.updatePwmLimit then .ok (updatePwmLimit s request)
  else
    let requested := requestedSource s request
    if !supported requested then .ok (answer s false ("unsupported source: " ++ requested))
    else if s.armed && requested != s.selectedSource then
      .ok (answer s false "control source can change only while disarmed")
    else if requested == "rl" && !cfg.allowRlHardware then
      .ok (answer s false "RL hardware authority is disabled")
    else requestAuthority cfg s request requested nowNs

/-! ### The machine -/

inductive AuthorityInput where
  | manualCommand (message : ThrusterCommand) (stampNs nowNs : ℤ)
  | pidCommand (message : ThrusterCommand) (stampNs nowNs : ℤ)
  | rlAction (action : List Binary32) (stampNs nowNs : ℤ)
  | bodyState (message : BodyStateMsg) (stampNs : ℤ)
  | trajectoryTarget (message : TrajectoryTargetMsg) (stampNs : ℤ)
  | safetyEvent (event : SafetyEventMsg) (stampNs : ℤ)
  | setAuthority (request : SetControlAuthorityRequest) (nowNs : ℤ)
  | evaluationTimer (nowNs : ℤ)
  | commandTimer
  | statusTimer

/-- A callback. -/
def authorityCallback (cfg : AuthorityConfig) (s : Authority) :
    AuthorityInput → Except OutOfRange (Authority × AuthorityOutput)
  | .manualCommand message stampNs nowNs =>
    onSourceCommand cfg s "manual" "web_operator" message stampNs nowNs
  | .pidCommand message stampNs nowNs =>
    onSourceCommand cfg s "pid" "pid_controller" message stampNs nowNs
  | .rlAction action stampNs nowNs => onRlAction cfg s action stampNs nowNs
  | .bodyState message stampNs => .ok (onBodyState s message stampNs, {})
  | .trajectoryTarget message stampNs => .ok (onTrajectoryTarget s message stampNs, {})
  | .safetyEvent event stampNs => .ok (onSafety s event stampNs)
  | .setAuthority request nowNs => onSetAuthority cfg s request nowNs
  | .evaluationTimer nowNs => (evaluate cfg s nowNs).map fun s => (s, {})
  | .commandTimer => .ok (s, publishCommand s s.outputEnabled)
  | .statusTimer => .ok (s, {})

/-- One callback.  The state after an exception is of no account: the process has ended. -/
def authorityStep (cfg : AuthorityConfig) (s : Authority) (input : AuthorityInput) :
    Option (Authority × Except OutOfRange AuthorityOutput) :=
  match authorityCallback cfg s input with
  | .ok (s', output) => some (s', .ok output)
  | .error e => some (s, .error e)

/-- One lifetime of the authority node. -/
def authorityMachine (cfg : AuthorityConfig) :
    Machine Authority AuthorityInput (Except OutOfRange AuthorityOutput) where
  init := Authority.initial cfg
  step := authorityStep cfg

abbrev AuthorityTransition :=
  Transition Authority AuthorityInput (Except OutOfRange AuthorityOutput)

abbrev AuthorityHistory := History Authority AuthorityInput (Except OutOfRange AuthorityOutput)

/-- The command an output publishes. -/
def commandOf : Except OutOfRange AuthorityOutput → Option ThrusterCommand
  | .ok output => output.command
  | .error _ => none

/-- The command a step publishes. -/
def publishedCommand? (x : AuthorityTransition) : Option ThrusterCommand := commandOf x.output

end RobotCore
