import RobotCore.Authority.Node
import RobotCore.Runtime.Experiment
import RobotCore.Runtime.RunRecorder

/-!
# The experiment server with its services

The goals of the experiment server, the command authority and the run recorder.  A call of a goal
waits to be served and then with its answer until the goal is resumed; each of these is a step of
its own, so that the calls of several goals interleave at every `await`.  The services of the
trajectory node answer what they like, and the status messages of the server are arbitrary.
-/

namespace RobotCore

open Machine

/-- A call of a goal that is not resumed yet. -/
inductive PendingCall where
  | sent (event : ExperimentEvent)
  | answered (reply : ServiceReply)
  deriving DecidableEq

structure ExperimentSystem (ι : Type) where
  server : ExperimentServer ι := {}
  recorder : RunRecorder := {}
  authority : Authority
  calls : ι → Option PendingCall := fun _ => none

/-- What a service finds when it serves a call. -/
structure ServiceContext where
  nowNs : ℤ
  runDir : String
  startFailure : Option StartStage
  stopFailure : Option StopStage
  /-- the answer of the trajectory node -/
  trajectoryReply : ServiceReply

inductive ExperimentSystemInput (ι : Type) where
  | server (input : ExperimentInput ι)
  | serve (i : ι) (context : ServiceContext)
  | authority (input : AuthorityInput)

/-- The event is the call of a service. -/
def ExperimentEvent.isCall : ExperimentEvent → Bool
  | .stopTrajectory sent => sent
  | .feedback _ _ _ | .terminal _ => false
  | _ => true

/-- `set_authority` -/
def authorityRequest (source : String) (arm : Bool) : SetControlAuthorityRequest :=
  { source, arm, clearFault := false, updatePwmLimit := false, pwmLimitUs := 0 }

/-- The request is served.  The state after an exception is that before it. -/
def serveAuthority (cfg : AuthorityConfig) (s : Authority) (source : String) (arm : Bool)
    (nowNs : ℤ) : Authority × Option ServiceReply :=
  match onSetAuthority cfg s (authorityRequest source arm) nowNs with
  | .ok (s', output) =>
    (s', output.response.map fun response =>
      .authority response.accepted response.armed response.message)
  | .error _ => (s, none)

section System

variable {ι : Type} [DecidableEq ι] (cfg : AuthorityConfig) (tasks : ι → Except String TrackingTask)

/-- The answer of a service, and what serving does to it. -/
def serveCall (s : ExperimentSystem ι) (event : ExperimentEvent) (context : ServiceContext) :
    ExperimentSystem ι × Option ServiceReply :=
  match event with
  | .setAuthority source arm =>
    let (authority, reply) := serveAuthority cfg s.authority source arm context.nowNs
    ({ s with authority }, reply)
  | .startRun _ _ _ =>
    let (recorder, response) := onStartRun s.recorder context.runDir context.startFailure
    ({ s with recorder }, response.map fun r => .startRun r.success r.runDir r.message)
  | .stopRun _ _ =>
    let (recorder, response) := onStopRun s.recorder context.stopFailure
    ({ s with recorder }, response.map fun _ => .stopRun)
  | _ => (s, some context.trajectoryReply)

/-- A goal is resumed with the answer to its call, and otherwise by a timer or at its beginning. -/
def answers (call : Option PendingCall) (reply : ServiceReply) : Bool :=
  match call with
  | none => reply == .timer || reply == .begin
  | some (.sent _) => false
  | some (.answered reply') => reply == reply'

/-- The call with which a goal is suspended. -/
def newCall (events : List ExperimentEvent) : Option PendingCall :=
  (events.reverse.find? ExperimentEvent.isCall).map .sent

def systemStep (s : ExperimentSystem ι) :
    ExperimentSystemInput ι → Option (ExperimentSystem ι × List ExperimentEvent)
  | .server (.resume i w) =>
    if answers (s.calls i) w.reply then
      (experimentStep tasks s.server (.resume i w)).map fun (server, events) =>
        ({ s with server, calls := Function.update s.calls i (newCall events) }, events)
    else none
  | .server input =>
    (experimentStep tasks s.server input).map fun (server, events) => ({ s with server }, events)
  | .serve i context =>
    match s.calls i with
    | some (.sent event) =>
      let (s, reply) := serveCall cfg s event context
      some ({ s with calls := Function.update s.calls i (reply.map .answered) }, [])
    | _ => none
  | .authority input =>
    (authorityStep cfg s.authority input).map fun (authority, _) => ({ s with authority }, [])

def experimentSystem :
    Machine (ExperimentSystem ι) (ExperimentSystemInput ι) (List ExperimentEvent) where
  init := { authority := Authority.initial cfg }
  step := systemStep cfg tasks

end System

abbrev ExperimentSystemTransition (ι : Type) :=
  Transition (ExperimentSystem ι) (ExperimentSystemInput ι) (List ExperimentEvent)

abbrev ExperimentSystemHistory (ι : Type) :=
  History (ExperimentSystem ι) (ExperimentSystemInput ι) (List ExperimentEvent)

end RobotCore
