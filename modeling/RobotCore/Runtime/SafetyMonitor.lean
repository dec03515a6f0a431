import RobotCore.Lib.Machine
import RobotCore.Lib.Scalar

/-!
# The safety monitor

`SafetyMonitor`: the state of the board and the abort latch of the operator, combined into one
event that is published at every tick and at every request.  The scalars are those of Python; the
rate of the timer and the stamps of the events are left out.
-/

namespace RobotCore

open Scalar Machine

variable {α : Type} [Scalar α]

/-! ### Messages -/

/-- What the monitor reads of a `BoardStatus`. -/
structure BoardHealth where
  connected : Bool
  heartbeatOk : Bool
  failsafeActive : Bool
  deriving DecidableEq

structure TriggerAbortRequest where
  abort : Bool
  reason : String
  deriving DecidableEq

structure TriggerAbortResponse where
  accepted : Bool
  abortActive : Bool
  message : String
  deriving DecidableEq

def levelInfo : UInt8 := 0

def levelAbort : UInt8 := 3

structure SafetyEvent where
  level : UInt8
  code : String
  message : String
  abortActive : Bool
  source : String
  deriving DecidableEq

/-! ### Members -/

structure SafetyMonitor (α : Type) where
  boardStatusTimeoutS : α
  operatorAbortActive : Bool := false
  operatorAbortReason : String := ""
  abortActive : Bool := true
  boardStatusNs : Option ℤ := none
  boardConnected : Bool := false
  boardHeartbeatOk : Bool := false
  boardFailsafeActive : Bool := false

/-- A code with its message. -/
structure SafetyCode where
  code : String
  message : String
  deriving DecidableEq

/-- `age_s` -/
def boardAgeS (nowNs stampNs : ℤ) : α := ofRat (nowNs - stampNs) * ofRat (1 / 10 ^ 9)

/-- The status is older than `timeout_s`. -/
def SafetyMonitor.boardStale (node : SafetyMonitor α) (stampNs nowNs : ℤ) : Bool :=
  lt (pyMax (ofRat 0) node.boardStatusTimeoutS) (boardAgeS nowNs stampNs)

def onBoardStatus (node : SafetyMonitor α) (message : BoardHealth) (nowNs : ℤ) : SafetyMonitor α :=
  { node with
    boardConnected := message.connected
    boardHeartbeatOk := message.heartbeatOk
    boardFailsafeActive := message.failsafeActive
    boardStatusNs := some nowNs }

def boardFailure (node : SafetyMonitor α) (nowNs : ℤ) : Option SafetyCode :=
  match node.boardStatusNs with
  | none => some ⟨"BOARD_STATUS_MISSING", "low-level board status is missing"⟩
  | some stampNs =>
    if node.boardStale stampNs nowNs then
      some ⟨"BOARD_STATUS_STALE", "low-level board status is stale"⟩
    else if !node.boardConnected then
      some ⟨"BOARD_DISCONNECTED", "low-level board is disconnected"⟩
    else if !node.boardHeartbeatOk then
      some ⟨"BOARD_HEARTBEAT_LOST", "low-level board heartbeat is not healthy"⟩
    else if node.boardFailsafeActive then
      some ⟨"BOARD_FAILSAFE_ACTIVE", "low-level board failsafe is active"⟩
    else none

/-- `value or "operator_request"` -/
def orOperatorRequest (value : String) : String :=
  if value.isEmpty then "operator_request" else value

def updateAbortState (node : SafetyMonitor α) (nowNs : ℤ) : SafetyMonitor α × SafetyCode :=
  match boardFailure node nowNs with
  | some failure => ({ node with abortActive := true }, failure)
  | none =>
    if node.operatorAbortActive then
      ({ node with abortActive := true },
        ⟨"ABORT_ACTIVE", orOperatorRequest node.operatorAbortReason⟩)
    else ({ node with abortActive := false }, ⟨"ABORT_CLEAR", "Safety monitor healthy"⟩)

/-- `publish_event` with the level of the abort state. -/
def safetyEvent (node : SafetyMonitor α) (code : SafetyCode) : SafetyEvent where
  level := if node.abortActive then levelAbort else levelInfo
  code := code.code
  message := code.message
  abortActive := node.abortActive
  source := "safety_monitor"

/-- What a callback sends. -/
structure SafetyOutput where
  event : Option SafetyEvent := none
  response : Option TriggerAbortResponse := none
  deriving DecidableEq

/-- The latch of the operator after a request. -/
def requestAbort (node : SafetyMonitor α) (request : TriggerAbortRequest) : SafetyMonitor α :=
  { node with
    operatorAbortActive := request.abort
    operatorAbortReason := if request.abort then orOperatorRequest request.reason else "" }

/-- The answer of a request names a clear state otherwise than a tick does. -/
def answerCode (node : SafetyMonitor α) (code : SafetyCode) : SafetyCode :=
  if !node.abortActive then ⟨"ABORT_CLEARED", "Abort state cleared"⟩ else code

def handleAbort (node : SafetyMonitor α) (request : TriggerAbortRequest) (nowNs : ℤ) :
    SafetyMonitor α × SafetyOutput :=
  let (node, code) := updateAbortState (requestAbort node request) nowNs
  let code := answerCode node code
  (node,
    { event := some (safetyEvent node code)
      response := some ⟨true, node.abortActive, code.message⟩ })

def safetyTick (node : SafetyMonitor α) (nowNs : ℤ) : SafetyMonitor α × SafetyOutput :=
  let (node, code) := updateAbortState node nowNs
  (node, { event := some (safetyEvent node code) })

/-! ### The machine -/

inductive SafetyInput (α : Type) where
  | boardStatus (message : BoardHealth) (nowNs : ℤ)
  | triggerAbort (request : TriggerAbortRequest) (nowNs : ℤ)
  | setTimeout (boardStatusTimeoutS : α)
  | tick (nowNs : ℤ)

def safetyCallback (node : SafetyMonitor α) : SafetyInput α → SafetyMonitor α × SafetyOutput
  | .boardStatus message nowNs => (onBoardStatus node message nowNs, {})
  | .triggerAbort request nowNs => handleAbort node request nowNs
  | .setTimeout boardStatusTimeoutS => ({ node with boardStatusTimeoutS }, {})
  | .tick nowNs => safetyTick node nowNs

/-- One lifetime of the monitor. -/
def safetyMachine (boardStatusTimeoutS : α) :
    Machine (SafetyMonitor α) (SafetyInput α) SafetyOutput where
  init := { boardStatusTimeoutS }
  step node input := some (safetyCallback node input)

abbrev SafetyTransition (α : Type) := Transition (SafetyMonitor α) (SafetyInput α) SafetyOutput

abbrev SafetyHistory (α : Type) := History (SafetyMonitor α) (SafetyInput α) SafetyOutput

end RobotCore
