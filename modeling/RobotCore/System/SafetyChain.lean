import RobotCore.Bridge.Report
import RobotCore.Lib.LinkChain
import RobotCore.Runtime.SafetyMonitor
import RobotCore.System.Node

/-!
# The safety monitor, the authority and the bridge

One lifetime of the three nodes, joined in a circle by `/hardware/board_status`, `/safety/events`
and `/control/thruster_cmd`.  The topics keep the last message only and each has one publisher, so
that each is a link that keeps the order and may lose any message.  The circle is cut open in two
ways: from the monitor over the authority to the bridge, and from the bridge over the monitor to
the authority; what reaches the first node in a chain is then arbitrary.
-/

namespace RobotCore

open Machine Scalar

variable {α : Type} [Scalar α]

/-- What the authority reads of an event. -/
def SafetyEvent.received (event : SafetyEvent) : SafetyEventMsg where
  code := event.code
  message := event.message
  abortActive := event.abortActive

/-- The callback of `/safety/events`, with the reading of the clock it takes. -/
def eventArrival (stampNs : ℤ) (event : SafetyEvent) : AuthorityInput :=
  .safetyEvent event.received stampNs

/-- The topic from the monitor to the authority. -/
def safetyLink (timeoutS : α) (acfg : AuthorityConfig) :
    LossyLink (SafetyMonitor α) (SafetyInput α) SafetyOutput Authority AuthorityInput
      (Except OutOfRange AuthorityOutput) SafetyEvent ℤ where
  producer := safetyMachine timeoutS
  consumer := authorityMachine acfg
  publishes output := output.event
  arrival := eventArrival
  ownInput
    | .safetyEvent .. => false
    | _ => true

/-- The monitor and the authority. -/
abbrev Guarded (α : Type) := LossyLink.State (SafetyMonitor α) Authority SafetyEvent

abbrev GuardedInput (α : Type) := LossyLink.Input (SafetyInput α) AuthorityInput ℤ

abbrev GuardedOutput := SafetyOutput ⊕ Except OutOfRange AuthorityOutput

abbrev guardedMachine (timeoutS : α) (acfg : AuthorityConfig) :
    Machine (Guarded α) (GuardedInput α) GuardedOutput := (safetyLink timeoutS acfg).machine

abbrev GuardedTransition (α : Type) := Transition (Guarded α) (GuardedInput α) GuardedOutput

abbrev GuardedHistory (α : Type) := History (Guarded α) (GuardedInput α) GuardedOutput

/-- A transition as the monitor sees it. -/
def monitor? (x : GuardedTransition α) : Option (SafetyTransition α) := LossyLink.producer? x

/-- A transition as the authority sees it. -/
def guarded? (x : GuardedTransition α) : Option AuthorityTransition :=
  LossyLink.consumer? eventArrival x

/-- The monitor, the authority and the bridge. -/
abbrev StopChain (α : Type) := LossyLink.State (Guarded α) Bridge ThrusterCommand

abbrev StopChainInput (α : Type) := LossyLink.Input (GuardedInput α) BridgeInput Reception

abbrev StopChainOutput := GuardedOutput ⊕ Option WriteRequest

abbrev stopChainMachine (timeoutS : α) (acfg : AuthorityConfig) (bcfg : BridgeConfig)
    (initialSession : UInt32) : Machine (StopChain α) (StopChainInput α) StopChainOutput :=
  ((safetyLink timeoutS acfg).chain (thrusterLink acfg bcfg initialSession)).machine

abbrev StopChainTransition (α : Type) :=
  Transition (StopChain α) (StopChainInput α) StopChainOutput

abbrev StopChainHistory (α : Type) := History (StopChain α) (StopChainInput α) StopChainOutput

/-- A transition as the monitor and the authority see it. -/
def upper? (x : StopChainTransition α) : Option (GuardedTransition α) := LossyLink.producer? x

/-- A transition as the authority and the bridge see it. -/
def lower? (x : StopChainTransition α) : Option SystemTransition :=
  LossyLink.second? eventArrival x

/-! ### The bridge before the monitor -/

/-- What the monitor reads of a status. -/
def BoardStatusMessage.health (status : BoardStatusMessage) : BoardHealth where
  connected := status.connected
  heartbeatOk := status.heartbeatOk
  failsafeActive := status.failsafeActive

/-- The callback of `/hardware/board_status`, with the reading of the clock it takes. -/
def statusArrival (nowNs : ℤ) (status : BoardStatusMessage) : SafetyInput α :=
  .boardStatus status.health nowNs

/-- The topic from the bridge to the monitor. -/
def boardLink (bcfg : BridgeConfig) (initialSession : UInt32) (timeoutS : α) :
    LossyLink Reporting ReportingInput ReportingOutput (SafetyMonitor α) (SafetyInput α)
      SafetyOutput BoardStatusMessage ℤ where
  producer := reportingMachine bcfg initialSession
  consumer := safetyMachine timeoutS
  publishes output := output.status
  arrival := statusArrival
  ownInput
    | .boardStatus .. => false
    | _ => true

/-- The bridge and the monitor. -/
abbrev Supervised (α : Type) := LossyLink.State Reporting (SafetyMonitor α) BoardStatusMessage

abbrev SupervisedInput (α : Type) := LossyLink.Input ReportingInput (SafetyInput α) ℤ

abbrev SupervisedOutput := ReportingOutput ⊕ SafetyOutput

abbrev SupervisedTransition (α : Type) :=
  Transition (Supervised α) (SupervisedInput α) SupervisedOutput

/-- A transition as the bridge sees it. -/
def reporting? (x : SupervisedTransition α) : Option ReportingTransition := LossyLink.producer? x

/-- The bridge, the monitor and the authority. -/
abbrev BoardChain (α : Type) := LossyLink.State (Supervised α) Authority SafetyEvent

abbrev BoardChainInput (α : Type) := LossyLink.Input (SupervisedInput α) AuthorityInput ℤ

abbrev BoardChainOutput := SupervisedOutput ⊕ Except OutOfRange AuthorityOutput

abbrev boardChainMachine (bcfg : BridgeConfig) (initialSession : UInt32) (timeoutS : α)
    (acfg : AuthorityConfig) : Machine (BoardChain α) (BoardChainInput α) BoardChainOutput :=
  ((boardLink bcfg initialSession timeoutS).chain (safetyLink timeoutS acfg)).machine

abbrev BoardChainTransition (α : Type) :=
  Transition (BoardChain α) (BoardChainInput α) BoardChainOutput

abbrev BoardChainHistory (α : Type) := History (BoardChain α) (BoardChainInput α) BoardChainOutput

/-- A transition as the bridge and the monitor see it. -/
def supervised? (x : BoardChainTransition α) : Option (SupervisedTransition α) :=
  LossyLink.producer? x

/-- A transition as the monitor and the authority see it. -/
def commanded? (x : BoardChainTransition α) : Option (GuardedTransition α) :=
  LossyLink.second? statusArrival x

end RobotCore
