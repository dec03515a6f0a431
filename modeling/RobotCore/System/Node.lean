import RobotCore.Authority.Node
import RobotCore.Bridge.Node
import RobotCore.Lib.LossyLink

/-!
# The authority and the bridge

One lifetime of the command authority and of the bridge, joined by `/control/thruster_cmd`.  Both
ends of the topic keep the last message only (`KeepLast(1)`): a message that is not taken before
the next one arrives is lost, and the others arrive in order.  The link may lose any message.
-/

namespace RobotCore

open Machine

/-- What `on_command` samples when a message arrives. -/
structure Reception where
  publisherCount : ℕ
  nowNs : ℤ

def commandArrival (reception : Reception) (message : ThrusterCommand) : BridgeInput :=
  .onCommand reception.publisherCount reception.nowNs message

/-- The topic from the authority to the bridge. -/
def thrusterLink (acfg : AuthorityConfig) (bcfg : BridgeConfig) (initialSession : UInt32) :
    LossyLink Authority AuthorityInput (Except OutOfRange AuthorityOutput)
      Bridge BridgeInput (Option WriteRequest) ThrusterCommand Reception where
  producer := authorityMachine acfg
  consumer := bridgeMachine bcfg initialSession
  publishes := commandOf
  arrival := commandArrival
  ownInput
    | .onCommand .. => false
    | _ => true

/-- The authority and the bridge. -/
abbrev System := LossyLink.State Authority Bridge ThrusterCommand

abbrev SystemInput := LossyLink.Input AuthorityInput BridgeInput Reception

abbrev systemMachine (acfg : AuthorityConfig) (bcfg : BridgeConfig) (initialSession : UInt32) :
    Machine System SystemInput (Except OutOfRange AuthorityOutput ⊕ Option WriteRequest) :=
  (thrusterLink acfg bcfg initialSession).machine

abbrev SystemTransition :=
  Transition System SystemInput (Except OutOfRange AuthorityOutput ⊕ Option WriteRequest)

abbrev SystemHistory :=
  History System SystemInput (Except OutOfRange AuthorityOutput ⊕ Option WriteRequest)

/-- A transition as the authority sees it. -/
def authority? (x : SystemTransition) : Option AuthorityTransition := LossyLink.producer? x

/-- A transition as the bridge sees it. -/
def bridge? (x : SystemTransition) : Option BridgeTransition := LossyLink.consumer? commandArrival x

end RobotCore
