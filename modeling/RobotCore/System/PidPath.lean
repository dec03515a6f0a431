import RobotCore.Authority.Equiv.Output
import RobotCore.Authority.Node
import RobotCore.Bridge.Command
import RobotCore.Pid.Node
import RobotCore.Lib.Numeral

/-!
# The path of a PID effort

From the mixer of the PID node through the command authority to the offset the bridge stores.  The
limit of the authority goes the other way, as the action limit of its status.
-/

namespace RobotCore

open Ieee

/-- What `publish_status` of the authority tells the PID node. -/
def authorityStatus (s : Authority) : ControlAuthorityStatus where
  selectedSource := s.selectedSource
  actionLimit := s.actionLimit

/-- A tick of the PID node whose command drives the thrusters: an evaluation of the authority with
the PID source active takes it, and the bridge accepts what the authority publishes then. -/
structure PidDelivery (pcfg : PidConfig) (acfg : AuthorityConfig) (bcfg : BridgeConfig) where
  node : PidNode
  reached : (pidMachine pcfg).Reachable node
  outcome : PidTick
  efforts : Vector Binary64 8
  mixed : tickCommands pcfg node outcome = .ok efforts
  authority : Authority
  /-- The limit is one of 0..250 us, as a factor. -/
  limitOk : LimitOk authority.actionLimit
  /-- The node has heard of the limit: the status would not change it. -/
  reported : onAuthorityStatus node (authorityStatus authority) = node
  stampNs : ℤ
  held : authority.sourceCommands "pid" = some ⟨pidCommand efforts, stampNs⟩
  nowNs : ℤ
  evaluated : Authority
  evaluation : evaluate acfg authority nowNs = .ok evaluated
  active : evaluated.activeSource = "pid"
  driving : evaluated.outputEnabled = true
  bridge : Bridge
  publisherCount : ℕ
  arrivalNs : ℤ
  accepted : commandMessageValid bcfg bridge publisherCount arrivalNs (makeCommand evaluated true)
    = true

namespace PidDelivery

variable {pcfg : PidConfig} {acfg : AuthorityConfig} {bcfg : BridgeConfig}

/-- The mixer output for a thruster. -/
def effort (d : PidDelivery pcfg acfg bcfg) (i : Fin 8) : ℚ :=
  (getElem d.efforts i (Numeral.val_lt_eight i)).toRat

/-- The limit as the factor between zero and one. -/
def limit (d : PidDelivery pcfg acfg bcfg) : ℚ := d.authority.actionLimit.toRat

/-- The limit in microseconds. -/
def limitUs (d : PidDelivery pcfg acfg bcfg) : ℚ := 250 * d.limit

/-- The offset the bridge stores for a thruster. -/
def offset (d : PidDelivery pcfg acfg bcfg) (i : Fin 8) : ℤ :=
  ((onCommand bcfg d.bridge d.publisherCount d.arrivalNs
    (makeCommand d.evaluated true)).command.commandOffsets[i]).toInt

end PidDelivery

end RobotCore
