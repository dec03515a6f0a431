import RobotCore.Fusion.Node
import RobotCore.Lib.LossyLink
import RobotCore.Localizer.Node

/-!
# The localizer and the estimator

One lifetime of the localizer and of the estimator, joined by the topic of the Tag estimates.  Both
ends keep the last message only (`KeepLast(1)`), so the link keeps the order of the estimates and
may lose any of them.
-/

namespace RobotCore

open Machine

variable {σ δ ρ P C τ D : Type}

def estimateArrival (reading : ClockReading) (message : AprilTagPoseEstimate ρ) :
    FusionInput ρ P :=
  .tag reading message

/-- The topic from the localizer to the estimator. -/
def tagLink (L : LocalizerKernel τ D ρ) (mapFrame : String) (tags : τ)
    (K : FusionKernel σ δ ρ P C) (cfg : FusionConfig) :
    LossyLink (Localizer τ) (LocalizerInput τ D) (Option (AprilTagPoseEstimate ρ))
      (Fusion σ δ P C) (FusionInput ρ P) (List (FusionEffect δ)) (AprilTagPoseEstimate ρ)
      ClockReading where
  producer := localizerMachine L mapFrame tags
  consumer := fusionMachine K cfg
  publishes := id
  arrival := estimateArrival
  ownInput
    | .tag .. => false
    | _ => true

/-- The localizer and the estimator, with the estimates between them. -/
abbrev Localization.System (σ δ ρ P C τ : Type) :=
  LossyLink.State (Localizer τ) (Fusion σ δ P C) (AprilTagPoseEstimate ρ)

abbrev Localization.Input (ρ P τ D : Type) :=
  LossyLink.Input (LocalizerInput τ D) (FusionInput ρ P) ClockReading

end RobotCore
