import RobotCore.Fusion.State
import RobotCore.Lib.Machine

/-!
# The AprilTag localizer as a machine

`AprilTagMapLocalizerComponent`: the surveyed map with its generation, the service that loads it
again, and the estimate of each detection message.  The pose that is computed from the map, the
detections and the camera is a parameter; the texts of the rejections and the image statistics of
an estimate are left out.
-/

namespace RobotCore

open Machine

variable {τ D ρ : Type}

/-- What `on_detections` computes: whether a pose was found, with its number of inlier Tags. -/
structure Localization (ρ : Type) where
  poseValid : Bool
  inlierTagCount : ℤ
  data : ρ

/-- The computation of the pose from a map in `τ` and detections, as the camera sees them, in
`D`. -/
structure LocalizerKernel (τ D ρ : Type) where
  localize : τ → D → Localization ρ
  /-- the pose and the covariance of an estimate that was never filled -/
  blank : ρ

structure Localizer (τ : Type) where
  tags : τ
  mapGeneration : ℕ := 1

inductive LocalizerInput (τ D : Type) where
  /-- with the map the file holds, if it can be read and parsed -/
  | reload (nowNs : ℤ) (map : Option τ)
  | detections (stampNs : ℤ) (message : D)

namespace LocalizerKernel

variable (L : LocalizerKernel τ D ρ) (mapFrame : String)

/-- A map that cannot be loaded raises before anything changes. -/
def reload (s : Localizer τ) (nowNs : ℤ) (map : Option τ) :
    Localizer τ × Option (AprilTagPoseEstimate ρ) :=
  match map with
  | none => (s, none)
  | some tags =>
    let s := { s with tags := tags, mapGeneration := s.mapGeneration + 1 }
    (s,
      some
        { stampNs := nowNs
          frameId := mapFrame
          mapGeneration := s.mapGeneration
          relocalizationRequested := true
          poseValid := false
          data := L.blank })

def onDetections (s : Localizer τ) (stampNs : ℤ) (message : D) : AprilTagPoseEstimate ρ :=
  let result := L.localize s.tags message
  { stampNs := stampNs
    frameId := mapFrame
    mapGeneration := s.mapGeneration
    poseValid := result.poseValid
    inlierTagCount := result.inlierTagCount
    data := result.data }

def step (s : Localizer τ) :
    LocalizerInput τ D → Localizer τ × Option (AprilTagPoseEstimate ρ)
  | .reload nowNs map => L.reload mapFrame s nowNs map
  | .detections stampNs message => (s, some (L.onDetections mapFrame s stampNs message))

end LocalizerKernel

/-- One lifetime of the localizer, from the map it loads at its start.  Its outputs are the
estimates it publishes. -/
def localizerMachine (L : LocalizerKernel τ D ρ) (mapFrame : String) (tags : τ) :
    Machine (Localizer τ) (LocalizerInput τ D) (Option (AprilTagPoseEstimate ρ)) where
  init := { tags := tags }
  step s input := some (L.step mapFrame s input)

end RobotCore
