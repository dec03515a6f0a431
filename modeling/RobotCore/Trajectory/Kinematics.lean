import RobotCore.Trajectory.State

/-!
# Kinematics of the paths

The four automatic paths of `TrajectoryCommandNode`: a phase that starts smoothly, and the offset
from the center with its derivatives.
-/

namespace RobotCore

open Scalar

variable {α : Type} [Scalar α]

/-- A value with its first two derivatives. -/
structure Phase (α : Type) where
  value : α
  rate : α
  acceleration : α

structure PathKinematics (α : Type) where
  offset : Vec α
  velocity : Vec α
  acceleration : Vec α
  yaw : α

/-- `return zeros, zeros, zeros, 0.0` -/
def PathKinematics.still : PathKinematics α := ⟨Vec.zero, Vec.zero, Vec.zero, ofRat 0⟩

def twoPi : α := ofRat 2 * pi

def halfPi : α := ofRat (1 / 2) * pi

section Kinematics

variable (config : TrajectoryConfig α)

/-- `ramp_s` -/
def rampS : α := pyMax (ofRat 0) config.trajectoryRampS

/-- `path_speed` -/
def pathSpeed : α := abs config.trajectorySpeedMps

def rampedTimeKinematics (timeS : α) : Phase α :=
  let ramp := rampS config
  if lt (ofRat 0) ramp && lt timeS ramp then
    let f := clip (timeS / ramp) (ofRat 0) (ofRat 1)
    { value := ramp * (pow f 3 - ofRat (1 / 2) * pow f 4)
      rate := ofRat 3 * pow f 2 - ofRat 2 * pow f 3
      acceleration := (ofRat 6 * f - ofRat 6 * pow f 2) / ramp }
  else
    { value := timeS - ofRat (1 / 2) * ramp
      rate := ofRat 1
      acceleration := ofRat 0 }

/-- `1.0e-9` -/
def smallDistance : α := ofRat (1 / 10 ^ 9)

def phaseKinematics (timeS distancePerPhase : α) : Phase α :=
  let speed := pathSpeed config
  let distance := abs distancePerPhase
  if le speed (ofRat 0) || le distance smallDistance then ⟨ofRat 0, ofRat 0, ofRat 0⟩
  else
    let ramped := rampedTimeKinematics config timeS
    { value := speed * ramped.value / distance
      rate := speed * ramped.rate / distance
      acceleration := speed * ramped.acceleration / distance }

def composeKinematics (offset first second : Vec α) (rate acceleration : α) : PathKinematics α where
  offset := offset
  velocity := first.scale rate
  acceleration := second.scale (pow rate 2) + first.scale acceleration
  yaw := atan2 first.y first.x

/-! ### Spatial Lissajous -/

def lissajousOffset (amp : Vec α) (phase : α) : Vec α :=
  ⟨amp.x * sin phase, amp.y * sin (ofRat 2 * phase), amp.z * sin (ofRat 3 * phase)⟩

def lissajousFirst (amp : Vec α) (phase : α) : Vec α :=
  ⟨amp.x * cos phase, ofRat 2 * amp.y * cos (ofRat 2 * phase),
    ofRat 3 * amp.z * cos (ofRat 3 * phase)⟩

def lissajousSecond (amp : Vec α) (phase : α) : Vec α :=
  ⟨-amp.x * sin phase, ofRat (-4) * amp.y * sin (ofRat 2 * phase),
    ofRat (-9) * amp.z * sin (ofRat 3 * phase)⟩

/-- `numpy.cumsum` after a zero -/
def cumulativeSums (total : α) : List α → List α
  | [] => [total]
  | x :: rest => total :: cumulativeSums (total + x) rest

/-- The number of segments of the table. -/
def arcSegments : ℕ := 4096

/-- `lissajous_arc_table`: the phases and the length of the path up to each. -/
def lissajousArcTable (amp : Vec α) : List α × List α :=
  let phases := linspace twoPi arcSegments
  let norms := phases.map fun phase => (lissajousFirst amp phase).norm
  let phaseStep : α := twoPi / ofRat arcSegments
  let segments := List.zipWith (fun a b => ofRat (1 / 2) * (a + b) * phaseStep) norms norms.tail
  (phases, cumulativeSums (ofRat 0) segments)

/-- The value of a number at one of some increasing points or between two of them. -/
def interpolate (x : α) : List (α × α) → α
  | [] => ofRat 0
  | [(_, f)] => f
  | (a, f) :: (b, g) :: rest =>
    if lt x a then f
    else if lt x b then (g - f) / (b - a) * (x - a) + f
    else interpolate x ((b, g) :: rest)

/-- `numpy.interp` -/
def interp (x : α) (points : List (α × α)) : α := if isNan x then x else interpolate x points

/-- `abs` of the three amplitudes. -/
def lissajousAmplitude : Vec α := ⟨abs config.ampX, abs config.ampY, abs config.ampZ⟩

/-- `lap_length` -/
def lissajousLapLength : α :=
  ((lissajousArcTable (lissajousAmplitude config)).2.getLast?).getD (ofRat 0)

def spatialLissajousKinematics (timeS : α) : PathKinematics α :=
  let amp := lissajousAmplitude config
  let speed := pathSpeed config
  let table := lissajousArcTable amp
  let lapLength := lissajousLapLength config
  if le lapLength smallDistance || le speed (ofRat 0) then .still
  else
    let ramped := rampedTimeKinematics config timeS
    let distance := speed * ramped.value
    let phase := interp (mod distance lapLength) (List.zip table.2 table.1)
    let first := lissajousFirst amp phase
    let second := lissajousSecond amp phase
    let derivativeNorm := pyMax smallDistance first.norm
    let distanceRate := speed * ramped.rate
    let distanceAcceleration := speed * ramped.acceleration
    composeKinematics (lissajousOffset amp phase) first second (distanceRate / derivativeNorm)
      (distanceAcceleration / derivativeNorm -
        first.dot second * pow distanceRate 2 / pow derivativeNorm 4)

/-! ### Planar paths -/

/-- `radius` of the circle -/
def circleRadius : α := abs config.radiusM

def circleKinematics (timeS : α) : PathKinematics α :=
  let radius := circleRadius config
  let phase := phaseKinematics config timeS radius
  composeKinematics ⟨radius * sin phase.value, -radius * cos phase.value, ofRat 0⟩
    ⟨radius * cos phase.value, radius * sin phase.value, ofRat 0⟩
    ⟨-radius * sin phase.value, radius * cos phase.value, ofRat 0⟩ phase.rate phase.acceleration

/-- `radius` of the racetrack -/
def racetrackRadius : α := pyMax (ofRat (1 / 10 ^ 6)) (abs config.ampY)

/-- `straight_half_length` -/
def straightHalfLength : α :=
  pyMax (racetrackRadius config) (abs config.ampX) - racetrackRadius config

/-- `lap_length` of the racetrack -/
def racetrackLapLength : α :=
  ofRat 4 * straightHalfLength config + twoPi * racetrackRadius config

/-- The offset, the tangent and the curvature of the racetrack after some distance. -/
def racetrackPoint (distance : α) : Vec α × Vec α × Vec α :=
  let radius := racetrackRadius config
  let half := straightHalfLength config
  let straight := ofRat 2 * half
  let turn (center angle : α) : Vec α × Vec α × Vec α :=
    (⟨center + radius * cos angle, radius * sin angle, ofRat 0⟩, ⟨-sin angle, cos angle, ofRat 0⟩,
      ⟨-cos angle / radius, -sin angle / radius, ofRat 0⟩)
  if lt distance straight then
    (⟨-half + distance, -radius, ofRat 0⟩, ⟨ofRat 1, ofRat 0, ofRat 0⟩, Vec.zero)
  else if lt distance (straight + pi * radius) then
    turn half (-halfPi + (distance - straight) / radius)
  else if lt distance (ofRat 2 * straight + pi * radius) then
    (⟨half - (distance - straight - pi * radius), radius, ofRat 0⟩,
      ⟨ofRat (-1), ofRat 0, ofRat 0⟩, Vec.zero)
  else turn (-half) (halfPi + (distance - ofRat 2 * straight - pi * radius) / radius)

def racetrackKinematics (timeS : α) : PathKinematics α :=
  let lapLength := racetrackLapLength config
  let distancePerPhase := lapLength / twoPi
  let phase := phaseKinematics config timeS distancePerPhase
  let distance := mod phase.value twoPi * lapLength / twoPi
  let (offset, tangent, curvature) := racetrackPoint config distance
  composeKinematics offset (tangent.scale distancePerPhase)
    (curvature.scale (pow distancePerPhase 2)) phase.rate phase.acceleration

/-- `half_length` -/
def halfLength : α := abs config.ampX

def straightLineKinematics (timeS : α) : PathKinematics α :=
  let half := halfLength config
  let phase := phaseKinematics config timeS half
  { composeKinematics ⟨-half * cos phase.value, ofRat 0, ofRat 0⟩
      ⟨half * sin phase.value, ofRat 0, ofRat 0⟩ ⟨half * cos phase.value, ofRat 0, ofRat 0⟩
      phase.rate phase.acceleration with
    yaw := ofRat 0 }

def trajectoryKinematics (trajectoryType : String) (timeS : α) : PathKinematics α :=
  if trajectoryType == "spatial_lissajous" then spatialLissajousKinematics config timeS
  else if trajectoryType == "circle" then circleKinematics config timeS
  else if trajectoryType == "racetrack" then racetrackKinematics config timeS
  else if trajectoryType == "straight_line" then straightLineKinematics config timeS
  else .still

end Kinematics

end RobotCore
