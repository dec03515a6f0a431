import Mathlib.Data.Int.Notation
import Mathlib.Data.Nat.Notation
import Mathlib.Tactic.Common

/-!
# The filter of the VIO/Tag estimator

`VioTagEkf` of `vio_tag_fusion_component.cpp` and the measurements it is given.  What the filter
computes on its estimate (position, velocity, orientation, rates, held acceleration and their
covariance) is an `EkfKernel`; the flag, the stamp and the order of the updates are the code's.

An update that fails to repair the covariance and a failed `initialize` leave a half-computed
estimate behind, which no code reads while `initialized` is false: the model leaves the old one.
The diagnostics of the filter (its last NIS, innovations and corrections) are left out.
-/

namespace RobotCore

variable {σ δ : Type}

/-- What an update of one block does to the estimate. -/
inductive BlockUpdate (σ : Type) where
  /-- a check or the gate turns the measurement away -/
  | rejected
  | accepted (estimate : σ)
  /-- the updated covariance cannot be repaired -/
  | failed
  deriving DecidableEq

/-- The computations of the filter on estimates in `σ` and the data of one block in `δ`. -/
structure EkfKernel (σ δ : Type) where
  /-- the estimate of a filter that was never initialised -/
  blank : σ
  /-- the estimate of `initialize_filter`, from the pose and the twist of a measurement -/
  initialEstimate : Option δ → Option δ → σ
  /-- `initialize`: normalise the orientation and stabilise the covariance -/
  stabilize : σ → Option σ
  /-- `propagate_to` over a positive time in nanoseconds -/
  advance : ℤ → σ → Option σ
  updatePosition : σ → δ → BlockUpdate σ
  updateOrientation : σ → δ → BlockUpdate σ
  updateLinearVelocity : σ → δ → BlockUpdate σ
  /-- `update_angular_velocity` with the twist of the VIO and its gate -/
  updateTwistAngularVelocity : σ → δ → BlockUpdate σ
  /-- `update_angular_velocity` with the rate of the IMU and its gate -/
  updateExternalAngularVelocity : σ → δ → BlockUpdate σ
  setLinearAcceleration : σ → δ → BlockUpdate σ

structure EkfState (σ : Type) where
  stampNs : ℤ := 0
  estimate : σ
  deriving DecidableEq

structure VioTagEkf (σ : Type) where
  state : EkfState σ
  initialized : Bool := false
  deriving DecidableEq

structure Measurement (δ : Type) where
  id : ℕ
  stampNs : ℤ
  pose : Option δ := none
  twist : Option δ := none
  externalAngularVelocity : Option δ := none
  externalLinearAcceleration : Option δ := none
  deriving DecidableEq

structure MeasurementResult where
  poseAccepted : Bool := false
  twistAccepted : Bool := false
  angularVelocityAccepted : Bool := false
  linearAccelerationAccepted : Bool := false
  deriving DecidableEq

def MeasurementResult.any (r : MeasurementResult) : Bool :=
  r.poseAccepted || r.twistAccepted || r.linearAccelerationAccepted

namespace EkfKernel

variable (K : EkfKernel σ δ)

/-- `VioTagEkf(noise_)` -/
def fresh : VioTagEkf σ := { state := { estimate := K.blank } }

/-- A fresh filter after `initialize(state)`. -/
def initializeFrom (state : EkfState σ) : VioTagEkf σ :=
  match K.stabilize state.estimate with
  | some estimate => ⟨⟨state.stampNs, estimate⟩, true⟩
  | none => ⟨state, false⟩

/-- The filter after `propagate_to(stamp)`, or `none` when it returns false. -/
def propagateTo (f : VioTagEkf σ) (stampNs : ℤ) : Option (VioTagEkf σ) :=
  if !f.initialized || stampNs < f.state.stampNs then none
  else if stampNs = f.state.stampNs then some f
  else
    (K.advance (stampNs - f.state.stampNs) f.state.estimate).map fun estimate =>
      ⟨⟨stampNs, estimate⟩, true⟩

end EkfKernel

/-- One of the updates: the returned flag and the filter. -/
def VioTagEkf.update (f : VioTagEkf σ) (block : σ → δ → BlockUpdate σ) (data : δ) :
    Bool × VioTagEkf σ :=
  if !f.initialized then (false, f)
  else
    match block f.state.estimate data with
    | .rejected => (false, f)
    | .accepted estimate => (true, { f with state.estimate := estimate })
    | .failed => (false, { f with initialized := false })

namespace EkfKernel

variable (K : EkfKernel σ δ)

def applyPose (f : VioTagEkf σ) (result : MeasurementResult) (data : δ) :
    MeasurementResult × VioTagEkf σ :=
  let (positionAccepted, f) := f.update K.updatePosition data
  let (orientationAccepted, f) := f.update K.updateOrientation data
  ({ result with poseAccepted := positionAccepted || orientationAccepted }, f)

def applyTwist (f : VioTagEkf σ) (result : MeasurementResult) (data : δ) :
    MeasurementResult × VioTagEkf σ :=
  let (linearVelocityAccepted, f) := f.update K.updateLinearVelocity data
  let (angularVelocityAccepted, f) := f.update K.updateTwistAngularVelocity data
  ({ result with
      angularVelocityAccepted := angularVelocityAccepted
      twistAccepted := linearVelocityAccepted || angularVelocityAccepted }, f)

def applyExternalAngularVelocity (f : VioTagEkf σ) (result : MeasurementResult) (data : δ) :
    MeasurementResult × VioTagEkf σ :=
  let (accepted, f) := f.update K.updateExternalAngularVelocity data
  ({ result with
      angularVelocityAccepted := accepted
      twistAccepted := result.twistAccepted || accepted }, f)

def applyExternalLinearAcceleration (f : VioTagEkf σ) (result : MeasurementResult) (data : δ) :
    MeasurementResult × VioTagEkf σ :=
  let (accepted, f) := f.update K.setLinearAcceleration data
  ({ result with linearAccelerationAccepted := accepted }, f)

/-- A block of `apply_measurement`, skipped when the measurement does not have it. -/
def applyBlock (block : VioTagEkf σ → MeasurementResult → δ → MeasurementResult × VioTagEkf σ)
    (data : Option δ) (r : MeasurementResult × VioTagEkf σ) : MeasurementResult × VioTagEkf σ :=
  match data with
  | some data => block r.2 r.1 data
  | none => r

def applyMeasurement (f : VioTagEkf σ) (event : Measurement δ) :
    MeasurementResult × VioTagEkf σ :=
  applyBlock K.applyExternalLinearAcceleration event.externalLinearAcceleration <|
  applyBlock K.applyExternalAngularVelocity event.externalAngularVelocity <|
  applyBlock K.applyTwist event.twist <|
  applyBlock K.applyPose event.pose ({}, f)

end EkfKernel

end RobotCore
