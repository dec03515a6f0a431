import RobotCore.Lib.Ieee.Numeric

/-!
# The clock of the IMU samples

`McuClockMapper` of `aboard_protocol.cpp` stamps a sample with ROS time from the millisecond tick of
the board and the two clock readings at its arrival.  The estimator is written over the arithmetic
of `double` (`ClockNumber`); with the rational numbers it is exact.

The nanoseconds of the clocks are integers and the extended tick, an unsigned 64-bit counter of
milliseconds, is a natural number.
-/

namespace RobotCore

open Ieee

/-- What the mapper uses of `double`. -/
class ClockNumber (K : Type) extends Add K, Sub K, Mul K, Div K where
  ofRat : ℚ → K
  lt : K → K → Bool
  le : K → K → Bool
  llround : K → ℤ

/-- Exact arithmetic. -/
instance : ClockNumber ℚ where
  ofRat q := q
  lt x y := decide (x < y)
  le x y := decide (x ≤ y)
  llround := roundHalfAway

instance : ClockNumber Binary64 where
  div x y := x.divide y
  ofRat := Number.ofRat binary64
  lt := Number.lt
  le := Number.le
  llround := Number.lround

namespace ClockNumber

variable {K : Type} [ClockNumber K]

/-- `static_cast<double>` of an integer. -/
def ofInt (n : ℤ) : K := ofRat n

/-- `std::clamp` -/
def clamp (x lo hi : K) : K := if lt x lo then lo else if lt hi x then hi else x

/-- `std::min` -/
def min (x y : K) : K := if lt y x then y else x

end ClockNumber

open ClockNumber

structure McuClockMapper (K : Type) where
  initialized : Bool := false
  rosClockDiscontinuity : Bool := false
  lastRawTick : UInt32 := 0
  wrapEpoch : ℕ := 0
  referenceTick : ℕ := 0
  referenceArrivalSteadyNs : ℤ := 0
  lastArrivalRosNs : ℤ := 0
  lastArrivalSteadyNs : ℤ := 0
  nsPerTick : K
  minimumSteadyInterceptNs : K
  lastStampNs : ℤ := 0

variable {K : Type} [ClockNumber K]

def kRosClockJumpThresholdNs : ℤ := 100000000

namespace McuClockMapper

/-- `McuClockMapper{}`, which `reset` starts from again. -/
def new : McuClockMapper K :=
  { nsPerTick := ofRat 1000000, minimumSteadyInterceptNs := ofRat 0 }

/-- The first sample of a mapper. -/
def anchor (m : McuClockMapper K) (tickMs : UInt32) (arrivalRosNs arrivalSteadyNs : ℤ) :
    McuClockMapper K :=
  { m with
    initialized := true
    lastRawTick := tickMs
    referenceTick := tickMs.toNat
    referenceArrivalSteadyNs := arrivalSteadyNs
    lastArrivalRosNs := arrivalRosNs
    lastArrivalSteadyNs := arrivalSteadyNs
    minimumSteadyInterceptNs := ofInt arrivalSteadyNs
    lastStampNs := arrivalRosNs }

/-- The tick is lower than the last one, by more than half of the 32-bit range. -/
def wraps (m : McuClockMapper K) (tickMs : UInt32) : Bool :=
  tickMs < m.lastRawTick && m.lastRawTick - tickMs > 0x80000000

/-- The tick is lower than the last one, by less. -/
def isBackward (m : McuClockMapper K) (tickMs : UInt32) : Bool :=
  tickMs < m.lastRawTick && !m.wraps tickMs

/-- `extended` of the last tick. -/
def extended (m : McuClockMapper K) : ℕ := m.wrapEpoch + m.lastRawTick.toNat

/-- The mapper with the tick of a sample that is not backward. -/
def takeTick (m : McuClockMapper K) (tickMs : UInt32) : McuClockMapper K :=
  { m with
    wrapEpoch := if m.wraps tickMs then m.wrapEpoch + 2 ^ 32 else m.wrapEpoch
    lastRawTick := tickMs }

/-- `elapsed_ticks`, as an integer -/
def elapsedTicks (m : McuClockMapper K) : ℕ := m.extended - m.referenceTick

/-- `ros_clock_jump` -/
def rosClockJump (m : McuClockMapper K) (arrivalRosNs arrivalSteadyNs : ℤ) : Bool :=
  kRosClockJumpThresholdNs <
    |(arrivalRosNs - m.lastArrivalRosNs) - (arrivalSteadyNs - m.lastArrivalSteadyNs)|

/-- The slope is updated from the second on. -/
def updateSlope (m : McuClockMapper K) (arrivalSteadyNs : ℤ) : McuClockMapper K :=
  let elapsedTicks : K := ofInt m.elapsedTicks
  if le (ofRat 1000) elapsedTicks then
    let observedSlope := ofInt (arrivalSteadyNs - m.referenceArrivalSteadyNs) / elapsedTicks
    let boundedSlope := clamp observedSlope (ofRat 995000) (ofRat 1005000)
    { m with nsPerTick := ofRat (98 / 100) * m.nsPerTick + ofRat (2 / 100) * boundedSlope }
  else m

/-- The intercept is the least one so far. -/
def updateIntercept (m : McuClockMapper K) (arrivalSteadyNs : ℤ) : McuClockMapper K :=
  let candidateIntercept := ofInt arrivalSteadyNs - m.nsPerTick * ofInt m.elapsedTicks
  { m with minimumSteadyInterceptNs := min m.minimumSteadyInterceptNs candidateIntercept }

/-- The stamp of the sample whose tick was taken last. -/
def stampNs (m : McuClockMapper K) (arrivalRosNs arrivalSteadyNs : ℤ) : ℤ :=
  let rosMinusSteady : K := ofInt (arrivalRosNs - arrivalSteadyNs)
  let stamp : ℤ := llround
    (m.minimumSteadyInterceptNs + m.nsPerTick * ofInt m.elapsedTicks + rosMinusSteady)
  Min.min stamp arrivalRosNs

/-- The estimator with a sample that is not backward. -/
def observe (m : McuClockMapper K) (tickMs : UInt32) (arrivalRosNs arrivalSteadyNs : ℤ) :
    McuClockMapper K :=
  let m := { m.takeTick tickMs with
    lastArrivalRosNs := arrivalRosNs
    lastArrivalSteadyNs := arrivalSteadyNs }
  (m.updateSlope arrivalSteadyNs).updateIntercept arrivalSteadyNs

/-- `map`: the stamp, unless the sample is rejected. -/
def map (m : McuClockMapper K) (tickMs : UInt32) (arrivalRosNs arrivalSteadyNs : ℤ) :
    McuClockMapper K × Option ℤ :=
  if !m.initialized then (m.anchor tickMs arrivalRosNs arrivalSteadyNs, some arrivalRosNs)
  else if m.isBackward tickMs then (m, none)
  else
    let jump := m.rosClockJump arrivalRosNs arrivalSteadyNs
    let m := m.observe tickMs arrivalRosNs arrivalSteadyNs
    let stamp := m.stampNs arrivalRosNs arrivalSteadyNs
    if !jump && decide (stamp ≤ m.lastStampNs) then (m, none)
    else
      ({ m with
          rosClockDiscontinuity := m.rosClockDiscontinuity || jump
          lastStampNs := stamp },
        some stamp)

/-- `take_ros_clock_discontinuity` -/
def takeRosClockDiscontinuity (m : McuClockMapper K) : McuClockMapper K × Bool :=
  ({ m with rosClockDiscontinuity := false }, m.rosClockDiscontinuity)

/-- `reset` -/
def reset (_ : McuClockMapper K) : McuClockMapper K := new

end McuClockMapper

end RobotCore
