import RobotCore.Bridge.ClockMapper
import RobotCore.Bridge.Rx
import RobotCore.Lib.Machine

/-!
# The samples of one link

`handle_imu_io` with its clock mapper and the queue, and `imu_publish_loop` taking samples from the
queue, as a machine.  A link starts with an empty queue; `open_serial_io` has reset the mapper.  The
counters of the diagnostics are left out.
-/

namespace RobotCore

open Machine

/-- A sample with the two clock readings at its arrival. -/
structure ImuArrival where
  sample : ImuFrame
  rosNs : ℤ
  steadyNs : ℤ

/-- `QueuedImu` of the current link -/
structure QueuedImu where
  sample : ImuFrame
  stampNs : ℤ
  arrivalRosNs : ℤ
  steadyArrivalNs : ℤ

abbrev kImuQueueCapacity : ℕ := 256

structure ImuLink (K : Type) where
  tracker : ImuTracker := {}
  clockMapper : McuClockMapper K
  imuQueue : List QueuedImu := []

inductive ImuInput where
  | frame (arrival : ImuArrival)
  /-- the publisher takes a sample from the queue, of the generation it read or not -/
  | pop (current : Bool)

inductive ImuOutput where
  /-- a counter that is repeated or older -/
  | dropped
  /-- handed to the mapper, after a reset or not, with its answer -/
  | mapped (arrival : ImuArrival) (reset : Bool) (stamp : Option ℤ)
  | published (queued : QueuedImu)
  | stale

/-- The board counts ticks from a lower number on. -/
def sampleTickRolledBack (tracker : ImuTracker) (sample : ImuFrame) : Bool :=
  tracker.haveMcuTick && sample.sampleTickMs < tracker.lastMcuTick &&
    tracker.lastMcuTick - sample.sampleTickMs ≤ 0x80000000

/-- `delta == 0U || delta > 0x80000000U` -/
def repeatsCounter (tracker : ImuTracker) (sample : ImuFrame) : Bool :=
  let delta := sample.sampleCounter - tracker.lastCounter
  tracker.haveCounter && (delta == 0 || delta > 0x80000000)

namespace ImuLink

variable {K : Type} [ClockNumber K]

def new : ImuLink K := { clockMapper := .new }

/-- The tick of a sample is taken, and a rolled back one resets the mapper. -/
def trackTick (s : ImuLink K) (sample : ImuFrame) : ImuLink K :=
  let rolledBack := sampleTickRolledBack s.tracker sample
  { s with
    tracker :=
      { s.tracker with
        haveCounter := s.tracker.haveCounter && !rolledBack
        lastMcuTick := sample.sampleTickMs
        haveMcuTick := true }
    clockMapper := if rolledBack then s.clockMapper.reset else s.clockMapper }

/-- `imu_queue_.push`, which fails when the queue is full. -/
def push (s : ImuLink K) (queued : QueuedImu) : ImuLink K :=
  if s.imuQueue.length < kImuQueueCapacity then { s with imuQueue := s.imuQueue ++ [queued] }
  else s

/-- The rest of the handler, on a sample with a new counter. -/
def mapSample (s : ImuLink K) (arrival : ImuArrival) : ImuLink K × Option ℤ :=
  let (mapper, stamp) := s.clockMapper.map arrival.sample.sampleTickMs arrival.rosNs
    arrival.steadyNs
  let s :=
    { s with
      tracker :=
        { s.tracker with haveCounter := true, lastCounter := arrival.sample.sampleCounter }
      clockMapper := mapper.takeRosClockDiscontinuity.1 }
  match stamp with
  | none => (s, none)
  | some stampNs =>
    (s.push ⟨arrival.sample, stampNs, arrival.rosNs, arrival.steadyNs⟩, some stampNs)

/-- `handle_imu_io` -/
def handleImuIo (s : ImuLink K) (arrival : ImuArrival) : ImuLink K × ImuOutput :=
  let reset := sampleTickRolledBack s.tracker arrival.sample
  let s := s.trackTick arrival.sample
  if repeatsCounter s.tracker arrival.sample then (s, .dropped)
  else
    let (s, stamp) := s.mapSample arrival
    (s, .mapped arrival reset stamp)

/-- One round of `imu_publish_loop`. -/
def publishNext (s : ImuLink K) (current : Bool) : Option (ImuLink K × ImuOutput) :=
  match s.imuQueue with
  | [] => none
  | queued :: rest =>
    some ({ s with imuQueue := rest }, if current then .published queued else .stale)

end ImuLink

/-- The handler and the publisher of one link. -/
def imuMachine (K : Type) [ClockNumber K] : Machine (ImuLink K) ImuInput ImuOutput where
  init := .new
  step s
    | .frame arrival => some (s.handleImuIo arrival)
    | .pop current => s.publishNext current

end RobotCore
