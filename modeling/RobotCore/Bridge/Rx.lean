import RobotCore.Protocol.Codec

/-!
# Reading the serial stream

`start_read_io` and `parse_rx_io`: what a read appends to the buffer, and the loop that finds the
frames in it.  `consumed` and `delivered` are history: how many bytes of the stream have been
erased from the buffer, and which frames have been handed to their handlers, each with the offset
in the stream at which it starts.

A status or runtime frame is always accepted.  `handle_imu_io` is modelled up to the time stamp
and the queue of the publisher, which no branch lets decide the result: it accepts every sample.
-/

namespace RobotCore

/-- The handler a frame is handed to. -/
inductive RxCall where
  | boardStatus (frame : BoardStatusFrame)
  | runtime (frame : RuntimeFrame)
  | imu (frame : ImuFrame)

structure Delivery where
  offset : ℕ
  length : ℕ
  call : RxCall

structure RxCounters where
  statusCrcErrors : UInt64 := 0
  runtimeCrcErrors : UInt64 := 0
  imuCrcErrors : UInt64 := 0
  imuVersionErrors : UInt64 := 0
  imuInvalidFlags : UInt64 := 0
  imuDuplicateOrBackwards : UInt64 := 0
  imuSequenceGaps : UInt64 := 0
  deriving DecidableEq

/-- What `handle_imu_io` remembers of the samples. -/
structure ImuTracker where
  haveMcuTick : Bool := false
  lastMcuTick : UInt32 := 0
  haveCounter : Bool := false
  lastCounter : UInt32 := 0
  deriving DecidableEq

/-- What the handlers and the error branches leave behind; `delivered` is history. -/
structure RxLog where
  counters : RxCounters := {}
  tracker : ImuTracker := {}
  delivered : List Delivery := []

structure Rx where
  rxBuffer : List UInt8 := []
  consumed : ℕ := 0
  log : RxLog := {}

/-- `open_serial_io` starts a new stream. -/
def Rx.opened (rx : Rx) : Rx :=
  { log :=
      { counters := rx.log.counters
        tracker := { rx.log.tracker with haveMcuTick := false, haveCounter := false } } }

/-- `rx_buffer_.erase(rx_buffer_.begin(), rx_buffer_.begin() + n)` -/
def Rx.erase (rx : Rx) (n : ℕ) : Rx :=
  { rx with rxBuffer := rx.rxBuffer.drop n, consumed := rx.consumed + n }

/-- `rx_buffer_[i]` -/
def Rx.byte (rx : Rx) (i : ℕ) : UInt8 := rx.rxBuffer.getD i 0

def RxLog.call (log : RxLog) (offset length : ℕ) (call : RxCall) : RxLog :=
  { log with delivered := log.delivered ++ [⟨offset, length, call⟩] }

/-! ### The IMU handler -/

/-- The sample counter: a repeated or older sample is only counted, a newer one moves the counter
and counts what was skipped. -/
def trackCounter (log : RxLog) (sample : ImuFrame) : RxLog :=
  let delta := sample.sampleCounter - log.tracker.lastCounter
  let moved := { log.tracker with haveCounter := true, lastCounter := sample.sampleCounter }
  if log.tracker.haveCounter then
    if delta == 0 || delta > 0x80000000 then
      { log with
        counters.imuDuplicateOrBackwards := log.counters.imuDuplicateOrBackwards + 1 }
    else if delta > 1 then
      { log with
        counters.imuSequenceGaps := log.counters.imuSequenceGaps + (delta - 1).toUInt64
        tracker := moved }
    else { log with tracker := moved }
  else { log with tracker := moved }

def handleImuIo (log : RxLog) (sample : ImuFrame) : RxLog × Bool :=
  let tickRolledBack := log.tracker.haveMcuTick && sample.sampleTickMs < log.tracker.lastMcuTick &&
    log.tracker.lastMcuTick - sample.sampleTickMs ≤ 0x80000000
  let log :=
    { log with
      tracker :=
        { log.tracker with
          haveCounter := log.tracker.haveCounter && !tickRolledBack
          lastMcuTick := sample.sampleTickMs
          haveMcuTick := true } }
  (trackCounter log sample, true)

/-! ### The parser -/

/-- The branches on a complete frame of `length` bytes: what is counted or called, and whether the
whole frame is consumed. -/
def acceptFrame (rx : Rx) (length : ℕ) : RxLog × Bool :=
  let data := rx.rxBuffer.take length
  let log := rx.log
  if rx.byte 1 == kStatusV2Type then
    match parseBoardStatusV2 data with
    | some boardStatus => (log.call rx.consumed length (.boardStatus boardStatus), true)
    | none =>
      ({ log with counters.statusCrcErrors := log.counters.statusCrcErrors + 1 }, false)
  else if rx.byte 2 == kRuntimeFrameNumber then
    match parseRuntimeV1 data with
    | some runtime => (log.call rx.consumed length (.runtime runtime), true)
    | none =>
      ({ log with counters.runtimeCrcErrors := log.counters.runtimeCrcErrors + 1 }, false)
  else if rx.byte 3 != 0x02 then
    ({ log with counters.imuVersionErrors := log.counters.imuVersionErrors + 1 }, true)
  else if rx.byte 4 &&& 0x01 == 0 then
    ({ log with counters.imuInvalidFlags := log.counters.imuInvalidFlags + 1 }, true)
  else
    match parseImuV2 data with
    | some sample => handleImuIo (log.call rx.consumed length (.imu sample)) sample
    | none => ({ log with counters.imuCrcErrors := log.counters.imuCrcErrors + 1 }, false)

/-- How an iteration of the loop ends. -/
inductive LoopStep where
  | returned (rx : Rx)
  | continued (rx : Rx)

/-- The loop body once the header is known: wait for the frame, or consume it or one byte. -/
def parseFrame (rx : Rx) (length : ℕ) : LoopStep :=
  if rx.rxBuffer.length < length then .returned rx
  else
    let (log, accepted) := acceptFrame rx length
    .continued ({ rx with log := log }.erase (if accepted then length else 1))

/-- The loop body. -/
def parseStep (rx : Rx) : LoopStep :=
  let rx := rx.erase (rx.rxBuffer.takeWhile (· != kFrameHead)).length
  if rx.rxBuffer.length < 3 then .returned rx
  else if rx.byte 1 == kStatusV2Type then parseFrame rx kStatusV2FrameSize
  else if rx.byte 1 == kTelemetryType then
    if rx.byte 2 == kImuFrameNumber then parseFrame rx kImuV2FrameSize
    else if rx.byte 2 == kRuntimeFrameNumber then parseFrame rx kRuntimeV1FrameSize
    else
      let rx :=
        { rx with log.counters.imuVersionErrors := rx.log.counters.imuVersionErrors + 1 }
      .continued (rx.erase 1)
  else .continued (rx.erase 1)

/-- The loop, with a bound on the iterations that yields `none` when it is reached; the flag says
whether it was left by the loop condition, so that the truncation after it runs. -/
def parseLoop : ℕ → Rx → Option (Rx × Bool)
  | 0, _ => none
  | fuel + 1, rx =>
    if rx.rxBuffer.length < 3 then some (rx, true)
    else
      match parseStep rx with
      | .returned rx => some (rx, false)
      | .continued rx => parseLoop fuel rx

/-- The truncation after the loop. -/
def truncateBuffer (rx : Rx) : Rx :=
  if rx.rxBuffer.length > 4096 then rx.erase (rx.rxBuffer.length - 64) else rx

def parseRxIo (fuel : ℕ) (rx : Rx) : Option Rx :=
  (parseLoop fuel rx).map fun (rx, leftByCondition) =>
    if leftByCondition then truncateBuffer rx else rx

/-- A completed read of `start_read_io`.  An iteration consumes a byte or is the last one, so one
more than the buffered bytes bounds the loop. -/
def startReadIo (rx : Rx) (readChunk : List UInt8) : Option Rx :=
  let rx := { rx with rxBuffer := rx.rxBuffer ++ readChunk }
  parseRxIo (rx.rxBuffer.length + 1) rx

/-- Reading the chunks one after the other. -/
def readChunks (rx : Rx) (chunks : List (List UInt8)) : Option Rx :=
  chunks.foldlM startReadIo rx

end RobotCore
