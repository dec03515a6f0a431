import Mathlib.Algebra.Group.Nat.Defs
import Mathlib.Logic.Function.Iterate

/-!
# The telemetry probe

`robotcore_aboard_telemetry_probe.py`: a second reader of the serial stream, which finds status and
IMU frames in it and counts them.  Its numbers are Python integers, its buffer a list of bytes.
`consumed` and `reported` are history: how many bytes have been deleted from the buffer, and which
frames have been accepted, each with the offset in the stream at which it starts.

Arrival times, and the port itself, are left out.
-/

namespace RobotCore.TelemetryProbe

/-! ### Constants -/

def statusHeader : List UInt8 := [0xFF, 0xFD]
def imuHeader : List UInt8 := [0xFF, 0xF8, 0x04]
abbrev statusLen : ℕ := 48
def protocolV2 : UInt8 := 2
def knownStatusFlags : UInt8 := 0x3F

/-- `IMU_LENGTH_BY_VERSION.get(version)` -/
def imuLengthByVersion (version : UInt8) : Option ℕ :=
  if version = 1 then some 27 else if version = 2 then some 33 else none

/-! ### Integers -/

/-- `int.from_bytes(data, "little")` -/
def fromBytes (data : List UInt8) : ℕ := data.foldr (fun value rest => value.toNat + 256 * rest) 0

/-- The little-endian `size` bytes at `i`. -/
def unpack (frame : List UInt8) (i size : ℕ) : ℕ := fromBytes ((frame.drop i).take size)

/-- `<h` at `i` -/
def unpackI16 (frame : List UInt8) (i : ℕ) : ℤ := (unpack frame i 2 : ℤ).bmod (2 ^ 16)

/-- The inner loop of `crc16_ccitt`. -/
def crcShift (crc : ℕ) : ℕ :=
  if crc &&& 0x8000 ≠ 0 then ((crc <<< 1) ^^^ 0x1021) &&& 0xFFFF else (crc <<< 1) &&& 0xFFFF

def crc16Ccitt (data : List UInt8) : ℕ :=
  data.foldl (fun crc value => Nat.iterate crcShift 8 (crc ^^^ value.toNat <<< 8)) 0xFFFF

/-! ### Frames -/

structure Status where
  flags : ℕ
  tickMs : ℕ
  bootId : ℕ
  sessionId : ℕ
  receivedSequence : ℕ
  appliedSequence : ℕ
  commandAgeMs : ℕ
  safetyReason : ℕ
  resetCause : ℕ
  rxCrcErrors : ℕ
  pwmUs : List ℕ
  deriving DecidableEq

structure Imu where
  version : ℕ
  valid : Bool
  attitudeValid : Bool
  sampleId : ℕ
  tickMs : ℕ
  gyroCdegS : List ℤ
  accelMg : List ℤ
  attitudeRpyCdeg : Option (List ℤ)
  deriving DecidableEq

def requireCrc (frame : List UInt8) : Except String Unit :=
  if fromBytes (frame.drop (frame.length - 2)) ≠ crc16Ccitt (frame.take (frame.length - 2)) then
    .error "CRC16 mismatch"
  else .ok ()

def parseStatus (frame : List UInt8) : Except String Status :=
  if frame.length ≠ statusLen ∨ frame.take 2 ≠ statusHeader ∨ frame.getD 2 0 ≠ protocolV2 then
    .error "invalid status header/version"
  else if frame.getD 3 0 &&& ~~~knownStatusFlags ≠ 0 then .error "invalid status flags"
  else do
    requireCrc frame
    return {
      flags := (frame.getD 3 0).toNat
      tickMs := unpack frame 4 4
      bootId := unpack frame 8 4
      sessionId := unpack frame 12 4
      receivedSequence := unpack frame 16 4
      appliedSequence := unpack frame 20 4
      commandAgeMs := unpack frame 24 2
      safetyReason := (frame.getD 26 0).toNat
      resetCause := (frame.getD 27 0).toNat
      rxCrcErrors := unpack frame 28 2
      pwmUs := (List.range 8).map fun i => unpack frame (30 + 2 * i) 2 }

def parseImu (frame : List UInt8) : Except String Imu :=
  if frame.length < 4 ∨ frame.take 3 ≠ imuHeader then .error "invalid IMU header/version"
  else if some frame.length ≠ imuLengthByVersion (frame.getD 3 0) then
    .error "invalid IMU length/version"
  else if frame.getD 4 0 &&& ~~~0x03 ≠ 0 then .error "invalid IMU flags"
  else do
    requireCrc frame
    let version := frame.getD 3 0
    let words (i : ℕ) := (List.range 3).map fun k => unpackI16 frame (i + 2 * k)
    return {
      version := version.toNat
      valid := frame.getD 4 0 &&& 0x01 != 0
      attitudeValid := version ≥ 2 && frame.getD 4 0 &&& 0x02 != 0
      sampleId := unpack frame 5 4
      tickMs := unpack frame 9 4
      gyroCdegS := words 13
      accelMg := words 19
      attitudeRpyCdeg := if version ≥ 2 then some (words 25) else none }

inductive Kind where
  | status
  | imu
  deriving DecidableEq

inductive Parsed where
  | status (status : Status)
  | imu (imu : Imu)
  deriving DecidableEq

/-- `parse_status(frame) if kind == "status" else parse_imu(frame)` -/
def Kind.parse (frame : List UInt8) : Kind → Except String Parsed
  | .status => (parseStatus frame).map .status
  | .imu => (parseImu frame).map .imu

/-! ### The state -/

/-- `counts`, without the bytes. -/
structure Counts where
  status : ℕ := 0
  imu : ℕ := 0
  badStatus : ℕ := 0
  badImu : ℕ := 0
  imuInvalid : ℕ := 0
  imuAttitudeInvalid : ℕ := 0
  imuV1 : ℕ := 0
  imuV2 : ℕ := 0
  deriving DecidableEq

structure Report where
  offset : ℕ
  length : ℕ
  frame : Parsed
  deriving DecidableEq

/-- What the frames leave behind: `first` and `last` are the ends of `reported`. -/
structure Log where
  counts : Counts := {}
  reported : List Report := []
  deriving DecidableEq

structure Probe where
  buffer : List UInt8 := []
  consumed : ℕ := 0
  bytes : ℕ := 0
  log : Log := {}
  deriving DecidableEq

/-- `del buffer[:n]` -/
def Probe.delete (probe : Probe) (n : ℕ) : Probe :=
  { probe with buffer := probe.buffer.drop n, consumed := probe.consumed + n }

/-! ### Finding a frame -/

/-- `buffer.find(header)` -/
def find (header : List UInt8) : List UInt8 → Option ℕ
  | [] => none
  | value :: rest =>
    if header.isPrefixOf (value :: rest) then some 0 else (find header rest).map (· + 1)

/-- `min(starts)` -/
def firstStart (buffer : List UInt8) : Option (ℕ × Kind) :=
  match find statusHeader buffer, find imuHeader buffer with
  | none, none => none
  | some start, none => some (start, .status)
  | none, some start => some (start, .imu)
  | some status, some imu => some (if imu ≤ status then (imu, .imu) else (status, .status))

structure Candidate where
  kind : Kind
  frame : List UInt8

/-- The first `length` bytes, once they are there. -/
def complete (buffer : List UInt8) (kind : Kind) (length : ℕ) : Option Candidate :=
  if buffer.length < length then none else some ⟨kind, buffer.take length⟩

/-- `limit` is how many nested calls fit on the stack of the interpreter; `none` is the
`RecursionError` of one more. -/
def nextFrame : ℕ → Probe → Option (Probe × Option Candidate)
  | 0, _ => none
  | limit + 1, probe =>
    match firstStart probe.buffer with
    | none =>
      some (if probe.buffer.length > statusLen then probe.delete (probe.buffer.length - 2)
        else probe, none)
    | some (start, kind) =>
      let probe := probe.delete start
      match kind with
      | .status => some (probe, complete probe.buffer .status statusLen)
      | .imu =>
        if probe.buffer.length < 4 then some (probe, none)
        else
          match imuLengthByVersion (probe.buffer.getD 3 0) with
          | none => nextFrame limit (probe.delete 1)
          | some length => some (probe, complete probe.buffer .imu length)

/-! ### Measuring -/

def Log.bad (log : Log) : Kind → Log
  | .status => { log with counts.badStatus := log.counts.badStatus + 1 }
  | .imu => { log with counts.badImu := log.counts.badImu + 1 }

def Counts.add (counts : Counts) : Parsed → Counts
  | .status _ => { counts with status := counts.status + 1 }
  | .imu imu =>
    { counts with
      imu := counts.imu + 1
      imuInvalid := if imu.valid then counts.imuInvalid else counts.imuInvalid + 1
      imuAttitudeInvalid :=
        if imu.attitudeValid then counts.imuAttitudeInvalid else counts.imuAttitudeInvalid + 1
      imuV1 := if imu.version = 1 then counts.imuV1 + 1 else counts.imuV1
      imuV2 := if imu.version = 2 then counts.imuV2 + 1 else counts.imuV2 }

def Log.report (log : Log) (report : Report) : Log where
  counts := log.counts.add report.frame
  reported := log.reported ++ [report]

/-- The body of the loop over the candidates. -/
def Probe.handle (probe : Probe) (candidate : Candidate) : Probe :=
  match candidate.kind.parse candidate.frame with
  | .error _ => { probe with log := probe.log.bad candidate.kind }.delete 1
  | .ok parsed =>
    { probe with
      log := probe.log.report ⟨probe.consumed, candidate.frame.length, parsed⟩ }.delete
      candidate.frame.length

/-- The loop over the candidates, with a bound on its iterations that yields `none` as well. -/
def handleFrames (limit : ℕ) : ℕ → Probe → Option Probe
  | 0, _ => none
  | fuel + 1, probe =>
    match nextFrame limit probe with
    | none => none
    | some (probe, none) => some probe
    | some (probe, some candidate) => handleFrames limit fuel (probe.handle candidate)

/-- A read.  Every iteration but the last deletes a byte, so one more than the buffered bytes bounds
the loop. -/
def readChunk (limit : ℕ) (probe : Probe) (chunk : List UInt8) : Option Probe :=
  if chunk.isEmpty then some probe
  else
    let probe :=
      { probe with buffer := probe.buffer ++ chunk, bytes := probe.bytes + chunk.length }
    handleFrames limit (probe.buffer.length + 1) probe

/-- The reads of `measure` until its deadline. -/
def measure (limit : ℕ) (chunks : List (List UInt8)) : Option Probe :=
  chunks.foldlM (readChunk limit) {}

/-- The exit status of `measure`. -/
def Counts.exitStatus (counts : Counts) : ℕ :=
  if counts.status = 0 then 4
  else if counts.imu = 0 then 3
  else if counts.imuInvalid = counts.imu then 2
  else if counts.imuAttitudeInvalid = counts.imu then 5
  else 0

end RobotCore.TelemetryProbe
