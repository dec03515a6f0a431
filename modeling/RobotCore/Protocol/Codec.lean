import RobotCore.Protocol.Frame

/-!
# Encoding and decoding frames

The functions of `aboard_protocol.cpp`: little-endian fields, the CRC-16/CCITT-FALSE over
everything before the last two bytes, the command encoder and the four parsers.  A buffer is the
list of its bytes, so `data` and `size` of the source are one argument here.
-/

namespace RobotCore

open Ieee

/-! ### Fields -/

def readU16 (data : List UInt8) (i : ℕ) : UInt16 :=
  (data.getD i 0).toUInt16 ||| (data.getD (i + 1) 0).toUInt16 <<< 8

def readU32 (data : List UInt8) (i : ℕ) : UInt32 :=
  (data.getD i 0).toUInt32 ||| (data.getD (i + 1) 0).toUInt32 <<< 8 |||
  (data.getD (i + 2) 0).toUInt32 <<< 16 ||| (data.getD (i + 3) 0).toUInt32 <<< 24

def readI16 (data : List UInt8) (i : ℕ) : Int16 :=
  (readU16 data i).toInt16

def writeU16 (value : UInt16) : List UInt8 :=
  [(value &&& 0xFF).toUInt8, (value >>> 8).toUInt8]

def writeU32 (value : UInt32) : List UInt8 :=
  [(value &&& 0xFF).toUInt8, ((value >>> 8) &&& 0xFF).toUInt8,
    ((value >>> 16) &&& 0xFF).toUInt8, (value >>> 24).toUInt8]

/-! ### CRC -/

/-- One round of the inner loop: shift, and reduce by the polynomial when a bit falls out. -/
def crcBit (crc : UInt16) : UInt16 :=
  if crc &&& 0x8000 != 0 then (crc <<< 1) ^^^ 0x1021 else crc <<< 1

def crcByte (crc : UInt16) (byte : UInt8) : UInt16 :=
  Nat.iterate crcBit 8 (crc ^^^ byte.toUInt16 <<< 8)

def crc16Ccitt (data : List UInt8) : UInt16 :=
  data.foldl crcByte 0xFFFF

/-- The stored CRC, low byte first, matches the bytes before it. -/
def crcMatches (data : List UInt8) : Bool :=
  readU16 data (data.length - 2) == crc16Ccitt (data.take (data.length - 2))

/-! ### Commands -/

def commandFlags (enable calibrateImuGyro : Bool) : UInt8 :=
  (if enable then kCommandFlagEnable else 0) |||
  (if calibrateImuGyro then kCommandFlagImuGyroCalibrate else 0)

/-- The 32 bytes of a command that its CRC covers. -/
def commandBody (bootId sessionId sequence : UInt32) (enable : Bool)
    (offsetsUs : Vector Int16 kThrusterChannels) (calibrateImuGyro : Bool) : List UInt8 :=
  [kFrameHead, kCommandV2Type, kProtocolV2, commandFlags enable calibrateImuGyro] ++
  writeU32 bootId ++ writeU32 sessionId ++ writeU32 sequence ++
  offsetsUs.toList.flatMap fun offset => writeU16 offset.toUInt16

def buildCommandV2 (bootId sessionId sequence : UInt32) (enable : Bool)
    (offsetsUs : Vector Int16 kThrusterChannels) (calibrateImuGyro : Bool) : List UInt8 :=
  let body := commandBody bootId sessionId sequence enable offsetsUs calibrateImuGyro
  body ++ writeU16 (crc16Ccitt body)

def parseCommandV2 (data : List UInt8) : Option CommandFrame :=
  if data.length != kCommandV2FrameSize || data.getD 0 0 != kFrameHead ||
    data.getD 1 0 != kCommandV2Type || data.getD 2 0 != kProtocolV2 ||
    data.getD 3 0 &&& ~~~(kCommandFlagEnable ||| kCommandFlagImuGyroCalibrate) != 0 ||
    data.getD 3 0 &&& (kCommandFlagEnable ||| kCommandFlagImuGyroCalibrate) ==
      (kCommandFlagEnable ||| kCommandFlagImuGyroCalibrate) ||
    !crcMatches data
  then none
  else some {
    flags := data.getD 3 0
    bootId := readU32 data 4
    sessionId := readU32 data 8
    sequence := readU32 data 12
    offsetsUs := Vector.ofFn fun i => readI16 data (16 + 2 * i) }

/-! ### Board status -/

def parseBoardStatusV2 (data : List UInt8) : Option BoardStatusFrame :=
  if data.length != kStatusV2FrameSize || data.getD 0 0 != kFrameHead ||
    data.getD 1 0 != kStatusV2Type || data.getD 2 0 != kProtocolV2 ||
    data.getD 3 0 &&& ~~~kStatusFlagMask != 0 || !crcMatches data
  then none
  else some {
    protocolVersion := data.getD 2 0
    flags := data.getD 3 0
    boardTickMs := readU32 data 4
    bootId := readU32 data 8
    sessionId := readU32 data 12
    receivedSequence := readU32 data 16
    appliedSequence := readU32 data 20
    commandAgeMs := readU16 data 24
    safetyReason := data.getD 26 0
    resetCause := data.getD 27 0
    rxCrcErrors := readU16 data 28
    pwmUs := Vector.ofFn fun i => readU16 data (30 + 2 * i) }

/-- The PWM a channel reports once `command` is applied: neutral unless it enables the outputs. -/
def expectedPwmUs (command : CommandFrame) (i : Fin kThrusterChannels) : UInt16 :=
  if hasFlag command.flags kCommandFlagEnable then
    UInt16.ofInt (1500 + (command.offsetsUs.get i).toInt)
  else 1500

def boardStatusMatchesAppliedCommand (status : BoardStatusFrame) (command : CommandFrame) : Bool :=
  if status.bootId != command.bootId || status.sessionId != command.sessionId ||
    status.appliedSequence != command.sequence then false
  else if hasFlag status.flags kStatusFlagOutputsEnabled !=
    hasFlag command.flags kCommandFlagEnable then false
  else decide (∀ i : Fin kThrusterChannels, status.pwmUs.get i = expectedPwmUs command i)

def boardStatusReasonFlagsConsistent (status : BoardStatusFrame) : Bool :=
  if status.safetyReason > kMaximumSafetyReason then false
  else
    let sessionEstablished := hasFlag status.flags kStatusFlagSessionEstablished
    let failsafe := hasFlag status.flags kStatusFlagFailsafe
    let nominalReason :=
      status.safetyReason == kSafetyReasonOk || status.safetyReason == kSafetyReasonDisabled
    let calibrationStateCount :=
      (hasFlag status.flags kStatusFlagImuCalibrating).toNat +
      (hasFlag status.flags kStatusFlagImuCalibrationOk).toNat +
      (hasFlag status.flags kStatusFlagImuCalibrationFail).toNat
    if calibrationStateCount > 1 then false
    else if nominalReason then sessionEstablished && !failsafe
    else !sessionEstablished && failsafe

/-! ### IMU and runtime -/

/-- `3.14159265358979323846 / 180.0` -/
def kDegToRad : Binary64 :=
  (Number.ofRat binary64 (314159265358979323846 / 10 ^ 20)).divConst 180

def kGravity : Binary64 := Number.ofRat binary64 (980665 / 10 ^ 5)

/-- `static_cast<double>(read_i16(p)) * scale * unit` -/
def scaledWord (data : List UInt8) (i : ℕ) (scale unit : Binary64) : Binary64 :=
  Number.ofRat binary64 (readI16 data i).toInt * scale * unit

def parseImuV2 (data : List UInt8) : Option ImuFrame :=
  if data.length != kImuV2FrameSize || data.getD 0 0 != kFrameHead ||
    data.getD 1 0 != kTelemetryType || data.getD 2 0 != kImuFrameNumber || data.getD 3 0 != 0x02 ||
    data.getD 4 0 &&& ~~~(kImuFlagValid ||| kImuFlagAttitudeValid) != 0
  then none
  else if !crcMatches data then none
  else
    let flags := data.getD 4 0
    let result : ImuFrame := {
      version := data.getD 3 0
      flags := flags
      sampleCounter := readU32 data 5
      sampleTickMs := readU32 data 9
      gyroRadS := Vector.ofFn fun i =>
        scaledWord data (13 + 2 * i) (Number.ofRat binary64 (1 / 100)) kDegToRad
      accelMS2 := Vector.ofFn fun i =>
        scaledWord data (19 + 2 * i) (Number.ofRat binary64 (1 / 1000)) kGravity
      attitudeRpyRad := Vector.ofFn fun i =>
        scaledWord data (25 + 2 * i) (Number.ofRat binary64 (1 / 100)) kDegToRad
      attitudeValid := hasFlag flags kImuFlagAttitudeValid }
    if hasFlag flags kImuFlagValid then some result else none

def parseRuntimeV1 (data : List UInt8) : Option RuntimeFrame :=
  if data.length != kRuntimeV1FrameSize || data.getD 0 0 != kFrameHead ||
    data.getD 1 0 != kTelemetryType || data.getD 2 0 != kRuntimeFrameNumber ||
    data.getD 3 0 != 0x01 || data.getD 4 0 &&& 0x01 == 0 || !crcMatches data
  then none
  else some {
    boardTickMs := readU32 data 5
    cpuIdlePermille := readU16 data 9
    controlWcetUs := readU16 data 11
    uartWcetUs := readU16 data 13
    controlDeadlineMisses := readU32 data 15
    uartDeadlineMisses := readU32 data 19
    controlMinStackWords := readU16 data 23
    uartMinStackWords := readU16 data 25
    stackOverflowCount := readU16 data 27
    watchdogMissedWindows := readU16 data 29
    uartRxDmaErrors := readU16 data 31
    uartTxDrops := readU16 data 33 }

end RobotCore
