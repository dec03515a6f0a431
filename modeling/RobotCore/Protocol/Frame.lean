import RobotCore.Lib.Ieee.Number

/-!
# The frames of the Aquaboard UART protocol

Constants and decoded frames of `aboard_protocol.hpp`: the command the host sends and the status,
IMU and runtime frames the board sends.
-/

namespace RobotCore

open Ieee

def kFrameHead : UInt8 := 0xFF
def kCommandV2Type : UInt8 := 0xFC
def kStatusV2Type : UInt8 := 0xFD
def kProtocolV2 : UInt8 := 0x02
def kCommandFlagEnable : UInt8 := 0x01
def kCommandFlagImuGyroCalibrate : UInt8 := 0x02
def kStatusFlagSessionEstablished : UInt8 := 0x01
def kStatusFlagOutputsEnabled : UInt8 := 0x02
def kStatusFlagFailsafe : UInt8 := 0x04
def kStatusFlagImuCalibrating : UInt8 := 0x08
def kStatusFlagImuCalibrationOk : UInt8 := 0x10
def kStatusFlagImuCalibrationFail : UInt8 := 0x20
def kStatusFlagMask : UInt8 :=
  kStatusFlagSessionEstablished ||| kStatusFlagOutputsEnabled |||
  kStatusFlagFailsafe ||| kStatusFlagImuCalibrating |||
  kStatusFlagImuCalibrationOk ||| kStatusFlagImuCalibrationFail
def kSafetyReasonOk : UInt8 := 0
def kSafetyReasonDisabled : UInt8 := 3
def kMaximumSafetyReason : UInt8 := 6

abbrev kThrusterChannels : ℕ := 8
abbrev kCommandV2FrameSize : ℕ := 34
abbrev kStatusV2FrameSize : ℕ := 48
abbrev kImuV2FrameSize : ℕ := 33
def kImuFrameNumber : UInt8 := 0x04
def kImuFlagValid : UInt8 := 0x01
def kImuFlagAttitudeValid : UInt8 := 0x02
def kRuntimeFrameNumber : UInt8 := 0x05
abbrev kRuntimeV1FrameSize : ℕ := 37

/-- The type byte the IMU and runtime frames share. -/
def kTelemetryType : UInt8 := 0xF8

/-- `(flags & flag) != 0U` -/
def hasFlag (flags flag : UInt8) : Bool := flags &&& flag != 0

structure CommandFrame where
  flags : UInt8 := 0
  bootId : UInt32 := 0
  sessionId : UInt32 := 0
  sequence : UInt32 := 0
  offsetsUs : Vector Int16 kThrusterChannels := Vector.replicate _ 0
  deriving DecidableEq, Repr

structure BoardStatusFrame where
  protocolVersion : UInt8 := 0
  flags : UInt8 := 0
  boardTickMs : UInt32 := 0
  bootId : UInt32 := 0
  sessionId : UInt32 := 0
  receivedSequence : UInt32 := 0
  appliedSequence : UInt32 := 0
  commandAgeMs : UInt16 := 0
  safetyReason : UInt8 := 0
  resetCause : UInt8 := 0
  rxCrcErrors : UInt16 := 0
  pwmUs : Vector UInt16 kThrusterChannels := Vector.replicate _ 0
  deriving DecidableEq, Repr

structure ImuFrame where
  version : UInt8 := 0
  flags : UInt8 := 0
  sampleCounter : UInt32 := 0
  sampleTickMs : UInt32 := 0
  gyroRadS : Vector Binary64 3 := Vector.replicate _ 0
  accelMS2 : Vector Binary64 3 := Vector.replicate _ 0
  attitudeRpyRad : Vector Binary64 3 := Vector.replicate _ 0
  attitudeValid : Bool := false

structure RuntimeFrame where
  boardTickMs : UInt32 := 0
  cpuIdlePermille : UInt16 := 0
  controlWcetUs : UInt16 := 0
  uartWcetUs : UInt16 := 0
  controlDeadlineMisses : UInt32 := 0
  uartDeadlineMisses : UInt32 := 0
  controlMinStackWords : UInt16 := 0
  uartMinStackWords : UInt16 := 0
  stackOverflowCount : UInt16 := 0
  watchdogMissedWindows : UInt16 := 0
  uartRxDmaErrors : UInt16 := 0
  uartTxDrops : UInt16 := 0
  deriving DecidableEq, Repr

end RobotCore
