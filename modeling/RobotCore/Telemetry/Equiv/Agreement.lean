import RobotCore.Bridge.Equiv.Rx
import RobotCore.Telemetry.Equiv.Probe

/-!
# The telemetry probe and the bridge agree

The probe reads the same protocol with a parser of its own, over Python integers.  It accepts the
same status frames with the same fields (`parseStatus_eq`) and, among the IMU frames of version 2
with the valid flag, the ones the bridge accepts with the same words (`parseImu_of_parseImuV2`).  So
whatever the bridge delivers of a stream, the probe reports, unless it has reported another frame
across it (`reported_of_delivered`).
-/

namespace RobotCore.TelemetryProbe

open Ieee

/-! ### Integers -/

theorem fromBytes_take_succ (b : List UInt8) (n : ℕ) :
    fromBytes (b.take (n + 1)) = (b.getD 0 0).toNat + 256 * fromBytes ((b.drop 1).take n) := by
  cases b with
  | nil => simp [fromBytes]
  | cons value rest => rfl

theorem unpack_succ (frame : List UInt8) (i n : ℕ) :
    unpack frame i (n + 1) = (frame.getD i 0).toNat + 256 * unpack frame (i + 1) n := by
  rw [unpack, fromBytes_take_succ, List.drop_drop, unpack]
  simp [List.getD_eq_getElem?_getD, List.getElem?_drop]

theorem unpack_zero (frame : List UInt8) (i : ℕ) : unpack frame i 0 = 0 := by
  rw [unpack, List.take_zero]
  rfl

theorem unpack_two (frame : List UInt8) (i : ℕ) : unpack frame i 2 = (readU16 frame i).toNat := by
  rw [toNat_readU16, unpack_succ, unpack_succ, unpack_zero]
  omega

theorem unpack_four (frame : List UInt8) (i : ℕ) : unpack frame i 4 = (readU32 frame i).toNat := by
  rw [toNat_readU32, unpack_succ, unpack_succ, unpack_succ, unpack_succ, unpack_zero]
  simp only [Nat.add_assoc, Nat.reduceAdd]
  omega

/-- The sixteen bits of a word as a signed number. -/
theorem bmod_toNat (x : UInt16) : (x.toNat : ℤ).bmod (2 ^ 16) = x.toInt16.toInt := by
  have hvalue := BitVec.toInt_eq_toNat_bmod x.toBitVec
  exact hvalue.symm

theorem unpackI16_eq (frame : List UInt8) (i : ℕ) :
    unpackI16 frame i = (readI16 frame i).toInt := by
  have hvalue := bmod_toNat (readU16 frame i)
  rw [← unpack_two] at hvalue
  rw [readI16, ← hvalue]
  rfl

/-! ### CRC -/

theorem crcShift_toNat (crc : UInt16) : crcShift crc.toNat = (crcBit crc).toNat := by
  have hshift : (crc <<< 1).toNat = (crc.toNat <<< 1) &&& 0xFFFF := by
    rw [Nat.and_two_pow_sub_one_eq_mod _ 16]
    simp [UInt16.toNat_shiftLeft]
  have hbit : crc.toNat &&& 0x8000 = (crc &&& 0x8000).toNat := by
    rw [UInt16.toNat_and]
    rfl
  unfold crcShift crcBit
  rw [hbit]
  by_cases hzero : crc &&& 0x8000 = 0
  · rw [hzero, if_neg (by decide), if_neg (by decide), hshift]
  · have hne : (crc &&& 0x8000).toNat ≠ 0 := fun h => hzero (UInt16.toNat_inj.mp h)
    rw [if_pos hne, if_pos (bne_iff_ne.mpr hzero), UInt16.toNat_xor, hshift,
      Nat.and_two_pow_sub_one_eq_mod _ 16, Nat.and_two_pow_sub_one_eq_mod _ 16, Nat.xor_mod_two_pow]
    rfl

theorem iterate_crcShift (n : ℕ) (crc : UInt16) :
    Nat.iterate crcShift n crc.toNat = (Nat.iterate crcBit n crc).toNat := by
  induction n generalizing crc with
  | zero => rfl
  | succ n ih => rw [Function.iterate_succ_apply, Function.iterate_succ_apply, crcShift_toNat, ih]

/-- The two loops compute one CRC. -/
theorem crc16Ccitt_eq (data : List UInt8) :
    crc16Ccitt data = (RobotCore.crc16Ccitt data).toNat := by
  have hstep : ∀ (crc : UInt16) (value : UInt8),
      Nat.iterate crcShift 8 (crc.toNat ^^^ value.toNat <<< 8) = (crcByte crc value).toNat := by
    intro crc value
    rw [crcByte, ← iterate_crcShift, UInt16.toNat_xor, UInt16.toNat_shiftLeft,
      UInt8.toNat_toUInt16]
    have := value.toNat_lt
    rw [Nat.mod_eq_of_lt (b := 2 ^ 16)]
    · rfl
    · rw [Nat.shiftLeft_eq]
      change value.toNat * 2 ^ 8 < 2 ^ 16
      omega
  have hfold : ∀ crc : UInt16,
      data.foldl (fun crc value => Nat.iterate crcShift 8 (crc ^^^ value.toNat <<< 8)) crc.toNat =
        (data.foldl crcByte crc).toNat := by
    intro crc
    induction data generalizing crc with
    | nil => rfl
    | cons value data ih => rw [List.foldl_cons, List.foldl_cons, hstep, ih]
  exact hfold 0xFFFF

theorem requireCrc_eq {frame : List UInt8} (hlen : 2 ≤ frame.length) :
    requireCrc frame = if crcMatches frame then .ok () else .error "CRC16 mismatch" := by
  have hstored : fromBytes (frame.drop (frame.length - 2)) =
      (readU16 frame (frame.length - 2)).toNat := by
    rw [← unpack_two, unpack, List.take_of_length_le (by rw [List.length_drop]; omega)]
  rw [requireCrc, hstored, crc16Ccitt_eq, crcMatches]
  by_cases heq : readU16 frame (frame.length - 2) =
      RobotCore.crc16Ccitt (frame.take (frame.length - 2))
  · rw [heq, if_neg (by simp), if_pos (beq_self_eq_true _)]
  · rw [if_pos fun h => heq (UInt16.toNat_inj.mp h), if_neg (by simpa using heq)]

/-! ### Status frames -/

/-- The fields of a status frame as the probe prints them. -/
def asStatus (frame : BoardStatusFrame) : Status where
  flags := frame.flags.toNat
  tickMs := frame.boardTickMs.toNat
  bootId := frame.bootId.toNat
  sessionId := frame.sessionId.toNat
  receivedSequence := frame.receivedSequence.toNat
  appliedSequence := frame.appliedSequence.toNat
  commandAgeMs := frame.commandAgeMs.toNat
  safetyReason := frame.safetyReason.toNat
  resetCause := frame.resetCause.toNat
  rxCrcErrors := frame.rxCrcErrors.toNat
  pwmUs := frame.pwmUs.toList.map (·.toNat)

theorem take_two_eq_iff (frame : List UInt8) (hlen : 2 ≤ frame.length) (a b : UInt8) :
    frame.take 2 = [a, b] ↔ frame.getD 0 0 = a ∧ frame.getD 1 0 = b := by
  match frame, hlen with
  | x :: y :: rest, _ => simp

theorem take_three_eq_iff {frame : List UInt8} (hlen : 3 ≤ frame.length) (a b c : UInt8) :
    frame.take 3 = [a, b, c] ↔
      frame.getD 0 0 = a ∧ frame.getD 1 0 = b ∧ frame.getD 2 0 = c := by
  match frame, hlen with
  | x :: y :: z :: rest, _ => simp

/-- **Status frames.**  The probe accepts the status frames that the bridge accepts, with the same
fields. -/
theorem parseStatus_eq (frame : List UInt8) :
    (parseStatus frame).toOption = (parseBoardStatusV2 frame).map asStatus := by
  unfold parseStatus parseBoardStatusV2
  by_cases hlen : frame.length = statusLen
  swap
  · rw [if_pos (Or.inl hlen), if_pos (by simp [show frame.length ≠ kStatusV2FrameSize from hlen])]
    rfl
  have hheader := take_two_eq_iff frame (by rw [hlen]; decide) 0xFF 0xFD
  by_cases hchecks : frame.take 2 = statusHeader ∧ frame.getD 2 0 = protocolV2
  swap
  · have hbridge : ¬ (frame.getD 0 0 = kFrameHead ∧ frame.getD 1 0 = kStatusV2Type ∧
        frame.getD 2 0 = kProtocolV2) := fun h => hchecks ⟨hheader.mpr ⟨h.1, h.2.1⟩, h.2.2⟩
    rw [if_pos (by tauto), if_pos (by simp; tauto)]
    rfl
  obtain ⟨h0, h1⟩ := hheader.mp hchecks.1
  have h2 : frame.getD 2 0 = kProtocolV2 := hchecks.2
  rw [if_neg (by tauto), h0, h1, h2,
    show (frame.length != kStatusV2FrameSize) = false by simp [hlen],
    show ((0xFF : UInt8) != kFrameHead) = false from rfl,
    show ((0xFD : UInt8) != kStatusV2Type) = false from rfl,
    show (kProtocolV2 != kProtocolV2) = false from rfl,
    show kStatusFlagMask = knownStatusFlags from rfl]
  simp only [Bool.false_or]
  by_cases hflags : frame.getD 3 0 &&& ~~~knownStatusFlags = 0
  swap
  · rw [if_pos hflags, if_pos (Bool.or_eq_true_iff.mpr (Or.inl (bne_iff_ne.mpr hflags)))]
    rfl
  rw [if_neg (not_not.mpr hflags), hflags, requireCrc_eq (by rw [hlen]; decide),
    show ((0 : UInt8) != 0) = false from rfl, Bool.false_or]
  cases hcrc : crcMatches frame with
  | false => rfl
  | true =>
    rw [if_pos rfl, Bool.not_true, if_neg Bool.false_ne_true, Option.map_some]
    simp only [unpack_two, unpack_four]
    rfl

/-! ### IMU frames -/

/-- The bridge has scaled the word of an axis. -/
def Scaled (values : Vector Binary64 3) (words : List ℤ) (scale unit : Binary64) : Prop :=
  words.length = 3 ∧
    ∀ i : Fin 3, values.get i = Number.ofRat binary64 (words.getD i 0) * scale * unit

/-- The fields of an IMU frame of version 2, which the bridge scales and the probe does not. -/
structure AgreesImu (frame : ImuFrame) (imu : Imu) : Prop where
  version : imu.version = 2
  valid : imu.valid = true
  attitudeValid : imu.attitudeValid = frame.attitudeValid
  sampleId : imu.sampleId = frame.sampleCounter.toNat
  tickMs : imu.tickMs = frame.sampleTickMs.toNat
  gyro : Scaled frame.gyroRadS imu.gyroCdegS (Number.ofRat binary64 (1 / 100)) kDegToRad
  accel : Scaled frame.accelMS2 imu.accelMg (Number.ofRat binary64 (1 / 1000)) kGravity
  attitude : ∃ words, imu.attitudeRpyCdeg = some words ∧
    Scaled frame.attitudeRpyRad words (Number.ofRat binary64 (1 / 100)) kDegToRad

theorem scaled_words (frame : List UInt8) (i : ℕ) (scale unit : Binary64) :
    Scaled (Vector.ofFn fun k => scaledWord frame (i + 2 * k) scale unit)
      ((List.range 3).map fun k => unpackI16 frame (i + 2 * k)) scale unit := by
  refine ⟨by simp, fun k => ?_⟩
  have hword : ((List.range 3).map fun k => unpackI16 frame (i + 2 * k)).getD k 0 =
      (readI16 frame (i + 2 * k)).toInt := by
    rw [← unpackI16_eq, List.getD_eq_getElem?_getD, List.getElem?_map, List.getElem?_range k.2,
      Option.map_some, Option.getD_some]
  rw [hword]
  exact Vector.getElem_ofFn k.2

/-- What both parsers check of an IMU frame of version 2. -/
structure Checked (frame : List UInt8) : Prop where
  length : frame.length = kImuV2FrameSize
  header : frame.getD 0 0 = kFrameHead ∧ frame.getD 1 0 = kTelemetryType ∧
    frame.getD 2 0 = kImuFrameNumber
  version : frame.getD 3 0 = 0x02
  flags : frame.getD 4 0 &&& ~~~(kImuFlagValid ||| kImuFlagAttitudeValid) = 0
  crc : crcMatches frame = true

theorem parseImuV2_eq_some_iff {frame : List UInt8} {result : ImuFrame} :
    parseImuV2 frame = some result ↔
      Checked frame ∧ hasFlag (frame.getD 4 0) kImuFlagValid = true ∧
        result = {
          version := frame.getD 3 0
          flags := frame.getD 4 0
          sampleCounter := readU32 frame 5
          sampleTickMs := readU32 frame 9
          gyroRadS := Vector.ofFn fun i =>
            scaledWord frame (13 + 2 * i) (Number.ofRat binary64 (1 / 100)) kDegToRad
          accelMS2 := Vector.ofFn fun i =>
            scaledWord frame (19 + 2 * i) (Number.ofRat binary64 (1 / 1000)) kGravity
          attitudeRpyRad := Vector.ofFn fun i =>
            scaledWord frame (25 + 2 * i) (Number.ofRat binary64 (1 / 100)) kDegToRad
          attitudeValid := hasFlag (frame.getD 4 0) kImuFlagAttitudeValid } := by
  unfold parseImuV2
  dsimp only
  constructor
  · intro h
    split_ifs at h with hchecks hcrc hvalid
    simp only [Bool.or_eq_true, bne_iff_ne, not_or, not_not] at hchecks
    obtain ⟨⟨⟨⟨⟨hlen, h0⟩, h1⟩, h2⟩, h3⟩, h4⟩ := hchecks
    exact ⟨⟨hlen, ⟨h0, h1, h2⟩, h3, h4, by simpa using hcrc⟩, hvalid, (Option.some.inj h).symm⟩
  · rintro ⟨hchecked, hvalid, rfl⟩
    obtain ⟨h0, h1, h2⟩ := hchecked.header
    rw [if_neg, if_neg (by simp [hchecked.crc]), if_pos hvalid]
    simp only [Bool.or_eq_true, bne_iff_ne, not_or, not_not]
    exact ⟨⟨⟨⟨⟨hchecked.length, h0⟩, h1⟩, h2⟩, hchecked.version⟩, hchecked.flags⟩

theorem parseImu_eq_ok_iff {frame : List UInt8} {imu : Imu} :
    parseImu frame = .ok imu ∧ imu.version = 2 ↔
      Checked frame ∧ imu = {
        version := 2
        valid := hasFlag (frame.getD 4 0) kImuFlagValid
        attitudeValid := hasFlag (frame.getD 4 0) kImuFlagAttitudeValid
        sampleId := (readU32 frame 5).toNat
        tickMs := (readU32 frame 9).toNat
        gyroCdegS := (List.range 3).map fun k => unpackI16 frame (13 + 2 * k)
        accelMg := (List.range 3).map fun k => unpackI16 frame (19 + 2 * k)
        attitudeRpyCdeg := some ((List.range 3).map fun k => unpackI16 frame (25 + 2 * k)) } := by
  have hcrc : 2 ≤ frame.length → requireCrc frame = _ := requireCrc_eq
  unfold parseImu
  constructor
  · rintro ⟨h, hversion⟩
    split_ifs at h with hheader hlength hflags
    rw [not_or, not_not, not_lt] at hheader
    rw [not_not] at hlength hflags
    obtain ⟨h0, h1, h2⟩ := (take_three_eq_iff (by omega) 0xFF 0xF8 0x04).mp hheader.2
    rw [hcrc (by omega)] at h
    cases hmatches : crcMatches frame with
    | false =>
      rw [hmatches] at h
      cases h
    | true =>
      rw [hmatches] at h
      obtain rfl := (Except.ok.inj h).symm
      have h3 : frame.getD 3 0 = 2 := UInt8.toNat_inj.mp hversion
      rw [h3] at hlength
      refine ⟨⟨Option.some.inj hlength, ⟨h0, h1, h2⟩, h3, hflags, hmatches⟩, ?_⟩
      rw [h3, unpack_four, unpack_four]
      rfl
  · rintro ⟨hchecked, rfl⟩
    have hlen := hchecked.length
    have hheader : frame.take 3 = imuHeader :=
      (take_three_eq_iff (by rw [hlen]; decide) _ _ _).mpr hchecked.header
    have hlength : some kImuV2FrameSize = imuLengthByVersion 2 := rfl
    have hflags : frame.getD 4 0 &&& ~~~0x03 = 0 := hchecked.flags
    refine ⟨?_, rfl⟩
    rw [if_neg (not_or.mpr ⟨by rw [hlen]; decide, not_not.mpr hheader⟩), hchecked.version, hlen,
      if_neg (not_not.mpr hlength), if_neg (not_not.mpr hflags), hcrc (by rw [hlen]; decide),
      if_pos hchecked.crc, unpack_four, unpack_four]
    rfl

theorem parseImu_of_parseImuV2 {frame : List UInt8} {result : ImuFrame}
    (h : parseImuV2 frame = some result) :
    ∃ imu, parseImu frame = .ok imu ∧ AgreesImu result imu := by
  obtain ⟨hchecked, hvalid, rfl⟩ := parseImuV2_eq_some_iff.mp h
  obtain ⟨himu, -⟩ := parseImu_eq_ok_iff.mpr ⟨hchecked, rfl⟩
  exact ⟨_, himu,
    { version := rfl
      valid := hvalid
      attitudeValid := rfl
      sampleId := rfl
      tickMs := rfl
      gyro := scaled_words frame 13 _ _
      accel := scaled_words frame 19 _ _
      attitude := ⟨_, rfl, scaled_words frame 25 _ _⟩ }⟩

/-! ### Streams -/

/-- A frame of the bridge and one of the probe are the same frame. -/
def Agrees : RxCall → Parsed → Prop
  | .boardStatus frame, .status status => status = asStatus frame
  | .imu frame, .imu imu => AgreesImu frame imu
  | _, _ => False

/-- The probe knows no runtime frames. -/
def isRuntime : RxCall → Bool
  | .runtime _ => true
  | _ => false

theorem parse_of_frameEvent {frame : List UInt8} {call : RxCall}
    (h : frameEvent frame = .frame call) (hruntime : isRuntime call = false) :
    ∃ (kind : Kind) (parsed : Parsed), kind.parse frame = .ok parsed ∧ Agrees call parsed := by
  unfold frameEvent at h
  split_ifs at h
  · cases hstatus : parseBoardStatusV2 frame with
    | none =>
      rw [hstatus] at h
      cases h
    | some boardStatus =>
      rw [hstatus] at h
      obtain rfl := RxEvent.frame.inj h
      have hoption := parseStatus_eq frame
      rw [hstatus] at hoption
      cases hparse : parseStatus frame with
      | error e =>
        rw [hparse] at hoption
        cases hoption
      | ok status =>
        rw [hparse] at hoption
        exact ⟨.status, .status status, by rw [Kind.parse, hparse]; rfl, Option.some.inj hoption⟩
  · cases hparse : parseRuntimeV1 frame with
    | none =>
      rw [hparse] at h
      cases h
    | some runtime =>
      rw [hparse] at h
      obtain rfl := RxEvent.frame.inj h
      cases hruntime
  · cases hparse : parseImuV2 frame with
    | none =>
      rw [hparse] at h
      cases h
    | some sample =>
      rw [hparse] at h
      obtain rfl := RxEvent.frame.inj h
      obtain ⟨imu, himu, hagrees⟩ := parseImu_of_parseImuV2 hparse
      exact ⟨.imu, .imu imu, by rw [Kind.parse, himu]; rfl, hagrees⟩

/-- What the bridge delivers is intact for the probe. -/
theorem intactFrame_of_delivered {bytes : List UInt8} {xs : List (Scanner.Piece RxEvent)} {p : ℕ}
    (hcuts : rxScanner.Cuts bytes xs p) {d : Delivery}
    (hd : ⟨d.offset, d.length, .frame d.call⟩ ∈ xs) (hruntime : isRuntime d.call = false) :
    ∃ parsed, IntactFrame bytes ⟨d.offset, d.length, parsed⟩ ∧ Agrees d.call parsed := by
  have hnext : rxNext (bytes.drop d.offset) = some (d.length, .frame d.call) :=
    hcuts.next_of_mem hd
  obtain ⟨-, length, -, hlen, hevent, hn⟩ := rxNext_eq_frame hnext nofun nofun
  obtain rfl : d.length = length := by simpa [RxEvent.accepted] using hn
  obtain ⟨kind, parsed, hparse, hagrees⟩ := parse_of_frameEvent hevent.symm hruntime
  have hpos := (rxNext_length hnext).1
  rw [List.length_drop] at hlen
  exact ⟨parsed, ⟨by dsimp only; omega, kind, hparse⟩, hagrees⟩

/-- **Two readers.**  However the bridge and the probe split a stream into reads, a status or IMU
frame that the bridge delivers is reported by the probe with the same fields, or the probe has
reported another frame across its start, or it starts among the last 48 bytes, which the probe has
not come to. -/
theorem reported_of_delivered (rx : Rx) (limit : ℕ) (chunks chunks' : List (List UInt8))
    (hflatten : chunks'.flatten = chunks.flatten) (hpos : 0 < limit)
    (hsmall : ∀ chunk ∈ chunks', chunk.length + statusLen ≤ 3 * limit) :
    ∃ out probe, readChunks rx.opened chunks = some out ∧ measure limit chunks' = some probe ∧
      ∀ d ∈ out.log.delivered, isRuntime d.call = false →
        (∃ r ∈ probe.log.reported, r.offset = d.offset ∧ r.length = d.length ∧
          Agrees d.call r.frame) ∨
        (∃ r ∈ probe.log.reported, r.offset < d.offset ∧ d.offset < r.offset + r.length) ∨
        chunks.flatten.length ≤ d.offset + statusLen := by
  obtain ⟨out, hout, hsettled, xs, hcuts, hbuffer, hlog⟩ :=
    readChunks_spec chunks (parses_opened rx) (settled_opened rx)
  obtain ⟨probe, hprobe, hreports, -⟩ := measure_reports limit chunks' hpos hsmall
  rw [List.nil_append] at hcuts
  rw [hflatten] at hreports
  refine ⟨out, probe, hout, hprobe, fun d hd hruntime => ?_⟩
  rw [hlog] at hd
  obtain ⟨parsed, hintact, hagrees⟩ :=
    intactFrame_of_delivered hcuts ((mem_delivered rfl).mp hd) hruntime
  rcases hreports.complete _ hintact with hreported | hcovered | hrest
  · exact Or.inl ⟨_, hreported, rfl, rfl, hagrees⟩
  · exact Or.inr (Or.inl hcovered)
  · refine Or.inr (Or.inr ?_)
    have hshort := hreports.short
    rw [hreports.rest, List.length_drop] at hshort
    dsimp only at hrest
    omega

theorem reported_of_delivered_idleStatus :
    ∃ out probe, readChunks ({} : Rx).opened [idleStatus] = some out ∧
      measure 1000 [idleStatus.take 5, idleStatus.drop 5] = some probe ∧
      ∃ d ∈ out.log.delivered,
        (∃ r ∈ probe.log.reported, r.offset = d.offset ∧ r.length = d.length ∧
          Agrees d.call r.frame) ∨
        (∃ r ∈ probe.log.reported, r.offset < d.offset ∧ d.offset < r.offset + r.length) ∨
        [idleStatus].flatten.length ≤ d.offset + statusLen := by
  obtain ⟨out, probe, hout, hprobe, hdelivered⟩ :=
    reported_of_delivered {} 1000 [idleStatus] [idleStatus.take 5, idleStatus.drop 5] (by simp)
      (by decide) (by decide)
  have hone : (readChunks ({} : Rx).opened [idleStatus]).map
      (·.log.delivered.map fun d => isRuntime d.call) = some [false] := by decide +kernel
  rw [hout] at hone
  obtain ⟨d, hd, hruntime⟩ := List.map_eq_singleton_iff.mp (Option.some.inj hone)
  have hmem : d ∈ out.log.delivered := by rw [hd]; exact List.mem_singleton_self d
  exact ⟨out, probe, hout, hprobe, d, hmem, hdelivered d hmem hruntime⟩

end RobotCore.TelemetryProbe
