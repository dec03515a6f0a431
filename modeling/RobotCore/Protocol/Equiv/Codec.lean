import RobotCore.Protocol.Codec
import Mathlib.Tactic.NormNum

/-!
# Correctness of the command codec

`parseCommandV2_buildCommandV2`: a command without both flags set is decoded to exactly the values
it was built from.  Fields are handled through their values: a little-endian read is the base-256
number of its bytes (`toNat_readU16`, `toNat_readU32`), and reading where a value was written gives
the value back.
-/

namespace RobotCore

/-! ### Little-endian fields -/

theorem or_shiftLeft_eq_add {a b k : ℕ} (ha : a < 2 ^ k) : a ||| b <<< k = a + 2 ^ k * b := by
  rw [Nat.or_comm, ← Nat.shiftLeft_add_eq_or_of_lt ha, Nat.shiftLeft_eq, Nat.mul_comm, Nat.add_comm]

theorem toNat_readU16 (data : List UInt8) (i : ℕ) :
    (readU16 data i).toNat = (data.getD i 0).toNat + 2 ^ 8 * (data.getD (i + 1) 0).toNat := by
  have h0 := (data.getD i 0).toNat_lt
  have h1 := (data.getD (i + 1) 0).toNat_lt
  unfold readU16
  simp only [UInt16.toNat_or, UInt16.toNat_shiftLeft, UInt8.toNat_toUInt16, UInt16.toNat_ofNat]
  norm_num only
  rw [Nat.mod_eq_of_lt (by rw [Nat.shiftLeft_eq]; omega), or_shiftLeft_eq_add h0]
  omega

theorem toNat_readU32 (data : List UInt8) (i : ℕ) :
    (readU32 data i).toNat = (data.getD i 0).toNat + 2 ^ 8 * (data.getD (i + 1) 0).toNat +
      2 ^ 16 * (data.getD (i + 2) 0).toNat + 2 ^ 24 * (data.getD (i + 3) 0).toNat := by
  have h0 := (data.getD i 0).toNat_lt
  have h1 := (data.getD (i + 1) 0).toNat_lt
  have h2 := (data.getD (i + 2) 0).toNat_lt
  have h3 := (data.getD (i + 3) 0).toNat_lt
  unfold readU32
  simp only [UInt32.toNat_or, UInt32.toNat_shiftLeft, UInt8.toNat_toUInt32, UInt32.toNat_ofNat]
  norm_num only
  rw [Nat.mod_eq_of_lt (by rw [Nat.shiftLeft_eq]; omega),
    Nat.mod_eq_of_lt (by rw [Nat.shiftLeft_eq]; omega),
    Nat.mod_eq_of_lt (by rw [Nat.shiftLeft_eq]; omega), or_shiftLeft_eq_add h0,
    or_shiftLeft_eq_add (k := 16) (by omega), or_shiftLeft_eq_add (k := 24) (by omega)]
  omega

theorem readU16_add (data : List UInt8) (i j : ℕ) :
    readU16 data (i + j) = readU16 (data.drop i) j := by
  simp [readU16, List.getD_eq_getElem?_getD, List.getElem?_drop, Nat.add_assoc]

theorem readU32_add (data : List UInt8) (i j : ℕ) :
    readU32 data (i + j) = readU32 (data.drop i) j := by
  simp [readU32, List.getD_eq_getElem?_getD, List.getElem?_drop, Nat.add_assoc]

private theorem and_low_byte (n : ℕ) : n &&& 255 = n % 256 :=
  Nat.and_two_pow_sub_one_eq_mod n 8

theorem readU16_writeU16 (value : UInt16) (rest : List UInt8) :
    readU16 (writeU16 value ++ rest) 0 = value := by
  have := value.toNat_lt
  apply UInt16.toNat_inj.mp
  rw [toNat_readU16]
  simp [writeU16, and_low_byte, Nat.shiftRight_eq_div_pow]
  omega

theorem readU32_writeU32 (value : UInt32) (rest : List UInt8) :
    readU32 (writeU32 value ++ rest) 0 = value := by
  have := value.toNat_lt
  apply UInt32.toNat_inj.mp
  rw [toNat_readU32]
  simp [writeU32, and_low_byte, Nat.shiftRight_eq_div_pow]
  omega

theorem readI16_writeU16 (value : Int16) (rest : List UInt8) :
    readI16 (writeU16 value.toUInt16 ++ rest) 0 = value := by
  rw [readI16, readU16_writeU16]
  simp

/-- The words of a list, written one after the other, are read back at their places. -/
theorem readI16_flatMap (values : List Int16) (rest : List UInt8) (i : ℕ) (hi : i < values.length) :
    readI16 (values.flatMap (fun value => writeU16 value.toUInt16) ++ rest) (2 * i)
      = values[i] := by
  induction values generalizing i with
  | nil => simp at hi
  | cons value values ih =>
    rw [List.flatMap_cons, List.append_assoc]
    cases i with
    | zero => exact readI16_writeU16 _ _
    | succ i =>
      rw [show 2 * (i + 1) = 2 + 2 * i by omega, readI16, readU16_add]
      exact ih i (by simpa using hi)

/-! ### The shape of a built command -/

theorem length_writeU16 (value : UInt16) : (writeU16 value).length = 2 := rfl

theorem length_writeU32 (value : UInt32) : (writeU32 value).length = 4 := rfl

variable (bootId sessionId sequence : UInt32) (enable calibrate : Bool)
  (offsets : Vector Int16 kThrusterChannels)

theorem length_commandBody :
    (commandBody bootId sessionId sequence enable offsets calibrate).length = 32 := by
  simp only [commandBody, List.length_append, List.length_cons, List.length_nil,
    length_writeU16, length_writeU32, List.length_flatMap, List.map_const',
    List.sum_replicate_nat, Vector.length_toList, kThrusterChannels]

theorem length_buildCommandV2 :
    (buildCommandV2 bootId sessionId sequence enable offsets calibrate).length
      = kCommandV2FrameSize := by
  simp [buildCommandV2, length_commandBody, length_writeU16]

/-- The CRC a command carries is the CRC of its body. -/
theorem crcMatches_buildCommandV2 :
    crcMatches (buildCommandV2 bootId sessionId sequence enable offsets calibrate) = true := by
  have hlen := length_commandBody bootId sessionId sequence enable calibrate offsets
  unfold crcMatches
  rw [length_buildCommandV2]
  simp only [buildCommandV2]
  set body := commandBody bootId sessionId sequence enable offsets calibrate
  rw [show kCommandV2FrameSize - 2 = body.length from hlen.symm, ← Nat.add_zero body.length,
    readU16_add, Nat.add_zero, List.drop_left, List.take_left,
    ← List.append_nil (writeU16 _), readU16_writeU16]
  exact beq_self_eq_true _

/-- **Round trip.**  A command without both flags is decoded to the values it was built from. -/
theorem parseCommandV2_buildCommandV2 (h : ¬ (enable = true ∧ calibrate = true)) :
    parseCommandV2 (buildCommandV2 bootId sessionId sequence enable offsets calibrate)
      = some ⟨commandFlags enable calibrate, bootId, sessionId, sequence, offsets⟩ := by
  set data := buildCommandV2 bootId sessionId sequence enable offsets calibrate with hdata
  have hflags : data.getD 3 0 = commandFlags enable calibrate := rfl
  have hboot : readU32 data 4 = bootId := by
    rw [show 4 = 4 + 0 by rfl, readU32_add]
    exact readU32_writeU32 _ _
  have hsession : readU32 data 8 = sessionId := by
    rw [show 8 = 8 + 0 by rfl, readU32_add]
    exact readU32_writeU32 _ _
  have hsequence : readU32 data 12 = sequence := by
    rw [show 12 = 12 + 0 by rfl, readU32_add]
    exact readU32_writeU32 _ _
  have hoffsets : (Vector.ofFn fun i : Fin kThrusterChannels => readI16 data (16 + 2 * i))
      = offsets := by
    ext i hi
    rw [Vector.getElem_ofFn, readI16, readU16_add]
    have := readI16_flatMap offsets.toList (writeU16 (crc16Ccitt
      (commandBody bootId sessionId sequence enable offsets calibrate))) i (by simpa using hi)
    rw [Vector.getElem_toList] at this
    rw [← this]
    rfl
  have hcrc : crcMatches data = true :=
    crcMatches_buildCommandV2 bootId sessionId sequence enable calibrate offsets
  have hlen : data.length = kCommandV2FrameSize :=
    length_buildCommandV2 bootId sessionId sequence enable calibrate offsets
  unfold parseCommandV2
  rw [if_neg, hflags, hboot, hsession, hsequence, hoffsets]
  -- The header checks look at constant bytes, the flag checks at the two flags.
  rw [hlen, hflags, hcrc, show data.getD 0 0 = kFrameHead from rfl,
    show data.getD 1 0 = kCommandV2Type from rfl, show data.getD 2 0 = kProtocolV2 from rfl]
  cases enable <;> cases calibrate <;>
    first | exact absurd ⟨rfl, rfl⟩ h | decide

/-! ### The bytes of an accepted command -/

/-- Writing the word read at `i` gives the two bytes at `i`. -/
theorem writeU16_readU16 (data : List UInt8) (i : ℕ) (hi : i + 2 ≤ data.length) :
    writeU16 (readU16 data i) = (data.drop i).take 2 := by
  rw [← Nat.add_zero i, readU16_add, Nat.add_zero]
  obtain ⟨b₀, b₁, rest, hdata⟩ : ∃ b₀ b₁ rest, data.drop i = b₀ :: b₁ :: rest := by
    match h : data.drop i with
    | [] | [_] => have := congrArg List.length h; simp at this; omega
    | b₀ :: b₁ :: rest => exact ⟨b₀, b₁, rest, rfl⟩
  have h₀ := b₀.toNat_lt
  have h₁ := b₁.toNat_lt
  have hvalue : (readU16 (b₀ :: b₁ :: rest) 0).toNat = b₀.toNat + 2 ^ 8 * b₁.toNat :=
    toNat_readU16 _ _
  rw [hdata]
  refine congrArg₂ (fun x y => [x, y]) (UInt8.toNat_inj.mp ?_) (UInt8.toNat_inj.mp ?_)
  · simp [hvalue, and_low_byte]
  · simp [hvalue, Nat.shiftRight_eq_div_pow]
    omega

theorem writeU32_readU32 (data : List UInt8) (i : ℕ) (hi : i + 4 ≤ data.length) :
    writeU32 (readU32 data i) = (data.drop i).take 4 := by
  rw [← Nat.add_zero i, readU32_add, Nat.add_zero]
  obtain ⟨b₀, b₁, b₂, b₃, rest, hdata⟩ :
      ∃ b₀ b₁ b₂ b₃ rest, data.drop i = b₀ :: b₁ :: b₂ :: b₃ :: rest := by
    match h : data.drop i with
    | [] | [_] | [_, _] | [_, _, _] => have := congrArg List.length h; simp at this; omega
    | b₀ :: b₁ :: b₂ :: b₃ :: rest => exact ⟨b₀, b₁, b₂, b₃, rest, rfl⟩
  have h₀ := b₀.toNat_lt
  have h₁ := b₁.toNat_lt
  have h₂ := b₂.toNat_lt
  have h₃ := b₃.toNat_lt
  have hvalue : (readU32 (b₀ :: b₁ :: b₂ :: b₃ :: rest) 0).toNat
      = b₀.toNat + 2 ^ 8 * b₁.toNat + 2 ^ 16 * b₂.toNat + 2 ^ 24 * b₃.toNat :=
    toNat_readU32 _ _
  rw [hdata]
  refine List.ext_getElem rfl fun n hn _ => UInt8.toNat_inj.mp ?_
  match n, hn with
  | 0, _ | 1, _ | 2, _ | 3, _ =>
    simp [writeU32, hvalue, and_low_byte, Nat.shiftRight_eq_div_pow]
    omega

/-- Words read one after the other are written back as the bytes they were read from. -/
theorem flatMap_readI16 (data : List UInt8) (n : ℕ) (hn : 2 * n ≤ data.length) :
    (List.ofFn fun i : Fin n => readI16 data (2 * i)).flatMap
      (fun value => writeU16 value.toUInt16) = data.take (2 * n) := by
  induction n generalizing data with
  | zero => rfl
  | succ n ih =>
    have hfirst : writeU16 (readI16 data 0).toUInt16 = data.take 2 :=
      writeU16_readU16 data 0 (by omega)
    have hrest : (List.ofFn fun i : Fin n => readI16 data (2 * (i + 1 : ℕ)))
        = List.ofFn fun i : Fin n => readI16 (data.drop 2) (2 * i) := by
      congr 1
      funext i
      rw [Nat.mul_add, Nat.add_comm, readI16, readU16_add]
      rfl
    rw [List.ofFn_succ, List.flatMap_cons, Fin.val_zero, Nat.mul_zero, hfirst]
    simp only [Fin.val_succ]
    rw [hrest, ih (data.drop 2) (by simp; omega), Nat.mul_add, Nat.add_comm (2 * n),
      List.take_add]

/-- The frame `frame` stands for, built again from its decoded fields. -/
def CommandFrame.encode (frame : CommandFrame) : List UInt8 :=
  buildCommandV2 frame.bootId frame.sessionId frame.sequence
    (hasFlag frame.flags kCommandFlagEnable) frame.offsetsUs
    (hasFlag frame.flags kCommandFlagImuGyroCalibrate)

/-- Both flags are read back from the flag byte. -/
theorem hasFlag_commandFlags (enable calibrate : Bool) :
    hasFlag (commandFlags enable calibrate) kCommandFlagEnable = enable ∧
      hasFlag (commandFlags enable calibrate) kCommandFlagImuGyroCalibrate = calibrate := by
  cases enable <;> cases calibrate <;> decide

/-- A flag byte the parser accepts holds at most one of the two flags and nothing else. -/
theorem commandFlags_hasFlag (flags : UInt8) :
    flags &&& ~~~(kCommandFlagEnable ||| kCommandFlagImuGyroCalibrate) = 0 →
    flags &&& (kCommandFlagEnable ||| kCommandFlagImuGyroCalibrate)
      ≠ kCommandFlagEnable ||| kCommandFlagImuGyroCalibrate →
    commandFlags (hasFlag flags kCommandFlagEnable) (hasFlag flags kCommandFlagImuGyroCalibrate)
        = flags ∧
      ¬ (hasFlag flags kCommandFlagEnable = true ∧
        hasFlag flags kCommandFlagImuGyroCalibrate = true) := by
  have hall : ∀ byte : Fin 256, let flags := UInt8.ofFin byte
      flags &&& ~~~(kCommandFlagEnable ||| kCommandFlagImuGyroCalibrate) = 0 →
      flags &&& (kCommandFlagEnable ||| kCommandFlagImuGyroCalibrate)
        ≠ kCommandFlagEnable ||| kCommandFlagImuGyroCalibrate →
      commandFlags (hasFlag flags kCommandFlagEnable) (hasFlag flags kCommandFlagImuGyroCalibrate)
          = flags ∧
        ¬ (hasFlag flags kCommandFlagEnable = true ∧
          hasFlag flags kCommandFlagImuGyroCalibrate = true) := by
    decide +kernel
  exact hall flags.toFin

/-- **An accepted command is the one built from its fields.** -/
theorem encode_of_parseCommandV2 {data : List UInt8} {frame : CommandFrame}
    (h : parseCommandV2 data = some frame) :
    frame.encode = data ∧ ¬ (hasFlag frame.flags kCommandFlagEnable = true ∧
      hasFlag frame.flags kCommandFlagImuGyroCalibrate = true) := by
  unfold parseCommandV2 at h
  split at h
  · cases h
  · rename_i hchecks
    simp only [Bool.or_eq_true, Bool.not_eq_true', bne_iff_ne, beq_iff_eq, not_or, not_not,
      Bool.not_eq_false] at hchecks
    obtain ⟨⟨⟨⟨⟨⟨hlen, hhead⟩, htype⟩, hversion⟩, hmask⟩, hboth⟩, hcrc⟩ := hchecks
    cases h
    replace hlen : data.length = 34 := hlen
    obtain ⟨hflags, hnot⟩ := commandFlags_hasFlag (data.getD 3 0) hmask hboth
    refine ⟨?_, hnot⟩
    have hheader : [kFrameHead, kCommandV2Type, kProtocolV2, data.getD 3 0] = data.take 4 := by
      rw [← hhead, ← htype, ← hversion]
      match data, hlen with
      | b₀ :: b₁ :: b₂ :: b₃ :: rest, _ => rfl
    have hoffsets : (Vector.ofFn fun i : Fin kThrusterChannels =>
          readI16 data (16 + 2 * i)).toList.flatMap (fun value => writeU16 value.toUInt16)
        = (data.drop 16).take 16 := by
      rw [← flatMap_readI16 (data.drop 16) 8 (by simp [hlen]), Vector.toList_ofFn]
      simp only [readI16, readU16_add]
    have hbody : commandBody (readU32 data 4) (readU32 data 8) (readU32 data 12)
        (hasFlag (data.getD 3 0) kCommandFlagEnable)
        (Vector.ofFn fun i => readI16 data (16 + 2 * i))
        (hasFlag (data.getD 3 0) kCommandFlagImuGyroCalibrate) = data.take 32 := by
      rw [commandBody, hflags, hheader, writeU32_readU32 _ _ (by omega),
        writeU32_readU32 _ _ (by omega), writeU32_readU32 _ _ (by omega), hoffsets,
        ← List.take_add, ← List.take_add, ← List.take_add, ← List.take_add]
    have hcrc : readU16 data 32 = crc16Ccitt (data.take 32) := by
      have := beq_iff_eq.mp hcrc
      rwa [hlen] at this
    rw [CommandFrame.encode, buildCommandV2, hbody, ← hcrc, writeU16_readU16 _ _ (by omega),
      ← List.take_add, List.take_of_length_le (by omega)]

/-- **The command codec.**  What is built is decoded to the values it was built from; the strings
the parser accepts are exactly the ones that can be built; and building again from the decoded
fields gives the string back. -/
theorem commandCodec_bijective :
    (∀ (bootId sessionId sequence : UInt32) (enable calibrate : Bool)
      (offsets : Vector Int16 kThrusterChannels), ¬ (enable = true ∧ calibrate = true) →
      ∃ frame, parseCommandV2
          (buildCommandV2 bootId sessionId sequence enable offsets calibrate) = some frame ∧
        frame.bootId = bootId ∧ frame.sessionId = sessionId ∧ frame.sequence = sequence ∧
        frame.flags = commandFlags enable calibrate ∧
        hasFlag frame.flags kCommandFlagEnable = enable ∧
        hasFlag frame.flags kCommandFlagImuGyroCalibrate = calibrate ∧
        frame.offsetsUs = offsets) ∧
    ∀ data : List UInt8,
      ((parseCommandV2 data).isSome = true ↔
        ∃ (bootId sessionId sequence : UInt32) (enable calibrate : Bool)
          (offsets : Vector Int16 kThrusterChannels), ¬ (enable = true ∧ calibrate = true) ∧
          data = buildCommandV2 bootId sessionId sequence enable offsets calibrate) ∧
      ∀ frame, parseCommandV2 data = some frame → frame.encode = data := by
  refine ⟨fun bootId sessionId sequence enable calibrate offsets h => ?_, fun data => ⟨?_, ?_⟩⟩
  · refine ⟨_, parseCommandV2_buildCommandV2 bootId sessionId sequence enable calibrate offsets h,
      rfl, rfl, rfl, rfl, ?_, ?_, rfl⟩
    · exact (hasFlag_commandFlags enable calibrate).1
    · exact (hasFlag_commandFlags enable calibrate).2
  · constructor
    · intro h
      obtain ⟨frame, hframe⟩ := Option.isSome_iff_exists.mp h
      obtain ⟨hencode, hnot⟩ := encode_of_parseCommandV2 hframe
      exact ⟨_, _, _, _, _, _, hnot, hencode.symm⟩
    · rintro ⟨bootId, sessionId, sequence, enable, calibrate, offsets, hnot, rfl⟩
      rw [parseCommandV2_buildCommandV2 bootId sessionId sequence enable calibrate offsets hnot]
      rfl
  · intro frame hframe
    exact (encode_of_parseCommandV2 hframe).1

-- The golden vector of the protocol test.
example : buildCommandV2 0x01020304 0x12345678 0x9ABCDEF0 true
      #v[-100, -1, 0, 1, 25, 50, 99, 100] false
    = [0xff, 0xfc, 0x02, 0x01, 0x04, 0x03, 0x02, 0x01, 0x78, 0x56, 0x34, 0x12, 0xf0, 0xde, 0xbc,
      0x9a, 0x9c, 0xff, 0xff, 0xff, 0x00, 0x00, 0x01, 0x00, 0x19, 0x00, 0x32, 0x00, 0x63, 0x00,
      0x64, 0x00, 0xc3, 0xdc] := by
  decide +kernel

/-- The bijection at an enabling command with a negative offset. -/
theorem commandCodec_bijective_enabling :
    ¬ (true = true ∧ false = true) ∧
    (parseCommandV2 (buildCommandV2 1 2 0x01020304 true
      #v[-250, 250, 0, 1, -1, 128, -128, 7] false)).isSome = true ∧
    ∀ frame, parseCommandV2 (buildCommandV2 1 2 0x01020304 true
        #v[-250, 250, 0, 1, -1, 128, -128, 7] false) = some frame →
      frame.encode = buildCommandV2 1 2 0x01020304 true #v[-250, 250, 0, 1, -1, 128, -128, 7]
        false :=
  ⟨by decide,
    (commandCodec_bijective.2 _).1.mpr ⟨_, _, _, _, _, _, by decide, rfl⟩,
    (commandCodec_bijective.2 _).2⟩

/-! ### The headers of accepted frames -/

variable {data : List UInt8}

theorem parseBoardStatusV2_header {frame : BoardStatusFrame}
    (h : parseBoardStatusV2 data = some frame) :
    data.length = kStatusV2FrameSize ∧ data.getD 0 0 = kFrameHead ∧
      data.getD 1 0 = kStatusV2Type := by
  unfold parseBoardStatusV2 at h
  split at h
  · cases h
  · rename_i hchecks
    simp only [Bool.or_eq_true, bne_iff_ne, not_or, not_not] at hchecks
    exact ⟨hchecks.1.1.1.1.1, hchecks.1.1.1.1.2, hchecks.1.1.1.2⟩

theorem parseRuntimeV1_header {frame : RuntimeFrame} (h : parseRuntimeV1 data = some frame) :
    data.length = kRuntimeV1FrameSize ∧ data.getD 0 0 = kFrameHead ∧
      data.getD 1 0 = kTelemetryType ∧ data.getD 2 0 = kRuntimeFrameNumber := by
  unfold parseRuntimeV1 at h
  split at h
  · cases h
  · rename_i hchecks
    simp only [Bool.or_eq_true, bne_iff_ne, not_or, not_not] at hchecks
    exact ⟨hchecks.1.1.1.1.1.1, hchecks.1.1.1.1.1.2, hchecks.1.1.1.1.2, hchecks.1.1.1.2⟩

theorem parseImuV2_header {frame : ImuFrame} (h : parseImuV2 data = some frame) :
    data.length = kImuV2FrameSize ∧ data.getD 0 0 = kFrameHead ∧
      data.getD 1 0 = kTelemetryType ∧ data.getD 2 0 = kImuFrameNumber ∧
      data.getD 3 0 = 0x02 ∧ data.getD 4 0 &&& 0x01 ≠ 0 := by
  unfold parseImuV2 at h
  dsimp only at h
  split_ifs at h with hchecks hcrc hvalid
  simp only [Bool.or_eq_true, bne_iff_ne, not_or, not_not] at hchecks
  exact ⟨hchecks.1.1.1.1.1, hchecks.1.1.1.1.2, hchecks.1.1.1.2, hchecks.1.1.2, hchecks.1.2,
    bne_iff_ne.mp hvalid⟩

end RobotCore
