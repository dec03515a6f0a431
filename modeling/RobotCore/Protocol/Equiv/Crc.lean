import RobotCore.Lib.Crc
import RobotCore.Protocol.Equiv.Codec

/-!
# What the CRC of the protocol detects

`parsers_detect_errors`: no parser accepts a string that differs from an accepted one in one, two
or three bits, or only within two adjacent bytes before the CRC.

The code's CRC is the register of `Crc` at 16 bits and the polynomial `0x1021`, fed each byte from
its highest bit (`toBitVec_crc16Ccitt`).  The CRC is stored low byte first, so a frame checks
exactly when its bytes, with the last two exchanged, leave the register zero (`crcMatches_iff`).
-/

namespace RobotCore

open Crc

/-! ### The register of the code -/

/-- `0x1021`, the terms of the CCITT polynomial below `x ^ 16` -/
def crcPolynomial : BitVec 16 := 0x1021#16

/-- The bits of a byte in the order they are fed. -/
def byteBits (byte : UInt8) : List Bool :=
  (List.range 8).map fun i => byte.toBitVec.getLsbD (7 - i)

theorem length_byteBits (byte : UInt8) : (byteBits byte).length = 8 := by
  rw [byteBits, List.length_map, List.length_range]

theorem byteBits_injective : Function.Injective byteBits := by
  intro a b h
  refine UInt8.toBitVec_inj.mp (BitVec.eq_of_getLsbD_eq fun i hi => ?_)
  have hbit := congrArg (fun bits => bits[7 - i]?) h
  simpa [byteBits, show 7 - i < 8 by omega, show 7 - (7 - i) = i by omega] using hbit

theorem toBitVec_crcBit (crc : UInt16) :
    (crcBit crc).toBitVec = Crc.shift crcPolynomial crc.toBitVec := by
  have hmsb : crc.toBitVec.msb = crc.toBitVec.getLsbD 15 := BitVec.msb_eq_getLsbD_last _
  have hmask : (crc &&& 0x8000).toBitVec
      = if crc.toBitVec.getLsbD 15 then BitVec.twoPow 16 15 else 0#16 :=
    BitVec.and_twoPow crc.toBitVec 15
  have htest : (crc &&& 0x8000 != 0) = crc.toBitVec.msb := by
    rw [hmsb, Bool.eq_iff_iff, bne_iff_ne, Ne, ← UInt16.toBitVec_inj, hmask]
    cases crc.toBitVec.getLsbD 15 <;> decide
  rw [crcBit, Crc.shift, htest]
  cases crc.toBitVec.msb
  · rfl
  · rfl

theorem toBitVec_iterate_crcBit (n : ℕ) (crc : UInt16) :
    (Nat.iterate crcBit n crc).toBitVec = (Crc.shift crcPolynomial)^[n] crc.toBitVec := by
  induction n generalizing crc with
  | zero => rfl
  | succ n ih =>
    rw [Function.iterate_succ_apply, Function.iterate_succ_apply, ih, toBitVec_crcBit]

/-- A byte fed first is a high byte, one fed second a low byte. -/
theorem pack_byteBits (byte : UInt8) :
    pack 16 (byteBits byte) = (byte.toUInt16 <<< 8).toBitVec ∧
      pack 16 (byteBits byte) >>> 8 = byte.toUInt16.toBitVec := by
  have hall : ∀ n : Fin 256, let byte := UInt8.ofFin n
      pack 16 (byteBits byte) = (byte.toUInt16 <<< 8).toBitVec ∧
        pack 16 (byteBits byte) >>> 8 = byte.toUInt16.toBitVec := by
    decide +kernel
  exact hall byte.toFin

theorem toBitVec_crcByte (crc : UInt16) (byte : UInt8) :
    (crcByte crc byte).toBitVec = remainder crcPolynomial crc.toBitVec (byteBits byte) := by
  rw [crcByte, toBitVec_iterate_crcBit, remainder_eq_iterate (by rw [length_byteBits]; decide),
    (pack_byteBits byte).1, length_byteBits]
  rfl

theorem toBitVec_foldl_crcByte (data : List UInt8) (crc : UInt16) :
    (data.foldl crcByte crc).toBitVec
      = remainder crcPolynomial crc.toBitVec (data.flatMap byteBits) := by
  induction data generalizing crc with
  | nil => rfl
  | cons byte data ih =>
    rw [List.foldl_cons, ih, toBitVec_crcByte, List.flatMap_cons, remainder_append]

theorem toBitVec_crc16Ccitt (data : List UInt8) :
    (crc16Ccitt data).toBitVec = remainder crcPolynomial 0xFFFF#16 (data.flatMap byteBits) :=
  toBitVec_foldl_crcByte data 0xFFFF

/-! ### Frames as codewords -/

/-- The bits of a frame with its last two bytes exchanged, so that the CRC comes high byte first. -/
def wireBits (data : List UInt8) : List Bool :=
  (data.take (data.length - 2)).flatMap byteBits ++
    (byteBits (data.getD (data.length - 1) 0) ++ byteBits (data.getD (data.length - 2) 0))

theorem toBitVec_readU16 (data : List UInt8) (i : ℕ) :
    (readU16 data i).toBitVec
      = pack 16 (byteBits (data.getD (i + 1) 0) ++ byteBits (data.getD i 0)) := by
  rw [pack_append, length_byteBits, (pack_byteBits _).1, (pack_byteBits _).2, readU16,
    UInt16.toBitVec_or]
  refine BitVec.eq_of_getLsbD_eq fun j hj => ?_
  -- The two bytes share no bit: one is below bit 8, the other from there on.
  rcases Nat.lt_or_ge j 8 with hj' | hj'
  · simp [hj']
  · simp [hj']

/-- **A frame checks exactly when it leaves the register zero.** -/
theorem crcMatches_iff {data : List UInt8} (hlength : 2 ≤ data.length) :
    crcMatches data = true ↔ remainder crcPolynomial 0xFFFF#16 (wireBits data) = 0#16 := by
  rw [wireBits, remainder_append_eq_zero_iff (by decide)
    (by rw [List.length_append, length_byteBits, length_byteBits]), ← toBitVec_crc16Ccitt,
    show data.length - 1 = data.length - 2 + 1 by omega, ← toBitVec_readU16, UInt16.toBitVec_inj,
    crcMatches, beq_iff_eq, eq_comm]

theorem length_flatMap_byteBits (data : List UInt8) :
    (data.flatMap byteBits).length = 8 * data.length := by
  rw [List.length_flatMap]
  simp only [length_byteBits, List.map_const', List.sum_replicate_nat, Nat.mul_comm]

theorem flatMap_byteBits_inj {data data' : List UInt8} (hlength : data.length = data'.length)
    (h : data.flatMap byteBits = data'.flatMap byteBits) : data = data' := by
  induction data generalizing data' with
  | nil => exact (List.length_eq_zero_iff.mp hlength.symm).symm
  | cons byte data ih =>
    cases data' with
    | nil => cases hlength
    | cons byte' data' =>
      rw [List.flatMap_cons, List.flatMap_cons] at h
      obtain ⟨hfirst, hrest⟩ := List.append_inj h (by rw [length_byteBits, length_byteBits])
      rw [byteBits_injective hfirst, ih (Nat.succ.inj hlength) hrest]

theorem length_wireBits {data : List UInt8} (hlength : 2 ≤ data.length) :
    (wireBits data).length = 8 * data.length := by
  simp only [wireBits, List.length_append, length_flatMap_byteBits, length_byteBits,
    List.length_take]
  omega

/-! ### Errors -/

/-- The number of bits in which two strings of one length differ. -/
def bitDistance (data data' : List UInt8) : ℕ :=
  distance (data.flatMap byteBits) (data'.flatMap byteBits)

/-- The strings differ, and only in the adjacent bytes `i` and `i + 1`, which the CRC covers. -/
def DifferWithin (data data' : List UInt8) (i : ℕ) : Prop :=
  data ≠ data' ∧ i + 1 < data.length - 2 ∧ ∀ j, j ≠ i → j ≠ i + 1 → data[j]? = data'[j]?

variable {data data' : List UInt8}

theorem drop_eq_last (hlength : 2 ≤ data.length) :
    data.drop (data.length - 2)
      = [data.getD (data.length - 2) 0, data.getD (data.length - 1) 0] := by
  refine List.ext_getElem (by rw [List.length_drop]; exact Nat.sub_sub_self hlength)
    fun i _ hi => ?_
  match i, hi with
  | 0, _ => simp [show data.length - 2 < data.length by omega]
  | 1, _ => simp [show data.length - 2 + 1 = data.length - 1 by omega,
      show data.length - 1 < data.length by omega]

/-- Exchanging two bytes in both strings keeps their distance. -/
theorem bitDistance_eq (hlength : 2 ≤ data.length) (h : data'.length = data.length) :
    bitDistance data data' = distance (wireBits data) (wireBits data') := by
  have hsplit (l : List UInt8) (hl : 2 ≤ l.length) : l.flatMap byteBits
      = (l.take (l.length - 2)).flatMap byteBits ++
        (byteBits (l.getD (l.length - 2) 0) ++ byteBits (l.getD (l.length - 1) 0)) := by
    rw [← List.append_nil (byteBits (l.getD (l.length - 1) 0)), ← List.flatMap_nil (f := byteBits),
      ← List.flatMap_cons, ← List.flatMap_cons, ← drop_eq_last hl, ← List.flatMap_append,
      List.take_append_drop]
  have hfront : ((data.take (data.length - 2)).flatMap byteBits).length
      = ((data'.take (data'.length - 2)).flatMap byteBits).length := by
    rw [length_flatMap_byteBits, length_flatMap_byteBits, List.length_take, List.length_take, h]
  have hbyte (byte byte' : UInt8) : (byteBits byte).length = (byteBits byte').length := by
    rw [length_byteBits, length_byteBits]
  rw [bitDistance, hsplit data hlength, hsplit data' (h.symm ▸ hlength), wireBits, wireBits,
    distance_append hfront, distance_append hfront, distance_append (hbyte _ _),
    distance_append (hbyte _ _),
    Nat.add_comm (distance (byteBits (data.getD (data.length - 2) 0)) _)]

/-- An error within two covered bytes is an error within 16 adjacent bits of the codeword. -/
theorem wireBits_of_differWithin {i : ℕ} (h : data'.length = data.length)
    (hdiffer : DifferWithin data data' i) :
    ∃ before burst burst' after, wireBits data = before ++ burst ++ after ∧
      wireBits data' = before ++ burst' ++ after ∧ burst.length = burst'.length ∧
      burst.length ≤ 16 ∧ burst ≠ burst' := by
  obtain ⟨hne, hi, hsame⟩ := hdiffer
  have htake : data'.take i = data.take i := by
    refine List.ext_getElem? fun j => ?_
    rw [List.getElem?_take, List.getElem?_take]
    split
    · exact (hsame j (by omega) (by omega)).symm
    · rfl
  have hdrop : data'.drop (i + 2) = data.drop (i + 2) := by
    refine List.ext_getElem? fun j => ?_
    rw [List.getElem?_drop, List.getElem?_drop]
    exact (hsame _ (by omega) (by omega)).symm
  have hfront (l : List UInt8) (hl : l.length = data.length) :
      (l.take (l.length - 2)).flatMap byteBits
        = (l.take i).flatMap byteBits ++ ((l.drop i).take 2).flatMap byteBits ++
        ((l.drop (i + 2)).take (data.length - 4 - i)).flatMap byteBits := by
    rw [← List.flatMap_append, ← List.flatMap_append, ← List.take_add, ← List.take_add, hl,
      show i + 2 + (data.length - 4 - i) = data.length - 2 by omega]
  have hlast (j : ℕ) (hj : i + 2 ≤ j) : data'.getD j 0 = data.getD j 0 := by
    rw [List.getD_eq_getElem?_getD, List.getD_eq_getElem?_getD, hsame j (by omega) (by omega)]
  refine ⟨(data.take i).flatMap byteBits, ((data.drop i).take 2).flatMap byteBits,
    ((data'.drop i).take 2).flatMap byteBits,
    ((data.drop (i + 2)).take (data.length - 4 - i)).flatMap byteBits ++
      (byteBits (data.getD (data.length - 1) 0) ++ byteBits (data.getD (data.length - 2) 0)),
    ?_, ?_, ?_, ?_, ?_⟩
  · rw [wireBits, hfront data rfl, List.append_assoc _ _ (_ ++ _)]
  · rw [wireBits, hfront data' h, htake, hdrop, h, hlast _ (by omega), hlast _ (by omega),
      List.append_assoc _ _ (_ ++ _)]
  · rw [length_flatMap_byteBits, length_flatMap_byteBits]
    simp [h]
  · rw [length_flatMap_byteBits, List.length_take]
    omega
  · intro heq
    refine hne ?_
    have hmiddle := flatMap_byteBits_inj (by simp [h]) heq
    rw [← List.take_append_drop i data, ← List.take_append_drop i data', htake,
      ← List.take_append_drop 2 (data.drop i), ← List.take_append_drop 2 (data'.drop i), hmiddle,
      List.drop_drop, List.drop_drop, hdrop]

/-! ### The CCITT polynomial -/

theorem parity_crcPolynomial : parity crcPolynomial = 1 := by decide

/-- The register does not come round within the longest frame of the protocol. -/
theorem order_crcPolynomial : ∀ n < 8 * kStatusV2FrameSize, 0 < n →
    (Crc.shift crcPolynomial)^[n] (top 16) ≠ top 16 := by
  decide +kernel

/-- An error the claims of the protocol are about: one to three wrong bits anywhere, or any error
within two adjacent bytes before the CRC. -/
def Detectable (data data' : List UInt8) : Prop :=
  data'.length = data.length ∧
    (bitDistance data data' ∈ Set.Icc 1 3 ∨ ∃ i, DifferWithin data data' i)

/-- **The CRC detects such an error** in every frame of at most 48 bytes. -/
theorem crcMatches_of_detectable (hlength : 2 ≤ data.length)
    (hmax : data.length ≤ kStatusV2FrameSize) (h : Detectable data data')
    (haccepted : crcMatches data = true) : crcMatches data' = false := by
  obtain ⟨hsame, herror⟩ := h
  have hlength' : 2 ≤ data'.length := hsame.symm ▸ hlength
  have hbits : (wireBits data).length = (wireBits data').length := by
    rw [length_wireBits hlength, length_wireBits hlength', hsame]
  rw [← Bool.not_eq_true, crcMatches_iff hlength']
  rw [crcMatches_iff hlength] at haccepted
  intro hzero
  have heq := haccepted.trans hzero.symm
  rcases herror with hdistance | ⟨i, hdiffer⟩
  · rw [bitDistance_eq hlength hsame] at hdistance
    rcases Nat.even_or_odd (distance (wireBits data) (wireBits data')) with heven | hodd
    · have htwo : distance (wireBits data) (wireBits data') = 2 := by
        obtain ⟨k, hk⟩ := heven
        have := hdistance.1
        have := hdistance.2
        omega
      refine remainder_ne_of_two (by decide) (fun n hn hn' => ?_) hbits htwo heq
      rw [length_wireBits hlength] at hn'
      exact order_crcPolynomial n (hn'.trans_le (Nat.mul_le_mul_left 8 hmax)) hn
    · exact remainder_ne_of_odd (by decide) parity_crcPolynomial hbits hodd heq
  · obtain ⟨before, burst, burst', after, hdata, hdata', hburst, hshort, hne⟩ :=
      wireBits_of_differWithin hsame hdiffer
    rw [hdata, hdata'] at heq
    exact remainder_ne_of_burst (by decide) hshort hburst hne heq

/-! ### The parsers -/

/-- Two bytes for the CRC, within the longest frame, and the CRC matches. -/
structure CrcChecked (data : List UInt8) : Prop where
  two_le : 2 ≤ data.length
  le_max : data.length ≤ kStatusV2FrameSize
  matches_crc : crcMatches data = true

theorem crcChecked_of_parseCommandV2 (h : (parseCommandV2 data).isSome = true) :
    CrcChecked data := by
  unfold parseCommandV2 at h
  split at h
  · cases h
  · rename_i hchecks
    simp only [Bool.or_eq_true, Bool.not_eq_true', bne_iff_ne, beq_iff_eq, not_or, not_not,
      Bool.not_eq_false] at hchecks
    obtain ⟨⟨⟨⟨⟨⟨hlen, _⟩, _⟩, _⟩, _⟩, _⟩, hcrc⟩ := hchecks
    exact ⟨by rw [hlen]; decide, by rw [hlen]; decide, hcrc⟩

theorem crcChecked_of_parseBoardStatusV2 (h : (parseBoardStatusV2 data).isSome = true) :
    CrcChecked data := by
  unfold parseBoardStatusV2 at h
  split at h
  · cases h
  · rename_i hchecks
    simp only [Bool.or_eq_true, Bool.not_eq_true', bne_iff_ne, not_or, not_not,
      Bool.not_eq_false] at hchecks
    obtain ⟨⟨⟨⟨⟨hlen, _⟩, _⟩, _⟩, _⟩, hcrc⟩ := hchecks
    exact ⟨by rw [hlen]; decide, by rw [hlen], hcrc⟩

theorem crcChecked_of_parseImuV2 (h : (parseImuV2 data).isSome = true) : CrcChecked data := by
  unfold parseImuV2 at h
  dsimp only at h
  split at h
  · cases h
  · rename_i hchecks
    simp only [Bool.or_eq_true, bne_iff_ne, not_or, not_not] at hchecks
    obtain ⟨⟨⟨⟨⟨hlen, _⟩, _⟩, _⟩, _⟩, _⟩ := hchecks
    split at h
    · cases h
    · rename_i hcrc
      rw [Bool.not_eq_true', Bool.not_eq_false] at hcrc
      exact ⟨by rw [hlen]; decide, by rw [hlen]; decide, hcrc⟩

theorem crcChecked_of_parseRuntimeV1 (h : (parseRuntimeV1 data).isSome = true) :
    CrcChecked data := by
  unfold parseRuntimeV1 at h
  split at h
  · cases h
  · rename_i hchecks
    simp only [Bool.or_eq_true, Bool.not_eq_true', bne_iff_ne, not_or, not_not,
      Bool.not_eq_false] at hchecks
    obtain ⟨⟨⟨⟨⟨⟨hlen, _⟩, _⟩, _⟩, _⟩, _⟩, hcrc⟩ := hchecks
    exact ⟨by rw [hlen]; decide, by rw [hlen]; decide, hcrc⟩

/-- **No parser accepts a string with a detectable error.**  Here an accepted string and one of
the same length differ in one, two or three bits anywhere, or only within two adjacent bytes that
the CRC covers. -/
theorem parsers_detect_errors (data data' : List UInt8) (h : Detectable data data') :
    ((parseCommandV2 data).isSome = true → parseCommandV2 data' = none) ∧
    ((parseBoardStatusV2 data).isSome = true → parseBoardStatusV2 data' = none) ∧
    ((parseImuV2 data).isSome = true → parseImuV2 data' = none) ∧
    ((parseRuntimeV1 data).isSome = true → parseRuntimeV1 data' = none) := by
  have hreject {α : Type} (parse : List UInt8 → Option α)
      (hchecked : ∀ l, (parse l).isSome = true → CrcChecked l)
      (haccepted : (parse data).isSome = true) : parse data' = none := by
    rw [← Option.not_isSome_iff_eq_none]
    intro haccepted'
    obtain ⟨hlength, hmax, hcrc⟩ := hchecked data haccepted
    have hcrc' := crcMatches_of_detectable hlength hmax h hcrc
    rw [(hchecked data' haccepted').matches_crc] at hcrc'
    cases hcrc'
  exact ⟨hreject _ fun _ => crcChecked_of_parseCommandV2,
    hreject _ fun _ => crcChecked_of_parseBoardStatusV2,
    hreject _ fun _ => crcChecked_of_parseImuV2, hreject _ fun _ => crcChecked_of_parseRuntimeV1⟩

/-- A command, and the string with one payload bit and two bits of the CRC flipped. -/
theorem parsers_detect_errors_threeBits :
    (parseCommandV2 (buildCommandV2 1 2 3 true #v[-100, -1, 0, 1, 25, 50, 99, 100] false)).isSome
      = true ∧
    parseCommandV2 (List.zipWith (· ^^^ ·)
        (buildCommandV2 1 2 3 true #v[-100, -1, 0, 1, 25, 50, 99, 100] false)
        (List.replicate 31 0 ++ [1, 1, 1])) = none :=
  have haccepted : (parseCommandV2 (buildCommandV2 1 2 3 true
      #v[-100, -1, 0, 1, 25, 50, 99, 100] false)).isSome = true := by decide +kernel
  ⟨haccepted, (parsers_detect_errors
    (buildCommandV2 1 2 3 true #v[-100, -1, 0, 1, 25, 50, 99, 100] false)
    (List.zipWith (· ^^^ ·) (buildCommandV2 1 2 3 true #v[-100, -1, 0, 1, 25, 50, 99, 100] false)
      (List.replicate 31 0 ++ [1, 1, 1]))
    ⟨by decide +kernel, Or.inl (by decide +kernel)⟩).1 haccepted⟩

end RobotCore
