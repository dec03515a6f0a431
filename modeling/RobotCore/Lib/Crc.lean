import Mathlib.Algebra.Field.ZMod

/-!
# Cyclic redundancy checks

A check register of `w` bits is fed a string bit by bit.  One round shifts it and reduces by the
polynomial `poly` (its terms below `x ^ w`) when a bit falls out; the register is zero exactly when
the string, followed by what the register held, is divisible by the polynomial.

Feeding is linear, so two strings of one length leave the same register exactly when their
difference leaves zero.  From there the errors a check detects:

* `remainder_ne_of_odd`: every odd number of wrong bits, when the polynomial has an even number of
  terms;
* `remainder_ne_of_two`: two wrong bits, when the strings are shorter than the order of `x`;
* `remainder_ne_of_burst`: every error within `w` adjacent bits, when `poly` has a constant term.
-/

namespace Crc

variable {w : ℕ} {poly c c' : BitVec w} {bits bits' : List Bool}

/-! ### The register -/

/-- One round: shift, and reduce by the polynomial when a bit falls out. -/
def shift (poly c : BitVec w) : BitVec w :=
  if c.msb then (c <<< 1) ^^^ poly else c <<< 1

/-- The register whose only bit is the highest one. -/
def top (w : ℕ) : BitVec w := BitVec.twoPow w (w - 1)

/-- The next bit enters at the top. -/
def feed (poly c : BitVec w) (bit : Bool) : BitVec w :=
  shift poly (if bit then c ^^^ top w else c)

def remainder (poly c : BitVec w) (bits : List Bool) : BitVec w :=
  bits.foldl (feed poly) c

/-- At most `w` bits as a register, the first bit at the top. -/
def pack (w : ℕ) : List Bool → BitVec w
  | [] => 0#w
  | bit :: bits => (if bit then top w else 0#w) ^^^ (pack w bits >>> 1)

/-! ### Linearity -/

theorem shift_xor (c c' : BitVec w) : shift poly (c ^^^ c') = shift poly c ^^^ shift poly c' := by
  unfold shift
  rw [BitVec.msb_xor, BitVec.shiftLeft_xor_distrib]
  cases c.msb <;> cases c'.msb
  · rfl
  · exact BitVec.xor_assoc _ _ _
  · simp only [Bool.xor_false, if_true, Bool.false_eq_true, if_false]
    rw [BitVec.xor_assoc, BitVec.xor_comm (c' <<< 1), ← BitVec.xor_assoc]
  · simp only [Bool.xor_self, Bool.false_eq_true, if_false, if_true]
    rw [BitVec.xor_comm (c' <<< 1) poly, ← BitVec.xor_assoc, BitVec.xor_assoc (c <<< 1) poly poly,
      BitVec.xor_self, BitVec.xor_zero]

theorem shift_zero : shift poly 0#w = 0#w := by
  simp [shift]

theorem iterate_shift_zero (n : ℕ) : (shift poly)^[n] 0#w = 0#w :=
  Function.iterate_fixed shift_zero n

theorem feed_xor (c c' : BitVec w) (b b' : Bool) :
    feed poly (c ^^^ c') (b ^^ b') = feed poly c b ^^^ feed poly c' b' := by
  rw [feed, feed, feed, ← shift_xor]
  congr 1
  cases b <;> cases b'
  · rfl
  · exact BitVec.xor_assoc _ _ _
  · simp only [Bool.xor_false, if_true, Bool.false_eq_true, if_false]
    rw [BitVec.xor_assoc, BitVec.xor_comm c', ← BitVec.xor_assoc]
  · simp only [Bool.xor_self, Bool.false_eq_true, if_false, if_true]
    rw [BitVec.xor_comm c' (top w), ← BitVec.xor_assoc, BitVec.xor_assoc c,
      BitVec.xor_self, BitVec.xor_zero]

theorem remainder_cons (b : Bool) (bits : List Bool) :
    remainder poly c (b :: bits) = remainder poly (feed poly c b) bits := rfl

theorem remainder_append (bits bits' : List Bool) :
    remainder poly c (bits ++ bits') = remainder poly (remainder poly c bits) bits' :=
  List.foldl_append

/-- **Feeding is linear.** -/
theorem remainder_xor (h : bits.length = bits'.length) :
    remainder poly (c ^^^ c') (bits.zipWith xor bits')
      = remainder poly c bits ^^^ remainder poly c' bits' := by
  induction bits generalizing bits' c c' with
  | nil =>
    cases bits' with
    | nil => rfl
    | cons _ _ => cases h
  | cons b bits ih =>
    cases bits' with
    | nil => cases h
    | cons b' bits' =>
      calc remainder poly (feed poly (c ^^^ c') (b ^^ b')) (bits.zipWith xor bits')
          = remainder poly (feed poly c b ^^^ feed poly c' b') (bits.zipWith xor bits') := by
            rw [feed_xor]
        _ = remainder poly (feed poly c b) bits ^^^ remainder poly (feed poly c' b') bits' :=
            ih (Nat.succ.inj h)

/-- Two strings leave the same register exactly when their difference leaves zero. -/
theorem remainder_eq_iff (h : bits.length = bits'.length) :
    remainder poly c bits = remainder poly c bits'
      ↔ remainder poly 0#w (bits.zipWith xor bits') = 0#w := by
  have hxor : remainder poly (c ^^^ c) (bits.zipWith xor bits')
      = remainder poly c bits ^^^ remainder poly c bits' := remainder_xor h
  rw [BitVec.xor_self] at hxor
  rw [hxor, BitVec.xor_eq_zero_iff]

/-! ### Strings no longer than the register -/

theorem getLsbD_top (i : ℕ) : (top w).getLsbD i = decide (i + 1 = w) := by
  rw [top, BitVec.getLsbD_twoPow, Bool.eq_iff_iff, Bool.and_eq_true, decide_eq_true_iff,
    decide_eq_true_iff, decide_eq_true_iff]
  omega

/-- The first bit of a packed string is at the top. -/
theorem getLsbD_pack (bits : List Bool) (i : ℕ) :
    (pack w bits).getLsbD i = (decide (i < w) && bits.getD (w - 1 - i) false) := by
  induction bits generalizing i with
  | nil => simp [pack]
  | cons b bits ih =>
    have htop : (if b then top w else 0#w).getLsbD i = (b && decide (i + 1 = w)) := by
      cases b
      · exact BitVec.getLsbD_zero
      · exact getLsbD_top i
    rw [pack, BitVec.getLsbD_xor, htop, BitVec.getLsbD_ushiftRight, ih, Nat.add_comm 1 i]
    rcases Nat.lt_trichotomy (i + 1) w with hi | hi | hi
    · rw [show w - 1 - i = (w - 1 - (i + 1)) + 1 by omega, List.getD_cons_succ]
      simp [hi, show i < w by omega, hi.ne]
    · rw [show w - 1 - i = 0 by omega]
      simp [hi, show i < w by omega]
    · simp [show ¬ i < w by omega, show ¬ i + 1 < w by omega, show ¬ i + 1 = w by omega]

theorem pack_append (bits bits' : List Bool) :
    pack w (bits ++ bits') = pack w bits ^^^ (pack w bits' >>> bits.length) := by
  induction bits with
  | nil => exact (BitVec.zero_xor).symm
  | cons b bits ih =>
    rw [List.cons_append, pack, ih, BitVec.ushiftRight_xor_distrib, ← BitVec.xor_assoc,
      List.length_cons, BitVec.shiftRight_add]
    rfl

theorem pack_inj (hlength : bits.length ≤ w) (h : bits.length = bits'.length)
    (hpack : pack w bits = pack w bits') : bits = bits' := by
  refine List.ext_getElem h fun i hi hi' => ?_
  have hbit := congrArg (fun x => x.getLsbD (w - 1 - i)) hpack
  simp only [getLsbD_pack, show w - 1 - i < w by omega, decide_true, Bool.true_and,
    show w - 1 - (w - 1 - i) = i by omega] at hbit
  rwa [List.getD_eq_getElem?_getD, List.getD_eq_getElem?_getD, List.getElem?_eq_getElem hi,
    List.getElem?_eq_getElem hi'] at hbit

/-- A register whose lowest bit is free is what its half becomes in one round. -/
theorem shift_ushiftRight_one (hc : c.getLsbD 0 = false) : shift poly (c >>> 1) = c := by
  have hmsb : (c >>> 1).msb = false := by simp [BitVec.msb_ushiftRight]
  rw [shift, hmsb, if_neg Bool.false_ne_true]
  refine BitVec.eq_of_getLsbD_eq fun i hi => ?_
  cases i with
  | zero => simpa using hc.symm
  | succ i => simp [hi, Nat.add_comm]

/-- Feeding at most `w` bits is entering them at the top at once and then shifting. -/
theorem remainder_eq_iterate (hbits : bits.length ≤ w) :
    remainder poly c bits = (shift poly)^[bits.length] (c ^^^ pack w bits) := by
  induction bits generalizing c with
  | nil => exact (BitVec.xor_zero).symm
  | cons b bits ih =>
    rw [List.length_cons] at hbits
    have hlow : (pack w bits).getLsbD 0 = false := by
      rw [getLsbD_pack, List.getD_eq_getElem?_getD, List.getElem?_eq_none (by omega),
        Option.getD_none, Bool.and_false]
    have hfeed : feed poly c b = shift poly (c ^^^ if b then top w else 0#w) := by
      cases b
      · rw [if_neg Bool.false_ne_true, BitVec.xor_zero]
        rfl
      · rfl
    calc remainder poly (feed poly c b) bits
        = (shift poly)^[bits.length] (feed poly c b ^^^ pack w bits) := ih (by omega)
      _ = (shift poly)^[bits.length] (shift poly
            ((c ^^^ if b then top w else 0#w) ^^^ (pack w bits >>> 1))) := by
          rw [shift_xor, ← hfeed, shift_ushiftRight_one hlow]
      _ = (shift poly)^[bits.length + 1] (c ^^^ pack w (b :: bits)) := by
          rw [BitVec.xor_assoc, Function.iterate_succ_apply]
          rfl

/-! ### Rounds are reversible -/

section Reversible

variable (hlow : poly.getLsbD 0 = true)

include hlow

theorem shift_eq_zero_iff : shift poly c = 0#w ↔ c = 0#w := by
  constructor
  · intro h
    unfold shift at h
    split at h
    · have h0 := congrArg (fun x => x.getLsbD 0) h
      simp [hlow] at h0
    · rename_i hmsb
      refine BitVec.eq_of_getLsbD_eq fun i hi => ?_
      rcases Nat.lt_or_ge (i + 1) w with hi' | hi'
      · have := congrArg (fun x => x.getLsbD (i + 1)) h
        simpa [hi, hi'] using this
      · rw [BitVec.getLsbD_zero]
        rwa [Bool.not_eq_true, BitVec.msb, BitVec.getMsbD_eq_getLsbD, Nat.sub_zero,
          show w - 1 = i by omega, decide_eq_true (by omega), Bool.true_and] at hmsb
  · rintro rfl
    exact shift_zero

theorem shift_injective : Function.Injective (shift poly) := by
  intro c c' h
  rw [← BitVec.xor_eq_zero_iff] at h ⊢
  rwa [← shift_xor, shift_eq_zero_iff hlow] at h

theorem iterate_shift_eq_zero_iff (n : ℕ) : (shift poly)^[n] c = 0#w ↔ c = 0#w := by
  constructor
  · intro h
    exact (shift_injective hlow).iterate n (h.trans (iterate_shift_zero n).symm)
  · rintro rfl
    exact iterate_shift_zero n

/-- **A string checks exactly when the last `w` bits are the register the others leave.** -/
theorem remainder_append_eq_zero_iff (hbits : bits'.length = w) :
    remainder poly c (bits ++ bits') = 0#w ↔ remainder poly c bits = pack w bits' := by
  rw [remainder_append, remainder_eq_iterate hbits.le, iterate_shift_eq_zero_iff hlow,
    BitVec.xor_eq_zero_iff]

theorem remainder_injective (bits : List Bool) :
    Function.Injective fun c => remainder poly c bits := by
  induction bits with
  | nil => exact Function.injective_id
  | cons b bits ih =>
    intro c c' h
    have hfeed := shift_injective hlow (ih h)
    cases b
    · exact hfeed
    · exact (BitVec.xor_left_inj _).mp hfeed

end Reversible

/-! ### Parity -/

/-- The number of set bits, modulo two. -/
def parity (c : BitVec w) : ZMod 2 :=
  ∑ i ∈ Finset.range w, if c.getLsbD i then 1 else 0

theorem parity_zero : parity 0#w = 0 := by
  simp [parity]

theorem parity_xor (c c' : BitVec w) : parity (c ^^^ c') = parity c + parity c' := by
  rw [parity, parity, parity, ← Finset.sum_add_distrib]
  refine Finset.sum_congr rfl fun i _ => ?_
  rw [BitVec.getLsbD_xor]
  cases c.getLsbD i <;> cases c'.getLsbD i <;> rfl

theorem parity_top (hw : 0 < w) : parity (top w) = 1 := by
  obtain ⟨n, rfl⟩ : ∃ n, w = n + 1 := ⟨w - 1, by omega⟩
  simp [parity, getLsbD_top]

/-- A shift loses the bit that falls out. -/
theorem parity_shiftLeft_one (c : BitVec w) :
    parity (c <<< 1) + (if c.msb then 1 else 0) = parity c := by
  cases w with
  | zero => simp [parity, BitVec.msb]
  | succ n =>
    rw [parity, Finset.sum_range_succ', parity, Finset.sum_range_succ]
    have hmsb : c.msb = c.getLsbD n := by simp [BitVec.msb, BitVec.getMsbD_eq_getLsbD]
    rw [hmsb]
    congr 1
    rw [show (c <<< 1).getLsbD 0 = false by simp, if_neg Bool.false_ne_true, add_zero]
    refine Finset.sum_congr rfl fun i hi => ?_
    have hi' := Finset.mem_range.mp hi
    simp [hi', Nat.lt_succ_of_lt hi']

/-- A round keeps the parity when the polynomial has an even number of terms. -/
theorem parity_shift (hpoly : parity poly = 1) (c : BitVec w) :
    parity (shift poly c) = parity c := by
  rw [← parity_shiftLeft_one c, shift]
  cases c.msb
  · exact (add_zero _).symm
  · rw [if_pos rfl, if_pos rfl, parity_xor, hpoly]

theorem parity_feed (hw : 0 < w) (hpoly : parity poly = 1) (c : BitVec w) (b : Bool) :
    parity (feed poly c b) = parity c + if b then 1 else 0 := by
  rw [feed, parity_shift hpoly]
  cases b
  · exact (add_zero _).symm
  · exact (parity_xor c (top w)).trans (congrArg _ (parity_top hw))

/-- **The register keeps the parity of what was fed.** -/
theorem parity_remainder (hw : 0 < w) (hpoly : parity poly = 1) (c : BitVec w)
    (bits : List Bool) : parity (remainder poly c bits) = parity c + bits.count true := by
  induction bits generalizing c with
  | nil => simp [remainder]
  | cons b bits ih =>
    rw [remainder_cons, ih, parity_feed hw hpoly, List.count_cons, Nat.cast_add, add_assoc,
      add_comm (bits.count true : ZMod 2)]
    cases b <;> rfl

/-! ### What is detected -/

/-- The number of places where two strings differ. -/
def distance (bits bits' : List Bool) : ℕ :=
  (bits.zipWith xor bits').count true

theorem distance_append {last last' : List Bool} (h : bits.length = bits'.length) :
    distance (bits ++ last) (bits' ++ last') = distance bits bits' + distance last last' := by
  rw [distance, List.zipWith_append h, List.count_append]
  rfl

/-- **Every odd number of wrong bits is detected.** -/
theorem remainder_ne_of_odd (hw : 0 < w) (hpoly : parity poly = 1)
    (h : bits.length = bits'.length) (hodd : Odd (distance bits bits')) :
    remainder poly c bits ≠ remainder poly c bits' := by
  rw [Ne, remainder_eq_iff h]
  intro hzero
  have hparity := parity_remainder hw hpoly 0#w (bits.zipWith xor bits')
  rw [hzero, parity_zero, zero_add, eq_comm, ZMod.natCast_eq_zero_iff_even] at hparity
  exact Nat.not_even_iff_odd.mpr hodd hparity

theorem remainder_replicate_false (n : ℕ) :
    remainder poly c (List.replicate n false) = (shift poly)^[n] c := by
  induction n generalizing c with
  | zero => rfl
  | succ n ih => exact ih

variable (bits) in
/-- The first set bit of a string. -/
theorem exists_of_count_pos (h : 0 < bits.count true) :
    ∃ n rest, bits = List.replicate n false ++ true :: rest ∧
      rest.count true + 1 = bits.count true := by
  induction bits with
  | nil => cases h
  | cons b bits ih =>
    cases b with
    | true => exact ⟨0, bits, rfl, (List.count_cons_self).symm⟩
    | false =>
      rw [List.count_cons_of_ne Bool.false_ne_true] at h ⊢
      obtain ⟨n, rest, hbits, hcount⟩ := ih h
      exact ⟨n + 1, rest, by rw [hbits]; rfl, hcount⟩

variable (bits) in
theorem eq_replicate_of_count_zero (h : bits.count true = 0) :
    bits = List.replicate bits.length false := by
  refine List.eq_replicate_of_mem fun b hb => ?_
  cases b
  · rfl
  · exact absurd hb (List.count_eq_zero.mp h)

/-- **Two wrong bits are detected** in strings shorter than the order of `x`. -/
theorem remainder_ne_of_two (hlow : poly.getLsbD 0 = true)
    (horder : ∀ n, 0 < n → n < bits.length → (shift poly)^[n] (top w) ≠ top w)
    (h : bits.length = bits'.length) (htwo : distance bits bits' = 2) :
    remainder poly c bits ≠ remainder poly c bits' := by
  rw [Ne, remainder_eq_iff h]
  obtain ⟨a, rest, hbits, hrest⟩ :=
    exists_of_count_pos (bits.zipWith xor bits') (by rw [← distance, htwo]; decide)
  rw [← distance, htwo, Nat.succ_inj] at hrest
  obtain ⟨b, last, rfl, hlast⟩ := exists_of_count_pos rest (by omega)
  have hzeros := eq_replicate_of_count_zero last (by omega)
  have hlength := congrArg List.length hbits
  simp only [List.length_zipWith, ← h, Nat.min_self, List.length_append, List.length_replicate,
    List.length_cons] at hlength
  rw [hbits, hzeros]
  rw [remainder_append, remainder_replicate_false, iterate_shift_zero, remainder_cons,
    remainder_append, remainder_replicate_false, remainder_cons, remainder_replicate_false,
    iterate_shift_eq_zero_iff hlow]
  -- The two bits leave the register zero only if the first one comes round to the top.
  intro hzero
  refine horder (b + 1) b.succ_pos (by omega) ?_
  have hfirst : feed poly 0#w true = shift poly (top w) := by
    rw [feed, if_pos rfl, BitVec.zero_xor]
  rwa [hfirst, ← Function.iterate_succ_apply, feed, if_pos rfl, shift_eq_zero_iff hlow,
    BitVec.xor_eq_zero_iff] at hzero

/-- **Every error within `w` adjacent bits is detected.** -/
theorem remainder_ne_of_burst (hlow : poly.getLsbD 0 = true) {burst burst' before after : List Bool}
    (hlength : burst.length ≤ w) (h : burst.length = burst'.length) (hne : burst ≠ burst') :
    remainder poly c (before ++ burst ++ after) ≠ remainder poly c (before ++ burst' ++ after) := by
  intro heq
  rw [remainder_append, remainder_append, remainder_append, remainder_append] at heq
  have hburst : remainder poly (remainder poly c before) burst
      = remainder poly (remainder poly c before) burst' := remainder_injective hlow after heq
  generalize remainder poly c before = d at hburst
  rw [remainder_eq_iterate hlength, remainder_eq_iterate (h.symm.trans_le hlength), ← h] at hburst
  have hpack := (shift_injective hlow).iterate _ hburst
  exact hne (pack_inj hlength h ((BitVec.xor_right_inj _).mp hpack))

end Crc
