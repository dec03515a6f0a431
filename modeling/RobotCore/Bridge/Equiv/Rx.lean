import RobotCore.Bridge.Rx
import RobotCore.Lib.Framing
import RobotCore.Protocol.Equiv.Codec
import Mathlib.Data.List.TakeWhile

/-!
# Framing of the serial stream

`rxScanner` says what `parse_rx_io` looks for at the front of its buffer: one byte of noise, a
frame, or a damaged one.  Whatever the reads, the parser cuts the stream like `rxScanner`, and
`RxLog.apply` is what it does with a piece (`Parses`, `readChunks_spec`).

* `readChunks_chunking`: how the stream is split into reads does not matter, the loop ends, and
  fewer than 48 bytes stay in the buffer.
* `losesNoFrame_iff`: an intact frame is lost exactly when it starts inside 33 bytes which the
  parser takes for an IMU frame of another version or without the valid flag.
-/

namespace RobotCore

open Scanner

/-! ### The scanner -/

/-- What the parser finds at the front of its buffer. -/
inductive RxEvent where
  | noise
  | unknownFrame
  | frame (call : RxCall)
  | statusCrcError
  | runtimeCrcError
  | imuVersionError
  | imuInvalidFlags
  | imuCrcError

/-- The whole frame is consumed, not only its first byte. -/
def RxEvent.accepted : RxEvent → Bool
  | .frame _ => true
  | .imuVersionError => true
  | .imuInvalidFlags => true
  | _ => false

/-- What a complete frame is. -/
def frameEvent (data : List UInt8) : RxEvent :=
  if data.getD 1 0 == kStatusV2Type then
    match parseBoardStatusV2 data with
    | some boardStatus => .frame (.boardStatus boardStatus)
    | none => .statusCrcError
  else if data.getD 2 0 == kRuntimeFrameNumber then
    match parseRuntimeV1 data with
    | some runtime => .frame (.runtime runtime)
    | none => .runtimeCrcError
  else if data.getD 3 0 != 0x02 then .imuVersionError
  else if data.getD 4 0 &&& 0x01 == 0 then .imuInvalidFlags
  else
    match parseImuV2 data with
    | some sample => .frame (.imu sample)
    | none => .imuCrcError

/-- What the two bytes after a frame head announce. -/
inductive RxHeader where
  | noise
  | unknownFrame
  | frame (length : ℕ)

def rxHeader (kind number : UInt8) : RxHeader :=
  if kind == kStatusV2Type then .frame kStatusV2FrameSize
  else if kind == kTelemetryType then
    if number == kImuFrameNumber then .frame kImuV2FrameSize
    else if number == kRuntimeFrameNumber then .frame kRuntimeV1FrameSize
    else .unknownFrame
  else .noise

/-- A frame of `length` bytes, once it is complete. -/
def nextFrame (b : List UInt8) (length : ℕ) : Option (ℕ × RxEvent) :=
  if b.length < length then none
  else
    let event := frameEvent (b.take length)
    some (if event.accepted then length else 1, event)

/-- The piece at the front of the buffer, or `none` while bytes are missing. -/
def rxNext (b : List UInt8) : Option (ℕ × RxEvent) :=
  if b = [] then none
  else if b.getD 0 0 != kFrameHead then some (1, .noise)
  else if b.length < 3 then none
  else
    match rxHeader (b.getD 1 0) (b.getD 2 0) with
    | .noise => some (1, .noise)
    | .unknownFrame => some (1, .unknownFrame)
    | .frame length => nextFrame b length

section Header

variable {b : List UInt8} {kind number : UInt8} {length n : ℕ} {e : RxEvent}

/-- A frame has room for the bytes the branches look at, and at most 48 bytes. -/
theorem rxHeader_length (h : rxHeader kind number = .frame length) : 5 ≤ length ∧ length ≤ 48 := by
  unfold rxHeader at h
  split_ifs at h <;> cases h <;> decide

theorem rxNext_noise (hb : b ≠ []) (h : b.getD 0 0 ≠ kFrameHead) :
    rxNext b = some (1, .noise) := by
  rw [rxNext, if_neg hb, if_pos (bne_iff_ne.mpr h)]

theorem rxNext_header (h : b.getD 0 0 = kFrameHead) (hlen : 3 ≤ b.length) :
    rxNext b =
      match rxHeader (b.getD 1 0) (b.getD 2 0) with
      | .noise => some (1, .noise)
      | .unknownFrame => some (1, .unknownFrame)
      | .frame length => nextFrame b length := by
  rw [rxNext, if_neg (List.ne_nil_of_length_pos (by omega)), if_neg (by simpa using h),
    if_neg (by omega)]

/-- A decision is either about a byte of noise or about a header. -/
theorem rxNext_cases (h : rxNext b = some (n, e)) :
    (b ≠ [] ∧ b.getD 0 0 ≠ kFrameHead ∧ n = 1 ∧ e = .noise) ∨
    (b.getD 0 0 = kFrameHead ∧ 3 ≤ b.length) := by
  unfold rxNext at h
  split_ifs at h with hb hhead hlen
  · obtain ⟨rfl, rfl⟩ := Prod.mk.inj (Option.some.inj h)
    exact Or.inl ⟨hb, bne_iff_ne.mp hhead, rfl, rfl⟩
  · exact Or.inr ⟨by simpa using hhead, by omega⟩

theorem nextFrame_length (hpos : 0 < length) (h : nextFrame b length = some (n, e)) :
    0 < n ∧ n ≤ b.length := by
  unfold nextFrame at h
  split at h
  · cases h
  · obtain ⟨rfl, -⟩ := Prod.mk.inj (Option.some.inj h)
    split <;> omega

theorem nextFrame_append {r : ℕ × RxEvent} (c : List UInt8) (h : nextFrame b length = some r) :
    nextFrame (b ++ c) length = some r := by
  unfold nextFrame at h ⊢
  split at h
  · cases h
  · rw [if_neg (by rw [List.length_append]; omega), List.take_append_of_le_length (by omega)]
    exact h

theorem rxNext_length (h : rxNext b = some (n, e)) : 0 < n ∧ n ≤ b.length := by
  obtain ⟨hb, -, rfl, -⟩ | ⟨hhead, hlen⟩ := rxNext_cases h
  · exact ⟨Nat.one_pos, List.length_pos_iff.mpr hb⟩
  · rw [rxNext_header hhead hlen] at h
    split at h
    · cases h
      omega
    · cases h
      omega
    · rename_i length hheader
      have := rxHeader_length hheader
      exact nextFrame_length (by omega) h

theorem getD_append_of_lt {c : List UInt8} {i : ℕ} (h : i < b.length) :
    (b ++ c).getD i 0 = b.getD i 0 := by
  simp [List.getD_eq_getElem?_getD, List.getElem?_append_left h]

/-- Bytes that arrive later do not change a decision. -/
theorem rxNext_append {r : ℕ × RxEvent} (c : List UInt8) (h : rxNext b = some r) :
    rxNext (b ++ c) = some r := by
  obtain ⟨n, e⟩ := r
  obtain ⟨hb, hhead, rfl, rfl⟩ | ⟨hhead, hlen⟩ := rxNext_cases h
  · refine rxNext_noise (by simp [hb]) ?_
    rwa [getD_append_of_lt (List.length_pos_iff.mpr hb)]
  · have hlen' : 3 ≤ (b ++ c).length := by
      rw [List.length_append]
      omega
    rw [rxNext_header hhead hlen] at h
    rw [rxNext_header (by rwa [getD_append_of_lt (by omega)]) hlen', getD_append_of_lt (by omega),
      getD_append_of_lt (by omega)]
    split at h
    · exact h
    · exact h
    · exact nextFrame_append c h

/-- The framing of the serial stream. -/
def rxScanner : Scanner UInt8 RxEvent where
  next := rxNext
  next_pos h := (rxNext_length h).1
  next_le h := (rxNext_length h).2
  next_append := rxNext_append

end Header

/-! ### What the parser does with a piece -/

/-- The handler calls and counters for a piece of the stream. -/
def RxLog.apply (log : RxLog) (x : Piece RxEvent) : RxLog :=
  match x.label with
  | .noise => log
  | .unknownFrame | .imuVersionError =>
    { log with counters.imuVersionErrors := log.counters.imuVersionErrors + 1 }
  | .frame (.imu sample) =>
    (handleImuIo (log.call x.offset x.length (.imu sample)) sample).1
  | .frame call => log.call x.offset x.length call
  | .statusCrcError =>
    { log with counters.statusCrcErrors := log.counters.statusCrcErrors + 1 }
  | .runtimeCrcError =>
    { log with counters.runtimeCrcErrors := log.counters.runtimeCrcErrors + 1 }
  | .imuInvalidFlags =>
    { log with counters.imuInvalidFlags := log.counters.imuInvalidFlags + 1 }
  | .imuCrcError => { log with counters.imuCrcErrors := log.counters.imuCrcErrors + 1 }

/-- The handler call of a piece. -/
def delivery? (x : Piece RxEvent) : Option Delivery :=
  match x.label with
  | .frame call => some ⟨x.offset, x.length, call⟩
  | _ => none

@[simp] theorem delivered_call (log : RxLog) (offset length : ℕ) (call : RxCall) :
    (log.call offset length call).delivered = log.delivered ++ [⟨offset, length, call⟩] := rfl

theorem trackCounter_delivered (log : RxLog) (sample : ImuFrame) :
    (trackCounter log sample).delivered = log.delivered := by
  unfold trackCounter
  dsimp only
  split_ifs <;> rfl

theorem handleImuIo_delivered (log : RxLog) (sample : ImuFrame) :
    (handleImuIo log sample).1.delivered = log.delivered :=
  trackCounter_delivered _ _

theorem delivered_apply (log : RxLog) (x : Piece RxEvent) :
    (log.apply x).delivered = log.delivered ++ (delivery? x).toList := by
  unfold RxLog.apply delivery?
  split <;> simp_all [handleImuIo_delivered]

theorem delivered_foldl (log : RxLog) (xs : List (Piece RxEvent)) :
    (xs.foldl RxLog.apply log).delivered = log.delivered ++ xs.filterMap delivery? := by
  induction xs generalizing log with
  | nil => simp
  | cons x xs ih =>
    rw [List.foldl_cons, ih, delivered_apply, List.filterMap_cons]
    cases delivery? x <;> simp

/-- A complete frame at the front of the buffer is handled as its event says. -/
theorem acceptFrame_eq (rx : Rx) {length : ℕ} (h : 5 ≤ length) :
    let event := frameEvent (rx.rxBuffer.take length)
    acceptFrame rx length =
      (rx.log.apply ⟨rx.consumed, if event.accepted then length else 1, event⟩,
        event.accepted) := by
  have hbyte : ∀ i < length, rx.byte i = (rx.rxBuffer.take length).getD i 0 := fun i hi => by
    simp [Rx.byte, List.getD_eq_getElem?_getD, List.getElem?_take_of_lt hi]
  unfold acceptFrame frameEvent
  rw [hbyte 1 (by omega), hbyte 2 (by omega), hbyte 3 (by omega), hbyte 4 (by omega)]
  generalize rx.rxBuffer.take length = data
  dsimp only
  cases data.getD 1 0 == kStatusV2Type with
  | true => cases parseBoardStatusV2 data <;> rfl
  | false =>
    cases data.getD 2 0 == kRuntimeFrameNumber with
    | true => cases parseRuntimeV1 data <;> rfl
    | false =>
      cases data.getD 3 0 != 0x02 with
      | true => rfl
      | false =>
        cases data.getD 4 0 &&& 0x01 == 0 with
        | true => rfl
        | false => cases parseImuV2 data <;> rfl

/-! ### The parser follows the scanner -/

/-- The parser has cut its part of the stream like the scanner, and kept the rest. -/
def Parses (start : RxLog) (bytes : List UInt8) (rx : Rx) : Prop :=
  ∃ xs, rxScanner.Cuts bytes xs rx.consumed ∧ rx.rxBuffer = bytes.drop rx.consumed ∧
    rx.log = xs.foldl RxLog.apply start

/-- Nothing but noise can be cut off the buffer. -/
def Settled (b : List UInt8) : Prop := b.length < 3 ∨ rxNext b = none

variable {start : RxLog} {bytes : List UInt8} {rx : Rx}

theorem parses_opened (rx : Rx) : Parses rx.opened.log [] rx.opened :=
  ⟨[], .start, rfl, rfl⟩

theorem Parses.append (h : Parses start bytes rx) (c : List UInt8) :
    Parses start (bytes ++ c) { rx with rxBuffer := rx.rxBuffer ++ c } := by
  obtain ⟨xs, hcuts, hbuffer, hlog⟩ := h
  refine ⟨xs, hcuts.append c, ?_, hlog⟩
  rw [List.drop_append_of_le_length hcuts.le_length, hbuffer]

/-- Handling the piece at the front of the buffer. -/
theorem Parses.cut (h : Parses start bytes rx) {n : ℕ} {e : RxEvent}
    (hnext : rxNext rx.rxBuffer = some (n, e)) :
    Parses start bytes ({ rx with log := rx.log.apply ⟨rx.consumed, n, e⟩ }.erase n) := by
  obtain ⟨xs, hcuts, hbuffer, hlog⟩ := h
  refine ⟨xs ++ [⟨rx.consumed, n, e⟩], .cut hcuts (hbuffer ▸ hnext), ?_, ?_⟩
  · simp only [Rx.erase]
    rw [hbuffer, List.drop_drop]
  · simp only [Rx.erase]
    rw [List.foldl_append, ← hlog]
    rfl

/-- The head search: everything before the first head is erased. -/
def Rx.seekHead (rx : Rx) : Rx :=
  rx.erase (rx.rxBuffer.takeWhile (· != kFrameHead)).length

theorem seekHead_rxBuffer (rx : Rx) :
    rx.seekHead.rxBuffer = rx.rxBuffer.dropWhile (· != kFrameHead) := by
  have h := List.takeWhile_append_dropWhile (p := (· != kFrameHead)) (l := rx.rxBuffer)
  calc rx.rxBuffer.drop (rx.rxBuffer.takeWhile (· != kFrameHead)).length
      = (rx.rxBuffer.takeWhile (· != kFrameHead) ++ rx.rxBuffer.dropWhile (· != kFrameHead)).drop
          (rx.rxBuffer.takeWhile (· != kFrameHead)).length := by rw [h]
    _ = rx.rxBuffer.dropWhile (· != kFrameHead) := List.drop_left

/-- After the head search the buffer is empty or starts with a head. -/
theorem getD_seekHead (h : 0 < rx.seekHead.rxBuffer.length) :
    rx.seekHead.rxBuffer.getD 0 0 = kFrameHead := by
  rw [seekHead_rxBuffer] at h ⊢
  have hne := List.length_pos_iff.mp h
  have hhead := List.head_dropWhile_not (· != kFrameHead) hne
  rw [List.getD_eq_getElem?_getD, ← List.head?_eq_getElem?, List.head?_eq_some_head hne]
  simpa using hhead

/-- The head search drops noise byte by byte. -/
theorem Parses.seekHead (h : Parses start bytes rx) : Parses start bytes rx.seekHead := by
  suffices hk : ∀ k ≤ (rx.rxBuffer.takeWhile (· != kFrameHead)).length,
      Parses start bytes (rx.erase k) from hk _ le_rfl
  intro k hk
  induction k with
  | zero => exact h
  | succ k ih =>
    have hlen := (List.takeWhile_prefix (l := rx.rxBuffer) (· != kFrameHead)).length_le
    have hnoise : rx.rxBuffer.getD k 0 ≠ kFrameHead := by
      have hmem := List.mem_takeWhile_imp (List.getElem_mem hk)
      rw [(List.takeWhile_prefix _).getElem hk] at hmem
      rw [List.getD_eq_getElem?_getD, List.getElem?_eq_getElem (by omega)]
      exact bne_iff_ne.mp hmem
    have hnext : rxNext (rx.erase k).rxBuffer = some (1, .noise) := by
      refine rxNext_noise (fun hnil => ?_) ?_
      · have := congrArg List.length hnil
        simp only [Rx.erase, List.length_drop, List.length_nil] at this
        omega
      · simpa [Rx.erase, List.getD_eq_getElem?_getD] using hnoise
    have hcut := (ih (by omega)).cut hnext
    simpa [Rx.erase, RxLog.apply, List.drop_drop, Nat.add_assoc] using hcut

/-- How an iteration ends, by what is at the front of the buffer after the head search. -/
inductive StepSpec (rx : Rx) : LoopStep → Prop
  | returned (hlen : rx.rxBuffer.length < 48) (h : Settled rx.rxBuffer) : StepSpec rx (.returned rx)
  | continued {n : ℕ} {e : RxEvent} (h : rxNext rx.rxBuffer = some (n, e)) :
    StepSpec rx (.continued ({ rx with log := rx.log.apply ⟨rx.consumed, n, e⟩ }.erase n))

theorem parseFrame_spec {length : ℕ} (h : 5 ≤ length ∧ length ≤ 48)
    (hnext : rxNext rx.rxBuffer = nextFrame rx.rxBuffer length) :
    StepSpec rx (parseFrame rx length) := by
  unfold parseFrame
  unfold nextFrame at hnext
  split
  · rw [if_pos ‹_›] at hnext
    exact .returned (by omega) (Or.inr hnext)
  · rw [if_neg ‹_›] at hnext
    rw [acceptFrame_eq rx h.1]
    exact .continued hnext

theorem parseStep_spec (rx : Rx) : StepSpec rx.seekHead (parseStep rx) := by
  have hhead : 0 < rx.seekHead.rxBuffer.length → rx.seekHead.rxBuffer.getD 0 0 = kFrameHead :=
    getD_seekHead
  unfold parseStep
  dsimp only
  rw [← Rx.seekHead]
  generalize rx.seekHead = rx at hhead ⊢
  split
  · exact .returned (by omega) (Or.inl ‹_›)
  · have hnext := rxNext_header (hhead (by omega)) (by omega)
    unfold rxHeader at hnext
    unfold Rx.byte
    cases hkind : rx.rxBuffer.getD 1 0 == kStatusV2Type <;> rw [hkind] at hnext
    case true => exact parseFrame_spec (by decide) hnext
    cases htelemetry : rx.rxBuffer.getD 1 0 == kTelemetryType <;> rw [htelemetry] at hnext
    case false => exact .continued hnext
    cases himu : rx.rxBuffer.getD 2 0 == kImuFrameNumber <;> rw [himu] at hnext
    case true => exact parseFrame_spec (by decide) hnext
    cases hruntime : rx.rxBuffer.getD 2 0 == kRuntimeFrameNumber <;> rw [hruntime] at hnext
    case true => exact parseFrame_spec (by decide) hnext
    exact .continued hnext

/-! ### The loop -/

/-- **Loop**: with more fuel than buffered bytes the loop ends with fewer than 48 bytes. -/
theorem parseLoop_spec (fuel : ℕ) (rx : Rx) (hfuel : rx.rxBuffer.length < fuel) :
    ∃ out left, parseLoop fuel rx = some (out, left) ∧ out.rxBuffer.length < 48 ∧
      Settled out.rxBuffer ∧
      ∀ start bytes, Parses start bytes rx → Parses start bytes out := by
  induction fuel generalizing rx with
  | zero => omega
  | succ fuel ih =>
    unfold parseLoop
    split
    · exact ⟨rx, true, rfl, by omega, Or.inl ‹_›, fun _ _ h => h⟩
    · have hspec := parseStep_spec rx
      generalize parseStep rx = step at hspec
      have hseek : rx.seekHead.rxBuffer.length ≤ rx.rxBuffer.length := by
        simp [Rx.seekHead, Rx.erase]
      cases hspec with
      | returned hlen hsettled =>
        exact ⟨rx.seekHead, false, rfl, hlen, hsettled, fun _ _ h => h.seekHead⟩
      | @continued n e hnext =>
        obtain ⟨hpos, hle⟩ := rxNext_length hnext
        obtain ⟨out, left, hout, hlen, hsettled, hparses⟩ :=
          ih ({ rx.seekHead with
            log := rx.seekHead.log.apply ⟨rx.seekHead.consumed, n, e⟩ }.erase n)
            (by simp only [Rx.erase, List.length_drop] at hseek ⊢; omega)
        exact ⟨out, left, hout, hlen, hsettled, fun _ _ h => hparses _ _ (h.seekHead.cut hnext)⟩

/-- Every call of the parser ends, with fewer than 48 bytes left, and the truncation has not
touched them. -/
theorem parseRxIo_spec (fuel : ℕ) (rx : Rx) (hfuel : rx.rxBuffer.length < fuel) :
    ∃ out left, parseLoop fuel rx = some (out, left) ∧ parseRxIo fuel rx = some out ∧
      out.rxBuffer.length < 48 ∧ Settled out.rxBuffer ∧
      ∀ start bytes, Parses start bytes rx → Parses start bytes out := by
  obtain ⟨out, left, hout, hlen, hsettled, hparses⟩ := parseLoop_spec fuel rx hfuel
  refine ⟨out, left, hout, ?_, hlen, hsettled, hparses⟩
  have htruncate : truncateBuffer out = out := if_neg (by omega)
  simp [parseRxIo, hout, htruncate]

/-- Every read is parsed. -/
theorem startReadIo_spec (h : Parses start bytes rx) (chunk : List UInt8) :
    ∃ out, startReadIo rx chunk = some out ∧ Settled out.rxBuffer ∧
      Parses start (bytes ++ chunk) out := by
  obtain ⟨out, left, -, hout, -, hsettled, hparses⟩ :=
    parseRxIo_spec _ { rx with rxBuffer := rx.rxBuffer ++ chunk } (Nat.lt_succ_self _)
  exact ⟨out, hout, hsettled, hparses _ _ (h.append chunk)⟩

/-- **The reads follow the scanner**, however the stream is split into them. -/
theorem readChunks_spec (chunks : List (List UInt8)) (h : Parses start bytes rx)
    (hsettled : Settled rx.rxBuffer) :
    ∃ out, readChunks rx chunks = some out ∧ Settled out.rxBuffer ∧
      Parses start (bytes ++ chunks.flatten) out := by
  induction chunks generalizing bytes rx with
  | nil => exact ⟨rx, rfl, hsettled, by simpa using h⟩
  | cons chunk chunks ih =>
    obtain ⟨mid, hmid, hmidSettled, hmidParses⟩ := startReadIo_spec h chunk
    obtain ⟨out, hout, houtSettled, houtParses⟩ := ih hmidParses hmidSettled
    refine ⟨out, ?_, houtSettled, by simpa using houtParses⟩
    rw [readChunks, List.foldlM_cons, hmid]
    exact hout

/-! ### Independence of the reads -/

/-- Only noise is cut off a settled buffer. -/
theorem noise_of_settled {b : List UInt8} (h : Settled b) {p : ℕ} {x : Piece RxEvent}
    (hx : x ∈ rxScanner.scan p b) : x.label = .noise := by
  obtain hlen | hnone := h
  · obtain ⟨k, hk⟩ := exists_next_of_mem_scan hx
    obtain ⟨-, -, -, hnoise⟩ | ⟨-, hlen'⟩ := rxNext_cases hk
    · exact hnoise
    · rw [List.length_drop] at hlen'
      omega
  · rw [scan_of_none hnone] at hx
    cases hx

theorem foldl_apply_noise (xs : List (Piece RxEvent)) (log : RxLog)
    (h : ∀ x ∈ xs, x.label = .noise) : xs.foldl RxLog.apply log = log := by
  induction xs with
  | nil => rfl
  | cons x xs ih =>
    rw [List.foldl_cons, RxLog.apply, h x List.mem_cons_self]
    exact ih fun y hy => h y (List.mem_cons_of_mem _ hy)

/-- What the reads have called and counted is what the scan of the stream yields. -/
theorem Parses.log_eq (h : Parses start bytes rx) (hsettled : Settled rx.rxBuffer) :
    rx.log = (rxScanner.scan 0 bytes).foldl RxLog.apply start := by
  obtain ⟨xs, hcuts, hbuffer, hlog⟩ := h
  rw [hcuts.scan_eq, List.foldl_append, ← hlog, ← hbuffer]
  exact (foldl_apply_noise _ _ fun x hx => noise_of_settled hsettled hx).symm

theorem settled_opened (rx : Rx) : Settled rx.opened.rxBuffer := Or.inl (by simp [Rx.opened])

/-- **Chunk independence.**  Two ways of splitting the stream into reads call the handlers with
the same frames in the same order and count the same errors; and every call of the parser ends
with fewer than 48 bytes, so that the truncation after the loop never changes the buffer. -/
theorem readChunks_chunking (rx : Rx) (chunks chunks' : List (List UInt8))
    (h : chunks.flatten = chunks'.flatten) :
    (∃ out out', readChunks rx.opened chunks = some out ∧
      readChunks rx.opened chunks' = some out' ∧ out.log = out'.log) ∧
    ∀ rx : Rx, ∃ out left, parseLoop (rx.rxBuffer.length + 1) rx = some (out, left) ∧
      out.rxBuffer.length < 48 ∧ parseRxIo (rx.rxBuffer.length + 1) rx = some out := by
  constructor
  · obtain ⟨out, hout, hsettled, hparses⟩ :=
      readChunks_spec chunks (parses_opened rx) (settled_opened rx)
    obtain ⟨out', hout', hsettled', hparses'⟩ :=
      readChunks_spec chunks' (parses_opened rx) (settled_opened rx)
    refine ⟨out, out', hout, hout', ?_⟩
    rw [hparses.log_eq hsettled, hparses'.log_eq hsettled', h]
  · intro rx
    obtain ⟨out, left, hloop, hparse, hlen, -, -⟩ := parseRxIo_spec _ rx (Nat.lt_succ_self _)
    exact ⟨out, left, hloop, hlen, hparse⟩

/-- A runtime frame of an idle board. -/
def idleRuntimeFrame : List UInt8 :=
  let body := [kFrameHead, kTelemetryType, kRuntimeFrameNumber, 0x01, 0x01] ++ List.replicate 30 0
  body ++ writeU16 (crc16Ccitt body)

theorem readChunks_chunking_idleRuntimeFrame :
    ∃ out out', readChunks ({} : Rx).opened [idleRuntimeFrame] = some out ∧
      readChunks ({} : Rx).opened [idleRuntimeFrame.take 2, idleRuntimeFrame.drop 2] = some out' ∧
      out.log = out'.log :=
  (readChunks_chunking {} [idleRuntimeFrame] [idleRuntimeFrame.take 2, idleRuntimeFrame.drop 2]
    (by simp)).1

/-! ### Intact frames -/

/-- The stream holds a frame which its own parser accepts. -/
inductive IntactFrame (bytes : List UInt8) : Delivery → Prop
  | boardStatus {i frame} (h : parseBoardStatusV2 ((bytes.drop i).take kStatusV2FrameSize) =
      some frame) : IntactFrame bytes ⟨i, kStatusV2FrameSize, .boardStatus frame⟩
  | runtime {i frame} (h : parseRuntimeV1 ((bytes.drop i).take kRuntimeV1FrameSize) =
      some frame) : IntactFrame bytes ⟨i, kRuntimeV1FrameSize, .runtime frame⟩
  | imu {i frame} (h : parseImuV2 ((bytes.drop i).take kImuV2FrameSize) = some frame) :
      IntactFrame bytes ⟨i, kImuV2FrameSize, .imu frame⟩

/-- No intact frame is lost: each one that overlaps no frame delivered before it has been
delivered, or is still in the buffer. -/
def LosesNoFrame (bytes : List UInt8) (rx : Rx) : Prop :=
  ∀ d, IntactFrame bytes d →
    (∀ e ∈ rx.log.delivered, e.offset < d.offset → e.offset + e.length ≤ d.offset) →
    d ∈ rx.log.delivered ∨ rx.consumed ≤ d.offset

/-- An IMU frame header with 33 bytes from it on, of another version or without the valid flag. -/
def refusedImu (b : List UInt8) : Bool :=
  kImuV2FrameSize ≤ b.length && b.getD 0 0 == kFrameHead && b.getD 1 0 == kTelemetryType &&
    b.getD 2 0 == kImuFrameNumber && (b.getD 3 0 != 0x02 || b.getD 4 0 &&& 0x01 == 0)

/-- No intact frame starts inside the 33 bytes from a refused IMU header the parser comes to. -/
def RefusesNoFrame (bytes : List UInt8) : Prop :=
  ∀ p, rxScanner.Visits bytes p → refusedImu (bytes.drop p) = true →
    ∀ d, IntactFrame bytes d → ¬ (p < d.offset ∧ d.offset < p + kImuV2FrameSize)

theorem getD_take {b : List UInt8} {i n : ℕ} (h : i < n) : (b.take n).getD i 0 = b.getD i 0 := by
  simp [List.getD_eq_getElem?_getD, List.getElem?_take_of_lt h]

/-- A complete frame under a known header. -/
theorem rxNext_frame {b : List UInt8} {length : ℕ} (hlen : (b.take length).length = length)
    (hhead : b.getD 0 0 = kFrameHead)
    (hheader : rxHeader (b.getD 1 0) (b.getD 2 0) = .frame length) :
    rxNext b = some (if (frameEvent (b.take length)).accepted then length else 1,
      frameEvent (b.take length)) := by
  have hbound := rxHeader_length hheader
  rw [List.length_take] at hlen
  rw [rxNext_header hhead (by omega), hheader]
  exact if_neg (by omega)

/-- The parser delivers an intact frame it comes to. -/
theorem rxNext_of_intactFrame {d : Delivery} (h : IntactFrame bytes d) :
    rxNext (bytes.drop d.offset) = some (d.length, .frame d.call) := by
  cases h with
  | @boardStatus i frame h =>
    obtain ⟨hlen, h0, h1⟩ := parseBoardStatusV2_header h
    have hevent : frameEvent ((bytes.drop i).take kStatusV2FrameSize) =
        .frame (.boardStatus frame) := by
      rw [frameEvent, h1, h]
      rfl
    rw [getD_take (by decide)] at h0 h1
    rw [rxNext_frame hlen h0 (by rw [h1]; rfl), hevent]
    rfl
  | @runtime i frame h =>
    obtain ⟨hlen, h0, h1, h2⟩ := parseRuntimeV1_header h
    have hevent : frameEvent ((bytes.drop i).take kRuntimeV1FrameSize) =
        .frame (.runtime frame) := by
      rw [frameEvent, h1, h2, h]
      rfl
    rw [getD_take (by decide)] at h0 h1 h2
    rw [rxNext_frame hlen h0 (by rw [h1, h2]; rfl), hevent]
    rfl
  | @imu i frame h =>
    obtain ⟨hlen, h0, h1, h2, h3, h4⟩ := parseImuV2_header h
    have hevent : frameEvent ((bytes.drop i).take kImuV2FrameSize) = .frame (.imu frame) := by
      rw [frameEvent, h1, h2, h3, if_neg (by decide), if_neg (by decide), if_neg (by decide),
        if_neg (by simpa using h4), h]
    rw [getD_take (by decide)] at h0 h1 h2
    rw [rxNext_frame hlen h0 (by rw [h1, h2]; rfl), hevent]
    rfl

/-- A refused IMU header is skipped with the 33 bytes from it on. -/
theorem rxNext_of_refusedImu {b : List UInt8} (h : refusedImu b = true) :
    ∃ e, rxNext b = some (kImuV2FrameSize, e) ∧ (e = .imuVersionError ∨ e = .imuInvalidFlags) := by
  simp only [refusedImu, Bool.and_eq_true, beq_iff_eq, decide_eq_true_eq] at h
  obtain ⟨⟨⟨⟨hlen, h0⟩, h1⟩, h2⟩, hrefused⟩ := h
  have htake : (b.take kImuV2FrameSize).length = kImuV2FrameSize := by
    rw [List.length_take]
    omega
  have hnext := rxNext_frame htake h0 (by rw [h1, h2]; rfl)
  have hevent : frameEvent (b.take kImuV2FrameSize) = .imuVersionError ∨
      frameEvent (b.take kImuV2FrameSize) = .imuInvalidFlags := by
    simp only [frameEvent]
    rw [getD_take (by decide), getD_take (by decide), getD_take (by decide),
      getD_take (by decide), h1, h2, if_neg (by decide), if_neg (by decide)]
    by_cases h3 : b.getD 3 0 != 0x02
    · exact Or.inl (if_pos h3)
    · rw [Bool.or_eq_true] at hrefused
      rw [if_neg h3, if_pos (hrefused.resolve_left h3)]
      exact Or.inr rfl
  refine ⟨_, ?_, hevent⟩
  rw [hnext]
  obtain h | h := hevent <;> rw [h] <;> rfl

/-- A decision at a header that is not about one byte is about a complete frame. -/
theorem rxNext_eq_frame {b : List UInt8} {n : ℕ} {e : RxEvent} (h : rxNext b = some (n, e))
    (hnoise : e ≠ .noise) (hunknown : e ≠ .unknownFrame) :
    b.getD 0 0 = kFrameHead ∧
      ∃ length, rxHeader (b.getD 1 0) (b.getD 2 0) = .frame length ∧ length ≤ b.length ∧
        e = frameEvent (b.take length) ∧ n = if e.accepted then length else 1 := by
  obtain ⟨-, -, -, rfl⟩ | ⟨hhead, hlen⟩ := rxNext_cases h
  · exact absurd rfl hnoise
  · rw [rxNext_header hhead hlen] at h
    split at h
    · exact absurd (Prod.mk.inj (Option.some.inj h)).2.symm hnoise
    · exact absurd (Prod.mk.inj (Option.some.inj h)).2.symm hunknown
    · rename_i length hheader
      unfold nextFrame at h
      split at h
      · cases h
      · obtain ⟨rfl, rfl⟩ := Prod.mk.inj (Option.some.inj h)
        exact ⟨hhead, length, hheader, by omega, rfl, rfl⟩

theorem rxHeader_imu {kind number : UInt8} {length : ℕ} (h : rxHeader kind number = .frame length)
    (hkind : kind ≠ kStatusV2Type) (hnumber : number ≠ kRuntimeFrameNumber) :
    kind = kTelemetryType ∧ number = kImuFrameNumber ∧ length = kImuV2FrameSize := by
  unfold rxHeader at h
  split_ifs at h with hstatus htelemetry himu hruntime
  · exact absurd (beq_iff_eq.mp hstatus) hkind
  · obtain rfl := RxHeader.frame.inj h
    exact ⟨beq_iff_eq.mp htelemetry, beq_iff_eq.mp himu, rfl⟩
  · exact absurd (beq_iff_eq.mp hruntime) hnumber

/-- Neither a status nor a runtime frame is refused before its CRC is checked. -/
theorem frameEvent_refused {data : List UInt8}
    (h : frameEvent data = .imuVersionError ∨ frameEvent data = .imuInvalidFlags) :
    data.getD 1 0 ≠ kStatusV2Type ∧ data.getD 2 0 ≠ kRuntimeFrameNumber ∧
      (data.getD 3 0 != 0x02 || data.getD 4 0 &&& 0x01 == 0) = true := by
  unfold frameEvent at h
  split_ifs at h with hstatus hruntime hversion hflags
  · cases hparse : parseBoardStatusV2 data <;> simp [hparse] at h
  · cases hparse : parseRuntimeV1 data <;> simp [hparse] at h
  · exact ⟨by simpa using hstatus, by simpa using hruntime, by rw [hversion]; rfl⟩
  · exact ⟨by simpa using hstatus, by simpa using hruntime, by rw [hflags, Bool.or_true]⟩
  · cases hparse : parseImuV2 data <;> simp [hparse] at h

/-- What the parser skips as a whole without delivering it is a refused IMU frame. -/
theorem refusedImu_of_rxNext {b : List UInt8} {n : ℕ} {e : RxEvent} (h : rxNext b = some (n, e))
    (he : e = .imuVersionError ∨ e = .imuInvalidFlags) :
    refusedImu b = true ∧ n = kImuV2FrameSize := by
  obtain ⟨hhead, length, hheader, hlen, rfl, hn⟩ := rxNext_eq_frame h
    (by rintro rfl; simp at he) (by rintro rfl; simp at he)
  have hbound := rxHeader_length hheader
  obtain ⟨hkind, hnumber, hrefused⟩ := frameEvent_refused he
  rw [getD_take (by omega)] at hkind hnumber
  rw [getD_take (by omega), getD_take (by omega)] at hrefused
  obtain ⟨h1, h2, rfl⟩ := rxHeader_imu hheader hkind hnumber
  constructor
  · simp only [refusedImu, Bool.and_eq_true, beq_iff_eq, decide_eq_true_eq]
    exact ⟨⟨⟨⟨hlen, hhead⟩, h1⟩, h2⟩, hrefused⟩
  · obtain he | he := he <;> rw [hn, he] <;> rfl

/-- A piece of more than a byte is a frame that is delivered or a refused IMU frame. -/
theorem event_of_one_lt {b : List UInt8} {n : ℕ} {e : RxEvent} (h : rxNext b = some (n, e))
    (hn : 1 < n) : (∃ call, e = .frame call) ∨ e = .imuVersionError ∨ e = .imuInvalidFlags := by
  obtain ⟨-, -, rfl, -⟩ | ⟨hhead, hlen⟩ := rxNext_cases h
  · omega
  · rw [rxNext_header hhead hlen] at h
    split at h
    · obtain ⟨rfl, -⟩ := Prod.mk.inj (Option.some.inj h)
      omega
    · obtain ⟨rfl, -⟩ := Prod.mk.inj (Option.some.inj h)
      omega
    · unfold nextFrame at h
      split at h
      · cases h
      · obtain ⟨rfl, rfl⟩ := Prod.mk.inj (Option.some.inj h)
        generalize frameEvent _ = event at hn ⊢
        cases event <;> simp [RxEvent.accepted] at hn ⊢

/-! ### Which frames are lost -/

theorem mem_delivered {xs : List (Piece RxEvent)} {log : RxLog} (hlog : log.delivered = [])
    {d : Delivery} : d ∈ (xs.foldl RxLog.apply log).delivered ↔
      ⟨d.offset, d.length, .frame d.call⟩ ∈ xs := by
  rw [delivered_foldl, hlog, List.nil_append, List.mem_filterMap]
  constructor
  · rintro ⟨⟨offset, length, label⟩, hx, hd⟩
    unfold delivery? at hd
    split at hd
    · obtain rfl := Option.some.inj hd
      simp_all
    · cases hd
  · exact fun h => ⟨_, h, rfl⟩

/-- **Resynchronisation.**  However the stream is read, the parser loses no intact frame exactly
when none starts inside the 33 bytes from a refused IMU header it comes to. -/
theorem losesNoFrame_iff (rx : Rx) (chunks : List (List UInt8)) :
    ∃ out, readChunks rx.opened chunks = some out ∧
      (LosesNoFrame chunks.flatten out ↔ RefusesNoFrame chunks.flatten) := by
  obtain ⟨out, hout, hsettled, xs, hcuts, hbuffer, hlog⟩ :=
    readChunks_spec chunks (parses_opened rx) (settled_opened rx)
  refine ⟨out, hout, ?_⟩
  rw [List.nil_append] at hcuts hbuffer
  generalize chunks.flatten = bytes at hcuts hbuffer ⊢
  have hmem : ∀ d, d ∈ out.log.delivered ↔ ⟨d.offset, d.length, .frame d.call⟩ ∈ xs := fun d => by
    rw [hlog]
    exact mem_delivered rfl
  constructor
  · intro hkept p hp hrefused d hd hinside
    obtain ⟨e, hnext, he⟩ := rxNext_of_refusedImu hrefused
    have hskipped : ⟨p, kImuV2FrameSize, e⟩ ∈ xs := by
      have := hp.mem_scan hnext
      rw [hcuts.scan_eq, ← hbuffer] at this
      refine (List.mem_append.mp this).resolve_right fun hrest => ?_
      obtain rfl := noise_of_settled hsettled hrest
      simp at he
    have hunique : ∀ y ∈ xs, y.offset ≤ d.offset → d.offset < y.stop → y.label = e :=
      fun y hy hle hlt => by
        rw [hcuts.eq_of_overlap hy hskipped ⟨hle, hlt⟩ ⟨hinside.1.le, hinside.2⟩]
    have hnoframe : ∀ call, RxEvent.frame call ≠ e := fun call => by
      rintro rfl
      simp at he
    -- No frame is delivered across the start of the skipped one, so it would have to be kept.
    have hclear : ∀ f ∈ out.log.delivered,
        f.offset < d.offset → f.offset + f.length ≤ d.offset := by
      intro f hf hlt
      by_contra hcross
      exact hnoframe _ (hunique _ ((hmem f).mp hf) hlt.le (not_le.mp hcross))
    obtain hdelivered | hbuffered := hkept d hd hclear
    · have hpos : 0 < d.length := rxScanner.next_pos (hcuts.next_of_mem ((hmem d).mp hdelivered))
      exact hnoframe _ (hunique _ ((hmem d).mp hdelivered) le_rfl (Nat.lt_add_of_pos_right hpos))
    · have hstop := hcuts.stop_le hskipped
      have := hinside.2
      simp only [Piece.stop] at hstop
      omega
  · intro hrefuses d hd hclear
    by_cases hlt : d.offset < out.consumed
    · left
      obtain ⟨⟨offset, length, label⟩, hx, hle, hstop⟩ := hcuts.exists_piece_of_lt hlt
      have hnext : rxNext (bytes.drop offset) = some (length, label) := hcuts.next_of_mem hx
      simp only [Piece.stop] at hle hstop
      obtain rfl | hlt := hle.eq_or_lt
      · rw [rxNext_of_intactFrame hd] at hnext
        obtain ⟨rfl, rfl⟩ := Prod.mk.inj (Option.some.inj hnext)
        exact (hmem d).mpr hx
      · obtain ⟨call, rfl⟩ | he := event_of_one_lt hnext (by omega)
        · have := hclear ⟨offset, length, call⟩ ((hmem _).mpr hx) hlt
          simp only at this
          omega
        · obtain ⟨hrefused, rfl⟩ := refusedImu_of_rxNext hnext he
          exact absurd ⟨hlt, hstop⟩ (hrefuses offset (hcuts.visits_of_mem hx) hrefused d hd)
    · exact Or.inr (by omega)

/-- Four bytes of an IMU header of version 1 take an intact runtime frame after them along. -/
theorem not_losesNoFrame_imuVersion :
    ¬ ∀ (rx : Rx) (chunks : List (List UInt8)),
      ∃ out, readChunks rx.opened chunks = some out ∧ LosesNoFrame chunks.flatten out := by
  intro h
  obtain ⟨out, hout, hkept⟩ :=
    h {} [[kFrameHead, kTelemetryType, kImuFrameNumber, 0x01] ++ idleRuntimeFrame]
  have hintact : IntactFrame
      [[kFrameHead, kTelemetryType, kImuFrameNumber, 0x01] ++ idleRuntimeFrame].flatten
      ⟨4, kRuntimeV1FrameSize, .runtime {}⟩ := .runtime (by decide +kernel)
  have hend : (readChunks ({} : Rx).opened
      [[kFrameHead, kTelemetryType, kImuFrameNumber, 0x01] ++ idleRuntimeFrame]).map
      (fun out => (out.consumed, out.log.delivered.length)) = some (41, 0) := by decide +kernel
  rw [hout] at hend
  obtain ⟨hconsumed, hdelivered⟩ := Prod.mk.inj (Option.some.inj hend)
  have hnone : out.log.delivered = [] := List.length_eq_zero_iff.mp hdelivered
  obtain hmem | hbuffered := hkept _ hintact (by simp [hnone])
  · simp [hnone] at hmem
  · simp only [hconsumed] at hbuffered
    omega

end RobotCore
