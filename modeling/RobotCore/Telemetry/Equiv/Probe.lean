import Mathlib.Data.List.Infix
import RobotCore.Lib.Framing
import RobotCore.Telemetry.Probe

/-!
# What the telemetry probe reports

`probeScanner` says what the probe looks for at the front of its buffer.  The probe searches the
whole buffer for a header instead, and keeps noise until it has too much of it; still it cuts the
stream like `probeScanner` (`Follows`, `measure_spec`).

* `measure_reports`: how the stream is split into reads does not matter, at most 48 bytes stay in
  the buffer, every frame reported is intact, and no intact frame is lost, as long as the reads are
  so short that the nested calls fit on the stack.
-/

namespace RobotCore.TelemetryProbe

open Scanner

variable {b c pattern : List UInt8} {kind : Kind} {length n i : ℕ}

/-! ### The scanner -/

/-- What the probe finds at the front of its buffer. -/
inductive Event where
  | noise
  | bad (kind : Kind)
  | frame (parsed : Parsed)

/-- A candidate of `length` bytes, once it is complete. -/
def candidateEvent (b : List UInt8) (kind : Kind) (length : ℕ) : Option (ℕ × Event) :=
  if b.length < length then none
  else
    match kind.parse (b.take length) with
    | .error _ => some (1, .bad kind)
    | .ok parsed => some (length, .frame parsed)

/-- The piece at the front of the buffer, or `none` while bytes are missing. -/
def probeNext (b : List UInt8) : Option (ℕ × Event) :=
  if statusHeader <+: b then candidateEvent b .status statusLen
  else if imuHeader <+: b then
    if b.length < 4 then none
    else
      match imuLengthByVersion (b.getD 3 0) with
      | none => some (1, .noise)
      | some length => candidateEvent b .imu length
  else if b <+: statusHeader ∨ b <+: imuHeader then none
  else some (1, .noise)

theorem imuLengthByVersion_bounds {version : UInt8} (h : imuLengthByVersion version = some length) :
    27 ≤ length ∧ length ≤ 33 := by
  unfold imuLengthByVersion at h
  split_ifs at h <;> cases h <;> decide

theorem candidateEvent_length {e : Event} (hpos : 0 < length)
    (h : candidateEvent b kind length = some (n, e)) : 0 < n ∧ n ≤ b.length := by
  unfold candidateEvent at h
  split_ifs at h with hlen
  split at h <;> (obtain ⟨rfl, -⟩ := Prod.mk.inj (Option.some.inj h); omega)

theorem candidateEvent_append {r : ℕ × Event} (c : List UInt8)
    (h : candidateEvent b kind length = some r) : candidateEvent (b ++ c) kind length = some r := by
  unfold candidateEvent at h ⊢
  split_ifs at h with hlen
  rw [if_neg (by rw [List.length_append]; omega), List.take_append_of_le_length (by omega)]
  exact h

theorem length_of_not_prefix (h : ¬ (b <+: statusHeader ∨ b <+: imuHeader)) : 0 < b.length :=
  List.length_pos_iff.mpr fun hnil => h (Or.inl (hnil ▸ List.nil_prefix))

theorem probeNext_length {e : Event} (h : probeNext b = some (n, e)) : 0 < n ∧ n ≤ b.length := by
  unfold probeNext at h
  split_ifs at h with hstatus himu hshort hwait
  · exact candidateEvent_length (by decide) h
  · split at h
    · obtain ⟨rfl, -⟩ := Prod.mk.inj (Option.some.inj h)
      omega
    · exact candidateEvent_length (by have := imuLengthByVersion_bounds ‹_›; omega) h
  · obtain ⟨rfl, -⟩ := Prod.mk.inj (Option.some.inj h)
    exact ⟨Nat.one_pos, length_of_not_prefix hwait⟩

/-- A header that is complete later is complete now, or nothing else has arrived yet. -/
theorem prefix_of_append (h : pattern <+: b ++ c) : pattern <+: b ∨ b <+: pattern :=
  List.prefix_or_prefix_of_prefix h (List.prefix_append b c)

theorem getD_append {k : ℕ} (h : k < b.length) : (b ++ c).getD k 0 = b.getD k 0 := by
  simp [List.getD_eq_getElem?_getD, List.getElem?_append_left h]

/-- Bytes that arrive later do not change a decision. -/
theorem probeNext_append {r : ℕ × Event} (c : List UInt8) (h : probeNext b = some r) :
    probeNext (b ++ c) = some r := by
  unfold probeNext at h
  split_ifs at h with hstatus himu hshort hwait
  · rw [probeNext, if_pos (hstatus.trans (List.prefix_append b c))]
    exact candidateEvent_append c h
  · have hnot : ¬ statusHeader <+: b ++ c := fun hc => by
      have := List.prefix_or_prefix_of_prefix hc (himu.trans (List.prefix_append b c))
      exact absurd this (by decide)
    rw [probeNext, if_neg hnot, if_pos (himu.trans (List.prefix_append b c)),
      if_neg (by rw [List.length_append]; omega), getD_append (by omega)]
    split at h
    · exact h
    · exact candidateEvent_append c h
  · have hnot : ∀ pattern, ¬ pattern <+: b → ¬ b <+: pattern → ¬ pattern <+: b ++ c :=
      fun _ h₁ h₂ hc => (prefix_of_append hc).elim h₁ h₂
    have hlong : ∀ pattern, ¬ b <+: pattern → ¬ b ++ c <+: pattern :=
      fun _ h₁ hc => h₁ ((List.prefix_append b c).trans hc)
    rw [not_or] at hwait
    rw [probeNext, if_neg (hnot _ hstatus hwait.1), if_neg (hnot _ himu hwait.2),
      if_neg (not_or.mpr ⟨hlong _ hwait.1, hlong _ hwait.2⟩)]
    exact h

/-- The framing of the stream by the probe. -/
def probeScanner : Scanner UInt8 Event where
  next := probeNext
  next_pos h := (probeNext_length h).1
  next_le h := (probeNext_length h).2
  next_append := probeNext_append

/-- What is neither noise nor waited for starts with a header. -/
theorem header_of_probeNext {e : Event} (h : probeNext b = some (n, e)) (he : e ≠ .noise) :
    statusHeader <+: b ∨ imuHeader <+: b := by
  by_contra hnot
  rw [not_or] at hnot
  rw [probeNext, if_neg hnot.1, if_neg hnot.2] at h
  split_ifs at h
  obtain ⟨-, rfl⟩ := Prod.mk.inj (Option.some.inj h)
  exact he rfl

theorem probeNext_noise (hstatus : ¬ statusHeader <+: b) (himu : ¬ imuHeader <+: b)
    (hlen : 3 ≤ b.length) : probeNext b = some (1, .noise) := by
  rw [probeNext, if_neg hstatus, if_neg himu, if_neg]
  rintro (h | h)
  · exact absurd h.length_le (by simp only [statusHeader, List.length_cons, List.length_nil]; omega)
  · have heq : b = imuHeader := h.eq_of_length_le (by simpa [imuHeader] using hlen)
    exact himu (heq ▸ List.prefix_refl _)

/-! ### Searching a header -/

theorem find_eq_none (hheader : pattern ≠ []) (h : find pattern b = none) (k : ℕ) :
    ¬ pattern <+: b.drop k := by
  induction b generalizing k with
  | nil => rwa [List.drop_nil, List.prefix_nil]
  | cons value rest ih =>
    rw [find] at h
    split_ifs at h with hprefix
    rw [Option.map_eq_none_iff] at h
    cases k with
    | zero => simpa using hprefix
    | succ k => exact ih h k

/-- The search stops at the first place where the header stands. -/
theorem find_eq_some (h : find pattern b = some i) :
    pattern <+: b.drop i ∧ ∀ k < i, ¬ pattern <+: b.drop k := by
  induction b generalizing i with
  | nil => cases h
  | cons value rest ih =>
    rw [find] at h
    split_ifs at h with hprefix
    · cases h
      exact ⟨by simpa using hprefix, fun k hk => absurd hk (Nat.not_lt_zero k)⟩
    · obtain ⟨j, hj, rfl⟩ := Option.map_eq_some_iff.mp h
      obtain ⟨hfound, hbefore⟩ := ih hj
      refine ⟨hfound, fun k hk => ?_⟩
      cases k with
      | zero => simpa using hprefix
      | succ k => exact hbefore k (Nat.lt_of_succ_lt_succ hk)

def Kind.header : Kind → List UInt8
  | .status => statusHeader
  | .imu => imuHeader

theorem firstStart_eq_none (h : firstStart b = none) (k : ℕ) :
    ¬ statusHeader <+: b.drop k ∧ ¬ imuHeader <+: b.drop k := by
  unfold firstStart at h
  split at h
  · exact ⟨find_eq_none (by decide) ‹_› k, find_eq_none (by decide) ‹_› k⟩
  all_goals cases h

theorem firstStart_eq_some (h : firstStart b = some (i, kind)) :
    kind.header <+: b.drop i ∧
      ∀ k < i, ¬ statusHeader <+: b.drop k ∧ ¬ imuHeader <+: b.drop k := by
  unfold firstStart at h
  split at h
  · cases h
  · rename_i hstatus himu
    obtain ⟨rfl, rfl⟩ := Prod.mk.inj (Option.some.inj h)
    obtain ⟨hfound, hbefore⟩ := find_eq_some hstatus
    exact ⟨hfound, fun k hk => ⟨hbefore k hk, find_eq_none (by decide) himu k⟩⟩
  · rename_i hstatus himu
    obtain ⟨rfl, rfl⟩ := Prod.mk.inj (Option.some.inj h)
    obtain ⟨hfound, hbefore⟩ := find_eq_some himu
    exact ⟨hfound, fun k hk => ⟨find_eq_none (by decide) hstatus k, hbefore k hk⟩⟩
  · rename_i hstatus himu
    obtain ⟨hfound₁, hbefore₁⟩ := find_eq_some hstatus
    obtain ⟨hfound₂, hbefore₂⟩ := find_eq_some himu
    split_ifs at h with hle <;> obtain ⟨rfl, rfl⟩ := Prod.mk.inj (Option.some.inj h)
    · exact ⟨hfound₂, fun k hk => ⟨hbefore₁ k (by omega), hbefore₂ k hk⟩⟩
    · exact ⟨hfound₁, fun k hk => ⟨hbefore₁ k hk, hbefore₂ k (by omega)⟩⟩

/-! ### What the probe does with a piece -/

/-- The counts and reports for a piece of the stream. -/
def Log.apply (log : Log) (x : Piece Event) : Log :=
  match x.label with
  | .noise => log
  | .bad kind => log.bad kind
  | .frame parsed => log.report ⟨x.offset, x.length, parsed⟩

/-- The report of a piece. -/
def report? (x : Piece Event) : Option Report :=
  match x.label with
  | .frame parsed => some ⟨x.offset, x.length, parsed⟩
  | _ => none

theorem reported_apply (log : Log) (x : Piece Event) :
    (log.apply x).reported = log.reported ++ (report? x).toList := by
  obtain ⟨offset, length, label⟩ := x
  cases label with
  | noise => simp [Log.apply, report?]
  | bad kind => cases kind <;> simp [Log.apply, report?, Log.bad]
  | frame parsed => rfl

theorem reported_foldl (log : Log) (xs : List (Piece Event)) :
    (xs.foldl Log.apply log).reported = log.reported ++ xs.filterMap report? := by
  induction xs generalizing log with
  | nil => simp
  | cons x xs ih =>
    rw [List.foldl_cons, ih, reported_apply, List.filterMap_cons]
    cases report? x <;> simp

theorem mem_reported {xs : List (Piece Event)} {r : Report} :
    r ∈ (xs.foldl Log.apply {}).reported ↔ ⟨r.offset, r.length, .frame r.frame⟩ ∈ xs := by
  rw [reported_foldl, List.nil_append, List.mem_filterMap]
  constructor
  · rintro ⟨⟨offset, length, label⟩, hx, hr⟩
    cases label with
    | frame parsed =>
      obtain rfl := Option.some.inj hr
      exact hx
    | _ => cases hr
  · exact fun h => ⟨_, h, rfl⟩

/-- Pieces of noise leave nothing behind. -/
theorem foldl_apply_noise {xs : List (Piece Event)} (h : ∀ x ∈ xs, x.label = .noise) (log : Log) :
    xs.foldl Log.apply log = log := by
  induction xs with
  | nil => rfl
  | cons x xs ih =>
    have hx : log.apply x = log := by rw [Log.apply, h x List.mem_cons_self]
    rw [List.foldl_cons, hx]
    exact ih fun y hy => h y (List.mem_cons_of_mem _ hy)

/-! ### The probe follows the scanner -/

/-- The probe has cut its part of the stream like the scanner, and kept the rest. -/
def Follows (bytes : List UInt8) (probe : Probe) : Prop :=
  ∃ xs, probeScanner.Cuts bytes xs probe.consumed ∧ probe.buffer = bytes.drop probe.consumed ∧
    probe.log = xs.foldl Log.apply {} ∧ probe.bytes = bytes.length

/-- Nothing but noise can be cut off the buffer. -/
def Settled (b : List UInt8) : Prop :=
  ∀ p, ∀ x ∈ probeScanner.scan p b, x.label = .noise

variable {bytes : List UInt8} {probe : Probe} {limit : ℕ}

theorem follows_start : Follows [] {} := ⟨[], .start, rfl, rfl, rfl⟩

theorem Follows.append (h : Follows bytes probe) (c : List UInt8) :
    Follows (bytes ++ c)
      { probe with buffer := probe.buffer ++ c, bytes := probe.bytes + c.length } := by
  obtain ⟨xs, hcuts, hbuffer, hlog, hbytes⟩ := h
  refine ⟨xs, hcuts.append c, ?_, hlog, ?_⟩
  · rw [List.drop_append_of_le_length hcuts.le_length, hbuffer]
  · rw [List.length_append, hbytes]

/-- Handling the piece at the front of the buffer. -/
theorem Follows.cut (h : Follows bytes probe) {e : Event}
    (hnext : probeNext probe.buffer = some (n, e)) :
    Follows bytes ({ probe with log := probe.log.apply ⟨probe.consumed, n, e⟩ }.delete n) := by
  obtain ⟨xs, hcuts, hbuffer, hlog, hbytes⟩ := h
  refine ⟨xs ++ [⟨probe.consumed, n, e⟩], .cut hcuts (hbuffer ▸ hnext), ?_, ?_, hbytes⟩
  · simp only [Probe.delete]
    rw [hbuffer, List.drop_drop]
  · simp only [Probe.delete]
    rw [List.foldl_append, ← hlog]
    rfl

/-- Deleting bytes before the first header deletes noise. -/
theorem Follows.delete (h : Follows bytes probe) (hlen : n + 2 ≤ probe.buffer.length ∨ n = 0)
    (hnoise : ∀ k < n,
      ¬ statusHeader <+: probe.buffer.drop k ∧ ¬ imuHeader <+: probe.buffer.drop k) :
    Follows bytes (probe.delete n) := by
  induction n with
  | zero => exact h
  | succ n ih =>
    have hnext : probeNext (probe.delete n).buffer = some (1, .noise) :=
      probeNext_noise (hnoise n (Nat.lt_succ_self n)).1 (hnoise n (Nat.lt_succ_self n)).2 (by
        rw [Probe.delete, List.length_drop]
        omega)
    have hcut := (ih (by omega) fun k hk => hnoise k (by omega)).cut hnext
    simpa [Probe.delete, Log.apply, List.drop_drop, Nat.add_assoc] using hcut

/-- A buffer without a header is settled. -/
theorem settled_of_noHeader (h : firstStart b = none) : Settled b := by
  intro p x hx
  obtain ⟨k, hk⟩ := exists_next_of_mem_scan hx
  by_contra hlabel
  obtain ⟨hstatus, himu⟩ := firstStart_eq_none h k
  exact (header_of_probeNext hk hlabel).elim hstatus himu

theorem settled_of_wait (h : probeNext b = none) : Settled b := by
  intro p x hx
  rw [scan_of_none (S := probeScanner) h] at hx
  cases hx

/-! ### The search for a frame -/

/-- A search ends with a candidate at the front of the buffer, or with a short buffer that holds
no complete frame. -/
inductive Found (b : List UInt8) : Option Candidate → Prop
  | wait (hlen : b.length ≤ statusLen) (h : Settled b) : Found b none
  | candidate {k : Kind} {m : ℕ} (hlen : m ≤ b.length)
      (h : probeNext b = candidateEvent b k m) : Found b (some ⟨k, b.take m⟩)

theorem found_complete (hbound : length ≤ statusLen)
    (h : probeNext b = candidateEvent b kind length) : Found b (complete b kind length) := by
  unfold complete
  split_ifs with hlen
  · exact .wait (by omega) (settled_of_wait (by rw [h, candidateEvent, if_pos hlen]))
  · exact .candidate (by omega) h

/-- The next header after an IMU header is at least three bytes further on. -/
theorem next_start (himu : imuHeader <+: b) (h : firstStart (b.drop 1) = some (i, kind)) :
    2 ≤ i := by
  obtain ⟨rest, rfl⟩ := himu
  obtain ⟨hfound, -⟩ := firstStart_eq_some h
  by_contra hlt
  obtain rfl | rfl : i = 0 ∨ i = 1 := by omega
  all_goals
    cases kind <;> simp [Kind.header, imuHeader, statusHeader] at hfound

/-- **Search**: a limit of a third of the bytes from the first header on is enough. -/
theorem nextFrame_spec (probe : Probe) (hpos : 0 < limit)
    (hlimit : ∀ start kind, firstStart probe.buffer = some (start, kind) →
      probe.buffer.length ≤ start + 3 * limit) :
    ∃ out candidate, nextFrame limit probe = some (out, candidate) ∧
      Found out.buffer candidate ∧ out.buffer.length ≤ probe.buffer.length ∧
      ∀ bytes, Follows bytes probe → Follows bytes out := by
  induction limit generalizing probe with
  | zero => omega
  | succ limit ih =>
    rw [nextFrame]
    cases hstart : firstStart probe.buffer with
    | none =>
      refine ⟨_, none, rfl, ?_⟩
      -- no header: all but the last bytes are noise
      have hnone := firstStart_eq_none hstart
      split_ifs with hlong
      · refine ⟨.wait (by simp only [Probe.delete, List.length_drop, statusLen]; omega) ?_,
          by rw [Probe.delete, List.length_drop]; omega,
          fun bytes h => h.delete (by omega) fun k _ => hnone k⟩
        intro p x hx
        obtain ⟨k, hk⟩ := exists_next_of_mem_scan hx
        by_contra hlabel
        rw [Probe.delete, List.drop_drop] at hk
        exact (header_of_probeNext hk hlabel).elim (hnone _).1 (hnone _).2
      · exact ⟨.wait (by omega) (settled_of_noHeader hstart), le_rfl, fun _ h => h⟩
    | some first =>
      obtain ⟨start, kind⟩ := first
      obtain ⟨hheader, hnoise⟩ := firstStart_eq_some hstart
      have hlen := hheader.length_le
      have hbound := hlimit start kind hstart
      -- the bytes before the header are noise, and the header stays
      have hfollows : ∀ bytes, Follows bytes probe → Follows bytes (probe.delete start) :=
        fun bytes h => h.delete (by
          have : 2 ≤ kind.header.length := by cases kind <;> decide
          rw [List.length_drop] at hlen
          omega) hnoise
      have hle : (probe.delete start).buffer.length ≤ probe.buffer.length := by
        rw [Probe.delete, List.length_drop]
        omega
      dsimp only
      change kind.header <+: (probe.delete start).buffer at hheader
      have hrest : (probe.delete start).buffer.length ≤ 3 * (limit + 1) := by
        rw [Probe.delete, List.length_drop]
        omega
      generalize probe.delete start = trimmed at hheader hfollows hle hrest ⊢
      cases kind with
      | status =>
        -- a status frame has one length
        exact ⟨trimmed, _, rfl, found_complete le_rfl (if_pos hheader), hle, hfollows⟩
      | imu =>
        have hnot : ¬ statusHeader <+: trimmed.buffer := fun h =>
          absurd (List.prefix_or_prefix_of_prefix h hheader) (by decide)
        have hnext := (probeNext.eq_1 trimmed.buffer).trans ((if_neg hnot).trans (if_pos hheader))
        dsimp only
        -- an imu frame needs its version to have a length
        split_ifs with hshort
        · rw [if_pos hshort] at hnext
          exact ⟨trimmed, none, rfl,
            .wait (by simp only [statusLen]; omega) (settled_of_wait hnext), hle, hfollows⟩
        rw [if_neg hshort] at hnext
        cases hversion : imuLengthByVersion (trimmed.buffer.getD 3 0) with
        | some length =>
          rw [hversion] at hnext
          have := imuLengthByVersion_bounds hversion
          exact ⟨trimmed, _, rfl, found_complete (by simp only [statusLen]; omega) hnext, hle,
            hfollows⟩
        | none =>
          rw [hversion] at hnext
          -- an unknown version is noise: cut one byte and go on, with one level of recursion less
          obtain ⟨out, candidate, hout, hfound, hlength, hkeeps⟩ :=
            ih (trimmed.delete 1) (by omega) fun start kind h => by
              have := next_start hheader h
              rw [Probe.delete, List.length_drop]
              omega
          refine ⟨out, candidate, hout, hfound, ?_, fun bytes h => hkeeps bytes ?_⟩
          · rw [Probe.delete, List.length_drop] at hlength
            omega
          · exact (hfollows bytes h).cut hnext

/-! ### The loop -/

/-- The candidate is handled as the piece at the front of the buffer. -/
theorem handle_spec {k : Kind} {m : ℕ} (hlen : m ≤ probe.buffer.length)
    (hnext : probeNext probe.buffer = candidateEvent probe.buffer k m) :
    ∃ n e, probeNext probe.buffer = some (n, e) ∧
      probe.handle ⟨k, probe.buffer.take m⟩ =
        ({ probe with log := probe.log.apply ⟨probe.consumed, n, e⟩ }.delete n) := by
  rw [candidateEvent, if_neg (by omega)] at hnext
  rw [Probe.handle]
  cases hparse : k.parse (probe.buffer.take m) with
  | error _ =>
    simp only [hparse] at hnext ⊢
    exact ⟨1, .bad k, hnext, rfl⟩
  | ok parsed =>
    simp only [hparse] at hnext ⊢
    refine ⟨m, .frame parsed, hnext, ?_⟩
    rw [List.length_take, Nat.min_eq_left hlen]
    rfl

/-- **Loop**: with more fuel than buffered bytes the loop ends with at most 48 bytes. -/
theorem handleFrames_spec (fuel : ℕ) (probe : Probe) (hpos : 0 < limit)
    (hfuel : probe.buffer.length < fuel) (hlimit : probe.buffer.length ≤ 3 * limit) :
    ∃ out, handleFrames limit fuel probe = some out ∧ out.buffer.length ≤ statusLen ∧
      Settled out.buffer ∧ ∀ bytes, Follows bytes probe → Follows bytes out := by
  induction fuel generalizing probe with
  | zero => omega
  | succ fuel ih =>
    obtain ⟨found, candidate, hfound, hspec, hle, hkeeps⟩ :=
      nextFrame_spec probe hpos fun start kind _ => by omega
    rw [handleFrames, hfound]
    cases hspec with
    | wait hlen hsettled => exact ⟨found, rfl, hlen, hsettled, hkeeps⟩
    | @candidate k m hlen hnext =>
      obtain ⟨n, e, hcut, hhandle⟩ := handle_spec hlen hnext
      have hn := probeNext_length hcut
      dsimp only
      rw [hhandle]
      obtain ⟨out, hout, hshort, hsettled, hfollows⟩ :=
        ih ({ found with log := found.log.apply ⟨found.consumed, n, e⟩ }.delete n)
          (by simp only [Probe.delete, List.length_drop]; omega)
          (by simp only [Probe.delete, List.length_drop]; omega)
      exact ⟨out, hout, hshort, hsettled,
        fun bytes h => hfollows bytes ((hkeeps bytes h).cut hcut)⟩

/-! ### Reads -/

/-- Every read so short that the nested calls fit on the stack is handled. -/
theorem measure_spec (chunks : List (List UInt8)) (hpos : 0 < limit)
    (hsmall : ∀ chunk ∈ chunks, chunk.length + statusLen ≤ 3 * limit)
    (hprobe : Follows bytes probe) (hshort : probe.buffer.length ≤ statusLen)
    (hsettled : Settled probe.buffer) :
    ∃ out, chunks.foldlM (readChunk limit) probe = some out ∧
      Follows (bytes ++ chunks.flatten) out ∧ out.buffer.length ≤ statusLen ∧
      Settled out.buffer := by
  induction chunks generalizing bytes probe with
  | nil => exact ⟨probe, rfl, by simpa using hprobe, hshort, hsettled⟩
  | cons chunk chunks ih =>
    have hrest : ∀ c ∈ chunks, c.length + statusLen ≤ 3 * limit :=
      fun c hc => hsmall c (List.mem_cons_of_mem _ hc)
    rw [List.foldlM_cons, readChunk, List.flatten_cons, ← List.append_assoc]
    split_ifs with hempty
    · obtain rfl := List.isEmpty_iff.mp hempty
      rw [List.append_nil]
      exact ih hrest hprobe hshort hsettled
    · have hchunk := hsmall chunk List.mem_cons_self
      obtain ⟨next, hnext, hshort', hsettled', hfollows⟩ :=
        handleFrames_spec ((probe.buffer ++ chunk).length + 1)
          { probe with
            buffer := probe.buffer ++ chunk, bytes := probe.bytes + chunk.length } hpos
          (Nat.lt_succ_self _)
          (by rw [List.length_append]; omega)
      dsimp only
      rw [hnext]
      exact ih hrest (hfollows _ (hprobe.append chunk)) hshort' hsettled'

/-- The log of a settled probe is that of the scan of the whole stream. -/
theorem Follows.log_eq (h : Follows bytes probe) (hsettled : Settled probe.buffer) :
    probe.log = (probeScanner.scan 0 bytes).foldl Log.apply {} := by
  obtain ⟨xs, hcuts, hbuffer, hlog, -⟩ := h
  rw [hcuts.scan_eq, List.foldl_append, ← hlog, ← hbuffer,
    foldl_apply_noise (hsettled probe.consumed)]

/-! ### Intact frames -/

/-- The stream holds a frame which its own parser accepts. -/
structure IntactFrame (bytes : List UInt8) (r : Report) : Prop where
  whole : r.offset + r.length ≤ bytes.length
  parses : ∃ kind : Kind, kind.parse ((bytes.drop r.offset).take r.length) = .ok r.frame

theorem parseStatus_header {frame : List UInt8} {status : Status}
    (h : parseStatus frame = .ok status) :
    frame.length = statusLen ∧ frame.take 2 = statusHeader := by
  unfold parseStatus at h
  split_ifs at h with hheader
  simp only [not_or, not_not] at hheader
  exact ⟨hheader.1, hheader.2.1⟩

theorem parseImu_header {frame : List UInt8} {imu : Imu} (h : parseImu frame = .ok imu) :
    4 ≤ frame.length ∧ frame.take 3 = imuHeader ∧
      imuLengthByVersion (frame.getD 3 0) = some frame.length := by
  unfold parseImu at h
  split_ifs at h with hheader hlength
  rw [not_or, not_not, not_lt] at hheader
  exact ⟨hheader.1, hheader.2, (not_not.mp hlength).symm⟩

theorem map_eq_ok {ε α β : Type} {f : α → β} {x : Except ε α} {y : β} (h : x.map f = .ok y) :
    ∃ a, x = .ok a ∧ f a = y := by
  cases x with
  | error e => cases h
  | ok a => exact ⟨a, rfl, Except.ok.inj h⟩

theorem prefix_of_take {m k : ℕ} (h : (b.take m).take k = pattern) : pattern <+: b := by
  rw [← h, List.take_take]
  exact List.take_prefix _ _

/-- A candidate at the front that its parser accepts is the next piece. -/
theorem probeNext_of_parse {parsed : Parsed} (hlen : n ≤ b.length)
    (h : kind.parse (b.take n) = .ok parsed) : probeNext b = some (n, .frame parsed) := by
  have htake : (b.take n).length = n := by rw [List.length_take, Nat.min_eq_left hlen]
  have hevent : candidateEvent b kind n = some (n, .frame parsed) := by
    rw [candidateEvent, if_neg (by omega), h]
  cases kind with
  | status =>
    obtain ⟨status, hstatus, -⟩ := map_eq_ok h
    obtain ⟨hlength, hheader⟩ := parseStatus_header hstatus
    rw [htake] at hlength
    rw [probeNext, if_pos (prefix_of_take hheader), ← hlength, hevent]
  | imu =>
    obtain ⟨imu, himu, -⟩ := map_eq_ok h
    obtain ⟨hfour, hheader, hversion⟩ := parseImu_header himu
    rw [htake] at hfour hversion
    have hprefix := prefix_of_take hheader
    have hgetD : (b.take n).getD 3 0 = b.getD 3 0 := by
      simp [List.getD_eq_getElem?_getD, List.getElem?_take_of_lt (show 3 < n by omega)]
    rw [hgetD] at hversion
    rw [probeNext, if_neg fun hstatus =>
        absurd (List.prefix_or_prefix_of_prefix hstatus hprefix) (by decide), if_pos hprefix,
      if_neg (by omega), hversion]
    exact hevent

theorem candidateEvent_frame {parsed : Parsed}
    (h : candidateEvent b kind length = some (n, .frame parsed)) :
    n ≤ b.length ∧ kind.parse (b.take n) = .ok parsed := by
  unfold candidateEvent at h
  split_ifs at h with hlen
  split at h
  · cases h
  · rename_i hparse
    obtain ⟨rfl, heq⟩ := Prod.mk.inj (Option.some.inj h)
    obtain rfl := Event.frame.inj heq
    exact ⟨by omega, hparse⟩

/-- A piece that is a frame has been accepted by its parser. -/
theorem parse_of_probeNext {parsed : Parsed} (h : probeNext b = some (n, .frame parsed)) :
    n ≤ b.length ∧ ∃ kind : Kind, kind.parse (b.take n) = .ok parsed := by
  unfold probeNext at h
  split_ifs at h with hstatus himu
  · obtain ⟨hlen, hparse⟩ := candidateEvent_frame h
    exact ⟨hlen, _, hparse⟩
  · split at h
    · cases (Prod.mk.inj (Option.some.inj h)).2
    · obtain ⟨hlen, hparse⟩ := candidateEvent_frame h
      exact ⟨hlen, _, hparse⟩
  · cases (Prod.mk.inj (Option.some.inj h)).2

/-- A piece of more than a byte is a frame. -/
theorem frame_of_one_lt {e : Event} (h : probeNext b = some (n, e)) (hn : 1 < n) :
    ∃ parsed, e = .frame parsed := by
  have hcandidate : ∀ {kind m}, candidateEvent b kind m = some (n, e) →
      ∃ parsed, e = .frame parsed := by
    intro kind m hevent
    unfold candidateEvent at hevent
    split_ifs at hevent
    split at hevent <;> obtain ⟨rfl, rfl⟩ := Prod.mk.inj (Option.some.inj hevent)
    · omega
    · exact ⟨_, rfl⟩
  unfold probeNext at h
  split_ifs at h
  · exact hcandidate h
  · split at h
    · obtain ⟨rfl, -⟩ := Prod.mk.inj (Option.some.inj h)
      omega
    · exact hcandidate h
  · obtain ⟨rfl, -⟩ := Prod.mk.inj (Option.some.inj h)
    omega

/-! ### What is reported -/

/-- What the probe says of a stream it has read. -/
structure Reports (bytes : List UInt8) (probe : Probe) : Prop where
  short : probe.buffer.length ≤ statusLen
  rest : probe.buffer = bytes.drop probe.consumed
  counted : probe.bytes = bytes.length
  intact : ∀ r ∈ probe.log.reported, IntactFrame bytes r
  apart : probe.log.reported.Pairwise fun r r' => r.offset + r.length ≤ r'.offset
  complete : ∀ r, IntactFrame bytes r → r ∈ probe.log.reported ∨
    (∃ r' ∈ probe.log.reported, r'.offset < r.offset ∧ r.offset < r'.offset + r'.length) ∨
      probe.consumed ≤ r.offset

theorem pairwise_reported {xs : List (Piece Event)} {p : ℕ}
    (h : probeScanner.Cuts bytes xs p) :
    (xs.foldl Log.apply {}).reported.Pairwise fun r r' => r.offset + r.length ≤ r'.offset := by
  rw [reported_foldl, List.nil_append, List.pairwise_filterMap]
  refine h.pairwise.imp fun {x y} hxy r hr r' hr' => ?_
  have hreport : ∀ {z : Piece Event} {r : Report}, report? z = some r →
      r.offset = z.offset ∧ r.length = z.length := by
    intro z r hz
    unfold report? at hz
    split at hz
    · obtain rfl := Option.some.inj hz
      exact ⟨rfl, rfl⟩
    · cases hz
  obtain ⟨hoffset, hlength⟩ := hreport hr
  obtain ⟨hoffset', -⟩ := hreport hr'
  rw [hoffset, hlength, hoffset']
  exact hxy

theorem reports_of_follows (h : Follows bytes probe) (hshort : probe.buffer.length ≤ statusLen) :
    Reports bytes probe := by
  obtain ⟨xs, hcuts, hbuffer, hlog, hbytes⟩ := h
  have hmem : ∀ r, r ∈ probe.log.reported ↔ ⟨r.offset, r.length, .frame r.frame⟩ ∈ xs := by
    intro r
    rw [hlog, mem_reported]
  refine ⟨hshort, hbuffer, hbytes, fun r hr => ?_, hlog ▸ pairwise_reported hcuts, fun r hr => ?_⟩
  · have hnext := hcuts.next_of_mem ((hmem r).mp hr)
    obtain ⟨hlen, hparse⟩ := parse_of_probeNext hnext
    have hpos := probeScanner.next_pos hnext
    rw [List.length_drop] at hlen
    dsimp only at hlen hpos
    exact ⟨by omega, hparse⟩
  · by_cases hlt : r.offset < probe.consumed
    · obtain ⟨⟨offset, length, label⟩, hx, hle, hstop⟩ := hcuts.exists_piece_of_lt hlt
      have hnext : probeNext (bytes.drop offset) = some (length, label) := hcuts.next_of_mem hx
      simp only [Piece.stop] at hle hstop
      obtain rfl | hlt := hle.eq_or_lt
      · obtain ⟨kind, hparse⟩ := hr.parses
        have hwhole := hr.whole
        rw [probeNext_of_parse (by rw [List.length_drop]; omega) hparse] at hnext
        obtain ⟨rfl, rfl⟩ := Prod.mk.inj (Option.some.inj hnext)
        exact Or.inl ((hmem r).mpr hx)
      · -- only a frame takes more than one byte along
        obtain ⟨parsed, rfl⟩ := frame_of_one_lt hnext (by omega)
        exact Or.inr (Or.inl ⟨⟨offset, length, parsed⟩, (hmem _).mpr hx, hlt, hstop⟩)
    · exact Or.inr (Or.inr (by omega))

/-- **The probe.**  While the reads are so short that the nested calls fit on the stack, the probe
handles all of them, keeps at most 48 bytes, reports only intact frames, one after the other, and
loses none that overlaps no frame reported before it; and the counts and reports do not depend on
how the stream is split into reads. -/
theorem measure_reports (limit : ℕ) (chunks : List (List UInt8)) (hpos : 0 < limit)
    (hsmall : ∀ chunk ∈ chunks, chunk.length + statusLen ≤ 3 * limit) :
    ∃ out, measure limit chunks = some out ∧ Reports chunks.flatten out ∧
      ∀ chunks' : List (List UInt8), chunks'.flatten = chunks.flatten →
        (∀ chunk ∈ chunks', chunk.length + statusLen ≤ 3 * limit) →
        ∃ out', measure limit chunks' = some out' ∧ out'.log = out.log := by
  have hempty : Settled ([] : List UInt8) := settled_of_wait rfl
  obtain ⟨out, hout, hfollows, hshort, hsettled⟩ :=
    measure_spec chunks hpos hsmall follows_start (by decide) hempty
  rw [List.nil_append] at hfollows
  refine ⟨out, hout, reports_of_follows hfollows hshort, fun chunks' hflatten hsmall' => ?_⟩
  obtain ⟨out', hout', hfollows', -, hsettled'⟩ :=
    measure_spec chunks' hpos hsmall' follows_start (by decide) hempty
  rw [List.nil_append, hflatten] at hfollows'
  exact ⟨out', hout', (hfollows'.log_eq hsettled').trans (hfollows.log_eq hsettled).symm⟩

/-- The status of a board right after its reset. -/
def idleStatus : List UInt8 :=
  let body := statusHeader ++ [protocolV2, 0] ++ List.replicate 42 0
  body ++ [UInt8.ofNat (crc16Ccitt body), UInt8.ofNat (crc16Ccitt body / 256)]

theorem measure_reports_idleStatus :
    ∃ out, measure 1000 [idleStatus.take 5, idleStatus.drop 5] = some out ∧
      Reports idleStatus out ∧ out.log.reported.length = 1 := by
  obtain ⟨out, hout, hreports, -⟩ :=
    measure_reports 1000 [idleStatus.take 5, idleStatus.drop 5] (by decide) (by decide)
  refine ⟨out, hout, by simpa using hreports, ?_⟩
  have hcount : (measure 1000 [idleStatus.take 5, idleStatus.drop 5]).map
      (·.log.reported.length) = some 1 := by decide +kernel
  rw [hout] at hcount
  exact Option.some.inj hcount

/-- Headers of unknown versions, one right after the other, exhaust the stack. -/
example : measure 3 [imuHeader ++ imuHeader ++ imuHeader ++ imuHeader] = none := by decide

end RobotCore.TelemetryProbe
