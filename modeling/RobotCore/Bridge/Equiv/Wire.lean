import RobotCore.Bridge.Equiv.Handshake
import RobotCore.Protocol.Equiv.Codec

/-!
# The stream of command frames

`WireOk` is what every frame handed to the serial port should satisfy: a sequence newer than those
of the session before it, the current session and boot challenge, no contradictory flags, neutral
offsets when disabled, and bytes that decode to its entry of the dispatch history.

A rotation may draw the session id of a request that is still waiting.  `start_write_io` then takes
the request for one of the new session, although it carries the boot challenge of the old one
(`not_wireOk_of_redraw`).  In every run without such a draw all frames are well formed
(`wireOk_of_noRedraw`).
-/

namespace RobotCore

open Machine

variable {cfg : BridgeConfig} {initialSession : UInt32} {s : Bridge} {w : WriteRequest}
  {x : BridgeTransition} {tr : BridgeHistory}

/-! ### Requests of the running session -/

/-- The rotation draws the session id of a request that is still waiting. -/
def redrawsWaiting (x : BridgeTransition) : Bool :=
  rotates x && x.pre.waiting.any fun w => w.sessionId == x.post.session.sessionId

/-- The sequence is one of the numbers the running session has issued. -/
def IssuedSequence (tr : BridgeHistory) (sequence : UInt32) : Prop :=
  ∃ k ≤ issuedCount tr, sequence = UInt32.ofNat k

theorem IssuedSequence.toNat_le {sequence : UInt32} (h : IssuedSequence tr sequence)
    (hcount : issuedCount tr < 2 ^ 31) : sequence.toNat ≤ issuedCount tr := by
  obtain ⟨k, hk, rfl⟩ := h
  rw [UInt32.toNat_ofNat_of_lt' (by simp [UInt32.size]; omega)]
  exact hk

/-- What waits for the running session, and what it has dispatched, was built in it: with its boot
challenge, and with one of its sequence numbers, which go out in order. -/
structure WireTrace (tr : BridgeHistory) (s : Bridge) : Prop where
  waiting : ∀ w ∈ s.waiting, w.sessionId = s.session.sessionId →
    w.bootId = s.expectedBootId ∧ IssuedSequence tr w.sequence
  frames : ∀ w ∈ dispatchedFrames tr,
    w.bootId = s.expectedBootId ∧ IssuedSequence tr w.sequence
  order : issuedCount tr < 2 ^ 31 → (dispatchedFrames tr).Pairwise
    fun later earlier => earlier.sequence.toNat < later.sequence.toNat

theorem issuedCount_mono (hrot : rotates x = false) : issuedCount tr ≤ issuedCount (x :: tr) := by
  show issuedCount tr ≤ (if rotates x then 0 else issuedCount tr) + _
  rw [hrot, if_neg Bool.false_ne_true]
  exact Nat.le_add_right _ _

theorem IssuedSequence.cons {sequence : UInt32} (h : IssuedSequence tr sequence)
    (hrot : rotates x = false) : IssuedSequence (x :: tr) sequence := by
  obtain ⟨k, hk, rfl⟩ := h
  exact ⟨k, hk.trans (issuedCount_mono hrot), rfl⟩

/-- Within half the circle of sequence numbers, newer means greater. -/
theorem sequenceNewer_iff_lt {candidate reference : UInt32} (hc : candidate.toNat < 2 ^ 31)
    (hr : reference.toNat < 2 ^ 31) :
    sequenceNewer candidate reference = true ↔ reference.toNat < candidate.toNat := by
  rw [sequenceNewer_iff, SerialNumber.newer_iff_lt (by norm_num) hc hr]

/-- A frame goes out with a sequence greater than those of all frames before it. -/
theorem WireTrace.lt_dispatched {request : WriteRequest} (hi : WireTrace tr s)
    (htrace : SessionTrace tr s) (hcount : issuedCount tr < 2 ^ 31)
    (htask : s.task = .startWrite request) (hcurrent : request.sessionId = s.session.sessionId)
    (hinOrder : s.session.haveDispatchedSequence = true →
      sequenceNewer request.sequence s.session.lastDispatchedSequence = true) :
    ∀ frame ∈ dispatchedFrames tr, frame.sequence.toNat < request.sequence.toNat := by
  have hseq := ((hi.waiting request (mem_waiting_of_startWrite htask) hcurrent).2.toNat_le hcount)
  have hframes := hi.frames
  have horder := hi.order hcount
  have hlast := htrace.last
  have hhave := htrace.dispatched
  cases heq : dispatchedFrames tr with
  | nil => simp
  | cons newest older =>
    rw [heq] at hframes horder hlast hhave
    have hnewest := (hframes newest List.mem_cons_self).2.toNat_le hcount
    have hlt : newest.sequence.toNat < request.sequence.toNat := by
      have := hinOrder hhave
      rw [hlast newest rfl] at this
      exact (sequenceNewer_iff_lt (by omega) (by omega)).mp this
    intro frame hframe
    rcases List.mem_cons.mp hframe with rfl | hframe
    · exact hlt
    · exact (List.rel_of_pairwise_cons horder hframe).trans hlt

theorem wireTrace_step (htrace : SessionTrace tr x.pre) (hlink : LinkBootOk x.pre)
    (hrule : BridgeRule cfg x.pre x.input x.post x.output) (hi : WireTrace tr x.pre)
    (hx : redrawsWaiting x = false) : WireTrace (x :: tr) x.post := by
  have htrace' : SessionTrace (x :: tr) x.post := sessionTrace_step htrace (trace_step hrule tr)
  -- a new request is of the running session and has a number that was given out
  have hnew : ∀ w, NewRequest cfg x.input x.post w →
      w.bootId = x.post.expectedBootId ∧ IssuedSequence (x :: tr) w.sequence := fun w hw =>
    ⟨hw.boot, _, le_rfl, hw.sequence.trans htrace'.numbers⟩
  cases hrot : rotates x with
  | true =>
    -- a new session has no frames yet
    have hframes : dispatchedFrames (x :: tr) = [] := dispatchedFrames_of_rotates hrot
    refine ⟨fun w hw hid => ?_, by rw [hframes]; simp, fun _ => by rw [hframes]; simp⟩
    rcases waiting_step hrule hw with hold | hbuilt
    · -- A request from before the rotation does not bear the id drawn.
      unfold redrawsWaiting at hx
      rw [hrot, Bool.true_and] at hx
      exact absurd (List.any_eq_false.mp hx w hold) (by simpa using hid)
    · exact hnew w hbuilt
  | false =>
    have hboot := (sameBoot_of_not_rotates hlink hrule hrot).expectedBootId
    have hsession : x.post.session.sessionId = x.pre.session.sessionId := by
      unfold rotates at hrot
      exact bne_eq_false_iff_eq.mp hrot
    have hframes : dispatchedFrames (x :: tr) = x.output.toList ++ dispatchedFrames tr :=
      dispatchedFrames_of_same hrot
    refine ⟨fun w hw hid => ?_, fun w hw => ?_, fun hcount => ?_⟩
    -- the requests that wait: those there were, and a new one
    · rcases waiting_step hrule hw with hold | hbuilt
      · obtain ⟨hwboot, hwseq⟩ := hi.waiting w hold (hid.trans hsession)
        exact ⟨hwboot.trans hboot.symm, hwseq.cons hrot⟩
      · exact hnew w hbuilt
    -- the frames dispatched: those there were, and the one of this step
    · rw [hframes, List.mem_append] at hw
      rcases hw with hw | hw
      · obtain ⟨nowNs, drawn, request, -, htask, hcurrent, -, rfl, -⟩ :=
          dispatch_of_output (Option.mem_toList.mp hw ▸ hrule)
        obtain ⟨hwboot, hwseq⟩ := hi.waiting request (mem_waiting_of_startWrite htask) hcurrent
        rw [sentRequest_bootId, sentRequest_sequence]
        exact ⟨hwboot.trans hboot.symm, hwseq.cons hrot⟩
      · obtain ⟨hwboot, hwseq⟩ := hi.frames w hw
        exact ⟨hwboot.trans hboot.symm, hwseq.cons hrot⟩
    · have hcount' : issuedCount tr < 2 ^ 31 := (issuedCount_mono hrot).trans_lt hcount
      rw [hframes]
      -- a frame is later than all before it
      cases hout : x.output with
      | none => exact hi.order hcount'
      | some w =>
        obtain ⟨nowNs, drawn, request, -, htask, hcurrent, hinOrder, rfl, -⟩ :=
          dispatch_of_output (hout ▸ hrule)
        refine List.Pairwise.cons (fun frame hframe => ?_) (hi.order hcount')
        rw [sentRequest_sequence]
        exact hi.lt_dispatched htrace hcount' htask hcurrent hinOrder frame hframe

theorem wireTrace_of_run (h : (bridgeMachine cfg initialSession).Run tr s)
    (hdraw : ∀ y ∈ tr, redrawsWaiting y = false) : WireTrace tr s := by
  refine h.invariant_of (C := fun y => redrawsWaiting y = false) (I := WireTrace) ?_ ?_ hdraw
  · refine ⟨fun w hw => ?_, fun w hw => ?_, fun _ => .nil⟩
    · simp [bridgeMachine, Bridge.initial, Bridge.waiting, IoTask.request?] at hw
    · simp [dispatchedFrames] at hw
  · intro tr s i s' o hrun hi hstep hx
    exact wireTrace_step (x := ⟨s, i, o, s'⟩) (sessionTrace_of_run hrun) (linkBootOk_of_run hrun)
      (rule_of_step hstep) hi hx

/-! ### Requests in general -/

/-- Every request that waits is neutral when it is disabled. -/
theorem neutral_of_waiting (h : (bridgeMachine cfg initialSession).Run tr s) :
    ∀ w ∈ s.waiting, w.enable = false → w.offsets = Vector.replicate _ 0 := by
  refine h.invariant (I := fun _ s => ∀ w ∈ s.waiting, w.enable = false →
    w.offsets = Vector.replicate _ 0) ?_ ?_
  · simp [bridgeMachine, Bridge.initial, Bridge.waiting, IoTask.request?]
  · intro tr s i s' o _ hi hstep w hw
    rcases waiting_step (rule_of_step hstep) hw with hold | hbuilt
    · exact hi w hold
    · exact hbuilt.neutral

/-- A frame is sent with neutral offsets when it is disabled, and never enabled and calibrating. -/
theorem sentRequest_flags (cfg : BridgeConfig) (s : Bridge) (request : WriteRequest) (nowNs : ℤ)
    (hneutral : request.enable = false → request.offsets = Vector.replicate _ 0) :
    ¬ ((sentRequest cfg s request nowNs).enable = true ∧
        (sentRequest cfg s request nowNs).calibrateImuGyro = true) ∧
      ((sentRequest cfg s request nowNs).enable = false →
        (sentRequest cfg s request nowNs).offsets = Vector.replicate _ 0) := by
  unfold sentRequest
  rw [recheckRequest_eq]
  dsimp only
  cases hen : request.enable with
  | false =>
    refine ⟨fun h => by simp at h, fun _ => ?_⟩
    rw [hneutral hen]
    split <;> rfl
  | true =>
    cases hostEnableAllowedLocked cfg s nowNs <;> cases request.calibrateImuGyro <;> simp

/-- The bytes of a frame decode to its entry of the dispatch history. -/
theorem parse_sentRequest (cfg : BridgeConfig) (s : Bridge) (request : WriteRequest) (nowNs : ℤ) :
    (sentRequest cfg s request nowNs).frame.length = kCommandV2FrameSize ∧
      (¬ ((sentRequest cfg s request nowNs).enable = true ∧
          (sentRequest cfg s request nowNs).calibrateImuGyro = true) →
        parseCommandV2 (sentRequest cfg s request nowNs).frame
          = some (dispatchedFrame (sentRequest cfg s request nowNs))) := by
  unfold sentRequest
  exact ⟨length_buildCommandV2 .., parseCommandV2_buildCommandV2 _ _ _ _ _ _⟩

theorem getLast_pushHistory (history : List CommandFrame) (frame : CommandFrame) :
    (pushHistory history frame).getLast? = some frame := by
  unfold pushHistory
  dsimp only
  rw [List.getLast?_drop, if_neg, List.getLast?_concat]
  have : 0 < kDispatchHistoryDepth := by decide
  simp only [List.length_append, List.length_singleton]
  omega

/-! ### Main result -/

/-- A well-formed frame `w`, dispatched in the transition `x` after the history `tr`. -/
structure WireOk (tr : BridgeHistory) (x : BridgeTransition) (w : WriteRequest) : Prop where
  sequence : ∀ frame ∈ dispatchedFrames tr,
    SerialNumber.newer 32 w.sequence.toNat frame.sequence.toNat
  session : w.sessionId = x.pre.session.sessionId
  boot : x.pre.board.haveLinkBootChallenge = true →
    w.bootId = x.pre.board.linkBootId ∧ w.bootId ≠ 0
  noBoot : x.pre.board.haveLinkBootChallenge = false → w.bootId = 0 ∧ w.enable = false
  flags : ¬ (w.enable = true ∧ w.calibrateImuGyro = true)
  neutral : w.enable = false → w.offsets = Vector.replicate _ 0
  size : w.frame.length = kCommandV2FrameSize
  history : ∃ entry, parseCommandV2 w.frame = some entry ∧
    x.post.session.dispatchedHistory.getLast? = some entry

/-- **The stream of command frames.**  In a session that has issued fewer than `2 ^ 31` sequence
numbers every frame is well formed, as long as no rotation draws the session id of a request that
is still waiting. -/
theorem wireOk_of_noRedraw (h : (bridgeMachine cfg initialSession).Run (x :: tr) s)
    (hcount : issuedCount (x :: tr) < 2 ^ 31) (hdraw : ∀ y ∈ x :: tr, redrawsWaiting y = false)
    (hw : x.output = some w) : WireOk tr x w := by
  have hrule := rule_of_step h.head_step
  have htrace := sessionTrace_of_run h.tail
  have hwire := wireTrace_of_run h.tail fun y hy => hdraw y (List.mem_cons_of_mem _ hy)
  have hlink := linkBootOk_of_run h.tail
  obtain ⟨nowNs, drawn, request, -, htask, hcurrent, hinOrder, rfl, hpost⟩ :=
    dispatch_of_output (hw ▸ hrule)
  have hcount' : issuedCount tr < 2 ^ 31 :=
    (issuedCount_mono (rotates_of_same (by rw [hpost, recordDispatch_sessionId]))).trans_lt hcount
  have hmem := mem_waiting_of_startWrite htask
  obtain ⟨hboot, hseq⟩ := hwire.waiting request hmem hcurrent
  obtain ⟨hflags, hneutral⟩ := sentRequest_flags cfg x.pre request nowNs
    (neutral_of_waiting h.tail request hmem)
  obtain ⟨hsize, hparse⟩ := parse_sentRequest cfg x.pre request nowNs
  refine ⟨fun frame hframe => ?_, ?_, fun hhave => ?_, fun hnone => ?_, hflags, hneutral, hsize,
    _, hparse hflags, ?_⟩
  -- the number is newer than those of the frames before
  · have hlt := hwire.lt_dispatched htrace hcount' htask hcurrent hinOrder frame hframe
    have := hseq.toNat_le hcount'
    rw [sentRequest_sequence]
    exact (SerialNumber.newer_iff_lt (by norm_num) (by omega) (by omega)).mpr hlt
  -- the frame is of the running session, and of the boot id the link has seen
  · rw [sentRequest_sessionId, hcurrent]
  · have heq : request.bootId = x.pre.board.linkBootId := by
      rw [hboot, Bridge.expectedBootId, if_pos hhave]
    rw [sentRequest_bootId, heq]
    exact ⟨rfl, (hlink hhave).2⟩
  · refine ⟨?_, ?_⟩
    · rw [sentRequest_bootId, hboot, Bridge.expectedBootId, hnone, if_neg Bool.false_ne_true]
    · -- An enabled frame follows a handshake, which knows the challenge.
      cases hen : (sentRequest cfg x.pre request nowNs).enable with
      | false => rfl
      | true =>
        have hallowed := enableAllowed_of_host (sentRequest_enable cfg x.pre request nowNs hen).2.1
        obtain ⟨-, -, -, -, -, -, -, hhave, -⟩ :=
          (handshakeTrace_of_run h.tail).done hallowed.acknowledged
        rw [hnone] at hhave
        cases hhave
  · rw [hpost, recordDispatch_eq]
    exact getLast_pushHistory _ _

theorem wireOk_of_noRedraw_enabledInputs :
    ∃ x tr s w, (bridgeMachine {} 1).Run (x :: tr) s ∧ x.output = some w ∧ w.enable = true ∧
      WireOk tr x w := by
  obtain ⟨x, tr, s, hrun, hx⟩ := run_of_execCheck (bridgeMachine {} 1) enabledInputs
    (fun x tr => dispatchesEnabled x && decide (issuedCount (x :: tr) < 2 ^ 31) &&
      (x :: tr).all fun y => !redrawsWaiting y) (by decide +kernel)
  simp only [Bool.and_eq_true, decide_eq_true_iff, List.all_eq_true, Bool.not_eq_true'] at hx
  obtain ⟨⟨henabled, hcount⟩, hdraw⟩ := hx
  obtain ⟨w, hw, hen⟩ := dispatchesEnabled_iff.mp henabled
  exact ⟨x, tr, s, w, hrun, hw, hen, wireOk_of_noRedraw hrun hcount hdraw hw⟩

/-- Behind an active write a request of session 3 and boot 7 waits.  The heartbeat times out and
session 8 begins; the board reports boot 9, and the rotation draws the id 3 again.  When the write
completes, the waiting request is sent to boot 9. -/
def redrawInputs : List BridgeInput :=
  handshakeInputs ++
    [.writeCommand 0 1000000000 5, .enqueueLatestWrite, .drainLatestWrite, nextIo,
      .writeCommand 0 2000000000 8, .enqueueLatestWrite,
      .boardStatus (neutralStatus kStatusFlagFailsafe 1 9 0 0 0 1) 2000000000 3, nextIo, nextIo,
      .writeCompleted false, nextIo]

/-- Without the condition on the draws a frame can carry the boot challenge of an earlier boot. -/
theorem not_wireOk_of_redraw :
    ¬ ∀ (cfg : BridgeConfig) (initialSession : UInt32) (tr : BridgeHistory) (x : BridgeTransition)
      (s : Bridge) (w : WriteRequest), (bridgeMachine cfg initialSession).Run (x :: tr) s →
      issuedCount (x :: tr) < 2 ^ 31 → x.output = some w → WireOk tr x w := by
  intro hall
  obtain ⟨x, tr, s, hrun, hx⟩ := run_of_execCheck (bridgeMachine {} 1) redrawInputs
    (fun x tr => decide (issuedCount (x :: tr) < 2 ^ 31) && x.output.any fun w =>
      x.pre.board.haveLinkBootChallenge && w.bootId != x.pre.board.linkBootId) (by decide +kernel)
  simp only [Bool.and_eq_true, decide_eq_true_iff, Option.any_eq_true, bne_iff_ne] at hx
  obtain ⟨hcount, w, hw, hhave, hboot⟩ := hx
  exact hboot ((hall {} 1 tr x s w hrun hcount hw).boot hhave).1

end RobotCore
