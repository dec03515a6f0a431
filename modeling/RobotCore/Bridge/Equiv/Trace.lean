import RobotCore.Bridge.Equiv.Session
import RobotCore.Lib.SerialNumber

/-!
# Sessions along a run

A session is the stretch of a run between two rotations.  `dispatchedFrames` are the frames of the
running session, newest first, and `issuedCount` the sequence numbers it has issued.

`SessionTrace` ties the session of the node to this stretch: the last dispatched sequence, the
dispatch history and the handshake sequence are those of the frames dispatched since the last
rotation.  It holds in every run (`sessionTrace_of_run`).
-/

namespace RobotCore

open Machine

variable {cfg : BridgeConfig} {initialSession : UInt32} {s s' : Bridge} {i : BridgeInput}
  {o : Option WriteRequest} {w : WriteRequest} {x : BridgeTransition} {tr : BridgeHistory}

/-! ### Serial order -/

/-- Session sequences are compared as 32-bit serial numbers. -/
theorem sequenceNewer_iff (candidate reference : UInt32) :
    sequenceNewer candidate reference = true ↔
      SerialNumber.newer 32 candidate.toNat reference.toNat := by
  unfold sequenceNewer SerialNumber.newer SerialNumber.ahead
  rw [Bool.and_eq_true, bne_iff_ne, decide_eq_true_iff, UInt32.lt_iff_toNat_lt,
    ← UInt32.toNat_sub, ne_eq, ← UInt32.toNat_inj]
  rfl

/-- Arm generations are compared as 64-bit serial numbers. -/
theorem generationNewer_iff (candidate reference : UInt64) :
    generationNewer candidate reference = true ↔
      SerialNumber.newer 64 candidate.toNat reference.toNat := by
  unfold generationNewer SerialNumber.newer SerialNumber.ahead
  rw [Bool.and_eq_true, bne_iff_ne, decide_eq_true_iff, UInt64.lt_iff_toNat_lt,
    ← UInt64.toNat_sub, ne_eq, ← UInt64.toNat_inj]
  rfl

/-! ### Frames and numbers of a session -/

/-- The transition rotates the session. -/
def rotates (x : BridgeTransition) : Bool :=
  x.post.session.sessionId != x.pre.session.sessionId

/-- The frames handed to the serial port in the running session, newest first. -/
def dispatchedFrames (tr : BridgeHistory) : List WriteRequest :=
  (sinceLast rotates tr).filterMap (·.output)

/-- The transition issues a sequence number. -/
def issues (x : BridgeTransition) : Bool :=
  x.post.session.commandSequence != if rotates x then 0 else x.pre.session.commandSequence

/-- How many sequence numbers the running session has issued. -/
def issuedCount : BridgeHistory → ℕ
  | [] => 0
  | x :: tr => (if rotates x then 0 else issuedCount tr) + if issues x then 1 else 0

theorem uint32_add_one_ne (n : UInt32) : n + 1 ≠ n := by
  intro h
  have hlt := n.toNat_lt
  have hnat := congrArg UInt32.toNat h
  simp only [UInt32.toNat_add, UInt32.toNat_one] at hnat
  omega

/-- What a transition does to the frames and numbers of the running session. -/
inductive TraceChange (cfg : BridgeConfig) (tr : BridgeHistory) (x : BridgeTransition) : Prop
  | kept (session : x.post.session = x.pre.session)
      (frames : dispatchedFrames (x :: tr) = dispatchedFrames tr)
      (numbers : issuedCount (x :: tr) = issuedCount tr)
  | issued (session : x.post.session = x.pre.session.issued)
      (frames : dispatchedFrames (x :: tr) = dispatchedFrames tr)
      (numbers : issuedCount (x :: tr) = issuedCount tr + 1)
  | rotated (drawn : UInt32) (ackFault : Bool) (draw : DrawOk x.pre drawn)
      (session : x.post.session = .fresh drawn ackFault ∧ issuedCount (x :: tr) = 0 ∨
        x.post.session = (Session.fresh drawn ackFault).issued ∧ issuedCount (x :: tr) = 1)
      (frames : dispatchedFrames (x :: tr) = [])
  | acked (board : BoardStatusFrame) (nowNs : ℤ) (drawn : UInt32)
      (input : x.input = .boardStatus board nowNs drawn)
      (semantic : boardStatusSemanticReason board = none)
      (challenge : x.pre.board.haveLinkBootChallenge = true)
      (boot : board.bootId = x.pre.board.bootIdentity)
      (reported : reportedSession x.pre.session board = true)
      (valid : ackFaultReason x.pre.session board = none)
      (session : x.post.session = acceptAck x.pre.session board)
      (frames : dispatchedFrames (x :: tr) = dispatchedFrames tr)
      (numbers : issuedCount (x :: tr) = issuedCount tr)
  | dispatched (nowNs : ℤ) (request : WriteRequest) (task : x.pre.task = .startWrite request)
      (current : request.sessionId = x.pre.session.sessionId)
      (inOrder : x.pre.session.haveDispatchedSequence = true →
        sequenceNewer request.sequence x.pre.session.lastDispatchedSequence = true)
      (output : x.output = some (sentRequest cfg x.pre request nowNs))
      (session : x.post.session
        = recordDispatch x.pre.session (sentRequest cfg x.pre request nowNs))
      (frames : dispatchedFrames (x :: tr)
        = sentRequest cfg x.pre request nowNs :: dispatchedFrames tr)
      (numbers : issuedCount (x :: tr) = issuedCount tr)

theorem rotates_of_draw {drawn : UInt32} (draw : DrawOk x.pre drawn)
    (h : x.post.session.sessionId = drawn) : rotates x = true := by
  unfold rotates
  rw [h]
  simpa using draw.2

theorem rotates_of_same (h : x.post.session.sessionId = x.pre.session.sessionId) :
    rotates x = false := by
  unfold rotates
  rw [h]
  simp

theorem dispatchedFrames_of_rotates (h : rotates x = true) : dispatchedFrames (x :: tr) = [] := by
  unfold dispatchedFrames
  rw [sinceLast_cons_of_pos h]
  rfl

theorem dispatchedFrames_of_same (h : rotates x = false) :
    dispatchedFrames (x :: tr) = x.output.toList ++ dispatchedFrames tr := by
  unfold dispatchedFrames
  rw [sinceLast_cons_of_neg h, List.filterMap_cons]
  cases x.output <;> rfl

theorem issuedCount_of_issued (h : x.post.session = x.pre.session.issued) :
    issuedCount (x :: tr) = issuedCount tr + 1 := by
  have hrot : rotates x = false := rotates_of_same (by rw [h]; rfl)
  have hissues : issues x = true := by
    unfold issues
    rw [hrot, h]
    exact bne_iff_ne.mpr (uint32_add_one_ne x.pre.session.commandSequence)
  simp [issuedCount, hrot, hissues]

theorem issuedCount_of_rotates (h : rotates x = true) :
    issuedCount (x :: tr) = if x.post.session.commandSequence != 0 then 1 else 0 := by
  simp [issuedCount, issues, h]

theorem issuedCount_of_same (h : x.post.session.sessionId = x.pre.session.sessionId)
    (hseq : x.post.session.commandSequence = x.pre.session.commandSequence) :
    issuedCount (x :: tr) = issuedCount tr := by
  simp [issuedCount, issues, rotates_of_same h, hseq]

theorem recordDispatch_commandSequence (s : Session) (request : WriteRequest) :
    (recordDispatch s request).commandSequence = s.commandSequence := by
  unfold recordDispatch
  dsimp only
  split <;> rfl

theorem acceptAck_sessionId (s : Session) (board : BoardStatusFrame) :
    (acceptAck s board).sessionId = s.sessionId := by
  unfold acceptAck
  dsimp only
  split <;> rfl

theorem acceptAck_commandSequence (s : Session) (board : BoardStatusFrame) :
    (acceptAck s board).commandSequence = s.commandSequence := by
  unfold acceptAck
  dsimp only
  split <;> rfl

/-- **What a transition does to the running session.** -/
theorem trace_step {pre post : Bridge} (h : BridgeRule cfg pre i post o) (tr : BridgeHistory) :
    TraceChange cfg tr ⟨pre, i, o, post⟩ := by
  cases session_step h with
  | kept session =>
    have hid : post.session.sessionId = pre.session.sessionId := congrArg _ session
    exact .kept session (dispatchedFrames_of_same (rotates_of_same hid))
      (issuedCount_of_same hid (congrArg _ session))
  | issued session =>
    have hid : post.session.sessionId = pre.session.sessionId := by
      rw [show post.session = pre.session.issued from session]
      rfl
    exact .issued session (dispatchedFrames_of_same (rotates_of_same hid))
      (issuedCount_of_issued session)
  | @rotated _ _ drawn ackFault draw session =>
    have hrot : rotates ⟨pre, i, none, post⟩ = true :=
      rotates_of_draw draw (congrArg Session.sessionId session)
    refine .rotated drawn ackFault draw (Or.inl ⟨session, ?_⟩) (dispatchedFrames_of_rotates hrot)
    rw [issuedCount_of_rotates hrot, session]
    rfl
  | @rotatedIssued _ _ drawn draw session =>
    have hrot : rotates ⟨pre, i, none, post⟩ = true :=
      rotates_of_draw draw (congrArg Session.sessionId session)
    refine .rotated drawn false draw (Or.inr ⟨session, ?_⟩) (dispatchedFrames_of_rotates hrot)
    rw [issuedCount_of_rotates hrot, session]
    rfl
  | @acked board nowNs drawn _ semantic challenge boot reported valid session =>
    have hid : post.session.sessionId = pre.session.sessionId := by
      rw [show post.session = _ from session, acceptAck_sessionId]
    refine .acked board nowNs drawn rfl semantic challenge boot reported valid session
      (dispatchedFrames_of_same (rotates_of_same hid)) (issuedCount_of_same hid ?_)
    rw [show post.session = _ from session, acceptAck_commandSequence]
  | @dispatched nowNs drawn request _ task current inOrder session =>
    have hid : post.session.sessionId = pre.session.sessionId := by
      rw [show post.session = _ from session, recordDispatch_sessionId]
    refine .dispatched nowNs request task current inOrder rfl session
      (dispatchedFrames_of_same (rotates_of_same hid)) (issuedCount_of_same hid ?_)
    rw [show post.session = _ from session, recordDispatch_commandSequence]

/-! ### The session of the node is the session of the run -/

/-- The dispatch history keeps the newest frames. -/
theorem pushHistory_take (frames : List WriteRequest) (w : WriteRequest) :
    pushHistory ((frames.take kDispatchHistoryDepth).reverse.map dispatchedFrame)
        (dispatchedFrame w)
      = ((w :: frames).take kDispatchHistoryDepth).reverse.map dispatchedFrame := by
  unfold pushHistory
  dsimp only
  have hcons :
      (frames.take kDispatchHistoryDepth).reverse.map dispatchedFrame ++ [dispatchedFrame w]
      = (w :: frames.take kDispatchHistoryDepth).reverse.map dispatchedFrame := by
    simp
  rw [hcons, List.length_map, List.length_reverse, ← List.map_drop, ← List.reverse_take]
  congr 2
  rw [show kDispatchHistoryDepth = 15 + 1 from rfl, List.take_succ_cons, List.take_succ_cons,
    List.take_take]
  rfl

/-- The acknowledgement covers the handshake frame. -/
def handshakeApplied (s : Session) (board : BoardStatusFrame) : Bool :=
  s.haveHandshakeSequence &&
    (board.appliedSequence == s.handshakeSequence ||
      sequenceNewer board.appliedSequence s.handshakeSequence)

/-- The session after a valid acknowledgement, in one piece. -/
theorem acceptAck_eq (s : Session) (board : BoardStatusFrame) :
    acceptAck s board
      = { s with
          haveAckBaseline := true
          lastAckReceived := board.receivedSequence
          lastAckApplied := board.appliedSequence
          sessionAcknowledged := s.sessionAcknowledged || handshakeApplied s board
          ackFaultLatched := s.ackFaultLatched && !handshakeApplied s board } := by
  have hcond : (s.haveHandshakeSequence && (board.appliedSequence == s.handshakeSequence ||
      sequenceNewer board.appliedSequence s.handshakeSequence)) = handshakeApplied s board := rfl
  unfold acceptAck
  dsimp only
  rw [hcond]
  cases handshakeApplied s board with
  | true => rw [if_pos rfl, Bool.or_true, Bool.not_true, Bool.and_false]
  | false => rw [if_neg Bool.false_ne_true, Bool.or_false, Bool.not_false, Bool.and_true]

/-- The session after a dispatch, in one piece. -/
theorem recordDispatch_eq (s : Session) (request : WriteRequest) :
    recordDispatch s request
      = { s with
          lastDispatchedSequence := request.sequence
          haveDispatchedSequence := true
          haveHandshakeSequence := s.haveHandshakeSequence || !request.enable
          handshakeSequence :=
            if s.haveHandshakeSequence then s.handshakeSequence
            else if request.enable then s.handshakeSequence else request.sequence
          dispatchedHistory := pushHistory s.dispatchedHistory (dispatchedFrame request) } := by
  unfold recordDispatch
  cases request.enable <;> cases s.haveHandshakeSequence <;> rfl

/-- What `host_enable_allowed_locked` guarantees. -/
structure EnableAllowed (cfg : BridgeConfig) (s : Bridge) (nowNs : ℤ) : Prop where
  connected : s.connected = true
  acknowledged : s.session.sessionAcknowledged = true
  noAckFault : s.session.ackFaultLatched = false
  noCalibration : s.calibration.requested = false
  gate : s.command.commandPublisherGate = true
  valid : s.command.commandValid = true
  fresh : commandFresh cfg s.command nowNs = true
  enabled : s.command.commandEnabled = true
  armed : s.command.commandArmed = true
  authorized : s.command.armAuthorized = true
  generation : s.command.commandArmGeneration = s.command.authorizedGeneration

theorem enableAllowed_of_host {nowNs : ℤ} (h : hostEnableAllowedLocked cfg s nowNs = true) :
    EnableAllowed cfg s nowNs := by
  unfold hostEnableAllowedLocked at h
  simp only [Bool.and_eq_true, Bool.not_eq_true', Bool.or_eq_false_iff, beq_iff_eq] at h
  obtain ⟨⟨⟨⟨⟨⟨⟨⟨⟨⟨⟨⟨⟨⟨hconnected, -⟩, -⟩, -⟩, -⟩, hack⟩, hfault⟩, hcalibration⟩, hgate⟩, hvalid⟩,
    hfresh⟩, henabled⟩, harmed⟩, hauthorized⟩, hgeneration⟩ := h
  exact ⟨hconnected, hack, hfault, hcalibration.1, hgate, hvalid, hfresh, henabled, harmed,
    hauthorized, hgeneration⟩

/-! The fields the recheck in `start_write_io` keeps. -/

section Sent

variable (cfg : BridgeConfig) (s : Bridge) (request : WriteRequest) (nowNs : ℤ)

theorem recheckRequest_eq :
    recheckRequest cfg s request nowNs
      = { request with
          enable := request.enable && hostEnableAllowedLocked cfg s nowNs &&
            !request.calibrateImuGyro
          offsets :=
            if request.enable && !hostEnableAllowedLocked cfg s nowNs || request.calibrateImuGyro
            then Vector.replicate _ 0 else request.offsets } := by
  unfold recheckRequest
  obtain ⟨frame, offsets, bootId, sessionId, sequence, enable, calibrateImuGyro, shutdown⟩ :=
    request
  cases enable <;> cases hostEnableAllowedLocked cfg s nowNs <;> cases calibrateImuGyro <;> rfl

theorem sentRequest_sessionId :
    (sentRequest cfg s request nowNs).sessionId = request.sessionId := by
  unfold sentRequest
  rw [recheckRequest_eq]

theorem sentRequest_bootId : (sentRequest cfg s request nowNs).bootId = request.bootId := by
  unfold sentRequest
  rw [recheckRequest_eq]

theorem sentRequest_sequence : (sentRequest cfg s request nowNs).sequence = request.sequence := by
  unfold sentRequest
  rw [recheckRequest_eq]

theorem sentRequest_calibrateImuGyro :
    (sentRequest cfg s request nowNs).calibrateImuGyro = request.calibrateImuGyro := by
  unfold sentRequest
  rw [recheckRequest_eq]

/-- A frame is sent enabled only if that is still allowed, and with the offsets it was built
with. -/
theorem sentRequest_enable (h : (sentRequest cfg s request nowNs).enable = true) :
    request.enable = true ∧ hostEnableAllowedLocked cfg s nowNs = true ∧
      request.calibrateImuGyro = false ∧
      (sentRequest cfg s request nowNs).offsets = request.offsets := by
  unfold sentRequest at h ⊢
  rw [recheckRequest_eq] at h ⊢
  simp only [Bool.and_eq_true, Bool.not_eq_true'] at h
  obtain ⟨⟨hen, hallowed⟩, hcal⟩ := h
  refine ⟨hen, hallowed, hcal, ?_⟩
  simp [hen, hallowed, hcal]

end Sent

/-- What the session of the node says of the session of the run. -/
structure SessionTrace (tr : BridgeHistory) (s : Bridge) : Prop where
  numbers : s.session.commandSequence = UInt32.ofNat (issuedCount tr)
  dispatched : s.session.haveDispatchedSequence = !(dispatchedFrames tr).isEmpty
  last : ∀ w ∈ (dispatchedFrames tr).head?, s.session.lastDispatchedSequence = w.sequence
  history : s.session.dispatchedHistory
    = ((dispatchedFrames tr).take kDispatchHistoryDepth).reverse.map dispatchedFrame
  session : ∀ w ∈ dispatchedFrames tr, w.sessionId = s.session.sessionId
  handshake : s.session.haveHandshakeSequence = true →
    ∃ w ∈ dispatchedFrames tr, w.enable = false ∧ w.sequence = s.session.handshakeSequence
  noHandshake : s.session.haveHandshakeSequence = false → ∀ w ∈ dispatchedFrames tr, w.enable = true
  baseline : s.session.haveAckBaseline = true →
    (∃ w ∈ dispatchedFrames tr, w.sequence = s.session.lastAckReceived) ∧
    ∃ w ∈ dispatchedFrames tr, w.sequence = s.session.lastAckApplied

theorem sessionTrace_fresh {drawn : UInt32} {ackFault : Bool} (hframes : dispatchedFrames tr = [])
    (h : s.session = .fresh drawn ackFault ∧ issuedCount tr = 0 ∨
      s.session = (Session.fresh drawn ackFault).issued ∧ issuedCount tr = 1) :
    SessionTrace tr s := by
  rcases h with ⟨hs, hcount⟩ | ⟨hs, hcount⟩ <;>
    constructor <;> simp [hs, hframes, hcount, Session.fresh, Session.issued]

/-- The loop in which the last match wins is a search from the newest entry. -/
theorem findDispatched_eq_find (history : List CommandFrame) (sequence : UInt32) :
    findDispatched history sequence
      = history.reverse.find? fun command => command.sequence == sequence := by
  have hfold : ∀ (l : List CommandFrame) (found : Option CommandFrame),
      l.foldl (fun found command => if command.sequence == sequence then some command else found)
        found = (l.reverse.find? fun command => command.sequence == sequence).or found := by
    intro l
    induction l with
    | nil => exact fun found => rfl
    | cons f l ih =>
      intro found
      rw [List.foldl_cons, ih, List.reverse_cons, List.find?_append, Option.or_assoc]
      congr 1
      cases hseq : f.sequence == sequence <;> simp [hseq]
  exact (hfold history none).trans Option.or_none

theorem findDispatched_some {history : List CommandFrame} {sequence : UInt32}
    {frame : CommandFrame} (h : findDispatched history sequence = some frame) :
    frame ∈ history ∧ frame.sequence = sequence := by
  rw [findDispatched_eq_find] at h
  have hseq := List.find?_some h
  exact ⟨List.mem_reverse.mp (List.mem_of_find?_eq_some h), beq_iff_eq.mp hseq⟩

/-- What a valid acknowledgement has identified. -/
theorem identify_of_valid {board : BoardStatusFrame} (h : ackFaultReason s.session board = none) :
    ∃ received applied,
      findDispatched s.session.dispatchedHistory board.receivedSequence = some received ∧
      findDispatched s.session.dispatchedHistory board.appliedSequence = some applied ∧
      boardStatusMatchesAppliedCommand board applied = true := by
  unfold ackFaultReason at h
  split_ifs at h
  unfold identifyDispatched at h
  split at h
  · cases h
  · rename_i applied hid
    split at hid
    · rename_i received applied' hreceived happlied
      split at hid
      · cases hid
      · obtain rfl := Option.some.inj hid
        refine ⟨received, applied', hreceived, happlied, ?_⟩
        cases hmatch : boardStatusMatchesAppliedCommand board applied' with
        | true => rfl
        | false =>
          rw [hmatch, if_neg Bool.false_ne_true] at h
          cases h
    · cases hid

/-- A frame of the dispatch history was dispatched in the running session. -/
theorem SessionTrace.dispatched_of_find (h : SessionTrace tr s) {sequence : UInt32}
    {frame : CommandFrame}
    (hfind : findDispatched s.session.dispatchedHistory sequence = some frame) :
    ∃ w ∈ dispatchedFrames tr, dispatchedFrame w = frame ∧ w.sequence = sequence := by
  obtain ⟨hmem, hseq⟩ := findDispatched_some hfind
  rw [h.history, List.mem_map] at hmem
  obtain ⟨w, hw, rfl⟩ := hmem
  exact ⟨w, List.mem_of_mem_take (List.mem_reverse.mp hw), rfl, hseq⟩

theorem sessionTrace_step (hi : SessionTrace tr x.pre) (hx : TraceChange cfg tr x) :
    SessionTrace (x :: tr) x.post := by
  cases hx with
  | kept session frames numbers =>
    -- no member and no frame changes
    exact ⟨by rw [session, numbers, hi.numbers], by rw [session, frames, hi.dispatched],
      by rw [session, frames]; exact hi.last, by rw [session, frames, hi.history],
      by rw [session, frames]; exact hi.session, by rw [session, frames]; exact hi.handshake,
      by rw [session, frames]; exact hi.noHandshake, by rw [session, frames]; exact hi.baseline⟩
  | issued session frames numbers =>
    -- one number more is given out
    exact ⟨by rw [session, numbers, UInt32.ofNat_add, ← hi.numbers]; rfl,
      by rw [session, frames]; exact hi.dispatched, by rw [session, frames]; exact hi.last,
      by rw [session, frames]; exact hi.history, by rw [session, frames]; exact hi.session,
      by rw [session, frames]; exact hi.handshake, by rw [session, frames]; exact hi.noHandshake,
      by rw [session, frames]; exact hi.baseline⟩
  | rotated drawn ackFault _ session frames => exact sessionTrace_fresh frames session
  | acked board nowNs drawn _ _ _ _ _ valid session frames numbers =>
    -- the acknowledged numbers are of dispatched frames
    obtain ⟨received, applied, hreceived, happlied, -⟩ := identify_of_valid valid
    obtain ⟨r, hr, -, hrseq⟩ := hi.dispatched_of_find hreceived
    obtain ⟨a, ha, -, haseq⟩ := hi.dispatched_of_find happlied
    have hpost := session.trans (acceptAck_eq _ _)
    exact ⟨by rw [hpost, numbers, ← hi.numbers], by rw [hpost, frames, ← hi.dispatched],
      by rw [hpost, frames]; exact hi.last, by rw [hpost, frames, ← hi.history],
      by rw [hpost, frames]; exact hi.session, by rw [hpost, frames]; exact hi.handshake,
      by rw [hpost, frames]; exact hi.noHandshake,
      fun _ => by rw [hpost, frames]; exact ⟨⟨r, hr, hrseq⟩, ⟨a, ha, haseq⟩⟩⟩
  | dispatched nowNs request task current inOrder output session frames numbers =>
    have hpost := recordDispatch_eq x.pre.session (sentRequest cfg x.pre request nowNs)
    rw [← session] at hpost
    have hcurrent : (sentRequest cfg x.pre request nowNs).sessionId = x.pre.session.sessionId := by
      rw [sentRequest_sessionId, current]
    set sent := sentRequest cfg x.pre request nowNs
    -- the frame joins those dispatched in the session
    have hmem : ∀ w ∈ dispatchedFrames tr, w ∈ dispatchedFrames (x :: tr) := by
      intro w hw
      rw [frames]
      exact List.mem_cons_of_mem _ hw
    refine ⟨?_, ?_, ?_, ?_, ?_, ?_, ?_, ?_⟩
    · rw [hpost, numbers, ← hi.numbers]
    · rw [hpost, frames]
      rfl
    · rw [hpost, frames]
      rintro w hw
      obtain rfl := Option.some.inj hw
      rfl
    · rw [hpost, frames, ← pushHistory_take, ← hi.history]
    · rw [hpost, frames]
      intro w hw
      rcases List.mem_cons.mp hw with rfl | hw
      · exact hcurrent
      · exact hi.session w hw
    -- the handshake is the first frame that does not enable
    · rw [hpost]
      intro hhave
      dsimp only at hhave ⊢
      cases hold : x.pre.session.haveHandshakeSequence with
      | true =>
        obtain ⟨w, hw, hen, hseq⟩ := hi.handshake hold
        exact ⟨w, hmem w hw, hen, by simpa using hseq⟩
      | false =>
        rw [hold, Bool.false_or] at hhave
        have hen : sent.enable = false := by simpa using hhave
        exact ⟨sent, by rw [frames]; exact List.mem_cons_self, hen, by simp [hen]⟩
    · rw [hpost, frames]
      intro hhave w hw
      obtain ⟨hold, hsent⟩ := Bool.or_eq_false_iff.mp hhave
      rcases List.mem_cons.mp hw with rfl | hw
      · simpa using hsent
      · exact hi.noHandshake hold w hw
    · rw [hpost]
      intro hhave
      obtain ⟨⟨r, hr, hrseq⟩, ⟨a, ha, haseq⟩⟩ := hi.baseline hhave
      exact ⟨⟨r, hmem r hr, hrseq⟩, ⟨a, hmem a ha, haseq⟩⟩

theorem sessionTrace_of_run (h : (bridgeMachine cfg initialSession).Run tr s) :
    SessionTrace tr s :=
  h.invariant (I := SessionTrace) (by constructor <;> simp [bridgeMachine, Bridge.initial,
    dispatchedFrames, issuedCount])
    fun tr _ _ _ _ _ hi hstep => sessionTrace_step hi (trace_step (rule_of_step hstep) tr)

/-! ### The boot challenge along a run -/

theorem linkBootOk_step (hs : LinkBootOk s) (h : BridgeRule cfg s i s' o) : LinkBootOk s' := by
  cases boot_step h hs with
  | same boot => exact boot.linkBootOk hs
  | dropped _ challenge =>
    intro hhave
    rw [challenge] at hhave
    cases hhave
  | acquired _ link nonzero => exact fun _ => ⟨link, nonzero⟩

theorem linkBootOk_of_run (h : (bridgeMachine cfg initialSession).Run tr s) : LinkBootOk s :=
  h.invariant (I := fun _ => LinkBootOk) (by intro hhave; cases hhave)
    fun _ _ _ _ _ _ hi hstep => linkBootOk_step hi (rule_of_step hstep)

/-- Within a session the boot challenge does not change. -/
theorem sameBoot_of_not_rotates (hs : LinkBootOk x.pre)
    (h : BridgeRule cfg x.pre x.input x.post x.output) (hx : rotates x = false) :
    SameBoot x.pre x.post := by
  unfold rotates at hx
  cases boot_step h hs with
  | same boot => exact boot
  | dropped rotated | acquired rotated => exact absurd hx (by simpa using rotated)

/-! ### A run to an enabled frame -/

/-- A status of a board with its outputs off. -/
def neutralStatus (flags reason : UInt8) (bootId sessionId received applied tick : UInt32) :
    BoardStatusFrame :=
  { protocolVersion := kProtocolV2, flags := flags, boardTickMs := tick, bootId := bootId,
    sessionId := sessionId, receivedSequence := received, appliedSequence := applied,
    safetyReason := reason, pwmUs := Vector.replicate _ 1500 }

def authorityEndpoint : Endpoint := ⟨"command_authority", "/"⟩

/-- A command of the authority for all thrusters at rest. -/
def authorityCommand (armed : Bool) (generation : UInt64) : ThrusterCommand :=
  { enable := armed, armed := armed, armGeneration := generation,
    source := "command_authority:manual" }

/-- The next piece of the running io handler, at one second. -/
def nextIo : BridgeInput := .continueIo 1000000000 9

/-- The link opens, boot 7 reports, and session 3 completes its handshake. -/
def handshakeInputs : List BridgeInput :=
  [.openSerial .opened 2, nextIo, nextIo, nextIo, nextIo,
    .boardStatus (neutralStatus kStatusFlagFailsafe 1 7 0 0 0 5) 1000000000 3, nextIo, nextIo,
    .writeCompleted false, nextIo,
    .boardStatus (neutralStatus kStatusFlagSessionEstablished kSafetyReasonDisabled 7 3 1 1 6)
      1000000000 4]

/-- The authority disarms and arms, and an enabled frame follows the handshake. -/
def enabledInputs : List BridgeInput :=
  handshakeInputs ++
    [.publishStatus (some [authorityEndpoint]) 1,
      .onCommand 1 1000000000 (authorityCommand false 0),
      .onCommand 1 1000000000 (authorityCommand true 1),
      .writeCommand 1 1000000000 5, .enqueueLatestWrite, .drainLatestWrite, nextIo,
      .writeCompleted false, nextIo]

/-- The transition hands an enabled frame to the serial port. -/
def dispatchesEnabled (x : BridgeTransition) : Bool := x.output.any (·.enable)

theorem dispatchesEnabled_iff : dispatchesEnabled x = true ↔
    ∃ w, x.output = some w ∧ w.enable = true := by
  unfold dispatchesEnabled
  cases x.output <;> simp

example : (bridgeMachine {} 1).execCheck enabledInputs (fun x _ => dispatchesEnabled x) = true := by
  decide +kernel

end RobotCore
