import RobotCore.Bridge.Equiv.Trace

/-!
# Handshake before enable

`enabled_after_handshake`: a frame is dispatched enabled only in a session in which the board has
acknowledged a disabled frame of that session, with its outputs off, and a rotation starts without
any acknowledgement, handshake or dispatch history.

The invariant `HandshakeTrace` follows the acknowledgement flag: while it is clear the session has
dispatched disabled frames only, so the status that sets it names one of them.
-/

namespace RobotCore

open Machine

variable {cfg : BridgeConfig} {initialSession : UInt32} {s : Bridge} {w : WriteRequest}
  {x : BridgeTransition} {tr : BridgeHistory} {board : BoardStatusFrame}

/-! ### The handshake -/

/-- In the transition `x` the bridge accepts the acknowledgement `board` of its current session and
boot: it names a disabled frame dispatched in the session (`before` is the history up to `x`), and
the board reports its outputs disabled and all channels neutral. -/
structure Handshake (before : BridgeHistory) (x : BridgeTransition) (board : BoardStatusFrame) :
    Prop where
  input : ∃ nowNs drawn, x.input = .boardStatus board nowNs drawn
  semantic : boardStatusSemanticReason board = none
  accepted : ackFaultReason x.pre.session board = none
  session : reportedSession x.pre.session board = true
  boot : x.pre.board.haveLinkBootChallenge = true ∧ board.bootId = x.pre.board.linkBootId
  neutral : ∃ frame ∈ dispatchedFrames before, frame.enable = false ∧
    frame.sequence = board.appliedSequence ∧ frame.sessionId = board.sessionId ∧
    frame.bootId = board.bootId
  outputs : hasFlag board.flags kStatusFlagOutputsEnabled = false
  pwm : ∀ channel : Fin kThrusterChannels, board.pwmUs.get channel = 1500

/-- Nothing is acknowledged or dispatched. -/
structure Session.Cleared (s : Session) : Prop where
  acknowledged : s.sessionAcknowledged = false
  baseline : s.haveAckBaseline = false
  handshake : s.haveHandshakeSequence = false
  dispatched : s.haveDispatchedSequence = false
  history : s.dispatchedHistory = []

/-- The running session has completed a handshake. -/
def HandshakeDone (tr : BridgeHistory) (s : Bridge) : Prop :=
  ∃ after x before board, tr = after ++ x :: before ∧
    (∀ y ∈ after ++ [x], rotates y = false) ∧ Handshake before x board ∧
    s.board.haveLinkBootChallenge = true ∧ board.bootId = s.board.linkBootId ∧
    board.sessionId = s.session.sessionId

/-- What the acknowledgement flag says of the running session. -/
structure HandshakeTrace (tr : BridgeHistory) (s : Bridge) : Prop where
  disabled : s.session.sessionAcknowledged = false → ∀ w ∈ dispatchedFrames tr, w.enable = false
  done : s.session.sessionAcknowledged = true → HandshakeDone tr s

theorem hasFlag_commandFlags_enable (enable calibrate : Bool) :
    hasFlag (commandFlags enable calibrate) kCommandFlagEnable = enable := by
  cases enable <;> cases calibrate <;> rfl

/-- A status that matches a disabled frame reports disabled outputs and neutral channels. -/
theorem neutral_of_matches (hw : w.enable = false)
    (h : boardStatusMatchesAppliedCommand board (dispatchedFrame w) = true) :
    board.bootId = w.bootId ∧ board.sessionId = w.sessionId ∧ board.appliedSequence = w.sequence ∧
      hasFlag board.flags kStatusFlagOutputsEnabled = false ∧
      ∀ channel : Fin kThrusterChannels, board.pwmUs.get channel = 1500 := by
  have hflag : hasFlag (dispatchedFrame w).flags kCommandFlagEnable = false := by
    rw [← hw]
    exact hasFlag_commandFlags_enable w.enable w.calibrateImuGyro
  unfold boardStatusMatchesAppliedCommand at h
  rw [hflag] at h
  split_ifs at h with hids houtputs
  simp only [bne_iff_ne, ne_eq, Bool.or_eq_true, not_or, not_not] at hids
  have hpwm := of_decide_eq_true h
  refine ⟨hids.1.1, hids.1.2, hids.2, by simpa using houtputs, fun channel => ?_⟩
  rw [hpwm channel]
  unfold expectedPwmUs
  rw [hflag]
  rfl

/-- The valid acknowledgement that first acknowledges a session is its handshake. -/
theorem handshake_of_acked {nowNs : ℤ} {drawn : UInt32}
    (htrace : SessionTrace tr x.pre) (hboot : LinkBootOk x.pre)
    (hdisabled : ∀ w ∈ dispatchedFrames tr, w.enable = false)
    (input : x.input = .boardStatus board nowNs drawn)
    (semantic : boardStatusSemanticReason board = none)
    (challenge : x.pre.board.haveLinkBootChallenge = true)
    (boot : board.bootId = x.pre.board.bootIdentity)
    (reported : reportedSession x.pre.session board = true)
    (valid : ackFaultReason x.pre.session board = none) : Handshake tr x board := by
  obtain ⟨-, applied, -, happlied, hmatches⟩ := identify_of_valid valid
  obtain ⟨w, hw, rfl, hseq⟩ := htrace.dispatched_of_find happlied
  obtain ⟨hwboot, hwsession, hwapplied, houtputs, hpwm⟩ :=
    neutral_of_matches (hdisabled w hw) hmatches
  exact ⟨⟨nowNs, drawn, input⟩, semantic, valid, reported,
    ⟨challenge, boot.trans (hboot challenge).1.symm⟩,
    ⟨w, hw, hdisabled w hw, hseq, hwsession.symm, hwboot.symm⟩, houtputs, hpwm⟩

/-- A completed handshake stays completed until the session rotates. -/
theorem HandshakeDone.cons (h : HandshakeDone tr x.pre) (hrot : rotates x = false)
    (hboot : SameBoot x.pre x.post) : HandshakeDone (x :: tr) x.post := by
  obtain ⟨after, y, before, board, rfl, hkept, hy, hhave, hlink, hsession⟩ := h
  refine ⟨x :: after, y, before, board, rfl, ?_, hy, hboot.challenge.trans hhave,
    hlink.trans hboot.link.symm, hsession.trans ?_⟩
  · intro z hz
    rcases List.mem_cons.mp hz with rfl | hz
    · exact hrot
    · exact hkept z hz
  · unfold rotates at hrot
    exact (bne_eq_false_iff_eq.mp hrot).symm

theorem handshakeTrace_step (htrace : SessionTrace tr x.pre) (hlink : LinkBootOk x.pre)
    (hrule : BridgeRule cfg x.pre x.input x.post x.output) (hi : HandshakeTrace tr x.pre)
    (hx : TraceChange cfg tr x) : HandshakeTrace (x :: tr) x.post := by
  -- what is done stays done while the session and the boot id stay
  have hkeep : rotates x = false → x.pre.session.sessionAcknowledged = true →
      HandshakeDone (x :: tr) x.post := fun hrot hack =>
    (hi.done hack).cons hrot (sameBoot_of_not_rotates hlink hrule hrot)
  cases hx with
  | kept session frames =>
    have hrot : rotates x = false := rotates_of_same (by rw [session])
    exact ⟨by rw [session, frames]; exact hi.disabled, by rw [session]; exact hkeep hrot⟩
  | issued session frames =>
    have hrot : rotates x = false := rotates_of_same (by rw [session]; rfl)
    exact ⟨by rw [session, frames]; exact hi.disabled, by rw [session]; exact hkeep hrot⟩
  | rotated drawn ackFault _ session frames =>
    -- a new session has no frame, and nothing is acknowledged
    refine ⟨fun _ => by rw [frames]; simp, fun hack => ?_⟩
    rcases session with ⟨hs, -⟩ | ⟨hs, -⟩ <;> rw [hs] at hack <;> cases hack
  | acked board nowNs drawn input semantic challenge boot reported valid session frames =>
    have hid := congrArg Session.sessionId session
    rw [acceptAck_sessionId] at hid
    have hrot : rotates x = false := rotates_of_same hid
    -- acknowledged before, or with this status
    cases hack : x.pre.session.sessionAcknowledged with
    | true =>
      refine ⟨fun hpost => ?_, fun _ => hkeep hrot hack⟩
      rw [session, acceptAck_eq] at hpost
      dsimp only at hpost
      rw [hack, Bool.true_or] at hpost
      cases hpost
    | false =>
      have hdisabled := hi.disabled hack
      refine ⟨fun _ => by rw [frames]; exact hdisabled, fun _ => ?_⟩
      have hdone := handshake_of_acked htrace hlink hdisabled input semantic challenge boot
        reported valid
      have hsame := sameBoot_of_not_rotates hlink hrule hrot
      refine ⟨[], x, tr, board, rfl, by simpa using hrot, hdone, ?_, ?_, ?_⟩
      · rw [hsame.challenge, challenge]
      · rw [hsame.link, hdone.boot.2]
      · rw [hid]
        unfold reportedSession at reported
        simp only [Bool.and_eq_true, beq_iff_eq] at reported
        exact reported.2
  | dispatched nowNs request _ _ _ output session frames =>
    have hid := congrArg Session.sessionId session
    rw [recordDispatch_sessionId] at hid
    have hrot : rotates x = false := rotates_of_same hid
    have hack : x.post.session.sessionAcknowledged = x.pre.session.sessionAcknowledged := by
      rw [session, recordDispatch_eq]
    refine ⟨fun hpost => ?_, fun hpost => hkeep hrot (hack ▸ hpost)⟩
    rw [hack] at hpost
    rw [frames]
    intro w hw
    rcases List.mem_cons.mp hw with rfl | hw
    · -- An enabled frame needs the acknowledgement.
      cases hen : (sentRequest cfg x.pre request nowNs).enable with
      | false => rfl
      | true =>
        have hallowed := (sentRequest_enable cfg x.pre request nowNs hen).2.1
        rw [(enableAllowed_of_host hallowed).acknowledged] at hpost
        cases hpost
    · exact hi.disabled hpost w hw

theorem handshakeTrace_of_run (h : (bridgeMachine cfg initialSession).Run tr s) :
    HandshakeTrace tr s := by
  refine (h.invariant (I := fun tr s =>
    SessionTrace tr s ∧ LinkBootOk s ∧ HandshakeTrace tr s) ?_ ?_).2.2
  · exact ⟨sessionTrace_of_run .start, linkBootOk_of_run .start, ⟨fun _ => by
      simp [dispatchedFrames], fun hack => by cases hack⟩⟩
  · rintro tr s i s' o hrun ⟨htrace, hlink, hi⟩ hstep
    have hrule := rule_of_step hstep
    have hchange := trace_step hrule tr
    exact ⟨sessionTrace_step htrace hchange, linkBootOk_step hlink hrule,
      handshakeTrace_step htrace hlink hrule hi hchange⟩

/-! ### Main result -/

/-- A rotation starts with nothing acknowledged or dispatched. -/
theorem cleared_of_rotates (hx : TraceChange cfg tr x) (hrot : rotates x = true) :
    x.post.session.Cleared := by
  have hsame : x.post.session.sessionId = x.pre.session.sessionId → x.post.session.Cleared := by
    intro hid
    rw [rotates_of_same hid] at hrot
    cases hrot
  cases hx with
  | kept session => exact hsame (by rw [session])
  | issued session => exact hsame (by rw [session]; rfl)
  | rotated drawn ackFault _ session =>
    rcases session with ⟨hs, -⟩ | ⟨hs, -⟩ <;> rw [hs] <;> exact ⟨rfl, rfl, rfl, rfl, rfl⟩
  | acked board nowNs drawn _ _ _ _ _ _ session =>
    exact hsame (by rw [session, acceptAck_sessionId])
  | dispatched nowNs request _ _ _ _ session =>
    exact hsame (by rw [session, recordDispatch_sessionId])

/-- **Handshake before enable.**  When a frame is dispatched enabled, the running session has
completed its handshake with the current boot.  A rotation leaves no acknowledgement, handshake
sequence or dispatch history behind, and another boot always rotates the session. -/
theorem enabled_after_handshake (h : (bridgeMachine cfg initialSession).Run (x :: tr) s) :
    (∀ w, x.output = some w → w.enable = true →
      w.sessionId = x.pre.session.sessionId ∧ HandshakeDone tr x.pre) ∧
    (rotates x = true → x.post.session.Cleared) ∧
    (rotates x = false → SameBoot x.pre x.post) := by
  have hrule := rule_of_step h.head_step
  refine ⟨fun w hw hen => ?_, cleared_of_rotates (trace_step hrule tr),
    sameBoot_of_not_rotates (linkBootOk_of_run h.tail) hrule⟩
  obtain ⟨nowNs, -, request, -, -, hcurrent, -, rfl, -⟩ := dispatch_of_output (hw ▸ hrule)
  have hallowed := (sentRequest_enable cfg x.pre request nowNs hen).2.1
  exact ⟨by rw [sentRequest_sessionId, hcurrent],
    (handshakeTrace_of_run h.tail).done (enableAllowed_of_host hallowed).acknowledged⟩

theorem enabled_after_handshake_enabledInputs :
    ∃ x tr s, (bridgeMachine {} 1).Run (x :: tr) s ∧ dispatchesEnabled x = true ∧
      HandshakeDone tr x.pre := by
  obtain ⟨x, tr, s, hrun, hx⟩ :=
    run_of_execCheck (bridgeMachine {} 1) enabledInputs (fun x _ => dispatchesEnabled x)
      (by decide +kernel)
  obtain ⟨w, hw, hen⟩ := dispatchesEnabled_iff.mp hx
  exact ⟨x, tr, s, hrun, hx, ((enabled_after_handshake hrun).1 w hw hen).2⟩

end RobotCore
