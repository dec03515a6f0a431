import RobotCore.Bridge.Equiv.Wire

/-!
# Validation of acknowledgements

`AckGood` says in terms of the frames of the running session what a good acknowledgement is.
`ackFaultReason_eq_none_iff` is soundness and completeness of the checks on it: they look the
sequences up in a bounded history and compare them as serial numbers, but within a session of fewer
than `2 ^ 31` sequence numbers the history holds every frame inside the lag budget
(`mem_history_of_lag`) and the serial order is the order of the numbers.

As for the stream of frames this needs that no rotation draws the session id of a waiting request.
-/

namespace RobotCore

open Machine

variable {cfg : BridgeConfig} {initialSession : UInt32} {s s' : Bridge} {o : Option WriteRequest}
  {x : BridgeTransition} {tr : BridgeHistory} {board : BoardStatusFrame} {nowNs : ℤ}
  {drawn : UInt32}

/-! ### The history holds the lag budget -/

/-- In a list that strictly decreases under `f`, an element whose key is within `n` of the first
one is among the first `n + 1`. -/
theorem mem_take_of_le_add {α : Type*} {f : α → ℕ} {l : List α} {a b : α} {n : ℕ}
    (hl : (b :: l).Pairwise fun later earlier => f earlier < f later) (ha : a ∈ b :: l)
    (h : f b ≤ f a + n) : a ∈ (b :: l).take (n + 1) := by
  induction l generalizing b n with
  | nil => simpa using ha
  | cons c l ih =>
    rcases List.mem_cons.mp ha with rfl | ha
    · simp
    · have hcb : f c < f b := List.rel_of_pairwise_cons hl List.mem_cons_self
      have hac : f a ≤ f c := by
        rcases List.mem_cons.mp ha with rfl | ha
        · exact le_rfl
        · exact (List.rel_of_pairwise_cons hl.of_cons ha).le
      obtain ⟨m, rfl⟩ : ∃ m, n = m + 1 := ⟨n - 1, by omega⟩
      rw [List.take_succ_cons]
      exact List.mem_cons_of_mem _ (ih hl.of_cons ha (by omega))

/-- Every dispatched frame within the lag budget is still in the dispatch history. -/
theorem mem_history_of_lag (htrace : SessionTrace tr s) (hwire : WireTrace tr s)
    (hcount : issuedCount tr < 2 ^ 31) {frame : WriteRequest} (hframe : frame ∈ dispatchedFrames tr)
    (hlag : s.session.lastDispatchedSequence.toNat
      ≤ frame.sequence.toNat + kMaximumAckSequenceLag.toNat) :
    dispatchedFrame frame ∈ s.session.dispatchedHistory := by
  rw [htrace.history]
  refine List.mem_map_of_mem (List.mem_reverse.mpr ?_)
  have horder := hwire.order hcount
  have hlast := htrace.last
  cases heq : dispatchedFrames tr with
  | nil => simp [heq] at hframe
  | cons newest older =>
    rw [heq] at hframe horder hlast
    rw [hlast newest rfl] at hlag
    have hmem := mem_take_of_le_add horder hframe hlag
    exact List.take_subset_take_left _ (by decide) hmem

/-- A sequence names one frame of the session. -/
theorem eq_of_sequence_eq (hwire : WireTrace tr s) (hcount : issuedCount tr < 2 ^ 31)
    {f g : WriteRequest} (hf : f ∈ dispatchedFrames tr) (hg : g ∈ dispatchedFrames tr)
    (h : f.sequence = g.sequence) : f = g := by
  have hnodup : ((dispatchedFrames tr).map (·.sequence)).Nodup := by
    rw [List.Nodup, List.pairwise_map]
    exact (hwire.order hcount).imp fun hlt heq => by rw [heq] at hlt; exact lt_irrefl _ hlt
  exact List.inj_on_of_nodup_map hnodup hf hg h

/-- The lookup finds the frame a sequence names. -/
theorem findDispatched_of_mem (htrace : SessionTrace tr s) (hwire : WireTrace tr s)
    (hcount : issuedCount tr < 2 ^ 31) {frame : WriteRequest} (hframe : frame ∈ dispatchedFrames tr)
    (hlag : s.session.lastDispatchedSequence.toNat
      ≤ frame.sequence.toNat + kMaximumAckSequenceLag.toNat) :
    findDispatched s.session.dispatchedHistory frame.sequence = some (dispatchedFrame frame) := by
  have hmem := mem_history_of_lag htrace hwire hcount hframe hlag
  cases hfind : findDispatched s.session.dispatchedHistory frame.sequence with
  | none =>
    rw [findDispatched_eq_find, List.find?_eq_none] at hfind
    exact absurd (hfind _ (List.mem_reverse.mpr hmem)) (by simp [dispatchedFrame])
  | some found =>
    obtain ⟨w, hw, rfl, hseq⟩ := htrace.dispatched_of_find hfind
    rw [eq_of_sequence_eq hwire hcount hw hframe hseq]

/-! ### Soundness and completeness -/

/-- A good acknowledgement: it names two frames dispatched in the session, the applied one not
after the received one, neither before the baseline and both within the lag budget of the last
dispatched one, and its outputs are those of the applied frame. -/
structure AckGood (tr : BridgeHistory) (s : Session) (board : BoardStatusFrame) : Prop where
  received : ∃ frame ∈ dispatchedFrames tr, frame.sequence = board.receivedSequence
  applied : ∃ frame ∈ dispatchedFrames tr, frame.sequence = board.appliedSequence ∧
    hasFlag board.flags kStatusFlagOutputsEnabled = frame.enable ∧
    ∀ channel : Fin kThrusterChannels,
      board.pwmUs.get channel = expectedPwmUs (dispatchedFrame frame) channel
  order : board.appliedSequence.toNat ≤ board.receivedSequence.toNat
  baseline : s.haveAckBaseline = true →
    s.lastAckReceived.toNat ≤ board.receivedSequence.toNat ∧
      s.lastAckApplied.toNat ≤ board.appliedSequence.toNat
  receivedLag : s.lastDispatchedSequence.toNat
    ≤ board.receivedSequence.toNat + kMaximumAckSequenceLag.toNat
  appliedLag : s.lastDispatchedSequence.toNat
    ≤ board.appliedSequence.toNat + kMaximumAckSequenceLag.toNat

/-- The frames of a session go up to the last dispatched one. -/
theorem le_last (htrace : SessionTrace tr s) (hwire : WireTrace tr s)
    (hcount : issuedCount tr < 2 ^ 31) {frame : WriteRequest}
    (hframe : frame ∈ dispatchedFrames tr) :
    frame.sequence.toNat ≤ s.session.lastDispatchedSequence.toNat ∧
      s.session.lastDispatchedSequence.toNat < 2 ^ 31 ∧
      s.session.haveDispatchedSequence = true := by
  have horder := hwire.order hcount
  have hlast := htrace.last
  have hhave := htrace.dispatched
  have hframes := hwire.frames
  cases heq : dispatchedFrames tr with
  | nil => simp [heq] at hframe
  | cons newest older =>
    rw [heq] at hframe horder hlast hhave hframes
    have hnewest := (hframes newest List.mem_cons_self).2.toNat_le hcount
    rw [hlast newest rfl]
    refine ⟨?_, by omega, hhave⟩
    rcases List.mem_cons.mp hframe with rfl | hframe
    · exact le_rfl
    · exact (List.rel_of_pairwise_cons horder hframe).le

/-- The lag check, for a sequence that is not after the last dispatched one. -/
theorem lagExceeded_eq_false_iff {last sequence : UInt32} (hle : sequence.toNat ≤ last.toNat) :
    lagExceeded last sequence = false ↔
      last.toNat ≤ sequence.toNat + kMaximumAckSequenceLag.toNat := by
  have hsub : (last - sequence).toNat = last.toNat - sequence.toNat :=
    UInt32.toNat_sub_of_le _ _ (UInt32.le_iff_toNat_le.mpr hle)
  have hmax : kMaximumAckSequenceLag.toNat = 8 := rfl
  unfold lagExceeded
  dsimp only
  rw [Bool.or_eq_false_iff, decide_eq_false_iff_not, decide_eq_false_iff_not, ge_iff_le, gt_iff_lt,
    UInt32.le_iff_toNat_le, UInt32.lt_iff_toNat_lt, hsub, hmax]
  have : (0x80000000 : UInt32).toNat = 2 ^ 31 := rfl
  omega

theorem matches_iff {frame : WriteRequest} (hboot : frame.bootId = board.bootId)
    (hsession : frame.sessionId = board.sessionId)
    (hsequence : frame.sequence = board.appliedSequence) :
    boardStatusMatchesAppliedCommand board (dispatchedFrame frame) = true ↔
      hasFlag board.flags kStatusFlagOutputsEnabled = frame.enable ∧
        ∀ channel : Fin kThrusterChannels,
          board.pwmUs.get channel = expectedPwmUs (dispatchedFrame frame) channel := by
  have hflag : hasFlag (dispatchedFrame frame).flags kCommandFlagEnable = frame.enable :=
    hasFlag_commandFlags_enable frame.enable frame.calibrateImuGyro
  have hids : (board.bootId != (dispatchedFrame frame).bootId ||
      board.sessionId != (dispatchedFrame frame).sessionId ||
      board.appliedSequence != (dispatchedFrame frame).sequence) = false := by
    simp [dispatchedFrame, hboot, hsession, hsequence]
  unfold boardStatusMatchesAppliedCommand
  rw [hids, hflag, if_neg Bool.false_ne_true]
  cases hasFlag board.flags kStatusFlagOutputsEnabled <;> cases frame.enable <;> simp

/-- **The checks on an acknowledgement are sound and complete.** -/
theorem ackFaultReason_eq_none_iff (htrace : SessionTrace tr s) (hwire : WireTrace tr s)
    (hcount : issuedCount tr < 2 ^ 31) (hboot : board.bootId = s.expectedBootId)
    (hreported : reportedSession s.session board = true) :
    ackFaultReason s.session board = none ↔ AckGood tr s.session board := by
  have hsession : board.sessionId = s.session.sessionId := by
    unfold reportedSession at hreported
    exact beq_iff_eq.mp (Bool.and_eq_true_iff.mp hreported).2
  -- The frames of the session carry the boot and session the board reports.
  have hids : ∀ frame ∈ dispatchedFrames tr,
      frame.bootId = board.bootId ∧ frame.sessionId = board.sessionId := fun frame hframe =>
    ⟨(hwire.frames frame hframe).1.trans hboot.symm,
      (htrace.session frame hframe).trans hsession.symm⟩
  constructor
  · intro h
    obtain ⟨received, applied, hreceived, happlied, hmatches⟩ := identify_of_valid h
    obtain ⟨r, hr, -, hrseq⟩ := htrace.dispatched_of_find hreceived
    obtain ⟨a, ha, rfl, haseq⟩ := htrace.dispatched_of_find happlied
    obtain ⟨hrle, hlast, -⟩ := le_last htrace hwire hcount hr
    have hale := (le_last htrace hwire hcount ha).1
    rw [hrseq] at hrle
    rw [haseq] at hale
    unfold ackFaultReason at h
    split_ifs at h with h1 h2 h3 h4 h5 h6
    rw [sequenceNewer_iff_lt (by omega) (by omega)] at h2
    rw [Bool.not_eq_true, lagExceeded_eq_false_iff hrle] at h5
    rw [Bool.not_eq_true, lagExceeded_eq_false_iff hale] at h6
    obtain ⟨hout, hpwm⟩ := (matches_iff (hids a ha).1 (hids a ha).2 haseq).mp hmatches
    refine ⟨⟨r, hr, hrseq⟩, ⟨a, ha, haseq, hout, hpwm⟩, by omega, fun hbase => ?_, h5, h6⟩
    obtain ⟨⟨r', hr', hrseq'⟩, ⟨a', ha', haseq'⟩⟩ := htrace.baseline hbase
    have hrle' := (le_last htrace hwire hcount hr').1
    have hale' := (le_last htrace hwire hcount ha').1
    rw [hrseq'] at hrle'
    rw [haseq'] at hale'
    rw [hbase, Bool.true_and, Bool.or_eq_true, not_or,
      sequenceNewer_iff_lt (by omega) (by omega), sequenceNewer_iff_lt (by omega) (by omega)] at h4
    omega
  · rintro ⟨⟨r, hr, hrseq⟩, ⟨a, ha, haseq, hout, hpwm⟩, horder, hbaseline, hrlag, halag⟩
    obtain ⟨hrle, hlast, hhave⟩ := le_last htrace hwire hcount hr
    have hale := (le_last htrace hwire hcount ha).1
    rw [hrseq] at hrle
    rw [haseq] at hale
    have hfindr := findDispatched_of_mem htrace hwire hcount hr (hrseq ▸ hrlag)
    have hfinda := findDispatched_of_mem htrace hwire hcount ha (haseq ▸ halag)
    rw [hrseq] at hfindr
    rw [haseq] at hfinda
    have hidentify : identifyDispatched s.session board = some (dispatchedFrame a) := by
      unfold identifyDispatched
      rw [hfindr, hfinda]
      dsimp only
      rw [if_neg]
      simp [dispatchedFrame, hids r hr]
    have hmatches := (matches_iff (hids a ha).1 (hids a ha).2 haseq).mpr ⟨hout, hpwm⟩
    have hback : (s.session.haveAckBaseline &&
        (sequenceNewer s.session.lastAckReceived board.receivedSequence ||
          sequenceNewer s.session.lastAckApplied board.appliedSequence)) = false := by
      cases hbase : s.session.haveAckBaseline with
      | false => rfl
      | true =>
        obtain ⟨hbr, hba⟩ := hbaseline hbase
        rw [Bool.true_and, Bool.or_eq_false_iff, ← Bool.not_eq_true, ← Bool.not_eq_true,
          sequenceNewer_iff_lt (by omega) (by omega), sequenceNewer_iff_lt (by omega) (by omega)]
        omega
    unfold ackFaultReason
    rw [hhave, Bool.not_true, if_neg Bool.false_ne_true,
      if_neg (by rw [sequenceNewer_iff_lt (by omega) (by omega)]; omega),
      if_neg (by rw [sequenceNewer_iff_lt (by omega) (by omega)]; omega), hback,
      if_neg Bool.false_ne_true, (lagExceeded_eq_false_iff hrle).mpr hrlag,
      if_neg Bool.false_ne_true, (lagExceeded_eq_false_iff hale).mpr halag,
      if_neg Bool.false_ne_true, hidentify]
    dsimp only
    rw [hmatches, if_pos rfl]

/-! ### Main result -/

theorem rotatedFor_updateBootIdentity (hhave : s.board.haveLinkBootChallenge = true)
    (hboot : board.bootId = s.board.bootIdentity) (htick : tickRolledBack s.board board = false) :
    (updateBootIdentity s board drawn).rotatedFor = none := by
  unfold updateBootIdentity
  dsimp only
  rw [hhave, Bool.not_true, if_neg Bool.false_ne_true, hboot, bne_self_eq_false,
    if_neg Bool.false_ne_true, htick, if_neg Bool.false_ne_true]

/-- A status of the known boot whose tick did not run backwards leaves the session to its
acknowledgement. -/
theorem rotatedFor_afterBootIdentity (nowNs : ℤ) (drawn : UInt32)
    (hhave : s.board.haveLinkBootChallenge = true)
    (hboot : board.bootId = s.board.bootIdentity) (htick : tickRolledBack s.board board = false) :
    (afterBootIdentity s board nowNs drawn).rotatedFor = none ∧
      (afterBootIdentity s board nowNs drawn).bridge.session = s.session := by
  rcases session_afterBootIdentity s nowNs drawn board with
    ⟨⟨reason, hrot⟩, -⟩ | ⟨hrot, -, -, -, hs⟩
  · have hnone : (afterBootIdentity s board nowNs drawn).rotatedFor = none :=
      rotatedFor_updateBootIdentity (s := { s with board := { s.board with
        statusSemanticFault := false, heartbeatTimeoutLatched := false } }) hhave hboot htick
    rw [hnone] at hrot
    cases hrot
  · exact ⟨hrot, hs⟩

/-- A status that is established for the running session acknowledges a request or rotates. -/
theorem updateSession_reported {p : StatusProgress} (drawn : UInt32) (hp : p.rotatedFor = none)
    (hreported : reportedSession p.bridge.session board = true) :
    (ackFaultReason p.bridge.session board = none → updateSession p board drawn =
      ⟨{ p.bridge with session := acceptAck p.bridge.session board }, none⟩) ∧
    ∀ reason, ackFaultReason p.bridge.session board = some reason → updateSession p board drawn =
      ⟨rotateSessionLocked p.bridge drawn reason true, some reason⟩ := by
  unfold updateSession
  dsimp only
  rw [hp, hreported, Bool.not_true, Bool.and_false]
  exact ⟨fun hfault => by rw [hfault]; rfl, fun reason hfault => by rw [hfault]; rfl⟩

/-- What a status of the known boot that is established for the current session does to it. -/
theorem session_acceptBoardStatus_reported (nowNs : ℤ) (drawn : UInt32)
    (hsem : boardStatusSemanticReason board = none)
    (hhave : s.board.haveLinkBootChallenge = true) (hboot : board.bootId = s.board.bootIdentity)
    (htick : tickRolledBack s.board board = false)
    (hreported : reportedSession s.session board = true) :
    (acceptBoardStatusIo s board nowNs drawn).session
      = if (ackFaultReason s.session board).isNone then acceptAck s.session board
        else .fresh drawn true := by
  obtain ⟨hrot, hs⟩ := rotatedFor_afterBootIdentity nowNs drawn hhave hboot htick
  obtain ⟨hnone, hsome⟩ := updateSession_reported drawn hrot (hs ▸ hreported)
  rw [hs] at hnone hsome
  unfold acceptBoardStatusIo
  rw [hsem]
  dsimp only
  rw [acceptValidStatus_eq]
  cases hfault : ackFaultReason s.session board with
  | some reason =>
    rw [hsome reason hfault]
    rfl
  | none =>
    rw [hnone hfault]
    dsimp only
    split
    · rw [session_finishShutdown]
      rfl
    · rfl

/-- After the history `tr` no frame is dispatched enabled before a new handshake. -/
def BlockedUntilHandshake (cfg : BridgeConfig) (initialSession : UInt32) (tr : BridgeHistory) :
    Prop :=
  ∀ after x s w, (bridgeMachine cfg initialSession).Run (x :: (after ++ tr)) s →
    x.output = some w → w.enable = true →
    ∃ later z before board, after = later ++ z :: before ∧ Handshake (before ++ tr) z board

theorem blocked_of_rotates (hx : rotates x = true) :
    BlockedUntilHandshake cfg initialSession (x :: tr) := by
  intro after y s w h hw hen
  obtain ⟨nowNs, -, request, -, -, -, -, rfl, -⟩ :=
    dispatch_of_output (hw ▸ rule_of_step h.head_step)
  have hallowed := enableAllowed_of_host (sentRequest_enable cfg y.pre request nowNs hen).2.1
  obtain ⟨later, z, before, board, heq, hkept, hz, -⟩ :=
    (handshakeTrace_of_run h.tail).done hallowed.acknowledged
  -- The session has not been rotated since its handshake, so the handshake is after `x`.
  have hne : ∀ y ∈ later ++ [z], y ≠ x := by
    rintro y hy rfl
    rw [hkept y hy] at hx
    cases hx
  rcases List.append_eq_append_iff.mp heq with ⟨mid, rfl, hmid⟩ | ⟨mid, rfl, hmid⟩
  · cases mid with
    | nil =>
      obtain ⟨rfl, -⟩ := List.cons.inj hmid
      exact absurd rfl (hne x (by simp))
    | cons y mid =>
      obtain ⟨rfl, -⟩ := List.cons.inj hmid
      exact absurd rfl (hne x (by simp))
  · cases mid with
    | nil =>
      obtain ⟨rfl, -⟩ := List.cons.inj hmid
      exact absurd rfl (hne z (by simp))
    | cons y mid =>
      obtain ⟨rfl, rfl⟩ := List.cons.inj hmid
      exact ⟨later, z, mid, board, rfl, hz⟩

/-- What the bridge should do with an acknowledgement `board` of the current session: a good one
keeps the session and moves the baseline, any other rotates the session with the fault latched and
blocks enabling until a new handshake.  The history holds every frame inside the lag budget. -/
structure AckOk (cfg : BridgeConfig) (initialSession : UInt32) (tr : BridgeHistory)
    (x : BridgeTransition) (board : BoardStatusFrame) : Prop where
  kept : AckGood tr x.pre.session board ↔
    x.post.session.sessionId = x.pre.session.sessionId ∧ x.post.session.haveAckBaseline = true ∧
      x.post.session.lastAckReceived = board.receivedSequence ∧
      x.post.session.lastAckApplied = board.appliedSequence
  rotated : ¬ AckGood tr x.pre.session board →
    rotates x = true ∧ x.post.session.ackFaultLatched = true ∧
      BlockedUntilHandshake cfg initialSession (x :: tr)
  history : ∀ frame ∈ dispatchedFrames tr,
    x.pre.session.lastDispatchedSequence.toNat
      ≤ frame.sequence.toNat + kMaximumAckSequenceLag.toNat →
    dispatchedFrame frame ∈ x.pre.session.dispatchedHistory

/-- The status `board` is semantically valid, of the boot of the link, without tick rollback, and
established for the current session. -/
structure CurrentStatus (s : Bridge) (board : BoardStatusFrame) : Prop where
  semantic : boardStatusSemanticReason board = none
  challenge : s.board.haveLinkBootChallenge = true
  boot : board.bootId = s.board.linkBootId
  tick : tickRolledBack s.board board = false
  session : reportedSession s.session board = true

/-- **Acknowledgements are validated soundly and completely** in a session of fewer than `2 ^ 31`
sequence numbers, as long as no rotation draws the session id of a waiting request. -/
theorem ackOk_of_noRedraw (h : (bridgeMachine cfg initialSession).Run (x :: tr) s)
    (hcount : issuedCount tr < 2 ^ 31) (hdraw : ∀ y ∈ tr, redrawsWaiting y = false)
    (hx : x.input = .boardStatus board nowNs drawn) (hstatus : CurrentStatus x.pre board) :
    AckOk cfg initialSession tr x board := by
  have htrace := sessionTrace_of_run h.tail
  have hwire := wireTrace_of_run h.tail hdraw
  have hboot : board.bootId = x.pre.expectedBootId := by
    rw [Bridge.expectedBootId, hstatus.challenge, if_pos rfl, hstatus.boot]
  have hgood := ackFaultReason_eq_none_iff htrace hwire hcount hboot hstatus.session
  have hidentity : board.bootId = x.pre.board.bootIdentity :=
    hstatus.boot.trans (linkBootOk_of_run h.tail hstatus.challenge).1
  obtain ⟨hpost, hdrawn⟩ : x.post = acceptBoardStatusIo x.pre board nowNs drawn ∧
      DrawOk x.pre drawn := by
    have hrule := rule_of_step h.head_step
    rw [hx] at hrule
    generalize x.post = post at hrule ⊢
    generalize x.output = output at hrule
    cases hrule with
    | boardStatus _ draw => exact ⟨rfl, draw⟩
  have hsession := session_acceptBoardStatus_reported nowNs drawn
    hstatus.semantic hstatus.challenge hidentity hstatus.tick hstatus.session
  rw [← hpost] at hsession
  cases hfault : ackFaultReason x.pre.session board with
  | none =>
    have hack := hgood.mp hfault
    rw [hfault, Option.isNone_none, if_pos rfl] at hsession
    refine ⟨⟨fun _ => ?_, fun _ => hack⟩, fun hbad => absurd hack hbad, fun frame hframe =>
      mem_history_of_lag htrace hwire hcount hframe⟩
    rw [hsession, acceptAck_eq]
    exact ⟨rfl, rfl, rfl, rfl⟩
  | some reason =>
    have hbad : ¬ AckGood tr x.pre.session board := fun hack => by
      rw [hgood.mpr hack] at hfault
      cases hfault
    rw [hfault, Option.isNone_some, if_neg Bool.false_ne_true] at hsession
    have hid : x.post.session.sessionId = drawn := by
      rw [hsession]
      rfl
    have hrot : rotates x = true := rotates_of_draw hdrawn hid
    refine ⟨⟨fun hack => absurd hack hbad, fun hkept => ?_⟩, fun _ =>
      ⟨hrot, by rw [hsession]; rfl, blocked_of_rotates hrot⟩, fun frame hframe =>
      mem_history_of_lag htrace hwire hcount hframe⟩
    exact absurd (hid.symm.trans hkept.1) hdrawn.2

section Examples

/-- The status a transition receives. -/
def BridgeInput.status? : BridgeInput → Option BoardStatusFrame
  | .boardStatus board _ _ => some board
  | _ => none

theorem BridgeInput.status?_eq_some {input : BridgeInput} (h : input.status? = some board) :
    ∃ nowNs drawn, input = .boardStatus board nowNs drawn := by
  cases input with
  | boardStatus board' nowNs drawn =>
    obtain rfl := Option.some.inj h
    exact ⟨nowNs, drawn, rfl⟩
  | _ => cases h

instance (s : Bridge) (board : BoardStatusFrame) : Decidable (CurrentStatus s board) :=
  decidable_of_iff (boardStatusSemanticReason board = none ∧
      s.board.haveLinkBootChallenge = true ∧ board.bootId = s.board.linkBootId ∧
      tickRolledBack s.board board = false ∧ reportedSession s.session board = true)
    ⟨fun ⟨h₁, h₂, h₃, h₄, h₅⟩ => ⟨h₁, h₂, h₃, h₄, h₅⟩,
      fun ⟨h₁, h₂, h₃, h₄, h₅⟩ => ⟨h₁, h₂, h₃, h₄, h₅⟩⟩

instance (tr : BridgeHistory) (s : Session) (board : BoardStatusFrame) :
    Decidable (AckGood tr s board) :=
  decidable_of_iff
    ((∃ frame ∈ dispatchedFrames tr, frame.sequence = board.receivedSequence) ∧
      (∃ frame ∈ dispatchedFrames tr, frame.sequence = board.appliedSequence ∧
        hasFlag board.flags kStatusFlagOutputsEnabled = frame.enable ∧
        ∀ channel : Fin kThrusterChannels,
          board.pwmUs.get channel = expectedPwmUs (dispatchedFrame frame) channel) ∧
      board.appliedSequence.toNat ≤ board.receivedSequence.toNat ∧
      (s.haveAckBaseline = true → s.lastAckReceived.toNat ≤ board.receivedSequence.toNat ∧
        s.lastAckApplied.toNat ≤ board.appliedSequence.toNat) ∧
      s.lastDispatchedSequence.toNat
        ≤ board.receivedSequence.toNat + kMaximumAckSequenceLag.toNat ∧
      s.lastDispatchedSequence.toNat
        ≤ board.appliedSequence.toNat + kMaximumAckSequenceLag.toNat)
    ⟨fun ⟨h₁, h₂, h₃, h₄, h₅, h₆⟩ => ⟨h₁, h₂, h₃, h₄, h₅, h₆⟩,
      fun ⟨h₁, h₂, h₃, h₄, h₅, h₆⟩ => ⟨h₁, h₂, h₃, h₄, h₅, h₆⟩⟩

theorem ackOk_of_noRedraw_handshakeInputs :
    ∃ x tr s board, (bridgeMachine {} 1).Run (x :: tr) s ∧ CurrentStatus x.pre board ∧
      AckGood tr x.pre.session board ∧ AckOk {} 1 tr x board := by
  obtain ⟨x, tr, s, hrun, hx⟩ := run_of_execCheck (bridgeMachine {} 1) handshakeInputs
    (fun x tr => decide (issuedCount tr < 2 ^ 31) && (tr.all fun y => !redrawsWaiting y) &&
      x.input.status?.any fun board =>
        decide (CurrentStatus x.pre board) && decide (AckGood tr x.pre.session board))
    (by decide +kernel)
  simp only [Bool.and_eq_true, decide_eq_true_iff, List.all_eq_true, Bool.not_eq_true',
    Option.any_eq_true] at hx
  obtain ⟨⟨hcount, hdraw⟩, board, hboard, hstatus, hgood⟩ := hx
  obtain ⟨nowNs, drawn, hinput⟩ := BridgeInput.status?_eq_some hboard
  exact ⟨x, tr, s, board, hrun, hstatus, hgood,
    ackOk_of_noRedraw hrun hcount hdraw hinput hstatus⟩

/-- The stale request of `redrawInputs` has been sent to boot 9, which acknowledges it. -/
def staleAckInputs : List BridgeInput :=
  redrawInputs ++
    [.boardStatus (neutralStatus kStatusFlagSessionEstablished kSafetyReasonDisabled 9 3 2 2 2)
      2000000000 11]

/-- After a redrawn session id a good acknowledgement is taken for a fault. -/
theorem not_ackOk_of_redraw :
    ¬ ∀ (cfg : BridgeConfig) (initialSession : UInt32) (tr : BridgeHistory) (x : BridgeTransition)
      (s : Bridge) (board : BoardStatusFrame) (nowNs : ℤ) (drawn : UInt32),
      (bridgeMachine cfg initialSession).Run (x :: tr) s → issuedCount tr < 2 ^ 31 →
      x.input = .boardStatus board nowNs drawn → CurrentStatus x.pre board →
      AckOk cfg initialSession tr x board := by
  intro hall
  obtain ⟨x, tr, s, hrun, hx⟩ := run_of_execCheck (bridgeMachine {} 1) staleAckInputs
    (fun x tr => decide (issuedCount tr < 2 ^ 31) && x.input.status?.any fun board =>
      decide (CurrentStatus x.pre board) && decide (AckGood tr x.pre.session board) &&
        x.post.session.sessionId != x.pre.session.sessionId)
    (by decide +kernel)
  simp only [Bool.and_eq_true, decide_eq_true_iff, Option.any_eq_true, bne_iff_ne] at hx
  obtain ⟨hcount, board, hboard, ⟨hstatus, hgood⟩, hrotated⟩ := hx
  obtain ⟨nowNs, drawn, hinput⟩ := BridgeInput.status?_eq_some hboard
  exact hrotated ((hall {} 1 tr x s board nowNs drawn hrun hcount hinput hstatus).kept.mp hgood).1

end Examples

end RobotCore
