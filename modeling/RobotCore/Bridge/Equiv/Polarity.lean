import RobotCore.Bridge.Equiv.Enable
import Mathlib.Algebra.Order.Floor.Ring
import RobotCore.Lib.Numeral

/-!
# The PWM offsets of a command

The message definition and the deployed policy give the channels T5 and T6 the opposite sign when
the source is `command_authority:rl` (`polarizedOffset`).  `on_command` converts every channel as it
is, so the stored offsets follow the polarity only where it makes no difference: for every other
source, or when both channels round to no offset at all (`followsPolarity_iff`).
-/

namespace RobotCore

open Ieee Machine

attribute [local instance] Numeral.neZero_eight

variable {cfg : BridgeConfig} {initialSession : UInt32} {s : Bridge} {w : WriteRequest}
  {x : BridgeTransition} {tr : BridgeHistory} {message : ThrusterCommand}

/-! ### The specified offsets -/

def kRlSource : String := "command_authority:rl"

/-- `pwm_input_polarity: [1, 1, 1, 1, -1, -1, 1, 1]` -/
def rlPolarity (channel : Fin kThrusterChannels) : ℤ :=
  if channel = 4 ∨ channel = 5 then -1 else 1

/-- The offset of a channel by the documented mapping. -/
def polarizedOffset (source : String) (channel : Fin kThrusterChannels) (action : ℚ) : ℤ :=
  roundHalfAway (250 * (if source = kRlSource then rlPolarity channel else 1) * action)

/-- The offsets are those the documented mapping gives for the message. -/
def FollowsPolarity (message : ThrusterCommand) (offsets : Vector Int16 kThrusterChannels) : Prop :=
  ∀ channel : Fin kThrusterChannels, ∃ action, (message.action.get channel).value = .finite action ∧
    (offsets.get channel).toInt = polarizedOffset message.source channel action

/-- The polarity makes no difference to the message: it is not from the RL source, or its inverted
channels round to no offset. -/
def PolarityHarmless (message : ThrusterCommand) : Prop :=
  message.source ≠ kRlSource ∨
    ∀ channel : Fin kThrusterChannels, rlPolarity channel = -1 →
      ∃ action, (message.action.get channel).value = .finite action ∧ |250 * action| < 1 / 2

/-! ### The stored offsets -/

/-- Scaling a `float` by the PWM span is exact in `double`. -/
theorem representable_span {q : ℚ} (h : Representable binary32 q) :
    Representable binary64 (q * 250) := by
  obtain ⟨m, e, rfl, hm, he⟩ := h
  refine ⟨m * 250, e, by push_cast; ring, ?_, le_trans (by norm_num [binary32, binary64]) he⟩
  rw [abs_mul]
  calc |m| * |250| < 2 ^ binary32.precision * |250| := by
        exact mul_lt_mul_of_pos_right hm (by norm_num)
    _ ≤ 2 ^ binary64.precision := by norm_num [binary32, binary64]

theorem span_lt_max : (250 : ℚ) < 2 ^ binary64.maxExponent :=
  calc (250 : ℚ) < 2 ^ (8 : ℤ) := by norm_num
    _ ≤ 2 ^ binary64.maxExponent := zpow_le_zpow_right₀ (by norm_num) (by norm_num [binary64])

theorem value_kActionPwmSpanUs : kActionPwmSpanUs.value = .finite 250 := by
  have hrep : Representable binary64 250 := ⟨250, 0, by norm_num, by norm_num [binary64],
    by norm_num [binary64]⟩
  unfold kActionPwmSpanUs
  rw [Number.value_ofRat, roundTo_of_representable hrep]
  rw [roundTo_of_representable hrep, abs_of_pos (by norm_num)]
  exact span_lt_max

/-- An action between -1 and 1 is stored as the rounded multiple of the PWM span. -/
theorem toInt_actionOffset {action : Binary32} {q : ℚ} (hq : action.value = .finite q)
    (hle : |q| ≤ 1) : (actionOffset action).toInt = roundHalfAway (250 * q) := by
  have hrep : Representable binary64 (q * 250) := by
    have hin := action.inFormat
    rw [hq] at hin
    exact representable_span hin
  have habs : |q * 250| ≤ 250 := by
    rw [abs_mul, abs_of_pos (show (0 : ℚ) < 250 by norm_num)]
    linarith
  have hround : ((action.widen * kActionPwmSpanUs).lround) = roundHalfAway (250 * q) := by
    have hvalue : (action.widen * kActionPwmSpanUs).value = .finite (q * 250) := by
      rw [Number.mul_eq_ofRat (Number.value_widen hq) value_kActionPwmSpanUs, Number.value_ofRat,
        roundTo_of_representable hrep]
      rw [roundTo_of_representable hrep]
      exact habs.trans_lt span_lt_max
    unfold Number.lround
    rw [hvalue, mul_comm]
  have hbound := abs_le.mp (abs_roundHalfAway_le (n := 250) (q := 250 * q)
    (by rw [mul_comm]; exact_mod_cast habs))
  unfold actionOffset
  rw [hround, Int16.toInt_ofInt_of_le (by omega) (by omega)]

/-- The values of an accepted command are numbers between -1 and 1. -/
theorem bounds_of_accepted (h : acceptedCommand cfg x = some message)
    (channel : Fin kThrusterChannels) :
    ∃ q, (message.action.get channel).value = .finite q ∧ |q| ≤ 1 := by
  have hvalid : commandValuesValid message = true := by
    unfold acceptedCommand at h
    split at h
    · split at h
      · rename_i hvalid
        obtain rfl := Option.some.inj h
        unfold commandMessageValid at hvalid
        simp only [Bool.and_eq_true] at hvalid
        exact hvalid.1.2
      · cases h
    · cases h
  unfold commandValuesValid at hvalid
  rw [List.all_eq_true] at hvalid
  exact (actionValueValid_iff _).mp (hvalid _ (by simp [Vector.get]))

/-! ### Where they agree -/

theorem polarizedOffset_eq (source : String) (channel : Fin kThrusterChannels) (q : ℚ) :
    polarizedOffset source channel q
      = if source = kRlSource ∧ rlPolarity channel = -1 then -roundHalfAway (250 * q)
        else roundHalfAway (250 * q) := by
  unfold polarizedOffset
  by_cases hsource : source = kRlSource
  · by_cases hchannel : rlPolarity channel = -1
    · rw [if_pos hsource, if_pos ⟨hsource, hchannel⟩, hchannel, ← roundHalfAway_neg]
      congr 1
      push_cast
      ring
    · have hone : rlPolarity channel = 1 := by
        unfold rlPolarity at hchannel ⊢
        split_ifs at hchannel ⊢ <;> simp_all
      rw [if_pos hsource, if_neg fun h => hchannel h.2, hone]
      congr 1
      push_cast
      ring
  · rw [if_neg hsource, if_neg fun h => hsource h.1]
    congr 1
    push_cast
    ring

/-- **Offsets and polarity.**  The stored offsets of an accepted command follow the documented
mapping exactly when the polarity makes no difference to it. -/
theorem followsPolarity_map_iff
    (hbounds : ∀ channel : Fin kThrusterChannels,
      ∃ q, (message.action.get channel).value = .finite q ∧ |q| ≤ 1) :
    FollowsPolarity message (message.action.map actionOffset) ↔ PolarityHarmless message := by
  have hget : ∀ channel : Fin kThrusterChannels, ∃ q,
      (message.action.get channel).value = .finite q ∧
        ((message.action.map actionOffset).get channel).toInt = roundHalfAway (250 * q) := by
    intro channel
    obtain ⟨q, hq, hle⟩ := hbounds channel
    refine ⟨q, hq, ?_⟩
    rw [show (message.action.map actionOffset).get channel
      = actionOffset (message.action.get channel) by simp [Vector.get], toInt_actionOffset hq hle]
  unfold FollowsPolarity PolarityHarmless
  constructor
  · intro h
    by_cases hsource : message.source = kRlSource
    · right
      intro channel hchannel
      obtain ⟨q, hq, hoffset⟩ := h channel
      obtain ⟨q', hq', hoffset'⟩ := hget channel
      obtain rfl := Value.finite.inj (hq.symm.trans hq')
      rw [hoffset', polarizedOffset_eq, if_pos ⟨hsource, hchannel⟩] at hoffset
      exact ⟨q, hq, (roundHalfAway_eq_zero_iff _).mp (by omega)⟩
    · exact Or.inl hsource
  · intro h channel
    obtain ⟨q, hq, hoffset⟩ := hget channel
    refine ⟨q, hq, hoffset.trans ?_⟩
    rw [polarizedOffset_eq]
    split_ifs with hrl
    · rcases h with hsource | hsmall
      · exact absurd hrl.1 hsource
      · obtain ⟨q', hq', hlt⟩ := hsmall channel hrl.2
        obtain rfl := Value.finite.inj (hq.symm.trans hq')
        rw [(roundHalfAway_eq_zero_iff _).mpr hlt, neg_zero]
    · rfl

/-! ### Main result -/

theorem heldCommand_accepted (h : heldCommand cfg tr = some message) :
    ∃ y ∈ tr, acceptedCommand cfg y = some message :=
  List.exists_of_findSome?_eq_some h

/-- **The offsets of a command.**  In every run the offsets stored from an accepted command, and
those of an enabled frame built from it, follow the documented mapping exactly when the command is
not from the RL source or its channels T5 and T6 round to no offset. -/
theorem followsPolarity_iff (h : (bridgeMachine cfg initialSession).Run (x :: tr) s) :
    (∀ message, acceptedCommand cfg x = some message →
      (FollowsPolarity message x.post.command.commandOffsets ↔ PolarityHarmless message)) ∧
    (∀ w, x.output = some w → w.enable = true → ∃ message, BuiltFrom cfg tr w message ∧
      (FollowsPolarity message w.offsets ↔ PolarityHarmless message)) := by
  have hrule := rule_of_step h.head_step
  refine ⟨fun message hmessage => ?_, fun w hw hen => ?_⟩
  · rw [(held_of_command hrule hmessage).offsets]
    exact followsPolarity_map_iff (bounds_of_accepted hmessage)
  · obtain ⟨nowNs, drawn, request, -, htask, -, -, rfl, -⟩ := dispatch_of_output (hw ▸ hrule)
    obtain ⟨hreq, -, -, hoffsets⟩ := sentRequest_enable cfg x.pre request nowNs hen
    obtain ⟨message, hbuilt⟩ := builtFrom_of_waiting h.tail request
      (mem_waiting_of_startWrite htask) hreq
    obtain ⟨after, b, before, n, now, drawn', htr, hinput, hallowed, hheld, hmap⟩ := hbuilt
    obtain ⟨y, -, hy⟩ := heldCommand_accepted hheld
    refine ⟨message, ⟨after, b, before, n, now, drawn', htr, hinput, hallowed, hheld,
      hoffsets.trans hmap⟩, ?_⟩
    rw [hoffsets, hmap]
    exact followsPolarity_map_iff (bounds_of_accepted hy)

/-- An RL command for half power on T5. -/
def rlSourceCommand : ThrusterCommand :=
  { action := Vector.ofFn fun channel => if channel = 4 then Number.ofRat binary32 (1 / 2) else 0
    enable := true, armed := true, armGeneration := 1, source := kRlSource }

/-- The authority appears, disarms, and then sends the RL command. -/
def rlInputs : List BridgeInput :=
  [.publishStatus (some [authorityEndpoint]) 1,
    .onCommand 1 1000000000 (authorityCommand false 0),
    .onCommand 1 1000000000 rlSourceCommand]

/-- After the handshake the authority sends the RL command, and a frame is built from it. -/
def enabledRlInputs : List BridgeInput :=
  handshakeInputs ++ rlInputs ++
    [.writeCommand 1 1000000000 5, .enqueueLatestWrite, .drainLatestWrite, nextIo,
      .writeCompleted false, nextIo]

theorem followsPolarity_iff_enabledRlInputs :
    ∃ x tr s w message, (bridgeMachine {} 1).Run (x :: tr) s ∧ x.output = some w ∧
      w.enable = true ∧ BuiltFrom {} tr w message ∧ (w.offsets.get 4).toInt = 125 ∧
      (FollowsPolarity message w.offsets ↔ PolarityHarmless message) := by
  obtain ⟨x, tr, s, hrun, hx⟩ :=
    run_of_execCheck (bridgeMachine {} 1) enabledRlInputs
      (fun x _ => x.output.any fun w => w.enable && (w.offsets.get 4).toInt == 125)
      (by decide +kernel)
  obtain ⟨w, hw, hcheck⟩ := (Option.any_eq_true _ _).mp hx
  rw [Bool.and_eq_true, beq_iff_eq] at hcheck
  obtain ⟨message, hbuilt, hiff⟩ := (followsPolarity_iff hrun).2 w hw hcheck.1
  exact ⟨x, tr, s, w, message, hrun, hw, hcheck.1, hbuilt, hcheck.2, hiff⟩

/-- An RL command is stored without the sign change of T5. -/
theorem not_followsPolarity_rlCommand :
    ¬ ∀ (cfg : BridgeConfig) (initialSession : UInt32) (tr : BridgeHistory) (x : BridgeTransition)
      (s : Bridge) (message : ThrusterCommand),
      (bridgeMachine cfg initialSession).Run (x :: tr) s → acceptedCommand cfg x = some message →
      FollowsPolarity message x.post.command.commandOffsets := by
  intro hall
  obtain ⟨x, tr, s, hrun, hx⟩ := run_of_execCheck (bridgeMachine {} 1) rlInputs
    (fun x _ => acceptedCommand {} x == some rlSourceCommand &&
      (x.post.command.commandOffsets.get 4).toInt == 125) (by decide +kernel)
  simp only [Bool.and_eq_true, beq_iff_eq] at hx
  obtain ⟨action, haction, hoffset⟩ := hall {} 1 tr x s rlSourceCommand hrun hx.1 4
  have hhalf : (rlSourceCommand.action.get 4).value = .finite (1 / 2) := by decide +kernel
  obtain rfl := Value.finite.inj (hhalf.symm.trans haction)
  have hspec : polarizedOffset rlSourceCommand.source 4 (1 / 2) = -125 := by decide +kernel
  rw [hx.2, hspec] at hoffset
  cases hoffset

end RobotCore
