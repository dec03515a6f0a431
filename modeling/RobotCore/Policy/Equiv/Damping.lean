import Mathlib.Tactic.FinCases
import Mathlib.Tactic.Ring
import RobotCore.Lib.Ieee.Clamp
import RobotCore.Lib.Ieee.Error
import RobotCore.Policy.Damping

/-!
# What the damping does to the moments

The four corrections are the sums and differences of a part that opposes the roll rate and one that
opposes the pitch rate.  On two channels the parts add up, on the other two they cancel.  Each
channel steps in the direction of its correction as far as the limit, the stop and the rounding let
it.

About the axis with the larger part all four channels push the right way.  About the other axis the
two pairs push against each other, and the moment opposes the rate exactly when the pair on which
the parts add up travels at least as far (`damping_correct`).  Where no stop cuts a channel, only
the rounding of the four additions can turn the body further.
-/

namespace RobotCore

open Clip Ieee

/-! ### One channel -/

/-- The bounded correction of a channel whose correction is `s` before it is rounded. -/
def boundedStep (limit s : ℚ) : ℚ := roundTo binary32 (clip (roundTo binary64 s) (-limit) limit)

/-- The change of an action by that correction. -/
def channelStep (limit a s : ℚ) : ℚ :=
  clip (roundTo binary32 (a + boundedStep limit s)) (-1) 1 - a

section Channel

variable {limit a s t : ℚ}

theorem boundedStep_mono (h : s ≤ t) : boundedStep limit s ≤ boundedStep limit t :=
  roundTo_mono (clip_mono (roundTo_mono h) _ _)

theorem boundedStep_neg (hlimit : 0 ≤ limit) : boundedStep limit (-s) = -boundedStep limit s := by
  unfold boundedStep
  rw [roundTo_neg, clip_neg hlimit, roundTo_neg]

theorem boundedStep_nonneg (hlimit : 0 ≤ limit) (hs : 0 ≤ s) : 0 ≤ boundedStep limit s :=
  roundTo_nonneg (le_clip (roundTo_nonneg hs) hlimit)

theorem abs_boundedStep_le (hlimit : 0 ≤ limit) (hone : limit ≤ 1) : |boundedStep limit s| ≤ 1 :=
  abs_roundTo_le (representable_one _ (by decide)) ((abs_clip_le hlimit).trans hone)

/-- A step is zero or has the sign of its correction. -/
def StepsTowards (step correction : ℚ) : Prop :=
  (0 ≤ correction → 0 ≤ step) ∧ (correction ≤ 0 → step ≤ 0)

/-- Adding a bounded correction rounds to a number on its side of the action. -/
theorem stepsTowards_channelStep (hlimit : 0 ≤ limit) (ha : |a| ≤ 1)
    (hrep : Representable binary32 a) :
    StepsTowards (channelStep limit a s) s := by
  obtain ⟨hlower, hupper⟩ := abs_le.mp ha
  constructor
  · intro hs
    have hsum : a ≤ roundTo binary32 (a + boundedStep limit s) := by
      have := roundTo_mono (f := binary32)
        (le_add_of_nonneg_right (a := a) (boundedStep_nonneg hlimit hs))
      rwa [roundTo_of_representable hrep] at this
    exact sub_nonneg.mpr (le_clip hsum hupper)
  · intro hs
    have hbounded : boundedStep limit s ≤ 0 := by
      have := boundedStep_nonneg hlimit (neg_nonneg.mpr hs)
      rw [boundedStep_neg hlimit] at this
      exact neg_nonneg.mp this
    have hsum : roundTo binary32 (a + boundedStep limit s) ≤ a := by
      have := roundTo_mono (f := binary32) (add_le_of_nonpos_right (a := a) hbounded)
      rwa [roundTo_of_representable hrep] at this
    exact sub_nonpos.mpr (clip_le hsum hlower)

/-- A channel that its stop does not cut steps by its correction, up to one rounding. -/
theorem abs_channelStep_sub_le (h : |roundTo binary32 (a + boundedStep limit s)| ≤ 1) :
    |channelStep limit a s - boundedStep limit s| ≤ 2 ^ (-24 : ℤ) := by
  have hlt : |a + boundedStep limit s| < 2 ^ (1 : ℤ) := by
    by_contra hge
    have hrep : Representable binary32 (2 ^ (1 : ℤ)) := ⟨2, 0, by norm_num, by decide, by decide⟩
    have := roundTo_mono (f := binary32) (not_lt.mp hge)
    rw [roundTo_of_representable hrep, ← abs_roundTo] at this
    norm_num at this
    linarith
  have herror := abs_roundTo_sub_le (f := binary32) hlt (by decide)
  rw [channelStep, clip_of_abs_le h, sub_sub]
  refine herror.trans_eq ?_
  norm_num [binary32]

end Channel

/-! ### Four channels -/

/-- The steps of the channels, in the order of the axis whose part is `own`. -/
structure Steps (own other : ℚ) where
  d₁ : ℚ
  d₂ : ℚ
  d₃ : ℚ
  d₄ : ℚ
  follows₁ : StepsTowards d₁ (-own - other)
  follows₂ : StepsTowards d₂ (-own + other)
  follows₃ : StepsTowards d₃ (own - other)
  follows₄ : StepsTowards d₄ (own + other)

namespace Steps

variable {own other : ℚ} (d : Steps own other)

/-- The moment about the axis. -/
def moment : ℚ := d.d₁ + d.d₂ - d.d₃ - d.d₄

/-- The travel of the outer channels, and that of the inner ones. -/
def outer : ℚ := |d.d₁| + |d.d₄|

def inner : ℚ := |d.d₂| + |d.d₃|

/-- All four channels push against the larger part. -/
theorem moment_of_larger (h : |other| ≤ |own|) :
    (0 < own → d.moment ≤ 0) ∧ (own < 0 → 0 ≤ d.moment) ∧ (own = 0 → d.moment = 0) := by
  unfold moment
  refine ⟨fun hpos => ?_, fun hneg => ?_, fun hzero => ?_⟩
  · rw [abs_of_pos hpos, abs_le] at h
    have h₁ := d.follows₁.2 (by linarith)
    have h₂ := d.follows₂.2 (by linarith)
    have h₃ := d.follows₃.1 (by linarith)
    have h₄ := d.follows₄.1 (by linarith)
    linarith
  · rw [abs_of_neg hneg, abs_le] at h
    have h₁ := d.follows₁.1 (by linarith)
    have h₂ := d.follows₂.1 (by linarith)
    have h₃ := d.follows₃.2 (by linarith)
    have h₄ := d.follows₄.2 (by linarith)
    linarith
  · rw [hzero, abs_zero] at h
    have hother := abs_nonpos_iff.mp h
    -- without corrections no channel moves
    have h₁ := le_antisymm (d.follows₁.2 (by linarith)) (d.follows₁.1 (by linarith))
    have h₂ := le_antisymm (d.follows₂.2 (by linarith)) (d.follows₂.1 (by linarith))
    have h₃ := le_antisymm (d.follows₃.2 (by linarith)) (d.follows₃.1 (by linarith))
    have h₄ := le_antisymm (d.follows₄.2 (by linarith)) (d.follows₄.1 (by linarith))
    linarith

/-- Below the other part the two pairs push against each other. -/
theorem moment_of_smaller (h : |own| < |other|) :
    d.moment = if 0 < other then d.inner - d.outer else d.outer - d.inner := by
  unfold moment inner outer
  obtain ⟨hlower, hupper⟩ := abs_lt.mp h
  rcases lt_or_ge 0 other with hother | hother
  · rw [abs_of_pos hother] at hlower hupper
    rw [if_pos hother, abs_of_nonpos (d.follows₁.2 (by linarith)),
      abs_of_nonneg (d.follows₂.1 (by linarith)), abs_of_nonpos (d.follows₃.2 (by linarith)),
      abs_of_nonneg (d.follows₄.1 (by linarith))]
    ring
  · rw [abs_of_nonpos hother] at hlower hupper
    rw [if_neg hother.not_gt, abs_of_nonneg (d.follows₁.1 (by linarith)),
      abs_of_nonpos (d.follows₂.2 (by linarith)), abs_of_nonneg (d.follows₃.1 (by linarith)),
      abs_of_nonpos (d.follows₄.2 (by linarith))]
    ring

/-- The travel of the two channels on which the parts add up. -/
def adding : ℚ := if 0 ≤ own * other then d.outer else d.inner

/-- The travel of the two on which they cancel. -/
def cancelling : ℚ := if 0 ≤ own * other then d.inner else d.outer

/-- What the pairs do to the smaller part. -/
theorem moment_iff_of_smaller (h : |own| < |other|) :
    (0 < own → (d.moment ≤ 0 ↔ d.cancelling ≤ d.adding)) ∧
      (own < 0 → (0 ≤ d.moment ↔ d.cancelling ≤ d.adding)) ∧
      (own = 0 → (d.moment = 0 ↔ d.cancelling = d.adding)) := by
  have hne : other ≠ 0 := by
    rintro rfl
    exact (abs_nonneg own).not_gt (h.trans_eq abs_zero)
  rw [d.moment_of_smaller h]
  unfold adding cancelling
  refine ⟨fun hpos => ?_, fun hneg => ?_, fun hzero => ?_⟩
  · rcases lt_or_gt_of_ne hne with hother | hother
    · rw [if_neg hother.not_gt, if_neg (mul_neg_of_pos_of_neg hpos hother).not_ge,
        if_neg (mul_neg_of_pos_of_neg hpos hother).not_ge, sub_nonpos]
    · rw [if_pos hother, if_pos (mul_pos hpos hother).le, if_pos (mul_pos hpos hother).le,
        sub_nonpos]
  · rcases lt_or_gt_of_ne hne with hother | hother
    · rw [if_neg hother.not_gt, if_pos (mul_pos_of_neg_of_neg hneg hother).le,
        if_pos (mul_pos_of_neg_of_neg hneg hother).le, sub_nonneg]
    · rw [if_pos hother, if_neg (mul_neg_of_neg_of_pos hneg hother).not_ge,
        if_neg (mul_neg_of_neg_of_pos hneg hother).not_ge, sub_nonneg]
  · have hproduct : 0 ≤ own * other := by rw [hzero, zero_mul]
    rw [if_pos hproduct, if_pos hproduct]
    split
    · exact sub_eq_zero
    · exact sub_eq_zero.trans eq_comm

/-- The channels step by their bounded corrections, up to one rounding each. -/
structure UpToRounding (limit : ℚ) : Prop where
  h₁ : |d.d₁ - boundedStep limit (-own - other)| ≤ 2 ^ (-24 : ℤ)
  h₂ : |d.d₂ - boundedStep limit (-own + other)| ≤ 2 ^ (-24 : ℤ)
  h₃ : |d.d₃ - boundedStep limit (own - other)| ≤ 2 ^ (-24 : ℤ)
  h₄ : |d.d₄ - boundedStep limit (own + other)| ≤ 2 ^ (-24 : ℤ)

/-- The other axis: the inner channels change places. -/
def swap : Steps other own where
  d₁ := d.d₁
  d₂ := d.d₃
  d₃ := d.d₂
  d₄ := d.d₄
  follows₁ := by
    rw [← neg_add', add_comm, neg_add']
    exact d.follows₁
  follows₂ := by
    rw [neg_add_eq_sub]
    exact d.follows₃
  follows₃ := by
    rw [← neg_add_eq_sub]
    exact d.follows₂
  follows₄ := by
    rw [add_comm]
    exact d.follows₄

theorem UpToRounding.swap {d : Steps own other} {limit : ℚ} (h : d.UpToRounding limit) :
    d.swap.UpToRounding limit where
  h₁ := by
    rw [← neg_add', add_comm, neg_add']
    exact h.h₁
  h₂ := by
    rw [neg_add_eq_sub]
    exact h.h₃
  h₃ := by
    have h₂ := h.h₂
    rwa [neg_add_eq_sub] at h₂
  h₄ := by
    rw [add_comm]
    exact h.h₄

/-- Channels that are not cut push against both parts, up to four roundings. -/
theorem moment_of_uncut {limit : ℚ} (hlimit : 0 ≤ limit) (h : d.UpToRounding limit) :
    (0 ≤ own → d.moment ≤ 2 ^ (-22 : ℤ)) ∧ (own ≤ 0 → -2 ^ (-22 : ℤ) ≤ d.moment) := by
  obtain ⟨h₁, h₂, h₃, h₄⟩ := h
  have hslack : (2 : ℚ) ^ (-22 : ℤ) = 4 * 2 ^ (-24 : ℤ) := by norm_num
  have hsum : -own - other = -(own + other) := by ring
  have hdifference : -own + other = -(own - other) := by ring
  rw [hsum, boundedStep_neg hlimit] at h₁
  rw [hdifference, boundedStep_neg hlimit] at h₂
  rw [abs_le] at h₁ h₂ h₃ h₄
  unfold moment
  rw [hslack]
  -- the exact moment is twice the sum of these two bounded corrections, against the part
  constructor
  · intro hown
    have hmono : boundedStep limit (-(own - other)) ≤ boundedStep limit (own + other) :=
      boundedStep_mono (by linarith)
    rw [boundedStep_neg hlimit] at hmono
    linarith
  · intro hown
    have hmono : boundedStep limit (own + other) ≤ boundedStep limit (-(own - other)) :=
      boundedStep_mono (by linarith)
    rw [boundedStep_neg hlimit] at hmono
    linarith

end Steps

/-! ### The parameters -/

namespace DampingGains

variable (gains : DampingGains) (rate : Vec Binary64)

theorem value_oneD : oneD.value = .finite 1 := by
  have hrep : Representable binary64 1 := representable_one _ (by decide)
  unfold oneD
  rw [Number.value_ofRat] <;> rw [roundTo_of_representable hrep]
  rw [abs_one]
  exact one_lt_zpow₀ (by norm_num) (by decide)

/-- The accepted parameters: two gains that are not negative and a limit up to one. -/
theorem values : (∃ q, gains.rollRateDampingGain.value = .finite q ∧ 0 ≤ q) ∧
    (∃ q, gains.pitchRateDampingGain.value = .finite q ∧ 0 ≤ q) ∧
      ∃ q, gains.rateDampingActionLimit.value = .finite q ∧ 0 < q ∧ q ≤ 1 := by
  have haccepted := gains.accepted
  unfold rateDampingInvalid at haccepted
  simp only [Bool.or_eq_false_iff, Bool.not_eq_false'] at haccepted
  obtain ⟨⟨⟨⟨⟨⟨hroll, hroll'⟩, hpitch⟩, hpitch'⟩, hlimit⟩, hpos⟩, hone⟩ := haccepted
  obtain ⟨r, hr⟩ := Number.isFinite_iff.mp hroll
  obtain ⟨p, hp⟩ := Number.isFinite_iff.mp hpitch
  obtain ⟨l, hl⟩ := Number.isFinite_iff.mp hlimit
  rw [← Bool.not_eq_true, Number.lt_iff_of_finite hr Number.value_zero, not_lt] at hroll'
  rw [← Bool.not_eq_true, Number.lt_iff_of_finite hp Number.value_zero, not_lt] at hpitch'
  rw [← Bool.not_eq_true, Number.le_iff_of_finite hl Number.value_zero, not_le] at hpos
  rw [← Bool.not_eq_true, Number.lt_iff_of_finite value_oneD hl, not_lt] at hone
  exact ⟨⟨r, hr, hroll'⟩, ⟨p, hp, hpitch'⟩, l, hl, hpos, hone⟩

theorem value_limit : gains.rateDampingActionLimit.value =
    .finite gains.rateDampingActionLimit.toRat := by
  obtain ⟨l, hl, -⟩ := gains.values.2.2
  rw [Number.toRat_of_finite hl, hl]

theorem limit_nonneg : 0 ≤ gains.rateDampingActionLimit.toRat := by
  obtain ⟨l, hl, hpos, -⟩ := gains.values.2.2
  rw [Number.toRat_of_finite hl]
  exact hpos.le

theorem limit_le_one : gains.rateDampingActionLimit.toRat ≤ 1 := by
  obtain ⟨l, hl, -, hone⟩ := gains.values.2.2
  rw [Number.toRat_of_finite hl]
  exact hone

/-- The two parts are numbers, and at most one of them has overflowed. -/
structure Determined : Prop where
  roll : (gains.roll rate).isNan = false
  pitch : (gains.pitch rate).isNan = false
  finite : (gains.roll rate).isFinite = true ∨ (gains.pitch rate).isFinite = true

instance : Decidable (gains.Determined rate) :=
  decidable_of_iff ((gains.roll rate).isNan = false ∧ (gains.pitch rate).isNan = false ∧
      ((gains.roll rate).isFinite = true ∨ (gains.pitch rate).isFinite = true))
    ⟨fun ⟨h₁, h₂, h₃⟩ => ⟨h₁, h₂, h₃⟩, fun ⟨h₁, h₂, h₃⟩ => ⟨h₁, h₂, h₃⟩⟩

/-- The sum a correction rounds. -/
def exactCorrection : Fin 4 → ℚ :=
  let roll := (gains.roll rate).saturated
  let pitch := (gains.pitch rate).saturated
  ![-roll - pitch, -roll + pitch, roll - pitch, roll + pitch]

end DampingGains

open Number

/-- A sum of two numbers of which one at least is finite. -/
theorem isRounded_sum {x y : Binary64} (hx : InRange x) (hy : InRange y) (hxn : x.isNan = false)
    (hyn : y.isNan = false) (hfinite : x.isFinite = true ∨ y.isFinite = true) :
    IsRounded (x + y) (x.saturated + y.saturated) := by
  rcases hfinite with hfinite | hfinite
  · rw [Number.add_comm, add_comm]
    exact isRounded_add (by decide) hyn hx hfinite
  · exact isRounded_add (by decide) hxn hy hfinite

namespace DampingGains

variable {gains : DampingGains} {rate : Vec Binary64}

theorem isRounded_correction (h : gains.Determined rate) (channel : Fin 4) :
    IsRounded (gains.correction rate channel) (gains.exactCorrection rate channel) := by
  have hroll : InRange (gains.roll rate) := inRange_mul _ _
  have hpitch : InRange (gains.pitch rate) := inRange_mul _ _
  obtain ⟨hr, hp, hfinite⟩ := h
  fin_cases channel
  · have := isRounded_sum hroll.neg hpitch.neg (by simpa) (by simpa) (by simpa)
    simp only [saturated_neg, ← sub_eq_add_neg] at this
    exact this
  · have := isRounded_sum hroll.neg hpitch (by simpa) hp (by simpa)
    rw [saturated_neg] at this
    exact this
  · have := isRounded_sum hroll hpitch.neg hr (by simpa) (by simpa)
    simp only [saturated_neg, ← sub_eq_add_neg] at this
    exact this
  · exact isRounded_sum hroll hpitch hr hp hfinite

/-- The bounded correction of a channel. -/
theorem value_bounded (h : gains.Determined rate) (channel : Fin 4) :
    (gains.bounded rate channel).value = .finite
      (boundedStep gains.rateDampingActionLimit.toRat (gains.exactCorrection rate channel)) := by
  have hclamp := (isRounded_correction h channel).value_clamp gains.value_limit gains.limit_nonneg
    (gains.limit_le_one.trans (one_le_zpow₀ (by norm_num) (by decide)))
  unfold bounded
  rw [narrow_eq_ofRat hclamp]
  refine value_ofRat ?_
  exact (abs_boundedStep_le gains.limit_nonneg gains.limit_le_one).trans_lt
    (one_lt_zpow₀ (by norm_num) (by decide))

/-- The action of a vertical thruster. -/
theorem value_apply (h : gains.Determined rate) {action : Fin kActionSize → Binary32}
    {channel : Fin kActionSize} (hchannel : channel.val < 4) (ha : (action channel).AbsLe 1) :
    let limit := gains.rateDampingActionLimit.toRat
    let s := gains.exactCorrection rate ⟨channel.val, hchannel⟩
    (action channel + gains.bounded rate ⟨channel.val, hchannel⟩).value =
        .finite (roundTo binary32 ((action channel).toRat + boundedStep limit s)) ∧
      (gains.applyVerticalRateDamping rate action channel).value =
        .finite ((action channel).toRat + channelStep limit (action channel).toRat s) := by
  intro limit s
  obtain ⟨a, hvalue, hle⟩ := ha
  have hbounded := value_bounded h ⟨channel.val, hchannel⟩
  have hminus : minusOneF = -oneF := Number.ext (value_minusOneF.trans (value_neg value_oneF).symm)
  have habs : |a + boundedStep limit s| ≤ 2 := by
    refine (abs_add_le _ _).trans ?_
    have := abs_boundedStep_le (s := s) gains.limit_nonneg gains.limit_le_one
    linarith
  rw [toRat_of_finite hvalue]
  constructor
  · rw [add_eq_ofRat hvalue hbounded]
    refine value_ofRat ((abs_roundTo_le ⟨2, 0, by norm_num, by decide, by decide⟩ habs).trans_lt ?_)
    norm_num [binary32]
  · unfold applyVerticalRateDamping
    rw [dif_pos hchannel, hminus, add_eq_ofRat hvalue hbounded,
      (isRounded_ofRat _).value_clamp value_oneF zero_le_one
        (one_le_zpow₀ (by norm_num) (by decide)),
      channelStep, add_sub_cancel]

end DampingGains

/-! ### Both axes -/

section Axes

variable (gains : DampingGains) (rate : Vec Binary64) (action action' : Fin kActionSize → Binary32)

/-- How far a thruster is moved. -/
def change (channel : Fin kActionSize) : ℚ := (action' channel).toRat - (action channel).toRat

/-- The net contribution of the changes of T1 to T4 about the roll axis. -/
def rollMoment : ℚ :=
  change action action' 0 + change action action' 1 - change action action' 2 -
    change action action' 3

/-- The net contribution about the pitch axis. -/
def pitchMoment : ℚ :=
  change action action' 0 - change action action' 1 + change action action' 2 -
    change action action' 3

/-- The two thrusters on which the roll and pitch parts add up, and how far both travel. -/
def adding (roll pitch : Binary64) : ℚ :=
  if 0 ≤ roll.saturated * pitch.saturated then |change action action' 0| + |change action action' 3|
  else |change action action' 1| + |change action action' 2|

/-- The travel of the two on which they cancel. -/
def cancelling (roll pitch : Binary64) : ℚ :=
  if 0 ≤ roll.saturated * pitch.saturated then |change action action' 1| + |change action action' 2|
  else |change action action' 0| + |change action action' 3|

/-- No thruster is cut by its stop. -/
def Uncut : Prop :=
  ∀ channel : Fin kActionSize, ∀ h : channel.val < 4,
    (action channel + gains.bounded rate ⟨channel.val, h⟩).AbsLe 1

end Axes

/-- The moment is zero or opposes the rate. -/
def Opposes (moment : ℚ) (rate : Binary64) : Prop :=
  moment = 0 ∨ (0 : Binary64).lt rate = true ∧ moment < 0 ∨ rate.lt 0 = true ∧ 0 < moment

/-- The moment turns the body by no more than `slack` further. -/
def OpposesUpTo (slack moment : ℚ) (rate : Binary64) : Prop :=
  (rate.lt 0 = false → moment ≤ slack) ∧ ((0 : Binary64).lt rate = false → -slack ≤ moment)

/-- What the moment about an axis does to its rate, `own` being the part of the corrections that
opposes that rate and `other` the part for the other axis. -/
structure AxisDamped (own other rate : Binary64) (moment adding cancelling : ℚ) (uncut : Prop) :
    Prop where
  larger : |other.saturated| ≤ |own.saturated| → Opposes moment rate
  smaller : |own.saturated| < |other.saturated| → own.saturated ≠ 0 →
    (Opposes moment rate ↔ cancelling ≤ adding)
  absent : |own.saturated| < |other.saturated| → own.saturated = 0 →
    (moment = 0 ↔ cancelling = adding)
  uncut : uncut → OpposesUpTo (2 ^ (-22 : ℤ)) moment rate

theorem not_lt_of_lt {x y : Binary64} (h : x.lt y = true) : y.lt x = false := by
  unfold Number.lt at h ⊢
  cases hx : x.value with
  | nan => rw [hx] at h; cases h
  | infinity s =>
    cases hy : y.value with
    | nan => rw [hx, hy] at h
    | infinity t =>
      rw [hx, hy] at h
      dsimp only at h ⊢
      rw [Bool.and_eq_true, Bool.not_eq_true'] at h
      rw [h.1, h.2]
      rfl
    | finite b =>
      rw [hx, hy] at h
      dsimp only at h ⊢
      rw [h]
      rfl
  | finite a =>
    cases hy : y.value with
    | nan => rw [hx, hy] at h
    | infinity t =>
      rw [hx, hy] at h
      dsimp only at h ⊢
      rwa [Bool.not_eq_true'] at h
    | finite b =>
      rw [hx, hy] at h
      dsimp only at h ⊢
      exact decide_eq_false (of_decide_eq_true h).le.not_gt

section Axis

variable {gain rate other : Binary64} {q : ℚ} (hgain : gain.value = .finite q) (hq : 0 ≤ q)

include hgain hq in
theorem opposes_iff {moment : ℚ} :
    (0 < (gain * rate).saturated → (Opposes moment rate ↔ moment ≤ 0)) ∧
      ((gain * rate).saturated < 0 → (Opposes moment rate ↔ 0 ≤ moment)) := by
  refine ⟨fun hpos => ?_, fun hneg => ?_⟩
  · have hrate := pos_of_saturated_mul hgain hq hpos
    constructor
    · rintro (hzero | ⟨-, hlt⟩ | ⟨hlt, -⟩)
      · exact hzero.le
      · exact hlt.le
      · rw [not_lt_of_lt hrate] at hlt
        cases hlt
    · intro hle
      exact hle.eq_or_lt.imp_right fun hlt => Or.inl ⟨hrate, hlt⟩
  · have hrate := neg_of_saturated_mul hgain hq hneg
    constructor
    · rintro (hzero | ⟨hlt, -⟩ | ⟨-, hlt⟩)
      · exact hzero.ge
      · rw [not_lt_of_lt hrate] at hlt
        cases hlt
      · exact hlt.le
    · intro hle
      exact hle.eq_or_lt.imp Eq.symm fun hlt => Or.inr ⟨hrate, hlt⟩

include hgain hq in
/-- The steps of the channels damp the axis. -/
theorem axisDamped_of_steps (d : Steps (gain * rate).saturated other.saturated) {limit : ℚ}
    (hlimit : 0 ≤ limit) {uncut : Prop}
    (huncut : uncut → d.UpToRounding limit) :
    AxisDamped (gain * rate) other rate d.moment d.adding d.cancelling uncut := by
  have hopposes : (0 < (gain * rate).saturated → (Opposes d.moment rate ↔ d.moment ≤ 0)) ∧
      ((gain * rate).saturated < 0 → (Opposes d.moment rate ↔ 0 ≤ d.moment)) :=
    opposes_iff hgain hq
  obtain ⟨hpos, hneg⟩ := hopposes
  refine ⟨fun h => ?_, fun h hne => ?_, fun h => (d.moment_iff_of_smaller h).2.2, fun h => ?_⟩
  · obtain ⟨h₁, h₂, h₃⟩ := d.moment_of_larger h
    rcases lt_trichotomy (gain * rate).saturated 0 with hlt | hzero | hlt
    · exact (hneg hlt).mpr (h₂ hlt)
    · exact Or.inl (h₃ hzero)
    · exact (hpos hlt).mpr (h₁ hlt)
  · obtain ⟨h₁, h₂, -⟩ := d.moment_iff_of_smaller h
    rcases lt_or_gt_of_ne hne with hlt | hlt
    · exact (hneg hlt).trans (h₂ hlt)
    · exact (hpos hlt).trans (h₁ hlt)
  · obtain ⟨h₁, h₂⟩ := d.moment_of_uncut hlimit (huncut h)
    constructor
    · intro hrate
      refine h₁ (not_lt.mp fun hlt => ?_)
      rw [neg_of_saturated_mul hgain hq hlt] at hrate
      cases hrate
    · intro hrate
      refine h₂ (not_lt.mp fun hlt => ?_)
      rw [pos_of_saturated_mul hgain hq hlt] at hrate
      cases hrate

end Axis

/-! ### The result -/

section Damping

variable {gains : DampingGains} {rate : Vec Binary64} {action : Fin kActionSize → Binary32}

/-- The action of a thruster is a `float` between -1 and 1. -/
theorem representable_action {channel : Fin kActionSize} (ha : (action channel).AbsLe 1) :
    |(action channel).toRat| ≤ 1 ∧ Representable binary32 (action channel).toRat := by
  obtain ⟨a, hvalue, hle⟩ := ha
  rw [toRat_of_finite hvalue]
  refine ⟨hle, ?_⟩
  have := (action channel).inFormat
  rwa [hvalue] at this

theorem change_eq (h : gains.Determined rate) {channel : Fin kActionSize}
    (hchannel : channel.val < 4)
    (ha : (action channel).AbsLe 1) :
    change action (gains.applyVerticalRateDamping rate action) channel =
      channelStep gains.rateDampingActionLimit.toRat (action channel).toRat
        (gains.exactCorrection rate ⟨channel.val, hchannel⟩) := by
  rw [change, toRat_of_finite (DampingGains.value_apply h hchannel ha).2, add_sub_cancel_left]

/-- What the code does to a thruster, whose correction is `s` before it is rounded. -/
structure StepsBy (gains : DampingGains) (rate : Vec Binary64) (action : Fin kActionSize → Binary32)
    (channel : Fin kActionSize) (s : ℚ) : Prop where
  follows : StepsTowards (change action (gains.applyVerticalRateDamping rate action) channel) s
  uncut : Uncut gains rate action →
    |change action (gains.applyVerticalRateDamping rate action) channel -
      boundedStep gains.rateDampingActionLimit.toRat s| ≤ 2 ^ (-24 : ℤ)

theorem stepsBy_exactCorrection (h : gains.Determined rate) {channel : Fin kActionSize}
    (hchannel : channel.val < 4) (ha : (action channel).AbsLe 1) :
    StepsBy gains rate action channel (gains.exactCorrection rate ⟨channel.val, hchannel⟩) := by
  obtain ⟨hle, hrep⟩ := representable_action ha
  constructor
  · rw [change_eq h hchannel ha]
    exact stepsTowards_channelStep gains.limit_nonneg hle hrep
  · intro huncut
    obtain ⟨q, hq, hle⟩ := huncut channel hchannel
    rw [(DampingGains.value_apply h hchannel ha).1] at hq
    rw [change_eq h hchannel ha]
    refine abs_channelStep_sub_le ?_
    rwa [Value.finite.inj hq]

theorem absLe_applyVerticalRateDamping (h : gains.Determined rate)
    (haction : ∀ channel, (action channel).AbsLe 1) (channel : Fin kActionSize) :
    (gains.applyVerticalRateDamping rate action channel).AbsLe 1 := by
  by_cases hchannel : channel.val < 4
  · refine ⟨_, (DampingGains.value_apply h hchannel (haction channel)).2, ?_⟩
    rw [channelStep, add_sub_cancel]
    exact abs_clip_le zero_le_one
  · unfold DampingGains.applyVerticalRateDamping
    rw [dif_neg hchannel]
    exact haction channel

/-- The four sums. -/
theorem exactCorrection_eq (gains : DampingGains) (rate : Vec Binary64) :
    gains.exactCorrection rate 0 = -(gains.roll rate).saturated - (gains.pitch rate).saturated ∧
      gains.exactCorrection rate 1 =
        -(gains.roll rate).saturated + (gains.pitch rate).saturated ∧
      gains.exactCorrection rate 2 = (gains.roll rate).saturated - (gains.pitch rate).saturated ∧
      gains.exactCorrection rate 3 = (gains.roll rate).saturated + (gains.pitch rate).saturated :=
  ⟨rfl, rfl, rfl, rfl⟩

/-- The steps in the order of the roll axis. -/
theorem exists_rollSteps (h : gains.Determined rate)
    (haction : ∀ channel, (action channel).AbsLe 1) :
    ∃ d : Steps (gains.roll rate).saturated (gains.pitch rate).saturated,
      (Uncut gains rate action → d.UpToRounding gains.rateDampingActionLimit.toRat) ∧
      let change := change action (gains.applyVerticalRateDamping rate action)
      d.d₁ = change 0 ∧ d.d₂ = change 1 ∧ d.d₃ = change 2 ∧ d.d₄ = change 3 := by
  obtain ⟨h₀, h₁, h₂, h₃⟩ := exactCorrection_eq gains rate
  have hc₀ : StepsBy gains rate action 0 (gains.exactCorrection rate 0) :=
    stepsBy_exactCorrection h (by decide) (haction 0)
  have hc₁ : StepsBy gains rate action 1 (gains.exactCorrection rate 1) :=
    stepsBy_exactCorrection h (by decide) (haction 1)
  have hc₂ : StepsBy gains rate action 2 (gains.exactCorrection rate 2) :=
    stepsBy_exactCorrection h (by decide) (haction 2)
  have hc₃ : StepsBy gains rate action 3 (gains.exactCorrection rate 3) :=
    stepsBy_exactCorrection h (by decide) (haction 3)
  rw [h₀] at hc₀
  rw [h₁] at hc₁
  rw [h₂] at hc₂
  rw [h₃] at hc₃
  exact ⟨⟨_, _, _, _, hc₀.follows, hc₁.follows, hc₂.follows, hc₃.follows⟩, fun huncut =>
    ⟨hc₀.uncut huncut, hc₁.uncut huncut, hc₂.uncut huncut, hc₃.uncut huncut⟩, rfl, rfl, rfl, rfl⟩

end Damping

/-- **The damping.**  Unless both parts of the corrections overflow or one is a NaN, all actions
stay between -1 and 1.  About the axis with the larger part the moment is zero or opposes the rate.
About the other axis it is so exactly when the thrusters on which the parts add up travel at least
as far as those on which they cancel.  Where no stop cuts a thruster, the body is turned further by
no more than the rounding of four additions. -/
theorem damping_correct (gains : DampingGains) (rate : Vec Binary64)
    (action : Fin kActionSize → Binary32) (haction : ∀ channel, (action channel).AbsLe 1)
    (hdetermined : gains.Determined rate) :
    let action' := gains.applyVerticalRateDamping rate action
    let roll := gains.roll rate
    let pitch := gains.pitch rate
    (∀ channel, (action' channel).AbsLe 1) ∧
      AxisDamped roll pitch (DampingGains.measuredMinusTargetRoll rate)
        (rollMoment action action') (adding action action' roll pitch)
        (cancelling action action' roll pitch) (Uncut gains rate action) ∧
      AxisDamped pitch roll (DampingGains.measuredMinusTargetPitch rate)
        (pitchMoment action action') (adding action action' roll pitch)
        (cancelling action action' roll pitch) (Uncut gains rate action) := by
  intro action' roll pitch
  obtain ⟨⟨r, hr, hr0⟩, ⟨p, hp, hp0⟩, -⟩ := gains.values
  obtain ⟨d, huncut, h₁, h₂, h₃, h₄⟩ := exists_rollSteps hdetermined haction
  have hroll := axisDamped_of_steps hr hr0 d gains.limit_nonneg huncut
  have hpitch := axisDamped_of_steps hp hp0 d.swap gains.limit_nonneg fun h => (huncut h).swap
  unfold Steps.moment Steps.adding Steps.cancelling Steps.outer Steps.inner at hroll hpitch
  unfold Steps.swap at hpitch
  dsimp only at hpitch
  rw [h₁, h₂, h₃, h₄] at hroll hpitch
  refine ⟨absLe_applyVerticalRateDamping hdetermined haction, hroll, ?_⟩
  unfold pitchMoment adding cancelling
  rw [mul_comm, add_comm |change action action' 1|]
  rw [add_sub_right_comm] at hpitch
  exact hpitch

/-! ### Saturated channels -/

/-- Equal gains and a limit that is not met below. -/
def eighthGains : DampingGains where
  rollRateDampingGain := Number.ofRat binary64 (1 / 8)
  pitchRateDampingGain := Number.ofRat binary64 (1 / 8)
  rateDampingActionLimit := Number.ofRat binary64 (1 / 2)
  accepted := by decide +kernel

/-- The channels on which the parts add up are at their stops. -/
def saturatedAction : Fin kActionSize → Binary32 := ![minusOneF, 0, 0, oneF, 0, 0, 0, 0]

theorem absLe_saturatedAction (channel : Fin kActionSize) : (saturatedAction channel).AbsLe 1 := by
  rw [← actionValueValid_iff]
  revert channel
  decide +kernel

/-- The body rolls at one and pitches at two radians a second. -/
def rollingRate : Vec Binary64 :=
  ⟨Number.ofRat binary64 (-1), Number.ofRat binary64 (-2), 0⟩

/-- About the pitch axis, with the larger part, the moment opposes the rate. -/
theorem damping_correct_saturated :
    Opposes (pitchMoment saturatedAction
        (eighthGains.applyVerticalRateDamping rollingRate saturatedAction))
      (DampingGains.measuredMinusTargetPitch rollingRate) :=
  (damping_correct eighthGains rollingRate saturatedAction absLe_saturatedAction
    (by decide +kernel)).2.2.larger (by decide +kernel)

/-- Gains with which both parts overflow. -/
def hugeGains : DampingGains where
  rollRateDampingGain := Number.ofRat binary64 (2 ^ 1000)
  pitchRateDampingGain := Number.ofRat binary64 (2 ^ 1000)
  rateDampingActionLimit := Number.ofRat binary64 (1 / 2)
  accepted := by decide +kernel

def fastRate : Vec Binary64 :=
  ⟨Number.ofRat binary64 (2 ^ 100), Number.ofRat binary64 (2 ^ 100), 0⟩

/-- With two channels at their stops the change turns the body further about the roll axis.  With
two overflows an action is a NaN. -/
theorem damping_amplifies_or_overflows :
    ¬(∀ (gains : DampingGains) (rate : Vec Binary64) (action : Fin kActionSize → Binary32),
      rate.all isFinite = true → (∀ channel, (action channel).AbsLe 1) →
      let action' := gains.applyVerticalRateDamping rate action
      Opposes (rollMoment action action') (DampingGains.measuredMinusTargetRoll rate) ∧
        Opposes (pitchMoment action action') (DampingGains.measuredMinusTargetPitch rate)) ∧
    ¬∀ (gains : DampingGains) (rate : Vec Binary64) (action : Fin kActionSize → Binary32),
      rate.all isFinite = true → (∀ channel, (action channel).AbsLe 1) →
      ∀ channel, (gains.applyVerticalRateDamping rate action channel).AbsLe 1 := by
  constructor
  · intro h
    have hroll := (h eighthGains rollingRate saturatedAction (by decide +kernel)
      absLe_saturatedAction).1
    have hmoment : rollMoment saturatedAction
        (eighthGains.applyVerticalRateDamping rollingRate saturatedAction) = 1 / 4 := by
      decide +kernel
    have hrate : (DampingGains.measuredMinusTargetRoll rollingRate).lt 0 = false := by
      decide +kernel
    rw [hmoment, Opposes, hrate] at hroll
    rcases hroll with h | ⟨-, h⟩ | ⟨h, -⟩
    · exact absurd h (by decide +kernel)
    · exact absurd h (by decide +kernel)
    · cases h
  · intro h
    have hone := h hugeGains fastRate saturatedAction (by decide +kernel) absLe_saturatedAction 1
    rw [← actionValueValid_iff] at hone
    exact absurd hone (by decide +kernel)

end RobotCore
