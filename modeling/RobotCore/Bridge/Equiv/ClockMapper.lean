import RobotCore.Bridge.ClockMapper
import RobotCore.Lib.Machine

/-!
# The stamps of a delayed clock

A board whose ticks are exact milliseconds, with a ROS clock at a constant distance from the
monotonic one: `clockMachine` maps its samples in order, each with the delay of its arrival.

A stamp is never after the arrival.  It can lie before the sampling instant: a late sample raises
the slope, the samples after it lower the intercept along the raised slope, and the intercept stays
when the slope falls back.  `stamp_bounds_of_run` says exactly when.
-/

namespace RobotCore

open Ieee Machine ClockNumber

/-! ### Ticks -/

section Ticks

variable {K : Type} [ClockNumber K] {m : McuClockMapper K} {tickMs : UInt32}

omit [ClockNumber K] in
/-- A tick less than half of the range ahead is taken for what it is. -/
theorem takeTick_of_ahead (h : (tickMs - m.lastRawTick).toNat < 2 ^ 31) :
    m.isBackward tickMs = false ∧
      (m.takeTick tickMs).extended = m.extended + (tickMs - m.lastRawTick).toNat := by
  have hahead := UInt32.toNat_sub tickMs m.lastRawTick
  have hbehind := UInt32.toNat_sub m.lastRawTick tickMs
  have hlast := m.lastRawTick.toNat_lt
  have htick := tickMs.toNat_lt
  have hhalf : (0x80000000 : UInt32).toNat = 2 ^ 31 := by decide
  unfold McuClockMapper.isBackward McuClockMapper.extended McuClockMapper.takeTick
    McuClockMapper.wraps
  simp only [UInt32.lt_iff_toNat_lt, gt_iff_lt, hhalf]
  rcases Nat.lt_or_ge tickMs.toNat m.lastRawTick.toNat with hlt | hge
  · have hwrap : 2 ^ 31 < (m.lastRawTick - tickMs).toNat := by omega
    simp only [hlt, hwrap, decide_true, Bool.and_self, Bool.not_true, Bool.and_false, if_true,
      true_and]
    omega
  · have hnot : ¬tickMs.toNat < m.lastRawTick.toNat := hge.not_gt
    simp only [hnot, decide_false, Bool.false_and, Bool.false_eq_true, if_false, true_and]
    omega

/-- Only the slope and the intercept depend on the clocks. -/
theorem observe_eq (m : McuClockMapper K) (tickMs : UInt32) (arrivalRosNs arrivalSteadyNs : ℤ) :
    let taken := { m.takeTick tickMs with
      lastArrivalRosNs := arrivalRosNs
      lastArrivalSteadyNs := arrivalSteadyNs }
    let slope := (taken.updateSlope arrivalSteadyNs).nsPerTick
    m.observe tickMs arrivalRosNs arrivalSteadyNs =
      { taken with
        nsPerTick := slope
        minimumSteadyInterceptNs := ClockNumber.min m.minimumSteadyInterceptNs
          (ofInt arrivalSteadyNs - slope * ofInt taken.elapsedTicks) } := by
  intro taken slope
  have hupdate : taken.updateSlope arrivalSteadyNs = { taken with nsPerTick := slope } := by
    unfold slope McuClockMapper.updateSlope
    dsimp only
    split <;> rfl
  change (taken.updateSlope arrivalSteadyNs).updateIntercept arrivalSteadyNs = _
  rw [hupdate]
  rfl

end Ticks

/-! ### The samples -/

/-- ROS time at tick zero, and how far it is ahead of the monotonic clock. -/
structure BoardClock where
  originNs : ℤ
  rosMinusSteadyNs : ℤ

/-- A sample: the ticks of the board since it counts, and the delay of its arrival. -/
structure DelayedSample where
  tick : ℕ
  delayNs : ℕ

namespace BoardClock

variable (clock : BoardClock)

/-- The sampling instant in ROS time. -/
def samplingNs (x : DelayedSample) : ℤ := clock.originNs + 1000000 * x.tick

def arrivalNs (x : DelayedSample) : ℤ := clock.samplingNs x + x.delayNs

/-- `map` on the samples in the order of their arrival. -/
def clockMachine : Machine (McuClockMapper ℚ) DelayedSample (Option ℤ) where
  init := .new
  step m x := some (m.map (UInt32.ofNat x.tick) (clock.arrivalNs x)
    (clock.arrivalNs x - clock.rosMinusSteadyNs))

end BoardClock

/-- The first sample arrives without delay, and each one less than half of the range of the tick
after the one before. -/
structure WellTimed (tr : History (McuClockMapper ℚ) DelayedSample (Option ℤ)) : Prop where
  ticks : tr.IsChain fun x y => y.input.tick ≤ x.input.tick ∧ x.input.tick < y.input.tick + 2 ^ 31
  first : ∀ x ∈ tr.getLast?, x.input.delayNs = 0

/-! ### Rounding -/

theorem le_roundHalfAway {n : ℤ} {q : ℚ} (h : (n : ℚ) ≤ q) : n ≤ roundHalfAway q := by
  unfold roundHalfAway
  split
  next => exact Int.le_floor.mpr (by linarith)
  next hneg =>
    have hfloor : ⌊-q + 1 / 2⌋ < -n + 1 := Int.floor_lt.mpr (by push_cast; linarith)
    omega

theorem roundHalfAway_mono {p q : ℚ} (h : p ≤ q) : roundHalfAway p ≤ roundHalfAway q := by
  unfold roundHalfAway
  split
  next hp =>
    rw [if_pos (hp.trans h)]
    exact Int.floor_le_floor (by linarith)
  next hp =>
    split
    next hq =>
      have hp0 : 0 ≤ ⌊-p + 1 / 2⌋ := Int.floor_nonneg.mpr (by linarith)
      have hq0 : 0 ≤ ⌊q + 1 / 2⌋ := Int.floor_nonneg.mpr (by linarith)
      omega
    next =>
      have hfloor : ⌊-q + 1 / 2⌋ ≤ ⌊-p + 1 / 2⌋ := Int.floor_le_floor (by linarith)
      omega

/-! ### The estimator -/

/-- What the slope adds to the ticks since the first sample. -/
def slopeGain (m : McuClockMapper ℚ) : ℚ := (m.nsPerTick - 1000000) * m.elapsedTicks

/-- The mapper after the samples of `tr`, from `first` to `newest`. -/
structure Estimated (clock : BoardClock) (first newest : DelayedSample)
    (tr : History (McuClockMapper ℚ) DelayedSample (Option ℤ)) (m : McuClockMapper ℚ) : Prop where
  initialized : m.initialized = true
  lastRawTick : m.lastRawTick = UInt32.ofNat newest.tick
  extended : m.extended = m.referenceTick + (newest.tick - first.tick)
  first_le : first.tick ≤ newest.tick
  reference : m.referenceArrivalSteadyNs = clock.samplingNs first - clock.rosMinusSteadyNs
  slope : 1000000 ≤ m.nsPerTick ∧ m.nsPerTick ≤ 1005000
  intercept_le : ∀ y ∈ tr, m.minimumSteadyInterceptNs ≤
    ((clock.samplingNs first - clock.rosMinusSteadyNs + y.input.delayNs : ℤ) : ℚ) -
      slopeGain y.post
  intercept_eq : ∃ y ∈ tr, m.minimumSteadyInterceptNs =
    ((clock.samplingNs first - clock.rosMinusSteadyNs + y.input.delayNs : ℤ) : ℚ) -
      slopeGain y.post
  gain_le : ∀ y ∈ tr, slopeGain y.post ≤ 5000 * ((newest.tick - first.tick : ℕ) : ℚ)

/-- The first sample. -/
theorem estimated_anchor (clock : BoardClock) {x : DelayedSample} (hdelay : x.delayNs = 0)
    (output : Option ℤ) :
    let m := (McuClockMapper.new : McuClockMapper ℚ).anchor (UInt32.ofNat x.tick)
      (clock.arrivalNs x) (clock.arrivalNs x - clock.rosMinusSteadyNs)
    Estimated clock x x [⟨.new, x, output, m⟩] m := by
  intro m
  have hgain : slopeGain m = 0 := by
    have helapsed : m.elapsedTicks = 0 := by
      simp [m, McuClockMapper.elapsedTicks, McuClockMapper.extended, McuClockMapper.anchor,
        McuClockMapper.new]
    rw [slopeGain, helapsed, Nat.cast_zero, mul_zero]
  have harrival : clock.arrivalNs x = clock.samplingNs x := by
    rw [BoardClock.arrivalNs, hdelay, Nat.cast_zero, add_zero]
  have hintercept : m.minimumSteadyInterceptNs =
      ((clock.samplingNs x - clock.rosMinusSteadyNs + x.delayNs : ℤ) : ℚ) - slopeGain m := by
    rw [hgain, hdelay, Nat.cast_zero, add_zero, sub_zero, ← harrival]
    rfl
  refine ⟨rfl, rfl, ?_, le_rfl, ?_, ⟨le_rfl, by norm_num [m, McuClockMapper.anchor,
    McuClockMapper.new, ofRat]⟩, ?_, ⟨_, List.mem_singleton_self _, hintercept⟩, ?_⟩
  · simp [m, McuClockMapper.extended, McuClockMapper.anchor, McuClockMapper.new]
  · rw [← harrival]
    rfl
  · intro y hy
    obtain rfl := List.mem_singleton.mp hy
    exact hintercept.le
  · intro y hy
    obtain rfl := List.mem_singleton.mp hy
    rw [hgain, Nat.sub_self, Nat.cast_zero, mul_zero]

theorem clamp_bounds {x lo b hi : ℚ} (hlo : lo ≤ b) (hhi : b ≤ hi) (hx : b ≤ x) :
    b ≤ clamp x lo hi ∧ clamp x lo hi ≤ hi := by
  unfold clamp
  split
  next hlt => exact absurd (hlo.trans hx) (of_decide_eq_true hlt).not_ge
  next =>
    split
    next => exact ⟨hhi, le_rfl⟩
    next hle => exact ⟨hx, not_lt.mp fun hlt => hle (decide_eq_true hlt)⟩

theorem min_le_or {x y : ℚ} : ClockNumber.min x y ≤ x ∧ ClockNumber.min x y ≤ y ∧
    (ClockNumber.min x y = x ∨ ClockNumber.min x y = y) := by
  unfold ClockNumber.min
  split
  next hlt => exact ⟨(of_decide_eq_true hlt).le, le_rfl, Or.inr rfl⟩
  next hge => exact ⟨le_rfl, not_lt.mp fun hlt => hge (decide_eq_true hlt), Or.inl rfl⟩

theorem updateSlope_nsPerTick (m : McuClockMapper ℚ) (arrivalSteadyNs : ℤ) :
    (m.updateSlope arrivalSteadyNs).nsPerTick =
      if (1000 : ℚ) ≤ (m.elapsedTicks : ℤ) then
        98 / 100 * m.nsPerTick + 2 / 100 * clamp (((arrivalSteadyNs -
          m.referenceArrivalSteadyNs : ℤ) : ℚ) / (m.elapsedTicks : ℤ)) 995000 1005000
      else m.nsPerTick := by
  unfold McuClockMapper.updateSlope
  by_cases h : (1000 : ℚ) ≤ (m.elapsedTicks : ℤ)
  · have hle : le (ofRat 1000) (ofInt (m.elapsedTicks : ℤ) : ℚ) = true := decide_eq_true h
    dsimp only
    rw [if_pos hle, if_pos h]
    rfl
  · have hle : ¬le (ofRat 1000) (ofInt (m.elapsedTicks : ℤ) : ℚ) = true :=
      fun hle => h (of_decide_eq_true hle)
    dsimp only
    rw [if_neg hle, if_neg h]

/-- A slope that is not observed too small stays so. -/
theorem updateSlope_slope (m : McuClockMapper ℚ) (arrivalSteadyNs : ℤ)
    (hslope : 1000000 ≤ m.nsPerTick ∧ m.nsPerTick ≤ 1005000)
    (hobserved : 1000000 * (m.elapsedTicks : ℤ) ≤ arrivalSteadyNs - m.referenceArrivalSteadyNs) :
    1000000 ≤ (m.updateSlope arrivalSteadyNs).nsPerTick ∧
      (m.updateSlope arrivalSteadyNs).nsPerTick ≤ 1005000 := by
  rw [updateSlope_nsPerTick]
  split
  next hlate =>
    have hpos : (0 : ℚ) < (m.elapsedTicks : ℤ) := lt_of_lt_of_le (by norm_num) hlate
    have hge : 1000000 ≤ ((arrivalSteadyNs - m.referenceArrivalSteadyNs : ℤ) : ℚ) /
        (m.elapsedTicks : ℤ) := by
      rw [le_div_iff₀ hpos]
      exact_mod_cast hobserved
    obtain ⟨hlo, hhi⟩ := clamp_bounds (by norm_num : (995000 : ℚ) ≤ 1000000)
      (by norm_num : (1000000 : ℚ) ≤ 1005000) hge
    constructor <;> linarith [hslope.1, hslope.2]
  next => exact hslope

section Step

variable {clock : BoardClock} {first newest x : DelayedSample}
  {tr : History (McuClockMapper ℚ) DelayedSample (Option ℤ)} {m : McuClockMapper ℚ}

/-- The next sample, whatever becomes of its stamp. -/
theorem Estimated.observe (h : Estimated clock first newest tr m) (hle : newest.tick ≤ x.tick)
    (hlt : x.tick < newest.tick + 2 ^ 31) (output : Option ℤ) (jumped : Bool) (stamp : ℤ) :
    let m' := { m.observe (UInt32.ofNat x.tick) (clock.arrivalNs x)
        (clock.arrivalNs x - clock.rosMinusSteadyNs) with
      rosClockDiscontinuity := jumped
      lastStampNs := stamp }
    m.isBackward (UInt32.ofNat x.tick) = false ∧
      Estimated clock first x (⟨m, x, output, m'⟩ :: tr) m' := by
  intro m'
  -- the ticks since the last sample, without the wrap of the counter
  have hahead : (UInt32.ofNat x.tick - m.lastRawTick).toNat = x.tick - newest.tick := by
    rw [h.lastRawTick, UInt32.toNat_sub, UInt32.toNat_ofNat', UInt32.toNat_ofNat']
    omega
  have hhalf : (UInt32.ofNat x.tick - m.lastRawTick).toNat < 2 ^ 31 := by omega
  obtain ⟨hbackward, htaken⟩ := takeTick_of_ahead hhalf
  refine ⟨hbackward, ?_⟩
  have hfirst := h.first_le
  set arrivalSteadyNs := clock.arrivalNs x - clock.rosMinusSteadyNs with hsteady
  set taken : McuClockMapper ℚ := { m.takeTick (UInt32.ofNat x.tick) with
    lastArrivalRosNs := clock.arrivalNs x
    lastArrivalSteadyNs := arrivalSteadyNs } with htakenDef
  have hm' : m' = { taken with
      nsPerTick := (taken.updateSlope arrivalSteadyNs).nsPerTick
      minimumSteadyInterceptNs := ClockNumber.min m.minimumSteadyInterceptNs
        (arrivalSteadyNs - (taken.updateSlope arrivalSteadyNs).nsPerTick *
          (taken.elapsedTicks : ℤ))
      rosClockDiscontinuity := jumped
      lastStampNs := stamp } := by
    unfold m'
    rw [observe_eq]
    rfl
  -- the extended tick counts from the first sample
  have hextended : taken.extended = m.referenceTick + (x.tick - first.tick) := by
    refine htaken.trans ?_
    rw [h.extended, hahead]
    omega
  have helapsed : taken.elapsedTicks = x.tick - first.tick := by
    rw [McuClockMapper.elapsedTicks, hextended]
    exact Nat.add_sub_cancel_left ..
  -- a delayed arrival cannot push the slope out of its bounds
  have hslope := updateSlope_slope taken arrivalSteadyNs h.slope (by
    change _ ≤ arrivalSteadyNs - m.referenceArrivalSteadyNs
    rw [helapsed, h.reference, hsteady, BoardClock.arrivalNs, BoardClock.samplingNs,
      BoardClock.samplingNs]
    push_cast [Nat.cast_sub (hfirst.trans hle)]
    linarith [Int.natCast_nonneg x.delayNs])
  set slope := (taken.updateSlope arrivalSteadyNs).nsPerTick
  have hgain : slopeGain m' = (slope - 1000000) * ((x.tick - first.tick : ℕ) : ℚ) := by
    rw [hm', ← helapsed]
    rfl
  -- the candidate for the intercept, in the times of the board
  have hcandidate : (arrivalSteadyNs : ℚ) - slope * (taken.elapsedTicks : ℤ) =
      ((clock.samplingNs first - clock.rosMinusSteadyNs + x.delayNs : ℤ) : ℚ) - slopeGain m' := by
    rw [hgain, helapsed, hsteady, BoardClock.arrivalNs, BoardClock.samplingNs,
      BoardClock.samplingNs]
    push_cast [Nat.cast_sub (hfirst.trans hle)]
    ring
  have hintercept : m'.minimumSteadyInterceptNs = ClockNumber.min m.minimumSteadyInterceptNs
      (((clock.samplingNs first - clock.rosMinusSteadyNs + x.delayNs : ℤ) : ℚ) -
        slopeGain m') := by
    rw [← hcandidate, hm']
  -- the minimum is the one before or the candidate, and not above either
  obtain ⟨hminLeft, hminRight, hminEq⟩ := @min_le_or m.minimumSteadyInterceptNs
    (((clock.samplingNs first - clock.rosMinusSteadyNs + x.delayNs : ℤ) : ℚ) - slopeGain m')
  rw [← hintercept] at hminLeft hminRight hminEq
  refine ⟨?_, ?_, ?_, hfirst.trans hle, ?_, ?_, ?_, ?_, ?_⟩
  · rw [hm']
    exact h.initialized
  · rw [hm']
    rfl
  · rw [hm']
    exact hextended
  · rw [hm']
    exact h.reference
  · rw [hm']
    exact hslope
  · refine List.forall_mem_cons.mpr ⟨hminRight, fun y hy => ?_⟩
    exact hminLeft.trans (h.intercept_le y hy)
  · rcases hminEq with heq | heq
    · obtain ⟨y, hy, hyeq⟩ := h.intercept_eq
      exact ⟨y, List.mem_cons_of_mem _ hy, heq.trans hyeq⟩
    · exact ⟨_, List.mem_cons_self, heq⟩
  -- the gain grows with the ticks and with the bound of the slope
  · refine List.forall_mem_cons.mpr ⟨?_, fun y hy => (h.gain_le y hy).trans ?_⟩
    · rw [hgain]
      exact mul_le_mul_of_nonneg_right (by linarith [hslope.2]) (Nat.cast_nonneg _)
    · refine mul_le_mul_of_nonneg_left ?_ (by norm_num)
      exact_mod_cast Nat.sub_le_sub_right hle _

end Step

/-! ### The stamps -/

/-- The stamp before rounding, over the sampling instant, as the sample `y` alone would have it. -/
def stampLead (x y : Transition (McuClockMapper ℚ) DelayedSample (Option ℤ)) : ℚ :=
  slopeGain x.post + y.input.delayNs - slopeGain y.post

section Stamps

variable {clock : BoardClock} {first : DelayedSample}
  {x : Transition (McuClockMapper ℚ) DelayedSample (Option ℤ)}
  {tr : History (McuClockMapper ℚ) DelayedSample (Option ℤ)}

/-- The bounds of the stamp of the newest sample. -/
theorem Estimated.stamp_bounds (h : Estimated clock first x.input (x :: tr) x.post) :
    let stamp := x.post.stampNs (clock.arrivalNs x.input)
      (clock.arrivalNs x.input - clock.rosMinusSteadyNs)
    stamp ≤ clock.arrivalNs x.input ∧
      (clock.samplingNs x.input ≤ stamp ↔
        ∀ y ∈ tr, clock.samplingNs x.input ≤
          roundHalfAway (clock.samplingNs x.input + stampLead x y)) ∧
      clock.samplingNs x.input - 5000 * (x.input.tick - first.tick) ≤ stamp := by
  intro stamp
  have hfirst := h.first_le
  have helapsed : x.post.elapsedTicks = x.input.tick - first.tick := by
    rw [McuClockMapper.elapsedTicks, h.extended]
    exact Nat.add_sub_cancel_left ..
  set raw : ℚ := x.post.minimumSteadyInterceptNs + x.post.nsPerTick * (x.post.elapsedTicks : ℤ) +
    ((clock.arrivalNs x.input - (clock.arrivalNs x.input - clock.rosMinusSteadyNs) : ℤ) : ℚ)
    with hraw
  have hstamp : stamp = min (roundHalfAway raw) (clock.arrivalNs x.input) := rfl
  -- The stamp relative to the intercept of any sample.
  have hlead : ∀ y : Transition (McuClockMapper ℚ) DelayedSample (Option ℤ),
      ((clock.samplingNs first - clock.rosMinusSteadyNs + y.input.delayNs : ℤ) : ℚ) -
          slopeGain y.post + (raw - x.post.minimumSteadyInterceptNs) =
        clock.samplingNs x.input + stampLead x y := by
    intro y
    have hgain : slopeGain x.post =
        (x.post.nsPerTick - 1000000) * ((x.input.tick - first.tick : ℕ) : ℚ) := by
      rw [slopeGain, helapsed]
    rw [hraw, stampLead, hgain, helapsed, BoardClock.samplingNs, BoardClock.samplingNs]
    push_cast [Nat.cast_sub hfirst]
    ring
  have hraw_le : ∀ y ∈ x :: tr, raw ≤ clock.samplingNs x.input + stampLead x y := by
    intro y hy
    rw [← hlead y]
    linarith [h.intercept_le y hy]
  obtain ⟨y, hy, hyeq⟩ := h.intercept_eq
  have hraw_eq : raw = clock.samplingNs x.input + stampLead x y := by
    rw [← hlead y, ← hyeq]
    ring
  have hself : stampLead x x = x.input.delayNs := by
    rw [stampLead]
    ring
  have harrival : clock.samplingNs x.input ≤ clock.arrivalNs x.input := by
    rw [BoardClock.arrivalNs]
    omega
  refine ⟨hstamp ▸ min_le_right _ _, ?_, ?_⟩
  · rw [hstamp, le_min_iff]
    constructor
    · rintro ⟨hle, -⟩ z hz
      exact hle.trans (roundHalfAway_mono (hraw_le z (List.mem_cons_of_mem _ hz)))
    · intro hall
      refine ⟨?_, harrival⟩
      rw [hraw_eq]
      rcases List.mem_cons.mp hy with rfl | hold
      · rw [hself]
        exact le_roundHalfAway (le_add_of_nonneg_right (Nat.cast_nonneg _))
      · exact hall y hold
  · rw [hstamp, le_min_iff]
    have hgain := h.gain_le y hy
    have hown : 0 ≤ slopeGain x.post :=
      mul_nonneg (sub_nonneg.mpr h.slope.1) (Nat.cast_nonneg _)
    have hdelay : (0 : ℚ) ≤ y.input.delayNs := Nat.cast_nonneg _
    constructor
    · refine le_roundHalfAway ?_
      rw [hraw_eq, stampLead]
      push_cast [Nat.cast_sub hfirst] at hgain ⊢
      linarith
    · have : (first.tick : ℤ) ≤ x.input.tick := by exact_mod_cast hfirst
      linarith

end Stamps

theorem anchor_stampNs (tickMs : UInt32) (arrivalRosNs arrivalSteadyNs : ℤ) :
    ((McuClockMapper.new : McuClockMapper ℚ).anchor tickMs arrivalRosNs arrivalSteadyNs).stampNs
      arrivalRosNs arrivalSteadyNs = arrivalRosNs := by
  refine min_eq_right (le_roundHalfAway ?_)
  change (arrivalRosNs : ℚ) ≤ (arrivalSteadyNs : ℤ) + 1000000 * ((0 + tickMs.toNat - tickMs.toNat
    : ℕ) : ℤ) + ((arrivalRosNs - arrivalSteadyNs : ℤ) : ℚ)
  rw [Nat.zero_add, Nat.sub_self]
  push_cast
  linarith

theorem WellTimed.tail {x y : Transition (McuClockMapper ℚ) DelayedSample (Option ℤ)}
    {tr : History (McuClockMapper ℚ) DelayedSample (Option ℤ)} (h : WellTimed (x :: y :: tr)) :
    WellTimed (y :: tr) where
  ticks := h.ticks.tail
  first := by
    have hfirst := h.first
    rwa [List.getLast?_cons_cons] at hfirst

/-- What the mapper keeps of a run, and that a stamp handed out is the one of its estimate. -/
theorem estimated_of_run {clock : BoardClock}
    {x : Transition (McuClockMapper ℚ) DelayedSample (Option ℤ)}
    {tr : History (McuClockMapper ℚ) DelayedSample (Option ℤ)} {m : McuClockMapper ℚ}
    (hrun : clock.clockMachine.Run (x :: tr) m) (htimed : WellTimed (x :: tr)) :
    ∃ first ∈ (x :: tr).getLast?, Estimated clock first.input x.input (x :: tr) x.post ∧
      ∀ stamp ∈ x.output, stamp = x.post.stampNs (clock.arrivalNs x.input)
        (clock.arrivalNs x.input - clock.rosMinusSteadyNs) := by
  induction tr generalizing x m with
  | nil =>
    obtain ⟨pre, input, output, post⟩ := x
    have hpre : ∀ s, clock.clockMachine.Run [] s → s = .new := by
      intro s h
      cases h
      rfl
    obtain rfl := hpre pre hrun.tail
    have hdelay : input.delayNs = 0 := htimed.first _ rfl
    have hstep := Option.some.inj hrun.head_step
    dsimp only at hstep ⊢
    obtain ⟨rfl, rfl⟩ := Prod.ext_iff.mp hstep
    refine ⟨_, rfl, estimated_anchor clock hdelay _, ?_⟩
    rintro stamp ⟨rfl⟩
    exact (anchor_stampNs _ _ _).symm
  | cons y tr ih =>
    obtain ⟨first, hfirst, hest, -⟩ := ih hrun.tail htimed.tail
    have hticks := (List.isChain_cons_cons.mp htimed.ticks).1
    have hpre := hrun.tail.head_post
    obtain ⟨pre, input, output, post⟩ := x
    obtain rfl : y.post = pre := hpre
    have hobserved := hest.observe hticks.1 hticks.2 output
    have hbackward := (hobserved false 0).1
    have hstep := Option.some.inj hrun.head_step
    refine ⟨first, hfirst, ?_⟩
    dsimp only at hstep hticks ⊢
    unfold McuClockMapper.map at hstep
    rw [hest.initialized, hbackward] at hstep
    simp only [Bool.not_true, Bool.false_eq_true, if_false] at hstep
    split at hstep
    next =>
      obtain ⟨rfl, rfl⟩ := Prod.ext_iff.mp hstep
      exact ⟨(hobserved _ _).2, fun stamp hstamp => by cases hstamp⟩
    next =>
      obtain ⟨rfl, rfl⟩ := Prod.ext_iff.mp hstep
      refine ⟨(hobserved _ _).2, ?_⟩
      rintro stamp ⟨rfl⟩
      rfl

/-! ### Every run -/

/-- **The stamps.**  In every run a stamp is at most the arrival time.  It is at least the sampling
instant exactly when no earlier sample has lowered the intercept by more than what the slope adds
now, and it is never early by more than five thousandths of the time since the first sample. -/
theorem stamp_bounds_of_run {clock : BoardClock}
    {x : Transition (McuClockMapper ℚ) DelayedSample (Option ℤ)}
    {tr : History (McuClockMapper ℚ) DelayedSample (Option ℤ)} {m : McuClockMapper ℚ}
    (hrun : clock.clockMachine.Run (x :: tr) m) (htimed : WellTimed (x :: tr)) {stamp : ℤ}
    (hstamp : stamp ∈ x.output) :
    stamp ≤ clock.arrivalNs x.input ∧
      (clock.samplingNs x.input ≤ stamp ↔
        ∀ y ∈ tr, clock.samplingNs x.input ≤
          roundHalfAway (clock.samplingNs x.input + stampLead x y)) ∧
      ∀ first ∈ (x :: tr).getLast?,
        clock.samplingNs x.input - 5000 * (x.input.tick - first.input.tick) ≤ stamp := by
  obtain ⟨first, hfirst, hest, hout⟩ := estimated_of_run hrun htimed
  obtain ⟨hle, hiff, hbound⟩ := hest.stamp_bounds
  rw [hout stamp hstamp]
  refine ⟨hle, hiff, fun other hother => ?_⟩
  obtain rfl := Option.mem_unique hfirst hother
  exact hbound

/-- A board that counts from one second on, half a second ahead of the monotonic clock. -/
def sampleClock : BoardClock := ⟨1000000000, 500000000⟩

/-- The second sample is five milliseconds late and the slope rises; the third lowers the intercept
along it, and the fourth is stamped along the slope that has fallen back. -/
def lateSample : List DelayedSample := [⟨0, 0⟩, ⟨1000, 5000000⟩, ⟨1001, 0⟩, ⟨1002, 0⟩]

instance (tr : History (McuClockMapper ℚ) DelayedSample (Option ℤ)) : Decidable (WellTimed tr) :=
  decidable_of_iff (_ ∧ _) ⟨fun h => ⟨h.1, h.2⟩, fun h => ⟨h.1, h.2⟩⟩

/-- The newest sample of a well-timed history is stamped with `stamp`. -/
def stampedWith (stamp : ℤ) (x : Transition (McuClockMapper ℚ) DelayedSample (Option ℤ))
    (tr : History (McuClockMapper ℚ) DelayedSample (Option ℤ)) : Bool :=
  decide (WellTimed (x :: tr)) && decide (x.output = some stamp)

/-- A stamp before the sample was taken. -/
theorem not_samplingNs_le_lateSample :
    ¬∀ (clock : BoardClock) (x : Transition (McuClockMapper ℚ) DelayedSample (Option ℤ))
      (tr : History (McuClockMapper ℚ) DelayedSample (Option ℤ)) (m : McuClockMapper ℚ),
      clock.clockMachine.Run (x :: tr) m → WellTimed (x :: tr) → ∀ stamp ∈ x.output,
        clock.samplingNs x.input ≤ stamp ∧ stamp ≤ clock.arrivalNs x.input := by
  intro h
  obtain ⟨x, tr, m, hrun, hx⟩ := run_of_execCheck sampleClock.clockMachine lateSample
    (fun x tr => stampedWith 2001998134 x tr && decide (x.input.tick = 1002)) (by decide +kernel)
  simp only [stampedWith, Bool.and_eq_true, decide_eq_true_eq] at hx
  obtain ⟨⟨htimed, hout⟩, htick⟩ := hx
  have hle := (h sampleClock x tr m hrun htimed _ hout).1
  rw [BoardClock.samplingNs, htick] at hle
  exact absurd hle (by decide)

/-- The third sample of that run, which is stamped with its sampling instant. -/
theorem stamp_bounds_of_run_lateSample : ∃ x tr m, sampleClock.clockMachine.Run (x :: tr) m ∧
    2001000000 ∈ x.output ∧ (2001000000 : ℤ) ≤ sampleClock.arrivalNs x.input := by
  obtain ⟨x, tr, m, hrun, hx⟩ := run_of_execCheck sampleClock.clockMachine (lateSample.take 3)
    (stampedWith 2001000000) (by decide +kernel)
  simp only [stampedWith, Bool.and_eq_true, decide_eq_true_eq] at hx
  exact ⟨x, tr, m, hrun, hx.2, (stamp_bounds_of_run hrun hx.1 hx.2).1⟩

end RobotCore
