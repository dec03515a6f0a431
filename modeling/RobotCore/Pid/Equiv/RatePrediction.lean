import RobotCore.Pid.RatePrediction

/-!
# Correctness of the predicted rate

On rates that are affine in time, within the limits, the prediction is the rate at the newest time
plus the horizon.  Always it differs from the newest sample by at most the correction limit, and it
depends only on the differences of the timestamps.
-/

namespace RobotCore.Exact

open Clip LineFit

attribute [local instance] Numeral.atLeastTwo_ten

variable {K : Type} [Field K] [LinearOrder K] {sampleTimesNs : List ℤ}
  {rateSamples : List (Vec K)} {latest : Vec K} {horizon accelerationLimit correctionLimit : K}

/-! ### The checks -/

/-- The samples and limits that pass the checks. -/
structure ValidRates (sampleTimesNs : List ℤ) (rateSamples : List (Vec K))
    (horizon accelerationLimit correctionLimit : K) : Prop where
  nonempty : rateSamples ≠ []
  length_eq : rateSamples.length = sampleTimesNs.length
  increasing : sampleTimesNs.IsChain (· < ·)
  horizon_nonneg : 0 ≤ horizon
  acceleration_nonneg : 0 ≤ accelerationLimit
  correction_nonneg : 0 ≤ correctionLimit

theorem timestampedRatePrediction_eq (h : ValidRates sampleTimesNs rateSamples horizon
    accelerationLimit correctionLimit) :
    timestampedRatePrediction sampleTimesNs rateSamples horizon accelerationLimit correctionLimit =
      .ok (predictedRate sampleTimesNs rateSamples (rateSamples.getLast h.nonempty) horizon
        accelerationLimit correctionLimit) := by
  have hlimits : ¬(horizon < 0 ∨ accelerationLimit < 0 ∨ correctionLimit < 0) := by
    rintro (hlt | hlt | hlt)
    · exact h.horizon_nonneg.not_gt hlt
    · exact h.acceleration_nonneg.not_gt hlt
    · exact h.correction_nonneg.not_gt hlt
  unfold timestampedRatePrediction
  rw [List.getLast?_eq_getLast_of_ne_nil h.nonempty]
  dsimp only
  rw [if_neg (not_not.mpr h.length_eq), if_neg (not_not.mpr h.increasing), if_neg hlimits]

/-! ### The bound -/

theorem abs_predictedAxis_sub_le [IsStrictOrderedRing K] (hlimit : 0 ≤ correctionLimit)
    (relativeTime rates : List K) (latest : K) :
    |predictedAxis relativeTime rates latest horizon accelerationLimit correctionLimit - latest| ≤
      correctionLimit := by
  unfold predictedAxis
  dsimp only
  rw [add_sub_cancel_left]
  exact abs_clip_le hlimit

theorem abs_predictedRate_sub_le [IsStrictOrderedRing K] (hlimit : 0 ≤ correctionLimit)
    (a : Vec.Axis) :
    |(predictedRate sampleTimesNs rateSamples latest horizon accelerationLimit
        correctionLimit).component a - latest.component a| ≤ correctionLimit := by
  have hlatest : |latest.component a - latest.component a| ≤ correctionLimit := by
    rwa [sub_self, abs_zero]
  unfold predictedRate
  split
  · exact hlatest
  dsimp only
  split
  · exact hlatest
  cases a <;> exact abs_predictedAxis_sub_le hlimit _ _ _

/-! ### Shifted timestamps -/

omit [LinearOrder K] in
theorem relativeTimes_shift (c : ℤ) :
    relativeTimes (sampleTimesNs.map (· + c)) = (relativeTimes sampleTimesNs : List K) := by
  rcases List.eq_nil_or_concat sampleTimesNs with rfl | ⟨times, newest, rfl⟩
  · rfl
  · simp [relativeTimes, List.getLastD_eq_getLast?]

theorem predictedRate_shift (c : ℤ) :
    predictedRate (sampleTimesNs.map (· + c)) rateSamples latest horizon accelerationLimit
        correctionLimit =
      predictedRate sampleTimesNs rateSamples latest horizon accelerationLimit
        correctionLimit := by
  unfold predictedRate
  rw [relativeTimes_shift, List.length_map]

theorem ValidRates.shift (h : ValidRates sampleTimesNs rateSamples horizon accelerationLimit
    correctionLimit) (c : ℤ) :
    ValidRates (sampleTimesNs.map (· + c)) rateSamples horizon accelerationLimit
      correctionLimit where
  nonempty := h.nonempty
  length_eq := by rw [List.length_map, h.length_eq]
  increasing := by
    rw [List.isChain_map]
    exact h.increasing.imp fun _ _ hlt => add_lt_add_left hlt c
  horizon_nonneg := h.horizon_nonneg
  acceleration_nonneg := h.acceleration_nonneg
  correction_nonneg := h.correction_nonneg

/-! ### Affine rates -/

/-- The rate `a + b t` at the time `t` in seconds. -/
def affineRate (a b : Vec K) (t : K) : Vec K := ⟨a.x + b.x * t, a.y + b.y * t, a.z + b.z * t⟩

omit [LinearOrder K] in
theorem affineRate_component (a b : Vec K) (t : K) (axis : Vec.Axis) :
    (affineRate a b t).component axis = a.component axis + b.component axis * t := by
  cases axis <;> rfl

/-- The timestamp in seconds. -/
def seconds (t : ℤ) : K := (t : K) * (1 / 10 ^ 9)

/-- On a line through the newest sample the prediction stays on the line. -/
theorem predictedAxis_of_affine [IsStrictOrderedRing K] {relativeTime rates : List K}
    {latest b : K} (hlength : rates.length = relativeTime.length)
    (hspread : spread relativeTime ≠ 0)
    (h : ∀ p ∈ relativeTime.zip rates, p.2 = latest + b * p.1) (hslope : |b| ≤ accelerationLimit)
    (hcorrection : |b * horizon| ≤ correctionLimit) :
    predictedAxis relativeTime rates latest horizon accelerationLimit correctionLimit =
      latest + b * horizon := by
  have hfst : (relativeTime.zip rates).map Prod.fst = relativeTime :=
    List.map_fst_zip hlength.ge
  have hsnd : (relativeTime.zip rates).map Prod.snd = rates := List.map_snd_zip hlength.le
  have hfit : slope (relativeTime.zip rates) = b := slope_eq_of_affine (by rwa [hfst]) h
  have hne : relativeTime.zip rates ≠ [] := by
    intro hnil
    rw [hnil] at hfst
    exact hspread (by rw [← hfst]; rfl)
  have hmean : mean rates = latest + b * mean relativeTime := by
    have hline := mean_eq_of_affine hne h
    rwa [hfst, hsnd] at hline
  have hpredicted : mean rates - b * mean relativeTime + b * horizon - latest = b * horizon := by
    rw [hmean]
    ring
  unfold predictedAxis
  dsimp only
  rw [hfit, clip_of_abs_le hslope, hpredicted, clip_of_abs_le hcorrection]

omit [LinearOrder K] in
theorem relativeTimes_eq {times : List ℤ} (hne : times ≠ []) :
    (relativeTimes times : List K) = times.map fun t =>
    seconds t - seconds (times.getLast hne) := by
  unfold relativeTimes seconds
  rw [List.getLastD_eq_getLast?, List.getLast?_eq_getLast_of_ne_nil hne]
  refine List.map_congr_left fun t _ => ?_
  push_cast [Option.getD_some]
  ring

theorem vec_ext_component {α : Type} {u v : Vec α}
    (h : ∀ axis, u.component axis = v.component axis) :
    u = v :=
  Vec.ext (h .x) (h .y) (h .z)

/-- Affine rates within the limits are continued. -/
theorem predictedRate_of_affine [IsStrictOrderedRing K] {a b : Vec K} (hne : sampleTimesNs ≠ [])
    (hlength : 3 ≤ sampleTimesNs.length)
    (hspread : 1 / 10 ^ 12 < spread (relativeTimes sampleTimesNs : List K)) (hhorizon : 0 ≤ horizon)
    (hslope : ∀ axis, |b.component axis| ≤ accelerationLimit)
    (hcorrection : ∀ axis, |b.component axis * horizon| ≤ correctionLimit) :
    predictedRate sampleTimesNs (sampleTimesNs.map fun t => affineRate a b (seconds t))
        (affineRate a b (seconds (sampleTimesNs.getLast hne))) horizon accelerationLimit
        correctionLimit =
      affineRate a b (seconds (sampleTimesNs.getLast hne) + horizon) := by
  set newest : K := seconds (sampleTimesNs.getLast hne) with hnewest
  refine vec_ext_component fun axis => ?_
  have hcontinued : (affineRate a b (newest + horizon)).component axis =
      (affineRate a b newest).component axis + b.component axis * horizon := by
    rw [affineRate_component, affineRate_component]
    ring
  rw [hcontinued]
  unfold predictedRate
  split
  next hguard =>
    -- Without a horizon or a limit there is nothing to add.
    have hzero : b.component axis * horizon = 0 := by
      rcases hguard with hshort | hzero | hzero | hzero
      · omega
      · rw [le_antisymm hzero hhorizon, mul_zero]
      · rw [abs_nonpos_iff.mp ((hslope axis).trans hzero), zero_mul]
      · exact abs_nonpos_iff.mp ((hcorrection axis).trans hzero)
    rw [hzero, add_zero]
  next =>
    dsimp only
    rw [if_neg hspread.not_ge]
    have hpositive : spread (relativeTimes sampleTimesNs : List K) ≠ 0 :=
      (lt_trans (by positivity) hspread).ne'
    have hfit : predictedAxis (relativeTimes sampleTimesNs)
        ((sampleTimesNs.map fun t => affineRate a b (seconds t)).map (·.component axis))
        ((affineRate a b newest).component axis) horizon accelerationLimit correctionLimit =
          (affineRate a b newest).component axis + b.component axis * horizon := by
      refine predictedAxis_of_affine ?_ hpositive ?_ (hslope axis) (hcorrection axis)
      · simp [relativeTimes]
      · intro p hp
        rw [relativeTimes_eq hne, List.map_map, List.zip_map', List.mem_map] at hp
        obtain ⟨t, -, rfl⟩ := hp
        rw [Function.comp_apply, affineRate_component, affineRate_component, ← hnewest]
        ring
    cases axis <;> exact hfit

/-- **The prediction.**  On affine rates within the limits it is the rate at the newest time plus
the horizon; of all samples and limits that pass the checks, each axis differs from the newest
sample by at most the correction limit, and a shift of all timestamps changes nothing. -/
theorem timestampedRatePrediction_correct [IsStrictOrderedRing K] :
    (∀ (sampleTimesNs : List ℤ) (hne : sampleTimesNs ≠ []) (a b : Vec K)
      (horizon accelerationLimit correctionLimit : K),
      3 ≤ sampleTimesNs.length → sampleTimesNs.IsChain (· < ·) →
      1 / 10 ^ 12 < spread (relativeTimes sampleTimesNs : List K) → 0 ≤ horizon →
      (∀ axis, |b.component axis| ≤ accelerationLimit) →
      (∀ axis, |b.component axis * horizon| ≤ correctionLimit) →
      timestampedRatePrediction sampleTimesNs
          (sampleTimesNs.map fun t => affineRate a b (seconds t)) horizon accelerationLimit
          correctionLimit =
        .ok (affineRate a b (seconds (sampleTimesNs.getLast hne) + horizon))) ∧
    ∀ (sampleTimesNs : List ℤ) (rateSamples : List (Vec K))
      (horizon accelerationLimit correctionLimit : K)
      (hvalid : ValidRates sampleTimesNs rateSamples horizon accelerationLimit correctionLimit),
      ∃ predicted,
        timestampedRatePrediction sampleTimesNs rateSamples horizon accelerationLimit
            correctionLimit = .ok predicted ∧
        (∀ axis, |predicted.component axis -
          (rateSamples.getLast hvalid.nonempty).component axis| ≤ correctionLimit) ∧
        ∀ c : ℤ, timestampedRatePrediction (sampleTimesNs.map (· + c)) rateSamples horizon
          accelerationLimit correctionLimit = .ok predicted := by
  constructor
  · intro times hne a b horizon accelerationLimit correctionLimit hlength hchain hspread hhorizon
      hslope hcorrection
    have hvalid : ValidRates times (times.map fun t => affineRate a b (seconds t)) horizon
        accelerationLimit correctionLimit :=
      { nonempty := fun h => hne (List.map_eq_nil_iff.mp h)
        length_eq := List.length_map _
        increasing := hchain
        horizon_nonneg := hhorizon
        acceleration_nonneg := (abs_nonneg _).trans (hslope .x)
        correction_nonneg := (abs_nonneg _).trans (hcorrection .x) }
    rw [timestampedRatePrediction_eq hvalid, List.getLast_map,
      predictedRate_of_affine hne hlength hspread hhorizon hslope hcorrection]
  · intro times rates horizon accelerationLimit correctionLimit hvalid
    refine ⟨_, timestampedRatePrediction_eq hvalid, fun axis =>
      abs_predictedRate_sub_le hvalid.correction_nonneg axis, fun c => ?_⟩
    rw [timestampedRatePrediction_eq (hvalid.shift c), predictedRate_shift]

theorem validRates_pair :
    ValidRates [0, 10000000] [⟨0, 0, 0⟩, ⟨1, -1, 0⟩] (1 / 25 : ℚ) 4 (3 / 25) :=
  ⟨by decide, rfl, by decide, by decide +kernel, by decide +kernel, by decide +kernel⟩

/-- Five samples of a constant acceleration about the first axis, ten milliseconds apart, and two
samples of a turn. -/
theorem timestampedRatePrediction_correct_linear :
    timestampedRatePrediction [0, 10000000, 20000000, 30000000, 40000000]
        ([0, 10000000, 20000000, 30000000, 40000000].map fun t =>
          affineRate (K := ℚ) ⟨0, 0, 0⟩ ⟨1, 0, 0⟩ (seconds t)) (1 / 25) 4 (3 / 25) =
      .ok (affineRate ⟨0, 0, 0⟩ ⟨1, 0, 0⟩ (seconds 40000000 + 1 / 25)) ∧
    ∃ predicted, timestampedRatePrediction [0, 10000000] [⟨0, 0, 0⟩, ⟨1, -1, 0⟩] (1 / 25 : ℚ) 4
      (3 / 25) = .ok predicted :=
  ⟨timestampedRatePrediction_correct.1 [0, 10000000, 20000000, 30000000, 40000000] (by decide)
      ⟨0, 0, 0⟩ ⟨1, 0, 0⟩ (1 / 25) 4 (3 / 25) (by decide) (by decide) (by decide +kernel)
      (by norm_num) (by intro axis; cases axis <;> decide +kernel)
      (by intro axis; cases axis <;> decide +kernel),
    (timestampedRatePrediction_correct.2 [0, 10000000] _ (1 / 25) 4 (3 / 25)
      validRates_pair).imp fun _ h => h.1⟩

end RobotCore.Exact
