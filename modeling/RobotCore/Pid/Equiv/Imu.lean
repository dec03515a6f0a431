import RobotCore.Lib.Except
import RobotCore.Lib.Ieee.Finite
import RobotCore.Pid.Imu

/-!
# What the spike filter replaces

* `samples_pass_iff`: in every run of the gyro, the samples within the threshold of the raw sample
  before them all pass unchanged exactly when each of them is within the threshold of the accepted
  sample before it too.
* `step_is_not_spike`: a rate that steps from 0 to 1 and stays there does not pass.

The accepted samples are fed back: `Gyro` says of every state how the last two of them lie to the
last raw sample, which `SpikeFilter.Fed` keeps.
-/

namespace RobotCore

open Ieee Machine

/-- The step takes a sample that the node accepts as `accepted`. -/
def IsSample (x : ImuTransition) (message : ImuMessage) (accepted : Vec Binary64) : Prop :=
  (∃ headingKnown, x.input = .imu message headingKnown) ∧ x.output = some accepted

/-- The sample is the next one of a segment: its time is in `(0, 0.2]` s after the last one. -/
def InSegment (node : ImuNode) (message : ImuMessage) : Prop :=
  ∃ filterNs, node.filterNs = some filterNs ∧ filterNs < message.stampNs ∧
    message.stampNs ≤ filterNs + 200000000

/-- The two numbers differ by at most the threshold. -/
def WithinLimit (cfg : ImuRateConfig) (x y : Binary64) : Prop :=
  |x.toRat - y.toRat| ≤ cfg.outlierLimitRps.toRat

/-- On every axis, a sample of a segment within the threshold of the last raw one passes
unchanged. -/
def Passes (cfg : ImuRateConfig) (x : ImuTransition) : Prop :=
  ∀ message accepted, IsSample x message accepted → InSegment x.pre message →
    ∀ last, x.pre.angularVelocity = some last → ∀ axis,
      WithinLimit cfg (message.angularVelocity.component axis) (last.component axis) →
        accepted.component axis = message.angularVelocity.component axis

/-- On every axis, a sample of a segment within the threshold of the last raw one is not farther
from the last accepted one, as the code computes the distance. -/
def Follows (cfg : ImuRateConfig) (x : ImuTransition) : Prop :=
  ∀ message accepted, IsSample x message accepted → InSegment x.pre message →
    ∀ last, x.pre.angularVelocity = some last →
      ∀ lastAccepted, x.pre.rateSamples.getLast? = some lastAccepted → ∀ axis,
        WithinLimit cfg (message.angularVelocity.component axis) (last.component axis) →
          cfg.outlierLimitRps.lt
            (message.angularVelocity.component axis - lastAccepted.2.component axis).abs = false

/-! ### One axis -/

theorem finite_component {v : Vec Binary64} (h : finiteVec v = true) (axis : Vec.Axis) :
    (v.component axis).isFinite = true := by
  unfold finiteVec Vec.all at h
  rw [Bool.and_eq_true, Bool.and_eq_true] at h
  cases axis with
  | x => exact h.1.1
  | y => exact h.1.2
  | z => exact h.2

theorem finiteVec_of_component {v : Vec Binary64}
    (h : ∀ axis, (v.component axis).isFinite = true) : finiteVec v = true := by
  unfold finiteVec Vec.all
  rw [Bool.and_eq_true, Bool.and_eq_true]
  exact ⟨⟨h .x, h .y⟩, h .z⟩

theorem median_eq_middle (a b c : FiniteNumber binary64) :
    median a.1 b.1 c.1 = (SpikeFilter.middle a b c).1 := by
  unfold median SpikeFilter.middle
  simp only [FiniteNumber.le_iff]
  rcases le_or_gt a b with hab | hab
  · rw [if_pos hab, max_eq_right hab, min_eq_left hab]
    split_ifs with hbc hac
    · rw [min_eq_left hbc, max_eq_right hab]
    · rw [min_eq_right (not_le.mp hbc).le, max_eq_right hac]
    · rw [min_eq_right (not_le.mp hbc).le, max_eq_left (not_le.mp hac).le]
  · rw [if_neg (not_le.mpr hab), max_eq_left hab.le, min_eq_right hab.le]
    split_ifs with hac hbc
    · rw [min_eq_left hac, max_eq_right hab.le]
    · rw [min_eq_right (not_le.mp hac).le, max_eq_right hbc]
    · rw [min_eq_right (not_le.mp hac).le, max_eq_left (not_le.mp hbc).le]

theorem rejectOutlier_eq (limit : Binary64) (a b r : FiniteNumber binary64) :
    rejectOutlier limit a.1 b.1 r.1 = (SpikeFilter.reject (Number.nearness limit) a b r).1 := by
  unfold rejectOutlier SpikeFilter.reject
  rw [median_eq_middle]
  change (if limit.lt _ then _ else _) = (if (!limit.lt _) = true then r else _).1
  cases limit.lt (r.1 - (SpikeFilter.middle a b r).1).abs <;> rfl

variable {sqrt : Binary64 → Binary64} {cfg : ImuRateConfig}

/-- The threshold of a configuration. -/
def ImuRateConfig.limit (cfg : ImuRateConfig) : FiniteNumber binary64 :=
  ⟨cfg.outlierLimitRps, (Bool.and_eq_true _ _ ▸ cfg.outlierLimitRps_ok).1⟩

/-- How the newest accepted sample `b` and those before it lie to the raw sample `last`. -/
def FedAxis (cfg : ImuRateConfig) (older : List (ℤ × Vec Binary64)) (b last : Vec Binary64)
    (axis : Vec.Axis) : Prop :=
  b.component axis = last.component axis ∨
    cfg.outlierLimitRps.le 0 = false ∧ ∃ a older', older = a :: older' ∧
      ∃ ha hb hlast, SpikeFilter.Fed (Number.nearness cfg.outlierLimitRps)
        ⟨a.2.component axis, ha⟩ ⟨b.component axis, hb⟩ ⟨last.component axis, hlast⟩

/-! ### One sample -/

/-- What the filter makes of a finite sample: itself, or on every axis what `rejectOutlier` makes of
it. -/
theorem rejectVectorOutlier_cases {samples : List (Vec Binary64)} {r : Vec Binary64}
    (hsamples : ∀ sample ∈ samples, finiteVec sample = true) (hr : finiteVec r = true) :
    ∃ o, rejectVectorOutlier samples r cfg.outlierLimitRps = .ok o ∧
      ((o = r ∧
        (cfg.outlierLimitRps.le 0 = true ∨ ∀ a b older, samples.reverse ≠ b :: a :: older)) ∨
        ∃ a b older, samples.reverse = b :: a :: older ∧ cfg.outlierLimitRps.le 0 = false ∧
          ∀ axis, o.component axis =
            rejectOutlier cfg.outlierLimitRps (a.component axis) (b.component axis)
              (r.component axis)) := by
  have hvalue : cfg.outlierLimitRps.value = .finite cfg.outlierLimitRps.toRat := cfg.limit.value_eq
  have hnonneg : cfg.outlierLimitRps.lt 0 = false := by
    have hle := (Bool.and_eq_true _ _ ▸ cfg.outlierLimitRps_ok).2
    rw [Number.le_iff_of_finite Number.value_zero hvalue] at hle
    rw [← Bool.not_eq_true, Number.lt_iff_of_finite hvalue Number.value_zero, not_lt]
    exact hle
  have hall : samples.all finiteVec = true := List.all_eq_true.mpr hsamples
  unfold rejectVectorOutlier
  rw [hr, hnonneg, hall, show cfg.outlierLimitRps.isFinite = true from cfg.limit.2]
  match hreverse : samples.reverse with
  | [] => exact ⟨r, rfl, Or.inl ⟨rfl, Or.inr fun _ _ _ h => by cases h⟩⟩
  | [b] => exact ⟨r, rfl, Or.inl ⟨rfl, Or.inr fun _ _ _ h => by cases h⟩⟩
  | b :: a :: older =>
    cases hzero : cfg.outlierLimitRps.le 0 with
    | true => exact ⟨r, rfl, Or.inl ⟨rfl, Or.inl rfl⟩⟩
    | false =>
      refine ⟨_, rfl, Or.inr ⟨a, b, older, rfl, rfl, fun axis => ?_⟩⟩
      cases axis <;> rfl

section Sample

variable {samples : List (ℤ × Vec Binary64)} {accepted : ℤ × Vec Binary64}
  {older : List (ℤ × Vec Binary64)} {last r o : Vec Binary64} {axis : Vec.Axis}

theorem finiteVec_snd (hsamples : ∀ sample ∈ samples, finiteVec sample.2 = true) :
    ∀ sample ∈ samples.map Prod.snd, finiteVec sample = true := by
  intro sample hsample
  obtain ⟨entry, hentry, rfl⟩ := List.mem_map.mp hsample
  exact hsamples entry hentry

/-- `rejectVectorOutlier_cases` for the samples of the node. -/
theorem reject_cases (hsamples : ∀ sample ∈ samples, finiteVec sample.2 = true)
    (hreverse : samples.reverse = accepted :: older) (hr : finiteVec r = true)
    (hreject : rejectVectorOutlier (samples.map Prod.snd) r cfg.outlierLimitRps = .ok o) :
    (o = r ∧ (cfg.outlierLimitRps.le 0 = true ∨ older = [])) ∨
      cfg.outlierLimitRps.le 0 = false ∧ ∃ a older', older = a :: older' ∧ ∀ axis,
        ∃ (ha : (a.2.component axis).isFinite = true)
          (hb : (accepted.2.component axis).isFinite = true),
          o.component axis =
            (SpikeFilter.reject (Number.nearness cfg.outlierLimitRps) ⟨a.2.component axis, ha⟩
              ⟨accepted.2.component axis, hb⟩ ⟨r.component axis, finite_component hr axis⟩).1 := by
  obtain ⟨o', ho', hcases⟩ := @rejectVectorOutlier_cases cfg _ _ (finiteVec_snd hsamples) hr
  obtain rfl := Except.ok.inj (hreject.symm.trans ho')
  rw [← List.map_reverse, hreverse, List.map_cons] at hcases
  rcases hcases with ⟨rfl, hzero | hshort⟩ | ⟨a, b, older', heq, hpositive, haxes⟩
  · exact Or.inl ⟨rfl, Or.inl hzero⟩
  · refine Or.inl ⟨rfl, Or.inr ?_⟩
    cases older with
    | nil => rfl
    | cons a older' => exact absurd rfl (hshort a.2 accepted.2 (older'.map Prod.snd))
  · cases older with
    | nil => cases heq
    | cons entry older =>
      obtain ⟨rfl, hrest⟩ := List.cons.inj heq
      obtain ⟨rfl, -⟩ := List.cons.inj hrest
      have hmem : ∀ sample ∈ accepted :: entry :: older, finiteVec sample.2 = true := by
        intro sample hsample
        rw [← hreverse, List.mem_reverse] at hsample
        exact hsamples sample hsample
      refine Or.inr ⟨hpositive, entry, older, rfl, fun axis => ?_⟩
      refine ⟨finite_component (hmem _ (List.mem_cons_of_mem _ List.mem_cons_self)) axis,
        finite_component (hmem _ List.mem_cons_self) axis, ?_⟩
      rw [haxes, ← rejectOutlier_eq]

/-- **What passes on one axis.** -/
theorem component_eq_iff (hsamples : ∀ sample ∈ samples, finiteVec sample.2 = true)
    (hreverse : samples.reverse = accepted :: older) (hlast : finiteVec last = true)
    (hfed : FedAxis cfg older accepted.2 last axis) (hr : finiteVec r = true)
    (hreject : rejectVectorOutlier (samples.map Prod.snd) r cfg.outlierLimitRps = .ok o)
    (hwithin : WithinLimit cfg (r.component axis) (last.component axis)) :
    o.component axis = r.component axis ↔
      cfg.outlierLimitRps.lt (r.component axis - accepted.2.component axis).abs = false := by
  have hnear : (Number.nearness cfg.outlierLimitRps).near ⟨_, finite_component hr axis⟩
      ⟨_, finite_component hlast axis⟩ = true :=
    @Number.near_of_abs_le _ cfg.limit _ _ cfg.outlierLimitRps_lt hwithin
  have hcases := reject_cases hsamples hreverse hr hreject
  rcases hfed with heq | ⟨hpositive, a, older', rfl, ha, hb, hl, hfed⟩
  · -- the last raw sample was accepted
    rw [heq]
    refine iff_of_true ?_ (Bool.not_eq_true' _ ▸ hnear)
    rcases hcases with ⟨rfl, -⟩ | ⟨-, a, older', -, haxes⟩
    · rfl
    · obtain ⟨ha, hb, haxis⟩ := haxes axis
      rw [haxis]
      refine congrArg Subtype.val (SpikeFilter.reject_eq_of_near _ ?_)
      simp only [heq]
      exact hnear
  · rcases hcases with ⟨-, hzero | hnil⟩ | ⟨-, a', older'', hcons, haxes⟩
    · rw [hpositive] at hzero
      cases hzero
    · cases hnil
    · obtain ⟨rfl, -⟩ := List.cons.inj hcons
      obtain ⟨_, _, haxis⟩ := haxes axis
      have hiff := SpikeFilter.reject_eq_iff _ hfed hnear
      rw [Subtype.ext_iff] at hiff
      rw [haxis, ← Bool.not_eq_true']
      exact hiff

/-- The accepted samples stay fed. -/
theorem fedAxis_accepted (hsamples : ∀ sample ∈ samples, finiteVec sample.2 = true)
    (hreverse : samples.reverse = accepted :: older) (hr : finiteVec r = true)
    (hreject : rejectVectorOutlier (samples.map Prod.snd) r cfg.outlierLimitRps = .ok o)
    (rest : List (ℤ × Vec Binary64)) :
    finiteVec o = true ∧ ∀ axis, FedAxis cfg (accepted :: rest) o r axis := by
  rcases reject_cases hsamples hreverse hr hreject with ⟨rfl, -⟩ | ⟨hpositive, a, -, -, haxes⟩
  · exact ⟨hr, fun axis => Or.inl rfl⟩
  · have ho : ∀ axis, (o.component axis).isFinite = true := by
      intro axis
      obtain ⟨ha, hb, haxis⟩ := haxes axis
      rw [haxis]
      exact (SpikeFilter.reject (Number.nearness cfg.outlierLimitRps) ⟨_, ha⟩ ⟨_, hb⟩
        ⟨_, finite_component hr axis⟩).2
    refine ⟨finiteVec_of_component ho, fun axis => Or.inr ⟨hpositive, accepted, rest, rfl, ?_⟩⟩
    obtain ⟨ha, hb, haxis⟩ := haxes axis
    refine ⟨hb, ho axis, finite_component hr axis, ?_⟩
    have hfed := SpikeFilter.fed_reject (Number.nearness cfg.outlierLimitRps)
      ⟨a.2.component axis, ha⟩ ⟨accepted.2.component axis, hb⟩
      ⟨r.component axis, finite_component hr axis⟩
    convert hfed

end Sample

/-! ### The node -/

/-- The samples of the node are finite, and the newest ones are fed. -/
structure Gyro (cfg : ImuRateConfig) (node : ImuNode) : Prop where
  finite : ∀ sample ∈ node.rateSamples, finiteVec sample.2 = true
  started : node.filterNs.isSome = true → node.angularVelocity.isSome = true
  fed : ∀ last, node.angularVelocity = some last → finiteVec last = true ∧
    ∃ accepted older, node.rateSamples.reverse = accepted :: older ∧
      ∀ axis, FedAxis cfg older accepted.2 last axis

theorem reverse_appendBounded {α : Type} (maxlen : ℕ) (samples : List α) (sample : α) :
    (appendBounded maxlen samples sample).reverse = (sample :: samples.reverse).take maxlen := by
  unfold appendBounded
  rw [List.reverse_drop, List.reverse_append, List.reverse_singleton, List.singleton_append,
    List.length_append, List.length_singleton]
  rcases le_total (samples.length + 1) maxlen with h | h
  · rw [Nat.sub_eq_zero_of_le h, Nat.sub_zero, List.take_of_length_le, List.take_of_length_le]
    · rwa [List.length_cons, List.length_reverse]
    · rw [List.length_cons, List.length_reverse]
  · rw [Nat.sub_sub_self h]

/-- A sample 0.2 s after the last one at most is the next of its segment. -/
theorem continuesSegment_of_le {sampleNs filterNs : ℤ} (hlt : filterNs < sampleNs)
    (hle : sampleNs ≤ filterNs + 200000000) :
    continuesSegment sampleNs (some filterNs) = true := by
  obtain ⟨n, hn⟩ := Int.eq_ofNat_of_zero_le (sub_nonneg.mpr hlt.le)
  have hcount : ((sampleNs - filterNs : ℤ) : ℚ) = n := by rw [hn, Int.cast_natCast]
  have hn1 : (1 : ℚ) ≤ n := by exact_mod_cast (by omega : 1 ≤ n)
  have hn2 : (n : ℚ) ≤ 200000000 := by exact_mod_cast (by omega : n ≤ 200000000)
  have hcountvalue : (Number.ofRat binary64 n).value = .finite n := by
    have hrep : Representable binary64 n :=
      representable_natCast ((by omega : n < 2 ^ 28).trans (by decide)) (by decide)
    rw [Number.value_ofRat, roundTo_of_representable hrep]
    rw [roundTo_of_representable hrep, abs_of_nonneg (by linarith)]
    exact hn2.trans_lt (by decide +kernel)
  have hquantum : (constant (1 / 10 ^ 9)).value = .finite (constant (1 / 10 ^ 9)).toRat :=
    FiniteNumber.value_eq ⟨constant (1 / 10 ^ 9), by decide +kernel⟩
  have hpos : (0 : ℚ) ≤ (constant (1 / 10 ^ 9)).toRat := by decide +kernel
  have helapsed : imuElapsedS sampleNs filterNs =
      Number.ofRat binary64 (n * (constant (1 / 10 ^ 9)).toRat) := by
    rw [imuElapsedS, hcount, Number.mul_eq_ofRat hcountvalue hquantum]
  have hone := mul_le_mul_of_nonneg_right hn1 hpos
  have hmost := roundTo_mono (f := binary64) (mul_le_mul_of_nonneg_right hn2 hpos)
  have hlimit : roundTo binary64 (200000000 * (constant (1 / 10 ^ 9)).toRat) ≤
      (constant (1 / 5)).toRat := by
    decide +kernel
  have hlimitvalue : (constant (1 / 5)).value = .finite (constant (1 / 5)).toRat :=
    FiniteNumber.value_eq ⟨constant (1 / 5), by decide +kernel⟩
  have hlow : Number.lt 0 (imuElapsedS sampleNs filterNs) = true := by
    rw [helapsed]
    refine Number.lt_ofRat_mono (by rwa [one_mul]) hone ?_
    decide +kernel
  have hhigh : (imuElapsedS sampleNs filterNs).le (constant (1 / 5)) = true := by
    rw [helapsed]
    rcases Number.value_ofRat_cases (f := binary64)
      (mul_nonneg (by linarith : 0 ≤ (n : ℚ)) hpos) with
      ⟨-, hover⟩ | ⟨hvalue, -⟩
    · exact absurd ((hover.trans hmost).trans hlimit) (by decide +kernel)
    · exact (Number.le_iff_of_finite hvalue hlimitvalue).mpr (hmost.trans hlimit)
  show (_ && _) = true
  rw [hlow, hhigh]
  rfl

/-- A message that is not skipped has a finite rate. -/
theorem finite_of_usable {node : ImuNode} {message : ImuMessage} {headingKnown : Bool}
    (h : ¬ (!node.pidSelected || !message.isUsable sqrt || !headingKnown) = true) :
    finiteVec message.angularVelocity = true := by
  rw [Bool.not_eq_true, Bool.or_eq_false_iff, Bool.or_eq_false_iff, Bool.not_eq_false',
    Bool.not_eq_false', ImuMessage.isUsable] at h
  simp only [Bool.and_eq_true] at h
  exact h.1.2.1.1.2

/-- What accepting a message does. -/
theorem onImuMessage_cases {node node' : ImuNode} {message : ImuMessage} {headingKnown : Bool}
    {output : Option (Vec Binary64)}
    (h : onImuMessage sqrt cfg node message headingKnown = .ok (node', output)) :
    (node' = node ∧ output = none) ∨
      finiteVec message.angularVelocity = true ∧ ∃ accepted samples, output = some accepted ∧
        node' = { node with
          rateSamples := appendBounded cfg.historySamples samples (message.stampNs, accepted)
          filterNs := some message.stampNs
          angularVelocity := some message.angularVelocity } ∧
        (continuesSegment message.stampNs node.filterNs = true ∧ samples = node.rateSamples ∧
            rejectVectorOutlier (samples.map Prod.snd) message.angularVelocity
              cfg.outlierLimitRps = .ok accepted ∨
          continuesSegment message.stampNs node.filterNs = false ∧ samples = [] ∧
            accepted = message.angularVelocity) := by
  unfold onImuMessage at h
  split_ifs at h with hskip hcontinues
  · obtain ⟨rfl, rfl⟩ := Prod.mk.inj (Except.ok.inj h)
    exact Or.inl ⟨rfl, rfl⟩
  all_goals
    obtain ⟨accepted, haccepted, heq⟩ := bind_eq_ok_iff.mp h
    obtain ⟨rfl, rfl⟩ := Prod.mk.inj (Except.ok.inj heq)
    refine Or.inr ⟨finite_of_usable hskip, accepted, _, rfl, rfl, ?_⟩
  · exact Or.inl ⟨hcontinues, rfl, haccepted⟩
  · exact Or.inr ⟨Bool.eq_false_iff.mpr hcontinues, rfl, (Except.ok.inj haccepted).symm⟩

theorem gyro_of_empty {node : ImuNode} (hsamples : node.rateSamples = [])
    (hfilter : node.filterNs = none) (hrate : node.angularVelocity = none) : Gyro cfg node := by
  refine ⟨fun sample hsample => ?_, fun hsome => ?_, fun last hlast => ?_⟩
  · rw [hsamples] at hsample
    cases hsample
  · rw [hfilter] at hsome
    cases hsome
  · rw [hrate] at hlast
    cases hlast

theorem gyro_onImuMessage {node node' : ImuNode} (hnode : Gyro cfg node) {message : ImuMessage}
    {headingKnown : Bool} {output : Option (Vec Binary64)}
    (h : onImuMessage sqrt cfg node message headingKnown = .ok (node', output)) :
      Gyro cfg node' := by
  rcases onImuMessage_cases h with ⟨rfl, -⟩ | ⟨hr, accepted, samples, -, rfl, hsource⟩
  · exact hnode
  obtain ⟨n, hn⟩ := Nat.exists_eq_add_of_le cfg.historySamples_ok.1
  -- the newest accepted sample and those before it that are kept
  have hkept : ∀ sample ∈ samples, finiteVec sample.2 = true := by
    rcases hsource with ⟨-, rfl, -⟩ | ⟨-, rfl, -⟩
    · exact hnode.finite
    · exact fun _ hsample => by cases hsample
  have hfed : finiteVec accepted = true ∧ ∀ axis,
      FedAxis cfg (samples.reverse.take (n + 2)) accepted message.angularVelocity axis := by
    rcases hsource with ⟨hcontinues, rfl, hreject⟩ | ⟨-, -, rfl⟩
    · have hstarted : node.filterNs.isSome = true := by
        cases hns : node.filterNs with
        | none =>
          rw [hns] at hcontinues
          cases hcontinues
        | some _ => rfl
      obtain ⟨last, hlast⟩ := Option.isSome_iff_exists.mp (hnode.started hstarted)
      obtain ⟨-, newest, older, hreverse, -⟩ := hnode.fed last hlast
      rw [hreverse]
      exact fedAxis_accepted hnode.finite hreverse hr hreject (older.take (n + 1))
    · exact ⟨hr, fun axis => Or.inl rfl⟩
  have hreverse : (appendBounded cfg.historySamples samples (message.stampNs, accepted)).reverse =
      (message.stampNs, accepted) :: samples.reverse.take (n + 2) := by
    rw [reverse_appendBounded, hn, show 3 + n = (n + 2) + 1 by omega, List.take_succ_cons]
  refine ⟨fun sample hsample => ?_, fun _ => rfl, fun last hlast => ?_⟩
  · dsimp only at hsample
    rw [← List.mem_reverse, hreverse, List.mem_cons] at hsample
    rcases hsample with rfl | hsample
    · exact hfed.1
    · exact hkept _ (List.mem_reverse.mp (List.mem_of_mem_take hsample))
  · obtain rfl := Option.some.inj hlast
    exact ⟨hr, _, _, hreverse, hfed.2⟩

theorem gyro_step {node node' : ImuNode} (hnode : Gyro cfg node) {input : PidImuInput}
    {output : Option (Vec Binary64)}
    (h : imuStep sqrt cfg node input = some (node', output)) : Gyro cfg node' := by
  cases input with
  | authorityStatus message =>
    obtain ⟨rfl, -⟩ := Prod.mk.inj (Option.some.inj h)
    unfold onImuSelection
    dsimp only
    split_ifs
    · exact hnode
    · exact ⟨hnode.finite, hnode.started, hnode.fed⟩
    · exact gyro_of_empty rfl rfl rfl
  | imu message headingKnown =>
    exact gyro_onImuMessage hnode (toOption_eq_some_iff.mp h)

variable {tr : ImuHistory} {node : ImuNode}

theorem gyro_of_run (h : (pidImuMachine sqrt cfg).Run tr node) : Gyro cfg node :=
  h.invariant (I := fun _ node => Gyro cfg node) (gyro_of_empty rfl rfl rfl)
    fun _ _ _ _ _ _ hnode hstep => gyro_step hnode hstep

/-- No reachable state makes the filter raise. -/
theorem imuStep_isSome (h : (pidImuMachine sqrt cfg).Run tr node) (input : PidImuInput) :
    (imuStep sqrt cfg node input).isSome = true := by
  cases input with
  | authorityStatus message => rfl
  | imu message headingKnown =>
    show (onImuMessage sqrt cfg node message headingKnown).toOption.isSome = true
    unfold onImuMessage
    split_ifs with hskip hcontinues
    · rfl
    · have hr : finiteVec message.angularVelocity = true := finite_of_usable hskip
      obtain ⟨o, ho, -⟩ := @rejectVectorOutlier_cases cfg _ _
        (finiteVec_snd (gyro_of_run h).finite) hr
      rw [ho]
      rfl
    · rfl

/-- One sample. -/
theorem passes_iff_follows {x : ImuTransition} (hpre : Gyro cfg x.pre)
    (hstep : imuStep sqrt cfg x.pre x.input = some (x.post, x.output)) :
    Passes cfg x ↔ Follows cfg x := by
  unfold Passes Follows
  refine forall₄_congr fun message accepted hsample hsegment => forall₂_congr fun last hlast => ?_
  obtain ⟨⟨headingKnown, hinput⟩, houtput⟩ := hsample
  obtain ⟨filterNs, hfilter, hlt, hle⟩ := hsegment
  rw [hinput, houtput] at hstep
  rcases onImuMessage_cases (toOption_eq_some_iff.mp hstep) with
    ⟨-, hnone⟩ | ⟨hr, accepted', samples, haccepted, -, hsource⟩
  · cases hnone
  obtain rfl := Option.some.inj haccepted
  have hcontinues := continuesSegment_of_le hlt hle
  rw [← hfilter] at hcontinues
  rcases hsource with ⟨-, rfl, hreject⟩ | ⟨hnot, -⟩
  · obtain ⟨hfinite, newest, older, hreverse, hfed⟩ := hpre.fed last hlast
    have hnewest : x.pre.rateSamples.getLast? = some newest := by
      rw [List.getLast?_eq_head?_reverse, hreverse]
      rfl
    have hiff := fun axis => component_eq_iff hpre.finite hreverse hfinite (hfed axis) hr hreject
    constructor
    · intro h lastAccepted hlastAccepted axis hwithin
      obtain rfl := Option.some.inj (hnewest.symm.trans hlastAccepted)
      exact (hiff axis hwithin).mp (h axis hwithin)
    · intro h axis hwithin
      exact (hiff axis hwithin).mpr (h newest hnewest axis hwithin)
  · rw [hcontinues] at hnot
    cases hnot

/-- **What the spike filter passes.**  In a run all samples within the threshold of the raw sample
before them pass exactly when they are within the threshold of the accepted one, too. -/
theorem samples_pass_iff (h : (pidImuMachine sqrt cfg).Run tr node) :
    (∀ x ∈ tr, Passes cfg x) ↔ ∀ x ∈ tr, Follows cfg x := by
  refine forall₂_congr fun x hx => ?_
  obtain ⟨after, before, rfl⟩ := List.append_of_mem hx
  have hrun := h.split
  exact passes_iff_follows (gyro_of_run hrun.tail) hrun.head_step

/-! ### A step of the rate -/

/-- The threshold of `real_pool_safety.yaml`. -/
def sampleImuConfig : ImuRateConfig where
  outlierLimitRps := constant (1 / 5)
  historySamples := 5
  outlierLimitRps_ok := by decide +kernel
  outlierLimitRps_lt := by decide +kernel
  historySamples_ok := by decide

/-- A sample of the rate about the x axis, 10 ms after the one before it. -/
def rateSample (index : ℕ) (rate : ℚ) : PidImuInput :=
  .imu
    { frameId := "base_link"
      orientationCovariance := 0
      orientation := ⟨constant 1, 0, 0, 0⟩
      angularVelocity := ⟨constant rate, 0, 0⟩
      stampNs := 10000000 * index }
    true

/-- The rate is 0 twice and 1 from then on. -/
def stepInputs : List PidImuInput :=
  [.authorityStatus { selectedSource := "pid" }, rateSample 1 0, rateSample 2 0, rateSample 3 1,
    rateSample 4 1]

/-- The square root of one. -/
def unitSqrt (x : Binary64) : Binary64 := x

/-- The last raw sample was 1, the sample is 1, and 0 is accepted. -/
def stepIsHeld (x : ImuTransition) : Bool :=
  match x.input, x.output, x.pre.angularVelocity, x.pre.filterNs with
  | .imu message _, some accepted, some last, some filterNs =>
    decide (filterNs < message.stampNs) && decide (message.stampNs ≤ filterNs + 200000000) &&
      decide (message.angularVelocity.x = last.x) &&
      !decide (accepted.x = message.angularVelocity.x)
  | _, _, _, _ => false

theorem samples_pass_iff_stepInputs :
    ∃ tr node, (pidImuMachine unitSqrt sampleImuConfig).Run tr node ∧ tr ≠ [] ∧
      ((∀ x ∈ tr, Passes sampleImuConfig x) ↔ ∀ x ∈ tr, Follows sampleImuConfig x) := by
  obtain ⟨x, tr, node, hrun, -⟩ :=
    run_of_execCheck (pidImuMachine unitSqrt sampleImuConfig) stepInputs
    (fun _ _ => true) (by decide +kernel)
  exact ⟨_, node, hrun, List.cons_ne_nil _ _, samples_pass_iff hrun⟩

/-- A rate that steps from 0 to 1 and stays there is still replaced by 0 at its second sample. -/
theorem step_is_not_spike :
    ¬ ∀ tr node, (pidImuMachine unitSqrt sampleImuConfig).Run tr node →
      ∀ x ∈ tr, Passes sampleImuConfig x := by
  intro h
  obtain ⟨x, tr, node, hrun, hheld⟩ := run_of_execCheck (pidImuMachine unitSqrt sampleImuConfig)
    stepInputs (fun x _ => stepIsHeld x) (by decide +kernel)
  have hpass := h _ _ hrun x List.mem_cons_self
  unfold stepIsHeld at hheld
  split at hheld
  · rename_i message headingKnown accepted last filterNs hinput houtput hlast hfilter
    simp only [Bool.and_eq_true, decide_eq_true_eq, Bool.not_eq_true', decide_eq_false_iff_not]
      at hheld
    obtain ⟨⟨⟨hlt, hle⟩, hsame⟩, hne⟩ := hheld
    refine hne
      (hpass message accepted ⟨⟨_, hinput⟩, houtput⟩ ⟨_, hfilter, hlt, hle⟩ last hlast .x ?_)
    show |message.angularVelocity.x.toRat - last.x.toRat| ≤ _
    rw [hsame, sub_self, abs_zero]
    decide +kernel
  · cases hheld

end RobotCore
