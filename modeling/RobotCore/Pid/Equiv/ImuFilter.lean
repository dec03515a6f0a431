import RobotCore.Pid.Equiv.Imu
import RobotCore.Pid.ImuFilter

/-!
# The history of the IMU rates

The stamps of the accepted rates are those of messages, they increase, and the newest is the one of
the filter (`RateHistory`).  Seen without the filters a run is a run of the gyro
(`gyroRun_of_run`), so the rates are finite.  With both the functions that `on_imu` gives the
history to are called as they require (`rateHistory_ok`).
-/

namespace RobotCore

open Ieee Machine
open ControlMath (fitsInt64 int64Sub strictlyIncreasing isLimit Numpy)

/-! ### Stamps -/

theorem ImuStamp.ns_bounds (stamp : ImuStamp) :
    -2 ^ 31 * 1000000000 ≤ stamp.ns ∧ stamp.ns < 2 ^ 31 * 1000000000 + 2 ^ 32 := by
  have hlow := stamp.sec.le_toInt
  have hhigh := stamp.sec.toInt_lt
  have hnanosec := stamp.nanosec.toNat_lt
  unfold ImuStamp.ns
  omega

/-- A number that is not positive is not rounded to a positive one. -/
theorem value_ofRat_nonpos {q : ℚ} (hq : q ≤ 0) (hbound : -2 ^ 63 ≤ q) :
    ∃ r, (Number.ofRat binary64 q).value = .finite r ∧ r ≤ 0 ∧ -2 ^ 63 ≤ r := by
  have hrep : Representable binary64 (2 ^ 63) := ⟨1, 63, by norm_num, by decide, by decide⟩
  have habs : |q| ≤ 2 ^ 63 := by
    rw [abs_of_nonpos hq]
    linarith
  have hround := abs_roundTo_le hrep habs
  have hnonpos : roundTo binary64 q ≤ 0 := by
    have hmono := roundTo_mono (f := binary64) hq
    rwa [roundTo_zero] at hmono
  refine ⟨roundTo binary64 q, Number.value_ofRat (hround.trans_lt ?_), hnonpos, ?_⟩
  · exact pow_lt_pow_right₀ (by norm_num) (by decide)
  · exact (abs_le.mp hround).1

/-- A time span that is not positive is not computed as a positive one. -/
theorem lt_of_continuesSegment {sampleNs filterNs : ℤ} (hbound : filterNs - sampleNs ≤ 2 ^ 63)
    (h : continuesSegment sampleNs (some filterNs) = true) : filterNs < sampleNs := by
  by_contra hge
  have hlt : Number.lt 0 (imuElapsedS sampleNs filterNs) = true := ((Bool.and_eq_true _ _).mp h).1
  have hnonpos : ((sampleNs - filterNs : ℤ) : ℚ) ≤ 0 := by exact_mod_cast (by omega)
  have hlow : -2 ^ 63 ≤ ((sampleNs - filterNs : ℤ) : ℚ) := by exact_mod_cast (by omega)
  obtain ⟨r, hvalue, hr, hrlow⟩ := value_ofRat_nonpos hnonpos hlow
  have hquantum : (constant (1 / 10 ^ 9)).value = .finite (constant (1 / 10 ^ 9)).toRat :=
    FiniteNumber.value_eq ⟨constant (1 / 10 ^ 9), by decide +kernel⟩
  have hpos : (0 : ℚ) ≤ (constant (1 / 10 ^ 9)).toRat := by decide +kernel
  have hone : (constant (1 / 10 ^ 9)).toRat ≤ 1 := by decide +kernel
  obtain ⟨p, hproduct, hp, -⟩ := value_ofRat_nonpos (mul_nonpos_of_nonpos_of_nonneg hr hpos)
    (by nlinarith : -2 ^ 63 ≤ r * (constant (1 / 10 ^ 9)).toRat)
  rw [imuElapsedS, Number.mul_eq_ofRat hvalue hquantum,
    Number.lt_iff_of_finite Number.value_zero hproduct] at hlt
  exact absurd hlt (not_lt.mpr hp)

/-- The difference of two stamps is one of `int64`. -/
theorem int64Sub_stamps (s t : ImuStamp) : int64Sub s.ns t.ns = s.ns - t.ns := by
  obtain ⟨hslow, hshigh⟩ := s.ns_bounds
  obtain ⟨htlow, hthigh⟩ := t.ns_bounds
  refine Int.bmod_eq_of_le ?_ ?_ <;> omega

theorem fitsInt64_stamp (stamp : ImuStamp) : fitsInt64 stamp.ns = true := by
  obtain ⟨hlow, hhigh⟩ := stamp.ns_bounds
  rw [fitsInt64, Bool.and_eq_true, decide_eq_true_eq, decide_eq_true_eq]
  omega

/-! ### The bounded history -/

section History

variable {α : Type} {maxlen : ℕ} {samples : List α} {sample : α}

theorem getLast?_appendBounded (h : 0 < maxlen) :
    (appendBounded maxlen samples sample).getLast? = some sample := by
  obtain ⟨n, rfl⟩ := Nat.exists_eq_succ_of_ne_zero h.ne'
  rw [List.getLast?_eq_head?_reverse, reverse_appendBounded, List.take_succ_cons, List.head?_cons]

theorem appendBounded_sublist :
    (appendBounded maxlen samples sample).Sublist (samples ++ [sample]) :=
  List.drop_sublist _ _

theorem mem_appendBounded {x : α} (h : x ∈ appendBounded maxlen samples sample) :
    x ∈ samples ∨ x = sample := by
  rcases List.mem_append.mp (appendBounded_sublist.subset h) with hmem | hmem
  · exact Or.inl hmem
  · exact Or.inr (List.mem_singleton.mp hmem)

end History

/-- Stamps that increase still do with a later one. -/
theorem pairwise_appendBounded {maxlen : ℕ} {samples : List (ℤ × Vec Binary64)}
    {sample : ℤ × Vec Binary64} (hsamples : (samples.map Prod.fst).Pairwise (· < ·))
    (hlater : ∀ x ∈ samples, x.1 < sample.1) :
    ((appendBounded maxlen samples sample).map Prod.fst).Pairwise (· < ·) := by
  refine List.Pairwise.sublist (appendBounded_sublist.map Prod.fst) ?_
  rw [List.map_append, List.pairwise_append]
  refine ⟨hsamples, List.pairwise_singleton _ _, fun t ht u hu => ?_⟩
  obtain ⟨x, hx, rfl⟩ := List.mem_map.mp ht
  obtain rfl := List.mem_singleton.mp hu
  exact hlater x hx

/-- The newest of increasing stamps is the greatest. -/
theorem le_of_getLast? {times : List ℤ} (h : times.Pairwise (· < ·)) {newest t : ℤ}
    (hnewest : times.getLast? = some newest) (ht : t ∈ times) : t ≤ newest := by
  obtain ⟨older, rfl⟩ := List.getLast?_eq_some_iff.mp hnewest
  rcases List.mem_append.mp ht with hmem | hmem
  · exact ((List.pairwise_append.mp h).2.2 t hmem newest (List.mem_singleton_self _)).le
  · exact (List.mem_singleton.mp hmem).le

/-! ### What a callback does -/

variable {math : ImuMath} {cfg : ImuFilterConfig} {node node' : ImuFilterNode}
  {message : SensorImu} {nowNs : ℤ}

theorem mapError_eq_ok {ε ε' α : Type} {f : ε → ε'} {x : Except ε α} {a : α}
    (h : x.mapError f = .ok a) : x = .ok a := by
  cases x with
  | error e => cases h
  | ok b => exact congrArg Except.ok (Except.ok.inj h)

/-- The node after the next sample of a segment. -/
theorem continueSegment_cases {sampleNs : ℤ} {dt : Binary64} {rate : Vec Binary64}
    {orientation : Quat Binary64}
    (h : continueSegment math cfg node sampleNs dt rate orientation = .ok node') :
    ∃ accepted filteredRate filteredOrientation,
      rejectVectorOutlier (node.rateSamples.map Prod.snd) rate cfg.outlierLimitRps = .ok accepted ∧
        node' = { node with
          rateSamples := acceptedSamples cfg node sampleNs accepted
          angularVelocityFiltered := some filteredRate
          orientationFiltered := some filteredOrientation } := by
  unfold continueSegment at h
  obtain ⟨accepted, haccepted, h⟩ := bind_eq_ok_iff.mp h
  obtain ⟨predicted, -, h⟩ := bind_eq_ok_iff.mp h
  split at h
  · obtain ⟨filtered, -, h⟩ := bind_eq_ok_iff.mp h
    exact ⟨accepted, _, filtered, mapError_eq_ok haccepted, (Except.ok.inj h).symm⟩
  · cases h

/-- The node after a message that passes the checks: the gyro's part of it is what
`onImuMessage` does. -/
theorem filterImu_cases {orientation : Quat Binary64}
    (h : filterImu math cfg node message orientation nowNs = .ok node') :
    ∃ accepted samples filteredRate filteredOrientation,
      node' = { node with
        rateSamples := appendBounded cfg.historySamples samples (message.stamp.ns, accepted)
        angularVelocityFiltered := some filteredRate
        orientationFiltered := some filteredOrientation
        orientation := some orientation
        angularVelocity := some message.angularVelocity
        imuNs := some nowNs
        filterNs := some message.stamp.ns } ∧
      (continuesSegment message.stamp.ns node.filterNs = true ∧ samples = node.rateSamples ∧
          rejectVectorOutlier (samples.map Prod.snd) message.angularVelocity
            cfg.outlierLimitRps = .ok accepted ∨
        continuesSegment message.stamp.ns node.filterNs = false ∧ samples = [] ∧
          accepted = message.angularVelocity) := by
  unfold filterImu at h
  obtain ⟨updated, hupdated, h⟩ := bind_eq_ok_iff.mp h
  obtain rfl := Except.ok.inj h
  unfold updateFilters at hupdated
  dsimp only at hupdated
  split at hupdated
  · rename_i hfilter
    obtain rfl := Except.ok.inj hupdated
    refine ⟨_, [], _, _, rfl, Or.inr ⟨?_, rfl, rfl⟩⟩
    rw [hfilter]
    rfl
  · rename_i filterNs hfilter
    split_ifs at hupdated with hcontinues
    · obtain ⟨accepted, filteredRate, filteredOrientation, hreject, rfl⟩ :=
        continueSegment_cases hupdated
      exact ⟨accepted, _, filteredRate, filteredOrientation, rfl,
        Or.inl ⟨hfilter ▸ hcontinues, rfl, hreject⟩⟩
    · obtain rfl := Except.ok.inj hupdated
      exact ⟨_, [], _, _, rfl, Or.inr ⟨hfilter ▸ Bool.eq_false_iff.mpr hcontinues, rfl, rfl⟩⟩

/-- A message is skipped, or it is filtered with the attitude of the body. -/
theorem onImu_cases (h : ImuFilterNode.onImu math cfg node message nowNs = .ok node') :
    node' = node ∨ node.pidSelected = true ∧
      message.toImuMessage.isUsable math.library.sqrt = true ∧
      ∃ orientation, filterImu math cfg node message orientation nowNs = .ok node' := by
  unfold ImuFilterNode.onImu at h
  split_ifs at h with hskip
  · exact Or.inl (Except.ok.inj h).symm
  · obtain ⟨orientation, -, h⟩ := bind_eq_ok_iff.mp h
    rw [Bool.not_eq_true, Bool.or_eq_false_iff, Bool.not_eq_false', Bool.not_eq_false'] at hskip
    split at h
    · exact Or.inl (Except.ok.inj h).symm
    · exact Or.inr ⟨hskip.1, hskip.2, _, h⟩

/-! ### The gyro in it -/

/-- The node without the filters. -/
def ImuFilterNode.gyro (node : ImuFilterNode) : ImuNode where
  pidSelected := node.pidSelected
  rateSamples := node.rateSamples
  filterNs := node.filterNs
  angularVelocity := node.angularVelocity

/-- A message that is accepted is one for the gyro. -/
theorem onImuMessage_of_filterImu {orientation : Quat Binary64}
    (hselected : node.pidSelected = true)
    (husable : message.toImuMessage.isUsable math.library.sqrt = true)
    (h : filterImu math cfg node message orientation nowNs = .ok node') :
    ∃ accepted, onImuMessage math.library.sqrt cfg.toImuRateConfig node.gyro message.toImuMessage
      true = .ok (node'.gyro, some accepted) := by
  obtain ⟨accepted, samples, filteredRate, filteredOrientation, rfl, hsource⟩ := filterImu_cases h
  refine ⟨accepted, ?_⟩
  have hcheck : (!node.gyro.pidSelected || !message.toImuMessage.isUsable math.library.sqrt ||
      !true) = false := by
    rw [husable, show node.gyro.pidSelected = true from hselected]
    rfl
  unfold onImuMessage
  rw [hcheck]
  rcases hsource with ⟨hcontinues, rfl, hreject⟩ | ⟨hcontinues, rfl, rfl⟩
  · rw [show continuesSegment message.toImuMessage.stampNs node.gyro.filterNs = true
      from hcontinues]
    change (rejectVectorOutlier (node.rateSamples.map Prod.snd) message.angularVelocity
      cfg.outlierLimitRps >>= _) = _
    rw [hreject]
    rfl
  · rw [show continuesSegment message.toImuMessage.stampNs node.gyro.filterNs = false
      from hcontinues]
    rfl

variable {tr : History ImuFilterNode ImuFilterInput Unit}

theorem gyro_onFilterSelection (node : ImuFilterNode) (message : ControlAuthorityStatus) :
    (onFilterSelection node message).gyro = onImuSelection node.gyro message := by
  unfold onFilterSelection onImuSelection
  dsimp only
  split_ifs with hsame hsame' hselected hselected'
  all_goals first | rfl | contradiction

/-- **Without its filters a run is a run of the gyro.** -/
theorem gyroRun_of_run (h : (imuFilterMachine math cfg).Run tr node) :
    ∃ gyroTr, (pidImuMachine math.library.sqrt cfg.toImuRateConfig).Run gyroTr node.gyro := by
  induction h with
  | start => exact ⟨[], .start⟩
  | @step tr node input node' _ _ hstep ih =>
    obtain ⟨gyroTr, hrun⟩ := ih
    cases input with
    | authorityStatus message =>
      obtain ⟨rfl, -⟩ := Prod.mk.inj (Option.some.inj hstep)
      rw [gyro_onFilterSelection]
      exact ⟨_, Run.step (i := .authorityStatus message) hrun rfl⟩
    | body message =>
      obtain ⟨rfl, -⟩ := Prod.mk.inj (Option.some.inj hstep)
      exact ⟨gyroTr, hrun⟩
    | imu message nowNs =>
      obtain ⟨next, hnext, heq⟩ := Option.map_eq_some_iff.mp hstep
      obtain ⟨rfl, -⟩ := Prod.mk.inj heq
      rcases onImu_cases (toOption_eq_some_iff.mp hnext) with rfl | ⟨hselected, husable, q, hfilter⟩
      · exact ⟨gyroTr, hrun⟩
      · obtain ⟨accepted, hgyro⟩ := onImuMessage_of_filterImu hselected husable hfilter
        refine ⟨_, Run.step (i := .imu message.toImuMessage true) (o := some accepted) hrun ?_⟩
        exact toOption_eq_some_iff.mpr hgyro

/-! ### The invariant -/

/-- The stamps are those of messages and increase to that of the filter, whose members are set
together. -/
structure RateHistory (node : ImuFilterNode) : Prop where
  stamped : ∀ sample ∈ node.rateSamples, ∃ stamp : ImuStamp, sample.1 = stamp.ns
  filterStamped : ∀ filterNs, node.filterNs = some filterNs →
    ∃ stamp : ImuStamp, filterNs = stamp.ns
  increasing : (node.rateSamples.map Prod.fst).Pairwise (· < ·)
  newest : ∀ sample, node.rateSamples.getLast? = some sample → node.filterNs = some sample.1
  rateSet : node.angularVelocityFiltered.isSome = node.filterNs.isSome
  orientationSet : node.orientationFiltered.isSome = node.filterNs.isSome

theorem rateHistory_init : RateHistory {} where
  stamped _ h := by cases h
  filterStamped _ h := by cases h
  increasing := List.Pairwise.nil
  newest _ h := by cases h
  rateSet := rfl
  orientationSet := rfl

/-- A message that continues the segment comes after all samples of the history. -/
theorem RateHistory.lt_stamp (hnode : RateHistory node) {stamp : ImuStamp}
    (hcontinues : continuesSegment stamp.ns node.filterNs = true) :
    ∀ sample ∈ node.rateSamples, sample.1 < stamp.ns := by
  intro sample hsample
  obtain ⟨newest, hnewest⟩ := Option.isSome_iff_exists.mp
    (List.getLast?_isSome.mpr (List.ne_nil_of_mem hsample))
  have hfilter := hnode.newest newest hnewest
  obtain ⟨filterStamp, hstamp⟩ := hnode.filterStamped _ hfilter
  rw [hfilter] at hcontinues
  have hbound : newest.1 - stamp.ns ≤ 2 ^ 63 := by
    have := filterStamp.ns_bounds
    have := stamp.ns_bounds
    omega
  have hlast : (node.rateSamples.map Prod.fst).getLast? = some newest.1 := by
    rw [List.getLast?_map, hnewest]
    rfl
  exact (le_of_getLast? hnode.increasing hlast (List.mem_map_of_mem hsample)).trans_lt
    (lt_of_continuesSegment hbound hcontinues)

/-- The history with one more sample. -/
theorem rateHistory_filterImu (hnode : RateHistory node) {orientation : Quat Binary64}
    (h : filterImu math cfg node message orientation nowNs = .ok node') : RateHistory node' := by
  obtain ⟨accepted, samples, filteredRate, filteredOrientation, rfl, hsource⟩ := filterImu_cases h
  have hkept : samples ⊆ node.rateSamples ∧ (samples.map Prod.fst).Pairwise (· < ·) ∧
      ∀ sample ∈ samples, sample.1 < message.stamp.ns := by
    rcases hsource with ⟨hcontinues, rfl, -⟩ | ⟨-, rfl, -⟩
    · exact ⟨List.Subset.refl _, hnode.increasing, hnode.lt_stamp hcontinues⟩
    · exact ⟨List.nil_subset _, List.Pairwise.nil, fun _ hsample => by cases hsample⟩
  obtain ⟨hsubset, hincreasing, hlater⟩ := hkept
  have hpositive : 0 < cfg.historySamples := by
    have := cfg.historySamples_ok.1
    omega
  refine ⟨fun sample hsample => ?_, fun filterNs hfilter => ?_,
    pairwise_appendBounded hincreasing hlater, fun sample hlast => ?_, rfl, rfl⟩
  · rcases mem_appendBounded hsample with hmem | rfl
    · exact hnode.stamped sample (hsubset hmem)
    · exact ⟨message.stamp, rfl⟩
  · exact ⟨message.stamp, (Option.some.inj hfilter).symm⟩
  · dsimp only at hlast
    rw [getLast?_appendBounded hpositive] at hlast
    obtain rfl := Option.some.inj hlast
    rfl

theorem rateHistory_step (hnode : RateHistory node) {input : ImuFilterInput} {output : Unit}
    (h : imuFilterStep math cfg node input = some (node', output)) : RateHistory node' := by
  cases input with
  | authorityStatus message =>
    obtain ⟨rfl, -⟩ := Prod.mk.inj (Option.some.inj h)
    unfold onFilterSelection
    dsimp only
    split_ifs
    · exact hnode
    · exact { hnode with }
    · exact rateHistory_init
  | body message =>
    obtain ⟨rfl, -⟩ := Prod.mk.inj (Option.some.inj h)
    exact { hnode with }
  | imu message nowNs =>
    obtain ⟨next, hnext, heq⟩ := Option.map_eq_some_iff.mp h
    obtain ⟨rfl, -⟩ := Prod.mk.inj heq
    rcases onImu_cases (toOption_eq_some_iff.mp hnext) with rfl | ⟨-, -, q, hfilter⟩
    · exact hnode
    · exact rateHistory_filterImu hnode hfilter

theorem rateHistory_of_run (h : (imuFilterMachine math cfg).Run tr node) : RateHistory node :=
  h.invariant (I := fun _ node => RateHistory node) rateHistory_init
    fun _ _ _ _ _ _ hnode hstep => rateHistory_step hnode hstep

/-! ### The calls -/

/-- What `reject_vector_outlier` requires. -/
structure OutlierPrecondition (recentSamples : List (Vec Binary64)) (sample : Vec Binary64)
    (threshold : Binary64) : Prop where
  history : ∀ recent ∈ recentSamples, finiteVec recent = true
  sample : finiteVec sample = true
  threshold : (threshold.isFinite && Number.le 0 threshold) = true

/-- What `timestamped_rate_prediction` requires. -/
structure PredictionPrecondition (times : List ℤ) (rates : List (Vec Binary64))
    (horizon accelerationLimit correctionLimit : Binary64) : Prop where
  nonempty : times ≠ []
  length : rates.length = times.length
  finite : ∀ rate ∈ rates, finiteVec rate = true
  increasing : times.Pairwise (· < ·)
  int64 : ∀ t ∈ times, fitsInt64 t = true
  /-- the differences are those of `int64` -/
  span : ∀ s ∈ times, ∀ t ∈ times, int64Sub t s = t - s
  horizon : (horizon.isFinite && Number.le 0 horizon) = true
  accelerationLimit : (accelerationLimit.isFinite && Number.le 0 accelerationLimit) = true
  correctionLimit : (correctionLimit.isFinite && Number.le 0 correctionLimit) = true

theorem lt_of_mem_zip_tail {times : List ℤ} (h : times.Pairwise (· < ·)) :
    ∀ pair ∈ times.zip times.tail, pair.1 < pair.2 := by
  induction times with
  | nil => exact fun _ hpair => by cases hpair
  | cons t times ih =>
    cases times with
    | nil => exact fun _ hpair => by cases hpair
    | cons u times =>
      intro pair hpair
      rcases List.mem_cons.mp hpair with rfl | hpair
      · exact (List.pairwise_cons.mp h).1 u List.mem_cons_self
      · exact ih (List.pairwise_cons.mp h).2 pair hpair

theorem strictlyIncreasing_of_pairwise {times : List ℤ} (h : times.Pairwise (· < ·))
    (hspan : ∀ s ∈ times, ∀ t ∈ times, int64Sub t s = t - s) :
    strictlyIncreasing times = true := by
  refine List.all_eq_true.mpr fun pair hpair => decide_eq_true ?_
  have hmem := List.of_mem_zip hpair
  rw [hspan pair.1 hmem.1 pair.2 (List.mem_of_mem_tail hmem.2)]
  exact sub_pos.mpr (lt_of_mem_zip_tail h pair hpair)

theorem isLimit_eq (library : MathLibrary binary64) (value : Binary64) :
    @isLimit Binary64 (scalar library) value = (value.isFinite && Number.le 0 value) := by
  have hzero : Number.ofRat binary64 0 = 0 := by decide +kernel
  change (value.isFinite && Number.le (Number.ofRat binary64 0) value) = _
  rw [hzero]

/-- Called as it requires, the prediction does not raise. -/
theorem exists_timestampedRatePrediction {times : List ℤ} {rates : List (Vec Binary64)}
    {horizon accelerationLimit correctionLimit : Binary64}
    (h : PredictionPrecondition times rates horizon accelerationLimit correctionLimit)
    (library : MathLibrary binary64) (numpy : Numpy Binary64) :
    ∃ rate, @ControlMath.timestampedRatePrediction Binary64 (scalar library) numpy times rates
      horizon
      accelerationLimit correctionLimit = .ok rate := by
  have hrates : rates ≠ [] := by
    rw [← List.length_pos_iff, h.length]
    exact List.length_pos_iff.mpr h.nonempty
  have hint64 : times.all fitsInt64 = true := List.all_eq_true.mpr h.int64
  have hfinite : rates.all (@Vec.allFinite Binary64 (scalar library)) = true :=
    List.all_eq_true.mpr h.finite
  have hlimits : (@isLimit Binary64 (scalar library) horizon &&
      @isLimit Binary64 (scalar library) accelerationLimit &&
      @isLimit Binary64 (scalar library) correctionLimit) = true := by
    rw [isLimit_eq, isLimit_eq, isLimit_eq, h.horizon, h.accelerationLimit, h.correctionLimit]
    rfl
  unfold ControlMath.timestampedRatePrediction
  rw [hint64, List.getLast?_eq_some_getLast hrates]
  simp only [Bool.not_true, Bool.false_eq_true, if_false, h.length, ne_eq, not_true_eq_false,
    decide_false, hfinite, Bool.or_self, strictlyIncreasing_of_pairwise h.increasing h.span,
      hlimits]
  exact ⟨_, rfl⟩

/-- Called as it requires, the spike filter returns a finite rate. -/
theorem exists_rejectVectorOutlier {samples : List (Vec Binary64)} {rate : Vec Binary64}
    (h : OutlierPrecondition samples rate cfg.outlierLimitRps) :
    ∃ accepted, rejectVectorOutlier samples rate cfg.outlierLimitRps = .ok accepted ∧
      finiteVec accepted = true := by
  obtain ⟨accepted, haccepted, hcases⟩ :=
    @rejectVectorOutlier_cases cfg.toImuRateConfig _ _ h.history h.sample
  refine ⟨accepted, haccepted, ?_⟩
  rcases hcases with ⟨rfl, -⟩ | ⟨a, b, older, hreverse, -, haxes⟩
  · exact h.sample
  · have hmem : ∀ sample ∈ b :: a :: older, finiteVec sample = true := by
      intro sample hsample
      rw [← hreverse, List.mem_reverse] at hsample
      exact h.history sample hsample
    refine finiteVec_of_component fun axis => ?_
    rw [haxes axis, rejectOutlier_eq cfg.outlierLimitRps
      ⟨_, finite_component (hmem a (List.mem_cons_of_mem _ List.mem_cons_self)) axis⟩
      ⟨_, finite_component (hmem b List.mem_cons_self) axis⟩
      ⟨_, finite_component h.sample axis⟩]
    exact (SpikeFilter.reject (Number.nearness cfg.outlierLimitRps) _ _ _).2

section Calls

variable (h : (imuFilterMachine math cfg).Run tr node) {rate : Vec Binary64}
  (hrate : finiteVec rate = true)
include h hrate

theorem outlierPrecondition_of_run :
    OutlierPrecondition (node.rateSamples.map Prod.snd) rate cfg.outlierLimitRps := by
  obtain ⟨gyroTr, hgyro⟩ := gyroRun_of_run h
  exact ⟨finiteVec_snd (gyro_of_run hgyro).finite, hrate, cfg.outlierLimitRps_ok⟩

theorem predictionPrecondition_of_run {stamp : ImuStamp}
    (hcontinues : continuesSegment stamp.ns node.filterNs = true) {accepted : Vec Binary64}
    (hreject : rejectVectorOutlier (node.rateSamples.map Prod.snd) rate cfg.outlierLimitRps =
      .ok accepted) :
    PredictionPrecondition ((acceptedSamples cfg node stamp.ns accepted).map Prod.fst)
      ((acceptedSamples cfg node stamp.ns accepted).map Prod.snd) cfg.predictionHorizonS
      cfg.predictionAccelLimitRps2 cfg.predictionDeltaLimitRps := by
  have hnode := rateHistory_of_run h
  have hprecondition := outlierPrecondition_of_run h hrate
  have hpositive : 0 < cfg.historySamples := by
    have := cfg.historySamples_ok.1
    omega
  have hsamples : ∀ sample ∈ acceptedSamples cfg node stamp.ns accepted,
      (∃ s : ImuStamp, sample.1 = s.ns) ∧ finiteVec sample.2 = true := by
    intro sample hsample
    rcases mem_appendBounded hsample with hmem | rfl
    · exact ⟨hnode.stamped sample hmem, hprecondition.history _ (List.mem_map_of_mem hmem)⟩
    · obtain ⟨accepted', haccepted, hfinite⟩ := exists_rejectVectorOutlier hprecondition
      obtain rfl := Except.ok.inj (hreject.symm.trans haccepted)
      exact ⟨⟨stamp, rfl⟩, hfinite⟩
  have hstamps : ∀ t ∈ (acceptedSamples cfg node stamp.ns accepted).map Prod.fst,
      ∃ s : ImuStamp, t = s.ns := by
    intro t ht
    obtain ⟨sample, hsample, rfl⟩ := List.mem_map.mp ht
    exact (hsamples sample hsample).1
  refine ⟨?_, ?_, fun rate hmem => ?_, ?_, fun t ht => ?_, fun s hs t ht => ?_,
    cfg.predictionHorizonS_ok, cfg.predictionAccelLimitRps2_ok, cfg.predictionDeltaLimitRps_ok⟩
  · rw [← List.length_pos_iff, List.length_map, List.length_pos_iff, ← List.getLast?_isSome,
      acceptedSamples, getLast?_appendBounded hpositive]
    rfl
  · rw [List.length_map, List.length_map]
  · obtain ⟨sample, hsample, rfl⟩ := List.mem_map.mp hmem
    exact (hsamples sample hsample).2
  · exact pairwise_appendBounded hnode.increasing (hnode.lt_stamp hcontinues)
  · obtain ⟨stamp', rfl⟩ := hstamps t ht
    exact fitsInt64_stamp stamp'
  · obtain ⟨stamp', rfl⟩ := hstamps s hs
    obtain ⟨stamp'', rfl⟩ := hstamps t ht
    exact int64Sub_stamps stamp'' stamp'

end Calls

/-- What leaves the filters of a reachable node by an exception is raised by the interpolation. -/
theorem continueSegment_error (h : (imuFilterMachine math cfg).Run tr node)
    {rate : Vec Binary64} (hrate : finiteVec rate = true) {stamp : ImuStamp}
    (hcontinues : continuesSegment stamp.ns node.filterNs = true) {dt : Binary64}
    {orientation : Quat Binary64} {e : OnImuError}
    (herror : continueSegment math cfg node stamp.ns dt rate orientation = .error e) :
    ∃ e', e = .quaternionSlerp e' := by
  have hnode := rateHistory_of_run h
  obtain ⟨accepted, haccepted, -⟩ := exists_rejectVectorOutlier (outlierPrecondition_of_run h hrate)
  obtain ⟨predicted, hpredicted⟩ := exists_timestampedRatePrediction
    (predictionPrecondition_of_run h hrate hcontinues haccepted) math.library math.numpy
  have hset : node.filterNs.isSome = true := by
    cases hfilter : node.filterNs with
    | none =>
      rw [hfilter] at hcontinues
      cases hcontinues
    | some _ => rfl
  obtain ⟨filteredRate, hfilteredRate⟩ := Option.isSome_iff_exists.mp (hnode.rateSet.trans hset)
  obtain ⟨current, hcurrent⟩ := Option.isSome_iff_exists.mp (hnode.orientationSet.trans hset)
  unfold continueSegment at herror
  rw [haccepted] at herror
  change ((@ControlMath.timestampedRatePrediction Binary64 (scalar math.library) _ _ _ _ _
    _).mapError _ >>= _) =
    _ at herror
  rw [hpredicted, hfilteredRate, hcurrent] at herror
  change ((@ControlMath.quaternionSlerp Binary64 (scalar math.library) _ _ _).mapError _ >>= _) =
    _ at herror
  rcases bind_eq_error_iff.mp herror with hslerp | ⟨filtered, -, hreturn⟩
  · cases hresult : @ControlMath.quaternionSlerp Binary64 (scalar math.library) current orientation
        (filterAlpha math dt cfg.orientationFilterTimeConstantS) with
    | error e' =>
      rw [hresult] at hslerp
      exact ⟨e', (Except.error.inj hslerp).symm⟩
    | ok q =>
      rw [hresult] at hslerp
      cases hslerp
  · cases hreturn

theorem onImu_error (h : (imuFilterMachine math cfg).Run tr node) {e : OnImuError}
    (herror : ImuFilterNode.onImu math cfg node message nowNs = .error e) :
    (∃ e', e = .normalizeQuaternion e') ∨ ∃ e', e = .quaternionSlerp e' := by
  unfold ImuFilterNode.onImu at herror
  split_ifs at herror with hskip
  rw [Bool.not_eq_true, Bool.or_eq_false_iff, Bool.not_eq_false', Bool.not_eq_false',
    ImuMessage.isUsable] at hskip
  simp only [Bool.and_eq_true] at hskip
  have hrate : finiteVec message.angularVelocity = true := hskip.2.1.1.2
  rcases bind_eq_error_iff.mp herror with hnormalize | ⟨orientation, -, herror⟩
  · cases hresult : @ControlMath.normalizeQuaternion Binary64 (scalar math.library)
      message.orientation with
    | error e' =>
      rw [hresult] at hnormalize
      exact Or.inl ⟨e', (Except.error.inj hnormalize).symm⟩
    | ok q =>
      rw [hresult] at hnormalize
      cases hnormalize
  · right
    split at herror
    · cases herror
    · rcases bind_eq_error_iff.mp herror with hupdate | ⟨updated, -, hreturn⟩
      · unfold updateFilters at hupdate
        dsimp only at hupdate
        split at hupdate
        · cases hupdate
        · rename_i filterNs hfilter
          split_ifs at hupdate with hcontinues
          exact continueSegment_error h hrate (hfilter ▸ hcontinues) hupdate
      · cases hreturn

/-- **The history of the rates.**  In every reachable state the stamps increase, the newest is that
of the filter, whose members are set together; and the two functions that read the history are
called as they require, and do not raise. -/
theorem rateHistory_ok (h : (imuFilterMachine math cfg).Run tr node) :
    (node.rateSamples.map Prod.fst).Pairwise (· < ·) ∧
      (∀ sample, node.rateSamples.getLast? = some sample → node.filterNs = some sample.1) ∧
      (node.angularVelocityFiltered.isSome = node.filterNs.isSome ∧
        node.orientationFiltered.isSome = node.filterNs.isSome) ∧
      (∀ message : SensorImu, finiteVec message.angularVelocity = true →
        continuesSegment message.stamp.ns node.filterNs = true →
        OutlierPrecondition (node.rateSamples.map Prod.snd) message.angularVelocity
            cfg.outlierLimitRps ∧
          ∀ accepted, rejectVectorOutlier (node.rateSamples.map Prod.snd) message.angularVelocity
              cfg.outlierLimitRps = .ok accepted →
            let samples := acceptedSamples cfg node message.stamp.ns accepted
            PredictionPrecondition (samples.map Prod.fst) (samples.map Prod.snd)
              cfg.predictionHorizonS cfg.predictionAccelLimitRps2 cfg.predictionDeltaLimitRps) ∧
      ∀ (message : SensorImu) (nowNs : ℤ),
        (∀ e, ImuFilterNode.onImu math cfg node message nowNs ≠ .error (.rejectVectorOutlier e)) ∧
          (∀ e, ImuFilterNode.onImu math cfg node message nowNs ≠ .error
            (.timestampedRatePrediction e)) ∧
          ImuFilterNode.onImu math cfg node message nowNs ≠ .error .typeError := by
  have hnode := rateHistory_of_run h
  refine ⟨hnode.increasing, hnode.newest, ⟨hnode.rateSet, hnode.orientationSet⟩,
    fun message hrate hcontinues => ⟨outlierPrecondition_of_run h hrate, fun accepted hreject =>
      predictionPrecondition_of_run h hrate hcontinues hreject⟩, fun message nowNs => ?_⟩
  refine ⟨fun e herror => ?_, fun e herror => ?_, fun herror => ?_⟩
  all_goals
    rcases onImu_error h herror with ⟨e', he⟩ | ⟨e', he⟩
    · cases he
    · cases he

/-! ### Two samples -/

/-- A library that is right where level samples use it. -/
def unitMath : ImuMath where
  library :=
    { pi := constant (314159 / 100000)
      sqrt := id
      sin := id
      cos := fun _ => constant 1
      asin := id
      acos := fun _ => 0
      atan2 := fun y _ => y }
  expm1 := id
  numpy := { sum := fun l => l.foldl (· + ·) 0, columnSum := fun l => l.foldl (· + ·) 0,
             dot := fun l m => (List.zipWith (· * ·) l m).foldl (· + ·) 0 }

/-- The estimator of `real_pool_safety.yaml` without its low passes. -/
def sampleFilterConfig : ImuFilterConfig where
  toImuRateConfig := sampleImuConfig
  predictionHorizonS := constant (1 / 25)
  predictionAccelLimitRps2 := constant 4
  predictionDeltaLimitRps := constant (3 / 25)
  rateFilterTimeConstantS := 0
  orientationFilterTimeConstantS := 0
  predictionHorizonS_ok := by decide +kernel
  predictionAccelLimitRps2_ok := by decide +kernel
  predictionDeltaLimitRps_ok := by decide +kernel
  rateFilterTimeConstantS_ok := by decide +kernel
  orientationFilterTimeConstantS_ok := by decide +kernel

/-- A level sample after whole milliseconds. -/
def levelImu (milliseconds : ℕ) : SensorImu where
  stamp := ⟨1, UInt32.ofNat (1000000 * milliseconds)⟩
  frameId := "base_link"
  orientationCovariance := 0
  orientation := ⟨constant 1, 0, 0, 0⟩
  angularVelocity := ⟨constant (1 / 10), 0, 0⟩

def twoSampleInputs : List ImuFilterInput :=
  [.authorityStatus { selectedSource := "pid" }, .body ⟨true, false, ⟨constant 1, 0, 0, 0⟩⟩,
    .imu (levelImu 0) 0, .imu (levelImu 10) 0]

theorem rateHistory_ok_twoSamples :
    ∃ tr node, (imuFilterMachine unitMath sampleFilterConfig).Run tr node ∧
      node.rateSamples.length = 2 ∧ (node.rateSamples.map Prod.fst).Pairwise (· < ·) ∧
      (∀ sample, node.rateSamples.getLast? = some sample → node.filterNs = some sample.1) ∧
      OutlierPrecondition (node.rateSamples.map Prod.snd) (levelImu 20).angularVelocity
        sampleFilterConfig.outlierLimitRps ∧
      ∀ nowNs, ImuFilterNode.onImu unitMath sampleFilterConfig node (levelImu 20) nowNs ≠
        .error .typeError := by
  obtain ⟨x, tr, node, hrun, hcheck⟩ := run_of_execCheck
    (imuFilterMachine unitMath sampleFilterConfig) twoSampleInputs
    (fun x _ => decide (x.post.rateSamples.length = 2) &&
      continuesSegment (levelImu 20).stamp.ns x.post.filterNs) (by decide +kernel)
  rw [hrun.head_post, Bool.and_eq_true, decide_eq_true_eq] at hcheck
  obtain ⟨hincreasing, hnewest, -, hcalls, hraises⟩ := rateHistory_ok hrun
  exact ⟨_, node, hrun, hcheck.1, hincreasing, hnewest,
    (hcalls (levelImu 20) (by decide +kernel) hcheck.2).1, fun nowNs =>
      (hraises (levelImu 20) nowNs).2.2⟩

end RobotCore
