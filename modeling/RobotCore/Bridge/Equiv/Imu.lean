import RobotCore.Bridge.Imu
import RobotCore.Bridge.Equiv.ClockMapper

/-!
# The timeline of the samples

Every run of one link in which a mapped sample follows the one before it in good order: later on the
ROS clock, without a jump of that clock, and with a tick less than half of the range ahead unless
the board has rolled back and the mapper was reset.  The arithmetic of the mapper is arbitrary.

The two last ticks, that of the handler and that of the mapper, need not agree; what is invariant is
`Following`, which relates the mapper to the samples it was handed since its last reset.
-/

namespace RobotCore

open Machine ClockNumber

variable {K : Type} [ClockNumber K]

/-! ### Histories -/

/-- The samples that were handed to the mapper, newest first. -/
def mappedFrames : History (ImuLink K) ImuInput ImuOutput → List ImuArrival
  | [] => []
  | x :: tr =>
    match x.output with
    | .mapped arrival _ _ => arrival :: mappedFrames tr
    | _ => mappedFrames tr

/-- Those since the mapper was last reset. -/
def sinceReset : History (ImuLink K) ImuInput ImuOutput → List ImuArrival
  | [] => []
  | x :: tr =>
    match x.output with
    | .mapped arrival reset _ => arrival :: if reset then [] else sinceReset tr
    | _ => sinceReset tr

/-- The samples that were published, oldest first. -/
def publishedImus : History (ImuLink K) ImuInput ImuOutput → List QueuedImu
  | [] => []
  | x :: tr =>
    match x.output with
    | .published queued => publishedImus tr ++ [queued]
    | _ => publishedImus tr

/-- The ticks from the oldest of these samples to the newest, wrapped around or not. -/
def ticksBetween : List ImuArrival → ℕ
  | newer :: older :: rest =>
    (newer.sample.sampleTickMs - older.sample.sampleTickMs).toNat + ticksBetween (older :: rest)
  | _ => 0

/-- The counter is ahead by at most half of the range. -/
def CounterAhead (newer older : ImuArrival) : Prop :=
  let delta := (newer.sample.sampleCounter - older.sample.sampleCounter).toNat
  0 < delta ∧ delta ≤ 2 ^ 31

/-- A sample that is mapped next after `last`. -/
structure InOrder (last arrival : ImuArrival) (reset : Bool) : Prop where
  ros_lt : last.rosNs < arrival.rosNs
  no_jump : |(arrival.rosNs - last.rosNs) - (arrival.steadyNs - last.steadyNs)| ≤
    kRosClockJumpThresholdNs
  tick : reset = true ∨
    (arrival.sample.sampleTickMs - last.sample.sampleTickMs).toNat < 2 ^ 31

/-- Every mapped sample follows the one before it in good order. -/
def ImuOrderly : History (ImuLink K) ImuInput ImuOutput → Prop
  | [] => True
  | x :: tr => ImuOrderly tr ∧
      match x.output with
      | .mapped arrival reset _ => ∀ last ∈ (mappedFrames tr).head?, InOrder last arrival reset
      | _ => True

/-! ### The mapper -/

/-- What an estimator keeps of a sample in order. -/
structure Observed (m m' : McuClockMapper K) (tickMs : UInt32) (arrivalRosNs arrivalSteadyNs : ℤ) :
    Prop where
  initialized : m'.initialized = m.initialized
  lastRawTick : m'.lastRawTick = tickMs
  lastArrivalRosNs : m'.lastArrivalRosNs = arrivalRosNs
  lastArrivalSteadyNs : m'.lastArrivalSteadyNs = arrivalSteadyNs
  referenceTick : m'.referenceTick = m.referenceTick
  extended : m'.extended = m.extended + (tickMs - m.lastRawTick).toNat

theorem observed_observe {m : McuClockMapper K} {tickMs : UInt32}
    (h : (tickMs - m.lastRawTick).toNat < 2 ^ 31) (arrivalRosNs arrivalSteadyNs : ℤ)
    (jumped : Bool) (stamp : ℤ) :
    Observed m { m.observe tickMs arrivalRosNs arrivalSteadyNs with
      rosClockDiscontinuity := jumped
      lastStampNs := stamp } tickMs arrivalRosNs arrivalSteadyNs := by
  obtain ⟨-, htaken⟩ := takeTick_of_ahead h
  rw [observe_eq]
  exact ⟨rfl, rfl, rfl, rfl, rfl, htaken⟩

/-- A sample in order is not rejected for its tick, and stamped after the last stamp if at all. -/
theorem map_of_ahead {m : McuClockMapper K} {tickMs : UInt32} (arrivalRosNs arrivalSteadyNs : ℤ)
    (hinit : m.initialized = true) (h : (tickMs - m.lastRawTick).toNat < 2 ^ 31)
    (hjump : m.rosClockJump arrivalRosNs arrivalSteadyNs = false) :
    let r := m.map tickMs arrivalRosNs arrivalSteadyNs
    Observed m r.1 tickMs arrivalRosNs arrivalSteadyNs ∧
      (r.2 = none ∧ r.1.lastStampNs = m.lastStampNs ∨
        ∃ stamp, r.2 = some stamp ∧ r.1.lastStampNs = stamp ∧ m.lastStampNs < stamp ∧
          stamp ≤ arrivalRosNs) := by
  have hobserved := observed_observe h arrivalRosNs arrivalSteadyNs
  have hlast : (m.observe tickMs arrivalRosNs arrivalSteadyNs).lastStampNs = m.lastStampNs := by
    rw [observe_eq]
    rfl
  unfold McuClockMapper.map
  rw [hinit, (takeTick_of_ahead h).1, hjump]
  simp only [Bool.not_true, Bool.false_eq_true, if_false, Bool.not_false, Bool.true_and,
    decide_eq_true_eq]
  split
  next => exact ⟨hobserved _ _, Or.inl ⟨rfl, hlast⟩⟩
  next hlater =>
    rw [hlast] at hlater
    exact ⟨hobserved _ _, Or.inr ⟨_, rfl, rfl, not_le.mp hlater, min_le_right _ _⟩⟩

/-! ### The invariant -/

/-- What was published and what waits in the queue, oldest first. -/
def emittedImus (tr : History (ImuLink K) ImuInput ImuOutput) (s : ImuLink K) : List QueuedImu :=
  publishedImus tr ++ s.imuQueue

def QueuedImu.arrival (queued : QueuedImu) : ImuArrival :=
  ⟨queued.sample, queued.arrivalRosNs, queued.steadyArrivalNs⟩

/-- The stamps that were handed out. -/
structure Emitted (tr : History (ImuLink K) ImuInput ImuOutput) (s : ImuLink K) : Prop where
  increasing : (emittedImus tr s).Pairwise fun q q' => q.stampNs < q'.stampNs
  le_arrival : ∀ q ∈ emittedImus tr s, q.stampNs ≤ q.arrivalRosNs
  le_last : ∀ q ∈ emittedImus tr s,
    s.clockMapper.initialized = true ∧ q.stampNs ≤ s.clockMapper.lastStampNs
  frames : ((emittedImus tr s).map QueuedImu.arrival).Sublist (mappedFrames tr).reverse

/-- Nothing was mapped yet. -/
structure Fresh (tr : History (ImuLink K) ImuInput ImuOutput) (s : ImuLink K) : Prop where
  since : sinceReset tr = []
  frames : mappedFrames tr = []
  clockMapper : s.clockMapper = .new
  haveCounter : s.tracker.haveCounter = false

/-- The mapper and the counter after the samples since the last reset. -/
structure Following (tr : History (ImuLink K) ImuInput ImuOutput) (s : ImuLink K)
    (newest : ImuArrival) (rest : List ImuArrival) : Prop where
  since : sinceReset tr = newest :: rest
  frames : (mappedFrames tr).head? = some newest
  initialized : s.clockMapper.initialized = true
  lastRawTick : s.clockMapper.lastRawTick = newest.sample.sampleTickMs
  lastArrivalRosNs : s.clockMapper.lastArrivalRosNs = newest.rosNs
  lastArrivalSteadyNs : s.clockMapper.lastArrivalSteadyNs = newest.steadyNs
  lastStampNs_le : s.clockMapper.lastStampNs ≤ newest.rosNs
  extended : s.clockMapper.extended = s.clockMapper.referenceTick + ticksBetween (newest :: rest)
  haveCounter : s.tracker.haveCounter = true
  lastCounter : s.tracker.lastCounter = newest.sample.sampleCounter
  counters : (newest :: rest).IsChain CounterAhead

def ImuInvariant (tr : History (ImuLink K) ImuInput ImuOutput) (s : ImuLink K) : Prop :=
  (Fresh tr s ∨ ∃ newest rest, Following tr s newest rest) ∧ Emitted tr s

section Step

variable {tr : History (ImuLink K) ImuInput ImuOutput} {s s' : ImuLink K} {arrival : ImuArrival}

/-- What mapping a sample leaves behind. -/
structure MapsSample (s s' : ImuLink K) (arrival : ImuArrival) (mapper : McuClockMapper K)
    (stamp : Option ℤ) : Prop where
  clockMapper : s'.clockMapper = { mapper with rosClockDiscontinuity := false }
  haveCounter : s'.tracker.haveCounter = true
  lastCounter : s'.tracker.lastCounter = arrival.sample.sampleCounter
  imuQueue : s'.imuQueue = s.imuQueue ∨ ∃ stampNs, stamp = some stampNs ∧
    s'.imuQueue = s.imuQueue ++ [⟨arrival.sample, stampNs, arrival.rosNs, arrival.steadyNs⟩]

theorem mapsSample_mapSample (s : ImuLink K) (arrival : ImuArrival) :
    let r := s.clockMapper.map arrival.sample.sampleTickMs arrival.rosNs arrival.steadyNs
    (s.mapSample arrival).2 = r.2 ∧
      MapsSample s (s.mapSample arrival).1 arrival r.1 r.2 := by
  intro r
  unfold ImuLink.mapSample
  rcases hr : s.clockMapper.map arrival.sample.sampleTickMs arrival.rosNs arrival.steadyNs with
    ⟨mapper, _ | stampNs⟩
  · have hr' : r = (mapper, none) := hr
    rw [hr']
    exact ⟨rfl, rfl, rfl, rfl, Or.inl rfl⟩
  · have hr' : r = (mapper, some stampNs) := hr
    rw [hr']
    dsimp only
    unfold ImuLink.push
    split
    next => exact ⟨rfl, rfl, rfl, rfl, Or.inr ⟨stampNs, rfl, rfl⟩⟩
    next => exact ⟨rfl, rfl, rfl, rfl, Or.inl rfl⟩

omit [ClockNumber K] in
/-- A stamp after all that were handed out, if any, joins them. -/
theorem Emitted.mapped {reset : Bool} {stamp : Option ℤ} {mapper : McuClockMapper K}
    {middle : ImuLink K} (h : Emitted tr s) (hqueue : middle.imuQueue = s.imuQueue)
    (hmaps : MapsSample middle s' arrival mapper stamp) (hinit : mapper.initialized = true)
    (hle : ∀ q ∈ emittedImus tr s, q.stampNs ≤ mapper.lastStampNs)
    (hstamp : ∀ stampNs, stamp = some stampNs → mapper.lastStampNs = stampNs ∧
      stampNs ≤ arrival.rosNs ∧ ∀ q ∈ emittedImus tr s, q.stampNs < stampNs) :
    Emitted (⟨s, .frame arrival, .mapped arrival reset stamp, s'⟩ :: tr) s' := by
  have hlast : s'.clockMapper.lastStampNs = mapper.lastStampNs := by rw [hmaps.clockMapper]
  have hinit' : s'.clockMapper.initialized = true := by
    rw [hmaps.clockMapper]
    exact hinit
  have hframes : ((emittedImus tr s).map QueuedImu.arrival).Sublist
      (arrival :: mappedFrames tr).reverse := by
    rw [List.reverse_cons]
    exact h.frames.trans (List.sublist_append_left _ _)
  rcases hmaps.imuQueue with hsame | ⟨stampNs, rfl, hpushed⟩
  · have hemitted : emittedImus (⟨s, .frame arrival, .mapped arrival reset stamp, s'⟩ :: tr) s' =
        emittedImus tr s := by
      rw [emittedImus, emittedImus, hsame, hqueue]
      rfl
    refine ⟨?_, ?_, ?_, ?_⟩ <;> rw [hemitted]
    · exact h.increasing
    · exact h.le_arrival
    · exact fun q hq => ⟨hinit', hlast ▸ hle q hq⟩
    · exact hframes
  · obtain ⟨hnew, harrival, hlt⟩ := hstamp stampNs rfl
    have hemitted : emittedImus
        (⟨s, .frame arrival, .mapped arrival reset (some stampNs), s'⟩ :: tr) s' =
          emittedImus tr s ++ [⟨arrival.sample, stampNs, arrival.rosNs, arrival.steadyNs⟩] := by
      rw [emittedImus, emittedImus, hpushed, hqueue, List.append_assoc]
      rfl
    refine ⟨?_, ?_, ?_, ?_⟩ <;> rw [hemitted]
    · refine List.pairwise_append.mpr ⟨h.increasing, List.pairwise_singleton _ _, ?_⟩
      intro q hq q' hq'
      obtain rfl := List.mem_singleton.mp hq'
      exact hlt q hq
    · refine List.forall_mem_append.mpr ⟨h.le_arrival, ?_⟩
      intro q hq
      obtain rfl := List.mem_singleton.mp hq
      exact harrival
    · refine List.forall_mem_append.mpr ⟨fun q hq => ⟨hinit', hlast ▸ hle q hq⟩, ?_⟩
      intro q hq
      obtain rfl := List.mem_singleton.mp hq
      exact ⟨hinit', by rw [hlast, hnew]⟩
    · rw [List.map_append]
      change (_ ++ [arrival]).Sublist (arrival :: mappedFrames tr).reverse
      rw [List.reverse_cons]
      exact h.frames.append_right [arrival]

/-- The mapper does not reject the sample for its tick. -/
def TakesTick (x : Transition (ImuLink K) ImuInput ImuOutput) : Prop :=
  ∀ arrival reset stamp, x.output = .mapped arrival reset stamp →
    let mapper := (x.pre.trackTick arrival.sample).clockMapper
    mapper.initialized = true → mapper.isBackward arrival.sample.sampleTickMs = false

theorem imuInvariant_pop {current : Bool} {output : ImuOutput} (h : ImuInvariant tr s)
    (hstep : s.publishNext current = some (s', output)) :
    ImuInvariant (⟨s, .pop current, output, s'⟩ :: tr) s' := by
  unfold ImuLink.publishNext at hstep
  split at hstep
  next => cases hstep
  next queued rest hqueue =>
    obtain ⟨rfl, rfl⟩ := Prod.mk.inj (Option.some.inj hstep)
    obtain ⟨hmapper, hemitted⟩ := h
    have hsub : (emittedImus (⟨s, .pop current, if current then .published queued else .stale,
        { s with imuQueue := rest }⟩ :: tr) { s with imuQueue := rest }).Sublist
          (emittedImus tr s) := by
      unfold emittedImus
      rw [hqueue]
      cases current
      · exact (List.sublist_cons_self queued rest).append_left _
      · change (publishedImus tr ++ [queued] ++ rest).Sublist _
        rw [List.append_assoc]
        exact List.Sublist.refl _
    refine ⟨?_, ?_, ?_, ?_, ?_⟩
    · rcases hmapper with hfresh | ⟨newest, older, hfollowing⟩
      · refine Or.inl ?_
        cases current <;> exact ⟨hfresh.since, hfresh.frames, hfresh.clockMapper,
          hfresh.haveCounter⟩
      · refine Or.inr ⟨newest, older, ?_⟩
        cases current <;> exact ⟨hfollowing.since, hfollowing.frames, hfollowing.initialized,
          hfollowing.lastRawTick, hfollowing.lastArrivalRosNs, hfollowing.lastArrivalSteadyNs,
          hfollowing.lastStampNs_le, hfollowing.extended, hfollowing.haveCounter,
          hfollowing.lastCounter, hfollowing.counters⟩
    · exact hemitted.increasing.sublist hsub
    · exact fun q hq => hemitted.le_arrival q (hsub.subset hq)
    · exact fun q hq => hemitted.le_last q (hsub.subset hq)
    · have hframes := (hsub.map QueuedImu.arrival).trans hemitted.frames
      cases current <;> exact hframes

/-- A dropped sample has not rolled back the tick. -/
theorem trackTick_of_repeats (h : repeatsCounter (s.trackTick arrival.sample).tracker
    arrival.sample = true) :
    sampleTickRolledBack s.tracker arrival.sample = false ∧
      (s.trackTick arrival.sample).clockMapper = s.clockMapper ∧
      (s.trackTick arrival.sample).tracker.haveCounter = s.tracker.haveCounter := by
  have hrolled : sampleTickRolledBack s.tracker arrival.sample = false := by
    unfold repeatsCounter ImuLink.trackTick at h
    cases hr : sampleTickRolledBack s.tracker arrival.sample with
    | false => rfl
    | true => simp [hr] at h
  unfold ImuLink.trackTick
  rw [hrolled]
  exact ⟨rfl, rfl, Bool.and_true _⟩

theorem imuInvariant_dropped (h : ImuInvariant tr s)
    (hrepeats : repeatsCounter (s.trackTick arrival.sample).tracker arrival.sample = true) :
    ImuInvariant (⟨s, .frame arrival, .dropped, s.trackTick arrival.sample⟩ :: tr)
      (s.trackTick arrival.sample) := by
  obtain ⟨hmapper, hemitted⟩ := h
  obtain ⟨-, hclock, hcounter⟩ := trackTick_of_repeats hrepeats
  refine ⟨?_, hemitted.increasing, hemitted.le_arrival, ?_, hemitted.frames⟩
  · rcases hmapper with hfresh | ⟨newest, older, hfollowing⟩
    · exact Or.inl ⟨hfresh.since, hfresh.frames, hclock.trans hfresh.clockMapper,
        hcounter.trans hfresh.haveCounter⟩
    · refine Or.inr ⟨newest, older, ?_⟩
      refine ⟨hfollowing.since, hfollowing.frames, ?_, ?_, ?_, ?_, ?_, ?_, ?_,
        hfollowing.lastCounter, hfollowing.counters⟩
      · exact hclock ▸ hfollowing.initialized
      · exact hclock ▸ hfollowing.lastRawTick
      · exact hclock ▸ hfollowing.lastArrivalRosNs
      · exact hclock ▸ hfollowing.lastArrivalSteadyNs
      · exact hclock ▸ hfollowing.lastStampNs_le
      · exact hclock ▸ hfollowing.extended
      · exact hcounter.trans hfollowing.haveCounter
  · intro q hq
    rw [hclock]
    exact hemitted.le_last q hq

theorem map_new (tickMs : UInt32) (arrivalRosNs arrivalSteadyNs : ℤ) :
    (McuClockMapper.new : McuClockMapper K).map tickMs arrivalRosNs arrivalSteadyNs =
      (McuClockMapper.new.anchor tickMs arrivalRosNs arrivalSteadyNs, some arrivalRosNs) := rfl

/-- The first sample of a mapper. -/
theorem imuInvariant_anchor {reset : Bool} {middle : ImuLink K} (hemitted : Emitted tr s)
    (hnew : middle.clockMapper = .new) (hqueue : middle.imuQueue = s.imuQueue)
    (hsince : (arrival :: if reset then [] else sinceReset tr) = [arrival])
    (hlt : ∀ q ∈ emittedImus tr s, q.stampNs < arrival.rosNs) :
    ImuInvariant (⟨s, .frame arrival, .mapped arrival reset (middle.mapSample arrival).2,
      (middle.mapSample arrival).1⟩ :: tr) (middle.mapSample arrival).1 := by
  obtain ⟨hstamp, hmaps⟩ := mapsSample_mapSample middle arrival
  rw [hnew, map_new] at hstamp hmaps
  rw [hstamp]
  refine ⟨Or.inr ⟨arrival, [], ?_⟩, ?_⟩
  · have hclock := hmaps.clockMapper
    refine ⟨hsince, rfl, ?_, ?_, ?_, ?_, ?_, ?_, hmaps.haveCounter, hmaps.lastCounter,
      List.isChain_singleton _⟩
    all_goals rw [hclock]
    · rfl
    · rfl
    · rfl
    · rfl
    · exact le_rfl
    · exact Nat.zero_add _
  · refine hemitted.mapped hqueue hmaps rfl (fun q hq => (hlt q hq).le) ?_
    rintro stampNs ⟨rfl⟩
    exact ⟨rfl, le_rfl, hlt⟩

theorem counterAhead_of_not_repeats {tracker : ImuTracker} {newest : ImuArrival}
    (hcounter : tracker.haveCounter = true)
    (hlast : tracker.lastCounter = newest.sample.sampleCounter)
    (h : repeatsCounter tracker arrival.sample = false) : CounterAhead arrival newest := by
  unfold repeatsCounter at h
  rw [hcounter, hlast, Bool.true_and] at h
  obtain ⟨hne, hle⟩ := Bool.or_eq_false_iff.mp h
  have hhalf : (0x80000000 : UInt32).toNat = 2 ^ 31 := by decide
  constructor
  · refine Nat.pos_of_ne_zero fun hzero => beq_eq_false_iff_ne.mp hne ?_
    exact UInt32.toNat_inj.mp hzero
  · have hnot := of_decide_eq_false hle
    rw [gt_iff_lt, UInt32.lt_iff_toNat_lt, hhalf] at hnot
    exact not_lt.mp hnot

/-- A sample that the mapper is handed. -/
theorem imuInvariant_mapped (h : ImuInvariant tr s)
    (hrepeats : repeatsCounter (s.trackTick arrival.sample).tracker arrival.sample = false)
    (horder : ∀ last ∈ (mappedFrames tr).head?,
      InOrder last arrival (sampleTickRolledBack s.tracker arrival.sample)) :
    let r := (s.trackTick arrival.sample).mapSample arrival
    let x : Transition (ImuLink K) ImuInput ImuOutput := ⟨s, .frame arrival,
      .mapped arrival (sampleTickRolledBack s.tracker arrival.sample) r.2, r.1⟩
    ImuInvariant (x :: tr) r.1 ∧ TakesTick x := by
  intro r x
  obtain ⟨hmapper, hemitted⟩ := h
  -- what was emitted is not later than the last arrival
  have hlater : ∀ q ∈ emittedImus tr s, q.stampNs < arrival.rosNs := by
    intro q hq
    obtain ⟨hinit, hle⟩ := hemitted.le_last q hq
    rcases hmapper with hfresh | ⟨newest, older, hfollowing⟩
    · rw [hfresh.clockMapper] at hinit
      cases hinit
    · exact hle.trans_lt (hfollowing.lastStampNs_le.trans_lt
        (horder newest hfollowing.frames).ros_lt)
  -- the mapper takes a tick that is not a step back to it
  have htakes : ∀ mapper : McuClockMapper K,
      (s.trackTick arrival.sample).clockMapper = mapper →
      (mapper.initialized = true → mapper.isBackward arrival.sample.sampleTickMs = false) →
      TakesTick x := by
    rintro mapper rfl hback other reset stamp ⟨rfl, -, -⟩
    exact hback
  cases hreset : sampleTickRolledBack s.tracker arrival.sample with
  | true =>
    -- the board has rolled back, and the mapper begins with this sample
    have hnew : (s.trackTick arrival.sample).clockMapper = .new := by
      unfold ImuLink.trackTick
      rw [hreset]
      rfl
    refine ⟨?_, htakes _ hnew fun hinit => by cases hinit⟩
    unfold x
    rw [hreset]
    exact imuInvariant_anchor hemitted hnew rfl rfl hlater
  | false =>
    have hsame : (s.trackTick arrival.sample).clockMapper = s.clockMapper := by
      unfold ImuLink.trackTick
      rw [hreset]
      rfl
    have hhave : (s.trackTick arrival.sample).tracker.haveCounter = s.tracker.haveCounter := by
      unfold ImuLink.trackTick
      rw [hreset]
      exact Bool.and_true _
    rcases hmapper with hfresh | ⟨newest, older, hfollowing⟩
    -- the first sample since a reset anchors the mapper
    · have hnew := hsame.trans hfresh.clockMapper
      refine ⟨?_, htakes _ hnew fun hinit => by cases hinit⟩
      unfold x
      rw [hreset]
      exact imuInvariant_anchor hemitted hnew rfl
        (by rw [hfresh.since]; rfl) hlater
    · have hinorder := horder newest hfollowing.frames
      rw [hreset] at hinorder
      -- in order: the tick is ahead, and the ROS clock has not jumped
      have hahead : (arrival.sample.sampleTickMs - s.clockMapper.lastRawTick).toNat < 2 ^ 31 := by
        rw [hfollowing.lastRawTick]
        exact hinorder.tick.resolve_left Bool.false_ne_true
      have hjump : s.clockMapper.rosClockJump arrival.rosNs arrival.steadyNs = false := by
        unfold McuClockMapper.rosClockJump
        rw [hfollowing.lastArrivalRosNs, hfollowing.lastArrivalSteadyNs]
        exact decide_eq_false hinorder.no_jump.not_gt
      obtain ⟨hstamp, hmaps⟩ := mapsSample_mapSample (s.trackTick arrival.sample) arrival
      rw [hsame] at hstamp hmaps
      obtain ⟨hobserved, hanswer⟩ := map_of_ahead arrival.rosNs arrival.steadyNs
        hfollowing.initialized hahead hjump
      set answer := s.clockMapper.map arrival.sample.sampleTickMs arrival.rosNs arrival.steadyNs
      refine ⟨⟨Or.inr ⟨arrival, newest :: older, ?_⟩, ?_⟩, htakes _ hsame fun _ =>
        (takeTick_of_ahead hahead).1⟩
      · have hclock := hmaps.clockMapper
        refine ⟨?_, rfl, ?_, ?_, ?_, ?_, ?_, ?_, hmaps.haveCounter, hmaps.lastCounter, ?_⟩
        · unfold x sinceReset
          rw [hreset, hfollowing.since]
          rfl
        · rw [hclock]
          exact hobserved.initialized.trans hfollowing.initialized
        · rw [hclock]
          exact hobserved.lastRawTick
        · rw [hclock]
          exact hobserved.lastArrivalRosNs
        · rw [hclock]
          exact hobserved.lastArrivalSteadyNs
        · rw [hclock]
          change answer.1.lastStampNs ≤ arrival.rosNs
          rcases hanswer with ⟨-, hlast⟩ | ⟨stamp, -, hlast, -, hle⟩
          · rw [hlast]
            exact hfollowing.lastStampNs_le.trans hinorder.ros_lt.le
          · rw [hlast]
            exact hle
        · rw [hclock]
          change answer.1.extended = answer.1.referenceTick + ticksBetween _
          rw [hobserved.extended, hobserved.referenceTick, hfollowing.extended,
            hfollowing.lastRawTick, ticksBetween]
          omega
        -- the counters stay in order
        · refine List.isChain_cons_cons.mpr ⟨?_, hfollowing.counters⟩
          exact counterAhead_of_not_repeats (hhave.trans hfollowing.haveCounter)
            hfollowing.lastCounter hrepeats
      · unfold x
        rw [hstamp]
        have hqueue : (s.trackTick arrival.sample).imuQueue = s.imuQueue := rfl
        refine hemitted.mapped hqueue hmaps (hobserved.initialized.trans hfollowing.initialized)
          ?_ ?_
        -- no stamp is later than the last one, and a new one is later than all
        · intro q hq
          have hle := (hemitted.le_last q hq).2
          rcases hanswer with ⟨-, hlast⟩ | ⟨stamp, -, hlast, hlt, -⟩
          · exact hlast ▸ hle
          · exact hlast ▸ hle.trans hlt.le
        · intro stampNs hsome
          rcases hanswer with ⟨hnone, -⟩ | ⟨stamp, hsome', hlast, hlt, hle⟩
          · rw [hnone] at hsome
            cases hsome
          · obtain rfl := Option.some.inj (hsome'.symm.trans hsome)
            exact ⟨hlast, hle, fun q hq => ((hemitted.le_last q hq).2).trans_lt hlt⟩

end Step

/-! ### Every run -/

theorem imuInvariant_of_run {tr : History (ImuLink K) ImuInput ImuOutput} {s : ImuLink K}
    (hrun : (imuMachine K).Run tr s) (horderly : ImuOrderly tr) :
    ImuInvariant tr s ∧ ∀ x ∈ tr, TakesTick x := by
  induction hrun with
  | start =>
    refine ⟨⟨Or.inl ⟨rfl, rfl, rfl, rfl⟩, List.Pairwise.nil, ?_, ?_, List.Sublist.slnil⟩, ?_⟩
    · exact fun q hq => absurd hq List.not_mem_nil
    · exact fun q hq => absurd hq List.not_mem_nil
    · exact fun x hx => absurd hx List.not_mem_nil
  | @step tr s i s' o _ hstep ih =>
    obtain ⟨hold, horder⟩ := horderly
    obtain ⟨hinv, htakes⟩ := ih hold
    cases i with
    | pop current =>
      refine ⟨imuInvariant_pop hinv hstep, List.forall_mem_cons.mpr ⟨?_, htakes⟩⟩
      intro arrival reset stamp hmapped
      change s.publishNext current = some (s', o) at hstep
      unfold ImuLink.publishNext at hstep
      split at hstep
      next => cases hstep
      next =>
        obtain ⟨-, rfl⟩ := Prod.mk.inj (Option.some.inj hstep)
        cases current <;> cases hmapped
    | frame arrival =>
      have hhandled := Option.some.inj hstep
      unfold ImuLink.handleImuIo at hhandled
      dsimp only at hhandled
      split at hhandled
      next hrepeats =>
        obtain ⟨rfl, rfl⟩ := Prod.mk.inj hhandled
        refine ⟨imuInvariant_dropped hinv hrepeats, List.forall_mem_cons.mpr ⟨?_, htakes⟩⟩
        intro other reset stamp hmapped
        cases hmapped
      next hrepeats =>
        obtain ⟨rfl, rfl⟩ := Prod.mk.inj hhandled
        obtain ⟨hnext, htake⟩ := imuInvariant_mapped hinv (Bool.eq_false_iff.mpr hrepeats)
          horder
        exact ⟨hnext, List.forall_mem_cons.mpr ⟨htake, htakes⟩⟩

/-- **The timeline.**  In every run in good order the mapper rejects no sample for its tick, its
extended tick has advanced by the ticks since the reset, the published stamps increase and are not
after their arrivals, and the counters of the mapped samples advance between resets; what is
published are mapped samples, in their order. -/
theorem imu_timeline_of_run {tr : History (ImuLink K) ImuInput ImuOutput} {s : ImuLink K}
    (hrun : (imuMachine K).Run tr s) (horderly : ImuOrderly tr) :
    (∀ x ∈ tr, TakesTick x) ∧
      s.clockMapper.elapsedTicks = ticksBetween (sinceReset tr) ∧
      ((publishedImus tr).Pairwise fun q q' => q.stampNs < q'.stampNs) ∧
      (∀ q ∈ publishedImus tr, q.stampNs ≤ q.arrivalRosNs) ∧
      (sinceReset tr).IsChain CounterAhead ∧
      ((publishedImus tr).map QueuedImu.arrival).Sublist (mappedFrames tr).reverse := by
  obtain ⟨⟨hmapper, hemitted⟩, htakes⟩ := imuInvariant_of_run hrun horderly
  have hsub : (publishedImus tr).Sublist (emittedImus tr s) := List.sublist_append_left _ _
  refine ⟨htakes, ?_, hemitted.increasing.sublist hsub,
    fun q hq => hemitted.le_arrival q (hsub.subset hq), ?_,
    (hsub.map _).trans hemitted.frames⟩
  · rcases hmapper with hfresh | ⟨newest, older, hfollowing⟩
    · rw [hfresh.clockMapper, hfresh.since]
      rfl
    · rw [hfollowing.since, McuClockMapper.elapsedTicks, hfollowing.extended]
      exact Nat.add_sub_cancel_left ..
  · rcases hmapper with hfresh | ⟨newest, older, hfollowing⟩
    · rw [hfresh.since]
      exact List.isChain_nil
    · rw [hfollowing.since]
      exact hfollowing.counters

/-! ### Repeated counters -/

instance (last arrival : ImuArrival) (reset : Bool) : Decidable (InOrder last arrival reset) :=
  decidable_of_iff (_ ∧ _ ∧ _) ⟨fun h => ⟨h.1, h.2.1, h.2.2⟩, fun h => ⟨h.1, h.2, h.3⟩⟩

instance decidableOrderly :
    (tr : History (ImuLink K) ImuInput ImuOutput) → Decidable (ImuOrderly tr)
  | [] => isTrue trivial
  | x :: tr =>
    have := decidableOrderly tr
    have : Decidable (match x.output with
        | .mapped arrival reset _ => ∀ last ∈ (mappedFrames tr).head?, InOrder last arrival reset
        | _ => True) := by
      split <;> infer_instance
    inferInstanceAs (Decidable (_ ∧ _))

/-- The mapper was reset with the sample. -/
def resetsMapper (x : Transition (ImuLink K) ImuInput ImuOutput) : Bool :=
  match x.output with
  | .mapped _ reset _ => reset
  | _ => false

/-- A sample, a second with the same tick and a counter half of the range ahead, and a third with
the counter of the first. -/
def halfRangeInputs : List ImuInput :=
  let frame (counter tick : UInt32) (atNs : ℤ) : ImuInput :=
    .frame ⟨{ sampleCounter := counter, sampleTickMs := tick }, 1000000000 + atNs, 500000000 + atNs⟩
  [frame 0 100 0, frame 0x80000000 100 1000000, frame 0 101 2000000, .pop true, .pop true]

/-- The second sample is not published, for its stamp would not be later, and the counter of the
first is published again. -/
theorem not_counters_advance_halfRange :
    ¬∀ (tr : History (ImuLink ℚ) ImuInput ImuOutput) (s : ImuLink ℚ),
      (imuMachine ℚ).Run tr s → ImuOrderly tr → (∀ x ∈ tr, resetsMapper x = false) →
        (publishedImus tr).IsChain fun q q' => CounterAhead q'.arrival q.arrival := by
  intro h
  obtain ⟨x, tr, s, hrun, hx⟩ := run_of_execCheck (imuMachine ℚ) halfRangeInputs
    (fun x tr => decide (ImuOrderly (x :: tr)) && decide (∀ y ∈ x :: tr, resetsMapper y = false) &&
      decide ((publishedImus (x :: tr)).map (·.sample.sampleCounter) = [0, 0]))
    (by decide +kernel)
  simp only [Bool.and_eq_true, decide_eq_true_eq] at hx
  obtain ⟨⟨horderly, hresets⟩, hcounters⟩ := hx
  have hchain := h _ s hrun horderly hresets
  obtain ⟨q, q', hq⟩ := List.length_eq_two.mp
    ((List.length_map _).symm.trans (congrArg List.length hcounters))
  rw [hq] at hchain hcounters
  have hcounter : q.sample.sampleCounter = 0 ∧ q'.sample.sampleCounter = 0 := by
    simpa using hcounters
  have hahead := (List.isChain_cons_cons.mp hchain).1.1
  change 0 < (q'.sample.sampleCounter - q.sample.sampleCounter).toNat at hahead
  rw [hcounter.1, hcounter.2] at hahead
  exact absurd hahead (by decide)

/-- That run is in good order. -/
theorem imu_timeline_of_run_halfRange : ∃ (tr : History (ImuLink ℚ) ImuInput ImuOutput)
    (s : ImuLink ℚ), (imuMachine ℚ).Run tr s ∧ tr ≠ [] ∧
      s.clockMapper.elapsedTicks = ticksBetween (sinceReset tr) := by
  obtain ⟨x, tr, s, hrun, hx⟩ := run_of_execCheck (imuMachine ℚ) halfRangeInputs
    (fun x tr => decide (ImuOrderly (x :: tr))) (by decide +kernel)
  exact ⟨_, s, hrun, List.cons_ne_nil _ _,
    (imu_timeline_of_run hrun (of_decide_eq_true hx)).2.1⟩

end RobotCore
