import RobotCore.Fusion.Equiv.Step

/-!
# Where an alignment comes from

`FusionKernel.traced` is the estimator whose transforms carry the map generations of the estimates
they were computed from.  Forgetting them gives back the estimator (`erase_fusionStep`), so what is
said of the traced one is said of it.  `isolated_of_step`: all buffered candidates and the alignment
come from estimates of the last generation.
-/

namespace RobotCore

open Machine

variable {σ δ ρ P C : Type}

/-! ### The traced estimator -/

/-- A transform with the map generations of the estimates it was computed from. -/
structure Traced (P : Type) where
  value : P
  generations : List ℕ
  deriving DecidableEq

def Traced.eraseAlignment (alignment : Traced P × C) : P × C := (alignment.1.value, alignment.2)

def AlignmentCandidate.erase (candidate : AlignmentCandidate (Traced P) C) :
    AlignmentCandidate P C :=
  ⟨candidate.stampNs, candidate.mapFromOdom.value, candidate.covariance⟩

/-- The computations of `K`; a candidate comes from its estimate, and a mean or a fused alignment
from all that it was computed from. -/
def FusionKernel.traced (K : FusionKernel σ δ ρ P C) : FusionKernel σ δ ρ (Traced P) C where
  toEkfKernel := K.toEkfKernel
  imuAngularVelocity := K.imuAngularVelocity
  imuLinearAcceleration := K.imuLinearAcceleration
  vioMeasurement data transform := K.vioMeasurement data transform.value
  identity := ⟨K.identity, []⟩
  candidate message state :=
    (K.candidate message state).map fun (transform, covariance) =>
      (⟨transform, [message.mapGeneration]⟩, covariance)
  tightestConsistentPoseCluster transforms :=
    K.tightestConsistentPoseCluster (transforms.map (·.value))
  meanAlignment candidates :=
    let (transform, covariance) := K.meanAlignment (candidates.map AlignmentCandidate.erase)
    (⟨transform, candidates.flatMap (·.mapFromOdom.generations)⟩, covariance)
  validCovariance := K.validCovariance
  fusedAlignment alignment candidate :=
    (K.fusedAlignment (Traced.eraseAlignment alignment) (Traced.eraseAlignment candidate)).map
      fun (transform, covariance) =>
        (⟨transform, alignment.1.generations ++ candidate.1.generations⟩, covariance)
  fillCovariances state alignment :=
    K.fillCovariances state (alignment.map Traced.eraseAlignment)

/-- The state without the generations. -/
def Fusion.erase (s : Fusion σ δ (Traced P) C) : Fusion σ δ P C where
  history := s.history
  lastReading := s.lastReading
  measurementSequence := s.measurementSequence
  lastImuMeasurementStampNs := s.lastImuMeasurementStampNs
  lastVioMeasurementStampNs := s.lastVioMeasurementStampNs
  zedStatus := s.zedStatus
  cachedSourceFrame := s.cachedSourceFrame
  baseFromVioSource := s.baseFromVioSource.map (·.value)
  mapFromOdom := s.mapFromOdom.map Traced.eraseAlignment
  alignmentCandidates := s.alignmentCandidates.map AlignmentCandidate.erase
  lastTagCandidateStampNs := s.lastTagCandidateStampNs
  lastTagMapGeneration := s.lastTagMapGeneration

/-- A transform that is looked up comes from no estimate. -/
def FusionInput.traced : FusionInput ρ P → FusionInput ρ (Traced P)
  | .imu reading message => .imu reading message
  | .vio reading message lookup published =>
    .vio reading message (lookup.map fun transform => ⟨transform, []⟩) published
  | .tag reading message => .tag reading message
  | .zedStatus arrivalNs ok => .zedStatus arrivalNs ok
  | .publish reading => .publish reading

/-! ### Forgetting the generations -/

section Erase

variable {K : FusionKernel σ δ ρ P C} {cfg : FusionConfig} {s : Fusion σ δ (Traced P) C}

theorem erase_resetOnClockJump {reading : ClockReading} :
    K.resetOnClockJump s.erase reading
      = Prod.map Fusion.erase id (K.traced.resetOnClockJump s reading) := by
  unfold FusionKernel.resetOnClockJump
  dsimp only
  rw [show s.erase.lastReading = s.lastReading from rfl]
  split_ifs <;> rfl

theorem erase_publish {reading : ClockReading} :
    K.publish s.erase reading = Prod.map Fusion.erase id (K.traced.publish s reading) := by
  unfold FusionKernel.publish
  rw [erase_resetOnClockJump]
  cases K.traced.resetOnClockJump s reading with
  | mk s effects =>
    cases effects with
    | cons effect effects => rfl
    | nil =>
      dsimp only [Prod.map_apply, id_eq]
      rw [show s.erase.history = s.history from rfl]
      split_ifs
      · rfl
      rw [show K.traced.propagateTo s.history.filter reading.rosNs
        = K.propagateTo s.history.filter reading.rosNs from rfl]
      cases K.propagateTo s.history.filter reading.rosNs with
      | none => rfl
      | some output =>
        dsimp only
        rw [show K.traced.fillCovariances output.state s.mapFromOdom
          = K.fillCovariances output.state s.erase.mapFromOdom from rfl]
        split_ifs <;> rfl

theorem erase_onImuSample {arrivalNs : ℤ} {message : ImuMsg ρ} :
    K.onImuSample cfg s.erase arrivalNs message
      = Prod.map Fusion.erase id (K.traced.onImuSample cfg s arrivalNs message) := by
  unfold FusionKernel.onImuSample
  rw [show s.erase.lastImuMeasurementStampNs = s.lastImuMeasurementStampNs from rfl]
  split_ifs
  · rfl
  rw [show K.traced.imuAngularVelocity = K.imuAngularVelocity from rfl]
  cases K.imuAngularVelocity message.data with
  | none => rfl
  | some angularVelocity =>
    dsimp only
    rw [show s.erase.history = s.history from rfl]
    cases s.history.anchorState with
    | none => rfl
    | some anchor =>
      dsimp only
      by_cases hskip :
          (!s.history.filter.initialized || decide (message.stampNs ≤ anchor.stampNs)) = true
      · rw [if_pos hskip, if_pos hskip]
        rfl
      · rw [if_neg hskip, if_neg hskip]
        rfl

theorem erase_onImu {reading : ClockReading} {message : ImuMsg ρ} :
    K.onImu cfg s.erase reading message
      = Prod.map Fusion.erase id (K.traced.onImu cfg s reading message) := by
  unfold FusionKernel.onImu
  rw [erase_resetOnClockJump]
  dsimp only [Prod.map_fst, Prod.map_snd, id_eq]
  rw [erase_onImuSample]
  rfl

theorem erase_initializeFromVio {event : Measurement δ} {published : ClockReading} :
    K.initializeFromVio s.erase event published
      = Prod.map Fusion.erase id (K.traced.initializeFromVio s event published) := by
  unfold FusionKernel.initializeFromVio
  rw [show K.traced.initializeFilter event = K.initializeFilter event from rfl]
  cases K.initializeFilter event with
  | mk initialized history =>
    cases initialized with
    | false => rfl
    | true =>
      dsimp only
      rw [show ({ s.erase with history := history } : Fusion σ δ P C)
        = Fusion.erase { s with history := history } from rfl, erase_publish]
      rfl

theorem erase_addMeasurement {event : Measurement δ} {accepts : MeasurementResult → Bool} :
    K.addMeasurement cfg s.erase event accepts
      = Prod.map id Fusion.erase (K.traced.addMeasurement cfg s event accepts) := rfl

theorem erase_processVio {event : Measurement δ} {published : ClockReading} :
    K.processVio cfg s.erase event published
      = Prod.map Fusion.erase id (K.traced.processVio cfg s event published) := by
  unfold FusionKernel.processVio
  rw [erase_initializeFromVio, show s.erase.history = s.history from rfl]
  by_cases hinit : (!s.history.filter.initialized) = true
  · rw [if_pos hinit, if_pos hinit]
  rw [if_neg hinit, if_neg hinit]
  cases s.history.anchorState with
  | none => rfl
  | some anchor =>
    dsimp only
    by_cases hold : event.stampNs ≤ anchor.stampNs
    · rw [if_pos hold, if_pos hold]
      rfl
    rw [if_neg hold, if_neg hold]
    by_cases hgap : 1000000000 < event.stampNs - s.history.filter.state.stampNs
    · rw [if_pos hgap, if_pos hgap]
    rw [if_neg hgap, if_neg hgap, erase_addMeasurement]
    cases K.traced.addMeasurement cfg s event MeasurementResult.any with
    | mk accepted s =>
      cases accepted with
      | false => rfl
      | true =>
        dsimp only [Prod.map_apply, id_eq]
        rw [erase_publish]
        rfl

theorem erase_updateCachedExtrinsic {frame : String} {lookup : Option P} :
    K.updateCachedExtrinsic cfg s.erase frame lookup
      = (K.traced.updateCachedExtrinsic cfg s frame
          (lookup.map fun transform => ⟨transform, []⟩)).map
        (Prod.map Traced.value Fusion.erase) := by
  have hlookup : lookup.bind (fun transform => some (transform,
        { s.erase with cachedSourceFrame := frame, baseFromVioSource := some transform }))
      = ((lookup.map fun transform => (⟨transform, []⟩ : Traced P)).bind fun transform =>
          some (transform, { s with
            cachedSourceFrame := frame
            baseFromVioSource := some transform })).map (Prod.map Traced.value Fusion.erase) := by
    cases lookup <;> rfl
  unfold FusionKernel.updateCachedExtrinsic
  dsimp only
  by_cases hbase : frame = cfg.baseFrame
  · rw [if_pos hbase, if_pos hbase]
    rfl
  rw [if_neg hbase, if_neg hbase, show s.erase.baseFromVioSource
    = s.baseFromVioSource.map (·.value) from rfl]
  cases htransform : s.baseFromVioSource with
  | none => exact hlookup
  | some transform =>
    dsimp only [Option.map_some]
    rw [show s.erase.cachedSourceFrame = s.cachedSourceFrame from rfl]
    by_cases hframe : s.cachedSourceFrame = frame
    · rw [if_pos hframe, if_pos hframe]
      rfl
    · rw [if_neg hframe, if_neg hframe]
      exact hlookup

theorem erase_onVioSample {arrivalNs : ℤ} {message : OdometryMsg ρ} {lookup : Option P}
    {published : ClockReading} :
    K.onVioSample cfg s.erase arrivalNs message lookup published
      = Prod.map Fusion.erase id (K.traced.onVioSample cfg s arrivalNs message
          (lookup.map fun transform => ⟨transform, []⟩) published) := by
  unfold FusionKernel.onVioSample
  rw [show s.erase.lastVioMeasurementStampNs = s.lastVioMeasurementStampNs from rfl]
  split_ifs
  · rfl
  dsimp only
  have hs : ({ s.erase with lastVioMeasurementStampNs := message.stampNs } : Fusion σ δ P C)
      = Fusion.erase { s with lastVioMeasurementStampNs := message.stampNs } := rfl
  rw [hs, erase_updateCachedExtrinsic]
  have hallows (s : Fusion σ δ (Traced P) C) : zedTrackingAllowsMeasurement cfg s.erase arrivalNs
      = zedTrackingAllowsMeasurement cfg s arrivalNs := rfl
  rw [hallows]
  split_ifs
  · rfl
  cases K.traced.updateCachedExtrinsic cfg { s with lastVioMeasurementStampNs := message.stampNs }
      message.childFrameId (lookup.map fun transform => ⟨transform, []⟩) with
  | none => rfl
  | some found =>
    obtain ⟨transform, s⟩ := found
    dsimp only [Option.map_some, Prod.map_apply]
    rw [show K.traced.vioMeasurement message.data transform
      = K.vioMeasurement message.data transform.value from rfl]
    cases K.vioMeasurement message.data transform.value with
    | none => rfl
    | some measurement =>
      obtain ⟨pose, twist⟩ := measurement
      exact erase_processVio (s := { s with measurementSequence := s.measurementSequence + 1 })

theorem erase_onVio {reading published : ClockReading} {message : OdometryMsg ρ}
    {lookup : Option P} :
    K.onVio cfg s.erase reading message lookup published
      = Prod.map Fusion.erase id (K.traced.onVio cfg s reading message
          (lookup.map fun transform => ⟨transform, []⟩) published) := by
  unfold FusionKernel.onVio
  rw [erase_resetOnClockJump]
  dsimp only [Prod.map_fst, Prod.map_snd, id_eq]
  rw [erase_onVioSample]
  rfl

theorem erase_addAlignmentCandidate {candidate : AlignmentCandidate (Traced P) C} :
    K.addAlignmentCandidate cfg s.erase candidate.erase
      = Prod.map id Fusion.erase (K.traced.addAlignmentCandidate cfg s candidate) := by
  unfold FusionKernel.addAlignmentCandidate
  dsimp only
  have hbuffer : ((s.erase.alignmentCandidates.dropWhile fun c =>
        decide (c.stampNs < candidate.erase.stampNs - cfg.alignmentCandidateWindowNs)) ++
          [candidate.erase])
      = ((s.alignmentCandidates.dropWhile fun c =>
        decide (c.stampNs < candidate.stampNs - cfg.alignmentCandidateWindowNs)) ++
          [candidate]).map AlignmentCandidate.erase := by
    rw [List.map_append, show s.erase.alignmentCandidates
      = s.alignmentCandidates.map AlignmentCandidate.erase from rfl, List.dropWhile_map]
    rfl
  rw [hbuffer, List.length_map, ← List.map_drop]
  generalize List.drop _ (_ ++ [candidate]) = candidates
  have hselected : K.traced.tightestConsistentPoseCluster (candidates.map (·.mapFromOdom))
      = K.tightestConsistentPoseCluster
        ((candidates.map AlignmentCandidate.erase).map (·.mapFromOdom)) := by
    change K.tightestConsistentPoseCluster _ = _
    rw [List.map_map, List.map_map]
    rfl
  rw [hselected]
  generalize K.tightestConsistentPoseCluster _ = selected
  have hcluster : (selected.filterMap fun i => (candidates.map AlignmentCandidate.erase)[i]?)
      = (selected.filterMap fun i => candidates[i]?).map AlignmentCandidate.erase := by
    rw [List.map_filterMap]
    simp only [List.getElem?_map]
  rw [hcluster]
  split_ifs <;> rfl

theorem erase_establishAlignment :
    K.establishAlignment s.erase = (K.traced.establishAlignment s).erase := by
  unfold FusionKernel.establishAlignment
  dsimp only
  rw [show K.traced.validCovariance (K.traced.meanAlignment s.alignmentCandidates).2
    = K.validCovariance (K.meanAlignment s.erase.alignmentCandidates).2 from rfl]
  split_ifs <;> rfl

theorem erase_processCandidate (s : Fusion σ δ (Traced P) C)
    (candidate : AlignmentCandidate (Traced P) C) :
    K.processCandidate cfg s.erase candidate.erase
      = (K.traced.processCandidate cfg s candidate).erase := by
  unfold FusionKernel.processCandidate
  rw [show s.erase.mapFromOdom = s.mapFromOdom.map Traced.eraseAlignment from rfl]
  cases s.mapFromOdom with
  | none =>
    dsimp only [Option.map_none]
    rw [erase_addAlignmentCandidate]
    cases K.traced.addAlignmentCandidate cfg s candidate with
    | mk consistent s =>
      cases consistent with
      | false => rfl
      | true => exact erase_establishAlignment
  | some alignment =>
    dsimp only [Option.map_some]
    rw [show K.traced.fusedAlignment alignment (candidate.mapFromOdom, candidate.covariance)
      = (K.fusedAlignment (Traced.eraseAlignment alignment)
        (candidate.erase.mapFromOdom, candidate.erase.covariance)).map fun fused =>
          (⟨fused.1, alignment.1.generations ++ candidate.mapFromOdom.generations⟩, fused.2)
      from rfl]
    cases K.fusedAlignment (Traced.eraseAlignment alignment)
      (candidate.erase.mapFromOdom, candidate.erase.covariance) <;> rfl

theorem erase_processTag {arrivalNs : ℤ} {message : AprilTagPoseEstimate ρ} :
    K.processTag cfg s.erase arrivalNs message
      = (K.traced.processTag cfg s arrivalNs message).erase := by
  unfold FusionKernel.processTag
  rw [show s.erase.history = s.history from rfl,
    show s.erase.lastTagCandidateStampNs = s.lastTagCandidateStampNs from rfl]
  split_ifs
  · rfl
  dsimp only
  rw [show K.traced.stateAt s.history message.stampNs
    = K.stateAt s.history message.stampNs from rfl]
  cases K.stateAt s.history message.stampNs with
  | none => rfl
  | some localState =>
    dsimp only
    rw [show K.traced.candidate message localState = (K.candidate message localState).map
      fun found => (⟨found.1, [message.mapGeneration]⟩, found.2) from rfl]
    cases K.candidate message localState with
    | none => rfl
    | some found =>
      exact erase_processCandidate { s with lastTagCandidateStampNs := message.stampNs }
        ⟨message.stampNs, ⟨found.1, [message.mapGeneration]⟩, found.2⟩

theorem erase_onTag {reading : ClockReading} {message : AprilTagPoseEstimate ρ} :
    K.onTag cfg s.erase reading message
      = Prod.map Fusion.erase id (K.traced.onTag cfg s reading message) := by
  unfold FusionKernel.onTag
  rw [erase_resetOnClockJump]
  cases K.traced.resetOnClockJump s reading with
  | mk s effects =>
    dsimp only [Prod.map_apply, id_eq]
    rw [show s.erase.lastTagMapGeneration = s.lastTagMapGeneration from rfl]
    by_cases hstale : message.mapGeneration < s.lastTagMapGeneration
    · rw [if_pos hstale, if_pos hstale]
      rfl
    rw [if_neg hstale, if_neg hstale]
    dsimp only [Prod.map_apply, id_eq]
    rw [← erase_processTag]
    split_ifs <;> rfl

/-- **Forgetting where the transforms come from** gives back the estimator. -/
theorem erase_fusionStep {input : FusionInput ρ P} :
    fusionStep K cfg s.erase input
      = Prod.map Fusion.erase id (fusionStep K.traced cfg s input.traced) := by
  cases input with
  | imu reading message => exact erase_onImu
  | vio reading message lookup published => exact erase_onVio
  | tag reading message => exact erase_onTag
  | zedStatus arrivalNs ok => rfl
  | publish reading => exact erase_publish

end Erase

/-! ### Isolation of the generations -/

/-- The buffered candidates and the alignment come from estimates of the last generation.  It is
zero before the first estimate. -/
structure Isolated (s : Fusion σ δ (Traced P) C) : Prop where
  candidates : ∀ c ∈ s.alignmentCandidates, ∀ g ∈ c.mapFromOdom.generations,
    g = s.lastTagMapGeneration
  alignment : ∀ a, s.mapFromOdom = some a → ∀ g ∈ a.1.generations, g = s.lastTagMapGeneration
  unstarted : s.lastTagMapGeneration = 0 → s.alignmentCandidates = [] ∧ s.mapFromOdom = none

section Isolated

variable {K : FusionKernel σ δ ρ (Traced P) C} {J : FusionKernel σ δ ρ P C} {cfg : FusionConfig}
  {s s' : Fusion σ δ (Traced P) C} {effects : List (FusionEffect δ)}

theorem isolated_of_empty (hcandidates : s.alignmentCandidates = [])
    (hmap : s.mapFromOdom = none) : Isolated s := by
  refine ⟨fun c hc => ?_, fun a ha => ?_, fun _ => ⟨hcandidates, hmap⟩⟩
  · rw [hcandidates] at hc
    cases hc
  · rw [hmap] at ha
    cases ha

/-- A callback that leaves the alignment or empties it. -/
theorem Isolated.of_alignmentKept (hs : Isolated s) (h : AlignmentKept s s') : Isolated s' := by
  rcases h.alignment with ⟨hmap, hcandidates⟩ | ⟨hmap, hcandidates⟩
  · refine ⟨?_, ?_, ?_⟩
    · rw [hcandidates, h.generation]
      exact hs.candidates
    · rw [hmap, h.generation]
      exact hs.alignment
    · rw [hcandidates, hmap, h.generation]
      exact hs.unstarted
  · exact isolated_of_empty hcandidates hmap

theorem alignmentKept_resetOnClockJump {reading : ClockReading} :
    AlignmentKept s (K.resetOnClockJump s reading).1 := by
  rcases resetOnClockJump_cases (K := K) (s := s) reading with h | h
  · rw [h]
    exact ⟨rfl, Or.inl ⟨rfl, rfl⟩⟩
  · rw [h]
    exact ⟨rfl, Or.inr ⟨rfl, rfl⟩⟩

variable (K cfg) in
/-- The buffer holds old candidates and the new one, and nothing else changes. -/
theorem addAlignmentCandidate_spec {candidate : AlignmentCandidate (Traced P) C} :
    (∀ c ∈ (K.addAlignmentCandidate cfg s candidate).2.alignmentCandidates,
      c ∈ s.alignmentCandidates ∨ c = candidate) ∧
    (K.addAlignmentCandidate cfg s candidate).2.mapFromOdom = s.mapFromOdom ∧
    (K.addAlignmentCandidate cfg s candidate).2.lastTagMapGeneration
      = s.lastTagMapGeneration := by
  have hbuffer {cutoffNs : ℤ} {n : ℕ} {c : AlignmentCandidate (Traced P) C}
      (hc : c ∈ ((s.alignmentCandidates.dropWhile fun c => decide (c.stampNs < cutoffNs)) ++
        [candidate]).drop n) : c ∈ s.alignmentCandidates ∨ c = candidate := by
    rcases List.mem_append.mp (List.mem_of_mem_drop hc) with hc | hc
    · exact Or.inl ((List.dropWhile_sublist _).mem hc)
    · exact Or.inr (List.mem_singleton.mp hc)
  unfold FusionKernel.addAlignmentCandidate
  dsimp only
  split_ifs
  · refine ⟨fun c hc => ?_, rfl, rfl⟩
    dsimp only at hc
    exact hbuffer hc
  · refine ⟨fun c hc => ?_, rfl, rfl⟩
    obtain ⟨i, -, hi⟩ := List.mem_filterMap.mp hc
    exact hbuffer (List.mem_of_getElem? hi)

theorem isolated_processCandidate {candidate : AlignmentCandidate (Traced P) C}
    (hs : Isolated s) (hstarted : s.lastTagMapGeneration ≠ 0)
    (hcandidate : ∀ g ∈ candidate.mapFromOdom.generations, g = s.lastTagMapGeneration) :
    Isolated (J.traced.processCandidate cfg s candidate) ∧
      (J.traced.processCandidate cfg s candidate).lastTagMapGeneration
        = s.lastTagMapGeneration := by
  unfold FusionKernel.processCandidate
  cases hmap : s.mapFromOdom with
  | none =>
    dsimp only
    obtain ⟨hbuffer, hkept, hgeneration⟩ := addAlignmentCandidate_spec J.traced cfg
      (s := s)
    cases hadd : J.traced.addAlignmentCandidate cfg s candidate with
    | mk consistent t =>
      rw [hadd] at hbuffer hkept hgeneration
      dsimp only at hbuffer hkept hgeneration ⊢
      -- the buffer has the candidates of this generation only
      have hcandidates : ∀ c ∈ t.alignmentCandidates, ∀ g ∈ c.mapFromOdom.generations,
          g = t.lastTagMapGeneration := by
        intro c hc g hg
        rw [hgeneration]
        rcases hbuffer c hc with hc | rfl
        · exact hs.candidates c hc g hg
        · exact hcandidate g hg
      have ht : Isolated t := by
        refine ⟨hcandidates, fun a ha => ?_, fun h => absurd (hgeneration.symm.trans h) hstarted⟩
        rw [hkept, hmap] at ha
        cases ha
      cases consistent with
      | false => exact ⟨ht, hgeneration⟩
      | true =>
        rw [if_pos rfl]
        -- an alignment is the mean of these candidates
        unfold FusionKernel.establishAlignment
        dsimp only
        split_ifs
        · refine ⟨⟨fun c hc => absurd hc List.not_mem_nil, fun a ha g hg => ?_,
            fun h => absurd (hgeneration.symm.trans h) hstarted⟩, hgeneration⟩
          obtain rfl := Option.some.inj ha
          obtain ⟨c, hc, hg⟩ := List.mem_flatMap.mp hg
          exact hcandidates c hc g hg
        · exact ⟨isolated_of_empty rfl (hkept.trans hmap), hgeneration⟩
  | some alignment =>
    dsimp only
    split
    · exact ⟨hs, rfl⟩
    · rename_i fused hfused
      obtain ⟨-, -, rfl⟩ := Option.map_eq_some_iff.mp hfused
      -- an update mixes the alignment with the candidate, both of this generation
      refine ⟨⟨hs.candidates, fun a ha g hg => ?_, fun h => absurd h hstarted⟩, rfl⟩
      obtain rfl := Option.some.inj ha
      rcases List.mem_append.mp hg with hg | hg
      · exact hs.alignment _ hmap g hg
      · exact hcandidate g hg

theorem isolated_processTag {arrivalNs : ℤ} {message : AprilTagPoseEstimate ρ}
    (hs : Isolated s) (hstarted : s.lastTagMapGeneration ≠ 0)
    (hmessage : message.mapGeneration = s.lastTagMapGeneration) :
    Isolated (J.traced.processTag cfg s arrivalNs message) ∧
      (J.traced.processTag cfg s arrivalNs message).lastTagMapGeneration
        = s.lastTagMapGeneration := by
  unfold FusionKernel.processTag
  split
  · exact ⟨hs, rfl⟩
  dsimp only
  have hs' : Isolated { s with lastTagCandidateStampNs := message.stampNs } :=
    ⟨hs.candidates, hs.alignment, hs.unstarted⟩
  split
  · exact ⟨hs', rfl⟩
  rename_i localState _
  split
  · exact ⟨hs', rfl⟩
  rename_i mapFromOdom covariance hfound
  obtain ⟨found, -, heq⟩ := Option.map_eq_some_iff.mp hfound
  obtain ⟨rfl, -⟩ := Prod.mk.inj heq
  refine isolated_processCandidate hs' hstarted fun g hg => ?_
  exact (List.mem_singleton.mp hg).trans hmessage

/-- **An estimate that is not older than the last one** empties the alignment of an older map,
whether or not it asks for it, and becomes the last one. -/
theorem isolated_onTag {reading : ClockReading} {message : AprilTagPoseEstimate ρ}
    (h : J.traced.onTag cfg s reading message = (s', effects)) (hs : Isolated s)
    (hpos : 0 < message.mapGeneration) (hle : s.lastTagMapGeneration ≤ message.mapGeneration) :
    Isolated s' ∧ s'.lastTagMapGeneration = message.mapGeneration := by
  unfold FusionKernel.onTag at h
  have hkept : AlignmentKept s (J.traced.resetOnClockJump s reading).1 :=
    alignmentKept_resetOnClockJump
  cases hreset : J.traced.resetOnClockJump s reading with
  | mk t resets =>
    rw [hreset] at h hkept
    have ht : Isolated t := hs.of_alignmentKept hkept
    have hgeneration : t.lastTagMapGeneration = s.lastTagMapGeneration := hkept.generation
    rw [← hgeneration] at hle
    dsimp only at h
    rw [if_neg (not_lt.mpr hle)] at h
    obtain ⟨rfl, -⟩ := Prod.mk.inj h
    refine isolated_processTag ?_ hpos.ne' rfl
    split_ifs with hchanged
    · exact isolated_of_empty rfl rfl
    · rw [Bool.or_eq_true, not_or, Bool.and_eq_true, not_and, bne_iff_ne, decide_eq_true_iff,
        not_lt] at hchanged
      rcases Nat.eq_zero_or_pos t.lastTagMapGeneration with hzero | hstarted
      · obtain ⟨hcandidates, hmap⟩ := ht.unstarted hzero
        exact isolated_of_empty hcandidates hmap
      · have hsame := le_antisymm hle (hchanged.2 hstarted.ne')
        refine ⟨?_, ?_, fun h => absurd h hpos.ne'⟩
        · rw [← hsame]
          exact ht.candidates
        · rw [← hsame]
          exact ht.alignment

/-- The other callbacks keep the generation. -/
theorem isolated_of_other {input : FusionInput ρ (Traced P)}
    (h : fusionStep K cfg s input = (s', effects))
    (hother : ∀ reading message, input ≠ .tag reading message) (hs : Isolated s) :
    Isolated s' ∧ s'.lastTagMapGeneration = s.lastTagMapGeneration := by
  have hkept : AlignmentKept s s' := by
    cases input with
    | imu reading message => exact (moves_onImu h).alignment
    | vio reading message lookup published => exact (moves_onVio h).alignment
    | tag reading message => exact absurd rfl (hother reading message)
    | zedStatus arrivalNs ok =>
      obtain ⟨rfl, -⟩ := Prod.mk.inj h
      exact ⟨rfl, Or.inl ⟨rfl, rfl⟩⟩
    | publish reading => exact (moves_publish cfg h).alignment
  exact ⟨hs.of_alignmentKept hkept, hkept.generation⟩

end Isolated

end RobotCore
