import RobotCore.Fusion.Equiv.History

/-!
# What a callback of the estimator does

`HistoryRule` lists what a callback can do to the history of the filter, with the effects it hands
out.  `moves_of_step` derives it for every callback, together with what the callbacks other than
`on_tag` do to the alignment: they leave it, or empty it.
-/

namespace RobotCore

open Machine

variable {σ δ ρ P C : Type} {K : FusionKernel σ δ ρ P C} {cfg : FusionConfig}
  {s s' s₁ : Fusion σ δ P C} {effects more : List (FusionEffect δ)} {e : Measurement δ}

/-- The effect starts the history anew. -/
def FusionEffect.resets : FusionEffect δ → Bool
  | .cleared | .initialized _ | .uninitialized => true
  | .kept _ | .erased _ => false

/-- What a callback can do to the history and to the counter of the measurements. -/
inductive HistoryRule (K : EkfKernel σ δ) (historyNs : ℤ) :
    FilterHistory σ δ → ℕ → List (FusionEffect δ) → FilterHistory σ δ → ℕ → Prop
  | same {h n n'} (le : n ≤ n') : HistoryRule K historyNs h n [] h n'
  | erased {h h' n e accepts} (fresh : EkfKernel.Fresh h n e)
      (keep : K.keepMeasurement h e accepts = (false, h')) :
      HistoryRule K historyNs h n [.erased e] h' e.id
  | kept {h h' n e accepts} (fresh : EkfKernel.Fresh h n e)
      (keep : K.keepMeasurement h e accepts = (true, h')) :
      HistoryRule K historyNs h n [.kept e] (K.pruneHistory historyNs h') e.id
  | keptCleared {h h' n e accepts} (fresh : EkfKernel.Fresh h n e)
      (keep : K.keepMeasurement h e accepts = (true, h')) :
      HistoryRule K historyNs h n [.kept e, .cleared] K.emptyHistory e.id
  | cleared {h n n'} (effects) (le : n ≤ n') (resets : effects.all FusionEffect.resets = true) :
      HistoryRule K historyNs h n (effects ++ [.cleared]) K.emptyHistory n'
  | initialized {h h' n n' e} (effects) (le : n ≤ n')
      (resets : effects.all FusionEffect.resets = true)
      (init : K.initializeFilter e = (true, h')) :
      HistoryRule K historyNs h n (effects ++ [.initialized e]) h' n'
  | uninitialized {h h' n n' e} (effects) (le : n ≤ n')
      (resets : effects.all FusionEffect.resets = true)
      (init : K.initializeFilter e = (false, h')) :
      HistoryRule K historyNs h n (effects ++ [.uninitialized]) h' n'

/-- What follows a reset of the history. -/
theorem HistoryRule.cleared_cons {K : EkfKernel σ δ} {historyNs : ℤ} {h h' : FilterHistory σ δ}
    {n n' : ℕ} (hrule : HistoryRule K historyNs K.emptyHistory n effects h' n') :
    HistoryRule K historyNs h n (.cleared :: effects) h' n' := by
  cases hrule with
  | same le => exact .cleared [] le rfl
  | erased fresh _ => exact absurd rfl fresh.anchored
  | kept fresh _ => exact absurd rfl fresh.anchored
  | keptCleared fresh _ => exact absurd rfl fresh.anchored
  | cleared effects le resets =>
    exact .cleared (.cleared :: effects) le resets
  | initialized effects le resets init =>
    exact .initialized (.cleared :: effects) le resets init
  | uninitialized effects le resets init =>
    exact .uninitialized (.cleared :: effects) le resets init

/-- The generation stays, and the alignment with its candidates stays or is emptied. -/
structure AlignmentKept (s s' : Fusion σ δ P C) : Prop where
  generation : s'.lastTagMapGeneration = s.lastTagMapGeneration
  alignment : (s'.mapFromOdom = s.mapFromOdom ∧ s'.alignmentCandidates = s.alignmentCandidates) ∨
    (s'.mapFromOdom = none ∧ s'.alignmentCandidates = [])

theorem AlignmentKept.trans (h : AlignmentKept s s₁) (h' : AlignmentKept s₁ s') :
    AlignmentKept s s' := by
  refine ⟨h'.generation.trans h.generation, ?_⟩
  rcases h'.alignment with ⟨hmap, hcandidates⟩ | hempty
  · rw [hmap, hcandidates]
    exact h.alignment
  · exact Or.inr hempty

/-- What a callback other than `on_tag` does. -/
structure Moves (K : FusionKernel σ δ ρ P C) (cfg : FusionConfig) (s : Fusion σ δ P C)
    (effects : List (FusionEffect δ)) (s' : Fusion σ δ P C) : Prop where
  history : HistoryRule K.toEkfKernel cfg.historyNs s.history s.measurementSequence effects
    s'.history s'.measurementSequence
  alignment : AlignmentKept s s'

/-! ### Clock checks and publication -/

theorem resetOnClockJump_cases (reading : ClockReading) :
    K.resetOnClockJump s reading = ({ s with lastReading := some reading }, []) ∨
    K.resetOnClockJump s reading
      = (K.clearFilterAndAlignment { s with lastReading := some reading }, [.cleared]) := by
  unfold FusionKernel.resetOnClockJump
  dsimp only
  split
  · exact Or.inr rfl
  · exact Or.inl rfl

theorem publish_cases (reading : ClockReading) :
    K.publish s reading = ({ s with lastReading := some reading }, []) ∨
    K.publish s reading
      = (K.clearFilterAndAlignment { s with lastReading := some reading }, [.cleared]) := by
  unfold FusionKernel.publish
  rcases resetOnClockJump_cases (K := K) (s := s) reading with hreset | hreset
  · rw [hreset]
    dsimp only
    split
    · exact Or.inl rfl
    · split
      · exact Or.inl rfl
      · split
        · exact Or.inl rfl
        · exact Or.inr rfl
  · rw [hreset]
    exact Or.inr rfl

/-- A callback whose state differs at most in members the rules do not read. -/
theorem moves_of_same (hhistory : s'.history = s.history)
    (hle : s.measurementSequence ≤ s'.measurementSequence)
    (hgeneration : s'.lastTagMapGeneration = s.lastTagMapGeneration)
    (hmap : s'.mapFromOdom = s.mapFromOdom)
    (hcandidates : s'.alignmentCandidates = s.alignmentCandidates) : Moves K cfg s [] s' :=
  ⟨hhistory ▸ .same hle, hgeneration, Or.inl ⟨hmap, hcandidates⟩⟩

variable (cfg) in
theorem moves_publish {reading : ClockReading} (h : K.publish s reading = (s', effects)) :
    Moves K cfg s effects s' := by
  rcases publish_cases (K := K) (s := s) reading with hpublish | hpublish
  · obtain ⟨rfl, rfl⟩ := Prod.mk.inj (hpublish.symm.trans h)
    exact moves_of_same rfl le_rfl rfl rfl rfl
  · obtain ⟨rfl, rfl⟩ := Prod.mk.inj (hpublish.symm.trans h)
    exact ⟨.cleared [] le_rfl rfl, rfl, Or.inr ⟨rfl, rfl⟩⟩

variable (cfg) in
/-- The clock check before what a callback does with its message. -/
theorem moves_after_clockCheck {reading : ClockReading}
    (hreset : K.resetOnClockJump s reading = (s₁, effects)) (h : Moves K cfg s₁ more s') :
    Moves K cfg s (effects ++ more) s' := by
  rcases resetOnClockJump_cases (K := K) (s := s) reading with hcases | hcases
  · obtain ⟨rfl, rfl⟩ := Prod.mk.inj (hcases.symm.trans hreset)
    exact ⟨h.history, h.alignment.generation, h.alignment.alignment⟩
  · obtain ⟨rfl, rfl⟩ := Prod.mk.inj (hcases.symm.trans hreset)
    refine ⟨.cleared_cons h.history, ?_⟩
    have hcleared : AlignmentKept s
        (K.clearFilterAndAlignment { s with lastReading := some reading }) :=
      ⟨rfl, Or.inr ⟨rfl, rfl⟩⟩
    exact hcleared.trans h.alignment

/-! ### IMU -/

/-- A measurement is added and pruned, or turned away. -/
theorem addMeasurement_cases {accepts : MeasurementResult → Bool} {accepted : Bool}
    (h : K.addMeasurement cfg s e accepts = (accepted, s')) :
    ∃ h₁, K.keepMeasurement s.history e accepts = (accepted, h₁) ∧
      s' = { s with history := if accepted then K.pruneHistory cfg.historyNs h₁ else h₁ } := by
  unfold FusionKernel.addMeasurement at h
  obtain ⟨rfl, rfl⟩ := Prod.mk.inj h
  exact ⟨_, rfl, rfl⟩

/-- A measurement that passes the checks before it is added. -/
theorem fresh_of_checks {a : EkfState σ} (hanchor : s.history.anchorState = some a)
    (hstamp : a.stampNs < e.stampNs) (hid : e.id = s.measurementSequence + 1) :
    EkfKernel.Fresh s.history s.measurementSequence e := by
  refine ⟨fun b hb => ?_, by rw [hanchor]; exact Option.some_ne_none a, hid⟩
  obtain rfl := Option.some.inj (hanchor.symm.trans hb)
  exact hstamp

theorem moves_addMeasurement {accepts : MeasurementResult → Bool}
    (hfresh : EkfKernel.Fresh s.history s.measurementSequence e)
    (hhistory : s₁.history = s.history) (hid : s₁.measurementSequence = e.id)
    (halignment : AlignmentKept s s₁) :
    Moves K cfg s [if (K.addMeasurement cfg s₁ e accepts).1 then .kept e else .erased e]
      (K.addMeasurement cfg s₁ e accepts).2 := by
  cases hadd : K.addMeasurement cfg s₁ e accepts with
  | mk accepted s' =>
    obtain ⟨h₁, hkeep, rfl⟩ := addMeasurement_cases hadd
    rw [hhistory] at hkeep
    refine ⟨?_, halignment.generation, halignment.alignment⟩
    dsimp only
    rw [hid]
    cases accepted with
    | false => exact .erased hfresh hkeep
    | true => exact .kept hfresh hkeep

theorem moves_onImuSample {arrivalNs : ℤ} {message : ImuMsg ρ}
    (h : K.onImuSample cfg s arrivalNs message = (s', effects)) : Moves K cfg s effects s' := by
  unfold FusionKernel.onImuSample at h
  split at h
  · obtain ⟨rfl, rfl⟩ := Prod.mk.inj h
    exact moves_of_same rfl le_rfl rfl rfl rfl
  split at h
  · obtain ⟨rfl, rfl⟩ := Prod.mk.inj h
    exact moves_of_same rfl le_rfl rfl rfl rfl
  dsimp only at h
  split at h
  · obtain ⟨rfl, rfl⟩ := Prod.mk.inj h
    exact moves_of_same rfl le_rfl rfl rfl rfl
  rename_i a hanchor
  split at h
  · obtain ⟨rfl, rfl⟩ := Prod.mk.inj h
    exact moves_of_same rfl le_rfl rfl rfl rfl
  rename_i hchecks
  rw [Bool.or_eq_true, decide_eq_true_iff, not_or, Bool.not_eq_true', Bool.not_eq_false,
    not_le] at hchecks
  obtain ⟨rfl, rfl⟩ := Prod.mk.inj h
  exact moves_addMeasurement (fresh_of_checks hanchor hchecks.2 rfl) rfl rfl
    ⟨rfl, Or.inl ⟨rfl, rfl⟩⟩

theorem moves_onImu {reading : ClockReading} {message : ImuMsg ρ}
    (h : K.onImu cfg s reading message = (s', effects)) : Moves K cfg s effects s' := by
  obtain ⟨rfl, rfl⟩ := Prod.mk.inj h
  exact moves_after_clockCheck cfg rfl (moves_onImuSample rfl)

/-! ### VIO -/

theorem moves_initializeFromVio {published : ClockReading}
    (hle : s.measurementSequence ≤ s₁.measurementSequence) (halignment : AlignmentKept s s₁)
    (h : K.initializeFromVio s₁ e published = (s', effects)) : Moves K cfg s effects s' := by
  unfold FusionKernel.initializeFromVio at h
  cases hinit : K.initializeFilter e with
  | mk initialized history =>
    rw [hinit] at h
    dsimp only at h
    cases initialized with
    | false =>
      obtain ⟨rfl, rfl⟩ := Prod.mk.inj h
      exact ⟨.uninitialized [] hle rfl hinit, halignment.generation,
        halignment.alignment⟩
    | true =>
      rcases publish_cases (K := K) (s := { s₁ with history := history }) published with
        hpublish | hpublish
      · rw [hpublish] at h
        obtain ⟨rfl, rfl⟩ := Prod.mk.inj h
        exact ⟨.initialized [] hle rfl hinit, halignment.generation,
          halignment.alignment⟩
      · rw [hpublish] at h
        obtain ⟨rfl, rfl⟩ := Prod.mk.inj h
        exact ⟨.cleared [.initialized e] hle rfl, halignment.generation,
          Or.inr ⟨rfl, rfl⟩⟩

/-- A VIO measurement is processed after the counter has given it its id. -/
theorem moves_processVio {published : ClockReading} (hhistory : s₁.history = s.history)
    (hid : s₁.measurementSequence = e.id) (hnew : e.id = s.measurementSequence + 1)
    (halignment : AlignmentKept s s₁) (h : K.processVio cfg s₁ e published = (s', effects)) :
    Moves K cfg s effects s' := by
  have hle : s.measurementSequence ≤ s₁.measurementSequence := by omega
  have hsame : Moves K cfg s [] s₁ := ⟨hhistory ▸ .same hle, halignment⟩
  unfold FusionKernel.processVio at h
  split at h
  · exact moves_initializeFromVio hle halignment h
  split at h
  · obtain ⟨rfl, rfl⟩ := Prod.mk.inj h
    exact hsame
  rename_i a hanchor
  split at h
  · obtain ⟨rfl, rfl⟩ := Prod.mk.inj h
    exact hsame
  rename_i hstamp
  split at h
  · exact moves_initializeFromVio hle halignment h
  rw [hhistory] at hanchor
  have hfresh := fresh_of_checks hanchor (not_le.mp hstamp) hnew
  cases hadd : K.addMeasurement cfg s₁ e MeasurementResult.any with
  | mk accepted s₂ =>
    have hmoves : Moves K cfg s
        [if (K.addMeasurement cfg s₁ e MeasurementResult.any).1 then .kept e else .erased e]
        (K.addMeasurement cfg s₁ e MeasurementResult.any).2 :=
      moves_addMeasurement hfresh hhistory hid halignment
    rw [hadd] at h hmoves
    dsimp only at h hmoves
    cases accepted with
    | false =>
      obtain ⟨rfl, rfl⟩ := Prod.mk.inj h
      exact hmoves
    | true =>
      rcases publish_cases (K := K) (s := s₂) published with hpublish | hpublish
      · rw [hpublish] at h
        obtain ⟨rfl, rfl⟩ := Prod.mk.inj h
        exact ⟨hmoves.history, hmoves.alignment.generation, hmoves.alignment.alignment⟩
      · rw [hpublish] at h
        obtain ⟨rfl, rfl⟩ := Prod.mk.inj h
        obtain ⟨h₁, hkeep, rfl⟩ := addMeasurement_cases hadd
        rw [hhistory] at hkeep
        refine ⟨?_, hmoves.alignment.generation, Or.inr ⟨rfl, rfl⟩⟩
        have hrule : HistoryRule K.toEkfKernel cfg.historyNs s.history s.measurementSequence
            [.kept e, .cleared] K.emptyHistory e.id := .keptCleared hfresh hkeep
        rwa [← hid] at hrule

/-- Looking up the extrinsic touches only its cache. -/
theorem updateCachedExtrinsic_cases {frame : String} {lookup : Option P} {transform : P}
    (h : K.updateCachedExtrinsic cfg s frame lookup = some (transform, s')) :
    ∃ frame transform,
      s' = { s with cachedSourceFrame := frame, baseFromVioSource := transform } := by
  unfold FusionKernel.updateCachedExtrinsic at h
  dsimp only at h
  split at h
  · obtain ⟨-, rfl⟩ := Prod.mk.inj (Option.some.inj h)
    exact ⟨_, _, rfl⟩
  split at h
  · split at h
    · obtain ⟨-, rfl⟩ := Prod.mk.inj (Option.some.inj h)
      exact ⟨_, _, rfl⟩
    · obtain ⟨found, -, h⟩ := Option.bind_eq_some_iff.mp h
      obtain ⟨-, rfl⟩ := Prod.mk.inj (Option.some.inj h)
      exact ⟨_, _, rfl⟩
  · obtain ⟨found, -, h⟩ := Option.bind_eq_some_iff.mp h
    obtain ⟨-, rfl⟩ := Prod.mk.inj (Option.some.inj h)
    exact ⟨_, _, rfl⟩

theorem moves_onVioSample {arrivalNs : ℤ} {message : OdometryMsg ρ} {lookup : Option P}
    {published : ClockReading}
    (h : K.onVioSample cfg s arrivalNs message lookup published = (s', effects)) :
    Moves K cfg s effects s' := by
  unfold FusionKernel.onVioSample at h
  split at h
  · obtain ⟨rfl, rfl⟩ := Prod.mk.inj h
    exact moves_of_same rfl le_rfl rfl rfl rfl
  dsimp only at h
  split at h
  · obtain ⟨rfl, rfl⟩ := Prod.mk.inj h
    exact moves_of_same rfl le_rfl rfl rfl rfl
  split at h
  · obtain ⟨rfl, rfl⟩ := Prod.mk.inj h
    exact moves_of_same rfl le_rfl rfl rfl rfl
  rename_i transform s₁ hextrinsic
  obtain ⟨_, _, rfl⟩ := updateCachedExtrinsic_cases hextrinsic
  split at h
  · obtain ⟨rfl, rfl⟩ := Prod.mk.inj h
    exact moves_of_same rfl le_rfl rfl rfl rfl
  · refine moves_processVio (s := s) ?_ ?_ ?_ ?_ h
    · rfl
    · rfl
    · rfl
    · exact ⟨rfl, Or.inl ⟨rfl, rfl⟩⟩

theorem moves_onVio {reading published : ClockReading} {message : OdometryMsg ρ}
    {lookup : Option P} (h : K.onVio cfg s reading message lookup published = (s', effects)) :
    Moves K cfg s effects s' := by
  obtain ⟨rfl, rfl⟩ := Prod.mk.inj h
  exact moves_after_clockCheck cfg rfl (moves_onVioSample rfl)

/-! ### Tags -/

/-- The history and the counter stay. -/
structure HistoryKept (s s' : Fusion σ δ P C) : Prop where
  history : s'.history = s.history
  sequence : s'.measurementSequence = s.measurementSequence

variable (K cfg) in
theorem historyKept_processCandidate {candidate : AlignmentCandidate P C} :
    HistoryKept s (K.processCandidate cfg s candidate) := by
  unfold FusionKernel.processCandidate FusionKernel.addAlignmentCandidate
    FusionKernel.establishAlignment
  split
  · dsimp only
    split <;> dsimp only <;> split <;> try split
    all_goals exact ⟨rfl, rfl⟩
  · split <;> exact ⟨rfl, rfl⟩

variable (K cfg) in
theorem historyKept_processTag {arrivalNs : ℤ} {message : AprilTagPoseEstimate ρ} :
    HistoryKept s (K.processTag cfg s arrivalNs message) := by
  unfold FusionKernel.processTag
  split
  · exact ⟨rfl, rfl⟩
  dsimp only
  split
  · exact ⟨rfl, rfl⟩
  split
  · exact ⟨rfl, rfl⟩
  obtain ⟨hhistory, hsequence⟩ := historyKept_processCandidate K cfg
    (s := { s with lastTagCandidateStampNs := message.stampNs })
  exact ⟨hhistory, hsequence⟩

theorem historyRule_onTag {reading : ClockReading} {message : AprilTagPoseEstimate ρ}
    (h : K.onTag cfg s reading message = (s', effects)) :
    HistoryRule K.toEkfKernel cfg.historyNs s.history s.measurementSequence effects s'.history
      s'.measurementSequence := by
  unfold FusionKernel.onTag at h
  cases hreset : K.resetOnClockJump s reading with
  | mk s₁ resets =>
    have hs₁ : HistoryRule K.toEkfKernel cfg.historyNs s.history s.measurementSequence resets
        s₁.history s₁.measurementSequence := by
      have := (moves_after_clockCheck cfg hreset
        (moves_of_same (s := s₁) rfl le_rfl rfl rfl rfl)).history
      rwa [List.append_nil] at this
    rw [hreset] at h
    dsimp only at h
    split at h
    · obtain ⟨rfl, rfl⟩ := Prod.mk.inj h
      exact hs₁
    · obtain ⟨rfl, rfl⟩ := Prod.mk.inj h
      obtain ⟨hhistory, hsequence⟩ := historyKept_processTag K cfg
      rw [hhistory, hsequence]
      split <;> exact hs₁

/-! ### Every callback -/

/-- **What a callback does to the history.** -/
theorem historyRule_of_step {input : FusionInput ρ P}
    (h : (fusionMachine K cfg).step s input = some (s', effects)) :
    HistoryRule K.toEkfKernel cfg.historyNs s.history s.measurementSequence effects s'.history
      s'.measurementSequence := by
  have h := Option.some.inj h
  cases input with
  | imu reading message => exact (moves_onImu h).history
  | vio reading message lookup published => exact (moves_onVio h).history
  | tag reading message => exact historyRule_onTag h
  | zedStatus arrivalNs ok =>
    obtain ⟨rfl, rfl⟩ := Prod.mk.inj h
    exact .same le_rfl
  | publish reading => exact (moves_publish cfg h).history

end RobotCore
