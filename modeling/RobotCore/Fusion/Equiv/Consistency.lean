import RobotCore.Fusion.Equiv.Step

/-!
# Failed replays and the history

A callback inserts a measurement with a placeholder for its checkpoint, replays from there, and
erases the measurement again unless its own update accepted it.  When the measurement is accepted
and the replay of a later one fails, the measurement stays with the placeholder, and the filter
stays behind (`placeholder_kept`).  `consistent_of_run` says that nothing else goes wrong: the
history is consistent after every callback when no replay fails after a measurement that is kept,
and moving or restoring the anchor makes no difference.
-/

namespace RobotCore

open Machine Checkpoints

variable {σ δ ρ P C : Type}

/-! ### The property -/

/-- There is a checkpoint for each measurement, every one an initialised filter that replaying the
anchor through its measurement gives, and the filter is the last one, or the anchor. -/
structure Consistent (K : EkfKernel σ δ) (h : FilterHistory σ δ) : Prop where
  length_eq : h.measurementFilters.length = h.measurements.length
  checkpoint : ∀ i < h.measurements.length, ∃ a f, h.anchorState = some a ∧
    h.measurementFilters[i]? = some f ∧ f.initialized = true ∧
    replay K.logStep (K.initializeFrom a) (h.measurements.take (i + 1)) = some f
  filter : ∀ a, h.anchorState = some a → h.filter = h.measurementFilters.getLastD (ready a)

/-- Either there is no filter, or the history is anchored. -/
def Sound (K : EkfKernel σ δ) (h : FilterHistory σ δ) (n : ℕ) : Prop :=
  (h.anchorState = none ∧ h.measurements = [] ∧ h.measurementFilters = [] ∧
    h.filter.initialized = false) ∨ ∃ a, K.Anchored h n a

variable {K : EkfKernel σ δ} {h h' : FilterHistory σ δ} {n n' : ℕ} {a : EkfState σ}
  {e : Measurement δ} {historyNs : ℤ} {effects : List (FusionEffect δ)}

theorem EkfKernel.Anchored.consistent (hh : K.Anchored h n a) : Consistent K h := by
  refine ⟨hh.length_eq, fun i hi => ?_, fun b hb => ?_⟩
  · have hlt : i < h.measurementFilters.length := by rwa [hh.length_eq]
    refine ⟨a, h.measurementFilters[i], hh.anchor, List.getElem?_eq_getElem hlt, ?_, ?_⟩
    · exact EkfKernel.initialized_of_checkpoints hh.replayed _ (List.getElem_mem hlt)
    · rw [← getElem?_checkpoints hh.replayed hi, List.getElem?_eq_getElem hlt]
  · obtain rfl := Option.some.inj (hb.symm.trans hh.anchor)
    exact hh.filter

theorem Sound.consistent (hh : Sound K h n) : Consistent K h := by
  rcases hh with ⟨hanchor, hms, hfilters, -⟩ | ⟨a, ha⟩
  · refine ⟨by rw [hms, hfilters]; rfl, fun i hi => ?_, fun a ha => ?_⟩
    · rw [hms] at hi
      exact absurd hi (Nat.not_lt_zero i)
    · rw [hanchor] at ha
      cases ha
  · exact ha.consistent

theorem Sound.mono (hh : Sound K h n) (hle : n ≤ n') : Sound K h n' := by
  rcases hh with hempty | ⟨a, ha⟩
  · exact Or.inl hempty
  · exact Or.inr ⟨a, { ha with id_le := fun e he => (ha.id_le e he).trans hle }⟩

/-! ### The condition -/

/-- The history with the measurement inserted and replayed. -/
def replayed (K : EkfKernel σ δ) (h : FilterHistory σ δ) (e : Measurement δ) : FilterHistory σ δ :=
  (K.replayFrom (K.insertMeasurement h e).2 (K.insertMeasurement h e).1 e.id).2

/-- What a callback meets in the history: after a measurement it keeps the replay does not fail and
moving the anchor makes no difference, and for one it erases the anchor is restored. -/
def ReplaysSound (K : EkfKernel σ δ) (historyNs : ℤ) (h : FilterHistory σ δ)
    (effects : List (FusionEffect δ)) : Prop :=
  match h.anchorState, effects with
  | some a, [.kept e] =>
    EkfKernel.Replays K h a e ∧ EkfKernel.PruneExact K historyNs (replayed K h e) a
  | some a, [.erased _] => EkfKernel.Restores K h a
  | _, _ => True

instance (h : FilterHistory σ δ) (a : EkfState σ) (e : Measurement δ) :
    Decidable (EkfKernel.Replays K h a e) :=
  inferInstanceAs (Decidable (_ = true))

instance [DecidableEq σ] (h : FilterHistory σ δ) (a : EkfState σ) :
    Decidable (EkfKernel.PruneExact K historyNs h a) :=
  inferInstanceAs (Decidable (_ → _))

instance [DecidableEq σ] (h : FilterHistory σ δ) (a : EkfState σ) :
    Decidable (EkfKernel.Restores K h a) :=
  decidable_of_iff (h.measurements.isEmpty = true → (K.initializeFrom a).initialized = true →
    K.initializeFrom a = ready a) (by rw [List.isEmpty_iff]; rfl)

instance [DecidableEq σ] (h : FilterHistory σ δ) (effects : List (FusionEffect δ)) :
    Decidable (ReplaysSound K historyNs h effects) := by
  unfold ReplaysSound
  split <;> infer_instance

/-! ### The placeholder that stays -/

/-- The estimate is whether the covariance of the held acceleration is so large that propagating it
overflows, and the data of a block is that covariance. -/
def overflowKernel : FusionKernel Bool Bool Bool Unit Unit where
  blank := false
  initialEstimate _ _ := false
  stabilize := some
  advance dt large := if dt > 1000000000 || large then none else some large
  updatePosition large _ := .accepted large
  updateOrientation large _ := .accepted large
  updateLinearVelocity large _ := .accepted large
  updateTwistAngularVelocity large _ := .accepted large
  updateExternalAngularVelocity large _ := .accepted large
  setLinearAcceleration _ large := .accepted large
  imuAngularVelocity _ := some false
  imuLinearAcceleration large := some large
  vioMeasurement _ _ := some (false, none)
  identity := ()
  candidate _ _ := none
  tightestConsistentPoseCluster _ := []
  meanAlignment _ := ((), ())
  validCovariance _ := true
  fusedAlignment _ _ := none
  fillCovariances _ _ := true

/-- Two VIO poses 0.9 s apart, and a delayed IMU sample between them. -/
def delayedImuInputs : List (FusionInput Bool Unit) :=
  let vio (stampNs : ℤ) : FusionInput Bool Unit :=
    .vio ⟨stampNs, stampNs⟩ ⟨stampNs, "base_link", false⟩ none ⟨stampNs, stampNs⟩
  [vio 1000000000, vio 1900000000,
    .imu ⟨1910000000, 1910000000⟩ ⟨1500000000, "base_link", true⟩]

/-- The sample is kept with the placeholder for its checkpoint. -/
theorem placeholder_kept : ∃ tr s,
    (fusionMachine overflowKernel { requireZedTrackingOk := false }).Run tr s ∧
    ¬ Consistent overflowKernel.toEkfKernel s.history := by
  obtain ⟨x, tr, s, hrun, hcheck⟩ := run_of_execCheck
    (fusionMachine overflowKernel { requireZedTrackingOk := false }) delayedImuInputs
    (fun x _ => decide (x.post.history.measurements.length = 2) &&
      decide (x.post.history.measurementFilters[0]? = some overflowKernel.fresh))
    (by decide +kernel)
  rw [hrun.head_post, Bool.and_eq_true, decide_eq_true_iff, decide_eq_true_iff] at hcheck
  refine ⟨_, s, hrun, fun hconsistent => ?_⟩
  obtain ⟨a, f, -, hf, hinit, -⟩ := hconsistent.checkpoint 0 (by omega)
  obtain rfl := Option.some.inj (hcheck.2.symm.trans hf)
  cases hinit

/-! ### One callback -/

theorem sound_emptyHistory : Sound K K.emptyHistory n := Or.inl ⟨rfl, rfl, rfl, rfl⟩

theorem sound_initializeFilter {initialized : Bool}
    (hinit : K.initializeFilter e = (initialized, h')) : Sound K h' n := by
  unfold EkfKernel.initializeFilter at hinit
  dsimp only at hinit
  split at hinit
  · rename_i hfailed
    obtain ⟨-, rfl⟩ := Prod.mk.inj hinit
    exact Or.inl ⟨rfl, rfl, rfl, by simpa using hfailed⟩
  · rename_i hready
    obtain ⟨-, rfl⟩ := Prod.mk.inj hinit
    rw [Bool.not_eq_true', Bool.not_eq_false] at hready
    refine Or.inr ⟨_, rfl, ?_, rfl, List.Pairwise.nil, ?_, ?_⟩
    · exact (EkfKernel.ready_state hready).symm
    · exact fun e he => absurd he List.not_mem_nil
    · exact fun e he => absurd he List.not_mem_nil

/-- What is kept is the history after the replay. -/
theorem keepMeasurement_accepted {accepts : MeasurementResult → Bool}
    (hkeep : K.keepMeasurement h e accepts = (true, h')) : h' = replayed K h e := by
  unfold EkfKernel.keepMeasurement at hkeep
  dsimp only at hkeep
  split at hkeep
  · split at hkeep <;> cases hkeep
  · exact (Prod.mk.inj hkeep).2.symm

theorem sound_of_rule (hpos : 0 < historyNs) (hrule : HistoryRule K historyNs h n effects h' n')
    (hh : Sound K h n) (hsound : ReplaysSound K historyNs h effects) : Sound K h' n' := by
  have hanchored {e : Measurement δ} (hfresh : EkfKernel.Fresh h n e) : ∃ a, K.Anchored h n a :=
    hh.resolve_left fun hempty => hfresh.anchored hempty.1
  cases hrule with
  | same hle => exact hh.mono hle
  | erased hfresh hkeep =>
    rename_i e _
    obtain ⟨a, ha⟩ := hanchored hfresh
    simp only [ReplaysSound, ha.anchor] at hsound
    obtain rfl := EkfKernel.keepMeasurement_of_not_accepted ha hfresh hsound hkeep
    have hle : n ≤ e.id := by
      have := hfresh.id
      omega
    exact hh.mono hle
  | kept hfresh hkeep =>
    rename_i e _
    obtain ⟨a, ha⟩ := hanchored hfresh
    simp only [ReplaysSound, ha.anchor] at hsound
    obtain ⟨hreplays, hexact⟩ := hsound
    obtain ⟨ha', -⟩ := EkfKernel.anchored_keepMeasurement ha hfresh hkeep hreplays
    rw [← keepMeasurement_accepted hkeep] at hexact
    obtain ⟨b, hb, -, -⟩ := EkfKernel.anchored_pruneHistory ha' hpos hexact
    exact Or.inr ⟨b, hb⟩
  | keptCleared _ _ => exact sound_emptyHistory
  | cleared _ _ _ => exact sound_emptyHistory
  | initialized _ _ _ hinit => exact sound_initializeFilter hinit
  | uninitialized _ _ _ hinit => exact sound_initializeFilter hinit

/-! ### Every run -/

section Run

variable {K : FusionKernel σ δ ρ P C} {cfg : FusionConfig} {tr : FusionHistory σ δ ρ P C}
  {s : Fusion σ δ P C}

/-- **The history is consistent after every callback**, whatever propagation, updates and
stabilisation do, in a run in which no replay fails after a measurement that is kept, and moving
and restoring the anchor makes no difference. -/
theorem consistent_of_run (hrun : (fusionMachine K cfg).Run tr s)
    (hsound : ∀ x ∈ tr, ReplaysSound K.toEkfKernel cfg.historyNs x.pre.history x.output) :
    Consistent K.toEkfKernel s.history := by
  suffices h : Sound K.toEkfKernel s.history s.measurementSequence from h.consistent
  refine hrun.invariant_of
    (I := fun _ s => Sound K.toEkfKernel s.history s.measurementSequence)
    sound_emptyHistory ?_ hsound
  intro tr s input s' effects _ hs hstep hsound
  exact sound_of_rule cfg.historyNs_pos (historyRule_of_step hstep) hs hsound

end Run

/-- The same samples in the order of their stamps, with one that is not so large. -/
def orderedImuInputs : List (FusionInput Bool Unit) :=
  let vio (stampNs : ℤ) : FusionInput Bool Unit :=
    .vio ⟨stampNs, stampNs⟩ ⟨stampNs, "base_link", false⟩ none ⟨stampNs, stampNs⟩
  [vio 1000000000, .imu ⟨1510000000, 1510000000⟩ ⟨1500000000, "base_link", false⟩,
    vio 1900000000]

/-- In this order both are kept with their checkpoints. -/
theorem consistent_of_run_ordered : ∃ tr s,
    (fusionMachine overflowKernel { requireZedTrackingOk := false }).Run tr s ∧
    s.history.measurements.length = 2 ∧ Consistent overflowKernel.toEkfKernel s.history := by
  obtain ⟨x, tr, s, hrun, hcheck⟩ := run_of_execCheck
    (fusionMachine overflowKernel { requireZedTrackingOk := false }) orderedImuInputs
    (fun x tr => decide (x.post.history.measurements.length = 2) &&
      (x :: tr).all fun y =>
        decide (ReplaysSound overflowKernel.toEkfKernel 3000000000 y.pre.history y.output))
    (by decide +kernel)
  rw [hrun.head_post, Bool.and_eq_true, decide_eq_true_iff, List.all_eq_true] at hcheck
  exact ⟨_, s, hrun, hcheck.1,
    consistent_of_run hrun fun y hy => of_decide_eq_true (hcheck.2 y hy)⟩

end RobotCore
