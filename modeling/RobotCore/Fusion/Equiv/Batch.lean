import RobotCore.Fusion.Equiv.Step

/-!
# The history as a batch filter

Under the laws of `EkfKernel.Lawful` (propagation and the updates do not fail, propagation composes
and initialising from a state of the filter restores it) the filter is the fold of all measurements
kept since the initialisation, in the order of their stamps, in whatever order they arrived and
however the history was pruned in between (`batch_of_episode`).

The invariant `Batch` keeps the measurements that pruning has removed beside the history: replayed
from the initial filter they give a filter that propagates to the anchor.
-/

namespace RobotCore

open Machine Checkpoints

variable {σ δ ρ P C : Type}

/-! ### The laws -/

namespace EkfKernel

/-- The updates of `apply_measurement`. -/
def updates (K : EkfKernel σ δ) : List (σ → δ → BlockUpdate σ) :=
  [K.updatePosition, K.updateOrientation, K.updateLinearVelocity, K.updateTwistAngularVelocity,
    K.updateExternalAngularVelocity, K.setLinearAcceleration]

/-- The estimate of an initialised filter: initialising from it restores it. -/
def Restored (K : EkfKernel σ δ) (x : σ) : Prop := K.stabilize x = some x

/-- Propagation and updates are total on the estimates of the filter, propagation composes, and
initialising restores what the filter computes. -/
structure Lawful (K : EkfKernel σ δ) : Prop where
  stabilize_restored {x y} : K.stabilize x = some y → K.Restored y
  advance_total {x d} : K.Restored x → 0 < d → ∃ y, K.advance d x = some y ∧ K.Restored y
  advance_add {x y d d'} : K.Restored x → 0 < d → 0 < d' → K.advance d x = some y →
    K.advance d' y = K.advance (d + d') x
  update_total {x data block} : block ∈ K.updates → K.Restored x → block x data ≠ .failed
  update_restored {x y data block} : block ∈ K.updates → K.Restored x →
    block x data = .accepted y → K.Restored y

/-- An initialised filter with an estimate that initialising restores. -/
structure Sane (K : EkfKernel σ δ) (f : VioTagEkf σ) : Prop where
  initialized : f.initialized = true
  restored : K.Restored f.state.estimate

variable {K : EkfKernel σ δ} {h h' : FilterHistory σ δ} {n : ℕ} {a : EkfState σ}
  {f g : VioTagEkf σ} {fs : List (VioTagEkf σ)} {e : Measurement δ}
  {events log : List (Measurement δ)} {t u : ℤ}

theorem Sane.initializeFrom_state (hf : K.Sane f) : K.initializeFrom f.state = f := by
  have hrestored : K.stabilize f.state.estimate = some f.state.estimate := hf.restored
  rw [initializeFrom, hrestored]
  exact ready_state hf.initialized

theorem sane_initializeFrom (hK : K.Lawful) (hready : (K.initializeFrom a).initialized = true) :
    K.Sane (K.initializeFrom a) := by
  refine ⟨hready, ?_⟩
  unfold initializeFrom at hready ⊢
  split
  · rename_i hstabilize
    exact hK.stabilize_restored hstabilize
  · rename_i hstabilize
    rw [hstabilize] at hready
    cases hready

theorem sane_propagateTo (hK : K.Lawful) (hf : K.Sane f) (hle : f.state.stampNs ≤ t) :
    ∃ g, K.propagateTo f t = some g ∧ K.Sane g := by
  unfold propagateTo
  rw [hf.initialized, decide_eq_false (not_lt.mpr hle)]
  simp only [Bool.not_true, Bool.or_self, Bool.false_eq_true, if_false]
  split
  · exact ⟨f, rfl, hf⟩
  · rename_i hne
    obtain ⟨y, hy, hrestored⟩ := hK.advance_total hf.restored
      (Int.sub_pos_of_lt (hle.lt_of_ne fun heq => hne heq.symm))
    exact ⟨_, by rw [hy]; rfl, rfl, hrestored⟩

/-- **Propagation composes.** -/
theorem propagateTo_trans (hK : K.Lawful) (hf : K.Sane f) (h : K.propagateTo f u = some g)
    (hle : u ≤ t) : K.propagateTo g t = K.propagateTo f t := by
  have hu := propagateTo_stampNs h
  have hg := propagateTo_initialized h
  unfold propagateTo at h
  rw [hf.initialized] at h
  simp only [Bool.not_true, Bool.false_or] at h
  split_ifs at h with hlt heq
  · obtain rfl := Option.some.inj h
    rfl
  rw [decide_eq_true_iff, not_lt] at hlt
  obtain ⟨y, hy, rfl⟩ := Option.map_eq_some_iff.mp h
  have hpos : f.state.stampNs < u := hlt.lt_of_ne fun h => heq h.symm
  unfold propagateTo
  dsimp only
  rw [hf.initialized, decide_eq_false (not_lt.mpr hle),
    decide_eq_false (not_lt.mpr (hpos.le.trans hle))]
  simp only [Bool.not_true, Bool.or_self, Bool.false_eq_true, if_false]
  rw [if_neg (hpos.trans_le hle).ne']
  split
  · rename_i hut
    rw [hut, hy]
    rfl
  · rename_i hut
    have hlt := hle.lt_of_ne fun h => hut h.symm
    rw [hK.advance_add hf.restored (Int.sub_pos_of_lt hpos)
      (Int.sub_pos_of_lt hlt) hy]
    congr 2
    omega

theorem sane_update (hK : K.Lawful) {block : σ → δ → BlockUpdate σ} (hblock : block ∈ K.updates)
    (hf : K.Sane f) (data : δ) : K.Sane (f.update block data).2 := by
  unfold VioTagEkf.update
  rw [hf.initialized]
  simp only [Bool.not_true, Bool.false_eq_true, if_false]
  cases hresult : block f.state.estimate data with
  | rejected => exact hf
  | accepted y => exact ⟨rfl, hK.update_restored hblock hf.restored hresult⟩
  | failed => exact absurd hresult (hK.update_total hblock hf.restored)

theorem sane_applyMeasurement (hK : K.Lawful) (hf : K.Sane f) :
    K.Sane (K.applyMeasurement f e).2 := by
  have happly {block : VioTagEkf σ → MeasurementResult → δ → MeasurementResult × VioTagEkf σ}
      (hblock : ∀ f r data, K.Sane f → K.Sane (block f r data).2) {data : Option δ}
      {r : MeasurementResult × VioTagEkf σ} (hr : K.Sane r.2) :
      K.Sane (applyBlock block data r).2 := by
    cases data with
    | none => exact hr
    | some data => exact hblock _ _ _ hr
  have hupdate {block : σ → δ → BlockUpdate σ} (hblock : block ∈ K.updates) {f : VioTagEkf σ}
      (hf : K.Sane f) (data : δ) := sane_update hK hblock hf data
  unfold applyMeasurement
  refine happly (fun f _ data hf => ?_) <| happly (fun f _ data hf => ?_) <|
    happly (fun f _ data hf => ?_) <| happly (fun f _ data hf => ?_) hf
  · exact hupdate (by simp [updates]) hf data
  · exact hupdate (by simp [updates]) hf data
  · exact hupdate (by simp [updates]) (hupdate (by simp [updates]) hf data) data
  · exact hupdate (by simp [updates]) (hupdate (by simp [updates]) hf data) data

theorem sane_logStep (hK : K.Lawful) (hf : K.Sane f) (hle : f.state.stampNs ≤ e.stampNs) :
    ∃ g, K.logStep f e = some g ∧ K.Sane g := by
  obtain ⟨g, hg, hsane⟩ := sane_propagateTo hK hf hle
  have happlied := sane_applyMeasurement (e := e) hK hsane
  refine ⟨_, ?_, happlied⟩
  rw [logStep, hg, Option.bind_some]
  exact if_pos happlied.initialized

/-- A replay in the order of the stamps does not fail. -/
theorem sane_checkpoints (hK : K.Lawful) (hf : K.Sane f) (hevents : Ordered Measurement.key events)
    (hle : ∀ e ∈ events, f.state.stampNs ≤ e.stampNs) :
    ∃ gs, checkpoints K.logStep f events = some gs ∧ ∀ g ∈ gs, K.Sane g := by
  induction events generalizing f with
  | nil => exact ⟨[], rfl, fun g hg => absurd hg List.not_mem_nil⟩
  | cons e events ih =>
    obtain ⟨hfirst, hrest⟩ := List.pairwise_cons.mp hevents
    obtain ⟨g, hg, hsane⟩ := sane_logStep hK hf (hle e List.mem_cons_self)
    obtain ⟨gs, hgs, hall⟩ := ih hsane hrest fun m hm =>
      (logStep_stampNs hg).trans_le (key_le_stampNs (hfirst m hm))
    exact ⟨g :: gs, checkpoints_cons_eq_some.mpr ⟨g, gs, hg, hgs, rfl⟩,
      List.forall_mem_cons.mpr ⟨hsane, hall⟩⟩

/-- A step from a filter and from the filter propagated part of the way are the same. -/
theorem logStep_propagated (hK : K.Lawful) (hf : K.Sane f) (h : K.propagateTo f u = some g)
    (hle : u ≤ e.stampNs) : K.logStep g e = K.logStep f e := by
  rw [logStep, logStep, propagateTo_trans hK hf h hle]


/-! ### The measurements that pruning has removed -/

theorem le_of_propagateTo (h : K.propagateTo f t = some g) : f.state.stampNs ≤ t := by
  by_contra hlt
  unfold propagateTo at h
  rw [decide_eq_true (not_le.mp hlt), Bool.or_true, if_pos rfl] at h
  cases h

/-- A history with the measurements removed from it: they are replayed from the initial filter
`f₀` to a filter `p` that propagates to the anchor. -/
structure Batch (K : EkfKernel σ δ) (f₀ : VioTagEkf σ) (gone : List (Measurement δ))
    (p : VioTagEkf σ) (h : FilterHistory σ δ) (n : ℕ) (a : EkfState σ) : Prop where
  anchored : K.Anchored h n a
  restored : K.Restored a.estimate
  replayed : replay K.logStep f₀ gone = some p
  sane : K.Sane p
  reaches : K.propagateTo p a.stampNs = some (ready a)
  ordered : Ordered Measurement.key gone
  start : h.measurements = [] → gone = [] ∧ ready a = f₀

variable {f₀ p : VioTagEkf σ} {gone : List (Measurement δ)}

theorem Batch.sane_anchor (hh : Batch K f₀ gone p h n a) : K.Sane (ready a) := ⟨rfl, hh.restored⟩

theorem Batch.initializeFrom_anchor (hh : Batch K f₀ gone p h n a) :
    K.initializeFrom a = ready a :=
  hh.sane_anchor.initializeFrom_state

theorem Batch.checkpoints_anchor (hh : Batch K f₀ gone p h n a) :
    checkpoints K.logStep (ready a) h.measurements = some h.measurementFilters := by
  rw [← hh.initializeFrom_anchor]
  exact hh.anchored.replayed

theorem Batch.checkpoints_gone (hK : K.Lawful) (hh : Batch K f₀ gone p h n a) :
    checkpoints K.logStep p h.measurements = some h.measurementFilters := by
  rw [← hh.checkpoints_anchor]
  refine checkpoints_congr fun e he => (logStep_propagated hK hh.sane hh.reaches ?_).symm
  exact (hh.anchored.after_anchor e (List.mem_of_mem_head? he)).le

theorem Batch.sane_filters (hK : K.Lawful) (hh : Batch K f₀ gone p h n a) :
    ∀ g ∈ h.measurementFilters, K.Sane g := by
  obtain ⟨gs, hgs, hsane⟩ := sane_checkpoints hK hh.sane_anchor hh.anchored.ordered
    fun e he => (hh.anchored.after_anchor e he).le
  obtain rfl := Option.some.inj (hh.checkpoints_anchor.symm.trans hgs)
  exact hsane

/-- The filter after the first measurements left, from the anchor and from what is gone. -/
theorem Batch.propagateTo_take (hK : K.Lawful) (hh : Batch K f₀ gone p h n a) (k : ℕ)
    (hle : a.stampNs ≤ t) :
    K.propagateTo ((h.measurementFilters.take k).getLastD p) t
      = K.propagateTo ((h.measurementFilters.take k).getLastD (ready a)) t := by
  rcases List.eq_nil_or_concat' (h.measurementFilters.take k) with hnil | ⟨fs, f, hfs⟩
  · rw [hnil]
    exact (propagateTo_trans hK hh.sane hh.reaches hle).symm
  · rw [hfs, getLastD_append, getLastD_append]
    rfl

theorem Batch.sane_take (hK : K.Lawful) (hh : Batch K f₀ gone p h n a) {f : VioTagEkf σ}
    (hf : K.Sane f) (k : ℕ) : K.Sane ((h.measurementFilters.take k).getLastD f) := by
  rcases List.eq_nil_or_concat' (h.measurementFilters.take k) with hnil | ⟨fs, g, hfs⟩
  · rw [hnil]
    exact hf
  · rw [hfs, getLastD_append]
    refine hh.sane_filters hK g (List.mem_of_mem_take (i := k) ?_)
    rw [hfs]
    exact List.mem_append_right _ (List.mem_singleton_self g)

theorem Batch.replay_take (hK : K.Lawful) (hh : Batch K f₀ gone p h n a) (k : ℕ) :
    replay K.logStep f₀ (gone ++ h.measurements.take k)
      = some ((h.measurementFilters.take k).getLastD p) := by
  rw [replay_append, hh.replayed, Option.bind_some, replay,
    checkpoints_take (hh.checkpoints_gone hK) k]
  rfl

/-- What is in order and replayed lies before the filter it gives. -/
theorem stampNs_le_of_replay (hevents : Ordered Measurement.key events)
    (h : replay K.logStep f events = some g) :
    ∀ e ∈ events, e.stampNs ≤ g.state.stampNs := by
  obtain ⟨gs, hgs, rfl⟩ := replay_eq_some.mp h
  rcases List.eq_nil_or_concat' events with rfl | ⟨ms, m, rfl⟩
  · exact fun e he => absurd he List.not_mem_nil
  have hlast : (gs.getLastD f).state.stampNs = m.stampNs := by
    have hstamps := stampNs_of_checkpoints hgs
    rcases List.eq_nil_or_concat' gs with rfl | ⟨gs, g, rfl⟩
    · exact absurd (congrArg List.length hstamps) (by simp)
    · rw [List.map_append, List.map_append] at hstamps
      rw [getLastD_append]
      exact List.head_eq_of_cons_eq (List.append_inj_right' hstamps rfl)
  rw [hlast]
  intro e he
  rcases List.mem_append.mp he with he | he
  · exact key_le_stampNs ((List.pairwise_append.mp hevents).2.2 e he m (List.mem_singleton_self m))
  · rw [List.mem_singleton.mp he]

theorem Batch.gone_le (hh : Batch K f₀ gone p h n a) : ∀ e ∈ gone, e.stampNs ≤ a.stampNs :=
  fun e he =>
    (stampNs_le_of_replay hh.ordered hh.replayed e he).trans (le_of_propagateTo hh.reaches)

/-- All measurements are in order, those removed first. -/
theorem Batch.ordered_all (hh : Batch K f₀ gone p h n a) :
    Ordered Measurement.key (gone ++ h.measurements) := by
  refine List.pairwise_append.mpr ⟨hh.ordered, hh.anchored.ordered, fun e he m hm => ?_⟩
  exact Prod.Lex.toLex_lt_toLex.mpr
    (Or.inl ((hh.gone_le e he).trans_lt (hh.anchored.after_anchor m hm)))

/-- **The filter is the fold of all measurements.** -/
theorem Batch.filter_eq (hK : K.Lawful) (hh : Batch K f₀ gone p h n a) :
    replay K.logStep f₀ (gone ++ h.measurements) = some h.filter := by
  rw [replay_append, hh.replayed, Option.bind_some, replay, hh.checkpoints_gone hK,
    Option.map_some, hh.anchored.filter]
  rcases List.eq_nil_or_concat' h.measurementFilters with hnil | ⟨fs, f, hfs⟩
  · have hempty : h.measurements = [] := by
      rw [← List.length_eq_zero_iff, ← hh.anchored.length_eq, hnil]
      rfl
    obtain ⟨hgone, hstart⟩ := hh.start hempty
    have hp := hh.replayed
    rw [hgone, replay_nil] at hp
    rw [hnil, List.getLastD_nil, List.getLastD_nil, hstart, Option.some.inj hp]
  · rw [hfs, getLastD_append, getLastD_append]
    rfl

/-- **A state of the past is the fold of the measurements up to it**, propagated to it. -/
theorem Batch.stateAt_eq (hK : K.Lawful) (hh : Batch K f₀ gone p h n a) (ha : a.stampNs ≤ t)
    (hfilter : t ≤ h.filter.state.stampNs) :
    K.stateAt h t = ((replay K.logStep f₀
        ((gone ++ h.measurements).filter fun e => decide (e.stampNs ≤ t))).bind
      fun f => K.propagateTo f t).map (·.state) := by
  set k := h.measurements.findIdx fun e => decide (t < e.stampNs) with hk
  have hkm : k ≤ h.measurementFilters.length := by
    rw [hh.anchored.length_eq]
    exact List.findIdx_le_length
  have hfold : (gone ++ h.measurements).filter (fun e => decide (e.stampNs ≤ t))
      = gone ++ h.measurements.take k := by
    rw [List.filter_append, List.filter_eq_self.mpr
      fun e he => decide_eq_true ((hh.gone_le e he).trans ha),
      filter_eq_take hh.anchored.ordered, hk]
    · simp only [← decide_not, not_le]
    · intro e m hlt hm
      exact decide_eq_true ((key_le_stampNs hlt).trans (of_decide_eq_true hm))
  rw [hfold, hh.replay_take hK, Option.bind_some, hh.propagateTo_take hK k ha]
  have hrange : (decide (t < a.stampNs) || decide (t > h.filter.state.stampNs)) = false := by
    rw [decide_eq_false (not_lt.mpr ha), decide_eq_false (not_lt.mpr hfilter)]
    rfl
  have hlength : (h.measurementFilters.length != h.measurements.length) = false := by
    rw [hh.anchored.length_eq]
    exact bne_self_eq_false _
  have hinit : (decide (k = 0) && !(K.initializeFrom a).initialized) = false := by
    rw [hh.initializeFrom_anchor]
    exact Bool.and_false _
  unfold stateAt
  rw [hh.anchored.anchor]
  simp only [hrange, hlength, ← hk, hinit, Bool.false_eq_true, if_false]
  rw [replayStart_eq rfl hkm, hh.initializeFrom_anchor]

/-! ### What callbacks do to it -/

theorem batch_initializeFilter (hK : K.Lawful) {e₀ : Measurement δ}
    (hinit : K.initializeFilter e₀ = (true, h)) :
    h.measurements = [] ∧
    ∃ a, Batch K (K.initializeFrom ⟨e₀.stampNs, K.initialEstimate e₀.pose e₀.twist⟩) []
      (K.initializeFrom ⟨e₀.stampNs, K.initialEstimate e₀.pose e₀.twist⟩) h n a := by
  unfold initializeFilter at hinit
  dsimp only at hinit
  split at hinit
  · cases hinit
  rename_i hready
  obtain rfl := (Prod.mk.inj hinit).2
  rw [Bool.not_eq_true', Bool.not_eq_false] at hready
  have hsane := sane_initializeFrom hK hready
  have hstate := ready_state hready
  refine ⟨rfl, _, ⟨rfl, hstate.symm, rfl, List.Pairwise.nil, ?_, ?_⟩, hsane.restored, rfl, hsane,
    ?_, List.Pairwise.nil, fun _ => ⟨rfl, hstate⟩⟩
  · exact fun e he => absurd he List.not_mem_nil
  · exact fun e he => absurd he List.not_mem_nil
  · rw [hstate]
    unfold propagateTo
    simp [hready]

theorem Batch.mono (hh : Batch K f₀ gone p h n a) {n' : ℕ} (hle : n ≤ n') :
    Batch K f₀ gone p h n' a :=
  { hh with
    anchored := { hh.anchored with id_le := fun e he => (hh.anchored.id_le e he).trans hle } }

/-- A filter after the first measurements is no later than those that follow. -/
theorem Anchored.lastState_take_le (hh : K.Anchored h n a) {k : ℕ} (ha : a.stampNs ≤ t)
    (hle : ∀ m ∈ h.measurements.take k, m.stampNs ≤ t) :
    (lastState a (h.measurementFilters.take k)).stampNs ≤ t := by
  rw [lastState_stampNs (checkpoints_take hh.replayed k)]
  rcases List.eq_nil_or_concat' (h.measurements.take k) with hnil | ⟨ms, m, hms⟩
  · rw [hnil]
    exact ha
  · rw [hms, List.map_append, getLastD_append]
    exact hle m (hms ▸ List.mem_append_right _ (List.mem_singleton_self m))

theorem Anchored.le_lastState_take (hh : K.Anchored h n a) (k : ℕ) :
    a.stampNs ≤ (lastState a (h.measurementFilters.take k)).stampNs := by
  rw [lastState_stampNs (checkpoints_take hh.replayed k)]
  rcases List.eq_nil_or_concat' (h.measurements.take k) with hnil | ⟨ms, m, hms⟩
  · rw [hnil]
    exact le_rfl
  · have hm : m ∈ h.measurements.take k :=
      hms ▸ List.mem_append_right _ (List.mem_singleton_self m)
    rw [hms, List.map_append, getLastD_append]
    exact (hh.after_anchor m (List.mem_of_mem_take hm)).le

theorem key_le_stampNs_of_le {m : Measurement δ} (h : e.key ≤ m.key) : e.stampNs ≤ m.stampNs := by
  rcases Prod.Lex.toLex_le_toLex.mp h with h | ⟨h, -⟩
  · exact h.le
  · exact h.le

theorem batch_keepMeasurement (hK : K.Lawful) (hh : Batch K f₀ gone p h n a) (he : Fresh h n e)
    {accepts : MeasurementResult → Bool} (hkeep : K.keepMeasurement h e accepts = (true, h')) :
    Batch K f₀ gone p h' e.id a ∧ h'.measurements = withMeasurement h.measurements e := by
  have hreplays : Replays K h a e := by
    set k := upperBound Measurement.key e h.measurements with hk
    have hafter : ∀ m ∈ h.measurements.drop k, e.key < m.key :=
      fun m hm => key_lt_of_mem_drop hh.anchored.ordered hm
    have hbefore : (lastState a (h.measurementFilters.take k)).stampNs ≤ e.stampNs :=
      hh.anchored.lastState_take_le (he.after_anchor a hh.anchored.anchor).le
        fun m hm => key_le_stampNs_of_le (key_le_of_mem_take hm)
    have hordered : Ordered Measurement.key (e :: h.measurements.drop k) :=
      List.pairwise_cons.mpr ⟨hafter, hh.anchored.ordered.drop⟩
    obtain ⟨gs, hgs, -⟩ := sane_checkpoints hK (hh.sane_take hK hh.sane_anchor k) hordered
      (List.forall_mem_cons.mpr ⟨hbefore, fun m hm => hbefore.trans (key_le_stampNs (hafter m hm))⟩)
    rw [Replays, filterBefore, hh.initializeFrom_anchor, ← hk, hgs]
    rfl
  obtain ⟨hanchored, hms⟩ := anchored_keepMeasurement hh.anchored he hkeep hreplays
  refine ⟨⟨hanchored, hh.restored, hh.replayed, hh.sane, hh.reaches, hh.ordered, ?_⟩, hms⟩
  intro hempty
  have hmem : e ∈ withMeasurement h.measurements e := mem_withMeasurement.mpr (Or.inl rfl)
  rw [← hms, hempty] at hmem
  cases hmem

/-- A measurement that is turned away leaves the history as it was. -/
theorem batch_keepMeasurement_of_not_accepted (hh : Batch K f₀ gone p h n a) (he : Fresh h n e)
    {accepts : MeasurementResult → Bool} (hkeep : K.keepMeasurement h e accepts = (false, h')) :
    h' = h :=
  keepMeasurement_of_not_accepted hh.anchored he (fun _ _ => hh.initializeFrom_anchor) hkeep

theorem advanceAnchor_sane (hK : K.Lawful) (hf : K.Sane f) (cutoffNs : ℤ) :
    ∃ g, K.Sane g ∧ K.propagateTo f (max f.state.stampNs cutoffNs) = some g ∧
      K.advanceAnchor cutoffNs f.state = g.state := by
  unfold advanceAnchor
  rw [hf.initializeFrom_state]
  split
  · rename_i hlt
    obtain ⟨g, hg, hsane⟩ := sane_propagateTo hK hf hlt.le
    exact ⟨g, hsane, by rw [max_eq_right hlt.le, hg], by rw [hg]; rfl⟩
  · rename_i hge
    refine ⟨f, hf, ?_, rfl⟩
    rw [max_eq_left (not_lt.mp hge)]
    unfold propagateTo
    simp [hf.initialized]

/-- **Pruning** moves measurements to those that are gone. -/
theorem batch_pruneHistory (hK : K.Lawful) (hh : Batch K f₀ gone p h n a) {historyNs : ℤ}
    (hpos : 0 < historyNs) : ∃ gone' p' b, Batch K f₀ gone' p' (K.pruneHistory historyNs h) n b ∧
      gone' ++ (K.pruneHistory historyNs h).measurements = gone ++ h.measurements := by
  set cutoffNs := h.filter.state.stampNs - historyNs with hcutoff
  set k := pruned cutoffNs h.measurements with hk
  have hbefore := hh.sane_take hK hh.sane_anchor k
  obtain ⟨g, hg, hpropagated, hmoved⟩ := advanceAnchor_sane hK hbefore cutoffNs
  have hstamp := propagateTo_stampNs hpropagated
  -- the measurements left lie beyond the moved anchor
  have hexact : PruneExact K historyNs h a := by
    unfold PruneExact
    dsimp only
    rw [← hcutoff, ← hk, lastState, hmoved, hg.initializeFrom_state, hh.initializeFrom_anchor]
    intro hlt e he
    refine logStep_propagated hK hbefore hpropagated (max_le ?_ ?_)
    · have hdrop := cutoff_lt_of_mem_drop hh.anchored.ordered (List.mem_of_mem_head? he)
      refine (hh.anchored.lastState_take_le hlt.le fun m hm => ?_).trans hdrop.le
      exact le_cutoff_of_mem_take hm
    · exact (cutoff_lt_of_mem_drop hh.anchored.ordered (List.mem_of_mem_head? he)).le
  obtain ⟨b, hanchored, hms, hb⟩ := anchored_pruneHistory hh.anchored hpos hexact
  rw [← hcutoff, ← hk] at hms hb
  rw [lastState, hmoved] at hb
  subst hb
  refine ⟨gone ++ h.measurements.take k, _, _, ⟨hanchored, hg.restored, hh.replay_take hK k,
    hh.sane_take hK hh.sane k, ?_, ?_, ?_⟩, ?_⟩
  · rw [hstamp, ready_state hg.initialized, hh.propagateTo_take hK k, hpropagated]
    exact (hh.anchored.le_lastState_take k).trans (le_max_left _ _)
  · exact hh.ordered_all.sublist (List.Sublist.append_left (List.take_sublist _ _) _)
  · intro hempty
    rw [hms] at hempty
    have hnone : h.measurements = [] := by
      by_contra hne
      have hlt := hh.anchored.pruned_lt hpos hne
      rw [← hcutoff, ← hk] at hlt
      exact absurd (List.drop_eq_nil_iff.mp hempty) (not_le.mpr hlt)
    obtain ⟨hgone, hstart⟩ := hh.start hnone
    have hfilters : h.measurementFilters = [] := by
      rw [← List.length_eq_zero_iff, hh.anchored.length_eq, hnone]
      rfl
    have hcut : cutoffNs < a.stampNs := by
      rw [hcutoff, hh.anchored.filter, hfilters]
      exact Int.sub_lt_self _ hpos
    rw [hfilters, List.take_nil, List.getLastD_nil] at hmoved
    have hsame : g.state = a := hmoved.symm.trans (if_neg (not_lt.mpr hcut.le))
    rw [hgone, hnone, hsame, List.take_nil]
    exact ⟨rfl, hstart⟩
  · rw [hms, List.append_assoc, List.take_append_drop]

theorem logStep_withoutId : K.logStep f { e with id := 0 } = K.logStep f e := rfl

end EkfKernel

/-! ### The runs since an initialisation -/

/-- The measurement an effect keeps. -/
def FusionEffect.kept? : FusionEffect δ → Option (Measurement δ)
  | .kept e => some e
  | _ => none

/-- The measurements kept in a history. -/
def keptEvents (tr : FusionHistory σ δ ρ P C) : List (Measurement δ) :=
  tr.flatMap fun x => x.output.filterMap FusionEffect.kept?

/-- The estimator is in `s` after the transitions `tr` since it was initialised from `e₀`, without
another initialisation or a reset. -/
def Episode (K : FusionKernel σ δ ρ P C) (cfg : FusionConfig) (e₀ : Measurement δ)
    (tr : FusionHistory σ δ ρ P C) (s : Fusion σ δ P C) : Prop :=
  ∃ x before, (fusionMachine K cfg).Run (tr ++ x :: before) s ∧
    x.output.getLast? = some (.initialized e₀) ∧
    ∀ y ∈ tr, ∀ effect ∈ y.output, effect.resets = false

/-- The filter that is initialised from the measurement. -/
def initialFilter (K : EkfKernel σ δ) (e₀ : Measurement δ) : VioTagEkf σ :=
  K.initializeFrom ⟨e₀.stampNs, K.initialEstimate e₀.pose e₀.twist⟩

/-- The same measurements, whatever the order in which they arrived. -/
def SameEvents (events events' : List (Measurement δ)) : Prop :=
  (events.map fun e => { e with id := 0 }).Perm (events'.map fun e => { e with id := 0 })

section Run

variable {K : FusionKernel σ δ ρ P C} {cfg : FusionConfig} {e₀ : Measurement δ}
  {tr : FusionHistory σ δ ρ P C} {s : Fusion σ δ P C}

/-- The measurements kept since the initialisation are those that are gone and those left. -/
theorem batch_of_episode (hK : K.toEkfKernel.Lawful) (h : Episode K cfg e₀ tr s) :
    ∃ gone p a, EkfKernel.Batch K.toEkfKernel (initialFilter K.toEkfKernel e₀) gone p s.history
        s.measurementSequence a ∧
      (gone ++ s.history.measurements).Perm (keptEvents tr) := by
  obtain ⟨x, before, hrun, hinit, hresets⟩ := h
  induction tr generalizing s with
  | nil =>
    have hrule := historyRule_of_step hrun.head_step
    obtain rfl := hrun.head_post
    revert hrule hinit
    generalize x.output = effects, x.post.history = h', x.post.measurementSequence = n'
    intro hinit hrule
    -- the filter begins at the event that has initialized it
    cases hrule with
    | initialized _ _ _ hinitialize =>
      rw [List.getLast?_concat] at hinit
      cases hinit
      obtain ⟨hempty, a, ha⟩ := EkfKernel.batch_initializeFilter (n := n') hK hinitialize
      refine ⟨[], _, a, ha, ?_⟩
      rw [List.nil_append, hempty]
      exact List.Perm.nil
    -- no other rule initializes
    | cleared _ _ _ =>
      rw [List.getLast?_concat] at hinit
      cases hinit
    | uninitialized _ _ _ _ =>
      rw [List.getLast?_concat] at hinit
      cases hinit
    | same _ => cases hinit
    | erased _ _ => cases hinit
    | kept _ _ => cases hinit
    | keptCleared _ _ => cases hinit
  | cons y tr ih =>
    have hrule := historyRule_of_step hrun.head_step
    obtain rfl := hrun.head_post
    -- the kept events so far, by the induction hypothesis
    obtain ⟨gone, p, a, ha, hperm⟩ := ih hrun.tail fun z hz => hresets z (List.mem_cons_of_mem _ hz)
    have hkept : keptEvents (y :: tr) = y.output.filterMap FusionEffect.kept? ++ keptEvents tr :=
      List.flatMap_cons
    have hreset := hresets y List.mem_cons_self
    rw [hkept]
    revert hrule hreset
    generalize y.output = effects, y.post.history = h', y.post.measurementSequence = n'
    intro hrule hreset
    cases hrule with
    | same hle => exact ⟨gone, p, a, ha.mono hle, hperm⟩
    -- a refused measurement leaves no trace
    | erased hfresh hkeep =>
      rename_i e accepts
      have hle : y.pre.measurementSequence ≤ e.id := by
        have := hfresh.id
        omega
      obtain rfl := EkfKernel.batch_keepMeasurement_of_not_accepted ha hfresh hkeep
      exact ⟨gone, p, a, ha.mono hle, hperm⟩
    -- a kept one is inserted at its time, and what is old goes over to those gone
    | kept hfresh hkeep =>
      rename_i e accepts
      obtain ⟨ha', hms⟩ := EkfKernel.batch_keepMeasurement hK ha hfresh hkeep
      obtain ⟨gone', p', b, hb, hall⟩ := EkfKernel.batch_pruneHistory hK ha' cfg.historyNs_pos
      refine ⟨gone', p', b, hb, ?_⟩
      rw [hall, hms]
      have hinserted : (EkfKernel.withMeasurement y.pre.history.measurements e).Perm
          (e :: y.pre.history.measurements) := perm_insert e _ _
      exact (hinserted.append_left gone).trans (List.perm_middle.trans (hperm.cons e))
    -- within an episode nothing clears or initializes the filter
    | keptCleared _ _ => cases hreset .cleared (List.mem_cons_of_mem _ List.mem_cons_self)
    | cleared _ _ _ => cases hreset .cleared (List.mem_append_right _ List.mem_cons_self)
    | initialized _ _ _ _ => cases hreset _ (List.mem_append_right _ List.mem_cons_self)
    | uninitialized _ _ _ _ =>
      cases hreset .uninitialized (List.mem_append_right _ List.mem_cons_self)

/-- Measurements with distinct stamps are replayed alike, whatever ids they were given. -/
theorem replay_eq_of_sameEvents {K : EkfKernel σ δ} {f : VioTagEkf σ}
    {log log' : List (Measurement δ)} (hlog : Ordered Measurement.key log)
    (hlog' : Ordered Measurement.key log') (hsame : SameEvents log log')
    (hstamps : (log.map (·.stampNs)).Nodup) :
    replay K.logStep f log = replay K.logStep f log' := by
  have hordered {log : List (Measurement δ)} (hlog : Ordered Measurement.key log)
      (hstamps : (log.map (·.stampNs)).Nodup) :
      Ordered Measurement.stampNs (log.map fun e => { e with id := 0 }) := by
    refine List.pairwise_map.mpr ?_
    refine List.Pairwise.imp₂ (fun e m hle hne => ?_) hlog (List.pairwise_map.mp hstamps)
    exact (EkfKernel.key_le_stampNs hle).lt_of_ne hne
  have hstamps' : (log'.map (·.stampNs)).Nodup := by
    have := hsame.map Measurement.stampNs
    rw [List.map_map, List.map_map] at this
    exact this.nodup hstamps
  have heq := eq_of_perm hsame (hordered hlog hstamps) (hordered hlog' hstamps')
  rw [replay, ← checkpoints_map (fun f e => EkfKernel.logStep_withoutId (K := K) (f := f) (e := e)),
    heq, checkpoints_map fun f e => EkfKernel.logStep_withoutId, replay]

/-- **The history is a batch filter.**  The measurements are in order, each checkpoint folds them
from the anchor, the filter folds all measurements kept since the initialisation from the initial
filter, and so does a state of the past, up to its time.  Orders of arrival that keep the same
measurements give the same filter. -/
theorem history_refines_batch (hK : K.toEkfKernel.Lawful) (h : Episode K cfg e₀ tr s) :
    Ordered Measurement.key s.history.measurements ∧
    replay K.logStep (initialFilter K.toEkfKernel e₀) (inOrder Measurement.key (keptEvents tr))
      = some s.history.filter ∧
    (∃ a, s.history.anchorState = some a ∧
      checkpoints K.logStep (K.initializeFrom a) s.history.measurements
        = some s.history.measurementFilters ∧
      ∀ t, a.stampNs ≤ t → t ≤ s.history.filter.state.stampNs →
        K.stateAt s.history t
          = ((replay K.logStep (initialFilter K.toEkfKernel e₀)
              ((inOrder Measurement.key (keptEvents tr)).filter
                fun e => decide (e.stampNs ≤ t))).bind fun f => K.propagateTo f t).map
            (·.state)) ∧
    ∀ cfg' e₀' tr' s', Episode K cfg' e₀' tr' s' →
      initialFilter K.toEkfKernel e₀' = initialFilter K.toEkfKernel e₀ →
      SameEvents (keptEvents tr) (keptEvents tr') →
      ((keptEvents tr).map (·.stampNs)).Nodup → s'.history.filter = s.history.filter := by
  obtain ⟨gone, p, a, ha, hperm⟩ := batch_of_episode hK h
  have hlog := eq_inOrder hperm ha.ordered_all
  refine ⟨ha.anchored.ordered, ?_, ⟨a, ha.anchored.anchor, ha.anchored.replayed, ?_⟩, ?_⟩
  · rw [← hlog, ha.filter_eq hK]
  · intro t hat htf
    rw [← hlog, ha.stateAt_eq hK hat htf]
  · intro cfg' e₀' tr' s' h' hinitial hsame hstamps
    obtain ⟨gone', p', a', ha', hperm'⟩ := batch_of_episode hK h'
    have hlogs : SameEvents (gone ++ s.history.measurements)
        (gone' ++ s'.history.measurements) :=
      (hperm.map _).trans (hsame.trans (hperm'.map _).symm)
    have hnodup : ((gone ++ s.history.measurements).map (·.stampNs)).Nodup :=
      (hperm.map _).nodup_iff.mpr hstamps
    have hfilter := ha'.filter_eq hK
    rw [hinitial, ← replay_eq_of_sameEvents ha.ordered_all ha'.ordered_all hlogs hnodup,
      ha.filter_eq hK] at hfilter
    exact (Option.some.inj hfilter).symm

end Run

/-! ### An order of arrival -/

/-- A filter of one coordinate that moves at a constant speed, in whole nanometres. -/
def lineKernel : FusionKernel ℤ ℤ ℤ Unit Unit where
  blank := 0
  initialEstimate pose _ := pose.getD 0
  stabilize := some
  advance dt x := some (x + dt)
  updatePosition x z := .accepted ((x + z) / 2)
  updateOrientation _ _ := .rejected
  updateLinearVelocity _ _ := .rejected
  updateTwistAngularVelocity _ _ := .rejected
  updateExternalAngularVelocity x z := .accepted (2 * x + z)
  setLinearAcceleration _ _ := .rejected
  imuAngularVelocity := some
  imuLinearAcceleration _ := none
  vioMeasurement z _ := some (z, none)
  identity := ()
  candidate _ _ := none
  tightestConsistentPoseCluster _ := []
  meanAlignment _ := ((), ())
  validCovariance _ := true
  fusedAlignment _ _ := none
  fillCovariances _ _ := true

theorem lawful_lineKernel : lineKernel.toEkfKernel.Lawful where
  stabilize_restored _ := rfl
  advance_total _ _ := ⟨_, rfl, rfl⟩
  advance_add {x y d d'} _ _ _ h := by
    obtain rfl : x + d = y := Option.some.inj h
    exact congrArg some (Int.add_assoc x d d')
  update_total hblock _ h := by
    simp only [EkfKernel.updates, List.mem_cons, List.not_mem_nil, or_false] at hblock
    rcases hblock with rfl | rfl | rfl | rfl | rfl | rfl <;> cases h
  update_restored _ _ _ := rfl

/-- The sample that starts the filter, with the id `1`. -/
def firstVio : Measurement ℤ := { id := 1, stampNs := 1000000000, pose := some 7 }

def vioInput (stampNs : ℤ) : FusionInput ℤ Unit :=
  .vio ⟨stampNs, stampNs⟩ ⟨stampNs, "base_link", 7⟩ none ⟨stampNs, stampNs⟩

def imuInput (arrivalNs : ℤ) : FusionInput ℤ Unit :=
  .imu ⟨arrivalNs, arrivalNs⟩ ⟨1500000000, "base_link", 5⟩

/-- The two transitions after the one that starts the filter keep these measurements. -/
def keepsAfterStart (kept : List (Measurement ℤ)) (z : FusionTransition ℤ ℤ ℤ Unit Unit) :
    FusionHistory ℤ ℤ ℤ Unit Unit → Bool
  | [y, x] => decide (x.output = [.initialized firstVio]) &&
    decide (keptEvents [z, y] = kept) &&
    [z, y].all fun w => w.output.all fun effect => !effect.resets
  | _ => false

theorem episode_of_keepsAfterStart (cfg : FusionConfig) (inputs : List (FusionInput ℤ Unit))
    (kept : List (Measurement ℤ))
    (h : (fusionMachine lineKernel cfg).execCheck inputs (keepsAfterStart kept) = true) :
    ∃ tr s, Episode lineKernel cfg firstVio tr s ∧ keptEvents tr = kept := by
  obtain ⟨z, tr, s, hrun, hcheck⟩ := run_of_execCheck _ _ _ h
  unfold keepsAfterStart at hcheck
  split at hcheck
  · rename_i y x
    simp only [Bool.and_eq_true, decide_eq_true_iff, List.all_eq_true, Bool.not_eq_true'] at hcheck
    obtain ⟨⟨hinit, hkept⟩, hresets⟩ := hcheck
    exact ⟨[z, y], s, ⟨x, [], hrun, by rw [hinit]; rfl, hresets⟩, hkept⟩
  · cases hcheck

/-- A delayed IMU sample and the same sample in time give the same filter. -/
theorem history_refines_batch_delayed : ∃ tr tr' s s',
    Episode lineKernel { requireZedTrackingOk := false } firstVio tr s ∧
    Episode lineKernel { requireZedTrackingOk := false } firstVio tr' s' ∧
    (keptEvents tr).map (·.id) = [3, 2] ∧ (keptEvents tr').map (·.id) = [3, 2] ∧
    (keptEvents tr).map (·.stampNs) = [1500000000, 1900000000] ∧
    (keptEvents tr').map (·.stampNs) = [1900000000, 1500000000] ∧
    s'.history.filter = s.history.filter := by
  obtain ⟨tr, s, h, hkept⟩ := episode_of_keepsAfterStart
    { requireZedTrackingOk := false }
    [vioInput 1000000000, vioInput 1900000000, imuInput 1910000000]
    [{ id := 3, stampNs := 1500000000, externalAngularVelocity := some 5 },
      { id := 2, stampNs := 1900000000, pose := some 7 }] (by decide +kernel)
  obtain ⟨tr', s', h', hkept'⟩ := episode_of_keepsAfterStart
    { requireZedTrackingOk := false }
    [vioInput 1000000000, imuInput 1510000000, vioInput 1900000000]
    [{ id := 3, stampNs := 1900000000, pose := some 7 },
      { id := 2, stampNs := 1500000000, externalAngularVelocity := some 5 }] (by decide +kernel)
  refine ⟨tr, tr', s, s', h, h', ?_, ?_, ?_, ?_,
    (history_refines_batch lawful_lineKernel h).2.2.2 _ _ _ _ h' rfl ?_ ?_⟩
  · rw [hkept]
    rfl
  · rw [hkept']
    rfl
  · rw [hkept]
    rfl
  · rw [hkept']
    rfl
  · rw [hkept, hkept']
    exact List.Perm.swap _ _ _
  · rw [hkept]
    decide

end RobotCore
