import RobotCore.Fusion.Node

/-!
# The history and its checkpoints

`Anchored` is the correspondence between the two lists of the history: the checkpoints are those of
the measurements replayed from the anchor, and the filter is the last of them.  A measurement that
is turned away leaves the history as it was (`keepMeasurement_of_not_accepted`); one that is kept
is in its place with its checkpoint and the later ones replayed, provided the replay does not fail
after it (`anchored_keepMeasurement`); and pruning keeps the correspondence when the measurements
left replay from the new anchor as they did (`anchored_pruneHistory`).
-/

namespace RobotCore

open Checkpoints

variable {σ δ : Type}

/-- An initialised filter with this state. -/
def ready (x : EkfState σ) : VioTagEkf σ := ⟨x, true⟩

namespace EkfKernel

variable (K : EkfKernel σ δ)

/-- One round of the replay loop: propagate to the measurement and apply it. -/
def logStep (f : VioTagEkf σ) (event : Measurement δ) : Option (VioTagEkf σ) :=
  (K.propagateTo f event.stampNs).bind fun f =>
    let f := (K.applyMeasurement f event).2
    if f.initialized then some f else none

/-- The history is anchored at `a`, and none of its measurements has an id beyond `n`. -/
structure Anchored (h : FilterHistory σ δ) (n : ℕ) (a : EkfState σ) : Prop where
  anchor : h.anchorState = some a
  filter : h.filter = h.measurementFilters.getLastD (ready a)
  replayed : checkpoints K.logStep (K.initializeFrom a) h.measurements = some h.measurementFilters
  ordered : Ordered Measurement.key h.measurements
  after_anchor : ∀ e ∈ h.measurements, a.stampNs < e.stampNs
  id_le : ∀ e ∈ h.measurements, e.id ≤ n

variable {K} {h h' : FilterHistory σ δ} {n : ℕ} {a : EkfState σ} {f f' : VioTagEkf σ}
  {fs : List (VioTagEkf σ)} {e : Measurement δ} {events : List (Measurement δ)} {t : ℤ}

/-! ### Propagation and replay -/

theorem propagateTo_initialized (h : K.propagateTo f t = some f') : f'.initialized = true := by
  unfold propagateTo at h
  split_ifs at h with hready hstamp
  · obtain rfl := Option.some.inj h
    simp only [Bool.or_eq_true, not_or, Bool.not_eq_true', Bool.not_eq_false] at hready
    exact hready.1
  · obtain ⟨estimate, -, rfl⟩ := Option.map_eq_some_iff.mp h
    rfl

theorem initialized_of_propagateTo (h : K.propagateTo f t = some f') : f.initialized = true := by
  unfold propagateTo at h
  split_ifs at h with hready <;>
  · simp only [Bool.or_eq_true, not_or, Bool.not_eq_true', Bool.not_eq_false] at hready
    exact hready.1

theorem propagateTo_stampNs (h : K.propagateTo f t = some f') : f'.state.stampNs = t := by
  unfold propagateTo at h
  split_ifs at h with hready hstamp
  · obtain rfl := Option.some.inj h
    exact hstamp.symm
  · obtain ⟨estimate, -, rfl⟩ := Option.map_eq_some_iff.mp h
    rfl

theorem ready_state (h : f.initialized = true) : ready f.state = f := by
  obtain ⟨state, initialized⟩ := f
  obtain rfl : initialized = true := h
  rfl

theorem update_stampNs (block : σ → δ → BlockUpdate σ) (data : δ) :
    (f.update block data).2.state.stampNs = f.state.stampNs := by
  unfold VioTagEkf.update
  split
  · rfl
  · split <;> rfl

theorem applyMeasurement_stampNs :
    (K.applyMeasurement f e).2.state.stampNs = f.state.stampNs := by
  have hblock (block : VioTagEkf σ → MeasurementResult → δ → MeasurementResult × VioTagEkf σ)
      (hstamp : ∀ f r data, (block f r data).2.state.stampNs = f.state.stampNs) (data : Option δ)
      (r : MeasurementResult × VioTagEkf σ) :
      (applyBlock block data r).2.state.stampNs = r.2.state.stampNs := by
    cases data with
    | none => rfl
    | some data => exact hstamp _ _ _
  unfold applyMeasurement
  rw [hblock, hblock, hblock, hblock]
  · exact fun _ _ _ => (update_stampNs _ _).trans (update_stampNs _ _)
  · exact fun _ _ _ => (update_stampNs _ _).trans (update_stampNs _ _)
  · exact fun _ _ _ => update_stampNs _ _
  · exact fun _ _ _ => update_stampNs _ _

theorem logStep_stampNs (h : K.logStep f e = some f') : f'.state.stampNs = e.stampNs := by
  obtain ⟨g, hg, h⟩ := Option.bind_eq_some_iff.mp h
  dsimp only at h
  split_ifs at h
  obtain rfl := Option.some.inj h
  rw [applyMeasurement_stampNs, propagateTo_stampNs hg]

theorem logStep_initialized (h : K.logStep f e = some f') : f'.initialized = true := by
  obtain ⟨g, -, h⟩ := Option.bind_eq_some_iff.mp h
  dsimp only at h
  split_ifs at h with hready
  obtain rfl := Option.some.inj h
  exact hready

theorem initialized_of_logStep (h : K.logStep f e = some f') : f.initialized = true := by
  obtain ⟨g, hg, -⟩ := Option.bind_eq_some_iff.mp h
  exact initialized_of_propagateTo hg

/-- A checkpoint is an initialised filter with the stamp of its measurement. -/
theorem stampNs_of_checkpoints (h : checkpoints K.logStep f events = some fs) :
    fs.map (·.state.stampNs) = events.map (·.stampNs) := by
  induction events generalizing f fs with
  | nil =>
    cases h
    rfl
  | cons e events ih =>
    obtain ⟨g, gs, hg, hgs, rfl⟩ := checkpoints_cons_eq_some.mp h
    rw [List.map_cons, List.map_cons, ih hgs, logStep_stampNs hg]

theorem initialized_of_checkpoints (h : checkpoints K.logStep f events = some fs) :
    ∀ g ∈ fs, g.initialized = true := by
  induction events generalizing f fs with
  | nil =>
    cases h
    exact fun g hg => absurd hg List.not_mem_nil
  | cons e events ih =>
    obtain ⟨g, gs, hg, hgs, rfl⟩ := checkpoints_cons_eq_some.mp h
    exact List.forall_mem_cons.mpr ⟨logStep_initialized hg, ih hgs⟩

/-- The replay depends on where it starts only through the step to its first measurement. -/
theorem checkpoints_congr (hsame : ∀ e ∈ events.head?, K.logStep f e = K.logStep f' e) :
    checkpoints K.logStep f events = checkpoints K.logStep f' events := by
  cases events with
  | nil => rfl
  | cons e events => rw [checkpoints, checkpoints, hsame e rfl]

/-- The loop rebuilds the checkpoints, or stops before the end. -/
theorem replayLoop_rebuilt (f : VioTagEkf σ) (events : List (Measurement δ)) (trackedId : ℕ)
    (tracked : MeasurementResult) :
    checkpoints K.logStep f events = some (K.replayLoop trackedId f tracked events).2 ∨
    (checkpoints K.logStep f events = none ∧
      (K.replayLoop trackedId f tracked events).2.length < events.length) := by
  induction events generalizing f tracked with
  | nil => exact Or.inl rfl
  | cons e events ih =>
    rw [replayLoop, checkpoints, logStep]
    cases K.propagateTo f e.stampNs with
    | none => exact Or.inr ⟨rfl, Nat.succ_pos _⟩
    | some g =>
      dsimp only [Option.bind_some]
      cases hready : (K.applyMeasurement g e).2.initialized with
      | false => exact Or.inr ⟨rfl, Nat.succ_pos _⟩
      | true =>
        simp only [if_true, Bool.not_true, Bool.false_eq_true, if_false, Option.bind_some]
        rcases ih (K.applyMeasurement g e).2
          (if e.id = trackedId then (K.applyMeasurement g e).1 else tracked) with
          hsome | ⟨hnone, hlt⟩
        · exact Or.inl (by rw [hsome]; rfl)
        · exact Or.inr ⟨by rw [hnone]; rfl, Nat.succ_lt_succ hlt⟩

/-! ### A measurement is added -/

/-- A measurement a callback may add: later than the anchor, with a new id. -/
structure Fresh (h : FilterHistory σ δ) (n : ℕ) (e : Measurement δ) : Prop where
  after_anchor : ∀ a, h.anchorState = some a → a.stampNs < e.stampNs
  anchored : h.anchorState ≠ none
  id : e.id = n + 1

/-- The filter before the measurement's place, from which it is replayed. -/
def filterBefore (K : EkfKernel σ δ) (h : FilterHistory σ δ) (a : EkfState σ)
    (e : Measurement δ) : VioTagEkf σ :=
  (h.measurementFilters.take (upperBound Measurement.key e h.measurements)).getLastD
    (K.initializeFrom a)

/-- The measurement in its place. -/
def withMeasurement (ms : List (Measurement δ)) (e : Measurement δ) : List (Measurement δ) :=
  ms.take (upperBound Measurement.key e ms) ++ e :: ms.drop (upperBound Measurement.key e ms)

theorem mem_withMeasurement {m : Measurement δ} {ms : List (Measurement δ)} :
    m ∈ withMeasurement ms e ↔ m = e ∨ m ∈ ms := by
  rw [withMeasurement, (perm_insert e ms _).mem_iff, List.mem_cons]

theorem Anchored.length_eq (hh : K.Anchored h n a) :
    h.measurementFilters.length = h.measurements.length :=
  length_checkpoints hh.replayed

theorem Anchored.upperBound_le (hh : K.Anchored h n a) :
    upperBound Measurement.key e h.measurements ≤ h.measurementFilters.length := by
  rw [hh.length_eq]
  exact upperBound_le_length

theorem replayStart_eq {k : ℕ} (hfilters : h.measurementFilters.take k = fs.take k)
    (hk : k ≤ fs.length) : K.replayStart h a k = (fs.take k).getLastD (K.initializeFrom a) := by
  unfold replayStart
  split
  · rename_i hzero
    rw [hzero]
    rfl
  · rename_i hpos
    obtain ⟨k, rfl⟩ : ∃ j, k = j + 1 := ⟨k - 1, by omega⟩
    have hget := congrArg (fun l => l[k]?) hfilters
    simp only [List.getElem?_take, Nat.lt_succ_self, if_true] at hget
    rw [Nat.add_sub_cancel, List.getD_eq_getElem?_getD, hget, List.getElem?_eq_getElem hk,
      List.take_succ_eq_append_getElem hk, getLastD_append]
    rfl

variable (h fs) in
/-- A replay that goes through to the end, and one that leaves the history. -/
theorem replayFrom_eq (hanchor : h.anchorState = some a) {k : ℕ}
    (hfilters : h.measurementFilters.take k = fs.take k) (hk : k ≤ fs.length)
    (hlength : h.measurementFilters.length = h.measurements.length)
    (hkm : k ≤ h.measurements.length) (id : ℕ) :
    (∃ gs, checkpoints K.logStep ((fs.take k).getLastD (K.initializeFrom a))
        (h.measurements.drop k) = some gs ∧
      (k = 0 → (K.initializeFrom a).initialized = true) ∧
      (K.replayFrom h k id).2 =
        { h with
          measurementFilters := fs.take k ++ gs
          filter := (fs.take k ++ gs).getLastD (K.initializeFrom a) }) ∨
    ((checkpoints K.logStep ((fs.take k).getLastD (K.initializeFrom a))
        (h.measurements.drop k) = none ∨ (K.initializeFrom a).initialized = false ∧ k = 0) ∧
      (K.replayFrom h k id).2 = h) := by
  have hstart := replayStart_eq (K := K) (a := a) hfilters hk
  have hguard : (decide (k > h.measurements.length) ||
      h.measurementFilters.length != h.measurements.length) = false := by
    simp [hlength, hkm]
  unfold replayFrom
  rw [hanchor]
  simp only [hguard, hstart, Bool.false_eq_true, if_false]
  split
  · rename_i hinit
    rw [Bool.and_eq_true, decide_eq_true_iff, Bool.not_eq_true'] at hinit
    exact Or.inr ⟨Or.inr hinit.symm, rfl⟩
  rename_i hinit
  have hinitialized (hzero : k = 0) : (K.initializeFrom a).initialized = true := by
    simpa [hzero] using hinit
  rcases replayLoop_rebuilt (K := K) ((fs.take k).getLastD (K.initializeFrom a))
    (h.measurements.drop k) id {} with hsome | ⟨hnone, hlt⟩
  · refine Or.inl ⟨_, hsome, hinitialized, ?_⟩
    have hcomplete : ((K.replayLoop id ((fs.take k).getLastD (K.initializeFrom a)) {}
        (h.measurements.drop k)).2.length != h.measurements.length - k) = false := by
      rw [length_checkpoints hsome, List.length_drop]
      exact bne_self_eq_false _
    simp only [hcomplete, Bool.false_eq_true, if_false]
    rw [hfilters, getLastD_append]
  · refine Or.inr ⟨Or.inl hnone, ?_⟩
    rw [List.length_drop] at hlt
    have hincomplete : ((K.replayLoop id ((fs.take k).getLastD (K.initializeFrom a)) {}
        (h.measurements.drop k)).2.length != h.measurements.length - k) = true :=
      bne_iff_ne.mpr hlt.ne
    simp only [hincomplete, if_true]

/-- Initialising from the anchor of an empty history gives the anchor back. -/
def Restores (K : EkfKernel σ δ) (h : FilterHistory σ δ) (a : EkfState σ) : Prop :=
  h.measurements = [] → (K.initializeFrom a).initialized = true → K.initializeFrom a = ready a

/-- Replaying from a measurement on restores the history. -/
theorem replayFrom_restored (hh : K.Anchored h n a) (hrestores : Restores K h a) {k : ℕ}
    (hk : k ≤ h.measurementFilters.length) {h₁ : FilterHistory σ δ}
    (hanchor : h₁.anchorState = some a) (hms : h₁.measurements = h.measurements)
    (hfilters : h₁.measurementFilters.take k = h.measurementFilters.take k)
    (hlength : h₁.measurementFilters.length = h.measurementFilters.length) (id : ℕ) :
    (K.replayFrom h₁ k id).2 = h ∨
      ((K.initializeFrom a).initialized = false ∧ k = 0 ∧ (K.replayFrom h₁ k id).2 = h₁) := by
  have hdrop := checkpoints_drop hh.replayed k
  rcases replayFrom_eq _ _ hanchor hfilters hk (by rw [hlength, hms, hh.length_eq])
    (by rw [hms, ← hh.length_eq]; exact hk) id with ⟨gs, hgs, hinit, hreplay⟩ | ⟨hstop, hreplay⟩
  · rw [hms] at hgs
    obtain rfl := Option.some.inj (hdrop.symm.trans hgs)
    refine Or.inl ?_
    have hlast : h.filter = h.measurementFilters.getLastD (K.initializeFrom a) := by
      rw [hh.filter]
      rcases List.eq_nil_or_concat' h.measurementFilters with hnil | ⟨fs, f, hfs⟩
      · have hempty : h.measurements = [] := by
          rw [← List.length_eq_zero_iff, ← hh.length_eq, hnil]
          rfl
        obtain rfl : k = 0 := by simpa [hnil] using hk
        rw [hnil, hrestores hempty (hinit rfl)]
      · rw [hfs, getLastD_append, getLastD_append]
        rfl
    rw [hreplay, List.take_append_drop, hanchor, hms, ← hh.anchor, ← hlast]
  · rw [hms, hdrop] at hstop
    obtain ⟨hinit, hzero⟩ := hstop.resolve_left (Option.some_ne_none _)
    exact Or.inr ⟨hinit, hzero, hreplay⟩

/-- The replay of the measurement and of those after it does not fail. -/
def Replays (K : EkfKernel σ δ) (h : FilterHistory σ δ) (a : EkfState σ) (e : Measurement δ) :
    Prop :=
  (checkpoints K.logStep (filterBefore K h a e)
    (e :: h.measurements.drop (upperBound Measurement.key e h.measurements))).isSome = true

/-- The history with the measurement inserted, which is replayed or left with the placeholder. -/
theorem insert_replay (hh : K.Anchored h n a) (id : ℕ) :
    ∃ h₁, (K.replayFrom (K.insertMeasurement h e).2 (K.insertMeasurement h e).1 id).2 = h₁ ∧
      h₁.anchorState = some a ∧ h₁.measurements = withMeasurement h.measurements e ∧
      ((∃ gs, checkpoints K.logStep (filterBefore K h a e)
          (e :: h.measurements.drop (upperBound Measurement.key e h.measurements)) = some gs ∧
        h₁.measurementFilters
          = h.measurementFilters.take (upperBound Measurement.key e h.measurements) ++ gs ∧
        h₁.filter = h₁.measurementFilters.getLastD (ready a)) ∨
      (checkpoints K.logStep (filterBefore K h a e)
          (e :: h.measurements.drop (upperBound Measurement.key e h.measurements)) = none ∧
        h₁.measurementFilters
          = h.measurementFilters.take (upperBound Measurement.key e h.measurements) ++
            K.fresh :: h.measurementFilters.drop (upperBound Measurement.key e h.measurements) ∧
        h₁.filter = h.filter)) := by
  have hk := hh.upperBound_le (e := e)
  have hlength := hh.length_eq
  unfold filterBefore insertMeasurement
  dsimp only
  set k := upperBound Measurement.key e h.measurements with hkdef
  have hms : h.measurements.insertIdx k e = withMeasurement h.measurements e := by
    rw [insertIdx_eq e (by omega), withMeasurement, ← hkdef]
  have hktake : (h.measurementFilters.take k).length = k := by
    rw [List.length_take]
    omega
  have hdrop : (withMeasurement h.measurements e).drop k = e :: h.measurements.drop k := by
    rw [withMeasurement, ← hkdef, List.drop_left']
    rw [List.length_take]
    omega
  have hmlength : (withMeasurement h.measurements e).length = h.measurements.length + 1 := by
    rw [← hms, List.length_insertIdx_of_le_length (by omega)]
  rw [hms, insertIdx_eq _ hk]
  rcases replayFrom_eq (K := K)
    { h with
      measurements := withMeasurement h.measurements e
      measurementFilters :=
        h.measurementFilters.take k ++ K.fresh :: h.measurementFilters.drop k }
    h.measurementFilters hh.anchor (by rw [List.take_left' hktake]) hk
    (by
      rw [List.length_append, hktake, List.length_cons, List.length_drop]
      dsimp only
      omega)
    (by dsimp only; omega) id with ⟨gs, hgs, -, hreplay⟩ | ⟨hstop, hreplay⟩
  -- the replay goes through, and its last checkpoint is the filter
  · dsimp only at hgs
    rw [hdrop] at hgs
    refine ⟨_, hreplay, hh.anchor, rfl, Or.inl ⟨gs, hgs, rfl, ?_⟩⟩
    obtain ⟨g, gs, -, -, rfl⟩ := checkpoints_cons_eq_some.mp hgs
    dsimp only
    rw [getLastD_append, getLastD_append, List.getLastD_cons, List.getLastD_cons]
  · dsimp only at hstop
    rw [hdrop] at hstop
    refine ⟨_, hreplay, hh.anchor, rfl, Or.inr ⟨?_, rfl, rfl⟩⟩
    rcases hstop with hnone | ⟨hinit, hzero⟩
    · exact hnone
    · -- A replay from a filter that is not initialised fails at once.
      rw [Option.eq_none_iff_forall_ne_some]
      intro gs hgs
      obtain ⟨g, -, hg, -, -⟩ := checkpoints_cons_eq_some.mp hgs
      have := initialized_of_logStep hg
      rw [hzero, List.take_zero, List.getLastD_nil, hinit] at this
      cases this

/-- Erasing the measurement with the greatest id leaves the others. -/
theorem eraseMeasurement_eq (hh : K.Anchored h n a) (he : n < e.id) {h₁ : FilterHistory σ δ}
    (hms : h₁.measurements = withMeasurement h.measurements e) {gs : List (VioTagEkf σ)}
    {g : VioTagEkf σ} (hfilters : h₁.measurementFilters
      = h.measurementFilters.take (upperBound Measurement.key e h.measurements) ++ g :: gs) :
    eraseMeasurement h₁ e.id = (some (upperBound Measurement.key e h.measurements),
      { h₁ with
        measurements := h.measurements
        measurementFilters :=
          h.measurementFilters.take (upperBound Measurement.key e h.measurements) ++ gs }) := by
  have hk := hh.upperBound_le (e := e)
  have hlength := hh.length_eq
  set k := upperBound Measurement.key e h.measurements with hkdef
  have hktake : (h.measurements.take k).length = k := by
    rw [List.length_take]
    omega
  have hftake : (h.measurementFilters.take k).length = k := by
    rw [List.length_take]
    omega
  have hindex : h₁.measurements.findIdx? (fun candidate => candidate.id == e.id) = some k := by
    rw [hms, withMeasurement, ← hkdef, List.findIdx?_append]
    have hnone : (h.measurements.take k).findIdx? (fun candidate => candidate.id == e.id)
        = none := by
      rw [List.findIdx?_eq_none_iff]
      intro m hm
      have := hh.id_le m (List.mem_of_mem_take hm)
      exact beq_false_of_ne (by omega)
    rw [hnone, List.findIdx?_cons, beq_self_eq_true, if_pos rfl, hktake]
    exact congrArg some (Nat.zero_add k)
  have hms' : h₁.measurements.eraseIdx k = h.measurements := by
    rw [hms, withMeasurement, ← hkdef, List.eraseIdx_append_of_length_le hktake.le, hktake,
      Nat.sub_self, List.eraseIdx_cons_zero, List.take_append_drop]
  have hfilters' : h₁.measurementFilters.eraseIdx k = h.measurementFilters.take k ++ gs := by
    rw [hfilters, List.eraseIdx_append_of_length_le hftake.le, hftake, Nat.sub_self,
      List.eraseIdx_cons_zero]
  rw [eraseMeasurement, hindex]
  dsimp only
  rw [hms', hfilters']

/-- **A measurement that is turned away leaves the history as it was.** -/
theorem keepMeasurement_of_not_accepted (hh : K.Anchored h n a) (he : Fresh h n e)
    (hrestores : Restores K h a) {accepts : MeasurementResult → Bool}
    (hkeep : K.keepMeasurement h e accepts = (false, h')) : h' = h := by
  have hid : n < e.id := by
    have := he.id
    omega
  have hk := hh.upperBound_le (e := e)
  -- what the failed insertion has left behind
  obtain ⟨h₁, hreplay, hanchor, hms, hfilters⟩ := insert_replay (e := e) hh e.id
  unfold keepMeasurement at hkeep
  dsimp only at hkeep
  rw [hreplay] at hkeep
  split at hkeep
  · rcases hfilters with ⟨gs, hgs, hfilters, -⟩ | ⟨-, hfilters, hfilter⟩
    · -- The replay that went through started from an initialised filter.
      obtain ⟨g, gs, hg, hrest, rfl⟩ := checkpoints_cons_eq_some.mp hgs
      rw [eraseMeasurement_eq hh hid hms hfilters] at hkeep
      rw [← (Prod.mk.inj hkeep).2]
      refine (replayFrom_restored hh hrestores hk ?_ ?_ ?_ ?_ 0).resolve_right ?_
      · exact hanchor
      · rfl
      · exact List.take_left' (List.length_take_of_le hk)
      · rw [List.length_append, List.length_take_of_le hk, length_checkpoints hrest,
          List.length_drop]
        have := hh.length_eq
        omega
      · rintro ⟨hinit, hzero, -⟩
        have hbefore := initialized_of_logStep hg
        rw [filterBefore, hzero, List.take_zero, List.getLastD_nil, hinit] at hbefore
        cases hbefore
    -- the replay stopped at once: erasing the measurement gives the history back
    · rw [eraseMeasurement_eq hh hid hms hfilters, List.take_append_drop] at hkeep
      have hsame : ({ h₁ with
          measurements := h.measurements
          measurementFilters := h.measurementFilters } : FilterHistory σ δ) = h := by
        rw [hanchor, hfilter, ← hh.anchor]
      rw [hsame] at hkeep
      rw [← (Prod.mk.inj hkeep).2]
      rcases replayFrom_restored hh hrestores hk hh.anchor rfl rfl rfl 0 with
        hrestored | ⟨-, -, hleft⟩
      · exact hrestored
      · exact hleft
  · cases hkeep

/-- **A measurement that is kept is in its place, with the checkpoints replayed**, when the replay
does not fail after it. -/
theorem anchored_keepMeasurement (hh : K.Anchored h n a) (he : Fresh h n e)
    {accepts : MeasurementResult → Bool} (hkeep : K.keepMeasurement h e accepts = (true, h'))
    (hreplays : Replays K h a e) :
    K.Anchored h' e.id a ∧ h'.measurements = withMeasurement h.measurements e := by
  have hid := he.id
  obtain ⟨h₁, hreplay, hanchor, hms, hfilters⟩ := insert_replay (e := e) hh e.id
  unfold keepMeasurement at hkeep
  dsimp only at hkeep
  rw [hreplay] at hkeep
  split at hkeep
  · split at hkeep <;> cases hkeep
  obtain rfl := (Prod.mk.inj hkeep).2
  rcases hfilters with ⟨gs, hgs, hfilters, hfilter⟩ | ⟨hnone, -, -⟩
  · refine ⟨⟨hanchor, hfilter, ?_, ?_, ?_, ?_⟩, hms⟩
    -- the checkpoints before the measurement stay, and the replay has computed the others
    · rw [hms, hfilters]
      exact checkpoints_append.mpr ⟨_, gs, checkpoints_take hh.replayed _, hgs, rfl⟩
    -- the measurement is new, so that no other has its key
    · rw [hms]
      refine ordered_insert hh.ordered fun m hm heq => ?_
      have hle := hh.id_le m hm
      have := congrArg (fun key => (ofLex key).2) heq
      simp only [Measurement.key, ofLex_toLex] at this
      omega
    · intro m hm
      rw [hms, mem_withMeasurement] at hm
      rcases hm with rfl | hm
      · exact he.after_anchor a hh.anchor
      · exact hh.after_anchor m hm
    · intro m hm
      rw [hms, mem_withMeasurement] at hm
      rcases hm with rfl | hm
      · exact le_rfl
      · have := hh.id_le m hm
        omega
  · rw [Replays, hnone] at hreplays
    cases hreplays

/-! ### The history is pruned -/

/-- The number of measurements up to the cutoff. -/
def pruned (cutoffNs : ℤ) (ms : List (Measurement δ)) : ℕ :=
  (ms.takeWhile fun e => decide (e.stampNs ≤ cutoffNs)).length

/-- The state of the last checkpoint, or the anchor. -/
def lastState (a : EkfState σ) (fs : List (VioTagEkf σ)) : EkfState σ :=
  (fs.getLastD (ready a)).state

theorem pruneLoop_eq (cutoffNs : ℤ) (ms : List (Measurement δ)) (hlength : fs.length = ms.length) :
    pruneLoop cutoffNs a ms fs
      = (true, lastState a (fs.take (pruned cutoffNs ms)), ms.drop (pruned cutoffNs ms),
        fs.drop (pruned cutoffNs ms)) := by
  induction ms generalizing a fs with
  | nil =>
    obtain rfl := List.length_eq_zero_iff.mp hlength
    rfl
  | cons e ms ih =>
    cases fs with
    | nil => cases hlength
    | cons f fs =>
      by_cases he : e.stampNs ≤ cutoffNs
      · have hcount : pruned cutoffNs (e :: ms) = pruned cutoffNs ms + 1 := by
          simp [pruned, he]
        have hlast : lastState a (f :: fs.take (pruned cutoffNs ms))
            = lastState f.state (fs.take (pruned cutoffNs ms)) := by
          unfold lastState
          rw [List.getLastD_cons]
          rcases List.eq_nil_or_concat' (fs.take (pruned cutoffNs ms)) with hnil | ⟨gs, g, hgs⟩
          · rw [hnil]
            rfl
          · rw [hgs, getLastD_append, getLastD_append]
            rfl
        rw [hcount, List.take_succ_cons, List.drop_succ_cons, List.drop_succ_cons, hlast,
          ← ih (Nat.succ.inj hlength)]
        simp only [pruneLoop, he, if_true]
      · have hcount : pruned cutoffNs (e :: ms) = 0 := by simp [pruned, he]
        rw [hcount]
        simp only [pruneLoop, he, if_false]
        rfl

/-- Moving the anchor makes no difference to the replay of the measurements left. -/
def PruneExact (K : EkfKernel σ δ) (historyNs : ℤ) (h : FilterHistory σ δ) (a : EkfState σ) :
    Prop :=
  let cutoffNs := h.filter.state.stampNs - historyNs
  let before := h.measurementFilters.take (pruned cutoffNs h.measurements)
  a.stampNs < cutoffNs → ∀ e ∈ (h.measurements.drop (pruned cutoffNs h.measurements)).head?,
    K.logStep (K.initializeFrom (K.advanceAnchor cutoffNs (lastState a before))) e
      = K.logStep (before.getLastD (K.initializeFrom a)) e

theorem advanceAnchor_stampNs (cutoffNs : ℤ) :
    (K.advanceAnchor cutoffNs a).stampNs ≤ max a.stampNs cutoffNs := by
  unfold advanceAnchor
  split
  · cases h : K.propagateTo (K.initializeFrom a) cutoffNs with
    | none => exact le_max_left _ _
    | some f =>
      rw [Option.map_some, Option.getD_some, propagateTo_stampNs h]
      exact le_max_right _ _
  · exact le_max_left _ _

theorem le_cutoff_of_mem_take {cutoffNs : ℤ} {ms : List (Measurement δ)} {m : Measurement δ}
    (hm : m ∈ ms.take (pruned cutoffNs ms)) : m.stampNs ≤ cutoffNs := by
  induction ms with
  | nil => cases hm
  | cons e ms ih =>
    by_cases he : e.stampNs ≤ cutoffNs
    · rw [show pruned cutoffNs (e :: ms) = pruned cutoffNs ms + 1 by simp [pruned, he],
        List.take_succ_cons] at hm
      rcases List.mem_cons.mp hm with rfl | hm
      · exact he
      · exact ih hm
    · rw [show pruned cutoffNs (e :: ms) = 0 by simp [pruned, he]] at hm
      cases hm

theorem key_le_stampNs {m : Measurement δ} (h : e.key < m.key) : e.stampNs ≤ m.stampNs := by
  rcases Prod.Lex.toLex_lt_toLex.mp h with h | ⟨h, -⟩
  · exact h.le
  · exact h.le

theorem cutoff_lt_of_mem_drop {cutoffNs : ℤ} {ms : List (Measurement δ)}
    (hms : Ordered Measurement.key ms) {m : Measurement δ}
    (hm : m ∈ ms.drop (pruned cutoffNs ms)) : cutoffNs < m.stampNs := by
  induction ms with
  | nil => cases hm
  | cons e ms ih =>
    obtain ⟨hfirst, hrest⟩ := List.pairwise_cons.mp hms
    by_cases he : e.stampNs ≤ cutoffNs
    · rw [show pruned cutoffNs (e :: ms) = pruned cutoffNs ms + 1 by simp [pruned, he],
        List.drop_succ_cons] at hm
      exact ih hrest hm
    · rw [show pruned cutoffNs (e :: ms) = 0 by simp [pruned, he], List.drop_zero] at hm
      rcases List.mem_cons.mp hm with rfl | hm
      · exact not_le.mp he
      · exact (not_le.mp he).trans_le (key_le_stampNs (hfirst m hm))

/-- The last checkpoint bears the stamp of the last measurement. -/
theorem lastState_stampNs (h : checkpoints K.logStep f events = some fs) :
    (lastState a fs).stampNs = (events.map (·.stampNs)).getLastD a.stampNs := by
  rw [← stampNs_of_checkpoints h]
  rcases List.eq_nil_or_concat' fs with rfl | ⟨gs, g, rfl⟩
  · rfl
  · rw [lastState, getLastD_append, List.map_append, getLastD_append]
    rfl

theorem Anchored.pruned_lt (hh : K.Anchored h n a) {historyNs : ℤ} (hpos : 0 < historyNs)
    (hne : h.measurements ≠ []) :
    pruned (h.filter.state.stampNs - historyNs) h.measurements < h.measurements.length := by
  obtain ⟨ms, m, hms⟩ := (List.eq_nil_or_concat' h.measurements).resolve_left hne
  by_contra hge
  have hmem : m ∈ h.measurements.take
      (pruned (h.filter.state.stampNs - historyNs) h.measurements) := by
    rw [List.take_of_length_le (not_lt.mp hge), hms]
    exact List.mem_append_right _ (List.mem_singleton_self m)
  have hstamp : h.filter.state.stampNs = m.stampNs := by
    have := lastState_stampNs (a := a) hh.replayed
    rwa [lastState, ← hh.filter, hms, List.map_append, getLastD_append] at this
  have := le_cutoff_of_mem_take hmem
  omega

/-- **Pruning keeps the correspondence** when moving the anchor makes no difference.  The filter is
beyond the cutoff, so a measurement is left. -/
theorem anchored_pruneHistory (hh : K.Anchored h n a) {historyNs : ℤ} (hpos : 0 < historyNs)
    (hexact : PruneExact K historyNs h a) :
    ∃ b, K.Anchored (K.pruneHistory historyNs h) n b ∧
      (K.pruneHistory historyNs h).measurements
        = h.measurements.drop (pruned (h.filter.state.stampNs - historyNs) h.measurements) ∧
      b = K.advanceAnchor (h.filter.state.stampNs - historyNs)
        (lastState a (h.measurementFilters.take
          (pruned (h.filter.state.stampNs - historyNs) h.measurements))) := by
  unfold PruneExact at hexact
  set cutoffNs := h.filter.state.stampNs - historyNs with hcutoffdef
  dsimp only at hexact
  unfold pruneHistory
  rw [hh.anchor]
  dsimp only
  rw [← hcutoffdef]
  split
  -- nothing is old enough, or nothing is left: the anchor stays
  · rename_i hskip
    have hle : cutoffNs ≤ a.stampNs := by
      rw [Bool.or_eq_true, List.isEmpty_iff, decide_eq_true_iff] at hskip
      rcases hskip with hempty | hle
      · have hstamp := lastState_stampNs (a := a) hh.replayed
        rw [lastState, ← hh.filter, hempty] at hstamp
        simp only [List.map_nil, List.getLastD_nil] at hstamp
        omega
      · exact hle
    -- all measurements are later than the anchor, so that none is pruned
    have hzero : pruned cutoffNs h.measurements = 0 := by
      unfold pruned
      rw [List.length_eq_zero_iff, List.takeWhile_eq_nil_iff]
      intro hlt
      rw [decide_eq_true_iff, not_le]
      exact hle.trans_lt (hh.after_anchor _ (List.getElem_mem hlt))
    rw [hzero, List.drop_zero]
    refine ⟨a, hh, rfl, ?_⟩
    rw [List.take_zero, advanceAnchor, if_neg]
    · rfl
    · exact not_lt.mpr hle
  · rename_i hmove
    rw [Bool.or_eq_true, List.isEmpty_iff, decide_eq_true_iff, not_or, not_le] at hmove
    obtain ⟨hne, hlt⟩ := hmove
    -- a measurement is left, since the newest is not older than the cutoff
    have hleft := hh.pruned_lt hpos hne
    rw [← hcutoffdef] at hleft
    have hlength := hh.length_eq
    rw [pruneLoop_eq cutoffNs h.measurements hlength]
    dsimp only
    rw [if_pos rfl]
    set k := pruned cutoffNs h.measurements with hk
    refine ⟨_, ⟨rfl, ?_, ?_, hh.ordered.drop, ?_, ?_⟩, rfl, rfl⟩
    · -- A checkpoint is left, so the filter is still the last one.
      have hfs : h.measurementFilters ≠ [] := List.length_pos_iff_ne_nil.mp (by omega)
      have hlast := List.getLast?_eq_some_getLast hfs
      rw [hh.filter, List.getLastD_eq_getLast?, List.getLastD_eq_getLast?,
        List.getLast?_drop, if_neg (by omega), hlast]
      rfl
    -- the checkpoints left were computed from the last one pruned, which the new anchor advances
    · rw [checkpoints_congr (hexact hlt)]
      exact checkpoints_drop hh.replayed k
    -- the measurements left are later than the new anchor
    · intro e he
      have hbefore : (lastState a (h.measurementFilters.take k)).stampNs ≤ cutoffNs := by
        rw [lastState_stampNs (checkpoints_take hh.replayed k)]
        rcases List.eq_nil_or_concat' (h.measurements.take k) with hnil | ⟨ms, m, hms⟩
        · rw [hnil]
          exact hlt.le
        · have hm : m ∈ h.measurements.take k :=
            hms ▸ List.mem_append_right _ (List.mem_singleton_self m)
          rw [hms, List.map_append, getLastD_append]
          exact le_cutoff_of_mem_take hm
      have hadvanced := advanceAnchor_stampNs (K := K)
        (a := lastState a (h.measurementFilters.take k)) cutoffNs
      rw [max_eq_right hbefore] at hadvanced
      exact hadvanced.trans_lt (cutoff_lt_of_mem_drop hh.ordered he)
    · intro e he
      exact hh.id_le e (List.mem_of_mem_drop he)

end EkfKernel

end RobotCore
