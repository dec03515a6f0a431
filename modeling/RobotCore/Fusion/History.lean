import RobotCore.Fusion.Ekf
import RobotCore.Lib.Checkpoints
import Mathlib.Data.Prod.Lex

/-!
# The replay history of the estimator

The measurements the estimator has kept, in the order of their stamps, with a checkpoint of the
filter after each of them: `insert_measurement`, `erase_measurement`, `replay_from`, `state_at`
and `prune_history` on the members they read and write.
-/

namespace RobotCore

open Checkpoints

variable {σ δ : Type}

/-- `filter_`, `anchor_state_`, `measurements_` and `measurement_filters_` -/
structure FilterHistory (σ δ : Type) where
  filter : VioTagEkf σ
  anchorState : Option (EkfState σ) := none
  measurements : List (Measurement δ) := []
  measurementFilters : List (VioTagEkf σ) := []
  deriving DecidableEq

/-- `std::tie(stamp_ns, id)` -/
def Measurement.key (event : Measurement δ) : ℤ ×ₗ ℕ := toLex (event.stampNs, event.id)

namespace EkfKernel

variable (K : EkfKernel σ δ)

/-- A history without a filter. -/
def emptyHistory : FilterHistory σ δ := { filter := K.fresh }

def initializeFilter (event : Measurement δ) : Bool × FilterHistory σ δ :=
  let filter := K.initializeFrom ⟨event.stampNs, K.initialEstimate event.pose event.twist⟩
  if !filter.initialized then (false, { filter := filter })
  else (true, { filter := filter, anchorState := some filter.state })

/-- The index of the new measurement, whose checkpoint is a fresh filter. -/
def insertMeasurement (h : FilterHistory σ δ) (event : Measurement δ) : ℕ × FilterHistory σ δ :=
  let index := upperBound Measurement.key event h.measurements
  (index,
    { h with
      measurements := h.measurements.insertIdx index event
      measurementFilters := h.measurementFilters.insertIdx index K.fresh })

end EkfKernel

def eraseMeasurement (h : FilterHistory σ δ) (id : ℕ) : Option ℕ × FilterHistory σ δ :=
  match h.measurements.findIdx? fun candidate => candidate.id == id with
  | none => (none, h)
  | some index =>
    (some index,
      { h with
        measurements := h.measurements.eraseIdx index
        measurementFilters := h.measurementFilters.eraseIdx index })

namespace EkfKernel

variable (K : EkfKernel σ δ)

/-- The loop of `replay_from`: what the tracked measurement gave, and the rebuilt checkpoints up to
the first failure. -/
def replayLoop (trackedId : ℕ) (f : VioTagEkf σ) (tracked : MeasurementResult) :
    List (Measurement δ) → MeasurementResult × List (VioTagEkf σ)
  | [] => (tracked, [])
  | event :: events =>
    match K.propagateTo f event.stampNs with
    | none => (tracked, [])
    | some f =>
      let (result, f) := K.applyMeasurement f event
      let tracked := if event.id = trackedId then result else tracked
      if !f.initialized then (tracked, [])
      else
        let (tracked, rebuilt) := replayLoop trackedId f tracked events
        (tracked, f :: rebuilt)

/-- The filter a replay starts from. -/
def replayStart (h : FilterHistory σ δ) (anchor : EkfState σ) (startIndex : ℕ) : VioTagEkf σ :=
  if startIndex = 0 then K.initializeFrom anchor
  else h.measurementFilters.getD (startIndex - 1) K.fresh

/-- `replay_from`: what the tracked measurement gave, and the history. -/
def replayFrom (h : FilterHistory σ δ) (startIndex trackedId : ℕ) :
    MeasurementResult × FilterHistory σ δ :=
  match h.anchorState with
  | none => ({}, h)
  | some anchor =>
    if startIndex > h.measurements.length || h.measurementFilters.length != h.measurements.length
    then ({}, h)
    else if startIndex = 0 && !(K.initializeFrom anchor).initialized then ({}, h)
    else
      let start := K.replayStart h anchor startIndex
      let (tracked, rebuilt) := K.replayLoop trackedId start {} (h.measurements.drop startIndex)
      if rebuilt.length != h.measurements.length - startIndex then (tracked, h)
      else
        (tracked,
          { h with
            measurementFilters := h.measurementFilters.take startIndex ++ rebuilt
            filter := rebuilt.getLastD start })

/-- The measurement is inserted and replayed, and erased again unless `accepts` its result. -/
def keepMeasurement (h : FilterHistory σ δ) (event : Measurement δ)
    (accepts : MeasurementResult → Bool) : Bool × FilterHistory σ δ :=
  let (index, h) := K.insertMeasurement h event
  let (result, h) := K.replayFrom h index event.id
  if !accepts result then
    match eraseMeasurement h event.id with
    | (none, h) => (false, h)
    | (some index, h) => (false, (K.replayFrom h index 0).2)
  else (true, h)

def stateAt (h : FilterHistory σ δ) (targetNs : ℤ) : Option (EkfState σ) :=
  match h.anchorState with
  | none => none
  | some anchor =>
    if targetNs < anchor.stampNs || targetNs > h.filter.state.stampNs then none
    else
      let eventCount := h.measurements.findIdx fun event => targetNs < event.stampNs
      if h.measurementFilters.length != h.measurements.length then none
      else if eventCount = 0 && !(K.initializeFrom anchor).initialized then none
      else (K.propagateTo (K.replayStart h anchor eventCount) targetNs).map (·.state)

/-- The loop of `prune_history`, which stops early when the checkpoints run out. -/
def pruneLoop (cutoffNs : ℤ) (anchor : EkfState σ) :
    List (Measurement δ) → List (VioTagEkf σ) →
      Bool × EkfState σ × List (Measurement δ) × List (VioTagEkf σ)
  | event :: events, filters =>
    if event.stampNs ≤ cutoffNs then
      match filters with
      | [] => (false, anchor, event :: events, [])
      | f :: filters => pruneLoop cutoffNs f.state events filters
    else (true, anchor, event :: events, filters)
  | [], filters => (true, anchor, [], filters)

/-- The anchor propagated to the cutoff when it lies before it; a failure leaves it. -/
def advanceAnchor (cutoffNs : ℤ) (anchor : EkfState σ) : EkfState σ :=
  if anchor.stampNs < cutoffNs then
    ((K.propagateTo (K.initializeFrom anchor) cutoffNs).map (·.state)).getD anchor
  else anchor

def pruneHistory (historyNs : ℤ) (h : FilterHistory σ δ) : FilterHistory σ δ :=
  match h.anchorState with
  | none => h
  | some anchor =>
    let cutoffNs := h.filter.state.stampNs - historyNs
    if h.measurements.isEmpty || cutoffNs ≤ anchor.stampNs then h
    else
      let (complete, anchor, measurements, filters) :=
        pruneLoop cutoffNs anchor h.measurements h.measurementFilters
      { h with
        anchorState := some (if complete then K.advanceAnchor cutoffNs anchor else anchor)
        measurements := measurements
        measurementFilters := filters }

end EkfKernel

end RobotCore
