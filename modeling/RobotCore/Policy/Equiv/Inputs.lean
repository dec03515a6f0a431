import RobotCore.Policy.Equiv.Observation
import RobotCore.Policy.Inputs

/-!
# When the policy acts

`observation_of_run`: in every run a tick publishes an action exactly when each topic has a recent
sample among its last arrivals, the flags of these samples are set and the inference succeeds, and
the observation given to the actor then consists of the frame built from these samples and of the
frames of the ticks that have acted since the last one that has not.
-/

namespace RobotCore

open Scalar Machine

variable {α : Type} {maxInputAgeNs tickNs : ℤ} {inference : Except String Unit}

/-! ### The queues -/

/-- A sample of the body state arrives. -/
def bodySampled (x : PolicyNodeTransition α) : Option (StampedMessage (PolicyBody α)) :=
  match x.input with
  | .bodyState sample => some sample
  | _ => none

def imuSampled (x : PolicyNodeTransition α) : Option (StampedMessage (PolicyImu α)) :=
  match x.input with
  | .externalImu sample => some sample
  | _ => none

def commandSampled (x : PolicyNodeTransition α) : Option (StampedMessage (Fin 8 → α)) :=
  match x.input with
  | .thrusterCommand sample => some sample
  | _ => none

def targetSampled (x : PolicyNodeTransition α) : Option (StampedMessage (PolicyTarget α)) :=
  match x.input with
  | .trajectoryTarget sample => some sample
  | _ => none

/-- The queues hold the last arrivals of their topics. -/
structure Queued (tr : PolicyNodeHistory α) (s : PolicyNode α) : Prop where
  body : s.body = RecentLog.kept kMessageHistory (tr.filterMap bodySampled)
  imu : s.imu = RecentLog.kept kMessageHistory (tr.filterMap imuSampled)
  command : s.command = RecentLog.kept kMessageHistory (tr.filterMap commandSampled)
  target : s.target = RecentLog.kept kMessageHistory (tr.filterMap targetSampled)

theorem appendMessage_kept {μ : Type} {history items items' : List (StampedMessage μ)}
    {sample : StampedMessage μ} (h : history = RecentLog.kept kMessageHistory items)
    (hitems : items' = sample :: items) :
    appendMessage history sample = RecentLog.kept kMessageHistory items' := by
  rw [appendMessage, h, RecentLog.push_kept, hitems]

variable [Scalar α] {s : PolicyNode α} {x : PolicyNodeTransition α} {tr : PolicyNodeHistory α}

theorem queued_step (h : Queued tr s) (input : PolicyNodeInput α) :
    Queued (⟨s, input, (s.step maxInputAgeNs input).2, (s.step maxInputAgeNs input).1⟩ :: tr)
      (s.step maxInputAgeNs input).1 := by
  cases input with
  | bodyState sample =>
    exact { h with body := appendMessage_kept h.body rfl }
  | externalImu sample =>
    exact { h with imu := appendMessage_kept h.imu rfl }
  | thrusterCommand sample =>
    exact { h with command := appendMessage_kept h.command rfl }
  | trajectoryTarget sample =>
    exact { h with target := appendMessage_kept h.target rfl }
  | tick tickNs inference =>
    exact { h with }

theorem queued_of_run (h : (policyMachine α maxInputAgeNs).Run tr s) : Queued tr s := by
  induction h with
  | start => exact ⟨rfl, rfl, rfl, rfl⟩
  | step _ hstep ih =>
    obtain ⟨rfl, rfl⟩ := Prod.mk.inj (Option.some.inj hstep)
    exact queued_step ih _

/-! ### The inputs of a tick -/

/-- The sample a tick takes from the arrivals of a topic, newest first. -/
def sampleAt {μ : Type} (arrivals : List (StampedMessage μ)) (tickNs : ℤ) :
    Option (StampedMessage μ) :=
  (arrivals.take kMessageHistory).find? fun sample => sample.stampNs ≤ tickNs

/-- The message is that of the sample a tick takes, which is recent. -/
def RecentAt {μ : Type} (maxInputAgeNs : ℤ) (arrivals : List (StampedMessage μ)) (tickNs : ℤ)
    (message : μ) : Prop :=
  ∃ sample, sampleAt arrivals tickNs = some sample ∧ tickNs - sample.stampNs ≤ maxInputAgeNs ∧
    sample.message = message

omit [Scalar α] in
/-- The inputs that are there, recent and flagged as usable. -/
structure UsableInputs (maxInputAgeNs : ℤ) (tr : PolicyNodeHistory α) (tickNs : ℤ)
    (inputs : PolicyInputs α) : Prop where
  body : RecentAt maxInputAgeNs (tr.filterMap bodySampled) tickNs inputs.body
  imu : RecentAt maxInputAgeNs (tr.filterMap imuSampled) tickNs inputs.imu
  command : RecentAt maxInputAgeNs (tr.filterMap commandSampled) tickNs inputs.command
  target : RecentAt maxInputAgeNs (tr.filterMap targetSampled) tickNs inputs.target
  localized : inputs.body.stateValid = true ∨ inputs.body.positionEstimated = true
  moving : inputs.body.linearVelocityValid = true
  tracking : inputs.target.valid = true

omit [Scalar α] in
/-- A tick brings no sample. -/
theorem UsableInputs.tick_cons {laterNs : ℤ} {inputs : PolicyInputs α}
    (h : UsableInputs maxInputAgeNs tr laterNs inputs) (hx : x.input = .tick tickNs inference) :
    UsableInputs maxInputAgeNs (x :: tr) laterNs inputs := by
  have hbody : bodySampled x = none := by rw [bodySampled, hx]
  have himu : imuSampled x = none := by rw [imuSampled, hx]
  have hcommand : commandSampled x = none := by rw [commandSampled, hx]
  have htarget : targetSampled x = none := by rw [targetSampled, hx]
  exact
    { h with
      body := by rw [List.filterMap_cons_none hbody]; exact h.body
      imu := by rw [List.filterMap_cons_none himu]; exact h.imu
      command := by rw [List.filterMap_cons_none hcommand]; exact h.command
      target := by rw [List.filterMap_cons_none htarget]; exact h.target }

omit [Scalar α] in
theorem missing_eq_nil_iff (inputs : PolicyInputs α) : inputs.missing = [] ↔
    (inputs.body.stateValid = true ∨ inputs.body.positionEstimated = true) ∧
      inputs.body.linearVelocityValid = true ∧ inputs.target.valid = true := by
  unfold PolicyInputs.missing
  cases inputs.body.stateValid <;> cases inputs.body.positionEstimated <;>
    cases inputs.body.linearVelocityValid <;> cases inputs.target.valid <;> simp

omit [Scalar α] in
theorem latestAt_eq {μ : Type} {history arrivals : List (StampedMessage μ)}
    (h : history = RecentLog.kept kMessageHistory arrivals) :
    latestAt history tickNs = sampleAt arrivals tickNs := by
  rw [latestAt, h, RecentLog.latest?_kept, sampleAt]

omit [Scalar α] in
/-- What `valid_age` asks of a topic. -/
theorem validAge_eq_nil_iff {μ : Type} {sample : Option (StampedMessage μ)} (name : String) :
    validAge maxInputAgeNs sample tickNs name = [] ↔
      ∃ found, sample = some found ∧ tickNs - found.stampNs ≤ maxInputAgeNs := by
  unfold validAge
  cases sample with
  | none => simp
  | some found => simp

omit [Scalar α] in
/-- A tick is ready exactly when each topic has a recent sample. -/
theorem inputs_eq_ready_iff (h : Queued tr s) {inputs : PolicyInputs α} :
    s.inputs maxInputAgeNs tickNs inference = .ready inputs inference ↔
      RecentAt maxInputAgeNs (tr.filterMap bodySampled) tickNs inputs.body ∧
      RecentAt maxInputAgeNs (tr.filterMap imuSampled) tickNs inputs.imu ∧
      RecentAt maxInputAgeNs (tr.filterMap commandSampled) tickNs inputs.command ∧
      RecentAt maxInputAgeNs (tr.filterMap targetSampled) tickNs inputs.target := by
  unfold PolicyNode.inputs RecentAt
  rw [latestAt_eq h.body, latestAt_eq h.imu, latestAt_eq h.command, latestAt_eq h.target]
  constructor
  · intro hready
    dsimp only at hready
    split at hready
    · rename_i body imu command target hmissing hbody himu hcommand htarget
      obtain rfl := (PolicyTick.ready.inj hready).1
      simp only [List.append_eq_nil_iff, validAge_eq_nil_iff, hbody, himu, hcommand, htarget,
        Option.some.injEq, exists_eq_left'] at hmissing
      obtain ⟨⟨⟨hbodyAge, himuAge⟩, hcommandAge⟩, htargetAge⟩ := hmissing
      exact ⟨⟨body, hbody, hbodyAge, rfl⟩, ⟨imu, himu, himuAge, rfl⟩,
        ⟨command, hcommand, hcommandAge, rfl⟩, target, htarget, htargetAge, rfl⟩
    · cases hready
  · obtain ⟨bodyMessage, imuMessage, commandMessage, targetMessage⟩ := inputs
    rintro ⟨⟨body, hbody, hbodyAge, rfl⟩, ⟨imu, himu, himuAge, rfl⟩,
      ⟨command, hcommand, hcommandAge, rfl⟩, target, htarget, htargetAge, rfl⟩
    have hnone {μ : Type} {found : StampedMessage μ} (name : String)
        (hage : tickNs - found.stampNs ≤ maxInputAgeNs) :
        validAge maxInputAgeNs (some found) tickNs name = [] :=
      (validAge_eq_nil_iff name).mpr ⟨found, rfl, hage⟩
    rw [hbody, himu, hcommand, htarget]
    dsimp only
    rw [hnone _ hbodyAge, hnone _ himuAge, hnone _ hcommandAge,
      hnone _ htargetAge]
    rfl

omit [Scalar α] in
theorem inference_of_ready {inputs : PolicyInputs α} {inference' : Except String Unit}
    (h : s.inputs maxInputAgeNs tickNs inference = .ready inputs inference') :
    inference' = inference := by
  unfold PolicyNode.inputs at h
  dsimp only at h
  split at h
  · exact (PolicyTick.ready.inj h).2.symm
  · cases h

omit [Scalar α] in
theorem usableInputs_iff (h : Queued tr s) {inputs : PolicyInputs α} :
    UsableInputs maxInputAgeNs tr tickNs inputs ↔
      s.inputs maxInputAgeNs tickNs inference = .ready inputs inference ∧ inputs.missing = [] := by
  rw [inputs_eq_ready_iff h, missing_eq_nil_iff]
  exact ⟨fun ⟨hbody, himu, hcommand, htarget, hlocalized, hmoving, htracking⟩ =>
      ⟨⟨hbody, himu, hcommand, htarget⟩, hlocalized, hmoving, htracking⟩,
    fun ⟨⟨hbody, himu, hcommand, htarget⟩, hlocalized, hmoving, htracking⟩ =>
      ⟨hbody, himu, hcommand, htarget, hlocalized, hmoving, htracking⟩⟩

/-! ### The frames -/

/-- The frame from which a tick acts, if it does. -/
def actingFrame : PolicyTick α → Option (ObservationFrame α)
  | .ready inputs (.ok ()) =>
    if inputs.missing.isEmpty then (T60PolicyNode.buildFrame inputs).toOption else none
  | _ => none

theorem actingFrame_eq_some_iff {tick : PolicyTick α} {frame : ObservationFrame α} :
    actingFrame tick = some frame ↔ ∃ inputs, tick = .ready inputs (.ok ()) ∧
      inputs.missing = [] ∧ T60PolicyNode.buildFrame inputs = .ok frame := by
  constructor
  · intro h
    unfold actingFrame at h
    split at h
    · rename_i inputs
      obtain ⟨hmissing, hframe⟩ := Option.ite_none_right_eq_some.mp h
      refine ⟨inputs, rfl, List.isEmpty_iff.mp hmissing, ?_⟩
      cases hbuild : T60PolicyNode.buildFrame inputs with
      | error text =>
        rw [hbuild] at hframe
        cases hframe
      | ok frame' =>
        rw [hbuild] at hframe
        exact congrArg _ (Option.some.inj hframe)
    · cases h
  · rintro ⟨inputs, rfl, hmissing, hframe⟩
    rw [actingFrame, hmissing, hframe]
    rfl

omit [Scalar α] in
/-- An output without an observation is none of an acting tick. -/
theorem without_ne (missing : List String) (observation : List α) :
    (⟨none, missing⟩ : PolicyOutput α) ≠ ⟨some observation, []⟩ := by
  intro heq
  cases heq

/-- A tick acts and adds its frame, or it clears the history. -/
theorem tick_cases (node : T60PolicyNode α) (tick : PolicyTick α) :
    (∃ frame, actingFrame tick = some frame ∧
      node.tick tick = (node.pushFront frame.history,
        ⟨some (node.packObservation frame.current), []⟩)) ∨
    (actingFrame tick = none ∧ (node.tick tick).1.history = [] ∧
      ∀ observation, (node.tick tick).2 ≠ ⟨some observation, []⟩) := by
  cases tick with
  | missing names => exact Or.inr ⟨rfl, rfl, without_ne names⟩
  | ready inputs inference =>
    by_cases hmissing : inputs.missing = []
    · have htick : node.tick (.ready inputs inference) = node.infer inputs inference := by
        simp [T60PolicyNode.tick, hmissing]
      rw [htick]
      unfold T60PolicyNode.infer
      cases hbuild : T60PolicyNode.buildFrame inputs with
      | error text =>
        refine Or.inr ⟨?_, rfl, without_ne _⟩
        cases inference with
        | error _ => rfl
        | ok _ => simp [actingFrame, hmissing, hbuild, Except.toOption]
      | ok frame =>
        cases inference with
        | error _ => exact Or.inr ⟨rfl, rfl, fun _ heq => by simp at heq⟩
        | ok _ =>
          exact Or.inl ⟨frame, by simp [actingFrame, hmissing, hbuild, Except.toOption], rfl⟩
    · have htick : node.tick (.ready inputs inference) =
          ({ node with history := [] }, ⟨none, inputs.missing⟩) := by
        simp [T60PolicyNode.tick, hmissing]
      rw [htick]
      refine Or.inr ⟨?_, rfl, without_ne inputs.missing⟩
      cases inference with
      | error _ => rfl
      | ok _ => simp [actingFrame, hmissing]

/-- What a tick adds to the history: the frame from which it acts, or nothing at all. -/
def frameAdded (maxInputAgeNs : ℤ) (x : PolicyNodeTransition α) : Option (Option (List α)) :=
  match x.input with
  | .tick tickNs inference =>
    some ((actingFrame (x.pre.inputs maxInputAgeNs tickNs inference)).map (·.history))
  | _ => none

/-- The frames of the ticks that have acted since the last one that has not, newest first. -/
def framesSince (maxInputAgeNs : ℤ) (tr : PolicyNodeHistory α) : List (List α) :=
  ((tr.filterMap (frameAdded maxInputAgeNs)).takeWhile (·.isSome)).filterMap id

theorem frameAdded_tick (output : Option (PolicyOutput α)) (post : PolicyNode α) :
    frameAdded maxInputAgeNs ⟨s, .tick tickNs inference, output, post⟩ =
      some ((actingFrame (s.inputs maxInputAgeNs tickNs inference)).map (·.history)) := rfl

theorem framesSince_cons (x : PolicyNodeTransition α) (tr : PolicyNodeHistory α) :
    framesSince maxInputAgeNs (x :: tr) =
      match frameAdded maxInputAgeNs x with
      | none => framesSince maxInputAgeNs tr
      | some none => []
      | some (some frame) => frame :: framesSince maxInputAgeNs tr := by
  unfold framesSince
  rw [List.filterMap_cons]
  cases frameAdded maxInputAgeNs x with
  | none => rfl
  | some added => cases added <;> rfl

/-- The history holds the last of these frames. -/
theorem history_of_run (h : (policyMachine α maxInputAgeNs).Run tr s) :
    s.node.history = (framesSince maxInputAgeNs tr).take 8 := by
  induction h with
  | start => rfl
  | @step tr s input s' output _ hstep ih =>
    obtain ⟨rfl, rfl⟩ := Prod.mk.inj (Option.some.inj hstep)
    rw [framesSince_cons]
    cases input with
    | tick tickNs inference =>
      change (s.node.tick (s.inputs maxInputAgeNs tickNs inference)).1.history = _
      rcases tick_cases s.node (s.inputs maxInputAgeNs tickNs inference) with
        ⟨frame, hframe, htick⟩ | ⟨hframe, hhistory, -⟩
      · rw [htick, frameAdded_tick, hframe]
        exact history_pushFront ih frame.history
      · rw [hhistory, frameAdded_tick, hframe]
        rfl
    | _ => exact ih

/-! ### Main result -/

/-- **When the policy acts.**  In every run a tick gives an observation to the actor and publishes
its action exactly when there are usable inputs, a frame can be built from them and the inference
succeeds; the observation is that frame with the frames of the ticks that have acted since. -/
theorem observation_of_run (h : (policyMachine α maxInputAgeNs).Run (x :: tr) s)
    (hx : x.input = .tick tickNs inference) (observation : List α) :
    x.output = some ⟨some observation, []⟩ ↔
      inference = .ok () ∧ ∃ inputs frame, UsableInputs maxInputAgeNs tr tickNs inputs ∧
        T60PolicyNode.buildFrame inputs = .ok frame ∧
        observation = frame.current ++ (historyRows (framesSince maxInputAgeNs tr)).flatten := by
  have hqueued := queued_of_run h.tail
  have hhistory := history_of_run h.tail
  have hstep := Option.some.inj h.head_step
  obtain ⟨pre, input, output, post⟩ := x
  dsimp only at hx hqueued hhistory hstep ⊢
  subst hx
  obtain ⟨-, rfl⟩ := Prod.mk.inj hstep
  change some (pre.node.tick (pre.inputs maxInputAgeNs tickNs inference)).2 = _ ↔ _
  rcases tick_cases pre.node (pre.inputs maxInputAgeNs tickNs inference) with
    ⟨frame, hframe, htick⟩ | ⟨hframe, -, hnot⟩
  · obtain ⟨inputs, hready, hmissing, hbuild⟩ := actingFrame_eq_some_iff.mp hframe
    obtain rfl := inference_of_ready hready
    rw [htick, packObservation_eq hhistory]
    constructor
    · intro heq
      obtain ⟨hobservation, -⟩ := PolicyOutput.mk.inj (Option.some.inj heq)
      exact ⟨rfl, inputs, frame, (usableInputs_iff hqueued).mpr ⟨hready, hmissing⟩, hbuild,
        (Option.some.inj hobservation).symm⟩
    · rintro ⟨-, inputs', frame', husable, hbuild', rfl⟩
      -- the inputs of a tick are unique
      have hready' : pre.inputs maxInputAgeNs tickNs (.ok ()) = .ready inputs' (.ok ()) :=
        ((usableInputs_iff hqueued).mp husable).1
      obtain ⟨rfl, -⟩ := PolicyTick.ready.inj (hready.symm.trans hready')
      obtain rfl := Except.ok.inj (hbuild.symm.trans hbuild')
      rfl
  · constructor
    · exact fun heq => absurd (Option.some.inj heq) (hnot observation)
    · rintro ⟨rfl, inputs, frame, husable, hbuild, -⟩
      have hinputs : pre.inputs maxInputAgeNs tickNs (.ok ()) = .ready inputs (.ok ()) ∧
          inputs.missing = [] := (usableInputs_iff hqueued).mp husable
      have hsome := actingFrame_eq_some_iff.mpr ⟨inputs, hinputs.1, hinputs.2, hbuild⟩
      rw [hframe] at hsome
      cases hsome

section Resting

/-- The inputs arrive. -/
theorem exists_resting : ∃ (tr : PolicyNodeHistory (Extended ℝ)) (s : PolicyNode (Extended ℝ)),
    (policyMachine (Extended ℝ) 0).Run tr s ∧ framesSince 0 tr = [] ∧
      UsableInputs 0 tr 0 (restingInputs Vec.zero) := by
  refine ⟨_, _, ((((Run.start (M := policyMachine (Extended ℝ) 0)).step
    (i := .bodyState ⟨0, (restingInputs Vec.zero).body⟩) rfl).step
    (i := .externalImu ⟨0, (restingInputs Vec.zero).imu⟩) rfl).step
    (i := .thrusterCommand ⟨0, (restingInputs Vec.zero).command⟩) rfl).step
    (i := .trajectoryTarget ⟨0, (restingInputs Vec.zero).target⟩) rfl, rfl, ?_⟩
  exact
    { body := ⟨⟨0, _⟩, rfl, le_rfl, rfl⟩
      imu := ⟨⟨0, _⟩, rfl, le_rfl, rfl⟩
      command := ⟨⟨0, _⟩, rfl, le_rfl, rfl⟩
      target := ⟨⟨0, _⟩, rfl, le_rfl, rfl⟩
      localized := Or.inl rfl
      moving := rfl
      tracking := rfl }

/-- Two ticks act on the inputs, and the second has the frame of the first in its history. -/
theorem observation_of_run_resting :
    ∃ (x y : PolicyNodeTransition (Extended ℝ)) (tr : PolicyNodeHistory (Extended ℝ))
      (s : PolicyNode (Extended ℝ)) (frame : ObservationFrame (Extended ℝ)),
      (policyMachine (Extended ℝ) 0).Run (x :: y :: tr) s ∧
        T60PolicyNode.buildFrame (restingInputs Vec.zero) = .ok frame ∧
        x.output = some ⟨some (frame.current ++ (historyRows [frame.history]).flatten), []⟩ := by
  obtain ⟨tr, s, h, hframes, husable⟩ := exists_resting
  have hfirst := h.step (i := .tick 0 (.ok ())) rfl
  have hsecond := hfirst.step (i := .tick 0 (.ok ())) rfl
  have hdirections (q) (hq : q ∈ (restingInputs Vec.zero).orientations) :
      HasDirection q (1 / 10 ^ 9) := by
    rw [orientations_restingInputs _ q hq]
    exact hasDirection_identity (by norm_num)
  obtain ⟨frame, hframe⟩ := exists_buildFrame hdirections
  refine ⟨_, _, _, _, frame, hsecond, hframe, (observation_of_run hsecond rfl _).mpr
    ⟨rfl, restingInputs Vec.zero, frame, husable.tick_cons rfl, hframe, ?_⟩⟩
  -- the first tick has added its frame
  have hacting := actingFrame_eq_some_iff.mpr ⟨restingInputs Vec.zero,
    ((usableInputs_iff (queued_of_run h)).mp husable).1, rfl, hframe⟩
  rw [framesSince_cons, frameAdded_tick, hacting, hframes]
  rfl

end Resting

end RobotCore
