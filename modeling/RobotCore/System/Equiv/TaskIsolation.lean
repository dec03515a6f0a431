import RobotCore.Runtime.Equiv.Experiment
import RobotCore.Runtime.Equiv.TaskCatalog
import RobotCore.System.TaskParameters

/-!
# What a task leaves to the next one

A task sets the parameters its scenario declares, and leaves the others as the tasks before it have
set them.  The trajectory of a task depends on the task alone exactly when no task of the catalog
sets a parameter that another one leaves (`dependsOnlyOnTask_iff`).
-/

namespace RobotCore

open Machine

/-! ### The parameters of a task -/

/-- The values a task sets. -/
def TrackingTask.declared (task : TrackingTask) : Scenario :=
  task.trajectory.set .controlMode task.controlMode

/-- The parameters after a task has set its own. -/
def TrackingTask.overlay (task : TrackingTask) (p : TrajectoryParameters) : TrajectoryParameters :=
  fun k => (task.declared k).getD (p k)

theorem TrajectoryParameter.mem_all (k : TrajectoryParameter) : k ∈ TrajectoryParameter.all := by
  cases k <;> decide

theorem foldl_settings (scenario : Scenario) (keys : List TrajectoryParameter)
    (p : TrajectoryParameters) (k : TrajectoryParameter) :
    (keys.filterMap fun k => (scenario k).map fun value => (⟨k, value⟩ : ParameterSetting)).foldl
        (fun p setting => Function.update p setting.1 setting.2) p k
      = if k ∈ keys then (scenario k).getD (p k) else p k := by
  induction keys generalizing p with
  | nil => rfl
  | cons k' keys ih =>
    cases hvalue : scenario k' with
    | none =>
      rw [List.filterMap_cons_none (by rw [hvalue]; rfl), ih]
      by_cases hk : k = k'
      · subst hk
        simp [hvalue]
      · simp [hk]
    | some value =>
      rw [List.filterMap_cons_some (by rw [hvalue]; rfl), List.foldl_cons, ih]
      by_cases hk : k = k'
      · subst hk
        simp [hvalue]
      · simp [hk]

/-- The request of a task sets what it declares. -/
theorem configure_scenarioParameters (task : TrackingTask) (p : TrajectoryParameters) :
    configured p [.setParameters (scenarioParameters task)] = task.overlay p := by
  funext k
  exact (foldl_settings task.declared TrajectoryParameter.all p k).trans (if_pos k.mem_all)

/-! ### Progress of a goal -/

/-- The goal has set its parameters, and its trajectory is not reset yet. -/
def isConfigured : ExperimentPc → Bool
  | .configuring _ | .validating _ | .resetting _ _ => true
  | _ => false

/-- Progress that sets no parameters, to where none have just been set. -/
def Unconfigured (progress : Progress) : Prop :=
  isConfigured progress.2 = false ∧ ∀ p, configured p progress.1 = p

section Resume

variable {task : TrackingTask} {node : ExperimentNode} {w : Wakeup} {cancelRequested : Bool}
  {pc : ExperimentPc} {progress : Progress}

theorem unconfigured_refuse (message : String) : Unconfigured (refuse message) :=
  ⟨rfl, fun _ => rfl⟩

theorem unconfigured_disarmRun (ending : RunEnd) : Unconfigured (disarmRun task w ending) := by
  unfold disarmRun setAuthority
  split_ifs <;> exact ⟨rfl, fun _ => rfl⟩

theorem unconfigured_closeRun (ending : RunEnd) : Unconfigured (closeRun task w ending) := by
  unfold closeRun
  split_ifs
  · exact ⟨rfl, fun _ => rfl⟩
  · exact unconfigured_disarmRun ending

theorem unconfigured_failActiveRun (runDir message : String) :
    Unconfigured (failActiveRun task w runDir message) :=
  unconfigured_closeRun _

theorem unconfigured_runLoop (runDir : String) (startedNs nowNs : ℤ) :
    Unconfigured (runLoop task node w cancelRequested runDir startedNs nowNs) := by
  unfold runLoop
  dsimp only
  split_ifs
  · exact unconfigured_closeRun _
  · exact unconfigured_closeRun _
  · exact ⟨rfl, fun _ => rfl⟩
  · exact unconfigured_closeRun _

theorem unconfigured_awaitArmed (runDir : String) (armGenerationBefore : ℕ)
    (deadlineNs nowNs : ℤ) :
    Unconfigured (awaitArmed task node w runDir armGenerationBefore deadlineNs nowNs) := by
  unfold awaitArmed
  dsimp only
  split_ifs
  · exact ⟨rfl, fun _ => rfl⟩
  · exact ⟨rfl, fun _ => rfl⟩
  · exact unconfigured_failActiveRun _ _

theorem unconfigured_awaitReady (runDir : String) (wait : ReadyWait) (nowNs : ℤ) :
    Unconfigured (awaitReady task node w runDir wait nowNs) := by
  unfold awaitReady requestArming setAuthority
  dsimp only
  split_ifs
  · exact ⟨rfl, fun _ => rfl⟩
  · exact unconfigured_failActiveRun _ _
  · exact ⟨rfl, fun _ => rfl⟩
  · exact unconfigured_failActiveRun _ _

theorem unconfigured_disarmUnstarted (message : String) :
    Unconfigured (disarmUnstarted task w message) := by
  unfold disarmUnstarted setAuthority
  split_ifs
  · exact ⟨rfl, fun _ => rfl⟩
  · exact unconfigured_refuse message

theorem unconfigured_awaitDisarmed (deadlineNs nowNs : ℤ) :
    Unconfigured (awaitDisarmed task node w deadlineNs nowNs) := by
  unfold awaitDisarmed requestRun
  dsimp only
  split_ifs
  · exact ⟨rfl, fun _ => rfl⟩
  · exact unconfigured_disarmUnstarted _
  · exact ⟨rfl, fun _ => rfl⟩
  · exact unconfigured_refuse _

theorem unconfigured_requestSelection : Unconfigured (requestSelection task w) := by
  unfold requestSelection setAuthority
  split_ifs
  · exact ⟨rfl, fun _ => rfl⟩
  · exact unconfigured_refuse _

theorem unconfigured_beginExecution : Unconfigured (beginExecution task node w) := by
  unfold beginExecution setAuthority
  split_ifs
  · exact unconfigured_refuse _
  · exact ⟨rfl, fun _ => rfl⟩
  · exact unconfigured_refuse _

/-- A goal that goes on sets its parameters, keeps those it has set, or sets none. -/
theorem configured_of_resume (hresume : resume task node w cancelRequested pc = some progress)
    (p : TrajectoryParameters) :
    configured p progress.1 = task.overlay p ∨
      configured p progress.1 = p ∧ (isConfigured progress.2 = true → isConfigured pc = true) := by
  have hnone {progress : Progress} (h : Unconfigured progress) :
      configured p progress.1 = task.overlay p ∨
        configured p progress.1 = p ∧ (isConfigured progress.2 = true → isConfigured pc = true) :=
    Or.inr ⟨h.2 p, fun hpc => absurd hpc (by rw [h.1]; exact Bool.false_ne_true)⟩
  unfold resume at hresume
  split at hresume <;> cases hresume
  -- before the run
  case h_1 => exact hnone unconfigured_beginExecution
  case h_2 =>
    split_ifs
    · exact hnone unconfigured_requestSelection
    · exact hnone (unconfigured_refuse _)
  case h_3 =>
    split_ifs
    · exact hnone (unconfigured_awaitDisarmed _ _)
    · exact hnone (unconfigured_refuse _)
  case h_4 => exact hnone (unconfigured_awaitDisarmed _ _)
  case h_5 => exact hnone (unconfigured_refuse _)
  -- the run is open: the parameters of the task are sent, or nothing
  case h_6 =>
    split_ifs
    · unfold configure
      split_ifs
      · exact Or.inl (configure_scenarioParameters task p)
      · exact hnone (unconfigured_failActiveRun _ _)
    · exact hnone (unconfigured_disarmUnstarted _)
  -- the answers to the calls about the trajectory
  case h_7 =>
    split_ifs
    · exact hnone (unconfigured_failActiveRun _ _)
    · exact Or.inr ⟨rfl, fun _ => rfl⟩
    · exact hnone (unconfigured_failActiveRun _ _)
  case h_8 =>
    split_ifs
    · exact hnone (unconfigured_failActiveRun _ _)
    · exact Or.inr ⟨rfl, fun _ => rfl⟩
    · exact hnone (unconfigured_failActiveRun _ _)
  case h_9 =>
    split_ifs
    · exact hnone (unconfigured_awaitReady _ _ _)
    · exact hnone (unconfigured_failActiveRun _ _)
  case h_10 => exact hnone (unconfigured_awaitReady _ _ _)
  -- armed, and back again
  case h_11 =>
    split_ifs
    · exact hnone (unconfigured_awaitArmed _ _ _ _)
    · exact hnone (unconfigured_failActiveRun _ _)
  case h_12 => exact hnone (unconfigured_awaitArmed _ _ _ _)
  case h_13 =>
    split_ifs
    · exact hnone (unconfigured_runLoop _ _ _)
    · exact hnone (unconfigured_failActiveRun _ _)
  case h_14 => exact hnone (unconfigured_runLoop _ _ _)
  case h_15 => exact hnone (unconfigured_disarmRun _)
  case h_16 => exact hnone ⟨rfl, fun _ => rfl⟩
  case h_17 ending _ _ =>
    refine hnone ⟨rfl, fun p => ?_⟩
    unfold finishRun
    dsimp only
    split_ifs <;> rfl

end Resume

/-! ### Steps -/

section Steps

variable {catalog : TaskCatalog} {requests : ℕ → String} {p₀ : TrajectoryParameters}
  {tr : History TaskSystem (ExperimentInput ℕ) (List ExperimentEvent)} {s s' : TaskSystem}
  {input : ExperimentInput ℕ} {events : List ExperimentEvent}

/-- Everything a goal does when it is resumed. -/
structure Resumes (catalog : TaskCatalog) (requests : ℕ → String) (i : ℕ) (w : Wakeup)
    (s s' : TaskSystem) (events : List ExperimentEvent) : Prop where
  active : s.active.all (· == i) = true
  resume : resumeGoal (catalog.task (requests i)) s.server.node (s.server.goals i) w
    = some (events, (s'.server.goals i).pc)
  others : ∀ j ≠ i, (s'.server.goals j).pc = (s.server.goals j).pc
  parameters : s'.parameters = configured s.parameters events
  next : s'.active = if (s'.server.goals i).pc.isIdle then none else some i

/-- A step resumes a goal, or leaves the goals and the parameters as they are. -/
theorem taskStep_cases (h : taskStep catalog requests s input = some (s', events)) :
    ((∀ i, (s'.server.goals i).pc = (s.server.goals i).pc) ∧ s'.parameters = s.parameters ∧
        s'.active = s.active ∧ ∀ i, Bystands i input) ∨
      ∃ i w, input = .resume i w ∧ Resumes catalog requests i w s s' events := by
  unfold taskStep at h
  split_ifs at h with hadmits
  obtain ⟨⟨server, events'⟩, hstep, heq⟩ := Option.map_eq_some_iff.mp h
  cases heq
  cases input with
  | receive message =>
    cases hstep
    exact Or.inl ⟨fun _ => rfl, rfl, rfl, fun _ => nofun⟩
  | cancel j =>
    have hpc (i : ℕ) := (step_of_goal i hstep).resolve_right (by rintro ⟨w, heq, -⟩; cases heq)
    cases hstep
    exact Or.inl ⟨fun i => (hpc i).1, rfl, rfl, fun _ => nofun⟩
  | resume i w =>
    refine Or.inr ⟨i, w, rfl, hadmits, ?_, fun j hj => ?_, rfl, rfl⟩
    · rcases step_of_goal i hstep with ⟨-, hother⟩ | ⟨w', heq, hresume⟩
      · exact absurd rfl (hother w)
      · cases heq
        exact hresume
    · rcases step_of_goal j hstep with ⟨hpc, -⟩ | ⟨w', heq, -⟩
      · exact hpc
      · cases heq
        exact absurd rfl hj

/-- What a goal that is resumed does to the parameters. -/
theorem Resumes.configured {i : ℕ} {w : Wakeup} (h : Resumes catalog requests i w s s' events) :
    (∃ task, catalog.task (requests i) = .ok task ∧
        s'.parameters = task.overlay s.parameters) ∨
      s'.parameters = s.parameters ∧
        (isConfigured (s'.server.goals i).pc = true →
          isConfigured (s.server.goals i).pc = true) := by
  have hresume := h.resume
  rw [h.parameters]
  cases htask : catalog.task (requests i) with
  | error reason =>
    rw [htask] at hresume
    unfold resumeGoal at hresume
    dsimp only at hresume
    split at hresume
    · obtain ⟨rfl, hpc⟩ := Prod.mk.inj (Option.some.inj hresume)
      rw [← hpc]
      exact Or.inr ⟨rfl, nofun⟩
    · cases hresume
  | ok task =>
    rw [htask] at hresume
    rcases configured_of_resume hresume s.parameters with hset | hkept
    · exact Or.inl ⟨task, rfl, hset⟩
    · exact Or.inr hkept

/-! ### Runs -/

/-- A value a parameter has at the start or some task gives it. -/
def Attainable (catalog : TaskCatalog) (p₀ : TrajectoryParameters) (k : TrajectoryParameter)
    (value : k.type.Value) : Prop :=
  value = p₀ k ∨ ∃ u task, catalog.task u = .ok task ∧ task.declared k = some value

/-- Only the active goal is not idle, every parameter has a value it can have, and those of a goal
that has set its parameters are its own. -/
structure TaskInvariant (catalog : TaskCatalog) (requests : ℕ → String) (p₀ : TrajectoryParameters)
    (s : TaskSystem) : Prop where
  idle : ∀ i, s.active ≠ some i → (s.server.goals i).pc.isIdle = true
  attainable : ∀ k, Attainable catalog p₀ k (s.parameters k)
  own : ∀ i task, catalog.task (requests i) = .ok task →
    isConfigured (s.server.goals i).pc = true →
      ∀ k value, task.declared k = some value → s.parameters k = value

theorem not_isConfigured_of_isIdle {pc : ExperimentPc} (h : pc.isIdle = true) :
    isConfigured pc = false := by
  cases pc <;> first | rfl | cases h

theorem overlay_of_declared {task : TrackingTask} {k : TrajectoryParameter} {value : k.type.Value}
    (h : task.declared k = some value) (p : TrajectoryParameters) : task.overlay p k = value := by
  unfold TrackingTask.overlay
  rw [h, Option.getD_some]

theorem attainable_overlay {u : String} {task : TrackingTask} (htask : catalog.task u = .ok task)
    {p : TrajectoryParameters} (h : ∀ k, Attainable catalog p₀ k (p k)) (k : TrajectoryParameter) :
    Attainable catalog p₀ k (task.overlay p k) := by
  cases hvalue : task.declared k with
  | none =>
    unfold TrackingTask.overlay
    rw [hvalue]
    exact h k
  | some value =>
    rw [overlay_of_declared hvalue]
    exact Or.inr ⟨u, task, htask, hvalue⟩

theorem TaskInvariant.resumes {i : ℕ} {w : Wakeup} (hinv : TaskInvariant catalog requests p₀ s)
    (h : Resumes catalog requests i w s s' events) : TaskInvariant catalog requests p₀ s' := by
  have hidle (j : ℕ) (hj : j ≠ i) : (s.server.goals j).pc.isIdle = true := by
    refine hinv.idle j fun hactive => hj ?_
    have := h.active
    rw [hactive] at this
    exact beq_iff_eq.mp this
  refine ⟨fun j hj => ?_, fun k => ?_, fun j task htask hpc k value hvalue => ?_⟩
  · by_cases hij : j = i
    · subst hij
      by_contra hbusy
      rw [h.next, if_neg hbusy] at hj
      exact hj rfl
    · rw [h.others j hij]
      exact hidle j hij
  · rcases h.configured with ⟨task, htask, hset⟩ | ⟨hkept, -⟩
    · rw [hset]
      exact attainable_overlay htask hinv.attainable k
    · rw [hkept]
      exact hinv.attainable k
  · by_cases hij : j = i
    · subst hij
      rcases h.configured with ⟨task', htask', hset⟩ | ⟨hkept, hback⟩
      · obtain rfl : task = task' := Except.ok.inj (htask.symm.trans htask')
        rw [hset]
        exact overlay_of_declared hvalue _
      · rw [hkept]
        exact hinv.own j task htask (hback hpc) k value hvalue
    · rw [h.others j hij, not_isConfigured_of_isIdle (hidle j hij)] at hpc
      cases hpc

theorem taskInvariant_init : TaskInvariant catalog requests p₀ { parameters := p₀ } :=
  ⟨fun _ _ => rfl, fun _ => Or.inl rfl, fun _ _ _ h => absurd h Bool.false_ne_true⟩

theorem taskInvariant_of_run (hrun : (taskMachine catalog requests p₀).Run tr s) :
    TaskInvariant catalog requests p₀ s := by
  refine hrun.invariant (I := fun _ s => TaskInvariant catalog requests p₀ s)
    taskInvariant_init ?_
  rintro tr s input s' events - hinv hstep
  rcases taskStep_cases hstep with ⟨hpc, hparameters, hactive, -⟩ | ⟨i, w, -, hresumes⟩
  · refine ⟨fun i hi => ?_, fun k => ?_, fun i task htask hconfigured k value hvalue => ?_⟩
    · rw [hpc i]
      exact hinv.idle i (hactive ▸ hi)
    · rw [hparameters]
      exact hinv.attainable k
    · rw [hpc i] at hconfigured
      rw [hparameters]
      exact hinv.own i task htask hconfigured k value hvalue
  · exact hinv.resumes hresumes

/-! ### Parameters at a reset -/

/-- The trajectory of a goal with this task is reset. -/
def ResetsTask (requests : ℕ → String) (t : String) (x : TaskTransition) : Prop :=
  ∃ i w runDir targets message, x.input = .resume i w ∧ requests i = t ∧
    (x.pre.server.goals i).pc = .resetting runDir targets ∧ w.reply = .trigger true message

/-- The parameters of the node when the trajectory of a task is reset, after some history. -/
def ParametersAtReset (catalog : TaskCatalog) (p₀ : TrajectoryParameters) (t : String)
    (p : TrajectoryParameters) : Prop :=
  ∃ requests x tr s, (taskMachine catalog requests p₀).Run (x :: tr) s ∧
    ResetsTask requests t x ∧ s.parameters = p

/-- The parameters at a reset do not depend on the tasks executed before. -/
def DependsOnlyOnTask (catalog : TaskCatalog) (p₀ : TrajectoryParameters) : Prop :=
  ∀ t p p', ParametersAtReset catalog p₀ t p → ParametersAtReset catalog p₀ t p' → p = p'

/-- No task gives a parameter that another task leaves a value other than its initial one. -/
def LeavesDefaults (catalog : TaskCatalog) (p₀ : TrajectoryParameters) : Prop :=
  ∀ t task, catalog.task t = .ok task → ∀ k, task.declared k = none →
    ∀ u other, catalog.task u = .ok other → ∀ value, other.declared k = some value → value = p₀ k

/-- The parameters at a reset: those of the task, and others that are attainable. -/
theorem parameters_at_reset {x : TaskTransition} {t : String}
    (hrun : (taskMachine catalog requests p₀).Run (x :: tr) s) (hreset : ResetsTask requests t x) :
    ∃ task, catalog.task t = .ok task ∧
      (∀ k value, task.declared k = some value → s.parameters k = value) ∧
        ∀ k, Attainable catalog p₀ k (s.parameters k) := by
  have hinv := taskInvariant_of_run hrun.tail
  have hattainable := (taskInvariant_of_run hrun).attainable
  obtain ⟨i, w, runDir, targets, message, hinput, rfl, hpc, hreply⟩ := hreset
  have hstep := hrun.head_step
  rw [hrun.head_post] at hstep
  rcases taskStep_cases hstep with ⟨-, -, -, hother⟩ | ⟨j, w', heq, hresumes⟩
  · exact absurd hinput (hother i w)
  obtain ⟨rfl, rfl⟩ := ExperimentInput.resume.inj (hinput.symm.trans heq)
  have hresume := hresumes.resume
  cases htask : catalog.task (requests i) with
  | error reason =>
    rw [htask] at hresume
    unfold resumeGoal at hresume
    rw [hpc] at hresume
    cases hresume
  | ok task =>
    refine ⟨task, rfl, fun k value hvalue => ?_, hattainable⟩
    rcases hresumes.configured with ⟨task', htask', hset⟩ | ⟨hkept, -⟩
    · obtain rfl : task = task' := Except.ok.inj (htask.symm.trans htask')
      rw [hset]
      exact overlay_of_declared hvalue _
    · rw [hkept]
      exact hinv.own i task htask (by rw [hpc]; rfl) k value hvalue

theorem dependsOnlyOnTask_of_leavesDefaults (h : LeavesDefaults catalog p₀) :
    DependsOnlyOnTask catalog p₀ := by
  rintro t p p' ⟨requests, x, tr, s, hrun, hreset, rfl⟩
    ⟨requests', x', tr', s', hrun', hreset', rfl⟩
  obtain ⟨task, htask, hown, hattainable⟩ := parameters_at_reset hrun hreset
  obtain ⟨task', htask', hown', hattainable'⟩ := parameters_at_reset hrun' hreset'
  obtain rfl : task = task' := Except.ok.inj (htask.symm.trans htask')
  funext k
  cases hvalue : task.declared k with
  | some value => rw [hown k value hvalue, hown' k value hvalue]
  | none =>
    -- neither history has left a value other than the initial one
    have hinitial {value : k.type.Value} (hv : Attainable catalog p₀ k value) : value = p₀ k := by
      rcases hv with rfl | ⟨u, other, hother, hdeclared⟩
      · rfl
      · exact h t task htask k hvalue u other hother value hdeclared
    rw [hinitial (hattainable k), hinitial (hattainable' k)]

end Steps

/-! ### Histories -/

section Histories

variable {catalog : TaskCatalog} {requests : ℕ → String} {p₀ : TrajectoryParameters}

/-- A run leads to where the goals before `i` are done and `i` stands at `pc`. -/
def Stands (catalog : TaskCatalog) (requests : ℕ → String) (p₀ : TrajectoryParameters) (i : ℕ)
    (pc : ExperimentPc) (node : ExperimentNode) (p : TrajectoryParameters) : Prop :=
  ∃ tr s, (taskMachine catalog requests p₀).Run tr s ∧ s.server.node = node ∧
    (s.server.goals i).pc = pc ∧ s.parameters = p ∧
      s.active = (if pc.isIdle then none else some i) ∧ ∀ j, i < j → (s.server.goals j).pc = .start

variable {i : ℕ} {pc pc' : ExperimentPc} {node : ExperimentNode} {p : TrajectoryParameters}
  {task : TrackingTask} {w : Wakeup} {events : List ExperimentEvent}

theorem stands_start : Stands catalog requests p₀ 0 .start {} p₀ :=
  ⟨[], _, .start, rfl, rfl, rfl, rfl, fun _ _ => rfl⟩

theorem Stands.receive (h : Stands catalog requests p₀ i pc node p) (message : ExperimentMessage) :
    Stands catalog requests p₀ i pc (node.receive message) p := by
  obtain ⟨tr, s, hrun, rfl, hpc, hp, hactive, hlater⟩ := h
  have hstep : (taskMachine catalog requests p₀).step s (.receive message)
      = some ({ s with server := { s.server with node := s.server.node.receive message } }, []) :=
    rfl
  exact ⟨_, _, .step hrun hstep, rfl, hpc, hp, hactive, hlater⟩

/-- A goal that can be resumed is. -/
theorem step_of_stands {s : TaskSystem} (hpc : (s.server.goals i).pc = pc)
    (hactive : s.active = if pc.isIdle then none else some i)
    (htask : catalog.task (requests i) = .ok task)
    (hresume : ∀ cancelRequested,
      resume task s.server.node w cancelRequested pc = some (events, pc')) :
    ∃ s', taskStep catalog requests s (.resume i w) = some (s', events) ∧
      s'.server.node = s.server.node ∧ (s'.server.goals i).pc = pc' ∧
        s'.parameters = configured s.parameters events ∧
          s'.active = (if pc'.isIdle then none else some i) ∧
            ∀ j, i < j → (s'.server.goals j).pc = (s.server.goals j).pc := by
  have hgoal : resumeGoal (catalog.task (requests i)) s.server.node (s.server.goals i) w
      = some (events, pc') := by
    rw [htask]
    unfold resumeGoal
    dsimp only
    rw [hpc]
    exact hresume _
  have hadmits : s.admits (.resume i w) = true := by
    unfold TaskSystem.admits
    dsimp only
    rw [hactive]
    split_ifs <;> simp
  let server : ExperimentServer ℕ :=
    { s.server with
      goals := Function.update s.server.goals i { s.server.goals i with pc := pc' } }
  refine ⟨{ server, parameters := configured s.parameters events,
            active := nextActive s server (.resume i w) }, ?_, rfl, ?_, rfl, ?_, fun j hj => ?_⟩
  · unfold taskStep experimentStep
    rw [if_pos hadmits]
    dsimp only
    rw [hgoal]
    rfl
  · simp [server]
  · simp [nextActive, server]
  · simp [server, Function.update_of_ne (Nat.ne_of_gt hj)]

theorem Stands.resume (h : Stands catalog requests p₀ i pc node p)
    (htask : catalog.task (requests i) = .ok task)
    (hresume : ∀ cancelRequested, resume task node w cancelRequested pc = some (events, pc')) :
    Stands catalog requests p₀ i pc' node (configured p events) := by
  obtain ⟨tr, s, hrun, rfl, hpc, rfl, hactive, hlater⟩ := h
  obtain ⟨s', hstep, hnode, hpc', hp, hactive', hothers⟩ :=
    step_of_stands hpc hactive htask hresume
  exact ⟨_, s', .step hrun hstep, hnode, hpc', hp, hactive', fun j hj =>
    (hothers j hj).trans (hlater j hj)⟩

/-- The next goal. -/
theorem Stands.next {result : ExperimentResult}
    (h : Stands catalog requests p₀ i (.done result) node p) :
    Stands catalog requests p₀ (i + 1) .start node p := by
  obtain ⟨tr, s, hrun, hnode, -, hp, hactive, hlater⟩ := h
  exact ⟨tr, s, hrun, hnode, hlater _ (Nat.lt_succ_self i), hp, hactive, fun j hj =>
    hlater j (Nat.lt_of_succ_lt hj)⟩

/-- A goal sets its parameters and asks for a reset. -/
theorem Stands.prepared (h : Stands catalog requests p₀ i .start node p)
    (htask : catalog.task (requests i) = .ok task) :
    ∃ node, Stands catalog requests p₀ i (.resetting "" node.trajectoryTargetSequence) node
      (task.overlay p) := by
  have hbegun := (h.receive (.authority ⟨false, false, task.controller.name, 0⟩)).resume htask
    (w := wakeAt 0 .begin) fun _ => rfl
  have hneutral := hbegun.resume htask (w := wakeAt 0 (.authority true false "disarmed"))
    fun _ => rfl
  have hconfirmed (cancelRequested : Bool) :
      RobotCore.resume task (node.receive (.authority ⟨false, false, task.controller.name, 0⟩))
          (wakeAt 0 (.authority true false "disarmed")) cancelRequested .selecting
        = some ([.startRun task.name task.controller.name task.durationS], .startingRun) := by
    simp [RobotCore.resume, wakeAt, awaitDisarmed, requestRun, halfSecondNs,
      ExperimentNode.receive]
  have hselected := hneutral.resume htask hconfirmed
  have hstarted := hselected.resume htask (w := wakeAt 0 (.startRun true "" "started"))
    fun _ => rfl
  have hconfigured := hstarted.resume htask (w := wakeAt 0 (.parameters [])) fun _ => rfl
  have hvalidated := hconfigured.resume htask (w := wakeAt 0 (.trigger true "")) fun _ => rfl
  rw [← configure_scenarioParameters task p]
  exact ⟨_, hvalidated⟩

/-- A goal whose reset fails is done. -/
theorem Stands.failed {runDir : String} {targets : ℕ}
    (h : Stands catalog requests p₀ i (.resetting runDir targets) node p)
    (htask : catalog.task (requests i) = .ok task) :
    ∃ result, Stands catalog requests p₀ i (.done result) node p := by
  have hfailed := h.resume htask (w := wakeAt 0 (.trigger false "")) fun _ => rfl
  have hstopped := hfailed.resume htask (w := wakeAt 0 (.trigger true "")) fun _ => rfl
  have hdisarmed := hstopped.resume htask (w := wakeAt 0 (.authority true false "disarmed"))
    fun _ => rfl
  exact ⟨_, hdisarmed.resume htask (w := wakeAt 0 .stopRun) fun _ => rfl⟩

/-- The trajectory of a goal is reset. -/
theorem Stands.reset {runDir : String} {targets : ℕ}
    (h : Stands catalog requests p₀ i (.resetting runDir targets) node p)
    (htask : catalog.task (requests i) = .ok task) :
    ParametersAtReset catalog p₀ (requests i) p := by
  obtain ⟨tr, s, hrun, rfl, hpc, rfl, hactive, -⟩ := h
  let progress := awaitReady task s.server.node (wakeAt 0 (.trigger true "")) runDir
    { targetSequenceBeforeReset := targets, deadlineNs := oneSecondNs } 0
  have hresume (cancelRequested : Bool) :
      RobotCore.resume task s.server.node (wakeAt 0 (.trigger true "")) cancelRequested
        (.resetting runDir targets) = some (progress.1, progress.2) := rfl
  obtain ⟨s', hstep, -, -, hp, -, -⟩ := step_of_stands hpc hactive htask hresume
  exact ⟨requests, _, tr, s', .step hrun hstep,
    ⟨i, _, runDir, targets, "", rfl, rfl, hpc, rfl⟩,
    hp.trans ((unconfigured_awaitReady _ _ _).2 _)⟩

/-- A task alone, and after another one. -/
theorem parametersAtReset_alone {t : String} (htask : catalog.task t = .ok task) :
    ParametersAtReset catalog p₀ t (task.overlay p₀) := by
  have hstart : Stands catalog (fun _ => t) p₀ 0 .start {} p₀ := stands_start
  obtain ⟨node, h⟩ := hstart.prepared htask
  exact h.reset htask

theorem parametersAtReset_after {t u : String} {other : TrackingTask}
    (htask : catalog.task t = .ok task) (hother : catalog.task u = .ok other) :
    ParametersAtReset catalog p₀ t (task.overlay (other.overlay p₀)) := by
  let requests : ℕ → String := fun i => if i = 0 then u else t
  have hstart : Stands catalog requests p₀ 0 .start {} p₀ := stands_start
  obtain ⟨node, hfirst⟩ := hstart.prepared hother
  obtain ⟨result, hdone⟩ := hfirst.failed hother
  obtain ⟨node', hsecond⟩ := hdone.next.prepared htask
  exact hsecond.reset htask

theorem leavesDefaults_of_dependsOnlyOnTask (h : DependsOnlyOnTask catalog p₀) :
    LeavesDefaults catalog p₀ := by
  intro t task htask k hk u other hother value hvalue
  have heq := congrFun (h t _ _ (parametersAtReset_alone htask)
    (parametersAtReset_after htask hother)) k
  simp only [TrackingTask.overlay, hk, hvalue, Option.getD_none, Option.getD_some] at heq
  exact heq.symm

end Histories

/-- **Tasks and parameters.**  The parameters with which the trajectory of a task is reset depend on
the task alone, whatever was executed before it, if and only if no task of the catalog gives a
parameter that another one leaves a value other than its initial one. -/
theorem dependsOnlyOnTask_iff (catalog : TaskCatalog) (p₀ : TrajectoryParameters) :
    DependsOnlyOnTask catalog p₀ ↔ LeavesDefaults catalog p₀ :=
  ⟨leavesDefaults_of_dependsOnlyOnTask, dependsOnlyOnTask_of_leavesDefaults⟩

/-! ### Two circles -/

/-- Two circles, one of which declares its radius. -/
def circlesDocument : List (Yaml × Yaml) :=
  [(.string "schema_version", .int 1),
    (.string "defaults", .mapping
      [(.string "duration_s", .int 60), (.string "run_until_stopped", .bool false)]),
    (.string "scenarios", .mapping
      [(.string "wide", .mapping
          [(.string "trajectory_type", .string "circle"),
            (.string "attitude_mode", .string "path_tangent"), (.string "radius_m", .int 2)]),
        (.string "plain", .mapping
          [(.string "trajectory_type", .string "circle"),
            (.string "attitude_mode", .string "path_tangent")])]),
    (.string "tasks", .mapping
      [(.string "wide", .mapping
          [(.string "label", .string "wide"), (.string "scenario", .string "wide"),
            (.string "control_mode", .string "station_hold")]),
        (.string "plain", .mapping
          [(.string "label", .string "plain"), (.string "scenario", .string "plain"),
            (.string "control_mode", .string "station_hold")])])]

/-- The radius of a task of a catalog. -/
def radiusIs (radius : Option TrajectoryParameter.radiusM.type.Value) (t : String)
    (catalog : TaskCatalog) : Bool :=
  (catalog.task t).toOption.any fun task => decide (task.declared .radiusM = radius)

theorem declared_of_radiusIs {radius : Option TrajectoryParameter.radiusM.type.Value} {t : String}
    {catalog : TaskCatalog} (h : radiusIs radius t catalog = true) :
    ∃ task, catalog.task t = .ok task ∧ task.declared .radiusM = radius := by
  obtain ⟨task, htask, hradius⟩ := exists_ok_of_any h
  exact ⟨task, htask, of_decide_eq_true hradius⟩

/-- Two metres. -/
def wideRadius : TrajectoryParameter.radiusM.type.Value := Ieee.Number.ofRat Ieee.binary64 2

/-- The second circle has the radius of the first one when it follows it. -/
theorem circle_keeps_radius :
    ∃ catalog, TaskCatalog.load plainRepr circlesDocument = .ok catalog ∧
      ¬ DependsOnlyOnTask catalog declaredParameters := by
  have hcheck : (TaskCatalog.load plainRepr circlesDocument).toOption.any (fun catalog =>
      radiusIs none "plain" catalog && radiusIs (some wideRadius) "wide" catalog) = true := by
    decide +kernel
  obtain ⟨catalog, hload, hradius⟩ := exists_ok_of_any hcheck
  rw [Bool.and_eq_true] at hradius
  obtain ⟨plain, hplain, hnone⟩ := declared_of_radiusIs hradius.1
  obtain ⟨wide, hwide, hsome⟩ := declared_of_radiusIs hradius.2
  refine ⟨catalog, hload, fun h => ?_⟩
  have hradius := leavesDefaults_of_dependsOnlyOnTask h "plain" plain hplain .radiusM hnone "wide"
    wide hwide wideRadius hsome
  exact absurd hradius (by decide +kernel)

end RobotCore
