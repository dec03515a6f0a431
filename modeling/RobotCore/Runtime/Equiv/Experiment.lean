import RobotCore.Runtime.Experiment

/-!
# A managed experiment ends disarmed

`GoalOk` says what a goal has done by the time it stands where it stands.  Every part of `execute`
keeps it (`goalOk_resume`), so that a goal that is done has stopped the trajectory and disarmed its
controller after its last request to arm, has stopped the run it started, and has told the client
once how it ended (`experiment_ends_disarmed`).
-/

namespace RobotCore

open Machine

/-! ### What a goal has done -/

namespace ExperimentEvent

/-- A request to arm. -/
def isArm : ExperimentEvent → Bool
  | setAuthority _ arm => arm
  | _ => false

def isStopRun : ExperimentEvent → Bool
  | stopRun _ _ => true
  | _ => false

def isTerminal : ExperimentEvent → Bool
  | terminal _ => true
  | _ => false

end ExperimentEvent

def ArmFree (events : List ExperimentEvent) : Prop := ∀ event ∈ events, event.isArm = false

/-- Whatever is asked to arm is the controller of the task. -/
def ArmsOwn (task : TrackingTask) (events : List ExperimentEvent) : Prop :=
  ∀ event ∈ events, event.isArm = true → event = .setAuthority task.controller.name true

/-- The trajectory was stopped, and nothing was armed since. -/
def Stopped (events : List ExperimentEvent) : Prop :=
  ∃ before sent after, events = before ++ .stopTrajectory sent :: after ∧ ArmFree after

/-- The trajectory was stopped and then the controller disarmed, and nothing was armed since. -/
def Disarmed (task : TrackingTask) (events : List ExperimentEvent) : Prop :=
  ∃ before sent between after,
    events = before ++ .stopTrajectory sent :: between ++
        .setAuthority task.controller.name false :: after ∧
      ArmFree between ∧ ArmFree after

def stopRuns (events : List ExperimentEvent) : ℕ := events.countP ExperimentEvent.isStopRun

def terminals (events : List ExperimentEvent) : ℕ := events.countP ExperimentEvent.isTerminal

/-- What a goal has done of its run and told the client. -/
def Counted (events : List ExperimentEvent) (stopped told : ℕ) : Prop :=
  stopRuns events = stopped ∧ terminals events = told

/-- What the client has been told before a run is closed: that the goal is canceled. -/
def RunEnd.told (ending : RunEnd) : ℕ := if ending.canceled then 1 else 0

/-- A canceled run has not succeeded. -/
def RunEnd.Consistent (ending : RunEnd) : Prop := ending.canceled = true → ending.success = false

/-- What a goal has done, and the number of the runs it has started, by where it stands. -/
def GoalOk (task : TrackingTask) (pc : ExperimentPc) (events : List ExperimentEvent) (started : ℕ) :
    Prop :=
  match pc with
  | .start | .neutralizing | .selecting | .waitingDisarmed _ | .disarmingUnstarted _
  | .startingRun => ArmFree events ∧ Counted events 0 0 ∧ started = 0
  | .configuring _ | .validating _ | .resetting _ _ | .waitingReady _ _ =>
    ArmFree events ∧ Counted events 0 0 ∧ started = 1
  | .arming _ _ | .waitingArmed _ _ _ | .startingOfficially _ | .running _ _ =>
    Counted events 0 0 ∧ started = 1
  | .stoppingTrajectory ending =>
    Stopped events ∧ Counted events 0 ending.told ∧ started = 1 ∧ ending.Consistent
  | .disarming ending =>
    Disarmed task events ∧ Counted events 0 ending.told ∧ started = 1 ∧ ending.Consistent
  | .stoppingRun ending =>
    Disarmed task events ∧ Counted events 1 ending.told ∧ started = 1 ∧ ending.Consistent
  | .done _ => (ArmFree events ∨ Disarmed task events) ∧ Counted events started 1 ∧ started ≤ 1

/-! ### Lists of events -/

section Events

variable {task : TrackingTask} {events new : List ExperimentEvent} {stopped told : ℕ}

theorem armFree_nil : ArmFree [] := List.forall_mem_nil _

theorem armFree_singleton {event : ExperimentEvent} (h : event.isArm = false) : ArmFree [event] :=
  List.forall_mem_singleton.mpr h

theorem ArmFree.append (h : ArmFree events) (hnew : ArmFree new) : ArmFree (events ++ new) :=
  List.forall_mem_append.mpr ⟨h, hnew⟩

theorem Counted.append (h : Counted events stopped told) :
    Counted (events ++ new) (stopped + stopRuns new) (told + terminals new) := by
  obtain ⟨hstopped, htold⟩ := h
  constructor
  · rw [stopRuns, List.countP_append]
    exact congrArg (· + _) hstopped
  · rw [terminals, List.countP_append]
    exact congrArg (· + _) htold

theorem Stopped.of_append (events : List ExperimentEvent) (sent : Bool) (hnew : ArmFree new) :
    Stopped (events ++ .stopTrajectory sent :: new) :=
  ⟨events, sent, new, rfl, hnew⟩

theorem Stopped.disarmed (h : Stopped events) :
    Disarmed task (events ++ [.setAuthority task.controller.name false]) := by
  obtain ⟨before, sent, after, rfl, hafter⟩ := h
  exact ⟨before, sent, after, [], rfl, hafter, armFree_nil⟩

theorem ArmFree.armsOwn (h : ArmFree events) : ArmsOwn task events := by
  intro event hevent harm
  rw [h event hevent] at harm
  cases harm

theorem Disarmed.append (h : Disarmed task events) (hnew : ArmFree new) :
    Disarmed task (events ++ new) := by
  obtain ⟨before, sent, between, after, rfl, hbetween, hafter⟩ := h
  exact ⟨before, sent, between, after ++ new, by simp, hbetween, hafter.append hnew⟩

end Events

theorem toLower_name (controller : Controller) : controller.name.toLower = controller.name := by
  cases controller <;> decide +kernel

/-! ### The parts of `execute` -/

section Execute

variable {task : TrackingTask} {node : ExperimentNode} {w : Wakeup}
  {events : List ExperimentEvent} {started : ℕ}

/-- What a goal will have done after some progress. -/
def Continues (task : TrackingTask) (progress : Progress) (events : List ExperimentEvent)
    (started : ℕ) : Prop :=
  GoalOk task progress.2 (events ++ progress.1) started

theorem continues_refuse (message : String) (h : ArmFree events) (hcounted : Counted events 0 0) :
    Continues task (refuse message) events 0 :=
  ⟨Or.inl (h.append (armFree_singleton rfl)), hcounted.append, Nat.zero_le 1⟩

theorem continues_finishRun {ending : RunEnd} (h : Disarmed task events)
    (hcounted : Counted events 1 ending.told) (hconsistent : ending.Consistent) :
    Continues task (finishRun ending) events 1 := by
  unfold finishRun
  cases hsuccess : ending.success with
  | true =>
    have htold : ending.told = 0 := by
      unfold RunEnd.told
      rw [if_neg fun hcanceled => by rw [hconsistent hcanceled] at hsuccess; cases hsuccess]
    rw [htold] at hcounted
    exact ⟨Or.inr (h.append (armFree_singleton rfl)), hcounted.append, le_rfl⟩
  | false =>
    cases hcanceled : ending.canceled with
    | true =>
      have htold : ending.told = 1 := if_pos hcanceled
      rw [htold] at hcounted
      exact ⟨Or.inr (h.append armFree_nil), hcounted.append, le_rfl⟩
    | false =>
      have htold : ending.told = 0 := if_neg (by rw [hcanceled]; decide)
      rw [htold] at hcounted
      exact ⟨Or.inr (h.append (armFree_singleton rfl)), hcounted.append, le_rfl⟩

theorem continues_disarmRun (hw : w.available .authority = true) {ending : RunEnd}
    (h : Stopped events) (hcounted : Counted events 0 ending.told)
    (hconsistent : ending.Consistent) : Continues task (disarmRun task w ending) events 1 := by
  unfold disarmRun setAuthority
  rw [if_pos hw, toLower_name]
  exact ⟨h.disarmed, hcounted.append, rfl, hconsistent⟩

theorem continues_closeRun (hw : w.available .authority = true) {ending : RunEnd}
    (hcounted : Counted events 0 ending.told) (hconsistent : ending.Consistent) :
    Continues task (closeRun task w ending) events 1 := by
  unfold closeRun
  split_ifs
  · exact ⟨.of_append events true armFree_nil, hcounted.append, rfl, hconsistent⟩
  · have h : Continues task (disarmRun task w ending) (events ++ [.stopTrajectory false]) 1 :=
      continues_disarmRun hw (.of_append events false armFree_nil) hcounted.append hconsistent
    unfold Continues at h ⊢
    rwa [Progress.after, ← List.append_assoc]

variable (hw : w.available .authority = true)

include hw

theorem continues_failActiveRun (runDir message : String) (h : Counted events 0 0) :
    Continues task (failActiveRun task w runDir message) events 1 :=
  continues_closeRun hw h nofun

theorem continues_runLoop (cancelRequested : Bool) (runDir : String) (startedNs nowNs : ℤ)
    (h : Counted events 0 0) :
    Continues task (runLoop task node w cancelRequested runDir startedNs nowNs) events 1 := by
  unfold runLoop
  dsimp only
  split_ifs
  · exact continues_closeRun hw h nofun
  · have hclose : Continues task
        (closeRun task w ⟨runDir, false, true, "canceled and disarmed"⟩)
        (events ++ [.terminal .canceled]) 1 :=
      continues_closeRun hw h.append fun _ => rfl
    unfold Continues at hclose ⊢
    rwa [Progress.after, ← List.append_assoc]
  · exact ⟨h.append, rfl⟩
  · exact continues_closeRun hw h nofun

theorem continues_awaitArmed (runDir : String) (armGenerationBefore : ℕ) (deadlineNs nowNs : ℤ)
    (h : Counted events 0 0) :
    Continues task (awaitArmed task node w runDir armGenerationBefore deadlineNs nowNs) events
      1 := by
  unfold awaitArmed
  dsimp only
  split_ifs
  · exact ⟨h.append, rfl⟩
  · exact ⟨h.append, rfl⟩
  · exact continues_failActiveRun hw _ _ h

theorem continues_requestArming (runDir : String) (h : Counted events 0 0) :
    Continues task (requestArming task node w runDir) events 1 := by
  unfold requestArming setAuthority
  dsimp only
  rw [if_pos hw]
  exact ⟨h.append, rfl⟩

theorem continues_awaitReady (runDir : String) (wait : ReadyWait) (nowNs : ℤ)
    (harm : ArmFree events) (h : Counted events 0 0) :
    Continues task (awaitReady task node w runDir wait nowNs) events 1 := by
  unfold awaitReady
  dsimp only
  split_ifs
  · exact continues_requestArming hw runDir h
  · exact ⟨harm.append armFree_nil, h.append, rfl⟩
  · exact continues_failActiveRun hw _ _ h

theorem continues_configure (runDir : String) (harm : ArmFree events) (h : Counted events 0 0) :
    Continues task (configure task w runDir) events 1 := by
  unfold configure
  split_ifs
  · exact ⟨harm.append (armFree_singleton rfl), h.append, rfl⟩
  · exact continues_failActiveRun hw _ _ h

theorem continues_disarmUnstarted (message : String) (harm : ArmFree events)
    (h : Counted events 0 0) : Continues task (disarmUnstarted task w message) events 0 := by
  unfold disarmUnstarted setAuthority
  rw [if_pos hw]
  exact ⟨harm.append (armFree_singleton rfl), h.append, rfl⟩

theorem continues_requestRun (harm : ArmFree events) (h : Counted events 0 0) :
    Continues task (requestRun task w) events 0 := by
  unfold requestRun
  split_ifs
  · exact ⟨harm.append (armFree_singleton rfl), h.append, rfl⟩
  · exact continues_disarmUnstarted hw _ harm h

theorem continues_awaitDisarmed (deadlineNs nowNs : ℤ) (harm : ArmFree events)
    (h : Counted events 0 0) :
    Continues task (awaitDisarmed task node w deadlineNs nowNs) events 0 := by
  unfold awaitDisarmed
  dsimp only
  split_ifs
  · exact continues_requestRun hw harm h
  · exact ⟨harm.append armFree_nil, h.append, rfl⟩
  · exact continues_refuse _ harm h

theorem continues_requestSelection (harm : ArmFree events) (h : Counted events 0 0) :
    Continues task (requestSelection task w) events 0 := by
  unfold requestSelection setAuthority
  rw [if_pos hw]
  exact ⟨harm.append (armFree_singleton rfl), h.append, rfl⟩

theorem continues_beginExecution (harm : ArmFree events) (h : Counted events 0 0) :
    Continues task (beginExecution task node w) events 0 := by
  unfold beginExecution setAuthority
  split_ifs
  · exact continues_refuse _ harm h
  · exact ⟨harm.append (armFree_singleton rfl), h.append, rfl⟩

omit hw

/-- The reply with which a run has been started. -/
def startsRun (pc : ExperimentPc) (reply : ServiceReply) : Bool :=
  match pc, reply with
  | .startingRun, .startRun success _ _ => success
  | _, _ => false

include hw

/-- Every step of `execute` keeps what a goal has done. -/
theorem goalOk_resume {cancelRequested : Bool} {pc : ExperimentPc} {progress : Progress}
    (h : GoalOk task pc events started)
    (hresume : resume task node w cancelRequested pc = some progress) :
    GoalOk task progress.2 (events ++ progress.1)
      (started + if startsRun pc w.reply then 1 else 0) := by
  unfold resume at hresume
  split at hresume <;> cases hresume <;>
    simp only [startsRun, Bool.false_eq_true, if_false, Nat.add_zero]
  -- before the run there is nothing to stop
  case h_1 =>
    obtain ⟨harm, hcounted, rfl⟩ := h
    exact continues_beginExecution hw harm hcounted
  case h_2 =>
    obtain ⟨harm, hcounted, rfl⟩ := h
    split_ifs
    · exact continues_requestSelection hw harm hcounted
    · exact continues_refuse _ harm hcounted
  case h_3 =>
    obtain ⟨harm, hcounted, rfl⟩ := h
    split_ifs
    · exact continues_awaitDisarmed hw _ _ harm hcounted
    · exact continues_refuse _ harm hcounted
  case h_4 =>
    obtain ⟨harm, hcounted, rfl⟩ := h
    exact continues_awaitDisarmed hw _ _ harm hcounted
  case h_5 =>
    obtain ⟨harm, hcounted, rfl⟩ := h
    exact continues_refuse _ harm hcounted
  -- the recorder has answered: a run is open, or the source is disarmed again
  case h_6 success runDir message hreply =>
    obtain ⟨harm, hcounted, rfl⟩ := h
    rw [hreply]
    cases success with
    | true => exact continues_configure hw runDir harm hcounted
    | false => exact continues_disarmUnstarted hw message harm hcounted
  -- with an open run a refusal ends it
  case h_7 =>
    obtain ⟨harm, hcounted, rfl⟩ := h
    split_ifs
    · exact continues_failActiveRun hw _ _ hcounted
    · exact ⟨harm.append (armFree_singleton rfl), hcounted.append, rfl⟩
    · exact continues_failActiveRun hw _ _ hcounted
  case h_8 =>
    obtain ⟨harm, hcounted, rfl⟩ := h
    split_ifs
    · exact continues_failActiveRun hw _ _ hcounted
    · exact ⟨harm.append (armFree_singleton rfl), hcounted.append, rfl⟩
    · exact continues_failActiveRun hw _ _ hcounted
  case h_9 =>
    obtain ⟨harm, hcounted, rfl⟩ := h
    split_ifs
    · exact continues_awaitReady hw _ _ _ harm hcounted
    · exact continues_failActiveRun hw _ _ hcounted
  case h_10 =>
    obtain ⟨harm, hcounted, rfl⟩ := h
    exact continues_awaitReady hw _ _ _ harm hcounted
  -- from the arm request on the run may be armed
  case h_11 =>
    obtain ⟨hcounted, rfl⟩ := h
    split_ifs
    · exact continues_awaitArmed hw _ _ _ _ hcounted
    · exact continues_failActiveRun hw _ _ hcounted
  case h_12 =>
    obtain ⟨hcounted, rfl⟩ := h
    exact continues_awaitArmed hw _ _ _ _ hcounted
  case h_13 =>
    obtain ⟨hcounted, rfl⟩ := h
    split_ifs
    · exact continues_runLoop hw _ _ _ _ hcounted
    · exact continues_failActiveRun hw _ _ hcounted
  case h_14 =>
    obtain ⟨hcounted, rfl⟩ := h
    exact continues_runLoop hw _ _ _ _ hcounted
  -- the run is stopped, disarmed and closed in this order
  case h_15 =>
    obtain ⟨hstopped, hcounted, rfl, hconsistent⟩ := h
    exact continues_disarmRun hw hstopped hcounted hconsistent
  case h_16 =>
    obtain ⟨hdisarmed, hcounted, rfl, hconsistent⟩ := h
    exact ⟨hdisarmed.append (armFree_singleton rfl), hcounted.append, rfl, hconsistent⟩
  case h_17 =>
    obtain ⟨hdisarmed, hcounted, rfl, hconsistent⟩ := h
    exact continues_finishRun hdisarmed hcounted hconsistent

end Execute

/-! ### Requests to arm -/

section Arming

variable {task : TrackingTask} {node : ExperimentNode} {w : Wakeup}

theorem armFree_setAuthority {source : String} {pc : ExperimentPc} {unavailable : Progress}
    (h : ArmFree unavailable.1) : ArmFree (setAuthority w source false pc unavailable).1 := by
  unfold setAuthority
  split
  · exact armFree_singleton rfl
  · exact h

theorem armFree_closeRun (ending : RunEnd) : ArmFree (closeRun task w ending).1 := by
  have hdisarm : ArmFree (disarmRun task w ending).1 := armFree_setAuthority (armFree_singleton rfl)
  unfold closeRun
  split
  · exact armFree_singleton rfl
  · exact (armFree_singleton rfl).append hdisarm

theorem armFree_finishRun (ending : RunEnd) : ArmFree (finishRun ending).1 := by
  unfold finishRun
  dsimp only
  split_ifs
  · exact armFree_singleton rfl
  · exact armFree_nil
  · exact armFree_singleton rfl

theorem armFree_runLoop (cancelRequested : Bool) (runDir : String) (startedNs nowNs : ℤ) :
    ArmFree (runLoop task node w cancelRequested runDir startedNs nowNs).1 := by
  unfold runLoop
  dsimp only
  split_ifs
  · exact armFree_closeRun _
  · exact (armFree_singleton rfl).append (armFree_closeRun _)
  · exact armFree_singleton rfl
  · exact armFree_closeRun _

theorem armFree_awaitArmed (runDir : String) (armGenerationBefore : ℕ) (deadlineNs nowNs : ℤ) :
    ArmFree (awaitArmed task node w runDir armGenerationBefore deadlineNs nowNs).1 := by
  unfold awaitArmed
  dsimp only
  split_ifs
  · exact armFree_singleton rfl
  · exact armFree_nil
  · exact armFree_closeRun _

/-- The one request to arm. -/
theorem armsOwn_requestArming (runDir : String) :
    ArmsOwn task (requestArming task node w runDir).1 := by
  unfold requestArming setAuthority
  dsimp only
  split
  · rw [toLower_name]
    exact List.forall_mem_singleton.mpr fun _ => rfl
  · exact (armFree_closeRun _).armsOwn

theorem armsOwn_awaitReady (runDir : String) (wait : ReadyWait) (nowNs : ℤ) :
    ArmsOwn task (awaitReady task node w runDir wait nowNs).1 := by
  unfold awaitReady
  dsimp only
  split_ifs
  · exact armsOwn_requestArming runDir
  · exact armFree_nil.armsOwn
  · exact (armFree_closeRun _).armsOwn

theorem armFree_disarmUnstarted (message : String) :
    ArmFree (disarmUnstarted task w message).1 := armFree_setAuthority (armFree_singleton rfl)

theorem armFree_configure (runDir : String) : ArmFree (configure task w runDir).1 := by
  unfold configure
  split_ifs
  · exact armFree_singleton rfl
  · exact armFree_closeRun _

theorem armFree_awaitDisarmed (deadlineNs nowNs : ℤ) :
    ArmFree (awaitDisarmed task node w deadlineNs nowNs).1 := by
  unfold awaitDisarmed requestRun
  dsimp only
  split_ifs
  · exact armFree_singleton rfl
  · exact armFree_disarmUnstarted _
  · exact armFree_nil
  · exact armFree_singleton rfl

theorem armFree_beginExecution : ArmFree (beginExecution task node w).1 := by
  unfold beginExecution
  split_ifs
  · exact armFree_singleton rfl
  · exact armFree_setAuthority (armFree_singleton rfl)

/-- No step of `execute` arms another controller. -/
theorem armsOwn_resume {cancelRequested : Bool} {pc : ExperimentPc} {progress : Progress}
    (hresume : resume task node w cancelRequested pc = some progress) :
    ArmsOwn task progress.1 := by
  unfold resume at hresume
  split at hresume <;> cases hresume
  -- up to the start of the run nothing arms
  case h_1 => exact armFree_beginExecution.armsOwn
  case h_2 =>
    split_ifs
    · exact (armFree_setAuthority (armFree_singleton rfl)).armsOwn
    · exact (armFree_singleton rfl).armsOwn
  case h_3 =>
    split_ifs
    · exact (armFree_awaitDisarmed _ _).armsOwn
    · exact (armFree_singleton rfl).armsOwn
  case h_4 => exact (armFree_awaitDisarmed _ _).armsOwn
  case h_5 => exact (armFree_singleton rfl).armsOwn
  case h_6 =>
    split_ifs
    · exact (armFree_configure _).armsOwn
    · exact (armFree_disarmUnstarted _).armsOwn
  case h_7 =>
    split_ifs
    · exact (armFree_closeRun _).armsOwn
    · exact (armFree_singleton rfl).armsOwn
    · exact (armFree_closeRun _).armsOwn
  case h_8 =>
    split_ifs
    · exact (armFree_closeRun _).armsOwn
    · exact (armFree_singleton rfl).armsOwn
    · exact (armFree_closeRun _).armsOwn
  -- the one arm request is sent once the controller is ready
  case h_9 =>
    split_ifs
    · exact armsOwn_awaitReady _ _ _
    · exact (armFree_closeRun _).armsOwn
  case h_10 => exact armsOwn_awaitReady _ _ _
  -- later ones disarm
  case h_11 =>
    split_ifs
    · exact (armFree_awaitArmed _ _ _ _).armsOwn
    · exact (armFree_closeRun _).armsOwn
  case h_12 => exact (armFree_awaitArmed _ _ _ _).armsOwn
  case h_13 =>
    split_ifs
    · exact (armFree_runLoop _ _ _ _).armsOwn
    · exact (armFree_closeRun _).armsOwn
  case h_14 => exact (armFree_runLoop _ _ _ _).armsOwn
  case h_15 => exact (armFree_setAuthority (armFree_singleton rfl)).armsOwn
  case h_16 => exact (armFree_singleton rfl).armsOwn
  case h_17 => exact (armFree_finishRun _).armsOwn

end Arming

/-! ### Runs of the server -/

section Server

variable {ι : Type} [DecidableEq ι] {tasks : ι → Except String TrackingTask}
  {tr : ExperimentHistory ι} {s : ExperimentServer ι}

/-- What a goal does in a transition. -/
def eventsIn (i : ι) (x : ExperimentTransition ι) : List ExperimentEvent :=
  match x.input with
  | .resume j _ => if j = i then x.output else []
  | _ => []

/-- What a goal has done, in order. -/
def goalEvents (i : ι) (tr : ExperimentHistory ι) : List ExperimentEvent :=
  tr.reverse.flatMap (eventsIn i)

/-- The transition tells a goal that its run has been started. -/
def startsRunIn (i : ι) (x : ExperimentTransition ι) : Bool :=
  match x.input with
  | .resume j w => decide (j = i) && startsRun (x.pre.goals i).pc w.reply
  | _ => false

/-- The number of the runs a goal has started. -/
def startedRuns (i : ι) (tr : ExperimentHistory ι) : ℕ := tr.countP (startsRunIn i)

/-- The authority service is there when a goal is resumed. -/
def authorityReachable (x : ExperimentTransition ι) : Bool :=
  match x.input with
  | .resume _ w => w.available .authority
  | _ => true

theorem goalEvents_cons (i : ι) (x : ExperimentTransition ι) (tr : ExperimentHistory ι) :
    goalEvents i (x :: tr) = goalEvents i tr ++ eventsIn i x := by
  simp [goalEvents]

theorem startedRuns_cons (i : ι) (x : ExperimentTransition ι) (tr : ExperimentHistory ι) :
    startedRuns i (x :: tr) = startedRuns i tr + if startsRunIn i x then 1 else 0 :=
  List.countP_cons

/-- A step that does not resume a goal. -/
def Bystands (i : ι) (input : ExperimentInput ι) : Prop := ∀ w, input ≠ .resume i w

theorem eventsIn_of_bystands {i : ι} {x : ExperimentTransition ι} (h : Bystands i x.input) :
    eventsIn i x = [] := by
  unfold eventsIn
  split
  · rename_i j w heq
    refine if_neg ?_
    rintro rfl
    exact h w heq
  · rfl

theorem startsRunIn_of_bystands {i : ι} {x : ExperimentTransition ι} (h : Bystands i x.input) :
    startsRunIn i x = false := by
  unfold startsRunIn
  split
  · rename_i j w heq
    have hj : j ≠ i := by
      rintro rfl
      exact h w heq
    rw [decide_eq_false hj, Bool.false_and]
  · rfl

/-- What a step does to a goal: it leaves the goal where it is, or resumes it. -/
theorem step_of_goal {s' : ExperimentServer ι} {input : ExperimentInput ι}
    {events : List ExperimentEvent} (i : ι)
    (hstep : experimentStep tasks s input = some (s', events)) :
    ((s'.goals i).pc = (s.goals i).pc ∧ Bystands i input) ∨
      ∃ w, input = .resume i w ∧
        resumeGoal (tasks i) s.node (s.goals i) w = some (events, (s'.goals i).pc) := by
  cases input with
  | receive message =>
    cases hstep
    exact Or.inl ⟨rfl, nofun⟩
  | cancel j =>
    cases hstep
    refine Or.inl ⟨?_, nofun⟩
    by_cases hij : i = j
    · subst hij
      simp
    · simp [Function.update_of_ne hij]
  | resume j w =>
    obtain ⟨⟨events', pc⟩, hresume, heq⟩ := Option.map_eq_some_iff.mp hstep
    cases heq
    by_cases hij : i = j
    · subst hij
      exact Or.inr ⟨w, rfl, by simpa using hresume⟩
    · refine Or.inl ⟨by simp [Function.update_of_ne hij], fun w' heq => ?_⟩
      cases heq
      exact hij rfl

/-- What every goal has done. -/
theorem goalOk_of_run (hrun : (experimentMachine tasks).Run tr s)
    (hreach : ∀ x ∈ tr, authorityReachable x = true) {i : ι} {task : TrackingTask}
    (htask : tasks i = .ok task) :
    GoalOk task (s.goals i).pc (goalEvents i tr) (startedRuns i tr) := by
  refine hrun.invariant_of (C := fun x => authorityReachable x = true)
    (I := fun tr s => GoalOk task (s.goals i).pc (goalEvents i tr) (startedRuns i tr))
      (show GoalOk task .start [] 0 from ⟨armFree_nil, ⟨rfl, rfl⟩, rfl⟩) ?_ hreach
  intro tr s input s' events _ hok hstep hreachable
  rw [goalEvents_cons, startedRuns_cons]
  rcases step_of_goal i hstep with ⟨hpc, hother⟩ | ⟨w, rfl, hresume⟩
  · rw [hpc, eventsIn_of_bystands hother, startsRunIn_of_bystands hother, List.append_nil]
    exact hok
  · have hevents : eventsIn i ⟨s, .resume i w, events, s'⟩ = events := if_pos rfl
    have hstarts : startsRunIn i ⟨s, .resume i w, events, s'⟩
        = startsRun (s.goals i).pc w.reply := by simp [startsRunIn]
    rw [htask] at hresume
    rw [hevents, hstarts]
    exact goalOk_resume hreachable hok hresume

/-- No goal asks to arm another controller than that of its task. -/
theorem armsOwn_of_run (hrun : (experimentMachine tasks).Run tr s) {i : ι} {task : TrackingTask}
    (htask : tasks i = .ok task) : ArmsOwn task (goalEvents i tr) := by
  refine hrun.invariant (I := fun tr _ => ArmsOwn task (goalEvents i tr)) armFree_nil.armsOwn ?_
  intro tr s input s' events _ harms hstep
  rw [goalEvents_cons]
  refine List.forall_mem_append.mpr ⟨harms, ?_⟩
  rcases step_of_goal i hstep with ⟨-, hother⟩ | ⟨w, rfl, hresume⟩
  · rw [eventsIn_of_bystands hother]
    exact armFree_nil.armsOwn
  · have hevents : eventsIn i ⟨s, .resume i w, events, s'⟩ = events := if_pos rfl
    rw [hevents]
    rw [htask] at hresume
    exact armsOwn_resume hresume

/-- **A managed experiment ends disarmed.**  Whatever replies, cancellations and messages it meets,
and whatever other goals do, a goal that has returned has asked to arm no other controller than its
own, has stopped the trajectory and then disarmed that controller after the last time it asked to
arm, has stopped every run it has started once, and has made one terminal transition. -/
theorem experiment_ends_disarmed (hrun : (experimentMachine tasks).Run tr s)
    (hreach : ∀ x ∈ tr, authorityReachable x = true) {i : ι} {task : TrackingTask}
    (htask : tasks i = .ok task) {result : ExperimentResult}
      (hdone : (s.goals i).pc = .done result) :
    ArmsOwn task (goalEvents i tr) ∧
      ((∃ event ∈ goalEvents i tr, event.isArm = true) → Disarmed task (goalEvents i tr)) ∧
      startedRuns i tr ≤ 1 ∧ stopRuns (goalEvents i tr) = startedRuns i tr ∧
        terminals (goalEvents i tr) = 1 := by
  have hok := goalOk_of_run hrun hreach htask
  rw [hdone] at hok
  obtain ⟨hdisarmed, ⟨hstopped, htold⟩, hstarted⟩ := hok
  refine ⟨armsOwn_of_run hrun htask, ?_, hstarted, hstopped, htold⟩
  rintro ⟨event, hevent, harm⟩
  rcases hdisarmed with hfree | hdisarmed
  · rw [hfree event hevent] at harm
    cases harm
  · exact hdisarmed

end Server

/-! ### A canceled experiment -/

def sampleTask : TrackingTask where
  name := "pose_hold"
  label := "pose_hold"
  scenario := "altitude_hold"
  trajectoryName := "none"
  controlMode := "altitude_hold"
  controller := .pid
  durationS := Ieee.Number.ofRat Ieee.binary64 86400
  runUntilStopped := true
  trajectory := fun
    | .trajectoryType => some "hold"
    | .attitudeMode => some "hold_initial"
    | _ => none

/-- A wake-up at a time, with every service there. -/
def wakeAt (nowNs : ℤ) (reply : ServiceReply) : Wakeup where
  available _ := true
  nowNs := nowNs
  laterNs := nowNs
  reply := reply

/-- An experiment that is armed and then canceled. -/
def canceledInputs : List (ExperimentInput Unit) :=
  [.receive (.authority ⟨false, false, "pid", 0⟩), .resume () (wakeAt 0 .begin),
    .resume () (wakeAt 1 (.authority true false "disarmed")),
    .resume () (wakeAt 2 (.authority true false "disarmed")),
    .resume () (wakeAt 3 (.startRun true "/runs/a" "")),
    .resume () (wakeAt 4 (.parameters [true, true, true])),
    .resume () (wakeAt 5 (.trigger true "")),
    .resume () (wakeAt 6 (.trigger true "")),
    .receive (.trajectoryTarget ⟨true, "hold", "altitude_hold"⟩), .resume () (wakeAt 7 .timer),
    .receive (.pidStatus ⟨true, true, []⟩), .resume () (wakeAt 8 .timer),
    .resume () (wakeAt 9 (.authority true true "armed pid")),
    .receive (.authority ⟨true, false, "pid", 1⟩), .resume () (wakeAt 10 .timer),
    .resume () (wakeAt 11 (.trigger true "")), .cancel (), .resume () (wakeAt 12 .timer),
    .resume () (wakeAt 13 (.trigger true "")),
    .resume () (wakeAt 14 (.authority true false "disarmed")), .resume () (wakeAt 15 .stopRun)]

def sampleResult : ExperimentResult := ⟨false, "/runs/a", "canceled and disarmed"⟩

theorem experiment_ends_disarmed_canceledInputs :
    ∃ tr s, (experimentMachine fun _ : Unit => .ok sampleTask).Run tr s ∧
      (∃ event ∈ goalEvents () tr, event.isArm = true) ∧
      Disarmed sampleTask (goalEvents () tr) := by
  obtain ⟨x, tr, s, hrun, hx⟩ := run_of_execCheck (experimentMachine fun _ : Unit => .ok sampleTask)
    canceledInputs
    (fun x tr => (x :: tr).all authorityReachable &&
      (goalEvents () (x :: tr)).any (·.isArm) && (x.post.goals ()).pc == .done sampleResult)
    (by decide +kernel)
  rw [Bool.and_eq_true, Bool.and_eq_true, List.all_eq_true, List.any_eq_true, beq_iff_eq,
    hrun.head_post] at hx
  exact ⟨_, s, hrun, hx.1.2, (experiment_ends_disarmed hrun hx.1.1 rfl hx.2).2.1 hx.1.2⟩

end RobotCore
