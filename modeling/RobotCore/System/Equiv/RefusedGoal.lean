import RobotCore.Authority.Equiv.Latch
import RobotCore.Runtime.Equiv.Experiment
import RobotCore.System.Experiment

/-!
# What a refused goal does

A goal learns from the run recorder that another run is active, and by then it has asked the
authority to disarm (`refused_second_goal_disarms`).  It has not asked it to arm, and has not
touched a trajectory or a run (`refused_goal_withdraws`).
-/

namespace RobotCore

open Machine

/-! ### Goals without a run -/

/-- A request to disarm, the request to start a run, or the end of a goal. -/
def ExperimentEvent.isNeutral : ExperimentEvent → Bool
  | .setAuthority _ arm => !arm
  | .startRun _ _ _ | .terminal _ => true
  | _ => false

def Neutral (events : List ExperimentEvent) : Prop := ∀ event ∈ events, event.isNeutral = true

/-- The goal is told that no run was started, or is done. -/
def isWithdrawn : ExperimentPc → Bool
  | .disarmingUnstarted _ | .done _ => true
  | _ => false

/-- The goal has not started a run. -/
def isUnstarted : ExperimentPc → Bool
  | .start | .neutralizing | .selecting | .waitingDisarmed _ | .disarmingUnstarted _
  | .startingRun => true
  | _ => false

/-- The reply refuses to start a run. -/
def refusesRun (pc : ExperimentPc) (reply : ServiceReply) : Bool :=
  match pc, reply with
  | .startingRun, .startRun success _ _ => !success
  | _, _ => false

section Resume

variable {task : TrackingTask} {node : ExperimentNode} {w : Wakeup} {cancelRequested : Bool}
  {pc : ExperimentPc} {progress : Progress}

/-- Neutral progress of a goal that starts no run. -/
def Harmless (progress : Progress) : Prop :=
  Neutral progress.1 ∧ (isUnstarted progress.2 = true ∨ isWithdrawn progress.2 = true)

theorem neutral_singleton {event : ExperimentEvent} (h : event.isNeutral = true) :
    Neutral [event] :=
  List.forall_mem_singleton.mpr h

theorem Neutral.append {events new : List ExperimentEvent} (h : Neutral events)
    (hnew : Neutral new) : Neutral (events ++ new) :=
  List.forall_mem_append.mpr ⟨h, hnew⟩

theorem neutral_nil : Neutral [] := List.forall_mem_nil _

theorem neutral_refuse (message : String) : Neutral (refuse message).1 := neutral_singleton rfl

theorem harmless_refuse (message : String) : Harmless (refuse message) :=
  ⟨neutral_refuse message, Or.inr rfl⟩

theorem withdrawn_disarmUnstarted (message : String) :
    Neutral (disarmUnstarted task w message).1 ∧
      isWithdrawn (disarmUnstarted task w message).2 = true := by
  unfold disarmUnstarted setAuthority
  split_ifs
  · exact ⟨neutral_singleton rfl, rfl⟩
  · exact ⟨neutral_refuse message, rfl⟩

theorem harmless_disarmUnstarted (message : String) :
    Harmless (disarmUnstarted task w message) :=
  ⟨(withdrawn_disarmUnstarted message).1, Or.inr (withdrawn_disarmUnstarted message).2⟩

theorem harmless_requestRun : Harmless (requestRun task w) := by
  unfold requestRun
  split_ifs
  · exact ⟨neutral_singleton rfl, Or.inl rfl⟩
  · exact harmless_disarmUnstarted _

theorem harmless_awaitDisarmed (deadlineNs nowNs : ℤ) :
    Harmless (awaitDisarmed task node w deadlineNs nowNs) := by
  unfold awaitDisarmed
  dsimp only
  split_ifs
  · exact harmless_requestRun
  · exact ⟨neutral_nil, Or.inl rfl⟩
  · exact harmless_refuse _

theorem harmless_requestSelection : Harmless (requestSelection task w) := by
  unfold requestSelection setAuthority
  split_ifs
  · exact ⟨neutral_singleton rfl, Or.inl rfl⟩
  · exact harmless_refuse _

theorem harmless_beginExecution : Harmless (beginExecution task node w) := by
  unfold beginExecution setAuthority
  split_ifs
  · exact harmless_refuse _
  · exact ⟨neutral_singleton rfl, Or.inl rfl⟩
  · exact harmless_refuse _

/-- A goal without a run does nothing but disarm until its run is started. -/
theorem harmless_resume (hpc : isUnstarted pc = true)
    (hresume : resume task node w cancelRequested pc = some progress)
    (hstarts : startsRun pc w.reply = false) : Harmless progress := by
  unfold resume at hresume
  split at hresume <;> cases hresume
  case h_1 => exact harmless_beginExecution
  case h_2 accepted _ _ _ =>
    cases accepted with
    | true => exact harmless_requestSelection
    | false => exact harmless_refuse _
  case h_3 accepted _ _ _ =>
    cases accepted with
    | true => exact harmless_awaitDisarmed _ _
    | false => exact harmless_refuse _
  case h_4 => exact harmless_awaitDisarmed _ _
  case h_5 => exact harmless_refuse _
  case h_6 success runDir message hreply =>
    rw [hreply] at hstarts
    obtain rfl : success = false := hstarts
    exact harmless_disarmUnstarted message
  all_goals cases hpc

theorem isUnstarted_of_refusesRun {reply : ServiceReply} (h : refusesRun pc reply = true) :
    isUnstarted pc = true ∧ startsRun pc reply = false := by
  unfold refusesRun at h
  split at h
  · exact ⟨rfl, (Bool.not_eq_true' _).mp h⟩
  · cases h

/-- A goal that is refused a run withdraws. -/
theorem withdrawn_of_refused (hresume : resume task node w cancelRequested pc = some progress)
    (hrefused : refusesRun pc w.reply = true) : isWithdrawn progress.2 = true := by
  unfold refusesRun at hrefused
  split at hrefused
  · rename_i success runDir message hreply
    obtain rfl : success = false := by simpa using hrefused
    have heq : resume task node w cancelRequested .startingRun
        = some (disarmUnstarted task w message) := by simp [resume, hreply]
    rw [heq] at hresume
    cases hresume
    exact (withdrawn_disarmUnstarted message).2
  · cases hrefused

/-- A goal that has withdrawn stays so. -/
theorem withdrawn_resume (hpc : isWithdrawn pc = true)
    (hresume : resume task node w cancelRequested pc = some progress) :
    isWithdrawn progress.2 = true ∧ Neutral progress.1 := by
  unfold resume at hresume
  split at hresume <;> cases hresume
  case h_5 message _ _ _ _ => exact ⟨rfl, neutral_refuse message⟩
  all_goals cases hpc

/-! A goal that has started a run does not go back. -/

@[simp] theorem isUnstarted_disarmRun (ending : RunEnd) :
    isUnstarted (disarmRun task w ending).2 = false := by
  unfold disarmRun setAuthority
  split_ifs <;> rfl

@[simp] theorem isUnstarted_closeRun (ending : RunEnd) :
    isUnstarted (closeRun task w ending).2 = false := by
  unfold closeRun
  split_ifs
  · rfl
  · exact isUnstarted_disarmRun ending

@[simp] theorem isUnstarted_failActiveRun (runDir message : String) :
    isUnstarted (failActiveRun task w runDir message).2 = false :=
  isUnstarted_closeRun _

@[simp] theorem isUnstarted_runLoop (runDir : String) (startedNs nowNs : ℤ) :
    isUnstarted (runLoop task node w cancelRequested runDir startedNs nowNs).2 = false := by
  unfold runLoop
  dsimp only
  split_ifs
  · exact isUnstarted_closeRun _
  · exact isUnstarted_closeRun _
  · rfl
  · exact isUnstarted_closeRun _

@[simp] theorem isUnstarted_awaitArmed (runDir : String) (armGenerationBefore : ℕ)
    (deadlineNs nowNs : ℤ) :
    isUnstarted (awaitArmed task node w runDir armGenerationBefore deadlineNs nowNs).2 = false := by
  unfold awaitArmed
  dsimp only
  split_ifs
  · rfl
  · rfl
  · exact isUnstarted_closeRun _

@[simp] theorem isUnstarted_awaitReady (runDir : String) (wait : ReadyWait) (nowNs : ℤ) :
    isUnstarted (awaitReady task node w runDir wait nowNs).2 = false := by
  unfold awaitReady requestArming setAuthority
  dsimp only
  split_ifs
  · rfl
  · exact isUnstarted_closeRun _
  · rfl
  · exact isUnstarted_closeRun _

@[simp] theorem isUnstarted_configure (runDir : String) :
    isUnstarted (configure task w runDir).2 = false := by
  unfold configure
  split_ifs
  · rfl
  · exact isUnstarted_closeRun _

theorem isUnstarted_of_resume (hresume : resume task node w cancelRequested pc = some progress)
    (h : isUnstarted progress.2 = true) :
    isUnstarted pc = true ∧ startsRun pc w.reply = false := by
  unfold resume at hresume
  split at hresume <;> cases hresume
  case h_6 success runDir message hreply =>
    rw [hreply]
    cases success with
    | true => rw [if_pos rfl, isUnstarted_configure] at h; cases h
    | false => exact ⟨rfl, rfl⟩
  all_goals first
    | exact ⟨rfl, rfl⟩
    | (refine absurd h (Bool.not_eq_true _ ▸ ?_); (try split_ifs) <;> first | rfl | simp)

/-- A goal without a task is refused when it begins. -/
theorem resumeGoal_of_error {reason : String} {goal : ExperimentGoal} {pc' : ExperimentPc}
    {events : List ExperimentEvent}
    (h : resumeGoal (.error reason) node goal w = some (events, pc')) :
    goal.pc = .start ∧ isUnstarted pc' = false ∧ Neutral events := by
  unfold resumeGoal at h
  dsimp only at h
  split at h
  · rename_i hpc hreply
    cases h
    exact ⟨hpc, rfl, neutral_singleton rfl⟩
  · cases h

end Resume

/-! ### Runs -/

section Runs

variable {ι : Type} [DecidableEq ι] {cfg : AuthorityConfig} {tasks : ι → Except String TrackingTask}
  {i : ι}

/-- The goal is told that no run was started. -/
def refusedIn (i : ι) (x : ExperimentTransition ι) : Bool :=
  match x.input with
  | .resume j w => decide (j = i) && refusesRun (x.pre.goals i).pc w.reply
  | _ => false

theorem refusedIn_of_bystands {x : ExperimentTransition ι} (h : Bystands i x.input) :
    refusedIn i x = false := by
  unfold refusedIn
  split
  · rename_i j w heq
    have hj : j ≠ i := by
      rintro rfl
      exact h w heq
    rw [decide_eq_false hj, Bool.false_and]
  · rfl

/-- What a goal has done that has not started a run, or was refused one. -/
theorem withdrawn_of_run {tr : ExperimentHistory ι} {s : ExperimentServer ι} (i : ι)
    (hrun : (experimentMachine tasks).Run tr s) :
    (isUnstarted (s.goals i).pc = true → Neutral (goalEvents i tr)) ∧
      ((∃ x ∈ tr, refusedIn i x = true) →
        isWithdrawn (s.goals i).pc = true ∧ Neutral (goalEvents i tr)) := by
  refine hrun.invariant (I := fun tr s =>
    (isUnstarted (s.goals i).pc = true → Neutral (goalEvents i tr)) ∧
      ((∃ x ∈ tr, refusedIn i x = true) →
        isWithdrawn (s.goals i).pc = true ∧ Neutral (goalEvents i tr)))
    ⟨fun _ => neutral_nil, by rintro ⟨x, hx, -⟩; cases hx⟩ ?_
  rintro tr s input s' events - ⟨hneutral, hwithdrawn⟩ hstep
  rw [goalEvents_cons, List.exists_mem_cons_iff]
  rcases step_of_goal i hstep with ⟨hpc, hother⟩ | ⟨w, rfl, hresume⟩
  · rw [hpc, eventsIn_of_bystands hother, refusedIn_of_bystands hother, List.append_nil]
    exact ⟨hneutral, fun h => hwithdrawn (h.resolve_left Bool.false_ne_true)⟩
  have hevents : eventsIn i ⟨s, .resume i w, events, s'⟩ = events := if_pos rfl
  have hrefused : refusedIn i ⟨s, .resume i w, events, s'⟩
      = refusesRun (s.goals i).pc w.reply := by simp [refusedIn]
  rw [hevents, hrefused]
  cases htask : tasks i with
  | error reason =>
    rw [htask] at hresume
    obtain ⟨hpc, hpost, hnew⟩ := resumeGoal_of_error hresume
    rw [hpc] at hwithdrawn hneutral ⊢
    refine ⟨fun h => absurd h (by rw [hpost]; exact Bool.false_ne_true), ?_⟩
    rintro (hnow | hbefore)
    · cases hnow
    · exact absurd (hwithdrawn hbefore).1 Bool.false_ne_true
  | ok task =>
    rw [htask] at hresume
    constructor
    · intro hunstarted
      obtain ⟨hpc, hstarts⟩ := isUnstarted_of_resume hresume hunstarted
      exact (hneutral hpc).append (harmless_resume hpc hresume hstarts).1
    · rintro (hnow | hbefore)
      · obtain ⟨hpc, hstarts⟩ := isUnstarted_of_refusesRun hnow
        exact ⟨withdrawn_of_refused hresume hnow,
          (hneutral hpc).append (harmless_resume hpc hresume hstarts).1⟩
      · obtain ⟨hpc, hevents⟩ := hwithdrawn hbefore
        obtain ⟨hpost, hnew⟩ := withdrawn_resume hpc hresume
        exact ⟨hpost, hevents.append hnew⟩

end Runs

/-! ### Runs of the system -/

section System

variable {ι : Type} [DecidableEq ι] {cfg : AuthorityConfig} {tasks : ι → Except String TrackingTask}
  {tr : ExperimentSystemHistory ι} {s : ExperimentSystem ι} {i : ι}

/-- A step of the system as one of the server. -/
def serverTransition (x : ExperimentSystemTransition ι) : Option (ExperimentTransition ι) :=
  match x.input with
  | .server input => some ⟨x.pre.server, input, x.output, x.post.server⟩
  | _ => none

def serverHistory (tr : ExperimentSystemHistory ι) : ExperimentHistory ι :=
  tr.filterMap serverTransition

/-- A goal is told that another run is active. -/
def refusedAsActive (i : ι) (x : ExperimentSystemTransition ι) : Bool :=
  match x.input with
  | .server (.resume j w) =>
    decide (j = i) && (x.pre.server.goals i).pc == .startingRun &&
      match w.reply with
      | .startRun success _ message =>
        !success && message == "a tracking run is already active"
      | _ => false
  | _ => false

/-- A call of a goal is served. -/
def servesGoal (i : ι) (x : ExperimentSystemTransition ι) : Bool :=
  match x.input with
  | .serve j _ => decide (j = i)
  | _ => false

omit [DecidableEq ι] in
theorem server_serveCall (event : ExperimentEvent) (context : ServiceContext) :
    (serveCall cfg s event context).1.server = s.server := by
  unfold serveCall
  split <;> rfl

omit [DecidableEq ι] in
theorem calls_serveCall (event : ExperimentEvent) (context : ServiceContext) :
    (serveCall cfg s event context).1.calls = s.calls := by
  unfold serveCall
  split <;> rfl

/-- A system step is a step of the server, or leaves the server as it is. -/
theorem server_of_systemStep {x : ExperimentSystemTransition ι}
    (hstep : systemStep cfg tasks x.pre x.input = some (x.post, x.output)) :
    (serverTransition x = none ∧ x.post.server = x.pre.server) ∨
      ∃ y, serverTransition x = some y ∧ y.pre = x.pre.server ∧ y.post = x.post.server ∧
        experimentStep tasks y.pre y.input = some (y.post, y.output) := by
  obtain ⟨pre, input, events, post⟩ := x
  unfold systemStep at hstep
  dsimp only at hstep ⊢
  split at hstep
  · split_ifs at hstep
    obtain ⟨⟨server, events'⟩, hserver, heq⟩ := Option.map_eq_some_iff.mp hstep
    cases heq
    exact Or.inr ⟨_, rfl, rfl, rfl, hserver⟩
  · obtain ⟨⟨server, events'⟩, hserver, heq⟩ := Option.map_eq_some_iff.mp hstep
    cases heq
    exact Or.inr ⟨_, rfl, rfl, rfl, hserver⟩
  · split at hstep
    · cases hstep
      exact Or.inl ⟨rfl, server_serveCall _ _⟩
    · cases hstep
  · obtain ⟨⟨authority, output⟩, -, heq⟩ := Option.map_eq_some_iff.mp hstep
    cases heq
    exact Or.inl ⟨rfl, rfl⟩

/-- What the server does in a run of the system. -/
theorem server_of_run (hrun : (experimentSystem cfg tasks).Run tr s) :
    (experimentMachine tasks).Run (serverHistory tr) s.server :=
  hrun.filterMap (·.server) serverTransition rfl fun _ => server_of_systemStep

theorem mem_goalEvents_serverHistory {event : ExperimentEvent} :
    event ∈ goalEvents i (serverHistory tr) ↔
      ∃ x ∈ tr, ∃ y, serverTransition x = some y ∧ event ∈ eventsIn i y := by
  simp only [goalEvents, serverHistory, List.mem_flatMap, List.mem_reverse, List.mem_filterMap]
  constructor
  · rintro ⟨y, ⟨x, hx, hy⟩, hevent⟩
    exact ⟨x, hx, y, hy, hevent⟩
  · rintro ⟨x, hx, y, hy, hevent⟩
    exact ⟨y, ⟨x, hx, hy⟩, hevent⟩

theorem mem_of_newCall {events : List ExperimentEvent} {event : ExperimentEvent}
    (h : newCall events = some (.sent event)) : event ∈ events := by
  obtain ⟨event', hfind, heq⟩ := Option.map_eq_some_iff.mp h
  cases heq
  exact List.mem_reverse.mp (List.mem_of_find?_eq_some hfind)

/-- A call is older than the step, or the goal makes it there. -/
theorem call_of_systemStep {x : ExperimentSystemTransition ι} {event : ExperimentEvent}
    (hstep : systemStep cfg tasks x.pre x.input = some (x.post, x.output))
    (hcall : x.post.calls i = some (.sent event)) :
    x.pre.calls i = some (.sent event) ∨
      ∃ y, serverTransition x = some y ∧ event ∈ eventsIn i y := by
  obtain ⟨pre, input, events, post⟩ := x
  unfold systemStep at hstep
  dsimp only at hstep hcall ⊢
  split at hstep
  case h_1 j w =>
    split_ifs at hstep
    obtain ⟨⟨server, events'⟩, hserver, heq⟩ := Option.map_eq_some_iff.mp hstep
    cases heq
    by_cases hij : i = j
    · subst hij
      refine Or.inr ⟨_, rfl, ?_⟩
      dsimp only at hcall
      rw [Function.update_self] at hcall
      have hmem := mem_of_newCall hcall
      rw [show events' = eventsIn i ⟨pre.server, .resume i w, events', server⟩ from
        (if_pos rfl).symm] at hmem
      exact hmem
    · exact Or.inl (by simpa [Function.update_of_ne hij] using hcall)
  case h_2 =>
    obtain ⟨⟨server, events'⟩, -, heq⟩ := Option.map_eq_some_iff.mp hstep
    cases heq
    exact Or.inl hcall
  case h_3 j context =>
    split at hstep
    · cases hstep
      by_cases hij : i = j
      · subst hij
        dsimp only at hcall
        rw [Function.update_self, Option.map_eq_some_iff] at hcall
        obtain ⟨reply, -, hreply⟩ := hcall
        cases hreply
      · refine Or.inl ?_
        dsimp only at hcall
        rwa [Function.update_of_ne hij, calls_serveCall] at hcall
    · cases hstep
  case h_4 =>
    obtain ⟨⟨authority, output⟩, -, heq⟩ := Option.map_eq_some_iff.mp hstep
    cases heq
    exact Or.inl hcall

/-- A call is one of the events of its goal. -/
theorem call_mem_of_run (hrun : (experimentSystem cfg tasks).Run tr s) {event : ExperimentEvent}
    (hcall : s.calls i = some (.sent event)) : event ∈ goalEvents i (serverHistory tr) := by
  rw [mem_goalEvents_serverHistory]
  induction hrun with
  | start => cases hcall
  | @step tr s input s' events _ hstep ih =>
    rcases call_of_systemStep (x := ⟨s, input, events, s'⟩) hstep hcall with hbefore | hnow
    · obtain ⟨x, hx, hevent⟩ := ih hbefore
      exact ⟨x, List.mem_cons_of_mem _ hx, hevent⟩
    · exact ⟨_, List.mem_cons_self, hnow⟩

/-- A call of a goal that is served is one of its events. -/
theorem served_mem_of_run (hrun : (experimentSystem cfg tasks).Run tr s)
    {x : ExperimentSystemTransition ι} (hx : x ∈ tr) {event : ExperimentEvent}
    (hcall : x.pre.calls i = some (.sent event)) : event ∈ goalEvents i (serverHistory tr) := by
  obtain ⟨after, before, rfl⟩ := List.append_of_mem hx
  have hmem := call_mem_of_run hrun.split.tail hcall
  rw [mem_goalEvents_serverHistory] at hmem ⊢
  obtain ⟨y, hy, hevent⟩ := hmem
  exact ⟨y, List.mem_append_right _ (List.mem_cons_of_mem _ hy), hevent⟩

/-- A request that does not arm leaves a disarmed authority so. -/
theorem armed_of_serveAuthority {a : Authority} {source : String} {nowNs : ℤ}
    (h : (serveAuthority cfg a source false nowNs).1.armed = true) : a.armed = true := by
  unfold serveAuthority at h
  obtain ⟨a', output, hok, hchange⟩ := authorityCallback_spec cfg a
    (.setAuthority (authorityRequest source false) nowNs)
  rw [show onSetAuthority cfg a (authorityRequest source false) nowNs = .ok (a', output) from hok]
    at h
  by_contra hdisarmed
  have haccepts := ((control_of_change hchange).2.2 (Bool.not_eq_true _ ▸ hdisarmed) h).2
  cases haccepts

theorem serve_of_servesGoal {x : ExperimentSystemTransition ι}
    (hstep : systemStep cfg tasks x.pre x.input = some (x.post, x.output))
    (hserves : servesGoal i x = true) :
    ∃ event context, x.pre.calls i = some (.sent event) ∧
      x.post.authority = (serveCall cfg x.pre event context).1.authority := by
  obtain ⟨pre, input, events, post⟩ := x
  unfold servesGoal at hserves
  dsimp only at hserves hstep ⊢
  split at hserves
  · obtain rfl := of_decide_eq_true hserves
    unfold systemStep at hstep
    dsimp only at hstep
    split at hstep
    · cases hstep
      exact ⟨_, _, ‹_›, rfl⟩
    · cases hstep
  · cases hserves

theorem refusedIn_of_refusedAsActive {x : ExperimentSystemTransition ι}
    (h : refusedAsActive i x = true) :
    ∃ y, serverTransition x = some y ∧ refusedIn i y = true := by
  obtain ⟨pre, input, events, post⟩ := x
  unfold refusedAsActive at h
  dsimp only at h
  split at h
  · rename_i j w
    simp only [Bool.and_eq_true, decide_eq_true_eq, beq_iff_eq] at h
    obtain ⟨⟨rfl, hpc⟩, hreply⟩ := h
    refine ⟨_, rfl, ?_⟩
    unfold refusedIn
    dsimp only
    rw [hpc]
    split at hreply
    · rename_i success runDir message heq
      rw [Bool.and_eq_true] at hreply
      simp [refusesRun, heq, hreply.1]
    · cases hreply
  · cases h

/-- **A refused goal withdraws.**  A goal that is told that another run is active has asked for
nothing but to disarm and to start its run, and does no more: it does not arm, and does not touch
the trajectory, its parameters or a run.  None of its calls arms the authority. -/
theorem refused_goal_withdraws (hrun : (experimentSystem cfg tasks).Run tr s)
    (hrefused : ∃ x ∈ tr, refusedAsActive i x = true) :
    Neutral (goalEvents i (serverHistory tr)) ∧
      ∀ x ∈ tr, servesGoal i x = true → x.post.authority.armed = true →
        x.pre.authority.armed = true := by
  have hneutral : Neutral (goalEvents i (serverHistory tr)) := by
    obtain ⟨x, hx, hx'⟩ := hrefused
    obtain ⟨y, hy, hrefused⟩ := refusedIn_of_refusedAsActive hx'
    exact ((withdrawn_of_run i (server_of_run hrun)).2
      ⟨y, List.mem_filterMap.mpr ⟨x, hx, hy⟩, hrefused⟩).2
  refine ⟨hneutral, fun x hx hserves harmed => ?_⟩
  obtain ⟨event, context, hcall, hpost⟩ := serve_of_servesGoal (hrun.step_of_mem hx) hserves
  have harm := hneutral event (served_mem_of_run hrun hx hcall)
  rw [hpost] at harmed
  unfold serveCall at harmed
  split at harmed
  · obtain rfl := (Bool.not_eq_true' _).mp harm
    exact armed_of_serveAuthority harmed
  all_goals exact harmed

end System

/-! ### A second goal -/

/-- The first goal is for the PID controller, the second for the policy. -/
def sampleTasks : Bool → Except String TrackingTask := fun second =>
  .ok (if second then { sampleTask with controller := .rl } else sampleTask)

/-- A goal is resumed at a time with every service there. -/
def resumes (i : Bool) (nowNs : ℤ) (reply : ServiceReply) : ExperimentSystemInput Bool :=
  .server (.resume i (wakeAt nowNs reply))

/-- The call of a goal is served. -/
def serves (i : Bool) (trajectoryReply : ServiceReply) : ExperimentSystemInput Bool :=
  .serve i ⟨0, "/runs/a", none, none, trajectoryReply⟩

/-- The call of a goal is served and the goal resumed with the answer. -/
def calls (i : Bool) (nowNs : ℤ) (reply : ServiceReply) : List (ExperimentSystemInput Bool) :=
  [serves i reply, resumes i nowNs reply]

/-- The authority can arm the controller. -/
def readyAuthority : List (ExperimentSystemInput Bool) :=
  [.authority (.safetyEvent {} 0),
    .authority (.bodyState { linearVelocityValid := true, stateValid := true } 0),
    .authority (.trajectoryTarget { controlMode := "altitude_hold", valid := true } 0),
    .authority (.pidCommand
      { action := Vector.replicate _ 0, enable := true, source := "pid_controller" } 0 0)]

/-- A goal whose run is active, with the controller armed. -/
def activeInputs : List (ExperimentSystemInput Bool) :=
  readyAuthority ++
  [.server (.receive (.authority ⟨false, false, "pid", 0⟩)), resumes false 0 .begin] ++
  calls false 0 (.authority true false "disarmed") ++
  calls false 0 (.authority true false "disarmed") ++
  calls false 0 (.startRun true "/runs/a" "run directory and rosbag recording started") ++
  calls false 0 (.parameters [true, true, true]) ++
  calls false 0 (.trigger true "") ++
  calls false 0 (.trigger true "") ++
  [.server (.receive (.trajectoryTarget ⟨true, "hold", "altitude_hold"⟩)), resumes false 0 .timer,
    .server (.receive (.pidStatus ⟨true, true, []⟩)), resumes false 0 .timer] ++
  calls false 0 (.authority true true "armed pid") ++
  [.server (.receive (.authority ⟨true, false, "pid", 1⟩)), resumes false 0 .timer] ++
  calls false 0 (.trigger true "")

/-- A second goal, up to its refusal. -/
def refusedInputs : List (ExperimentSystemInput Bool) :=
  [resumes true 0 .begin] ++
  calls true 0 (.authority true false "disarmed") ++
  calls true 0 (.authority true false "disarmed") ++
  [.server (.receive (.authority ⟨false, false, "rl", 1⟩)), resumes true 0 .timer] ++
  calls true 0 (.startRun false "/runs/a" "a tracking run is already active")

theorem refused_goal_withdraws_refusedInputs :
    ∃ tr s, (experimentSystem {} sampleTasks).Run tr s ∧
      (∃ x ∈ tr, refusedAsActive true x = true) ∧ Neutral (goalEvents true (serverHistory tr)) ∧
        ∀ x ∈ tr, servesGoal true x = true → x.post.authority.armed = true →
          x.pre.authority.armed = true := by
  obtain ⟨x, tr, s, hrun, hx⟩ := run_of_execCheck (experimentSystem {} sampleTasks)
    (activeInputs ++ refusedInputs) (fun x tr => (x :: tr).any (refusedAsActive true))
    (by decide +kernel)
  rw [List.any_eq_true] at hx
  exact ⟨_, s, hrun, hx, refused_goal_withdraws hrun hx⟩

/-- The call of a goal disarms the authority. -/
def disarmsAuthority (i : Bool) (x : ExperimentSystemTransition Bool) : Bool :=
  servesGoal i x && x.pre.authority.armed && !x.post.authority.armed

/-- The call of a goal changes the selected source. -/
def switchesSource (i : Bool) (x : ExperimentSystemTransition Bool) : Bool :=
  servesGoal i x && x.post.authority.selectedSource != x.pre.authority.selectedSource

/-- Before it is refused a second goal disarms the authority of the first, and selects its own
controller. -/
theorem refused_second_goal_disarms :
    (¬ ∀ tr s, (experimentSystem {} sampleTasks).Run tr s →
      (∃ x ∈ tr, refusedAsActive true x = true) → ∀ x ∈ tr, servesGoal true x = true →
        x.post.authority.armed = x.pre.authority.armed) ∧
    ¬ ∀ tr s, (experimentSystem {} sampleTasks).Run tr s →
      (∃ x ∈ tr, refusedAsActive true x = true) → ∀ x ∈ tr, servesGoal true x = true →
        x.post.authority.selectedSource = x.pre.authority.selectedSource := by
  obtain ⟨x, tr, s, hrun, hx⟩ := run_of_execCheck (experimentSystem {} sampleTasks)
    (activeInputs ++ refusedInputs)
    (fun x tr => (x :: tr).any (refusedAsActive true) && (x :: tr).any (disarmsAuthority true) &&
      (x :: tr).any (switchesSource true))
    (by decide +kernel)
  rw [Bool.and_eq_true, Bool.and_eq_true, List.any_eq_true, List.any_eq_true, List.any_eq_true]
    at hx
  obtain ⟨⟨hrefused, y, hy, hdisarms⟩, z, hz, hswitches⟩ := hx
  constructor
  · intro h
    simp only [disarmsAuthority, Bool.and_eq_true, Bool.not_eq_true'] at hdisarms
    obtain ⟨⟨hserves, hbefore⟩, hafter⟩ := hdisarms
    have harmed := h _ s hrun hrefused y hy hserves
    rw [hbefore, hafter] at harmed
    cases harmed
  · intro h
    simp only [switchesSource, Bool.and_eq_true, bne_iff_ne] at hswitches
    exact hswitches.2 (h _ s hrun hrefused z hz hswitches.1)

end RobotCore
