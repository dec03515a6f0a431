import RobotCore.System.Equiv.Readiness.Publish

/-!
# The goals keep the invariant

The calls of the goals that the trajectory node serves (`ReadinessInvariant.serve`), and the steps
of the goals (`ReadinessInvariant.resume`).
-/

namespace RobotCore

open Ieee Machine Scalar

variable {α : Type} [Scalar α] {ofDouble : Binary64 → α} {catalog : TaskCatalog}
  {requests : ℕ → String}

variable {task : TrackingTask} {s s' : ReadinessSystem α} {i : ℕ} {pc : ExperimentPc}

/-! ### Calls -/

omit [Scalar α] in
/-- A goal that has no run yet has not touched the trajectory. -/
theorem stage_of_quiet {call : Option PendingCall} (h : Quiet pc call) : Stage task s i pc := by
  have hstands := h.stands
  unfold Stage
  split
  case h_5 => exact trivial
  all_goals rcases hstands with h | h | h <;> cases h

/-- What a call of the trajectory node does. -/
theorem serveTrajectory_cases {event : ExperimentEvent} {nowNs : ℤ} {reply : ServiceReply}
    (h : serveTrajectory ofDouble s event nowNs = some (s', reply)) :
    ∃ trajectory, s' = { s with trajectory } ∧ event.callsTrajectory = true ∧
      (∀ settings, event = .setParameters settings →
        trajectory.config = settings.foldl (TrajectoryConfig.set ofDouble) s.trajectory.config) ∧
      (event = .validate ∨ event = .reset → trajectory.config = s.trajectory.config) ∧
      (event = .reset → ∀ message, reply = .trigger true message → Tracks trajectory) := by
  unfold serveTrajectory at h
  split at h
  · cases h
    refine ⟨_, rfl, rfl, fun settings heq => ?_, nofun, nofun⟩
    cases heq
    rfl
  · cases h
    exact ⟨_, rfl, rfl, nofun, fun _ => config_onValidateScenario _, nofun⟩
  · cases h
    obtain ⟨hconfig, htracks⟩ := onResetScenario_spec s.trajectory nowNs
    refine ⟨_, rfl, rfl, nofun, fun _ => hconfig, fun _ message hreply => htracks ?_⟩
    injection hreply
  · cases h
    exact ⟨_, rfl, rfl, nofun, nofun, nofun⟩
  · cases h

theorem not_callsTrajectory_of_serveTrajectory {event : ExperimentEvent} {nowNs : ℤ}
    (h : serveTrajectory ofDouble s event nowNs = none) : event.callsTrajectory = false := by
  cases event with
  | setParameters _ | validate | reset | stopTrajectory _ => cases h
  | _ => rfl

omit [Scalar α] in
theorem Quiet.answer (h : Quiet pc (s.calls i)) {reply : ServiceReply}
    (hreply : reply.startsRun = false) : Quiet pc (some (.answered reply)) where
  stands := h.stands
  sent _ heq := by cases heq
  answered _ heq := by
    cases heq
    exact hreply

/-- The trajectory node serves the call of a goal. -/
theorem Stage.serve (h : Stage task s i pc) (htype : (task.trajectory .trajectoryType).isSome)
    {event : ExperimentEvent} (hcall : s.calls i = some (.sent event)) {nowNs : ℤ}
    {reply : ServiceReply} {trajectory : TrajectoryNode α}
    (hserve : serveTrajectory ofDouble s event nowNs = some ({ s with trajectory }, reply)) :
    Stage task { s with
      trajectory, calls := Function.update s.calls i (some (.answered reply)) } i pc := by
  obtain ⟨_, heq, -, hsettings, hconfig, htracks⟩ := serveTrajectory_cases hserve
  obtain rfl : trajectory = _ := congrArg (·.trajectory) heq
  unfold Stage at h ⊢
  dsimp only
  rw [Function.update_self]
  rw [hcall] at h
  split
  -- the parameters are set, so that the node has the scenario of the task
  case h_1 =>
    refine Or.inr ⟨⟨reply, rfl⟩, ?_⟩
    rcases h with h | ⟨⟨_, h⟩, -⟩
    · cases h
      rw [hsettings _ rfl]
      exact prepared_of_setParameters _ htype
    · cases h
  -- validating leaves them alone
  case h_2 =>
    rcases h with ⟨h | ⟨_, h⟩, hprepared⟩
    · cases h
      exact ⟨Or.inr ⟨reply, rfl⟩, by rw [hconfig (Or.inl rfl)]; exact hprepared⟩
    · cases h
  -- after the reset the node tracks
  case h_3 =>
    rcases h with ⟨h | ⟨_, h, -⟩, hprepared, hreset⟩
    · cases h
      refine ⟨Or.inr ⟨reply, rfl, htracks rfl⟩, by rw [hconfig (Or.inr rfl)]; exact hprepared, ?_⟩
      unfold ResetTargets TargetOf at hreset ⊢
      dsimp only
      rw [hconfig (Or.inr rfl)]
      exact hreset
    · cases h
  case h_4 => cases h.1
  case h_5 => exact trivial

omit [Scalar α] in
/-- A goal whose call is not one of the trajectory node does not stand where it prepares one. -/
theorem Stage.of_foreign (h : Stage task s i pc) {event : ExperimentEvent}
    (hcall : s.calls i = some (.sent event)) (hevent : event.callsTrajectory = false) :
    Stage task s' i pc := by
  unfold Stage at h ⊢
  rw [hcall] at h
  split
  case h_1 =>
    rcases h with h | ⟨⟨_, h⟩, -⟩
    · cases h
      cases hevent
    · cases h
  case h_2 =>
    rcases h with ⟨h | ⟨_, h⟩, -⟩
    · cases h
      cases hevent
    · cases h
  case h_3 =>
    rcases h with ⟨h | ⟨_, h, -⟩, -⟩
    · cases h
      cases hevent
    · cases h
  case h_4 => cases h.1
  case h_5 => exact trivial

theorem ReadinessInvariant.serve (h : ReadinessInvariant catalog requests s)
    (htype : ∀ t task, catalog.task t = .ok task → (task.trajectory .trajectoryType).isSome)
    {nowNs : ℤ} {reply : ServiceReply} (hserve : serveGoal ofDouble s i nowNs reply = some s') :
    ReadinessInvariant catalog requests s' := by
  unfold serveGoal at hserve
  split at hserve
  · rename_i event hcall
    split at hserve
    · -- the trajectory node serves the call, which is then one of the goal with a run
      rename_i t reply' hserved
      obtain ⟨trajectory, rfl, hevent, -⟩ := serveTrajectory_cases hserved
      have hactive : s.active = some i := by
        by_contra hactive
        rw [(h.quiet i hactive).sent event hcall] at hevent
        cases hevent
      cases hserve
      refine ⟨fun j hj => ?_, fun j task hj htask => ?_, h.requested, h.held, h.unselected,
        h.latest⟩
      · have hne : j ≠ i := fun heq => hj (heq ▸ hactive)
        dsimp only
        rw [Function.update_of_ne hne]
        exact h.quiet j hj
      · obtain rfl : j = i := Option.some.inj (hj.symm.trans hactive)
        exact (h.stage j task hj htask).serve (htype _ _ htask) hcall hserved
    · rename_i hserved
      -- another node serves the call
      have hevent := not_callsTrajectory_of_serveTrajectory hserved
      dsimp only at hserve
      split_ifs at hserve with hstarts hfree
      · -- the recorder starts a run
        cases hserve
        rw [Option.isNone_iff_eq_none] at hfree
        have hquiet (j : ℕ) : Quiet (s.server.goals j).pc (s.calls j) :=
          h.quiet j (by rw [hfree]; exact nofun)
        refine ⟨fun j hj => ?_, fun j task hj _ => ?_, h.requested, h.held, h.unselected, h.latest⟩
        · have hne : j ≠ i := fun heq => hj (heq ▸ rfl)
          dsimp only
          rw [Function.update_of_ne hne]
          exact hquiet j
        · exact stage_of_quiet (hquiet j)
      -- a call that starts no run touches neither the trajectory nor the other goals
      · cases hserve
        rw [Bool.not_eq_true] at hstarts
        refine ⟨fun j hj => ?_, fun j task hj htask => ?_, h.requested, h.held, h.unselected,
          h.latest⟩
        · by_cases hji : j = i
          · subst hji
            dsimp only
            rw [Function.update_self]
            exact (h.quiet j hj).answer hstarts
          · dsimp only
            rw [Function.update_of_ne hji]
            exact h.quiet j hj
        · by_cases hji : j = i
          · subst hji
            exact (h.stage j task hj htask).of_foreign hcall hevent
          · exact (h.stage j task hj htask).mono (Function.update_of_ne hji _ _) ⟨rfl, rfl⟩
              (fun htargets => htargets) fun _ _ _ h => ⟨h.links, h.latest⟩
  · cases hserve

/-! ### Steps of the goals -/

theorem newCall_ne_answered (events : List ExperimentEvent) (reply : ServiceReply) :
    newCall events ≠ some (.answered reply) := by
  intro h
  obtain ⟨_, -, heq⟩ := Option.map_eq_some_iff.mp h
  cases heq

section Resume

variable {node : ExperimentNode} {w : Wakeup} {cancelRequested : Bool} {progress : Progress}
  {call : Option PendingCall}

/-- A goal that goes on with a reply that starts its run has been told so. -/
theorem answered_of_startsRun (hanswers : answers call w.reply = true)
    (hstarts : startsRun pc w.reply = true) :
    ∃ reply, call = some (.answered reply) ∧ reply.startsRun = true := by
  unfold startsRun at hstarts
  split at hstarts
  · rename_i success runDir message hreply
    rw [hreply] at hanswers
    unfold answers at hanswers
    split at hanswers
    · rw [Bool.or_eq_true] at hanswers
      rcases hanswers with heq | heq <;> cases of_decide_eq_true heq
    · cases hanswers
    · obtain rfl := of_decide_eq_true hanswers
      exact ⟨_, rfl, hstarts⟩
  · cases hstarts

/-- Progress of a goal without a run. -/
structure StaysQuiet (progress : Progress) : Prop where
  quiet : Quiet progress.2 (newCall progress.1)
  reset : progress.1.contains .reset = false

theorem staysQuiet_of_harmless (h : Harmless progress) : StaysQuiet progress where
  quiet :=
    ⟨h.2.elim Or.inl fun h => Or.inr (Or.inl h),
      fun event hcall => callsTrajectory_of_isNeutral (h.1 event (mem_of_newCall hcall)),
      fun reply hcall => absurd hcall (newCall_ne_answered _ reply)⟩
  reset := by
    rw [Bool.eq_false_iff, ne_eq, List.contains_iff_mem]
    exact fun hreset => Bool.false_ne_true (h.1 _ hreset)

theorem staysQuiet_finishRun (ending : RunEnd) : StaysQuiet (finishRun ending) := by
  refine ⟨?_, ?_⟩
  · rw [newCall_finishRun]
    exact quiet_none (Or.inr (Or.inr rfl))
  · unfold finishRun
    split_ifs <;> rfl

/-- A goal without a run goes on without one. -/
theorem Quiet.resume (h : Quiet pc call) (hanswers : answers call w.reply = true)
    (hresume : resume task node w cancelRequested pc = some progress) : StaysQuiet progress := by
  have hstarts : startsRun pc w.reply = false := by
    by_contra hstarts
    rw [Bool.not_eq_false] at hstarts
    obtain ⟨reply, hcall, hreply⟩ := answered_of_startsRun hanswers hstarts
    rw [h.answered reply hcall] at hreply
    cases hreply
  by_cases hpc : isUnstarted pc = true
  · exact staysQuiet_of_harmless (harmless_resume hpc hresume hstarts)
  · have hstands := h.stands
    unfold RobotCore.resume at hresume
    split at hresume <;> cases hresume
    case h_17 => exact staysQuiet_finishRun _
    all_goals first
      | exact absurd rfl hpc
      | rcases hstands with h | h | h <;> cases h

end Resume

/-- The state after a goal has gone on to `pc'`. -/
def ReadinessSystem.after (s : ReadinessSystem α) (i : ℕ) (events : List ExperimentEvent)
    (pc' : ExperimentPc) : ReadinessSystem α :=
  { s with
    server :=
      { s.server with
        goals := Function.update s.server.goals i { s.server.goals i with pc := pc' } }
    active := s.activeAfter i pc'
    calls := Function.update s.calls i (newCall events)
    resetRequested := if events.contains .reset then s.targets.length else s.resetRequested }

section After

variable {events : List ExperimentEvent} {pc' : ExperimentPc} {j : ℕ}

omit [Scalar α] in
@[simp] theorem after_pc_self : ((s.after i events pc').server.goals i).pc = pc' := by
  simp [ReadinessSystem.after]

omit [Scalar α] in
theorem after_pc_of_ne (h : j ≠ i) :
    ((s.after i events pc').server.goals j).pc = (s.server.goals j).pc := by
  simp [ReadinessSystem.after, h]

omit [Scalar α] in
@[simp] theorem after_calls_self : (s.after i events pc').calls i = newCall events :=
  Function.update_self ..

omit [Scalar α] in
theorem after_calls_of_ne (h : j ≠ i) : (s.after i events pc').calls j = s.calls j :=
  Function.update_of_ne h ..

end After

omit [Scalar α] in
/-- What a resumption of a goal does. -/
theorem resumeExecution_cases {w : Wakeup} {events : List ExperimentEvent}
    (h : resumeExecution catalog requests s i w = some (s', events)) :
    answers (s.calls i) w.reply = true ∧ ∃ pc',
      resumeGoal (catalog.task (requests i)) s.server.node (s.server.goals i) w
          = some (events, pc') ∧ s' = s.after i events pc' := by
  unfold resumeExecution at h
  split_ifs at h with hanswers
  refine ⟨hanswers, ?_⟩
  obtain ⟨⟨server, events'⟩, hstep, heq⟩ := Option.map_eq_some_iff.mp h
  unfold experimentStep at hstep
  obtain ⟨⟨events'', pc'⟩, hgoal, heq'⟩ := Option.map_eq_some_iff.mp hstep
  cases heq'
  cases heq
  refine ⟨pc', hgoal, ?_⟩
  simp only [ReadinessSystem.after, Function.update_self]

omit [Scalar α] in
/-- The step of a goal that has a run. -/
theorem ReadinessInvariant.stage_after (h : ReadinessInvariant catalog requests s) {w : Wakeup}
    {events : List ExperimentEvent} {pc' : ExperimentPc} (hactive : s.active = some i)
    (htask : catalog.task (requests i) = .ok task) (hanswers : answers (s.calls i) w.reply = true)
    (hresume : RobotCore.resume task s.server.node w (s.server.goals i).cancelRequested
      (s.server.goals i).pc = some (events, pc'))
    (hsees : task.controller = .pid →
      firstSees task s.server.node w (s.server.goals i).pc = true → s.isUndelayed = true) :
    Stage task (s.after i events pc') i pc' := by
  have hprepares := prepares_resume hresume
  have hstage := h.stage i task hactive htask
  unfold Prepares at hprepares
  dsimp only at hprepares
  unfold Stage
  rw [after_calls_self]
  split
  -- the goal sends its parameters
  case h_1 =>
    dsimp only at hprepares
    rw [hprepares]
    exact Or.inl rfl
  -- they have been answered, and the goal asks for the validation
  case h_2 =>
    dsimp only at hprepares
    obtain ⟨rfl, runDir, successful, hpc, -⟩ := hprepares
    rw [hpc] at hstage
    refine ⟨Or.inl rfl, ?_⟩
    rcases hstage with hsent | ⟨-, hprepared⟩
    · rw [hsent] at hanswers
      cases hanswers
    · exact hprepared
  -- the goal asks for the reset: no target has been published since
  case h_3 =>
    dsimp only at hprepares
    obtain ⟨rfl, runDir, message, hpc, -⟩ := hprepares
    rw [hpc] at hstage
    refine ⟨Or.inl rfl, hstage.2, fun k target hk htarget => ?_⟩
    have hlt := (List.getElem?_eq_some_iff.mp htarget).1
    exact absurd hlt (not_lt_of_ge hk)
  -- the goal waits, for the first time or on
  case h_4 wait =>
    dsimp only at hprepares
    obtain ⟨rfl, before, nowNs, hcheck, hnow, rfl⟩ := hprepares
    obtain ⟨hprepared, htracks, hreset, hwait⟩ : Prepared task s.trajectory.config ∧
        Tracks s.trajectory ∧ ResetTargets s ∧ (task.controller = .pid → ∀ sequence,
          before.controllerSequenceAtTarget = some sequence → Undelayed s sequence) := by
      have hcheck' := hcheck
      unfold readyCheck at hcheck'
      split at hcheck'
      · rename_i runDir targets message hpc hreply
        cases hcheck'
        rw [hpc] at hstage
        obtain ⟨hcall, hprepared, hreset⟩ := hstage
        rw [hreply] at hanswers
        rcases hcall with hsent | ⟨reply, hanswered, htracks⟩
        · rw [hsent] at hanswers
          cases hanswers
        · rw [hanswered] at hanswers
          exact ⟨hprepared, htracks message (of_decide_eq_true hanswers).symm, hreset,
            fun _ => nofun⟩
      · rename_i runDir wait hpc hreply
        cases hcheck'
        rw [hpc] at hstage
        exact hstage.2
      · cases hcheck'
    refine ⟨rfl, hprepared, htracks, hreset, fun hpid sequence hmark => ?_⟩
    -- the mark is from before, or the goal first sees the target now
    rcases mark_eq_of_pid hpid hmark with hbefore | ⟨hnone, rfl⟩
    · have hsent := hwait hpid sequence hbefore
      exact ⟨hsent.links, hsent.latest⟩
    · exact ⟨hsees hpid (firstSees_of_mark hcheck hnow hnone hmark),
        fun hlt => absurd hlt (lt_irrefl _)⟩
  case h_5 => exact trivial

omit [Scalar α] in
theorem hasStopped_cases (h : pc.hasStopped = true) :
    (∃ ending, pc = .stoppingRun ending) ∨ ∃ result, pc = .done result := by
  unfold ExperimentPc.hasStopped at h
  split at h
  · exact Or.inl ⟨_, rfl⟩
  · exact Or.inr ⟨_, rfl⟩
  · cases h

omit [Scalar α] in
/-- A goal that has told the recorder to stop its run. -/
theorem quiet_of_hasStopped {node : ExperimentNode} {w : Wakeup} {progress : Progress}
    (h : Prepares task node w pc progress) (hstopped : progress.2.hasStopped = true) :
    Quiet progress.2 (newCall progress.1) := by
  refine ⟨Or.inr (Or.inr hstopped), ?_,
    fun reply hcall => absurd hcall (newCall_ne_answered _ reply)⟩
  obtain ⟨ending, heq⟩ | ⟨result, heq⟩ := hasStopped_cases hstopped
  · rw [Prepares, heq] at h
    exact h
  · rw [Prepares, heq] at h
    exact h

omit [Scalar α] in
/-- A goal whose task cannot be resolved is refused. -/
theorem resumeGoal_error {reason : String} {node : ExperimentNode} {goal : ExperimentGoal}
    {w : Wakeup} {progress : Progress}
    (h : resumeGoal (.error reason) node goal w = some progress) :
    ∃ message, progress = refuse message := by
  unfold resumeGoal at h
  dsimp only at h
  split at h
  · exact ⟨_, (Option.some.inj h).symm⟩
  · cases h

omit [Scalar α] in
/-- The step of a goal. -/
theorem ReadinessInvariant.resume (h : ReadinessInvariant catalog requests s) {w : Wakeup}
    {events : List ExperimentEvent}
    (hresume : resumeExecution catalog requests s i w = some (s', events))
    (hsees : seesUndelayed catalog requests ⟨s, .resume i w, events, s'⟩ = true) :
    ReadinessInvariant catalog requests s' := by
  obtain ⟨hanswers, pc', hgoal, rfl⟩ := resumeExecution_cases hresume
  -- a goal without a run stays without one
  have hquiet : s.active ≠ some i → StaysQuiet (events, pc') := by
    intro hactive
    cases htask : catalog.task (requests i) with
    | error reason =>
      rw [htask] at hgoal
      obtain ⟨message, hrefuse⟩ := resumeGoal_error hgoal
      rw [hrefuse]
      exact staysQuiet_of_harmless (harmless_refuse message)
    | ok task =>
      rw [htask] at hgoal
      exact (h.quiet i hactive).resume hanswers hgoal
  -- a goal that has stopped its run is quiet
  have hstopped : pc'.hasStopped = true → Quiet pc' (newCall events) := by
    intro hstopped
    cases htask : catalog.task (requests i) with
    | error reason =>
      rw [htask] at hgoal
      obtain ⟨message, hrefuse⟩ := resumeGoal_error hgoal
      have hquiet := (staysQuiet_of_harmless (harmless_refuse message)).quiet
      rw [← hrefuse] at hquiet
      exact hquiet
    | ok task =>
      rw [htask] at hgoal
      exact quiet_of_hasStopped (prepares_resume hgoal) hstopped
  refine ⟨fun j hj => ?_, fun j task hj htask => ?_, ?_, h.held, h.unselected, h.latest⟩
  -- the goals without a run after the step
  · by_cases hji : j = i
    · subst hji
      rw [after_pc_self, after_calls_self]
      by_cases hactive : s.active = some j
      · refine hstopped ?_
        by_contra hruns
        refine hj ?_
        rw [ReadinessSystem.after, ReadinessSystem.activeAfter, if_neg (by simp [hruns])]
        exact hactive
      · exact (hquiet hactive).quiet
    · rw [after_pc_of_ne hji, after_calls_of_ne hji]
      refine h.quiet j fun hactive => hj ?_
      have hne : (s.active == some i) = false := by
        rw [hactive]
        simpa using hji
      rw [ReadinessSystem.after, ReadinessSystem.activeAfter, if_neg (by simp [hne])]
      exact hactive
  -- the goal with a run: it has gone on itself, or another one has
  · have hactive : s.active = some j := by
      rw [ReadinessSystem.after, ReadinessSystem.activeAfter] at hj
      dsimp only at hj
      split_ifs at hj
      exact hj
    by_cases hji : j = i
    · subst hji
      rw [after_pc_self]
      have hgoal' := hgoal
      rw [htask] at hgoal'
      refine h.stage_after hactive htask hanswers hgoal' fun hpid hfirst => ?_
      unfold seesUndelayed at hsees
      dsimp only at hsees
      rw [htask] at hsees
      dsimp only at hsees
      rw [hpid, hfirst] at hsees
      exact hsees
    -- another goal cannot have asked for a reset, so that the messages are as old as before
    · rw [after_pc_of_ne hji]
      have hreset := (hquiet fun heq => hji (Option.some.inj (hactive.symm.trans heq))).reset
      have hrequested : (s.after i events pc').resetRequested = s.resetRequested := if_neg (by
        rw [hreset]
        exact Bool.false_ne_true)
      have hofReset : (s.after i events pc').ofReset = s.ofReset := by
        funext k
        unfold ReadinessSystem.ofReset
        rw [hrequested]
        rfl
      have huses : (s.after i events pc').usesReset = s.usesReset := by
        funext k
        unfold ReadinessSystem.usesReset
        rw [hofReset]
        rfl
      have hlinks : (s.after i events pc').isUndelayed = s.isUndelayed := by
        unfold ReadinessSystem.isUndelayed ReadinessSystem.isCurrent
        rw [hofReset, huses]
        rfl
      refine (h.stage j task hactive htask).mono (after_calls_of_ne hji) ⟨rfl, rfl⟩
        (fun htargets => htargets.keep ⟨rfl, rfl⟩ hrequested rfl) fun _ _ sequence hsent => ?_
      exact ⟨hlinks.trans hsent.links, by rw [huses]; exact hsent.latest⟩
  · unfold ReadinessSystem.after
    dsimp only
    split_ifs
    · exact le_rfl
    · exact h.requested

end RobotCore
