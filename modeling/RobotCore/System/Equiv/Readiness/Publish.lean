import RobotCore.System.Equiv.Readiness.Invariant

/-!
# The nodes and the links keep the invariant

The steps of the trajectory node and of the PID node, what they publish, and the deliveries.
-/

namespace RobotCore

open Ieee Machine Scalar

variable {α : Type} [Scalar α] {ofDouble : Binary64 → α} {catalog : TaskCatalog}
  {requests : ℕ → String}

variable {task : TrackingTask} {s s' : ReadinessSystem α} {i : ℕ} {pc : ExperimentPc}

/-! ### Steps of the nodes -/

omit [Scalar α] in
theorem ResetTargets.keep (h : ResetTargets s) (hkeeps : KeepsTracking s.trajectory s'.trajectory)
    (hrequested : s'.resetRequested = s.resetRequested) (htargets : s'.targets = s.targets) :
    ResetTargets s' := by
  unfold ResetTargets TargetOf at h ⊢
  rw [hrequested, htargets, hkeeps.config]
  exact h

omit [Scalar α] in
/-- The trajectory node receives something. -/
theorem ReadinessInvariant.withTrajectory (h : ReadinessInvariant catalog requests s)
    {trajectory : TrajectoryNode α} (hkeeps : KeepsTracking s.trajectory trajectory) :
    ReadinessInvariant catalog requests { s with trajectory } :=
  h.frame (fun _ => rfl) rfl rfl hkeeps (fun htargets => htargets.keep hkeeps rfl rfl)
    (fun _ _ _ h => ⟨h.links, h.latest⟩) h.requested h.held h.unselected h.latest

omit [Scalar α] in
/-- The server receives something that is no status of the PID node. -/
theorem ReadinessInvariant.receive (h : ReadinessInvariant catalog requests s)
    {message : ExperimentMessage} (hmessage : ∀ status, message ≠ .pidStatus status) :
    ReadinessInvariant catalog requests (s.receive message) := by
  have hlatest : (s.server.node.receive message).latestPidStatus
      = s.server.node.latestPidStatus := by
    cases message with
    | pidStatus status => exact absurd rfl (hmessage status)
    | _ => rfl
  have hsequence : (s.server.node.receive message).pidStatusSequence
      = s.server.node.pidStatusSequence := by
    cases message with
    | pidStatus status => exact absurd rfl (hmessage status)
    | _ => rfl
  refine h.frame (fun _ => rfl) rfl rfl ⟨rfl, rfl⟩ (fun htargets => htargets) ?_ h.requested h.held
    h.unselected ?_
  · exact fun _ _ sequence hsent => ⟨hsent.links, fun hlt => hsent.latest (hsequence ▸ hlt)⟩
  · exact fun status hstatus => h.latest status (hlatest ▸ hstatus)

theorem keepsTracking_onBodyPose (node : TrajectoryNode α) (msg : BodyPose α) :
    KeepsTracking node (onBodyPose node msg) :=
  have hkeeps := keepsScenario_onBodyPose node msg
  ⟨congrArg (·.1) hkeeps.scenario, hkeeps.trackingStarted⟩

omit [Scalar α] in
theorem SameScenario.keepsTracking {node node' : TrajectoryNode α} (h : SameScenario node node') :
    KeepsTracking node node' :=
  ⟨h.config, h.trackingStarted⟩

/-! ### Messages that are published -/

theorem getElem?_concat_of_some {β : Type} {xs : List β} {k : ℕ} {a b : β} (h : xs[k]? = some b) :
    (xs ++ [a])[k]? = some b := by
  rw [List.getElem?_append_left (List.getElem?_eq_some_iff.mp h).1]
  exact h

theorem getElem?_concat_cases {β : Type} {xs : List β} {k : ℕ} {a b : β}
    (h : (xs ++ [a])[k]? = some b) : xs[k]? = some b ∨ k = xs.length ∧ b = a := by
  rcases lt_trichotomy k xs.length with hk | rfl | hk
  · rw [List.getElem?_append_left hk] at h
    exact Or.inl h
  · rw [List.getElem?_concat_length] at h
    exact Or.inr ⟨rfl, (Option.some.inj h).symm⟩
  · rw [List.getElem?_eq_none (by rw [List.length_append]; exact hk)] at h
    cases h

section Publish

variable {target : ScenarioTarget} {used : UsedStatus} {j k : ℕ}

omit [Scalar α] in
theorem ofReset_concat (htargets : s'.targets = s.targets ++ [target])
    (hrequested : s'.resetRequested = s.resetRequested) (h : s.ofReset k = true) :
    s'.ofReset k = true := by
  unfold ReadinessSystem.ofReset at h ⊢
  rw [hrequested, htargets]
  rw [Bool.and_eq_true, Option.any_eq_true] at h ⊢
  obtain ⟨hk, target', htarget, hidle⟩ := h
  exact ⟨hk, target', getElem?_concat_of_some htarget, hidle⟩

omit [Scalar α] in
theorem isCurrent_concat (htargets : s'.targets = s.targets ++ [target])
    (hrequested : s'.resetRequested = s.resetRequested)
    (hnew : s'.ofReset s.targets.length = true) (h : s.isCurrent k = true) :
    s'.isCurrent k = true := by
  unfold ReadinessSystem.isCurrent at h ⊢
  rw [Option.all_eq_true] at h ⊢
  intro target' htarget
  rw [htargets] at htarget
  rcases getElem?_concat_cases htarget with hold | ⟨rfl, rfl⟩
  · have hcurrent := h target' hold
    rw [Bool.or_eq_true] at hcurrent ⊢
    exact hcurrent.imp_right (ofReset_concat htargets hrequested)
  · rw [hnew, Bool.or_true]

omit [Scalar α] in
theorem isCurrent_of_ofReset (h : s.ofReset k = true) : s.isCurrent k = true := by
  unfold ReadinessSystem.isCurrent
  rw [Option.all_eq_true]
  intro target _
  rw [h, Bool.or_true]

omit [Scalar α] in
theorem usesReset_mono (hstatuses : s'.statuses = s.statuses)
    (hreset : ∀ k, s.ofReset k = true → s'.ofReset k = true) (h : s.usesReset j = true) :
    s'.usesReset j = true := by
  unfold ReadinessSystem.usesReset at h ⊢
  rw [hstatuses]
  rw [Option.all_eq_true] at h ⊢
  intro used hused
  have huses := h used hused
  rw [Bool.or_eq_true] at huses ⊢
  refine huses.imp_right fun hany => ?_
  rw [Option.any_eq_true] at hany ⊢
  obtain ⟨k, hk, hk'⟩ := hany
  exact ⟨k, hk, hreset k hk'⟩

omit [Scalar α] in
/-- While the node tracks, a target that is published is one of the reset. -/
theorem Undelayed.publishTarget {sequence : ℕ} (h : Undelayed s sequence)
    (htargets : s'.targets = s.targets ++ [target])
    (hrequested : s'.resetRequested = s.resetRequested)
    (hnew : s'.ofReset s.targets.length = true) (hpid : s'.pidTarget = s.pidTarget)
    (hlink : s'.targetsToPid = s.targetsToPid ∨
      s'.targetsToPid = s.targetsToPid ++ [s.targets.length])
    (hstatuses : s'.statuses = s.statuses) (hstatusLink : s'.statusesToServer = s.statusesToServer)
    (hlatest : s'.latestStatus = s.latestStatus) (hserver : s'.server = s.server) :
    Undelayed s' sequence := by
  have hcurrent (k : ℕ) (hk : s.isCurrent k = true) : s'.isCurrent k = true :=
    isCurrent_concat htargets hrequested hnew hk
  have huses (j : ℕ) (hj : s.usesReset j = true) : s'.usesReset j = true :=
    usesReset_mono hstatuses (fun k => ofReset_concat htargets hrequested) hj
  refine ⟨?_, ?_⟩
  · have hlinks := h.links
    unfold ReadinessSystem.isUndelayed at hlinks ⊢
    simp only [Bool.and_eq_true, Option.all_eq_true, List.all_eq_true] at hlinks ⊢
    obtain ⟨⟨hheld, hsent⟩, hstatus⟩ := hlinks
    rw [hpid, hstatusLink]
    refine ⟨⟨fun k hk => hcurrent k (hheld k hk), fun k hk => ?_⟩,
      fun j hj => huses j (hstatus j hj)⟩
    rcases hlink with hlink | hlink
    · exact hcurrent k (hsent k (hlink ▸ hk))
    · rw [hlink, List.mem_append, List.mem_singleton] at hk
      rcases hk with hk | rfl
      · exact hcurrent k (hsent k hk)
      · exact isCurrent_of_ofReset hnew
  · rw [hserver, hlatest]
    exact fun hlt j hj => huses j (h.latest hlt j hj)

end Publish

theorem ReadinessInvariant.publishTarget (h : ReadinessInvariant catalog requests s) (nowNs : ℤ) :
    ReadinessInvariant catalog requests (publishTarget s nowNs) := by
  obtain ⟨hkeeps, htarget⟩ := trajectoryTick_spec s.trajectory nowNs
  let target := (trajectoryTick s.trajectory nowNs).2.scenario
  refine h.frame (fun _ => rfl) rfl rfl hkeeps ?_ ?_ ?_ ?_ ?_ h.latest
  -- the targets since the reset: those there were, and the one of this tick
  · intro hreset k target' hk htarget'
    rcases getElem?_concat_cases htarget' with hold | ⟨rfl, rfl⟩
    · refine (hreset k target' hk hold).imp_right fun hof => ?_
      exact ⟨hof.1.trans (congrArg (·.activeType) hkeeps.config.symm),
        hof.2.trans (congrArg (·.activeMode) hkeeps.config.symm)⟩
    · rcases htarget with hof | ⟨-, hidle⟩
      · exact Or.inr ⟨hof.1.trans (congrArg (·.activeType) hkeeps.config.symm),
          hof.2.trans (congrArg (·.activeMode) hkeeps.config.symm)⟩
      · exact Or.inl hidle
  -- while the node tracks, the new target is one of the reset
  · intro htracks hreset sequence hsent
    have hof : TargetOf s.trajectory target := by
      rcases htarget with hof | ⟨hidle, -⟩
      · exact hof
      · rw [htracks.trackingStarted] at hidle
        cases hidle
    have hnew : (RobotCore.publishTarget s nowNs).ofReset s.targets.length = true := by
      have hne : target.trajectoryType ≠ "idle" := by
        rw [hof.1]
        exact htracks.ne_idle
      unfold ReadinessSystem.ofReset
      rw [Bool.and_eq_true]
      refine ⟨decide_eq_true h.requested, ?_⟩
      show ((s.targets ++ [target])[s.targets.length]?.any _) = true
      rw [List.getElem?_concat_length, Option.any_some]
      exact bne_iff_ne.mpr hne
    refine hsent.publishTarget rfl rfl hnew rfl ?_ rfl rfl rfl rfl
    unfold RobotCore.publishTarget
    dsimp only
    split_ifs
    · exact Or.inr rfl
    · exact Or.inl rfl
  · exact h.requested.trans (by simp [RobotCore.publishTarget])
  -- the target the PID node holds is still in the log
  · intro target' stampNs htarget'
    obtain ⟨k, hk, hk'⟩ := h.held target' stampNs htarget'
    exact ⟨k, hk, getElem?_concat_of_some hk'⟩
  -- and one that is not selected gets none
  · intro hselected
    obtain ⟨hnone, hempty⟩ := h.unselected hselected
    refine ⟨hnone, ?_⟩
    have hselected' : s.pid.pidSelected = false := hselected
    unfold RobotCore.publishTarget
    dsimp only
    rw [if_neg (by rw [hselected']; exact Bool.false_ne_true)]
    exact hempty

/-! ### Steps of the PID node -/

/-- A target that all inputs are there with is valid. -/
theorem target_of_usable {node : PidReadiness} {nowNs : ℤ} (h : node.missingInputs nowNs = []) :
    ∃ target stampNs, node.target = some (target, stampNs) ∧ target.valid = true := by
  unfold PidReadiness.missingInputs at h
  simp only [List.append_eq_nil_iff] at h
  obtain ⟨⟨⟨⟨⟨⟨⟨⟨-, htype⟩, -⟩, -⟩, -⟩, -⟩, -⟩, -⟩, hvalid⟩ := h
  cases htarget : node.target with
  | none =>
    rw [htarget] at htype
    exact absurd htype (by decide)
  | some held =>
    obtain ⟨target, stampNs⟩ := held
    refine ⟨target, stampNs, rfl, ?_⟩
    rw [htarget] at hvalid
    unfold missingIf at hvalid
    split_ifs at hvalid with hinvalid
    rw [Option.map_some, Option.any_some, Bool.not_eq_true', Bool.not_eq_false] at hinvalid
    exact hinvalid

/-- What a tick of the PID node does: it keeps its inputs, and a ready status has them all. -/
theorem pidTickStatus_spec (node : PidReadiness) (nowNs : ℤ) (law : PidLaw) :
    (pidTickStatus node nowNs law).1.target = node.target ∧
      (pidTickStatus node nowNs law).1.pidSelected = node.pidSelected ∧
        ∀ status, (pidTickStatus node nowNs law).2 = some status → status.ready = true →
          node.missingInputs nowNs = [] := by
  unfold pidTickStatus
  dsimp only
  split_ifs with hselected hmissing hdt
  · exact ⟨rfl, rfl, nofun⟩
  · refine ⟨rfl, rfl, fun status hstatus hready => ?_⟩
    cases hstatus
    cases hready
  · refine ⟨rfl, rfl, fun status hstatus hready => ?_⟩
    cases hstatus
    cases hready
  · rw [Bool.not_eq_true, Bool.not_eq_false', List.isEmpty_iff] at hmissing
    cases law with
    | command => exact ⟨rfl, rfl, fun _ _ _ => hmissing⟩
    | disabled reasons => exact ⟨rfl, rfl, fun _ _ _ => hmissing⟩
    | exception => exact ⟨rfl, rfl, nofun⟩

omit [Scalar α] in
/-- The PID node receives a measurement. -/
theorem ReadinessInvariant.withPid (h : ReadinessInvariant catalog requests s) {pid : PidReadiness}
    (htarget : pid.target = s.pid.target) (hselected : pid.pidSelected = s.pid.pidSelected) :
    ReadinessInvariant catalog requests { s with pid } := by
  refine h.frame (fun _ => rfl) rfl rfl ⟨rfl, rfl⟩ (fun htargets => htargets)
    (fun _ _ _ h => ⟨h.links, h.latest⟩) h.requested ?_ ?_ h.latest
  · exact fun target stampNs heq => h.held target stampNs (htarget.symm.trans heq)
  · intro hunselected
    obtain ⟨hnone, hempty⟩ := h.unselected (hselected.symm.trans hunselected)
    exact ⟨htarget.trans hnone, hempty⟩

/-- A selection keeps the target of a node that is selected. -/
theorem onPidSelection_cases (node : PidReadiness) (message : ControlAuthorityStatus) :
    (onPidSelection node message).pidSelected = true ∧
        (onPidSelection node message).target = node.target ∨
      (onPidSelection node message).pidSelected = false ∧
        ((onPidSelection node message).target = none ∨
          node.pidSelected = false ∧ (onPidSelection node message).target = node.target) := by
  unfold onPidSelection
  dsimp only
  split_ifs with hsame hselected
  · cases hpid : node.pidSelected with
    | true => exact Or.inl ⟨rfl, rfl⟩
    | false => exact Or.inr ⟨rfl, Or.inr ⟨rfl, rfl⟩⟩
  · exact Or.inl ⟨rfl, rfl⟩
  · exact Or.inr ⟨rfl, Or.inl rfl⟩

omit [Scalar α] in
theorem ReadinessInvariant.selectPid (h : ReadinessInvariant catalog requests s)
    (message : ControlAuthorityStatus) :
    ReadinessInvariant catalog requests (selectPid s message) := by
  rcases onPidSelection_cases s.pid message with ⟨hselected, htarget⟩ | ⟨hunselected, htarget⟩
  · have heq : RobotCore.selectPid s message = { s with pid := onPidSelection s.pid message } :=
      if_pos hselected
    rw [heq]
    refine h.frame (fun _ => rfl) rfl rfl ⟨rfl, rfl⟩ (fun htargets => htargets)
      (fun _ _ _ h => ⟨h.links, h.latest⟩) h.requested ?_ ?_ h.latest
    · exact fun target stampNs hheld => h.held target stampNs (htarget.symm.trans hheld)
    · exact fun hunselected => absurd (hunselected.symm.trans hselected) Bool.false_ne_true
  · have heq : RobotCore.selectPid s message =
        { s with pid := onPidSelection s.pid message, pidTarget := none, targetsToPid := [] } :=
      if_neg (by rw [hunselected]; exact Bool.false_ne_true)
    have hnone : (onPidSelection s.pid message).target = none := by
      rcases htarget with hnone | ⟨hbefore, hkeeps⟩
      · exact hnone
      · exact hkeeps.trans (h.unselected hbefore).1
    rw [heq]
    refine h.frame (fun _ => rfl) rfl rfl ⟨rfl, rfl⟩ (fun htargets => htargets) ?_ h.requested ?_
      (fun _ => ⟨hnone, rfl⟩) h.latest
    · intro _ _ sequence hsent
      refine ⟨?_, hsent.latest⟩
      have hlinks := hsent.links
      unfold ReadinessSystem.isUndelayed at hlinks ⊢
      rw [Bool.and_eq_true] at hlinks ⊢
      exact ⟨rfl, hlinks.2⟩
    · intro target stampNs hheld
      cases hnone.symm.trans hheld

omit [Scalar α] in
/-- A status of a tick, published. -/
theorem Undelayed.publishStatus {used : UsedStatus} {sequence : ℕ} (h : Undelayed s sequence)
    (hstatuses : s'.statuses = s.statuses ++ [used])
    (hlink : s'.statusesToServer = s.statusesToServer ++ [s.statuses.length])
    (hreset : s'.ofReset = s.ofReset) (hcurrent : s'.isCurrent = s.isCurrent)
    (hpid : s'.pidTarget = s.pidTarget) (htargets : s'.targetsToPid = s.targetsToPid)
    (hlatest : s'.latestStatus = s.latestStatus) (hserver : s'.server = s.server)
    (hused : used.status.ready = true → used.target.any s.ofReset = true) :
    Undelayed s' sequence := by
  have huses (j : ℕ) (hj : s.usesReset j = true) : s'.usesReset j = true := by
    unfold ReadinessSystem.usesReset at hj ⊢
    rw [Option.all_eq_true] at hj ⊢
    intro used' hused'
    rw [hstatuses] at hused'
    rw [hreset]
    rcases getElem?_concat_cases hused' with hold | ⟨-, rfl⟩
    · exact hj used' hold
    · cases hready : used'.status.ready with
      | false => rfl
      | true => rw [hused hready, Bool.or_true]
  have hnew : s'.usesReset s.statuses.length = true := by
    unfold ReadinessSystem.usesReset
    rw [hstatuses, List.getElem?_concat_length, Option.all_some, hreset]
    cases hready : used.status.ready with
    | false => rfl
    | true => rw [hused hready, Bool.or_true]
  refine ⟨?_, ?_⟩
  · have hlinks := h.links
    unfold ReadinessSystem.isUndelayed at hlinks ⊢
    rw [hpid, htargets, hcurrent, hlink]
    simp only [Bool.and_eq_true, List.all_eq_true, List.mem_append, List.mem_singleton]
      at hlinks ⊢
    refine ⟨hlinks.1, fun j hj => ?_⟩
    rcases hj with hj | rfl
    · exact huses j (hlinks.2 j hj)
    · exact hnew
  · rw [hserver, hlatest]
    exact fun hlt j hj => huses j (h.latest hlt j hj)

omit [Scalar α] in
/-- The target a ready status comes from is the one the node holds. -/
theorem ReadinessInvariant.ofReset_of_ready (h : ReadinessInvariant catalog requests s)
    {sequence : ℕ} (hsent : Undelayed s sequence) {nowNs : ℤ}
    (hmissing : s.pid.missingInputs nowNs = []) : s.pidTarget.any s.ofReset = true := by
  obtain ⟨target, stampNs, hheld, hvalid⟩ := target_of_usable hmissing
  obtain ⟨k, hk, htarget⟩ := h.held target stampNs hheld
  have hlinks := hsent.links
  unfold ReadinessSystem.isUndelayed at hlinks
  rw [Bool.and_eq_true, Bool.and_eq_true, hk, Option.all_some] at hlinks
  have hcurrent := hlinks.1.1
  unfold ReadinessSystem.isCurrent at hcurrent
  rw [htarget, Option.all_some, hvalid] at hcurrent
  rw [hk]
  exact hcurrent

omit [Scalar α] in
theorem ReadinessInvariant.publishStatus (h : ReadinessInvariant catalog requests s) (nowNs : ℤ)
    (law : PidLaw) : ReadinessInvariant catalog requests (publishPidStatus s nowNs law) := by
  obtain ⟨htarget, hselected, hready⟩ := pidTickStatus_spec s.pid nowNs law
  unfold publishPidStatus
  split
  · rename_i pid heq
    rw [heq] at htarget hselected
    exact h.withPid htarget hselected
  · rename_i pid status heq
    rw [heq] at htarget hselected hready
    refine h.frame (fun _ => rfl) rfl rfl ⟨rfl, rfl⟩ (fun htargets => htargets) ?_ h.requested ?_ ?_
      ?_
    · intro _ _ sequence hsent
      refine hsent.publishStatus rfl rfl rfl rfl rfl rfl rfl rfl ?_
      exact fun hr => h.ofReset_of_ready hsent (hready status rfl hr)
    · exact fun target stampNs hheld => h.held target stampNs (htarget.symm.trans hheld)
    · intro hunselected
      obtain ⟨hnone, hempty⟩ := h.unselected (hselected.symm.trans hunselected)
      exact ⟨htarget.trans hnone, hempty⟩
    · intro status' hstatus'
      obtain ⟨j, used, hj, hused, hused'⟩ := h.latest status' hstatus'
      exact ⟨j, used, hj, getElem?_concat_of_some hused, hused'⟩

/-! ### Deliveries -/

omit [Scalar α] in
theorem ReadinessInvariant.deliverTargetToPid (h : ReadinessInvariant catalog requests s)
    {skipped : ℕ} {nowNs : ℤ} (hdeliver : deliverTargetToPid s skipped nowNs = some s') :
    ReadinessInvariant catalog requests s' := by
  unfold RobotCore.deliverTargetToPid at hdeliver
  split at hdeliver
  · cases hdeliver
  · rename_i number rest hdrop
    obtain ⟨target, htarget, rfl⟩ := Option.map_eq_some_iff.mp hdeliver
    have hmem (k : ℕ) (hk : k = number ∨ k ∈ rest) : k ∈ s.targetsToPid :=
      List.mem_of_mem_drop (hdrop ▸ List.mem_cons.mpr hk)
    refine h.frame (fun _ => rfl) rfl rfl ⟨rfl, rfl⟩ (fun htargets => htargets) ?_ h.requested ?_ ?_
      h.latest
    · intro _ _ sequence hsent
      refine ⟨?_, hsent.latest⟩
      have hlinks := hsent.links
      unfold ReadinessSystem.isUndelayed at hlinks ⊢
      simp only [Bool.and_eq_true, List.all_eq_true, Option.all_some] at hlinks ⊢
      obtain ⟨⟨-, hsent⟩, hstatus⟩ := hlinks
      exact ⟨⟨hsent number (hmem number (Or.inl rfl)), fun k hk => hsent k (hmem k (Or.inr hk))⟩,
        hstatus⟩
    · intro target' stampNs hheld
      cases hheld
      exact ⟨number, rfl, htarget⟩
    · intro hunselected
      have hempty := (h.unselected hunselected).2
      have hnumber := hmem number (Or.inl rfl)
      rw [hempty] at hnumber
      cases hnumber

omit [Scalar α] in
theorem ReadinessInvariant.deliverTargetToServer (h : ReadinessInvariant catalog requests s)
    {skipped : ℕ} (hdeliver : deliverTargetToServer s skipped = some s') :
    ReadinessInvariant catalog requests s' := by
  unfold RobotCore.deliverTargetToServer at hdeliver
  split at hdeliver
  · cases hdeliver
  · obtain ⟨target, -, rfl⟩ := Option.map_eq_some_iff.mp hdeliver
    have hreceive : ReadinessInvariant catalog requests (s.receive (.trajectoryTarget target)) :=
      h.receive nofun
    exact hreceive.frame (fun _ => rfl) rfl rfl ⟨rfl, rfl⟩ (fun htargets => htargets)
      (fun _ _ _ h => ⟨h.links, h.latest⟩) hreceive.requested hreceive.held hreceive.unselected
      hreceive.latest

omit [Scalar α] in
theorem ReadinessInvariant.deliverStatusToServer (h : ReadinessInvariant catalog requests s)
    {skipped : ℕ} (hdeliver : deliverStatusToServer s skipped = some s') :
    ReadinessInvariant catalog requests s' := by
  unfold RobotCore.deliverStatusToServer at hdeliver
  split at hdeliver
  · cases hdeliver
  · rename_i number rest hdrop
    obtain ⟨used, hused, rfl⟩ := Option.map_eq_some_iff.mp hdeliver
    have hmem (j : ℕ) (hj : j = number ∨ j ∈ rest) : j ∈ s.statusesToServer :=
      List.mem_of_mem_drop (hdrop ▸ List.mem_cons.mpr hj)
    refine h.frame (fun _ => rfl) rfl rfl ⟨rfl, rfl⟩ (fun htargets => htargets) ?_ h.requested
      h.held
      h.unselected ?_
    · intro _ _ sequence hsent
      have hlinks := hsent.links
      unfold ReadinessSystem.isUndelayed at hlinks
      simp only [Bool.and_eq_true, List.all_eq_true] at hlinks
      obtain ⟨hpid, hstatus⟩ := hlinks
      refine ⟨?_, fun _ j hj => ?_⟩
      · unfold ReadinessSystem.isUndelayed
        simp only [Bool.and_eq_true, List.all_eq_true]
        exact ⟨hpid, fun j hj => hstatus j (hmem j (Or.inr hj))⟩
      · cases hj
        exact hstatus number (hmem number (Or.inl rfl))
    · intro status hstatus
      cases hstatus
      exact ⟨number, used, rfl, hused, rfl⟩

end RobotCore
