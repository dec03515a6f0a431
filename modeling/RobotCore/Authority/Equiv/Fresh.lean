import RobotCore.Authority.Equiv.Limit

/-!
# Enabled commands are backed by fresh inputs

The command timer sends the last output again without an evaluation of its own.  Still every
enabled command goes back to an evaluation since the last stop, and that evaluation has found every
input it needs received in time (`backed_of_enabled`).
-/

namespace RobotCore

open Ieee Machine

/-! ### Received inputs -/

/-- What a transition writes to the commands of a source. -/
def commandWritten (source : String) (x : AuthorityTransition) :
    Option (Option TimedSourceCommand) :=
  match x.input with
  | .manualCommand message stampNs _ =>
    if source = "manual" ∧ message.source = "web_operator" then some (some ⟨message, stampNs⟩)
    else none
  | .pidCommand message stampNs _ =>
    if source = "pid" ∧ message.source = "pid_controller" then some (some ⟨message, stampNs⟩)
    else none
  | .rlAction action stampNs _ =>
    if source = "rl" then
      some (if rlActionValid action then some ⟨rlCommand action, stampNs⟩ else none)
    else none
  | _ => none

def bodyReceived (x : AuthorityTransition) : Option TimedBody :=
  match x.input with
  | .bodyState message stampNs => some ⟨message, stampNs⟩
  | _ => none

def targetReceived (x : AuthorityTransition) : Option TimedTarget :=
  match x.input with
  | .trajectoryTarget message stampNs => some ⟨message, stampNs⟩
  | _ => none

/-- The event of the safety monitor with the time of its arrival. -/
def safetyReceived (x : AuthorityTransition) : Option (SafetyEventMsg × ℤ) :=
  match x.input with
  | .safetyEvent event stampNs => some (event, stampNs)
  | _ => none

/-- The members that hold inputs are those last received. -/
structure Received (tr : AuthorityHistory) (s : Authority) : Prop where
  commands : ∀ source, s.sourceCommands source = (tr.findSome? (commandWritten source)).getD none
  body : s.body = tr.findSome? bodyReceived
  target : s.target = tr.findSome? targetReceived
  abort : s.abortActive = (tr.findSome? safetyReceived).any (·.1.abortActive)
  safety : s.safetyStampNs = (tr.findSome? safetyReceived).map (·.2)
  localization : s.absoluteLocalizationSeen = true →
    ∃ x ∈ tr, (bodyReceived x).any (·.message.stateValid) = true

/-- The members that hold inputs are the same. -/
structure KeepsInputs (s s' : Authority) : Prop where
  sourceCommands : s'.sourceCommands = s.sourceCommands
  body : s'.body = s.body
  target : s'.target = s.target
  abortActive : s'.abortActive = s.abortActive
  safetyStampNs : s'.safetyStampNs = s.safetyStampNs
  absoluteLocalizationSeen : s'.absoluteLocalizationSeen = s.absoluteLocalizationSeen

variable {cfg : AuthorityConfig} {s s' s'' : Authority} {nowNs : ℤ} {output : AuthorityOutput}
  {tr : AuthorityHistory} {x : AuthorityTransition}

theorem KeepsInputs.refl (s : Authority) : KeepsInputs s s := ⟨rfl, rfl, rfl, rfl, rfl, rfl⟩

theorem KeepsInputs.trans (h : KeepsInputs s s') (h' : KeepsInputs s' s'') : KeepsInputs s s'' where
  sourceCommands := h'.sourceCommands.trans h.sourceCommands
  body := h'.body.trans h.body
  target := h'.target.trans h.target
  abortActive := h'.abortActive.trans h.abortActive
  safetyStampNs := h'.safetyStampNs.trans h.safetyStampNs
  absoluteLocalizationSeen := h'.absoluteLocalizationSeen.trans h.absoluteLocalizationSeen

theorem keepsInputs_evaluate (h : evaluate cfg s nowNs = .ok s') : KeepsInputs s s' := by
  obtain ⟨s'', hok, hevaluated⟩ := evaluate_spec cfg s nowNs
  obtain rfl := Except.ok.inj (hok.symm.trans h)
  cases hevaluated <;> exact ⟨rfl, rfl, rfl, rfl, rfl, rfl⟩

theorem keepsInputs_publishFresh {source : String}
    (h : publishFreshSourceCommand cfg s source nowNs = .ok (s', output)) : KeepsInputs s s' := by
  unfold publishFreshSourceCommand at h
  split at h
  · obtain ⟨rfl, -⟩ := Prod.mk.inj (Except.ok.inj h)
    exact .refl s
  · obtain ⟨s₁, hok, -⟩ := evaluate_spec cfg s nowNs
    rw [hok, ok_bind] at h
    obtain ⟨rfl, -⟩ := Prod.mk.inj (Except.ok.inj h)
    exact keepsInputs_evaluate hok

theorem keepsInputs_requestArm {request : SetControlAuthorityRequest} {requested : String}
    (h : requestArm cfg s request requested nowNs = .ok (s', output)) : KeepsInputs s s' := by
  have hselected : KeepsInputs s
      (if !s.armed then { s with selectedSource := requested } else s) := by
    split <;> exact ⟨rfl, rfl, rfl, rfl, rfl, rfl⟩
  unfold requestArm at h
  dsimp only at h
  generalize (if !s.armed then { s with selectedSource := requested } else s) = s₁ at hselected h
  split at h
  · obtain ⟨rfl, -⟩ := Prod.mk.inj (Except.ok.inj h)
    exact hselected.trans ⟨rfl, rfl, rfl, rfl, rfl, rfl⟩
  · obtain ⟨reason, hok, -⟩ := prearmFailure_spec cfg s₁ nowNs
    rw [hok, ok_bind] at h
    cases reason with
    | some reason =>
      obtain ⟨rfl, -⟩ := Prod.mk.inj (Except.ok.inj h)
      exact hselected.trans ⟨rfl, rfl, rfl, rfl, rfl, rfl⟩
    | none =>
      obtain ⟨rfl, -⟩ := Prod.mk.inj (Except.ok.inj h)
      refine hselected.trans ?_
      cases s₁.armed <;> exact ⟨rfl, rfl, rfl, rfl, rfl, rfl⟩

theorem keepsInputs_onSetAuthority {request : SetControlAuthorityRequest}
    (h : onSetAuthority cfg s request nowNs = .ok (s', output)) : KeepsInputs s s' := by
  have hanswer {accepted : Bool} {text : String}
      (h : Except.ok (ε := OutOfRange) (answer s accepted text) = .ok (s', output)) :
      KeepsInputs s s' := by
    obtain ⟨rfl, -⟩ := Prod.mk.inj (Except.ok.inj h)
    exact ⟨rfl, rfl, rfl, rfl, rfl, rfl⟩
  unfold onSetAuthority at h
  split at h
  · unfold updatePwmLimit at h
    split_ifs at h <;>
      (obtain ⟨rfl, -⟩ := Prod.mk.inj (Except.ok.inj h); exact ⟨rfl, rfl, rfl, rfl, rfl, rfl⟩)
  · dsimp only at h
    split_ifs at h
    · exact hanswer h
    · exact hanswer h
    · exact hanswer h
    · unfold requestAuthority at h
      split_ifs at h
      · exact hanswer h
      · dsimp only at h
        split_ifs at h
        · obtain ⟨rfl, -⟩ := Prod.mk.inj (Except.ok.inj h)
          exact ⟨rfl, rfl, rfl, rfl, rfl, rfl⟩
        · have hcleared : KeepsInputs s
              { s with faultLatched := false, faultCode := "", message := "fault cleared" } :=
            ⟨rfl, rfl, rfl, rfl, rfl, rfl⟩
          exact hcleared.trans (keepsInputs_requestArm h)
      · exact keepsInputs_requestArm h

/-- What a transition does to the members that hold inputs. -/
structure WritesInputs (x : AuthorityTransition) : Prop where
  commands : ∀ source, x.post.sourceCommands source =
    (commandWritten source x).getD (x.pre.sourceCommands source)
  body : x.post.body = (bodyReceived x).or x.pre.body
  target : x.post.target = (targetReceived x).or x.pre.target
  abort : x.post.abortActive = ((safetyReceived x).map (·.1.abortActive)).getD x.pre.abortActive
  safety : x.post.safetyStampNs = ((safetyReceived x).map (·.2)).or x.pre.safetyStampNs
  localization : x.post.absoluteLocalizationSeen = true →
    x.pre.absoluteLocalizationSeen = true ∨ (bodyReceived x).any (·.message.stateValid) = true

/-- A transition without an input that is held. -/
theorem WritesInputs.of_keeps (h : KeepsInputs x.pre x.post)
    (hcommands : ∀ source, commandWritten source x = none) (hbody : bodyReceived x = none)
    (htarget : targetReceived x = none) (hsafety : safetyReceived x = none) : WritesInputs x where
  commands source := by rw [hcommands, h.sourceCommands, Option.getD_none]
  body := by rw [hbody, h.body, Option.none_or]
  target := by rw [htarget, h.target, Option.none_or]
  abort := by rw [hsafety, h.abortActive, Option.map_none, Option.getD_none]
  safety := by rw [hsafety, h.safetyStampNs, Option.map_none, Option.none_or]
  localization hseen := Or.inl (h.absoluteLocalizationSeen ▸ hseen)

/-- A transition that writes the commands of one source. -/
theorem WritesInputs.of_source {source : String} {item : Option TimedSourceCommand}
    (h : KeepsInputs (setSourceCommand x.pre source item) x.post)
    (hcommands : ∀ key, commandWritten key x = if key = source then some item else none)
    (hbody : bodyReceived x = none) (htarget : targetReceived x = none)
    (hsafety : safetyReceived x = none) : WritesInputs x where
  commands key := by
    rw [hcommands, h.sourceCommands, setSourceCommand]
    dsimp only
    split_ifs <;> rfl
  body := by rw [hbody, h.body, Option.none_or]; rfl
  target := by rw [htarget, h.target, Option.none_or]; rfl
  abort := by rw [hsafety, h.abortActive, Option.map_none, Option.getD_none]; rfl
  safety := by rw [hsafety, h.safetyStampNs, Option.map_none, Option.none_or]; rfl
  localization hseen := by
    rw [h.absoluteLocalizationSeen] at hseen
    exact Or.inl hseen

theorem writesInputs_sourceCommand {source producer : String} {message : ThrusterCommand}
    {stampNs : ℤ}
    (h : onSourceCommand cfg x.pre source producer message stampNs nowNs = .ok (x.post, output))
    (hcommands : ∀ key, commandWritten key x =
      if key = source ∧ message.source = producer then some (some ⟨message, stampNs⟩) else none)
    (hbody : bodyReceived x = none) (htarget : targetReceived x = none)
    (hsafety : safetyReceived x = none) : WritesInputs x := by
  unfold onSourceCommand at h
  split at h
  · rename_i hproducer
    rw [bne_iff_ne] at hproducer
    obtain ⟨hpost, -⟩ := Prod.mk.inj (Except.ok.inj h)
    refine .of_keeps (hpost ▸ .refl _) (fun key => ?_) hbody htarget hsafety
    rw [hcommands, if_neg fun hkey => hproducer hkey.2]
  · rename_i hproducer
    rw [bne_iff_ne, not_not] at hproducer
    refine .of_source (keepsInputs_publishFresh h) (fun key => ?_) hbody htarget hsafety
    rw [hcommands]
    simp only [hproducer, and_true]

/-- Every transition keeps what it does not receive. -/
theorem writesInputs_of_step (h : authorityStep cfg x.pre x.input = some (x.post, x.output)) :
    WritesInputs x := by
  obtain ⟨s', output, hok, -⟩ := authorityCallback_spec cfg x.pre x.input
  unfold authorityStep at h
  rw [hok] at h
  obtain ⟨rfl, -⟩ := Prod.mk.inj (Option.some.inj h)
  obtain ⟨pre, input, sent, post⟩ := x
  dsimp only at hok ⊢
  cases input with
  | manualCommand message stampNs nowNs =>
    exact writesInputs_sourceCommand hok (fun key => rfl) rfl rfl rfl
  | pidCommand message stampNs nowNs =>
    exact writesInputs_sourceCommand hok (fun key => rfl) rfl rfl rfl
  | rlAction action stampNs nowNs =>
    exact .of_source (keepsInputs_publishFresh hok) (fun key => rfl) rfl rfl rfl
  | bodyState message stampNs =>
    obtain ⟨hpost, -⟩ := Prod.mk.inj (Except.ok.inj hok)
    rw [← hpost]
    exact ⟨fun _ => rfl, rfl, rfl, rfl, rfl, fun hseen => Bool.or_eq_true _ _ ▸ hseen⟩
  | trajectoryTarget message stampNs =>
    obtain ⟨hpost, -⟩ := Prod.mk.inj (Except.ok.inj hok)
    rw [← hpost]
    exact ⟨fun _ => rfl, rfl, rfl, rfl, rfl, Or.inl⟩
  | safetyEvent event stampNs =>
    have hpost : (onSafety pre event stampNs).1 = post := congrArg Prod.fst (Except.ok.inj hok)
    rw [← hpost]
    unfold onSafety
    dsimp only
    split_ifs <;> exact ⟨fun _ => rfl, rfl, rfl, rfl, rfl, Or.inl⟩
  | setAuthority request nowNs =>
    exact .of_keeps (keepsInputs_onSetAuthority hok) (fun _ => rfl) rfl rfl rfl
  | evaluationTimer nowNs =>
    obtain ⟨s₁, hevaluate, -⟩ := evaluate_spec cfg pre nowNs
    rw [authorityCallback, hevaluate] at hok
    obtain ⟨rfl, -⟩ := Prod.mk.inj (Except.ok.inj hok)
    exact .of_keeps (keepsInputs_evaluate hevaluate) (fun _ => rfl) rfl rfl rfl
  | commandTimer =>
    obtain ⟨hpost, -⟩ := Prod.mk.inj (Except.ok.inj hok)
    exact .of_keeps (hpost ▸ .refl _) (fun _ => rfl) rfl rfl rfl
  | statusTimer =>
    obtain ⟨hpost, -⟩ := Prod.mk.inj (Except.ok.inj hok)
    exact .of_keeps (hpost ▸ .refl _) (fun _ => rfl) rfl rfl rfl

theorem Received.step (h : Received tr x.pre) (hx : WritesInputs x) :
    Received (x :: tr) x.post where
  commands source := by
    rw [hx.commands, h.commands, List.findSome?_cons]
    cases commandWritten source x <;> rfl
  body := by
    rw [hx.body, h.body, List.findSome?_cons]
    cases bodyReceived x <;> rfl
  target := by
    rw [hx.target, h.target, List.findSome?_cons]
    cases targetReceived x <;> rfl
  abort := by
    rw [hx.abort, h.abort, List.findSome?_cons]
    cases safetyReceived x <;> rfl
  safety := by
    rw [hx.safety, h.safety, List.findSome?_cons]
    cases safetyReceived x <;> rfl
  localization hseen := by
    rcases hx.localization hseen with hseen | hseen
    · obtain ⟨y, hy, hvalid⟩ := h.localization hseen
      exact ⟨y, List.mem_cons_of_mem x hy, hvalid⟩
    · exact ⟨x, List.mem_cons_self, hseen⟩

/-- **Received inputs.** -/
theorem received_of_run (h : (authorityMachine cfg).Run tr s) : Received tr s := by
  induction h with
  | start => exact ⟨fun _ => rfl, rfl, rfl, rfl, rfl, fun h => by cases h⟩
  | @step tr s i s' o _ hstep ih =>
    exact Received.step (x := ⟨s, i, o, s'⟩) ih (writesInputs_of_step hstep)

/-! ### Evaluations that drive -/

/-- A command of the source is held that is recent, of the expected producer, valid and ready. -/
def CommandFresh (cfg : AuthorityConfig) (commands : String → Option TimedSourceCommand)
    (source : String) (nowNs : ℤ) : Prop :=
  ∃ item, commands source = some item ∧
    stale cfg.sourceCommandTimeoutS item.stampNs nowNs = false ∧
    expectedProducers source = some item.message.source ∧
    (∀ i : Fin 8, Number.AbsLe (getElem item.message.action i (Numeral.val_lt_eight i)) 1) ∧
    item.message.enable = true

/-- What an automatic source needs besides its command. -/
structure AutomaticFresh (cfg : AuthorityConfig) (body : Option TimedBody)
    (target : Option TimedTarget) (nowNs : ℤ) : Prop where
  body : ∃ b, body = some b ∧ stale cfg.stateTimeoutS b.stampNs nowNs = false ∧
    b.message.linearVelocityValid = true ∧
    (b.message.stateValid = true ∨ b.message.positionEstimated = true)
  target : ∃ t, target = some t ∧ stale cfg.targetTimeoutS t.stampNs nowNs = false ∧
    t.message.valid = true

theorem commandFresh_of_integrity {source : String} {item : TimedSourceCommand}
    (hitem : s.sourceCommands source = some item)
    (h : sourceCommandIntegrityFailure cfg s source nowNs = none)
    (henable : item.message.enable = true) : CommandFresh cfg s.sourceCommands source nowNs := by
  unfold sourceCommandIntegrityFailure at h
  rw [hitem] at h
  dsimp only at h
  split_ifs at h with hstale hproducer hvalues
  refine ⟨item, hitem, by simpa using hstale, by simpa using hproducer, fun i => ?_, henable⟩
  rw [Bool.not_eq_true', Bool.not_eq_false, List.all_eq_true] at hvalues
  exact (actionValueValid_iff _).mp (hvalues _ (by simp))

theorem commandFresh_of_none {source : String}
    (h : sourceCommandFailure cfg s source nowNs = .ok none) :
    CommandFresh cfg s.sourceCommands source nowNs := by
  unfold sourceCommandFailure at h
  cases hintegrity : sourceCommandIntegrityFailure cfg s source nowNs with
  | some reason =>
    rw [hintegrity] at h
    cases h
  | none =>
    rw [hintegrity] at h
    obtain ⟨item, hat, h⟩ := bind_eq_ok_iff.mp h
    have hitem : s.sourceCommands source = some item := sourceCommands_of_at hat
    cases henable : item.message.enable with
    | false =>
      rw [henable] at h
      cases h
    | true => exact commandFresh_of_integrity hitem hintegrity henable

theorem heartbeat_of_none (h : commonFailure cfg s nowNs = none) :
    s.abortActive = false ∧ s.faultLatched = false ∧
      ∃ stampNs, s.safetyStampNs = some stampNs ∧
        stale cfg.safetyHeartbeatTimeoutS stampNs nowNs = false := by
  unfold commonFailure at h
  split_ifs at h with habort hfault
  rw [Bool.not_eq_true] at habort hfault
  refine ⟨habort, hfault, ?_⟩
  cases hstamp : s.safetyStampNs with
  | none => simp [hstamp] at h
  | some stampNs =>
    rw [hstamp] at h
    refine ⟨stampNs, rfl, Bool.eq_false_of_not_eq_true fun hstale => ?_⟩
    simp [hstale] at h

theorem automaticFresh_of_none (h : automaticFailure cfg s nowNs = none) :
    s.absoluteLocalizationSeen = true ∧ AutomaticFresh cfg s.body s.target nowNs := by
  unfold automaticFailure at h
  cases hbody : s.body with
  | none => simp [hbody] at h
  | some b =>
    cases htarget : s.target with
    | none =>
      simp only [hbody, htarget] at h
      split_ifs at h
    | some t =>
      simp only [hbody, htarget] at h
      split_ifs at h with hstate hstale hseen hvelocity hlocalized hvalid
      rw [Bool.not_eq_true] at hstate hstale
      rw [Bool.not_eq_true', Bool.not_eq_false] at hseen hvelocity hvalid
      have hpose : b.message.stateValid = true ∨ b.message.positionEstimated = true := by
        cases hstateValid : b.message.stateValid with
        | true => exact Or.inl rfl
        | false => exact Or.inr (by simpa [hstateValid] using hlocalized)
      exact ⟨hseen, ⟨b, rfl, hstate, hvelocity, hpose⟩, ⟨t, rfl, hstale, hvalid⟩⟩

/-- An evaluation that drives has found an override or what arming needs. -/
theorem failure_of_driving (h : evaluate cfg s nowNs = .ok s')
    (hdriving : s'.outputEnabled = true) :
    commonFailure cfg s nowNs = none ∧
      ((evaluationMode cfg s nowNs).manualOverride = true ∨
        prearmFailure cfg s nowNs = .ok none) := by
  unfold evaluate at h
  dsimp only at h
  set mode := evaluationMode cfg s nowNs with hmode
  set active := { s with activeSource := mode.activeSource s.selectedSource } with hactive
  obtain ⟨check, hcheck, h⟩ := bind_eq_ok_iff.mp h
  -- an enabled output has passed the check
  have hpassed : check.outputAllowed = true ∧ check.idleReason.isNone = true := by
    rw [← Bool.and_eq_true]
    by_contra hnot
    rw [if_neg hnot] at h
    obtain rfl := Except.ok.inj h
    cases hdriving
  unfold checkOutput at hcheck
  split_ifs at hcheck with hdisarmed
  · obtain rfl := Except.ok.inj hcheck
    cases hpassed.1
  obtain ⟨reason, hreason, hcheck⟩ := bind_eq_ok_iff.mp hcheck
  -- a reason to stop, idle or not, does not pass
  cases reason with
  | some reason =>
    dsimp only at hcheck
    cases hidle : manualIdleReason cfg active nowNs with
    | none =>
      rw [hidle] at hcheck
      obtain rfl := Except.ok.inj hcheck
      cases hpassed.1
    | some idleReason =>
      rw [hidle] at hcheck
      dsimp only at hcheck
      split_ifs at hcheck <;> obtain rfl := Except.ok.inj hcheck
      · cases hpassed.2
      · cases hpassed.1
  | none =>
    have hcommon : commonFailure cfg active nowNs = commonFailure cfg s nowNs := rfl
    have hprearm : prearmFailure cfg active nowNs = prearmFailure cfg s nowNs := rfl
    unfold evaluationFailure at hreason
    -- in an override the common checks are all, otherwise those before arming come first
    cases hoverride : mode.manualOverride with
    | true =>
      rw [hoverride, if_pos rfl, hcommon] at hreason
      exact ⟨Except.ok.inj hreason, Or.inl rfl⟩
    | false =>
      rw [hoverride, if_neg Bool.false_ne_true, hprearm] at hreason
      refine ⟨?_, Or.inr hreason⟩
      unfold prearmFailure at hreason
      cases hnone : commonFailure cfg s nowNs with
      | none => rfl
      | some reason =>
        rw [hnone] at hreason
        cases hreason

/-- The inputs that a driving evaluation needs, from the source that drives. -/
structure Backed (cfg : AuthorityConfig) (s : Authority) (source : String) (nowNs : ℤ) : Prop where
  abort : s.abortActive = false
  fault : s.faultLatched = false
  heartbeat : ∃ stampNs, s.safetyStampNs = some stampNs ∧
    stale cfg.safetyHeartbeatTimeoutS stampNs nowNs = false
  selected : source = s.selectedSource ∨ source = "manual"
  command : CommandFresh cfg s.sourceCommands source nowNs
  automatic : source = "manual" ∨
    s.absoluteLocalizationSeen = true ∧ AutomaticFresh cfg s.body s.target nowNs

theorem commandFresh_of_override (h : (evaluationMode cfg s nowNs).manualOverride = true) :
    CommandFresh cfg s.sourceCommands "manual" nowNs := by
  simp only [evaluationMode, Bool.and_eq_true, Option.isNone_iff_eq_none] at h
  obtain ⟨⟨-, hintegrity, henable⟩, -⟩ := h
  obtain ⟨item, hitem, henable⟩ := (Option.any_eq_true _ _).mp henable
  exact commandFresh_of_integrity hitem hintegrity henable

theorem backed_of_driving (h : evaluate cfg s nowNs = .ok s')
    (hdriving : s'.outputEnabled = true) : ∃ source, Backed cfg s source nowNs := by
  obtain ⟨hcommon, hsource⟩ := failure_of_driving h hdriving
  obtain ⟨habort, hfault, hheartbeat⟩ := heartbeat_of_none hcommon
  rcases hsource with hoverride | hprearm
  · exact ⟨"manual", habort, hfault, hheartbeat, Or.inr rfl, commandFresh_of_override hoverride,
      Or.inl rfl⟩
  · unfold prearmFailure at hprearm
    rw [hcommon] at hprearm
    obtain ⟨reason, hreason, hprearm⟩ := bind_eq_ok_iff.mp hprearm
    cases reason with
    | some reason => cases hprearm
    | none =>
      refine ⟨s.selectedSource, habort, hfault, hheartbeat, Or.inl rfl,
        commandFresh_of_none hreason, ?_⟩
      by_cases hmanual : s.selectedSource = "manual"
      · exact Or.inl hmanual
      · have hautomatic : automaticFailure cfg s nowNs = none := by
          have hne : (s.selectedSource == "manual") = false := by simpa using hmanual
          simp only [hne, Bool.false_eq_true, if_false] at hprearm
          exact Except.ok.inj hprearm
        exact Or.inr (automaticFresh_of_none hautomatic)

/-! ### Enabled commands -/

/-- A step is a callback that ends normally. -/
theorem callback_of_step (cfg : AuthorityConfig) {input : AuthorityInput}
    {result : Except OutOfRange AuthorityOutput}
    (h : authorityStep cfg s input = some (s', result)) :
    ∃ output, authorityCallback cfg s input = .ok (s', output) := by
  obtain ⟨s₁, output, hcallback, -⟩ := authorityCallback_spec cfg s input
  unfold authorityStep at h
  rw [hcallback] at h ⊢
  obtain ⟨rfl, -⟩ := Prod.mk.inj (Option.some.inj h)
  exact ⟨output, rfl⟩

/-- An output that is enabled goes back to an evaluation, and has been enabled since. -/
theorem driving_since (h : (authorityMachine cfg).Run tr s) (henabled : s.outputEnabled = true) :
    ∃ newer e older s₀ nowNs, tr = newer ++ e :: older ∧
      evaluatedState e.pre e.input = some (s₀, nowNs) ∧ evaluate cfg s₀ nowNs = .ok e.post ∧
      e.post.outputEnabled = true ∧ ∀ y ∈ newer, y.post.outputEnabled = true := by
  induction h with
  | start => cases henabled
  | @step tr s i s' o hrun hstep ih =>
    have hkept (hsame : s'.outputEnabled = s.outputEnabled) :
        ∃ newer e older s₀ nowNs, ⟨s, i, o, s'⟩ :: tr = newer ++ e :: older ∧
          evaluatedState e.pre e.input = some (s₀, nowNs) ∧ evaluate cfg s₀ nowNs = .ok e.post ∧
          e.post.outputEnabled = true ∧ ∀ y ∈ newer, y.post.outputEnabled = true := by
      obtain ⟨newer, e, older, s₀, nowNs, rfl, he⟩ := ih (hsame ▸ henabled)
      refine ⟨⟨s, i, o, s'⟩ :: newer, e, older, s₀, nowNs, rfl, he.1, he.2.1, he.2.2.1, ?_⟩
      intro y hy
      rcases List.mem_cons.mp hy with rfl | hy
      · exact henabled
      · exact he.2.2.2 y hy
    obtain ⟨output, hok, hchange⟩ := change_of_step (x := ⟨s, i, o, s'⟩) hstep
    change AuthorityChange cfg s i s' output at hchange
    cases hchange with
    | quiet hsame _ => exact hkept hsame.outputEnabled
    | limit _ _ _ _ => exact hkept rfl
    | evaluated hstate _ _ _ =>
      obtain ⟨output, hcallback⟩ := callback_of_step cfg hstep
      exact ⟨[], _, tr, _, _, rfl, hstate,
        (evaluate_of_callback hstate hcallback).1, henabled,
        fun y hy => absurd hy List.not_mem_nil⟩
    | aborted _ _ _ _ _ => cases henabled
    | disarmed _ _ => cases henabled
    | armed hsame _ _ _ _ _ => exact hkept hsame.outputEnabled

/-- The inputs of a history that an enabled command needs. -/
structure InputsFresh (cfg : AuthorityConfig) (tr : AuthorityHistory) (source : String)
    (nowNs : ℤ) : Prop where
  /-- the last event of the safety monitor is recent and no abort -/
  safety : ∃ event stampNs, tr.findSome? safetyReceived = some (event, stampNs) ∧
    event.abortActive = false ∧ stale cfg.safetyHeartbeatTimeoutS stampNs nowNs = false
  command : CommandFresh cfg (fun key => (tr.findSome? (commandWritten key)).getD none) source nowNs
  automatic : source = "manual" ∨
    (∃ x ∈ tr, (bodyReceived x).any (·.message.stateValid) = true) ∧
      AutomaticFresh cfg (tr.findSome? bodyReceived) (tr.findSome? targetReceived) nowNs

theorem Backed.congr {source : String} (h : Backed cfg s source nowNs) (hkeeps : KeepsInputs s s')
    (hfault : s'.faultLatched = false) (hselected : s'.selectedSource = s.selectedSource) :
    Backed cfg s' source nowNs where
  abort := hkeeps.abortActive.trans h.abort
  fault := hfault
  heartbeat := hkeeps.safetyStampNs ▸ h.heartbeat
  selected := hselected ▸ h.selected
  command := hkeeps.sourceCommands ▸ h.command
  automatic := by
    rw [hkeeps.absoluteLocalizationSeen, hkeeps.body, hkeeps.target]
    exact h.automatic

theorem inputsFresh_of_backed {source : String} (hreceived : Received tr s)
    (h : Backed cfg s source nowNs) : InputsFresh cfg tr source nowNs where
  safety := by
    obtain ⟨stampNs, hstamp, hfresh⟩ := h.heartbeat
    rw [hreceived.safety, Option.map_eq_some_iff] at hstamp
    obtain ⟨⟨event, stampNs'⟩, hevent, rfl⟩ := hstamp
    have habort := hreceived.abort
    rw [hevent, h.abort, Option.any_some] at habort
    exact ⟨event, stampNs', hevent, habort.symm, hfresh⟩
  command := by
    obtain ⟨item, hitem, hrest⟩ := h.command
    exact ⟨item, (hreceived.commands source).symm.trans hitem, hrest⟩
  automatic := by
    rcases h.automatic with hmanual | ⟨hseen, hautomatic⟩
    · exact Or.inl hmanual
    · rw [hreceived.body, hreceived.target] at hautomatic
      exact Or.inr ⟨hreceived.localization hseen, hautomatic⟩

/-- The node after an evaluation still has the inputs of the evaluation. -/
theorem backed_post {s₀ : Authority} (h : evaluate cfg s₀ nowNs = .ok s)
    (hdriving : s.outputEnabled = true) : ∃ source, Backed cfg s source nowNs := by
  obtain ⟨source, hbacked⟩ := backed_of_driving h hdriving
  obtain ⟨s₁, hok, hevaluated⟩ := evaluate_spec cfg s₀ nowNs
  obtain rfl := Except.ok.inj (hok.symm.trans h)
  refine ⟨source, hbacked.congr (keepsInputs_evaluate h) ?_ ?_⟩
  · cases hevaluated with
    | neutral _ _ => cases hdriving
    | tripped _ _ _ => cases hdriving
    | driven _ _ _ _ => exact hbacked.fault
  · cases hevaluated <;> rfl

/-- **Enabled commands.**  A command that is published enabled goes back to an evaluation since
which the output has been enabled, of the selected source or the operator's, and that evaluation has
found the safety monitor alive without an abort, a recent valid command of the source, and for an
automatic source a recent body state and target that are valid. -/
theorem backed_of_enabled (h : (authorityMachine cfg).Run (x :: tr) s) {command : ThrusterCommand}
    (hcommand : publishedCommand? x = some command) (henable : command.enable = true) :
    ∃ newer e older s₀ nowNs source, x :: tr = newer ++ e :: older ∧
      evaluatedState e.pre e.input = some (s₀, nowNs) ∧
      (source = e.post.selectedSource ∨ source = "manual") ∧
      InputsFresh cfg (e :: older) source nowNs ∧
      ∀ y ∈ newer, y.post.outputEnabled = true ∧ stops y = false := by
  obtain ⟨output, hok, hchange⟩ := change_of_step h.head_step
  rw [publishedCommand?, hok] at hcommand
  have hdriving := (command_of_change hchange hcommand).2 henable
  rw [h.head_post] at hdriving
  obtain ⟨newer, e, older, s₀, nowNs, htr, hstate, hevaluate, hpost, hnewer⟩ :=
    driving_since h hdriving
  obtain ⟨source, hbacked⟩ := backed_post hevaluate hpost
  rw [htr] at h
  refine ⟨newer, e, older, s₀, nowNs, source, htr, hstate, hbacked.selected,
    inputsFresh_of_backed (received_of_run h.split) hbacked, fun y hy => ⟨hnewer y hy, ?_⟩⟩
  -- a stop disarms, and a disarmed node has no output
  obtain ⟨newest, later, rfl⟩ := List.append_of_mem hy
  rw [List.append_assoc] at h
  have hrun := h.split
  refine Bool.eq_false_of_not_eq_true fun hstops => ?_
  have hdisarmed := disarmed_of_stops hrun.head_step hstops
  rw [(outputGated_of_run hrun).armed (hnewer y hy)] at hdisarmed
  cases hdisarmed

theorem backed_of_enabled_altitudeHoldInputs :
    ∃ x tr newer e older nowNs source, x :: tr = newer ++ e :: older ∧
      InputsFresh {} (e :: older) source nowNs := by
  obtain ⟨x, tr, s, hrun, hcheck⟩ := run_of_execCheck (authorityMachine {})
    (altitudeHoldInputs ++ [.manualCommand (manualSurgeYaw (-1) (-1) 1 1) 0 0, .commandTimer])
    (fun x _ => (publishedCommand? x).any (·.enable)) (by decide +kernel)
  obtain ⟨command, hcommand, henable⟩ := (Option.any_eq_true _ _).mp hcheck
  obtain ⟨newer, e, older, -, nowNs, source, htr, -, -, hfresh, -⟩ :=
    backed_of_enabled hrun hcommand henable
  exact ⟨x, tr, newer, e, older, nowNs, source, htr, hfresh⟩

end RobotCore
