import RobotCore.Authority.Equiv.Safety
import RobotCore.Lib.Except

/-!
# PWM-limit updates

* `published_within_limit_iff`: in a run, every action published after an accepted limit update is
  within the limit exactly when each of these publications finds an output that is not `outgrown`:
  what last decided between output and limit was an evaluation whose requested values do not round
  above the limit, an update that is not below the output, or a disarm.
* `lowered_limit_published`: the command timer sends an output scaled by the limit before an update.

`outgrown_iff` is the invariant: the history tells whether the cached output is within the limit.
-/

namespace RobotCore

open Ieee Machine

/-- The action is within the limit. -/
def ActionWithin (limit : Binary64) (action : Binary32) : Prop := Number.AbsLe action limit.toRat

/-- The same as a test. -/
def actionWithin (limit : Binary64) (action : Binary32) : Bool :=
  action.isFinite && decide (|action.toRat| ≤ limit.toRat)

/-- An accepted limit update. -/
def limitAccepted (x : AuthorityTransition) : Bool :=
  match x.input, x.output with
  | .setAuthority request _, .ok output =>
    request.updatePwmLimit && output.response.any (·.accepted)
  | _, _ => false

section Requested

variable (cfg : AuthorityConfig) (s : Authority) (nowNs : ℤ)

/-- The value an evaluation scales for a channel, of the sources that drive. -/
def requestedValue (i : Fin 8) : Option Binary64 :=
  let mode := evaluationMode cfg s nowNs
  if mode.hybridAltitudeHold && 4 ≤ i.val then
    (s.sourceCommands "manual").map fun item =>
      getElem (altitudeManualSurgeYaw item.message) i (Numeral.val_lt_eight i)
  else
    (s.sourceCommands
      (if mode.hybridAltitudeHold then "pid" else mode.activeSource s.selectedSource)).map
      fun item => (getElem item.message.action i (Numeral.val_lt_eight i)).widen

/-- The checks of an evaluation let the sources drive. -/
def drives : Bool :=
  let mode := evaluationMode cfg s nowNs
  match checkOutput cfg { s with activeSource := mode.activeSource s.selectedSource } mode
    nowNs with
  | .ok check => check.outputAllowed && check.idleReason.isNone
  | .error _ => false

/-- A driving evaluation has a requested value that, scaled, rounds above the limit. -/
def overshoots : Bool :=
  drives cfg s nowNs && (List.finRange 8).any fun i =>
    (requestedValue cfg s nowNs i).any fun value =>
    !actionWithin s.actionLimit (value * s.actionLimit).narrow

end Requested

/-- The limit of an update is below the output of before. -/
def undercuts (x : AuthorityTransition) : Bool :=
  x.pre.output.toList.any fun value => !actionWithin x.post.actionLimit value.narrow

/-- The history leaves an output beyond the limit: its last limit update undercut the output, or its
last evaluation overshot the limit. -/
def outgrown (cfg : AuthorityConfig) : AuthorityHistory → Bool
  | [] => false
  | x :: tr =>
    if limitAccepted x then undercuts x
    else
      match evaluatedState x.pre x.input with
      | some (s, nowNs) => overshoots cfg s nowNs
      | none => x.post.armed && outgrown cfg tr

variable {cfg : AuthorityConfig} {s s' : Authority} {input : AuthorityInput} {nowNs : ℤ}
  {output : AuthorityOutput} {tr : AuthorityHistory} {x : AuthorityTransition}

theorem actionWithin_iff {limit : Binary64} {action : Binary32} :
    actionWithin limit action = true ↔ ActionWithin limit action := by
  unfold actionWithin ActionWithin Number.AbsLe
  rw [Bool.and_eq_true, decide_eq_true_eq, Number.isFinite_iff]
  constructor
  · rintro ⟨⟨q, hq⟩, hle⟩
    exact ⟨q, hq, by rwa [Number.toRat_of_finite hq] at hle⟩
  · rintro ⟨q, hq, hle⟩
    exact ⟨⟨q, hq⟩, by rwa [Number.toRat_of_finite hq]⟩

/-- The output of the state is within its limit. -/
def OutputWithin (s : Authority) : Prop :=
  ∀ i : Fin 8, ActionWithin s.actionLimit (getElem s.output i (Numeral.val_lt_eight i)).narrow

theorem outputWithin_of_zero (hzero : s.output = zeroOutput) (hlimit : 0 ≤ s.actionLimit.toRat) :
    OutputWithin s := by
  intro i
  obtain ⟨q, hq, -⟩ := absLe_zeroOutput i
  have hvalue : (zeroOutput[i]).narrow.value = .finite 0 := by
    have hget : zeroOutput[i] = 0 := by simp [zeroOutput]
    rw [hget]
    decide +kernel
  rw [hzero]
  exact ⟨0, hvalue, by rwa [abs_zero]⟩

/-! ### Evaluations -/

theorem sourceCommands_of_at {source : String} {item : TimedSourceCommand}
    (h : s.at source = .ok item) : s.sourceCommands source = some item := by
  unfold Authority.at at h
  split at h
  · cases h
    assumption
  · cases h

/-- The requested output is the requested values scaled by the limit. -/
theorem requestedOutput_value {requested : Vector Binary64 8}
    (h : requestedOutput
        { s with activeSource := (evaluationMode cfg s nowNs).activeSource s.selectedSource }
        (evaluationMode cfg s nowNs) = .ok requested) (i : Fin 8) :
    ∃ value, requestedValue cfg s nowNs i = some value ∧
      getElem requested i i.2 = value * s.actionLimit := by
  unfold requestedOutput at h
  obtain ⟨altitude, haltitude, hrest⟩ := bind_eq_ok_iff.mp h
  obtain ⟨selected, hselected, hvalues⟩ := bind_eq_ok_iff.mp hrest
  obtain rfl := Except.ok.inj hvalues
  replace hselected := sourceCommands_of_at hselected
  rw [Fin.getElem_fin, Vector.getElem_ofFn]
  unfold requestedValue
  dsimp only at hselected ⊢
  by_cases hchannel : ((evaluationMode cfg s nowNs).hybridAltitudeHold && decide (4 ≤ i.val)) = true
  · rw [if_pos hchannel, if_pos hchannel]
    unfold altitudeManual at haltitude
    rw [if_pos (Bool.and_eq_true_iff.mp hchannel).1] at haltitude
    obtain ⟨manual, hmanual, haltitude⟩ := bind_eq_ok_iff.mp haltitude
    obtain rfl := Except.ok.inj haltitude
    replace hmanual := sourceCommands_of_at hmanual
    dsimp only at hmanual
    rw [hmanual]
    exact ⟨_, rfl, rfl⟩
  · rw [if_neg hchannel, if_neg hchannel, hselected]
    exact ⟨_, rfl, rfl⟩

/-- What an evaluation leaves: zero, or the requested values scaled by the limit. -/
theorem evaluate_output (h : evaluate cfg s nowNs = .ok s') :
    s'.actionLimit = s.actionLimit ∧
      (drives cfg s nowNs = false ∧ s'.output = zeroOutput ∨
        drives cfg s nowNs = true ∧
        ∀ i : Fin 8, ∃ value, requestedValue cfg s nowNs i = some value ∧
          getElem s'.output i i.2 = value * s.actionLimit) := by
  unfold evaluate at h
  dsimp only at h
  set mode := evaluationMode cfg s nowNs with hmode
  set active := { s with activeSource := mode.activeSource s.selectedSource } with hactive
  obtain ⟨check, hcheck, hchecked⟩ := checkOutput_spec cfg active mode nowNs
  have hdrives : drives cfg s nowNs = (check.outputAllowed && check.idleReason.isNone) := by
    unfold drives
    dsimp only
    rw [← hmode, ← hactive, hcheck]
  rw [hdrives]
  rw [hcheck, ok_bind] at h
  cases hchecked with
  | disarmed _ =>
    cases h
    exact ⟨rfl, Or.inl ⟨rfl, rfl⟩⟩
  | idle _ _ =>
    cases h
    exact ⟨rfl, Or.inl ⟨rfl, rfl⟩⟩
  | tripped _ _ _ =>
    cases h
    exact ⟨rfl, Or.inl ⟨rfl, rfl⟩⟩
  | passed _ _ =>
    dsimp only at h
    rw [Option.isNone_none, Bool.and_true, if_pos rfl] at h
    obtain ⟨requested, hrequested, h⟩ := bind_eq_ok_iff.mp h
    cases h
    exact ⟨rfl, Or.inr ⟨rfl, requestedOutput_value hrequested⟩⟩

/-- After an evaluation the output is within the limit exactly when it has not overshot it. -/
theorem outputWithin_evaluate_iff (h : evaluate cfg s nowNs = .ok s')
    (hlimit : 0 ≤ s.actionLimit.toRat) : OutputWithin s' ↔ overshoots cfg s nowNs = false := by
  obtain ⟨hkept, ⟨hidle, hzero⟩ | ⟨hdrives, hvalues⟩⟩ := evaluate_output h
  · refine iff_of_true (outputWithin_of_zero hzero (hkept ▸ hlimit)) ?_
    rw [overshoots, hidle, Bool.false_and]
  · rw [overshoots, hdrives, Bool.true_and, List.any_eq_false]
    unfold OutputWithin
    refine forall_congr' fun i => ?_
    obtain ⟨value, hvalue, houtput⟩ := hvalues i
    rw [hkept, houtput, hvalue, ← actionWithin_iff]
    simp

/-! ### Steps -/

/-- An input that evaluates ends with the evaluation. -/
theorem evaluate_of_callback {s₀ : Authority} (hstate : evaluatedState s input = some (s₀, nowNs))
    (h : authorityCallback cfg s input = .ok (s', output)) :
    evaluate cfg s₀ nowNs = .ok s' ∧ s₀.actionLimit = s.actionLimit := by
  -- a fresh command of the selected source is evaluated on the spot
  have hfresh : ∀ {source : String} {s₁ : Authority} {clockNs : ℤ},
      freshState s₁ source clockNs = some (s₀, nowNs) →
      publishFreshSourceCommand cfg s₁ source clockNs = .ok (s', output) →
      evaluate cfg s₀ nowNs = .ok s' ∧ s₀.actionLimit = s₁.actionLimit := by
    intro source s₁ clockNs hfresh hpublish
    unfold freshState at hfresh
    unfold publishFreshSourceCommand at hpublish
    split_ifs at hfresh hpublish
    obtain ⟨rfl, rfl⟩ := Prod.mk.inj (Option.some.inj hfresh)
    obtain ⟨s₂, heval, hrest⟩ := bind_eq_ok_iff.mp hpublish
    obtain ⟨rfl, -⟩ := Prod.mk.inj (Except.ok.inj hrest)
    exact ⟨heval, rfl⟩
  have hsource : ∀ {source producer : String} {message : ThrusterCommand} {stampNs clockNs : ℤ},
      (if message.source != producer then none
        else freshState (setSourceCommand s source (some ⟨message, stampNs⟩)) source clockNs) =
          some (s₀, nowNs) →
      onSourceCommand cfg s source producer message stampNs clockNs = .ok (s', output) →
      evaluate cfg s₀ nowNs = .ok s' ∧ s₀.actionLimit = s.actionLimit := by
    intro source producer message stampNs clockNs hstate h
    unfold onSourceCommand at h
    split_ifs at hstate h
    obtain ⟨heval, hkept⟩ := hfresh hstate h
    exact ⟨heval, hkept⟩
  cases input with
  | manualCommand message stampNs clockNs => exact hsource hstate h
  | pidCommand message stampNs clockNs => exact hsource hstate h
  | rlAction action stampNs clockNs =>
    obtain ⟨heval, hkept⟩ := hfresh hstate h
    exact ⟨heval, hkept⟩
  -- the timer evaluates the state as it is
  | evaluationTimer clockNs =>
    obtain ⟨rfl, rfl⟩ := Prod.mk.inj (Option.some.inj hstate)
    unfold authorityCallback at h
    dsimp only at h
    cases heval : evaluate cfg s clockNs with
    | error e =>
      rw [heval] at h
      cases h
    | ok s₁ =>
      rw [heval] at h
      cases h
      exact ⟨rfl, rfl⟩
  | _ => cases hstate

/-- An accepted limit update. -/
structure LimitUpdated (s s' : Authority) : Prop where
  output : s'.output = s.output
  limit : LimitOk s'.actionLimit

/-- The limit is as before, and while armed so is the output. -/
structure LimitKept (s s' : Authority) : Prop where
  limit : s'.actionLimit = s.actionLimit
  output : s'.armed = true → s'.output = s.output

/-- The response accepts a limit update. -/
def acceptsLimit (request : SetControlAuthorityRequest) (output : AuthorityOutput) : Bool :=
  request.updatePwmLimit && output.response.any (·.accepted)

theorem requestArm_limit {request : SetControlAuthorityRequest} {requested : String}
    {s₀ : Authority}
    (h : requestArm cfg s₀ request requested nowNs = .ok (s', output)) : LimitKept s₀ s' := by
  unfold requestArm at h
  dsimp only at h
  have hselected : SameControl s₀
      (if !s₀.armed then { s₀ with selectedSource := requested } else s₀) := by
    split
    · rename_i hdisarmed
      exact ⟨rfl, rfl, rfl, rfl, rfl, fun harmed => by simp [harmed] at hdisarmed, id⟩
    · exact .refl s₀
  generalize (if !s₀.armed then { s₀ with selectedSource := requested } else s₀) = s₁
    at h hselected
  split at h
  · obtain ⟨rfl, -⟩ := Prod.mk.inj (Except.ok.inj h)
    exact ⟨hselected.actionLimit, fun harmed => by cases harmed⟩
  · obtain ⟨reason, -, h⟩ := bind_eq_ok_iff.mp h
    cases reason with
    | some reason =>
      obtain ⟨rfl, -⟩ := Prod.mk.inj (Except.ok.inj h)
      exact ⟨hselected.actionLimit, fun _ => hselected.output⟩
    | none =>
      obtain ⟨rfl, -⟩ := Prod.mk.inj (Except.ok.inj h)
      cases harmed : s₁.armed with
      | true => exact ⟨hselected.actionLimit, fun _ => hselected.output⟩
      | false => exact ⟨hselected.actionLimit, fun _ => hselected.output⟩

theorem requestAuthority_limit {request : SetControlAuthorityRequest} {requested : String}
    (h : requestAuthority cfg s request requested nowNs = .ok (s', output)) : LimitKept s s' := by
  unfold requestAuthority at h
  split at h
  · split at h
    · obtain ⟨rfl, -⟩ := Prod.mk.inj (Except.ok.inj h)
      exact ⟨rfl, fun _ => rfl⟩
    · dsimp only at h
      split at h
      · obtain ⟨rfl, -⟩ := Prod.mk.inj (Except.ok.inj h)
        exact ⟨rfl, fun _ => rfl⟩
      · obtain ⟨hlimit, houtput⟩ := requestArm_limit h
        exact ⟨hlimit, houtput⟩
  · exact requestArm_limit h

theorem updatePwmLimit_limit {request : SetControlAuthorityRequest}
    (hupdate : request.updatePwmLimit = true) (h : updatePwmLimit s request = (s', output)) :
    acceptsLimit request output = true ∧ LimitUpdated s s' ∨
      acceptsLimit request output = false ∧ LimitKept s s' := by
  unfold updatePwmLimit at h
  unfold acceptsLimit
  rw [hupdate]
  split at h
  · obtain ⟨rfl, rfl⟩ := Prod.mk.inj h
    exact Or.inr ⟨rfl, rfl, fun _ => rfl⟩
  · split at h
    · obtain ⟨rfl, rfl⟩ := Prod.mk.inj h
      exact Or.inr ⟨rfl, rfl, fun _ => rfl⟩
    · rename_i hvalid
      obtain ⟨rfl, rfl⟩ := Prod.mk.inj h
      rw [Bool.not_eq_true', Bool.not_eq_false] at hvalid
      exact Or.inl ⟨rfl, rfl, limitOk_divConst hvalid⟩

theorem onSetAuthority_limit {request : SetControlAuthorityRequest}
    (h : onSetAuthority cfg s request nowNs = .ok (s', output)) :
    acceptsLimit request output = true ∧ LimitUpdated s s' ∨
      acceptsLimit request output = false ∧ LimitKept s s' := by
  unfold onSetAuthority at h
  dsimp only at h
  split at h
  · rename_i hupdate
    exact updatePwmLimit_limit hupdate (Except.ok.inj h)
  · rename_i hupdate
    refine Or.inr ⟨by rw [acceptsLimit, Bool.eq_false_iff.mpr hupdate, Bool.false_and], ?_⟩
    split_ifs at h
    · obtain ⟨rfl, -⟩ := Prod.mk.inj (Except.ok.inj h)
      exact ⟨rfl, fun _ => rfl⟩
    · obtain ⟨rfl, -⟩ := Prod.mk.inj (Except.ok.inj h)
      exact ⟨rfl, fun _ => rfl⟩
    · obtain ⟨rfl, -⟩ := Prod.mk.inj (Except.ok.inj h)
      exact ⟨rfl, fun _ => rfl⟩
    · exact requestAuthority_limit h

/-- What an input that does not evaluate does to the limit and the output. -/
theorem callback_limit (hstate : evaluatedState s input = none)
    (h : authorityCallback cfg s input = .ok (s', output)) :
    limitAccepted ⟨s, input, .ok output, s'⟩ = true ∧ LimitUpdated s s' ∨
      limitAccepted ⟨s, input, .ok output, s'⟩ = false ∧ LimitKept s s' := by
  -- a command that is not evaluated at once leaves the output alone
  have hfresh : ∀ {source : String} {s₁ : Authority} {clockNs : ℤ},
      freshState s₁ source clockNs = none →
      publishFreshSourceCommand cfg s₁ source clockNs = .ok (s', output) → s' = s₁ := by
    intro source s₁ clockNs hfresh hpublish
    unfold freshState at hfresh
    unfold publishFreshSourceCommand at hpublish
    split_ifs at hfresh hpublish
    exact (Prod.mk.inj (Except.ok.inj hpublish)).1.symm
  -- so does one from another producer
  have hsource : ∀ {source producer : String} {message : ThrusterCommand} {stampNs clockNs : ℤ},
      (if message.source != producer then none
        else freshState (setSourceCommand s source (some ⟨message, stampNs⟩)) source clockNs) =
          none →
      onSourceCommand cfg s source producer message stampNs clockNs = .ok (s', output) →
      LimitKept s s' := by
    intro source producer message stampNs clockNs hstate h
    unfold onSourceCommand at h
    split_ifs at hstate h
    · obtain ⟨rfl, -⟩ := Prod.mk.inj (Except.ok.inj h)
      exact ⟨rfl, fun _ => rfl⟩
    · obtain rfl := hfresh hstate h
      exact ⟨rfl, fun _ => rfl⟩
  cases input with
  | manualCommand message stampNs clockNs => exact Or.inr ⟨rfl, hsource hstate h⟩
  | pidCommand message stampNs clockNs => exact Or.inr ⟨rfl, hsource hstate h⟩
  | rlAction action stampNs clockNs =>
    obtain rfl := hfresh hstate h
    exact Or.inr ⟨rfl, rfl, fun _ => rfl⟩
  | bodyState message stampNs =>
    cases h
    exact Or.inr ⟨rfl, rfl, fun _ => rfl⟩
  | trajectoryTarget message stampNs =>
    cases h
    exact Or.inr ⟨rfl, rfl, fun _ => rfl⟩
  | safetyEvent event stampNs =>
    -- an abort disarms, and the limit stays
    refine Or.inr ⟨rfl, ?_⟩
    have hresult : onSafety s event stampNs = (s', output) := Except.ok.inj h
    unfold onSafety at hresult
    dsimp only at hresult
    split at hresult
    · obtain ⟨rfl, -⟩ := Prod.mk.inj hresult
      exact ⟨rfl, fun harmed => by cases harmed⟩
    · obtain ⟨rfl, -⟩ := Prod.mk.inj hresult
      exact ⟨rfl, fun _ => rfl⟩
  | setAuthority request clockNs => exact onSetAuthority_limit h
  | evaluationTimer clockNs => cases hstate
  | commandTimer =>
    cases h
    exact Or.inr ⟨rfl, rfl, fun _ => rfl⟩
  | statusTimer =>
    cases h
    exact Or.inr ⟨rfl, rfl, fun _ => rfl⟩

/-! ### Runs -/

/-- Once a limit has been accepted, the history tells whether the output is within the limit. -/
structure LimitTracked (cfg : AuthorityConfig) (tr : AuthorityHistory) (s : Authority) : Prop where
  limit : LimitOk s.actionLimit
  within : OutputWithin s ↔ outgrown cfg tr = false

theorem limit_nonneg {limit : Binary64} (h : LimitOk limit) : 0 ≤ limit.toRat := by
  obtain ⟨q, hq, h0, -⟩ := h
  rwa [Number.toRat_of_finite hq]

theorem undercuts_iff (hsame : x.post.output = x.pre.output) :
    OutputWithin x.post ↔ undercuts x = false := by
  unfold undercuts OutputWithin
  rw [← hsame, List.any_eq_false]
  constructor
  · intro h value hvalue
    obtain ⟨i, hi, rfl⟩ := List.getElem_of_mem hvalue
    have hi8 : i < 8 := by simpa using hi
    have hwithin := actionWithin_iff.mpr (h ⟨i, hi8⟩)
    simpa using hwithin
  · intro h i
    have hwithin := h x.post.output[i] (by simp)
    rw [← actionWithin_iff]
    simpa using hwithin

/-- A limit update is no evaluation. -/
theorem not_limitAccepted_of_evaluated {s₀ : Authority}
    (hstate : evaluatedState s input = some (s₀, nowNs)) :
    limitAccepted ⟨s, input, .ok output, s'⟩ = false := by
  cases input with
  | setAuthority request clockNs => cases hstate
  | _ => rfl

theorem limitTracked_step (hgated : OutputGated s')
    (htracked : tr.any limitAccepted = true → LimitTracked cfg tr s)
    (h : authorityCallback cfg s input = .ok (s', output))
    (haccepted : (⟨s, input, .ok output, s'⟩ :: tr : AuthorityHistory).any limitAccepted = true) :
    LimitTracked cfg (⟨s, input, .ok output, s'⟩ :: tr) s' := by
  rw [List.any_cons] at haccepted
  cases hstate : evaluatedState s input with
  | some evaluated =>
    obtain ⟨s₀, nowNs⟩ := evaluated
    -- an evaluation bounds its output by the limit in force
    have hnot := @not_limitAccepted_of_evaluated _ s' _ _ output _ hstate
    rw [hnot, Bool.false_or] at haccepted
    obtain ⟨hlimit, -⟩ := htracked haccepted
    obtain ⟨heval, hsame⟩ := evaluate_of_callback hstate h
    rw [← hsame] at hlimit
    refine ⟨(evaluate_output heval).1 ▸ hlimit, ?_⟩
    rw [outputWithin_evaluate_iff heval (limit_nonneg hlimit), outgrown, hnot,
      if_neg Bool.false_ne_true]
    dsimp only
    rw [hstate]
  | none =>
    rcases callback_limit hstate h with ⟨hupdate, hsame, hlimit⟩ | ⟨hnot, hlimit, hsame⟩
    -- a new limit is accepted: the held output may exceed it
    · refine ⟨hlimit, ?_⟩
      rw [outgrown, if_pos hupdate]
      exact @undercuts_iff ⟨s, input, .ok output, s'⟩ hsame
    · rw [hnot, Bool.false_or] at haccepted
      -- nothing about the limit, so that only a disarming changes the output
      obtain ⟨hlimitOk, hwithin⟩ := htracked haccepted
      refine ⟨hlimit ▸ hlimitOk, ?_⟩
      rw [outgrown, hnot, if_neg Bool.false_ne_true]
      dsimp only
      rw [hstate]
      dsimp only
      cases harmed : s'.armed with
      | false =>
        have hdisabled : s'.outputEnabled = false := by
          by_contra henabled
          rw [hgated.armed (Bool.not_eq_false _ ▸ henabled)] at harmed
          cases harmed
        exact iff_of_true
          (outputWithin_of_zero (hgated.neutral hdisabled) (hlimit ▸ limit_nonneg hlimitOk)) rfl
      | true =>
        rw [Bool.true_and, ← hwithin, OutputWithin, OutputWithin, hlimit, hsame harmed]

theorem limitTracked_of_run (h : (authorityMachine cfg).Run tr s) :
    tr.any limitAccepted = true → LimitTracked cfg tr s := by
  refine h.invariant (I := fun tr s => tr.any limitAccepted = true → LimitTracked cfg tr s)
    (fun h => by cases h) ?_
  intro tr s i s' o hrun htracked hstep haccepted
  have hgated := outputGated_of_run (.step hrun hstep)
  obtain ⟨s'', output, hok, -⟩ := authorityCallback_spec cfg s i
  change authorityStep cfg s i = some (s', o) at hstep
  unfold authorityStep at hstep
  rw [hok] at hstep
  obtain ⟨rfl, rfl⟩ := Prod.mk.inj (Option.some.inj hstep)
  exact limitTracked_step hgated htracked hok haccepted

/-- **PWM-limit updates.**  The actions published after an accepted update are all within the limit
exactly when none of them is published from an outgrown output. -/
theorem published_within_limit_iff (h : (authorityMachine cfg).Run tr s) :
    (∀ after x before command, tr = after ++ x :: before → before.any limitAccepted = true →
        publishedCommand? x = some command →
        ∀ i : Fin 8, ActionWithin x.post.actionLimit (getElem command.action i i.2)) ↔
      ∀ after x before, tr = after ++ x :: before → before.any limitAccepted = true →
        (publishedCommand? x).isSome = true → outgrown cfg (x :: before) = false := by
  have hpoint : ∀ after x before command, tr = after ++ x :: before →
      before.any limitAccepted = true → publishedCommand? x = some command →
      ((∀ i : Fin 8, ActionWithin x.post.actionLimit (getElem command.action i i.2)) ↔
        outgrown cfg (x :: before) = false) := by
    rintro after x before command rfl haccepted hcommand
    have hrun := h.split
    have haction :=
      (publishedCommand_spec h (List.mem_append_right _ List.mem_cons_self) hcommand).1
    rw [← (limitTracked_of_run hrun (by rw [List.any_cons, haccepted, Bool.or_true])).within,
      haction]
    unfold OutputWithin
    simp [makeCommand]
  constructor
  · intro hwithin after x before htr haccepted hpublished
    obtain ⟨command, hcommand⟩ := Option.isSome_iff_exists.mp hpublished
    exact (hpoint after x before command htr haccepted hcommand).mp
      (hwithin after x before command htr haccepted hcommand)
  · intro hfresh after x before command htr haccepted hcommand
    exact (hpoint after x before command htr haccepted hcommand).mpr
      (hfresh after x before htr haccepted (by rw [hcommand]; rfl))

/-! ### A lowered limit -/

/-- Full manual action, armed and evaluated at 250 us; then the limit is lowered to 50 us, and the
command timer comes before the next evaluation. -/
def loweredLimitInputs : List AuthorityInput :=
  [.safetyEvent {} 0,
    .manualCommand
      { action := Vector.replicate 8 (Number.ofRat binary32 1), enable := true
        source := "web_operator" } 0 0,
    .setAuthority { source := "manual", arm := true } 0,
    .evaluationTimer 0,
    .setAuthority { updatePwmLimit := true, pwmLimitUs := Number.ofRat binary64 50 } 0,
    .commandTimer]

theorem published_within_limit_iff_loweredLimitInputs :
    ∃ x tr s, (authorityMachine {}).Run (x :: tr) s ∧ tr.any limitAccepted = true ∧
      ((∀ after y before command, x :: tr = after ++ y :: before →
          before.any limitAccepted = true → publishedCommand? y = some command →
          ∀ i : Fin 8, ActionWithin y.post.actionLimit (getElem command.action i i.2)) ↔
        ∀ after y before, x :: tr = after ++ y :: before → before.any limitAccepted = true →
          (publishedCommand? y).isSome = true → outgrown {} (y :: before) = false) := by
  obtain ⟨x, tr, s, hrun, hcheck⟩ := run_of_execCheck (authorityMachine {}) loweredLimitInputs
    (fun _ tr => tr.any limitAccepted) (by decide +kernel)
  exact ⟨x, tr, s, hrun, hcheck, published_within_limit_iff hrun⟩

/-- The full action is published once more after the update to 50 us. -/
theorem lowered_limit_published :
    ¬ ∀ cfg tr s, (authorityMachine cfg).Run tr s → ∀ after x before command,
      tr = after ++ x :: before → before.any limitAccepted = true →
      publishedCommand? x = some command →
      ∀ i : Fin 8, ActionWithin x.post.actionLimit (getElem command.action i i.2) := by
  intro hall
  obtain ⟨x, tr, s, hrun, hcheck⟩ := run_of_execCheck (authorityMachine {}) loweredLimitInputs
    (fun x tr => tr.any limitAccepted && (publishedCommand? x).any fun command : ThrusterCommand =>
      !actionWithin x.post.actionLimit command.action[0]) (by decide +kernel)
  obtain ⟨haccepted, hbeyond⟩ := Bool.and_eq_true_iff.mp hcheck
  obtain ⟨command, hcommand, hbeyond⟩ := (Option.any_eq_true _ _).mp hbeyond
  have hwithin := hall _ _ s hrun [] x tr command rfl haccepted hcommand 0
  rw [← actionWithin_iff] at hwithin
  simp_all

end RobotCore
