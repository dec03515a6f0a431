import RobotCore.Authority.Equiv.Fresh
import RobotCore.Runtime.Equiv.SafetyMonitor
import RobotCore.System.Equiv.StopAgreement
import RobotCore.System.SafetyChain
import RobotCore.Trajectory.Equiv.Approval

/-!
# From the safety monitor to the thrusters

* `enabled_of_healthy`: an enabled command of the authority goes back to an event that the monitor
  published while the board was healthy and the operator had not aborted.
* `abort_until_cleared`: once the authority has processed an abort event published after an abort
  of the operator, it publishes nothing enabled until the operator has cleared the abort, an event
  published after that has arrived, and an arm request has been accepted, in this order.
* `abort_reaches_thrusters`: the same of the frames that the bridge dispatches enabled.

Whatever the two links lose.
-/

namespace RobotCore

open Machine Scalar LossyLink

variable {α : Type} [Scalar α] {timeoutS : α} {acfg : AuthorityConfig} {s s₀ : Guarded α}
  {x y t d c p : GuardedTransition α} {tr after mid before : GuardedHistory α}
  {a : AuthorityTransition} {m r : SafetyTransition α} {event : SafetyEvent} {n : ℕ}

/-! ### The authority's side -/

theorem monitor_run (h : (guardedMachine timeoutS acfg).Run tr s) :
    (safetyMachine timeoutS).Run (tr.filterMap monitor?) s.producer := producer_run h

theorem guarded_run (h : (guardedMachine timeoutS acfg).Run tr s) :
    (authorityMachine acfg).Run (tr.filterMap guarded?) s.consumer := consumer_run h

/-- The event of the monitor that arrives in a transition. -/
def eventReceived (x : GuardedTransition α) : Option (SafetyEventMsg × ℤ) :=
  (guarded? x).bind safetyReceived

/-- An event that arrives is delivered. -/
theorem delivery_of_received (h : (guardedMachine timeoutS acfg).Run (y :: tr) s)
    {msg : SafetyEventMsg} {stampNs : ℤ} (hy : eventReceived y = some (msg, stampNs)) :
    ∃ n event, LossyLink.delivery? y = some (n, event) ∧ event.received = msg := by
  obtain ⟨a, ha, hreceived⟩ := Option.bind_eq_some_iff.mp hy
  unfold safetyReceived at hreceived
  split at hreceived
  · rename_i event' stampNs' hinput
    obtain ⟨rfl, rfl⟩ := Prod.mk.inj (Option.some.inj hreceived)
    obtain ⟨n, event, clockNs, hdelivery, harrival⟩ :=
      delivery_of_consumer? (rule_of_run h) ha (by rw [hinput]; rfl)
    rw [hinput] at harrival
    obtain ⟨rfl, -⟩ := AuthorityInput.safetyEvent.inj harrival
    exact ⟨n, event, hdelivery, rfl⟩
  · cases hreceived

/-- A delivery is the arrival of an event. -/
theorem received_of_delivery (h : (guardedMachine timeoutS acfg).Run (d :: tr) s)
    (hd : LossyLink.delivery? d = some (n, event)) :
    ∃ stampNs a, guarded? d = some a ∧ a.input = .safetyEvent event.received stampNs := by
  obtain ⟨-, -, -, stampNs, output, hconsumer⟩ := delivery_spec (rule_of_run h) hd
  exact ⟨stampNs, _, hconsumer, rfl⟩

/-- Arming passes the check for an abort, whatever the request. -/
theorem abort_of_requestArm {s₁ s₂ : Authority} {request : SetControlAuthorityRequest}
    {requested : String} {nowNs : ℤ} {output : AuthorityOutput} (hdisarmed : s₁.armed = false)
    (harmed : s₂.armed = true)
    (h : requestArm acfg s₁ request requested nowNs = .ok (s₂, output)) :
    s₁.abortActive = false := by
  have hselected : (if !s₁.armed then { s₁ with selectedSource := requested } else s₁).abortActive =
        s₁.abortActive ∧
      (if !s₁.armed then { s₁ with selectedSource := requested } else s₁).armed = false := by
    split <;> exact ⟨rfl, hdisarmed⟩
  unfold requestArm at h
  dsimp only at h
  generalize (if !s₁.armed then { s₁ with selectedSource := requested } else s₁) = s₃
    at hselected h
  obtain ⟨habort, hdisarmed⟩ := hselected
  split at h
  · obtain ⟨rfl, -⟩ := Prod.mk.inj (Except.ok.inj h)
    cases harmed
  · obtain ⟨reason, hreason, h⟩ := bind_eq_ok_iff.mp h
    cases reason with
    | some reason =>
      obtain ⟨rfl, -⟩ := Prod.mk.inj (Except.ok.inj h)
      exact absurd (hdisarmed.symm.trans harmed) Bool.false_ne_true
    | none =>
      unfold prearmFailure at hreason
      cases hcommon : commonFailure acfg s₃ nowNs with
      | some reason =>
        rw [hcommon] at hreason
        cases hreason
      | none => exact habort.symm.trans (heartbeat_of_none hcommon).1

/-- A node that arms has seen no abort since the last clear event. -/
theorem abort_of_arms (h : authorityStep acfg a.pre a.input = some (a.post, a.output))
    (harms : arms a = true) : a.pre.abortActive = false := by
  obtain ⟨accepted, -, haccepts⟩ := acceptsArm_of_arms h harms
  rw [arms, Bool.and_eq_true, Bool.not_eq_true'] at harms
  obtain ⟨hdisarmed, harmed⟩ := harms
  obtain ⟨output, hcallback⟩ := callback_of_step _ h
  have hrefused {accepted : Bool} {text : String} :
      Except.ok (ε := OutOfRange) (answer a.pre accepted text) ≠ .ok (a.post, output) := by
    intro heq
    obtain ⟨hpost, -⟩ := Prod.mk.inj (Except.ok.inj heq)
    rw [← hpost] at harmed
    exact absurd (hdisarmed.symm.trans harmed) Bool.false_ne_true
  unfold acceptsArm at haccepts
  split at haccepts
  · rename_i request nowNs hinput
    rw [hinput] at hcallback
    change onSetAuthority acfg a.pre request nowNs = _ at hcallback
    unfold onSetAuthority at hcallback
    split at hcallback
    · unfold updatePwmLimit at hcallback
      split_ifs at hcallback <;>
        (obtain ⟨hpost, -⟩ := Prod.mk.inj (Except.ok.inj hcallback)
         rw [← hpost] at harmed
         exact absurd (hdisarmed.symm.trans harmed) Bool.false_ne_true)
    · dsimp only at hcallback
      split_ifs at hcallback
      · exact absurd hcallback hrefused
      · exact absurd hcallback hrefused
      · exact absurd hcallback hrefused
      · unfold requestAuthority at hcallback
        split_ifs at hcallback with _ habort
        · exact absurd hcallback hrefused
        · exact Bool.eq_false_of_not_eq_true habort
        · exact abort_of_requestArm hdisarmed harmed hcallback
  · cases haccepts

/-! ### The monitor's side -/

/-- The monitor has published the event at place `n` of the topic while the board was healthy, and
the operator had not aborted since the last request to clear. -/
def PublishedHealthy (timeoutS : α) (tr : GuardedHistory α) (n : ℕ) (event : SafetyEvent) : Prop :=
  ∃ newer p older m nowNs, tr = newer ++ p :: older ∧ p.pre.sent.length = n ∧
    monitor? p = some m ∧ m.output.event = some event ∧ checkedAt m = some nowNs ∧
    BoardHealthy (timeoutOf timeoutS ((p :: older).filterMap monitor?))
      ((p :: older).filterMap monitor?) nowNs ∧
    operatorAborts ((p :: older).filterMap monitor?) = false

theorem event_of_published (h : (guardedMachine timeoutS acfg).Run (p :: tr) s)
    (hp : monitor? p = some m) (hevent : m.output.event = some event) :
    ∃ nowNs, checkedAt m = some nowNs ∧
      EventOk timeoutS ((p :: tr).filterMap monitor?) event nowNs := by
  have hrun := monitor_run h
  rw [List.filterMap_cons_some hp] at hrun ⊢
  obtain ⟨nowNs, node, hchecked, rfl, hmonitors⟩ := checked_of_event hrun hevent
  exact ⟨nowNs, hchecked, eventOk_checked hmonitors⟩

/-- A clear event that is delivered was published by a healthy monitor. -/
theorem publishedHealthy_of_delivery (h : (guardedMachine timeoutS acfg).Run (d :: tr) s)
    (hd : LossyLink.delivery? d = some (n, event)) (hclear : event.abortActive = false) :
    PublishedHealthy timeoutS tr n event := by
  obtain ⟨hsent, -⟩ := delivery_spec (rule_of_run h) hd
  have hrun := h.tail
  obtain ⟨newer, p, older, m, rfl, hplace, hp, hevent⟩ := published_after
    ((List.append_nil tr).symm ▸ hrun) .start (Nat.zero_le n) hsent
  obtain ⟨nowNs, hchecked, hok⟩ := event_of_published hrun.split hp hevent
  obtain ⟨hhealthy, hoperator⟩ := hok.clear.mp hclear
  exact ⟨newer, p, older, m, nowNs, rfl, hplace, hp, hevent, hchecked, hhealthy, hoperator⟩

/-- The last event that has arrived did so at `stampNs`, after a healthy monitor had published
it. -/
def HealthyEvent (timeoutS : α) (tr : GuardedHistory α) (stampNs : ℤ) : Prop :=
  ∃ newer y older n event, tr = newer ++ y :: older ∧ (∀ z ∈ newer, eventReceived z = none) ∧
    eventReceived y = some (event.received, stampNs) ∧
    LossyLink.delivery? y = some (n, event) ∧ PublishedHealthy timeoutS older n event

/-- **Enabled commands.**  A command that the authority publishes enabled goes back to an evaluation
since which the output has been enabled.  The last event before the evaluation has arrived in time,
and before it arrived it was published while the board was healthy and no abort of the operator was
pending. -/
theorem enabled_of_healthy (h : (guardedMachine timeoutS acfg).Run (x :: tr) s)
    (hx : guarded? x = some a) {command : ThrusterCommand}
    (hcommand : publishedCommand? a = some command) (henable : command.enable = true) :
    ∃ later c earlier e s₁ evaluatedNs stampNs, x :: tr = later ++ c :: earlier ∧
      guarded? c = some e ∧ evaluatedState e.pre e.input = some (s₁, evaluatedNs) ∧
      (∀ b ∈ later.filterMap guarded?, b.post.outputEnabled = true ∧ stops b = false) ∧
      stale acfg.safetyHeartbeatTimeoutS stampNs evaluatedNs = false ∧
      HealthyEvent timeoutS (c :: earlier) stampNs := by
  have hrun := guarded_run h
  rw [List.filterMap_cons_some hx] at hrun
  obtain ⟨_, e, _, s₁, evaluatedNs, source, htr, hstate, -, hfresh, hlater⟩ :=
    backed_of_enabled hrun hcommand henable
  obtain ⟨msg, stampNs, hreceived, habort, hstale⟩ := hfresh.safety
  -- the evaluation in the whole run
  rw [← List.filterMap_cons_some (f := guarded?) hx] at htr
  obtain ⟨later, c, earlier, heq, hc, rfl, rfl⟩ := List.filterMap_eq_append_cons htr
  rw [heq] at h
  refine ⟨later, c, earlier, e, s₁, evaluatedNs, stampNs, heq, hc, hstate, hlater, hstale, ?_⟩
  -- the transition in which the event has arrived
  rw [← List.filterMap_cons_some (f := guarded?) hc, List.findSome?_filterMap] at hreceived
  obtain ⟨newer, y, older, hsplit, hy, hnewer⟩ := List.findSome?_eq_some_iff.mp hreceived
  have hrest : (guardedMachine timeoutS acfg).Run (y :: older) y.post := by
    have hevaluated := h.split
    rw [hsplit] at hevaluated
    exact hevaluated.split
  obtain ⟨n, event, hdelivery, rfl⟩ := delivery_of_received hrest hy
  exact ⟨newer, y, older, n, event, hsplit, hnewer, hy, hdelivery,
    publishedHealthy_of_delivery hrest hdelivery habort⟩

/-! ### Aborts of the operator -/

/-- A request of the operator to abort. -/
def operatorAbort (x : GuardedTransition α) : Bool :=
  (monitor? x).any fun m => (abortRequested m).any (·.abort)

/-- A request of the operator to clear the abort. -/
def operatorClear (x : GuardedTransition α) : Bool :=
  (monitor? x).any fun m => (abortRequested m).any (!·.abort)

/-- A clear event arrives at the authority. -/
def clearArrives (x : GuardedTransition α) : Bool :=
  (LossyLink.delivery? x).any (!·.2.abortActive)

/-- The authority accepts an arm request. -/
def armsGuarded (x : GuardedTransition α) : Bool :=
  (guarded? x).any fun a => arms a && armAccepted a

/-- A clear event has arrived in `after`, and before it the operator has cleared the abort, there or
in `since`. -/
def Cleared (after since : GuardedHistory α) : Prop :=
  ∃ newer e older, after = newer ++ e :: older ∧ clearArrives e = true ∧
    ∃ q ∈ older ++ since, operatorClear q = true

/-- After an abort of the operator a clear event needs a request to clear. -/
theorem operatorClear_of_published
    (h : (guardedMachine timeoutS acfg).Run (p :: mid ++ t :: before) s)
    (ht : operatorAbort t = true) (hp : monitor? p = some m)
    (hevent : m.output.event = some event) (hclear : event.abortActive = false) :
    ∃ q ∈ p :: mid, operatorClear q = true := by
  obtain ⟨nowNs, -, hok⟩ := event_of_published h hp hevent
  have hoperator := (hok.clear.mp hclear).2
  rw [operatorAborts, List.findSome?_filterMap] at hoperator
  change ((p :: mid ++ t :: before).findSome? fun y => (monitor? y).bind abortRequested).any _ = _
    at hoperator
  rw [List.findSome?_append] at hoperator
  cases hfound : (p :: mid).findSome? fun y => (monitor? y).bind abortRequested with
  | none =>
    -- then the last request is the abort
    obtain ⟨r, hr, habort⟩ := (Option.any_eq_true _ _).mp ht
    obtain ⟨request, hrequest, habort⟩ := (Option.any_eq_true _ _).mp habort
    rw [hfound, Option.none_or, List.findSome?_cons, hr, Option.bind_some, hrequest] at hoperator
    rw [Option.any_some, habort] at hoperator
    cases hoperator
  | some request =>
    rw [hfound, Option.some_or, Option.any_some] at hoperator
    obtain ⟨newer, q, older, heq, hq, -⟩ := List.findSome?_eq_some_iff.mp hfound
    obtain ⟨r, hr, hrequest⟩ := Option.bind_eq_some_iff.mp hq
    refine ⟨q, heq ▸ List.mem_append_right _ List.mem_cons_self, ?_⟩
    rw [operatorClear, hr, Option.any_some, hrequest, Option.any_some, hoperator]
    rfl

/-- **Arming after an abort.**  When the authority arms after it has processed an abort event that
was published after an abort of the operator, the abort has been cleared. -/
theorem cleared_of_arms
    (h : (guardedMachine timeoutS acfg).Run (c :: (after ++ d :: (mid ++ t :: before))) s)
    (hc : guarded? c = some a) (harms : arms a = true) (ht : operatorAbort t = true)
    (hd : LossyLink.delivery? d = some (n, event)) (habort : event.abortActive = true)
    (hn : t.pre.sent.length ≤ n) : Cleared after (d :: mid) := by
  have hguarded := guarded_run h
  rw [List.filterMap_cons_some hc] at hguarded
  have hreceived := (received_of_run hguarded.tail).abort
  rw [abort_of_arms hguarded.head_step harms, List.findSome?_filterMap] at hreceived
  change false = ((after ++ d :: (mid ++ t :: before)).findSome? eventReceived).any _ at hreceived
  rw [List.findSome?_append] at hreceived
  have hrun : (guardedMachine timeoutS acfg).Run (after ++ d :: (mid ++ t :: before)) c.pre :=
    h.tail
  cases hfound : after.findSome? eventReceived with
  | none =>
    -- then the last event is the abort
    obtain ⟨stampNs, b, hb, hinput⟩ := received_of_delivery hrun.split hd
    have hlast : eventReceived d = some (event.received, stampNs) := by
      rw [eventReceived, hb, Option.bind_some, safetyReceived, hinput]
    rw [hfound, Option.none_or, List.findSome?_cons, hlast, Option.any_some] at hreceived
    exact absurd (hreceived.trans habort) Bool.false_ne_true
  | some last =>
    obtain ⟨msg, stampNs⟩ := last
    rw [hfound, Option.some_or, Option.any_some] at hreceived
    obtain ⟨newer, e, older, rfl, he, -⟩ := List.findSome?_eq_some_iff.mp hfound
    rw [List.append_assoc, List.cons_append] at hrun
    obtain ⟨k, clearEvent, hdelivery, rfl⟩ := delivery_of_received hrun.split he
    have hclear : clearEvent.abortActive = false := hreceived.symm
    -- the clear event is published after the abort of the operator
    have horder : n < k := index_lt_of_deliveries hrun.split
      (List.mem_append_right _ List.mem_cons_self) hd hdelivery
    have hbetween :
        (guardedMachine timeoutS acfg).Run ((older ++ d :: mid) ++ t :: before) e.pre := by
      simpa using hrun.split.tail
    obtain ⟨r, hr, -⟩ := (Option.any_eq_true _ _).mp ht
    have hlog : t.post.sent.length ≤ t.pre.sent.length + 1 := by
      rw [sent_of_rule (rule_of_run hbetween.split), List.length_append]
      exact Nat.add_le_add_left (by cases (producer? t).bind _ <;> simp) _
    obtain ⟨hsent, -⟩ := delivery_spec (rule_of_run hrun.split) hdelivery
    obtain ⟨newer', p, older', m, heq, -, hp, hevent⟩ :=
      published_after hbetween hbetween.split (by omega) hsent
    rw [heq] at hbetween
    rw [List.append_assoc, List.cons_append] at hbetween
    obtain ⟨q, hq, hqclear⟩ := operatorClear_of_published hbetween.split ht hp hevent hclear
    refine ⟨newer, e, older, rfl, ?_, q, ?_, hqclear⟩
    · rw [clearArrives, hdelivery, Option.any_some, hclear]
      rfl
    · rw [heq]
      exact List.mem_append_right _ hq

/-- An enabled command is published by a node that has been armed before. -/
theorem armed_of_enabled {history : AuthorityHistory} {s₁ : Authority}
    (h : (authorityMachine acfg).Run (a :: history) s₁) {command : ThrusterCommand}
    (hcommand : publishedCommand? a = some command) (henable : command.enable = true) :
    a.pre.armed = true := by
  obtain ⟨output, hok, hchange⟩ := change_of_step h.head_step
  rw [publishedCommand?, hok] at hcommand
  change output.command = some command at hcommand
  have henabled := (command_of_change hchange hcommand).2 henable
  have hgated := outputGated_of_run h.tail
  obtain ⟨pre, input, result, post⟩ := a
  dsimp only at hchange henabled hgated ⊢
  cases hchange with
  | quiet hsame _ => exact hgated.armed (hsame.outputEnabled ▸ henabled)
  | limit _ _ _ hnone => exact hgated.armed henabled
  | evaluated _ hsame hevaluated _ =>
    cases hevaluated with
    | neutral _ _ => cases henabled
    | tripped _ _ _ => cases henabled
    | driven harmed _ _ _ => exact hsame.armed.symm.trans harmed
  | aborted _ _ _ _ _ => cases henabled
  | disarmed _ _ => cases henabled
  | armed hsame _ _ _ hnone _ => cases hcommand.symm.trans hnone

/-- **Aborts of the operator.**  Once the authority has processed an abort event that was published
after an abort of the operator, it publishes an enabled command only after the operator has cleared
the abort, a clear event has then arrived, and an arm request has then been accepted. -/
theorem abort_until_cleared
    (h : (guardedMachine timeoutS acfg).Run (x :: (after ++ d :: (mid ++ t :: before))) s)
    (hx : guarded? x = some a) {command : ThrusterCommand}
    (hcommand : publishedCommand? a = some command) (henable : command.enable = true)
    (ht : operatorAbort t = true) (hd : LossyLink.delivery? d = some (n, event))
    (habort : event.abortActive = true) (hn : t.pre.sent.length ≤ n) :
    ∃ newer c older, after = newer ++ c :: older ∧ armsGuarded c = true ∧
      Cleared older (d :: mid) := by
  have hrun := guarded_run h
  rw [List.filterMap_cons_some hx] at hrun
  have harmed := armed_of_enabled hrun hcommand henable
  have hguarded := hrun.tail
  rw [List.filterMap_append] at hguarded
  -- the abort event disarms
  obtain ⟨stampNs, b, hb, hinput⟩ := received_of_delivery h.tail.split hd
  have hbefore := guarded_run h.tail.split
  have hdisarmed : d.post.consumer.armed = false := by
    rw [List.filterMap_cons_some hb] at hbefore
    have hstops : stops b = true := by
      rw [stops, aborts, hinput]
      simp [SafetyEvent.received, habort]
    rw [← hbefore.head_post]
    exact disarmed_of_stops hbefore.head_step hstops
  obtain ⟨newer, c', older, heq, harms, -⟩ := arm_since hguarded hbefore hdisarmed harmed
  obtain ⟨newer', c, older', rfl, hc, -, -⟩ := List.filterMap_eq_append_cons heq
  have hsplit := h.tail
  rw [List.append_assoc, List.cons_append] at hsplit
  refine ⟨newer', c, older', rfl, ?_, cleared_of_arms hsplit.split hc harms ht hd habort hn⟩
  have hstep := guarded_run hsplit.split
  rw [List.filterMap_cons_some hc] at hstep
  obtain ⟨output, hok, haccepts⟩ := acceptsArm_of_arms hstep.head_step harms
  rw [armsGuarded, hc, Option.any_some, harms, armAccepted, hok]
  exact haccepts

/-! ### The bridge's side -/

section StopChain

variable {bcfg : BridgeConfig} {initialSession : UInt32} {s : StopChain α}
  {x y t d p : StopChainTransition α} {tr after mid before : StopChainHistory α}
  {t₁ d₁ y₁ : GuardedTransition α} {w y₂ : SystemTransition}

omit [Scalar α] in
/-- What the authority does is seen in both links. -/
theorem lower?_of_upper? (hy : upper? y = some y₁) (ha : guarded? y₁ = some a) :
    ∃ y₂, lower? y = some y₂ ∧ authority? y₂ = some a ∧ y₂.pre = second y.pre := by
  have hmiddle : (lower? y).bind authority? = some a :=
    (producer?_second? eventArrival).trans (Option.bind_eq_some_iff.mpr ⟨y₁, hy, ha⟩)
  obtain ⟨y₂, hy₂, hauthority⟩ := Option.bind_eq_some_iff.mp hmiddle
  exact ⟨y₂, hy₂, hauthority, pre_of_second? hy₂⟩

omit [Scalar α] in
theorem upper?_of_lower? (hy : lower? y = some y₂) (ha : authority? y₂ = some a) :
    ∃ y₁, upper? y = some y₁ ∧ guarded? y₁ = some a := by
  have hmiddle : (upper? y).bind guarded? = some a :=
    (producer?_second? eventArrival).symm.trans (Option.bind_eq_some_iff.mpr ⟨y₂, hy, ha⟩)
  exact Option.bind_eq_some_iff.mp hmiddle

/-- A delivery to the bridge is one of the second link. -/
theorem lower?_of_delivery {k : ℕ} {message : ThrusterCommand}
    (h : (stopChainMachine timeoutS acfg bcfg initialSession).Run (p :: tr) s)
    (hp : LossyLink.delivery? p = some (k, message)) :
    ∃ p₂, lower? p = some p₂ ∧ LossyLink.delivery? p₂ = some (k, message) := by
  have hrule := rule_of_run h
  cases hrule with
  | produced _ => cases hp
  | consumed _ _ => cases hp
  | delivered _ _ _ => exact ⟨_, rfl, hp⟩

/-- **Aborts reach the thrusters.**  After an abort of the operator let the authority process an
abort event published since, and the bridge a command published since then.  Every frame that the
bridge dispatches enabled later is authorized under a generation that the authority has created by
accepting an arm request, before which the operator has cleared the abort and a clear event has
then arrived at the authority. -/
theorem abort_reaches_thrusters {b : BridgeTransition} {k : ℕ} {message : ThrusterCommand}
    (h : (stopChainMachine timeoutS acfg bcfg initialSession).Run (x :: tr) s)
    (hx : lower? x = some w) (hb : bridge? w = some b) (henabled : dispatchesEnabled b = true)
    (htr : tr = after ++ d :: (mid ++ t :: before))
    (ht : upper? t = some t₁) (hoperator : operatorAbort t₁ = true)
    (hd : upper? d = some d₁) (hdelivery : LossyLink.delivery? d₁ = some (n, event))
    (habort : event.abortActive = true) (hn : t₁.pre.sent.length ≤ n)
    (hp : p ∈ tr) (hpd : LossyLink.delivery? p = some (k, message)) (hk : d.pre.sent.length ≤ k) :
    ∃ newer c older, after = newer ++ c :: older ∧
      (lower? c).any (createsGeneration · b.pre.command.authorizedGeneration) = true ∧
      Cleared (older.filterMap upper?) ((d :: mid).filterMap upper?) := by
  subst htr
  have hupper : (guardedMachine timeoutS acfg).Run _ s.producer := producer_run h
  have hlower : (systemMachine acfg bcfg initialSession).Run _ (second s) := chain_run rfl h
  change (guardedMachine timeoutS acfg).Run ((x :: _).filterMap upper?) _ at hupper
  change (systemMachine acfg bcfg initialSession).Run ((x :: _).filterMap lower?) _ at hlower
  rw [List.filterMap_cons_some hx] at hlower
  -- the abort event as the authority sees it
  have hdRun : (guardedMachine timeoutS acfg).Run
      (d₁ :: (mid ++ t :: before).filterMap upper?) d.post.producer := by
    rw [← List.filterMap_cons_some (f := upper?) hd]
    exact producer_run h.tail.split
  obtain ⟨stampNs, ad, had, hinput⟩ := received_of_delivery hdRun hdelivery
  obtain ⟨d₂, hd₂, hda, hdpre⟩ := lower?_of_upper? hd had
  have hstops : stops ad = true := by
    rw [stops, aborts, hinput]
    simp [SafetyEvent.received, habort]
  -- the command as the bridge sees it
  obtain ⟨newest, oldest, hsplit⟩ := List.append_of_mem hp
  have hprun := h.tail
  rw [hsplit] at hprun
  obtain ⟨p₂, hp₂, hp₂d⟩ := lower?_of_delivery hprun.split hpd
  rw [List.filterMap_append, List.filterMap_cons_some (f := lower?) hd₂] at hlower
  have hmem : p₂ ∈ after.filterMap lower? ++ d₂ :: (mid ++ t :: before).filterMap lower? := by
    rw [← List.filterMap_cons_some (f := lower?) hd₂, ← List.filterMap_append]
    exact List.mem_filterMap.mpr ⟨p, hp, hp₂⟩
  obtain ⟨newer, y, mid', c₂, older, -, -, -, -, -, heq, hcreates, -⟩ :=
    rearmed_of_stop hlower hb henabled hda hstops hmem hp₂d (by rw [hdpre]; exact hk)
  obtain ⟨newer', c, older', rfl, hc, -, -⟩ := List.filterMap_eq_append_cons heq
  refine ⟨newer', c, older', rfl, by rw [hc]; exact hcreates, ?_⟩
  -- the arm as the monitor and the authority see it
  obtain ⟨ac, hac, harms⟩ := (Option.any_eq_true _ _).mp hcreates
  rw [Bool.and_eq_true, Bool.and_eq_true] at harms
  obtain ⟨c₁, hc₁, hguarded⟩ := upper?_of_lower? hc hac
  have hcRun := h.tail
  rw [List.append_assoc, List.cons_append] at hcRun
  have hcUpper : (guardedMachine timeoutS acfg).Run
      ((c :: (older' ++ d :: (mid ++ t :: before))).filterMap upper?) c.post.producer :=
    producer_run hcRun.split
  rw [List.filterMap_cons_some hc₁, List.filterMap_append, List.filterMap_cons_some hd,
    List.filterMap_append, List.filterMap_cons_some ht] at hcUpper
  rw [List.filterMap_cons_some hd]
  exact cleared_of_arms hcUpper hguarded harms.1.1 hoperator hdelivery habort hn

end StopChain

/-! ### An abort and the way back -/

section Abort

open Ieee

local instance monitorScalar : Scalar Binary64 := scalar restingLibrary

def healthyBoard : BoardHealth := ⟨true, true, false⟩

def operatorRequest (abort : Bool) : GuardedInput Binary64 :=
  .produce (.triggerAbort ⟨abort, ""⟩ 0)

/-- The operator aborts and the event arrives. -/
def abortInputs : List (GuardedInput Binary64) :=
  [.produce (.boardStatus healthyBoard 0), operatorRequest true, .deliver 0 0]

/-- The operator clears the abort, the event arrives and the authority arms again. -/
def clearInputs : List (GuardedInput Binary64) :=
  [operatorRequest false, .deliver 1 0, .consume (.manualCommand webOperatorCommand 0 0),
    .consume (.setAuthority { arm := true } 0),
    .consume (.manualCommand webOperatorCommand 0 0)]

/-- An enabled command is published. -/
def publishesEnabled (x : GuardedTransition Binary64) : Bool :=
  (guarded? x).any fun a => (publishedCommand? a).any (·.enable)

theorem enabled_of_healthy_clearInputs :
    ∃ x tr s stampNs, (guardedMachine (double (1 / 2)) {}).Run (x :: tr) s ∧
      publishesEnabled x = true ∧ ∃ later c earlier, x :: tr = later ++ c :: earlier ∧
        HealthyEvent (double (1 / 2)) (c :: earlier) stampNs := by
  obtain ⟨x, tr, s, hrun, hcheck⟩ := run_of_execCheck (guardedMachine (double (1 / 2)) {})
    (abortInputs ++ clearInputs) (fun x _ => publishesEnabled x) (by decide +kernel)
  obtain ⟨a, ha, henabled⟩ := (Option.any_eq_true _ _).mp hcheck
  obtain ⟨command, hcommand, henable⟩ := (Option.any_eq_true _ _).mp henabled
  obtain ⟨later, c, earlier, -, -, -, stampNs, heq, -, -, -, -, hevent⟩ :=
    enabled_of_healthy hrun ha hcommand henable
  exact ⟨x, tr, s, stampNs, hrun, hcheck, later, c, earlier, heq, hevent⟩

/-- An abort event arrives that was published since a transition. -/
def abortArrives (t d : GuardedTransition Binary64) : Bool :=
  (LossyLink.delivery? d).any fun (n, event) => event.abortActive && decide (t.pre.sent.length ≤ n)

/-- A list with two places of it taken out. -/
theorem split_two {β : Type*} {l : List β} {i : ℕ} {b c : β} (hb : l[i]? = some b)
    (hc : l[i + 1]? = some c) : l = l.take i ++ b :: ([] ++ c :: l.drop (i + 2)) := by
  obtain ⟨hlt, rfl⟩ := List.getElem?_eq_some_iff.mp hb
  obtain ⟨hlt', rfl⟩ := List.getElem?_eq_some_iff.mp hc
  rw [List.nil_append, ← List.drop_eq_getElem_cons, ← List.drop_eq_getElem_cons,
    List.take_append_drop]

theorem abort_until_cleared_clearInputs :
    ∃ x after d before s, (guardedMachine (double (1 / 2)) {}).Run (x :: (after ++ d :: before)) s ∧
      publishesEnabled x = true ∧ ∃ newer c older, after = newer ++ c :: older ∧
        armsGuarded c = true ∧ Cleared older [d] := by
  obtain ⟨x, tr, s, hrun, hcheck⟩ := run_of_execCheck (guardedMachine (double (1 / 2)) {})
    (abortInputs ++ clearInputs)
    (fun x tr => publishesEnabled x && tr[4]?.any fun d => tr[5]?.any fun t =>
      operatorAbort t && abortArrives t d) (by decide +kernel)
  rw [Bool.and_eq_true, Option.any_eq_true] at hcheck
  obtain ⟨hpublishes, d, hd, hcheck⟩ := hcheck
  obtain ⟨t, ht, hcheck⟩ := (Option.any_eq_true _ _).mp hcheck
  obtain ⟨hoperator, harrives⟩ := (Bool.and_eq_true _ _).mp hcheck
  obtain ⟨⟨n, event⟩, hdelivery, hevent⟩ := (Option.any_eq_true _ _).mp harrives
  rw [Bool.and_eq_true, decide_eq_true_eq] at hevent
  obtain ⟨a, ha, henabled⟩ := (Option.any_eq_true _ _).mp hpublishes
  obtain ⟨command, hcommand, henable⟩ := (Option.any_eq_true _ _).mp henabled
  rw [split_two hd ht] at hrun
  exact ⟨x, _, d, _, s, hrun, hpublishes, abort_until_cleared hrun ha hcommand henable hoperator
    hdelivery hevent.1 hevent.2⟩

/-- The bridge gets a command published after the abort, and an armed one after the way back. -/
def stopChainInputs : List (StopChainInput Binary64) :=
  handshakeInputs.map .consume ++ [.consume (.publishStatus (some [authorityEndpoint]) 1)] ++
    abortInputs.map .produce ++
    [.produce (.consume (.setAuthority { arm := false } 0)), .deliver 0 ⟨1, 1000000000⟩] ++
    clearInputs.map .produce ++ [.deliver 1 ⟨1, 1000000000⟩] ++
    [.writeCommand 1 1000000000 5, .enqueueLatestWrite, .drainLatestWrite, nextIo,
      .writeCompleted false, nextIo].map .consume

theorem abort_reaches_thrusters_stopChainInputs :
    ∃ x w b after d before s,
      (stopChainMachine (double (1 / 2)) {} {} 1).Run (x :: (after ++ d :: before)) s ∧
      lower? x = some w ∧ bridge? w = some b ∧ dispatchesEnabled b = true ∧
      ∃ newer c older, after = newer ++ c :: older ∧
        (lower? c).any (createsGeneration · b.pre.command.authorizedGeneration) = true ∧
        Cleared (older.filterMap upper?) ([d].filterMap upper?) := by
  obtain ⟨x, tr, s, hrun, hcheck⟩ := run_of_execCheck
    (stopChainMachine (double (1 / 2)) {} {} 1) stopChainInputs
    (fun x tr => ((lower? x).any fun w => (bridge? w).any dispatchesEnabled) &&
      tr[13]?.any fun d => tr[14]?.any fun t =>
        ((upper? d).any fun d₁ =>
          (upper? t).any fun t₁ => operatorAbort t₁ && abortArrives t₁ d₁) &&
          tr[11]?.any fun p =>
            (LossyLink.delivery? p).any fun sent => decide (d.pre.sent.length ≤ sent.1))
    (by decide +kernel)
  rw [Bool.and_eq_true, Option.any_eq_true, Option.any_eq_true] at hcheck
  obtain ⟨⟨w, hw, hbridge⟩, d, hd, hcheck⟩ := hcheck
  obtain ⟨b, hb, henabled⟩ := (Option.any_eq_true _ _).mp hbridge
  obtain ⟨t, ht, hcheck⟩ := (Option.any_eq_true _ _).mp hcheck
  obtain ⟨habort, hbridge⟩ := (Bool.and_eq_true _ _).mp hcheck
  obtain ⟨d₁, hd₁, habort⟩ := (Option.any_eq_true _ _).mp habort
  obtain ⟨t₁, ht₁, habort⟩ := (Option.any_eq_true _ _).mp habort
  obtain ⟨hoperator, harrives⟩ := (Bool.and_eq_true _ _).mp habort
  obtain ⟨⟨n, event⟩, hdelivery, hevent⟩ := (Option.any_eq_true _ _).mp harrives
  rw [Bool.and_eq_true, decide_eq_true_eq] at hevent
  obtain ⟨p, hp, hbridge⟩ := (Option.any_eq_true _ _).mp hbridge
  obtain ⟨⟨k, message⟩, hpd, hk⟩ := (Option.any_eq_true _ _).mp hbridge
  have hsplit := split_two hd ht
  have hreaches := abort_reaches_thrusters hrun hw hb henabled hsplit ht₁ hoperator hd₁ hdelivery
    hevent.1 hevent.2 (List.mem_of_getElem? hp) hpd (of_decide_eq_true hk)
  rw [hsplit] at hrun
  exact ⟨x, w, b, _, d, _, s, hrun, hw, hb, henabled, hreaches⟩

end Abort

end RobotCore
