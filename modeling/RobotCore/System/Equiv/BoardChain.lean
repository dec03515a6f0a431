import RobotCore.Bridge.Equiv.Report
import RobotCore.System.Equiv.SafetyChain

/-!
# From the board to an enabled command

`enabled_of_board`: an enabled command of the authority goes back to an evaluation over an event
that has arrived in time, the event to a status that was the last at the monitor and recent when the
event was published, and the status to a snapshot of a healthy bridge.  Whatever the two links lose.
-/

namespace RobotCore

open Machine Scalar LossyLink

variable {α : Type} [Scalar α] {bcfg : BridgeConfig} {initialSession : UInt32} {timeoutS : α}
  {acfg : AuthorityConfig} {s : BoardChain α} {x : BoardChainTransition α}
  {tr : BoardChainHistory α} {w : GuardedTransition α} {a : AuthorityTransition}

/-! ### Both links -/

theorem supervised_run (h : (boardChainMachine bcfg initialSession timeoutS acfg).Run tr s) :
    (boardLink bcfg initialSession timeoutS).machine.Run (tr.filterMap supervised?) s.producer :=
  producer_run h

theorem commanded_run (h : (boardChainMachine bcfg initialSession timeoutS acfg).Run tr s) :
    (guardedMachine timeoutS acfg).Run (tr.filterMap commanded?) (second s) := chain_run rfl h

omit [Scalar α] in
/-- Both links see the same monitor. -/
theorem monitor_filterMap (tr : BoardChainHistory α) :
    (tr.filterMap commanded?).filterMap monitor? =
      (tr.filterMap supervised?).filterMap (consumer? statusArrival) := by
  rw [List.filterMap_filterMap, List.filterMap_filterMap]
  congr 1
  exact funext fun x => producer?_second? statusArrival

/-! ### The monitor's side -/

/-- The status of the bridge that arrives in a transition. -/
def statusReceived (y : SupervisedTransition α) : Option (BoardHealth × ℤ) :=
  (consumer? statusArrival y).bind boardReceived

/-- The bridge has published the status at place `k` of the topic, in the callback that has taken a
snapshot of a healthy bridge. -/
def ReportedHealthy (bcfg : BridgeConfig) (ktr : History (Supervised α) (SupervisedInput α)
    SupervisedOutput) (k : ℕ) (status : BoardStatusMessage) : Prop :=
  ∃ newer p older r newest z oldest steadyNs, ktr = newer ++ p :: older ∧
    p.pre.sent.length = k ∧ reporting? p = some r ∧ r.output.status = some status ∧
    older.filterMap reporting? = newest ++ z :: oldest ∧ z.input = .snapshotState steadyNs ∧
    (∀ t ∈ newest, beginsCallback t = false) ∧
    BridgeHealthy bcfg (oldest.filterMap reported?) z.pre.bridge steadyNs

/-- The last status that has arrived did so at `stampNs`, after a healthy bridge had published
it. -/
def HealthyStatus (bcfg : BridgeConfig) (ktr : History (Supervised α) (SupervisedInput α)
    SupervisedOutput) (stampNs : ℤ) : Prop :=
  ∃ newer y older k status, ktr = newer ++ y :: older ∧
    (∀ z ∈ newer, statusReceived z = none) ∧
    statusReceived y = some (status.health, stampNs) ∧
    LossyLink.delivery? y = some (k, status) ∧ ReportedHealthy bcfg older k status

variable {κ : Supervised α} {y : SupervisedTransition α}
  {ktr : History (Supervised α) (SupervisedInput α) SupervisedOutput} {message : BoardHealth}
  {stampNs : ℤ} {k : ℕ} {status : BoardStatusMessage}

/-- A status that arrives is delivered. -/
theorem delivery_of_statusReceived
    (h : (boardLink bcfg initialSession timeoutS).machine.Run (y :: ktr) κ)
    (hy : statusReceived y = some (message, stampNs)) :
    ∃ k status, LossyLink.delivery? y = some (k, status) ∧ status.health = message := by
  obtain ⟨b, hb, hreceived⟩ := Option.bind_eq_some_iff.mp hy
  unfold boardReceived at hreceived
  split at hreceived
  · rename_i message' stampNs' hinput
    obtain ⟨rfl, rfl⟩ := Prod.mk.inj (Option.some.inj hreceived)
    obtain ⟨k, status, nowNs, hdelivery, harrival⟩ :=
      delivery_of_consumer? (rule_of_run h) hb (by rw [hinput]; rfl)
    rw [hinput] at harrival
    obtain ⟨rfl, -⟩ := SafetyInput.boardStatus.inj harrival
    exact ⟨k, status, hdelivery, rfl⟩
  · cases hreceived

/-- A healthy status that is delivered was published by a healthy bridge. -/
theorem reportedHealthy_of_delivery
    (h : (boardLink bcfg initialSession timeoutS).machine.Run (y :: ktr) κ)
    (hy : LossyLink.delivery? y = some (k, status)) (hhealthy : status.healthy = true) :
    ReportedHealthy bcfg ktr k status := by
  obtain ⟨hsent, -⟩ := delivery_spec (rule_of_run h) hy
  have hbefore := h.tail
  obtain ⟨newer, p, older, r, rfl, hplace, hp, hstatus⟩ := published_after
    ((List.append_nil ktr).symm ▸ hbefore) .start (Nat.zero_le k) hsent
  have hrun := producer_run hbefore.split
  rw [List.filterMap_cons_some hp] at hrun
  obtain ⟨newest, z, oldest, steadyNs, heq, hz, hnewest, hbridge⟩ :=
    healthy_of_report hrun hstatus hhealthy
  exact ⟨newer, p, older, r, newest, z, oldest, steadyNs, rfl, hplace, hp, hstatus, heq, hz,
    hnewest, hbridge⟩

/-- A healthy status that the monitor has received last goes back to a healthy bridge. -/
theorem healthyStatus_of_received
    (h : (boardLink bcfg initialSession timeoutS).machine.Run ktr κ)
    (hreceived : (ktr.filterMap (consumer? statusArrival)).findSome? boardReceived
      = some (message, stampNs))
    (hconnected : message.connected = true) (hheartbeat : message.heartbeatOk = true)
    (hfailsafe : message.failsafeActive = false) : HealthyStatus bcfg ktr stampNs := by
  rw [List.findSome?_filterMap] at hreceived
  obtain ⟨newer, y, older, rfl, hy, hnewer⟩ := List.findSome?_eq_some_iff.mp hreceived
  obtain ⟨k, status, hdelivery, rfl⟩ := delivery_of_statusReceived h.split hy
  have hhealthy : status.healthy = true := by
    rw [BoardStatusMessage.healthy, Bool.and_eq_true, Bool.and_eq_true, Bool.not_eq_true']
    exact ⟨⟨hconnected, hheartbeat⟩, hfailsafe⟩
  exact ⟨newer, y, older, k, status, rfl, hnewer, hy, hdelivery,
    reportedHealthy_of_delivery h.split hdelivery hhealthy⟩

/-! ### The three nodes -/

/-- The monitor has published the event at place `n` of the topic, over a last status that was
recent and that a healthy bridge had published, and the operator had not aborted since the last
request to clear. -/
def PublishedOverBoard (bcfg : BridgeConfig) (timeoutS : α) (tr : BoardChainHistory α) (n : ℕ)
    (event : SafetyEvent) : Prop :=
  ∃ newer p older m nowNs stampNs, tr = newer ++ p :: older ∧ p.pre.sent.length = n ∧
    (commanded? p).bind monitor? = some m ∧ m.output.event = some event ∧
    checkedAt m = some nowNs ∧
    operatorAborts (((p :: older).filterMap commanded?).filterMap monitor?) = false ∧
    statusStale (timeoutOf timeoutS (((p :: older).filterMap commanded?).filterMap monitor?))
      stampNs nowNs = false ∧
    HealthyStatus bcfg ((p :: older).filterMap supervised?) stampNs

/-- The last event that has arrived did so at `eventNs`, after the monitor had published it over a
healthy board. -/
def BoardEvent (bcfg : BridgeConfig) (timeoutS : α) (tr : BoardChainHistory α) (eventNs : ℤ) :
    Prop :=
  ∃ newer y older n event, tr = newer ++ y :: older ∧
    (∀ z ∈ newer, (commanded? z).bind eventReceived = none) ∧
    (commanded? y).bind eventReceived = some (event.received, eventNs) ∧
    LossyLink.delivery? y = some (n, event) ∧ PublishedOverBoard bcfg timeoutS older n event

/-- An event of a healthy monitor was published over a healthy bridge. -/
theorem publishedOverBoard_of_healthy {n : ℕ} {event : SafetyEvent}
    (h : (boardChainMachine bcfg initialSession timeoutS acfg).Run tr s)
    (hpublished : PublishedHealthy timeoutS (tr.filterMap commanded?) n event) :
    PublishedOverBoard bcfg timeoutS tr n event := by
  obtain ⟨_, w, _, m, nowNs, heq, hplace, hw, hevent, hchecked, hhealthy, hoperator⟩ := hpublished
  obtain ⟨newer, p, older, rfl, hp, -, rfl⟩ := List.filterMap_eq_append_cons heq
  rw [← List.filterMap_cons_some (f := commanded?) hp] at hhealthy hoperator
  obtain ⟨message, stampNs, hreceived, hrecent, hconnected, hheartbeat, hfailsafe⟩ := hhealthy
  rw [monitor_filterMap] at hreceived
  refine ⟨newer, p, older, m, nowNs, stampNs, rfl, ?_, ?_, hevent, hchecked, hoperator, hrecent,
    healthyStatus_of_received (supervised_run h.split) hreceived hconnected hheartbeat hfailsafe⟩
  · rw [← hplace, pre_of_second? hp]
    rfl
  · rw [hp]
    exact hw

/-- The last event of a healthy monitor in the whole run. -/
theorem boardEvent_of_healthy {eventNs : ℤ}
    (h : (boardChainMachine bcfg initialSession timeoutS acfg).Run tr s)
    (hevent : HealthyEvent timeoutS (tr.filterMap commanded?) eventNs) :
    BoardEvent bcfg timeoutS tr eventNs := by
  obtain ⟨_, w, _, n, event, heq, hnewer, hw, hdelivery, hpublished⟩ := hevent
  obtain ⟨newer, y, older, rfl, hy, rfl, rfl⟩ := List.filterMap_eq_append_cons heq
  refine ⟨newer, y, older, n, event, rfl, fun z hz => ?_, ?_, ?_,
    publishedOverBoard_of_healthy h.split.tail hpublished⟩
  · cases hseen : commanded? z with
    | none => rfl
    | some v => exact hnewer v (List.mem_filterMap.mpr ⟨z, hz, hseen⟩)
  · rw [hy]
    exact hw
  · exact (delivery?_of_second? hy).trans hdelivery

/-! ### Main result -/

/-- **From the board to an enabled command.**  A command that the authority publishes enabled goes
back to an evaluation since which the output has been enabled.  The last event before it has arrived
in time; the monitor had published it over a last status that was recent; and a healthy bridge had
published that. -/
theorem enabled_of_board (h : (boardChainMachine bcfg initialSession timeoutS acfg).Run (x :: tr) s)
    (hx : commanded? x = some w) (ha : guarded? w = some a) {command : ThrusterCommand}
    (hcommand : publishedCommand? a = some command) (henable : command.enable = true) :
    ∃ later c earlier e s₁ evaluatedNs eventNs, x :: tr = later ++ c :: earlier ∧
      (commanded? c).bind guarded? = some e ∧
      evaluatedState e.pre e.input = some (s₁, evaluatedNs) ∧
      (∀ b ∈ (later.filterMap commanded?).filterMap guarded?,
        b.post.outputEnabled = true ∧ stops b = false) ∧
      stale acfg.safetyHeartbeatTimeoutS eventNs evaluatedNs = false ∧
      BoardEvent bcfg timeoutS (c :: earlier) eventNs := by
  have hcommanded := commanded_run h
  rw [List.filterMap_cons_some hx] at hcommanded
  obtain ⟨_, v, _, e, s₁, evaluatedNs, eventNs, heq, he, hstate, hlater, hstale, hevent⟩ :=
    enabled_of_healthy hcommanded ha hcommand henable
  -- the evaluation in the whole run
  rw [← List.filterMap_cons_some (f := commanded?) hx] at heq
  obtain ⟨later, c, earlier, htr, hc, rfl, rfl⟩ := List.filterMap_eq_append_cons heq
  rw [← List.filterMap_cons_some (f := commanded?) hc] at hevent
  rw [htr] at h
  refine ⟨later, c, earlier, e, s₁, evaluatedNs, eventNs, htr, ?_, hstate, hlater, hstale,
    boardEvent_of_healthy h.split hevent⟩
  rw [hc]
  exact he

section Enabled

open Ieee

attribute [local instance] monitorScalar

/-- The monitor receives a status of the bridge and publishes an event, and the authority receives
that and arms. -/
def enableInputs : List (BoardChainInput Binary64) :=
  reportInputs.map (fun input => .produce (.produce input)) ++
  [.produce (.deliver 0 0), .produce (.consume (.tick 0)), .deliver 0 0,
    .consume (.manualCommand webOperatorCommand 0 0), .consume (.setAuthority { arm := true } 0),
    .consume (.manualCommand webOperatorCommand 0 0)]

theorem enabled_of_board_enableInputs :
    ∃ x tr s eventNs, (boardChainMachine {} 1 (double (1 / 2)) {}).Run (x :: tr) s ∧
      (commanded? x).any publishesEnabled = true ∧
      ∃ later c earlier, x :: tr = later ++ c :: earlier ∧
        BoardEvent {} (double (1 / 2)) (c :: earlier) eventNs := by
  obtain ⟨x, tr, s, hrun, hcheck⟩ := run_of_execCheck
    (boardChainMachine {} 1 (double (1 / 2)) {}) enableInputs
    (fun x _ => (commanded? x).any publishesEnabled) (by decide +kernel)
  obtain ⟨w, hw, henabled⟩ := (Option.any_eq_true _ _).mp hcheck
  obtain ⟨a, ha, henabled⟩ := (Option.any_eq_true _ _).mp henabled
  obtain ⟨command, hcommand, henable⟩ := (Option.any_eq_true _ _).mp henabled
  obtain ⟨later, c, earlier, -, -, -, eventNs, heq, -, -, -, -, hevent⟩ :=
    enabled_of_board hrun hw ha hcommand henable
  exact ⟨x, tr, s, eventNs, hrun, hcheck, later, c, earlier, heq, hevent⟩

end Enabled

end RobotCore
