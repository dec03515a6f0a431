import RobotCore.Lib.Scalar.Ieee
import RobotCore.Runtime.SafetyMonitor

/-!
# What a safety event says

`event_of_run`: in every run an event is clear exactly when the last status of the board is recent
and healthy and the last request of the operator was not an abort, and its level, code and message
name what is wrong: the first of the faults of the board, or else the abort of the operator with its
reason.
-/

namespace RobotCore

open Scalar Machine

variable {α : Type} [Scalar α]

/-! ### Received inputs -/

/-- A status of the board with the time of its arrival. -/
def boardReceived (x : SafetyTransition α) : Option (BoardHealth × ℤ) :=
  match x.input with
  | .boardStatus message nowNs => some (message, nowNs)
  | _ => none

def abortRequested (x : SafetyTransition α) : Option TriggerAbortRequest :=
  match x.input with
  | .triggerAbort request _ => some request
  | _ => none

def timeoutSet (x : SafetyTransition α) : Option α :=
  match x.input with
  | .setTimeout boardStatusTimeoutS => some boardStatusTimeoutS
  | _ => none

/-- The time at which a transition looks at the board. -/
def checkedAt (x : SafetyTransition α) : Option ℤ :=
  match x.input with
  | .triggerAbort _ nowNs => some nowNs
  | .tick nowNs => some nowNs
  | _ => none

/-- The last request of the operator is an abort. -/
def operatorAborts (tr : SafetyHistory α) : Bool := (tr.findSome? abortRequested).any (·.abort)

/-- A status that has arrived at `stampNs` is older than the timeout. -/
def statusStale (timeoutS : α) (stampNs nowNs : ℤ) : Bool :=
  lt (pyMax (ofRat 0) timeoutS) (boardAgeS nowNs stampNs)

/-- The last status of the board is recent and healthy. -/
def BoardHealthy (timeoutS : α) (tr : SafetyHistory α) (nowNs : ℤ) : Prop :=
  ∃ message stampNs, tr.findSome? boardReceived = some (message, stampNs) ∧
    statusStale timeoutS stampNs nowNs = false ∧
    message.connected = true ∧ message.heartbeatOk = true ∧ message.failsafeActive = false

/-- The timeout in force. -/
def timeoutOf (timeoutS : α) (tr : SafetyHistory α) : α :=
  (tr.findSome? timeoutSet).getD timeoutS

/-- The members are those of the inputs last received. -/
structure Monitors (timeoutS : α) (tr : SafetyHistory α) (node : SafetyMonitor α) : Prop where
  timeout : node.boardStatusTimeoutS = timeoutOf timeoutS tr
  stamp : node.boardStatusNs = (tr.findSome? boardReceived).map (·.2)
  board : ∀ message stampNs, tr.findSome? boardReceived = some (message, stampNs) →
    node.boardConnected = message.connected ∧ node.boardHeartbeatOk = message.heartbeatOk ∧
      node.boardFailsafeActive = message.failsafeActive
  operator : node.operatorAbortActive = operatorAborts tr
  reason : ∀ request, tr.findSome? abortRequested = some request → request.abort = true →
    node.operatorAbortReason = orOperatorRequest request.reason

variable {timeoutS : α} {tr : SafetyHistory α} {node node' : SafetyMonitor α}
  {x : SafetyTransition α} {nowNs : ℤ}

/-- The check writes the abort state only. -/
theorem updateAbortState_eq (node : SafetyMonitor α) (nowNs : ℤ) :
    (updateAbortState node nowNs).1 =
      { node with
        abortActive := (boardFailure node nowNs).isSome || node.operatorAbortActive } := by
  unfold updateAbortState
  cases boardFailure node nowNs with
  | some failure => rfl
  | none => cases node.operatorAbortActive <;> rfl

omit [Scalar α] in
/-- A transition that receives no input that is held. -/
theorem Monitors.keep (h : Monitors timeoutS tr x.pre) (htimeout : timeoutSet x = none)
    (hboard : boardReceived x = none) (hoperator : abortRequested x = none)
    (hpost : ∃ abortActive, x.post = { x.pre with abortActive }) :
    Monitors timeoutS (x :: tr) x.post := by
  obtain ⟨abortActive, hpost⟩ := hpost
  rw [hpost]
  refine ⟨?_, ?_, ?_, ?_, ?_⟩
  · rw [timeoutOf, List.findSome?_cons, htimeout]
    exact h.timeout
  · rw [List.findSome?_cons, hboard]
    exact h.stamp
  · rw [List.findSome?_cons, hboard]
    exact h.board
  · rw [operatorAborts, List.findSome?_cons, hoperator]
    exact h.operator
  · rw [List.findSome?_cons, hoperator]
    exact h.reason

theorem monitors_callback (h : Monitors timeoutS tr node) (input : SafetyInput α) :
    let post := safetyCallback node input
    Monitors timeoutS (⟨node, input, post.2, post.1⟩ :: tr) post.1 := by
  cases input with
  | boardStatus message nowNs =>
    exact
      { timeout := h.timeout
        stamp := rfl
        board := by
          intro received stampNs hreceived
          obtain ⟨rfl, -⟩ := Prod.mk.inj (Option.some.inj hreceived)
          exact ⟨rfl, rfl, rfl⟩
        operator := h.operator
        reason := h.reason }
  | setTimeout boardStatusTimeoutS =>
    exact
      { timeout := rfl
        stamp := h.stamp
        board := h.board
        operator := h.operator
        reason := h.reason }
  | tick nowNs =>
    exact h.keep rfl rfl rfl ⟨_, updateAbortState_eq node nowNs⟩
  | triggerAbort request nowNs =>
    have hpost : (safetyCallback node (.triggerAbort request nowNs)).1 = _ :=
      updateAbortState_eq (requestAbort node request) nowNs
    dsimp only
    rw [hpost]
    exact
      { timeout := h.timeout
        stamp := h.stamp
        board := h.board
        operator := rfl
        reason := by
          intro last hlast habort
          obtain rfl := Option.some.inj hlast
          exact if_pos habort }

theorem monitors_of_run (h : (safetyMachine timeoutS).Run tr node) :
    Monitors timeoutS tr node := by
  induction h with
  | start => exact ⟨rfl, rfl, nofun, rfl, nofun⟩
  | step _ hstep ih =>
    obtain ⟨rfl, rfl⟩ := Prod.mk.inj (Option.some.inj hstep)
    exact monitors_callback ih _

/-! ### Events -/

/-- The failure of a board whose last status is known. -/
theorem boardFailure_of_received (h : Monitors timeoutS tr node) {message : BoardHealth}
    {stampNs : ℤ} (hlast : tr.findSome? boardReceived = some (message, stampNs)) :
    boardFailure node nowNs =
      if statusStale (timeoutOf timeoutS tr) stampNs nowNs then
        some ⟨"BOARD_STATUS_STALE", "low-level board status is stale"⟩
      else if !message.connected then
        some ⟨"BOARD_DISCONNECTED", "low-level board is disconnected"⟩
      else if !message.heartbeatOk then
        some ⟨"BOARD_HEARTBEAT_LOST", "low-level board heartbeat is not healthy"⟩
      else if message.failsafeActive then
        some ⟨"BOARD_FAILSAFE_ACTIVE", "low-level board failsafe is active"⟩
      else none := by
  obtain ⟨hconnected, hheartbeat, hfailsafe⟩ := h.board message stampNs hlast
  unfold boardFailure SafetyMonitor.boardStale statusStale
  rw [h.stamp, hlast, h.timeout, hconnected, hheartbeat, hfailsafe]
  rfl

theorem boardFailure_eq_none_iff (h : Monitors timeoutS tr node) :
    boardFailure node nowNs = none ↔ BoardHealthy (timeoutOf timeoutS tr) tr nowNs := by
  unfold BoardHealthy
  cases hlast : tr.findSome? boardReceived with
  | none =>
    rw [boardFailure, h.stamp, hlast]
    simp
  | some last =>
    obtain ⟨message, stampNs⟩ := last
    rw [boardFailure_of_received h hlast]
    constructor
    · intro hnone
      split_ifs at hnone with hstale hconnected hheartbeat hfailsafe
      exact ⟨message, stampNs, rfl, by simpa using hstale, by simpa using hconnected,
        by simpa using hheartbeat, by simpa using hfailsafe⟩
    · rintro ⟨message', stampNs', heq, hstale, hconnected, hheartbeat, hfailsafe⟩
      obtain ⟨rfl, rfl⟩ := Prod.mk.inj (Option.some.inj heq)
      simp [hstale, hconnected, hheartbeat, hfailsafe]

theorem orOperatorRequest_idem (value : String) :
    orOperatorRequest (orOperatorRequest value) = orOperatorRequest value := by
  unfold orOperatorRequest
  split_ifs with hempty hempty' <;> rfl

/-- The event of a tick, or of the answer to a request. -/
def checkedEvent (answers : Bool) (node : SafetyMonitor α) (nowNs : ℤ) : SafetyEvent :=
  let (node, code) := updateAbortState node nowNs
  safetyEvent node (if answers then answerCode node code else code)

/-- The level and the texts of an event. -/
def SafetyEvent.Says (event : SafetyEvent) (level : UInt8) (code message : String) : Prop :=
  event.level = level ∧ event.code = code ∧ event.message = message

theorem says_of_failure (answers : Bool) {failure : SafetyCode}
    (h : boardFailure node nowNs = some failure) :
    (checkedEvent answers node nowNs).Says levelAbort failure.code failure.message := by
  unfold checkedEvent updateAbortState
  rw [h]
  cases answers <;> exact ⟨rfl, rfl, rfl⟩

theorem says_of_abort (answers : Bool) (h : boardFailure node nowNs = none)
    (habort : node.operatorAbortActive = true) :
    (checkedEvent answers node nowNs).Says levelAbort "ABORT_ACTIVE"
      (orOperatorRequest node.operatorAbortReason) := by
  unfold checkedEvent updateAbortState
  rw [h, habort]
  cases answers <;> exact ⟨rfl, rfl, rfl⟩

theorem says_of_clear (answers : Bool) (h : boardFailure node nowNs = none)
    (habort : node.operatorAbortActive = false) :
    (checkedEvent answers node nowNs).Says levelInfo
      (if answers then "ABORT_CLEARED" else "ABORT_CLEAR")
      (if answers then "Abort state cleared" else "Safety monitor healthy") := by
  unfold checkedEvent updateAbortState
  rw [h, habort]
  cases answers <;> exact ⟨rfl, rfl, rfl⟩

/-- The last transition answers a request of the operator. -/
def answersRequest (tr : SafetyHistory α) : Bool := (tr.head?.bind abortRequested).isSome

/-- What an event says of the history of the monitor.  The faults are named in the order in which
they are looked for. -/
structure EventOk (timeoutS : α) (tr : SafetyHistory α) (event : SafetyEvent) (nowNs : ℤ) :
    Prop where
  source : event.source = "safety_monitor"
  clear : event.abortActive = false ↔
    BoardHealthy (timeoutOf timeoutS tr) tr nowNs ∧ operatorAborts tr = false
  missing : tr.findSome? boardReceived = none →
    event.Says levelAbort "BOARD_STATUS_MISSING" "low-level board status is missing"
  stale : ∀ message stampNs, tr.findSome? boardReceived = some (message, stampNs) →
    statusStale (timeoutOf timeoutS tr) stampNs nowNs = true →
    event.Says levelAbort "BOARD_STATUS_STALE" "low-level board status is stale"
  disconnected : ∀ message stampNs, tr.findSome? boardReceived = some (message, stampNs) →
    statusStale (timeoutOf timeoutS tr) stampNs nowNs = false → message.connected = false →
    event.Says levelAbort "BOARD_DISCONNECTED" "low-level board is disconnected"
  heartbeat : ∀ message stampNs, tr.findSome? boardReceived = some (message, stampNs) →
    statusStale (timeoutOf timeoutS tr) stampNs nowNs = false → message.connected = true →
    message.heartbeatOk = false →
    event.Says levelAbort "BOARD_HEARTBEAT_LOST" "low-level board heartbeat is not healthy"
  failsafe : ∀ message stampNs, tr.findSome? boardReceived = some (message, stampNs) →
    statusStale (timeoutOf timeoutS tr) stampNs nowNs = false → message.connected = true →
    message.heartbeatOk = true → message.failsafeActive = true →
    event.Says levelAbort "BOARD_FAILSAFE_ACTIVE" "low-level board failsafe is active"
  aborted : ∀ request, BoardHealthy (timeoutOf timeoutS tr) tr nowNs →
    tr.findSome? abortRequested = some request → request.abort = true →
    event.Says levelAbort "ABORT_ACTIVE" (orOperatorRequest request.reason)
  healthy : BoardHealthy (timeoutOf timeoutS tr) tr nowNs → operatorAborts tr = false →
    event.Says levelInfo (if answersRequest tr then "ABORT_CLEARED" else "ABORT_CLEAR")
      (if answersRequest tr then "Abort state cleared" else "Safety monitor healthy")

/-- The event of a state that has just been checked. -/
theorem eventOk_checked (h : Monitors timeoutS tr (updateAbortState node nowNs).1) :
    EventOk timeoutS tr (checkedEvent (answersRequest tr) node nowNs) nowNs := by
  -- the check looks at the board and not at the request
  have hfailure : boardFailure node nowNs = boardFailure (updateAbortState node nowNs).1 nowNs := by
    rw [updateAbortState_eq]
    rfl
  have hoperator : node.operatorAbortActive = operatorAborts tr := by
    rw [← h.operator, updateAbortState_eq]
  have hreason : (updateAbortState node nowNs).1.operatorAbortReason =
    node.operatorAbortReason := by
    rw [updateAbortState_eq]
  have hhealthy : boardFailure node nowNs = none ↔ BoardHealthy (timeoutOf timeoutS tr) tr nowNs :=
    hfailure ▸ boardFailure_eq_none_iff h
  -- the last status decides which fault it is
  have hreceived {message : BoardHealth} {stampNs : ℤ}
      (hlast : tr.findSome? boardReceived = some (message, stampNs)) :=
    hfailure.trans (boardFailure_of_received h hlast)
  exact
    { source := rfl
      clear := by
        change (updateAbortState node nowNs).1.abortActive = false ↔ _
        rw [← hhealthy, updateAbortState_eq, Bool.or_eq_false_iff, Option.isSome_eq_false_iff,
          Option.isNone_iff_eq_none, hoperator]
      missing := by
        intro hlast
        have hmissing : boardFailure node nowNs =
            some ⟨"BOARD_STATUS_MISSING", "low-level board status is missing"⟩ := by
          rw [hfailure, boardFailure, h.stamp, hlast]
          rfl
        exact says_of_failure _ hmissing
      stale := by
        intro message stampNs hlast hstale
        exact says_of_failure _ (by rw [hreceived hlast, hstale, if_pos rfl])
      disconnected := by
        intro message stampNs hlast hstale hconnected
        exact says_of_failure _ (by rw [hreceived hlast, hstale, hconnected]; rfl)
      heartbeat := by
        intro message stampNs hlast hstale hconnected hheartbeat
        exact says_of_failure _ (by rw [hreceived hlast, hstale, hconnected, hheartbeat]; rfl)
      failsafe := by
        intro message stampNs hlast hstale hconnected hheartbeat hfailsafe
        exact says_of_failure _
          (by rw [hreceived hlast, hstale, hconnected, hheartbeat, hfailsafe]; rfl)
      aborted := by
        intro request hok hlast habort
        -- the board is healthy, so that the request of the operator counts
        have hactive : node.operatorAbortActive = true := by
          rw [hoperator, operatorAborts, hlast]
          exact habort
        have hsays := says_of_abort (answersRequest tr) (hhealthy.mpr hok) hactive
        rwa [← hreason, h.reason request hlast habort, orOperatorRequest_idem] at hsays
      healthy := by
        intro hok habort
        exact says_of_clear _ (hhealthy.mpr hok) (hoperator.trans habort) }

/-- Every event of a run is that of a state which has just been checked. -/
theorem checked_of_event (h : (safetyMachine timeoutS).Run (x :: tr) node) {event : SafetyEvent}
    (hevent : x.output.event = some event) :
    ∃ nowNs node', checkedAt x = some nowNs ∧
      event = checkedEvent (answersRequest (x :: tr)) node' nowNs ∧
      Monitors timeoutS (x :: tr) (updateAbortState node' nowNs).1 := by
  have hmonitors := monitors_of_run h
  rw [← h.head_post] at hmonitors
  have hstep := Option.some.inj h.head_step
  obtain ⟨pre, input, output, post⟩ := x
  dsimp only at hevent hmonitors hstep
  obtain ⟨rfl, rfl⟩ := Prod.mk.inj hstep
  cases input with
  | boardStatus message nowNs => cases hevent
  | setTimeout boardStatusTimeoutS => cases hevent
  | tick nowNs => exact ⟨nowNs, pre, rfl, (Option.some.inj hevent).symm, hmonitors⟩
  | triggerAbort request nowNs =>
    exact ⟨nowNs, requestAbort pre request, rfl, (Option.some.inj hevent).symm, hmonitors⟩

/-- **Safety events.**  Every event of a run is clear exactly when the last status of the board is
recent and healthy and the operator has not aborted since the last request to clear.  Its level,
code and message name the first fault of the board, the abort with its reason, or the clear
state. -/
theorem event_of_run (h : (safetyMachine timeoutS).Run (x :: tr) node) {event : SafetyEvent}
    (hevent : x.output.event = some event) :
    ∃ nowNs, checkedAt x = some nowNs ∧ EventOk timeoutS (x :: tr) event nowNs := by
  obtain ⟨nowNs, node', hchecked, rfl, hmonitors⟩ := checked_of_event h hevent
  exact ⟨nowNs, hchecked, eventOk_checked hmonitors⟩

section Witness

open Ieee

/-- A library that is not called. -/
def idleLibrary : MathLibrary binary64 := ⟨0, id, id, id, id, id, fun y _ => y⟩

local instance eventScalar : Scalar Binary64 := scalar idleLibrary

/-- The board is healthy, the operator aborts and clears the abort. -/
def abortAndClear : List (SafetyInput Binary64) :=
  [.boardStatus ⟨true, true, false⟩ 0, .tick 0, .triggerAbort ⟨true, "leak"⟩ 0,
    .triggerAbort ⟨false, ""⟩ 0]

/-- The code of the event that a transition publishes. -/
def codeOf (x : SafetyTransition Binary64) : Option String := x.output.event.map (·.code)

theorem event_of_run_abortAndClear :
    ∃ clears aborts ticks tr s event nowNs,
      (safetyMachine (Number.ofRat binary64 (1 / 2))).Run (clears :: aborts :: ticks :: tr) s ∧
        codeOf ticks = some "ABORT_CLEAR" ∧ codeOf aborts = some "ABORT_ACTIVE" ∧
        codeOf clears = some "ABORT_CLEARED" ∧ clears.output.event = some event ∧
        EventOk (Number.ofRat binary64 (1 / 2)) (clears :: aborts :: ticks :: tr) event nowNs := by
  obtain ⟨clears, older, s, hrun, hcheck⟩ :=
    run_of_execCheck (safetyMachine (Number.ofRat binary64 (1 / 2))) abortAndClear
      (fun x tr => codeOf x == some "ABORT_CLEARED" && tr.map codeOf ==
        [some "ABORT_ACTIVE", some "ABORT_CLEAR", none])
      (by decide +kernel)
  rw [Bool.and_eq_true, beq_iff_eq, beq_iff_eq] at hcheck
  obtain ⟨hclears, hcodes⟩ := hcheck
  obtain ⟨aborts, older, rfl, haborts, hcodes⟩ := List.map_eq_cons_iff.mp hcodes
  obtain ⟨ticks, tr, rfl, hticks, -⟩ := List.map_eq_cons_iff.mp hcodes
  obtain ⟨event, hevent, -⟩ := Option.map_eq_some_iff.mp hclears
  obtain ⟨nowNs, -, hok⟩ := event_of_run hrun hevent
  exact ⟨clears, aborts, ticks, tr, s, event, nowNs, hrun, hticks, haborts, hclears, hevent, hok⟩

end Witness

end RobotCore
