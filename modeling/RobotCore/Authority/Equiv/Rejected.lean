import RobotCore.Authority.Equiv.Step

/-!
# Rejected authority requests

`rejected_unchanged_iff`: a rejected request leaves the control state as it is except when it gets
as far as the check before arming and clears a fault, or names another source, on its way there.
-/

namespace RobotCore

/-- Source, arming, fault, generation, limit and outputs are as before, and nothing is published. -/
structure Unchanged (s s' : Authority) (sent : AuthorityOutput) : Prop where
  selectedSource : s'.selectedSource = s.selectedSource
  armed : s'.armed = s.armed
  faultLatched : s'.faultLatched = s.faultLatched
  faultCode : s'.faultCode = s.faultCode
  armGeneration : s'.armGeneration = s.armGeneration
  actionLimit : s'.actionLimit = s.actionLimit
  output : s'.output = s.output
  outputEnabled : s'.outputEnabled = s.outputEnabled
  command : sent.command = none

section Requests

variable (cfg : AuthorityConfig) (s : Authority) (request : SetControlAuthorityRequest)

/-- No check before that of arming rejects the request. -/
def passesRequestChecks : Bool :=
  !request.updatePwmLimit && supported (requestedSource s request) &&
    !(s.armed && requestedSource s request != s.selectedSource) &&
    !(requestedSource s request == "rl" && !cfg.allowRlHardware) &&
    !(request.clearFault && s.abortActive)

/-- The request has a fault to clear or a source to switch to. -/
def hasSideEffect : Bool :=
  request.clearFault && (s.faultLatched || s.faultCode != "") ||
    requestedSource s request != s.selectedSource

end Requests

variable {cfg : AuthorityConfig} {s s' : Authority} {request : SetControlAuthorityRequest}
  {nowNs : ℤ} {output : AuthorityOutput}

/-- The response rejects the request. -/
def Rejects (output : AuthorityOutput) : Prop :=
  ∃ response, output.response = some response ∧ response.accepted = false

/-- A check that only answers. -/
theorem unchanged_answer {ε : Type} {accepted : Bool} {text : String}
    (h : (Except.ok (answer s accepted text) : Except ε _) = .ok (s', output)) :
    Unchanged s s' output := by
  obtain ⟨rfl, rfl⟩ := Prod.mk.inj (Except.ok.inj h)
  exact ⟨rfl, rfl, rfl, rfl, rfl, rfl, rfl, rfl, rfl⟩

theorem not_rejects_of_accepted {response : SetControlAuthorityResponse}
    (h : output.response = some response) (haccepted : response.accepted = true) :
    ¬ Rejects output := by
  rintro ⟨response', hresponse, hrejected⟩
  obtain rfl := Option.some.inj (h.symm.trans hresponse)
  rw [haccepted] at hrejected
  cases hrejected

theorem unchanged_updatePwmLimit (h : updatePwmLimit s request = (s', output))
    (hreject : Rejects output) : Unchanged s s' output := by
  unfold updatePwmLimit at h
  split at h
  · obtain ⟨rfl, rfl⟩ := Prod.mk.inj h
    exact ⟨rfl, rfl, rfl, rfl, rfl, rfl, rfl, rfl, rfl⟩
  · split at h
    · obtain ⟨rfl, rfl⟩ := Prod.mk.inj h
      exact ⟨rfl, rfl, rfl, rfl, rfl, rfl, rfl, rfl, rfl⟩
    · obtain ⟨-, rfl⟩ := Prod.mk.inj h
      exact absurd hreject (not_rejects_of_accepted rfl rfl)

/-- A rejection by the check before arming has selected the source. -/
theorem requestArm_rejected {s₀ : Authority} {requested : String}
    (h : requestArm cfg s₀ request requested nowNs = .ok (s', output)) (hreject : Rejects output) :
    ∃ reason, s' = { s₀ with
        selectedSource := if s₀.armed then s₀.selectedSource else requested
        message := reason } ∧ output.command = none := by
  have hselected : (if !s₀.armed then { s₀ with selectedSource := requested } else s₀) =
      { s₀ with selectedSource := if s₀.armed then s₀.selectedSource else requested } := by
    obtain ⟨_, _, _, _, _, _, _, _, _, armed, _, _, _, _, _, _⟩ := s₀
    cases armed <;> rfl
  unfold requestArm at h
  dsimp only at h
  rw [hselected] at h
  split at h
  · obtain ⟨-, rfl⟩ := Prod.mk.inj (Except.ok.inj h)
    exact absurd hreject (not_rejects_of_accepted rfl rfl)
  · obtain ⟨reason, hok, -⟩ := prearmFailure_spec cfg
      { s₀ with selectedSource := if s₀.armed then s₀.selectedSource else requested } nowNs
    rw [hok, ok_bind] at h
    cases reason with
    | some reason =>
      obtain ⟨rfl, rfl⟩ := Prod.mk.inj (Except.ok.inj h)
      exact ⟨reason, rfl, rfl⟩
    | none =>
      obtain ⟨-, rfl⟩ := Prod.mk.inj (Except.ok.inj h)
      exact absurd hreject (not_rejects_of_accepted rfl rfl)

/-- What a rejection by the check before arming has done. -/
theorem unchanged_requestArm_iff {s₀ : Authority} {requested : String}
    (h : requestArm cfg s₀ request requested nowNs = .ok (s', output)) (hreject : Rejects output)
    (harmed : s.armed = true → requested = s.selectedSource)
    (hfault : s₀ = s ∨ s₀ = { s with
      faultLatched := false, faultCode := "", message := "fault cleared" }) :
    Unchanged s s' output ↔
      requested = s.selectedSource ∧ s₀.faultLatched = s.faultLatched ∧
        s₀.faultCode = s.faultCode := by
  obtain ⟨reason, rfl, hcommand⟩ := requestArm_rejected h hreject
  constructor
  · intro hsame
    refine ⟨?_, hsame.faultLatched, hsame.faultCode⟩
    cases hcase : s.armed with
    | true => exact harmed hcase
    | false =>
      have hsource := hsame.selectedSource
      have harmed₀ : s₀.armed = false := by rcases hfault with rfl | rfl <;> exact hcase
      dsimp only at hsource
      rw [harmed₀] at hsource
      exact hsource
  · rintro ⟨rfl, hlatched, hcode⟩
    rcases hfault with rfl | rfl
    · exact ⟨ite_self _, rfl, rfl, rfl, rfl, rfl, rfl, rfl, hcommand⟩
    · exact ⟨ite_self _, rfl, hlatched, hcode, rfl, rfl, rfl, rfl, hcommand⟩

theorem unchanged_requestAuthority_iff
    (h : requestAuthority cfg s request (requestedSource s request) nowNs = .ok (s', output))
    (hreject : Rejects output)
    (harmed : s.armed = true → requestedSource s request = s.selectedSource) :
    Unchanged s s' output ↔
      (!(request.clearFault && s.abortActive) && hasSideEffect s request) = false := by
  unfold requestAuthority at h
  unfold hasSideEffect
  cases hclear : request.clearFault with
  | false =>
    rw [hclear, if_neg Bool.false_ne_true] at h
    simp [unchanged_requestArm_iff h hreject harmed (Or.inl rfl)]
  | true =>
    rw [hclear, if_pos rfl] at h
    cases habort : s.abortActive with
    | true =>
      rw [if_pos habort] at h
      simp [unchanged_answer h]
    | false =>
      rw [if_neg (Bool.eq_false_iff.mp habort)] at h
      dsimp only at h
      split at h
      · obtain ⟨-, rfl⟩ := Prod.mk.inj (Except.ok.inj h)
        exact absurd hreject (not_rejects_of_accepted rfl rfl)
      · rw [unchanged_requestArm_iff h hreject harmed (Or.inr rfl)]
        simp only [Bool.and_false, Bool.true_and, Bool.not_false,
          Bool.or_eq_false_iff, bne_eq_false_iff_eq, @eq_comm _ false, @eq_comm _ ""]
        exact and_comm

/-- **Rejected requests.**  A rejected request changes nothing unless it reaches the check before
arming with a fault to clear or a source to switch to. -/
theorem rejected_unchanged_iff (h : onSetAuthority cfg s request nowNs = .ok (s', output))
    (hreject : Rejects output) :
    Unchanged s s' output ↔
      ¬ (passesRequestChecks cfg s request = true ∧ hasSideEffect s request = true) := by
  unfold onSetAuthority at h
  unfold passesRequestChecks
  dsimp only at h
  split at h
  · rename_i hlimit
    simp [hlimit, unchanged_updatePwmLimit (Except.ok.inj h) hreject]
  rename_i hlimit
  split at h
  · rename_i hunsupported
    rw [Bool.not_eq_true'] at hunsupported
    simp [hunsupported, unchanged_answer h]
  rename_i hsupported
  split at h
  · rename_i hswitch
    rw [hswitch]
    simp [unchanged_answer h]
  rename_i hkeeps
  split at h
  · rename_i hrl
    rw [hrl]
    simp [unchanged_answer h]
  rename_i hallowed
  have harmed : s.armed = true → requestedSource s request = s.selectedSource := by
    intro harmed
    rw [harmed, Bool.true_and, bne_iff_ne, not_not] at hkeeps
    exact hkeeps
  rw [Bool.not_eq_true, Bool.not_eq_false'] at hsupported
  rw [Bool.not_eq_true] at hlimit hkeeps hallowed
  rw [unchanged_requestAuthority_iff h hreject harmed, hlimit, hsupported, hkeeps, hallowed,
    ← Bool.not_eq_true, Bool.and_eq_true]
  simp

/-- Arming PID right after the start, which no safety heartbeat allows yet. -/
def armPidRequest : SetControlAuthorityRequest where
  source := "pid"
  arm := true

/-- The request is rejected and PID is selected. -/
theorem onSetAuthority_armPidRequest :
    ∃ s' output, onSetAuthority {} (Authority.initial {}) armPidRequest 0 = .ok (s', output) ∧
      Rejects output ∧ s'.selectedSource = "pid" := by
  have hcheck : (onSetAuthority {} (Authority.initial {}) armPidRequest 0).toOption.any (fun r =>
      r.2.response.any (!·.accepted) && r.1.selectedSource == "pid") = true := by
    decide +kernel
  cases hresult : onSetAuthority {} (Authority.initial {}) armPidRequest 0 with
  | error e =>
    rw [hresult] at hcheck
    cases hcheck
  | ok r =>
    rw [hresult] at hcheck
    obtain ⟨hreject, hsource⟩ := Bool.and_eq_true_iff.mp hcheck
    rw [Option.any_eq_true] at hreject
    obtain ⟨response, hresponse, haccepted⟩ := hreject
    exact ⟨r.1, r.2, rfl, ⟨response, hresponse, by simpa using haccepted⟩, beq_iff_eq.mp hsource⟩

theorem rejected_unchanged_iff_armPidRequest :
    ∃ s' output, onSetAuthority {} (Authority.initial {}) armPidRequest 0 = .ok (s', output) ∧
      (Unchanged (Authority.initial {}) s' output ↔
        ¬ (passesRequestChecks {} (Authority.initial {}) armPidRequest = true ∧
          hasSideEffect (Authority.initial {}) armPidRequest = true)) := by
  obtain ⟨s', output, h, hreject, -⟩ := onSetAuthority_armPidRequest
  exact ⟨s', output, h, rejected_unchanged_iff h hreject⟩

/-- The rejected request has selected PID. -/
theorem rejected_request_selects :
    ¬ ∀ cfg s request nowNs s' output, onSetAuthority cfg s request nowNs = .ok (s', output) →
      Rejects output → Unchanged s s' output := by
  intro hall
  obtain ⟨s', output, h, hreject, hsource⟩ := onSetAuthority_armPidRequest
  have hsame := (hall _ _ _ _ _ _ h hreject).selectedSource
  rw [hsource] at hsame
  exact absurd hsame (by decide)

end RobotCore
