import RobotCore.Authority.Equiv.Step
import RobotCore.Lib.ArmLatch

/-!
# The authority is an arming latch

`authority_latch`: seen through `Authority.latch`, a run of the authority is a run of an arming
latch with 64-bit generations.  What the latch guarantees holds of the node: a latched fault means
disarmed, the generation counts the arms, and only an accepted arm request arms it again.
-/

namespace RobotCore

open Machine

def Authority.latch (s : Authority) : ArmLatch UInt64 :=
  ⟨s.armed, s.faultLatched, s.armGeneration⟩

/-- The disarmed-to-armed transitions. -/
def arms (x : AuthorityTransition) : Bool := !x.pre.armed && x.post.armed

/-- What a transition of the node does to the latch. -/
def latchEvent (s s' : Authority) : ArmLatch.Event where
  clearFault := s.faultLatched && !s'.faultLatched
  move :=
    if s.armed then
      if s'.armed then .stay else if s'.faultLatched then .trip else .disarm
    else if s'.armed then .arm else .stay

/-- The latch of the node. -/
abbrev authorityLatch : Machine (ArmLatch UInt64) ArmLatch.Event Unit :=
  ArmLatch.machine (· + 1) 0

variable {cfg : AuthorityConfig} {s s' : Authority} {input : AuthorityInput}
  {output : AuthorityOutput} {tr : AuthorityHistory} {x : AuthorityTransition}

/-- What a callback does to arming, fault and generation. -/
theorem control_of_change (h : AuthorityChange cfg s input s' output) :
    s'.armGeneration = (if !s.armed && s'.armed then s.armGeneration + 1 else s.armGeneration) ∧
      (s'.faultLatched = true → s.faultLatched = true ∨ s.armed = true ∧ s'.armed = false) ∧
      (s.armed = false → s'.armed = true →
        s'.faultLatched = false ∧ acceptsArm input output = true) := by
  cases h with
  | quiet h _ =>
    rw [h.armed, h.armGeneration]
    cases s.armed <;> exact ⟨rfl, fun hf => Or.inl (h.faultLatched hf), by simp⟩
  | limit limitUs message _ _ =>
    cases s.armed <;> exact ⟨by simp, Or.inl, by simp⟩
  | @evaluated s₀ nowNs _ _ _ hsame h _ =>
    have harmed := hsame.armed
    have hgen := hsame.armGeneration
    cases h with
    | neutral activeSource message =>
      dsimp only
      rw [harmed, hgen]
      cases s.armed <;> exact ⟨rfl, fun hf => Or.inl (hsame.faultLatched hf), by simp⟩
    | tripped h activeSource reason =>
      exact ⟨by simp [trip, hgen], fun _ => Or.inr ⟨harmed ▸ h, rfl⟩, by simp [trip]⟩
    | driven h activeSource message _ =>
      dsimp only
      rw [harmed, hgen]
      cases s.armed <;> exact ⟨rfl, fun hf => Or.inl (hsame.faultLatched hf), by simp⟩
  | aborted harmed h code message _ =>
    exact ⟨by simp [trip, h.armGeneration], fun _ => Or.inr ⟨harmed, rfl⟩, by simp [trip]⟩
  | disarmed h _ =>
    exact ⟨by simp [disarm, h.armGeneration], fun hf => Or.inl (h.faultLatched hf),
      by simp [disarm]⟩
  | armed h hdisarmed hfault message _ haccepted =>
    exact ⟨by simp [hdisarmed, h.armGeneration], fun hf => by simp [hfault] at hf,
      fun _ _ => ⟨hfault, haccepted⟩⟩

/-- A callback is a step of the latch. -/
theorem latch_step (h : AuthorityChange cfg s input s' output) :
    ArmLatch.step (· + 1) s.latch (latchEvent s s') = some s'.latch := by
  obtain ⟨hgen, hfault, harm⟩ := control_of_change h
  unfold ArmLatch.step ArmLatch.move latchEvent Authority.latch
  rw [hgen]
  cases hs : s.armed <;> cases hs' : s'.armed <;> cases hf : s.faultLatched <;>
    cases hf' : s'.faultLatched <;> simp_all

/-- Every transition of the authority is one of the cases. -/
theorem change_of_step (h : authorityStep cfg x.pre x.input = some (x.post, x.output)) :
    ∃ output, x.output = .ok output ∧ AuthorityChange cfg x.pre x.input x.post output := by
  obtain ⟨s', output, hok, hchange⟩ := authorityCallback_spec cfg x.pre x.input
  unfold authorityStep at h
  rw [hok] at h
  obtain ⟨rfl, houtput⟩ := Prod.mk.inj (Option.some.inj h)
  exact ⟨output, houtput.symm, hchange⟩

/-- A transition of the authority seen through the latch. -/
def latchTransition (x : AuthorityTransition) :
    Transition (ArmLatch UInt64) ArmLatch.Event Unit :=
  ⟨x.pre.latch, latchEvent x.pre x.post, (), x.post.latch⟩

/-- **Refinement.**  A run of the authority is a run of its latch. -/
theorem authority_latch (h : (authorityMachine cfg).Run tr s) :
    authorityLatch.Run (tr.map latchTransition) s.latch := by
  refine h.map Authority.latch (fun x => latchEvent x.pre x.post) (fun _ => ()) rfl ?_
  intro x hx
  obtain ⟨output, -, hchange⟩ := change_of_step hx
  exact Option.map_eq_some_iff.mpr ⟨_, latch_step hchange, rfl⟩

theorem latchEvent_arm_iff (x : AuthorityTransition) :
    (latchTransition x).input.move = .arm ↔ arms x = true := by
  unfold latchTransition latchEvent arms
  cases x.pre.armed <;> cases x.post.armed <;> cases x.post.faultLatched <;> simp

/-! ### What the latch guarantees -/

/-- A latched fault means disarmed. -/
theorem disarmed_of_fault (h : (authorityMachine cfg).Run tr s) :
    s.faultLatched = true → s.armed = false :=
  ArmLatch.not_armed_of_faulted (authority_latch h)

theorem toNat_iterate_succ (n : ℕ) (h : n < 2 ^ 64) :
    ((· + 1)^[n] (0 : UInt64)).toNat = n := by
  induction n with
  | zero => rfl
  | succ n ih =>
    rw [Function.iterate_succ_apply', UInt64.toNat_add, ih (by omega)]
    exact Nat.mod_eq_of_lt h

/-- The generation counts the arms. -/
theorem armGeneration_eq (h : (authorityMachine cfg).Run tr s) (hcount : tr.countP arms < 2 ^ 64) :
    s.armGeneration.toNat = tr.countP arms := by
  have hgen := ArmLatch.generation_eq (authority_latch h)
  have harms : ArmLatch.armCount (tr.map latchTransition) = tr.countP arms := by
    rw [ArmLatch.armCount, List.countP_map]
    exact List.countP_congr fun x _ => by simp [latchEvent_arm_iff]
  rw [harms] at hgen
  rw [show s.armGeneration = s.latch.generation from rfl, hgen]
  exact toNat_iterate_succ _ hcount

/-- An arm is an accepted arm request. -/
theorem acceptsArm_of_arms (h : authorityStep cfg x.pre x.input = some (x.post, x.output))
    (harms : arms x = true) :
    ∃ output, x.output = .ok output ∧ acceptsArm x.input output = true := by
  obtain ⟨output, hok, hchange⟩ := change_of_step h
  rw [arms, Bool.and_eq_true, Bool.not_eq_true'] at harms
  exact ⟨output, hok, ((control_of_change hchange).2.2 harms.1 harms.2).2⟩

/-- A node that was disarmed and is armed owes its generation to an arm in between. -/
theorem arm_since {after before : AuthorityHistory} {s₀ : Authority}
    (h : (authorityMachine cfg).Run (after ++ before) s)
    (hbefore : (authorityMachine cfg).Run before s₀) (hdisarmed : s₀.armed = false)
    (harmed : s.armed = true) :
    ∃ newer x older, after = newer ++ x :: older ∧ arms x = true ∧
      x.post.armGeneration = s.armGeneration := by
  have hlatch := authority_latch h
  rw [List.map_append] at hlatch
  obtain ⟨newer, y, older, heq, hmove, hgen⟩ :=
    ArmLatch.arm_since hlatch (authority_latch hbefore) hdisarmed harmed
  obtain ⟨newer', rest, rfl, -, hrest⟩ := List.map_eq_append_iff.mp heq
  obtain ⟨x, older', rfl, rfl, -⟩ := List.map_eq_cons_iff.mp hrest
  exact ⟨newer', x, older', rfl, (latchEvent_arm_iff x).mp hmove, hgen⟩

/-- A node that has been disarmed stays so until it arms. -/
theorem disarmed_since {after before : AuthorityHistory}
    (h : (authorityMachine cfg).Run (after ++ x :: before) s) (hx : x.post.armed = false)
    (hafter : ∀ y ∈ after, arms y = false) : s.armed = false := by
  by_contra harmed
  obtain ⟨newer, y, older, rfl, hy, -⟩ := arm_since h h.split hx (by simpa using harmed)
  have := hafter y (by simp)
  rw [hy] at this
  cases this

end RobotCore
