import RobotCore.Lib.Machine
import Mathlib.Logic.Function.Iterate

/-!
# Arming latches

An arming latch is armed or not, has a fault latched or not, and counts its arms in a generation.
Only an arm request arms it, and not while a fault is latched; a trip disarms it and latches the
fault.  The generation is of any type with a successor, so that it may wrap around.

* `not_armed_of_faulted`: a latch with a fault is not armed.
* `generation_eq`: the generation counts the arms.
* `arm_since`: a latch that was disarmed and is armed owes its generation to an arm in between.
* `disarmed_since`: a latch that has been disarmed stays so until an arm request.
-/

/-- An arming latch with generations in `γ`. -/
structure ArmLatch (γ : Type*) where
  armed : Bool
  faulted : Bool
  generation : γ

namespace ArmLatch

variable {γ : Type*} (next : γ → γ)

inductive Move where
  | stay
  | arm
  | disarm
  | trip
  deriving DecidableEq

/-- An event may clear the fault first. -/
structure Event where
  clearFault : Bool
  move : Move
  deriving DecidableEq

def move (s : ArmLatch γ) : Move → Option (ArmLatch γ)
  | .stay => some s
  | .arm => if s.armed || s.faulted then none else some ⟨true, false, next s.generation⟩
  | .disarm => some { s with armed := false }
  | .trip => some { s with armed := false, faulted := true }

def step (s : ArmLatch γ) (e : Event) : Option (ArmLatch γ) :=
  move next (if e.clearFault then { s with faulted := false } else s) e.move

/-- The latch as a machine that hands out nothing. -/
def machine (first : γ) : Machine (ArmLatch γ) Event Unit where
  init := ⟨false, false, first⟩
  step s e := (step next s e).map fun s' => (s', ())

variable {next} {s s' : ArmLatch γ} {e : Event} {first : γ}
  {tr : Machine.History (ArmLatch γ) Event Unit}

/-- What a step does to each part of the latch. -/
theorem step_cases (h : step next s e = some s') :
    (e.move = .stay ∧ s'.armed = s.armed ∧ s'.generation = s.generation ∧
      (s'.faulted = true → s.faulted = true)) ∨
    (e.move = .arm ∧ s.armed = false ∧ s'.armed = true ∧ s'.faulted = false ∧
      s'.generation = next s.generation) ∨
    ((e.move = .disarm ∨ e.move = .trip) ∧ s'.armed = false ∧ s'.generation = s.generation) := by
  obtain ⟨clearFault, m⟩ := e
  cases m with
  | stay =>
    refine Or.inl ⟨rfl, ?_⟩
    cases clearFault <;> cases h <;> simp
  | arm =>
    refine Or.inr (Or.inl ⟨rfl, ?_⟩)
    unfold step move at h
    dsimp only at h
    split_ifs at h with hclear hopen hopen <;> cases h <;> simp_all
  | disarm =>
    refine Or.inr (Or.inr ⟨Or.inl rfl, ?_⟩)
    cases clearFault <;> cases h <;> exact ⟨rfl, rfl⟩
  | trip =>
    refine Or.inr (Or.inr ⟨Or.inr rfl, ?_⟩)
    cases clearFault <;> cases h <;> exact ⟨rfl, rfl⟩

theorem step_of_machine_step {o : Unit} (h : (machine next first).step s e = some (s', o)) :
    step next s e = some s' := by
  obtain ⟨s'', hstep, heq⟩ := Option.map_eq_some_iff.mp h
  obtain ⟨rfl, -⟩ := Prod.mk.inj heq
  exact hstep

/-- A latch with a fault is not armed. -/
theorem not_armed_of_faulted (h : (machine next first).Run tr s) :
    s.faulted = true → s.armed = false := by
  refine h.invariant (I := fun _ s => s.faulted = true → s.armed = false) (fun _ => rfl) ?_
  intro tr s e s' o _ hsafe hstep hfault
  obtain ⟨-, harmed, -, hfaulted⟩ | ⟨-, -, -, hclear, -⟩ | ⟨-, hdisarmed, -⟩ :=
    step_cases (step_of_machine_step hstep)
  · rw [harmed]
    exact hsafe (hfaulted hfault)
  · rw [hclear] at hfault
    cases hfault
  · exact hdisarmed

/-- The arms of a history. -/
def armCount (tr : Machine.History (ArmLatch γ) Event Unit) : ℕ :=
  tr.countP fun x => x.input.move = .arm

/-- The generation counts the arms. -/
theorem generation_eq (h : (machine next first).Run tr s) :
    s.generation = next^[armCount tr] first := by
  refine h.invariant (I := fun tr s => s.generation = next^[armCount tr] first) rfl ?_
  intro tr s e s' o _ hcount hstep
  unfold armCount at hcount ⊢
  rw [List.countP_cons]
  obtain ⟨hmove, -, hgen, -⟩ | ⟨hmove, -, -, -, hgen⟩ | ⟨hmove, -, hgen⟩ :=
    step_cases (step_of_machine_step hstep)
  · rw [hgen, hcount]
    simp [hmove]
  · rw [hgen, hcount, ← Function.iterate_succ_apply' next]
    simp [hmove]
  · rw [hgen, hcount]
    obtain hmove | hmove := hmove <;> simp [hmove]

/-- **The last arm.**  A latch that was disarmed and is armed has been armed in between, and its
generation is that of an arm. -/
theorem arm_since {after before : Machine.History (ArmLatch γ) Event Unit} {s₀ : ArmLatch γ}
    (h : (machine next first).Run (after ++ before) s)
    (hbefore : (machine next first).Run before s₀) (hdisarmed : s₀.armed = false)
    (harmed : s.armed = true) :
    ∃ newer x older, after = newer ++ x :: older ∧ x.input.move = .arm ∧
      x.post.generation = s.generation := by
  induction after generalizing s with
  | nil =>
    rw [List.nil_append] at h
    rw [h.state_unique hbefore, hdisarmed] at harmed
    cases harmed
  | cons x after ih =>
    have hstep := step_of_machine_step h.head_step
    have hpost := h.head_post
    obtain ⟨-, hsame, hgen, -⟩ | ⟨hmove, -⟩ | ⟨-, hstop, -⟩ := step_cases hstep
    · rw [hpost] at hsame hgen
      obtain ⟨newer, y, older, rfl, hy, hyGen⟩ := ih h.tail (hsame ▸ harmed)
      exact ⟨x :: newer, y, older, rfl, hy, hyGen.trans hgen.symm⟩
    · exact ⟨[], x, after, rfl, hmove, congrArg generation hpost⟩
    · rw [hpost, harmed] at hstop
      cases hstop

/-- A latch that has been disarmed stays so until an arm request. -/
theorem disarmed_since {after before : Machine.History (ArmLatch γ) Event Unit}
    {x : Machine.Transition (ArmLatch γ) Event Unit}
    (h : (machine next first).Run (after ++ x :: before) s) (hx : x.post.armed = false)
    (hafter : ∀ y ∈ after, y.input.move ≠ .arm) : s.armed = false := by
  by_contra harmed
  obtain ⟨newer, y, older, rfl, hy, -⟩ := arm_since h h.split hx (by simpa using harmed)
  exact hafter y (by simp) hy

end ArmLatch
