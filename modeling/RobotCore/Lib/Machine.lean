import Mathlib.Data.List.Forall2
import Mathlib.Data.List.TakeWhile

/-!
# Machines and their runs

A `Machine` is driven by inputs: `step s i` is the state after input `i` together with what the
machine hands out in that step, or `none` when the input cannot occur in `s`.  A run is the list
of its transitions, newest first, so that "since the last such transition" is a prefix of the list.

`Run.invariant` is the induction every safety proof goes through, and `Run.filterMap` the
simulation of one machine by another; `Run.lift` goes the other way.  `Run.split` cuts a run at one
of its transitions, and `sinceLast` is the part of a history after the last transition of a kind.
-/

/-- A state machine with initial state `init`, inputs in `ι` and outputs in `ω`. -/
structure Machine (σ ι ω : Type*) where
  init : σ
  step : σ → ι → Option (σ × ω)

namespace Machine

variable {σ ι ω : Type*} {M : Machine σ ι ω}

/-- One transition of a run. -/
structure Transition (σ ι ω : Type*) where
  pre : σ
  input : ι
  output : ω
  post : σ

/-- A history, newest transition first. -/
abbrev History (σ ι ω : Type*) := List (Transition σ ι ω)

/-- `M.Run tr s`: the machine reaches `s` from its initial state through the transitions `tr`. -/
inductive Run (M : Machine σ ι ω) : History σ ι ω → σ → Prop
  | start : Run M [] M.init
  | step {tr s i s' o} : Run M tr s → M.step s i = some (s', o) → Run M (⟨s, i, o, s'⟩ :: tr) s'

/-- A state some run reaches. -/
def Reachable (M : Machine σ ι ω) (s : σ) : Prop := ∃ tr, M.Run tr s

namespace Run

variable {tr after before : History σ ι ω} {s : σ} {x : Transition σ ι ω}

/-- A run without its newest transition. -/
theorem tail (h : M.Run (x :: tr) s) : M.Run tr x.pre := by
  cases h with
  | step hrun _ => exact hrun

theorem head_post (h : M.Run (x :: tr) s) : x.post = s := by
  cases h with
  | step _ _ => rfl

theorem head_step (h : M.Run (x :: tr) s) : M.step x.pre x.input = some (x.post, x.output) := by
  cases h with
  | step _ hstep => exact hstep

/-- The run up to and including one of its transitions. -/
theorem split (h : M.Run (after ++ x :: before) s) : M.Run (x :: before) x.post := by
  induction after generalizing s with
  | nil =>
    rw [List.nil_append] at h
    rw [h.head_post]
    exact h
  | cons y after ih => exact ih h.tail

/-- Every transition of a run is a step of the machine. -/
theorem step_of_mem (h : M.Run tr s) (hx : x ∈ tr) :
    M.step x.pre x.input = some (x.post, x.output) := by
  obtain ⟨after, before, rfl⟩ := List.append_of_mem hx
  exact h.split.head_step

/-- The invariant rule: what holds at the start and is preserved by every step whose transition
satisfies `C` holds at the end of every run all of whose transitions satisfy `C`. -/
theorem invariant_of {C : Transition σ ι ω → Prop} {I : History σ ι ω → σ → Prop}
    (hinit : I [] M.init)
    (hstep : ∀ tr s i s' o, M.Run tr s → I tr s → M.step s i = some (s', o) → C ⟨s, i, o, s'⟩ →
      I (⟨s, i, o, s'⟩ :: tr) s')
    (h : M.Run tr s) (hC : ∀ x ∈ tr, C x) : I tr s := by
  induction h with
  | start => exact hinit
  | step hrun hst ih =>
    exact hstep _ _ _ _ _ hrun (ih fun x hx => hC x (List.mem_cons_of_mem _ hx)) hst
      (hC _ List.mem_cons_self)

/-- The invariant rule without a condition on the transitions. -/
theorem invariant {I : History σ ι ω → σ → Prop} (hinit : I [] M.init)
    (hstep : ∀ tr s i s' o, M.Run tr s → I tr s → M.step s i = some (s', o) →
      I (⟨s, i, o, s'⟩ :: tr) s')
    (h : M.Run tr s) : I tr s :=
  h.invariant_of (C := fun _ => True) hinit
    (fun tr s i s' o hr hi hs _ => hstep tr s i s' o hr hi hs) fun _ _ => trivial

theorem state_unique {s' : σ} (h : M.Run tr s) (h' : M.Run tr s') : s = s' := by
  cases h with
  | start =>
    cases h' with
    | start => rfl
  | step _ _ => exact h'.head_post

/-- The simulation rule: when every step of `M` is seen through `f` and `g` as a step of `N` or as
none, every run of `M` is seen as a run of `N`. -/
theorem filterMap {σ' ι' ω' : Type*} {N : Machine σ' ι' ω'} (f : σ → σ')
    (g : Transition σ ι ω → Option (Transition σ' ι' ω')) (hinit : f M.init = N.init)
    (hstep : ∀ x : Transition σ ι ω, M.step x.pre x.input = some (x.post, x.output) →
      (g x = none ∧ f x.post = f x.pre) ∨
      ∃ y, g x = some y ∧ y.pre = f x.pre ∧ y.post = f x.post ∧
        N.step y.pre y.input = some (y.post, y.output))
    (h : M.Run tr s) : N.Run (tr.filterMap g) (f s) := by
  induction h with
  | start =>
    rw [hinit]
    exact .start
  | @step tr s i s' o _ hst ih =>
    rcases hstep ⟨s, i, o, s'⟩ hst with ⟨hg, hf⟩ | ⟨y, hg, hpre, hpost, hy⟩
    · rw [List.filterMap_cons_none hg, hf]
      exact ih
    · rw [List.filterMap_cons_some hg, ← hpost]
      rw [← hpre] at ih
      exact .step ih hy

/-- The simulation rule when every step of `M` is a step of `N`. -/
theorem map {σ' ι' ω' : Type*} {N : Machine σ' ι' ω'} (f : σ → σ') (g : Transition σ ι ω → ι')
    (k : Transition σ ι ω → ω') (hinit : f M.init = N.init)
    (hstep : ∀ x : Transition σ ι ω, M.step x.pre x.input = some (x.post, x.output) →
      N.step (f x.pre) (g x) = some (f x.post, k x))
    (h : M.Run tr s) : N.Run (tr.map fun x => ⟨f x.pre, g x, k x, f x.post⟩) (f s) := by
  rw [← List.filterMap_eq_map']
  exact h.filterMap f _ hinit fun x hx => Or.inr ⟨_, rfl, rfl, rfl, hstep x hx⟩

/-- The lifting rule: when every step of `M` from what is seen of a state of `N` is seen of a step
of `N`, every run of `M` is seen of a run of `N`. -/
theorem lift {σ' ι' : Type*} {N : Machine σ' ι' ω} (f : σ' → σ) (g : ι → ι')
    (hinit : f N.init = M.init)
    (hstep : ∀ t i s o, M.step (f t) i = some (s, o) →
      ∃ t', N.step t (g i) = some (t', o) ∧ f t' = s)
    (h : M.Run tr s) : ∃ tr' t, N.Run tr' t ∧ f t = s ∧
      List.Forall₂ (fun x y => y.input = g x.input ∧ y.output = x.output ∧ f y.post = x.post)
        tr tr' := by
  induction h with
  | start => exact ⟨[], N.init, .start, hinit, .nil⟩
  | @step tr s i s' o _ hst ih =>
    obtain ⟨tr', t, hrun, rfl, hall⟩ := ih
    obtain ⟨t', ht', rfl⟩ := hstep t i s' o hst
    exact ⟨_, t', .step hrun ht', rfl, .cons ⟨rfl, rfl, rfl⟩ hall⟩

end Run

/-! ### Executing a list of inputs -/

/-- The history and the state a list of inputs leads to, from a given history on. -/
def execFrom (M : Machine σ ι ω) :
    History σ ι ω → σ → List ι → Option (History σ ι ω × σ)
  | tr, s, [] => some (tr, s)
  | tr, s, i :: inputs =>
    match M.step s i with
    | none => none
    | some (s', o) => execFrom M (⟨s, i, o, s'⟩ :: tr) s' inputs

/-- The run a list of inputs drives, if each of them can occur. -/
def exec (M : Machine σ ι ω) (inputs : List ι) : Option (History σ ι ω × σ) :=
  execFrom M [] M.init inputs

theorem run_of_execFrom {inputs : List ι} {tr tr' : History σ ι ω} {s s' : σ} (hrun : M.Run tr s)
    (h : execFrom M tr s inputs = some (tr', s')) : M.Run tr' s' := by
  induction inputs generalizing tr s with
  | nil =>
    obtain ⟨rfl, rfl⟩ := Prod.mk.inj (Option.some.inj h)
    exact hrun
  | cons i inputs ih =>
    unfold execFrom at h
    split at h
    · cases h
    · exact ih (.step hrun ‹_›) h

/-- What is executed is a run. -/
theorem run_of_exec {inputs : List ι} {tr : History σ ι ω} {s : σ}
    (h : M.exec inputs = some (tr, s)) : M.Run tr s :=
  run_of_execFrom .start h

/-- The state a list of inputs leads to; the initial state if one of them cannot occur. -/
def execState (M : Machine σ ι ω) (inputs : List ι) : σ :=
  match M.exec inputs with
  | some (_, s) => s
  | none => M.init

/-- What is executed is reachable. -/
theorem reachable_execState (M : Machine σ ι ω) (inputs : List ι) :
    M.Reachable (M.execState inputs) := by
  unfold execState
  split
  · exact ⟨_, run_of_exec ‹_›⟩
  · exact ⟨[], .start⟩

/-- A check on the newest executed transition and the history before it. -/
def execCheck (M : Machine σ ι ω) (inputs : List ι)
    (p : Transition σ ι ω → History σ ι ω → Bool) : Bool :=
  match M.exec inputs with
  | some (x :: tr, _) => p x tr
  | _ => false

/-- A check that succeeds is about a run. -/
theorem run_of_execCheck (M : Machine σ ι ω) (inputs : List ι)
    (p : Transition σ ι ω → History σ ι ω → Bool) (h : M.execCheck inputs p = true) :
    ∃ x tr s, M.Run (x :: tr) s ∧ p x tr = true := by
  unfold execCheck at h
  split at h
  · rename_i x tr s heq
    exact ⟨x, tr, s, run_of_exec heq, h⟩
  · cases h

/-! ### The recent part of a history -/

/-- The transitions after the last one that satisfies `p`. -/
def sinceLast (p : Transition σ ι ω → Bool) (tr : History σ ι ω) : History σ ι ω :=
  tr.takeWhile fun x => !p x

section SinceLast

variable {p : Transition σ ι ω → Bool} {x y : Transition σ ι ω} {tr : History σ ι ω}

@[simp] theorem sinceLast_nil : sinceLast p [] = [] := rfl

theorem sinceLast_cons_of_pos (h : p x = true) : sinceLast p (x :: tr) = [] := by
  simp [sinceLast, h]

theorem sinceLast_cons_of_neg (h : p x = false) :
    sinceLast p (x :: tr) = x :: sinceLast p tr := by
  simp [sinceLast, h]

end SinceLast

end Machine
