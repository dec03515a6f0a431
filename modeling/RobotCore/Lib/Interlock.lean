import Mathlib.Data.List.Basic

/-!
# Arming interlocks

An interlock opens only after it has processed a disarmed command and then, with no reset in
between, an armed command of a newer generation; it stays open for armed commands of that
generation alone.  What it processes is a list of items, newest first.  An item may reset the
interlock and may then carry a command.

`run_eq_authorized` says what an open interlock has processed, `last_of_run_eq_authorized` which
command it has processed last.
-/

/-- What a processed command says of the generation it belongs to. -/
inductive Interlock.Signal (γ : Type*) where
  | disarmed (generation : γ)
  | armed (generation : γ)
  deriving DecidableEq

/-- An arming interlock. -/
inductive Interlock (γ : Type*) where
  | closed
  /-- the last command was disarmed -/
  | sawDisarmed (generation : γ)
  | authorized (generation : γ)
  deriving DecidableEq

namespace Interlock

variable {α γ : Type*} [DecidableEq γ] (newer : γ → γ → Bool) {resets : α → Bool}
  {signal : α → Option (Signal γ)}

/-- The interlock after a command. -/
def accept : Interlock γ → Signal γ → Interlock γ
  | _, .disarmed d => sawDisarmed d
  | authorized g', .armed g => if g = g' then authorized g else closed
  | sawDisarmed d, .armed g => if newer g d then authorized g else closed
  | closed, .armed _ => closed

/-- The interlock after an item. -/
def step (resets : α → Bool) (signal : α → Option (Signal γ)) (b : Interlock γ) (x : α) :
    Interlock γ :=
  let b := if resets x then closed else b
  match signal x with
  | none => b
  | some e => accept newer b e

/-- The interlock after the items `tr`, newest first. -/
def run (resets : α → Bool) (signal : α → Option (Signal γ)) (tr : List α) : Interlock γ :=
  tr.foldr (fun x b => step newer resets signal b x) closed

variable {newer} {b : Interlock γ} {x : α} {g d : γ} {tr : List α}

theorem run_cons : run newer resets signal (x :: tr)
    = step newer resets signal (run newer resets signal tr) x := rfl

theorem step_of_signal_none (h : signal x = none) :
    step newer resets signal b x = if resets x then closed else b := by
  unfold step
  rw [h]

theorem step_of_signal_some {e : Signal γ} (h : signal x = some e) :
    step newer resets signal b x = accept newer (if resets x then closed else b) e := by
  unfold step
  rw [h]

/-- An interlock that processes the part of a list that `f` picks. -/
theorem run_filterMap {β : Type*} (f : β → Option α) (l : List β) :
    run newer resets signal (l.filterMap f)
      = run newer (fun y => (f y).any resets) (fun y => (f y).bind signal) l := by
  induction l with
  | nil => rfl
  | cons y l ih =>
    rw [run_cons, ← ih]
    cases hy : f y with
    | none =>
      rw [List.filterMap_cons_none hy]
      simp [step, hy]
    | some x =>
      rw [List.filterMap_cons_some hy, run_cons]
      simp [step, hy]

/-- How an interlock comes to be open. -/
theorem accept_eq_authorized {e : Signal γ} (h : accept newer b e = authorized g) :
    e = .armed g ∧ (b = authorized g ∨ ∃ d, b = sawDisarmed d ∧ newer g d = true) := by
  cases e with
  | disarmed d => cases b <;> simp [accept] at h
  | armed g' =>
    cases b with
    | closed => simp [accept] at h
    | sawDisarmed d =>
      simp only [accept] at h
      split at h
      · cases h
        exact ⟨rfl, Or.inr ⟨d, rfl, ‹_›⟩⟩
      · cases h
    | authorized g'' =>
      simp only [accept] at h
      split at h
      · cases h
        subst g''
        exact ⟨rfl, Or.inl rfl⟩
      · cases h

/-- How an interlock comes to have seen a disarmed command last. -/
theorem accept_eq_sawDisarmed {e : Signal γ} (h : accept newer b e = sawDisarmed d) :
    e = .disarmed d := by
  cases e with
  | disarmed d' =>
    cases b <;> simp only [accept, sawDisarmed.injEq] at h <;> rw [h]
  | armed g => cases b <;> simp only [accept] at h <;> first | (split at h <;> cases h) | cases h

/-- How a step leaves the interlock open: it does not reset it, and either changes nothing or
carries an armed command of the authorized generation. -/
theorem step_eq_authorized (h : step newer resets signal b x = authorized g) :
    resets x = false ∧
      ((signal x = none ∧ b = authorized g) ∨
        (signal x = some (.armed g) ∧
          (b = authorized g ∨ ∃ d, b = sawDisarmed d ∧ newer g d = true))) := by
  cases hr : resets x with
  | true =>
    -- A reset closes, and no command opens a closed interlock.
    unfold step at h
    rw [hr, if_pos rfl] at h
    cases hs : signal x with
    | none =>
      rw [hs] at h
      cases h
    | some e =>
      rw [hs] at h
      rcases (accept_eq_authorized h).2 with hb | ⟨d, hb, -⟩ <;> cases hb
  | false =>
    refine ⟨rfl, ?_⟩
    unfold step at h
    rw [hr, if_neg Bool.false_ne_true] at h
    cases hs : signal x with
    | none =>
      rw [hs] at h
      exact Or.inl ⟨rfl, h⟩
    | some e =>
      rw [hs] at h
      obtain ⟨rfl, hb⟩ := accept_eq_authorized h
      exact Or.inr ⟨rfl, hb⟩

/-- How a step leaves the interlock having seen a disarmed command last. -/
theorem step_eq_sawDisarmed (h : step newer resets signal b x = sawDisarmed d) :
    signal x = some (.disarmed d) ∨
      (signal x = none ∧ resets x = false ∧ b = sawDisarmed d) := by
  cases hs : signal x with
  | none =>
    rw [step_of_signal_none hs] at h
    cases hr : resets x with
    | true =>
      rw [hr, if_pos rfl] at h
      cases h
    | false =>
      rw [hr, if_neg Bool.false_ne_true] at h
      exact Or.inr ⟨rfl, rfl, h⟩
  | some e =>
    rw [step_of_signal_some hs] at h
    rw [accept_eq_sawDisarmed h]
    exact Or.inl rfl

/-- An interlock that has seen a disarmed command last has processed it, and neither a reset nor a
command since. -/
theorem run_eq_sawDisarmed (h : run newer resets signal tr = sawDisarmed d) :
    ∃ after x before, tr = after ++ x :: before ∧ signal x = some (.disarmed d) ∧
      ∀ y ∈ after, resets y = false ∧ signal y = none := by
  induction tr with
  | nil => cases h
  | cons x tr ih =>
    rw [run_cons] at h
    rcases step_eq_sawDisarmed h with hs | ⟨hs, hr, hb⟩
    · exact ⟨[], x, tr, rfl, hs, by simp⟩
    · obtain ⟨after, y, before, rfl, hy, hafter⟩ := ih hb
      refine ⟨x :: after, y, before, rfl, hy, fun z hz => ?_⟩
      rcases List.mem_cons.mp hz with rfl | hz
      · exact ⟨hr, hs⟩
      · exact hafter z hz

/-- **What an open interlock has processed.**  A disarmed command, then an armed one of a newer
generation, and since the disarmed one no reset and no command but armed ones of the authorized
generation. -/
theorem run_eq_authorized (h : run newer resets signal tr = authorized g) :
    ∃ later y mid x before d, tr = later ++ y :: mid ++ x :: before ∧
      signal x = some (.disarmed d) ∧ signal y = some (.armed g) ∧ newer g d = true ∧
      (∀ z ∈ later ++ y :: mid, resets z = false) ∧
      (∀ z ∈ later, signal z = none ∨ signal z = some (.armed g)) ∧
      ∀ z ∈ mid, signal z = none := by
  induction tr with
  | nil => cases h
  | cons w tr ih =>
    rw [run_cons] at h
    obtain ⟨hr, hcases⟩ := step_eq_authorized h
    -- Either the interlock was open before `w`, or `w` opens it.
    have hopen : (signal w = none ∨ signal w = some (.armed g)) →
        run newer resets signal tr = authorized g →
        ∃ later y mid x before d, w :: tr = later ++ y :: mid ++ x :: before ∧
          signal x = some (.disarmed d) ∧ signal y = some (.armed g) ∧ newer g d = true ∧
          (∀ z ∈ later ++ y :: mid, resets z = false) ∧
          (∀ z ∈ later, signal z = none ∨ signal z = some (.armed g)) ∧
          ∀ z ∈ mid, signal z = none := by
      intro hw hb
      obtain ⟨later, y, mid, x, before, d, rfl, hx, hy, hnewer, hres, hlater, hmid⟩ := ih hb
      refine ⟨w :: later, y, mid, x, before, d, by simp, hx, hy, hnewer, ?_, ?_, hmid⟩
      · intro z hz
        rcases List.mem_cons.mp hz with rfl | hz
        · exact hr
        · exact hres z hz
      · intro z hz
        rcases List.mem_cons.mp hz with rfl | hz
        · exact hw
        · exact hlater z hz
    rcases hcases with ⟨hs, hb⟩ | ⟨hs, hb | ⟨d, hb, hnewer⟩⟩
    · exact hopen (Or.inl hs) hb
    · exact hopen (Or.inr hs) hb
    · obtain ⟨mid, x, before, rfl, hx, hmid⟩ := run_eq_sawDisarmed hb
      refine ⟨[], w, mid, x, before, d, by simp, hx, hs, hnewer, ?_, by simp, fun z hz =>
        (hmid z hz).2⟩
      intro z hz
      rcases List.mem_cons.mp hz with rfl | hz
      · exact hr
      · exact (hmid z hz).1

/-- The last command an open interlock has processed: it is armed and of the authorized
generation, and nothing has reset the interlock since.  Before it a disarmed command of an older
generation was processed, and since that one no reset and only armed commands of the authorized
generation. -/
theorem last_of_run_eq_authorized (h : run newer resets signal tr = authorized g) :
    ∃ later y mid x before d, tr = later ++ y :: mid ++ x :: before ∧
      signal x = some (.disarmed d) ∧ signal y = some (.armed g) ∧ newer g d = true ∧
      (∀ z ∈ later, resets z = false ∧ signal z = none) ∧
      ∀ z ∈ y :: mid, resets z = false ∧ (signal z = none ∨ signal z = some (.armed g)) := by
  induction tr with
  | nil => cases h
  | cons w tr ih =>
    rw [run_cons] at h
    obtain ⟨hr, ⟨hs, hb⟩ | ⟨hs, hb | ⟨d, hb, hnewer⟩⟩⟩ := step_eq_authorized h
    · -- `w` carries no command, so the last command is the one before it.
      obtain ⟨later, y, mid, x, before, d, rfl, hx, hy, hnewer, hlater, hmid⟩ := ih hb
      refine ⟨w :: later, y, mid, x, before, d, rfl, hx, hy, hnewer, fun z hz => ?_, hmid⟩
      rcases List.mem_cons.mp hz with rfl | hz
      · exact ⟨hr, hs⟩
      · exact hlater z hz
    · -- `w` finds the interlock open.
      obtain ⟨later, y, mid, x, before, d, rfl, hx, -, hnewer, hlater, hmid⟩ := ih hb
      refine ⟨[], w, later ++ y :: mid, x, before, d, by simp, hx, hs, hnewer, by simp,
        fun z hz => ?_⟩
      rcases List.mem_cons.mp hz with rfl | hz
      · exact ⟨hr, Or.inr hs⟩
      · rcases List.mem_append.mp hz with hz | hz
        · exact ⟨(hlater z hz).1, Or.inl (hlater z hz).2⟩
        · exact hmid z hz
    · -- `w` opens the interlock.
      obtain ⟨mid, x, before, rfl, hx, hmid⟩ := run_eq_sawDisarmed hb
      refine ⟨[], w, mid, x, before, d, by simp, hx, hs, hnewer, by simp, fun z hz => ?_⟩
      rcases List.mem_cons.mp hz with rfl | hz
      · exact ⟨hr, Or.inr hs⟩
      · exact ⟨(hmid z hz).1, Or.inl (hmid z hz).2⟩

end Interlock
