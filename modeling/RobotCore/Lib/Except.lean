import Mathlib.Tactic.TypeStar

/-!
# Computations that fail

`x.Ensures P` is total correctness: the computation succeeds, with a result that satisfies `P`.
-/

/-- A computation succeeds when its first part does, and the rest with what it gave. -/
theorem bind_eq_ok_iff {ε α β : Type} {x : Except ε α} {f : α → Except ε β} {b : β} :
    x >>= f = .ok b ↔ ∃ a, x = .ok a ∧ f a = .ok b := by
  cases x with
  | error e => simp [bind, Except.bind]
  | ok a => simp [bind, Except.bind]

/-- It fails where one of its parts does. -/
theorem bind_eq_error_iff {ε α β : Type} {x : Except ε α} {f : α → Except ε β} {e : ε} :
    x >>= f = .error e ↔ x = .error e ∨ ∃ a, x = .ok a ∧ f a = .error e := by
  cases x with
  | error e => simp [bind, Except.bind]
  | ok a => simp [bind, Except.bind]

/-- A list of computations fails where the first of them does. -/
theorem mapM_eq_error_iff {ε α β : Type} {f : α → Except ε β} {l : List α} {e : ε} :
    l.mapM f = .error e ↔ ∃ before a after, l = before ++ a :: after ∧
      (∀ b ∈ before, ∃ y, f b = .ok y) ∧ f a = .error e := by
  induction l with
  | nil => simp [pure, Except.pure]
  | cons a l ih =>
    rw [List.mapM_cons, bind_eq_error_iff]
    constructor
    · rintro (h | ⟨y, hy, h⟩)
      · exact ⟨[], a, l, rfl, List.forall_mem_nil _, h⟩
      · rcases bind_eq_error_iff.mp h with h | ⟨ys, -, h⟩
        · obtain ⟨before, b, after, rfl, hbefore, hb⟩ := ih.mp h
          exact ⟨a :: before, b, after, rfl, List.forall_mem_cons.mpr ⟨⟨y, hy⟩, hbefore⟩, hb⟩
        · cases h
    · rintro ⟨before, b, after, hl, hbefore, hb⟩
      cases before with
      | nil =>
        obtain ⟨rfl, -⟩ := List.cons.inj hl
        exact Or.inl hb
      | cons c before =>
        obtain ⟨rfl, rfl⟩ := List.cons.inj hl
        obtain ⟨⟨y, hy⟩, hbefore⟩ := List.forall_mem_cons.mp hbefore
        exact Or.inr ⟨y, hy, bind_eq_error_iff.mpr
          (Or.inl (ih.mpr ⟨before, b, after, rfl, hbefore, hb⟩))⟩

theorem toOption_eq_some_iff {ε α : Type} {x : Except ε α} {a : α} :
    x.toOption = some a ↔ x = .ok a := by
  cases x with
  | error e => simp [Except.toOption]
  | ok b => simp [Except.toOption]

/-- A result that passes a check. -/
theorem exists_ok_of_any {ε α : Type} {result : Except ε α} {check : α → Bool}
    (h : result.toOption.any check = true) : ∃ a, result = .ok a ∧ check a = true := by
  cases result with
  | error _ => cases h
  | ok a => exact ⟨a, rfl, h⟩

namespace Except

universe u v

variable {ε : Type u} {α β : Type v} {x : Except ε α} {P Q : α → Prop}

/-- The computation succeeds with a result that satisfies `P`. -/
def Ensures (x : Except ε α) (P : α → Prop) : Prop := ∃ a, x = .ok a ∧ P a

theorem ensures_ok {a : α} (h : P a) : Ensures (.ok a : Except ε α) P := ⟨a, rfl, h⟩

theorem ensures_pure {a : α} (h : P a) : Ensures (pure a : Except ε α) P := ⟨a, rfl, h⟩

theorem Ensures.mono (h : x.Ensures P) (hPQ : ∀ a, P a → Q a) : x.Ensures Q := by
  obtain ⟨a, hx, ha⟩ := h
  exact ⟨a, hx, hPQ a ha⟩

/-- The rule of sequential composition. -/
theorem Ensures.bind {f : α → Except ε β} {R : β → Prop} (h : x.Ensures P)
    (hf : ∀ a, P a → (f a).Ensures R) : (x >>= f).Ensures R := by
  obtain ⟨a, rfl, ha⟩ := h
  exact hf a ha

/-- What a computation that succeeded has ensured. -/
theorem Ensures.of_eq {a : α} (h : x.Ensures P) (hx : x = .ok a) : P a := by
  obtain ⟨b, hb, hP⟩ := h
  obtain rfl := Except.ok.inj (hb.symm.trans hx)
  exact hP

/-- The rule of a check that passes. -/
theorem ensures_ite_error {c : Prop} [Decidable c] {e : ε} (hc : ¬ c) (h : x.Ensures P) :
    (if c then .error e else x).Ensures P := by
  rw [if_neg hc]
  exact h

end Except
