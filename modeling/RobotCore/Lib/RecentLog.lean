import Mathlib.Data.List.Basic

/-!
# Logs that forget

A log to which elements are appended and which keeps the last `n` of them.  `push_kept` says what
such a log holds, and `latest?_kept` what a search from its newest element finds.
-/

namespace RecentLog

variable {α : Type*} {n : ℕ} {p : α → Bool} {items : List α}

/-- Append, then remove from the front what is too much. -/
@[irreducible] def push (n : ℕ) (log : List α) (a : α) : List α :=
  let log := log ++ [a]
  log.drop (log.length - n)

/-- The newest element that satisfies `p`. -/
def latest? (p : α → Bool) (log : List α) : Option α := log.reverse.find? p

/-- The log of the elements `items`, which are newest first. -/
def kept (n : ℕ) (items : List α) : List α := (items.take n).reverse

@[simp] theorem kept_nil : kept n ([] : List α) = [] := by simp [kept]

theorem push_kept (a : α) : push n (kept n items) a = kept n (a :: items) := by
  unfold push kept
  dsimp only
  have hcons : (items.take n).reverse ++ [a] = (a :: items.take n).reverse := by simp
  rw [hcons, List.length_reverse, ← List.reverse_take]
  congr 1
  cases n with
  | zero => rfl
  | succ n => simp [List.take_take]

theorem latest?_kept : latest? p (kept n items) = (items.take n).find? p := by
  rw [latest?, kept, List.reverse_reverse]

end RecentLog
