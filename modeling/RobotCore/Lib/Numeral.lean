import Mathlib.Data.Nat.Cast.Defs

/-!
# Bounds of numerals

The side conditions of numerals and of indices, by name, so that the definitions of several modules
share one proof of each.
-/

namespace Numeral

/-! ### Numerals of `Fin n` -/

theorem neZero_two : @NeZero ℕ Zero.ofOfNat0 2 := ⟨by decide⟩

theorem neZero_three : @NeZero ℕ Zero.ofOfNat0 3 := ⟨by decide⟩

theorem neZero_four : @NeZero ℕ Zero.ofOfNat0 4 := ⟨by decide⟩

theorem neZero_eight : @NeZero ℕ Zero.ofOfNat0 8 := ⟨by decide⟩

/-! ### Numerals of a ring -/

theorem atLeastTwo_two : Nat.AtLeastTwo 2 := ⟨by decide⟩

theorem atLeastTwo_three : Nat.AtLeastTwo 3 := ⟨by decide⟩

theorem atLeastTwo_four : Nat.AtLeastTwo 4 := ⟨by decide⟩

theorem atLeastTwo_ten : Nat.AtLeastTwo 10 := ⟨by decide⟩

theorem atLeastTwo_oneHundred : Nat.AtLeastTwo 100 := ⟨by decide⟩

theorem atLeastTwo_oneHundredEighty : Nat.AtLeastTwo 180 := ⟨by decide⟩

theorem atLeastTwo_oneThousand : Nat.AtLeastTwo 1000 := ⟨by decide⟩

/-! ### Indices -/

/-- The bound of an index into a vector of eight. -/
theorem val_lt_eight (i : Fin 8) : i.val < 8 := i.isLt

end Numeral
