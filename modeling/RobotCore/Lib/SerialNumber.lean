import Mathlib.Tactic.NormNum
import Mathlib.Tactic.Positivity

/-!
# Serial numbers

Counters of `w` bits that wrap around are compared through their difference: `newer w c r` says
that `c` is ahead of `r` by less than half the circle.  Within a window shorter than half the
circle this is the order of the counters themselves (`newer_iff_lt`).
-/

namespace SerialNumber

/-- How far `c` is ahead of `r` on the circle of `2 ^ w` numbers. -/
def ahead (w c r : ℕ) : ℕ := (2 ^ w - r + c) % 2 ^ w

/-- `c` is ahead of `r` by less than half the circle. -/
def newer (w c r : ℕ) : Prop := ahead w c r ≠ 0 ∧ ahead w c r < 2 ^ (w - 1)

variable {w c r : ℕ}

theorem ahead_of_le (hr : r ≤ c) (hc : c < 2 ^ w) : ahead w c r = c - r := by
  unfold ahead
  rw [show 2 ^ w - r + c = 2 ^ w + (c - r) by omega, Nat.add_mod_left, Nat.mod_eq_of_lt (by omega)]

theorem ahead_of_lt (hr : r < 2 ^ w) (hc : c < r) : ahead w c r = 2 ^ w - (r - c) := by
  unfold ahead
  rw [Nat.mod_eq_of_lt (by omega)]
  omega

theorem two_pow_eq_half_add_half (hw : 0 < w) : 2 ^ w = 2 ^ (w - 1) + 2 ^ (w - 1) := by
  obtain ⟨v, rfl⟩ : ∃ v, w = v + 1 := ⟨w - 1, by omega⟩
  rw [Nat.add_sub_cancel, pow_succ]
  omega

/-- In the lower half of the circle the serial order is the order of the numbers. -/
theorem newer_iff_lt (hw : 0 < w) (hc : c < 2 ^ (w - 1)) (hr : r < 2 ^ (w - 1)) :
    newer w c r ↔ r < c := by
  have hpow := two_pow_eq_half_add_half hw
  rcases le_or_gt r c with hle | hlt
  · unfold newer
    rw [ahead_of_le hle (by omega)]
    omega
  · unfold newer
    rw [ahead_of_lt (by omega) hlt]
    omega

end SerialNumber
