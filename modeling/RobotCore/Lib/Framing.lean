import Mathlib.Data.List.Pairwise
import Mathlib.Data.Nat.Notation
import Mathlib.Order.Nat
import Mathlib.Tactic.Common

/-!
# Incremental framing

A `Scanner` cuts a stream into pieces from its front.  `next` looks at what has arrived and says
how many elements the first piece has and what it stands for, or `none` while more is needed; a
decision once made is not changed by what arrives later.

`scan` cuts a whole stream at once.  `Cuts` is a scan under way: the pieces cut so far and the
offset reached.  It stays one when more of the stream arrives (`Cuts.append`), and the scan of the
whole stream goes on from it (`Cuts.scan_eq`); this is what makes framing independent of how the
stream arrives.  The pieces cover what has been consumed (`Cuts.exists_piece_of_lt`) and do not
overlap (`Cuts.eq_of_overlap`).
-/

/-- A rule that cuts the first piece off a stream of `α`, labelled in `ε`. -/
structure Scanner (α ε : Type*) where
  next : List α → Option (ℕ × ε)
  next_pos : ∀ {b n e}, next b = some (n, e) → 0 < n
  next_le : ∀ {b n e}, next b = some (n, e) → n ≤ b.length
  next_append : ∀ {b r} (c : List α), next b = some r → next (b ++ c) = some r

namespace Scanner

/-- A piece of a stream. -/
structure Piece (ε : Type*) where
  offset : ℕ
  length : ℕ
  label : ε

/-- The offset right after a piece. -/
def Piece.stop {ε : Type*} (x : Piece ε) : ℕ := x.offset + x.length

variable {α ε : Type*} (S : Scanner α ε)

/-! ### Scanning -/

/-- The pieces of `b`, which starts at offset `p` of the stream. -/
def scan (p : ℕ) (b : List α) : List (Piece ε) :=
  match h : S.next b with
  | none => []
  | some (n, e) =>
    have : 0 < n := S.next_pos h
    have : n ≤ b.length := S.next_le h
    ⟨p, n, e⟩ :: scan (p + n) (b.drop n)
termination_by b.length
decreasing_by simp only [List.length_drop]; omega

variable {S} {p q n : ℕ} {b : List α} {e : ε} {x y : Piece ε} {xs : List (Piece ε)}

theorem scan_of_none (h : S.next b = none) : S.scan p b = [] := by
  rw [scan]
  split
  · rfl
  · simp_all

theorem scan_of_some (h : S.next b = some (n, e)) :
    S.scan p b = ⟨p, n, e⟩ :: S.scan (p + n) (b.drop n) := by
  rw [scan]
  split
  · simp_all
  · rename_i n' e' h'
    rw [h] at h'
    obtain ⟨rfl, rfl⟩ := Prod.mk.inj (Option.some.inj h')
    rfl

/-- Induction along a scan. -/
theorem scan_induction {motive : ℕ → List α → Prop}
    (wait : ∀ p b, S.next b = none → motive p b)
    (cut : ∀ p b n e, S.next b = some (n, e) → motive (p + n) (b.drop n) → motive p b)
    (p : ℕ) (b : List α) : motive p b := by
  induction hlen : b.length using Nat.strongRecOn generalizing p b with
  | ind m ih =>
    cases h : S.next b with
    | none => exact wait p b h
    | some r =>
      obtain ⟨n, e⟩ := r
      have hpos := S.next_pos h
      have hle := S.next_le h
      exact cut p b n e h (ih _ (by rw [List.length_drop]; omega) (p + n) (b.drop n) rfl)

/-- A piece is what the rule cuts off somewhere in `b`. -/
theorem exists_next_of_mem_scan (hx : x ∈ S.scan p b) :
    ∃ k, S.next (b.drop k) = some (x.length, x.label) := by
  induction p, b using S.scan_induction with
  | wait p b h => simp [scan_of_none h] at hx
  | cut p b n e h ih =>
    rw [scan_of_some h] at hx
    obtain rfl | hx := List.mem_cons.mp hx
    · exact ⟨0, h⟩
    · obtain ⟨k, hk⟩ := ih hx
      exact ⟨n + k, by rwa [List.drop_drop] at hk⟩

/-! ### A scan under way -/

/-- The scanner has cut the pieces `xs` off the stream and looks for the next one at `p`. -/
inductive Cuts (T : Scanner α ε) (bytes : List α) : List (Piece ε) → ℕ → Prop
  | start : Cuts T bytes [] 0
  | cut {ys m k label} : Cuts T bytes ys m → T.next (bytes.drop m) = some (k, label) →
      Cuts T bytes (ys ++ [⟨m, k, label⟩]) (m + k)

/-- The offsets of a stream at which the scanner looks for a piece. -/
def Visits (S : Scanner α ε) (bytes : List α) (p : ℕ) : Prop := ∃ xs, S.Cuts bytes xs p

namespace Cuts

theorem le_length (h : S.Cuts b xs p) : p ≤ b.length := by
  induction h with
  | start => exact Nat.zero_le _
  | cut _ hnext ih =>
    have := S.next_le hnext
    rw [List.length_drop] at this
    omega

/-- **Incremental framing**: the pieces stay when more of the stream arrives. -/
theorem append (h : S.Cuts b xs p) (c : List α) : S.Cuts (b ++ c) xs p := by
  induction h with
  | start => exact .start
  | cut hcuts hnext ih =>
    refine .cut ih ?_
    rw [List.drop_append_of_le_length hcuts.le_length]
    exact S.next_append c hnext

/-- The scan of the whole stream goes on from a scan under way. -/
theorem scan_eq (h : S.Cuts b xs p) : S.scan 0 b = xs ++ S.scan p (b.drop p) := by
  induction h with
  | start => rfl
  | @cut ys m k label _ hnext ih =>
    rw [ih, scan_of_some hnext, List.drop_drop, List.append_assoc]
    rfl

/-- A piece is what the rule cuts off at its offset. -/
theorem next_of_mem (h : S.Cuts b xs p) (hx : x ∈ xs) :
    S.next (b.drop x.offset) = some (x.length, x.label) := by
  induction h with
  | start => simp at hx
  | cut _ hnext ih =>
    obtain hx | hx := List.mem_append.mp hx
    · exact ih hx
    · obtain rfl := List.mem_singleton.mp hx
      exact hnext

/-- A piece is cut at a visited offset. -/
theorem visits_of_mem (h : S.Cuts b xs p) (hx : x ∈ xs) : S.Visits b x.offset := by
  induction h with
  | start => simp at hx
  | @cut ys m k label hcuts _ ih =>
    obtain hx | hx := List.mem_append.mp hx
    · exact ih hx
    · obtain rfl := List.mem_singleton.mp hx
      exact ⟨ys, hcuts⟩

theorem stop_le (h : S.Cuts b xs p) (hx : x ∈ xs) : x.stop ≤ p := by
  induction h with
  | start => simp at hx
  | @cut ys m k label _ _ ih =>
    obtain hx | hx := List.mem_append.mp hx
    · exact le_trans (ih hx) (Nat.le_add_right m k)
    · obtain rfl := List.mem_singleton.mp hx
      exact le_rfl

/-- Everything before the offset reached belongs to a piece. -/
theorem exists_piece_of_lt (h : S.Cuts b xs p) (hq : q < p) :
    ∃ x ∈ xs, x.offset ≤ q ∧ q < x.stop := by
  induction h with
  | start => omega
  | @cut ys m k label _ _ ih =>
    by_cases hlt : q < m
    · obtain ⟨x, hx, hpiece⟩ := ih hlt
      exact ⟨x, List.mem_append_left _ hx, hpiece⟩
    · exact ⟨⟨m, k, label⟩, by simp, Nat.le_of_not_lt hlt, hq⟩

/-- The pieces lie one after the other. -/
theorem pairwise (h : S.Cuts b xs p) : xs.Pairwise fun x y => x.stop ≤ y.offset := by
  induction h with
  | start => exact .nil
  | cut hcuts _ ih =>
    refine List.pairwise_append.mpr ⟨ih, List.pairwise_singleton _ _, fun x hx y hy => ?_⟩
    obtain rfl := List.mem_singleton.mp hy
    exact hcuts.stop_le hx

/-- Only one piece holds an offset. -/
theorem eq_of_overlap (h : S.Cuts b xs p) (hx : x ∈ xs) (hy : y ∈ xs)
    (hxq : x.offset ≤ q ∧ q < x.stop) (hyq : y.offset ≤ q ∧ q < y.stop) : x = y := by
  by_contra hne
  let apart : Piece ε → Piece ε → Prop := fun x y => x.stop ≤ y.offset ∨ y.stop ≤ x.offset
  have : Std.Symm apart := ⟨fun _ _ h => h.symm⟩
  have hapart : xs.Pairwise apart := h.pairwise.imp Or.inl
  have := hapart.forall hx hy hne
  omega

end Cuts

/-- Where a piece is complete at a visited offset, the scan of the stream cuts it. -/
theorem Visits.mem_scan (hp : S.Visits b p) (hnext : S.next (b.drop p) = some (n, e)) :
    ⟨p, n, e⟩ ∈ S.scan 0 b := by
  obtain ⟨ys, hys⟩ := hp
  rw [hys.scan_eq, scan_of_some hnext]
  simp

end Scanner
