import Mathlib.Data.List.Basic
import Mathlib.Tactic.Common

/-!
# Choosing compatible elements first fit

`firstFit r k chosen xs` goes through a list and takes each element that all elements chosen so far
are compatible with, until there are `k` of them.  Whatever is compatible with everything that could
be chosen before it is chosen (`mem_firstFit_of_compatible`).
-/

namespace FirstFit

variable {α : Type*} (r : α → α → Prop) [DecidableRel r] (k : ℕ)

def firstFit (chosen : List α) : List α → List α
  | [] => chosen
  | x :: xs =>
    if ∀ y ∈ chosen, r y x then
      if (chosen ++ [x]).length = k then chosen ++ [x] else firstFit (chosen ++ [x]) xs
    else firstFit chosen xs

variable {r k} {chosen xs : List α}

theorem prefix_firstFit : chosen <+: firstFit r k chosen xs := by
  induction xs generalizing chosen with
  | nil => exact List.prefix_rfl
  | cons x xs ih =>
    unfold firstFit
    split_ifs
    · exact List.prefix_append _ _
    · exact (List.prefix_append _ _).trans ih
    · exact ih

theorem firstFit_sublist : (firstFit r k chosen xs).Sublist (chosen ++ xs) := by
  induction xs generalizing chosen with
  | nil => exact List.sublist_append_left _ _
  | cons x xs ih =>
    have hassoc : chosen ++ [x] ++ xs = chosen ++ x :: xs := List.append_assoc _ _ _
    unfold firstFit
    split_ifs
    · rw [← hassoc]
      exact List.sublist_append_left _ _
    · rw [← hassoc]
      exact ih
    · exact ih.trans ((List.sublist_cons_self x xs).append_left chosen)

theorem pairwise_firstFit (h : chosen.Pairwise r) : (firstFit r k chosen xs).Pairwise r := by
  induction xs generalizing chosen with
  | nil => exact h
  | cons x xs ih =>
    unfold firstFit
    by_cases hfits : ∀ y ∈ chosen, r y x
    · have hnext : (chosen ++ [x]).Pairwise r := by
        refine List.pairwise_append.mpr ⟨h, List.pairwise_singleton _ _, fun y hy z hz => ?_⟩
        obtain rfl := List.mem_singleton.mp hz
        exact hfits y hy
      rw [if_pos hfits]
      split_ifs
      · exact hnext
      · exact ih hnext
    · rw [if_neg hfits]
      exact ih h

theorem length_firstFit_le (h : chosen.length < k) : (firstFit r k chosen xs).length ≤ k := by
  induction xs generalizing chosen with
  | nil => exact Nat.le_of_lt h
  | cons x xs ih =>
    unfold firstFit
    split_ifs with hfits hfull
    · exact Nat.le_of_eq hfull
    · refine ih ?_
      rw [List.length_append, List.length_singleton] at hfull ⊢
      omega
    · exact ih h

/-- What is not chosen is incompatible with one that is. -/
theorem exists_incompatible (hshort : (firstFit r k chosen xs).length < k) :
    ∀ x ∈ xs, x ∉ firstFit r k chosen xs → ∃ y ∈ firstFit r k chosen xs, ¬r y x := by
  induction xs generalizing chosen with
  | nil => exact fun _ hx => by cases hx
  | cons x xs ih =>
    intro z hz hnot
    unfold firstFit at hshort hnot ⊢
    split_ifs at hshort hnot ⊢ with hfits hfull
    · exact absurd hfull (Nat.ne_of_lt hshort)
    · rcases List.mem_cons.mp hz with rfl | hz
      · exact absurd (prefix_firstFit.subset (List.mem_append_right _ List.mem_cons_self)) hnot
      · exact ih hshort z hz hnot
    · rcases List.mem_cons.mp hz with rfl | hz
      · push Not at hfits
        obtain ⟨y, hy, hincompatible⟩ := hfits
        exact ⟨y, prefix_firstFit.subset hy, hincompatible⟩
      · exact ih hshort z hz hnot

/-- What everything before it is compatible with is chosen, unless there are enough before. -/
theorem mem_firstFit_of_compatible {C : α → Prop}
    (hchosen : ∀ y ∈ chosen, ∀ c ∈ xs, C c → r y c) (hxs : xs.Pairwise fun x c => C c → r x c) :
    (firstFit r k chosen xs).length = k ∨ ∀ c ∈ xs, C c → c ∈ firstFit r k chosen xs := by
  induction xs generalizing chosen with
  | nil => exact Or.inr fun _ hc => by cases hc
  | cons x xs ih =>
    obtain ⟨hx, hrest⟩ := List.pairwise_cons.mp hxs
    have hkept : ∀ y ∈ chosen, ∀ c ∈ xs, C c → r y c :=
      fun y hy c hc => hchosen y hy c (List.mem_cons_of_mem x hc)
    unfold firstFit
    split_ifs with hfits hfull
    · exact Or.inl hfull
    · have hnext : ∀ y ∈ chosen ++ [x], ∀ c ∈ xs, C c → r y c := by
        intro y hy
        rcases List.mem_append.mp hy with hy | hy
        · exact hkept y hy
        · obtain rfl := List.mem_singleton.mp hy
          exact hx
      refine (ih hnext hrest).imp_right fun h c hc hC => ?_
      rcases List.mem_cons.mp hc with rfl | hc
      · exact prefix_firstFit.subset (List.mem_append_right _ List.mem_cons_self)
      · exact h c hc hC
    · refine (ih hkept hrest).imp_right fun h c hc hC => ?_
      rcases List.mem_cons.mp hc with rfl | hc
      · exact absurd (fun y hy => hchosen y hy c List.mem_cons_self hC) hfits
      · exact h c hc hC

end FirstFit
