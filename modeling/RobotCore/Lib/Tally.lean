import Mathlib.Data.Finset.Card
import Mathlib.Data.List.Range
import Mathlib.Order.Basic
import Mathlib.Tactic.Common

/-!
# Counting the members of a set by class

A set of numbers is kept in two tables: which numbers are in it, and how many of them are in each
class.  `List.set` of the one table and `List.modify` of the other add a number to the set.
-/

namespace Tally

variable (cls : ℕ → ℕ)

/-- The members of a class. -/
def ofClass (S : Finset ℕ) (c : ℕ) : Finset ℕ := S.filter fun i => cls i = c

/-- Which of the first numbers are in the set. -/
def seen (k : ℕ) (S : Finset ℕ) : List Bool := (List.range k).map fun i => decide (i ∈ S)

/-- How many members the first classes have. -/
def counts (n : ℕ) (S : Finset ℕ) : List ℤ :=
  (List.range n).map fun c => ((ofClass cls S c).card : ℤ)

variable {cls} {S T : Finset ℕ} {k n c i : ℕ}

theorem ofClass_mono (h : S ⊆ T) : ofClass cls S c ⊆ ofClass cls T c :=
  Finset.filter_subset_filter _ h

/-- A new member counts in its class. -/
theorem card_ofClass_insert (h : i ∉ S) :
    (ofClass cls (insert i S) c).card = (ofClass cls S c).card + if cls i = c then 1 else 0 := by
  unfold ofClass
  rw [Finset.filter_insert]
  split_ifs with hc
  · rw [Finset.card_insert_of_notMem fun hi => h (Finset.mem_of_mem_filter i hi)]
  · rfl

theorem getD_seen (h : i < k) : (seen k S).getD i false = decide (i ∈ S) := by
  simp [seen, List.getD_eq_getElem?_getD, h]

theorem getD_counts (h : c < n) : (counts cls n S).getD c 0 = ((ofClass cls S c).card : ℤ) := by
  simp [counts, List.getD_eq_getElem?_getD, h]

theorem seen_empty : seen k ∅ = List.replicate k false := by
  refine List.ext_getElem (by simp [seen]) fun j _ _ => ?_
  simp [seen]

theorem counts_empty : counts cls n ∅ = List.replicate n 0 := by
  refine List.ext_getElem (by simp [counts]) fun j _ _ => ?_
  simp [counts, ofClass]

/-- Marking a number adds it to the set. -/
theorem set_seen : (seen k S).set i true = seen k (insert i S) := by
  refine List.ext_getElem (by simp [seen]) fun j _ _ => ?_
  rw [List.getElem_set]
  split_ifs with hij
  · simp [seen, hij]
  · simp [seen, Ne.symm hij]

/-- One more in the class of a number adds it to the set. -/
theorem modify_counts (h : i ∉ S) :
    (counts cls n S).modify (cls i) (· + 1) = counts cls n (insert i S) := by
  refine List.ext_getElem (by simp [counts]) fun j _ _ => ?_
  rw [List.getElem_modify]
  simp only [counts, List.getElem_map, List.getElem_range, card_ofClass_insert h]
  split_ifs <;> simp

end Tally
