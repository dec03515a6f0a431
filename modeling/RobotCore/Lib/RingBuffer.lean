import Mathlib.Data.List.Basic
import Mathlib.Data.List.Range
import Mathlib.Data.Nat.ModEq

/-!
# Ring buffers

A `RingBuffer α n` keeps at most `n` elements in `n` slots, from `head` on.  What it holds is
`toList`; `toList_push`, `toList_clear` and `drain_spec` say what the operations do to it.  A full
ring forgets its oldest element.
-/

/-- A ring of `n` slots of which `size` are in use, from `head` on. -/
structure RingBuffer (α : Type*) (n : ℕ) where
  slots : Vector α n
  head : ℕ
  size : ℕ
  head_lt : head < n
  size_le : size ≤ n

namespace RingBuffer

variable {α : Type*} {n : ℕ}

/-- The slot of the element at a position. -/
def slot (r : RingBuffer α n) (i : ℕ) : ℕ := (r.head + i) % n

theorem slot_lt (r : RingBuffer α n) (i : ℕ) : r.slot i < n :=
  Nat.mod_lt _ (Nat.zero_lt_of_lt r.head_lt)

def get (r : RingBuffer α n) (i : ℕ) : α := r.slots.get ⟨r.slot i, r.slot_lt i⟩

/-- The elements, oldest first. -/
def toList (r : RingBuffer α n) : List α := (List.range r.size).map r.get

@[simp] theorem length_toList (r : RingBuffer α n) : r.toList.length = r.size := by
  simp [toList]

theorem toList_eq_nil_iff (r : RingBuffer α n) : r.toList = [] ↔ r.size = 0 := by
  rw [← List.length_eq_zero_iff, length_toList]

/-- The empty ring. -/
def empty (x : α) (h : 0 < n) : RingBuffer α n := ⟨Vector.replicate n x, 0, 0, h, Nat.zero_le _⟩

@[simp] theorem toList_empty (x : α) (h : 0 < n) : (empty x h).toList = [] := rfl

/-- Nothing is kept. -/
def clear (r : RingBuffer α n) : RingBuffer α n :=
  { r with head := 0, size := 0, head_lt := Nat.zero_lt_of_lt r.head_lt, size_le := Nat.zero_le _ }

@[simp] theorem toList_clear (r : RingBuffer α n) : r.clear.toList = [] := rfl

/-- The oldest element is dropped. -/
def dropOldest (r : RingBuffer α n) : RingBuffer α n :=
  { r with
    head := (r.head + 1) % n
    size := r.size - 1
    head_lt := Nat.mod_lt _ (Nat.zero_lt_of_lt r.head_lt)
    size_le := (Nat.sub_le _ _).trans r.size_le }

theorem get_dropOldest (r : RingBuffer α n) (i : ℕ) : r.dropOldest.get i = r.get (i + 1) := by
  have hslot : r.dropOldest.slot i = r.slot (i + 1) := by
    show ((r.head + 1) % n + i) % n = (r.head + (i + 1)) % n
    rw [Nat.mod_add_mod]
    congr 1
    omega
  simp only [get, hslot]
  rfl

/-- A ring that is not empty, from its oldest element on. -/
theorem toList_eq_cons (r : RingBuffer α n) (h : 0 < r.size) :
    r.toList = r.get 0 :: r.dropOldest.toList := by
  obtain ⟨m, hm⟩ := Nat.exists_eq_add_of_lt h
  have hsize : r.dropOldest.size = m := by
    show r.size - 1 = m
    omega
  have hr : r.size = m + 1 := by omega
  unfold toList
  rw [hsize, hr, List.range_succ_eq_map, List.map_cons, List.map_map]
  congr 1
  apply List.map_congr_left
  intro i _
  exact (r.get_dropOldest i).symm

/-- The new element goes behind the newest one. -/
def append (r : RingBuffer α n) (x : α) (h : r.size < n) : RingBuffer α n :=
  { r with
    slots := r.slots.set (r.slot r.size) x (r.slot_lt _)
    size := r.size + 1
    size_le := h }

/-- Positions below the size have slots of their own. -/
theorem slot_ne (r : RingBuffer α n) {i j : ℕ} (hij : i < j) (hj : j < n) :
    r.slot i ≠ r.slot j := by
  intro h
  have hmod : Nat.ModEq n (r.head + i) (r.head + j) := h
  have heq := (Nat.ModEq.add_left_cancel' _ hmod).eq_of_lt_of_lt (hij.trans hj) hj
  omega

theorem toList_append (r : RingBuffer α n) (x : α) (h : r.size < n) :
    (r.append x h).toList = r.toList ++ [x] := by
  have hslot (i : ℕ) : (r.append x h).slot i = r.slot i := rfl
  have hold (i : ℕ) (hi : i ∈ List.range r.size) : (r.append x h).get i = r.get i := by
    have hne := r.slot_ne (List.mem_range.mp hi) h
    show (r.slots.set (r.slot r.size) x (r.slot_lt _)).get ⟨r.slot i, _⟩ = _
    exact Vector.getElem_set_ne _ _ hne.symm
  have hnew : (r.append x h).get r.size = x := by
    show (r.slots.set (r.slot r.size) x (r.slot_lt _)).get ⟨r.slot r.size, _⟩ = _
    exact Vector.getElem_set_self _
  have hsize : (r.append x h).size = r.size + 1 := rfl
  unfold toList
  rw [hsize, List.range_succ, List.map_append, List.map_congr_left hold, List.map_singleton, hnew]

/-- A new element; a full ring forgets the oldest one. -/
def push (r : RingBuffer α n) (x : α) : RingBuffer α n :=
  if h : r.size = n then
    r.dropOldest.append x (by
      have := Nat.zero_lt_of_lt r.head_lt
      show r.size - 1 < n
      omega)
  else r.append x (lt_of_le_of_ne r.size_le h)

theorem toList_push (r : RingBuffer α n) (x : α) (h : r.size < n) :
    (r.push x).toList = r.toList ++ [x] := by
  unfold push
  rw [dif_neg h.ne]
  exact r.toList_append x h

/-- The oldest elements are taken out one by one. -/
def take : ℕ → RingBuffer α n → List α × RingBuffer α n
  | 0, r => ([], r)
  | k + 1, r =>
    let rest := take k r.dropOldest
    (r.get 0 :: rest.1, rest.2)

/-- All elements are taken out, oldest first. -/
def drain (r : RingBuffer α n) : List α × RingBuffer α n := take r.size r

theorem take_spec {k : ℕ} {r : RingBuffer α n} (h : r.size = k) :
    (take k r).1 = r.toList ∧ (take k r).2.toList = [] := by
  induction k generalizing r with
  | zero =>
    have hnil := r.toList_eq_nil_iff.mpr h
    exact ⟨hnil.symm, hnil⟩
  | succ k ih =>
    have hsize : r.dropOldest.size = k := by
      show r.size - 1 = k
      omega
    have hrest := ih hsize
    rw [r.toList_eq_cons (by omega), ← hrest.1]
    exact ⟨rfl, hrest.2⟩

theorem drain_spec (r : RingBuffer α n) : r.drain.1 = r.toList ∧ r.drain.2.toList = [] :=
  take_spec rfl

end RingBuffer
