import Mathlib.Data.List.GetD
import Mathlib.Data.List.Sort

/-!
# Logs replayed with checkpoints

A state advances by events, and a step may fail.  `checkpoints x log` holds the states after each
event of a log replayed from `x`, `replay x log` the last of them.  A store that keeps the
checkpoints of its log replays only what follows a changed event: the lemmas say how checkpoints
split with the log (`checkpoints_append`), and that an event inserted at its place keeps a log in
order (`ordered_insert`).
-/

namespace Checkpoints

variable {σ ε : Type*} (step : σ → ε → Option σ)

/-- The states after each event, when no step fails. -/
def checkpoints (x : σ) : List ε → Option (List σ)
  | [] => some []
  | e :: log => (step x e).bind fun y => (checkpoints y log).map (y :: ·)

/-- The state after the whole log, when no step fails. -/
def replay (x : σ) (log : List ε) : Option σ :=
  (checkpoints step x log).map (·.getLastD x)

variable {step} {x y : σ} {e : ε} {log log' : List ε} {ys zs : List σ} {n : ℕ}

theorem checkpoints_cons_eq_some : checkpoints step x (e :: log) = some zs ↔
    ∃ y ys, step x e = some y ∧ checkpoints step y log = some ys ∧ zs = y :: ys := by
  rw [checkpoints, Option.bind_eq_some_iff]
  constructor
  · rintro ⟨y, hy, h⟩
    obtain ⟨ys, hys, rfl⟩ := Option.map_eq_some_iff.mp h
    exact ⟨y, ys, hy, hys, rfl⟩
  · rintro ⟨y, ys, hy, hys, rfl⟩
    exact ⟨y, hy, by rw [hys]; rfl⟩

theorem getLastD_append (x : σ) (ys zs : List σ) :
    (ys ++ zs).getLastD x = zs.getLastD (ys.getLastD x) := by
  induction ys generalizing x with
  | nil => rfl
  | cons y ys ih => rw [List.cons_append, List.getLastD_cons, List.getLastD_cons, ih]

theorem length_checkpoints (h : checkpoints step x log = some ys) : ys.length = log.length := by
  induction log generalizing x ys with
  | nil =>
    cases h
    rfl
  | cons e log ih =>
    obtain ⟨y, zs, -, hzs, rfl⟩ := checkpoints_cons_eq_some.mp h
    rw [List.length_cons, List.length_cons, ih hzs]

/-- **Checkpoints of a joined log.**  The second part is replayed from the last checkpoint of the
first. -/
theorem checkpoints_append : checkpoints step x (log ++ log') = some zs ↔
    ∃ ys ys', checkpoints step x log = some ys ∧
      checkpoints step (ys.getLastD x) log' = some ys' ∧ zs = ys ++ ys' := by
  induction log generalizing x zs with
  | nil => simp [checkpoints]
  | cons e log ih =>
    rw [List.cons_append, checkpoints_cons_eq_some]
    constructor
    · rintro ⟨y, zs, hy, hzs, rfl⟩
      obtain ⟨ys, ys', hys, hys', rfl⟩ := ih.mp hzs
      refine ⟨y :: ys, ys', checkpoints_cons_eq_some.mpr ⟨y, ys, hy, hys, rfl⟩, ?_, rfl⟩
      rwa [List.getLastD_cons]
    · rintro ⟨ys, ys', hys, hys', rfl⟩
      obtain ⟨y, ys, hy, hrest, rfl⟩ := checkpoints_cons_eq_some.mp hys
      rw [List.getLastD_cons] at hys'
      exact ⟨y, ys ++ ys', hy, ih.mpr ⟨ys, ys', hrest, hys', rfl⟩, rfl⟩

theorem checkpoints_take (h : checkpoints step x log = some ys) (n : ℕ) :
    checkpoints step x (log.take n) = some (ys.take n) := by
  rw [← List.take_append_drop n log] at h
  obtain ⟨zs, zs', hzs, hzs', rfl⟩ := checkpoints_append.mp h
  rw [hzs]
  have hlen := length_checkpoints hzs
  rcases Nat.le_total n log.length with hn | hn
  · rw [List.length_take, Nat.min_eq_left hn] at hlen
    rw [List.take_append_of_le_length hlen.ge, List.take_of_length_le hlen.le]
  · rw [List.drop_of_length_le hn] at hzs'
    cases hzs'
    rw [List.append_nil, List.take_of_length_le]
    rw [hlen, List.length_take]
    exact Nat.min_le_left _ _

theorem checkpoints_drop (h : checkpoints step x log = some ys) (n : ℕ) :
    checkpoints step ((ys.take n).getLastD x) (log.drop n) = some (ys.drop n) := by
  have htake := checkpoints_take h n
  rw [← List.take_append_drop n log] at h
  obtain ⟨zs, zs', hzs, hzs', heq⟩ := checkpoints_append.mp h
  obtain rfl := Option.some.inj (htake.symm.trans hzs)
  rw [hzs', List.append_cancel_left ((List.take_append_drop n ys).trans heq)]

theorem replay_eq_some : replay step x log = some y ↔
    ∃ ys, checkpoints step x log = some ys ∧ ys.getLastD x = y :=
  Option.map_eq_some_iff

theorem replay_nil : replay step x [] = some x := rfl

theorem replay_append :
    replay step x (log ++ log') = (replay step x log).bind fun y => replay step y log' := by
  refine Option.ext fun z => ?_
  rw [Option.bind_eq_some_iff, replay_eq_some]
  constructor
  · rintro ⟨zs, hzs, rfl⟩
    obtain ⟨ys, ys', hys, hys', rfl⟩ := checkpoints_append.mp hzs
    exact ⟨ys.getLastD x, replay_eq_some.mpr ⟨ys, hys, rfl⟩,
      replay_eq_some.mpr ⟨ys', hys', (getLastD_append ..).symm⟩⟩
  · rintro ⟨y, hy, hz⟩
    obtain ⟨ys, hys, rfl⟩ := replay_eq_some.mp hy
    obtain ⟨ys', hys', rfl⟩ := replay_eq_some.mp hz
    exact ⟨ys ++ ys', checkpoints_append.mpr ⟨ys, ys', hys, hys', rfl⟩,
      getLastD_append ..⟩

/-- The checkpoint of an event is the replay of the log through it. -/
theorem getElem?_checkpoints (h : checkpoints step x log = some ys) (hn : n < log.length) :
    ys[n]? = replay step x (log.take (n + 1)) := by
  rw [replay, checkpoints_take h, Option.map_some]
  have hn' : n < ys.length := by rwa [length_checkpoints h]
  rw [List.getElem?_eq_getElem hn', List.take_succ_eq_append_getElem hn', getLastD_append]
  rfl

/-- Events the steps do not tell apart. -/
theorem checkpoints_map {f : ε → ε} (hf : ∀ x e, step x (f e) = step x e) :
    checkpoints step x (log.map f) = checkpoints step x log := by
  induction log generalizing x with
  | nil => rfl
  | cons e log ih =>
    rw [List.map_cons, checkpoints, checkpoints, hf]
    exact Option.bind_congr fun y _ => by rw [ih]

/-! ### Insertion in order -/

section Ordered

variable {κ : Type*} [LinearOrder κ] (key : ε → κ)

/-- The place of the first event after `e`. -/
def upperBound (e : ε) (log : List ε) : ℕ :=
  log.findIdx fun m => key e < key m

/-- The events in the order of their keys, which are distinct. -/
def Ordered (log : List ε) : Prop := log.Pairwise fun a b => key a < key b

variable {key}

theorem upperBound_le_length : upperBound key e log ≤ log.length := List.findIdx_le_length

theorem key_le_of_mem_take {m : ε} (hm : m ∈ log.take (upperBound key e log)) : key m ≤ key e := by
  obtain ⟨i, hi, rfl⟩ := List.mem_take_iff_getElem.mp hm
  have hlt : i < log.findIdx fun m => key e < key m := lt_of_lt_of_le hi (Nat.min_le_left _ _)
  have := List.not_of_lt_findIdx hlt
  simpa using this

theorem key_lt_of_mem_drop (hlog : Ordered key log) {m : ε}
    (hm : m ∈ log.drop (upperBound key e log)) : key e < key m := by
  obtain ⟨i, hi, rfl⟩ := List.mem_drop_iff_getElem.mp hm
  have hlt : upperBound key e log < log.length := by omega
  have hfirst : key e < key log[upperBound key e log] :=
    of_decide_eq_true (List.findIdx_getElem (w := hlt))
  rcases Nat.eq_zero_or_pos i with rfl | hpos
  · exact hfirst
  · exact hfirst.trans (List.pairwise_iff_getElem.mp hlog _ _ _ _ (by omega))

/-- **An event inserted at its upper bound keeps the log in order.** -/
theorem ordered_insert (hlog : Ordered key log) (hne : ∀ m ∈ log, key m ≠ key e) :
    Ordered key (log.take (upperBound key e log) ++ e :: log.drop (upperBound key e log)) := by
  refine List.pairwise_append.mpr ⟨hlog.take, List.pairwise_cons.mpr ⟨?_, hlog.drop⟩, ?_⟩
  · exact fun m hm => key_lt_of_mem_drop hlog hm
  · intro a ha b hb
    have hlt := (key_le_of_mem_take ha).lt_of_ne (hne a (List.mem_of_mem_take ha))
    rcases List.mem_cons.mp hb with rfl | hb
    · exact hlt
    · exact hlt.trans (key_lt_of_mem_drop hlog hb)

theorem insertIdx_eq (e : ε) (hn : n ≤ log.length) :
    log.insertIdx n e = log.take n ++ e :: log.drop n := by
  induction n generalizing log with
  | zero => rfl
  | succ n ih =>
    cases log with
    | nil => cases hn
    | cons m log =>
      rw [List.insertIdx_succ_cons, ih (Nat.le_of_succ_le_succ hn)]
      rfl

theorem perm_insert (e : ε) (log : List ε) (n : ℕ) :
    (log.take n ++ e :: log.drop n).Perm (e :: log) := by
  have hperm : (log.take n ++ e :: log.drop n).Perm (e :: (log.take n ++ log.drop n)) :=
    List.perm_middle
  rwa [List.take_append_drop] at hperm

/-- Logs of the same events in order are the same. -/
theorem eq_of_perm (hperm : log.Perm log') (hlog : Ordered key log) (hlog' : Ordered key log') :
    log = log' :=
  List.Perm.eq_of_pairwise (fun _ _ _ _ hab hba => absurd (hab.trans hba) (lt_irrefl _)) hlog hlog'
    hperm

/-- The events in the order of their keys. -/
def inOrder (key : ε → κ) (log : List ε) : List ε :=
  log.insertionSort fun a b => key a ≤ key b

/-- Events in order with distinct keys are what sorting them gives. -/
theorem eq_inOrder (hperm : log.Perm log') (hlog : Ordered key log) : log = inOrder key log' := by
  have hsorted : (inOrder key log').Perm log' := List.perm_insertionSort _ _
  refine eq_of_perm (hperm.trans hsorted.symm) hlog ?_
  have hle : (inOrder key log').Pairwise fun a b => key a ≤ key b :=
    List.pairwise_insertionSort _ _
  have hne : (inOrder key log').Pairwise fun a b => key a ≠ key b := by
    refine ((hperm.trans hsorted.symm).pairwise_iff fun hab => hab.symm).mp ?_
    exact hlog.imp fun hab => hab.ne
  exact hle.imp₂ (fun _ _ hle hne => hle.lt_of_ne hne) hne

/-- The events below a bound are the first ones. -/
theorem filter_eq_take (hlog : Ordered key log) {p : ε → Bool}
    (hp : ∀ a b, key a < key b → p b = true → p a = true) :
    log.filter p = log.take (log.findIdx fun e => !p e) := by
  rw [← List.takeWhile_eq_take_findIdx_not]
  induction log with
  | nil => rfl
  | cons e log ih =>
    obtain ⟨hfirst, hrest⟩ := List.pairwise_cons.mp hlog
    cases he : p e with
    | true => rw [List.filter_cons_of_pos he, List.takeWhile_cons_of_pos he, ih hrest]
    | false =>
      rw [List.filter_cons_of_neg (by simp [he]), List.takeWhile_cons_of_neg (by simp [he]),
        List.filter_eq_nil_iff]
      intro m hm hpm
      rw [hp e m (hfirst m hm) hpm] at he
      cases he

end Ordered

end Checkpoints
