import RobotCore.Lib.Machine

/-!
# Lossy links

A producer and a consumer, joined by a link that keeps the order of the messages and may lose any
of them.  The link is the log of what was published together with the place after the last
delivery: a delivery hands over any later message, and those it skips are lost.

* `producer_run` and `consumer_run`: each side of a run is a run of its own machine.
* `published_after`: a message that was not in the log at some point was published since, at the
  place in the log at which it is delivered.
* `index_lt_of_deliveries`: messages are delivered in the order of publication, each at most once.
-/

open Machine

/-- A producer, a consumer, and what passes between them. -/
structure LossyLink (σ ι ω τ κ ο μ δ : Type*) where
  producer : Machine σ ι ω
  consumer : Machine τ κ ο
  /-- the message an output of the producer publishes -/
  publishes : ω → Option μ
  /-- the input that is the arrival of a message, in the circumstances of the delivery -/
  arrival : δ → μ → κ
  /-- the inputs of the consumer that are not arrivals -/
  ownInput : κ → Bool

namespace LossyLink

variable {σ ι ω τ κ ο μ δ : Type*}

/-- Both sides, the log of the link, and the place after the last delivery. -/
structure State (σ τ μ : Type*) where
  producer : σ
  consumer : τ
  sent : List μ
  next : ℕ

inductive Input (ι κ δ : Type*) where
  | produce (input : ι)
  | deliver (index : ℕ) (circumstances : δ)
  | consume (input : κ)

def step (L : LossyLink σ ι ω τ κ ο μ δ) (s : State σ τ μ) :
    Input ι κ δ → Option (State σ τ μ × (ω ⊕ ο))
  | .produce input =>
    (L.producer.step s.producer input).map fun (producer, output) =>
      ({ s with producer := producer, sent := s.sent ++ (L.publishes output).toList }, .inl output)
  | .deliver index circumstances =>
    if s.next ≤ index then
      s.sent[index]?.bind fun message =>
        (L.consumer.step s.consumer (L.arrival circumstances message)).map fun (consumer, output) =>
          ({ s with consumer := consumer, next := index + 1 }, .inr output)
    else none
  | .consume input =>
    if L.ownInput input then
      (L.consumer.step s.consumer input).map fun (consumer, output) =>
        ({ s with consumer := consumer }, .inr output)
    else none

/-- Both machines and the link between them, in any interleaving. -/
def machine (L : LossyLink σ ι ω τ κ ο μ δ) :
    Machine (State σ τ μ) (Input ι κ δ) (ω ⊕ ο) where
  init := ⟨L.producer.init, L.consumer.init, [], 0⟩
  step := L.step

/-! ### The two sides of a transition -/

/-- A transition as the producer sees it. -/
def producer? (x : Transition (State σ τ μ) (Input ι κ δ) (ω ⊕ ο)) : Option (Transition σ ι ω) :=
  match x.input, x.output with
  | .produce input, .inl output => some ⟨x.pre.producer, input, output, x.post.producer⟩
  | _, _ => none

/-- The place and the message of a delivery. -/
def delivery? (x : Transition (State σ τ μ) (Input ι κ δ) (ω ⊕ ο)) : Option (ℕ × μ) :=
  match x.input with
  | .deliver index _ => x.pre.sent[index]?.map fun message => (index, message)
  | _ => none

/-- A transition as the consumer sees it. -/
def consumer? (arrival : δ → μ → κ)
    (x : Transition (State σ τ μ) (Input ι κ δ) (ω ⊕ ο)) : Option (Transition τ κ ο) :=
  match x.input, x.output with
  | .deliver index circumstances, .inr output =>
    x.pre.sent[index]?.map fun message =>
      ⟨x.pre.consumer, arrival circumstances message, output, x.post.consumer⟩
  | .consume input, .inr output => some ⟨x.pre.consumer, input, output, x.post.consumer⟩
  | _, _ => none

/-- The transitions of a link. -/
inductive Rule (L : LossyLink σ ι ω τ κ ο μ δ) :
    Transition (State σ τ μ) (Input ι κ δ) (ω ⊕ ο) → Prop
  | produced {s input producer output}
      (step : L.producer.step s.producer input = some (producer, output)) :
      Rule L ⟨s, .produce input, .inl output,
        { s with producer := producer, sent := s.sent ++ (L.publishes output).toList }⟩
  | delivered {s index circumstances message consumer output} (le : s.next ≤ index)
      (sent : s.sent[index]? = some message)
      (step : L.consumer.step s.consumer (L.arrival circumstances message)
        = some (consumer, output)) :
      Rule L ⟨s, .deliver index circumstances, .inr output,
        { s with consumer := consumer, next := index + 1 }⟩
  | consumed {s input consumer output} (own : L.ownInput input = true)
      (step : L.consumer.step s.consumer input = some (consumer, output)) :
      Rule L ⟨s, .consume input, .inr output, { s with consumer := consumer }⟩

variable {L : LossyLink σ ι ω τ κ ο μ δ} {s : State σ τ μ} {m : μ} {n : ℕ}
  {x y : Transition (State σ τ μ) (Input ι κ δ) (ω ⊕ ο)}
  {tr after before : History (State σ τ μ) (Input ι κ δ) (ω ⊕ ο)}

/-- Every step is one of the three. -/
theorem rule_of_step (h : L.machine.step x.pre x.input = some (x.post, x.output)) : L.Rule x := by
  obtain ⟨pre, input, output, post⟩ := x
  change L.step pre input = some (post, output) at h
  unfold step at h
  cases input with
  | produce input =>
    obtain ⟨⟨producer, output⟩, hstep, heq⟩ := Option.map_eq_some_iff.mp h
    obtain ⟨rfl, rfl⟩ := Prod.mk.inj heq
    exact .produced hstep
  | deliver index circumstances =>
    dsimp only at h
    split_ifs at h with hle
    obtain ⟨message, hsent, h⟩ := Option.bind_eq_some_iff.mp h
    obtain ⟨⟨consumer, output⟩, hstep, heq⟩ := Option.map_eq_some_iff.mp h
    obtain ⟨rfl, rfl⟩ := Prod.mk.inj heq
    exact .delivered hle hsent hstep
  | consume input =>
    dsimp only at h
    split_ifs at h with hown
    obtain ⟨⟨consumer, output⟩, hstep, heq⟩ := Option.map_eq_some_iff.mp h
    obtain ⟨rfl, rfl⟩ := Prod.mk.inj heq
    exact .consumed hown hstep

/-- Each of the three is a step. -/
theorem step_of_rule (h : L.Rule x) :
    L.machine.step x.pre x.input = some (x.post, x.output) := by
  change L.step x.pre x.input = some (x.post, x.output)
  cases h with
  | produced hstep =>
    unfold step
    dsimp only
    rw [hstep]
    rfl
  | delivered hle hsent hstep =>
    unfold step
    dsimp only
    rw [if_pos hle, hsent, Option.bind_some, hstep]
    rfl
  | consumed hown hstep =>
    unfold step
    dsimp only
    rw [if_pos hown, hstep]
    rfl

theorem rule_of_run (h : L.machine.Run (x :: tr) s) : L.Rule x := rule_of_step h.head_step

/-! ### The two sides of a run -/

/-- The producer's side of a run is a run of the producer. -/
theorem producer_run (h : L.machine.Run tr s) :
    L.producer.Run (tr.filterMap producer?) s.producer := by
  refine h.filterMap State.producer producer? rfl fun x hx => ?_
  cases rule_of_step hx with
  | produced step => exact Or.inr ⟨_, rfl, rfl, rfl, step⟩
  | delivered _ _ _ => exact Or.inl ⟨rfl, rfl⟩
  | consumed _ _ => exact Or.inl ⟨rfl, rfl⟩

/-- The consumer's side of a run is a run of the consumer. -/
theorem consumer_run (h : L.machine.Run tr s) :
    L.consumer.Run (tr.filterMap (consumer? L.arrival)) s.consumer := by
  refine h.filterMap State.consumer (consumer? L.arrival) rfl fun x hx => ?_
  cases rule_of_step hx with
  | produced _ => exact Or.inl ⟨rfl, rfl⟩
  | delivered _ sent step => exact Or.inr ⟨_, by simp only [consumer?, sent]; rfl, rfl, rfl, step⟩
  | consumed _ step => exact Or.inr ⟨_, rfl, rfl, rfl, step⟩

/-- What the producer does is no delivery. -/
theorem delivery?_of_producer? {z : Transition σ ι ω} (h : producer? x = some z) :
    delivery? x = none := by
  obtain ⟨pre, input, output, post⟩ := x
  cases input <;> cases output <;> first | rfl | cases h

/-- A step of the producer is none of the consumer. -/
theorem consumer?_of_producer? {arrival : δ → μ → κ} {z : Transition σ ι ω}
    (h : producer? x = some z) : consumer? arrival x = none := by
  obtain ⟨pre, input, output, post⟩ := x
  cases input <;> cases output <;> first | rfl | cases h

/-- A split of what one side sees is a split of the whole. -/
theorem split_of_filterMap {α β : Type*} {f : α → Option β} {l : List α} {b : β}
    {newer older : List β} (h : l.filterMap f = newer ++ b :: older) :
    ∃ newer' a older', l = newer' ++ a :: older' ∧ f a = some b := by
  obtain ⟨newer', rest, rfl, -, hrest⟩ := List.filterMap_eq_append_iff.mp h
  obtain ⟨skipped, a, older', rfl, -, ha, -⟩ := List.filterMap_eq_cons_iff.mp hrest
  exact ⟨newer' ++ skipped, a, older', by simp, ha⟩

/-! ### The log -/

/-- A step keeps the log, and what it adds is what the producer publishes. -/
theorem sent_of_rule (h : L.Rule x) : x.post.sent
    = x.pre.sent ++ (((producer? x).bind fun y => L.publishes y.output).toList) := by
  cases h with
  | produced _ => rfl
  | delivered _ _ _ => exact (List.append_nil _).symm
  | consumed _ _ => exact (List.append_nil _).symm

/-- The log only grows. -/
theorem sent_grows {s₀ : State σ τ μ} (h : L.machine.Run (after ++ before) s)
    (hbefore : L.machine.Run before s₀) : s₀.sent <+: s.sent := by
  induction after generalizing s with
  | nil =>
    rw [List.nil_append] at h
    cases h.state_unique hbefore
    exact List.prefix_rfl
  | cons y after ih =>
    rw [← h.head_post, sent_of_rule (rule_of_run h)]
    exact (ih h.tail).trans (List.prefix_append _ _)

/-- **What is beyond the log of a state was published after it**, at its own place in the log. -/
theorem published_after {s₀ : State σ τ μ} (h : L.machine.Run (after ++ before) s)
    (hbefore : L.machine.Run before s₀) (hn : s₀.sent.length ≤ n) (hm : s.sent[n]? = some m) :
    ∃ newer x older y, after = newer ++ x :: older ∧ x.pre.sent.length = n ∧
      producer? x = some y ∧ L.publishes y.output = some m := by
  induction after generalizing s with
  | nil =>
    rw [List.nil_append] at h
    obtain rfl := h.state_unique hbefore
    obtain ⟨hlt, -⟩ := List.getElem?_eq_some_iff.mp hm
    omega
  | cons x after ih =>
    -- Either the message was in the log before the newest step, or this step published it.
    cases hpre : x.pre.sent[n]? with
    | some m' =>
      have hsame : m' = m := by
        have hrun : L.machine.Run ([x] ++ (after ++ before)) s := h
        obtain ⟨rest, hrest⟩ := sent_grows hrun h.tail
        rw [← hrest, List.getElem?_append_left (List.getElem?_eq_some_iff.mp hpre).1, hpre] at hm
        exact Option.some.inj hm
      obtain ⟨newer, u, older, y, rfl, hy⟩ := ih h.tail (hsame ▸ hpre)
      exact ⟨x :: newer, u, older, y, rfl, hy⟩
    | none =>
      have hle := List.getElem?_eq_none_iff.mp hpre
      rw [← h.head_post, sent_of_rule (rule_of_run h), List.getElem?_append_right hle] at hm
      -- a step publishes one message at most, so it is the first beyond the log
      have hplace : x.pre.sent.length = n := by
        obtain ⟨hlt, -⟩ := List.getElem?_eq_some_iff.mp hm
        have hone := Option.length_toList_le (o := (producer? x).bind fun y => L.publishes y.output)
        omega
      have hmem := List.mem_of_getElem? hm
      rw [Option.mem_toList, Option.bind_eq_some_iff] at hmem
      obtain ⟨y, hy, hpublishes⟩ := hmem
      exact ⟨[], x, after, y, rfl, hplace, hy, hpublishes⟩

/-! ### Deliveries -/

/-- A delivery hands over a message of the log, not before the place of the last one. -/
theorem delivery_spec (h : L.Rule x) (hx : delivery? x = some (n, m)) :
    x.pre.sent[n]? = some m ∧ x.pre.next ≤ n ∧ x.post.next = n + 1 ∧
      ∃ circumstances output, consumer? L.arrival x
        = some ⟨x.pre.consumer, L.arrival circumstances m, output, x.post.consumer⟩ := by
  cases h with
  | produced _ => cases hx
  | consumed _ _ => cases hx
  | @delivered s index circumstances message consumer output le sent step =>
    obtain ⟨message', hmessage, heq⟩ := Option.map_eq_some_iff.mp hx
    obtain ⟨rfl, rfl⟩ := Prod.mk.inj heq
    refine ⟨hmessage, le, rfl, circumstances, output, ?_⟩
    simp only [consumer?, hmessage]
    rfl

/-- An arrival at the consumer is a delivery. -/
theorem delivery_of_consumer? {z : Transition τ κ ο} (h : L.Rule x)
    (hx : consumer? L.arrival x = some z) (hz : L.ownInput z.input = false) :
    ∃ n m circumstances, delivery? x = some (n, m) ∧ z.input = L.arrival circumstances m := by
  cases h with
  | produced _ => cases hx
  | consumed own _ =>
    obtain rfl := Option.some.inj hx
    rw [own] at hz
    cases hz
  | @delivered s index circumstances message consumer output le sent step =>
    refine ⟨index, message, circumstances, by simp only [delivery?, sent]; rfl, ?_⟩
    simp only [consumer?, sent, Option.map_some, Option.some.injEq] at hx
    rw [← hx]

/-- What was delivered lies before the place of the next delivery. -/
theorem index_lt_next (h : L.machine.Run tr s) :
    ∀ y ∈ tr, ∀ n m, delivery? y = some (n, m) → n < s.next := by
  refine h.invariant (I := fun tr s => ∀ y ∈ tr, ∀ n m, delivery? y = some (n, m) → n < s.next)
    (by simp) ?_
  intro tr s i s' o _ hi hstep y hy n m hn
  have hrule : L.Rule ⟨s, i, o, s'⟩ := rule_of_step hstep
  rcases List.mem_cons.mp hy with rfl | hy
  · obtain ⟨-, -, hnext, -⟩ := delivery_spec hrule hn
    dsimp only at hnext
    omega
  · have hold := hi y hy n m hn
    cases hrule with
    | produced _ => exact hold
    | consumed _ _ => exact hold
    | delivered le _ _ => exact Nat.lt_succ_of_lt (hold.trans_le le)

/-- **Order of deliveries.** -/
theorem index_lt_of_deliveries {n' : ℕ} {m' : μ} (h : L.machine.Run (x :: tr) s) (hy : y ∈ tr)
    (hny : delivery? y = some (n, m)) (hnx : delivery? x = some (n', m')) : n < n' :=
  (index_lt_next h.tail y hy n m hny).trans_le (delivery_spec (rule_of_run h) hnx).2.1

/-- A delivery of a message that a state had not yet in its log comes after it. -/
theorem after_of_index_le (h : L.machine.Run tr s) (htr : tr = after ++ x :: before)
    (hn : x.pre.sent.length ≤ n) (hx : delivery? x = none) {later older}
    (hy : tr = later ++ y :: older) (hny : delivery? y = some (n, m)) :
    ∃ mid, after = later ++ y :: mid ∧ older = mid ++ x :: before := by
  have hlt : n < y.pre.sent.length := by
    rw [hy] at h
    obtain ⟨hsent, -⟩ := delivery_spec (rule_of_run h.split) hny
    exact (List.getElem?_eq_some_iff.mp hsent).1
  rw [htr] at h hy
  rcases List.append_eq_append_iff.mp hy with ⟨c, rfl, hc⟩ | ⟨c, rfl, hc⟩
  · cases c with
    | nil =>
      obtain ⟨rfl, -⟩ := List.cons.inj hc
      rw [hx] at hny
      cases hny
    | cons z c =>
      -- The delivery is before `x`, but its message is not in the log there.
      obtain ⟨rfl, rfl⟩ := List.cons.inj hc
      have hrun : L.machine.Run (c ++ y :: older) x.pre := h.split.tail
      have hy := hrun.split.tail
      rw [List.append_cons] at hrun
      have hle := (sent_grows hrun hy).length_le
      omega
  · cases c with
    | nil =>
      obtain ⟨rfl, -⟩ := List.cons.inj hc
      rw [hx] at hny
      cases hny
    | cons z c =>
      obtain ⟨rfl, rfl⟩ := List.cons.inj hc
      exact ⟨c, rfl, rfl⟩

end LossyLink
