import RobotCore.Lib.LossyLink

/-!
# Chains of links

Two links in a row: the consumer of the first is the producer of the second.  A run of the chain is
a run of the first link through `LossyLink.producer_run`, and of the second through `chain_run`;
`producer?_second?` says that both see the same of the machine between them.
-/

open Machine

/-- A split of what is seen of a list is a split of the list. -/
theorem List.filterMap_eq_append_cons {α β : Type*} {f : α → Option β} {l : List α} {b : β}
    {newer older : List β} (h : l.filterMap f = newer ++ b :: older) :
    ∃ newer' a older', l = newer' ++ a :: older' ∧ f a = some b ∧
      newer'.filterMap f = newer ∧ older'.filterMap f = older := by
  obtain ⟨first, rest, rfl, hfirst, hrest⟩ := List.filterMap_eq_append_iff.mp h
  obtain ⟨skipped, a, older', rfl, hskipped, ha, holder⟩ := List.filterMap_eq_cons_iff.mp hrest
  refine ⟨first ++ skipped, a, older', by simp, ha, ?_, holder⟩
  rw [List.filterMap_append, hfirst, List.filterMap_eq_nil_iff.mpr hskipped, List.append_nil]

theorem List.findSome?_filterMap {α β γ : Type*} (f : α → Option β) (g : β → Option γ)
    (l : List α) : (l.filterMap f).findSome? g = l.findSome? fun a => (f a).bind g := by
  rw [← List.head?_filterMap, List.filterMap_filterMap, List.head?_filterMap]

namespace LossyLink

variable {σ ι ω τ κ ο μ δ τ' κ' ο' μ' δ' : Type*}

/-- The first link with the second behind it. -/
def chain (K : LossyLink σ ι ω τ κ ο μ δ) (L : LossyLink τ κ ο τ' κ' ο' μ' δ') :
    LossyLink (State σ τ μ) (Input ι κ δ) (ω ⊕ ο) τ' κ' ο' μ' δ' where
  producer := K.machine
  consumer := L.consumer
  publishes := Sum.elim (fun _ => none) L.publishes
  arrival := L.arrival
  ownInput := L.ownInput

/-- The state of the second link. -/
def second (s : State (State σ τ μ) τ' μ') : State τ τ' μ' :=
  ⟨s.producer.consumer, s.consumer, s.sent, s.next⟩

/-- A transition as the first link sees it. -/
abbrev first? (x : Transition (State (State σ τ μ) τ' μ') (Input (Input ι κ δ) κ' δ')
    ((ω ⊕ ο) ⊕ ο')) : Option (Transition (State σ τ μ) (Input ι κ δ) (ω ⊕ ο)) := producer? x

/-- A transition as the second link sees it. -/
def second? (arrival : δ → μ → κ) (x : Transition (State (State σ τ μ) τ' μ')
    (Input (Input ι κ δ) κ' δ') ((ω ⊕ ο) ⊕ ο')) :
    Option (Transition (State τ τ' μ') (Input κ κ' δ') (ο ⊕ ο')) :=
  match x.input, x.output with
  | .produce _, .inl _ => ((first? x).bind (consumer? arrival)).map fun y =>
      ⟨second x.pre, .produce y.input, .inl y.output, second x.post⟩
  | .deliver index circumstances, .inr output =>
    some ⟨second x.pre, .deliver index circumstances, .inr output, second x.post⟩
  | .consume input, .inr output =>
    some ⟨second x.pre, .consume input, .inr output, second x.post⟩
  | _, _ => none

variable {K : LossyLink σ ι ω τ κ ο μ δ} {L : LossyLink τ κ ο τ' κ' ο' μ' δ'}
  {s : State (State σ τ μ) τ' μ'}
  {x : Transition (State (State σ τ μ) τ' μ') (Input (Input ι κ δ) κ' δ') ((ω ⊕ ο) ⊕ ο')}
  {tr : History (State (State σ τ μ) τ' μ') (Input (Input ι κ δ) κ' δ') ((ω ⊕ ο) ⊕ ο')}

/-- A step of the chain is none of the second link, or one. -/
theorem second_of_rule (hjoint : L.producer = K.consumer) (h : (K.chain L).Rule x) :
    (second? K.arrival x = none ∧ second x.post = second x.pre) ∨
      ∃ y, second? K.arrival x = some y ∧ y.pre = second x.pre ∧ y.post = second x.post ∧
        L.machine.step y.pre y.input = some (y.post, y.output) := by
  cases h with
  | @produced s input producer output hstep =>
    have hrule : K.Rule ⟨s.producer, input, output, producer⟩ := rule_of_step hstep
    cases hrule with
    | produced _ =>
      refine Or.inl ⟨rfl, ?_⟩
      change State.mk _ _ (s.sent ++ []) _ = _
      rw [List.append_nil]
      rfl
    | delivered hle hsent hconsumer =>
      rw [← hjoint] at hconsumer
      have hsecond := step_of_rule (.produced hconsumer (s := second s))
      refine Or.inr ⟨_, ?_, rfl, rfl, hsecond⟩
      simp only [second?, first?, producer?, Option.bind_some, consumer?, hsent]
      rfl
    | consumed hown hconsumer =>
      refine Or.inr ⟨_, rfl, rfl, rfl, ?_⟩
      rw [← hjoint] at hconsumer
      exact step_of_rule (.produced hconsumer)
  | delivered hle hsent hstep =>
    exact Or.inr ⟨_, rfl, rfl, rfl, step_of_rule (.delivered hle hsent hstep)⟩
  | consumed hown hstep =>
    exact Or.inr ⟨_, rfl, rfl, rfl, step_of_rule (.consumed hown hstep)⟩

/-- A transition as the consumer sees it has the states of the consumer. -/
theorem states_of_consumer? {arrival : δ → μ → κ}
    {x : Transition (State σ τ μ) (Input ι κ δ) (ω ⊕ ο)} {y : Transition τ κ ο}
    (h : consumer? arrival x = some y) : y.pre = x.pre.consumer ∧ y.post = x.post.consumer := by
  unfold consumer? at h
  split at h
  · obtain ⟨-, -, rfl⟩ := Option.map_eq_some_iff.mp h
    exact ⟨rfl, rfl⟩
  · obtain rfl := Option.some.inj h
    exact ⟨rfl, rfl⟩
  · cases h

/-- **The middle.**  Both links see the same of the machine between them. -/
theorem producer?_second? (arrival : δ → μ → κ) :
    (second? arrival x).bind producer? = (first? x).bind (consumer? arrival) := by
  obtain ⟨pre, input, output, post⟩ := x
  cases input with
  | produce input =>
    cases output with
    | inl output =>
      change (Option.map _ (consumer? arrival _)).bind _ = consumer? arrival _
      cases hmiddle : consumer? arrival ⟨pre.producer, input, output, post.producer⟩ with
      | none => rfl
      | some y =>
        obtain ⟨hpre, hpost⟩ := states_of_consumer? hmiddle
        obtain ⟨ypre, yinput, youtput, ypost⟩ := y
        obtain ⟨rfl, rfl⟩ : ypre = pre.producer.consumer ∧ ypost = post.producer.consumer :=
          ⟨hpre, hpost⟩
        rfl
    | inr output => rfl
  | deliver index circumstances => cases output <;> rfl
  | consume input => cases output <;> rfl

theorem pre_of_second? {arrival : δ → μ → κ}
    {y : Transition (State τ τ' μ') (Input κ κ' δ') (ο ⊕ ο')} (h : second? arrival x = some y) :
    y.pre = second x.pre := by
  unfold second? at h
  split at h
  · obtain ⟨-, -, rfl⟩ := Option.map_eq_some_iff.mp h
    rfl
  · obtain rfl := Option.some.inj h
    rfl
  · obtain rfl := Option.some.inj h
    rfl
  · cases h

/-- Both see the deliveries of the second link. -/
theorem delivery?_of_second? {arrival : δ → μ → κ}
    {y : Transition (State τ τ' μ') (Input κ κ' δ') (ο ⊕ ο')} (h : second? arrival x = some y) :
    delivery? x = delivery? y := by
  unfold second? at h
  split at h
  · rename_i hinput _
    obtain ⟨z, -, rfl⟩ := Option.map_eq_some_iff.mp h
    unfold delivery?
    rw [hinput]
  · rename_i hinput _
    obtain rfl := Option.some.inj h
    unfold delivery?
    rw [hinput]
    rfl
  · rename_i hinput _
    obtain rfl := Option.some.inj h
    unfold delivery?
    rw [hinput]
  · cases h

/-- **The second link.**  A run of the chain is seen as a run of its second link. -/
theorem chain_run (hjoint : L.producer = K.consumer) (h : (K.chain L).machine.Run tr s) :
    L.machine.Run (tr.filterMap (second? K.arrival)) (second s) := by
  refine h.filterMap second (second? K.arrival) ?_ fun x hx =>
    second_of_rule hjoint (rule_of_step hx)
  change State.mk K.consumer.init L.consumer.init [] 0 =
    State.mk L.producer.init L.consumer.init [] 0
  rw [hjoint]

end LossyLink
