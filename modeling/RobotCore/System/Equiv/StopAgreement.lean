import RobotCore.Authority.Equiv.Safety
import RobotCore.Bridge.Equiv.Enable
import RobotCore.System.Node

/-!
# Stop agreement

`stop_agreement`: whatever the link loses, a frame is dispatched enabled only under a generation
the authority has created by accepting an arm request, and once the bridge has processed a command
published after a stop, only when such a request was accepted after the stop and the bridge has
accepted a disarmed command of an older generation and then an armed one of the new generation.

The bridge's side is the open arm barrier, the authority's side the last arm before an armed
command is published; the link gives their order.
-/

namespace RobotCore

open Machine LossyLink

variable {acfg : AuthorityConfig} {bcfg : BridgeConfig} {initialSession : UInt32} {s s₀ : System}
  {x y t : SystemTransition} {tr after before : SystemHistory} {m : ThrusterCommand} {n : ℕ}
  {g : UInt64}

/-- An accepted arm request creates the generation. -/
def createsGeneration (x : SystemTransition) (g : UInt64) : Bool :=
  (authority? x).any fun a => arms a && armAccepted a && a.post.armGeneration == g

/-- The command the bridge accepts. -/
def bridgeAccepts (bcfg : BridgeConfig) (x : SystemTransition) : Option ThrusterCommand :=
  (bridge? x).bind (acceptedCommand bcfg)

/-- In a part of a run the bridge has not reset its barrier, and every command delivered to it was
an armed one of the generation. -/
def ServesOnly (bcfg : BridgeConfig) (part : SystemHistory) (g : UInt64) : Prop :=
  ∀ w ∈ part, (bridge? w).any (resetsBarrier bcfg) = false ∧
    ∀ n m, LossyLink.delivery? w = some (n, m) → m.armed = true ∧ m.armGeneration = g

/-- Since `before` the authority has created the generation and the bridge has then accepted an
armed command of it.  Earlier the bridge had accepted a disarmed command of an older generation,
and since that one it has served no other generation than the new one: it may be older than
`before` only when nothing of another generation has reached the bridge since. -/
def Rearmed (bcfg : BridgeConfig) (after before : SystemHistory) (g : UInt64) : Prop :=
  ∃ newer y mid x older since z earlier armedCommand disarmedCommand,
    after = newer ++ y :: mid ++ x :: older ∧ createsGeneration x g = true ∧
    bridgeAccepts bcfg y = some armedCommand ∧ armedCommand.armed = true ∧
    armedCommand.armGeneration = g ∧
    mid ++ x :: older ++ before = since ++ z :: earlier ∧
    bridgeAccepts bcfg z = some disarmedCommand ∧ disarmedCommand.armed = false ∧
    SerialNumber.newer 64 g.toNat disarmedCommand.armGeneration.toNat ∧
    ServesOnly bcfg (newer ++ y :: since) g

/-! ### The authority's side -/

theorem authority_run (h : (systemMachine acfg bcfg initialSession).Run tr s) :
    (authorityMachine acfg).Run (tr.filterMap authority?) s.producer := producer_run h

theorem bridge_run (h : (systemMachine acfg bcfg initialSession).Run tr s) :
    (bridgeMachine bcfg initialSession).Run (tr.filterMap bridge?) s.consumer := consumer_run h

/-- An arm in a run is an accepted arm request that creates the generation. -/
theorem createsGeneration_of_arms {a : AuthorityTransition}
    (h : (systemMachine acfg bcfg initialSession).Run (x :: tr) s) (hx : authority? x = some a)
    (harms : arms a = true) : createsGeneration x a.post.armGeneration = true := by
  have hrun := authority_run h
  rw [List.filterMap_cons_some hx] at hrun
  obtain ⟨output, hok, haccepts⟩ := acceptsArm_of_arms hrun.head_step harms
  simp [createsGeneration, hx, harms, armAccepted, hok, haccepts]

/-- **An armed command in the log.**  What was published armed after a state in which the authority
was disarmed is of a generation created since. -/
theorem generation_of_armed (h : (systemMachine acfg bcfg initialSession).Run (after ++ before) s)
    (hbefore : (systemMachine acfg bcfg initialSession).Run before s₀)
    (hdisarmed : s₀.producer.armed = false) (hn : s₀.sent.length ≤ n)
    (hm : s.sent[n]? = some m) (harmed : m.armed = true) :
    ∃ newer x older, after = newer ++ x :: older ∧ createsGeneration x m.armGeneration = true := by
  obtain ⟨newer, y, older, a, rfl, -, hy, hpublishes⟩ := published_after h hbefore hn hm
  rw [List.append_assoc] at h
  have hsplit : (systemMachine acfg bcfg initialSession).Run ((y :: older) ++ before) y.post :=
    h.split
  have hrun := authority_run hsplit
  -- The command carries the state of the authority after the step that publishes it.
  obtain ⟨hpost, hcommand⟩ : y.post.producer = a.post ∧ m = makeCommand a.post m.enable := by
    rw [List.cons_append, List.filterMap_cons_some (f := authority?) hy] at hrun
    exact ⟨hrun.head_post.symm, (publishedCommand_spec hrun List.mem_cons_self hpublishes).1⟩
  rw [List.filterMap_append] at hrun
  have hstate : y.post.producer.armed = true := by
    rw [hpost]
    rw [hcommand] at harmed
    exact harmed
  obtain ⟨newer', arm, older', heq, harms, hgen⟩ :=
    arm_since hrun (authority_run hbefore) hdisarmed hstate
  obtain ⟨newest, x, oldest, hsplit', hx⟩ := split_of_filterMap heq
  refine ⟨newer ++ newest, x, oldest, by rw [hsplit', List.append_assoc], ?_⟩
  have hgeneration : arm.post.armGeneration = m.armGeneration := by
    rw [hgen, hpost, hcommand]
    rfl
  rw [← hgeneration]
  rw [hsplit', List.append_assoc] at hsplit
  exact createsGeneration_of_arms hsplit.split hx harms

/-- A stop leaves the authority disarmed, and what it publishes is disarmed. -/
theorem disarmed_of_stop {a : AuthorityTransition}
    (h : (systemMachine acfg bcfg initialSession).Run (t :: before) s) (ht : authority? t = some a)
    (hstops : stops a = true) :
    s.producer.armed = false ∧
      ∀ n m, t.pre.sent.length ≤ n → s.sent[n]? = some m → m.armed = true →
        s.sent.length ≤ n := by
  have hrun := authority_run h
  rw [List.filterMap_cons_some ht] at hrun
  have hpost := disarmed_of_stops hrun.head_step hstops
  rw [hrun.head_post] at hpost
  refine ⟨hpost, fun n m hn hm harmed => ?_⟩
  have happend : (systemMachine acfg bcfg initialSession).Run ([t] ++ before) s := h
  obtain ⟨newer, y, older, a', heq, -, hy, hpublishes⟩ := published_after happend h.tail hn hm
  have hty : t = y := by
    cases newer with
    | nil => exact (List.cons.inj heq).1
    | cons _ newer => simp at heq
  subst hty
  obtain rfl := Option.some.inj (ht.symm.trans hy)
  have hcommand := (publishedCommand_spec hrun List.mem_cons_self hpublishes).1
  rw [hcommand] at harmed
  rw [← hrun.head_post] at hpost
  exact absurd (harmed.symm.trans hpost) (by simp)

/-! ### The bridge's side -/

/-- The bridge accepts only what is delivered. -/
theorem delivery_of_bridgeAccepts (h : (systemMachine acfg bcfg initialSession).Run (x :: tr) s)
    (hx : bridgeAccepts bcfg x = some m) : ∃ n, LossyLink.delivery? x = some (n, m) := by
  obtain ⟨b, hb, haccepts⟩ := Option.bind_eq_some_iff.mp hx
  unfold acceptedCommand at haccepts
  split at haccepts
  · rename_i publisherCount nowNs message hinput
    split_ifs at haccepts
    obtain rfl := Option.some.inj haccepts
    obtain ⟨n, m, reception, hdelivery, harrival⟩ :=
      delivery_of_consumer? (rule_of_run h) hb (by rw [hinput]; rfl)
    rw [hinput] at harrival
    obtain ⟨-, -, rfl⟩ := BridgeInput.onCommand.inj harrival
    exact ⟨n, hdelivery⟩
  · cases haccepts

/-- A delivered command is accepted or resets the barrier. -/
theorem accepts_or_resets (h : (systemMachine acfg bcfg initialSession).Run (x :: tr) s)
    (hx : LossyLink.delivery? x = some (n, m)) :
    bridgeAccepts bcfg x = some m ∨ (bridge? x).any (resetsBarrier bcfg) = true := by
  obtain ⟨-, -, -, reception, output, hb⟩ := delivery_spec (rule_of_run h) hx
  change bridge? x = some _ at hb
  unfold bridgeAccepts
  rw [hb]
  cases hvalid : commandMessageValid bcfg x.pre.consumer reception.publisherCount reception.nowNs
    m with
  | true => exact Or.inl (by simp [acceptedCommand, thrusterLink, commandArrival, hvalid])
  | false =>
    exact Or.inr (by
      simp [resetsBarrier, rejectsCommand, thrusterLink, commandArrival, hvalid])

/-- A part of a run in which the barrier was not reset and no signal but armed commands of the
generation was taken in. -/
theorem servesOnly_of_signals {part older : SystemHistory}
    (h : (systemMachine acfg bcfg initialSession).Run (part ++ older) s)
    (hpart : ∀ w ∈ part, (bridge? w).any (resetsBarrier bcfg) = false ∧
      ((bridge? w).bind (acceptedSignal bcfg) = none ∨
        (bridge? w).bind (acceptedSignal bcfg) = some (.armed g))) :
    ServesOnly bcfg part g := by
  intro w hw
  obtain ⟨hreset, hsignal⟩ := hpart w hw
  refine ⟨hreset, fun n m hdelivery => ?_⟩
  obtain ⟨newer, rest, rfl⟩ := List.append_of_mem hw
  rw [List.append_assoc] at h
  rcases accepts_or_resets h.split hdelivery with haccepts | hresets
  · obtain ⟨b, hb, hcommand⟩ := Option.bind_eq_some_iff.mp haccepts
    have htaken : (bridge? w).bind (acceptedSignal bcfg) = some (commandSignal m) := by
      rw [hb, Option.bind_some, acceptedSignal, hcommand, Option.map_some]
    rcases hsignal with hnone | harmed
    · rw [htaken] at hnone
      cases hnone
    · rw [hb, Option.bind_some] at harmed
      obtain ⟨m', hm', hresult⟩ := armed_of_signal harmed
      obtain rfl := Option.some.inj (hcommand.symm.trans hm')
      exact hresult
  · rw [hresets] at hreset
    cases hreset

/-- **The bridge's side.**  The last command the bridge has processed when it dispatches an enabled
frame is an accepted armed one of the authorized generation, and before it a disarmed one of an
older generation was accepted.  Since that one the bridge has served no other generation. -/
theorem armed_delivery {b : BridgeTransition}
    (h : (systemMachine acfg bcfg initialSession).Run (x :: tr) s) (hb : bridge? x = some b)
    (henabled : dispatchesEnabled b = true) :
    ∃ newer y mid z earlier n armedCommand disarmedCommand,
      tr = newer ++ y :: mid ++ z :: earlier ∧
      LossyLink.delivery? y = some (n, armedCommand) ∧ bridgeAccepts bcfg y = some armedCommand ∧
      armedCommand.armed = true ∧
      armedCommand.armGeneration = b.pre.command.authorizedGeneration ∧
      bridgeAccepts bcfg z = some disarmedCommand ∧ disarmedCommand.armed = false ∧
      SerialNumber.newer 64 armedCommand.armGeneration.toNat
        disarmedCommand.armGeneration.toNat ∧
      ServesOnly bcfg (newer ++ y :: mid) armedCommand.armGeneration ∧
      ∀ p ∈ tr, ∀ k m, LossyLink.delivery? p = some (k, m) → k ≤ n := by
  -- the frame rests on an open barrier, and that on two accepted commands
  obtain ⟨w, hw, hen⟩ := dispatchesEnabled_iff.mp henabled
  have hrun := bridge_run h
  rw [List.filterMap_cons_some hb] at hrun
  have hopen := barrier_of_dispatch hrun hw hen
  rw [Interlock.run_filterMap] at hopen
  obtain ⟨newer, y, mid, z, earlier, d, rfl, hz, hy, hnewerGen, hnewer, hmid⟩ :=
    Interlock.last_of_run_eq_authorized hopen
  obtain ⟨yb, hyb, hySignal⟩ := Option.bind_eq_some_iff.mp hy
  obtain ⟨zb, hzb, hzSignal⟩ := Option.bind_eq_some_iff.mp hz
  obtain ⟨armedCommand, hyAccepts, harmed, hgen⟩ := armed_of_signal hySignal
  obtain ⟨disarmedCommand, hzAccepts, hdisarmed, rfl⟩ := disarmed_of_signal hzSignal
  have hyAccepts' : bridgeAccepts bcfg y = some armedCommand := by
    rw [bridgeAccepts, hyb]
    exact hyAccepts
  have hzAccepts' : bridgeAccepts bcfg z = some disarmedCommand := by
    rw [bridgeAccepts, hzb]
    exact hzAccepts
  -- the armed command was delivered
  have hlater : (systemMachine acfg bcfg initialSession).Run
      (newer ++ y :: (mid ++ z :: earlier)) x.pre := by
    have := h.tail
    rwa [List.append_assoc, List.cons_append] at this
  obtain ⟨n, hdelivery⟩ := delivery_of_bridgeAccepts hlater.split hyAccepts'
  refine ⟨newer, y, mid, z, earlier, n, armedCommand, disarmedCommand, rfl, hdelivery, hyAccepts',
    harmed, hgen, hzAccepts', hdisarmed, (generationNewer_iff _ _).mp (hgen ▸ hnewerGen),
    servesOnly_of_signals h.tail fun w hw => ?_, ?_⟩
  · rcases List.mem_append.mp hw with hw | hw
    · exact ⟨(hnewer w hw).1, Or.inl (hnewer w hw).2⟩
    · exact ⟨(hmid w hw).1, hgen ▸ (hmid w hw).2⟩
  intro p hp k m hk
  rw [List.append_assoc, List.cons_append] at hp
  rcases List.mem_append.mp hp with hp | hp
  · -- A later command would have moved the barrier.
    exfalso
    obtain ⟨hreset, hsignal⟩ := hnewer p hp
    obtain ⟨newest, older', rfl⟩ := List.append_of_mem hp
    have hsplit := hlater
    rw [List.append_assoc] at hsplit
    rcases accepts_or_resets hsplit.split hk with haccepts | hresets
    · obtain ⟨pb, hpb, haccepts⟩ := Option.bind_eq_some_iff.mp haccepts
      rw [hpb] at hsignal
      simp [acceptedSignal, haccepts] at hsignal
    · rw [hresets] at hreset
      cases hreset
  · rcases List.mem_cons.mp hp with rfl | hp
    · obtain ⟨rfl, -⟩ := Prod.mk.inj (Option.some.inj (hk.symm.trans hdelivery))
      exact le_rfl
    · exact (index_lt_of_deliveries hlater.split hp hk hdelivery).le

/-! ### After a stop -/

/-- Once the bridge has processed a command published after a stop, it dispatches enabled only
under a generation created after the stop, by a disarmed and then an armed command. -/
theorem rearmed_of_stop {b : BridgeTransition} {a : AuthorityTransition} {message : ThrusterCommand}
    {p : SystemTransition}
    (h : (systemMachine acfg bcfg initialSession).Run (x :: (after ++ t :: before)) s)
    (hb : bridge? x = some b) (henabled : dispatchesEnabled b = true)
    (ht : authority? t = some a) (hstops : stops a = true) (hp : p ∈ after ++ t :: before)
    (hk : LossyLink.delivery? p = some (n, message)) (hle : t.pre.sent.length ≤ n) :
    Rearmed bcfg after (t :: before) b.pre.command.authorizedGeneration := by
  obtain ⟨newer, y, since, z, earlier, k, armedCommand, disarmedCommand, htr, hdelivery, hyAccepts,
    harmed, hgen, hzAccepts, hdisarmed, hnewerGen, hserves, hlast⟩ := armed_delivery h hb henabled
  rw [List.append_assoc, List.cons_append] at htr
  have hkn := hlast p hp n message hk
  -- the armed command is later than the stop
  obtain ⟨mid, rfl, hsince⟩ := after_of_index_le h.tail rfl (hle.trans hkn)
    (delivery?_of_producer? ht) htr hdelivery
  have hrun := h.tail
  rw [List.append_assoc, List.cons_append] at hrun
  have hstop := hrun.split.tail.split
  obtain ⟨hpost, hpublished⟩ := disarmed_of_stop hstop ht hstops
  obtain ⟨hsent, -⟩ := delivery_spec (rule_of_run hrun.split) hdelivery
  -- The armed command is not the one the stop itself publishes.
  have hk : t.post.sent.length ≤ k := by
    by_contra hlt
    have hprefix := sent_grows hrun.split.tail hstop
    obtain ⟨rest, hrest⟩ := hprefix
    rw [← hrest, List.getElem?_append_left (by omega)] at hsent
    exact hlt (hpublished k armedCommand (hle.trans hkn) hsent harmed)
  obtain ⟨newest, x, oldest, rfl, hx⟩ :=
    generation_of_armed hrun.split.tail hstop hpost hk hsent harmed
  rw [← hgen]
  exact ⟨newer, y, newest, x, oldest, since, z, earlier, armedCommand, disarmedCommand, by simp, hx,
    hyAccepts, harmed, rfl, by rw [hsince], hzAccepts, hdisarmed, hnewerGen, hserves⟩

theorem mem_since {β : Type*} {newer older since earlier : List β} {y z : β}
    (h : newer ++ y :: older = since ++ z :: earlier) (hz : z ∉ newer) (hne : z ≠ y) :
    y ∈ since := by
  rcases List.append_eq_append_iff.mp h with ⟨rest, rfl, hrest⟩ | ⟨rest, rfl, hrest⟩
  · cases rest with
    | nil => exact absurd (List.cons.inj hrest).1.symm hne
    | cons w rest =>
      obtain rfl := (List.cons.inj hrest).1
      simp
  · cases rest with
    | nil => exact absurd (List.cons.inj hrest).1 hne
    | cons w rest =>
      obtain rfl := (List.cons.inj hrest).1
      simp at hz

/-- A bridge that was open under another generation has not seen the disarmed command yet: losing
the disarmed commands after a stop keeps it closed. -/
theorem rearmed_of_open (ht : (bridge? t).bind (acceptedSignal bcfg) = none)
    (h : (systemMachine acfg bcfg initialSession).Run before s)
    (hopen : s.consumer.command.armAuthorized = true)
    (hother : s.consumer.command.authorizedGeneration ≠ g)
    (hrearmed : Rearmed bcfg after (t :: before) g) : Rearmed bcfg after [] g := by
  obtain ⟨newer, y, mid, x, older, since, z, earlier, armedCommand, disarmedCommand, rfl, hx,
    hyAccepts, harmed, hgen, hsplit, hzAccepts, hdisarmed, hnewerGen, hserves⟩ := hrearmed
  -- the last command the bridge has processed before the stop
  have hbarrier := (barrier_of_run (bridge_run h)).2
  rw [barrierOf, if_pos hopen, Interlock.run_filterMap] at hbarrier
  obtain ⟨newer', y', mid', z', earlier', d, rfl, -, hy', -, hnewer', -⟩ :=
    Interlock.last_of_run_eq_authorized hbarrier.symm
  obtain ⟨yb, hyb, hySignal⟩ := Option.bind_eq_some_iff.mp hy'
  obtain ⟨served, hserved, -, hservedGen⟩ := armed_of_signal hySignal
  obtain ⟨zb, hzb, hzCommand⟩ := Option.bind_eq_some_iff.mp hzAccepts
  have hzSignal : (bridge? z).bind (acceptedSignal bcfg) =
      some (.disarmed disarmedCommand.armGeneration) := by
    rw [hzb, Option.bind_some, acceptedSignal, hzCommand, Option.map_some, commandSignal, hdisarmed]
    rfl
  rcases List.append_eq_append_iff.mp hsplit with ⟨rest, rfl, hrest⟩ | ⟨rest, hmid, hrest⟩
  · -- The disarmed command is older than the stop, so the served generation came after it.
    exfalso
    have hmem : y' ∈ rest := by
      have hlist : (t :: newer') ++ y' :: (mid' ++ z' :: earlier') = rest ++ z :: earlier := by
        simpa using hrest
      refine mem_since hlist ?_ ?_
      · intro hz
        rcases List.mem_cons.mp hz with rfl | hz
        · rw [ht] at hzSignal
          cases hzSignal
        · rw [(hnewer' z hz).2] at hzSignal
          cases hzSignal
      · rintro rfl
        rw [hy'] at hzSignal
        cases hzSignal
    have hdelivered : ∃ k, LossyLink.delivery? y' = some (k, served) := by
      have hrun := h
      rw [List.append_assoc, List.cons_append] at hrun
      refine delivery_of_bridgeAccepts hrun.split ?_
      rw [bridgeAccepts, hyb]
      exact hserved
    obtain ⟨k, hk⟩ := hdelivered
    have hsame := ((hserves y' (by simp [hmem])).2 k served hk).2
    exact hother (hservedGen.symm.trans hsame)
  · cases rest with
    | nil =>
      obtain rfl := (List.cons.inj hrest).1
      rw [ht] at hzSignal
      cases hzSignal
    | cons w rest =>
      obtain ⟨rfl, -⟩ := List.cons.inj hrest
      exact ⟨newer, y, mid, x, older, since, z, rest, armedCommand, disarmedCommand, rfl, hx,
        hyAccepts, harmed, hgen, by simpa using hmid, hzAccepts, hdisarmed, hnewerGen, hserves⟩

/-! ### Main result -/

/-- **Stop agreement.**  Every frame dispatched enabled is authorized under a generation the
authority has created by an accepted arm request.  Once the bridge has processed a command
published after a trip, abort or disarm, that request is later than the stop, and the bridge has
accepted a disarmed command of an older generation and then an armed one of the new generation,
with no command of another generation since the disarmed one.  A bridge whose barrier was open
under another generation at the stop has accepted that disarmed command since the stop. -/
theorem stop_agreement {b : BridgeTransition}
    (h : (systemMachine acfg bcfg initialSession).Run (x :: tr) s) (hb : bridge? x = some b)
    (henabled : dispatchesEnabled b = true) :
    b.pre.command.armAuthorized = true ∧
    (∃ y ∈ tr, createsGeneration y b.pre.command.authorizedGeneration = true) ∧
    ∀ after t before a p n message, tr = after ++ t :: before → authority? t = some a →
      stops a = true → p ∈ tr → LossyLink.delivery? p = some (n, message) → t.pre.sent.length ≤ n →
      Rearmed bcfg after (t :: before) b.pre.command.authorizedGeneration ∧
        (t.pre.consumer.command.armAuthorized = true →
          t.pre.consumer.command.authorizedGeneration ≠ b.pre.command.authorizedGeneration →
          Rearmed bcfg after [] b.pre.command.authorizedGeneration) := by
  refine ⟨?_, ?_, ?_⟩
  · obtain ⟨w, hw, hen⟩ := dispatchesEnabled_iff.mp henabled
    have hbridge := bridge_run h
    rw [List.filterMap_cons_some hb] at hbridge
    obtain ⟨nowNs, drawn, -, hallowed⟩ := enableAllowed_of_dispatch hbridge hw hen
    exact hallowed.authorized
  · obtain ⟨newer, y, mid, z, earlier, n, armedCommand, -, rfl, hdelivery, -, harmed, hgen, -⟩ :=
      armed_delivery h hb henabled
    have hrun := h.tail
    rw [List.append_assoc, List.cons_append] at hrun
    obtain ⟨hsent, -⟩ := delivery_spec (rule_of_run hrun.split) hdelivery
    have hall : (systemMachine acfg bcfg initialSession).Run ((mid ++ z :: earlier) ++ [])
        y.pre := by
      rw [List.append_nil]
      exact hrun.split.tail
    obtain ⟨newest, x, oldest, heq, hx⟩ :=
      generation_of_armed hall .start rfl (Nat.zero_le n) hsent harmed
    have hmem : x ∈ mid ++ z :: earlier := by
      rw [heq]
      simp
    refine ⟨x, ?_, hgen ▸ hx⟩
    rw [List.append_assoc, List.cons_append]
    exact List.mem_append_right _ (List.mem_cons_of_mem _ hmem)
  · rintro after t before a p n message rfl ht hstops hp hk hle
    have hrearmed := rearmed_of_stop h hb henabled ht hstops hp hk hle
    have hsilent : (bridge? t).bind (acceptedSignal bcfg) = none := by
      rw [show bridge? t = none from consumer?_of_producer? ht]
      rfl
    exact ⟨hrearmed, fun hopen hother =>
      rearmed_of_open hsilent h.tail.split.tail hopen hother hrearmed⟩

/-! ### A stop and the way back -/

def webOperatorCommand : ThrusterCommand := { enable := true, source := "web_operator" }

/-- The authority disarms and the bridge processes the disarmed command at place `n`; then the
authority arms and the bridge processes the armed command. -/
def disarmAndArm (n : ℕ) : List SystemInput :=
  [.produce (.setAuthority { arm := false } 0), .deliver n ⟨1, 1000000000⟩,
    .produce (.safetyEvent {} 0), .produce (.manualCommand webOperatorCommand 0 0),
    .produce (.setAuthority { arm := true } 0), .produce (.manualCommand webOperatorCommand 0 0),
    .deliver (n + 1) ⟨1, 1000000000⟩]

/-- After the handshake the authority arms and the bridge is open.  A stop closes it, it opens again
for the next generation, and an enabled frame is sent. -/
def rearmInputs : List SystemInput :=
  handshakeInputs.map .consume ++ [.consume (.publishStatus (some [authorityEndpoint]) 1)] ++
    disarmAndArm 0 ++ disarmAndArm 2 ++
    [.writeCommand 1 1000000000 5, .enqueueLatestWrite, .drainLatestWrite, nextIo,
      .writeCompleted false, nextIo].map .consume

/-- A stop, and a delivery since of a command that was not published before it. -/
def stopsAndDelivers (after : SystemHistory) (t : SystemTransition) : Bool :=
  (authority? t).any stops &&
    after.any fun p => (LossyLink.delivery? p).any fun (n, _) => t.pre.sent.length ≤ n

/-- The bridge is open at a stop, under another generation than the one `x` is authorized for. -/
def openAt (x t : SystemTransition) : Bool :=
  (bridge? x).any fun b => t.pre.consumer.command.armAuthorized &&
    t.pre.consumer.command.authorizedGeneration != b.pre.command.authorizedGeneration

theorem stop_agreement_rearmInputs :
    ∃ x b after t before s, (systemMachine {} {} 1).Run (x :: (after ++ t :: before)) s ∧
      bridge? x = some b ∧ dispatchesEnabled b = true ∧ stopsAndDelivers after t = true ∧
      openAt x t = true ∧ Rearmed {} after [] b.pre.command.authorizedGeneration := by
  obtain ⟨x, tr, s, hrun, hcheck⟩ := run_of_execCheck (systemMachine {} {} 1) rearmInputs
    (fun x tr => (bridge? x).any dispatchesEnabled &&
      tr[11]?.any fun t => stopsAndDelivers (tr.take 11) t && openAt x t)
    (by decide +kernel)
  rw [Bool.and_eq_true, Option.any_eq_true, Option.any_eq_true] at hcheck
  obtain ⟨⟨b, hb, henabled⟩, t, ht, hstop⟩ := hcheck
  obtain ⟨hstop, hopen⟩ := (Bool.and_eq_true _ _).mp hstop
  have htr : tr = tr.take 11 ++ t :: tr.drop 12 := by
    obtain ⟨hlt, rfl⟩ := List.getElem?_eq_some_iff.mp ht
    rw [← List.drop_eq_getElem_cons, List.take_append_drop]
  rw [htr] at hrun
  refine ⟨x, b, tr.take 11, t, tr.drop 12, s, hrun, hb, henabled, hstop, hopen, ?_⟩
  rw [stopsAndDelivers, Bool.and_eq_true, Option.any_eq_true, List.any_eq_true] at hstop
  obtain ⟨⟨a, ha, hstops⟩, p, hp, hdelivered⟩ := hstop
  obtain ⟨⟨n, message⟩, hdelivery, hle⟩ := (Option.any_eq_true _ _).mp hdelivered
  rw [openAt, hb, Option.any_some, Bool.and_eq_true, bne_iff_ne] at hopen
  exact ((stop_agreement hrun hb henabled).2.2 _ t _ a p n message rfl ha hstops
    (List.mem_append_left _ hp) hdelivery (of_decide_eq_true hle)).2 hopen.1 hopen.2

end RobotCore
