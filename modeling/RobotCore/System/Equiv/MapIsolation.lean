import RobotCore.Fusion.Equiv.Provenance
import RobotCore.System.Localization

/-!
# Map generations do not mix

The localizer numbers its maps and stamps every estimate with the number of its map.  Over a link
that may lose any estimate, the estimate that announces a new map among them, the estimator never
has an alignment or a buffered candidate from another map than that of the last estimate
(`maps_isolated`).  The estimator is taken with the origins of its transforms
(`FusionKernel.traced`).
-/

namespace RobotCore

open Machine

variable {σ δ ρ P C τ D : Type}

/-- The system without the origins of the transforms. -/
def eraseSystem (s : Localization.System σ δ ρ (Traced P) C τ) :
    Localization.System σ δ ρ P C τ :=
  ⟨s.producer, s.consumer.erase, s.sent, s.next⟩

/-- An input, with the origins of what it brings. -/
def tracedInput : Localization.Input ρ P τ D → Localization.Input ρ (Traced P) τ D
  | .produce input => .produce input
  | .deliver index reading => .deliver index reading
  | .consume input => .consume input.traced

/-- The generations of the estimates from which the buffered candidates and the alignment come. -/
def Fusion.origins (s : Fusion σ δ (Traced P) C) : List ℕ :=
  (s.alignmentCandidates.flatMap fun c => c.mapFromOdom.generations) ++
    (s.mapFromOdom.map fun alignment => alignment.1.generations).getD []

/-- The generations of the estimates on the way, and that of the last one to arrive. -/
structure Generations (s : Localization.System σ δ ρ (Traced P) C τ) : Prop where
  isolated : Isolated s.consumer
  pos : 0 < s.producer.mapGeneration
  sent_pos : ∀ m ∈ s.sent, 0 < m.mapGeneration
  sent_le : ∀ m ∈ s.sent, m.mapGeneration ≤ s.producer.mapGeneration
  ordered : s.sent.Pairwise fun m m' => m.mapGeneration ≤ m'.mapGeneration
  last_le : s.consumer.lastTagMapGeneration ≤ s.producer.mapGeneration
  last_le_sent : ∀ m ∈ s.sent.drop s.next, s.consumer.lastTagMapGeneration ≤ m.mapGeneration

variable {L : LocalizerKernel τ D ρ} {mapFrame : String} {tags : τ} {K : FusionKernel σ δ ρ P C}
  {cfg : FusionConfig}

theorem Isolated.origins_eq {s : Fusion σ δ (Traced P) C} (hs : Isolated s) :
    ∀ g ∈ s.origins, g = s.lastTagMapGeneration := by
  intro g hg
  rcases List.mem_append.mp hg with hg | hg
  · obtain ⟨c, hc, hg⟩ := List.mem_flatMap.mp hg
    exact hs.candidates c hc g hg
  · cases hmap : s.mapFromOdom with
    | none =>
      rw [hmap] at hg
      cases hg
    | some alignment =>
      rw [hmap] at hg
      exact hs.alignment alignment hmap g hg

/-! ### The localizer -/

/-- The generation does not decrease, and an estimate bears the one after the step. -/
theorem localizer_step {s s' : Localizer τ} {input : LocalizerInput τ D}
    {estimate : Option (AprilTagPoseEstimate ρ)} (h : L.step mapFrame s input = (s', estimate)) :
    s.mapGeneration ≤ s'.mapGeneration ∧
      ∀ m ∈ estimate, m.mapGeneration = s'.mapGeneration := by
  cases input with
  | reload nowNs map =>
    cases map with
    | none =>
      obtain ⟨rfl, rfl⟩ := Prod.mk.inj h
      exact ⟨le_rfl, fun m hm => by cases hm⟩
    | some tags =>
      obtain ⟨rfl, rfl⟩ := Prod.mk.inj h
      refine ⟨Nat.le_succ _, fun m hm => ?_⟩
      obtain rfl := Option.some.inj hm
      rfl
  | detections stampNs message =>
    obtain ⟨rfl, rfl⟩ := Prod.mk.inj h
    refine ⟨le_rfl, fun m hm => ?_⟩
    obtain rfl := Option.some.inj hm
    rfl

/-! ### One step of the system -/

section Step

variable {x : Transition (Localization.System σ δ ρ (Traced P) C τ)
  (Localization.Input ρ (Traced P) τ D)
  (Option (AprilTagPoseEstimate ρ) ⊕ List (FusionEffect δ))}

/-- What a step does to the generations. -/
theorem generations_step (h : (tagLink L mapFrame tags K.traced cfg).Rule x)
    (hs : Generations x.pre) : Generations x.post ∧
      x.pre.consumer.lastTagMapGeneration ≤ x.post.consumer.lastTagMapGeneration ∧
      ∀ n m, LossyLink.delivery? x = some (n, m) →
        x.post.consumer.lastTagMapGeneration = m.mapGeneration := by
  cases h with
  | @produced s input localizer estimate hstep =>
    -- the localizer publishes with its own generation, which only grows
    obtain ⟨hle, hestimate⟩ := localizer_step (Option.some.inj hstep)
    have hnew : ∀ m ∈ estimate.toList, m.mapGeneration = localizer.mapGeneration :=
      fun m hm => hestimate m (Option.mem_toList.mp hm)
    refine ⟨⟨hs.isolated, hs.pos.trans_le hle, ?_, ?_, ?_, hs.last_le.trans hle, ?_⟩, le_rfl, ?_⟩
    · intro m hm
      rcases List.mem_append.mp hm with hm | hm
      · exact hs.sent_pos m hm
      · rw [hnew m hm]
        exact hs.pos.trans_le hle
    · intro m hm
      rcases List.mem_append.mp hm with hm | hm
      · exact (hs.sent_le m hm).trans hle
      · exact (hnew m hm).le
    -- the log stays in the order of the generations
    · refine List.pairwise_append.mpr ⟨hs.ordered, ?_, fun m hm m' hm' => ?_⟩
      · cases estimate with
        | none => exact List.Pairwise.nil
        | some m => exact List.pairwise_singleton _ _
      · rw [hnew m' hm']
        exact (hs.sent_le m hm).trans hle
    · intro m hm
      dsimp only at hm ⊢
      rw [List.drop_append] at hm
      rcases List.mem_append.mp hm with hm | hm
      · exact hs.last_le_sent m hm
      · rw [hnew m (List.mem_of_mem_drop hm)]
        exact hs.last_le.trans hle
    · intro n m hm
      cases hm
  | @delivered s index reading message estimator effects hle hsent hstep =>
    -- a delivery is not older than what was delivered before
    have hmem : message ∈ s.sent.drop s.next := by
      refine List.mem_iff_getElem?.mpr ⟨index - s.next, ?_⟩
      rw [List.getElem?_drop, Nat.add_sub_cancel' hle, hsent]
    have hsentmem := List.mem_of_mem_drop hmem
    obtain ⟨hisolated, hlast⟩ := isolated_onTag (Option.some.inj hstep) hs.isolated
      (hs.sent_pos message hsentmem) (hs.last_le_sent message hmem)
    refine ⟨⟨hisolated, hs.pos, hs.sent_pos, hs.sent_le, hs.ordered, ?_, ?_⟩, ?_, ?_⟩
    · exact hlast.trans_le (hs.sent_le message hsentmem)
    · intro m hm
      -- and what is still to come is not older than this one
      dsimp only at hm ⊢
      rw [hlast]
      obtain ⟨i, hi⟩ := List.mem_iff_getElem?.mp hm
      rw [List.getElem?_drop] at hi
      obtain ⟨hindex, rfl⟩ := List.getElem?_eq_some_iff.mp hsent
      obtain ⟨hlater, rfl⟩ := List.getElem?_eq_some_iff.mp hi
      exact List.pairwise_iff_getElem.mp hs.ordered _ _ hindex hlater (by omega)
    · exact (hs.last_le_sent message hmem).trans_eq hlast.symm
    · intro n m hm
      obtain ⟨message', hmessage, heq⟩ := Option.map_eq_some_iff.mp hm
      obtain ⟨rfl, rfl⟩ := Prod.mk.inj heq
      obtain rfl := Option.some.inj (hsent.symm.trans hmessage)
      exact hlast
  | @consumed s input estimator effects hown hstep =>
    -- the other callbacks of the estimator keep the generation
    obtain ⟨hisolated, hlast⟩ := isolated_of_other (Option.some.inj hstep)
      (fun reading message htag => by rw [htag] at hown; cases hown) hs.isolated
    refine ⟨⟨hisolated, hs.pos, hs.sent_pos, hs.sent_le, hs.ordered, ?_, ?_⟩, hlast.ge, ?_⟩
    · exact hlast.trans_le hs.last_le
    · intro m hm
      exact hlast.trans_le (hs.last_le_sent m hm)
    · intro n m hm
      cases hm

end Step

/-! ### Every run -/

theorem generations_init : Generations (tagLink L mapFrame tags K.traced cfg).machine.init :=
  ⟨isolated_of_empty rfl rfl, Nat.one_pos, fun _ hm => absurd hm List.not_mem_nil,
    fun _ hm => absurd hm List.not_mem_nil, List.Pairwise.nil, Nat.zero_le _,
    fun _ hm => absurd hm List.not_mem_nil⟩

section Run

variable {tr : History (Localization.System σ δ ρ (Traced P) C τ)
    (Localization.Input ρ (Traced P) τ D)
    (Option (AprilTagPoseEstimate ρ) ⊕ List (FusionEffect δ))}
  {s : Localization.System σ δ ρ (Traced P) C τ}

/-- The generations in every state, and after each delivery. -/
theorem generations_of_run (h : (tagLink L mapFrame tags K.traced cfg).machine.Run tr s) :
    Generations s ∧ ∀ y ∈ tr, Generations y.post ∧ ∀ n m, LossyLink.delivery? y = some (n, m) →
      y.post.consumer.lastTagMapGeneration = m.mapGeneration ∧
      m.mapGeneration ≤ s.consumer.lastTagMapGeneration := by
  refine h.invariant (I := fun tr s => Generations s ∧ ∀ y ∈ tr, Generations y.post ∧
    ∀ n m, LossyLink.delivery? y = some (n, m) →
      y.post.consumer.lastTagMapGeneration = m.mapGeneration ∧
      m.mapGeneration ≤ s.consumer.lastTagMapGeneration)
    ⟨generations_init, fun y hy => absurd hy List.not_mem_nil⟩ ?_
  intro tr s input s' output _ ⟨hs, hall⟩ hstep
  have hrule : (tagLink L mapFrame tags K.traced cfg).Rule ⟨s, input, output, s'⟩ :=
    LossyLink.rule_of_step hstep
  obtain ⟨hs', hle, hdelivered⟩ := generations_step hrule hs
  refine ⟨hs', fun y hy => ?_⟩
  rcases List.mem_cons.mp hy with rfl | hy
  · exact ⟨hs', fun n m hm => ⟨hdelivered n m hm, (hdelivered n m hm).ge⟩⟩
  · obtain ⟨hpost, hprocessed⟩ := hall y hy
    exact ⟨hpost, fun n m hm => ⟨(hprocessed n m hm).1, (hprocessed n m hm).2.trans hle⟩⟩

end Run

/-- The system is seen in the system with origins. -/
theorem erase_step {t : Localization.System σ δ ρ (Traced P) C τ}
    {input : Localization.Input ρ P τ D} {s : Localization.System σ δ ρ P C τ}
    {output : Option (AprilTagPoseEstimate ρ) ⊕ List (FusionEffect δ)}
    (h : (tagLink L mapFrame tags K cfg).machine.step (eraseSystem t) input = some (s, output)) :
    ∃ t', (tagLink L mapFrame tags K.traced cfg).machine.step t (tracedInput input)
        = some (t', output) ∧ eraseSystem t' = s := by
  have hrule : (tagLink L mapFrame tags K cfg).Rule ⟨eraseSystem t, input, output, s⟩ :=
    LossyLink.rule_of_step h
  have hestimator {input : FusionInput ρ P} {estimator : Fusion σ δ P C}
      {effects : List (FusionEffect δ)}
      (hstep : (fusionMachine K cfg).step t.consumer.erase input = some (estimator, effects)) :
      ∃ traced, (fusionMachine K.traced cfg).step t.consumer input.traced
        = some (traced, effects) ∧ traced.erase = estimator := by
    obtain ⟨hestimator, heffects⟩ :=
      Prod.mk.inj (erase_fusionStep.symm.trans (Option.some.inj hstep))
    exact ⟨_, congrArg some (Prod.ext rfl heffects), hestimator⟩
  cases hrule with
  | produced hstep =>
    exact ⟨_, LossyLink.step_of_rule (L := tagLink L mapFrame tags K.traced cfg)
      (.produced (s := t) hstep), rfl⟩
  | delivered hle hsent hstep =>
    obtain ⟨traced, htraced, rfl⟩ := hestimator hstep
    exact ⟨_, LossyLink.step_of_rule (L := tagLink L mapFrame tags K.traced cfg)
      (.delivered (s := t) hle hsent htraced), rfl⟩
  | consumed hown hstep =>
    rename_i input estimator effects
    obtain ⟨traced, htraced, rfl⟩ := hestimator hstep
    have hown' : (tagLink L mapFrame tags K.traced cfg).ownInput input.traced = true := by
      cases input with
      | tag reading message => cases hown
      | _ => rfl
    exact ⟨_, LossyLink.step_of_rule (L := tagLink L mapFrame tags K.traced cfg)
      (.consumed (s := t) hown' htraced), rfl⟩

/-- **Map generations do not mix.**  In every run of the localizer and the estimator the buffered
candidates and the alignment come from estimates of the last generation, and none comes from an
earlier generation than that of an estimate that was delivered. -/
theorem maps_isolated {tr : History (Localization.System σ δ ρ P C τ)
      (Localization.Input ρ P τ D) (Option (AprilTagPoseEstimate ρ) ⊕ List (FusionEffect δ))}
    {s : Localization.System σ δ ρ P C τ}
    (hrun : (tagLink L mapFrame tags K cfg).machine.Run tr s) :
    ∃ tr' s', (tagLink L mapFrame tags K.traced cfg).machine.Run tr' s' ∧ eraseSystem s' = s ∧
      List.Forall₂ (fun x y => y.output = x.output ∧ eraseSystem y.post = x.post) tr tr' ∧
      (∀ g ∈ s'.consumer.origins, g = s.consumer.lastTagMapGeneration) ∧
      ∀ y ∈ tr', ∀ n m, LossyLink.delivery? y = some (n, m) →
        y.post.consumer.lastTagMapGeneration = m.mapGeneration ∧
        (∀ g ∈ y.post.consumer.origins, g = m.mapGeneration) ∧
        ∀ g ∈ s'.consumer.origins, m.mapGeneration ≤ g := by
  obtain ⟨tr', s', hrun', rfl, hall⟩ := hrun.lift
    (N := (tagLink L mapFrame tags K.traced cfg).machine) eraseSystem tracedInput rfl
    fun t input s output h => erase_step h
  obtain ⟨hs', hgenerations⟩ := generations_of_run hrun'
  refine ⟨tr', s', hrun', rfl, hall.imp fun _ _ h => h.2, hs'.isolated.origins_eq,
    fun y hy n m hm => ?_⟩
  obtain ⟨hpost, hdelivered⟩ := hgenerations y hy
  obtain ⟨hlast, hle⟩ := hdelivered n m hm
  refine ⟨hlast, fun g hg => ?_, fun g hg => ?_⟩
  · exact (hpost.isolated.origins_eq g hg).trans hlast
  · exact hle.trans_eq (hs'.isolated.origins_eq g hg).symm

/-- Any pose in the detections is the estimate. -/
def poseLocalizer : LocalizerKernel Unit Unit ℤ where
  localize _ _ := ⟨true, 2, 0⟩
  blank := 0

/-- An estimator that aligns itself with the first candidate. -/
def aligningKernel : FusionKernel Unit Unit ℤ Unit Unit where
  blank := ()
  initialEstimate _ _ := ()
  stabilize := some
  advance _ := some
  updatePosition x _ := .accepted x
  updateOrientation x _ := .accepted x
  updateLinearVelocity x _ := .accepted x
  updateTwistAngularVelocity x _ := .accepted x
  updateExternalAngularVelocity x _ := .accepted x
  setLinearAcceleration x _ := .accepted x
  imuAngularVelocity _ := none
  imuLinearAcceleration _ := none
  vioMeasurement _ _ := some ((), none)
  identity := ()
  candidate _ _ := some ((), ())
  tightestConsistentPoseCluster transforms := List.range transforms.length
  meanAlignment _ := ((), ())
  validCovariance _ := true
  fusedAlignment _ _ := none
  fillCovariances _ _ := true

def aligningConfig : FusionConfig :=
  { requireZedTrackingOk := false, alignmentCandidateCount := 1 }

/-- The filter starts, an estimate of the first map arrives, the map is loaded again, and an
estimate of the second map arrives. -/
def lostReloadInputs : List (Localization.Input ℤ Unit Unit Unit) :=
  [.consume (.vio ⟨1000000000, 1000000000⟩ ⟨1000000000, "base_link", 0⟩ none
      ⟨1000000000, 1000000000⟩),
    .produce (.detections 1000000000 ()), .deliver 0 ⟨1100000000, 1100000000⟩,
    .produce (.reload 1200000000 (some ())), .produce (.detections 1000000000 ()),
    .deliver 2 ⟨1300000000, 1300000000⟩]

/-- The estimate that announces the second map is lost, and the alignment is of the second map. -/
theorem maps_isolated_lostReload : ∃ tr s tr' s',
    (tagLink poseLocalizer "map" () aligningKernel aligningConfig).machine.Run tr s ∧
    (tr.filterMap LossyLink.delivery?).map (fun d => (d.1, d.2.mapGeneration)) = [(2, 2), (0, 1)] ∧
    s.consumer.mapFromOdom = some ((), ()) ∧ s.consumer.lastTagMapGeneration = 2 ∧
    (tagLink poseLocalizer "map" () aligningKernel.traced aligningConfig).machine.Run tr' s' ∧
    eraseSystem s' = s ∧ ∀ g ∈ s'.consumer.origins, g = 2 := by
  obtain ⟨x, tr, s, hrun, hcheck⟩ := run_of_execCheck
    (tagLink poseLocalizer "map" () aligningKernel aligningConfig).machine lostReloadInputs
    (fun x tr =>
      decide (((x :: tr).filterMap LossyLink.delivery?).map (fun d => (d.1, d.2.mapGeneration))
        = [(2, 2), (0, 1)]) &&
      decide (x.post.consumer.mapFromOdom = some ((), ())) &&
      decide (x.post.consumer.lastTagMapGeneration = 2))
    (by decide +kernel)
  rw [hrun.head_post] at hcheck
  simp only [Bool.and_eq_true, decide_eq_true_iff] at hcheck
  obtain ⟨⟨hdelivered, hmap⟩, hlast⟩ := hcheck
  obtain ⟨tr', s', hrun', herase, -, horigins, -⟩ := maps_isolated hrun
  rw [hlast] at horigins
  exact ⟨_, s, tr', s', hrun, hdelivered, hmap, hlast, hrun', herase, horigins⟩

end RobotCore
