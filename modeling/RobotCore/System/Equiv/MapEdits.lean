import RobotCore.HostManager.Equiv.AprilTag
import RobotCore.Localizer.Equiv.TagMap
import RobotCore.Localizer.Node

/-!
# Edited maps and the localizer

The host manager checks the ranges of an edit, the localizer also that every Tag is on the pool.  A
map the localizer has read stays readable under every accepted request (`readable_effect`), and says
of every id what the last accepted request that names it said (`readTable_effect`).  So the
localizer reads an edited map if and only if every Tag that was placed is on the pool.
-/

namespace RobotCore

open Ieee Machine

/-! ### A written definition is readable -/

section Placement

variable {placement : TagPlacement}

theorem getDoubles_float (values : List Binary64) :
    getDoubles (.array (values.map .float)) = .ok values := by
  unfold getDoubles
  induction values with
  | nil => rfl
  | cons value values ih =>
    dsimp only at ih ⊢
    rw [List.map_cons, List.mapM_cons, ih]
    rfl

/-- What is in the range of the size is accepted by both sides. -/
theorem size_of_mem {size : Binary64} (h : sizeRange.contains size = true) :
    size.isFinite = true ∧ size.lt (Number.ofRat binary64 (1 / 100)) = false ∧
      (Number.ofRat binary64 2).lt size = false := by
  unfold ValueRange.contains at h
  rw [Bool.and_eq_true] at h
  obtain ⟨a, ha⟩ := Number.isFinite_iff.mp (show sizeRange.lower.isFinite = true by decide +kernel)
  obtain ⟨b, hb⟩ := Number.isFinite_iff.mp (show sizeRange.upper.isFinite = true by decide +kernel)
  obtain ⟨q, hq, haq, hqb⟩ := Number.value_of_le_of_le ha hb h.1 h.2
  refine ⟨Number.isFinite_of_value hq, ?_, ?_⟩
  · rw [← Bool.not_eq_true]
    exact fun hlt => absurd ((Number.lt_iff_of_finite hq ha).mp hlt) haq.not_gt
  · rw [← Bool.not_eq_true]
    exact fun hlt => absurd ((Number.lt_iff_of_finite hb hq).mp hlt) hqb.not_gt

theorem readPlacement_object {members : List (String × Json)} (h : placement.Validated)
    (hposition : members.lookup "position_m" = some (.array (placement.positionM.map .float)))
    (hrpy : members.lookup "rpy_deg" = some (.array (placement.rpyDeg.map .float)))
    (hsize : members.lookup "size_m" = some (.float placement.sizeM)) (key : String) :
    readPlacement key (.object members) = .ok placement := by
  obtain ⟨hfinite, hlower, hupper⟩ := size_of_mem h.size_mem
  unfold readPlacement
  dsimp only
  rw [hsize, if_neg (by simp)]
  simp only [bind, Except.bind, atMember, hposition, hrpy, hsize, getDoubles_float, getDouble]
  rw [if_neg]
  rw [h.position_length, h.rpy_length, hfinite, hlower, hupper]
  decide

/-- What is written is read. -/
theorem readPlacement_toJson (h : placement.Validated) (key : String) :
    readPlacement key placement.toJson = .ok placement :=
  readPlacement_object h rfl rfl rfl key

/-- A range of the host manager, as an absolute value. -/
theorem absLe_of_mem {range : ValueRange} {c : ℚ} (hlower : range.lower.value = .finite (-c))
    (hupper : range.upper.value = .finite c) {value : Binary64}
    (h : range.contains value = true) : Number.AbsLe value c := by
  unfold ValueRange.contains at h
  rw [Bool.and_eq_true] at h
  obtain ⟨q, hq, hlo, hhi⟩ := Number.value_of_le_of_le hlower hupper h.1 h.2
  exact ⟨q, hq, abs_le.mpr ⟨hlo, hhi⟩⟩

theorem le_of_absLe {value limit : Binary64} {c : ℚ} (h : Number.AbsLe value c)
    (hlimit : limit.value = .finite c) : value.abs.le limit = true := by
  obtain ⟨q, hq, hle⟩ := h
  exact (Number.le_iff_of_finite (Number.value_abs hq) hlimit).mpr hle

/-- The radians of an angle in degrees are finite. -/
theorem isFinite_radians {value : Binary64} (h : Number.AbsLe value 360) :
    ((value * piValue).divide (Number.ofRat binary64 180)).isFinite = true := by
  have hpi : Number.AbsLe piValue 4 :=
    ⟨884279719003555 / 281474976710656, by decide +kernel, by norm_num [abs_le]⟩
  have hrep : Representable binary64 (360 * 4) := by
    have h := representable_natCast (f := binary64) (n := 1440) (by decide) (by decide)
    norm_num at h ⊢
    exact h
  have hmax : (360 * 4 : ℚ) < 2 ^ binary64.maxExponent :=
    (by norm_num : (360 * 4 : ℚ) < 2 ^ (11 : ℤ)).trans_le
      (zpow_le_zpow_right₀ (by norm_num) (by decide))
  have hproduct := h.mul hpi hrep hmax
  exact (hproduct.divide (q := 180) (by decide +kernel) (by norm_num) hrep hmax).isFinite

theorem inRange_of_validated (h : placement.Validated) : placement.inRange = true := by
  have hposition (value : Binary64) (hmem : value ∈ placement.positionM) :
      Number.AbsLe value 100 :=
    absLe_of_mem (by decide +kernel) (by decide +kernel) (h.position_mem value hmem)
  have hrpy (value : Binary64) (hmem : value ∈ placement.rpyDeg) : Number.AbsLe value 360 :=
    absLe_of_mem (by decide +kernel) (by decide +kernel) (h.rpy_mem value hmem)
  obtain ⟨x, y, z, hxyz⟩ := List.length_eq_three.mp h.position_length
  obtain ⟨roll, pitch, yaw, hangles⟩ := List.length_eq_three.mp h.rpy_length
  unfold TagPlacement.inRange TagPlacement.center TagPlacement.rpy
  rw [hxyz] at hposition ⊢
  rw [hangles] at hrpy ⊢
  simp only [List.forall_mem_cons] at hposition hrpy
  obtain ⟨hx, hy, hz, -⟩ := hposition
  obtain ⟨hroll, hpitch, hyaw, -⟩ := hrpy
  have hhundred : (Number.ofRat binary64 100).value = .finite 100 := by decide +kernel
  have hturn : (Number.ofRat binary64 360).value = .finite 360 := by decide +kernel
  simp [toVec3, Vec3.map, Vec3.allFinite, hx.isFinite, hy.isFinite, hz.isFinite,
    isFinite_radians, hroll, hpitch, hyaw, le_of_absLe hx hhundred, le_of_absLe hy hhundred,
    le_of_absLe hz hhundred, le_of_absLe hroll hturn, le_of_absLe hpitch hturn,
    le_of_absLe hyaw hturn]

end Placement

/-! ### The edits that were accepted -/

/-- What an edit makes of the placements. -/
def TagEdit.place (edit : TagEdit) (placed : ℕ → Option TagPlacement) (id : ℕ) :
    Option TagPlacement :=
  match edit with
  | .upsert tagId previousTagId placement =>
    if id = tagId then some placement else if id = previousTagId then none else placed id
  | .delete tagId => if id = tagId then none else placed id

abbrev MapHistory := History MapDocument MapRequest (Except PyException TagEdit)

/-- The placements after the accepted requests of a history. -/
def placements (initial : ℕ → Option TagPlacement) : MapHistory → ℕ → Option TagPlacement
  | [] => initial
  | x :: tr =>
    match x.output with
    | .ok edit => edit.place (placements initial tr)
    | .error _ => placements initial tr

section Edits

variable {edit : TagEdit} {tags : TagTable}

theorem mem_keys_iff (edit : TagEdit) (id : ℕ) : tagKey id ∈ edit.keys ↔ id ∈ edit.ids :=
  List.mem_map_of_injective tagKey_injective

/-- A validated edit is read as it was meant. -/
theorem readTable_effect (h : edit.Validated) :
    readTable (edit.effect tags) = edit.place (readTable tags) := by
  funext id
  unfold readTable
  rw [getElem?_effect]
  simp only [mem_keys_iff]
  cases edit with
  | upsert tagId previousTagId placement =>
    simp only [TagEdit.ids, TagEdit.entry, TagEdit.place, List.mem_cons, List.not_mem_nil, or_false,
      tagKey_injective.eq_iff]
    by_cases htag : id = tagId
    · subst htag
      simp [readPlacement_toJson h.2.2, Except.toOption]
    · by_cases hprevious : id = previousTagId
      · subst hprevious
        simp [htag, Ne.symm htag]
      · simp [htag, hprevious]
  | delete tagId =>
    simp only [TagEdit.ids, TagEdit.entry, TagEdit.place, List.mem_singleton]
    by_cases htag : id = tagId
    · simp [htag]
    · simp [htag]

/-- A validated edit keeps the map readable. -/
theorem readable_effect (h : edit.Validated) (hreadable : Readable tags) :
    Readable (edit.effect tags) := by
  intro key value hvalue
  rw [getElem?_effect] at hvalue
  split_ifs at hvalue with hkey
  · cases edit with
    | upsert tagId previousTagId placement =>
      dsimp only [TagEdit.entry] at hvalue
      split_ifs at hvalue with htag
      cases hvalue
      exact ⟨tagId, placement, ⟨htag.symm, h.1⟩, readPlacement_toJson h.2.2 key,
        inRange_of_validated h.2.2⟩
    | delete tagId => cases hvalue
  · exact hreadable key value hvalue

/-- The tags of a readable map can be listed. -/
theorem listable_of_readable (text : PyText) (h : Readable tags) : Listable text tags := by
  intro key value hvalue
  obtain ⟨id, placement, ⟨rfl, -⟩, hplacement, -⟩ := h key value hvalue
  refine ⟨by rw [tagKey, text.int_toString]; rfl, ?_⟩
  cases value with
  | object members => rfl
  | null | bool _ | int _ | float _ | string _ | array _ => cases hplacement

end Edits

/-- What a request does to a readable map: it is accepted and its edit is done, or it is refused
and the map stays as it is. -/
theorem serveRequest_of_readable {text : PyText} {webEditEnabled : Bool} {document : MapDocument}
    (h : Readable document.tags) (request : MapRequest) :
    (∃ edit : TagEdit, edit.Validated ∧ serveRequest text webEditEnabled document request
        = (document.withTags (edit.effect document.tags), .ok edit)) ∨
      ∃ e, serveRequest text webEditEnabled document request = (document, .error e) := by
  unfold serveRequest
  cases hedit : validatedEdit text webEditEnabled request with
  | error e => exact Or.inr ⟨e, rfl⟩
  | ok edit =>
    have hvalidated := validatedEdit_ok hedit
    cases happly : edit.apply document with
    | error e => exact Or.inr ⟨e, by dsimp only; rw [happly]⟩
    | ok document' =>
      obtain ⟨-, rfl⟩ := (apply_eq_ok_iff _ _ _).mp happly
      have hlist := (tagList_eq_ok_iff text (document.withTags (edit.effect document.tags))).mpr
        (listable_of_readable text (readable_effect hvalidated h))
      refine Or.inl ⟨edit, hvalidated, ?_⟩
      dsimp only
      rw [happly]
      dsimp only
      rw [hlist]
      rfl

/-! ### Runs of the host manager -/

section Runs

variable {math : TagMath} {pool : CuboidPoolGeometry} {text : PyText} {webEditEnabled : Bool}
  {expectedFrame : String} {document s : MapDocument} {tags : TagMap} {tr : MapHistory}

/-- A map the localizer has read stays readable, and says what the accepted requests said. -/
theorem readable_of_run (hparse : parseAprilTagMap math pool expectedFrame document = .ok tags)
    (hrun : (mapMachine text webEditEnabled document).Run tr s) :
    s.HasHeader expectedFrame ∧ Readable s.tags ∧
      readTable s.tags = placements (readTable document.tags) tr := by
  refine hrun.invariant (I := fun tr s => s.HasHeader expectedFrame ∧ Readable s.tags ∧
    readTable s.tags = placements (readTable document.tags) tr)
      ⟨hasHeader_of_parse hparse, readable_of_parse hparse, rfl⟩ ?_
  rintro tr s request s' answer - ⟨hheader, hreadable, hplaced⟩ hstep
  have hserve := Option.some_inj.mp hstep
  rcases @serveRequest_of_readable text webEditEnabled _ hreadable request with
    ⟨edit, hvalidated, heq⟩ | ⟨e, heq⟩
  · rw [heq] at hserve
    cases hserve
    exact ⟨hheader, readable_effect hvalidated hreadable,
      (readTable_effect hvalidated).trans (congrArg edit.place hplaced)⟩
  · rw [heq] at hserve
    cases hserve
    exact ⟨hheader, hreadable, hplaced⟩

/-- **Edits of the map stay loadable when the Tags are on the pool.**  From a map the localizer has
read on, whatever requests the host manager serves, a reload succeeds if and only if every Tag that
was placed is on the pool, and then the localizer has one definition of every Tag, the one that
was accepted last. -/
theorem reload_after_edits {D ρ : Type} (L : LocalizerKernel TagMap D ρ)
    (hparse : parseAprilTagMap math pool expectedFrame document = .ok tags)
    (hrun : (mapMachine text webEditEnabled document).Run tr s) (localizer : Localizer TagMap)
    (nowNs : ℤ) :
    let placed := placements (readTable document.tags) tr
    let map := (parseAprilTagMap math pool expectedFrame s).toOption
    ((L.reload expectedFrame localizer nowNs map).2.isSome ↔
        ∀ id placement, placed id = some placement → placement.onPool math pool = true) ∧
      ((L.reload expectedFrame localizer nowNs map).2.isSome →
        ∀ id, (L.reload expectedFrame localizer nowNs map).1.tags[id]?
          = (placed id).map (·.definition math)) := by
  obtain ⟨hheader, hreadable, hplaced⟩ := readable_of_run hparse hrun
  obtain ⟨haccepts, hget⟩ := @parse_of_readable math pool _ _ hheader hreadable
  rw [hplaced] at haccepts hget
  intro placed map
  cases hmap : parseAprilTagMap math pool expectedFrame s with
  | error e =>
    have hnone : map = none := by simp only [map, hmap]; rfl
    rw [hnone]
    refine ⟨iff_of_false Bool.false_ne_true fun hall => ?_, nofun⟩
    obtain ⟨tags', htags'⟩ := haccepts.mpr hall
    rw [hmap] at htags'
    cases htags'
  | ok tags' =>
    have hsome : map = some tags' := by simp only [map, hmap]; rfl
    rw [hsome]
    exact ⟨iff_of_true rfl (haccepts.mp ⟨tags', hmap⟩), fun _ => hget tags' hmap⟩

end Runs

/-! ### A Tag beside the pool -/

/-- The default geometry of the localizer. -/
def samplePool : CuboidPoolGeometry where
  enforce := true
  lengthM := Number.ofRat binary64 (542 / 100)
  widthM := Number.ofRat binary64 (373 / 100)
  surfaceToleranceM := Number.ofRat binary64 (2 / 100)
  orientationToleranceRad :=
    (Number.ofRat binary64 2 * piValue).divide (Number.ofRat binary64 180)

/-- The products for a Tag that is not rotated, and the cosine of two degrees. -/
def sampleMath : TagMath where
  rotation _ := ⟨.unitX, .unitY, .unitZ⟩
  dot u v := u.x * v.x + (u.y * v.y + u.z * v.z)
  cos _ := Number.ofRat binary64 (9993908270190958 / 10 ^ 16)

/-- A map without Tags. -/
def noTags : MapDocument where
  members := [("schema_version", .int 1), ("frame", .string "map")]
  tags := ∅

/-- A Tag of 20 cm that is not rotated. -/
def upsertAt (x y z : ℤ) : MapRequest :=
  .upsert
    (.object
      [("id", .int 12), ("position_m", .array [.int x, .int y, .int z]),
        ("rpy_deg", .array [.int 0, .int 0, .int 0]),
        ("size_m", .float (Number.ofRat binary64 (2 / 10)))])
    .null

def sampleKernel : LocalizerKernel TagMap Unit Unit where
  localize _ _ := { poseValid := false, inlierTagCount := 0, data := () }
  blank := ()

theorem reload_after_edits_upsertAt :
    ∃ tr s, (mapMachine plainText true noTags).Run tr s ∧
      ((sampleKernel.reload "map" { tags := ∅ } 0
          (parseAprilTagMap sampleMath samplePool "map" s).toOption).2.isSome ↔
        ∀ id placement, placements (readTable noTags.tags) tr id = some placement →
          placement.onPool sampleMath samplePool = true) := by
  obtain ⟨x, tr, s, hrun, -⟩ := run_of_execCheck (mapMachine plainText true noTags)
    [upsertAt 1 1 0] (fun _ _ => true) (by decide +kernel)
  have hparse : parseAprilTagMap sampleMath samplePool "map" noTags = .ok ∅ := rfl
  exact ⟨_, s, hrun, (reload_after_edits sampleKernel hparse hrun { tags := ∅ } 0).1⟩

/-- A Tag that is placed in the middle of the pool is accepted by the host manager, and the map
with it is refused by the localizer. -/
theorem accepted_edit_not_loadable :
    ¬∀ (math : TagMath) (pool : CuboidPoolGeometry) (text : PyText) (expectedFrame : String)
      (document s : MapDocument) (tags : TagMap) (tr : MapHistory), pool.enforce = true →
        parseAprilTagMap math pool expectedFrame document = .ok tags →
          (mapMachine text true document).Run tr s → (∀ x ∈ tr, x.output.isOk = true) →
            ∃ tags', parseAprilTagMap math pool expectedFrame s = .ok tags' := by
  intro hall
  obtain ⟨x, tr, s, hrun, hx⟩ := run_of_execCheck (mapMachine plainText true noTags)
    [upsertAt 1 1 1]
    (fun x tr => (x :: tr).all (fun y => y.output.isOk) &&
      !(parseAprilTagMap sampleMath samplePool "map" x.post).isOk)
    (by decide +kernel)
  rw [Bool.and_eq_true, List.all_eq_true, hrun.head_post] at hx
  obtain ⟨tags', htags'⟩ :=
    hall sampleMath samplePool plainText "map" noTags s ∅ _ rfl rfl hrun hx.1
  rw [htags'] at hx
  exact absurd hx.2 (by simp [Except.isOk, Except.toBool])

end RobotCore
