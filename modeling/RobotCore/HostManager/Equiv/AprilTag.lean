import RobotCore.HostManager.AprilTag
import RobotCore.Lib.Except

/-!
# What an edit does

An edit sets or removes the entries of the ids it names and leaves the others alone
(`getElem?_effect`); edits that name different ids can be done in either order (`effect_comm`).
-/

namespace RobotCore

open Std Ieee

/-- The ids an edit names. -/
def TagEdit.ids : TagEdit → List ℕ
  | .upsert tagId previousTagId _ => [tagId, previousTagId]
  | .delete tagId => [tagId]

/-- The keys of an edit. -/
def TagEdit.keys (edit : TagEdit) : List String := edit.ids.map tagKey

/-- What an edit makes of the entry of a key it names. -/
def TagEdit.entry (edit : TagEdit) (key : String) : Option Json :=
  match edit with
  | .upsert tagId _ placement => if tagKey tagId = key then some placement.toJson else none
  | .delete _ => none

/-- What an edit makes of the table. -/
def TagEdit.effect (edit : TagEdit) (tags : TagTable) : TagTable :=
  match edit with
  | .upsert tagId previousTagId placement =>
    (tags.erase (tagKey previousTagId)).insert (tagKey tagId) placement.toJson
  | .delete tagId => tags.erase (tagKey tagId)

/-- The edit passes its checks. -/
def TagEdit.Applicable (edit : TagEdit) (tags : TagTable) : Prop :=
  match edit with
  | .upsert tagId previousTagId _ =>
    previousTagId ≠ tagId → tagKey previousTagId ∈ tags ∧ tagKey tagId ∉ tags
  | .delete tagId => tagKey tagId ∈ tags

def MapDocument.withTags (document : MapDocument) (tags : TagTable) : MapDocument :=
  { document with tags }

theorem tagKey_injective : Function.Injective tagKey := by
  intro m n h
  have hdigits : Nat.toDigits 10 m = Nat.toDigits 10 n := by
    rw [← Nat.toList_repr, ← Nat.toList_repr]
    exact congrArg String.toList h
  rw [← Nat.ofDigitChars_toDigits (b := 10) (n := m) (by decide) (by decide), hdigits,
    Nat.ofDigitChars_toDigits (by decide) (by decide)]

theorem getElem?_effect (edit : TagEdit) (tags : TagTable) (key : String) :
    (edit.effect tags)[key]? = if key ∈ edit.keys then edit.entry key else tags[key]? := by
  cases edit with
  | upsert tagId previousTagId placement =>
    unfold TagEdit.effect TagEdit.keys TagEdit.entry TagEdit.ids
    rw [ExtTreeMap.getElem?_insert, ExtTreeMap.getElem?_erase]
    simp only [Std.compare_eq_iff_eq, List.map_cons, List.map_nil, List.mem_cons, List.not_mem_nil,
      or_false]
    by_cases htag : tagKey tagId = key
    · simp [htag]
    · by_cases hprevious : tagKey previousTagId = key
      · simp [htag, hprevious]
      · simp [htag, hprevious, Ne.symm htag, Ne.symm hprevious]
  | delete tagId =>
    unfold TagEdit.effect TagEdit.keys TagEdit.entry TagEdit.ids
    rw [ExtTreeMap.getElem?_erase]
    simp only [Std.compare_eq_iff_eq, List.map_cons, List.map_nil, List.mem_singleton]
    by_cases htag : tagKey tagId = key
    · simp [htag]
    · simp [htag, Ne.symm htag]

theorem apply_eq_ok_iff (edit : TagEdit) (document document' : MapDocument) :
    edit.apply document = .ok document' ↔
      edit.Applicable document.tags ∧
      document' = document.withTags (edit.effect document.tags) := by
  cases edit with
  | upsert tagId previousTagId placement =>
    unfold TagEdit.apply TagEdit.Applicable TagEdit.effect MapDocument.withTags
    by_cases hsame : previousTagId = tagId
    · subst hsame
      have htags : (document.tags.erase (tagKey previousTagId)).insert (tagKey previousTagId)
          placement.toJson = document.tags.insert (tagKey previousTagId) placement.toJson := by
        apply ExtTreeMap.ext_getElem?
        intro key
        simp only [ExtTreeMap.getElem?_insert, ExtTreeMap.getElem?_erase]
        split_ifs <;> rfl
      simp only [htags]
      simp [eq_comm]
    · by_cases hprevious : tagKey previousTagId ∈ document.tags
      · by_cases htag : tagKey tagId ∈ document.tags
        · simp [hsame, hprevious, htag]
        · simp [hsame, hprevious, htag, eq_comm]
      · simp [hsame, hprevious]
  | delete tagId =>
    unfold TagEdit.apply TagEdit.Applicable TagEdit.effect MapDocument.withTags
    by_cases htag : tagKey tagId ∈ document.tags
    · simp [htag, eq_comm]
    · simp [htag]

/-! ### Edits of different ids -/

section Disjoint

variable {e e' : TagEdit} (h : e.ids.Disjoint e'.ids)

include h

theorem keys_disjoint : e.keys.Disjoint e'.keys := by
  intro key hkey hkey'
  obtain ⟨id, hid, rfl⟩ := List.mem_map.mp hkey
  obtain ⟨id', hid', heq⟩ := List.mem_map.mp hkey'
  rw [tagKey_injective heq] at hid'
  exact h hid hid'

theorem getElem?_effect_other (tags : TagTable) {key : String} (hkey : key ∈ e.keys) :
    (e'.effect tags)[key]? = tags[key]? := by
  rw [getElem?_effect, if_neg (keys_disjoint h hkey)]

theorem mem_effect_other (tags : TagTable) {key : String} (hkey : key ∈ e.keys) :
    key ∈ e'.effect tags ↔ key ∈ tags := by
  rw [ExtTreeMap.mem_iff_isSome_getElem?, getElem?_effect_other h tags hkey,
    ExtTreeMap.mem_iff_isSome_getElem?]

theorem applicable_effect_other (tags : TagTable) :
    e.Applicable (e'.effect tags) ↔ e.Applicable tags := by
  have hmem (key : String) (hkey : key ∈ e.keys) := mem_effect_other h tags hkey
  cases e with
  | upsert tagId previousTagId placement =>
    have htag := hmem (tagKey tagId) (by simp [TagEdit.keys, TagEdit.ids])
    have hprevious := hmem (tagKey previousTagId) (by simp [TagEdit.keys, TagEdit.ids])
    simp only [TagEdit.Applicable, htag, hprevious]
  | delete tagId =>
    exact hmem _ (by simp [TagEdit.keys, TagEdit.ids])

/-- Edits of different ids commute. -/
theorem effect_comm (tags : TagTable) :
    e.effect (e'.effect tags) = e'.effect (e.effect tags) := by
  apply ExtTreeMap.ext_getElem?
  intro key
  have hdisjoint := keys_disjoint h
  simp only [getElem?_effect]
  by_cases hkey : key ∈ e.keys
  · rw [if_pos hkey, if_neg (hdisjoint hkey), if_pos hkey]
  · rw [if_neg hkey, if_neg hkey]

/-- An edit that changes the table can be seen after another edit. -/
theorem effect_effect_ne {tags : TagTable} (hne : e.effect tags ≠ tags) :
    e.effect (e'.effect tags) ≠ e'.effect tags := by
  intro heq
  refine hne (ExtTreeMap.ext_getElem? fun key => ?_)
  have hkey := congrArg (·[key]?) heq
  simp only [getElem?_effect] at hkey ⊢
  split_ifs at hkey ⊢ with he he'
  · exact absurd he' (keys_disjoint h he)
  · exact hkey
  · rfl
  · rfl

end Disjoint

/-! ### The answer -/

/-- The tags of a document can be listed. -/
def Listable (text : PyText) (tags : TagTable) : Prop :=
  ∀ key definition, tags[key]? = some definition →
    (text.int key).isSome ∧ definition.isObject = true

theorem tagList_eq_ok_iff (text : PyText) (document : MapDocument) :
    tagList text document = .ok () ↔ Listable text document.tags := by
  have hmem (key : String) (definition : Json) := ExtTreeMap.mem_toList_iff_getElem?_eq_some
    (t := document.tags) (k := key) (v := definition)
  unfold tagList Listable
  constructor
  · intro h key definition hkey
    split_ifs at h with hint hobject
    simp only [List.any_eq_true, Prod.exists, not_exists, not_and, Option.isNone_iff_eq_none,
      Bool.not_eq_true', Bool.not_eq_false] at hint hobject
    exact ⟨Option.isSome_iff_ne_none.mpr (hint key definition ((hmem _ _).mpr hkey)),
      hobject key definition ((hmem _ _).mpr hkey)⟩
  · intro h
    rw [if_neg, if_neg]
    · simp only [List.any_eq_true, Prod.exists, not_exists, not_and, Bool.not_eq_true',
        Bool.not_eq_false]
      exact fun key definition hkey => (h key definition ((hmem _ _).mp hkey)).2
    · simp only [List.any_eq_true, Prod.exists, not_exists, not_and, Option.isNone_iff_eq_none]
      exact fun key definition hkey =>
        Option.isSome_iff_ne_none.mp (h key definition ((hmem _ _).mp hkey)).1

/-- What two edits leave can be listed when what each of them leaves can. -/
theorem listable_effect_effect {text : PyText} {e e' : TagEdit} {tags : TagTable}
    (h : Listable text (e.effect tags)) (h' : Listable text (e'.effect tags)) :
    Listable text (e.effect (e'.effect tags)) := by
  intro key definition hkey
  rw [getElem?_effect] at hkey
  by_cases hmem : key ∈ e.keys
  · refine h key definition ?_
    rw [getElem?_effect, if_pos hmem]
    rwa [if_pos hmem] at hkey
  · rw [if_neg hmem] at hkey
    exact h' key definition hkey

/-- Conversions of plain decimal texts. -/
def plainText : PyText where
  float _ := none
  int text :=
    let n := Nat.ofDigitChars 10 text.toList 0
    if toString n = text then some n else none
  strip text := text
  int_toString n := by simp [Nat.toString_eq_repr, Nat.repr]

/-! ### Validated edits -/

/-- What is checked of the three numbers and the size. -/
structure TagPlacement.Validated (placement : TagPlacement) : Prop where
  position_length : placement.positionM.length = 3
  position_mem : ∀ value ∈ placement.positionM, positionRange.contains value = true
  rpy_length : placement.rpyDeg.length = 3
  rpy_mem : ∀ value ∈ placement.rpyDeg, rpyRange.contains value = true
  size_mem : sizeRange.contains placement.sizeM = true

/-- What is checked of an edit. -/
def TagEdit.Validated : TagEdit → Prop
  | .upsert tagId previousTagId placement =>
    tagId ≤ 65535 ∧ previousTagId ≤ 65535 ∧ placement.Validated
  | .delete tagId => tagId ≤ 65535

section Validated

variable {text : PyText}

theorem finiteVector_ok {raw : Json} {label : String} {range : ValueRange}
    {values : List Binary64} (h : finiteVector text raw label range = .ok values) :
    values.length = 3 ∧ ∀ value ∈ values, range.contains value = true := by
  unfold finiteVector at h
  split at h
  · cases h
  · cases h
  · split_ifs at h with hcheck
    cases h
    simpa using hcheck

theorem validatedTagId_ok {raw : Json} {id : ℕ} (h : validatedTagId text raw = .ok id) :
    id ≤ 65535 := by
  unfold validatedTagId at h
  split at h
  · split_ifs at h with hrange
    cases h
    omega
  · split at h <;> cases h
  · split at h
    · cases h
    · split_ifs at h with hrange
      cases h
      omega
  · cases h

theorem validatedSize_ok {raw : Json} {size : Binary64} (h : validatedSize text raw = .ok size) :
    sizeRange.contains size = true := by
  unfold validatedSize at h
  split at h
  · cases h
  · cases h
  · split_ifs at h with hrange
    cases h
    exact hrange

theorem validatedTag_ok {raw : Json} {id : ℕ} {placement : TagPlacement}
    (h : validatedTag text raw = .ok (id, placement)) : id ≤ 65535 ∧ placement.Validated := by
  cases raw with
  | object tag =>
    obtain ⟨id', hid, h⟩ := bind_eq_ok_iff.mp h
    obtain ⟨positionM, hposition, h⟩ := bind_eq_ok_iff.mp h
    obtain ⟨rpyDeg, hrpy, h⟩ := bind_eq_ok_iff.mp h
    obtain ⟨sizeM, hsize, h⟩ := bind_eq_ok_iff.mp h
    cases h
    exact ⟨validatedTagId_ok hid,
      { position_length := (finiteVector_ok hposition).1
        position_mem := (finiteVector_ok hposition).2
        rpy_length := (finiteVector_ok hrpy).1
        rpy_mem := (finiteVector_ok hrpy).2
        size_mem := validatedSize_ok hsize }⟩
  | null | bool _ | int _ | float _ | string _ | array _ => cases h

/-- Every request that passes its validation gives a validated edit. -/
theorem validatedEdit_ok {webEditEnabled : Bool} {request : MapRequest} {edit : TagEdit}
    (h : validatedEdit text webEditEnabled request = .ok edit) : edit.Validated := by
  cases request with
  | upsert tag replaceTagId =>
    unfold validatedEdit at h
    split_ifs at h
    obtain ⟨⟨id, placement⟩, htag, h⟩ := bind_eq_ok_iff.mp h
    obtain ⟨hid, hplacement⟩ := validatedTag_ok htag
    dsimp only at h
    split at h
    · cases h
      exact ⟨hid, hid, hplacement⟩
    · obtain ⟨previousId, hprevious, h⟩ := bind_eq_ok_iff.mp h
      cases h
      exact ⟨hid, validatedTagId_ok hprevious, hplacement⟩
  | delete tagId =>
    unfold validatedEdit at h
    split_ifs at h
    obtain ⟨id, hid, h⟩ := bind_eq_ok_iff.mp h
    cases h
    exact validatedTagId_ok hid

end Validated

end RobotCore
