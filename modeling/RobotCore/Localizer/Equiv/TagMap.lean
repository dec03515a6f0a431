import RobotCore.HostManager.Equiv.AprilTag
import RobotCore.Localizer.TagMap

/-!
# Which maps the localizer reads

A map is read when its schema and its frame are right, every key is a canonical id, and every
definition is readable, in range and on the pool; the result has the definition of each of them
(`parse_of_readable`).
-/

namespace RobotCore

open Std

/-! ### Ids -/

theorem toList_tagKey (id : ℕ) : (tagKey id).toList = Nat.toDigits 10 id := by
  rw [tagKey, Nat.toString_eq_repr, Nat.toList_repr]

theorem canonicalTagId_eq_ok_iff (key : String) (id : ℕ) :
    canonicalTagId key = .ok id ↔ key = tagKey id ∧ id ≤ 65535 := by
  unfold canonicalTagId
  constructor
  · intro h
    dsimp only at h
    split_ifs at h with hdigits hlarge hrange
    · rw [not_or, not_not] at hrange
      cases h
      exact ⟨hrange.2.symm, by omega⟩
  · rintro ⟨rfl, hid⟩
    have hdigits : (Nat.toDigits 10 id).all Char.isDigit = true :=
      List.all_eq_true.mpr fun c hc => Nat.isDigit_of_mem_toDigits (by decide) (by decide) hc
    have hnonempty : (Nat.toDigits 10 id).isEmpty = false := by
      rw [List.isEmpty_eq_false_iff]
      exact Nat.toDigits_ne_nil
    have hparsed : Nat.ofDigitChars 10 (tagKey id).toList 0 = id := by
      rw [toList_tagKey, Nat.ofDigitChars_toDigits (by decide) (by decide)]
    dsimp only
    rw [hparsed, toList_tagKey, hdigits, hnonempty, if_neg (by decide), if_neg (by omega),
      if_neg (by rw [not_or]; exact ⟨by omega, not_not.mpr rfl⟩)]

/-! ### Definitions -/

section Parse

variable (math : TagMath) (pool : CuboidPoolGeometry)

/-- The Tag is on a surface of the pool, or the pool is not checked. -/
def TagPlacement.onPool (placement : TagPlacement) : Bool :=
  !pool.enforce ||
    pool.isValid && (pool.candidates placement.center).any
      (pool.surfaceAccepts math (math.rotation placement.rpy) (placement.corners math))

variable {math pool}

theorem validateTagOnPool_eq_ok_iff (id : ℕ) (placement : TagPlacement) :
    validateTagOnPool math pool id placement.center (math.rotation placement.rpy)
      (placement.corners math) = .ok () ↔ placement.onPool math pool = true := by
  unfold validateTagOnPool TagPlacement.onPool
  cases henforce : pool.enforce
  · simp
  cases hvalid : pool.isValid
  · simp
  cases hany : (pool.candidates placement.center).any
      (pool.surfaceAccepts math (math.rotation placement.rpy) (placement.corners math)) <;> simp

theorem parseTag_eq_ok_iff (key : String) (value : Json) (id : ℕ) (definition : TagDefinition) :
    parseTag math pool key value = .ok (id, definition) ↔
      (key = tagKey id ∧ id ≤ 65535) ∧ ∃ placement, readPlacement key value = .ok placement ∧
        placement.inRange = true ∧ placement.onPool math pool = true ∧
          definition = placement.definition math := by
  rw [← canonicalTagId_eq_ok_iff]
  unfold parseTag
  cases canonicalTagId key with
  | error e => simp [bind, Except.bind]
  | ok id' =>
    cases readPlacement key value with
    | error e => simp [bind, Except.bind]
    | ok placement =>
      have hpool : validateTagOnPool math pool id' placement.center (math.rotation placement.rpy)
          (placement.corners math) = .ok () ↔ placement.onPool math pool = true :=
        validateTagOnPool_eq_ok_iff id' placement
      cases hrange : placement.inRange with
      | false => simp [bind, Except.bind, hrange]
      | true =>
        cases hvalid : validateTagOnPool math pool id' placement.center
            (math.rotation placement.rpy) (placement.corners math) with
        | error e =>
          rw [hvalid] at hpool
          have hoff : placement.onPool math pool = false := by simpa using hpool
          simp [bind, Except.bind, hrange, hvalid, hoff]
        | ok _ =>
          rw [hvalid] at hpool
          have hon : placement.onPool math pool = true := by simpa using hpool
          simp only [bind, Except.bind, pure, Except.pure, hrange, hvalid, Bool.not_true,
            Bool.false_eq_true, if_false]
          constructor
          · intro h
            cases h
            exact ⟨rfl, placement, rfl, hrange, hon, rfl⟩
          · rintro ⟨hid, placement', hplacement, -, -, rfl⟩
            cases hid
            cases hplacement
            rfl

/-! ### The loop -/

/-- The loop reads every entry. -/
theorem parseTags_ok {result result' : TagMap} {entries : List (String × Json)}
    (h : parseTags math pool result entries = .ok result') :
    ∀ entry ∈ entries, ∃ tag, parseTag math pool entry.1 entry.2 = .ok tag := by
  induction entries generalizing result with
  | nil => nofun
  | cons entry entries ih =>
    rw [parseTags] at h
    cases htag : parseTag math pool entry.1 entry.2 with
    | error e => simp [bind, Except.bind, htag] at h
    | ok tag =>
      simp only [bind, Except.bind, htag] at h
      split_ifs at h
      exact List.forall_mem_cons.mpr ⟨⟨tag, htag⟩, ih h⟩

/-- What the loop reads, when every entry can be read and has a key of its own. -/
theorem exists_parseTags {result : TagMap} {entries : List (String × Json)}
    (hread : ∀ entry ∈ entries, ∃ tag, parseTag math pool entry.1 entry.2 = .ok tag)
    (hkeys : entries.Pairwise fun entry entry' => entry.1 ≠ entry'.1)
    (hresult : ∀ id ∈ result, ∀ entry ∈ entries, entry.1 ≠ tagKey id) :
    ∃ result', parseTags math pool result entries = .ok result' ∧
      ∀ id definition, result'[id]? = some definition ↔
        result[id]? = some definition ∨
          ∃ entry ∈ entries, parseTag math pool entry.1 entry.2 = .ok (id, definition) := by
  induction entries generalizing result with
  | nil => exact ⟨result, rfl, by simp⟩
  | cons entry entries ih =>
    rw [List.forall_mem_cons] at hread
    rw [List.pairwise_cons] at hkeys
    obtain ⟨⟨⟨id, definition⟩, htag⟩, hread⟩ := hread
    have hkey : entry.1 = tagKey id := ((parseTag_eq_ok_iff _ _ _ _).mp htag).1.1
    have hnew : id ∉ result := fun hmem => hresult id hmem entry List.mem_cons_self hkey
    have hrest : ∀ id' ∈ result.insert id definition, ∀ entry' ∈ entries,
        entry'.1 ≠ tagKey id' := by
      intro id' hid' entry' hentry'
      rw [ExtTreeMap.mem_insert, Std.compare_eq_iff_eq] at hid'
      rcases hid' with rfl | hid'
      · rw [← hkey]
        exact (hkeys.1 entry' hentry').symm
      · exact hresult id' hid' entry' (List.mem_cons_of_mem entry hentry')
    obtain ⟨result', hparse, hget⟩ := ih hread hkeys.2 hrest
    refine ⟨result', ?_, fun id' definition' => ?_⟩
    · rw [parseTags]
      simp only [bind, Except.bind, htag]
      rw [if_neg hnew, hparse]
    · have hhead : parseTag math pool entry.1 entry.2 = .ok (id', definition') ↔
          id = id' ∧ definition = definition' := by simp [htag]
      rw [hget, ExtTreeMap.getElem?_insert, List.exists_mem_cons_iff, hhead]
      simp only [Std.compare_eq_iff_eq]
      by_cases hid : id = id'
      · subst hid
        have hnone : result[id]? = none := by
          rw [getElem?_eq_none_iff]
          exact hnew
        simp [hnone]
      · simp [hid]

/-! ### The document -/

/-- The schema and the frame of a document are right. -/
def MapDocument.HasHeader (document : MapDocument) (expectedFrame : String) : Prop :=
  isSchemaVersionOne (getMember document.members "schema_version") = true ∧
    getMember document.members "frame" = .string expectedFrame

/-- What the definition of an id says. -/
def readTable (tags : TagTable) (id : ℕ) : Option TagPlacement :=
  tags[tagKey id]?.bind fun value => (readPlacement (tagKey id) value).toOption

/-- Every key is canonical, and every definition is readable and in range. -/
def Readable (tags : TagTable) : Prop :=
  ∀ key value, tags[key]? = some value →
    ∃ id placement, (key = tagKey id ∧ id ≤ 65535) ∧ readPlacement key value = .ok placement ∧
      placement.inRange = true

variable {expectedFrame : String} {document : MapDocument} {tags : TagMap}

theorem parseAprilTagMap_eq_ok (h : document.HasHeader expectedFrame) :
    parseAprilTagMap math pool expectedFrame document
      = parseTags math pool ∅ document.tags.toList := by
  obtain ⟨hschema, hframe⟩ := h
  simp [parseAprilTagMap, hschema, hframe]

theorem hasHeader_of_parse (h : parseAprilTagMap math pool expectedFrame document = .ok tags) :
    document.HasHeader expectedFrame := by
  unfold parseAprilTagMap at h
  split_ifs at h with hschema
  rw [Bool.not_eq_true', Bool.not_eq_false] at hschema
  split at h
  · rename_i frame hframe
    split_ifs at h with hne
    rw [not_not] at hne
    exact ⟨hschema, by rw [hframe, hne]⟩
  · cases h

theorem mem_toList_tags (document : MapDocument) (entry : String × Json) :
    entry ∈ document.tags.toList ↔ document.tags[entry.1]? = some entry.2 :=
  ExtTreeMap.mem_toList_iff_getElem?_eq_some

/-- Every map that is parsed is readable. -/
theorem readable_of_parse (h : parseAprilTagMap math pool expectedFrame document = .ok tags) :
    Readable document.tags := by
  rw [parseAprilTagMap_eq_ok (hasHeader_of_parse h)] at h
  intro key value hkey
  obtain ⟨⟨id, definition⟩, htag⟩ := parseTags_ok h (key, value) ((mem_toList_tags _ _).mpr hkey)
  obtain ⟨hid, placement, hplacement, hrange, -⟩ := (parseTag_eq_ok_iff _ _ _ _).mp htag
  exact ⟨id, placement, hid, hplacement, hrange⟩

theorem readTable_eq_some_iff {table : TagTable} (hreadable : Readable table) (id : ℕ)
    (placement : TagPlacement) : readTable table id = some placement ↔
      ∃ value, table[tagKey id]? = some value ∧ id ≤ 65535 ∧
        readPlacement (tagKey id) value = .ok placement ∧ placement.inRange = true := by
  unfold readTable
  rw [Option.bind_eq_some_iff]
  constructor
  · rintro ⟨value, hvalue, hread⟩
    obtain ⟨id', placement', ⟨hkey, hid⟩, hplacement, hrange⟩ := hreadable _ value hvalue
    rw [hplacement] at hread
    cases hread
    exact ⟨value, hvalue, tagKey_injective hkey ▸ hid, hplacement, hrange⟩
  · rintro ⟨value, hvalue, -, hplacement, -⟩
    exact ⟨value, hvalue, by rw [hplacement]; rfl⟩

/-- An entry of a readable map can be parsed if and only if its Tag is on the pool. -/
theorem parseTag_of_readable {table : TagTable} (hreadable : Readable table) {id : ℕ} {value : Json}
    (hvalue : table[tagKey id]? = some value) (definition : TagDefinition) :
    parseTag math pool (tagKey id) value = .ok (id, definition) ↔
      ∃ placement, readTable table id = some placement ∧ placement.onPool math pool = true ∧
        definition = placement.definition math := by
  rw [parseTag_eq_ok_iff]
  constructor
  · rintro ⟨⟨-, hid⟩, placement, hplacement, hrange, hpool, hdefinition⟩
    exact ⟨placement, (readTable_eq_some_iff hreadable _ _).mpr
      ⟨value, hvalue, hid, hplacement, hrange⟩, hpool, hdefinition⟩
  · rintro ⟨placement, hread, hpool, hdefinition⟩
    obtain ⟨value', hvalue', hid, hplacement, hrange⟩ :=
      (readTable_eq_some_iff hreadable _ _).mp hread
    rw [hvalue] at hvalue'
    cases hvalue'
    exact ⟨⟨rfl, hid⟩, placement, hplacement, hrange, hpool, hdefinition⟩

theorem toList_pairwise (table : TagTable) :
    table.toList.Pairwise fun entry entry' => entry.1 ≠ entry'.1 := by
  refine ExtTreeMap.distinct_keys_toList.imp fun {entry entry'} h => ?_
  rwa [ne_eq, ← Std.compare_eq_iff_eq]

/-- A readable map with the right header is parsed if and only if all of its Tags are on the
pool, and then the result has the definition of each of them. -/
theorem parse_of_readable (hheader : document.HasHeader expectedFrame)
    (hreadable : Readable document.tags) :
    ((∃ tags, parseAprilTagMap math pool expectedFrame document = .ok tags) ↔
      ∀ id placement, readTable document.tags id = some placement →
        placement.onPool math pool = true) ∧
      ∀ tags, parseAprilTagMap math pool expectedFrame document = .ok tags →
        ∀ id, tags[id]? = (readTable document.tags id).map (·.definition math) := by
  rw [parseAprilTagMap_eq_ok hheader]
  have hparse (hread : ∀ entry ∈ document.tags.toList,
      ∃ tag, parseTag math pool entry.1 entry.2 = .ok tag) :=
    @exists_parseTags math pool ∅ _ hread (toList_pairwise _) (by simp)
  refine ⟨⟨?_, ?_⟩, ?_⟩
  -- an accepted map has its tags on the pool
  · rintro ⟨tags, htags⟩ id placement hplacement
    obtain ⟨value, hvalue, -⟩ := (readTable_eq_some_iff hreadable _ _).mp hplacement
    obtain ⟨⟨id', definition⟩, htag⟩ :=
      parseTags_ok htags (tagKey id, value) ((mem_toList_tags _ _).mpr hvalue)
    obtain rfl : id = id' := tagKey_injective ((parseTag_eq_ok_iff _ _ _ _).mp htag).1.1
    obtain ⟨placement', hplacement', hpool, -⟩ :=
      (parseTag_of_readable hreadable hvalue _).mp htag
    rw [hplacement] at hplacement'
    cases hplacement'
    exact hpool
  -- and a readable map with its tags there is accepted
  · intro hall
    obtain ⟨tags, htags, -⟩ := hparse fun ⟨key, value⟩ hentry => by
      have hvalue := (mem_toList_tags _ _).mp hentry
      obtain ⟨id, placement, ⟨rfl, hid⟩, hplacement, hrange⟩ := hreadable _ _ hvalue
      have hread := (readTable_eq_some_iff hreadable _ _).mpr
        ⟨value, hvalue, hid, hplacement, hrange⟩
      exact ⟨_, (parseTag_of_readable hreadable hvalue _).mpr
        ⟨placement, hread, hall id placement hread, rfl⟩⟩
    exact ⟨tags, htags⟩
  -- the map that comes out has the definitions of the table
  · intro tags htags id
    obtain ⟨tags', htags', hget⟩ := hparse (parseTags_ok htags)
    rw [htags] at htags'
    cases htags'
    refine Option.ext fun definition => ?_
    rw [hget, Option.map_eq_some_iff]
    constructor
    · rintro (hempty | ⟨⟨key, value⟩, hentry, htag⟩)
      · simp at hempty
      · obtain ⟨⟨rfl, -⟩, -⟩ := (parseTag_eq_ok_iff _ _ _ _).mp htag
        obtain ⟨placement, hplacement, -, rfl⟩ :=
          (parseTag_of_readable hreadable ((mem_toList_tags _ _).mp hentry) _).mp htag
        exact ⟨placement, hplacement, rfl⟩
    · rintro ⟨placement, hplacement, rfl⟩
      obtain ⟨value, hvalue, -⟩ := (readTable_eq_some_iff hreadable _ _).mp hplacement
      have hentry := (mem_toList_tags _ (tagKey id, value)).mpr hvalue
      obtain ⟨⟨id', definition⟩, htag⟩ := parseTags_ok htags _ hentry
      obtain rfl : id = id' := tagKey_injective ((parseTag_eq_ok_iff _ _ _ _).mp htag).1.1
      obtain ⟨placement', hplacement', -, rfl⟩ :=
        (parseTag_of_readable hreadable hvalue _).mp htag
      rw [hplacement] at hplacement'
      cases hplacement'
      exact Or.inr ⟨_, hentry, htag⟩

end Parse

end RobotCore
