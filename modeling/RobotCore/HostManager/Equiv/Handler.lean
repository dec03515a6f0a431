import RobotCore.HostManager.Equiv.Overflow
import RobotCore.HostManager.Handler

/-!
# Requests without an answer

The handler answers a `ValueError` and lets every other exception end the request.  A request is
answered exactly when none of the other exceptions is reached (`answered_iff`).
-/

namespace RobotCore

open Ieee
open Std (ExtTreeMap)

/-! ### Nesting -/

theorem depthOfValues_le_iff {values : List Json} {n : ℕ} :
    depthOfValues values ≤ n ↔ ∀ value ∈ values, value.depth ≤ n := by
  induction values with
  | nil => simp [depthOfValues]
  | cons value values ih => rw [depthOfValues, max_le_iff, ih, List.forall_mem_cons]

theorem depthOfMembers_le_iff {members : List (String × Json)} {n : ℕ} :
    depthOfMembers members ≤ n ↔ ∀ member ∈ members, member.2.depth ≤ n := by
  induction members with
  | nil => simp [depthOfMembers]
  | cons member members ih =>
    obtain ⟨key, value⟩ := member
    rw [depthOfMembers, max_le_iff, ih, List.forall_mem_cons]

theorem depth_array_le_iff {values : List Json} {n : ℕ} :
    (Json.array values).depth ≤ n + 1 ↔ ∀ value ∈ values, value.depth ≤ n := by
  rw [Json.depth, Nat.add_comm, Nat.add_le_add_iff_right, depthOfValues_le_iff]

theorem depth_object_le_iff {members : List (String × Json)} {n : ℕ} :
    (Json.object members).depth ≤ n + 1 ↔ ∀ member ∈ members, member.2.depth ≤ n := by
  rw [Json.depth, Nat.add_comm, Nat.add_le_add_iff_right, depthOfMembers_le_iff]

namespace HostManager

/-- The id does not nest an entry deeper. -/
theorem depth_tagEntry {text : PyText} (tag : String × Json) :
    (tagEntry text tag).depth = tag.2.depth := by
  obtain ⟨key, definition⟩ := tag
  unfold tagEntry withId
  cases definition with
  | object members =>
    dsimp only
    split_ifs
    · rfl
    · simp only [Json.depth, depthOfMembers, Nat.zero_max]
  | null | bool _ | int _ | float _ | string _ | array _ => rfl

theorem depth_placement_le (placement : TagPlacement) : placement.toJson.depth ≤ 2 := by
  have hvalues : ∀ values : List Binary64, ∀ value ∈ values.map Json.float, value.depth ≤ 0 := by
    intro values value hvalue
    obtain ⟨x, -, rfl⟩ := List.mem_map.mp hvalue
    exact le_rfl
  unfold TagPlacement.toJson
  rw [depth_object_le_iff]
  rintro member hmember
  simp only [List.mem_cons, List.not_mem_nil, or_false] at hmember
  rcases hmember with rfl | rfl | rfl
  · exact depth_array_le_iff.mpr (hvalues _)
  · exact depth_array_le_iff.mpr (hvalues _)
  · exact Nat.zero_le _

/-! ### The answer to an action -/

section Answer

variable {host : HostManager} {storage : MapStorage}

/-- A line with a JSON object is written, whose member `ok` is true or false. -/
def Answered (host : HostManager) (output : Except PyException Answer) : Prop :=
  ∃ answer ok, output = .ok answer ∧ answer.response.lookup "ok" = some (.bool ok) ∧
    answer.line = host.json.dumps (.object answer.response) ++ newline

/-- A line is written, whose member `ok` is true. -/
def AnsweredOk (output : Except PyException Answer) : Prop :=
  ∃ answer, output = .ok answer ∧ answer.response.lookup "ok" = some (.bool true)

theorem answered_respond_iff {ok : Bool} {response : List (String × Json)}
    (h : response.lookup "ok" = some (.bool ok)) :
    Answered host (host.respond response) ↔
      (Json.object response).depth ≤ host.json.dumpsLimit := by
  unfold respond Answered
  split_ifs with hdepth
  · simp [hdepth]
  · simp [not_lt.mp hdepth, h]

theorem answered_respondError (message : String) : Answered host (host.respondError message) := by
  rw [respondError, answered_respond_iff rfl]
  have hlimit := host.json.five_le_dumpsLimit
  simp only [Json.depth, depthOfMembers]
  omega

theorem not_answeredOk_respondError (message : String) :
    ¬AnsweredOk (host.respondError message) := by
  rintro ⟨answer, hanswer, hok⟩
  unfold respondError respond at hanswer
  split_ifs at hanswer
  cases hanswer
  cases hok

theorem depth_response_le_iff {ok : Bool} {result : Json} {n : ℕ} :
    (Json.object [("ok", .bool ok), ("result", result)]).depth ≤ n + 1 ↔ result.depth ≤ n := by
  rw [depth_object_le_iff]
  simp [Json.depth]

/-- An exception is answered when it is a `ValueError`. -/
theorem answered_error_iff {e : PyException} :
    Answered host (host.respondTo (.error e)) ↔ ∃ message, e = .valueError message := by
  unfold respondTo
  split
  · next h => cases h
  · next message h =>
    cases h
    simp [answered_respondError]
  · next hne h =>
    cases h
    simp only [Answered, reduceCtorEq, false_and, exists_false, false_iff]
    rintro ⟨message, rfl⟩
    exact hne message rfl

theorem not_answeredOk_error {e : PyException} :
    ¬AnsweredOk (host.respondTo (.error e)) := by
  unfold respondTo
  split
  · next h => cases h
  · exact not_answeredOk_respondError _
  · rintro ⟨answer, hanswer, -⟩
    cases hanswer

/-- A result is answered when it is not nested too deep. -/
theorem answered_ok_iff {result : Json} :
    Answered host (host.respondTo (.ok result)) ↔ result.depth + 1 ≤ host.json.dumpsLimit := by
  obtain ⟨n, hn⟩ := Nat.exists_eq_add_of_le' host.json.five_le_dumpsLimit
  show Answered host (host.respond _) ↔ _
  rw [answered_respond_iff rfl, hn]
  show _ ≤ n + 4 + 1 ↔ _
  rw [depth_response_le_iff]
  omega

theorem answeredOk_ok_iff {result : Json} :
    AnsweredOk (host.respondTo (.ok result)) ↔ result.depth + 1 ≤ host.json.dumpsLimit := by
  rw [← answered_ok_iff]
  show AnsweredOk (host.respond _) ↔ Answered host (host.respond _)
  rw [answered_respond_iff rfl]
  unfold respond AnsweredOk
  split_ifs with hdepth
  · simp [hdepth]
  · simp [not_lt.mp hdepth]

/-! ### The list of the tags -/

/-- A key of the table is no integer. -/
def UnreadableKey (text : PyText) (document : MapDocument) : Prop :=
  ∃ tag ∈ document.tags.toList, text.int tag.1 = none

/-- Every definition is an object, and the answer with it can be encoded. -/
def Definitions (json : PyJson) (document : MapDocument) : Prop :=
  ∀ tag ∈ document.tags.toList, tag.2.isObject = true ∧ tag.2.depth + 3 ≤ json.dumpsLimit

/-- The answer has the list of the tags in a member, and is not nested deeper otherwise. -/
def WrapsTags (wrap : Json → Json) : Prop :=
  ∀ (tags : Json) (n : ℕ), 2 ≤ n → ((wrap tags).depth ≤ n + 1 ↔ tags.depth ≤ n)

theorem wrapsTags_editReply (edit : TagEdit) : WrapsTags (host.editReply edit) := by
  intro tags n hn
  cases edit with
  | upsert tagId previousTagId placement =>
    have hentry : (tagEntry host.text (tagKey tagId, placement.toJson)).depth ≤ n := by
      rw [depth_tagEntry]
      exact (depth_placement_le placement).trans hn
    unfold editReply
    rw [depth_object_le_iff]
    simp [hentry, Json.depth]
  | delete tagId =>
    unfold editReply
    rw [depth_object_le_iff]
    simp [Json.depth]

theorem tagEntries_error {document : MapDocument} {e : PyException}
    (h : tagList host.text document = .error e) : host.tagEntries document = .error e :=
  bind_eq_error_iff.mpr (Or.inl h)

/-- The list is nested one deeper than the definitions. -/
theorem exists_tagEntries {document : MapDocument} (h : tagList host.text document = .ok ()) :
    ∃ tags, host.tagEntries document = .ok tags ∧
      ∀ n, tags.depth ≤ n + 1 ↔ ∀ tag ∈ document.tags.toList, tag.2.depth ≤ n := by
  refine ⟨_, bind_eq_ok_iff.mpr ⟨(), h, rfl⟩, fun n => ?_⟩
  rw [depth_array_le_iff, List.forall_mem_map]
  simp only [depth_tagEntry, List.mem_mergeSort]

/-- An integer is read from every key before a definition is looked at. -/
theorem tagList_eq (document : MapDocument) :
    UnreadableKey host.text document ∧
        (∃ message, tagList host.text document = .error (.valueError message)) ∨
      ¬UnreadableKey host.text document ∧
        ((∀ tag ∈ document.tags.toList, tag.2.isObject = true) ∧
            tagList host.text document = .ok () ∨
          ¬(∀ tag ∈ document.tags.toList, tag.2.isObject = true) ∧
            tagList host.text document = .error .typeError) := by
  unfold tagList UnreadableKey
  split_ifs with hkey hobject
  · left
    simp only [List.any_eq_true, Option.isNone_iff_eq_none] at hkey
    exact ⟨hkey, _, rfl⟩
  · right
    simp only [List.any_eq_true, Option.isNone_iff_eq_none, Bool.not_eq_true'] at hkey hobject
    obtain ⟨tag, htag, hdefinition⟩ := hobject
    refine ⟨hkey, Or.inr ⟨fun hall => ?_, rfl⟩⟩
    rw [hall tag htag] at hdefinition
    cases hdefinition
  · right
    simp only [List.any_eq_true, Option.isNone_iff_eq_none, Bool.not_eq_true', not_exists, not_and,
      Bool.not_eq_false] at hkey hobject
    exact ⟨fun ⟨tag, htag, hnone⟩ => hkey tag htag hnone, Or.inl ⟨hobject, rfl⟩⟩

/-- The depth of an answer with the tags. -/
theorem depth_wrap_le_iff {wrap : Json → Json} (hwrap : WrapsTags wrap) {document : MapDocument}
    {tags : Json}
    (htags : ∀ n, tags.depth ≤ n + 1 ↔ ∀ tag ∈ document.tags.toList, tag.2.depth ≤ n) :
    (wrap tags).depth + 1 ≤ host.json.dumpsLimit ↔
      ∀ tag ∈ document.tags.toList, tag.2.depth + 3 ≤ host.json.dumpsLimit := by
  obtain ⟨n, hn⟩ := Nat.exists_eq_add_of_le' host.json.five_le_dumpsLimit
  rw [hn, show n + 5 = n + 3 + 1 + 1 from rfl, Nat.add_le_add_iff_right,
    hwrap tags (n + 3) (by omega),
    htags]
  refine forall₂_congr fun tag _ => ?_
  omega

/-- The answer with the tags of a document. -/
theorem answered_listing_iff {wrap : Json → Json} (hwrap : WrapsTags wrap)
    (document : MapDocument) :
    Answered host (host.respondTo ((host.tagEntries document).map wrap)) ↔
      UnreadableKey host.text document ∨ Definitions host.json document := by
  rcases @tagList_eq host document with ⟨hkey, message, hlist⟩ | ⟨hkey, ⟨hobject, hlist⟩ |
    ⟨hobject, hlist⟩⟩
  · rw [tagEntries_error hlist]
    exact iff_of_true (answered_error_iff.mpr ⟨message, rfl⟩) (Or.inl hkey)
  · obtain ⟨tags, htags, hdepth⟩ := exists_tagEntries hlist
    rw [htags, or_iff_right hkey]
    show Answered host (host.respondTo (.ok (wrap tags))) ↔ _
    rw [answered_ok_iff, depth_wrap_le_iff hwrap hdepth]
    exact ⟨fun h tag htag => ⟨hobject tag htag, h tag htag⟩, fun h tag htag => (h tag htag).2⟩
  · rw [tagEntries_error hlist, or_iff_right hkey]
    refine iff_of_false (fun h => ?_) fun h => hobject fun tag htag => (h tag htag).1
    obtain ⟨message, h⟩ := answered_error_iff.mp h
    cases h

/-- The answer is a success when the tags can be listed. -/
theorem answeredOk_listing_iff {wrap : Json → Json} (hwrap : WrapsTags wrap)
    (document : MapDocument) :
    AnsweredOk (host.respondTo ((host.tagEntries document).map wrap)) ↔
      ¬UnreadableKey host.text document ∧ Definitions host.json document := by
  rcases @tagList_eq host document with ⟨hkey, message, hlist⟩ | ⟨hkey, ⟨hobject, hlist⟩ |
    ⟨hobject, hlist⟩⟩
  · rw [tagEntries_error hlist]
    exact iff_of_false not_answeredOk_error fun h => h.1 hkey
  · obtain ⟨tags, htags, hdepth⟩ := exists_tagEntries hlist
    rw [htags, and_iff_right hkey]
    show AnsweredOk (host.respondTo (.ok (wrap tags))) ↔ _
    rw [answeredOk_ok_iff, depth_wrap_le_iff hwrap hdepth]
    exact ⟨fun h tag htag => ⟨hobject tag htag, h tag htag⟩, fun h tag htag => (h tag htag).2⟩
  · rw [tagEntries_error hlist]
    exact iff_of_false not_answeredOk_error fun h => hobject fun tag htag => (h.2 tag htag).1

/-! ### The actions on the map -/

/-- An action on the map. -/
inductive MapAction where
  | list
  | edit (request : MapRequest)

/-- The action on the map that a line asks for. -/
def mapAction (host : HostManager) (line : List UInt8) : Option MapAction :=
  if maxRequestBytes < line.length then none
  else
    match host.json.loads line with
    | .ok (.object members) =>
      match host.requestAction members with
      | .ok action =>
        if action = "apriltag-map" then some .list
        else if action = "apriltag-upsert" then
          some (.edit (.upsert (getMember members "tag") (getMember members "replace_tag_id")))
        else if action = "apriltag-delete" then some (.edit (.delete (getMember members "tag_id")))
        else none
      | .error _ => none
    | _ => none

def serve (host : HostManager) (storage : MapStorage) :
    MapAction → MapStorage × Except PyException Json
  | .list => (storage, host.aprilTagMap storage)
  | .edit request => host.editMap storage request

theorem handleLine_of_mapAction {line : List UInt8} {action : MapAction}
    (h : mapAction host line = some action) :
    host.handleLine storage line =
      ((serve host storage action).1, host.respondTo (serve host storage action).2) := by
  unfold mapAction at h
  unfold handleLine
  split at h
  · cases h
  next hlength =>
  rw [if_neg hlength]
  split at h
  · next members hmembers =>
    rw [hmembers]
    dsimp only
    unfold handle
    split at h
    · next name hname =>
      rw [hname]
      dsimp only
      split_ifs at h with hmap hupsert hdelete
      · subst hmap
        cases h
        rfl
      · subst hupsert
        cases h
        rfl
      · subst hdelete
        cases h
        rfl
    · cases h
  · cases h

/-- The document whose tags the answer lists: the map, after the edit. -/
def listedDocument (host : HostManager) (storage : MapStorage) : MapAction → Option MapDocument
  | .list => (host.tagMapDocument storage).toOption
  | .edit request =>
    match validatedEdit host.text host.webEditEnabled request with
    | .error _ => none
    | .ok edit => ((host.tagMapDocument storage).bind edit.apply).toOption

/-- The action gets to the map file. -/
def MapAction.ReadsMap (host : HostManager) : MapAction → Prop
  | list => True
  | edit request => ∃ e, validatedEdit host.text host.webEditEnabled request = .ok e

def MapAction.Overflows (host : HostManager) : MapAction → Prop
  | list => False
  | edit request => request.Overflows host.text host.webEditEnabled

/-- The file can be read, and is not nested too deep for the decoder. -/
def Readable (host : HostManager) (storage : MapStorage) : Prop :=
  ∃ bytes, storage.file = .content bytes ∧ host.json.loads bytes ≠ .error .recursionError

/-- The document can be written. -/
def Writable (host : HostManager) (storage : MapStorage) (document : MapDocument) : Prop :=
  storage.fault = none ∧ document.toJson.depth ≤ host.json.indentedLimit

theorem readable_iff :
    Readable host storage ↔
      ∀ e, host.tagMapDocument storage = .error e → ∃ message, e = .valueError message := by
  unfold Readable tagMapDocument
  cases storage.file with
  | missing => simp
  | unreadable => simp
  | content bytes =>
    dsimp only
    cases hloads : host.json.loads bytes with
    | error e => cases e <;> simp [hloads, DecodeError.toException]
    | ok value =>
      dsimp only
      cases MapDocument.ofJson? value <;> simp [hloads]

theorem valueError_of_apply {edit : TagEdit} {document : MapDocument} {e : PyException}
    (h : edit.apply document = .error e) : ∃ message, e = .valueError message := by
  unfold TagEdit.apply at h
  split at h <;> split_ifs at h
  all_goals
    cases h
    exact ⟨_, rfl⟩

theorem writeAprilTagMap_of_writable {document : MapDocument}
    (h : Writable host storage document) :
    host.writeAprilTagMap storage document =
      ({ storage with file := .content (host.json.dumpsIndented document.toJson ++ newline) },
        .ok ()) := by
  obtain ⟨hfault, hdepth⟩ := h
  unfold writeAprilTagMap
  rw [hfault, if_neg (by simp), if_neg (Nat.not_lt.mpr hdepth), if_neg (by simp)]

theorem writeAprilTagMap_of_not_writable {document : MapDocument}
    (h : ¬Writable host storage document) :
    ∃ e, host.writeAprilTagMap storage document = (storage, .error e) ∧
      ¬∃ message, e = .valueError message := by
  unfold writeAprilTagMap
  split_ifs with hdirectory hdepth hreplace
  · exact ⟨_, rfl, by simp⟩
  · exact ⟨_, rfl, by simp⟩
  · exact ⟨_, rfl, by simp⟩
  · refine absurd ⟨?_, Nat.not_lt.mp hdepth⟩ h
    cases hfault : storage.fault with
    | none => rfl
    | some fault =>
      cases fault with
      | makeDirectory => exact absurd hfault hdirectory
      | replaceFile => exact absurd hfault hreplace

/-- When an action on the map is answered. -/
structure AnswerableAction (host : HostManager) (storage : MapStorage) (action : MapAction) :
    Prop where
  numbers : ¬action.Overflows host
  file : action.ReadsMap host → Readable host storage
  written : ∀ request document, action = .edit request →
    listedDocument host storage action = some document → Writable host storage document
  listed : ∀ document, listedDocument host storage action = some document →
    UnreadableKey host.text document ∨ Definitions host.json document

theorem answered_list_iff :
    Answered host (host.respondTo (host.aprilTagMap storage)) ↔
      AnswerableAction host storage .list := by
  cases hdocument : host.tagMapDocument storage with
  | error e =>
    have hmap : host.aprilTagMap storage = .error e := bind_eq_error_iff.mpr (Or.inl hdocument)
    have hlisted : listedDocument host storage .list = none := by
      rw [listedDocument, hdocument]
      rfl
    rw [hmap, answered_error_iff]
    constructor
    · rintro ⟨message, rfl⟩
      refine ⟨id, fun _ => readable_iff.mpr fun e he => ?_, fun _ _ h => ?_, fun _ h => ?_⟩
      · rw [hdocument] at he
        cases he
        exact ⟨message, rfl⟩
      · cases h
      · rw [hlisted] at h
        cases h
    · exact fun h => readable_iff.mp (h.file trivial) e hdocument
  | ok document =>
    have hmap : host.aprilTagMap storage = (host.tagEntries document).map fun tags => .object
        [("accepted", .bool true), ("path", .string host.path),
          ("web_edit_enabled", .bool host.webEditEnabled), ("tags", tags)] := by
      rw [aprilTagMap, hdocument]
      show host.tagEntries document >>= _ = _
      cases host.tagEntries document <;> rfl
    have hlisted : listedDocument host storage .list = some document := by
      rw [listedDocument, hdocument]
      rfl
    rw [hmap, answered_listing_iff]
    · constructor
      · intro h
        refine ⟨id, fun _ => readable_iff.mpr fun e he => ?_, fun _ _ h => ?_, fun _ heq => ?_⟩
        · rw [hdocument] at he
          cases he
        · cases h
        · rw [hlisted] at heq
          cases heq
          exact h
      · exact fun h => h.listed document hlisted
    · intro tags n _
      rw [depth_object_le_iff]
      simp [Json.depth]

/-- A document to list is one that the edit has been applied to. -/
theorem listedDocument_edit_eq_some_iff {request : MapRequest} {document : MapDocument} :
    listedDocument host storage (.edit request) = some document ↔
      ∃ edit, validatedEdit host.text host.webEditEnabled request = .ok edit ∧
        (host.tagMapDocument storage).bind edit.apply = .ok document := by
  unfold listedDocument
  dsimp only
  cases hedit : validatedEdit host.text host.webEditEnabled request with
  | error e => simp
  | ok edit => simp [toOption_eq_some_iff]

/-- An edit without a document fails before it writes. -/
theorem editMap_of_listedDocument_none {request : MapRequest}
    (h : listedDocument host storage (.edit request) = none) :
    ∃ e, host.editMap storage request = (storage, .error e) := by
  unfold editMap
  cases hedit : validatedEdit host.text host.webEditEnabled request with
  | error e => exact ⟨e, rfl⟩
  | ok edit =>
    cases hdocument : (host.tagMapDocument storage).bind edit.apply with
    | error e => exact ⟨e, by dsimp only; rw [hdocument]⟩
    | ok document =>
      rw [listedDocument_edit_eq_some_iff.mpr ⟨edit, hedit, hdocument⟩] at h
      cases h

theorem editMap_of_not_writable {request : MapRequest} {document : MapDocument}
    (h : listedDocument host storage (.edit request) = some document)
    (hwritable : ¬Writable host storage document) :
    ∃ e, host.editMap storage request = (storage, .error e) ∧
      ¬∃ message, e = .valueError message := by
  obtain ⟨edit, hedit, hdocument⟩ := listedDocument_edit_eq_some_iff.mp h
  obtain ⟨e, hwrite, he⟩ := writeAprilTagMap_of_not_writable hwritable
  refine ⟨e, ?_, he⟩
  unfold editMap
  rw [hedit]
  dsimp only
  rw [hdocument]
  dsimp only
  rw [hwrite]

/-- The edit is written before the tags are listed. -/
theorem editMap_of_writable {request : MapRequest} {document : MapDocument}
    (h : listedDocument host storage (.edit request) = some document)
    (hwritable : Writable host storage document) :
    ∃ edit, host.editMap storage request =
      ({ storage with file := .content (host.json.dumpsIndented document.toJson ++ newline) },
        (host.tagEntries document).map (host.editReply edit)) := by
  obtain ⟨edit, hedit, hdocument⟩ := listedDocument_edit_eq_some_iff.mp h
  refine ⟨edit, ?_⟩
  unfold editMap
  rw [hedit]
  dsimp only
  rw [hdocument]
  dsimp only
  rw [writeAprilTagMap_of_writable hwritable]

/-- A request that fails its validation. -/
theorem answered_edit_iff_of_invalid {request : MapRequest} {e : PyException}
    (hedit : validatedEdit host.text host.webEditEnabled request = .error e) :
    Answered host (host.respondTo (host.editMap storage request).2) ↔
      AnswerableAction host storage (.edit request) := by
  have hmap : host.editMap storage request = (storage, .error e) := by
    unfold editMap
    rw [hedit]
  have hlisted (document : MapDocument) :
      listedDocument host storage (.edit request) ≠ some document := by
    rw [ne_eq, listedDocument_edit_eq_some_iff, hedit]
    simp
  have hreads : ¬(MapAction.edit request).ReadsMap host := by
    rintro ⟨edit, h⟩
    rw [hedit] at h
    cases h
  rw [hmap, answered_error_iff]
  constructor
  · rintro ⟨message, rfl⟩
    refine ⟨fun h => ?_, fun h => absurd h hreads,
      fun _ document _ h => absurd h (hlisted document),
      fun document h => absurd h (hlisted document)⟩
    rw [MapAction.Overflows, ← validatedEdit_eq_overflow_iff, hedit] at h
    cases h
  · intro h
    have hvalidation := ofValidation_validatedEdit hedit
    cases e with
    | valueError message => exact ⟨message, rfl⟩
    | overflowError => exact absurd (validatedEdit_eq_overflow_iff.mp hedit) h.numbers
    | typeError | osError | recursionError => cases hvalidation

/-- A map that cannot be read, or to which the edit does not apply. -/
theorem answered_edit_iff_of_refused {request : MapRequest} {edit : TagEdit} {e : PyException}
    (hedit : validatedEdit host.text host.webEditEnabled request = .ok edit)
    (hdocument : (host.tagMapDocument storage).bind edit.apply = .error e) :
    Answered host (host.respondTo (host.editMap storage request).2) ↔
      AnswerableAction host storage (.edit request) := by
  have hmap : host.editMap storage request = (storage, .error e) := by
    unfold editMap
    rw [hedit]
    dsimp only
    rw [hdocument]
  have hlisted (document : MapDocument) :
      listedDocument host storage (.edit request) ≠ some document := by
    rw [ne_eq, listedDocument_edit_eq_some_iff]
    rintro ⟨edit', hedit', hdocument'⟩
    obtain rfl := Except.ok.inj (hedit.symm.trans hedit')
    rw [hdocument] at hdocument'
    cases hdocument'
  have hreadable : (∃ message, e = .valueError message) ↔ Readable host storage := by
    rw [readable_iff]
    rcases bind_eq_error_iff.mp hdocument with hread | ⟨document, hread, happly⟩
    · simp [hread]
    · simp [hread, valueError_of_apply happly]
  rw [hmap, answered_error_iff, hreadable]
  constructor
  · intro h
    refine ⟨fun hoverflow => ?_, fun _ => h, fun _ document _ h => absurd h (hlisted document),
      fun document h => absurd h (hlisted document)⟩
    rw [MapAction.Overflows, ← validatedEdit_eq_overflow_iff, hedit] at hoverflow
    cases hoverflow
  · exact fun h => h.file ⟨edit, hedit⟩

/-- An edit that has been applied. -/
theorem answered_edit_iff_of_listed {request : MapRequest} {document : MapDocument}
    (hlisted : listedDocument host storage (.edit request) = some document) :
    Answered host (host.respondTo (host.editMap storage request).2) ↔
      AnswerableAction host storage (.edit request) := by
  by_cases hwritable : Writable host storage document
  · obtain ⟨edit, hmap⟩ := editMap_of_writable hlisted hwritable
    rw [hmap]
    dsimp only
    rw [answered_listing_iff (wrapsTags_editReply edit)]
    obtain ⟨edit, hedit, hdocument⟩ := listedDocument_edit_eq_some_iff.mp hlisted
    obtain ⟨base, hread, -⟩ := bind_eq_ok_iff.mp hdocument
    have hreadable : Readable host storage := by
      rw [readable_iff]
      simp [hread]
    constructor
    · intro h
      refine ⟨fun hoverflow => ?_, fun _ => hreadable, fun _ _ _ heq => ?_, fun _ heq => ?_⟩
      · rw [MapAction.Overflows, ← validatedEdit_eq_overflow_iff, hedit] at hoverflow
        cases hoverflow
      · obtain rfl := Option.some.inj (hlisted.symm.trans heq)
        exact hwritable
      · obtain rfl := Option.some.inj (hlisted.symm.trans heq)
        exact h
    · exact fun h => h.listed document hlisted
  · obtain ⟨e, hmap, he⟩ := editMap_of_not_writable hlisted hwritable
    rw [hmap, answered_error_iff]
    exact iff_of_false he fun h => hwritable (h.written request document rfl hlisted)

/-- An action on the map is answered when no exception but a `ValueError` is reached. -/
theorem answered_serve_iff (action : MapAction) :
    Answered host (host.respondTo (serve host storage action).2) ↔
      AnswerableAction host storage action := by
  cases action with
  | list => exact answered_list_iff
  | edit request =>
    cases hedit : validatedEdit host.text host.webEditEnabled request with
    | error e => exact answered_edit_iff_of_invalid hedit
    | ok edit =>
      cases hdocument : (host.tagMapDocument storage).bind edit.apply with
      | error e => exact answered_edit_iff_of_refused hedit hdocument
      | ok document =>
        exact answered_edit_iff_of_listed
          (listedDocument_edit_eq_some_iff.mpr ⟨edit, hedit, hdocument⟩)

/-! ### Requests -/

/-- When a line is answered. -/
structure Answerable (host : HostManager) (storage : MapStorage) (line : List UInt8) : Prop where
  decoded : host.json.loads line ≠ .error .recursionError
  name : ∀ members value, host.json.loads line = .ok (.object members) →
    members.lookup "action" = some value → value.depth ≤ host.json.strLimit
  action : ∀ action, mapAction host line = some action → AnswerableAction host storage action

/-- The line asks for no action on services or devices. -/
def NoServiceAction (host : HostManager) (line : List UInt8) : Prop :=
  ∀ members action, host.json.loads line = .ok (.object members) →
    host.requestAction members = .ok action → action ∉ serviceActions

theorem requestAction_eq_error_iff {members : List (String × Json)} {e : PyException} :
    host.requestAction members = .error e ↔
      e = .recursionError ∧ ∃ value, members.lookup "action" = some value ∧
        host.json.strLimit < value.depth := by
  unfold requestAction
  cases members.lookup "action" with
  | none => simp
  | some value =>
    cases value with
    | string action => simp [Json.depth]
    | null | bool _ | int _ | float _ | array _ | object _ =>
      dsimp only
      split_ifs with h <;> simp [h, eq_comm]

/-- The action of a line is one on the map, or it is not allowed. -/
theorem handleLine_of_no_mapAction {line : List UInt8} {members : List (String × Json)}
    {name : String} (hlength : line.length ≤ maxRequestBytes)
    (hscope : NoServiceAction host line) (hmembers : host.json.loads line = .ok (.object members))
    (hname : host.requestAction members = .ok name) (h : mapAction host line = none) :
    host.handleLine storage line = (storage, host.respondError "action is not permitted") := by
  have hservice := hscope members name hmembers hname
  unfold mapAction at h
  rw [if_neg (Nat.not_lt.mpr hlength), hmembers] at h
  dsimp only at h
  rw [hname] at h
  dsimp only at h
  split_ifs at h with hmap hupsert hdelete
  have hallowed : allowedActions.contains name = false := by
    rw [Bool.eq_false_iff, ne_eq, List.contains_iff_mem, allowedActions, List.mem_append]
    simp [hservice, hmap, hupsert, hdelete]
  unfold handleLine
  rw [if_neg (Nat.not_lt.mpr hlength), hmembers]
  dsimp only
  unfold handle
  rw [hname]
  dsimp only
  rw [hallowed]
  rfl

/-- **Answers.**  A line of a request on the map is answered if and only if none of the exceptions
that the handler does not answer is reached: the line and the map are not nested too deep, the map
can be read and written, no number of a validated tag is too large, and after the edit every
definition is an object unless a key is no integer. -/
theorem answered_iff {line : List UInt8} (hlength : line.length ≤ maxRequestBytes)
    (hscope : NoServiceAction host line) :
    Answered host (host.handleLine storage line).2 ↔ Answerable host storage line := by
  cases hloads : host.json.loads line with
  -- a line that is no JSON is answered, unless its nesting is too deep for the decoder
  | error e =>
    have haction : mapAction host line = none := by
      unfold mapAction
      rw [if_neg (Nat.not_lt.mpr hlength), hloads]
    unfold handleLine
    rw [if_neg (Nat.not_lt.mpr hlength), hloads]
    cases e with
    | valueError message =>
      refine iff_of_true (answered_respondError message)
        ⟨?_, fun members value h => ?_, fun _ h => ?_⟩
      · rw [hloads]
        simp
      · rw [hloads] at h
        cases h
      · rw [haction] at h
        cases h
    | recursionError =>
      refine iff_of_false ?_ fun h => h.decoded hloads
      rintro ⟨answer, ok, h, -⟩
      cases h
  | ok value =>
    cases value with
    | object members =>
      cases hname : host.requestAction members with
      | error e =>
        -- the name of the action is nested too deeply for its text
        obtain ⟨rfl, value, hvalue, hdepth⟩ := requestAction_eq_error_iff.mp hname
        refine iff_of_false ?_ fun h => Nat.not_lt.mpr (h.name members value hloads hvalue) hdepth
        unfold handleLine
        rw [if_neg (Nat.not_lt.mpr hlength), hloads]
        dsimp only
        unfold handle
        rw [hname]
        rintro ⟨answer, ok, h, -⟩
        cases h
      | ok name =>
        have hdecoded : host.json.loads line ≠ .error .recursionError := by
          rw [hloads]
          simp
        have hdepth : ∀ members' value, host.json.loads line = .ok (.object members') →
            members'.lookup "action" = some value → value.depth ≤ host.json.strLimit := by
          intro members' value hmembers' hvalue
          rw [hloads] at hmembers'
          cases hmembers'
          by_contra hlarge
          have herror := requestAction_eq_error_iff.mpr ⟨rfl, value, hvalue, Nat.not_le.mp hlarge⟩
          rw [hname] at herror
          cases herror
        -- any other request names an action of the map or gets the answer for an unknown one
        cases haction : mapAction host line with
        | none =>
          rw [handleLine_of_no_mapAction hlength hscope hloads hname haction]
          refine iff_of_true (answered_respondError _) ⟨hdecoded, hdepth, fun _ h => ?_⟩
          rw [haction] at h
          cases h
        | some action =>
          rw [handleLine_of_mapAction haction, answered_serve_iff]
          constructor
          · intro h
            refine ⟨hdecoded, hdepth, fun action' h' => ?_⟩
            rw [haction] at h'
            cases h'
            exact h
          · exact fun h => h.action action haction
    -- a request that is no object is refused in words
    | null | bool _ | int _ | float _ | string _ | array _ =>
      have haction : mapAction host line = none := by
        unfold mapAction
        rw [if_neg (Nat.not_lt.mpr hlength), hloads]
      unfold handleLine
      rw [if_neg (Nat.not_lt.mpr hlength), hloads]
      refine iff_of_true (answered_respondError _) ⟨?_, fun members value h => ?_, fun _ h => ?_⟩
      · rw [hloads]
        simp
      · rw [hloads] at h
        cases h
      · rw [haction] at h
        cases h

end Answer

/-! ### A map with a note -/

/-- The bytes of an ASCII text. -/
def asciiBytes (text : String) : List UInt8 := text.toList.map fun c => c.toNat.toUInt8

def listLine : List UInt8 := asciiBytes "\x7b\"action\":\"apriltag-map\"\x7d\n"

def deleteLine : List UInt8 := asciiBytes "\x7b\"action\":\"apriltag-delete\",\"tag_id\":1\x7d\n"

/-- A tag and a key which is no id. -/
def notedBytes : List UInt8 :=
  asciiBytes "\x7b\"tags\":\x7b\"1\":\x7b\x7d,\"note\":\x7b\x7d\x7d\x7d"

/-- `json` on these texts and on what is made of them. -/
def notedJson : PyJson where
  loads bytes :=
    if bytes = listLine then .ok (.object [("action", .string "apriltag-map")])
    else if bytes = deleteLine then
      .ok (.object [("action", .string "apriltag-delete"), ("tag_id", .int 1)])
    else if bytes = notedBytes then
      .ok (.object [("tags", .object [("1", .object []), ("note", .object [])])])
    else .error (.valueError "Expecting value: line 1 column 1 (char 0)")
  dumps _ := asciiBytes "\x7b\"error\": \"invalid literal for int()\", \"ok\": false\x7d"
  dumpsIndented _ := asciiBytes "\x7b\n  \"tags\": \x7b\n    \"note\": \x7b\x7d\n  \x7d\n\x7d"
  strLimit := 900
  dumpsLimit := 900
  indentedLimit := 300
  five_le_dumpsLimit := by decide

def notedHost : HostManager where
  text := plainText
  json := notedJson
  path := "/etc/robotcore/apriltag_map.json"
  webEditEnabled := true
  services _ _ := .ok (.object [])

def missingMap : MapStorage := ⟨.missing, none⟩

def notedMap : MapStorage := ⟨.content notedBytes, none⟩

theorem noServiceAction_listLine : NoServiceAction notedHost listLine := by
  intro members action hmembers haction
  have hloads : notedHost.json.loads listLine =
      .ok (.object [("action", .string "apriltag-map")]) := rfl
  rw [hloads] at hmembers
  cases hmembers
  obtain rfl : "apriltag-map" = action := Except.ok.inj haction
  decide

theorem answered_iff_missing :
    Answered notedHost (notedHost.handleLine missingMap listLine).2 ↔
      Answerable notedHost missingMap listLine :=
  answered_iff (by decide +kernel) noServiceAction_listLine

/-- The tags of a map that is missing are asked for, and nothing is answered. -/
theorem not_answered_missing :
    listLine.length ≤ maxRequestBytes ∧ NoServiceAction notedHost listLine ∧
      ¬Answered notedHost (notedHost.handleLine missingMap listLine).2 := by
  refine ⟨by decide +kernel, noServiceAction_listLine, ?_⟩
  have hraised : (notedHost.handleLine missingMap listLine).2 = .error .osError := rfl
  rw [hraised]
  rintro ⟨answer, ok, h, -⟩
  cases h

end HostManager

end RobotCore
