import RobotCore.HostManager.Equiv.Handler

/-!
# Edits that fail too late

An edit writes the map before it lists the tags for the answer, so it can fail when the map has been
replaced.  A failed edit leaves the map as it was exactly when the tags of the edited map can be
listed, or nothing new is written (`failed_edit_unchanged_iff`).
-/

namespace RobotCore

namespace HostManager

variable {host : HostManager} {storage : MapStorage}

/-- The edit is not written, or its answer is a success, or the map had the text that is written. -/
def KeepsMap (host : HostManager) (storage : MapStorage) (request : MapRequest) : Prop :=
  ∀ document, listedDocument host storage (.edit request) = some document →
    Writable host storage document →
    (¬UnreadableKey host.text document ∧ Definitions host.json document) ∨
      storage.file = .content (host.json.dumpsIndented document.toJson ++ newline)

/-- **Failed edits.**  An edit whose answer is not a success leaves the map as it was, if and only
if it is not written, or every key of the edited map is an integer and every definition an object
that can be encoded, or the map had the text of the edited one. -/
theorem failed_edit_unchanged_iff {line : List UInt8} {request : MapRequest}
    (hrequest : mapAction host line = some (.edit request)) :
    (¬AnsweredOk (host.handleLine storage line).2 →
        (host.handleLine storage line).1.file = storage.file) ↔
      KeepsMap host storage request := by
  rw [handleLine_of_mapAction hrequest]
  show (¬AnsweredOk (host.respondTo (host.editMap storage request).2) →
    (host.editMap storage request).1.file = storage.file) ↔ _
  cases hlisted : listedDocument host storage (.edit request) with
  | none =>
    obtain ⟨e, hmap⟩ := editMap_of_listedDocument_none hlisted
    rw [hmap]
    refine iff_of_true (fun _ => rfl) fun document h => ?_
    rw [hlisted] at h
    cases h
  | some document =>
    by_cases hwritable : Writable host storage document
    · obtain ⟨edit, hmap⟩ := editMap_of_writable hlisted hwritable
      rw [hmap]
      dsimp only
      rw [answeredOk_listing_iff (wrapsTags_editReply edit)]
      constructor
      · intro h document' hlisted' _
        obtain rfl := Option.some.inj (hlisted.symm.trans hlisted')
        by_cases hok : ¬UnreadableKey host.text document ∧ Definitions host.json document
        · exact Or.inl hok
        · exact Or.inr (h hok).symm
      · intro h hfailed
        exact ((h document hlisted hwritable).resolve_left hfailed).symm
    · obtain ⟨e, hmap, -⟩ := editMap_of_not_writable hlisted hwritable
      rw [hmap]
      refine iff_of_true (fun _ => rfl) fun document' hlisted' hwritable' => ?_
      obtain rfl := Option.some.inj (hlisted.symm.trans hlisted')
      exact absurd hwritable' hwritable

/-! ### A key that is no id -/

theorem mapAction_deleteLine :
    mapAction notedHost deleteLine = some (.edit (.delete (.int 1))) := rfl

theorem failed_edit_unchanged_iff_noted :
    (¬AnsweredOk (notedHost.handleLine notedMap deleteLine).2 →
        (notedHost.handleLine notedMap deleteLine).1.file = notedMap.file) ↔
      KeepsMap notedHost notedMap (.delete (.int 1)) :=
  failed_edit_unchanged_iff mapAction_deleteLine

/-- The member `ok` of an answer is true. -/
def isOk (output : Except PyException Answer) : Bool :=
  output.toOption.any fun answer =>
    match answer.response.lookup "ok" with
    | some (.bool ok) => ok
    | _ => false

theorem isOk_of_answeredOk {output : Except PyException Answer} (h : AnsweredOk output) :
    isOk output = true := by
  obtain ⟨answer, rfl, hok⟩ := h
  show (match answer.response.lookup "ok" with
    | some (.bool ok) => ok
    | _ => false) = true
  rw [hok]

/-- The tag is deleted, and the answer is an error about the other key. -/
theorem failed_edit_changes_noted :
    mapAction notedHost deleteLine = some (.edit (.delete (.int 1))) ∧
      ¬AnsweredOk (notedHost.handleLine notedMap deleteLine).2 ∧
        (notedHost.handleLine notedMap deleteLine).1.file ≠ notedMap.file := by
  refine ⟨mapAction_deleteLine, fun h => ?_, by decide +kernel⟩
  have hok : isOk (notedHost.handleLine notedMap deleteLine).2 = false := by decide +kernel
  rw [isOk_of_answeredOk h] at hok
  cases hok

end HostManager

end RobotCore
