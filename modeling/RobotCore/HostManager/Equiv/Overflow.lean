import RobotCore.HostManager.Equiv.AprilTag

/-!
# Numbers a request cannot have

The validation of a request answers a `TypeError` or a `ValueError` of a conversion with a
`ValueError` of its own.  The third exception of a conversion, an `OverflowError`, passes through:
it is raised by an integer that is too large for a float, and by an infinite id
(`validatedEdit_eq_overflow_iff`).
-/

namespace RobotCore

open Ieee

variable {text : PyText}

/-- An integer beyond the range of a float. -/
def Json.TooLarge : Json → Prop
  | .int value => (Number.ofRat binary64 value).isFinite = false
  | _ => False

/-- The conversion of the values stops at an integer that is too large. -/
def VectorOverflows (text : PyText) (raw : Json) : Prop :=
  ∃ before value after, pyIter raw = .ok (before ++ value :: after) ∧ value.TooLarge ∧
    ∀ other ∈ before, ∃ x, pyFloat text other = .ok x

/-- The id is infinite. -/
def IdOverflows (raw : Json) : Prop :=
  ∃ value negative, raw = .float value ∧ value.value = .infinity negative

/-- The validation of the tag stops at such a number. -/
def TagOverflows (text : PyText) (raw : Json) : Prop :=
  ∃ tag, raw = .object tag ∧
    (IdOverflows (getMember tag "id") ∨
      (∃ id, validatedTagId text (getMember tag "id") = .ok id) ∧
        (VectorOverflows text (getMember tag "position_m") ∨
          (∃ values, finiteVector text (getMember tag "position_m") "position_m" positionRange =
              .ok values) ∧
            (VectorOverflows text (getMember tag "rpy_deg") ∨
              (∃ values, finiteVector text (getMember tag "rpy_deg") "rpy_deg" rpyRange =
                  .ok values) ∧
                (getMember tag "size_m").TooLarge)))

/-- The validation of the request does. -/
def MapRequest.Overflows (text : PyText) (webEditEnabled : Bool) : MapRequest → Prop
  | .upsert tag replaceTagId =>
    webEditEnabled = true ∧ (TagOverflows text tag ∨
      (∃ result, validatedTag text tag = .ok result) ∧ IdOverflows replaceTagId)
  | .delete tagId => webEditEnabled = true ∧ IdOverflows tagId

/-! ### Conversions -/

theorem pyFloat_eq_overflow_iff {raw : Json} :
    pyFloat text raw = .error .overflowError ↔ raw.TooLarge := by
  unfold pyFloat Json.TooLarge
  cases raw with
  | int value =>
    dsimp only
    split_ifs with h <;> simp [h]
  | string value =>
    dsimp only
    split <;> simp
  | null | bool _ | float _ | array _ | object _ => simp

theorem pyIter_ne_overflow {raw : Json} : pyIter raw ≠ .error .overflowError := by
  unfold pyIter
  split <;> simp

theorem conversion_eq_overflow_iff {raw : Json} :
    (pyIter raw).bind (List.mapM (pyFloat text)) = .error .overflowError ↔
      VectorOverflows text raw := by
  have hbind : (pyIter raw).bind (List.mapM (pyFloat text)) =
      pyIter raw >>= List.mapM (pyFloat text) := rfl
  rw [hbind, bind_eq_error_iff]
  constructor
  · rintro (h | ⟨values, hvalues, h⟩)
    · exact absurd h pyIter_ne_overflow
    · obtain ⟨before, value, after, rfl, hbefore, hvalue⟩ := mapM_eq_error_iff.mp h
      exact ⟨before, value, after, hvalues, pyFloat_eq_overflow_iff.mp hvalue, hbefore⟩
  · rintro ⟨before, value, after, hvalues, hlarge, hbefore⟩
    exact Or.inr ⟨_, hvalues, mapM_eq_error_iff.mpr
      ⟨before, value, after, rfl, hbefore, pyFloat_eq_overflow_iff.mpr hlarge⟩⟩

theorem finiteVector_eq_overflow_iff {raw : Json} {label : String} {range : ValueRange} :
    finiteVector text raw label range = .error .overflowError ↔ VectorOverflows text raw := by
  rw [← conversion_eq_overflow_iff, finiteVector]
  split
  · next h => simp [h]
  · next hne h =>
    simp only [Except.error.injEq, reduceCtorEq, false_iff]
    exact fun heq => hne (Except.error.inj (h.symm.trans heq))
  · next values h =>
    rw [h]
    split_ifs <;> simp

theorem validatedTagId_eq_overflow_iff {raw : Json} :
    validatedTagId text raw = .error .overflowError ↔ IdOverflows raw := by
  unfold validatedTagId IdOverflows
  cases raw with
  | int value =>
    dsimp only
    split_ifs <;> simp
  | float value =>
    dsimp only
    cases hvalue : value.value <;> simp [hvalue]
  | string value =>
    dsimp only
    split
    · simp
    · split_ifs <;> simp
  | null | bool _ | array _ | object _ => simp

theorem validatedSize_eq_overflow_iff {raw : Json} :
    validatedSize text raw = .error .overflowError ↔ raw.TooLarge := by
  rw [← @pyFloat_eq_overflow_iff text, validatedSize]
  split
  · next h => simp [h]
  · next hne h =>
    simp only [Except.error.injEq, reduceCtorEq, false_iff]
    exact fun heq => hne (Except.error.inj (h.symm.trans heq))
  · next values h =>
    rw [h]
    split_ifs <;> simp

/-! ### Requests -/

theorem validatedTag_eq_overflow_iff {raw : Json} :
    validatedTag text raw = .error .overflowError ↔ TagOverflows text raw := by
  unfold TagOverflows
  cases raw with
  | object tag =>
    simp only [validatedTag, bind_eq_error_iff, validatedTagId_eq_overflow_iff,
      finiteVector_eq_overflow_iff, validatedSize_eq_overflow_iff, Json.object.injEq]
    simp [pure, Except.pure]
  | null | bool _ | int _ | float _ | string _ | array _ => simp [validatedTag]

theorem validatedEdit_eq_overflow_iff {webEditEnabled : Bool} {request : MapRequest} :
    validatedEdit text webEditEnabled request = .error .overflowError ↔
      request.Overflows text webEditEnabled := by
  cases request with
  | upsert tag replaceTagId =>
    unfold validatedEdit MapRequest.Overflows
    cases webEditEnabled with
    | false => simp
    | true =>
      dsimp only
      rw [← validatedTag_eq_overflow_iff, ← @validatedTagId_eq_overflow_iff text]
      simp only [Bool.not_true, Bool.false_eq_true, ↓reduceIte, bind_eq_error_iff, true_and]
      refine or_congr_right ?_
      rw [← exists_and_right]
      refine exists_congr fun result => and_congr_right fun _ => ?_
      cases replaceTagId with
      | null => simp [bind, Except.bind, pure, Except.pure, validatedTagId]
      | bool _ | int _ | float _ | string _ | array _ | object _ =>
        dsimp only
        rw [bind_eq_error_iff]
        simp [pure, Except.pure]
  | delete tagId =>
    unfold validatedEdit MapRequest.Overflows
    cases webEditEnabled with
    | false => simp
    | true =>
      dsimp only
      rw [← @validatedTagId_eq_overflow_iff text]
      simp only [Bool.not_true, Bool.false_eq_true, ↓reduceIte, bind_eq_error_iff, true_and]
      simp [pure, Except.pure]

/-! ### The exceptions of the validation -/

/-- A `ValueError` or an `OverflowError`. -/
def PyException.OfValidation : PyException → Prop
  | valueError _ | overflowError => True
  | _ => False

theorem ofValidation_finiteVector {raw : Json} {label : String} {range : ValueRange}
    {e : PyException} (h : finiteVector text raw label range = .error e) : e.OfValidation := by
  unfold finiteVector at h
  split at h
  · cases h
    exact trivial
  · cases h
    exact trivial
  · split_ifs at h
    cases h
    exact trivial

theorem ofValidation_validatedTagId {raw : Json} {e : PyException}
    (h : validatedTagId text raw = .error e) : e.OfValidation := by
  unfold validatedTagId at h
  split at h
  · split_ifs at h
    cases h
    exact trivial
  · split at h <;> cases h <;> exact trivial
  · split at h
    · cases h
      exact trivial
    · split_ifs at h
      cases h
      exact trivial
  · cases h
    exact trivial

theorem ofValidation_validatedSize {raw : Json} {e : PyException}
    (h : validatedSize text raw = .error e) : e.OfValidation := by
  unfold validatedSize at h
  split at h
  · cases h
    exact trivial
  · cases h
    exact trivial
  · split_ifs at h
    cases h
    exact trivial

theorem ofValidation_validatedTag {raw : Json} {e : PyException}
    (h : validatedTag text raw = .error e) : e.OfValidation := by
  cases raw with
  | object tag =>
    rcases bind_eq_error_iff.mp h with hid | ⟨id, -, h⟩
    · exact ofValidation_validatedTagId hid
    rcases bind_eq_error_iff.mp h with hposition | ⟨position, -, h⟩
    · exact ofValidation_finiteVector hposition
    rcases bind_eq_error_iff.mp h with hrpy | ⟨rpy, -, h⟩
    · exact ofValidation_finiteVector hrpy
    rcases bind_eq_error_iff.mp h with hsize | ⟨size, -, h⟩
    · exact ofValidation_validatedSize hsize
    · cases h
  | null | bool _ | int _ | float _ | string _ | array _ =>
    cases h
    exact trivial

/-- The validation of a request raises no other exception. -/
theorem ofValidation_validatedEdit {webEditEnabled : Bool} {request : MapRequest}
    {e : PyException} (h : validatedEdit text webEditEnabled request = .error e) :
    e.OfValidation := by
  cases request with
  | upsert tag replaceTagId =>
    unfold validatedEdit at h
    split_ifs at h
    · cases h
      exact trivial
    rcases bind_eq_error_iff.mp h with htag | ⟨result, -, h⟩
    · exact ofValidation_validatedTag htag
    dsimp only at h
    split at h
    · cases h
    · rcases bind_eq_error_iff.mp h with hid | ⟨previousId, -, h⟩
      · exact ofValidation_validatedTagId hid
      · cases h
  | delete tagId =>
    unfold validatedEdit at h
    split_ifs at h
    · cases h
      exact trivial
    rcases bind_eq_error_iff.mp h with hid | ⟨id, -, h⟩
    · exact ofValidation_validatedTagId hid
    · cases h

end RobotCore
