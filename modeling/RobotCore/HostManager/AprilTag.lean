import RobotCore.Lib.Ieee.Number
import RobotCore.Lib.Machine

/-!
# Edits of the AprilTag map

The requests of `HostManager` that change the managed AprilTag map: what is validated before the
file is read, and what is done to the document.  Python's conversions of text are a parameter.  A
JSON object of which the code only reads some members is the list of its members; the table of the
tags is a map.
-/

namespace RobotCore

open Ieee Std

/-! ### JSON values -/

/-- A JSON value; a number is kept as it is written, as an integer or not. -/
inductive Json where
  | null
  | bool (value : Bool)
  | int (value : ℤ)
  | float (value : Binary64)
  | string (value : String)
  | array (values : List Json)
  | object (members : List (String × Json))

/-- `value.get(key)` of an object; `None` is the value `null`. -/
def getMember (members : List (String × Json)) (key : String) : Json :=
  (members.lookup key).getD .null

abbrev TagTable := ExtTreeMap String Json

/-- A document with an object under `tags`, and its other members. -/
structure MapDocument where
  members : List (String × Json)
  tags : TagTable

/-! ### Python -/

/-- The exceptions the requests raise; only a `ValueError` is answered. -/
inductive PyException where
  | valueError (message : String)
  | typeError
  | overflowError
  | osError
  | recursionError

/-- `float(text)`, `int(text)` and `text.strip()`; `int` reads what `str` writes. -/
structure PyText where
  float : String → Option Binary64
  int : String → Option ℤ
  strip : String → String
  int_toString : ∀ n : ℕ, int (toString n) = some n

/-- `float(value)` -/
def pyFloat (text : PyText) : Json → Except PyException Binary64
  | .bool value => .ok (if value then Number.ofRat binary64 1 else 0)
  | .int value =>
    let x := Number.ofRat binary64 value
    if x.isFinite then .ok x else .error .overflowError
  | .float value => .ok value
  | .string value =>
    match text.float value with
    | some x => .ok x
    | none => .error (.valueError ("could not convert string to float: " ++ value))
  | _ => .error .typeError

/-- `list(value)`: the values of an array, the keys of an object, the characters of a string. -/
def pyIter : Json → Except PyException (List Json)
  | .array values => .ok values
  | .object members => .ok (members.map fun member => .string member.1)
  | .string value => .ok (value.toList.map fun c => .string (String.singleton c))
  | _ => .error .typeError

/-! ### Validation -/

section Validation

variable (text : PyText)

/-- A range of `_finite_vector`, with its text. -/
structure ValueRange where
  lower : Binary64
  upper : Binary64
  text : String

/-- `lower <= value <= upper` -/
def ValueRange.contains (range : ValueRange) (value : Binary64) : Bool :=
  range.lower.le value && value.le range.upper

def positionRange : ValueRange :=
  ⟨Number.ofRat binary64 (-100), Number.ofRat binary64 100, "[-100.0, 100.0]"⟩

def rpyRange : ValueRange :=
  ⟨Number.ofRat binary64 (-360), Number.ofRat binary64 360, "[-360.0, 360.0]"⟩

/-- `0.01` and `2.0` -/
def sizeRange : ValueRange :=
  ⟨Number.ofRat binary64 (1 / 100), Number.ofRat binary64 2, "between 0.01 and 2.0 metres"⟩

/-- `_finite_vector` -/
def finiteVector (raw : Json) (label : String) (range : ValueRange) :
    Except PyException (List Binary64) :=
  match (pyIter raw).bind (List.mapM (pyFloat text)) with
  | .error .overflowError => .error .overflowError
  | .error _ => .error (.valueError (label ++ " must contain three numbers"))
  | .ok values =>
    if values.length ≠ 3 || values.any fun value => !range.contains value then
      .error (.valueError (label ++ " values must be finite and within " ++ range.text))
    else .ok values

/-- `_validated_tag_id`.  The text of a float is never that of an integer; an infinity has no
integer part. -/
def validatedTagId : Json → Except PyException ℕ
  | .int value =>
    if 0 ≤ value ∧ value ≤ 65535 then .ok value.toNat
    else .error (.valueError "tag id must be an unsigned integer from 0 to 65535")
  | .float value =>
    match value.value with
    | .infinity _ => .error .overflowError
    | .nan => .error (.valueError "tag id must be an integer")
    | .finite _ => .error (.valueError "tag id must be an unsigned integer from 0 to 65535")
  | .string value =>
    match text.int value with
    | none => .error (.valueError "tag id must be an integer")
    | some id =>
      if (0 ≤ id ∧ id ≤ 65535) ∧ toString id.toNat = text.strip value then .ok id.toNat
      else .error (.valueError "tag id must be an unsigned integer from 0 to 65535")
  | _ => .error (.valueError "tag id must be an integer")

/-- What a tag definition says: position, rotation and size. -/
structure TagPlacement where
  positionM : List Binary64
  rpyDeg : List Binary64
  sizeM : Binary64

/-- The definition that is written. -/
def TagPlacement.toJson (placement : TagPlacement) : Json :=
  .object
    [("position_m", .array (placement.positionM.map .float)),
      ("rpy_deg", .array (placement.rpyDeg.map .float)),
      ("size_m", .float placement.sizeM)]

/-- The size of `_validated_tag`. -/
def validatedSize (raw : Json) : Except PyException Binary64 :=
  match pyFloat text raw with
  | .error .overflowError => .error .overflowError
  | .error _ => .error (.valueError "size_m must be a number")
  | .ok size =>
    if sizeRange.contains size then .ok size
    else .error (.valueError ("size_m must be " ++ sizeRange.text))

/-- `_validated_tag` -/
def validatedTag : Json → Except PyException (ℕ × TagPlacement)
  | .object tag => do
    let tagId ← validatedTagId text (getMember tag "id")
    let positionM ← finiteVector text (getMember tag "position_m") "position_m" positionRange
    let rpyDeg ← finiteVector text (getMember tag "rpy_deg") "rpy_deg" rpyRange
    let sizeM ← validatedSize text (getMember tag "size_m")
    return (tagId, { positionM, rpyDeg, sizeM })
  | _ => .error (.valueError "tag must be an object")

end Validation

/-! ### Requests -/

/-- `str(tag_id)` -/
def tagKey (tagId : ℕ) : String := toString tagId

/-- A request; a member that is missing is `null`. -/
inductive MapRequest where
  | upsert (tag replaceTagId : Json)
  | delete (tagId : Json)

/-- A validated request. -/
inductive TagEdit where
  | upsert (tagId previousTagId : ℕ) (placement : TagPlacement)
  | delete (tagId : ℕ)

/-- What `upsert_apriltag` and `delete_apriltag` check before they read the file. -/
def validatedEdit (text : PyText) (webEditEnabled : Bool) :
    MapRequest → Except PyException TagEdit
  | .upsert tag replaceTagId =>
    if !webEditEnabled then
      .error (.valueError "AprilTag web editing is disabled by host-manager policy")
    else do
      let (tagId, placement) ← validatedTag text tag
      let previousTagId ← match replaceTagId with
        | .null => .ok tagId
        | raw => validatedTagId text raw
      return .upsert tagId previousTagId placement
  | .delete tagId =>
    if !webEditEnabled then
      .error (.valueError "AprilTag web editing is disabled by host-manager policy")
    else do return .delete (← validatedTagId text tagId)

def missingTag (tagId : ℕ) : PyException :=
  .valueError ("tag " ++ tagKey tagId ++ " does not exist in the managed AprilTag map")

def presentTag (tagId : ℕ) : PyException :=
  .valueError ("tag " ++ tagKey tagId ++ " already exists in the managed AprilTag map")

/-- What an edit does to the document. -/
def TagEdit.apply (edit : TagEdit) (document : MapDocument) : Except PyException MapDocument :=
  match edit with
  | .upsert tagId previousTagId placement =>
    if previousTagId ≠ tagId then
      if tagKey previousTagId ∉ document.tags then .error (missingTag previousTagId)
      else if tagKey tagId ∈ document.tags then .error (presentTag tagId)
      else
        .ok
          { document with
            tags := (document.tags.erase (tagKey previousTagId)).insert (tagKey tagId)
              placement.toJson }
    else .ok { document with tags := document.tags.insert (tagKey tagId) placement.toJson }
  | .delete tagId =>
    if tagKey tagId ∉ document.tags then .error (missingTag tagId)
    else .ok { document with tags := document.tags.erase (tagKey tagId) }

def Json.isObject : Json → Bool
  | .object _ => true
  | _ => false

/-- `_tag_list` of the new document, for the answer: every key has to be an integer, and every
definition an object. -/
def tagList (text : PyText) (document : MapDocument) : Except PyException Unit :=
  if document.tags.toList.any fun tag => (text.int tag.1).isNone then
    .error (.valueError "invalid literal for int()")
  else if document.tags.toList.any fun tag => !tag.2.isObject then .error .typeError
  else .ok ()

/-! ### Serving requests -/

/-- A request served on its own: the document after it, and the edit that is accepted. -/
def serveRequest (text : PyText) (webEditEnabled : Bool) (document : MapDocument)
    (request : MapRequest) : MapDocument × Except PyException TagEdit :=
  match validatedEdit text webEditEnabled request with
  | .error e => (document, .error e)
  | .ok edit =>
    match edit.apply document with
    | .error e => (document, .error e)
    | .ok document => (document, (tagList text document).map fun _ => edit)

/-- The requests of a host manager, one after the other. -/
def mapMachine (text : PyText) (webEditEnabled : Bool) (document : MapDocument) :
    Machine MapDocument MapRequest (Except PyException TagEdit) where
  init := document
  step document request := some (serveRequest text webEditEnabled document request)

end RobotCore
