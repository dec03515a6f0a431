import RobotCore.HostManager.AprilTag

/-!
# The request handler

`RequestHandler.handle` with the AprilTag actions of `HostManager`: the line of a request is
decoded, the request served, and the answer, or the text of a `ValueError`, encoded and written.
Every other exception ends the request without an answer.

`json` is a parameter, and so is the nesting beyond which it and `str` raise a `RecursionError`.
The actions on services and devices are a parameter too.
-/

namespace RobotCore

open Ieee Std

/-! ### `json` -/

mutual

/-- How deep arrays and objects are nested. -/
def Json.depth : Json → ℕ
  | .array values => 1 + depthOfValues values
  | .object members => 1 + depthOfMembers members
  | _ => 0

def depthOfValues : List Json → ℕ
  | [] => 0
  | value :: rest => max value.depth (depthOfValues rest)

def depthOfMembers : List (String × Json) → ℕ
  | [] => 0
  | (_, value) :: rest => max value.depth (depthOfMembers rest)

end

/-- The exceptions of a decoder of bytes. -/
inductive DecodeError where
  | valueError (message : String)
  | recursionError

def DecodeError.toException : DecodeError → PyException
  | valueError message => .valueError message
  | recursionError => .recursionError

/-- `json.loads(raw.decode("utf-8"))`, `json.dumps` with and without indentation, and the nesting
that `str` and the two encoders allow. -/
structure PyJson where
  loads : List UInt8 → Except DecodeError Json
  dumps : Json → List UInt8
  dumpsIndented : Json → List UInt8
  strLimit : ℕ
  dumpsLimit : ℕ
  indentedLimit : ℕ
  five_le_dumpsLimit : 5 ≤ dumpsLimit

def newline : List UInt8 := [10]

/-! ### The map file -/

inductive MapFile where
  | missing
  | unreadable
  | content (bytes : List UInt8)
  deriving DecidableEq

/-- The step of a write that raises an `OSError`. -/
inductive WriteFault where
  | makeDirectory
  /-- a step from the opening of the temporary file to `os.replace` -/
  | replaceFile
  deriving DecidableEq

structure MapStorage where
  file : MapFile
  fault : Option WriteFault

/-- A JSON object with an object under `tags`. -/
def MapDocument.ofJson? : Json → Option MapDocument
  | .object members =>
    match members.lookup "tags" with
    | some (.object tags) =>
      some
        { members := members.filter fun member => member.1 != "tags"
          tags := ExtTreeMap.ofList tags }
    | _ => none
  | _ => none

def MapDocument.toJson (document : MapDocument) : Json :=
  .object (("tags", .object document.tags.toList) :: document.members)

/-! ### The host manager -/

structure HostManager where
  text : PyText
  json : PyJson
  /-- `apriltag_map.path` and `apriltag_map.web_edit_enabled` -/
  path : String
  webEditEnabled : Bool
  /-- the actions on services and devices -/
  services : String → List (String × Json) → Except PyException Json

namespace HostManager

variable (host : HostManager) (storage : MapStorage)

/-- `_tag_map_document` -/
def tagMapDocument : Except PyException MapDocument :=
  match storage.file with
  | .missing | .unreadable => .error .osError
  | .content bytes =>
    match host.json.loads bytes with
    | .error e => .error e.toException
    | .ok value =>
      match MapDocument.ofJson? value with
      | some document => .ok document
      | none => .error (.valueError "managed AprilTag map must be a JSON object with tags")

/-- `_write_apriltag_map` -/
def writeAprilTagMap (document : MapDocument) : MapStorage × Except PyException Unit :=
  if storage.fault = some .makeDirectory then (storage, .error .osError)
  else if host.json.indentedLimit < document.toJson.depth then (storage, .error .recursionError)
  else if storage.fault = some .replaceFile then (storage, .error .osError)
  else
    ({ storage with file := .content (host.json.dumpsIndented document.toJson ++ newline) }, .ok ())

/-- `{"id": id, **members}` -/
def withId (id : ℤ) (members : List (String × Json)) : List (String × Json) :=
  if members.any fun member => member.1 == "id" then members else ("id", .int id) :: members

/-- The entry of a tag in `_tag_list`. -/
def tagEntry (text : PyText) (tag : String × Json) : Json :=
  match tag.2 with
  | .object members => .object (withId ((text.int tag.1).getD 0) members)
  | definition => definition

/-- `_tag_list`: the tags in the order of their ids. -/
def tagEntries (document : MapDocument) : Except PyException Json := do
  tagList host.text document
  let tags := document.tags.toList.mergeSort fun a b =>
    decide ((host.text.int a.1).getD 0 ≤ (host.text.int b.1).getD 0)
  return .array (tags.map (tagEntry host.text))

/-- `apriltag_map` -/
def aprilTagMap : Except PyException Json := do
  let document ← host.tagMapDocument storage
  let tags ← host.tagEntries document
  return .object
    [("accepted", .bool true), ("path", .string host.path),
      ("web_edit_enabled", .bool host.webEditEnabled), ("tags", tags)]

/-- The answer to an edit. -/
def editReply (edit : TagEdit) (tags : Json) : Json :=
  match edit with
  | .upsert tagId previousTagId placement =>
    let operation :=
      if previousTagId ≠ tagId then "renamed tag " ++ tagKey previousTagId ++ " to " ++ tagKey tagId
      else "saved tag " ++ tagKey tagId
    .object
      [("accepted", .bool true),
        ("message", .string (operation ++ "; localization will reload the map file")),
        ("path", .string host.path), ("tag", tagEntry host.text (tagKey tagId, placement.toJson)),
        ("previous_tag_id", .int previousTagId), ("tags", tags)]
  | .delete tagId =>
    .object
      [("accepted", .bool true),
        ("message", .string ("deleted tag " ++ tagKey tagId ++
          "; localization will reload the map file")),
        ("path", .string host.path), ("tag_id", .int tagId), ("tags", tags)]

/-- `upsert_apriltag` and `delete_apriltag` -/
def editMap (request : MapRequest) : MapStorage × Except PyException Json :=
  match validatedEdit host.text host.webEditEnabled request with
  | .error e => (storage, .error e)
  | .ok edit =>
    match (host.tagMapDocument storage).bind edit.apply with
    | .error e => (storage, .error e)
    | .ok document =>
      match host.writeAprilTagMap storage document with
      | (storage, .error e) => (storage, .error e)
      | (storage, .ok ()) => (storage, (host.tagEntries document).map (host.editReply edit))

/-- The allowed actions that are not on the map. -/
def serviceActions : List String :=
  ["status", "devices", "rosbag-status", "logs", "start", "stop", "restart", "maintenance-status"]

/-- `ALLOWED_ACTIONS` -/
def allowedActions : List String :=
  serviceActions ++ ["apriltag-map", "apriltag-upsert", "apriltag-delete"]

/-- `str(request.get("action", ""))`; the text of a value which is no string is no action. -/
def requestAction (members : List (String × Json)) : Except PyException String :=
  match members.lookup "action" with
  | none => .ok ""
  | some (.string action) => .ok action
  | some value => if host.json.strLimit < value.depth then .error .recursionError else .ok ""

/-- `HostManager.handle` -/
def handle (members : List (String × Json)) : MapStorage × Except PyException Json :=
  match host.requestAction members with
  | .error e => (storage, .error e)
  | .ok action =>
    if !allowedActions.contains action then
      (storage, .error (.valueError "action is not permitted"))
    else if action = "apriltag-map" then (storage, host.aprilTagMap storage)
    else if action = "apriltag-upsert" then
      host.editMap storage (.upsert (getMember members "tag") (getMember members "replace_tag_id"))
    else if action = "apriltag-delete" then
      host.editMap storage (.delete (getMember members "tag_id"))
    else (storage, host.services action members)

/-! ### The handler -/

/-- A response, and the line that is written for it. -/
structure Answer where
  response : List (String × Json)
  line : List UInt8

/-- The response is encoded and written. -/
def respond (response : List (String × Json)) : Except PyException Answer :=
  if host.json.dumpsLimit < (Json.object response).depth then .error .recursionError
  else .ok { response, line := host.json.dumps (.object response) ++ newline }

def respondError (message : String) : Except PyException Answer :=
  host.respond [("ok", .bool false), ("error", .string message)]

/-- What is written for a request that was served. -/
def respondTo : Except PyException Json → Except PyException Answer
  | .ok result => host.respond [("ok", .bool true), ("result", result)]
  | .error (.valueError message) => host.respondError message
  | .error e => .error e

/-- `MAX_REQUEST_BYTES` -/
def maxRequestBytes : ℕ := 16384

/-- `RequestHandler.handle` of a line: the storage after it, and the answer. -/
def handleLine (line : List UInt8) : MapStorage × Except PyException Answer :=
  if maxRequestBytes < line.length then (storage, host.respondError "request too large")
  else
    match host.json.loads line with
    | .error (.valueError message) => (storage, host.respondError message)
    | .error .recursionError => (storage, .error .recursionError)
    | .ok (.object members) =>
      let (storage, result) := host.handle storage members
      (storage, host.respondTo result)
    | .ok _ => (storage, host.respondError "request must be an object")

end HostManager

end RobotCore
