import RobotCore.HostManager.AprilTag
import RobotCore.Lib.Machine

/-!
# Two edits at the same time

The server answers every connection in a thread of its own.  Here two threads serve one edit of the
map each, step by step as `_write_apriltag_map` touches the file system: read, open the temporary
file, write, replace, and in the `finally` clause the check for the temporary file and its removal.
Both threads use the same temporary name.

A name stands for an inode, so that a thread that has the temporary file open goes on writing to it
after another thread has moved it.  `json` is a parameter.
-/

namespace RobotCore

open Machine

abbrev Text := List Char

/-- `json.dumps` and `json.loads` with the check of `_tag_map_document`. -/
structure MapCodec where
  dumps : MapDocument → Text
  loads : Text → Option MapDocument

/-! ### Files -/

/-- The inodes with the two names of the map. -/
structure MapFiles where
  inodes : ℕ → Text
  next : ℕ
  map : ℕ
  temporary : Option ℕ

namespace MapFiles

/-- `path.read_text()` -/
def mapText (files : MapFiles) : Text := files.inodes files.map

/-- `temporary.open("w")`: a new file, or the present one, emptied. -/
def openTemporary (files : MapFiles) : MapFiles × ℕ :=
  match files.temporary with
  | some inode => ({ files with inodes := Function.update files.inodes inode [] }, inode)
  | none =>
    ({ files with
        inodes := Function.update files.inodes files.next []
        next := files.next + 1
        temporary := some files.next },
      files.next)

/-- The payload is written over what the file holds, from its beginning. -/
def write (files : MapFiles) (inode : ℕ) (payload : Text) : MapFiles :=
  { files with
    inodes := Function.update files.inodes inode
      (payload ++ (files.inodes inode).drop payload.length) }

/-- `os.replace(temporary, path)`; `none` is a `FileNotFoundError`. -/
def replace (files : MapFiles) : Option MapFiles :=
  files.temporary.map fun inode => { files with map := inode, temporary := none }

/-- `temporary.unlink()` -/
def unlink (files : MapFiles) : Option MapFiles :=
  files.temporary.map fun _ => { files with temporary := none }

end MapFiles

/-! ### A thread -/

inductive EditOutcome where
  | accepted
  /-- answered with an error -/
  | refused
  /-- an exception that is not answered -/
  | raised
  deriving DecidableEq

/-- What a thread works with: the document it read, and its edited copy. -/
structure EditWork where
  base : MapDocument
  document : MapDocument

/-- Where a thread stands. -/
inductive EditPc where
  | start
  | edited (work : EditWork)
  | opened (work : EditWork) (inode : ℕ)
  | written (work : EditWork) (inode : ℕ)
  /-- in the `finally` clause, with an exception raised or not -/
  | leaving (work : EditWork) (raised : Bool)
  | unlinking (work : EditWork) (raised : Bool)
  | done (outcome : EditOutcome)

section Thread

variable (text : PyText) (codec : MapCodec) (edit : TagEdit)

/-- The read of the map and the edit of the document. -/
def readMap (files : MapFiles) : EditPc :=
  match codec.loads files.mapText with
  | none => .done .refused
  | some base =>
    match edit.apply base with
    | .error _ => .done .refused
    | .ok document => .edited { base, document }

/-- The end of the request. -/
def editAnswer (work : EditWork) (raised : Bool) : EditOutcome :=
  if raised then .raised
  else
    match tagList text work.document with
    | .ok _ => .accepted
    | .error (.valueError _) => .refused
    | .error _ => .raised

/-- The next step of a thread. -/
def threadStep (files : MapFiles) : EditPc → Option (MapFiles × EditPc)
  | .start => some (files, readMap codec edit files)
  | .edited work =>
    let (files, inode) := files.openTemporary
    some (files, .opened work inode)
  | .opened work inode =>
    some (files.write inode (codec.dumps work.document), .written work inode)
  | .written work _ =>
    match files.replace with
    | some files => some (files, .leaving work false)
    | none => some (files, .leaving work true)
  | .leaving work raised =>
    if files.temporary.isSome then some (files, .unlinking work raised)
    else some (files, .done (editAnswer text work raised))
  | .unlinking work raised =>
    match files.unlink with
    | some files => some (files, .done (editAnswer text work raised))
    | none => some (files, .done .raised)
  | .done _ => none

end Thread

/-! ### The machine -/

structure EditState where
  files : MapFiles
  threads : Bool → EditPc

section Machine

variable (text : PyText) (codec : MapCodec) (edits : Bool → TagEdit)

/-- One of the two threads makes a step. -/
def editStep (s : EditState) (i : Bool) : Option (EditState × Unit) :=
  (threadStep text codec (edits i) s.files (s.threads i)).map fun (files, pc) =>
    ({ files, threads := Function.update s.threads i pc }, ())

/-- Two requests on a map with the given text. -/
def editMachine (mapText : Text) : Machine EditState Bool Unit where
  init :=
    { files := { inodes := fun _ => mapText, next := 1, map := 0, temporary := none }
      threads := fun _ => .start }
  step := editStep text codec edits

end Machine

abbrev EditTransition := Transition EditState Bool Unit
abbrev EditHistory := History EditState Bool Unit

end RobotCore
