import RobotCore.Interfaces
import RobotCore.Lib.Machine
import RobotCore.Lib.RingBuffer

/-!
# The writer of the policy records

`AsyncPolicyIoWriter` of the T60 policy node.  The executor announces run directories and enqueues
records; a worker thread wakes up, takes what is pending, and writes it to the file of the run.
What happens under the mutex is one step, and so is the writing of one batch, since only the worker
touches the stream.

A file is the list of the records in it with the policy name of their lines; how a line is
formatted is left out.
-/

namespace RobotCore

open Ieee Machine

def kPolicyIoCapacity : ℕ := 512

structure PolicyIoRecord where
  stampNs : Int64 := 0
  action : Vector Binary32 8 := Vector.replicate _ 0
  deriving DecidableEq

/-- One line of the file. -/
structure PolicyIoLine where
  policyName : String
  record : PolicyIoRecord
  deriving DecidableEq

/-- `path / name` of `std::filesystem`, for a relative name. -/
def joinPath (path name : String) : String :=
  if path.toList.getLast? = some '/' then path ++ name else path ++ "/" ++ name

/-- The file of a run; the empty path where there is no run. -/
def policyIoPath (runDir : String) : String :=
  if runDir = "" then ""
  else joinPath (joinPath runDir "policy_io") "body_policy_io.jsonl"

/-! ### The state -/

/-- The members the mutex guards. -/
structure PolicyIoShared where
  records : RingBuffer PolicyIoRecord kPolicyIoCapacity := .empty {} (by decide)
  pendingPath : String := ""
  pendingPolicyName : String := ""
  pathChanged : Bool := false
  active : Bool := false
  stop : Bool := false

/-- What the worker takes in one wake-up: the records, the path and policy name if they changed,
and whether to stop. -/
structure PolicyIoBatch where
  pending : List PolicyIoRecord
  reopen : Option (String × String)
  stop : Bool

/-- The locals of the worker between two steps. -/
structure PolicyIoWorker where
  output : Option String := none
  policyName : String := ""
  batch : Option PolicyIoBatch := none
  returned : Bool := false

structure PolicyIoState where
  shared : PolicyIoShared := {}
  worker : PolicyIoWorker := {}
  files : String → List PolicyIoLine := fun _ => []

/-! ### The executor -/

def setRunDir (s : PolicyIoShared) (runDir policyName : String) : PolicyIoShared :=
  { s with
    pendingPath := policyIoPath runDir
    pendingPolicyName := policyName
    pathChanged := true
    active := runDir ≠ ""
    records := s.records.clear }

/-- `enqueue`; `ownsLock` says whether the attempt to lock succeeds. -/
def enqueueRecord (s : PolicyIoShared) (ownsLock : Bool) (record : PolicyIoRecord) :
    PolicyIoShared :=
  if !ownsLock || !s.active then s
  else { s with records := s.records.push record }

/-! ### The worker -/

/-- The part of an iteration under the mutex. -/
def wakeUp (s : PolicyIoShared) : PolicyIoShared × PolicyIoBatch :=
  ({ s with pathChanged := false, records := s.records.drain.2 },
    { pending := s.records.drain.1
      reopen := if s.pathChanged then some (s.pendingPath, s.pendingPolicyName) else none
      stop := s.stop })

/-- The stream after a path change; `opened` says whether its directory and the file itself could
be opened. -/
def reopenOutput (w : PolicyIoWorker) (batch : PolicyIoBatch) (opened : Bool) : PolicyIoWorker :=
  match batch.reopen with
  | none => w
  | some (path, policyName) =>
    { w with policyName, output := if path ≠ "" && opened then some path else none }

/-- The part of an iteration outside the mutex. -/
def writeBatch (s : PolicyIoState) (batch : PolicyIoBatch) (opened : Bool) : PolicyIoState :=
  let worker := reopenOutput s.worker batch opened
  let lines := batch.pending.map (PolicyIoLine.mk worker.policyName)
  { s with
    worker := { worker with batch := none, returned := batch.stop }
    files :=
      match worker.output with
      | none => s.files
      | some path => Function.update s.files path (s.files path ++ lines) }

/-! ### The machine -/

inductive PolicyIoInput where
  | setRunDir (runDir policyName : String)
  | enqueue (ownsLock : Bool) (record : PolicyIoRecord)
  | wakeUp
  | write (opened : Bool)
  /-- the destructor -/
  | stop

def policyIoStep (s : PolicyIoState) : PolicyIoInput → Option (PolicyIoState × Unit)
  | .setRunDir runDir policyName =>
    if s.shared.stop then none
    else some ({ s with shared := setRunDir s.shared runDir policyName }, ())
  | .enqueue ownsLock record =>
    if s.shared.stop then none
    else some ({ s with shared := enqueueRecord s.shared ownsLock record }, ())
  | .wakeUp =>
    if s.worker.returned || s.worker.batch.isSome then none
    else
      let (shared, batch) := wakeUp s.shared
      some ({ s with shared, worker := { s.worker with batch := some batch } }, ())
  | .write opened => s.worker.batch.map fun batch => (writeBatch s batch opened, ())
  | .stop => some ({ s with shared := { s.shared with stop := true } }, ())

def policyIoMachine : Machine PolicyIoState PolicyIoInput Unit where
  init := {}
  step := policyIoStep

abbrev PolicyIoTransition := Transition PolicyIoState PolicyIoInput Unit
abbrev PolicyIoHistory := History PolicyIoState PolicyIoInput Unit

end RobotCore
