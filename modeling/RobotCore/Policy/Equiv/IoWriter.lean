import RobotCore.Policy.IoWriter

/-!
# Records are written once

What is written, taken and waiting for a file is followed through a run (`content`): a step adds
what it enqueues, moves the rest, and drops what an announcement finds waiting or a closed stream
is given (`content_step`).  `records_written_once`: once the worker has caught up, every file holds
exactly the records enqueued for it, in their order, if and only if no step dropped any.
-/

namespace RobotCore

open Machine

/-! ### What a run says of a file -/

/-- The records a step enqueues for a file. -/
def newRecords (path : String) (x : PolicyIoTransition) : List PolicyIoRecord :=
  match x.input with
  | .enqueue true record =>
    if x.pre.shared.active ∧ x.pre.shared.pendingPath = path then [record] else []
  | _ => []

/-- The records enqueued while the run directory of a file was active, oldest first. -/
def enqueued (path : String) : PolicyIoHistory → List PolicyIoRecord
  | [] => []
  | x :: tr => enqueued path tr ++ newRecords path x

/-- The path the worker last took. -/
def takenPath : PolicyIoHistory → String
  | [] => ""
  | x :: tr =>
    match x.input with
    | .wakeUp => if x.pre.shared.pathChanged then x.pre.shared.pendingPath else takenPath tr
    | _ => takenPath tr

def written (s : PolicyIoState) (path : String) : List PolicyIoRecord :=
  (s.files path).map PolicyIoLine.record

/-- The records of the batch that is not written yet. -/
def inBatch (s : PolicyIoState) : List PolicyIoRecord :=
  match s.worker.batch with
  | none => []
  | some batch => batch.pending

/-- The records that wait for the worker, if the path is that of the active directory. -/
def waitingFor (s : PolicyIoState) (path : String) : List PolicyIoRecord :=
  if s.shared.pendingPath = path then s.shared.records.toList else []

def takenFor (tr : PolicyIoHistory) (s : PolicyIoState) (path : String) : List PolicyIoRecord :=
  if takenPath tr = path then inBatch s else []

/-- Everything there is for a file: written, taken and waiting. -/
def content (tr : PolicyIoHistory) (s : PolicyIoState) (path : String) : List PolicyIoRecord :=
  written s path ++ takenFor tr s path ++ waitingFor s path

/-- The stream is closed when a batch is written. -/
def StreamClosed (s : PolicyIoState) (opened : Bool) : Prop :=
  ∀ batch ∈ s.worker.batch, (reopenOutput s.worker batch opened).output = none

instance (s : PolicyIoState) (opened : Bool) : Decidable (StreamClosed s opened) :=
  match h : s.worker.batch with
  | none => isTrue fun _ hb => by rw [h] at hb; cases hb
  | some batch =>
    decidable_of_iff ((reopenOutput s.worker batch opened).output = none)
      ⟨fun hc _ hb => by rw [h] at hb; cases hb; exact hc, fun hc => hc batch h⟩

/-- The records a step drops. -/
def droppedFor (tr : PolicyIoHistory) (path : String) (x : PolicyIoTransition) :
    List PolicyIoRecord :=
  match x.input with
  | .setRunDir _ _ => waitingFor x.pre path
  | .write opened => if StreamClosed x.pre opened then takenFor tr x.pre path else []
  | _ => []

def droppedCount (path : String) : PolicyIoHistory → ℕ
  | [] => 0
  | x :: tr => droppedCount path tr + (droppedFor tr path x).length

/-- No announcement finds records that wait, and no batch with records is given to a closed
stream. -/
def Lossless (x : PolicyIoTransition) : Prop :=
  match x.input with
  | .setRunDir _ _ => x.pre.shared.records.size = 0
  | .write opened => inBatch x.pre = [] ∨ ¬StreamClosed x.pre opened
  | _ => True

/-- The attempt to lock succeeds and the buffer has room. -/
def enqueueOk (x : PolicyIoTransition) : Bool :=
  match x.input with
  | .enqueue ownsLock _ => ownsLock && decide (x.pre.shared.records.size < kPolicyIoCapacity)
  | _ => true

/-- The worker has nothing to write. -/
def CaughtUp (s : PolicyIoState) : Prop :=
  s.worker.batch = none ∧ s.shared.records.size = 0

/-! ### The stream follows the announcements -/

/-- What the stream is, or will be after the reopening the batch asks for. -/
def StreamFollows (tr : PolicyIoHistory) (w : PolicyIoWorker) : Prop :=
  match w.batch.bind PolicyIoBatch.reopen with
  | some (path, _) => path = takenPath tr
  | none => w.output = none ∨ w.output = some (takenPath tr)

structure WriterTrace (tr : PolicyIoHistory) (s : PolicyIoState) : Prop where
  stream : StreamFollows tr s.worker
  taken : s.shared.pathChanged = false → takenPath tr = s.shared.pendingPath

theorem writerTrace_step {tr : PolicyIoHistory} {s s' : PolicyIoState} {input : PolicyIoInput}
    (h : WriterTrace tr s) (hstep : policyIoStep s input = some (s', ())) :
    WriterTrace (⟨s, input, (), s'⟩ :: tr) s' := by
  obtain ⟨hstream, htaken⟩ := h
  cases input with
  | setRunDir runDir policyName =>
    -- a new run directory is noted, and the worker follows at its next batch
    simp only [policyIoStep] at hstep
    split at hstep
    · cases hstep
    · cases hstep
      exact ⟨hstream, fun hchanged => by cases hchanged⟩
  | enqueue ownsLock record =>
    simp only [policyIoStep] at hstep
    split at hstep
    · cases hstep
    · cases hstep
      -- the stream is the worker's; a full ring forgets a record and not the path
      refine ⟨hstream, ?_⟩
      dsimp only [enqueueRecord]
      split_ifs
      · exact htaken
      · exact htaken
  | wakeUp =>
    simp only [policyIoStep, wakeUp] at hstep
    split at hstep
    · cases hstep
    · rename_i hidle
      cases hstep
      -- the worker takes the path that is pending, if it has changed
      simp only [Bool.or_eq_true, not_or, Option.isSome_iff_ne_none, ne_eq, not_not] at hidle
      unfold StreamFollows at hstream
      rw [hidle.2] at hstream
      cases hchanged : s.shared.pathChanged with
      | true =>
        constructor
        · simp [StreamFollows, takenPath, hchanged]
        · intro _
          simp [takenPath, hchanged]
      | false =>
        constructor
        · simpa [StreamFollows, takenPath, hchanged] using hstream
        · intro _
          simpa [takenPath, hchanged] using htaken hchanged
  | write opened =>
    simp only [policyIoStep, Option.map_eq_some_iff] at hstep
    obtain ⟨batch, hbatch, hs'⟩ := hstep
    cases hs'
    refine ⟨?_, htaken⟩
    unfold StreamFollows at hstream
    rw [hbatch] at hstream
    show StreamFollows _ { reopenOutput s.worker batch opened with batch := none, returned := _ }
    -- without a new path the stream stays; with one it is that path or closed
    cases hreopen : batch.reopen with
    | none =>
      rw [Option.bind_some, hreopen] at hstream
      simpa [StreamFollows, reopenOutput, hreopen, takenPath] using hstream
    | some new =>
      obtain ⟨path, policyName⟩ := new
      rw [Option.bind_some, hreopen] at hstream
      simp only at hstream
      subst hstream
      simp only [StreamFollows, reopenOutput, hreopen, takenPath]
      split_ifs
      · exact Or.inr rfl
      · exact Or.inl rfl
  | stop =>
    cases hstep
    exact ⟨hstream, htaken⟩

/-- An open stream is that of the path taken last. -/
theorem stream_of_open {tr : PolicyIoHistory} {s : PolicyIoState} {batch : PolicyIoBatch}
    {opened : Bool} (h : WriterTrace tr s) (hbatch : s.worker.batch = some batch)
    (hopen : ¬StreamClosed s opened) :
    (reopenOutput s.worker batch opened).output = some (takenPath tr) := by
  have hne : (reopenOutput s.worker batch opened).output ≠ none := by
    intro hnone
    refine hopen fun b hb => ?_
    rw [hbatch] at hb
    cases hb
    exact hnone
  have hstream := h.stream
  unfold StreamFollows at hstream
  rw [hbatch, Option.bind_some] at hstream
  cases hreopen : batch.reopen with
  | none =>
    rw [hreopen] at hstream
    simp only [reopenOutput, hreopen] at hne ⊢
    exact hstream.resolve_left hne
  | some new =>
    obtain ⟨path, policyName⟩ := new
    rw [hreopen] at hstream
    simp only at hstream
    subst hstream
    simp only [reopenOutput, hreopen] at hne ⊢
    split_ifs at hne ⊢ with hpath
    · rfl
    · exact absurd rfl hne

/-! ### What a step does to the content -/

theorem waitingFor_enqueue {s : PolicyIoState} {record : PolicyIoRecord} (path : String)
    (hroom : s.shared.records.size < kPolicyIoCapacity) :
    waitingFor { s with shared := enqueueRecord s.shared true record } path
      = waitingFor s path ++
        if s.shared.active ∧ s.shared.pendingPath = path then [record] else [] := by
  have hactive : s.shared.active = true ∨ s.shared.active = false := by
    cases s.shared.active <;> simp
  rcases hactive with hactive | hactive
  · simp only [waitingFor, enqueueRecord, hactive]
    by_cases hpath : s.shared.pendingPath = path
    · simp [hpath, RingBuffer.toList_push _ _ hroom]
    · simp [hpath]
  · simp [waitingFor, enqueueRecord, hactive]

theorem written_writeBatch {tr : PolicyIoHistory} {s : PolicyIoState} {batch : PolicyIoBatch}
    {opened : Bool} (h : WriterTrace tr s) (hbatch : s.worker.batch = some batch)
    (hopen : ¬StreamClosed s opened) (path : String) :
    written (writeBatch s batch opened) path = written s path ++ takenFor tr s path := by
  have houtput := stream_of_open h hbatch hopen
  have htaken : inBatch s = batch.pending := by rw [inBatch, hbatch]
  have hrecords (name : String) :
      (batch.pending.map (PolicyIoLine.mk name)).map PolicyIoLine.record = batch.pending := by
    rw [List.map_map]
    exact List.map_id _
  unfold written writeBatch takenFor
  simp only [houtput, htaken]
  by_cases hpath : takenPath tr = path
  · rw [if_pos hpath, hpath, Function.update_self, List.map_append, hrecords]
  · rw [if_neg hpath, Function.update_of_ne (Ne.symm hpath), List.append_nil]

theorem written_of_closed {s : PolicyIoState} {batch : PolicyIoBatch} {opened : Bool}
    (hbatch : s.worker.batch = some batch) (hclosed : StreamClosed s opened) (path : String) :
    written (writeBatch s batch opened) path = written s path := by
  have hnone := hclosed batch hbatch
  unfold written writeBatch
  simp only [hnone]

/-- A step keeps what there is for a file but what it drops, and adds what it enqueues. -/
theorem content_step {tr : PolicyIoHistory} {s s' : PolicyIoState} {input : PolicyIoInput}
    (h : WriterTrace tr s) (hok : enqueueOk ⟨s, input, (), s'⟩ = true)
    (hstep : policyIoStep s input = some (s', ())) (path : String) :
    ∃ before after,
      content tr s path = before ++ droppedFor tr path ⟨s, input, (), s'⟩ ++ after ∧
      content (⟨s, input, (), s'⟩ :: tr) s' path
        = before ++ after ++ newRecords path ⟨s, input, (), s'⟩ := by
  cases input with
  | setRunDir runDir policyName =>
    simp only [policyIoStep] at hstep
    split at hstep
    · cases hstep
    · cases hstep
      -- what waits is dropped with the old directory
      refine ⟨written s path ++ takenFor tr s path, [], by simp [content, droppedFor], ?_⟩
      have hwaiting : waitingFor { s with shared := setRunDir s.shared runDir policyName } path
          = [] := by simp [waitingFor, setRunDir]
      rw [content, hwaiting]
      show written s path ++ takenFor tr s path ++ [] = _
      simp [newRecords]
  | enqueue ownsLock record =>
    simp only [enqueueOk, Bool.and_eq_true, decide_eq_true_iff] at hok
    obtain ⟨rfl, hroom⟩ := hok
    simp only [policyIoStep] at hstep
    split at hstep
    · cases hstep
    · cases hstep
      -- there is room, and the lock is free: the record joins the waiting ones
      refine ⟨content tr s path, [], by simp [droppedFor], ?_⟩
      rw [content, waitingFor_enqueue path hroom, ← List.append_assoc, List.append_nil]
      rfl
  | wakeUp =>
    simp only [policyIoStep, wakeUp] at hstep
    split at hstep
    · cases hstep
    · rename_i hidle
      cases hstep
      simp only [Bool.or_eq_true, not_or, Option.isSome_iff_ne_none, ne_eq, not_not] at hidle
      -- the batch takes all that waits, for the path of the worker
      have hempty : takenFor tr s path = [] := by simp [takenFor, inBatch, hidle.2]
      have hpath : (if s.shared.pathChanged then s.shared.pendingPath else takenPath tr)
          = s.shared.pendingPath := by
        cases hchanged : s.shared.pathChanged with
        | true => rfl
        | false => exact h.taken hchanged
      refine ⟨content tr s path, [], by simp [droppedFor], ?_⟩
      simp only [content, hempty, List.append_nil]
      simp [takenFor, takenPath, hpath, waitingFor, inBatch, s.shared.records.drain_spec, written,
        newRecords]
  | write opened =>
    simp only [policyIoStep, Option.map_eq_some_iff] at hstep
    obtain ⟨batch, hbatch, hs'⟩ := hstep
    cases hs'
    have htaken (x : PolicyIoTransition) :
        takenFor (x :: tr) (writeBatch s batch opened) path = [] := by
      simp [takenFor, inBatch, writeBatch]
    have hwaiting : waitingFor (writeBatch s batch opened) path = waitingFor s path := rfl
    by_cases hclosed : StreamClosed s opened
    -- a closed stream loses the batch
    · refine ⟨written s path, waitingFor s path, by simp [content, droppedFor, hclosed], ?_⟩
      rw [content, htaken, hwaiting, written_of_closed hbatch hclosed]
      simp [newRecords]
    -- an open one gets all of it
    · refine ⟨content tr s path, [], by simp [droppedFor, hclosed], ?_⟩
      rw [content, htaken, hwaiting, written_writeBatch h hbatch hclosed]
      simp [newRecords, content]
  | stop =>
    cases hstep
    exact ⟨content tr s path, [], by simp [droppedFor], by simp [newRecords]; rfl⟩

/-! ### Runs -/

theorem content_of_caughtUp {tr : PolicyIoHistory} {s : PolicyIoState} (h : CaughtUp s)
    (path : String) : content tr s path = written s path := by
  have hbatch : inBatch s = [] := by rw [inBatch, h.1]
  have hwaiting : s.shared.records.toList = [] := s.shared.records.toList_eq_nil_iff.mpr h.2
  simp [content, takenFor, waitingFor, hbatch, hwaiting]

theorem content_init (path : String) : content [] policyIoMachine.init path = [] :=
  content_of_caughtUp ⟨rfl, rfl⟩ path

theorem writerTrace_init : WriterTrace [] policyIoMachine.init where
  stream := by
    show StreamFollows [] {}
    exact Or.inl rfl
  taken _ := rfl

theorem writerTrace_of_run {tr : PolicyIoHistory} {s : PolicyIoState}
    (h : policyIoMachine.Run tr s) : WriterTrace tr s :=
  h.invariant (I := WriterTrace) writerTrace_init
    fun _ _ _ _ _ _ htrace hstep => writerTrace_step htrace hstep

/-- Every enqueued record is in the content or was dropped. -/
theorem length_content {tr : PolicyIoHistory} {s : PolicyIoState} (h : policyIoMachine.Run tr s)
    (hok : ∀ x ∈ tr, enqueueOk x = true) (path : String) :
    (content tr s path).length + droppedCount path tr = (enqueued path tr).length := by
  refine h.invariant_of (C := fun x => enqueueOk x = true) (I := fun tr s =>
    (content tr s path).length + droppedCount path tr = (enqueued path tr).length)
    (by rw [content_init]; rfl) ?_ hok
  intro tr s input s' o hrun ih hstep hx
  obtain rfl : o = () := rfl
  obtain ⟨before, after, hold, hnew⟩ := content_step (writerTrace_of_run hrun) hx hstep path
  rw [hold] at ih
  rw [hnew]
  simp only [droppedCount, enqueued, List.length_append] at ih ⊢
  omega

theorem droppedFor_of_lossless {tr : PolicyIoHistory} {x : PolicyIoTransition} (h : Lossless x)
    (path : String) : droppedFor tr path x = [] := by
  unfold Lossless at h
  unfold droppedFor
  cases hinput : x.input with
  | setRunDir =>
    rw [hinput] at h
    simp [waitingFor, (x.pre.shared.records.toList_eq_nil_iff).mpr h]
  | write opened =>
    rw [hinput] at h
    rcases h with hempty | hopen
    · simp [takenFor, hempty]
    · simp [hopen]
  | enqueue => rfl
  | wakeUp => rfl
  | stop => rfl

/-- Without drops the content is what was enqueued. -/
theorem content_of_lossless {tr : PolicyIoHistory} {s : PolicyIoState}
    (h : policyIoMachine.Run tr s) (hok : ∀ x ∈ tr, enqueueOk x = true)
    (hlossless : ∀ x ∈ tr, Lossless x) (path : String) : content tr s path = enqueued path tr := by
  refine h.invariant_of (C := fun x => enqueueOk x = true ∧ Lossless x)
    (I := fun tr s => content tr s path = enqueued path tr) (content_init path) ?_
    fun x hx => ⟨hok x hx, hlossless x hx⟩
  intro tr s input s' o hrun ih hstep hx
  obtain rfl : o = () := rfl
  obtain ⟨before, after, hold, hnew⟩ := content_step (writerTrace_of_run hrun) hx.1 hstep path
  rw [droppedFor_of_lossless hx.2, List.append_nil] at hold
  rw [hnew, ← hold, ih]
  rfl

/-- A step that is not lossless drops something of some file. -/
theorem exists_droppedFor {tr : PolicyIoHistory} {x : PolicyIoTransition} (h : ¬Lossless x) :
    ∃ path, droppedFor tr path x ≠ [] := by
  unfold Lossless at h
  unfold droppedFor
  cases hinput : x.input with
  | setRunDir =>
    rw [hinput] at h
    refine ⟨x.pre.shared.pendingPath, ?_⟩
    dsimp only
    rw [waitingFor, if_pos rfl]
    exact fun hnil => h (x.pre.shared.records.toList_eq_nil_iff.mp hnil)
  | write opened =>
    rw [hinput, not_or, not_not] at h
    refine ⟨takenPath tr, ?_⟩
    dsimp only
    rw [if_pos h.2, takenFor, if_pos rfl]
    exact h.1
  | enqueue => rw [hinput] at h; exact absurd trivial h
  | wakeUp => rw [hinput] at h; exact absurd trivial h
  | stop => rw [hinput] at h; exact absurd trivial h

theorem exists_droppedCount {tr : PolicyIoHistory} (h : ¬∀ x ∈ tr, Lossless x) :
    ∃ path, 0 < droppedCount path tr := by
  induction tr with
  | nil => exact absurd (fun x hx => absurd hx List.not_mem_nil) h
  | cons x tr ih =>
    by_cases hx : Lossless x
    · obtain ⟨path, hpath⟩ := ih fun hall => h (List.forall_mem_cons.mpr ⟨hx, hall⟩)
      exact ⟨path, Nat.add_pos_left hpath _⟩
    · obtain ⟨path, hpath⟩ := @exists_droppedFor tr _ hx
      exact ⟨path, Nat.add_pos_right _ (List.length_pos_iff.mpr hpath)⟩

/-! ### Catching up -/

/-- A worker that is to return, or has returned, leaves nothing behind. -/
structure StopTrace (s : PolicyIoState) : Prop where
  returned : s.worker.returned = true → s.worker.batch = none
  stopped : s.worker.returned = true ∨ (∃ batch ∈ s.worker.batch, batch.stop = true) →
    s.shared.stop = true ∧ s.shared.records.size = 0

theorem stopTrace_step {s s' : PolicyIoState} {input : PolicyIoInput} (h : StopTrace s)
    (hstep : policyIoStep s input = some (s', ())) : StopTrace s' := by
  obtain ⟨hreturned, hstopped⟩ := h
  cases input with
  | setRunDir runDir policyName =>
    simp only [policyIoStep] at hstep
    split at hstep
    · cases hstep
    · rename_i hrunning
      cases hstep
      exact ⟨hreturned, fun hend => absurd (hstopped hend).1 hrunning⟩
  | enqueue ownsLock record =>
    simp only [policyIoStep] at hstep
    split at hstep
    · cases hstep
    · rename_i hrunning
      cases hstep
      exact ⟨hreturned, fun hend => absurd (hstopped hend).1 hrunning⟩
  | wakeUp =>
    simp only [policyIoStep, wakeUp] at hstep
    split at hstep
    · cases hstep
    · rename_i hidle
      cases hstep
      simp only [Bool.or_eq_true, not_or, Bool.not_eq_true] at hidle
      refine ⟨fun hend => absurd hend (by rw [hidle.1]; exact Bool.false_ne_true), ?_⟩
      rintro (hend | ⟨batch, hbatch, hstop⟩)
      · rw [hidle.1] at hend
        cases hend
      · cases hbatch
        exact ⟨hstop, (RingBuffer.toList_eq_nil_iff _).mp s.shared.records.drain_spec.2⟩
  | write opened =>
    simp only [policyIoStep, Option.map_eq_some_iff] at hstep
    obtain ⟨batch, hbatch, hs'⟩ := hstep
    cases hs'
    refine ⟨fun _ => rfl, ?_⟩
    rintro (hend | ⟨batch', hbatch', -⟩)
    · exact hstopped (Or.inr ⟨batch, hbatch, hend⟩)
    · cases hbatch'
  | stop =>
    cases hstep
    exact ⟨hreturned, fun hend => ⟨rfl, (hstopped hend).2⟩⟩

theorem stopTrace_of_run {tr : PolicyIoHistory} {s : PolicyIoState}
    (h : policyIoMachine.Run tr s) : StopTrace s := by
  refine h.invariant (I := fun _ s => StopTrace s) ⟨fun _ => rfl, fun hend => ?_⟩
    fun _ _ _ _ _ _ htrace hstep => stopTrace_step htrace hstep
  rcases hend with hend | ⟨batch, hbatch, -⟩
  · cases hend
  · cases hbatch

/-- A step of the worker. -/
def WorkerStep (x : PolicyIoTransition) : Prop :=
  x.input = .wakeUp ∨ ∃ opened, x.input = .write opened

/-- An iteration of the worker catches up. -/
theorem exists_caughtUp_of_idle {tr : PolicyIoHistory} {s : PolicyIoState}
    (h : policyIoMachine.Run tr s) (hbatch : s.worker.batch = none) :
    ∃ tr' s', policyIoMachine.Run (tr' ++ tr) s' ∧ CaughtUp s' ∧ ∀ x ∈ tr', WorkerStep x := by
  cases hreturned : s.worker.returned with
  | true =>
    exact ⟨[], s, h, ⟨hbatch, ((stopTrace_of_run h).stopped (Or.inl hreturned)).2⟩, by simp⟩
  | false =>
    have hwake : policyIoMachine.step s .wakeUp = some ({ s with
        shared := (wakeUp s.shared).1
        worker := { s.worker with batch := some (wakeUp s.shared).2 } }, ()) := by
      simp [policyIoMachine, policyIoStep, hreturned, hbatch]
    have hempty := (RingBuffer.toList_eq_nil_iff _).mp s.shared.records.drain_spec.2
    refine ⟨[_, _], _, .step (.step h hwake) (i := .write true) rfl, ⟨rfl, hempty⟩, ?_⟩
    intro x hx
    simp only [List.mem_cons, List.not_mem_nil, or_false] at hx
    rcases hx with rfl | rfl
    · exact Or.inr ⟨true, rfl⟩
    · exact Or.inl rfl

/-- The worker can always catch up. -/
theorem exists_caughtUp {tr : PolicyIoHistory} {s : PolicyIoState} (h : policyIoMachine.Run tr s) :
    ∃ tr' s', policyIoMachine.Run (tr' ++ tr) s' ∧ CaughtUp s' ∧ ∀ x ∈ tr', WorkerStep x := by
  cases hbatch : s.worker.batch with
  | none => exact exists_caughtUp_of_idle h hbatch
  | some batch =>
    have hwrite : policyIoMachine.step s (.write true) = some (writeBatch s batch true, ()) := by
      simp [policyIoMachine, policyIoStep, hbatch]
    obtain ⟨tr', s', hrun, hcaughtUp, hworker⟩ := exists_caughtUp_of_idle (.step h hwrite) rfl
    refine ⟨tr' ++ [_], s', by simpa using hrun, hcaughtUp, ?_⟩
    intro x hx
    rcases List.mem_append.mp hx with hx | hx
    · exact hworker x hx
    · rw [List.mem_singleton] at hx
      exact hx ▸ Or.inr ⟨true, rfl⟩

/-- **Records are written once.**  In a run whose attempts to lock succeed and whose buffer has
room, the worker can always catch up, and when it has, every file holds exactly the records
enqueued while its run directory was active, in their order, if and only if no announcement found
waiting records and no batch with records was given to a closed stream.  Until then the records of
such a run are written, taken or waiting, in their order. -/
theorem records_written_once {tr : PolicyIoHistory} {s : PolicyIoState}
    (h : policyIoMachine.Run tr s) (hok : ∀ x ∈ tr, enqueueOk x = true) :
    (CaughtUp s → ((∀ path, written s path = enqueued path tr) ↔ ∀ x ∈ tr, Lossless x)) ∧
      ((∀ x ∈ tr, Lossless x) → ∀ path, content tr s path = enqueued path tr) ∧
      ∃ tr' s', policyIoMachine.Run (tr' ++ tr) s' ∧ CaughtUp s' ∧ ∀ x ∈ tr', WorkerStep x := by
  refine ⟨fun hcaughtUp => ⟨fun hwritten => ?_, fun hlossless path => ?_⟩,
    content_of_lossless h hok, exists_caughtUp h⟩
  · by_contra hloss
    obtain ⟨path, hpath⟩ := exists_droppedCount hloss
    have hlength := length_content h hok path
    rw [content_of_caughtUp hcaughtUp, hwritten path] at hlength
    omega
  · rw [← @content_of_caughtUp tr s hcaughtUp]
    exact content_of_lossless h hok hlossless path

/-- A record is enqueued and written. -/
def writtenInputs : List PolicyIoInput :=
  [.setRunDir "/runs/a" "t60", .wakeUp, .write true, .enqueue true { stampNs := 1 }, .wakeUp,
    .write true]

/-- The same directory is announced again before the worker takes the record. -/
def repeatedInputs : List PolicyIoInput :=
  [.setRunDir "/runs/a" "t60", .wakeUp, .write true, .enqueue true { stampNs := 1 },
    .setRunDir "/runs/a" "t60", .wakeUp, .write true]

/-- The worker has caught up after the newest step of a run without failed or full enqueues. -/
def endsCaughtUp (x : PolicyIoTransition) (tr : PolicyIoHistory) : Bool :=
  (x :: tr).all enqueueOk && x.post.worker.batch.isNone && x.post.shared.records.size == 0

theorem records_written_once_writtenInputs :
    ∃ tr s, policyIoMachine.Run tr s ∧ CaughtUp s ∧
      ((∀ path, written s path = enqueued path tr) ↔ ∀ x ∈ tr, Lossless x) := by
  obtain ⟨x, tr, s, hrun, hx⟩ := run_of_execCheck policyIoMachine writtenInputs endsCaughtUp
    (by decide +kernel)
  simp only [endsCaughtUp, Bool.and_eq_true, List.all_eq_true, Option.isNone_iff_eq_none,
    beq_iff_eq, hrun.head_post] at hx
  have hcaughtUp : CaughtUp s := ⟨hx.1.2, hx.2⟩
  exact ⟨x :: tr, s, hrun, hcaughtUp, (records_written_once hrun hx.1.1).1 hcaughtUp⟩

/-- A repeated announcement of the same directory drops the record that waits for it. -/
theorem repeated_announcement :
    ¬∀ (tr : PolicyIoHistory) (s : PolicyIoState), policyIoMachine.Run tr s →
      (∀ x ∈ tr, enqueueOk x = true) → CaughtUp s → ∀ path, written s path = enqueued path tr := by
  intro hall
  obtain ⟨x, tr, s, hrun, hx⟩ := run_of_execCheck policyIoMachine repeatedInputs
    (fun x tr => endsCaughtUp x tr &&
      written x.post (policyIoPath "/runs/a") != enqueued (policyIoPath "/runs/a") (x :: tr))
    (by decide +kernel)
  simp only [endsCaughtUp, Bool.and_eq_true, List.all_eq_true, Option.isNone_iff_eq_none,
    beq_iff_eq, bne_iff_ne, hrun.head_post] at hx
  obtain ⟨⟨⟨hok, hbatch⟩, hempty⟩, hne⟩ := hx
  exact hne (hall _ s hrun hok ⟨hbatch, hempty⟩ _)

end RobotCore
