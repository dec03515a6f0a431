import RobotCore.HostManager.Equiv.AprilTag
import RobotCore.HostManager.Files

/-!
# When two edits at the same time are both kept

A run of two edits is orderly when no thread opens or checks for the temporary file while the other
one has it open, and no thread replaces the map by an edit of a document the map no longer holds.
After an orderly run both requests are accepted and the map holds both edits (`Orderly` steps keep
`Serial`).  A step that is not orderly leads to a state from which one of the requests fails or its
edit is lost (`Doomed`), and no later step leads out of it.
-/

namespace RobotCore

open Machine Std

/-! ### Orderly steps -/

/-- The inode a thread has open, until it is moved. -/
def windowInode : EditPc → Option ℕ
  | .opened _ inode | .written _ inode => some inode
  | _ => none

/-- The thread is past its replacement. -/
def pastReplace : EditPc → Bool
  | .leaving _ _ | .unlinking _ _ | .done _ => true
  | _ => false

/-- The temporary file is opened and checked for while the other thread does not use it, and the
map is replaced by an edit of what it holds. -/
def Orderly (codec : MapCodec) (x : EditTransition) : Prop :=
  match x.pre.threads x.input with
  | .edited _ | .leaving _ _ => windowInode (x.pre.threads !x.input) = none
  | .written work _ => codec.loads x.pre.files.mapText = some work.base
  | _ => True

/-! ### Documents -/

/-- An edit that is done or not. -/
def effectIf (done : Bool) (edit : TagEdit) (tags : TagTable) : TagTable :=
  if done then edit.effect tags else tags

/-- The table after the edits that are done. -/
def keptTags (edits : Bool → TagEdit) (tags : TagTable) (done : Bool → Bool) : TagTable :=
  effectIf (done true) (edits true) (effectIf (done false) (edits false) tags)

/-- The document after both edits. -/
def bothEdits (edits : Bool → TagEdit) (document : MapDocument) : MapDocument :=
  document.withTags ((edits true).effect ((edits false).effect document.tags))

/-- `json` reads what it has written, for the documents the requests make. -/
def ReadsBack (codec : MapCodec) (edits : Bool → TagEdit) (document : MapDocument) : Prop :=
  ∀ done, codec.loads (codec.dumps (document.withTags (keptTags edits document.tags done)))
    = some (document.withTags (keptTags edits document.tags done))

/-- A request that is accepted when it is served alone. -/
def AcceptedAlone (text : PyText) (document : MapDocument) (edit : TagEdit) : Prop :=
  edit.Applicable document.tags ∧ Listable text (edit.effect document.tags)

/-- Both requests are accepted, and the map is a document with both edits. -/
def BothKept (codec : MapCodec) (edits : Bool → TagEdit) (document : MapDocument)
    (s : EditState) : Prop :=
  (∀ i, s.threads i = .done .accepted) ∧
    codec.loads s.files.mapText = some (bothEdits edits document)

/-- Both requests have come to an end. -/
def BothDone (s : EditState) : Prop := ∀ i, ∃ outcome, s.threads i = .done outcome

theorem forall_thread {p : Bool → Prop} (i : Bool) : (∀ j, p j) ↔ p i ∧ p !i := by
  cases i with
  | false => exact Bool.forall_bool
  | true => exact Bool.forall_bool.trans and_comm

theorem update_not {α : Type} (f : Bool → α) (i : Bool) (x : α) :
    Function.update f i x (!i) = f !i :=
  Function.update_of_ne (by cases i <;> decide) _ _

section Documents

variable {edits : Bool → TagEdit} (hdisjoint : (edits true).ids.Disjoint (edits false).ids)
  (tags : TagTable) {done : Bool → Bool} {i : Bool}

include hdisjoint

theorem ids_disjoint (i : Bool) : (edits i).ids.Disjoint (edits !i).ids := by
  cases i with
  | false => exact hdisjoint.symm
  | true => exact hdisjoint

/-- The order of the edits does not matter. -/
theorem keptTags_eq (i : Bool) : keptTags edits tags done
    = effectIf (done i) (edits i) (effectIf (done !i) (edits !i) tags) := by
  cases i with
  | true => rfl
  | false =>
    show effectIf (done true) (edits true) (effectIf (done false) (edits false) tags)
      = effectIf (done false) (edits false) (effectIf (done true) (edits true) tags)
    unfold effectIf
    cases done true <;> cases done false <;> simp [effect_comm hdisjoint]

theorem bothEdits_eq (document : MapDocument) (i : Bool) : bothEdits edits document
    = document.withTags ((edits i).effect ((edits !i).effect document.tags)) := by
  cases i with
  | true => rfl
  | false => rw [bothEdits, effect_comm hdisjoint]; rfl

end Documents

/-! ### Serial states -/

/-- What a thread works with. -/
def workOf : EditPc → Option EditWork
  | .edited work | .opened work _ | .written work _ | .leaving work _ => some work
  | _ => none

/-- Nothing has gone wrong for the thread. -/
def CleanPc : EditPc → Prop
  | .leaving _ raised => raised = false
  | .unlinking _ _ => False
  | .done outcome => outcome = .accepted
  | _ => True

/-- What holds of a thread while the edits are done one after the other. -/
structure ThreadSerial (codec : MapCodec) (edits : Bool → TagEdit) (document : MapDocument)
    (files : MapFiles) (i : Bool) (pc other : EditPc) : Prop where
  clean : CleanPc pc
  window : ∀ inode, windowInode pc = some inode →
    files.temporary = some inode ∧ windowInode other = none
  emptied : ∀ work inode, pc = .opened work inode → files.inodes inode = []
  payload : ∀ work inode, pc = .written work inode →
    files.inodes inode = codec.dumps work.document
  work : ∀ work, workOf pc = some work →
    work.document = work.base.withTags ((edits i).effect work.base.tags) ∧
      ∃ done, (done = true → pastReplace other = true) ∧
        work.base = document.withTags (effectIf done (edits !i) document.tags)

/-- The edits so far were done one after the other. -/
structure Serial (codec : MapCodec) (edits : Bool → TagEdit) (document : MapDocument)
    (s : EditState) : Prop where
  thread : ∀ i, ThreadSerial codec edits document s.files i (s.threads i) (s.threads !i)
  noWindow : (∀ i, windowInode (s.threads i) = none) → s.files.temporary = none
  map_lt : s.files.map < s.files.next
  temporary_lt : ∀ inode, s.files.temporary = some inode →
    inode < s.files.next ∧ inode ≠ s.files.map
  content : codec.loads s.files.mapText
    = some (document.withTags (keptTags edits document.tags fun i => pastReplace (s.threads i)))

section Serial

variable {text : PyText} {codec : MapCodec} {edits : Bool → TagEdit} {document : MapDocument}
  {s s' : EditState} {files : MapFiles} {i : Bool}

theorem serial_init {mapText : Text} (h : codec.loads mapText = some document) :
    Serial codec edits document (editMachine text codec edits mapText).init where
  thread _ :=
    { clean := trivial
      window := fun _ hwindow => by cases hwindow
      emptied := fun _ _ hpc => by cases hpc
      payload := fun _ _ hpc => by cases hpc
      work := fun _ hwork => by cases hwork }
  noWindow _ := rfl
  map_lt := Nat.one_pos
  temporary_lt _ hinode := by cases hinode
  content := h

/-- A step of the other thread leaves alone a thread that does not have the temporary file open. -/
theorem ThreadSerial.of_other {pc other other' : EditPc}
    (h : ThreadSerial codec edits document s.files i pc other)
    (hfiles : windowInode pc = none ∨ files = s.files ∧ windowInode other' = windowInode other)
    (hpast : pastReplace other = true → pastReplace other' = true) :
    ThreadSerial codec edits document files i pc other' := by
  obtain hpc | ⟨rfl, hother⟩ := hfiles
  · exact
      { clean := h.clean
        window := fun inode hwindow => by rw [hpc] at hwindow; cases hwindow
        emptied := fun work inode heq => by rw [heq] at hpc; cases hpc
        payload := fun work inode heq => by rw [heq] at hpc; cases hpc
        work := fun work hwork => by
          obtain ⟨hdocument, done, hdone, hbase⟩ := h.work work hwork
          exact ⟨hdocument, done, hpast ∘ hdone, hbase⟩ }
  · exact
      { clean := h.clean
        window := fun inode hwindow => by rw [hother]; exact h.window inode hwindow
        emptied := h.emptied
        payload := h.payload
        work := fun work hwork => by
          obtain ⟨hdocument, done, hdone, hbase⟩ := h.work work hwork
          exact ⟨hdocument, done, hpast ∘ hdone, hbase⟩ }

/-- The state after a step of a thread. -/
def afterStep (s : EditState) (i : Bool) (files : MapFiles) (pc : EditPc) : EditState :=
  { files, threads := Function.update s.threads i pc }

@[simp] theorem afterStep_files (pc : EditPc) : (afterStep s i files pc).files = files := rfl

@[simp] theorem afterStep_self (pc : EditPc) : (afterStep s i files pc).threads i = pc := by
  simp [afterStep]

@[simp] theorem afterStep_not (pc : EditPc) :
    (afterStep s i files pc).threads (!i) = s.threads !i :=
  update_not s.threads i pc

theorem editStep_eq_some (h : editStep text codec edits s i = some (s', ())) :
    ∃ files pc, threadStep text codec (edits i) s.files (s.threads i) = some (files, pc) ∧
      s' = afterStep s i files pc := by
  obtain ⟨⟨files, pc⟩, hstep, heq⟩ := Option.map_eq_some_iff.mp h
  cases heq
  exact ⟨files, pc, hstep, rfl⟩

/-- The state after a step is serial when what the thread did is. -/
theorem serial_afterStep {pc : EditPc} (h : Serial codec edits document s)
    (hself : ThreadSerial codec edits document files i pc (s.threads !i))
    (hother : windowInode (s.threads !i) = none ∨
      files = s.files ∧ windowInode pc = windowInode (s.threads i))
    (hpast : pastReplace (s.threads i) = true → pastReplace pc = true)
    (hnone : windowInode pc = none → windowInode (s.threads !i) = none → files.temporary = none)
    (hmap : files.map < files.next)
    (hlt : ∀ inode, files.temporary = some inode → inode < files.next ∧ inode ≠ files.map)
    (hcontent : codec.loads files.mapText = some (document.withTags
      (keptTags edits document.tags fun j => pastReplace ((afterStep s i files pc).threads j)))) :
    Serial codec edits document (afterStep s i files pc) where
  thread := by
    refine (forall_thread i).mpr ⟨?_, ?_⟩
    · simpa using hself
    · have hthread := h.thread !i
      rw [Bool.not_not] at hthread
      simpa using hthread.of_other hother hpast
  noWindow := fun hwindow => by
    have hi := hwindow i
    have hj := hwindow !i
    rw [afterStep_self] at hi
    rw [afterStep_not] at hj
    exact hnone hi hj
  map_lt := hmap
  temporary_lt := hlt
  content := hcontent

/-- A step that is not the replacement leaves the threads that are past it as they are. -/
theorem pastReplace_afterStep {pc : EditPc} (h : pastReplace pc = pastReplace (s.threads i)) :
    (fun j => pastReplace ((afterStep s i files pc).threads j))
      = fun j => pastReplace (s.threads j) := by
  refine funext ((forall_thread i).mpr ⟨?_, ?_⟩)
  · rw [afterStep_self, h]
  · rw [afterStep_not]

variable (hdisjoint : (edits true).ids.Disjoint (edits false).ids)
  (halone : ∀ i, AcceptedAlone text document (edits i))

include hdisjoint

/-- The table a thread finds, for a thread that has not replaced the map. -/
theorem keptTags_of_notPast (h : pastReplace (s.threads i) = false) :
    keptTags edits document.tags (fun j => pastReplace (s.threads j))
      = effectIf (pastReplace (s.threads !i)) (edits !i) document.tags := by
  rw [keptTags_eq hdisjoint _ i, h]
  rfl

include halone

/-- An edit can be applied to what the other one leaves. -/
theorem applicable_effectIf (done : Bool) :
    (edits i).Applicable (effectIf done (edits !i) document.tags) := by
  cases done with
  | false => exact (halone i).1
  | true => exact (applicable_effect_other (ids_disjoint hdisjoint i) _).mpr (halone i).1

omit hdisjoint in
theorem listable_effectIf (done : Bool) :
    Listable text ((edits i).effect (effectIf done (edits !i) document.tags)) := by
  cases done with
  | false => exact (halone i).2
  | true => exact listable_effect_effect (halone i).2 (halone !i).2

/-- The read of the map succeeds. -/
theorem readMap_of_serial (h : Serial codec edits document s) (hpc : s.threads i = .start) :
    readMap codec (edits i) s.files = .edited
      { base := document.withTags (effectIf (pastReplace (s.threads !i)) (edits !i) document.tags)
        document := document.withTags
          ((edits i).effect
            (effectIf (pastReplace (s.threads !i)) (edits !i) document.tags)) } := by
  have hpast : pastReplace (s.threads i) = false := by rw [hpc]; rfl
  have hcontent := h.content
  rw [keptTags_of_notPast hdisjoint hpast] at hcontent
  have happly := (apply_eq_ok_iff (edits i) (document.withTags
    (effectIf (pastReplace (s.threads !i)) (edits !i) document.tags)) _).mpr
      ⟨applicable_effectIf hdisjoint halone _, rfl⟩
  unfold readMap
  rw [hcontent]
  dsimp only
  rw [happly]
  rfl

omit hdisjoint in
/-- The answer of a thread that worked on its own. -/
theorem answer_of_serial (h : Serial codec edits document s) {work : EditWork}
    (hwork : workOf (s.threads i) = some work) : editAnswer text work false = .accepted := by
  obtain ⟨hdocument, done, -, hbase⟩ := (h.thread i).work work hwork
  have hlist : tagList text work.document = .ok () := by
    rw [tagList_eq_ok_iff, hdocument, hbase]
    exact listable_effectIf halone done
  simp [editAnswer, hlist]

/-- An orderly step keeps the edits serial. -/
theorem serial_step (hreads : ReadsBack codec edits document)
    (h : Serial codec edits document s)
    (horderly : Orderly codec ⟨s, i, (), s'⟩)
    (hstep : editStep text codec edits s i = some (s', ())) :
    Serial codec edits document s' := by
  obtain ⟨files, pc, hthread, rfl⟩ := editStep_eq_some hstep
  have hself := h.thread i
  have hcontent := h.content
  unfold Orderly at horderly
  dsimp only at horderly
  cases hpc : s.threads i with
  | start =>
    -- the thread reads the map, and has nothing open yet
    rw [hpc, threadStep, readMap_of_serial hdisjoint halone h hpc] at hthread
    cases hthread
    refine serial_afterStep h ?_ (Or.inr ⟨rfl, by rw [hpc]; rfl⟩) (by rw [hpc]; exact id)
      (fun _ hother => ?_) h.map_lt h.temporary_lt ?_
    · exact
        { clean := trivial
          window := fun _ hwindow => by cases hwindow
          emptied := fun _ _ heq => by cases heq
          payload := fun _ _ heq => by cases heq
          work := fun work hwork => by
            cases hwork
            exact ⟨rfl, _, id, rfl⟩ }
    · exact h.noWindow ((forall_thread i).mpr ⟨by rw [hpc]; rfl, hother⟩)
    · rw [pastReplace_afterStep (by rw [hpc]; rfl)]
      exact hcontent
  | edited work =>
    -- no other edit has the temporary file, so that opening creates it
    rw [hpc] at horderly hself
    have hnone : s.files.temporary = none :=
      h.noWindow ((forall_thread i).mpr ⟨by rw [hpc]; rfl, horderly⟩)
    rw [hpc, threadStep, MapFiles.openTemporary, hnone] at hthread
    cases hthread
    refine serial_afterStep h ?_ (Or.inl horderly) (by rw [hpc]; exact id) ?_ ?_ ?_ ?_
    · exact
        { clean := trivial
          window := fun inode hwindow => by cases hwindow; exact ⟨rfl, horderly⟩
          emptied := fun _ _ heq => by cases heq; exact Function.update_self ..
          payload := fun _ _ heq => by cases heq
          work := hself.work }
    · intro hwindow
      cases hwindow
    · exact h.map_lt.trans (Nat.lt_succ_self _)
    · intro inode hinode
      cases hinode
      exact ⟨Nat.lt_succ_self _, h.map_lt.ne'⟩
    · rw [pastReplace_afterStep (by rw [hpc]; rfl), ← hcontent, MapFiles.mapText, MapFiles.mapText]
      dsimp only
      rw [Function.update_of_ne h.map_lt.ne]
  | opened work inode =>
    -- the new file stays empty up to the write
    rw [hpc] at hself
    obtain ⟨htemporary, hother⟩ := hself.window inode rfl
    have hempty := hself.emptied work inode rfl
    rw [hpc, threadStep] at hthread
    cases hthread
    refine serial_afterStep h ?_ (Or.inl hother) (by rw [hpc]; exact id) ?_ h.map_lt
      h.temporary_lt ?_
    · exact
        { clean := trivial
          window := fun inode hwindow => by cases hwindow; exact ⟨htemporary, hother⟩
          emptied := fun _ _ heq => by cases heq
          payload := fun _ _ heq => by
            cases heq
            simp [MapFiles.write, hempty]
          work := hself.work }
    · intro hwindow
      cases hwindow
    · rw [pastReplace_afterStep (by rw [hpc]; rfl), ← hcontent, MapFiles.mapText, MapFiles.mapText,
        MapFiles.write]
      dsimp only
      rw [Function.update_of_ne (h.temporary_lt inode htemporary).2.symm]
  | written work inode =>
    -- the replace makes the written file the map, with the tags of both edits past it
    rw [hpc] at horderly hself
    obtain ⟨htemporary, hother⟩ := hself.window inode rfl
    have hpayload := hself.payload work inode rfl
    obtain ⟨hdocument, -⟩ := hself.work work rfl
    have hpast : pastReplace (s.threads i) = false := by rw [hpc]; rfl
    rw [keptTags_of_notPast hdisjoint hpast, horderly] at hcontent
    have hbase := Option.some_inj.mp hcontent
    rw [hpc, threadStep, MapFiles.replace, htemporary] at hthread
    cases hthread
    refine serial_afterStep h ?_ (Or.inl hother) (by rw [hpast]; nofun) (fun _ _ => rfl)
      (h.temporary_lt inode htemporary).1 nofun ?_
    · exact
        { clean := rfl
          window := fun inode hwindow => by cases hwindow
          emptied := fun _ _ heq => by cases heq
          payload := fun _ _ heq => by cases heq
          work := hself.work }
    · have hkept : work.document = document.withTags (keptTags edits document.tags fun j =>
          pastReplace ((afterStep s i { s.files with map := inode, temporary := none }
            (.leaving work false)).threads j)) := by
        rw [hdocument, hbase, keptTags_eq hdisjoint _ i, afterStep_self, afterStep_not]
        rfl
      rw [MapFiles.mapText]
      dsimp only
      rw [hpayload, hkept]
      exact hreads _
  | leaving work raised =>
    -- there is nothing left to unlink
    rw [hpc] at horderly hself
    obtain rfl : raised = false := hself.clean
    have hnone : s.files.temporary = none :=
      h.noWindow ((forall_thread i).mpr ⟨by rw [hpc]; rfl, horderly⟩)
    rw [hpc, threadStep, hnone] at hthread
    cases hthread
    refine serial_afterStep h ?_ (Or.inl horderly) (fun _ => rfl) (fun _ _ => hnone) h.map_lt
      h.temporary_lt ?_
    · exact
        { clean := answer_of_serial halone h (by rw [hpc]; rfl)
          window := fun inode hwindow => by cases hwindow
          emptied := fun _ _ heq => by cases heq
          payload := fun _ _ heq => by cases heq
          work := fun _ hwork => by cases hwork }
    · rw [pastReplace_afterStep (by rw [hpc]; rfl)]
      exact hcontent
  | unlinking work raised =>
    -- an edit that has not failed unlinks nothing
    rw [hpc] at hself
    exact hself.clean.elim
  | done outcome =>
    rw [hpc, threadStep] at hthread
    cases hthread

end Serial

/-! ### Doomed states -/

/-- The thread is going to fail, or has failed. -/
def FailedPc : EditPc → Prop
  | .leaving _ raised | .unlinking _ raised => raised = true
  | .done outcome => outcome ≠ .accepted
  | _ => False

/-- The thread has found the temporary file in its `finally` clause. -/
def isUnlinking : EditPc → Bool
  | .unlinking _ _ => true
  | _ => false

/-- One of the requests cannot be accepted any more, or its edit is lost. -/
inductive Doomed (codec : MapCodec) (edits : Bool → TagEdit) (document : MapDocument)
    (s : EditState) : Prop
  /-- A thread has an exception to raise, or has not accepted. -/
  | failed (i : Bool) (h : FailedPc (s.threads i))
  /-- Both threads have the temporary file open. -/
  | bothOpen (h : ∀ i, windowInode (s.threads i) ≠ none)
  /-- The file a thread has open has been moved by the other one. -/
  | moved (i : Bool) (hwindow : windowInode (s.threads i) ≠ none)
      (htemporary : s.files.temporary = none) (hother : pastReplace (s.threads !i) = true)
  /-- A thread is about to remove the file of the other one. -/
  | removing (i : Bool) (hunlinking : isUnlinking (s.threads i) = true)
      (hother : windowInode (s.threads !i) ≠ none)
  /-- The file a thread is about to remove is not there any more. -/
  | removed (i : Bool) (hunlinking : isUnlinking (s.threads i) = true)
      (htemporary : s.files.temporary = none) (hother : pastReplace (s.threads !i) = true)
  /-- Both threads have replaced the map, and it does not hold both edits. -/
  | lost (hpast : ∀ i, pastReplace (s.threads i) = true)
      (hcontent : codec.loads s.files.mapText ≠ some (bothEdits edits document))

section Doomed

variable {text : PyText} {codec : MapCodec} {edits : Bool → TagEdit} {document : MapDocument}
  {s s' : EditState} {files : MapFiles} {i : Bool} {pc pc' : EditPc}

theorem not_bothKept_of_doomed (h : Doomed codec edits document s) :
    ¬BothKept codec edits document s := by
  rintro ⟨haccepted, hcontent⟩
  cases h with
  | failed i h => rw [haccepted i] at h; exact h rfl
  | bothOpen h => exact h true (by rw [haccepted true]; rfl)
  | moved i hwindow _ _ => rw [haccepted i] at hwindow; exact hwindow rfl
  | removing i hunlinking _ => rw [haccepted i] at hunlinking; cases hunlinking
  | removed i hunlinking _ _ => rw [haccepted i] at hunlinking; cases hunlinking
  | lost _ hlost => exact hlost hcontent

/-- A thread that is going to fail fails. -/
theorem failedPc_step (hstep : threadStep text codec (edits i) s.files pc = some (files, pc'))
    (h : FailedPc pc) : FailedPc pc' := by
  cases pc with
  | leaving work raised =>
    obtain rfl : raised = true := h
    rw [threadStep] at hstep
    split_ifs at hstep
    · cases hstep
      rfl
    · cases hstep
      simp [FailedPc, editAnswer]
  | unlinking work raised =>
    obtain rfl : raised = true := h
    rw [threadStep] at hstep
    cases hunlink : s.files.unlink with
    | some files =>
      rw [hunlink] at hstep
      cases hstep
      simp [FailedPc, editAnswer]
    | none =>
      rw [hunlink] at hstep
      cases hstep
      simp [FailedPc]
  | done outcome => cases hstep
  | start | edited _ | opened _ _ | written _ _ => exact h.elim

/-- A thread that is about to remove the temporary file is done, or fails. -/
theorem step_of_unlinking
    (hstep : threadStep text codec (edits i) s.files pc = some (files, pc'))
    (h : isUnlinking pc = true) :
    pastReplace pc' = true ∧ files.mapText = s.files.mapText ∧ files.temporary = none ∧
      (s.files.temporary = none → FailedPc pc') := by
  cases pc with
  | unlinking work raised =>
    cases htemporary : s.files.temporary with
    | none =>
      rw [threadStep, MapFiles.unlink, htemporary] at hstep
      cases hstep
      simp [pastReplace, htemporary, FailedPc]
    | some inode =>
      rw [threadStep, MapFiles.unlink, htemporary] at hstep
      cases hstep
      simp [pastReplace, MapFiles.mapText]
  | start | edited _ | opened _ _ | written _ _ | leaving _ _ | done _ => cases h

/-- A thread that is past its replacement does not change the map. -/
theorem step_of_pastReplace
    (hstep : threadStep text codec (edits i) s.files pc = some (files, pc'))
    (h : pastReplace pc = true) :
    pastReplace pc' = true ∧ files.mapText = s.files.mapText ∧
      (s.files.temporary = none → files.temporary = none) := by
  cases pc with
  | leaving work raised =>
    rw [threadStep] at hstep
    split_ifs at hstep
    · cases hstep
      exact ⟨rfl, rfl, id⟩
    · cases hstep
      exact ⟨rfl, rfl, id⟩
  | unlinking work raised =>
    obtain ⟨hpast, hmap, htemporary, -⟩ := step_of_unlinking hstep rfl
    exact ⟨hpast, hmap, fun _ => htemporary⟩
  | done outcome => cases hstep
  | start | edited _ | opened _ _ | written _ _ => cases h

/-- A thread that has the temporary file open writes, or moves the file. -/
theorem step_of_window
    (hstep : threadStep text codec (edits i) s.files pc = some (files, pc'))
    (h : windowInode pc ≠ none) :
    windowInode pc' ≠ none ∧ files.temporary = s.files.temporary ∨
      pastReplace pc' = true ∧ files.temporary = none ∧
        (s.files.temporary = none → FailedPc pc') := by
  cases pc with
  | opened work inode =>
    cases hstep
    exact Or.inl ⟨nofun, rfl⟩
  | written work inode =>
    refine Or.inr ?_
    cases htemporary : s.files.temporary with
    | none =>
      rw [threadStep, MapFiles.replace, htemporary] at hstep
      cases hstep
      simp [pastReplace, htemporary, FailedPc]
    | some inode =>
      rw [threadStep, MapFiles.replace, htemporary] at hstep
      cases hstep
      simp [pastReplace]
  | start | edited _ | leaving _ _ | unlinking _ _ | done _ => exact (h rfl).elim

/-- No step leads out of a doomed state. -/
theorem doomed_step (h : Doomed codec edits document s)
    (hstep : editStep text codec edits s i = some (s', ())) :
    Doomed codec edits document s' := by
  obtain ⟨files, pc, hthread, rfl⟩ := editStep_eq_some hstep
  cases h with
  | failed j h =>
    -- a failed edit stays failed
    refine .failed j ?_
    rcases Bool.eq_or_eq_not j i with rfl | rfl
    · rw [afterStep_self]
      exact failedPc_step hthread h
    · rw [afterStep_not]
      exact h
  | bothOpen h =>
    -- both have opened: the first to replace moves the file of both
    rcases step_of_window hthread (h i) with ⟨hwindow, -⟩ | ⟨hpast, htemporary, -⟩
    · refine .bothOpen ((forall_thread i).mpr ⟨?_, ?_⟩)
      · rwa [afterStep_self]
      · rw [afterStep_not]
        exact h _
    · refine .moved (!i) ?_ htemporary ?_
      · rw [afterStep_not]
        exact h _
      · rwa [Bool.not_not, afterStep_self]
  | moved j hwindow htemporary hother =>
    rcases Bool.eq_or_eq_not j i with rfl | rfl
    -- the other has no temporary file left, and fails at its replace
    · rcases step_of_window hthread hwindow with ⟨hwindow', hsame⟩ | ⟨-, -, hfailed⟩
      · refine .moved j ?_ (hsame.trans htemporary) ?_
        · rwa [afterStep_self]
        · rwa [afterStep_not]
      · refine .failed j ?_
        rw [afterStep_self]
        exact hfailed htemporary
    · rw [Bool.not_not] at hother
      obtain ⟨hpast, -, hnone⟩ := step_of_pastReplace hthread hother
      refine .moved (!i) ?_ (hnone htemporary) ?_
      · rwa [afterStep_not]
      · rwa [Bool.not_not, afterStep_self]
  | removing j hunlinking hother =>
    rcases Bool.eq_or_eq_not j i with rfl | rfl
    -- the unlink of one removes the file of the other
    · obtain ⟨hpast, -, htemporary, -⟩ := step_of_unlinking hthread hunlinking
      refine .moved (!j) ?_ htemporary ?_
      · rwa [afterStep_not]
      · rwa [Bool.not_not, afterStep_self]
    · rw [Bool.not_not] at hother
      rcases step_of_window hthread hother with ⟨hwindow, -⟩ | ⟨hpast, htemporary, -⟩
      · refine .removing (!i) ?_ ?_
        · rwa [afterStep_not]
        · rwa [Bool.not_not, afterStep_self]
      · refine .removed (!i) ?_ htemporary ?_
        · rwa [afterStep_not]
        · rwa [Bool.not_not, afterStep_self]
  | removed j hunlinking htemporary hother =>
    rcases Bool.eq_or_eq_not j i with rfl | rfl
    -- its own unlink finds nothing
    · refine .failed j ?_
      rw [afterStep_self]
      exact (step_of_unlinking hthread hunlinking).2.2.2 htemporary
    · rw [Bool.not_not] at hother
      obtain ⟨hpast, -, hnone⟩ := step_of_pastReplace hthread hother
      refine .removed (!i) ?_ (hnone htemporary) ?_
      · rwa [afterStep_not]
      · rwa [Bool.not_not, afterStep_self]
  | lost hpast hlost =>
    -- both replaces are done, and nothing writes the map again
    obtain ⟨hpast', hmap, -⟩ := step_of_pastReplace hthread (hpast i)
    refine .lost ((forall_thread i).mpr ⟨?_, ?_⟩) ?_
    · rwa [afterStep_self]
    · rw [afterStep_not]
      exact hpast _
    · rw [afterStep_files, hmap]
      exact hlost

/-- A step that is not orderly leads to a doomed state. -/
theorem doomed_of_not_orderly (hdisjoint : (edits true).ids.Disjoint (edits false).ids)
    (hreads : ReadsBack codec edits document)
    (h : Serial codec edits document s) (horderly : ¬Orderly codec ⟨s, i, (), s'⟩)
    (hstep : editStep text codec edits s i = some (s', ())) :
    Doomed codec edits document s' := by
  obtain ⟨files, pc, hthread, rfl⟩ := editStep_eq_some hstep
  have hself := h.thread i
  unfold Orderly at horderly
  dsimp only at horderly
  cases hpc : s.threads i with
  | edited work =>
    -- both edits have the one temporary file open
    rw [hpc] at horderly hthread
    cases hthread
    refine .bothOpen ((forall_thread i).mpr ⟨?_, ?_⟩)
    · rw [afterStep_self]
      nofun
    · rw [afterStep_not]
      exact horderly
  | leaving work raised =>
    rw [hpc] at horderly hthread
    -- the unlink finds the temporary file of the other
    obtain ⟨inode, hinode⟩ := Option.ne_none_iff_exists'.mp horderly
    obtain ⟨htemporary, -⟩ := (h.thread !i).window inode hinode
    rw [threadStep, htemporary] at hthread
    cases hthread
    refine .removing i ?_ ?_
    · rw [afterStep_self]
      rfl
    · rwa [afterStep_not]
  | written work inode =>
    rw [hpc] at horderly hself
    obtain ⟨htemporary, -⟩ := hself.window inode rfl
    have hpayload := hself.payload work inode rfl
    obtain ⟨hdocument, done, hdone, hbase⟩ := hself.work work rfl
    have hpast : pastReplace (s.threads i) = false := by rw [hpc]; rfl
    dsimp only at horderly
    rw [h.content, keptTags_of_notPast hdisjoint hpast, hbase] at horderly
    -- the map the edit started from lacks the edit of the other, which has replaced it since
    obtain rfl : done = false := by
      by_contra hnot
      rw [Bool.not_eq_false] at hnot
      exact horderly (by rw [hdone hnot, hnot])
    have hother : pastReplace (s.threads !i) = true := by
      by_contra hnot
      rw [Bool.not_eq_true] at hnot
      exact horderly (by rw [hnot])
    rw [hother] at horderly
    have hne : (edits !i).effect document.tags ≠ document.tags := fun heq =>
      horderly (congrArg (some ∘ document.withTags) heq)
    rw [hpc, threadStep, MapFiles.replace, htemporary] at hthread
    cases hthread
    refine .lost ((forall_thread i).mpr ⟨?_, ?_⟩) ?_
    · rw [afterStep_self]
      rfl
    · rwa [afterStep_not]
    -- so the written file holds this edit only
    · have hkept : work.document
          = document.withTags (keptTags edits document.tags fun j => j == i) := by
        rw [hdocument, hbase, keptTags_eq hdisjoint _ i, beq_self_eq_true,
          show ((!i) == i) = false by cases i <;> rfl]
        rfl
      rw [afterStep_files, MapFiles.mapText]
      dsimp only
      rw [hpayload, hkept, hreads, ← hkept, hdocument, hbase, bothEdits_eq hdisjoint document (!i),
        Bool.not_not]
      intro heq
      refine effect_effect_ne (ids_disjoint hdisjoint i).symm hne ?_
      exact (congrArg MapDocument.tags (Option.some_inj.mp heq)).symm
  | start | opened _ _ | unlinking _ _ | done _ =>
    rw [hpc] at horderly; exact (horderly trivial).elim

end Doomed

/-! ### Runs -/

section Runs

variable {text : PyText} {codec : MapCodec} {edits : Bool → TagEdit} {document : MapDocument}
  {mapText : Text} {tr : EditHistory} {s : EditState}

/-- A run is serial until its first step that is not orderly, and doomed from there on. -/
theorem serial_or_doomed (hdisjoint : (edits true).ids.Disjoint (edits false).ids)
    (halone : ∀ i, AcceptedAlone text document (edits i))
    (hreads : ReadsBack codec edits document) (hloads : codec.loads mapText = some document)
    (hrun : (editMachine text codec edits mapText).Run tr s) :
    ((∀ x ∈ tr, Orderly codec x) ∧ Serial codec edits document s) ∨
      (¬∀ x ∈ tr, Orderly codec x) ∧ Doomed codec edits document s := by
  induction hrun with
  | start => exact Or.inl ⟨nofun, serial_init hloads⟩
  | @step tr s i s' o hrun hstep ih =>
    obtain rfl : o = () := rfl
    rw [List.forall_mem_cons]
    rcases ih with ⟨horderly, hserial⟩ | ⟨horderly, hdoomed⟩
    · by_cases hx : Orderly codec ⟨s, i, (), s'⟩
      · exact Or.inl ⟨⟨hx, horderly⟩, serial_step hdisjoint halone hreads hserial hx hstep⟩
      · exact Or.inr ⟨fun h => hx h.1, doomed_of_not_orderly hdisjoint hreads hserial hx hstep⟩
    · exact Or.inr ⟨fun h => horderly h.2, doomed_step hdoomed hstep⟩

/-- What serial edits leave when both requests have come to an end. -/
theorem bothKept_of_serial (h : Serial codec edits document s) (hdone : BothDone s) :
    BothKept codec edits document s := by
  have hpast (i : Bool) : pastReplace (s.threads i) = true := by
    obtain ⟨outcome, hpc⟩ := hdone i
    rw [hpc]
    rfl
  refine ⟨fun i => ?_, ?_⟩
  · obtain ⟨outcome, hpc⟩ := hdone i
    have hclean := (h.thread i).clean
    rw [hpc] at hclean
    rw [hpc, show outcome = .accepted from hclean]
  · rw [h.content, keptTags, hpast true, hpast false]
    rfl

/-- **Edits of the map are kept.**  Two requests on different tag ids, each of which is accepted
when it is served alone, are both accepted and leave a map with both edits, in whatever order
their steps are done, if and only if every step is orderly: the temporary file is opened and
checked for while the other request does not have it open, and the map is replaced while it holds
the document that was edited. -/
theorem edits_kept (hdisjoint : (edits true).ids.Disjoint (edits false).ids)
    (halone : ∀ i, AcceptedAlone text document (edits i))
    (hreads : ReadsBack codec edits document) (hloads : codec.loads mapText = some document)
    (hrun : (editMachine text codec edits mapText).Run tr s) (hdone : BothDone s) :
    BothKept codec edits document s ↔ ∀ x ∈ tr, Orderly codec x := by
  rcases serial_or_doomed hdisjoint halone hreads hloads hrun with
    ⟨horderly, hserial⟩ | ⟨horderly, hdoomed⟩
  · exact iff_of_true (bothKept_of_serial hserial hdone) horderly
  · exact iff_of_false (not_bothKept_of_doomed hdoomed) horderly

end Runs

/-! ### Two deleted tags -/

def sampleEdits (i : Bool) : TagEdit := if i then .delete 2 else .delete 1

def sampleMap : MapDocument where
  members := []
  tags := (ExtTreeMap.empty.insert "1" (.object [])).insert "2" (.object [])

/-- The text of a map whose definitions are empty. -/
def sampleDumps (document : MapDocument) : String :=
  let entries := document.tags.toList.map fun tag => "\n    \"" ++ tag.1 ++ "\": \x7b\x7d"
  let tags := if entries.isEmpty then "" else ",".intercalate entries ++ "\n  "
  "\x7b\n  \"tags\": \x7b" ++ tags ++ "\x7d\n\x7d\n"

/-- The map after the second edit or before it, and after the first one or before it. -/
def sampleDocument (second first : Bool) : MapDocument :=
  sampleMap.withTags
    (effectIf second (sampleEdits true) (effectIf first (sampleEdits false) sampleMap.tags))

def sampleCodec : MapCodec where
  dumps document := (sampleDumps document).toList
  loads mapText :=
    [sampleDocument false false, sampleDocument false true, sampleDocument true false,
      sampleDocument true true].find? fun document => (sampleDumps document).toList == mapText

def sampleMapText : Text := (sampleDumps sampleMap).toList

theorem sampleEdits_disjoint : (sampleEdits true).ids.Disjoint (sampleEdits false).ids := by
  simp [sampleEdits, TagEdit.ids]

theorem sampleEdits_acceptedAlone (i : Bool) :
    AcceptedAlone plainText sampleMap (sampleEdits i) := by
  have hlist : tagList plainText (sampleMap.withTags ((sampleEdits i).effect sampleMap.tags))
      = .ok () := by
    unfold tagList
    rw [if_neg, if_neg]
    · revert i
      decide +kernel
    · revert i
      decide +kernel
  refine ⟨?_, (tagList_eq_ok_iff _ _).mp hlist⟩
  cases i with
  | false => exact show tagKey 1 ∈ sampleMap.tags by decide +kernel
  | true => exact show tagKey 2 ∈ sampleMap.tags by decide +kernel

theorem sampleDumps_beq (second first second' first' : Bool) :
    ((sampleDumps (sampleDocument second first)).toList
      == (sampleDumps (sampleDocument second' first')).toList)
        = (second == second' && first == first') := by
  revert second first second' first'
  decide +kernel

theorem sampleCodec_readsBack : ReadsBack sampleCodec sampleEdits sampleMap := by
  have hdocument (second first : Bool) :
      sampleCodec.loads (sampleCodec.dumps (sampleDocument second first))
        = some (sampleDocument second first) := by
    simp only [sampleCodec, List.find?_cons, sampleDumps_beq]
    cases second <;> cases first <;> rfl
  exact fun done => hdocument (done true) (done false)

theorem sampleCodec_loads : sampleCodec.loads sampleMapText = some sampleMap :=
  sampleCodec_readsBack fun _ => false

/-- Both threads have come to an end. -/
def endsDone (x : EditTransition) : Bool :=
  match x.post.threads false, x.post.threads true with
  | .done _, .done _ => true
  | _, _ => false

theorem bothDone_of_endsDone {x : EditTransition} (h : endsDone x = true) : BothDone x.post := by
  unfold endsDone at h
  split at h
  · rename_i hfalse htrue
    exact (forall_thread true).mpr ⟨⟨_, htrue⟩, ⟨_, hfalse⟩⟩
  · cases h

/-- One request is served after the other. -/
def serialInputs : List Bool := List.replicate 5 false ++ List.replicate 5 true

/-- The second request is served between the read of the first one and its write. -/
def lostEditInputs : List Bool := false :: List.replicate 5 true ++ List.replicate 4 false

theorem edits_kept_serialInputs :
    ∃ tr s, (editMachine plainText sampleCodec sampleEdits sampleMapText).Run tr s ∧ BothDone s ∧
      (BothKept sampleCodec sampleEdits sampleMap s ↔ ∀ x ∈ tr, Orderly sampleCodec x) := by
  obtain ⟨x, tr, s, hrun, hx⟩ := run_of_execCheck
    (editMachine plainText sampleCodec sampleEdits sampleMapText) serialInputs
    (fun x _ => endsDone x) (by decide +kernel)
  have hdone := bothDone_of_endsDone hx
  rw [hrun.head_post] at hdone
  exact ⟨_, s, hrun, hdone, edits_kept sampleEdits_disjoint sampleEdits_acceptedAlone
    sampleCodec_readsBack sampleCodec_loads hrun hdone⟩

/-- The map has the tag of the second request. -/
def keepsTag (x : EditTransition) : Bool :=
  match sampleCodec.loads x.post.files.mapText with
  | some document => document.tags.contains (tagKey 2)
  | none => false

/-- A request that is served between the read and the write of another one is lost. -/
theorem lost_edit :
    ¬∀ (text : PyText) (codec : MapCodec) (edits : Bool → TagEdit) (document : MapDocument)
      (mapText : Text) (tr : EditHistory) (s : EditState),
      (edits true).ids.Disjoint (edits false).ids → (∀ i, AcceptedAlone text document (edits i)) →
        ReadsBack codec edits document → codec.loads mapText = some document →
          (editMachine text codec edits mapText).Run tr s → BothDone s →
            BothKept codec edits document s := by
  intro hall
  obtain ⟨x, tr, s, hrun, hx⟩ := run_of_execCheck
    (editMachine plainText sampleCodec sampleEdits sampleMapText) lostEditInputs
    (fun x _ => endsDone x && keepsTag x) (by decide +kernel)
  rw [Bool.and_eq_true] at hx
  obtain ⟨hdone, hlost⟩ := hx
  have hdone := bothDone_of_endsDone hdone
  rw [hrun.head_post] at hdone
  obtain ⟨-, hkept⟩ := hall _ _ _ _ _ _ s sampleEdits_disjoint sampleEdits_acceptedAlone
    sampleCodec_readsBack sampleCodec_loads hrun hdone
  rw [keepsTag, hrun.head_post, hkept] at hlost
  exact absurd hlost (by decide +kernel)

end RobotCore
