import SparseCache.Proofs.Cache.Tasks

namespace SparseCache.Cache

/-! What background work leaves alone, and what work on entries leaves alone. -/

variable {cache before middle after : Cache} {id task : TaskId} {entryId : EntryId}

/-- What comes of one step of an upload that copies its entry. -/
inductive Copies (cache : Cache) (id : TaskId) (job : Upload) : Cache → Prop
  | failed (error : EntryError) : Copies cache id job (cache.failUpload id job error)
  | begins {version entry content} (stage : job.stage = .loaded version)
      (found : cache.entry? job.entry = some entry) (stored : entry.content = some content) :
      Copies cache id job
        (cache.setWork id (.upload { job with stage := .copying version { size := content.size } }))
  | reads {version copy content next} (stage : job.stage = .copying version copy)
      (going : copy.isThrough = false)
      (source : (cache.entry? job.entry).bind Entry.source? = some content)
      (done : copy.next content = .ok next) :
      Copies cache id job (cache.setWork id (.upload { job with stage := .copying version next }))
  | sends {version copy} (stage : job.stage = .copying version copy)
      (through : copy.isThrough = true) :
      Copies cache id job
        (({ cache with nextCall := cache.nextCall + 1 }.setWork id (.upload { job with
            stage := .sending version copy.taken.flatten cache.nextCall })).emit
          (.writing job.entry job.path copy.taken.flatten))

theorem copies_beginCopy {job : Upload} {version : Nat} (stage : job.stage = .loaded version) :
    Copies cache id job (cache.beginCopy id job version) := by
  unfold beginCopy
  split
  · cases found : cache.entry? job.entry with
    | none => exact .failed .closed
    | some entry =>
        cases stored : entry.content with
        | none =>
            simp only [Option.map_some, Entry.size, Entry.content?, stored, Except.map]
            exact .failed .closed
        | some content =>
            simp only [Option.map_some, Entry.size, Entry.content?, stored, Except.map]
            exact .begins stage found stored
  · exact .failed _

theorem copies_copying {job : Upload} {version : Nat} {copy : Copy}
    (stage : job.stage = .copying version copy) :
    Copies cache id job (if copy.isThrough then cache.sendCopy id job version copy
      else cache.copyPiece id job version copy) := by
  cases through : copy.isThrough with
  | true =>
      simp only [if_true, sendCopy]
      split
      · exact .sends stage through
      · exact .failed _
  | false =>
      simp only [Bool.false_eq_true, if_false, copyPiece]
      split
      · rename_i content source
        split
        · rename_i next done
          exact .reads stage through source done
        · exact .failed _
      · exact .failed _

/-- Only tasks, uploads, the waiting line and the record of events differ. -/
structure SameStore (before after : Cache) : Prop where
  entries : after.entries = before.entries
  mapped : after.mapped = before.mapped
  handles : after.handles = before.handles
  counter : after.counter = before.counter
  grace : after.grace = before.grace
  clock : after.clock = before.clock
  scratchPresent : after.scratchPresent = before.scratchPresent

/-- Tasks, uploads and the clock agree. -/
structure SameWork (before after : Cache) : Prop where
  tasks : after.tasks = before.tasks
  uploader : after.uploader = before.uploader
  nextTask : after.nextTask = before.nextTask
  grace : after.grace = before.grace
  clock : after.clock = before.clock

namespace SameStore

theorem refl (cache : Cache) : SameStore cache cache := ⟨rfl, rfl, rfl, rfl, rfl, rfl, rfl⟩

theorem setUploader (same : SameStore before after) (uploader : Uploader) :
    SameStore before { after with uploader } :=
  ⟨same.entries, same.mapped, same.handles, same.counter, same.grace, same.clock,
    same.scratchPresent⟩

theorem emit (same : SameStore before after) (event : Event) :
    SameStore before (after.emit event) :=
  ⟨same.entries, same.mapped, same.handles, same.counter, same.grace, same.clock,
    same.scratchPresent⟩

theorem log (same : SameStore before after) (severity : Severity) (message : String)
    (failure : Option String) : SameStore before (after.log severity message failure) :=
  same.emit _

theorem modifyTask (same : SameStore before after) (id : TaskId) (change : Task → Task) :
    SameStore before (after.modifyTask id change) :=
  ⟨same.entries, same.mapped, same.handles, same.counter, same.grace, same.clock,
    same.scratchPresent⟩

theorem setWork (same : SameStore before after) (id : TaskId) (work : Work) :
    SameStore before (after.setWork id work) :=
  same.modifyTask id _

theorem dropTask (same : SameStore before after) (id : TaskId) :
    SameStore before (after.dropTask id) :=
  ⟨same.entries, same.mapped, same.handles, same.counter, same.grace, same.clock,
    same.scratchPresent⟩

theorem wake (same : SameStore before after) (id : TaskId) : SameStore before (after.wake id) := by
  unfold Cache.wake
  split
  · exact same
  · exact ⟨same.entries, same.mapped, same.handles, same.counter, same.grace, same.clock,
      same.scratchPresent⟩

theorem spawn (same : SameStore before after) (work : Work) :
    SameStore before (after.spawn work).2 :=
  have added : SameStore before (after.addTask work).2 :=
    ⟨same.entries, same.mapped, same.handles, same.counter, same.grace, same.clock,
      same.scratchPresent⟩
  added.wake _

theorem abort (same : SameStore before after) (id : TaskId) :
    SameStore before (after.abort id) := by
  unfold Cache.abort
  split
  · exact (same.modifyTask _ _).wake _
  · exact same

theorem schedule (same : SameStore before after) (id : EntryId) (completion : Completion) :
    SameStore before (after.schedule id completion) := by
  unfold Cache.schedule
  simp only
  split
  · exact (same.emit _).setUploader _
  · split
    · exact (((same.emit _).abort _).spawn _).setUploader _
    · exact ((same.emit _).spawn _).setUploader _

theorem cancel (same : SameStore before after) (path : Path) :
    SameStore before (after.cancel path).2 := by
  unfold Cache.cancel
  split
  · exact (same.setUploader _).emit _
  · split
    · exact same.emit _
    · exact ((same.setUploader _).abort _).emit _

theorem complete (same : SameStore before after) (id : EntryId) (completion : Completion) :
    SameStore before (after.complete id completion) := by
  cases completion with
  | evict epoch => exact same.spawn _
  | notify tag => exact same.emit _

theorem returnPermit (same : SameStore before after) : SameStore before after.returnPermit := by
  unfold Cache.returnPermit
  split
  · exact same
  · split
    · exact same.setUploader _
    · exact ((same.setUploader _).modifyTask _ _).wake _

theorem reap (same : SameStore before after) (id : TaskId) : SameStore before (after.reap id) := by
  unfold Cache.reap
  split
  · simp only
    split
    · exact (same.dropTask id).returnPermit
    · split
      · exact (same.dropTask id).setUploader _
      · exact same.dropTask id
  · exact same.dropTask id

theorem endUpload (same : SameStore before after) (id : TaskId) (job : Upload) :
    SameStore before (after.endUpload id job) := by
  unfold Cache.endUpload
  simp only
  split
  · split
    · exact ((same.setUploader _).complete _ _).reap id
    · exact same.reap id
  · exact same.reap id

theorem failUpload (same : SameStore before after) (id : TaskId) (job : Upload)
    (error : EntryError) : SameStore before (after.failUpload id job error) :=
  (same.log _ _ _).endUpload id job

theorem foldl_abort (same : SameStore before after) (items : PathMap TaskId) :
    SameStore before (items.foldl (fun cache item => cache.abort item.2) after) := by
  induction items generalizing after with
  | nil => exact same
  | cons item items ih => exact ih (same.abort _)

theorem abandonUploads (same : SameStore before after) :
    SameStore before after.abandonUploads := by
  unfold Cache.abandonUploads
  split
  · exact same.setUploader _
  · simp only
    split
    · exact (same.foldl_abort _).setUploader _
    · exact ((same.foldl_abort _).setUploader _).log _ _ _

theorem advanceTransfer (same : SameStore before after) (id : TaskId) (job : Transfer) :
    SameStore before (after.advanceTransfer id job) := by
  unfold Cache.advanceTransfer
  split
  · split
    · exact same.setWork _ _
    · exact (same.dropTask _).emit _
    · exact (same.dropTask _).emit _
  · split
    · exact same
    · exact (same.dropTask _).emit _

theorem takePermit (same : SameStore before after) (id : TaskId) (job : Upload) :
    SameStore before (after.takePermit id job).2 := by
  unfold Cache.takePermit
  split
  · exact same
  · split
    · exact same
    · split
      · exact same
      · split
        · exact (same.setUploader _).setWork _ _
        · exact same.setUploader _

theorem beginUpload (same : SameStore before after) (id : TaskId) (job : Upload) :
    SameStore before (after.beginUpload id job) := by
  unfold Cache.beginUpload
  split
  · exact same.endUpload _ _
  · split
    · split
      · exact same.failUpload _ _ _
      · exact same.setWork _ _
    · exact same.endUpload _ _

theorem copies (same : SameStore before middle) {job : Upload} (copies : Copies middle id job after) :
    SameStore before after := by
  cases copies with
  | failed error => exact same.failUpload _ _ _
  | begins stage found stored => exact same.setWork _ _
  | reads stage going source done => exact same.setWork _ _
  | sends stage through =>
      have counted : SameStore before { middle with nextCall := middle.nextCall + 1 } :=
        ⟨same.entries, same.mapped, same.handles, same.counter, same.grace, same.clock,
          same.scratchPresent⟩
      exact (counted.setWork _ _).emit _

theorem advanceUpload (same : SameStore before after) (id : TaskId) (job : Upload) :
    SameStore before (after.advanceUpload id job) := by
  unfold Cache.advanceUpload
  split
  · have taken := same.takePermit id job
    split
    · rename_i waiting
      rwa [waiting] at taken
    · rename_i granted
      rw [granted] at taken
      exact taken.beginUpload _ _
  · split
    · exact same
    · exact same.failUpload _ _ _
    · exact same.setWork _ _
  · exact same.copies (copies_beginCopy ‹_›)
  · exact same.copies (copies_copying ‹_›)
  · exact same

theorem request (same : SameStore before after) (id : TaskId) (i : Nat) :
    SameStore before (after.request id i) := by
  unfold Cache.request
  split
  · exact same
  · split
    · have counted : SameStore before { after with nextCall := after.nextCall + 1 } :=
        ⟨same.entries, same.mapped, same.handles, same.counter, same.grace, same.clock,
          same.scratchPresent⟩
      exact (counted.setWork _ _).emit _
    · exact same

theorem lookup (same : SameStore before after) : after.entry? entryId = before.entry? entryId := by
  rw [Cache.entry?, Cache.entry?, same.entries]

end SameStore

/-- Steps that only start tasks, or stop some. -/
def Step.tasksOnly : Step → Bool
  | .transfer .. | .giveUp _ | .schedule .. | .cancel _ | .dropUploader => true
  | _ => false

theorem sameStore_step (cache : Cache) {step : Step} (only : step.tasksOnly) :
    SameStore cache (cache.step step) := by
  have same := SameStore.refl cache
  cases step with
  | transfer entry offset count reading =>
      simp only [Cache.step]
      split
      · exact same.spawn _
      · exact same
  | giveUp task =>
      simp only [Cache.step]
      split
      · exact same.abort _
      · exact same
  | schedule entry tag =>
      simp only [Cache.step]
      split
      · exact same.schedule _ _
      · exact same
  | cancel path => exact same.cancel _
  | dropUploader => exact same.abandonUploads
  | _ => cases only

namespace SameWork

theorem refl (cache : Cache) : SameWork cache cache := ⟨rfl, rfl, rfl, rfl, rfl⟩

theorem modifyEntry (same : SameWork before after) (id : EntryId) (change : Entry → Entry) :
    SameWork before (after.modifyEntry id change) :=
  ⟨same.tasks, same.uploader, same.nextTask, same.grace, same.clock⟩

theorem setEntry (same : SameWork before after) (id : EntryId) (entry : Entry) :
    SameWork before (after.setEntry id entry) :=
  ⟨same.tasks, same.uploader, same.nextTask, same.grace, same.clock⟩

theorem setMapped (same : SameWork before after) (mapped : PathMap EntryId) :
    SameWork before { after with mapped } :=
  ⟨same.tasks, same.uploader, same.nextTask, same.grace, same.clock⟩

theorem setHandles (same : SameWork before after) (handles : List (Handle × EntryId))
    (counter : HandleCounter) : SameWork before { after with handles, counter } :=
  ⟨same.tasks, same.uploader, same.nextTask, same.grace, same.clock⟩

theorem emit (same : SameWork before after) (event : Event) :
    SameWork before (after.emit event) :=
  ⟨same.tasks, same.uploader, same.nextTask, same.grace, same.clock⟩

theorem log (same : SameWork before after) (severity : Severity) (message : String)
    (failure : Option String) : SameWork before (after.log severity message failure) :=
  same.emit _

theorem onEntry {α : Type} (same : SameWork before after) (id : EntryId)
    (operation : Entry → Except EntryError (α × Entry)) :
    SameWork before (after.onEntry id operation).2 := by
  unfold Cache.onEntry
  split
  · exact same
  · split
    · exact same
    · exact same.setEntry _ _

theorem allocate (same : SameWork before after) (path : Path) (size : Nat) (modified : Modified) :
    SameWork before (after.allocate path size modified).2 := by
  unfold Cache.allocate
  split
  · split
    · exact same
    · exact ⟨same.tasks, same.uploader, same.nextTask, same.grace, same.clock⟩
  · exact same

theorem closeEntry (same : SameWork before after) (id : EntryId) :
    SameWork before (after.closeEntry id) := by
  unfold Cache.closeEntry
  split
  · exact same
  · split
    · simp only
      split
      · exact same.setEntry _ _
      · exact (same.setEntry _ _).log _ _ _
    · exact same

theorem releaseEntryHandle (same : SameWork before after) (id : EntryId) :
    SameWork before (after.releaseEntryHandle id).2 := by
  unfold Cache.releaseEntryHandle
  split
  · exact same.setEntry _ _
  · exact same.log _ _ _

theorem acquire (same : SameWork before after) (path : Path) (size : Nat) (modified : Modified) :
    SameWork before (after.acquire path size modified).2 := by
  unfold Cache.acquire
  split
  · exact same.modifyEntry _ _
  · have made := same.allocate path size modified
    split
    · rename_i refused
      rwa [refused] at made
    · rename_i created
      rw [created] at made
      exact (made.setMapped _).modifyEntry _ _

theorem doing? (same : SameWork before after) : after.doing? task = before.doing? task :=
  doing?_congr same.tasks

theorem task? (same : SameWork before after) : after.task? task = before.task? task :=
  task?_congr same.tasks

theorem pending (same : SameWork before after) : after.pending = before.pending := by
  rw [Cache.pending, Cache.pending, same.uploader]

theorem fresh (same : SameWork before after) (fresh : before.Fresh) : after.Fresh := by
  intro task later
  rw [same.task?]
  exact fresh task (by rwa [same.nextTask] at later)

theorem backed (same : SameWork before after) (backed : before.Backed) : after.Backed := by
  obtain ⟨state, found⟩ := backed
  exact ⟨state, same.uploader.trans found⟩

end SameWork

end SparseCache.Cache
