import SparseCache.Cache.Background
import SparseCache.Proofs.Cache.Entries
import SparseCache.Proofs.Cache.Spelling

namespace SparseCache

/-! Two runs that differ in nothing but the spelling of paths.

Every operation does to the canonical state what it did to the state itself, so that what it
does follows from the canonical state and the canonical spelling of its arguments alone.
-/

/-! ### Jobs and events -/

def Upload.Stage.canonical : Upload.Stage → Upload.Stage
  | .loading load => .loading load.canonical
  | .queued => .queued
  | .loaded version => .loaded version
  | .copying version copy => .copying version copy
  | .sending version snapshot call => .sending version snapshot call

def Upload.canonical (job : Upload) : Upload :=
  { job with path := job.path.canonical, stage := job.stage.canonical }

def Transfer.canonical (job : Transfer) : Transfer :=
  { job with load := job.load.map Load.canonical }

def Work.canonical : Work → Work
  | .transfer job => .transfer job.canonical
  | .upload job => .upload job.canonical
  | .grace entry epoch due => .grace entry epoch due

def Task.canonical (task : Task) : Task := { task with work := task.work.canonical }

/-- The text of a failure that is logged may show a path, so it is left out. -/
def Event.canonical : Event → Event
  | .reading path offset length => .reading path.canonical offset length
  | .writing entry path snapshot => .writing entry path.canonical snapshot
  | .written entry path chunks => .written entry path.canonical chunks
  | .scheduled entry path => .scheduled entry path.canonical
  | .cancelled path hit => .cancelled path.canonical hit
  | .notified tag path => .notified tag path.canonical
  | .transferred task result => .transferred task (result.mapError EntryError.canonical)
  | .logged severity message _ => .logged severity message none

theorem Upload.entry_canonical (job : Upload) : job.canonical.entry = job.entry := rfl

theorem Upload.permit_canonical (job : Upload) : job.canonical.permit = job.permit := rfl

theorem Transfer.entry_canonical (job : Transfer) : job.canonical.entry = job.entry := rfl

theorem Transfer.reading_canonical (job : Transfer) : job.canonical.reading = job.reading := rfl

def Uploader.canonical : Uploader → Uploader
  | .recording pending => .recording pending
  | .background state => .background { state with pending := state.pending.canonical }

theorem Except.mapError_mapError_canonical {α : Type} (result : Except EntryError α) :
    (result.mapError EntryError.canonical).mapError EntryError.canonical
      = result.mapError EntryError.canonical := by
  cases result <;> simp [Except.mapError]

@[simp] theorem Work.canonical_canonical (work : Work) :
    work.canonical.canonical = work.canonical := by
  cases work with
  | transfer job =>
      obtain ⟨entry, offset, count, reading, load⟩ := job
      cases load <;> simp [canonical, Transfer.canonical]
  | upload job =>
      obtain ⟨entry, path, completion, permit, stage⟩ := job
      cases stage <;> simp [canonical, Upload.canonical, Upload.Stage.canonical]
  | grace => rfl

@[simp] theorem Event.canonical_canonical (event : Event) :
    event.canonical.canonical = event.canonical := by
  cases event <;> simp [canonical, Except.mapError_mapError_canonical]

namespace Cache

/-- The state with all paths spelled canonically, and without the texts of failures. -/
def canonical (cache : Cache) : Cache :=
  { cache with
    uploader := cache.uploader.canonical
    entries := cache.entries.map Entry.canonical
    mapped := cache.mapped.canonical
    tasks := cache.tasks.map fun item => (item.1, item.2.canonical)
    events := cache.events.map Event.canonical }

variable (cache : Cache) {id : EntryId} {task : TaskId} {path : Path} {entry : Entry}

@[simp] theorem canonical_canonical : cache.canonical.canonical = cache.canonical := by
  have uploader : cache.uploader.canonical.canonical = cache.uploader.canonical := by
    cases cache.uploader <;> simp [Uploader.canonical]
  simp [canonical, Task.canonical, uploader]

theorem absorbed {after after' : Cache} (exact : after.canonical = after') :
    after.canonical = after'.canonical := by
  rw [← exact, canonical_canonical]

theorem uploader_canonical : cache.canonical.uploader = cache.uploader.canonical := rfl

theorem mapped_canonical : cache.canonical.mapped = cache.mapped.canonical := rfl

theorem scratchPresent_canonical : cache.canonical.scratchPresent = cache.scratchPresent := rfl

theorem emit_canonical (event : Event) :
    (cache.emit event).canonical = cache.canonical.emit event.canonical := by
  simp [emit, canonical]

theorem log_canonical (severity : Severity) (message : String) (failure : Option String) :
    (cache.log severity message failure).canonical = cache.canonical.log severity message none :=
  emit_canonical cache _

/-! ### Entries -/

theorem entry?_canonical : cache.canonical.entry? id = (cache.entry? id).map Entry.canonical :=
  List.getElem?_map

theorem setEntry_canonical :
    (cache.setEntry id entry).canonical = cache.canonical.setEntry id entry.canonical := by
  simp [setEntry, canonical, List.map_set]

theorem modifyEntry_canonical (id : EntryId) (change change' : Entry → Entry)
    (commutes : ∀ entry, (change entry).canonical = change' entry.canonical) :
    (cache.modifyEntry id change).canonical = cache.canonical.modifyEntry id change' := by
  simp only [modifyEntry, canonical, Cache.mk.injEq, true_and, and_true]
  exact (modify_map fun entry => (commutes entry).symm).symm

theorem pathOf_canonical : cache.canonical.pathOf id = (cache.pathOf id).canonical := by
  rw [pathOf, pathOf, entry?_canonical]
  cases cache.entry? id with
  | none => exact Path.canonical_default.symm
  | some entry => rfl

/-- An operation that does not look at the path. -/
theorem onEntry_canonical {α : Type} {operation : Entry → Except EntryError (α × Entry)}
    (commutes : ∀ entry, operation entry.canonical
      = (operation entry).map fun done => (done.1, done.2.canonical)) :
    cache.canonical.onEntry id operation
      = ((cache.onEntry id operation).1, (cache.onEntry id operation).2.canonical) := by
  unfold onEntry
  rw [entry?_canonical]
  cases cache.entry? id with
  | none => rfl
  | some entry =>
      simp only [Option.map_some, commutes]
      cases operation entry with
      | error error => rfl
      | ok done => simp [Except.map, setEntry_canonical]

theorem onEntry_write_canonical (id : EntryId) (offset : Nat) (data : Bytes) :
    cache.canonical.onEntry id (·.write offset data)
      = ((cache.onEntry id (·.write offset data)).1,
        (cache.onEntry id (·.write offset data)).2.canonical) :=
  onEntry_canonical cache fun entry => entry.write_canonical offset data

theorem onEntry_truncate_canonical (id : EntryId) (size : Nat) :
    cache.canonical.onEntry id (fun entry => (entry.truncate size).map ((), ·))
      = ((cache.onEntry id fun entry => (entry.truncate size).map ((), ·)).1,
        (cache.onEntry id fun entry => (entry.truncate size).map ((), ·)).2.canonical) := by
  refine onEntry_canonical cache fun entry => ?_
  rw [Entry.truncate_canonical]
  cases entry.truncate size <;> rfl

theorem allocate_canonical (path : Path) (size : Nat) (modified : Modified) :
    cache.canonical.allocate path.canonical size modified
      = ((cache.allocate path size modified).1,
        (cache.allocate path size modified).2.canonical) := by
  unfold allocate
  rw [scratchPresent_canonical, Entry.create_canonical]
  split
  · cases Entry.create path size modified with
    | error error => rfl
    | ok entry => simp [Except.map, canonical]
  · rfl

theorem closeEntry_canonical : (cache.closeEntry id).canonical = cache.canonical.closeEntry id := by
  unfold closeEntry
  rw [entry?_canonical]
  cases cache.entry? id with
  | none => rfl
  | some entry =>
      simp only [Option.map_some]
      rw [show entry.canonical.isOpen = entry.isOpen from rfl, scratchPresent_canonical]
      split
      · split
        · exact setEntry_canonical cache
        · rw [log_canonical, setEntry_canonical]
          rfl
      · rfl

theorem releaseEntryHandle_canonical :
    cache.canonical.releaseEntryHandle id
      = ((cache.releaseEntryHandle id).1, (cache.releaseEntryHandle id).2.canonical) := by
  have given : (cache.canonical.entry? id).bind Entry.releaseHandle?
      = ((cache.entry? id).bind Entry.releaseHandle?).map fun left =>
        (left.1, left.2.canonical) := by
    rw [entry?_canonical]
    cases cache.entry? id with
    | none => rfl
    | some entry => exact entry.releaseHandle?_canonical
  unfold releaseEntryHandle
  rw [given]
  cases (cache.entry? id).bind Entry.releaseHandle? with
  | none => simp [log_canonical]
  | some left => simp [setEntry_canonical]

/-! ### Tasks -/

theorem task?_canonical : cache.canonical.task? task = (cache.task? task).map Task.canonical := by
  simp only [task?, canonical, List.find?_map, Option.map_map]
  rfl

theorem modifyTask_canonical {change change' : Task → Task}
    (commutes : ∀ task, (change task).canonical = change' task.canonical) :
    (cache.modifyTask task change).canonical = cache.canonical.modifyTask task change' := by
  simp only [modifyTask, canonical, List.map_map, Cache.mk.injEq, true_and, and_true]
  congr 1
  funext item
  by_cases here : item.1 = task <;> simp [here, commutes]

theorem setWork_canonical (work : Work) :
    (cache.setWork task work).canonical = cache.canonical.setWork task work.canonical :=
  modifyTask_canonical cache fun _ => rfl

theorem dropTask_canonical : (cache.dropTask task).canonical = cache.canonical.dropTask task := by
  simp only [dropTask, canonical, List.filter_map]
  rfl

theorem wake_canonical : (cache.wake task).canonical = cache.canonical.wake task := by
  unfold wake
  rw [show cache.canonical.ready = cache.ready from rfl]
  split <;> rfl

theorem spawn_canonical (work : Work) :
    (cache.spawn work).2.canonical = (cache.canonical.spawn work.canonical).2 := by
  simp only [spawn, wake_canonical]
  simp [addTask, canonical, Task.canonical]

theorem abort_canonical : (cache.abort task).canonical = cache.canonical.abort task := by
  unfold abort
  rw [task?_canonical, Option.isSome_map]
  split
  · rw [wake_canonical]
    exact congrArg (wake · task) (modifyTask_canonical cache fun _ => rfl)
  · rfl

/-! ### Uploads -/

theorem goesBy_canonical (item : EntryId × Completion) :
    cache.canonical.goesBy path.canonical item = cache.goesBy path item := by
  simp [goesBy, pathOf_canonical]

theorem setUploader_canonical (uploader : Uploader) :
    canonical { cache with uploader } = { cache.canonical with uploader := uploader.canonical } :=
  rfl

theorem schedule_canonical (completion : Completion) :
    (cache.schedule id completion).canonical = cache.canonical.schedule id completion := by
  unfold schedule
  simp only
  rw [pathOf_canonical]
  have emitted : (cache.emit (.scheduled id (cache.pathOf id))).canonical
      = cache.canonical.emit (.scheduled id (cache.pathOf id).canonical) := emit_canonical cache _
  rw [← emitted]
  generalize cache.emit (.scheduled id (cache.pathOf id)) = told
  rw [uploader_canonical]
  cases told.uploader with
  | recording pending =>
      simp only [Uploader.canonical, setUploader_canonical, goesBy_canonical]
  | background state =>
      simp only [Uploader.canonical, setUploader_canonical, PathMap.get?_canonical,
        PathMap.set_canonical]
      cases state.pending.get? (cache.pathOf id) with
      | none =>
          rw [spawn_canonical]
          rfl
      | some earlier =>
          simp only
          rw [spawn_canonical, ← abort_canonical]
          rfl

theorem cancel_canonical (path : Path) :
    cache.canonical.cancel path.canonical
      = ((cache.cancel path).1, (cache.cancel path).2.canonical) := by
  unfold cancel
  rw [uploader_canonical]
  have goes : cache.canonical.goesBy path.canonical = cache.goesBy path :=
    funext fun item => goesBy_canonical cache item
  cases cache.uploader with
  | recording pending =>
      simp only [Uploader.canonical, goes, emit_canonical, setUploader_canonical, Event.canonical]
  | background state =>
      simp only [Uploader.canonical, PathMap.get?_canonical]
      cases state.pending.get? path with
      | none => simp only [emit_canonical, Event.canonical]
      | some task =>
          simp only [emit_canonical, Event.canonical, abort_canonical, setUploader_canonical,
            Uploader.canonical, PathMap.erase_canonical]

theorem complete_canonical (completion : Completion) :
    (cache.complete id completion).canonical = cache.canonical.complete id completion := by
  cases completion with
  | evict epoch => exact spawn_canonical cache _
  | notify tag =>
      simp only [complete, emit_canonical, Event.canonical, pathOf_canonical]

theorem returnPermit_canonical : cache.returnPermit.canonical = cache.canonical.returnPermit := by
  unfold returnPermit
  rw [uploader_canonical]
  cases cache.uploader with
  | recording pending => rfl
  | background state =>
      simp only [Uploader.canonical]
      cases state.waiting with
      | nil => rfl
      | cons task waiting =>
          rw [wake_canonical]
          refine congrArg (wake · task) (modifyTask_canonical _ fun task => ?_)
          obtain ⟨work, aborted⟩ := task
          cases work <;> rfl

theorem reap_canonical : (cache.reap task).canonical = cache.canonical.reap task := by
  unfold reap
  rw [task?_canonical]
  cases cache.task? task with
  | none => exact dropTask_canonical cache
  | some found =>
      obtain ⟨work, aborted⟩ := found
      cases work with
      | transfer job => exact dropTask_canonical cache
      | grace entry epoch due => exact dropTask_canonical cache
      | upload job =>
          simp only [Option.map_some, Task.canonical, Work.canonical]
          rw [← dropTask_canonical, job.permit_canonical]
          split
          · exact returnPermit_canonical _
          · rw [uploader_canonical]
            cases (cache.dropTask task).uploader with
            | recording pending => rfl
            | background state => rfl

theorem endUpload_canonical (job : Upload) :
    (cache.endUpload task job).canonical = cache.canonical.endUpload task job.canonical := by
  unfold endUpload
  simp only [reap_canonical]
  congr 1
  rw [uploader_canonical]
  cases cache.uploader with
  | recording pending => rfl
  | background state =>
      simp only [Uploader.canonical, Upload.canonical, PathMap.get?_canonical]
      split
      · simp only [complete_canonical, setUploader_canonical, Uploader.canonical,
          PathMap.erase_canonical]
      · rfl

/-- Whatever the text of the failure is. -/
theorem failUpload_canonical (job : Upload) (error : EntryError) :
    (cache.failUpload task job error).canonical
      = (cache.canonical.log .error "upload failed" none).endUpload task job.canonical := by
  rw [failUpload, endUpload_canonical, log_canonical]

theorem abandonUploads_canonical :
    cache.abandonUploads.canonical = cache.canonical.abandonUploads := by
  have stopped : ∀ (items : PathMap TaskId) (cache : Cache),
      canonical (items.foldl (fun cache item => cache.abort item.2) cache)
        = items.canonical.foldl (fun cache item => cache.abort item.2) cache.canonical := by
    intro items
    induction items with
    | nil => exact fun _ => rfl
    | cons item items ih =>
        intro cache
        rw [List.foldl_cons, ih, abort_canonical]
        rfl
  unfold abandonUploads
  rw [uploader_canonical]
  cases cache.uploader with
  | recording pending => rfl
  | background state =>
      simp only [Uploader.canonical, ← stopped]
      rw [show List.isEmpty state.pending.canonical = List.isEmpty state.pending from
        List.isEmpty_map]
      split
      · rfl
      · rw [log_canonical]
        rfl

/-! ### Paths and handles -/

theorem acquire_canonical (path : Path) (size : Nat) (modified : Modified) :
    cache.canonical.acquire path.canonical size modified
      = ((cache.acquire path size modified).1, (cache.acquire path size modified).2.canonical) := by
  unfold acquire
  rw [mapped_canonical, PathMap.get?_canonical]
  cases cache.mapped.get? path with
  | some id =>
      simp only
      rw [modifyEntry_canonical cache id _ (fun entry => { entry.openHandle.2 with modified })
        fun _ => rfl]
  | none =>
      simp only [allocate_canonical]
      obtain ⟨result, after⟩ := cache.allocate path size modified
      cases result with
      | error error => rfl
      | ok id =>
          refine Prod.ext rfl ?_
          have mapped : canonical { after with mapped := after.mapped.set path id }
              = { after.canonical with
                mapped := after.canonical.mapped.set path.canonical id } := by
            simp only [canonical, PathMap.set_canonical]
          simp only
          rw [modifyEntry_canonical _ id _ (fun entry => entry.openHandle.2) fun _ => rfl, mapped]

theorem release_canonical : (cache.release id).canonical = cache.canonical.release id := by
  unfold release
  rw [mapped_canonical, pathOf_canonical, PathMap.get?_canonical, releaseEntryHandle_canonical]
  split
  · simp only
    split
    · rw [schedule_canonical, entry?_canonical, Option.map_map]
      rfl
    · rfl
  · rfl

theorem openFile_canonical (path : Path) (flags : OpenFlags) (size : Nat) (modified : Modified) :
    cache.canonical.openFile path.canonical flags size modified
      = ((cache.openFile path flags size modified).1,
        (cache.openFile path flags size modified).2.canonical) := by
  have prepared : (if flags.isWritable then (cache.canonical.cancel path.canonical).2
        else cache.canonical)
      = canonical (if flags.isWritable then (cache.cancel path).2 else cache) := by
    rw [cancel_canonical]
    split <;> rfl
  unfold openFile
  rw [prepared]
  generalize (if flags.isWritable then (cache.cancel path).2 else cache) = base
  simp only [acquire_canonical]
  obtain ⟨result, held⟩ := base.acquire path size modified
  cases result with
  | error error => rfl
  | ok id =>
      simp only
      by_cases wipes : flags.contains .truncate
      · simp only [if_pos wipes, onEntry_truncate_canonical]
        obtain ⟨truncated, after⟩ := held.onEntry id fun entry => (entry.truncate 0).map ((), ·)
        cases truncated with
        | error error => exact Prod.ext rfl (release_canonical after).symm
        | ok done => rfl
      · simp only [if_neg wipes]
        rfl

theorem get?_canonical (handle : Handle) : cache.canonical.get? handle = cache.get? handle := rfl

theorem closeHandle_canonical (handle : Handle) :
    (cache.closeHandle handle).canonical = cache.canonical.closeHandle handle := by
  unfold closeHandle
  rw [get?_canonical]
  split
  · exact log_canonical cache _ _ _
  · exact release_canonical _

theorem relocate_canonical (source destination : Path) :
    (cache.relocate source destination id).canonical
      = cache.canonical.relocate source.canonical destination.canonical id := by
  have moved : canonical ({ cache with
        mapped := (cache.mapped.erase source).set destination id }.modifyEntry id
          fun entry => { entry with path := destination })
      = { cache.canonical with
          mapped := (cache.canonical.mapped.erase source.canonical).set destination.canonical
            id }.modifyEntry id fun entry => { entry with path := destination.canonical } := by
    rw [modifyEntry_canonical _ id _ (fun entry => { entry with path := destination.canonical })
      fun _ => rfl]
    simp only [canonical, PathMap.set_canonical, PathMap.erase_canonical]
  unfold relocate
  simp only
  rw [← moved, mapped_canonical, PathMap.get?_canonical]
  split
  · exact closeEntry_canonical _
  · rfl

theorem moveFile_eq (source destination : Path) :
    cache.moveFile source destination
      = if source.Same destination then (.error (.sameLocation source destination), cache)
        else
          let base := ((cache.cancel source).2.cancel destination).2
          match base.mapped.get? source with
          | none =>
            match base.mapped.get? destination with
            | none => (.ok (), base)
            | some displaced =>
              (.ok (), closeEntry { base with mapped := base.mapped.erase destination } displaced)
          | some id =>
            let moved := base.relocate source destination id
            if (cache.cancel source).1 then
              (.ok (), moved.schedule id (.evict (((moved.entry? id).map Entry.epoch).getD 0)))
            else (.ok (), moved) := by
  unfold moveFile
  split
  · rfl
  · simp only
    generalize ((cache.cancel source).2.cancel destination).2 = base
    cases base.mapped.get? source with
    | none => cases base.mapped.get? destination <;> rfl
    | some id => rfl

theorem moveFile_canonical (source destination : Path) :
    cache.canonical.moveFile source.canonical destination.canonical
      = ((cache.moveFile source destination).1.mapError MoveError.canonical,
        (cache.moveFile source destination).2.canonical) := by
  rw [moveFile_eq, moveFile_eq]
  simp only [Path.same_canonical]
  split
  · rfl
  · simp only [cancel_canonical]
    generalize ((cache.cancel source).2.cancel destination).2 = base
    rw [mapped_canonical, PathMap.get?_canonical, PathMap.get?_canonical]
    cases base.mapped.get? source with
    | none =>
        cases base.mapped.get? destination with
        | none => rfl
        | some displaced =>
            simp only
            rw [closeEntry_canonical, ← PathMap.erase_canonical]
            rfl
    | some id =>
        simp only
        rw [← relocate_canonical, entry?_canonical, Option.map_map]
        split
        · simp only [schedule_canonical]
          rfl
        · rfl

theorem delete_canonical (path : Path) :
    (cache.delete path).canonical = cache.canonical.delete path.canonical := by
  unfold delete
  rw [cancel_canonical]
  simp only
  generalize (cache.cancel path).2 = base
  rw [mapped_canonical, PathMap.get?_canonical]
  cases base.mapped.get? path with
  | none => rfl
  | some id =>
      simp only
      rw [closeEntry_canonical, ← PathMap.erase_canonical]
      rfl

theorem foldl_discard_canonical (doomed : PathMap EntryId) :
    (doomed.foldl (fun cache (key, id) => (cache.cancel key).2.closeEntry id) cache).canonical
      = doomed.canonical.foldl (fun cache (key, id) => (cache.cancel key).2.closeEntry id)
        cache.canonical := by
  induction doomed generalizing cache with
  | nil => rfl
  | cons item doomed ih =>
      rw [List.foldl_cons, ih, closeEntry_canonical]
      simp only [PathMap.canonical, List.map_cons, List.foldl_cons, cancel_canonical]

theorem deleteTree_canonical (path : Path) :
    (cache.deleteTree path).canonical = cache.canonical.deleteTree path.canonical := by
  have inside : PathMap.canonical (cache.mapped.filter fun item => decide (item.1.Within path))
      = cache.mapped.canonical.filter fun item => decide (item.1.Within path.canonical) :=
    PathMap.filter_canonical fun key value => by simp
  have outside : PathMap.canonical (cache.mapped.filter fun item => !decide (item.1.Within path))
      = cache.mapped.canonical.filter fun item => !decide (item.1.Within path.canonical) :=
    PathMap.filter_canonical fun key value => by simp
  rw [deleteTree_eq, deleteTree_eq, foldl_discard_canonical, inside]
  simp only [canonical, outside]

theorem evictIfIdle_canonical (epoch : Nat) :
    (cache.evictIfIdle id epoch).canonical = cache.canonical.evictIfIdle id epoch := by
  unfold evictIfIdle
  rw [entry?_canonical]
  cases cache.entry? id with
  | none => rfl
  | some entry =>
      simp only [Option.map_some]
      rw [mapped_canonical, show entry.canonical.path = entry.path.canonical from rfl,
        PathMap.get?_canonical]
      simp only [show entry.canonical.handles = entry.handles from rfl,
        show entry.canonical.epoch = entry.epoch from rfl]
      split
      · rw [closeEntry_canonical, ← PathMap.erase_canonical]
        rfl
      · rfl

/-! ### What the state shows -/

theorem pendingCount_canonical : cache.canonical.pendingCount = cache.pendingCount := by
  unfold pendingCount
  rw [uploader_canonical]
  cases cache.uploader with
  | recording pending => rfl
  | background state => exact PathMap.length_canonical

theorem isPending_canonical (path : Path) :
    cache.canonical.isPending path.canonical = cache.isPending path := by
  have goes : cache.canonical.goesBy path.canonical = cache.goesBy path :=
    funext fun item => goesBy_canonical cache item
  unfold isPending
  rw [uploader_canonical]
  cases cache.uploader with
  | recording pending => exact congrArg pending.any goes
  | background state => exact PathMap.contains_canonical

theorem isCached_canonical (path : Path) :
    cache.canonical.isCached path.canonical = cache.isCached path :=
  PathMap.contains_canonical

theorem cachedMetadata_canonical (path : Path) :
    cache.canonical.cachedMetadata path.canonical
      = (cache.cachedMetadata path).map Metadata.canonical := by
  unfold cachedMetadata
  rw [mapped_canonical, PathMap.get?_canonical,
    show cache.canonical.entry? = Option.map Entry.canonical ∘ cache.entry? from
      funext fun id => cache.entry?_canonical, ← Option.map_bind]
  cases (cache.mapped.get? path).bind cache.entry? with
  | none => rfl
  | some entry =>
      simp only [Option.map_some, Entry.metadata_canonical]
      cases entry.metadata <;> rfl

/-! ### Background work

A failure keeps its text, so some steps leave the canonical state only when what they log is
left out once more.
-/

/-- The two failures need not be the same. -/
theorem failUpload_absorbed (job : Upload) (error error' : EntryError) :
    (cache.failUpload task job error).canonical
      = (cache.canonical.failUpload task job.canonical error').canonical := by
  have idle : job.canonical.canonical = job.canonical := by
    have twice := Work.canonical_canonical (.upload job)
    exact Work.upload.inj twice
  rw [failUpload_canonical, failUpload_canonical, canonical_canonical, idle]

theorem endTransfer_canonical (result : Except EntryError (Option Bytes)) :
    (cache.endTransfer task result).canonical
      = cache.canonical.endTransfer task (result.mapError EntryError.canonical) := by
  rw [endTransfer, emit_canonical, dropTask_canonical]
  rfl

theorem transferResult_canonical (job : Transfer) (outcome : Except EntryError Unit) :
    cache.canonical.transferResult job.canonical (outcome.mapError EntryError.canonical)
      = (cache.transferResult job outcome).mapError EntryError.canonical := by
  cases outcome with
  | error error => rfl
  | ok done =>
      simp only [Except.mapError, transferResult]
      rw [job.reading_canonical, job.entry_canonical, entry?_canonical]
      split
      · cases cache.entry? job.entry with
        | none => rfl
        | some entry =>
            cases stored : entry.content <;>
              simp [Entry.readLocal, Entry.content?, Entry.canonical, Transfer.canonical, stored,
                bind, Except.bind, Except.map, EntryError.canonical]
      · rfl

theorem advanceTransfer_canonical (job : Transfer) :
    (cache.advanceTransfer task job).canonical
      = cache.canonical.advanceTransfer task job.canonical := by
  obtain ⟨entry, offset, count, reading, load⟩ := job
  unfold advanceTransfer
  cases load with
  | none =>
      simp only [Transfer.canonical, Option.map_none]
      rw [entry?_canonical]
      cases cache.entry? entry with
      | none => exact endTransfer_canonical cache _
      | some found =>
          simp only [Option.map_some, Load.start_canonical]
          cases started : Load.start found offset count with
          | error error =>
              refine (endTransfer_canonical cache _).trans ?_
              simp only [Except.mapError, Load.error_of_start started]
              rfl
          | ok load => exact setWork_canonical cache _
  | some load =>
      simp only [Transfer.canonical, Option.map_some, Load.outcome?_canonical]
      cases load.outcome? with
      | none => rfl
      | some outcome =>
          simp only [Option.map_some, endTransfer_canonical, ← transferResult_canonical]
          rfl

theorem takePermit_canonical (job : Upload) :
    cache.canonical.takePermit task job.canonical
      = ((cache.takePermit task job).1.map Upload.canonical,
        (cache.takePermit task job).2.canonical) := by
  unfold takePermit
  rw [job.permit_canonical, uploader_canonical]
  split
  · rfl
  · cases cache.uploader with
    | recording pending => rfl
    | background state =>
        simp only [Uploader.canonical]
        split
        · rfl
        · split
          · simp only [setWork_canonical, Option.map_some]
            rfl
          · rfl

theorem beginUpload_absorbed (job : Upload) :
    (cache.beginUpload task job).canonical
      = (cache.canonical.beginUpload task job.canonical).canonical := by
  unfold beginUpload
  rw [job.entry_canonical, entry?_canonical]
  cases cache.entry? job.entry with
  | none => exact absorbed (endUpload_canonical cache job)
  | some entry =>
      simp only [Option.map_some, Load.start_canonical]
      rw [show entry.canonical.isDirty = entry.isDirty from rfl]
      split
      · cases Load.start entry 0 everything with
        | error error => exact failUpload_absorbed cache job error error
        | ok load => exact absorbed (setWork_canonical cache _)
      · exact absorbed (endUpload_canonical cache job)

theorem beginCopy_absorbed (job : Upload) (version : Nat) :
    (cache.beginCopy task job version).canonical
      = (cache.canonical.beginCopy task job.canonical version).canonical := by
  unfold beginCopy
  rw [scratchPresent_canonical, job.entry_canonical, entry?_canonical, Option.map_map,
    show Entry.size ∘ Entry.canonical = Entry.size from rfl]
  split
  · cases (cache.entry? job.entry).map Entry.size with
    | none => exact failUpload_absorbed cache job _ _
    | some result =>
        cases result with
        | error error => exact failUpload_absorbed cache job _ _
        | ok size => exact absorbed (setWork_canonical cache _)
  · exact failUpload_absorbed cache job _ _

theorem copyPiece_absorbed (job : Upload) (version : Nat) (copy : Copy) :
    (cache.copyPiece task job version copy).canonical
      = (cache.canonical.copyPiece task job.canonical version copy).canonical := by
  have source : (cache.canonical.entry? job.canonical.entry).bind Entry.source?
      = (cache.entry? job.entry).bind Entry.source? := by
    rw [job.entry_canonical, entry?_canonical]
    cases cache.entry? job.entry <;> rfl
  unfold copyPiece
  rw [source]
  cases (cache.entry? job.entry).bind Entry.source? with
  | none => exact failUpload_absorbed cache job _ _
  | some content =>
      simp only
      cases copy.next content with
      | error cause => exact failUpload_absorbed cache job _ _
      | ok next => exact absorbed (setWork_canonical cache _)

theorem sendCopy_absorbed (job : Upload) (version : Nat) (copy : Copy) :
    (cache.sendCopy task job version copy).canonical
      = (cache.canonical.sendCopy task job.canonical version copy).canonical := by
  unfold sendCopy
  rw [scratchPresent_canonical]
  split
  · refine absorbed ?_
    rw [emit_canonical, setWork_canonical]
    rfl
  · exact failUpload_absorbed cache job _ _

theorem advanceUpload_absorbed (job : Upload) :
    (cache.advanceUpload task job).canonical
      = (cache.canonical.advanceUpload task job.canonical).canonical := by
  have staged : job.canonical.stage = job.stage.canonical := rfl
  unfold advanceUpload
  rw [staged]
  cases stage : job.stage with
  | queued =>
      simp only [Upload.Stage.canonical, takePermit_canonical]
      obtain ⟨permitted, after⟩ := cache.takePermit task job
      cases permitted with
      | none => exact canonical_canonical after |>.symm
      | some job => exact beginUpload_absorbed after job
  | loading load =>
      simp only [Upload.Stage.canonical, Load.outcome?_canonical]
      cases load.outcome? with
      | none => exact (canonical_canonical cache).symm
      | some outcome =>
          cases outcome with
          | error error => exact failUpload_absorbed cache job _ _
          | ok done =>
              refine absorbed ?_
              rw [setWork_canonical, job.entry_canonical, entry?_canonical, Option.map_map]
              rfl
  | loaded version => exact beginCopy_absorbed cache job version
  | copying version copy =>
      simp only [Upload.Stage.canonical]
      split
      · exact sendCopy_absorbed cache job version copy
      · exact copyPiece_absorbed cache job version copy
  | sending => exact (canonical_canonical cache).symm

theorem advance_absorbed :
    (cache.advance task).canonical = (cache.canonical.advance task).canonical := by
  unfold advance
  rw [task?_canonical]
  cases cache.task? task with
  | none => exact (canonical_canonical cache).symm
  | some found =>
      obtain ⟨work, aborted⟩ := found
      simp only [Option.map_some, Task.canonical]
      split
      · exact absorbed (reap_canonical cache)
      · cases work with
        | transfer job => exact absorbed (advanceTransfer_canonical cache job)
        | upload job => exact advanceUpload_absorbed cache job
        | grace entry epoch due =>
            simp only [Work.canonical]
            rw [show cache.canonical.clock = cache.clock from rfl, ← dropTask_canonical,
              ← evictIfIdle_canonical]
            split <;> exact (canonical_canonical _).symm

/-! ### Answers of the remote store -/

theorem load?_canonical (work : Work) :
    work.canonical.load? = work.load?.map fun found => (found.1, found.2.canonical) := by
  cases work with
  | transfer job =>
      obtain ⟨entry, offset, count, reading, load⟩ := job
      cases load <;> rfl
  | upload job =>
      obtain ⟨entry, path, completion, permit, stage⟩ := job
      cases stage <;> rfl
  | grace => rfl

theorem withLoad_canonical (work : Work) (load : Load) :
    (work.withLoad load).canonical = work.canonical.withLoad load.canonical := by
  cases work <;> rfl

theorem loadOf?_canonical :
    cache.canonical.loadOf? task
      = (cache.loadOf? task).map fun found =>
        (found.1.canonical, found.2.1, found.2.2.canonical) := by
  unfold loadOf?
  rw [task?_canonical]
  cases cache.task? task with
  | none => rfl
  | some found =>
      obtain ⟨work, aborted⟩ := found
      simp only [Option.map_some, Task.canonical]
      split
      · rfl
      · rw [load?_canonical, Option.map_map, Option.map_map]
        rfl

theorem request_canonical (i : Nat) :
    (cache.request task i).canonical = cache.canonical.request task i := by
  unfold request
  rw [loadOf?_canonical]
  cases cache.loadOf? task with
  | none => rfl
  | some found =>
      obtain ⟨work, id, load⟩ := found
      simp only [Option.map_some]
      rw [show load.canonical.fetches = load.fetches.map Fetch.canonical from rfl,
        List.getElem?_map]
      cases load.fetches[i]? with
      | none => rfl
      | some fetch =>
          obtain ⟨gap, received, state⟩ := fetch
          cases state with
          | planned =>
              simp only [Option.map_some, Fetch.canonical, Fetch.State.canonical, emit_canonical,
                setWork_canonical, withLoad_canonical, ← Load.ask_canonical]
              rfl
          | asked | finished | failed => rfl

theorem deliver_canonical (i : Nat) (reply : Reply) :
    (cache.deliver task i reply).canonical = cache.canonical.deliver task i reply.canonical := by
  unfold deliver
  rw [loadOf?_canonical]
  cases cache.loadOf? task with
  | none => rfl
  | some found =>
      obtain ⟨work, id, load⟩ := found
      simp only [Option.map_some]
      rw [entry?_canonical]
      cases cache.entry? id with
      | none => rfl
      | some entry =>
          simp only [Option.map_some, Load.outcome?_canonical, Option.isSome_map]
          split
          · rfl
          · simp only [setWork_canonical, setEntry_canonical, withLoad_canonical,
              Load.receive_canonical]

theorem settle_absorbed (result : Except RemoteError Unit) :
    (cache.settle task result).canonical
      = (cache.canonical.settle task (result.mapError RemoteError.canonical)).canonical := by
  unfold settle
  rw [task?_canonical]
  cases cache.task? task with
  | none => exact (canonical_canonical cache).symm
  | some found =>
      obtain ⟨work, aborted⟩ := found
      cases work with
      | transfer | grace => exact (canonical_canonical cache).symm
      | upload job =>
          obtain ⟨entry, path, completion, permit, stage⟩ := job
          cases aborted with
          | true => exact (canonical_canonical cache).symm
          | false =>
              cases stage with
              | queued | loading | loaded | copying => exact (canonical_canonical cache).symm
              | sending version snapshot call =>
                  cases result with
                  | error cause => exact failUpload_absorbed cache _ _ _
                  | ok done =>
                      refine absorbed ?_
                      simp only [endUpload_canonical, log_canonical]
                      rw [modifyEntry_canonical _ _ _ (fun entry => entry.markClean version)
                        fun _ => rfl, emit_canonical]
                      rfl

def Action.canonical : Action → Action
  | .advance task => .advance task
  | .request task gap => .request task gap
  | .deliver task gap reply => .deliver task gap reply.canonical
  | .settle task result => .settle task (result.mapError RemoteError.canonical)
  | .tick milliseconds => .tick milliseconds

theorem act_absorbed (action : Action) :
    (cache.act action).canonical = (cache.canonical.act action.canonical).canonical := by
  cases action with
  | advance task => exact advance_absorbed cache
  | request task gap => exact absorbed (request_canonical cache gap)
  | deliver task gap reply => exact absorbed (deliver_canonical cache gap reply)
  | settle task result => exact settle_absorbed cache result
  | tick milliseconds => exact (canonical_canonical (cache.tick milliseconds)).symm

end Cache

end SparseCache
