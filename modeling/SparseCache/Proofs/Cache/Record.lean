import SparseCache.Proofs.Cache.Handles

namespace SparseCache

/-! What each operation adds to the record of events, as far as it tells of uploads or of a
handle that was given back once too often.
-/

/-- The event tells of a call on the uploader, of somebody called back, of a write that took
effect or of a handle given back in error. -/
def Event.loud : Event → Bool
  | .scheduled .. | .cancelled .. | .notified .. | .written .. => true
  | .logged _ message _ => message == "released a handle of an entry with no open handles"
  | _ => false

namespace Cache

variable {cache : Cache} {id : EntryId} {task : TaskId} {path : Path} {job : Upload}
  {entry : Entry} {completion : Completion}

def record (cache : Cache) : List Event := cache.events.filter Event.loud

theorem record_congr {left right : Cache} (same : left.events = right.events) :
    left.record = right.record := by
  rw [record, record, same]

/-- What is kept of the record is kept of the events. -/
theorem filter_record {keep : Event → Bool}
    (loud : ∀ event, keep event = true → event.loud = true) :
    cache.record.filter keep = cache.events.filter keep := by
  rw [record, List.filter_filter]
  congr 1
  funext event
  cases kept : keep event with
  | false => simp
  | true => simp [loud event kept]

theorem record_emit {event : Event} (loud : event.loud = true) :
    (cache.emit event).record = cache.record ++ [event] := by
  simp [record, emit, loud]

theorem record_emit_quiet {event : Event} (quiet : event.loud = false) :
    (cache.emit event).record = cache.record := by
  simp [record, emit, quiet]

/-! ### Uploads -/

theorem record_wake : (cache.wake task).record = cache.record := record_congr events_wake

theorem record_abort : (cache.abort task).record = cache.record := by
  unfold abort
  split
  · exact record_wake
  · rfl

theorem record_spawn {work : Work} : (cache.spawn work).2.record = cache.record := record_wake

theorem record_schedule :
    (cache.schedule id completion).record
      = cache.record ++ [.scheduled id (cache.pathOf id)] := by
  have told : (cache.emit (.scheduled id (cache.pathOf id))).record
      = cache.record ++ [.scheduled id (cache.pathOf id)] := record_emit rfl
  unfold schedule
  simp only
  split
  · exact told
  · split
    · exact (record_spawn.trans record_abort).trans told
    · exact record_spawn.trans told

theorem record_cancel :
    (cache.cancel path).2.record = cache.record ++ [.cancelled path (cache.cancel path).1] := by
  unfold cancel
  split
  · exact record_emit rfl
  · split
    · exact record_emit rfl
    · refine (record_emit rfl).trans ?_
      rw [record_abort]
      rfl

/-- The events that come of carrying out a completion. -/
def tells (cache : Cache) (id : EntryId) : Completion → List Event
  | .evict _ => []
  | .notify tag => [.notified tag (cache.pathOf id)]

theorem record_complete :
    (cache.complete id completion).record = cache.record ++ cache.tells id completion := by
  cases completion with
  | evict epoch => exact record_spawn.trans (List.append_nil _).symm
  | notify tag => exact record_emit rfl

theorem record_endUpload :
    (cache.endUpload task job).record
      = cache.record ++
        if cache.pending.get? job.path = some task then cache.tells job.entry job.completion
        else [] := by
  unfold endUpload
  refine (record_congr events_reap).trans ?_
  cases uploader : cache.uploader with
  | recording entries => simp [pending, uploader, PathMap.get?]
  | background state =>
      rw [pending_of_background uploader]
      simp only
      split
      · refine record_complete.trans ?_
        cases job.completion <;> rfl
      · exact (List.append_nil _).symm

theorem record_failed {error : EntryError} :
    (cache.log .error "upload failed" error.message?).record = cache.record :=
  record_emit_quiet (by simp [Event.loud])

theorem record_foldl_abort (items : PathMap TaskId) :
    (items.foldl (fun cache item => cache.abort item.2) cache).record = cache.record := by
  induction items generalizing cache with
  | nil => rfl
  | cons item items ih => exact ih.trans record_abort

theorem record_abandonUploads : cache.abandonUploads.record = cache.record := by
  unfold abandonUploads
  split
  · rfl
  · rename_i state _
    have stopped := @record_foldl_abort cache state.pending
    simp only
    split
    · exact stopped
    · exact (record_emit_quiet (by simp [Event.loud])).trans stopped

/-! ### Entries and paths -/

theorem record_closeEntry : (cache.closeEntry id).record = cache.record := by
  unfold closeEntry
  split
  · rfl
  · split
    · simp only
      split
      · rfl
      · exact record_emit_quiet (by simp [Event.loud])
    · rfl

theorem record_evictIfIdle {epoch : Nat} :
    (cache.evictIfIdle id epoch).record = cache.record := by
  unfold evictIfIdle
  split
  · rfl
  · split
    · exact record_closeEntry
    · rfl

theorem record_onEntry {α : Type} {operation : Entry → Except EntryError (α × Entry)} :
    (cache.onEntry id operation).2.record = cache.record := by
  unfold onEntry
  split
  · rfl
  · split <;> rfl

theorem record_allocate {size : Nat} {modified : Modified} :
    (cache.allocate path size modified).2.record = cache.record := by
  unfold allocate
  split
  · split <;> rfl
  · rfl

/-- A handle that somebody holds is given back without a word. -/
theorem record_releaseEntryHandle (found : cache.entry? id = some entry)
    (held : 0 < entry.handles) :
    (cache.releaseEntryHandle id).2.record = cache.record := by
  obtain ⟨left, after, released⟩ := Entry.releaseHandle?_of_held held
  rw [releaseEntryHandle, found, Option.bind_some, released]
  rfl

theorem record_acquired {size : Nat} {modified : Modified} {held : Cache}
    (acquired : cache.acquire path size modified = (.ok id, held)) :
    held.record = cache.record := by
  rcases acquire_ok acquired with ⟨-, rfl⟩ | ⟨-, made, -, rfl, rfl⟩ <;> rfl

theorem record_relocate {source destination : Path} :
    (cache.relocate source destination id).record = cache.record := by
  unfold relocate
  simp only
  split
  · exact record_closeEntry
  · rfl

/-! ### Storing -/

/-- A step that stores the snapshot which an upload has on its way. -/
structure Stores (cache : Cache) (step : Step) (task : TaskId) (job : Upload) (version : Nat)
    (snapshot : Bytes) : Prop where
  step_eq : step = .act (.settle task (.ok ()))
  live : cache.live? task = some (.upload job)
  stage : ∃ call, job.stage = .sending version snapshot call

end Cache

end SparseCache
