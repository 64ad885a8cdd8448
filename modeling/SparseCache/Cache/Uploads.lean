import SparseCache.Cache.Basic

namespace SparseCache

/-! Scheduling, cancelling and ending uploads. -/

namespace Cache

variable (cache : Cache)

/-- The path under which an entry goes now. -/
def pathOf (id : EntryId) : Path := ((cache.entry? id).map Entry.path).getD default

/-- Uploads scheduled with a recording uploader go by the present path of their
entry. -/
def goesBy (path : Path) (item : EntryId × Completion) : Bool :=
  decide ((cache.pathOf item.1).Same path)

/-- Has an entry stored remotely under its present path.  An earlier upload of
that location is superseded: it never completes. -/
def schedule (id : EntryId) (completion : Completion) : Cache :=
  let path := cache.pathOf id
  let cache := cache.emit (.scheduled id path)
  match cache.uploader with
  | .recording pending =>
    let kept := pending.filter fun item => !cache.goesBy path item
    { cache with uploader := .recording (kept ++ [(id, completion)]) }
  | .background state =>
    let cache := match state.pending.get? path with
      | some earlier => cache.abort earlier
      | none => cache
    let (task, cache) := cache.spawn (.upload { entry := id, path, completion })
    { cache with uploader := .background { state with
        pending := state.pending.set path task } }

/-- Takes back the upload of a location, and tells whether there was one. -/
def cancel (path : Path) : Bool × Cache :=
  match cache.uploader with
  | .recording pending =>
    let hit := pending.any (cache.goesBy path)
    let kept := pending.filter fun item => !cache.goesBy path item
    (hit, { cache with uploader := .recording kept }.emit (.cancelled path hit))
  | .background state =>
    match state.pending.get? path with
    | none => (false, cache.emit (.cancelled path false))
    | some task =>
      let cache := { cache with uploader := .background { state with
        pending := state.pending.erase path } }
      (true, (cache.abort task).emit (.cancelled path true))

def pendingCount : Nat :=
  match cache.uploader with
  | .recording pending => pending.length
  | .background state => state.pending.length

def isPending (path : Path) : Bool :=
  match cache.uploader with
  | .recording pending => pending.any (cache.goesBy path)
  | .background state => state.pending.contains path

/-- Carries out what an ended upload was to be followed by.  A timer is due when the whole grace
period has passed; it may wake its task later than that, but not before. -/
def complete (id : EntryId) : Completion → Cache
  | .evict epoch => (cache.spawn (.grace id epoch (cache.clock + cache.grace))).2
  | .notify tag => cache.emit (.notified tag (cache.pathOf id))

/-- Ends the recorded uploads that `chosen` picks, in the order in which they
were scheduled, and tells how many there were. -/
def completeRecorded (chosen : EntryId × Completion → Bool) : Nat × Cache :=
  match cache.uploader with
  | .recording pending =>
    let (ending, kept) := pending.partition chosen
    let cache := { cache with uploader := .recording kept }
    (ending.length, ending.foldl (fun cache (id, completion) => cache.complete id completion) cache)
  | .background _ => (0, cache)

/-- Hands a permit to the first in line, or keeps it free. -/
def returnPermit : Cache :=
  match cache.uploader with
  | .recording _ => cache
  | .background state =>
    match state.waiting with
    | [] => { cache with uploader := .background { state with free := state.free + 1 } }
    | task :: waiting =>
      let cache := { cache with uploader := .background { state with waiting } }
      (cache.modifyTask task fun task =>
        match task.work with
        | .upload upload => { task with work := .upload { upload with permit := true } }
        | _ => task).wake task

/-- Takes a task off the list, with its place in line or its permit. -/
def reap (id : TaskId) : Cache :=
  match cache.task? id with
  | some { work := .upload upload, .. } =>
    let cache := cache.dropTask id
    if upload.permit then cache.returnPermit
    else match cache.uploader with
      | .background state =>
        { cache with uploader := .background { state with
            waiting := state.waiting.filter (· != id) } }
      | .recording _ => cache
  | _ => cache.dropTask id

/-- Ends an upload that still holds its registration or has lost it.  Only in
the first case is anybody told. -/
def endUpload (id : TaskId) (upload : Upload) : Cache :=
  let cache := match cache.uploader with
    | .background state =>
      if state.pending.get? upload.path = some id then
        { cache with uploader := .background { state with
            pending := state.pending.erase upload.path } }.complete upload.entry upload.completion
      else cache
    | .recording _ => cache
  cache.reap id

def failUpload (id : TaskId) (upload : Upload) (error : EntryError) : Cache :=
  (cache.log .error "upload failed" error.message?).endUpload id upload

/-- Stops every upload, as when the uploader goes away. -/
def abandonUploads : Cache :=
  match cache.uploader with
  | .recording _ => { cache with uploader := .recording [] }
  | .background state =>
    let aborted := state.pending.foldl (fun cache item => cache.abort item.2) cache
    let aborted := { aborted with uploader := .background { state with pending := [] } }
    if state.pending.isEmpty then aborted
    else aborted.log .warning "uploader dropped with uploads in flight" none

end Cache

end SparseCache
