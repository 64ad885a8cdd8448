import SparseCache.Cache.Uploads

namespace SparseCache

/-! Opening, closing, moving and deleting by path.

An entry stays mapped after its last handle is closed: that schedules its
upload, and only when the upload has ended and the grace period has passed
without use is the entry evicted.
-/

/-- Why a move is refused. -/
inductive MoveError
  | sameLocation (source destination : Path)
deriving DecidableEq, Repr

def MoveError.message : MoveError → String
  | .sameLocation source destination =>
    "assertion `left != right` failed: move source and destination must differ\n  left: "
      ++ source.quoted ++ "\n right: " ++ destination.quoted

namespace Cache

variable (cache : Cache)

/-- The entry mapped at `path`, or a fresh one that is mapped there from now on,
with one more handle either way. -/
def acquire (path : Path) (size : Nat) (modified : Modified) :
    Except EntryError EntryId × Cache :=
  match cache.mapped.get? path with
  | some id =>
    (.ok id, cache.modifyEntry id fun entry => { entry.openHandle.2 with modified })
  | none =>
    match cache.allocate path size modified with
    | (.error error, cache) => (.error error, cache)
    | (.ok id, cache) =>
      (.ok id, { cache with mapped := cache.mapped.set path id }.modifyEntry id fun entry =>
        entry.openHandle.2)

/-- Gives a handle of the entry back.  If that was the last one and the entry is
still mapped, its upload is scheduled. -/
def release (id : EntryId) : Cache :=
  if cache.mapped.get? (cache.pathOf id) = some id then
    let (left, cache) := cache.releaseEntryHandle id
    if left = 0 then
      cache.schedule id (.evict (((cache.entry? id).map Entry.epoch).getD 0))
    else cache
  else (cache.releaseEntryHandle id).2

/-- Opens `path`.  Whoever opens it for writing stops its upload first, because
that would store what is about to change; `size` counts for a new entry only. -/
def openFile (path : Path) (flags : OpenFlags) (size : Nat) (modified : Modified) :
    Except EntryError Handle × Cache :=
  let cache := if flags.isWritable then (cache.cancel path).2 else cache
  match cache.acquire path size modified with
  | (.error error, cache) => (.error error, cache)
  | (.ok id, cache) =>
    let (truncated, cache) :=
      if flags.contains .truncate then
        cache.onEntry id fun entry => (entry.truncate 0).map ((), ·)
      else (.ok (), cache)
    match truncated with
    | .error error => (.error error, cache.release id)
    | .ok () =>
      let (handle, counter) := cache.counter.issue
      (.ok handle, { cache with counter, handles := cache.handles ++ [(handle, id)] })

def get? (handle : Handle) : Option EntryId :=
  (cache.handles.find? fun item => item.1 == handle).map (·.2)

def closeHandle (handle : Handle) : Cache :=
  match cache.get? handle with
  | none => cache.log .warning "close of an unknown file handle" none
  | some id =>
    { cache with handles := cache.handles.filter fun item => item.1 != handle }.release id

/-- Relocates what is mapped at `source`.  What was mapped at `destination` is
discarded, and an upload under way starts again under the new path. -/
def moveFile (source destination : Path) : Except MoveError Unit × Cache :=
  if source.Same destination then (.error (.sameLocation source destination), cache)
  else
    let (wasPending, cache) := cache.cancel source
    let (_, cache) := cache.cancel destination
    match cache.mapped.get? source with
    | none =>
      match cache.mapped.get? destination with
      | none => (.ok (), cache)
      | some displaced =>
        (.ok (), { cache with mapped := cache.mapped.erase destination }.closeEntry displaced)
    | some id =>
      let displaced := cache.mapped.get? destination
      let cache := { cache with mapped := (cache.mapped.erase source).set destination id }
      let cache := cache.modifyEntry id fun entry => { entry with path := destination }
      let cache := match displaced with
        | some displaced => cache.closeEntry displaced
        | none => cache
      if wasPending then
        (.ok (), cache.schedule id (.evict (((cache.entry? id).map Entry.epoch).getD 0)))
      else (.ok (), cache)

/-- Discards what is mapped at `path`, and only that. -/
def delete (path : Path) : Cache :=
  let cache := (cache.cancel path).2
  match cache.mapped.get? path with
  | none => cache
  | some id => { cache with mapped := cache.mapped.erase path }.closeEntry id

/-- Discards everything mapped at `path` or beneath it. -/
def deleteTree (path : Path) : Cache :=
  let (doomed, kept) := cache.mapped.partition fun item => decide (item.1.Within path)
  doomed.foldl (fun cache (key, id) => (cache.cancel key).2.closeEntry id)
    { cache with mapped := kept }

def cachedMetadata (path : Path) : Option Metadata :=
  match (cache.mapped.get? path).bind cache.entry? with
  | none => none
  | some entry => entry.metadata.toOption

def isCached (path : Path) : Bool := cache.mapped.contains path

/-- Evicts an entry whose grace period is over, if it is still mapped, has no
handle and has not been used since `epoch`. -/
def evictIfIdle (id : EntryId) (epoch : Nat) : Cache :=
  match cache.entry? id with
  | none => cache
  | some entry =>
    if cache.mapped.get? entry.path = some id ∧ entry.handles = 0 ∧ entry.epoch = epoch then
      { cache with mapped := cache.mapped.erase entry.path }.closeEntry id
    else cache

end Cache

end SparseCache
