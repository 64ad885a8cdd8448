import SparseCache.Session.Basic

namespace SparseCache

/-! What can be asked of a session, and what it answers. -/

inductive Command
  /- Entries -/
  | create (path : Path) (size : Nat) (modified : Modified)
  | load (entry : EntryId) (offset count : Nat)
  | read (entry : EntryId) (offset count : Nat)
  | spawn (name : String) (entry : EntryId) (offset count : Nat) (reading : Bool)
  | abort (name : String)
  | write (entry : EntryId) (offset : Nat) (data : Bytes)
  | truncate (entry : EntryId) (size : Nat)
  | size (entry : EntryId)
  | metadata (entry : EntryId)
  | describe (entry : EntryId)
  | closeEntry (entry : EntryId)
  | setDirty (entry : EntryId) (dirty : Bool)
  | markClean (entry : EntryId) (version : Nat)
  | setPath (entry : EntryId) (path : Path)
  | setModified (entry : EntryId) (modified : Modified)
  | openHandle (entry : EntryId)
  | releaseHandle (entry : EntryId)
  | persistInto (entry : EntryId) (sink : Sink)
  | persistTo (entry : EntryId) (path : Path)
  | snapshot (entry : EntryId)
  | schedule (entry : EntryId) (tag : String)
  /- Paths and handles -/
  | openFile (path : Path) (flags : OpenFlags) (size : Nat) (modified : Modified)
  | get (handle : Handle)
  | close (handle : Handle)
  | move (source destination : Path)
  | delete (path : Path)
  | deleteTree (path : Path)
  | cachedMetadata (path : Path)
  | isCached (path : Path)
  | cancel (path : Path)
  | isPending (path : Path)
  | complete (path : Option Path)
  | nextHandle
  /- The world around the cache -/
  | run (milliseconds : Nat)
  | script (path : Path) (script : Script) (content : Option (Option Bytes))
  | release (path : Path)
  | content (path : Path)
  | scratchFiles
  | breakScratch
  | dropUploader

inductive Answer
  | done
  | absent
  | number (n : Nat)
  | flag (b : Bool)
  | text (text : String)
  | bytes (bytes : Bytes)
  | entry (entry : EntryId)
  | opened (handle : Handle) (entry : EntryId)
  | metadata (metadata : Metadata)
  | persisted (result : Except EntryError Nat) (data : Bytes)
  /-- How copying to a new file went, and what the file holds now. -/
  | exported (result : Except EntryError Nat) (data : Option Bytes)
  | scratchFiles (backing snapshots : Nat)
  | failed (error : EntryError)
  | wouldBlock
  | refused (message : String)
  | unknown

namespace Session

variable (session : Session)

def withEntry (id : EntryId) (answer : Entry → Answer) : Answer :=
  match session.cache.entry? id with
  | some entry => answer entry
  | none => .unknown

def change (id : EntryId) (change : Entry → Entry) : Answer × Session :=
  (.done, session.onCache (·.modifyEntry id change))

/-- An operation on an entry that may fail. -/
def attempt {α : Type} (id : EntryId) (operation : Entry → Except EntryError (α × Entry))
    (answer : α → Answer) : Answer × Session :=
  match session.cache.onEntry id operation with
  | (.ok result, cache) => (answer result, { session with cache })
  | (.error error, cache) => (.failed error, { session with cache })

def transferred? (task : TaskId) : Event → Option (Except EntryError (Option Bytes))
  | .transferred id result => if id = task then some result else none
  | _ => none

/-- Tries a load or a read at once, and gives it up if it would have to wait. -/
def tryTransfer (job : Transfer) : Answer × Session :=
  let (task, cache) := session.cache.addTask (.transfer job)
  let session := { session with cache }.poll task
  match session.cache.events.findSome? (transferred? task) with
  | none => (.wouldBlock, (session.onCache (·.dropTask task)).forget task)
  | some result =>
    let others := session.cache.events.filter fun event => (transferred? task event).isNone
    let answer := match result with
      | .ok (some bytes) => Answer.bytes bytes
      | .ok none => .done
      | .error error => .failed error
    (answer, session.onCache fun cache => { cache with events := others })

def hasSnapshot : Work → Bool
  | .upload { stage := .copying .., .. } | .upload { stage := .sending .., .. } => true
  | _ => false

/-- How many local files and how many snapshots lie in the scratch directory. -/
def scratchFiles : Nat × Nat :=
  if session.cache.scratchPresent then
    (session.cache.entries.countP Entry.isOpen,
      session.cache.tasks.countP fun item => hasSnapshot item.2.work)
  else (0, 0)

def execute : Command → Answer × Session
  | .spawn name entry offset count reading =>
    let (task, cache) := session.cache.spawn (.transfer { entry, offset, count, reading })
    (.done, { session with cache, names := session.names ++ [(task, name)] })
  | .abort name =>
    let chosen := session.names.filter fun item => item.2 == name
    (.done, session.onCache fun cache =>
      chosen.foldl (fun cache item => cache.abort item.1) cache)
  | .create path size modified =>
    match session.cache.allocate path size modified with
    | (.ok id, cache) => (.entry id, { session with cache })
    | (.error error, cache) => (.failed error, { session with cache })
  | .load entry offset count =>
    session.tryTransfer { entry, offset, count, reading := false }
  | .read entry offset count =>
    session.tryTransfer { entry, offset, count, reading := true }
  | .write id offset data => session.attempt id (·.write offset data) .number
  | .truncate id size =>
    session.attempt id (fun entry => (entry.truncate size).map ((), ·)) fun _ => .done
  | .size id =>
    (session.withEntry id fun entry =>
      match entry.size with
      | .ok size => .number size
      | .error error => .failed error, session)
  | .metadata id =>
    (session.withEntry id fun entry =>
      match entry.metadata with
      | .ok metadata => .metadata metadata
      | .error error => .failed error, session)
  | .describe id => (session.withEntry id fun entry => .text entry.describe, session)
  | .closeEntry id => (.done, session.onCache (·.closeEntry id))
  | .setDirty id dirty => session.change id (·.setDirty dirty)
  | .markClean id version => session.change id (·.markClean version)
  | .setPath id path => session.change id fun entry => { entry with path }
  | .setModified id modified => session.change id fun entry => { entry with modified }
  | .openHandle id => session.attempt id (fun entry => .ok entry.openHandle) .number
  | .releaseHandle id =>
    let (left, cache) := session.cache.releaseEntryHandle id
    (.number left, { session with cache })
  | .persistInto id sink =>
    (session.withEntry id fun entry =>
      let (result, data) := entry.persistInto sink
      .persisted result data, session)
  | .persistTo id path =>
    match session.cache.entry? id with
    | none => (.unknown, session)
    | some entry =>
      let (result, exports) := entry.persistTo path session.exports
      (.exported result (exports.bytesAt path).toOption, { session with exports })
  | .snapshot id =>
    (if session.cache.scratchPresent then
      session.withEntry id fun entry =>
        match entry.persistInto {} with
        | (.ok size, bytes) => .persisted (.ok size) bytes
        | (.error error, _) => .failed error
    else .failed (.io (.temporaryFile SystemError.noEntry)), session)
  | .schedule id tag => (.done, session.onCache (·.schedule id (.notify tag)))
  | .openFile path flags size modified =>
    match session.cache.openFile path flags size modified with
    | (.ok handle, cache) =>
      (match cache.get? handle with
        | some entry => .opened handle entry
        | none => .unknown, { session with cache })
    | (.error error, cache) => (.failed error, { session with cache })
  | .get handle =>
    (match session.cache.get? handle with
      | some id => .entry id
      | none => .absent, session)
  | .close handle => (.done, session.onCache (·.closeHandle handle))
  | .move source destination =>
    match session.cache.moveFile source destination with
    | (.ok (), cache) => (.done, { session with cache })
    | (.error error, cache) => (.refused error.message, { session with cache })
  | .delete path => (.done, session.onCache (·.delete path))
  | .deleteTree path => (.done, session.onCache (·.deleteTree path))
  | .cachedMetadata path =>
    (match session.cache.cachedMetadata path with
      | some metadata => .metadata metadata
      | none => .absent, session)
  | .isCached path => (.flag (session.cache.isCached path), session)
  | .cancel path =>
    let (hit, cache) := session.cache.cancel path
    (.flag hit, { session with cache })
  | .isPending path => (.flag (session.cache.isPending path), session)
  | .complete path =>
    let (count, cache) := session.cache.completeRecorded fun item =>
      match path with
      | some path => session.cache.goesBy path item
      | none => true
    (.number count, { session with cache })
  | .nextHandle =>
    let (handle, counter) := session.cache.counter.issue
    (.number handle, session.onCache fun cache => { cache with counter })
  | .run milliseconds => (.done, session.run milliseconds)
  | .script path script content =>
    (.done, { session with store := session.store.replace path script content })
  | .release path => (.done, session.release path)
  | .content path =>
    (match session.store.content? path with
      | some bytes => .bytes bytes
      | none => .absent, session)
  | .scratchFiles =>
    let (backing, snapshots) := session.scratchFiles
    (.scratchFiles backing snapshots, session)
  | .breakScratch =>
    (.done, session.onCache fun cache => { cache with scratchPresent := false })
  | .dropUploader => (.done, session.onCache (·.abandonUploads))

end Session

end SparseCache
