import SparseCache.Cache.Task
import SparseCache.Entry.Export
import SparseCache.Handle
import SparseCache.OpenFlags

namespace SparseCache

/-! The state of one mounted cache.

Entries live in a list and are named by their position in it, so that handles,
the path map, uploads and timers can refer to one entry while its path changes.
Everything that happens outside the cache is recorded as an `Event`.
-/

inductive Severity
  | info
  | warning
  | error
deriving DecidableEq, Repr

inductive Event
  /-- A read call to the remote store begins. -/
  | reading (path : Path) (offset length : Nat)
  /-- A write call to the remote store begins. -/
  | writing (entry : EntryId) (path : Path) (snapshot : Bytes)
  /-- A write took effect; it carried these chunks. -/
  | written (entry : EntryId) (path : Path) (chunks : List Bytes)
  | scheduled (entry : EntryId) (path : Path)
  | cancelled (path : Path) (hit : Bool)
  /-- Whoever asked for an upload under `tag` was told that it ended. -/
  | notified (tag : String) (path : Path)
  /-- A transfer came to its end, with the bytes if they were wanted. -/
  | transferred (task : TaskId) (result : Except EntryError (Option Bytes))
  /-- A line for the log, with the text of the failure that it reports. -/
  | logged (severity : Severity) (message : String) (failure : Option String)

/-- Uploads that run in the background, so many at a time. -/
structure Background where
  /-- Permits that no task holds. -/
  free : Nat
  /-- Tasks that wait for a permit, the first in line first. -/
  waiting : List TaskId := []
  /-- The upload of each location that has one. -/
  pending : PathMap TaskId := []
deriving DecidableEq, Repr

inductive Uploader
  /-- Keeps what is scheduled until somebody completes it. -/
  | recording (pending : List (EntryId × Completion))
  | background (state : Background)
deriving DecidableEq, Repr

structure Cache where
  /-- How long an idle entry is kept after its upload, in milliseconds. -/
  grace : Nat
  uploader : Uploader
  entries : List Entry := []
  mapped : PathMap EntryId := []
  handles : List (Handle × EntryId) := []
  counter : HandleCounter := {}
  tasks : List (TaskId × Task) := []
  nextTask : TaskId := 0
  nextCall : CallId := 0
  /-- Tasks that can make progress, in the order in which they became able to. -/
  ready : List TaskId := []
  /-- Milliseconds since the mount. -/
  clock : Nat := 0
  /-- Whether the directory for local files is still there. -/
  scratchPresent : Bool := true
  events : List Event := []

namespace Cache

variable (cache : Cache)

def emit (event : Event) : Cache := { cache with events := cache.events ++ [event] }

def log (severity : Severity) (message : String) (failure : Option String) : Cache :=
  cache.emit (.logged severity message failure)

/-! ### Entries -/

def entry? (id : EntryId) : Option Entry := cache.entries[id]?

def setEntry (id : EntryId) (entry : Entry) : Cache :=
  { cache with entries := cache.entries.set id entry }

def modifyEntry (id : EntryId) (change : Entry → Entry) : Cache :=
  { cache with entries := cache.entries.modify id change }

/-- Runs an operation that may fail on an entry; on failure nothing changes. -/
def onEntry {α : Type} (id : EntryId) (operation : Entry → Except EntryError (α × Entry)) :
    Except EntryError α × Cache :=
  match cache.entry? id with
  | none => (.error .closed, cache)
  | some entry =>
    match operation entry with
    | .error error => (.error error, cache)
    | .ok (result, entry) => (.ok result, cache.setEntry id entry)

/-- A new entry of `size` bytes with a local file of its own. -/
def allocate (path : Path) (size : Nat) (modified : Modified) :
    Except EntryError EntryId × Cache :=
  if cache.scratchPresent then
    match Entry.create path size modified with
    | .error error => (.error error, cache)
    | .ok entry =>
      (.ok cache.entries.length, { cache with entries := cache.entries ++ [entry] })
  else (.error (.allocation (.temporaryFile SystemError.noEntry)), cache)

/-- Gives up the local file.  Closing twice is the same as closing once. -/
def closeEntry (id : EntryId) : Cache :=
  match cache.entry? id with
  | none => cache
  | some entry =>
    if entry.isOpen then
      let closed := cache.setEntry id entry.close
      if cache.scratchPresent then closed
      else closed.log .error "failed to close backing file" none
    else cache

/-- One handle of the entry less, and how many are left. -/
def releaseEntryHandle (id : EntryId) : Nat × Cache :=
  match (cache.entry? id).bind Entry.releaseHandle? with
  | some (left, entry) => (left, cache.setEntry id entry)
  | none => (0, cache.log .error "released a handle of an entry with no open handles" none)

/-! ### Tasks -/

def task? (id : TaskId) : Option Task :=
  (cache.tasks.find? fun item => item.1 == id).map (·.2)

def modifyTask (id : TaskId) (change : Task → Task) : Cache :=
  { cache with tasks := cache.tasks.map fun item =>
      if item.1 == id then (id, change item.2) else item }

def setWork (id : TaskId) (work : Work) : Cache :=
  cache.modifyTask id fun task => { task with work }

def dropTask (id : TaskId) : Cache :=
  { cache with
    tasks := cache.tasks.filter fun item => item.1 != id
    ready := cache.ready.filter (· != id) }

/-- Puts a task at the end of the line unless it stands in it. -/
def wake (id : TaskId) : Cache :=
  if cache.ready.contains id then cache else { cache with ready := cache.ready ++ [id] }

/-- Adds a task that is not yet in the line. -/
def addTask (work : Work) : TaskId × Cache :=
  (cache.nextTask,
    { cache with
      tasks := cache.tasks ++ [(cache.nextTask, { work })]
      nextTask := cache.nextTask + 1 })

def spawn (work : Work) : TaskId × Cache :=
  let (id, added) := cache.addTask work
  (id, added.wake id)

/-- Stops a task.  It gives back what it holds when its turn comes. -/
def abort (id : TaskId) : Cache :=
  if (cache.task? id).isSome then
    (cache.modifyTask id fun task => { task with aborted := true }).wake id
  else cache

end Cache

end SparseCache
