import SparseCache.Session.Command

namespace SparseCache

/-! What an observer learns from each command: the answer, what happened outside
the cache meanwhile, and which entries look different now. -/

/-- How an entry looks from outside. -/
structure EntryState where
  path : Path
  /-- Nothing once the entry is closed. -/
  size : Option Nat
  handles : Nat
  epoch : Nat
  version : Nat
  dirty : Bool
  modified : Modified
  populated : List Span
deriving DecidableEq, Repr

def Entry.state (entry : Entry) : EntryState where
  path := entry.path
  size := entry.content.map Content.size
  handles := entry.handles
  epoch := entry.epoch
  version := entry.version
  dirty := entry.isDirty
  modified := entry.modified
  populated := entry.populated.spans

structure Counts where
  cached : Nat
  openHandles : Nat
  pending : Nat
deriving DecidableEq, Repr

def Cache.counts (cache : Cache) : Counts :=
  ⟨cache.mapped.length, cache.handles.length, cache.pendingCount⟩

structure Report where
  answer : Answer
  /-- Nothing once the uploader is gone. -/
  counts : Option Counts
  events : List Event
  /-- Transfers that came to their end, by name. -/
  ended : List (String × Except EntryError (Option Bytes))
  changed : List (EntryId × EntryState)

/-- A session and the state in which each entry was last reported. -/
structure Observed where
  session : Session
  known : List EntryState := []
  uploaderPresent : Bool := true

namespace Observed

variable (observed : Observed)

/-- The entries of `now` that differ from those of `known`, from number `id`
on.  An entry not known before differs. -/
def changes (id : EntryId) : List EntryState → List EntryState → List (EntryId × EntryState)
  | [], _ => []
  | now :: rest, [] => (id, now) :: changes (id + 1) rest []
  | now :: rest, known :: others =>
    if now = known then changes (id + 1) rest others
    else (id, now) :: changes (id + 1) rest others

def endedBy (names : List (TaskId × String)) : Event →
    Option (String × Except EntryError (Option Bytes))
  | .transferred task result => (names.lookup task).map (·, result)
  | _ => none

def step (command : Command) : Report × Observed :=
  let (answer, session) := observed.session.execute command
  let now := session.cache.entries.map Entry.state
  let uploaderPresent := observed.uploaderPresent &&
    match command with
    | .dropUploader => false
    | _ => true
  ({ answer
     counts := if uploaderPresent then some session.cache.counts else none
     events := session.cache.events
     ended := session.cache.events.filterMap (endedBy session.names)
     changed := changes 0 now observed.known },
    { session := session.onCache fun cache => { cache with events := [] }
      known := now
      uploaderPresent })

end Observed

end SparseCache
