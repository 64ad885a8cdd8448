import SparseCache.Entry.Export
import SparseCache.Load
import SparseCache.PathMap

namespace SparseCache

/-! What the cache does in the background. -/

/-- Names an entry for as long as the cache lives, whatever becomes of its path. -/
abbrev EntryId := Nat

abbrev TaskId := Nat

/-- What to do once an upload has ended, well or not. -/
inductive Completion
  /-- Start the grace period of an entry that went idle in `epoch`. -/
  | evict (epoch : Nat)
  /-- Tell whoever asked for the upload, known by `tag`. -/
  | notify (tag : String)
deriving DecidableEq, Repr

/-- How far an upload has come. -/
inductive Upload.Stage
  /-- Not begun, for want of a turn or of a permit. -/
  | queued
  /-- Fetching what the entry lacks. -/
  | loading (load : Load)
  /-- Nothing is lacking; the version to be marked clean is known. -/
  | loaded (version : Nat)
  /-- The entry is being copied. -/
  | copying (version : Nat) (copy : Copy)
  /-- The snapshot is on its way to the remote store. -/
  | sending (version : Nat) (snapshot : Bytes) (call : CallId)
deriving DecidableEq, Repr

structure Upload where
  entry : EntryId
  /-- The path of the entry when the upload was scheduled. -/
  path : Path
  completion : Completion
  permit : Bool := false
  stage : Upload.Stage := .queued
deriving DecidableEq, Repr

/-- A load or a read that somebody waits for. -/
structure Transfer where
  entry : EntryId
  offset : Nat
  count : Nat
  /-- Whether the bytes are wanted, or only their presence. -/
  reading : Bool
  load : Option Load := none
deriving DecidableEq, Repr

inductive Work
  | transfer (job : Transfer)
  | upload (job : Upload)
  /-- Evict the entry at `due` unless it has been used since `epoch`. -/
  | grace (entry : EntryId) (epoch due : Nat)
deriving DecidableEq, Repr

structure Task where
  work : Work
  /-- An aborted task does nothing more than give back what it holds. -/
  aborted : Bool := false
deriving DecidableEq, Repr

namespace Work

/-- The load in progress and the entry that it fills. -/
def load? : Work → Option (EntryId × Load)
  | .transfer job => job.load.map (job.entry, ·)
  | .upload job =>
    match job.stage with
    | .loading load => some (job.entry, load)
    | _ => none
  | .grace .. => none

def withLoad (load : Load) : Work → Work
  | .transfer job => .transfer { job with load := some load }
  | .upload job => .upload { job with stage := .loading load }
  | .grace entry epoch due => .grace entry epoch due

end Work

end SparseCache
