import SparseCache.Cache.Registry

namespace SparseCache

/-! The steps of background work.

A task moves in small steps between which anything else may happen: it begins,
asks for the gaps it lacks, takes answers one at a time, copies its entry piece
by piece, waits for the write to end.  `Action` names these steps; a run of the cache is
any sequence of them mixed with calls from outside.
-/

namespace Cache

variable (cache : Cache)

/-- More than any file holds. -/
def everything : Nat := 0xFFFFFFFFFFFFFFFF

def endTransfer (id : TaskId) (result : Except EntryError (Option Bytes)) : Cache :=
  (cache.dropTask id).emit (.transferred id result)

/-- What a transfer yields once its load has ended. -/
def transferResult (job : Transfer) : Except EntryError Unit → Except EntryError (Option Bytes)
  | .error error => .error error
  | .ok () =>
    if job.reading then
      match cache.entry? job.entry with
      | some entry => (entry.readLocal job.offset job.count).map some
      | none => .error .closed
    else .ok none

def advanceTransfer (id : TaskId) (job : Transfer) : Cache :=
  match job.load with
  | none =>
    match (cache.entry? job.entry).map fun entry => Load.start entry job.offset job.count with
    | some (.ok load) => cache.setWork id (.transfer { job with load := some load })
    | some (.error error) => cache.endTransfer id (.error error)
    | none => cache.endTransfer id (.error .closed)
  | some load =>
    match load.outcome? with
    | none => cache
    | some outcome => cache.endTransfer id (cache.transferResult job outcome)

/-- Takes a permit for an upload, or a place in line. -/
def takePermit (id : TaskId) (job : Upload) : Option Upload × Cache :=
  if job.permit then (some job, cache)
  else match cache.uploader with
    | .recording _ => (none, cache)
    | .background state =>
      if state.waiting.contains id then (none, cache)
      else if 0 < state.free then
        let job := { job with permit := true }
        (some job, { cache with uploader := .background { state with free := state.free - 1 }
          }.setWork id (.upload job))
      else
        (none, { cache with uploader := .background { state with
            waiting := state.waiting ++ [id] } })

/-- An upload that has its permit looks whether there is anything to store and
begins to fetch what is lacking. -/
def beginUpload (id : TaskId) (job : Upload) : Cache :=
  match cache.entry? job.entry with
  | none => cache.endUpload id job
  | some entry =>
    if entry.isDirty then
      match Load.start entry 0 everything with
      | .error error => cache.failUpload id job error
      | .ok load => cache.setWork id (.upload { job with stage := .loading load })
    else cache.endUpload id job

/-- Makes the file for the snapshot and looks how much there is to copy. -/
def beginCopy (id : TaskId) (job : Upload) (version : Nat) : Cache :=
  if cache.scratchPresent then
    match (cache.entry? job.entry).map Entry.size with
    | some (.ok size) => cache.setWork id (.upload { job with stage := .copying version { size } })
    | some (.error error) => cache.failUpload id job error
    | none => cache.failUpload id job .closed
  else cache.failUpload id job (.io (.temporaryFile SystemError.noEntry))

/-- Copies one piece of the entry as it is now. -/
def copyPiece (id : TaskId) (job : Upload) (version : Nat) (copy : Copy) : Cache :=
  match (cache.entry? job.entry).bind Entry.source? with
  | some content =>
    match copy.next content with
    | .ok copy => cache.setWork id (.upload { job with stage := .copying version copy })
    | .error cause => cache.failUpload id job (.io cause)
  | none => cache.failUpload id job .closed

/-- Opens the finished snapshot once more, to read from it, and starts the write call. -/
def sendCopy (id : TaskId) (job : Upload) (version : Nat) (copy : Copy) : Cache :=
  if cache.scratchPresent then
    let snapshot := copy.taken.flatten
    let stage := Upload.Stage.sending version snapshot cache.nextCall
    ({ cache with nextCall := cache.nextCall + 1 }.setWork id (.upload { job with stage })).emit
      (.writing job.entry job.path snapshot)
  else cache.failUpload id job (.io (.temporaryFile SystemError.noEntry))

def advanceUpload (id : TaskId) (job : Upload) : Cache :=
  match job.stage with
  | .queued =>
    match cache.takePermit id job with
    | (none, cache) => cache
    | (some job, cache) => cache.beginUpload id job
  | .loading load =>
    match load.outcome? with
    | none => cache
    | some (.error error) => cache.failUpload id job error
    | some (.ok ()) =>
      let version := ((cache.entry? job.entry).map Entry.version).getD 0
      cache.setWork id (.upload { job with stage := .loaded version })
  | .loaded version => cache.beginCopy id job version
  | .copying version copy =>
    if copy.isThrough then cache.sendCopy id job version copy
    else cache.copyPiece id job version copy
  | .sending .. => cache

/-- The next step that a task can take by itself, if there is one. -/
def advance (id : TaskId) : Cache :=
  match cache.task? id with
  | none => cache
  | some task =>
    if task.aborted then cache.reap id
    else match task.work with
      | .transfer job => cache.advanceTransfer id job
      | .upload job => cache.advanceUpload id job
      | .grace entry epoch due =>
        if due ≤ cache.clock then (cache.dropTask id).evictIfIdle entry epoch else cache

/-- The load that a live task waits for. -/
def loadOf? (id : TaskId) : Option (Work × EntryId × Load) :=
  match cache.task? id with
  | none => none
  | some task =>
    if task.aborted then none
    else task.work.load?.map (task.work, ·)

/-- Starts the read call for gap `i` of a task's load. -/
def request (id : TaskId) (i : Nat) : Cache :=
  match cache.loadOf? id with
  | none => cache
  | some (work, _, load) =>
    match load.fetches[i]? with
    | some { gap, state := .planned, .. } =>
      ({ cache with nextCall := cache.nextCall + 1 }.setWork id
        (work.withLoad (load.ask i cache.nextCall))).emit (.reading load.path gap.lo gap.length)
    | _ => cache

/-- Gives a task the next answer to the read call for gap `i`. -/
def deliver (id : TaskId) (i : Nat) (reply : Reply) : Cache :=
  match cache.loadOf? id with
  | none => cache
  | some (work, entryId, load) =>
    match cache.entry? entryId with
    | none => cache
    | some entry =>
      if load.outcome?.isSome then cache
      else
        let (load, entry) := load.receive i entry reply
        (cache.setEntry entryId entry).setWork id (work.withLoad load)

/-- Tells a task how its write call ended.  All that follows from it happens at once. -/
def settle (id : TaskId) (result : Except RemoteError Unit) : Cache :=
  match cache.task? id with
  | some { work := .upload job, aborted := false } =>
    match job.stage with
    | .sending version snapshot _ =>
      match result with
      | .error cause => cache.failUpload id job (.transfer cause)
      | .ok () =>
        let cache := cache.emit (.written job.entry job.path (snapshot.chunks copyStep))
        let cache := cache.modifyEntry job.entry fun entry => entry.markClean version
        (cache.log .info "upload finished" none).endUpload id job
    | _ => cache
  | _ => cache

def tick (milliseconds : Nat) : Cache := { cache with clock := cache.clock + milliseconds }

inductive Action
  | advance (task : TaskId)
  | request (task : TaskId) (gap : Nat)
  | deliver (task : TaskId) (gap : Nat) (reply : Reply)
  | settle (task : TaskId) (result : Except RemoteError Unit)
  | tick (milliseconds : Nat)

def act : Action → Cache
  | .advance task => cache.advance task
  | .request task gap => cache.request task gap
  | .deliver task gap reply => cache.deliver task gap reply
  | .settle task result => cache.settle task result
  | .tick milliseconds => cache.tick milliseconds

end Cache

end SparseCache
