import SparseCache.Cache.Background
import SparseCache.Remote.Script

namespace SparseCache

/-! A cache, the remote store behind it and the order in which things happen.

There is one thread.  Calls from outside run to their end at once; background
tasks move only when the session is told to run, one after the other in the order
in which they became ready.  Time passes only when nothing is ready.
-/

structure Session where
  cache : Cache
  store : RemoteStore := {}
  /-- The disk that files are exported to. -/
  exports : FileTree := {}
  reads : List (CallId × ReadCall) := []
  writes : List (CallId × WriteCall) := []
  /-- Who waits for the release of which script, in the order of coming. -/
  waits : List (ScriptId × TaskId) := []
  /-- Tasks whose write call waits only for everything else to have run. -/
  settling : List TaskId := []
  /-- What the transfers in the background are called. -/
  names : List (TaskId × String) := []

namespace Session

variable (session : Session)

def onCache (change : Cache → Cache) : Session :=
  { session with cache := change session.cache }

def await (script : ScriptId) (task : TaskId) : Session :=
  if session.waits.contains (script, task) then session
  else { session with waits := session.waits ++ [(script, task)] }

def forget (task : TaskId) : Session :=
  { session with
    waits := session.waits.filter fun wait => wait.2 != task
    settling := session.settling.filter (· != task) }

/-- Lets the calls on `path` continue. -/
def release (path : Path) : Session :=
  let script := (session.store.item path).scriptId
  let woken := session.waits.filter fun wait => wait.1 == script
  { session with
    store := session.store.release path
    waits := session.waits.filter fun wait => wait.1 != script
    cache := woken.foldl (fun cache wait => cache.wake wait.2) session.cache }

/-! ### Answers of the store -/

/-- Whether gap `i` of the task's load still takes answers. -/
def wants (cache : Cache) (task : TaskId) (i : Nat) : Bool :=
  match cache.loadOf? task with
  | none => false
  | some (_, _, load) =>
    load.outcome?.isNone && (load.fetches[i]?.bind Fetch.call?).isSome

/-- Passes answers on until one has to wait or no more are wanted.  A stream
without further answers has ended.  Yields the answers left over, unless the
call is through. -/
def feed (free : Bool) (task : TaskId) (i : Nat) : Answers → Cache → Option Answers × Cache
  | [], cache => (none, cache.deliver task i .ended)
  | (held, reply) :: rest, cache =>
    if held && !free then (some ((held, reply) :: rest), cache)
    else
      let cache := cache.deliver task i reply
      if wants cache task i then feed free task i rest cache else (none, cache)

def callOf? (task : TaskId) (i : Nat) : Option CallId :=
  (session.cache.loadOf? task).bind fun (_, _, load) => load.fetches[i]?.bind Fetch.call?

/-- Starts the read call of a gap that has none yet. -/
def ask (task : TaskId) (i : Nat) : Session :=
  match session.cache.loadOf? task with
  | none => session
  | some (_, _, load) =>
    match load.fetches[i]? with
    | some { gap, state := .planned, .. } =>
      let call := session.cache.nextCall
      { session with
        cache := session.cache.request task i
        reads := (call, session.store.startRead load.path gap.lo gap.length) :: session.reads }
    | _ => session

/-- Moves gap `i` of a task's load as far as it goes without waiting. -/
def pumpGap (task : TaskId) (i : Nat) : Session :=
  let session := session.ask task i
  match session.callOf? task i with
  | none => session
  | some call =>
    match session.reads.lookup call with
    | none => session
    | some read =>
      let free := session.store.isReleased read.script
      let (left, cache) := feed free task i read.answers session.cache
      let others := session.reads.filter fun item => item.1 != call
      match left with
      | none => { session with cache, reads := others }
      | some answers =>
        { session with cache, reads := (call, { read with answers }) :: others }.await
          read.script task

/-- Moves every gap in turn, until the load has ended. -/
def pumpGaps (task : TaskId) : List Nat → Session → Session
  | [], session => session
  | i :: rest, session =>
    match session.cache.loadOf? task with
    | some (_, _, load) =>
      if load.outcome?.isSome then session
      else pumpGaps task rest (session.pumpGap task i)
    | none => session

def pump (task : TaskId) : Session :=
  match session.cache.loadOf? task with
  | some (_, _, load) => pumpGaps task (List.range load.fetches.length) session
  | none => session

/-! ### Writes -/

/-- A write call that waits for nothing but its turn. -/
def settleLater (task : TaskId) : Session :=
  if session.settling.contains task then session
  else { session with settling := session.settling ++ [task] }

/-- Starts the write call of an upload that has none yet, and lines it up once
it need not wait for a release. -/
def pumpWrite (task : TaskId) : Session :=
  match session.cache.task? task with
  | some { work := .upload { path, stage := .sending _ _ call, .. }, aborted := false } =>
    let write := (session.writes.lookup call).getD (session.store.startWrite path)
    let session := { session with
      writes := (call, write) :: session.writes.filter fun item => item.1 != call }
    if write.held && !session.store.isReleased write.script then
      session.await write.script task
    else session.settleLater task
  | _ => session

/-- Lets a write call take effect. -/
def settle (task : TaskId) : Session :=
  let session := { session with settling := session.settling.filter (· != task) }
  match session.cache.task? task with
  | some { work := .upload { path, stage := .sending _ snapshot call, .. }, aborted := false } =>
    match session.writes.lookup call with
    | none => session
    | some write =>
      let writes := session.writes.filter fun item => item.1 != call
      let store := match write.result with
        | .ok () => session.store.put path snapshot
        | .error _ => session.store
      { session with writes, store, cache := session.cache.settle task write.result }
  | _ => session

/-! ### Running -/

/-- How many steps a task is away from the end of its copy. -/
def stepsToCopy (cache : Cache) (task : TaskId) : Nat :=
  match cache.task? task with
  | some { work := .upload { stage := .copying _ copy, .. }, .. } =>
    (copy.size - copy.pos + copyStep - 1) / copyStep + 1
  | _ => 0

/-- Moves a task as far as it goes without waiting.  Nothing comes between the pieces of a copy. -/
def poll (task : TaskId) : Session :=
  let aborted := ((session.cache.task? task).map Task.aborted).getD false
  let session := session.onCache (·.advance task)
  if aborted then session.forget task
  else
    let session := (session.pump task).onCache (·.advance task)
    let session := session.onCache (·.advance task)
    (session.onCache fun cache =>
      (List.range (stepsToCopy cache task)).foldl (fun cache _ => cache.advance task)
        cache).pumpWrite task

def nextDue? (cache : Cache) : Option Nat :=
  (cache.tasks.filterMap fun
    | (_, { work := .grace _ _ due, .. }) => some due
    | _ => none).min?

def wakeDue (cache : Cache) : Cache :=
  cache.tasks.foldl
    (fun cache item =>
      match item with
      | (id, { work := .grace _ _ due, .. }) =>
        if due ≤ cache.clock then cache.wake id else cache
      | _ => cache)
    cache

/-- Thirty years, in milliseconds. -/
def longestWait : Nat := 30 * 365 * 24 * 60 * 60 * 1000

/-- The clock of a session jumps no further than thirty years: a timer that is due later is set
to that.  Only sessions do so; the cache itself waits for the whole grace period. -/
def withinReach (cache : Cache) : Cache :=
  { cache with tasks := cache.tasks.map fun
      | (id, { work := .grace entry epoch due, aborted }) =>
        (id, { work := .grace entry epoch (min due (cache.clock + longestWait)), aborted })
      | item => item }

/-- Runs until `deadline`, with at most `fuel` moves. -/
def runUntil (deadline : Nat) : Nat → Session → Session
  | 0, session => session
  | fuel + 1, session =>
    match session.cache.ready with
    | task :: ready =>
      runUntil deadline fuel
        ({ session with cache := { session.cache with ready } }.poll task)
    | [] =>
      match session.settling with
      | task :: _ => runUntil deadline fuel (session.settle task)
      | [] =>
        let session := session.onCache withinReach
        match nextDue? session.cache with
        | some due =>
          if due ≤ deadline then
            runUntil deadline fuel (session.onCache fun cache =>
              wakeDue (cache.tick (due - cache.clock)))
          else session.onCache fun cache => cache.tick (deadline - cache.clock)
        | none => session.onCache fun cache => cache.tick (deadline - cache.clock)

/-- Each task is polled when it is spawned, gets its permit, is released, is
aborted and is due, and settles once; a timer comes with every upload. -/
def movesFor (cache : Cache) : Nat := 16 * (cache.tasks.length + 1) + cache.ready.length

def run (milliseconds : Nat) : Session :=
  runUntil (session.cache.clock + milliseconds) (movesFor session.cache) session

end Session

end SparseCache
