import SparseCache.Path.Spelling
import SparseCache.PathMap.Lemmas
import SparseCache.Proofs.Cache.Run

namespace SparseCache

/-! The state of a cache with all paths in one spelling.

What is left of a state then is all that it shows but for the spelling of paths, and for the
texts that are made of them.  Two states that leave the same are alike.
-/

/-- Changing a row and mapping all of them can be done in either order. -/
theorem modify_map {α : Type} {items : List α} {i : Nat} {f f' g : α → α}
    (commutes : ∀ item, f (g item) = g (f' item)) :
    (items.map g).modify i f = (items.modify i f').map g := by
  refine List.ext_getElem? fun j => ?_
  rw [List.getElem?_modify, List.getElem?_map, List.getElem?_map, List.getElem?_modify]
  cases items[j]? with
  | none => rfl
  | some item => by_cases here : i = j <;> simp [here, commutes]

namespace Path

variable {path other : Path}

@[simp] theorem same_canonical : path.canonical.Same other.canonical ↔ path.Same other := by
  rw [← canonical_eq_iff, ← canonical_eq_iff, canonical_canonical, canonical_canonical]

@[simp] theorem within_canonical : path.canonical.Within other.canonical ↔ path.Within other :=
  (within_congr (canonical_same path)).trans (within_congr_tree (canonical_same other))

end Path

/-! ### Failures -/

def RemoteError.canonical : RemoteError → RemoteError
  | .notFound path => .notFound path.canonical
  | .alreadyExists path => .alreadyExists path.canonical
  | .typeMismatch path => .typeMismatch path.canonical
  | .provider text => .provider text
  | .io cause => .io cause

def EntryError.canonical : EntryError → EntryError
  | .transfer cause => .transfer cause.canonical
  | .allocation cause => .allocation cause
  | .pastEnd offset size => .pastEnd offset size
  | .io cause => .io cause
  | .closed => .closed

def MoveError.canonical : MoveError → MoveError
  | .sameLocation source destination =>
    .sameLocation source.canonical destination.canonical

@[simp] theorem RemoteError.canonical_canonical (error : RemoteError) :
    error.canonical.canonical = error.canonical := by
  cases error <;> simp [canonical]

@[simp] theorem EntryError.canonical_canonical (error : EntryError) :
    error.canonical.canonical = error.canonical := by
  cases error <;> simp [canonical]

/-! ### Path maps -/

def PathMap.canonical {α : Type} (map : PathMap α) : PathMap α :=
  List.map (fun item => (item.1.canonical, item.2)) map

namespace PathMap

variable {α : Type} {map : PathMap α} {path : Path} {value : α}

@[simp] theorem canonical_canonical : map.canonical.canonical = map.canonical := by
  simp [canonical]

@[simp] theorem length_canonical : List.length map.canonical = List.length map :=
  List.length_map _

@[simp] theorem get?_canonical : map.canonical.get? path.canonical = map.get? path := by
  have found (item : Path × α) :
      decide (item.1.canonical.Same path.canonical) = decide (item.1.Same path) := by simp
  simp only [get?, canonical, List.find?_map, Option.map_map, Function.comp_def, found]

@[simp] theorem contains_canonical : map.canonical.contains path.canonical = map.contains path := by
  rw [contains_eq_isSome, contains_eq_isSome, get?_canonical]

theorem filter_canonical {keep keep' : Path × α → Bool}
    (same : ∀ key value, keep' (key.canonical, value) = keep (key, value)) :
    canonical (List.filter keep map) = List.filter keep' map.canonical := by
  simp only [canonical, List.filter_map]
  congr 2
  funext item
  exact (same item.1 item.2).symm

@[simp] theorem erase_canonical :
    (map.erase path).canonical = map.canonical.erase path.canonical :=
  filter_canonical fun key value => by simp

@[simp] theorem set_canonical :
    (map.set path value).canonical = map.canonical.set path.canonical value := by
  unfold set
  rw [contains_canonical]
  split
  · simp only [canonical, List.map_map]
    congr 1
    funext item
    by_cases here : item.1.Same path <;> simp [here]
  · simp [canonical]

end PathMap

/-! ### Entries -/

def Entry.canonical (entry : Entry) : Entry := { entry with path := entry.path.canonical }

def Metadata.canonical (metadata : Metadata) : Metadata :=
  { metadata with path := metadata.path.canonical }

namespace Entry

variable (entry : Entry)

@[simp] theorem canonical_canonical : entry.canonical.canonical = entry.canonical := by
  simp [canonical]

theorem create_canonical (path : Path) (size : Nat) (modified : Modified) :
    create path.canonical size modified = (create path size modified).map canonical := by
  unfold create
  split <;> rfl

theorem write_canonical (offset : Nat) (data : Bytes) :
    entry.canonical.write offset data
      = (entry.write offset data).map fun done => (done.1, done.2.canonical) := by
  cases stored : entry.content with
  | none => simp [write, content?, canonical, stored, bind, Except.bind, Except.map]
  | some content =>
      simp only [write, content?, canonical, stored, bind, Except.bind]
      split <;> rfl

theorem truncate_canonical (size : Nat) :
    entry.canonical.truncate size = (entry.truncate size).map canonical := by
  cases stored : entry.content with
  | none => simp [truncate, content?, canonical, stored, bind, Except.bind, Except.map]
  | some content =>
      simp only [truncate, content?, canonical, stored, bind, Except.bind]
      split <;> rfl

theorem store_canonical (offset : Nat) (data : Bytes) :
    entry.canonical.store offset data = (entry.store offset data).map canonical := by
  cases stored : entry.content with
  | none => simp [store, content?, canonical, stored, bind, Except.bind, Except.map]
  | some content => simp [store, content?, canonical, stored, bind, Except.bind, Except.map]

theorem releaseHandle?_canonical :
    entry.canonical.releaseHandle?
      = entry.releaseHandle?.map fun left => (left.1, left.2.canonical) := by
  unfold releaseHandle?
  simp only [canonical]
  split <;> rfl

theorem metadata_canonical : entry.canonical.metadata = entry.metadata.map Metadata.canonical := by
  cases stored : entry.content with
  | none => simp [metadata, size, content?, canonical, stored, Except.map]
  | some content =>
      simp [metadata, size, content?, canonical, stored, Except.map, Metadata.ofFile,
        Metadata.canonical, Path.fileName?, Path.components_canonical]

end Entry

/-! ### Loads -/

def Reply.canonical : Reply → Reply
  | .failed cause => .failed cause.canonical
  | .accepted => .accepted
  | .chunk data => .chunk data
  | .ended => .ended

def Fetch.State.canonical : Fetch.State → Fetch.State
  | .failed error => .failed error.canonical
  | .planned => .planned
  | .asked call => .asked call
  | .finished => .finished

def Fetch.canonical (fetch : Fetch) : Fetch := { fetch with state := fetch.state.canonical }

def Load.canonical (load : Load) : Load :=
  ⟨load.path.canonical, load.fetches.map Fetch.canonical⟩

@[simp] theorem Fetch.canonical_canonical (fetch : Fetch) :
    fetch.canonical.canonical = fetch.canonical := by
  obtain ⟨gap, received, state⟩ := fetch
  cases state <;> simp [canonical, State.canonical]

@[simp] theorem Load.canonical_canonical (load : Load) :
    load.canonical.canonical = load.canonical := by
  simp [canonical]

/-- No store fails because of a remote store. -/
theorem Entry.error_of_store {entry : Entry} {offset : Nat} {data : Bytes} {error : EntryError}
    (failed : entry.store offset data = .error error) : error.canonical = error := by
  cases stored : entry.content with
  | none =>
      simp only [store, content?, stored, bind, Except.bind] at failed
      cases failed
      rfl
  | some content => simp [store, content?, stored, bind, Except.bind] at failed

theorem Fetch.receive_canonical (fetch : Fetch) (entry : Entry) (reply : Reply) :
    fetch.canonical.receive entry.canonical reply.canonical
      = ((fetch.receive entry reply).1.canonical, (fetch.receive entry reply).2.canonical) := by
  cases reply with
  | accepted | ended | failed => rfl
  | chunk data =>
      simp only [receive, Reply.canonical]
      rw [show fetch.canonical.gap = fetch.gap from rfl,
        show fetch.canonical.received = fetch.received from rfl, Entry.store_canonical]
      cases stored : entry.store (fetch.gap.lo + fetch.received)
          (data.take (fetch.gap.length - fetch.received)) with
      | error error =>
          simp only [Except.map, canonical, State.canonical, Entry.error_of_store stored]
      | ok after =>
          simp only [Except.map]
          split <;> rfl

namespace Load

variable (load : Load)

theorem start_canonical (entry : Entry) (offset count : Nat) :
    start entry.canonical offset count = (start entry offset count).map canonical := by
  cases stored : entry.content with
  | none => simp [start, Entry.missing, Entry.content?, Entry.canonical, stored, bind, Except.bind,
      Except.map]
  | some content =>
      simp only [start, Entry.missing, Entry.content?, Entry.canonical, stored, bind, Except.bind]
      split
      · rfl
      · simp [Except.map, canonical, Fetch.canonical, Fetch.State.canonical]

/-- No load fails at its start because of a remote store. -/
theorem error_of_start {entry : Entry} {offset count : Nat} {error : EntryError}
    (failed : start entry offset count = .error error) : error.canonical = error := by
  cases stored : entry.content with
  | none =>
      simp only [start, Entry.missing, Entry.content?, stored, bind, Except.bind] at failed
      cases failed
      rfl
  | some content =>
      simp only [start, Entry.missing, Entry.content?, stored, bind, Except.bind] at failed
      split at failed
      · cases failed
        rfl
      · cases failed

theorem failure?_canonical : load.canonical.failure? = load.failure?.map EntryError.canonical := by
  simp only [failure?, canonical, List.findSome?_map, List.map_findSome?]
  congr 1
  funext fetch
  obtain ⟨gap, received, state⟩ := fetch
  cases state <;> rfl

theorem outcomeInOrder_canonical (fetches : List Fetch) :
    outcomeInOrder (fetches.map Fetch.canonical)
      = (outcomeInOrder fetches).map (Except.mapError EntryError.canonical) := by
  induction fetches with
  | nil => rfl
  | cons fetch fetches ih =>
      obtain ⟨gap, received, state⟩ := fetch
      cases state with
      | finished => exact ih
      | planned | asked | failed => rfl

theorem outcome?_canonical :
    load.canonical.outcome? = load.outcome?.map (Except.mapError EntryError.canonical) := by
  simp only [outcome?, failure?_canonical]
  cases load.failure? with
  | none => exact outcomeInOrder_canonical load.fetches
  | some error =>
      simp only [Option.map_some, canonical, List.length_map]
      split
      · rfl
      · exact outcomeInOrder_canonical load.fetches

theorem ask_canonical (i : Nat) (call : CallId) :
    load.canonical.ask i call = (load.ask i call).canonical := by
  simp only [ask, canonical, Load.mk.injEq, true_and]
  exact modify_map fun fetch => rfl

theorem receive_canonical (i : Nat) (entry : Entry) (reply : Reply) :
    load.canonical.receive i entry.canonical reply.canonical
      = ((load.receive i entry reply).1.canonical, (load.receive i entry reply).2.canonical) := by
  simp only [receive, canonical, List.getElem?_map]
  cases found : load.fetches[i]? with
  | none => rfl
  | some fetch =>
      have turn := fetch.receive_canonical entry reply
      obtain ⟨gap, received, state⟩ := fetch
      cases state with
      | asked call =>
          have shape : Fetch.canonical ⟨gap, received, .asked call⟩
              = ⟨gap, received, .asked call⟩ := rfl
          rw [shape] at turn
          simp only [Option.map_some, shape, turn, List.map_set]
      | planned | finished | failed => rfl

end Load

end SparseCache
