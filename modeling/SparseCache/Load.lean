import SparseCache.Entry.Basic

namespace SparseCache

/-! Fetching what an entry lacks.

A load asks the remote store for every gap of the wanted range at once and takes
the answers in whatever order they arrive.  It holds no lock while it waits: the
entry may change between any two answers.
-/

abbrev CallId := Nat

/-- One answer to a read call: that it is accepted, then chunks of bytes, then
the end; or a failure at any point. -/
inductive Reply
  | accepted
  | chunk (data : Bytes)
  | ended
  | failed (cause : RemoteError)
deriving DecidableEq, Repr

inductive Fetch.State
  | planned
  | asked (call : CallId)
  | finished
  | failed (error : EntryError)
deriving DecidableEq, Repr

structure Fetch where
  gap : Span
  /-- How many bytes of the gap have arrived. -/
  received : Nat := 0
  state : Fetch.State := .planned
deriving DecidableEq, Repr

namespace Fetch

def call? (fetch : Fetch) : Option CallId :=
  match fetch.state with
  | .asked call => some call
  | _ => none

/-- Takes an answer.  A chunk is stored as far as it fits into the gap; a full
gap needs no further answer. -/
def receive (fetch : Fetch) (entry : Entry) : Reply → Fetch × Entry
  | .accepted => (fetch, entry)
  | .ended => ({ fetch with state := .finished }, entry)
  | .failed cause => ({ fetch with state := .failed (.transfer cause) }, entry)
  | .chunk data =>
    let fitting := data.take (fetch.gap.length - fetch.received)
    match entry.store (fetch.gap.lo + fetch.received) fitting with
    | .error error => ({ fetch with state := .failed error }, entry)
    | .ok stored =>
      let received := fetch.received + fitting.length
      if received < fetch.gap.length then ({ fetch with received }, stored)
      else ({ fetch with received, state := .finished }, stored)

end Fetch

structure Load where
  /-- The path of the entry when the load began. -/
  path : Path
  fetches : List Fetch
deriving DecidableEq, Repr

namespace Load

/-- Up to this many fetches, the first failure ends the load at once; with more,
results count in the order of the gaps, and a failure has to wait for the gaps
before it.  The number is that of the `futures` library, whose `try_join_all`
polls up to thirty at once in place and puts more of them in an ordered queue. -/
def promptLimit : Nat := 30

def start (entry : Entry) (offset count : Nat) : Except EntryError Load :=
  (entry.missing offset count).map fun gaps =>
    ⟨entry.path, gaps.map fun gap => { gap }⟩

/-- The result of fetches that count in order. -/
def outcomeInOrder : List Fetch → Option (Except EntryError Unit)
  | [] => some (.ok ())
  | fetch :: fetches =>
    match fetch.state with
    | .finished => outcomeInOrder fetches
    | .failed error => some (.error error)
    | _ => none

def failure? (load : Load) : Option EntryError :=
  load.fetches.findSome? fun fetch =>
    match fetch.state with
    | .failed error => some error
    | _ => none

/-- How the load ended, if it has. -/
def outcome? (load : Load) : Option (Except EntryError Unit) :=
  match load.failure? with
  | some error =>
    if load.fetches.length ≤ promptLimit then some (.error error)
    else outcomeInOrder load.fetches
  | none => outcomeInOrder load.fetches

/-- Records that fetch `i` has been asked for by `call`. -/
def ask (load : Load) (i : Nat) (call : CallId) : Load :=
  { load with fetches := load.fetches.modify i fun fetch =>
      { fetch with state := .asked call } }

/-- Gives an answer to fetch `i`, if it is waiting for one. -/
def receive (load : Load) (i : Nat) (entry : Entry) (reply : Reply) : Load × Entry :=
  match load.fetches[i]? with
  | some fetch =>
    match fetch.state with
    | .asked _ =>
      let (fetch, entry) := fetch.receive entry reply
      ({ load with fetches := load.fetches.set i fetch }, entry)
    | _ => (load, entry)
  | none => (load, entry)

end Load

end SparseCache
