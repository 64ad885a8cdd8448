import SparseCache.Load
import SparseCache.PathMap

namespace SparseCache

/-! A remote store that answers as it was told to.

Each path has content and a script for how calls on it behave: what they
deliver, when they fail, and where they wait to be released.  A call keeps the
script and the content that it found when it started.
-/

/-- A failure that a script calls for, not yet tied to a path. -/
inductive Mishap
  | notFound
  | alreadyExists
  | typeMismatch
  | provider (text : String)
  | io (cause : IoError)
deriving DecidableEq, Repr

def Mishap.on (path : Path) : Mishap → RemoteError
  | .notFound => .notFound path
  | .alreadyExists => .alreadyExists path
  | .typeMismatch => .typeMismatch path
  | .provider text => .provider text
  | .io cause => .io cause

structure Script where
  /-- Read calls wait for a release before anything else. -/
  holdRead : Bool := false
  /-- Once so many bytes were delivered, every further answer waits. -/
  holdAfter : Option Nat := none
  /-- Write calls wait for a release before anything else. -/
  holdWrite : Bool := false
  readError : Option Mishap := none
  /-- The one offset at which `readError` strikes; without it, every one. -/
  errorOffset : Option Nat := none
  /-- How many bytes a read call delivers at most. -/
  limit : Option Nat := none
  /-- How many bytes more than that, or than was asked for, it adds. -/
  surplus : Nat := 0
  chunk : Nat := 16
  /-- An empty chunk comes before each chunk. -/
  empties : Bool := false
  /-- Ends the stream after `errorAfter` bytes. -/
  streamError : Option Mishap := none
  errorAfter : Nat := 0
  writeError : Option Mishap := none
deriving DecidableEq, Repr

abbrev ScriptId := Nat

/-- Answers yet to come, each with whether it waits for a release. -/
abbrev Answers := List (Bool × Reply)

namespace Script

def delivered (script : Script) (content : Bytes) (offset length : Nat) : Bytes :=
  let most := (match script.limit with
    | some limit => min length limit
    | none => length) + script.surplus
  let most := if script.streamError.isSome then min most script.errorAfter else most
  (content.drop offset).take most

/-- The chunks as answers; `sent` bytes have been delivered before. -/
def chunkAnswers (script : Script) : Nat → List Bytes → Answers
  | _, [] => []
  | sent, chunk :: chunks =>
    let held := match script.holdAfter with
      | some bound => decide (bound ≤ sent)
      | none => false
    let rest := script.chunkAnswers (sent + chunk.length) chunks
    if script.empties then (held, .chunk []) :: (held, .chunk chunk) :: rest
    else (held, .chunk chunk) :: rest

def readAnswers (script : Script) (content : Option Bytes) (path : Path)
    (offset length : Nat) : Answers :=
  let strikes := match script.errorOffset with
    | some only => offset == only
    | none => true
  match (if strikes then script.readError else none), content with
  | some mishap, _ => [(script.holdRead, .failed (mishap.on path))]
  | none, none => [(script.holdRead, .failed (.notFound path))]
  | none, some content =>
    let data := script.delivered content offset length
    let last : Answers := match script.streamError with
      | none => []
      | some mishap =>
        let held := match script.holdAfter with
          | some bound => decide (bound ≤ data.length)
          | none => false
        [(held, .failed (mishap.on path))]
    (script.holdRead, .accepted) :: (script.chunkAnswers 0 (data.chunks script.chunk) ++ last)

end Script

structure ReadCall where
  script : ScriptId
  answers : Answers
deriving DecidableEq, Repr

structure WriteCall where
  script : ScriptId
  held : Bool
  result : Except RemoteError Unit

structure RemoteItem where
  script : Script := {}
  /-- Changes whenever the script is replaced. -/
  scriptId : ScriptId
  content : Option Bytes := none
deriving DecidableEq, Repr

structure RemoteStore where
  items : PathMap RemoteItem := []
  nextScript : ScriptId := 1
  /-- Scripts that hold nothing any more. -/
  released : List ScriptId := []

namespace RemoteStore

variable (store : RemoteStore)

/-- A path that nobody mentioned has no content and an empty script. -/
def item (path : Path) : RemoteItem := (store.items.get? path).getD { scriptId := 0 }

def content? (path : Path) : Option Bytes := (store.item path).content

/-- Replaces the script of a path, and its content if some is given. -/
def replace (path : Path) (script : Script) (content : Option (Option Bytes)) : RemoteStore :=
  let content := content.getD (store.content? path)
  { store with
    items := store.items.set path { script, scriptId := store.nextScript, content }
    nextScript := store.nextScript + 1 }

def put (path : Path) (data : Bytes) : RemoteStore :=
  { store with items := store.items.set path { store.item path with content := some data } }

/-- Lets everything continue that waits on the present script of `path`. -/
def release (path : Path) : RemoteStore :=
  { store with released := (store.item path).scriptId :: store.released }

def isReleased (script : ScriptId) : Bool := store.released.contains script

def startRead (path : Path) (offset length : Nat) : ReadCall :=
  let item := store.item path
  ⟨item.scriptId, item.script.readAnswers item.content path offset length⟩

def startWrite (path : Path) : WriteCall :=
  let item := store.item path
  ⟨item.scriptId, item.script.holdWrite,
    match item.script.writeError with
    | some mishap => .error (mishap.on path)
    | none => .ok ()⟩

end RemoteStore

end SparseCache
