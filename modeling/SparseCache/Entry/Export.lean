import SparseCache.Entry.Basic
import SparseCache.FileTree.Change

namespace SparseCache

/-! Copying the content of an entry out of the cache. -/

/-- Bytes are copied in pieces of this size. -/
def copyStep : Nat := 64 * 1024

/-- The pieces of a file that nothing disturbs. -/
def Content.copied (content : Content) : List Bytes :=
  ((⟨0, content.size⟩ : Span).pieces copyStep).map content.read

/-- A copy under way.  The length of the file is taken once, at the beginning; each piece is read
for itself, and what happens to the file between two pieces shows in the later one. -/
structure Copy where
  size : Nat
  pos : Nat := 0
  /-- The pieces read so far. -/
  taken : List Bytes := []
deriving DecidableEq, Repr

namespace Copy

def isThrough (copy : Copy) : Bool := decide (copy.size ≤ copy.pos)

/-- What is to be read next. -/
def piece (copy : Copy) : Span := ⟨copy.pos, min copy.size (copy.pos + copyStep)⟩

/-- Reads one more piece, all of it or nothing. -/
def next (copy : Copy) (content : Content) : Except IoError Copy :=
  if copy.piece.hi ≤ content.size then
    .ok { copy with pos := copy.piece.hi, taken := copy.taken ++ [content.read copy.piece] }
  else .error .fileTooShort

end Copy

/-- Where bytes are copied to.  It may take only so many bytes at a time and
only so many in all; when it has no room left it fails with `whenFull` or takes
nothing, which the copying side reports as a full sink. -/
structure Sink where
  perCall : Option Nat := none
  room : Option Nat := none
  whenFull : Option IoError := none
  whenFlushed : Option IoError := none
deriving DecidableEq, Repr

namespace Sink

/-- What the sink takes of `bytes`, and why it took no more. -/
def accept (sink : Sink) (bytes : Bytes) : Bytes × Except IoError Sink :=
  if bytes.isEmpty then ([], .ok sink)
  else match sink.room, sink.perCall with
    | some 0, _ => ([], .error (sink.whenFull.getD .sinkFull))
    | _, some 0 => ([], .error .sinkFull)
    | none, _ => (bytes, .ok sink)
    | some room, _ =>
      if bytes.length ≤ room then
        (bytes, .ok { sink with room := some (room - bytes.length) })
      else (bytes.take room, .error (sink.whenFull.getD .sinkFull))

/-- Hands over piece after piece until one is refused, then flushes. -/
def acceptAll (sink : Sink) : List Bytes → Bytes × Except IoError Unit
  | [] => ([], match sink.whenFlushed with
    | some cause => .error cause
    | none => .ok ())
  | piece :: pieces =>
    match sink.accept piece with
    | (taken, .error cause) => (taken, .error cause)
    | (taken, .ok sink) =>
      let (more, result) := sink.acceptAll pieces
      (taken ++ more, result)

end Sink

namespace Entry

/-- Copies the file into `sink`: the length copied, or why it stopped, and the
bytes that arrived. -/
def persistInto (entry : Entry) (sink : Sink) : Except EntryError Nat × Bytes :=
  match entry.content? with
  | .error error => (.error error, [])
  | .ok content =>
    let (taken, result) := sink.acceptAll content.copied
    match result with
    | .error cause => (.error (.io cause), taken)
    | .ok () => (.ok content.size, taken)

/-- Copies the file to a new file at `path`, where there must be nothing, as far as `sink` takes
it.  The new file is made first, and stays whatever comes of the copying. -/
def persistThrough (entry : Entry) (sink : Sink) (path : Path) (tree : FileTree) :
    Except EntryError Nat × FileTree :=
  match tree.createNew path with
  | .error cause => (.error (.io cause), tree)
  | .ok (location, tree) =>
    let (result, taken) := entry.persistInto sink
    (result, tree.setContent location ((Content.zeros 0).write 0 taken))

/-- Copies the file to a new file on a disk that has room for it. -/
def persistTo (entry : Entry) (path : Path) (tree : FileTree) :
    Except EntryError Nat × FileTree :=
  entry.persistThrough {} path tree
end Entry

end SparseCache
