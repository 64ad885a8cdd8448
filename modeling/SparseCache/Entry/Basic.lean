import SparseCache.Content
import SparseCache.Entry.Error
import SparseCache.Remote.Metadata
import SparseCache.SpanSet

namespace SparseCache

/-! One cached file: a sparse local copy of a remote one.

An entry knows which offsets of its copy are `populated`, that is hold what the
file should hold.  Everything else is fetched when somebody asks for it.  Local
changes count up `version`; the entry is dirty while that is ahead of `clean`,
the last version known to be stored remotely.
-/

structure Entry where
  path : Path
  /-- The local copy, until the entry is closed. -/
  content : Option Content
  populated : SpanSet := ∅
  handles : Nat := 0
  /-- How often the last open handle went away. -/
  epoch : Nat := 0
  version : Nat := 0
  clean : Nat := 0
  modified : Modified
  /-- What the local copy held when the entry was closed.  Closing waits for whoever is copying
  the file, so that a copy under way goes on with this. -/
  left : Option Content := none
deriving DecidableEq

namespace Entry

def maxOffset : Nat := 0xFFFFFFFFFFFFFFFF

/-- A fresh entry of `size` bytes, none of them populated. -/
def create (path : Path) (size : Nat) (modified : Modified) : Except EntryError Entry :=
  if size < lengthLimit then .ok { path, content := some (.zeros size), modified }
  else .error (.allocation .sizeTooLarge)

def isOpen (entry : Entry) : Bool := entry.content.isSome

def content? (entry : Entry) : Except EntryError Content :=
  match entry.content with
  | some content => .ok content
  | none => .error .closed

/-- Gives up the local copy. -/
def close (entry : Entry) : Entry :=
  { entry with content := none, left := entry.content <|> entry.left }

/-- What a copy that began while the entry was open reads. -/
def source? (entry : Entry) : Option Content := entry.content <|> entry.left

def size (entry : Entry) : Except EntryError Nat := entry.content?.map Content.size

def metadata (entry : Entry) : Except EntryError Metadata :=
  entry.size.map (Metadata.ofFile entry.path entry.modified)

def isDirty (entry : Entry) : Bool := decide (entry.clean < entry.version)

/-- Counts one more change, made now. -/
def touch (entry : Entry) : Entry :=
  { entry with modified := .now, version := entry.version + 1 }

/-- Everything up to `version` is stored remotely.  Later changes stay dirty. -/
def markClean (entry : Entry) (version : Nat) : Entry :=
  { entry with clean := max entry.clean version }

def setDirty (entry : Entry) (dirty : Bool) : Entry :=
  if dirty then entry.touch else entry.markClean entry.version

/-! ### Handles -/

def openHandle (entry : Entry) : Nat × Entry :=
  (entry.handles + 1, { entry with handles := entry.handles + 1 })

/-- One handle less, and how many are left; nothing if there was none. -/
def releaseHandle? (entry : Entry) : Option (Nat × Entry) :=
  match entry.handles with
  | 0 => none
  | 1 => some (0, { entry with handles := 0, epoch := entry.epoch + 1 })
  | left + 1 => some (left, { entry with handles := left })

/-! ### Local changes -/

/-- Puts `data` at `offset`.  Offsets skipped over past the old end read as zero
and have no remote counterpart, so they count as populated too. -/
def write (entry : Entry) (offset : Nat) (data : Bytes) : Except EntryError (Nat × Entry) := do
  let content ← entry.content?
  if data.isEmpty ∨ offset + data.length < lengthLimit then
    let skipped : Span := ⟨content.size, offset⟩
    let written : Span := ⟨offset, offset + data.length⟩
    let changed := { entry with
      content := some (content.write offset data)
      populated := (entry.populated.insert skipped).insert written }
    .ok (data.length, changed.touch)
  else .error (.io (.system SystemError.invalidArgument))

/-- Sets the size.  What is cut off is no longer populated; what is added has no
remote counterpart and is. -/
def truncate (entry : Entry) (size : Nat) : Except EntryError Entry := do
  let content ← entry.content?
  if size < lengthLimit then
    let populated :=
      if size < content.size then entry.populated.erase ⟨size, maxOffset⟩
      else entry.populated.insert ⟨content.size, size⟩
    .ok { entry with content := some (content.resize size), populated }.touch
  else .error (.io .sizeTooLarge)

/-! ### Remote bytes -/

/-- What has to be fetched before `count` bytes from `offset` on can be read. -/
def missing (entry : Entry) (offset count : Nat) : Except EntryError (List Span) := do
  let content ← entry.content?
  if content.size < offset then .error (.pastEnd offset content.size)
  else .ok (entry.populated.gaps ⟨offset, min content.size (offset + count)⟩)

/-- The part of `data`, which starts at `offset`, that falls on `piece`. -/
def sliceAt (data : Bytes) (offset : Nat) (piece : Span) : Bytes :=
  (data.drop (piece.lo - offset)).take piece.length

/-- Takes in fetched bytes.  Offsets populated in the meantime keep what they
hold, and what lies past the end is dropped. -/
def store (entry : Entry) (offset : Nat) (data : Bytes) : Except EntryError Entry := do
  let content ← entry.content?
  let arrived : Span := ⟨offset, min content.size (offset + data.length)⟩
  let filled := (entry.populated.gaps arrived).foldl
    (fun content piece => content.write piece.lo (sliceAt data offset piece)) content
  .ok { entry with content := some filled, populated := entry.populated.insert arrived }

/-- The local bytes of `count` offsets from `offset` on, as far as the file
reaches. -/
def readLocal (entry : Entry) (offset count : Nat) : Except EntryError Bytes := do
  let content ← entry.content?
  .ok (content.read ⟨offset, min content.size (offset + count)⟩)

/-! ### Text -/

def describe (entry : Entry) : String :=
  "OpenFile \x7b path: " ++ entry.path.quoted ++ ", open: " ++ toString entry.isOpen
    ++ ", handle_count: " ++ toString entry.handles ++ ", dirty: " ++ toString entry.isDirty
    ++ ", .. \x7d"

end Entry

end SparseCache
