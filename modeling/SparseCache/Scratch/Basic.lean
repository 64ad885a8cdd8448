import SparseCache.FileTree.Change

namespace SparseCache

/-! Private directories for local files inside a directory that mounts share.

The shared directory carries a marker, so that it is known for what it is.  Each
mount works in a subdirectory of its own and holds a lock on the lock file in it for
as long as it lives.
-/

/-- What a program takes from the system it runs on as it comes: the random names that are made
up, and the order in which a directory is listed. -/
class Host where
  /-- The `n`th random name that starts with `mark`. -/
  randomName (mark : Bytes) (n : Nat) : Bytes
  /-- The names in a directory as they are listed. -/
  listing (tree : FileTree) (directory : Location) : List Bytes
  marked (mark : Bytes) (n : Nat) : mark <+: randomName mark n
  /-- No name comes up twice. -/
  fresh {mark : Bytes} {n m : Nat} (same : randomName mark n = randomName mark m) : n = m
  /-- Each name in a directory is listed once. -/
  listed (tree : FileTree) (directory : Location) :
    (listing tree directory).Perm (tree.children directory)

/-- A disk as the programs on it share it. -/
structure Disk where
  tree : FileTree := {}
  /-- The places on which somebody holds an exclusive lock. -/
  locked : List Nat := []
  /-- How many random names were drawn so far. -/
  drawn : Nat := 0
deriving DecidableEq, Repr

/-- The private directory of a mount, and its locked lock file. -/
structure ScratchDir where
  directory : Location
  lock : Nat
deriving DecidableEq, Repr

/-- A file in a private directory.  It goes away with whoever holds it. -/
structure ScratchFile where
  location : Location
  size : Nat
deriving DecidableEq, Repr

inductive ScratchError
  | notDirectory (path : Path)
  /-- The directory is in use for something else. -/
  | foreignContents (path : Path)
  | io (cause : IoError)
deriving DecidableEq, Repr

namespace ScratchError

/-- The text, unless it would show a random name. -/
def message? : ScratchError → Option String
  | .notDirectory path => some ("Scratch path is not a directory: " ++ path.shown)
  | .foreignContents path =>
    some ("Scratch path contains data this app did not create: " ++ path.shown)
  | .io cause => cause.message?.map ("IO error while preparing scratch path: " ++ ·)

end ScratchError

namespace ScratchDir

def markerName : Bytes := .ofString ".cloudfs_cache"

def lockName : Bytes := .ofString ".lock"

/-- What the names of private directories start with. -/
def directoryMark : Bytes := .ofString "mount-"

def entryMark : Bytes := .ofString "entry-"

def uploadMark : Bytes := .ofString "upload-"

def path (scratch : ScratchDir) : Path := .ofLocation scratch.directory

end ScratchDir

/-! ### Random names -/

section

variable [Host]

/-- The next draw whose name is not taken, of `fuel` more draws at most. -/
def untaken (mark : Bytes) (taken : List Bytes) : Nat → Nat → Nat
  | 0, n => n
  | fuel + 1, n =>
    if taken.contains (Host.randomName mark n) then untaken mark taken fuel (n + 1) else n

namespace Disk

/-- Draws a name that is free in `directory`.  No name is drawn twice. -/
def draw (disk : Disk) (mark : Bytes) (directory : Location) : Bytes × Disk :=
  let taken := disk.tree.children directory
  let n := untaken mark taken taken.length disk.drawn
  (Host.randomName mark n, { disk with drawn := n + 1 })

end Disk

end

end SparseCache
