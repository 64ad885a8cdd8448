import SparseCache.Scratch.Basic

namespace SparseCache

/-! Claiming and releasing a private directory. -/

/-! ### Leftovers -/

namespace FileTree

/-- Whether the private directory `directory` belongs to a mount that lives: its
lock file can be opened, and somebody else holds the lock. -/
def isHeld (tree : FileTree) (locked : List Nat) (directory : Location) : Except Int Bool :=
  match tree.reach directory [ScratchDir.lockName] with
  | .ok location => .ok ((tree.place? location).any fun place => locked.contains place.id)
  | .error code => if code = SystemError.noEntry then .ok false else .error code

/-- Whether the thing called `name` in the shared directory `root` is to stay. -/
def stays (tree : FileTree) (locked : List Nat) (root : Location) (name : Bytes) :
    Except Int Bool :=
  if name = ScratchDir.markerName then .ok true
  else if tree.node? (root ++ [name]) = some .directory
      ∧ ScratchDir.directoryMark.isPrefixOf name then
    tree.isHeld locked (root ++ [name])
  else .ok false

/-- Removes what is not to stay of the things listed.  What was removed before a
failure is gone. -/
def sweep (locked : List Nat) (root : Location) :
    List Bytes → FileTree → Except Int Unit × FileTree
  | [], tree => (.ok (), tree)
  | name :: names, tree =>
    match tree.stays locked root name with
    | .error code => (.error code, tree)
    | .ok true => sweep locked root names tree
    | .ok false => sweep locked root names (tree.remove (root ++ [name]))

/-- Opens the marker of the shared directory `root` and yields its identity.  It is
made if it is missing. -/
def openMarker (tree : FileTree) (root : Location) : Except Int (Nat × FileTree) :=
  match tree.walk anywhere linkLimit root [ScratchDir.markerName] with
  | .error code => .error code
  | .ok (.vacant location) => .ok (tree.next, tree.add location (.file (.zeros 0)))
  | .ok (.taken location) =>
    match tree.place? location with
    | some { id, node := .file _, .. } => .ok (id, tree)
    | _ => .error SystemError.isDirectory

def isMarked (tree : FileTree) (root : Location) : Except Int Bool :=
  match tree.reach root [ScratchDir.markerName] with
  | .ok _ => .ok true
  | .error code => if code = SystemError.noEntry then .ok false else .error code

/-- Finds the directory to share, and makes it if it is missing.  One that is there
must be empty or carry the marker. -/
def shared (tree : FileTree) (path : Path) : Except ScratchError Location × FileTree :=
  match tree.canonical path with
  | .ok root =>
    if tree.node? root ≠ some .directory then
      (.error (.notDirectory (.ofLocation root)), tree)
    else
      match tree.isMarked root with
      | .error code => (.error (.io (.system code)), tree)
      | .ok marked =>
        if marked ∨ tree.children root = [] then (.ok root, tree)
        else (.error (.foreignContents (.ofLocation root)), tree)
  | .error error =>
    if error.kind = .notFound then
      match tree.makeDirectories path with
      | (.error error, tree) => (.error (.io error), tree)
      | (.ok (), tree) => ((tree.canonical path).mapError .io, tree)
    else (.error (.io error), tree)

end FileTree

namespace Disk

section

variable [Host]

/-- Removes the leftovers in the shared directory `root` and makes a private
directory in it, its lock held.  The marker is locked meanwhile. -/
def occupy (disk : Disk) (root : Location) : Except ScratchError ScratchDir × Disk :=
  match disk.tree.openMarker root with
  | .error code => (.error (.io (.system code)), disk)
  | .ok (marker, tree) =>
    match tree.sweep (marker :: disk.locked) root (Host.listing tree root) with
    | (.error code, tree) => (.error (.io (.system code)), { disk with tree })
    | (.ok (), tree) =>
      let (name, disk) := { disk with tree }.draw ScratchDir.directoryMark root
      let directory := root ++ [name]
      let tree := disk.tree.add directory .directory
      let lock := tree.next
      (.ok ⟨directory, lock⟩, { disk with
        tree := tree.add (directory ++ [ScratchDir.lockName]) (.file (.zeros 0))
        locked := lock :: disk.locked })

/-- Claims a private directory in the directory that `path` names. -/
def claim (disk : Disk) (path : Path) : Except ScratchError ScratchDir × Disk :=
  match disk.tree.shared path with
  | (.error error, tree) => (.error error, { disk with tree })
  | (.ok root, tree) => { disk with tree }.occupy root

end

/-- Gives a private directory up, with all files in it. -/
def release (disk : Disk) (scratch : ScratchDir) : Disk :=
  { disk with
    tree := disk.tree.remove scratch.directory
    locked := disk.locked.erase scratch.lock }

/-! ### Files -/

section

variable [Host]

/-- Makes an empty file with a random name. -/
def makeFile (disk : Disk) (scratch : ScratchDir) (mark : Bytes) (size : Nat) :
    Except IoError ScratchFile × Disk :=
  match disk.tree.reach [] scratch.directory with
  | .error code => (.error (.temporaryFile code), disk)
  | .ok directory =>
    if disk.tree.node? directory ≠ some .directory then
      (.error (.temporaryFile SystemError.notDirectory), disk)
    else if size < lengthLimit then
      let (name, disk) := disk.draw mark directory
      let location := directory ++ [name]
      (.ok ⟨location, size⟩,
        { disk with tree := disk.tree.add location (.file (.zeros size)) })
    else (.error .sizeTooLarge, disk)

/-- Makes a file of `size` bytes, none of which takes up room. -/
def createSparse (disk : Disk) (scratch : ScratchDir) (size : Nat) :
    Except IoError ScratchFile × Disk :=
  disk.makeFile scratch ScratchDir.entryMark size

def createSnapshot (disk : Disk) (scratch : ScratchDir) :
    Except IoError ScratchFile × Disk :=
  disk.makeFile scratch ScratchDir.uploadMark 0

end

/-- Takes a file away, unless a directory goes by its name now. -/
def discard (disk : Disk) (file : ScratchFile) : Disk :=
  if disk.tree.node? file.location = some .directory then disk
  else { disk with tree := disk.tree.remove file.location }

/-! ### Other programs -/

/-- Takes an exclusive lock on what is at the end of a path, and yields its
identity. -/
def lock (disk : Disk) (path : Path) : Except IoError (Nat × Disk) :=
  match disk.tree.resolve path with
  | .error error => .error error
  | .ok location =>
    match disk.tree.place? location with
    | some place => .ok (place.id, { disk with locked := place.id :: disk.locked })
    | none => .error (.system SystemError.noEntry)

def unlock (disk : Disk) (id : Nat) : Disk := { disk with locked := disk.locked.erase id }

end Disk

end SparseCache
