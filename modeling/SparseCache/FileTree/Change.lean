import SparseCache.FileTree.Lookup

namespace SparseCache.FileTree

/-! Making, writing and reading by path. -/

variable (tree : FileTree)

/-- The location that a path names, where nothing must be yet, not even a link. -/
def freeLocation (path : Path) : Except IoError Location :=
  match tree.lastStep path with
  | .error error => .error error
  | .ok (_, none) => .error (.system SystemError.entryExists)
  | .ok (directory, some name) =>
    match tree.node? (directory ++ [name]) with
    | some _ => .error (.system SystemError.entryExists)
    | none => .ok (directory ++ [name])

def makeDirectory (path : Path) : Except IoError FileTree :=
  (tree.freeLocation path).map (tree.add · .directory)

/-- Whether a path names a directory by the slash at its end. -/
def asksForDirectory (path : Path) : Bool := path.spelling.getLast? == some Path.slash

def makeLink (path target : Path) : Except IoError FileTree :=
  match refusal? target, tree.freeLocation path with
  | some error, _ => .error error
  | none, .error error => .error error
  | none, .ok location =>
    if asksForDirectory path then .error (.system SystemError.noEntry)
    else .ok (tree.add location (.link target))

def createNew (path : Path) : Except IoError (Location × FileTree) :=
  match tree.lastStep path with
  | .error error => .error error
  | .ok (_, none) => .error (.system SystemError.entryExists)
  | .ok (_, some _) =>
    if asksForDirectory path then .error (.system SystemError.isDirectory)
    else
      (tree.freeLocation path).map fun location =>
        (location, tree.add location (.file (.zeros 0)))

/-- A path and those of the directories it lies in, without their trailing `.` and
slashes, up to but without the root or the place where a relative path starts. -/
def ancestors (path : Path) : List Path :=
  let names := path.components.filterMap fun component =>
    match component with
    | .root => none
    | .current => some current
    | .parent => some parent
    | .normal name => some name
  let spell (names : List Bytes) : Path :=
    if path.isAbsolute then Path.ofLocation names
    else ⟨(Path.ofLocation names).spelling.tail⟩
  let shorter := (List.range names.length).filterMap fun count =>
    if count = 0 then none else some (spell (names.take count))
  if names = [] then [] else path :: shorter.reverse

/-- Makes the first of some directories, and as many of those around it, listed
outwards, as are missing. -/
def makeOutwards : List Path → FileTree → Except IoError Unit × FileTree
  | [], tree => (.ok (), tree)
  | path :: around, tree =>
    match tree.makeDirectory path with
    | .ok tree => (.ok (), tree)
    | .error error =>
      if error.kind = .notFound then
        match makeOutwards around tree with
        | (.error error, tree) => (.error error, tree)
        | (.ok (), tree) =>
          match tree.makeDirectory path with
          | .ok tree => (.ok (), tree)
          | .error error =>
            if tree.isDirectory path then (.ok (), tree) else (.error error, tree)
      else if tree.isDirectory path then (.ok (), tree)
      else (.error error, tree)

/-- Makes a directory and those around it, as far as they are missing.  What was
made before a failure stays. -/
def makeDirectories (path : Path) : Except IoError Unit × FileTree :=
  makeOutwards (ancestors path) tree

/-- Writes a whole file, making it if it is missing. -/
def putBytes (path : Path) (bytes : Bytes) : Except IoError FileTree :=
  let content := (Content.zeros 0).write 0 bytes
  match tree.spot path with
  | .error error => .error error
  | .ok (.vacant location) => .ok (tree.add location (.file content))
  | .ok (.taken location) =>
    match tree.node? location with
    | some (.file _) => .ok (tree.setContent location content)
    | _ => .error (.system SystemError.isDirectory)

def bytesAt (path : Path) : Except IoError Bytes :=
  match tree.resolve path with
  | .error error => .error error
  | .ok location =>
    match tree.node? location with
    | some (.file content) => .ok content.bytes
    | _ => .error (.system SystemError.isDirectory)

/-- Takes away the directory at the end of a path, with all beneath it.  Of a link
only the link goes.  A path that ends in `.` or `..` names no directory to take away:
the one it leads to is left without what lies in it. -/
def removeAll (path : Path) : Except IoError Unit × FileTree :=
  match tree.lastStep path with
  | .error error => (.error error, tree)
  | .ok (_, none) =>
    match tree.resolve path with
    | .error error => (.error error, tree)
    | .ok location => (.error (.system SystemError.invalidArgument), tree.clear location)
  | .ok (directory, some name) =>
    let location := directory ++ [name]
    match tree.node? location with
    | none => (.error (.system SystemError.noEntry), tree)
    | some (.file _) => (.error (.system SystemError.notDirectory), tree)
    | some _ => (.ok (), tree.remove location)

end SparseCache.FileTree
