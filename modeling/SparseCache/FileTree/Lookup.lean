import SparseCache.FileTree.Basic

namespace SparseCache

/-! Where a path leads. -/

/-- The names to walk along.  A slash at the end asks for a directory, as a `.`
does. -/
def Path.steps (path : Path) : List Bytes :=
  let names := (Path.split path.spelling).filter (· ≠ [])
  if path.spelling.getLast? = some Path.slash then names ++ [[Path.dot]] else names

/-- The path without links that leads to a location. -/
def Path.ofLocation : Location → Path
  | [] => ⟨[Path.slash]⟩
  | names => ⟨names.flatMap (Path.slash :: ·)⟩

/-- The end of a path: a place, or a free name in a directory. -/
inductive Spot
  | taken (location : Location)
  | vacant (location : Location)
deriving DecidableEq, Repr

namespace FileTree

/-- No name is longer. -/
def nameLimit : Nat := 255

/-- Paths that are handed to the system in one piece are shorter. -/
def pathLimit : Nat := 4096

/-- No path leads over more links. -/
def linkLimit : Nat := 40

def current : Bytes := [Path.dot]

def parent : Bytes := [Path.dot, Path.dot]

/-- Follows `names` from `here`, over `links` links at most, and a link at the end
too, as long as it comes by locations that are `near`.  What refuses is a system
error. -/
def walk (tree : FileTree) (near : Location → Bool) (links : Nat) (here : Location)
    (names : List Bytes) : Except Int Spot :=
  match names with
  | [] => .ok (.taken here)
  | name :: rest =>
    if tree.node? here ≠ some .directory then .error SystemError.notDirectory
    else if name = current then tree.walk near links here rest
    else if name = parent then tree.walk near links here.dropLast rest
    else if nameLimit < name.length ∨ !near (here ++ [name]) then
      .error SystemError.nameTooLong
    else
      match tree.node? (here ++ [name]) with
      | none =>
        if rest = [] then .ok (.vacant (here ++ [name])) else .error SystemError.noEntry
      | some (.link target) =>
        match links with
        | 0 => .error SystemError.tooManyLinks
        | links + 1 =>
          tree.walk near links (if target.isAbsolute then [] else here)
            (target.steps ++ rest)
      | some _ => tree.walk near links (here ++ [name]) rest
termination_by (links, names.length)

def anywhere : Location → Bool := fun _ => true

def landing : Except Int Spot → Except Int Location
  | .ok (.taken location) => .ok location
  | .ok (.vacant _) => .error SystemError.noEntry
  | .error code => .error code

def reach (tree : FileTree) (here : Location) (names : List Bytes) : Except Int Location :=
  landing (tree.walk anywhere linkLimit here names)

/-- What is wrong with a path whatever the tree holds and however it is followed. -/
def unusable? (path : Path) : Option IoError :=
  if path.spelling.contains 0 then
    some (.described .invalidInput "file name contained an unexpected NUL byte")
  else if path.spelling = [] then some (.system SystemError.noEntry)
  else none

def isShort (path : Path) : Bool := path.spelling.length < pathLimit

/-- What is wrong with a path that is handed to the system in one piece. -/
def refusal? (path : Path) : Option IoError :=
  match unusable? path with
  | some error => some error
  | none => if isShort path then none else some (.system SystemError.nameTooLong)

/-- The end of a path.  A path that does not start at the root does so all the
same: the root is where this program runs. -/
def spot (tree : FileTree) (path : Path) : Except IoError Spot :=
  match refusal? path with
  | some error => .error error
  | none => (tree.walk anywhere linkLimit [] path.steps).mapError .system

def resolve (tree : FileTree) (path : Path) : Except IoError Location :=
  match refusal? path with
  | some error => .error error
  | none => (tree.reach [] path.steps).mapError .system

/-- The place that a path leads to, found by one name after the other.  The path may
have any length then, but no place on the way may lie too deep to be spelled in one
piece. -/
def canonical (tree : FileTree) (path : Path) : Except IoError Location :=
  match unusable? path with
  | some error => .error error
  | none =>
    let near (location : Location) : Bool := isShort (.ofLocation location)
    (landing (tree.walk near linkLimit [] path.steps)).mapError .system

def isDirectory (tree : FileTree) (path : Path) : Bool :=
  match tree.resolve path with
  | .ok location => tree.node? location == some .directory
  | .error _ => false

/-- The directory in which the last name of a path is looked up, and that name.
A link there is not followed. -/
def lastStep (tree : FileTree) (path : Path) : Except IoError (Location × Option Bytes) :=
  match refusal? path with
  | some error => .error error
  | none =>
    let names := (Path.split path.spelling).filter (· ≠ [])
    match names.getLast? with
    | none => .ok ([], none)
    | some name =>
      match tree.reach [] names.dropLast with
      | .error code => .error (.system code)
      | .ok directory =>
        if tree.node? directory ≠ some .directory then .error (.system SystemError.notDirectory)
        else if name = current ∨ name = parent then .ok (directory, none)
        else if nameLimit < name.length then .error (.system SystemError.nameTooLong)
        else .ok (directory, some name)

end FileTree

end SparseCache
