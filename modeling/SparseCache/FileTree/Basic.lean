import SparseCache.Content
import SparseCache.IoError
import SparseCache.Path

namespace SparseCache

/-! Directories, files and links of a local disk.

A place is named by the directories that lead to it, without links and without
`..`, so two different locations are different places.  Every place has an
identity of its own, which a lock refers to: a file that takes the location of an
earlier one is another file.
-/

/-- The names that lead to a place from the root. -/
abbrev Location := List Bytes

inductive Node
  | directory
  | file (content : Content)
  | link (target : Path)
deriving DecidableEq, Repr

structure Place where
  location : Location
  id : Nat
  node : Node
deriving DecidableEq, Repr

/-- The places below the root, oldest first. -/
structure FileTree where
  places : List Place := []
  /-- The identity of the next place; the root has zero. -/
  next : Nat := 1
deriving DecidableEq, Repr

namespace FileTree

variable (tree : FileTree)

def root : Place := ⟨[], 0, .directory⟩

def place? (location : Location) : Option Place :=
  if location = [] then some root
  else tree.places.find? fun place => place.location == location

def node? (location : Location) : Option Node := (tree.place? location).map Place.node

/-- The name that a location has within `directory`, if it lies right in it. -/
def nameIn? (directory location : Location) : Option Bytes :=
  match location.getLast? with
  | some name => if location.dropLast = directory then some name else none
  | none => none

def children (directory : Location) : List Bytes :=
  tree.places.filterMap fun place => nameIn? directory place.location

/-- Puts a new place where there is none. -/
def add (location : Location) (node : Node) : FileTree :=
  ⟨tree.places ++ [⟨location, tree.next, node⟩], tree.next + 1⟩

/-- Takes a place away, with all that lies beneath it. -/
def remove (location : Location) : FileTree :=
  { tree with places := tree.places.filter fun place => !location.isPrefixOf place.location }

/-- Takes away all that lies beneath a place, but not the place itself. -/
def clear (location : Location) : FileTree :=
  { tree with places := tree.places.filter fun place =>
      place.location == location || !location.isPrefixOf place.location }

/-- Gives a file new content.  It stays the same file. -/
def setContent (location : Location) (content : Content) : FileTree :=
  { tree with
    places := tree.places.map fun place =>
      match place.node with
      | .file _ =>
        if place.location = location then { place with node := .file content } else place
      | _ => place }

end FileTree

end SparseCache
