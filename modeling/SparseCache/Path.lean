import SparseCache.Text.Quoted

namespace SparseCache

/-! Paths as written and as compared.

A path is kept in the spelling it was given.  Two spellings name the same
location when their components agree: repeated and trailing slashes do not
count, nor does a `.` anywhere but at the very start of a relative path.
-/

inductive Component
  | root
  | current
  | parent
  | normal (name : Bytes)
deriving DecidableEq, Repr, Inhabited

structure Path where
  spelling : Bytes
deriving DecidableEq, Repr, Inhabited

namespace Path

def ofString (text : String) : Path := ⟨Bytes.ofString text⟩

def slash : UInt8 := 0x2F

def dot : UInt8 := 0x2E

/-- The names between slashes, empty ones included. -/
def split (spelling : Bytes) : List Bytes :=
  spelling.foldr
    (fun b names =>
      if b = slash then [] :: names
      else match names with
        | [] => [[b]]
        | name :: names => (b :: name) :: names)
    [[]]

/-- What a name between slashes stands for, past the start of a path. -/
def component? (name : Bytes) : Option Component :=
  if name = [] ∨ name = [dot] then none
  else if name = [dot, dot] then some .parent
  else some (.normal name)

def isAbsolute (path : Path) : Bool := path.spelling.head? == some slash

def components (path : Path) : List Component :=
  let names := split path.spelling
  let rest := names.filterMap component?
  if path.isAbsolute then .root :: rest
  else if names.head? = some [dot] then .current :: rest
  else rest

/-- Both spellings name the same location. -/
def Same (p q : Path) : Prop := p.components = q.components

instance : DecidableRel Same := fun p q =>
  inferInstanceAs (Decidable (p.components = q.components))

theorem Same.refl (p : Path) : p.Same p := rfl

theorem Same.symm {p q : Path} (same : p.Same q) : q.Same p := Eq.symm same

theorem Same.trans {p q r : Path} (first : p.Same q) (second : q.Same r) : p.Same r :=
  Eq.trans first second

/-- `path` is `tree` or lies beneath it.  Whole components are compared. -/
def Within (path tree : Path) : Prop := tree.components <+: path.components

instance : DecidableRel Within := fun path tree =>
  inferInstanceAs (Decidable (tree.components <+: path.components))

/-- The last component, if it is a name. -/
def fileName? (path : Path) : Option Bytes :=
  match path.components.getLast? with
  | some (.normal name) => some name
  | _ => none

/-- `child` seen from `base`; an absolute `child` stands alone. -/
def join (base child : Path) : Path :=
  if child.isAbsolute ∨ base.spelling = [] then child
  else if base.spelling.getLast? = some slash then ⟨base.spelling ++ child.spelling⟩
  else ⟨base.spelling ++ slash :: child.spelling⟩

def text? (path : Path) : Option String := Text.decode? path.spelling

/-- The path as shown to a reader, who gets U+FFFD for what is no text. -/
def shown (path : Path) : String := Text.decodeLossy path.spelling

/-- The path in quotes, each byte recoverable. -/
def quoted (path : Path) : String := Text.quoteName path.spelling

end Path

end SparseCache
