import SparseCache.Path
import SparseCache.Timestamp

namespace SparseCache

/-! What is known of a file without its content. -/

structure Metadata where
  name : String
  path : Path
  modified : Modified
  size : Nat
deriving DecidableEq, Repr

/-- A file is called by the last component of its path; a path that ends in
none has the empty name. -/
def Metadata.ofFile (path : Path) (modified : Modified) (size : Nat) : Metadata where
  name := (path.fileName?.map Text.decodeLossy).getD ""
  path := path
  modified := modified
  size := size

end SparseCache
