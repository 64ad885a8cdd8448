import SparseCache.Path

namespace SparseCache

/-! Finite maps from locations.

A key is kept as it was first written; any spelling of the same location finds
it.
-/

abbrev PathMap (α : Type) := List (Path × α)

namespace PathMap

variable {α : Type}

def get? (map : PathMap α) (path : Path) : Option α :=
  (map.find? fun item => item.1.Same path).map (·.2)

def contains (map : PathMap α) (path : Path) : Bool := map.any fun item => item.1.Same path

def erase (map : PathMap α) (path : Path) : PathMap α :=
  map.filter fun item => !decide (item.1.Same path)

/-- Maps `path` to `value`.  A key that names the location already stays. -/
def set (map : PathMap α) (path : Path) (value : α) : PathMap α :=
  if map.contains path then
    map.map fun item => if item.1.Same path then (item.1, value) else item
  else map ++ [(path, value)]

end PathMap

end SparseCache
