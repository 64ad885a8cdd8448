import SparseCache.Remote.Error

namespace SparseCache

/-! Why an operation on a cache entry fails. -/

inductive EntryError
  | allocation (cause : IoError)
  | pastEnd (offset size : Nat)
  | transfer (cause : RemoteError)
  | io (cause : IoError)
  | closed
deriving DecidableEq, Repr

namespace EntryError

def isPastEnd : EntryError → Bool
  | .pastEnd _ _ => true
  | _ => false

def code : EntryError → Int
  | .allocation cause => cause.code
  | .pastEnd _ _ => SystemError.noDevice
  | .transfer cause => cause.code
  | .io cause => cause.code
  | .closed => SystemError.badDescriptor

/-- The text, unless it would show a random name. -/
def message? : EntryError → Option String
  | .allocation cause => cause.message?.map ("failed to allocate backing file: " ++ ·)
  | .pastEnd offset size =>
    some ("offset " ++ toString offset ++ " is beyond the end of the file ("
      ++ toString size ++ " bytes)")
  | .transfer cause => cause.message?.map ("remote transfer failed: " ++ ·)
  | .io cause => cause.message?.map ("local io error: " ++ ·)
  | .closed => some "cache entry is closed"

end EntryError

end SparseCache
