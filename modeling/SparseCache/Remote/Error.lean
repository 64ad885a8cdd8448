import SparseCache.IoError
import SparseCache.Path

namespace SparseCache

/-! Failures that a remote store reports. -/

inductive RemoteError
  | notFound (path : Path)
  | alreadyExists (path : Path)
  | typeMismatch (path : Path)
  | provider (text : String)
  | io (cause : IoError)
deriving DecidableEq, Repr

namespace RemoteError

def message? : RemoteError → Option String
  | .notFound path => some ("item not found: " ++ path.shown)
  | .alreadyExists path => some ("item already exists: " ++ path.shown)
  | .typeMismatch path => some ("item has an unexpected type: " ++ path.shown)
  | .provider text => some ("remote provider error: " ++ text)
  | .io cause => cause.message?.map ("io error: " ++ ·)

def code : RemoteError → Int
  | .notFound _ => SystemError.noEntry
  | .alreadyExists _ => SystemError.entryExists
  | .typeMismatch _ => SystemError.notDirectory
  | .provider _ => SystemError.ioFailure
  | .io cause => cause.code

end RemoteError

end SparseCache
