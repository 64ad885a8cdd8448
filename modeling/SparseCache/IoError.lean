import SparseCache.SystemError

namespace SparseCache

/-! Failures of local input and output. -/

/-- What went wrong, as far as callers tell cases apart. -/
inductive IoErrorKind
  | notFound
  | permissionDenied
  | alreadyExists
  | notADirectory
  | isADirectory
  | directoryNotEmpty
  | filesystemLoop
  | invalidFilename
  | invalidInput
  | invalidData
  | writeZero
  | other
  | uncategorized
deriving DecidableEq, Repr

inductive IoError
  /-- The system refused, with this number. -/
  | system (code : Int)
  /-- A failure found without the system's help. -/
  | described (kind : IoErrorKind) (text : String)
  /-- A temporary file could not be made; the text would show its random name. -/
  | temporaryFile (code : Int)
deriving DecidableEq, Repr

namespace IoError

def kindOf (code : Int) : IoErrorKind :=
  if code = SystemError.noEntry then .notFound
  else if code = 1 ∨ code = 13 then .permissionDenied
  else if code = SystemError.entryExists then .alreadyExists
  else if code = SystemError.notDirectory then .notADirectory
  else if code = SystemError.isDirectory then .isADirectory
  else if code = SystemError.notEmpty then .directoryNotEmpty
  else if code = SystemError.tooManyLinks then .filesystemLoop
  else if code = SystemError.nameTooLong then .invalidFilename
  else if code = SystemError.invalidArgument then .invalidInput
  else .uncategorized

def kind : IoError → IoErrorKind
  | .system code => kindOf code
  | .described kind _ => kind
  | .temporaryFile code => kindOf code

/-- The system's number, where the system itself reported the failure. -/
def code? : IoError → Option Int
  | .system code => some code
  | .described _ _ => none
  | .temporaryFile _ => none

/-- The number handed on to a caller that knows nothing but numbers. -/
def code (error : IoError) : Int := error.code?.getD SystemError.ioFailure

/-- The text, unless it would show a random name. -/
def message? : IoError → Option String
  | .system code => some (SystemError.message code)
  | .described _ text => some text
  | .temporaryFile _ => none

/-- A size that no file can have. -/
def sizeTooLarge : IoError :=
  .described .invalidInput "number too large to fit in target type"

/-- A file that ends before what was to be read of it.  Its kind is none of those told apart. -/
def fileTooShort : IoError := .described .uncategorized "failed to fill whole buffer"

/-- A sink that takes no more bytes. -/
def sinkFull : IoError := .described .writeZero "failed to write whole buffer"

end IoError

end SparseCache
