namespace SparseCache

/-! Points in time. -/

/-- A time as whole seconds since the Unix epoch, rounded down, and the rest in
nanoseconds. -/
structure Timestamp where
  seconds : Int := 0
  nanos : Nat := 0
deriving DecidableEq, Repr, Inhabited

/-- When something was last modified: a time that was handed in, or a moment
that the system clock was asked for, whose reading the model leaves open. -/
inductive Modified
  | given (time : Timestamp)
  | now
deriving DecidableEq, Repr, Inhabited

end SparseCache
