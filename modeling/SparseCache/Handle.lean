namespace SparseCache

/-! Numbers for open files. -/

abbrev Handle := Nat

/-- The counter behind handles: each is above all earlier ones, and zero is
never given out. -/
structure HandleCounter where
  next : Handle := 1
deriving DecidableEq, Repr

def HandleCounter.issue (counter : HandleCounter) : Handle × HandleCounter :=
  (counter.next, ⟨counter.next + 1⟩)

end SparseCache
