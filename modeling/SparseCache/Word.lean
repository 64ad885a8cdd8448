import SparseCache.Bytes

namespace SparseCache.Word

/-! Arithmetic on 64-bit words that has no result where the exact one is no word.

A result that is there is the exact one.  So a computation in words that never
lacks a result is the same computation on plain numbers.
-/

def largest : Nat := 0xFFFFFFFFFFFFFFFF

/-- A number that has to be a word. -/
def fit? (n : Nat) : Option Nat := if n ≤ largest then some n else none

def add? (a b : Nat) : Option Nat := fit? (a + b)

def sub? (a b : Nat) : Option Nat := if b ≤ a then some (a - b) else none

/-- The sum, or the largest word if that is less. -/
def addCapped (a b : Nat) : Nat := min largest (a + b)

/-- The bytes from `lo` up to `hi`, if these bounds ascend and lie inside. -/
def slice? (bytes : Bytes) (lo hi : Nat) : Option Bytes :=
  if lo ≤ hi ∧ hi ≤ bytes.length then some ((bytes.take hi).drop lo) else none

variable {a b n lo hi : Nat} {bytes : Bytes}

theorem fit?_of_le (fits : n ≤ largest) : fit? n = some n := if_pos fits

theorem add?_of_le (fits : a + b ≤ largest) : add? a b = some (a + b) := fit?_of_le fits

theorem sub?_of_le (ascends : b ≤ a) : sub? a b = some (a - b) := if_pos ascends

theorem slice?_of_le (ascends : lo ≤ hi) (inside : hi ≤ bytes.length) :
    slice? bytes lo hi = some ((bytes.take hi).drop lo) :=
  if_pos ⟨ascends, inside⟩

/-- What is cut off at a word anyway may be summed up to the largest word only. -/
theorem min_addCapped (small : n ≤ largest) : min n (addCapped a b) = min n (a + b) := by
  simp only [addCapped]
  omega

end SparseCache.Word
