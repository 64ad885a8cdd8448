namespace SparseCache

/-! Half-open spans of byte offsets, the unit in which a cache entry remembers
what it holds and asks for what it lacks. -/

/-- The offsets from `lo` up to, but not including, `hi`. -/
structure Span where
  lo : Nat
  hi : Nat
deriving DecidableEq, Repr, Inhabited

namespace Span

variable {s t : Span} {p : Nat}

instance : Membership Nat Span := ⟨fun s p => s.lo ≤ p ∧ p < s.hi⟩

theorem mem_iff : p ∈ s ↔ s.lo ≤ p ∧ p < s.hi := Iff.rfl

instance : Decidable (p ∈ s) := inferInstanceAs (Decidable (_ ∧ _))

/-- A span whose bounds meet or cross holds no offset. -/
def isEmpty (s : Span) : Bool := decide (s.hi ≤ s.lo)

theorem isEmpty_iff : s.isEmpty = true ↔ s.hi ≤ s.lo := by simp [isEmpty]

theorem isEmpty_eq_false_iff : s.isEmpty = false ↔ s.lo < s.hi := by simp [isEmpty]

def length (s : Span) : Nat := s.hi - s.lo

/-- The smallest span around two that overlap or touch. -/
def join (s t : Span) : Span := ⟨min s.lo t.lo, max s.hi t.hi⟩

/-- What is left of `t` once `s` is cut out of it: a piece before, a piece
after, or both. -/
def minus (t s : Span) : List Span :=
  [⟨t.lo, min t.hi s.lo⟩, ⟨max t.lo s.hi, t.hi⟩].filter (!·.isEmpty)

/-- `s` cut into consecutive spans of `step` offsets, the last one shorter if
need be. -/
def pieces (step : Nat) (s : Span) : List Span :=
  (List.range ((s.length + step - 1) / step)).map fun i =>
    ⟨s.lo + i * step, min s.hi (s.lo + (i + 1) * step)⟩

end Span

end SparseCache
