import SparseCache.Span

namespace SparseCache

/-! Sets of offsets, kept as the spans that make them up.

The spans are sorted, none is empty and no two touch, so a set has exactly one
representation and equality of sets is equality of offsets.  Membership is the
semantic view: every operation is described by the offsets it adds or removes.
-/

/-- Sorted, each span nonempty, and a hole between any two neighbours. -/
def Canonical (spans : List Span) : Prop :=
  (∀ s ∈ spans, s.lo < s.hi) ∧ spans.Pairwise (·.hi < ·.lo)

namespace Canonical

variable {s t : Span} {ts : List Span}

theorem nil : Canonical [] := ⟨by simp, .nil⟩

theorem cons_iff :
    Canonical (t :: ts) ↔ t.lo < t.hi ∧ (∀ u ∈ ts, t.hi < u.lo) ∧ Canonical ts := by
  simp only [Canonical, List.forall_mem_cons, List.pairwise_cons]
  constructor
  · rintro ⟨⟨head, tail⟩, apart, sorted⟩
    exact ⟨head, apart, tail, sorted⟩
  · rintro ⟨head, apart, tail, sorted⟩
    exact ⟨⟨head, tail⟩, apart, sorted⟩

theorem tail (canonical : Canonical (t :: ts)) : Canonical ts :=
  (cons_iff.mp canonical).2.2

end Canonical

structure SpanSet where
  spans : List Span
  canonical : Canonical spans
deriving DecidableEq

namespace SpanSet

variable {s t : Span} {ts : List Span} {p : Nat}

instance : Membership Nat SpanSet := ⟨fun set p => ∃ s ∈ set.spans, p ∈ s⟩

theorem mem_iff {set : SpanSet} : p ∈ set ↔ ∃ s ∈ set.spans, p ∈ s := Iff.rfl

instance {set : SpanSet} : Decidable (p ∈ set) :=
  inferInstanceAs (Decidable (∃ s ∈ set.spans, p ∈ s))

def empty : SpanSet := ⟨[], .nil⟩

instance : EmptyCollection SpanSet := ⟨empty⟩

instance : Inhabited SpanSet := ⟨∅⟩

def isEmpty (set : SpanSet) : Bool := set.spans.isEmpty

def spanCount (set : SpanSet) : Nat := set.spans.length

/-- How many offsets the set holds. -/
def size (set : SpanSet) : Nat :=
  set.spans.foldr (fun span total => span.length + total) 0

/-! ### Adding a span -/

/-- Walks over the spans that end before `s`, swallows those that overlap or
touch it, and stops in front of the first that lies beyond it. -/
def insertSpan (s : Span) : List Span → List Span
  | [] => [s]
  | t :: ts =>
    if t.hi < s.lo then t :: insertSpan s ts
    else if s.hi < t.lo then s :: t :: ts
    else insertSpan (s.join t) ts

theorem lt_lo_of_mem_insertSpan {bound : Nat} (below : bound < s.lo)
    (belowAll : ∀ u ∈ ts, bound < u.lo) : ∀ u ∈ insertSpan s ts, bound < u.lo := by
  induction ts generalizing s with
  | nil => simpa [insertSpan] using below
  | cons t ts ih =>
    have head := belowAll t (.head _)
    have tail : ∀ u ∈ ts, bound < u.lo := fun u found => belowAll u (.tail _ found)
    unfold insertSpan
    split
    · intro u found
      rcases List.mem_cons.mp found with rfl | found
      · exact head
      · exact ih below tail u found
    · split
      · intro u found
        rcases List.mem_cons.mp found with rfl | found
        · exact below
        · exact belowAll u found
      · exact ih (by simp only [Span.join]; omega) tail

theorem canonical_insertSpan (nonempty : s.lo < s.hi) (canonical : Canonical ts) :
    Canonical (insertSpan s ts) := by
  induction ts generalizing s with
  | nil => exact Canonical.cons_iff.mpr ⟨nonempty, by simp, .nil⟩
  | cons t ts ih =>
    obtain ⟨head, apart, tail⟩ := Canonical.cons_iff.mp canonical
    unfold insertSpan
    split
    · exact Canonical.cons_iff.mpr
        ⟨head, lt_lo_of_mem_insertSpan ‹_› apart, ih nonempty tail⟩
    · split
      · refine Canonical.cons_iff.mpr ⟨nonempty, ?_, canonical⟩
        intro u found
        rcases List.mem_cons.mp found with rfl | found
        · assumption
        · have := apart u found
          omega
      · exact ih (by simp only [Span.join]; omega) tail

def insert (set : SpanSet) (s : Span) : SpanSet :=
  if nonempty : s.lo < s.hi then
    ⟨insertSpan s set.spans, canonical_insertSpan nonempty set.canonical⟩
  else set

/-! ### Removing a span -/

theorem bounds_of_mem_minus {u : Span} (found : u ∈ t.minus s) :
    t.lo ≤ u.lo ∧ u.hi ≤ t.hi ∧ u.lo < u.hi := by
  simp only [Span.minus, List.mem_filter, List.mem_cons, List.not_mem_nil, or_false,
    Bool.not_eq_true', Span.isEmpty_eq_false_iff] at found
  obtain ⟨rfl | rfl, nonempty⟩ := found <;> simp only at nonempty ⊢ <;> omega

theorem canonical_minus (nonempty : s.lo < s.hi) : Canonical (t.minus s) := by
  refine ⟨fun u found => (bounds_of_mem_minus found).2.2, ?_⟩
  refine List.Pairwise.sublist List.filter_sublist ?_
  simp only [List.pairwise_cons, List.mem_cons, List.not_mem_nil, or_false, forall_eq,
    List.Pairwise.nil, and_true]
  exact ⟨by omega, fun _ absurd => absurd.elim⟩

theorem canonical_flatMap_minus (nonempty : s.lo < s.hi) (canonical : Canonical ts) :
    Canonical (ts.flatMap (·.minus s)) := by
  induction ts with
  | nil => exact .nil
  | cons t ts ih =>
    obtain ⟨-, apart, tail⟩ := Canonical.cons_iff.mp canonical
    have rest := ih tail
    have here := canonical_minus (t := t) nonempty
    rw [List.flatMap_cons]
    refine ⟨?_, List.pairwise_append.mpr ⟨here.2, rest.2, ?_⟩⟩
    · intro u found
      rcases List.mem_append.mp found with found | found
      · exact here.1 u found
      · exact rest.1 u found
    · intro u foundHere v foundLater
      obtain ⟨w, member, piece⟩ := List.mem_flatMap.mp foundLater
      have := bounds_of_mem_minus foundHere
      have := bounds_of_mem_minus piece
      have := apart w member
      omega

def erase (set : SpanSet) (s : Span) : SpanSet :=
  if nonempty : s.lo < s.hi then
    ⟨set.spans.flatMap (·.minus s), canonical_flatMap_minus nonempty set.canonical⟩
  else set

/-! ### What is missing -/

/-- The holes that `spans` leave between `lo` and `hi`, in ascending order. -/
def gapsIn : List Span → Nat → Nat → List Span
  | [], lo, hi => if lo < hi then [⟨lo, hi⟩] else []
  | t :: ts, lo, hi =>
    if hi ≤ lo then []
    else if t.hi ≤ lo then gapsIn ts lo hi
    else if hi ≤ t.lo then [⟨lo, hi⟩]
    else if lo < t.lo then ⟨lo, t.lo⟩ :: gapsIn ts t.hi hi
    else gapsIn ts t.hi hi

/-- The largest spans inside `s` of which the set holds no offset. -/
def gaps (set : SpanSet) (s : Span) : List Span := gapsIn set.spans s.lo s.hi

/-- Whether every offset of `s` is in the set.  One stored span has to hold all
of them, because stored spans never touch. -/
def covers (set : SpanSet) (s : Span) : Bool :=
  s.isEmpty || set.spans.any fun t => decide (t.lo ≤ s.lo ∧ s.hi ≤ t.hi)

/-! ### Text -/

/-- The spans as a map from start to end. -/
def describe (set : SpanSet) : String :=
  let one (s : Span) : String := toString s.lo ++ ": " ++ toString s.hi
  "RangeSet \x7b spans: \x7b" ++ ", ".intercalate (set.spans.map one) ++ "\x7d \x7d"

end SpanSet

end SparseCache
