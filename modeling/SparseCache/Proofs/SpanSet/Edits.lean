import Mathlib.Data.Nat.Basic
import Mathlib.Order.Interval.Set.Defs
import SparseCache.SpanSet.Lemmas

namespace SparseCache

/-! Sets of offsets under any list of inserts and erases.

Beside the stored spans runs the mathematical set: an insert is a union with an
interval and an erase a difference, whatever the bounds are.  The spans hold the
offsets of that set, and no bound of theirs is computed: each was a bound of
some call.  So bounds that fit a machine word stay in it, the largest word
included.
-/

namespace Canonical

variable {t u : Span} {ts us : List Span} {p : Nat}

theorem filter (keep : Span → Bool) (canonical : Canonical ts) : Canonical (ts.filter keep) :=
  ⟨fun t found => canonical.1 t (List.mem_filter.mp found).1, canonical.2.filter keep⟩

theorem lo_le (canonical : Canonical (t :: ts)) (inside : ∃ s ∈ t :: ts, p ∈ s) : t.lo ≤ p := by
  obtain ⟨head, apart, -⟩ := cons_iff.mp canonical
  obtain ⟨s, found, lower, -⟩ := inside
  rcases List.mem_cons.mp found with rfl | later
  · exact lower
  · have := apart s later
    omega

theorem hi_not_mem (canonical : Canonical (t :: ts)) : ¬ ∃ s ∈ t :: ts, t.hi ∈ s := by
  obtain ⟨-, apart, -⟩ := cons_iff.mp canonical
  rintro ⟨s, found, lower, upper⟩
  rcases List.mem_cons.mp found with rfl | later
  · exact Nat.lt_irrefl _ upper
  · have := apart s later
    omega

/-- Behind the first span there is nothing before its end. -/
theorem mem_tail_iff (canonical : Canonical (t :: ts)) :
    (∃ s ∈ ts, p ∈ s) ↔ t.hi < p ∧ ∃ s ∈ t :: ts, p ∈ s := by
  obtain ⟨-, apart, -⟩ := cons_iff.mp canonical
  constructor
  · rintro ⟨s, later, lower, upper⟩
    have := apart s later
    exact ⟨by omega, s, .tail _ later, lower, upper⟩
  · rintro ⟨beyond, s, found, lower, upper⟩
    rcases List.mem_cons.mp found with rfl | later
    · omega
    · exact ⟨s, later, lower, upper⟩

theorem lo_ge (first : t.lo < t.hi) (canonical : Canonical (u :: us))
    (inside : ∀ p, (∃ s ∈ t :: ts, p ∈ s) → ∃ s ∈ u :: us, p ∈ s) : u.lo ≤ t.lo :=
  canonical.lo_le (inside t.lo ⟨t, .head _, Nat.le_refl _, first⟩)

theorem hi_le (start : t.lo = u.lo) (canonical : Canonical (u :: us))
    (inside : ∀ p, (∃ s ∈ t :: ts, p ∈ s) → ∃ s ∈ u :: us, p ∈ s) : t.hi ≤ u.hi := by
  obtain ⟨first, -, -⟩ := cons_iff.mp canonical
  by_contra longer
  exact canonical.hi_not_mem (inside u.hi ⟨t, .head _, by omega, by omega⟩)

/-- Two lists of spans with the same offsets are the same list. -/
theorem eq_of_same (canonical : Canonical ts) (canonical' : Canonical us)
    (same : ∀ p, (∃ s ∈ ts, p ∈ s) ↔ ∃ s ∈ us, p ∈ s) : ts = us := by
  induction ts generalizing us with
  | nil =>
    cases us with
    | nil => rfl
    | cons u us =>
      have first := (cons_iff.mp canonical').1
      obtain ⟨s, found, -⟩ := (same u.lo).mpr ⟨u, .head _, Nat.le_refl _, first⟩
      cases found
  | cons t ts ih =>
    cases us with
    | nil =>
      have first := (cons_iff.mp canonical).1
      obtain ⟨s, found, -⟩ := (same t.lo).mp ⟨t, .head _, Nat.le_refl _, first⟩
      cases found
    | cons u us =>
      have starts : t.lo = u.lo := Nat.le_antisymm
        (lo_ge (cons_iff.mp canonical').1 canonical fun p => (same p).mpr)
        (lo_ge (cons_iff.mp canonical).1 canonical' fun p => (same p).mp)
      have ends : t.hi = u.hi := Nat.le_antisymm
        (hi_le starts canonical' fun p => (same p).mp)
        (hi_le starts.symm canonical fun p => (same p).mpr)
      have rest : ts = us := ih canonical.tail canonical'.tail fun p => by
        rw [canonical.mem_tail_iff, canonical'.mem_tail_iff, same, ends]
      have heads : t = u := by
        cases t
        cases u
        simp only at starts ends
        rw [starts, ends]
      rw [heads, rest]

end Canonical

namespace SpanSet

variable {set other : SpanSet} {offsets : Set Nat} {s t : Span} {ts : List Span} {p : Nat}

/-- Equality of sets is equality of offsets. -/
theorem eq_of_mem_iff (same : ∀ p, p ∈ set ↔ p ∈ other) : set = other := by
  obtain ⟨spans, canonical⟩ := set
  obtain ⟨spans', canonical'⟩ := other
  cases Canonical.eq_of_same canonical canonical' same
  rfl

/-! ### Calls -/

/-- One call on a set of offsets. -/
inductive Edit where
  | insert (span : Span)
  | erase (span : Span)
deriving DecidableEq, Repr

namespace Edit

def span : Edit → Span
  | .insert span => span
  | .erase span => span

def on (set : SpanSet) : Edit → SpanSet
  | .insert span => set.insert span
  | .erase span => set.erase span

/-- What the call means for a mathematical set. -/
def means (offsets : Set Nat) : Edit → Set Nat
  | .insert span => offsets ∪ Set.Ico span.lo span.hi
  | .erase span => offsets \ Set.Ico span.lo span.hi

def bounds (edit : Edit) : List Nat := [edit.span.lo, edit.span.hi]

variable {edit : Edit}

theorem mem_on (agree : ∀ p, p ∈ set ↔ p ∈ offsets) : p ∈ edit.on set ↔ p ∈ edit.means offsets := by
  cases edit with
  | insert span =>
    rw [on, mem_insert, agree]
    exact or_comm
  | erase span =>
    rw [on, mem_erase, agree]
    rfl

end Edit

/-- What `edits` make of the empty set, the first of them first. -/
def edited (edits : List Edit) : SpanSet := edits.foldl Edit.on ∅

variable {edits : List Edit} {known : Nat → Prop}

theorem mem_foldl_on (agree : ∀ p, p ∈ set ↔ p ∈ offsets) :
    p ∈ edits.foldl Edit.on set ↔ p ∈ edits.foldl Edit.means offsets := by
  induction edits generalizing set offsets with
  | nil => exact agree p
  | cons edit edits ih => exact ih fun p => edit.mem_on agree

theorem mem_edited : p ∈ edited edits ↔ p ∈ edits.foldl Edit.means ∅ :=
  mem_foldl_on fun _ => iff_of_false not_mem_empty id

theorem edited_append (edits more : List Edit) :
    edited (edits ++ more) = more.foldl Edit.on (edited edits) :=
  List.foldl_append

/-- What a list of inserts adds does not hang on its order, nor on how often it names a span. -/
theorem mem_edited_inserts (spans : List Span) :
    p ∈ edited (edits ++ spans.map .insert) ↔ (∃ s ∈ spans, p ∈ s) ∨ p ∈ edited edits := by
  rw [edited_append]
  generalize edited edits = set
  induction spans generalizing set with
  | nil => simp
  | cons s spans ih =>
    rw [List.map_cons, List.foldl_cons, ih, Edit.on, mem_insert]
    simp only [List.mem_cons, exists_eq_or_imp, or_assoc]
    exact or_left_comm

/-! ### Where the bounds come from -/

/-- All bounds of `spans` satisfy `known`. -/
def Bounded (known : Nat → Prop) (spans : List Span) : Prop :=
  ∀ s ∈ spans, known s.lo ∧ known s.hi

theorem known_min {a b : Nat} (left : known a) (right : known b) : known (min a b) := by
  rcases Nat.le_total a b with le | le
  · rwa [Nat.min_eq_left le]
  · rwa [Nat.min_eq_right le]

theorem known_max {a b : Nat} (left : known a) (right : known b) : known (max a b) := by
  rcases Nat.le_total a b with le | le
  · rwa [Nat.max_eq_right le]
  · rwa [Nat.max_eq_left le]

theorem Bounded.insertSpan (bounded : Bounded known ts) (lower : known s.lo) (upper : known s.hi) :
    Bounded known (insertSpan s ts) := by
  induction ts generalizing s with
  | nil => simpa [SpanSet.insertSpan, Bounded] using ⟨lower, upper⟩
  | cons t ts ih =>
    obtain ⟨head, tail⟩ := List.forall_mem_cons.mp bounded
    unfold SpanSet.insertSpan
    split
    · exact List.forall_mem_cons.mpr ⟨head, ih tail lower upper⟩
    · split
      · exact List.forall_mem_cons.mpr ⟨⟨lower, upper⟩, bounded⟩
      · exact ih tail (known_min lower head.1) (known_max upper head.2)

theorem Bounded.flatMap_minus (bounded : Bounded known ts) (lower : known s.lo)
    (upper : known s.hi) : Bounded known (ts.flatMap (·.minus s)) := by
  intro u found
  obtain ⟨t, member, piece⟩ := List.mem_flatMap.mp found
  obtain ⟨start, stop⟩ := bounded t member
  have cases : u = ⟨t.lo, min t.hi s.lo⟩ ∨ u = ⟨max t.lo s.hi, t.hi⟩ := by
    simpa using (List.mem_filter.mp piece).1
  rcases cases with rfl | rfl
  · exact ⟨start, known_min stop lower⟩
  · exact ⟨known_max start upper, stop⟩

theorem Bounded.on {edit : Edit} (bounded : Bounded known set.spans)
    (lower : known edit.span.lo) (upper : known edit.span.hi) :
    Bounded known (edit.on set).spans := by
  cases edit with
  | insert span =>
    change Bounded known (set.insert span).spans
    unfold SpanSet.insert
    split
    · exact bounded.insertSpan lower upper
    · exact bounded
  | erase span =>
    change Bounded known (set.erase span).spans
    unfold SpanSet.erase
    split
    · exact bounded.flatMap_minus lower upper
    · exact bounded

theorem Bounded.foldl_on (bounded : Bounded known set.spans)
    (calls : ∀ edit ∈ edits, known edit.span.lo ∧ known edit.span.hi) :
    Bounded known (edits.foldl Edit.on set).spans := by
  induction edits generalizing set with
  | nil => exact bounded
  | cons edit edits ih =>
    obtain ⟨⟨lower, upper⟩, later⟩ := List.forall_mem_cons.mp calls
    exact ih (bounded.on lower upper) later

/-! ### The representation -/

/-- After any list of inserts and erases with any bounds, empty and reversed
spans among them: the stored spans ascend, none is empty, neighbours neither
overlap nor touch, and they hold exactly the offsets that the unions and
differences of the calls' intervals hold.  A query agrees with that set on every
span, and the stored bounds are bounds of the calls. -/
theorem edited_represents (edits : List Edit) :
    (∀ s ∈ (edited edits).spans, s.lo < s.hi) ∧
    (edited edits).spans.Pairwise (·.lo < ·.lo) ∧
    (∀ i (next : i + 1 < (edited edits).spans.length),
      (edited edits).spans[i].hi < (edited edits).spans[i + 1].lo) ∧
    (∀ p, (∃ s ∈ (edited edits).spans, s.lo ≤ p ∧ p < s.hi) ↔ p ∈ edits.foldl Edit.means ∅) ∧
    (∀ s, (edited edits).covers s = true ↔
      Set.Ico s.lo s.hi ⊆ edits.foldl Edit.means ∅) ∧
    (∀ s ∈ (edited edits).spans,
      s.lo ∈ edits.flatMap Edit.bounds ∧ s.hi ∈ edits.flatMap Edit.bounds) := by
  obtain ⟨nonempty, apart⟩ := (edited edits).canonical
  have offsets : ∀ p, p ∈ edited edits ↔ p ∈ edits.foldl Edit.means ∅ := fun p =>
    mem_foldl_on fun p => iff_of_false not_mem_empty id
  have ascending : (edited edits).spans.Pairwise (·.lo < ·.lo) :=
    apart.imp_of_mem fun {s t} found _ before => Nat.lt_trans (nonempty s found) before
  have neighbours : ∀ i (next : i + 1 < (edited edits).spans.length),
      (edited edits).spans[i].hi < (edited edits).spans[i + 1].lo := fun i next =>
    List.pairwise_iff_getElem.mp apart i (i + 1) _ next (Nat.lt_succ_self i)
  have queried : ∀ s, (edited edits).covers s = true ↔
      Set.Ico s.lo s.hi ⊆ edits.foldl Edit.means ∅ := by
    intro s
    rw [covers_iff]
    exact forall_congr' fun p => imp_congr Span.mem_iff (offsets p)
  have drawn : Bounded (· ∈ edits.flatMap Edit.bounds) (edited edits).spans := by
    refine Bounded.foldl_on (fun s found => by cases found) fun edit member => ?_
    constructor <;> exact List.mem_flatMap.mpr ⟨edit, member, by simp [Edit.bounds]⟩
  exact ⟨nonempty, ascending, neighbours, offsets, queried, drawn⟩

/-- Touching spans join, an erase inside one splits it, and a reversed span
changes nothing, up to the largest word. -/
example :
    (edited [.insert ⟨5, 9⟩, .insert ⟨2, 5⟩, .erase ⟨3, 4⟩, .insert ⟨9, 1⟩,
        .insert ⟨9, 2 ^ 64 - 1⟩]).spans
      = [⟨2, 3⟩, ⟨4, 2 ^ 64 - 1⟩] := by
  decide

end SpanSet

end SparseCache
