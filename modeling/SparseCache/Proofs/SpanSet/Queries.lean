import SparseCache.Proofs.SpanSet.Edits
import SparseCache.Proofs.SpanSet.Gaps

namespace SparseCache.SpanSet

/-! What the queries on a set of offsets find out.

The gaps of a span are the offsets of it that the set lacks, and the set covers
the span when there are none.  Stored spans never touch, so neither query has to
walk over all of them: whether an offset is held shows at the one span that
starts last at or before it, and the walk over the gaps may begin there.
-/

variable {set : SpanSet} {s t : Span} {ts : List Span} {lo hi p : Nat}

/-! ### Where a query looks -/

/-- The last span that starts at or before `p`. -/
def reaching? (set : SpanSet) (p : Nat) : Option Span :=
  (set.spans.filter fun t => decide (t.lo ≤ p)).getLast?

/-- Where a walk over the spans may begin that asks for nothing before `p`. -/
def origin (set : SpanSet) (p : Nat) : Nat := (set.reaching? p).elim p Span.lo

theorem mem_of_reaching? (found : set.reaching? p = some t) : t ∈ set.spans ∧ t.lo ≤ p := by
  have kept := List.mem_filter.mp (List.mem_of_getLast? found)
  exact ⟨kept.1, of_decide_eq_true kept.2⟩

theorem getLast?_filter_le (canonical : Canonical ts) (member : t ∈ ts) (lower : t.lo ≤ p)
    (upper : p ≤ t.hi) : (ts.filter fun u => decide (u.lo ≤ p)).getLast? = some t := by
  induction ts with
  | nil => cases member
  | cons u ts ih =>
    obtain ⟨first, apart, tail⟩ := Canonical.cons_iff.mp canonical
    rcases List.mem_cons.mp member with rfl | later
    · have beyond : (ts.filter fun u => decide (u.lo ≤ p)) = [] := by
        rw [List.filter_eq_nil_iff]
        intro v found
        have := apart v found
        simp only [decide_eq_true_eq]
        omega
      rw [List.filter_cons, if_pos (decide_eq_true lower), beyond, List.getLast?_singleton]
    · have before : u.lo ≤ p := by
        have := apart t later
        omega
      rw [List.filter_cons, if_pos (decide_eq_true before), List.getLast?_cons, ih tail later,
        Option.getD_some]

/-- A span that holds `p`, or ends just there, is the one that starts last at or before it. -/
theorem reaching?_eq_some (member : t ∈ set.spans) (lower : t.lo ≤ p) (upper : p ≤ t.hi) :
    set.reaching? p = some t :=
  getLast?_filter_le set.canonical member lower upper

theorem origin_le : set.origin p ≤ p := by
  unfold origin
  cases found : set.reaching? p with
  | none => exact Nat.le_refl p
  | some t => exact (mem_of_reaching? found).2

/-- One look at one span tells whether the set covers all of `s`. -/
theorem covers_eq_reaching (set : SpanSet) (s : Span) :
    set.covers s = (s.isEmpty || (set.reaching? s.lo).any fun t => decide (s.hi ≤ t.hi)) := by
  rw [Bool.eq_iff_iff]
  simp only [covers, Bool.or_eq_true, List.any_eq_true, Option.any_eq_true, decide_eq_true_eq]
  constructor
  · rintro (vacuous | ⟨t, member, lower, upper⟩)
    · exact .inl vacuous
    · by_cases vacuous : s.isEmpty = true
      · exact .inl vacuous
      · have nonempty := Span.isEmpty_eq_false_iff.mp (Bool.not_eq_true _ ▸ vacuous)
        exact .inr ⟨t, reaching?_eq_some member lower (by omega), upper⟩
  · rintro (vacuous | ⟨t, found, upper⟩)
    · exact .inl vacuous
    · obtain ⟨member, lower⟩ := mem_of_reaching? found
      exact .inr ⟨t, member, lower, upper⟩

/-- Spans that hold nothing between `lo` and `hi` make no difference to the gaps there. -/
theorem gapsIn_filter {keep : Span → Bool} (canonical : Canonical ts)
    (idle : ∀ t ∈ ts, keep t = false → ∀ p ∈ t, ¬ (lo ≤ p ∧ p < hi)) :
    gapsIn (ts.filter keep) lo hi = gapsIn ts lo hi := by
  have kept := canonical.filter keep
  refine Canonical.eq_of_same (canonical_gapsIn kept) (canonical_gapsIn canonical) fun p => ?_
  rw [mem_gapsIn_iff kept, mem_gapsIn_iff canonical]
  refine and_congr_right fun inside => not_congr ⟨?_, ?_⟩
  · rintro ⟨t, found, holds⟩
    exact ⟨t, (List.mem_filter.mp found).1, holds⟩
  · rintro ⟨t, found, holds⟩
    cases keeps : keep t with
    | true => exact ⟨t, List.mem_filter.mpr ⟨found, keeps⟩, holds⟩
    | false => exact absurd inside (idle t found keeps p holds)

/-- The walk over the gaps of `s` may begin at the origin and end where `s` ends. -/
theorem gaps_eq_from_origin (set : SpanSet) (s : Span) :
    set.gaps s =
      gapsIn (set.spans.filter fun t => decide (set.origin s.lo ≤ t.lo ∧ t.lo < s.hi))
        s.lo s.hi := by
  refine (gapsIn_filter set.canonical fun t member dropped p holds inside => ?_).symm
  obtain ⟨lower, upper⟩ := Span.mem_iff.mp holds
  have before : t.lo < set.origin s.lo := by
    have outside := of_decide_eq_false dropped
    omega
  have lowest := set.origin_le (p := s.lo)
  -- such a span would reach into `s`, and then the walk begins with it
  have found := reaching?_eq_some member (p := s.lo) (by omega) (by omega)
  rw [origin, found] at before
  exact Nat.lt_irrefl _ before

/-! ### What they find -/

/-- Putting the gaps of a span in adds the span. -/
theorem mem_edited_gaps {edits : List Edit} :
    p ∈ edited (edits ++ ((edited edits).gaps s).map .insert) ↔ p ∈ s ∨ p ∈ edited edits := by
  rw [mem_edited_inserts, mem_gaps_iff]
  by_cases held : p ∈ edited edits <;> simp [held]

/-- After any list of inserts and erases with any bounds, and for any span, empty or reversed ones
among them.  The gaps ascend, none is empty, no two overlap or touch, and they are the longest runs
of offsets of the span that the unions and differences of the calls' intervals lack.  The set covers
the span when there are none; once all of them are put in it does, and it has gained nothing beyond
the span.  The answers show at the one span that reaches the start, and at those from there on. -/
theorem queries_exact (edits : List Edit) (s : Span) :
    (∀ g ∈ (edited edits).gaps s, g.lo < g.hi) ∧
    ((edited edits).gaps s).Pairwise (·.hi < ·.lo) ∧
    (∀ g, g ∈ (edited edits).gaps s ↔ (edited edits).LongestGap s g) ∧
    (∀ p, (∃ g ∈ (edited edits).gaps s, g.lo ≤ p ∧ p < g.hi) ↔
      (s.lo ≤ p ∧ p < s.hi) ∧ p ∉ edits.foldl Edit.means ∅) ∧
    ((edited edits).covers s = true ↔ (edited edits).gaps s = []) ∧
    (edited (edits ++ ((edited edits).gaps s).map .insert)).covers s = true ∧
    (∀ p, p ∈ edited (edits ++ ((edited edits).gaps s).map .insert) ↔
      (s.lo ≤ p ∧ p < s.hi) ∨ p ∈ edits.foldl Edit.means ∅) ∧
    (edited edits).covers s =
      (s.isEmpty || ((edited edits).reaching? s.lo).any fun t => decide (s.hi ≤ t.hi)) ∧
    (edited edits).gaps s = gapsIn ((edited edits).spans.filter fun t =>
      decide ((edited edits).origin s.lo ≤ t.lo ∧ t.lo < s.hi)) s.lo s.hi := by
  obtain ⟨nonempty, apart⟩ := (edited edits).canonical_gaps s
  have lacking : ∀ p, (∃ g ∈ (edited edits).gaps s, g.lo ≤ p ∧ p < g.hi) ↔
      (s.lo ≤ p ∧ p < s.hi) ∧ p ∉ edits.foldl Edit.means ∅ := fun p =>
    mem_gaps_iff.trans (and_congr Span.mem_iff (not_congr mem_edited))
  have none_iff : (edited edits).covers s = true ↔ (edited edits).gaps s = [] :=
    covers_iff.trans gaps_eq_nil_iff.symm
  have filled : ∀ p, p ∈ edited (edits ++ ((edited edits).gaps s).map .insert) ↔
      (s.lo ≤ p ∧ p < s.hi) ∨ p ∈ edits.foldl Edit.means ∅ := fun p =>
    mem_edited_gaps.trans (or_congr Span.mem_iff mem_edited)
  have whole := covers_iff.mpr fun p inside => (filled p).mpr (.inl (Span.mem_iff.mp inside))
  exact ⟨nonempty, apart, fun g => mem_gaps_iff_longestGap, lacking, none_iff, whole, filled,
    covers_eq_reaching _ s, gaps_eq_from_origin _ s⟩

/-- A span that starts inside a stored one and ends just where another starts. -/
example :
    (edited [.insert ⟨2, 5⟩, .insert ⟨7, 8⟩, .insert ⟨9, 12⟩]).gaps ⟨4, 9⟩ = [⟨5, 7⟩, ⟨8, 9⟩] := by
  decide

end SparseCache.SpanSet
