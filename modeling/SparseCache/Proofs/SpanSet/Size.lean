import Mathlib.Data.Set.Card
import Mathlib.Order.Interval.Finset.Nat
import SparseCache.Proofs.SpanSet.Edits
import SparseCache.Word

namespace SparseCache.SpanSet

/-! One set of offsets has one form, and its size is the number of its offsets.

The spans of a set are apart and ascend, so on a walk over them the offsets
counted so far never outnumber those before the next span.  That is why a sum in
words, of spans whose bounds are words, never leaves them.
-/

variable {set : SpanSet} {s t : Span} {ts : List Span} {edits others : List Edit} {p total : Nat}

/-- How many offsets `spans` hold when no two of them overlap. -/
def totalLength (spans : List Span) : Nat :=
  spans.foldr (fun span total => span.length + total) 0

def addLength? (total : Nat) (span : Span) : Option Nat := do
  Word.add? total (← Word.sub? span.hi span.lo)

/-- The size, summed up in words from the first span on. -/
def sizeInWords? (set : SpanSet) : Option Nat := set.spans.foldlM addLength? 0

/-! ### Size -/

theorem size_eq : set.size = totalLength set.spans := rfl

theorem encard_Ico (lo hi : Nat) : (Set.Ico lo hi).encard = ((hi - lo : Nat) : ℕ∞) := by
  rw [← Finset.coe_Ico, Set.encard_coe_eq_coe_finsetCard, Nat.card_Ico]

theorem encard_spans (canonical : Canonical ts) :
    {p | ∃ s ∈ ts, p ∈ s}.encard = totalLength ts := by
  induction ts with
  | nil => simp [totalLength]
  | cons t ts ih =>
    have first : {p | ∃ s ∈ t :: ts, p ∈ s} = Set.Ico t.lo t.hi ∪ {p | ∃ s ∈ ts, p ∈ s} := by
      ext p
      simp only [List.mem_cons, exists_eq_or_imp]
      rfl
    have apart : Disjoint (Set.Ico t.lo t.hi) {p | ∃ s ∈ ts, p ∈ s} := by
      rw [Set.disjoint_left]
      intro p inside later
      exact Nat.lt_asymm inside.2 (canonical.mem_tail_iff.mp later).1
    rw [first, Set.encard_union_eq apart, encard_Ico, ih canonical.tail]
    simp only [totalLength, List.foldr_cons, Span.length]
    norm_cast

theorem addLength?_eq (ascends : s.lo ≤ s.hi) (fits : total + s.length ≤ Word.largest) :
    addLength? total s = some (total + s.length) := by
  rw [addLength?, Word.sub?_of_le ascends]
  exact Word.add?_of_le fits

/-- A sum that lies before all spans still does so, each time, when the next one is added. -/
theorem foldlM_addLength? (canonical : Canonical ts) (words : ∀ t ∈ ts, t.hi ≤ Word.largest)
    (behind : ∀ t ∈ ts, total ≤ t.lo) :
    ts.foldlM addLength? total = some (total + totalLength ts) := by
  induction ts generalizing total with
  | nil => rfl
  | cons t ts ih =>
    obtain ⟨nonempty, apart, tail⟩ := Canonical.cons_iff.mp canonical
    have before := behind t (.head _)
    have reached : total + t.length ≤ t.hi := by
      simp only [Span.length]
      omega
    have next : ∀ u ∈ ts, total + t.length ≤ u.lo := fun u later =>
      Nat.le_trans reached (Nat.le_of_lt (apart u later))
    have added : addLength? total t = some (total + t.length) :=
      addLength?_eq (Nat.le_of_lt nonempty) (Nat.le_trans reached (words t (.head _)))
    have rest := ih tail (fun u later => words u (.tail _ later)) next
    rw [List.foldlM_cons, added, Option.bind_eq_bind, Option.bind_some, rest]
    simp only [totalLength, List.foldr_cons, Nat.add_assoc]

theorem sizeInWords?_eq (words : ∀ s ∈ set.spans, s.hi ≤ Word.largest) :
    set.sizeInWords? = some set.size := by
  have sum := foldlM_addLength? set.canonical words fun t _ => Nat.zero_le t.lo
  rwa [Nat.zero_add] at sum

/-! ### One form -/

theorem edited_eq_iff : edited edits = edited others ↔
    edits.foldl Edit.means ∅ = others.foldl Edit.means ∅ := by
  constructor
  · intro same
    ext p
    rw [← mem_edited, ← mem_edited, same]
  · intro same
    refine eq_of_mem_iff fun p => ?_
    rw [mem_edited, mem_edited, same]

/-- Calls that come to the same offsets come to the same set.  So the order and the repetition of
inserts leave no trace, nor does an insert that is erased again.  The size is the number of offsets;
and if the bounds of all calls are words, summing it up in words has a result at each span. -/
theorem edited_one_form (edits others : List Edit) :
    (edited edits = edited others ↔
      edits.foldl Edit.means ∅ = others.foldl Edit.means ∅) ∧
    (∀ spans spans' : List Span, (∀ s, s ∈ spans ↔ s ∈ spans') →
      edited (edits ++ spans.map .insert) = edited (edits ++ spans'.map .insert)) ∧
    (∀ s, edited (edits ++ [.insert s, .erase s]) = edited (edits ++ [.erase s])) ∧
    (edits.foldl Edit.means ∅).encard = (edited edits).size ∧
    ((∀ edit ∈ edits, edit.span.lo ≤ Word.largest ∧ edit.span.hi ≤ Word.largest) →
      (edited edits).sizeInWords? = some (edited edits).size) := by
  refine ⟨edited_eq_iff, fun spans spans' same => ?_, fun s => ?_, ?_, fun words => ?_⟩
  · refine eq_of_mem_iff fun p => ?_
    simp only [mem_edited_inserts, same]
  · refine eq_of_mem_iff fun p => ?_
    simp only [edited_append, List.foldl_cons, List.foldl_nil, Edit.on, mem_erase, mem_insert]
    exact and_congr_left fun outside => or_iff_right outside
  · have offsets : edits.foldl Edit.means ∅ = {p | ∃ s ∈ (edited edits).spans, p ∈ s} := by
      ext p
      exact mem_edited.symm
    rw [offsets, encard_spans (edited edits).canonical, size_eq]
  · have bounded : Bounded (· ≤ Word.largest) (edited edits).spans :=
      Bounded.foldl_on (fun s found => by cases found) words
    exact sizeInWords?_eq fun s found => (bounded s found).2

/-- Inserts in another order and one of them twice, up to the largest word. -/
theorem reordered_one_form :
    (∀ s, s ∈ [(⟨0, 7⟩ : Span), ⟨7, Word.largest⟩] ↔
      s ∈ [⟨7, Word.largest⟩, ⟨0, 7⟩, ⟨7, Word.largest⟩]) ∧
    (∀ edit ∈ [Edit.insert ⟨0, Word.largest⟩],
      edit.span.lo ≤ Word.largest ∧ edit.span.hi ≤ Word.largest) ∧
    edited [.insert ⟨0, 7⟩, .insert ⟨7, Word.largest⟩]
      = edited [.insert ⟨7, Word.largest⟩, .insert ⟨0, 7⟩, .insert ⟨7, Word.largest⟩] ∧
    (edited [.insert ⟨0, Word.largest⟩]).sizeInWords? = some Word.largest := by
  have same : ∀ s, s ∈ [(⟨0, 7⟩ : Span), ⟨7, Word.largest⟩] ↔
      s ∈ [⟨7, Word.largest⟩, ⟨0, 7⟩, ⟨7, Word.largest⟩] := fun s => by
    simp only [List.mem_cons, List.not_mem_nil, or_false]
    tauto
  have words : ∀ edit ∈ [Edit.insert ⟨0, Word.largest⟩],
      edit.span.lo ≤ Word.largest ∧ edit.span.hi ≤ Word.largest := by decide
  obtain ⟨-, reordered, -⟩ := edited_one_form [] []
  obtain ⟨-, -, -, -, summed⟩ := edited_one_form [.insert ⟨0, Word.largest⟩] []
  exact ⟨same, words, reordered _ _ same, summed words⟩

end SparseCache.SpanSet
