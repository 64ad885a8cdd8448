import SparseCache.SpanSet

namespace SparseCache

/-! What the operations on sets of offsets do to membership. -/

namespace Span

variable {s t : Span} {p : Nat}

/-- Where two spans overlap or touch, their join adds nothing else. -/
theorem mem_join_iff (reaches : s.lo ≤ t.hi) (reached : t.lo ≤ s.hi) :
    p ∈ s.join t ↔ p ∈ s ∨ p ∈ t := by
  simp only [mem_iff, join]
  omega

theorem mem_minus_iff : (∃ u ∈ t.minus s, p ∈ u) ↔ p ∈ t ∧ (p < s.lo ∨ s.hi ≤ p) := by
  simp only [minus, List.mem_filter, List.mem_cons, List.not_mem_nil, or_false,
    Bool.not_eq_true', isEmpty_eq_false_iff, mem_iff]
  constructor
  · rintro ⟨u, ⟨rfl | rfl, -⟩, lower, upper⟩ <;> simp only at lower upper <;> omega
  · rintro ⟨⟨lower, upper⟩, before | after⟩
    · exact ⟨⟨t.lo, min t.hi s.lo⟩, ⟨.inl rfl, by simp only; omega⟩, by simp only; omega⟩
    · exact ⟨⟨max t.lo s.hi, t.hi⟩, ⟨.inr rfl, by simp only; omega⟩, by simp only; omega⟩

end Span

namespace SpanSet

variable {s t : Span} {ts : List Span} {p : Nat} {set : SpanSet}

@[simp] theorem not_mem_empty : p ∉ (∅ : SpanSet) := by
  rintro ⟨s, found, -⟩
  cases found

theorem mem_insertSpan_iff (nonempty : s.lo < s.hi) (canonical : Canonical ts) :
    (∃ t ∈ insertSpan s ts, p ∈ t) ↔ p ∈ s ∨ ∃ t ∈ ts, p ∈ t := by
  induction ts generalizing s with
  | nil => simp [insertSpan]
  | cons t ts ih =>
    obtain ⟨head, apart, tail⟩ := Canonical.cons_iff.mp canonical
    unfold insertSpan
    split
    · simp only [List.mem_cons, exists_eq_or_imp, ih nonempty tail]
      exact or_left_comm
    · split
      · simp only [List.mem_cons, exists_eq_or_imp]
      · have joined : (s.join t).lo < (s.join t).hi := by simp only [Span.join]; omega
        rw [ih joined tail,
          Span.mem_join_iff (by omega) (by omega)]
        simp only [List.mem_cons, exists_eq_or_imp, or_assoc]

@[simp] theorem mem_insert : p ∈ set.insert s ↔ p ∈ s ∨ p ∈ set := by
  unfold insert
  split
  · exact mem_insertSpan_iff ‹_› set.canonical
  · have outside : p ∉ s := by rw [Span.mem_iff]; omega
    simp [outside]

theorem insert_of_empty (vacuous : s.hi ≤ s.lo) : set.insert s = set :=
  dif_neg (Nat.not_lt_of_le vacuous)

@[simp] theorem mem_erase : p ∈ set.erase s ↔ p ∈ set ∧ p ∉ s := by
  unfold erase
  split
  · simp only [mem_iff, List.mem_flatMap]
    constructor
    · rintro ⟨u, ⟨t, member, piece⟩, inside⟩
      have cut := Span.mem_minus_iff.mp ⟨u, piece, inside⟩
      exact ⟨⟨t, member, cut.1⟩, by rw [Span.mem_iff]; omega⟩
    · rintro ⟨⟨t, member, inside⟩, outside⟩
      have apart : p < s.lo ∨ s.hi ≤ p := by rw [Span.mem_iff] at outside; omega
      obtain ⟨u, piece, found⟩ := Span.mem_minus_iff.mpr ⟨inside, apart⟩
      exact ⟨u, ⟨t, member, piece⟩, found⟩
  · have outside : p ∉ s := by rw [Span.mem_iff]; omega
    simp [outside]

theorem mem_gapsIn_iff {lo hi : Nat} (canonical : Canonical ts) :
    (∃ g ∈ gapsIn ts lo hi, p ∈ g) ↔ (lo ≤ p ∧ p < hi) ∧ ¬ ∃ t ∈ ts, p ∈ t := by
  induction ts generalizing lo with
  | nil =>
    unfold gapsIn
    split
    · simp [Span.mem_iff]
    · simp only [List.not_mem_nil, false_and, exists_false, not_false_eq_true, and_true,
        false_iff]
      omega
  | cons t ts ih =>
    obtain ⟨head, apart, tail⟩ := Canonical.cons_iff.mp canonical
    have later : (∃ u ∈ ts, p ∈ u) → t.hi < p := by
      rintro ⟨u, member, lower, -⟩
      have := apart u member
      omega
    unfold gapsIn
    simp only [List.mem_cons, exists_eq_or_imp, Span.mem_iff (s := t)]
    split
    · simp only [List.not_mem_nil, false_and, exists_false, false_iff]
      omega
    · split
      · rw [ih tail]
        grind
      · split
        · simp only [List.mem_singleton, exists_eq_left, Span.mem_iff (s := ⟨lo, hi⟩)]
          grind
        · split
          · simp only [List.mem_cons, exists_eq_or_imp, ih tail, Span.mem_iff (s := ⟨lo, t.lo⟩)]
            grind
          · rw [ih tail]
            grind

/-- The gaps hold just what the set lacks. -/
theorem mem_gaps_iff : (∃ g ∈ set.gaps s, p ∈ g) ↔ p ∈ s ∧ p ∉ set :=
  mem_gapsIn_iff set.canonical

theorem bounds_of_mem_gapsIn {g : Span} (canonical : Canonical ts)
    (found : g ∈ gapsIn ts lo hi) : lo ≤ g.lo ∧ g.lo < g.hi ∧ g.hi ≤ hi := by
  induction ts generalizing lo with
  | nil =>
    unfold gapsIn at found
    split at found
    · cases List.mem_singleton.mp found
      simp only
      omega
    · cases found
  | cons t ts ih =>
    obtain ⟨head, -, tail⟩ := Canonical.cons_iff.mp canonical
    unfold gapsIn at found
    split at found
    · cases found
    · split at found
      · exact ih tail found
      · split at found
        · cases List.mem_singleton.mp found
          simp only
          omega
        · split at found
          · rcases List.mem_cons.mp found with rfl | later
            · simp only
              omega
            · have := ih tail later
              omega
          · have := ih tail found
            omega

/-- A gap is not empty and lies inside what was asked for. -/
theorem bounds_of_mem_gaps {g : Span} (found : g ∈ set.gaps s) :
    s.lo ≤ g.lo ∧ g.lo < g.hi ∧ g.hi ≤ s.hi :=
  bounds_of_mem_gapsIn set.canonical found

theorem gaps_eq_nil_iff : set.gaps s = [] ↔ ∀ p ∈ s, p ∈ set := by
  rw [List.eq_nil_iff_forall_not_mem]
  constructor
  · intro empty p inside
    refine Classical.byContradiction fun missing => ?_
    obtain ⟨g, found, -⟩ := mem_gaps_iff.mpr ⟨inside, missing⟩
    exact empty g found
  · intro all g found
    obtain ⟨-, nonempty, -⟩ := bounds_of_mem_gaps found
    obtain ⟨inside, missing⟩ :=
      mem_gaps_iff.mp ⟨g, found, Span.mem_iff.mpr ⟨Nat.le_refl g.lo, nonempty⟩⟩
    exact missing (all g.lo inside)

theorem eq_or_apart {u : Span} (canonical : Canonical ts) (found : t ∈ ts) (found' : u ∈ ts) :
    t = u ∨ t.hi < u.lo ∨ u.hi < t.lo := by
  induction ts with
  | nil => cases found
  | cons v ts ih =>
    obtain ⟨-, apart, tail⟩ := Canonical.cons_iff.mp canonical
    rcases List.mem_cons.mp found with rfl | later
    · rcases List.mem_cons.mp found' with rfl | later'
      · exact .inl rfl
      · exact .inr (.inl (apart u later'))
    · rcases List.mem_cons.mp found' with rfl | later'
      · exact .inr (.inr (apart t later))
      · exact ih tail later later'

theorem covers_iff : set.covers s = true ↔ ∀ p ∈ s, p ∈ set := by
  simp only [covers, Bool.or_eq_true, Span.isEmpty_iff, List.any_eq_true, decide_eq_true_eq]
  constructor
  · rintro (vacuous | ⟨t, member, lower, upper⟩) p inside
    · rw [Span.mem_iff] at inside
      omega
    · rw [Span.mem_iff] at inside
      exact ⟨t, member, by rw [Span.mem_iff]; omega⟩
  · intro inside
    by_cases vacuous : s.hi ≤ s.lo
    · exact .inl vacuous
    · obtain ⟨t, member, lower, upper⟩ := inside s.lo (by rw [Span.mem_iff]; omega)
      refine .inr ⟨t, member, lower, ?_⟩
      rcases Nat.lt_or_ge t.hi s.hi with short | long
      · obtain ⟨u, member', reaches, passes⟩ := inside t.hi (by rw [Span.mem_iff]; omega)
        rcases eq_or_apart set.canonical member member' with rfl | apart <;> omega
      · exact long

end SpanSet

end SparseCache
