import SparseCache.Proofs.SpanSet.Queries

namespace SparseCache

/-! Edits of a set of offsets as they are made on a map from starts to ends.

An insert looks for the span that starts last at or before the new one, begins with it if it
reaches, and absorbs all spans that start within.  An erase walks over the spans from the origin
on, takes each off that overlaps, and puts back what is left of it on either side.  Both leave the
spans that the plain walks over the whole list leave, because spans in canonical form are
determined by their offsets.
-/

namespace Canonical

variable {t u : Span} {ts : List Span}

/-- Different spans start at different places. -/
theorem eq_of_lo (canonical : Canonical ts) (first : t ∈ ts) (second : u ∈ ts)
    (same : t.lo = u.lo) : t = u := by
  have nonempty := canonical.1 t first
  have nonempty' := canonical.1 u second
  rcases SpanSet.eq_or_apart canonical first second with equal | before | after
  · exact equal
  · omega
  · omega

end Canonical

namespace SpanSet

variable {set : SpanSet} {s t u : Span} {ts : List Span} {p lo hi : Nat}

/-! ### One entry of the map -/

/-- Takes off the span that starts at `lo`, if there is one. -/
def without (lo : Nat) (spans : List Span) : List Span := spans.filter fun t => t.lo != lo

/-- Puts `s` in at its place, instead of the span that starts there. -/
def place (s : Span) : List Span → List Span
  | [] => [s]
  | t :: ts =>
    if t.lo < s.lo then t :: place s ts
    else if s.lo < t.lo then s :: t :: ts
    else s :: ts

theorem mem_without : u ∈ without lo ts ↔ u ∈ ts ∧ u.lo ≠ lo := by
  simp [without]

theorem canonical_without (canonical : Canonical ts) : Canonical (without lo ts) :=
  canonical.filter _

/-- A span that touches no other is put in beside them. -/
theorem mem_place (canonical : Canonical ts) (nonempty : s.lo < s.hi)
    (apart : ∀ t ∈ ts, t.hi < s.lo ∨ s.hi < t.lo) : u ∈ place s ts ↔ u = s ∨ u ∈ ts := by
  induction ts with
  | nil => simp [place]
  | cons t ts ih =>
    obtain ⟨head, -, tail⟩ := Canonical.cons_iff.mp canonical
    have here := apart t (.head _)
    unfold place
    split
    · rw [List.mem_cons, ih tail fun t later => apart t (.tail _ later), List.mem_cons]
      exact or_left_comm
    · rw [if_pos (by omega), List.mem_cons]

theorem canonical_place (canonical : Canonical ts) (nonempty : s.lo < s.hi)
    (apart : ∀ t ∈ ts, t.hi < s.lo ∨ s.hi < t.lo) : Canonical (place s ts) := by
  induction ts with
  | nil => exact Canonical.cons_iff.mpr ⟨nonempty, by simp, .nil⟩
  | cons t ts ih =>
    obtain ⟨head, behind, tail⟩ := Canonical.cons_iff.mp canonical
    have here := apart t (.head _)
    have others : ∀ t ∈ ts, t.hi < s.lo ∨ s.hi < t.lo := fun t later => apart t (.tail _ later)
    unfold place
    split
    · refine Canonical.cons_iff.mpr ⟨head, fun u found => ?_, ih tail others⟩
      rcases (mem_place tail nonempty others).mp found with rfl | later
      · omega
      · exact behind u later
    · rw [if_pos (by omega)]
      refine Canonical.cons_iff.mpr ⟨nonempty, fun u found => ?_, canonical⟩
      rcases List.mem_cons.mp found with rfl | later
      · omega
      · have := behind u later
        omega

/-! ### Inserting -/

/-- The span to be put in for `s` begins with the one before it, if that reaches so far. -/
def widened (set : SpanSet) (s : Span) : Span :=
  match set.reaching? s.lo with
  | some t => if s.lo ≤ t.hi then ⟨t.lo, max s.hi t.hi⟩ else s
  | none => s

/-- The spans that start within `s` or where it ends. -/
def absorbed (spans : List Span) (s : Span) : List Span :=
  spans.filter fun t => decide (s.lo ≤ t.lo ∧ t.lo ≤ s.hi)

/-- Takes the spans `doomed` off one by one. -/
def withoutAll (doomed spans : List Span) : List Span :=
  doomed.foldl (fun spans t => without t.lo spans) spans

/-- The end of what begins before `hi` and goes on with `doomed`. -/
def reach (doomed : List Span) (hi : Nat) : Nat := doomed.foldl (fun hi t => max hi t.hi) hi

/-- Takes `doomed` off, and puts in one span that reaches as far as they do. -/
def absorbing (doomed : List Span) (s : Span) (spans : List Span) : List Span :=
  place ⟨s.lo, reach doomed s.hi⟩ (withoutAll doomed spans)

theorem widened_cases (set : SpanSet) (s : Span) :
    (∃ t ∈ set.spans, t.lo ≤ s.lo ∧ s.lo ≤ t.hi ∧ set.widened s = ⟨t.lo, max s.hi t.hi⟩) ∨
      set.widened s = s ∧ ∀ t ∈ set.spans, t.lo ≤ s.lo → t.hi < s.lo := by
  unfold widened
  have alone : (∀ t, set.reaching? s.lo = some t → t.hi < s.lo) →
      ∀ t ∈ set.spans, t.lo ≤ s.lo → t.hi < s.lo := by
    intro short t member lower
    rcases Nat.lt_or_ge t.hi s.lo with before | reaches
    · exact before
    · exact short t (reaching?_eq_some member lower reaches)
  cases found : set.reaching? s.lo with
  | none => exact .inr ⟨rfl, alone fun t other => by rw [found] at other; cases other⟩
  | some t =>
    obtain ⟨member, lower⟩ := mem_of_reaching? found
    by_cases reaches : s.lo ≤ t.hi
    · exact .inl ⟨t, member, lower, reaches, if_pos reaches⟩
    · refine .inr ⟨if_neg reaches, alone fun other found' => ?_⟩
      rw [found] at found'
      cases found'
      omega

theorem widened_nonempty (nonempty : s.lo < s.hi) : (set.widened s).lo < (set.widened s).hi := by
  rcases set.widened_cases s with ⟨t, -, lower, -, same⟩ | ⟨same, -⟩
  · rw [same]
    simp only
    omega
  · rwa [same]

/-- Nothing before the span to be put in reaches it. -/
theorem lt_widened (member : t ∈ set.spans) (earlier : t.lo < (set.widened s).lo) :
    t.hi < (set.widened s).lo := by
  rcases set.widened_cases s with ⟨u, member', -, -, same⟩ | ⟨same, short⟩
  · rw [same] at earlier ⊢
    simp only at earlier ⊢
    have first := set.canonical.1 u member'
    rcases eq_or_apart set.canonical member member' with rfl | clear | clear <;> omega
  · rw [same] at earlier ⊢
    exact short t member (Nat.le_of_lt earlier)

/-- What is new is there already. -/
theorem mem_widened_or : p ∈ set.widened s ∨ p ∈ set ↔ p ∈ s ∨ p ∈ set := by
  rcases set.widened_cases s with ⟨t, member, lower, reaches, same⟩ | ⟨same, -⟩
  · have joined : p ∈ set.widened s ↔ p ∈ s ∨ p ∈ t := by
      rw [same]
      simp only [Span.mem_iff]
      omega
    have held : p ∈ t → p ∈ set := fun inside => ⟨t, member, inside⟩
    rw [joined, or_assoc, or_iff_right_of_imp held]
  · rw [same]

theorem mem_withoutAll (doomed : List Span) :
    u ∈ withoutAll doomed ts ↔ u ∈ ts ∧ ∀ t ∈ doomed, u.lo ≠ t.lo := by
  induction doomed generalizing ts with
  | nil => simp [withoutAll]
  | cons t doomed ih =>
    have first : withoutAll (t :: doomed) ts = withoutAll doomed (without t.lo ts) := rfl
    simp [first, ih, mem_without, and_assoc]

theorem canonical_withoutAll (canonical : Canonical ts) (doomed : List Span) :
    Canonical (withoutAll doomed ts) := by
  induction doomed generalizing ts with
  | nil => exact canonical
  | cons t doomed ih => exact ih (canonical_without canonical)

theorem lt_reach_iff (doomed : List Span) :
    p < reach doomed hi ↔ p < hi ∨ ∃ t ∈ doomed, p < t.hi := by
  induction doomed generalizing hi with
  | nil => simp [reach]
  | cons t doomed ih =>
    have first : reach (t :: doomed) hi = reach doomed (max hi t.hi) := rfl
    have either : p < max hi t.hi ↔ p < hi ∨ p < t.hi := by omega
    simp only [first, ih, either, or_assoc, List.mem_cons, exists_eq_or_imp]

theorem reach_lt_iff (doomed : List Span) :
    reach doomed hi < p ↔ hi < p ∧ ∀ t ∈ doomed, t.hi < p := by
  induction doomed generalizing hi with
  | nil => simp [reach]
  | cons t doomed ih =>
    have first : reach (t :: doomed) hi = reach doomed (max hi t.hi) := rfl
    simp only [first, ih, Nat.max_lt, and_assoc, List.mem_cons, forall_eq_or_imp]

theorem mem_absorbed : t ∈ absorbed ts s ↔ t ∈ ts ∧ s.lo ≤ t.lo ∧ t.lo ≤ s.hi := by
  simp [absorbed]

/-- What starts elsewhere stays. -/
theorem mem_unabsorbed :
    u ∈ withoutAll (absorbed ts s) ts ↔ u ∈ ts ∧ ¬ (s.lo ≤ u.lo ∧ u.lo ≤ s.hi) := by
  rw [mem_withoutAll]
  refine and_congr_right fun member => ⟨fun spared inside => ?_, fun outside t found same => ?_⟩
  · exact spared u (mem_absorbed.mpr ⟨member, inside⟩) rfl
  · exact outside (same ▸ (mem_absorbed.mp found).2)

/-- What stays touches nothing of what is put in. -/
theorem unabsorbed_apart (canonical : Canonical ts)
    (before : ∀ t ∈ ts, t.lo < s.lo → t.hi < s.lo) (stays : u ∈ withoutAll (absorbed ts s) ts) :
    u.hi < s.lo ∨ reach (absorbed ts s) s.hi < u.lo := by
  obtain ⟨member, outside⟩ := mem_unabsorbed.mp stays
  rcases Nat.lt_or_ge u.lo s.lo with earlier | later
  · exact .inl (before u member earlier)
  · refine .inr ((reach_lt_iff _).mpr ⟨by omega, fun t taken => ?_⟩)
    obtain ⟨member', -, upto⟩ := mem_absorbed.mp taken
    have first := canonical.1 u member
    rcases eq_or_apart canonical member' member with rfl | clear | clear <;> omega

/-- Absorbing adds the offsets of `s` and no others, as long as nothing reaches `s` from before. -/
theorem absorbing_spec (canonical : Canonical ts) (nonempty : s.lo < s.hi)
    (before : ∀ t ∈ ts, t.lo < s.lo → t.hi < s.lo) :
    Canonical (absorbing (absorbed ts s) s ts) ∧
      ∀ p, (∃ u ∈ absorbing (absorbed ts s) s ts, p ∈ u) ↔ p ∈ s ∨ ∃ t ∈ ts, p ∈ t := by
  have kept := canonical_withoutAll canonical (absorbed ts s)
  have grown : s.lo < reach (absorbed ts s) s.hi := (lt_reach_iff _).mpr (.inl nonempty)
  have apart : ∀ u ∈ withoutAll (absorbed ts s) ts,
      u.hi < s.lo ∨ reach (absorbed ts s) s.hi < u.lo :=
    fun u stays => unabsorbed_apart canonical before stays
  have placed : ∀ u, u ∈ absorbing (absorbed ts s) s ts ↔
      u = ⟨s.lo, reach (absorbed ts s) s.hi⟩ ∨ u ∈ ts ∧ ¬ (s.lo ≤ u.lo ∧ u.lo ≤ s.hi) :=
    fun u => (mem_place kept grown apart).trans (or_congr_right mem_unabsorbed)
  refine ⟨canonical_place kept grown apart, fun p => ?_⟩
  simp only [placed, or_and_right, exists_or, exists_eq_left, Span.mem_iff, lt_reach_iff]
  constructor
  · rintro (⟨lower, upper | ⟨t, taken, upper⟩⟩ | ⟨u, ⟨member, -⟩, inside⟩)
    · exact .inl ⟨lower, upper⟩
    · obtain ⟨member, -, upto⟩ := mem_absorbed.mp taken
      rcases Nat.lt_or_ge p s.hi with inside | beyond
      · exact .inl ⟨lower, inside⟩
      · exact .inr ⟨t, member, by omega, upper⟩
    · exact .inr ⟨u, member, inside⟩
  · rintro (⟨lower, upper⟩ | ⟨u, member, lower, upper⟩)
    · exact .inl ⟨lower, .inl upper⟩
    · by_cases inside : s.lo ≤ u.lo ∧ u.lo ≤ s.hi
      · exact .inl ⟨by omega, .inr ⟨u, mem_absorbed.mpr ⟨member, inside⟩, upper⟩⟩
      · exact .inr ⟨u, ⟨member, inside⟩, lower, upper⟩

/-- An insert is one look at the span before, and one walk over those that start within. -/
theorem insert_eq_absorbing (set : SpanSet) (s : Span) :
    (set.insert s).spans = if s.isEmpty then set.spans
      else absorbing (absorbed set.spans (set.widened s)) (set.widened s) set.spans := by
  cases vacuous : s.isEmpty with
  | true => rw [if_pos rfl, insert_of_empty (Span.isEmpty_iff.mp vacuous)]
  | false =>
    have nonempty := Span.isEmpty_eq_false_iff.mp vacuous
    rw [if_neg Bool.false_ne_true]
    obtain ⟨canonical, holds⟩ := absorbing_spec set.canonical (widened_nonempty nonempty)
      fun t member => lt_widened (s := s) member
    apply Canonical.eq_of_same (set.insert s).canonical canonical
    intro p
    rw [holds, ← mem_iff, mem_insert, ← mem_iff, mem_widened_or]

/-! ### Erasing -/

/-- Puts `piece` in, unless there is nothing of it. -/
def putBack (piece : Span) (spans : List Span) : List Span :=
  if piece.lo < piece.hi then place piece spans else spans

/-- Takes off the span `t`, and puts back what of it lies before `s` and behind. -/
def cutOut (s : Span) (spans : List Span) (t : Span) : List Span :=
  putBack ⟨s.hi, t.hi⟩ (putBack ⟨t.lo, s.lo⟩ (without t.lo spans))

/-- The spans that overlap `s`, looked for from the origin on. -/
def overlapping (set : SpanSet) (s : Span) : List Span :=
  set.spans.filter fun t =>
    decide (set.origin s.lo ≤ t.lo ∧ t.lo < s.hi) && decide (s.lo < t.hi)

theorem mem_overlapping : t ∈ set.overlapping s ↔ t ∈ set.spans ∧ t.lo < s.hi ∧ s.lo < t.hi := by
  simp only [overlapping, List.mem_filter, Bool.and_eq_true, decide_eq_true_eq]
  refine and_congr_right fun member => ⟨fun ⟨⟨_, upper⟩, reaches⟩ => ⟨upper, reaches⟩,
    fun ⟨upper, reaches⟩ => ⟨⟨?_, upper⟩, reaches⟩⟩
  rcases Nat.lt_or_ge s.lo t.lo with behind | before
  · exact Nat.le_trans set.origin_le (Nat.le_of_lt behind)
  · rw [origin, reaching?_eq_some member before (Nat.le_of_lt reaches)]
    exact Nat.le_refl t.lo

theorem putBack_spec (piece : Span) (canonical : Canonical ts)
    (apart : piece.lo < piece.hi → ∀ u ∈ ts, u.hi < piece.lo ∨ piece.hi < u.lo) :
    Canonical (putBack piece ts) ∧
      ∀ u, u ∈ putBack piece ts ↔ u ∈ ts ∨ (u = piece ∧ piece.lo < piece.hi) := by
  unfold putBack
  split
  · rename_i some
    refine ⟨canonical_place canonical some (apart some), fun u => ?_⟩
    rw [mem_place canonical some (apart some), or_comm, and_iff_left some]
  · rename_i none
    exact ⟨canonical, fun u => (or_iff_left fun both => none both.2).symm⟩

/-- What is left of a span that overlaps `s` is a piece before `s` and one behind. -/
theorem mem_minus_of_overlap (upper : t.lo < s.hi) (reaches : s.lo < t.hi) :
    u ∈ t.minus s ↔ (u = ⟨t.lo, s.lo⟩ ∧ t.lo < s.lo) ∨ (u = ⟨s.hi, t.hi⟩ ∧ s.hi < t.hi) := by
  have first : min t.hi s.lo = s.lo := by omega
  have second : max t.lo s.hi = s.hi := by omega
  simp only [Span.minus, first, second, List.mem_filter, List.mem_cons, List.not_mem_nil,
    or_false, Bool.not_eq_true', Span.isEmpty_eq_false_iff]
  constructor
  · rintro ⟨rfl | rfl, longer⟩
    · exact .inl ⟨rfl, longer⟩
    · exact .inr ⟨rfl, longer⟩
  · rintro (⟨rfl, longer⟩ | ⟨rfl, longer⟩)
    · exact ⟨.inl rfl, longer⟩
    · exact ⟨.inr rfl, longer⟩

/-- Cutting `s` out of one span leaves all others as they are. -/
theorem cutOut_spec (canonical : Canonical ts) (nonempty : s.lo < s.hi) (member : t ∈ ts)
    (upper : t.lo < s.hi) (reaches : s.lo < t.hi) :
    Canonical (cutOut s ts t) ∧
      ∀ u, u ∈ cutOut s ts t ↔ (u ∈ ts ∧ u ≠ t) ∨ u ∈ t.minus s := by
  have rest : ∀ u, u ∈ without t.lo ts ↔ u ∈ ts ∧ u ≠ t := by
    intro u
    rw [mem_without]
    refine and_congr_right fun found => not_congr ⟨fun same => ?_, fun same => same ▸ rfl⟩
    exact canonical.eq_of_lo found member same
  have clear : ∀ u ∈ without t.lo ts, u.hi < t.lo ∨ t.hi < u.lo := by
    intro u found
    obtain ⟨found, other⟩ := (rest u).mp found
    rcases eq_or_apart canonical found member with same | before | after
    · exact absurd same other
    · exact .inl before
    · exact .inr after
  have start : Canonical (without t.lo ts) := canonical_without canonical
  obtain ⟨canonical', before⟩ := putBack_spec ⟨t.lo, s.lo⟩ start fun _ u found => by
    have := clear u found
    simp only
    omega
  obtain ⟨canonical'', behind⟩ := putBack_spec ⟨s.hi, t.hi⟩ canonical' fun _ u found => by
    rcases (before u).mp found with other | ⟨rfl, -⟩
    · have := clear u other
      simp only
      omega
    · exact .inl nonempty
  refine ⟨canonical'', fun u => ?_⟩
  rw [cutOut, behind, before, rest, mem_minus_of_overlap upper reaches, or_assoc]

/-- All of `doomed` are cut, one after the other. -/
theorem foldl_cutOut_spec {doomed : List Span} (canonical : Canonical ts)
    (nonempty : s.lo < s.hi) (distinct : doomed.Nodup)
    (each : ∀ t ∈ doomed, t ∈ ts ∧ t.lo < s.hi ∧ s.lo < t.hi) :
    Canonical (doomed.foldl (cutOut s) ts) ∧
      ∀ u, u ∈ doomed.foldl (cutOut s) ts ↔
        (u ∈ ts ∧ u ∉ doomed) ∨ ∃ t ∈ doomed, u ∈ t.minus s := by
  induction doomed generalizing ts with
  | nil => simpa using canonical
  | cons t doomed ih =>
    obtain ⟨fresh, others⟩ := List.nodup_cons.mp distinct
    obtain ⟨member, upper, reaches⟩ := each t (.head _)
    obtain ⟨canonical', holds⟩ := cutOut_spec canonical nonempty member upper reaches
    have remain : ∀ v ∈ doomed, v ∈ cutOut s ts t ∧ v.lo < s.hi ∧ s.lo < v.hi := by
      intro v later
      obtain ⟨member', bounds⟩ := each v (.tail _ later)
      exact ⟨(holds v).mpr (.inl ⟨member', fun same => fresh (same ▸ later)⟩), bounds⟩
    obtain ⟨final, left⟩ := ih canonical' others remain
    refine ⟨final, fun u => ?_⟩
    -- What was put back of `t` does not overlap, so that it is cut no more.
    have spared : u ∈ t.minus s → u ∉ doomed := by
      intro piece later
      obtain ⟨-, upper', reaches'⟩ := each u (.tail _ later)
      have outside := Span.mem_minus_iff.mp
        ⟨u, piece, Span.mem_iff.mpr ⟨Nat.le_max_left u.lo s.lo, by
          have := bounds_of_mem_minus piece
          omega⟩⟩
      omega
    rw [List.foldl_cons, left, holds]
    simp only [List.mem_cons, exists_eq_or_imp, not_or]
    grind

/-- An erase is one walk from the origin on, in which each span that overlaps is taken off and
what is left of it put back. -/
theorem erase_eq_from_origin (set : SpanSet) (s : Span) :
    (set.erase s).spans = if s.isEmpty then set.spans
      else (set.overlapping s).foldl (cutOut s) set.spans := by
  cases vacuous : s.isEmpty with
  | true =>
    have reversed := Span.isEmpty_iff.mp vacuous
    rw [if_pos rfl, erase, dif_neg (Nat.not_lt_of_le reversed)]
  | false =>
    have nonempty := Span.isEmpty_eq_false_iff.mp vacuous
    have distinct : (set.overlapping s).Nodup := by
      refine List.Pairwise.filter _ (set.canonical.2.imp_of_mem fun {t u} found _ before same => ?_)
      have := set.canonical.1 t found
      rw [same] at before this
      omega
    obtain ⟨canonical, holds⟩ := foldl_cutOut_spec set.canonical nonempty distinct fun t found =>
      mem_overlapping.mp found
    rw [if_neg Bool.false_ne_true]
    apply Canonical.eq_of_same (set.erase s).canonical canonical
    intro p
    rw [← mem_iff, mem_erase, mem_iff]
    simp only [holds]
    constructor
    · rintro ⟨⟨t, member, inside⟩, outside⟩
      by_cases hit : t ∈ set.overlapping s
      · have apart : p < s.lo ∨ s.hi ≤ p := by
          rw [Span.mem_iff] at outside
          omega
        obtain ⟨u, piece, found⟩ := Span.mem_minus_iff.mpr ⟨inside, apart⟩
        exact ⟨u, .inr ⟨t, hit, piece⟩, found⟩
      · exact ⟨t, .inl ⟨member, hit⟩, inside⟩
    · rintro ⟨u, ⟨member, missed⟩ | ⟨t, hit, piece⟩, inside⟩
      · refine ⟨⟨u, member, inside⟩, fun within => missed (mem_overlapping.mpr ⟨member, ?_⟩)⟩
        rw [Span.mem_iff] at inside within
        omega
      · obtain ⟨held, apart⟩ := Span.mem_minus_iff.mp ⟨u, piece, inside⟩
        refine ⟨⟨t, (mem_overlapping.mp hit).1, held⟩, fun within => ?_⟩
        rw [Span.mem_iff] at within
        omega

end SpanSet

end SparseCache
