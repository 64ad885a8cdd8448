import SparseCache.SpanSet.Lemmas

namespace SparseCache.SpanSet

/-! The gaps of a set are the longest runs of offsets that it lacks. -/

variable {set : SpanSet} {s t g g' : Span} {ts : List Span} {lo hi p : Nat}

/-- A longest run of offsets of `s` that the set lacks. -/
structure LongestGap (set : SpanSet) (s run : Span) : Prop where
  nonempty : run.lo < run.hi
  lacking : ∀ p, p ∈ run → p ∈ s ∧ p ∉ set
  longest : ∀ wider : Span, (∀ p, p ∈ run → p ∈ wider) →
    (∀ p, p ∈ wider → p ∈ s ∧ p ∉ set) → wider = run

/-- Between two gaps lies an offset that the set holds. -/
theorem canonical_gapsIn (canonical : Canonical ts) : Canonical (gapsIn ts lo hi) := by
  induction ts generalizing lo with
  | nil =>
    unfold gapsIn
    split
    · exact Canonical.cons_iff.mpr ⟨‹_›, by simp, .nil⟩
    · exact .nil
  | cons t ts ih =>
    obtain ⟨head, -, tail⟩ := Canonical.cons_iff.mp canonical
    unfold gapsIn
    split
    · exact .nil
    · split
      · exact ih tail
      · split
        · exact Canonical.cons_iff.mpr ⟨by simp only; omega, by simp, .nil⟩
        · split
          · refine Canonical.cons_iff.mpr ⟨‹_›, fun u later => ?_, ih tail⟩
            have := (bounds_of_mem_gapsIn tail later).1
            simp only
            omega
          · exact ih tail

theorem canonical_gaps (set : SpanSet) (s : Span) : Canonical (set.gaps s) :=
  canonical_gapsIn set.canonical

theorem nodup_gaps (set : SpanSet) (s : Span) : (set.gaps s).Nodup := by
  obtain ⟨nonempty, apart⟩ := set.canonical_gaps s
  refine List.Pairwise.imp_of_mem (fun {g g'} found _ before same => ?_) apart
  have := nonempty g found
  subst same
  omega

theorem longestGap_of_mem_gaps (found : g ∈ set.gaps s) : set.LongestGap s g where
  nonempty := (bounds_of_mem_gaps found).2.1
  lacking p inside := mem_gaps_iff.mp ⟨g, found, inside⟩
  longest := by
    intro wider covers lacking
    have nonempty := (bounds_of_mem_gaps found).2.1
    have first := Span.mem_iff.mp (covers g.lo (Span.mem_iff.mpr (by omega)))
    have last := Span.mem_iff.mp (covers (g.hi - 1) (Span.mem_iff.mpr (by omega)))
    -- an offset next to the gap would lie in a gap of its own
    have apart : ∀ p, p ∈ wider → p + 1 = g.lo ∨ p = g.hi → False := by
      intro p inside next
      obtain ⟨g', found', within⟩ := mem_gaps_iff.mpr (lacking p inside)
      rw [Span.mem_iff] at within
      rcases eq_or_apart (set.canonical_gaps s) found found' with rfl | before | after <;> omega
    have lower : ¬ wider.lo < g.lo := fun longer =>
      apart (g.lo - 1) (Span.mem_iff.mpr (by omega)) (.inl (by omega))
    have upper : ¬ g.hi < wider.hi := fun longer =>
      apart g.hi (Span.mem_iff.mpr (by omega)) (.inr rfl)
    cases wider
    cases g
    simp only [Span.mk.injEq] at *
    omega

theorem mem_gaps_iff_longestGap : g ∈ set.gaps s ↔ set.LongestGap s g := by
  refine ⟨longestGap_of_mem_gaps, fun run => ?_⟩
  have first : g.lo ∈ g := Span.mem_iff.mpr ⟨Nat.le_refl _, run.nonempty⟩
  obtain ⟨g', found, within⟩ := mem_gaps_iff.mpr (run.lacking g.lo first)
  have gap := longestGap_of_mem_gaps found
  -- two runs that share an offset are one run
  have joined : ∀ p, p ∈ g.join g' ↔ p ∈ g ∨ p ∈ g' := fun p =>
    Span.mem_join_iff (Nat.le_of_lt (Nat.lt_of_le_of_lt (Span.mem_iff.mp first).1 within.2))
      (Nat.le_trans within.1 (Nat.le_of_lt run.nonempty))
  have lacking : ∀ p, p ∈ g.join g' → p ∈ s ∧ p ∉ set := fun p inside =>
    ((joined p).mp inside).elim (run.lacking p) (gap.lacking p)
  have whole := run.longest _ (fun p inside => (joined p).mpr (.inl inside)) lacking
  have whole' := gap.longest _ (fun p inside => (joined p).mpr (.inr inside)) lacking
  rw [← whole, whole']
  exact found

end SparseCache.SpanSet
