import SparseCache.Entry.Export
import SparseCache.Proofs.Entry.Changes

namespace SparseCache

/-! What a snapshot of an entry shows: every byte of the file, and zero for a hole. -/

theorem Bytes.flatten_chunksOf {step fuel : Nat} {bytes : Bytes} (positive : 0 < step)
    (enough : bytes.length ≤ fuel) : (chunksOf step fuel bytes).flatten = bytes := by
  induction fuel generalizing bytes with
  | zero =>
      obtain rfl := List.eq_nil_of_length_eq_zero (Nat.le_zero.mp enough)
      rfl
  | succ fuel ih =>
      cases bytes with
      | nil => rfl
      | cons byte rest =>
          have left : (List.drop step (byte :: rest)).length ≤ fuel := by
            rw [List.length_drop]
            simp only [List.length_cons] at enough ⊢
            omega
          rw [chunksOf, List.flatten_cons, ih left, List.take_append_drop]
          intro empty
          cases empty

theorem Bytes.flatten_chunks {step : Nat} (positive : 0 < step) (bytes : Bytes) :
    (bytes.chunks step).flatten = bytes :=
  flatten_chunksOf positive (Nat.le_refl _)

namespace Content

variable {content : Content} {lo middle hi step p : Nat}

theorem read_append (first : lo ≤ middle) (second : middle ≤ hi) :
    content.read ⟨lo, middle⟩ ++ content.read ⟨middle, hi⟩ = content.read ⟨lo, hi⟩ := by
  apply List.ext_getElem?
  intro i
  have width : (content.read ⟨lo, middle⟩).length = middle - lo := length_read
  rcases Nat.lt_or_ge i (middle - lo) with left | right
  · rw [List.getElem?_append_left (by omega), getElem?_read (by simp only [Span.length]; omega),
      getElem?_read (by simp only [Span.length]; omega)]
  · rw [List.getElem?_append_right (by omega), width]
    rcases Nat.lt_or_ge i (hi - lo) with inside | outside
    · rw [getElem?_read (by simp only [Span.length]; omega),
        getElem?_read (by simp only [Span.length]; omega)]
      congr 2
      simp only
      omega
    · rw [List.getElem?_eq_none (by rw [length_read]; simp only [Span.length]; omega),
        List.getElem?_eq_none (by rw [length_read]; simp only [Span.length]; omega)]

theorem flatten_pieces (content : Content) (size step n : Nat) :
    (((List.range n).map fun i =>
        (⟨0 + i * step, min size (0 + (i + 1) * step)⟩ : Span)).map content.read).flatten
      = content.read ⟨0, min size (n * step)⟩ := by
  induction n with
  | zero =>
      apply (List.eq_nil_of_length_eq_zero _).symm
      simp [length_read, Span.length]
  | succ n ih =>
      rw [List.range_succ, List.map_append, List.map_append, List.flatten_append, ih]
      simp only [List.map_cons, List.map_nil, List.flatten_cons, List.flatten_nil,
        List.append_nil, Nat.zero_add]
      rcases Nat.le_total (n * step) size with within | past
      · rw [Nat.min_eq_right within]
        have grows : n * step ≤ (n + 1) * step := Nat.mul_le_mul_right step (Nat.le_succ n)
        exact read_append (Nat.zero_le _) (Nat.le_min.mpr ⟨within, grows⟩)
      · have empty : content.read ⟨n * step, min size ((n + 1) * step)⟩ = [] := by
          apply List.eq_nil_of_length_eq_zero
          rw [length_read]
          exact Nat.sub_eq_zero_of_le (Nat.le_trans (Nat.min_le_left _ _) past)
        have grown : size ≤ (n + 1) * step :=
          Nat.le_trans past (Nat.mul_le_mul_right step (Nat.le_succ n))
        rw [empty, List.append_nil, Nat.min_eq_left past, Nat.min_eq_left grown]

theorem flatten_copied (content : Content) : content.copied.flatten = content.bytes := by
  have pieces := flatten_pieces content content.size copyStep
    ((content.size + copyStep - 1) / copyStep)
  have enough : content.size ≤ (content.size + copyStep - 1) / copyStep * copyStep := by
    have positive : 0 < copyStep := by decide
    have rounded := Nat.div_add_mod (content.size + copyStep - 1) copyStep
    have small := Nat.mod_lt (content.size + copyStep - 1) positive
    rw [Nat.mul_comm] at rounded
    omega
  rw [Nat.min_eq_left enough] at pieces
  exact pieces

end Content

namespace Entry

variable {entry after : Entry} {content : Content} {data : Bytes} {offset size n p : Nat}

/-- Files are of a size that can be kept, and what is not populated reads as zero. -/
structure Tidy (entry : Entry) : Prop where
  bounded : ∀ content, entry.content = some content → content.size < lengthLimit
  blank : ∀ content, entry.content = some content →
    ∀ p, p ∉ entry.populated ∨ content.size ≤ p → content.byteAt p = 0

theorem Tidy.of_sameFile (tidy : entry.Tidy) (same : entry.SameFile after) : after.Tidy where
  bounded content stored := tidy.bounded content (same.1.trans stored)
  blank content stored p bare := tidy.blank content (same.1.trans stored) p (same.2 ▸ bare)

theorem Tidy.displaced (tidy : entry.Tidy) (displaced : entry.Displaced after) : after.Tidy := by
  obtain ⟨path, rfl | rfl⟩ := displaced
  · exact ⟨tidy.bounded, tidy.blank⟩
  · constructor
    · intro content stored
      cases stored
    · intro content stored
      cases stored

theorem tidy_of_content (stored : entry.content = some content)
    (bounded : content.size < lengthLimit)
    (blank : ∀ p, p ∉ entry.populated ∨ content.size ≤ p → content.byteAt p = 0) :
    entry.Tidy := by
  constructor
  · intro other found
    rw [stored] at found
    cases found
    exact bounded
  · intro other found
    rw [stored] at found
    cases found
    exact blank

theorem Tidy.of_create {path : Path} {modified : Modified}
    (fits : Entry.create path size modified = .ok entry) : entry.Tidy := by
  obtain ⟨small, rfl⟩ := create_ok fits
  exact tidy_of_content rfl small fun _ _ => rfl

theorem Tidy.write (tidy : entry.Tidy) (done : entry.write offset data = .ok (n, after)) :
    after.Tidy := by
  obtain ⟨content, stored, fits, rfl⟩ := write_ok done
  have bounded := tidy.bounded content stored
  have blank := tidy.blank content stored
  by_cases empty : data = []
  · subst empty
    refine tidy_of_content rfl bounded fun p bare => blank p ?_
    simp only [touch, SpanSet.mem_insert, not_or] at bare
    exact bare.imp_left fun missing => missing.2.2
  · have size : (content.write offset data).size = max content.size (offset + data.length) :=
      Content.size_write empty
    have room : offset + data.length < lengthLimit := by simpa [empty] using fits
    refine tidy_of_content rfl (by rw [size]; omega) fun p bare => ?_
    simp only [touch, SpanSet.mem_insert, Span.mem_iff, not_or, size] at bare
    rw [Content.byteAt_write_of_not_mem (by omega)]
    refine blank p ?_
    rcases bare with missing | past
    · exact .inl missing.2.2
    · exact .inr (by omega)

theorem Tidy.truncate (tidy : entry.Tidy) (done : entry.truncate size = .ok after) :
    after.Tidy := by
  obtain ⟨content, stored, fits, rfl⟩ := truncate_ok done
  have blank := tidy.blank content stored
  refine tidy_of_content rfl fits fun p bare => ?_
  rw [Content.byteAt_resize]
  split
  · rename_i inside
    refine blank p ?_
    rcases bare with missing | past
    · simp only [touch] at missing
      split at missing
      · refine .inl fun here => missing (SpanSet.mem_erase.mpr ⟨here, ?_⟩)
        simp only [Span.mem_iff]
        omega
      · exact .inl fun here => missing (SpanSet.mem_insert.mpr (.inr here))
    · exact absurd past (by simp only [Content.size_resize]; omega)
  · rfl

theorem Tidy.store (tidy : entry.Tidy) (done : entry.store offset data = .ok after) :
    after.Tidy := by
  cases stored : entry.content with
  | none => rw [store_of_closed stored] at done; cases done
  | some content =>
      rw [store_eq stored] at done
      cases done
      have blank := tidy.blank content stored
      refine tidy_of_content rfl (by rw [size_filled]; exact tidy.bounded content stored)
        fun p bare => ?_
      rw [size_filled] at bare
      have painted := byteAt_filled entry content offset data p
      have apart : ¬ ((offset ≤ p ∧ p < min content.size (offset + data.length)) ∧
          p ∉ entry.populated) := by
        rintro ⟨⟨lower, upper⟩, -⟩
        rcases bare with missing | past
        · exact missing (SpanSet.mem_insert.mpr (.inl ⟨lower, upper⟩))
        · omega
      rw [if_neg apart] at painted
      rw [Option.some.inj painted]
      refine blank p (bare.imp_left fun missing here => ?_)
      exact missing (SpanSet.mem_insert.mpr (.inr here))

end Entry

end SparseCache
