import SparseCache.Proofs.Cache.Uploading

namespace SparseCache

/-! Which offsets past the end of a file are marked as populated.

Only a write of nothing marks any: it marks what it skips over, as every write does, but
the file does not grow to reach that far.  The marks go when the file gets shorter.
-/

namespace Entry

variable {entry after : Entry} {content : Content} {data : Bytes} {offset size n p : Nat}

/-- No mark lies where a cut of the file would not remove it. -/
def Addressed (entry : Entry) : Prop := ∀ p ∈ entry.populated, p < maxOffset

theorem Addressed.of_sameFile (addressed : entry.Addressed) (same : entry.SameFile after) :
    after.Addressed :=
  fun p marked => addressed p (same.2 ▸ marked)

theorem Addressed.write (addressed : entry.Addressed) (reach : offset ≤ maxOffset)
    (done : entry.write offset data = .ok (n, after)) : after.Addressed := by
  obtain ⟨content, stored, fits, rfl⟩ := write_ok done
  intro p marked
  simp only [touch, SpanSet.mem_insert, Span.mem_iff] at marked
  rcases marked with ⟨lower, upper⟩ | ⟨-, upper⟩ | old
  · rcases fits with empty | room
    · rw [List.isEmpty_iff.mp empty, List.length_nil] at upper
      exact absurd upper (Nat.not_lt_of_le lower)
    · simp only [lengthLimit, maxOffset] at room reach ⊢
      omega
  · exact Nat.lt_of_lt_of_le upper reach
  · exact addressed p old

theorem Addressed.truncate (addressed : entry.Addressed) (done : entry.truncate size = .ok after) :
    after.Addressed := by
  obtain ⟨content, stored, fits, rfl⟩ := truncate_ok done
  intro p marked
  simp only [touch] at marked
  split at marked
  · exact addressed p (SpanSet.mem_erase.mp marked).1
  · rcases SpanSet.mem_insert.mp marked with added | old
    · have upper := added.2
      simp only [lengthLimit, maxOffset] at fits upper ⊢
      omega
    · exact addressed p old

theorem Addressed.store (addressed : entry.Addressed) (tidy : entry.Tidy)
    (done : entry.store offset data = .ok after) : after.Addressed := by
  cases stored : entry.content with
  | none => rw [store_of_closed stored] at done; cases done
  | some content =>
      rw [store_eq stored] at done
      cases done
      intro p marked
      have small := tidy.bounded content stored
      rcases SpanSet.mem_insert.mp marked with arrived | old
      · have upper := arrived.2
        simp only [lengthLimit, maxOffset] at small upper ⊢
        omega
      · exact addressed p old

/-- Past the new end a write leaves the marks as they were, unless it writes nothing. -/
theorem marked_of_write (stored : entry.content = some content)
    (done : entry.write offset data = .ok (n, after)) :
    ∃ next, after.content = some next ∧ content.size ≤ next.size ∧ ∀ p, next.size ≤ p →
      (p ∈ after.populated ↔ p ∈ entry.populated ∨ data = [] ∧ content.size ≤ p ∧ p < offset) := by
  obtain ⟨_, stored', fits, rfl⟩ := write_ok done
  rw [stored] at stored'
  cases stored'
  by_cases empty : data = []
  · subst empty
    refine ⟨_, rfl, Nat.le_refl _, fun p past => ?_⟩
    simp only [touch, SpanSet.mem_insert, Span.mem_iff, List.length_nil, true_and]
    constructor
    · rintro (⟨lower, upper⟩ | skipped | old)
      · exact absurd upper (Nat.not_lt_of_le lower)
      · exact .inr skipped
      · exact .inl old
    · rintro (old | skipped)
      · exact .inr (.inr old)
      · exact .inr (.inl skipped)
  · have size : (content.write offset data).size = max content.size (offset + data.length) :=
      Content.size_write empty
    refine ⟨_, rfl, by rw [size]; exact Nat.le_max_left _ _, fun p past => ?_⟩
    rw [size] at past
    simp only [touch, SpanSet.mem_insert, Span.mem_iff, empty, false_and, or_false]
    constructor
    · rintro (written | skipped | old)
      · omega
      · omega
      · exact old
    · exact fun old => .inr (.inr old)

/-- A cut takes all marks past the new end away; otherwise they stay. -/
theorem marked_of_truncate (addressed : entry.Addressed) (stored : entry.content = some content)
    (done : entry.truncate size = .ok after) :
    ∃ next, after.content = some next ∧ ∀ p, next.size ≤ p →
      (p ∈ after.populated ↔ p ∈ entry.populated ∧ content.size ≤ next.size) := by
  obtain ⟨_, stored', -, rfl⟩ := truncate_ok done
  rw [stored] at stored'
  cases stored'
  refine ⟨_, rfl, fun p past => ?_⟩
  rw [Content.size_resize] at past ⊢
  simp only [touch]
  split
  · rename_i shrinks
    simp only [SpanSet.mem_erase, Span.mem_iff]
    constructor
    · rintro ⟨old, kept⟩
      exact absurd ⟨past, addressed p old⟩ kept
    · rintro ⟨-, grows⟩
      exact absurd shrinks (Nat.not_lt_of_le grows)
  · rename_i grows
    simp only [SpanSet.mem_insert, Span.mem_iff]
    constructor
    · rintro (added | old)
      · exact absurd added.2 (Nat.not_lt_of_le past)
      · exact ⟨old, Nat.le_of_not_lt grows⟩
    · exact fun kept => .inr kept.1

theorem marked_of_store (stored : entry.content = some content)
    (done : entry.store offset data = .ok after) :
    ∃ next, after.content = some next ∧ next.size = content.size ∧ ∀ p, next.size ≤ p →
      (p ∈ after.populated ↔ p ∈ entry.populated) := by
  rw [store_eq stored] at done
  cases done
  refine ⟨_, rfl, size_filled, fun p past => ?_⟩
  rw [size_filled] at past
  simp only [SpanSet.mem_insert, Span.mem_iff]
  constructor
  · rintro (arrived | old)
    · omega
    · exact old
  · exact .inr

end Entry

namespace Cache

variable {cache start : Cache} {id : EntryId} {entry next made : Entry} {content : Content}
  {step : Step} {steps : Nat → Step} {m n p : Nat}

/-! ### One step -/

/-- The step writes nothing to the entry, at an offset beyond `p`. -/
def Step.Skips (id : EntryId) (p : Nat) (step : Step) : Prop :=
  ∃ offset, step = .write id offset [] ∧ p < offset

theorem not_skips (other : ∀ offset, step ≠ .write id offset []) (p : Nat) :
    ¬ step.Skips id p := by
  intro ⟨offset, same, _⟩
  exact other offset same

/-- What a step makes of the marks past the end of an entry's file. -/
structure Remarks (id : EntryId) (step : Step) (before after : Entry) (content : Content) : Prop
    where
  addressed : after.Addressed
  open_before : ∃ old, before.content = some old
  marked : ∀ old, before.content = some old → ∀ p, content.size ≤ p →
    (p ∈ after.populated ↔
      (p ∈ before.populated ∨ step.Skips id p ∧ old.size ≤ p) ∧ old.size ≤ content.size)

theorem Remarks.of_sameFile (addressed : ∀ old, entry.content = some old → entry.Addressed)
    (same : entry.SameFile next) (stored : next.content = some content)
    (silent : ∀ p, ¬ step.Skips id p) : Remarks id step entry next content := by
  have open_before : entry.content = some content := same.1.trans stored
  refine ⟨(addressed content open_before).of_sameFile same, ⟨content, open_before⟩,
    fun old stored' p past => ?_⟩
  rw [open_before] at stored'
  cases stored'
  simp only [same.2, silent, false_and, or_false, Nat.le_refl, and_true]

theorem Remarks.of_truncate {size : Nat} {before : Entry}
    (addressed : ∀ old, before.content = some old → before.Addressed)
    (same : before.SameFile entry) (done : entry.truncate size = .ok next)
    (stored : next.content = some content) (silent : ∀ p, ¬ step.Skips id p) :
    Remarks id step before next content := by
  obtain ⟨old, open_entry, -⟩ := Entry.truncate_ok done
  have open_before : before.content = some old := same.1.trans open_entry
  have addressed' := (addressed old open_before).of_sameFile same
  refine ⟨addressed'.truncate done, ⟨old, open_before⟩, fun other stored' p past => ?_⟩
  rw [open_before] at stored'
  cases stored'
  obtain ⟨cut, stored'', marked⟩ := Entry.marked_of_truncate addressed' open_entry done
  rw [stored] at stored''
  cases stored''
  rw [marked p past, same.2]
  simp only [silent, false_and, or_false]

/-- An open file never refuses to have nothing written to it. -/
theorem not_skips_of_refused (stored : entry.content = some content)
    (refused : ∀ change, step.change? cache id = some change →
      ∃ error, change.on entry = .error error) : ¬ step.Skips id p := by
  rintro ⟨offset, rfl, -⟩
  obtain ⟨error, failed⟩ := refused (.write offset []) (if_pos rfl)
  simp [LocalChange.on, Entry.write, Entry.content?, stored, bind, Except.bind,
    Except.map] at failed

theorem Turn.remarks (turn : Turn cache id entry step next)
    (addressed : ∀ old, entry.content = some old → entry.Addressed) (tidy : entry.Tidy)
    (reach : ∀ offset data, step = .write id offset data → offset ≤ Entry.maxOffset)
    (stored : next.content = some content) : Remarks id step entry next content := by
  cases turn with
  | displaced refused displaced =>
      obtain ⟨path, rfl | rfl⟩ := displaced
      · have same_file : entry.SameFile { entry with path } := ⟨rfl, rfl⟩
        have held : entry.content = some content := stored
        exact .of_sameFile addressed same_file stored fun p => not_skips_of_refused held refused
      · cases stored
  | @wrote offset data n _ done =>
      obtain ⟨old, open_before, -⟩ := Entry.write_ok done
      refine ⟨(addressed old open_before).write (reach offset data rfl) done, ⟨old, open_before⟩,
        fun other stored' p past => ?_⟩
      obtain ⟨written, stored'', grows, marked⟩ := Entry.marked_of_write stored' done
      rw [stored] at stored''
      cases stored''
      have skips : (Step.write id offset data).Skips id p ↔ data = [] ∧ p < offset := by
        constructor
        · rintro ⟨_, same, beyond⟩
          cases same
          exact ⟨rfl, beyond⟩
        · rintro ⟨rfl, beyond⟩
          exact ⟨offset, rfl, beyond⟩
      rw [marked p past, skips, and_iff_left grows, and_assoc, and_comm (a := p < offset)]
  | resized done =>
      exact .of_truncate addressed ⟨rfl, rfl⟩ done stored (not_skips nofun)
  | opened mapped keeps =>
      exact .of_sameFile addressed (entry.sameFile_reopened _) stored (not_skips nofun)
  | emptied mapped wipes done =>
      exact .of_truncate addressed (entry.sameFile_reopened _) done stored (not_skips nofun)
  | refused mapped wipes closed left =>
      have same := Entry.sameFile_releaseHandle left
      have shut : entry.content = some content := (same.1 : entry.content = _).trans stored
      cases closed.symm.trans shut
  | released held left =>
      exact .of_sameFile addressed (Entry.sameFile_releaseHandle left) stored (not_skips nofun)
  | @filled task i reply work load waiting going =>
      have silent : ∀ p, ¬ (Step.act (.deliver task i reply)).Skips id p := not_skips nofun
      rcases Load.receive_stores load i entry reply with
        same | ⟨fetch, data, filled, -, -, done, changed⟩
      · rw [same] at stored ⊢
        exact .of_sameFile addressed ⟨rfl, rfl⟩ stored silent
      · rw [changed] at stored ⊢
        cases open_before : entry.content with
        | none => rw [Entry.store_of_closed open_before] at done; cases done
        | some old =>
            obtain ⟨arrived, stored', size, marked⟩ := Entry.marked_of_store open_before done
            rw [stored] at stored'
            cases stored'
            refine ⟨(addressed old open_before).store tidy done, ⟨old, open_before⟩,
              fun other stored' p past => ?_⟩
            rw [open_before] at stored'
            cases stored'
            rw [marked p past, size]
            simp only [silent, false_and, or_false, Nat.le_refl, and_true]
  | cleaned doing about stage =>
      exact .of_sameFile addressed ⟨rfl, rfl⟩ stored (not_skips nofun)

theorem Born.unmarked (born : Born cache step made) : p ∉ made.populated := by
  cases born with
  | created fits =>
      rw [(Entry.create_ok fits).2]
      exact SpanSet.not_mem_empty
  | opened unmapped keeps fits =>
      rw [(Entry.create_ok fits).2]
      exact SpanSet.not_mem_empty
  | @emptied path flags size modified fresh _ unmapped wipes fits done =>
      have blank : fresh.openHandle.2.populated = ∅ := by
        rw [(Entry.create_ok fits).2]
        rfl
      obtain ⟨content, -, -, rfl⟩ := Entry.truncate_ok done
      simp only [Entry.touch, blank]
      split
      · simp
      · simp [Span.mem_iff]

/-! ### Along a run -/

/-- The length of an entry's file, as long as it has one. -/
def fileSize (cache : Cache) (id : EntryId) : Nat :=
  ((cache.entry? id).bind Entry.content).elim 0 Content.size

theorem fileSize_eq (found : cache.entry? id = some entry) (stored : entry.content = some content) :
    cache.fileSize id = content.size := by
  rw [fileSize, found, Option.bind_some, stored, Option.elim_some]

/-- Step `m` wrote nothing to the open file, at an offset beyond `p`, which lay past the end;
and up to step `n` the file did not get shorter. -/
structure SkippedOver (start : Cache) (steps : Nat → Step) (id : EntryId) (p m n : Nat) : Prop
    where
  skips : (steps m).Skips id p
  past : ∃ entry content, Cache.entry? (start.after steps m) id = some entry ∧
    entry.content = some content ∧ content.size ≤ p
  grows : ∀ k, m ≤ k → k < n →
    (start.after steps k).fileSize id ≤ (start.after steps (k + 1)).fileSize id

theorem exists_skippedOver_succ :
    (∃ m, m < n + 1 ∧ SkippedOver start steps id p m (n + 1)) ↔
      ((∃ m, m < n ∧ SkippedOver start steps id p m n) ∨ (steps n).Skips id p ∧
        ∃ entry content, Cache.entry? (start.after steps n) id = some entry ∧
          entry.content = some content ∧ content.size ≤ p) ∧
      (start.after steps n).fileSize id ≤ (start.after steps (n + 1)).fileSize id := by
  constructor
  · rintro ⟨m, earlier, skips, past, grows⟩
    refine ⟨?_, grows n (Nat.le_of_lt_succ earlier) (Nat.lt_succ_self n)⟩
    rcases Nat.lt_or_eq_of_le (Nat.le_of_lt_succ earlier) with before | rfl
    · exact .inl ⟨m, before, skips, past, fun k later upto =>
        grows k later (Nat.lt_succ_of_lt upto)⟩
    · exact .inr ⟨skips, past⟩
  · rintro ⟨⟨m, before, skips, past, grows⟩ | ⟨skips, past⟩, last⟩
    · refine ⟨m, Nat.lt_succ_of_lt before, skips, past, fun k later upto => ?_⟩
      rcases Nat.lt_or_eq_of_le (Nat.le_of_lt_succ upto) with inside | rfl
      · exact grows k later inside
      · exact last
    · refine ⟨n, Nat.lt_succ_self n, skips, past, fun k later upto => ?_⟩
      obtain rfl : k = n := by omega
      exact last

theorem marks_after (absent : start.entry? id = none)
    (reach : ∀ k offset data, steps k = .write id offset data → offset ≤ Entry.maxOffset)
    (found : Cache.entry? (start.after steps n) id = some entry)
    (stored : entry.content = some content) :
    entry.Addressed ∧ ∀ p, content.size ≤ p →
      (p ∈ entry.populated ↔ ∃ m, m < n ∧ SkippedOver start steps id p m n) := by
  induction n generalizing entry content with
  | zero =>
      rw [after_zero, absent] at found
      cases found
  | succ n ih =>
      cases before : Cache.entry? (start.after steps n) id with
      | none =>
          have born := (born_step before found).2
          refine ⟨fun p marked => absurd marked born.unmarked, fun p past => ?_⟩
          constructor
          · exact fun marked => absurd marked born.unmarked
          · rintro ⟨m, earlier, skipped⟩
            obtain ⟨early, _, known, -⟩ := skipped.past
            obtain ⟨later, present⟩ := exists_entry?_after known (Nat.le_of_lt_succ earlier)
            rw [before] at present
            cases present
      | some old =>
          obtain ⟨_, present, turn⟩ := turn_step before (steps n)
          rw [after_succ, present] at found
          cases found
          have remarks := turn.remarks (fun content open_before => (ih before open_before).1)
            (tidy_after absent before) (reach n) stored
          obtain ⟨file, open_before⟩ := remarks.open_before
          refine ⟨remarks.addressed, fun p past => ?_⟩
          have last : (start.after steps n).fileSize id ≤ (start.after steps (n + 1)).fileSize id ↔
              file.size ≤ content.size := by
            rw [fileSize_eq before open_before, after_succ, fileSize_eq present stored]
          rw [remarks.marked file open_before p past, exists_skippedOver_succ, last]
          refine and_congr_left fun grows => ?_
          rw [(ih before open_before).2 p (Nat.le_trans grows past)]
          have here : (∃ entry content, Cache.entry? (start.after steps n) id = some entry ∧
              entry.content = some content ∧ content.size ≤ p) ↔ file.size ≤ p := by
            constructor
            · rintro ⟨_, _, known, opened, below⟩
              rw [before] at known
              cases known
              rw [open_before] at opened
              cases opened
              exact below
            · exact fun below => ⟨old, file, before, open_before, below⟩
          rw [here]

/-- An offset past the end of an open file is marked as populated just when a write of nothing
skipped over it and the file did not get shorter since. -/
theorem marked_past_end_iff (mount : Mount) (steps : Nat → Step) (n : Nat) (id : EntryId)
    (reach : ∀ k offset data, steps k = .write id offset data → offset ≤ Entry.maxOffset)
    (entry : Entry) (content : Content)
    (found : Cache.entry? (mount.cache.after steps n) id = some entry)
    (stored : entry.content = some content) (p : Nat) :
    p ∈ entry.populated ∧ content.size ≤ p ↔
      content.size ≤ p ∧ ∃ m, m < n ∧ SkippedOver mount.cache steps id p m n := by
  rw [and_comm]
  exact and_congr_right fun past => (marks_after rfl reach found stored).2 p past

/-- A file of five bytes to which nothing is written at ten, and which then grows to eight. -/
def skippedWrite : List Step :=
  [.create ⟨[97]⟩ 5 .now, .write 0 10 [], .truncate 0 8]

theorem skippedWrite_marked :
    ∃ entry content, Cache.entry? ((mountWith 0).cache.after (scripted skippedWrite) 3) 0
        = some entry ∧ entry.content = some content ∧
      (9 ∈ entry.populated ∧ content.size ≤ 9) ∧
      ∃ m, m < 3 ∧ SkippedOver (mountWith 0).cache (scripted skippedWrite) 0 9 m 3 := by
  have shown : (Cache.entry? ((mountWith 0).cache.after (scripted skippedWrite) 3) 0).bind
      (fun entry => entry.content.map fun content =>
        (decide (9 ∈ entry.populated), decide (content.size ≤ 9))) = some (true, true) := by
    decide
  obtain ⟨entry, found, shown⟩ := Option.bind_eq_some_iff.mp shown
  obtain ⟨content, stored, shown⟩ := Option.map_eq_some_iff.mp shown
  have marked : 9 ∈ entry.populated ∧ content.size ≤ 9 := by simpa using shown
  have reach : ∀ k offset data, scripted skippedWrite k = .write 0 offset data →
      offset ≤ Entry.maxOffset := by
    intro k
    exact @scripted_forall skippedWrite
      (fun step => ∀ offset data, step = .write 0 offset data → offset ≤ Entry.maxOffset)
      (by simp [skippedWrite, Entry.maxOffset]) (by simp) k
  exact ⟨entry, content, found, stored, marked,
    ((marked_past_end_iff (mountWith 0) _ 3 0 reach entry content found stored 9).mp marked).2⟩

/-- After the empty write seven counts as populated in a file of five bytes. -/
theorem skippedWrite_marks_past_end :
    (Cache.entry? ((mountWith 0).cache.after (scripted skippedWrite) 2) 0).map
        (fun entry => (entry.content.map Content.size, decide (7 ∈ entry.populated)))
      = some (some 5, true) := by
  decide

end Cache

end SparseCache
