import SparseCache.Proofs.Cache.Copying

namespace SparseCache

/-! What an upload stores of an entry that was fetched only in part.

Before it copies an entry an upload fetches what the entry lacks.  A fetch whose
stream ends early counts as finished all the same, so that the holes it left are
copied as zeros.
-/

theorem Load.tidy_receive {load : Load} {i : Nat} {entry : Entry} {reply : Reply}
    (tidy : entry.Tidy) : (load.receive i entry reply).2.Tidy := by
  rcases receive_stores load i entry reply with same | ⟨_, _, stored, -, -, done, changed⟩
  · rwa [same]
  · rw [changed]
    exact tidy.store done

namespace Cache

variable {cache start : Cache} {id : EntryId} {task : TaskId} {job : Upload}
  {entry after made : Entry} {step : Step} {steps : Nat → Step} {mount : Mount} {m n p : Nat}

/-! ### Files of a run -/

theorem Turn.tidy (turn : Turn cache id entry step after) (tidy : entry.Tidy) : after.Tidy := by
  cases turn with
  | displaced refused displaced => exact tidy.displaced displaced
  | wrote done => exact tidy.write done
  | resized done => exact tidy.truncate done
  | opened mapped keeps => exact tidy.of_sameFile (entry.sameFile_reopened _)
  | emptied mapped wipes done =>
      exact (tidy.of_sameFile (entry.sameFile_reopened _)).truncate done
  | refused mapped wipes closed left =>
      exact (tidy.of_sameFile (entry.sameFile_reopened _)).of_sameFile
        (Entry.sameFile_releaseHandle left)
  | released held left => exact tidy.of_sameFile (Entry.sameFile_releaseHandle left)
  | filled waiting going => exact Load.tidy_receive tidy
  | cleaned doing about stage => exact tidy.of_sameFile ⟨rfl, rfl⟩

theorem Born.tidy (born : Born cache step made) : made.Tidy := by
  cases born with
  | created fits => exact .of_create fits
  | opened unmapped keeps fits => exact (Entry.Tidy.of_create fits).of_sameFile ⟨rfl, rfl⟩
  | emptied unmapped wipes fits done =>
      have opened : Entry.Tidy (Entry.openHandle _).2 :=
        (Entry.Tidy.of_create fits).of_sameFile ⟨rfl, rfl⟩
      exact opened.truncate done

theorem tidy_after (absent : start.entry? id = none)
    (found : Cache.entry? (start.after steps n) id = some entry) : entry.Tidy :=
  @entry_induction id entry start steps (fun _ entry => entry.Tidy) n absent
    (fun _ _ _ _ born => born.tidy) (fun _ _ _ _ turn tidy => turn.tidy tidy) found

/-- The entry has a hole there in this state. -/
def HoleAt (cache : Cache) (id : EntryId) (p : Nat) : Prop :=
  ∃ entry, cache.entry? id = some entry ∧ entry.Hole p

theorem holeAt_before (hole : (start.after steps n).HoleAt id p) (earlier : m ≤ n)
    (known : (Cache.entry? (start.after steps m) id).isSome) :
    (start.after steps m).HoleAt id p := by
  obtain ⟨entry, found, missing⟩ := hole
  obtain ⟨first, made⟩ := Option.isSome_iff_exists.mp known
  obtain ⟨last, present, kept⟩ := @entry?_after id start first steps
    (fun before after => after.Hole p → before.Hole p) m n (fun _ hole => hole)
    (fun first second hole => first (second hole)) Turn.hole made earlier
  rw [found] at present
  cases present
  exact ⟨first, made, kept missing⟩

/-! ### What is sent of holes -/

/-- An upload whose load failed ends without a write call, and leaves the entry as it is. -/
theorem advance_of_failed_load (sound : cache.Sound) {load : Load} {error : EntryError}
    (doing : cache.doing? task = some (.upload job)) (stage : job.stage = .loading load)
    (failed : load.outcome? = some (.error error)) :
    (cache.advance task).doing? task = none ∧ (cache.advance task).entries = cache.entries ∧
      ∃ more, (cache.advance task).events
          = cache.events ++ .logged .error "upload failed" error.message? :: more ∧
        ∀ event ∈ more, ∃ tag path, event = .notified tag path := by
  obtain ⟨_, live, same⟩ := live?_of_doing? doing
  obtain ⟨own, rfl, rfl⟩ := Work.upload_of_bare same
  have loading : own.stage = .loading load := stage
  have ended : cache.advance task = cache.failUpload task own error := by
    rw [advance_of_live live]
    simp only [advanceUpload, loading, failed]
  rw [ended]
  exact ⟨doing?_endUpload_self (sound.emit _) task own,
    ((SameStore.refl cache).failUpload task own error).entries,
    events_failUpload cache task own error⟩

/-- What is a hole in state `k`, after the load of an upload has come to state `m`, is what that
load owes and what was a hole all the time since. -/
theorem hole_iff_owed (mount : Mount) (steps : Nat → Step) {load : Load} {entry : Entry}
    {m k p : Nat}
    (loading : (mount.cache.after steps m).doing? task
      = some (.upload { job with stage := .loading load }))
    (later : m ≤ k) (found : Cache.entry? (mount.cache.after steps k) job.entry = some entry) :
    entry.Hole p ↔ load.Owes p ∧
      ∀ j, m ≤ j → j ≤ k → (mount.cache.after steps j).HoleAt job.entry p := by
  constructor
  · intro hole
    have before : ∀ j, m ≤ j → j ≤ k → (mount.cache.after steps j).HoleAt job.entry p := by
      intro j after upto
      obtain ⟨first, made⟩ := Option.isSome_iff_exists.mp
        ((rooted_after mount steps m).worked loading)
      obtain ⟨between, known⟩ := exists_entry?_after made after
      exact holeAt_before ⟨entry, found, hole⟩ upto (Option.isSome_iff_exists.mpr ⟨between, known⟩)
    obtain ⟨early, present, missing⟩ := before m (Nat.le_refl m) later
    refine ⟨?_, before⟩
    -- The load is for all offsets that a file can have.
    have inside : p < lengthLimit := by
      obtain ⟨content, stored, within, -⟩ := missing
      exact Nat.lt_trans within ((tidy_after rfl present).bounded content stored)
    refine (covered_after mount steps m).owed loading rfl present p ⟨Nat.zero_le p, ?_⟩ missing
    simp only [lengthLimit] at inside
    simp only [Work.wanted, everything]
    omega
  · rintro ⟨-, holes⟩
    obtain ⟨last, present, missing⟩ := holes k later (Nat.le_refl k)
    rw [found] at present
    cases present
    exact missing

/-- The offsets that a snapshot shows without their being held, at the moment when they were
copied, are just those that the load before it left out, in fetches that ended early, and that
nobody had filled or cut off by then.  They are stored as zeros.  An upload whose load fails
stores nothing. -/
theorem sent_holes_left_out (mount : Mount) (steps : Nat → Step) (n : Nat) (task : TaskId)
    (job : Upload) (doing : (mount.cache.after steps n).doing? task = some (.upload job)) :
    (∀ version snapshot call, job.stage = .sending version snapshot call →
      ∃ load m b k states, k < n ∧
        Copied mount.cache steps task job snapshot load m b k states ∧
        ∀ p, p < snapshot.length → ∃ entry,
          Cache.entry? (mount.cache.after steps (states (p / copyStep))) job.entry = some entry ∧
          (p ∉ entry.populated ↔ load.Owes p ∧ ∀ j, m ≤ j → j ≤ states (p / copyStep) →
            (mount.cache.after steps j).HoleAt job.entry p) ∧
          (p ∉ entry.populated → snapshot[p]? = some 0)) ∧
    ∀ load error, job.stage = .loading load → load.outcome? = some (.error error) →
      steps n = .act (.advance task) →
      (mount.cache.after steps (n + 1)).doing? task = none ∧
        (mount.cache.after steps (n + 1)).entries = (mount.cache.after steps n).entries ∧
        ∃ more, (mount.cache.after steps (n + 1)).events
            = (mount.cache.after steps n).events
              ++ .logged .error "upload failed" error.message? :: more ∧
          ∀ event ∈ more, ∃ tag path, event = .notified tag path := by
  constructor
  · intro version snapshot call stage
    obtain ⟨load, m, b, k, states, taken, copied, -⟩ := copied_of_sending doing stage
    refine ⟨load, m, b, k, states, taken, copied, fun p inside => ?_⟩
    obtain ⟨since, -, content, shown, within, byte⟩ := copied.bytes p inside
    obtain ⟨entry, found, stored⟩ := entry_of_contentOf? shown
    have tidy := tidy_after rfl found
    have reached : m ≤ states (p / copyStep) := Nat.le_trans (Nat.le_of_lt copied.order.1) since
    refine ⟨entry, found, ?_, fun missing => ?_⟩
    · rw [← hole_iff_owed mount steps copied.loading reached found,
        Entry.hole_iff_of_content stored, and_iff_right within]
    · rw [byte, tidy.blank content stored p (.inl missing)]
  · intro load error stage failed advances
    rw [after_succ, advances]
    exact advance_of_failed_load (sound_after mount steps n) doing stage failed

/-- A file of four bytes of which one was written, and whose store ends the stream early. -/
def shortStream : List Step :=
  [.openFile ⟨[47, 97]⟩ .readWrite 4 .now, .write 0 0 [9], .closeHandle 1, .act (.advance 0),
    .act (.request 0 0), .act (.deliver 0 0 .accepted), .act (.deliver 0 0 (.chunk [2])),
    .act (.deliver 0 0 .ended), .act (.advance 0), .act (.advance 0), .act (.advance 0),
    .act (.advance 0), .act (.settle 0 (.ok ()))]

theorem shortStream_sent_left_out :
    ∃ (m k : Nat) (load : Load) (entry : Entry), m < k ∧ k < 12 ∧ load.outcome? = some (.ok ()) ∧
      Cache.entry? ((mountWith 0).cache.after (scripted shortStream) k) 0 = some entry ∧
      (2 ∉ entry.populated ↔ load.Owes 2 ∧
        ∀ j, m ≤ j → j ≤ k →
          ((mountWith 0).cache.after (scripted shortStream) j).HoleAt 0 2) := by
  have doing : ((mountWith 0).cache.after (scripted shortStream) 12).doing? 0
      = some (.upload ⟨0, ⟨[47, 97]⟩, .evict 1, false, .sending 1 [9, 2, 0, 0] 1⟩) := by
    decide
  obtain ⟨load, m, b, k, states, taken, copied, shown⟩ :=
    (sent_holes_left_out (mountWith 0) (scripted shortStream) 12 0 _ doing).1 _ _ _ rfl
  obtain ⟨entry, found, hole_iff, -⟩ := shown 2 (by decide)
  obtain ⟨since, before, -⟩ := copied.bytes 2 (by decide)
  exact ⟨m, _, load, entry, Nat.lt_of_lt_of_le copied.order.1 since, Nat.lt_trans before taken,
    copied.loaded, found, hole_iff⟩

/-- The two bytes that did not come are stored as zeros, and the entry counts as clean. -/
theorem shortStream_stores_zeros :
    (Cache.entry? ((mountWith 0).cache.after (scripted shortStream) 10) 0).map
        (fun entry => (entry.content.map Content.bytes, decide (2 ∈ entry.populated)))
      = some (some [9, 2, 0, 0], false) ∧
    ((mountWith 0).cache.after (scripted shortStream) 12).doing? 0
      = some (.upload ⟨0, ⟨[47, 97]⟩, .evict 1, false, .sending 1 [9, 2, 0, 0] 1⟩) ∧
    (Cache.entry? ((mountWith 0).cache.after (scripted shortStream) 13) 0).map Entry.isDirty
      = some false := by
  exact ⟨by decide, by decide, by decide⟩

end Cache

end SparseCache
