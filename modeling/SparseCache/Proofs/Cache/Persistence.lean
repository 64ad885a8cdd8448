import SparseCache.Proofs.Cache.Notes
import SparseCache.Proofs.Cache.Placement
import SparseCache.Proofs.Cache.Uploading

namespace SparseCache

/-! An entry that is clean is stored as it is.

An upload captures the version of its entry once everything that was missing has come.
From then on the entry has no holes, so that fetched bytes cannot change it any more and
every local change shows in the version.
-/

theorem Load.content_receive {load : Load} {i : Nat} {entry : Entry} {reply : Reply}
    (full : ∀ p, ¬ entry.Hole p) : (load.receive i entry reply).2.content = entry.content := by
  rcases receive_stores load i entry reply with same | ⟨_, _, stored, -, -, done, changed⟩
  · rw [same]
  · rw [changed]
    cases held : entry.content with
    | none => rw [Entry.store_of_closed held] at done; cases done
    | some content =>
        rw [Entry.store_eq held, Entry.filled_of_full held full] at done
        cases done
        rfl

/-- What a write carried that took effect for the entry. -/
def Event.carried? (id : EntryId) : Event → Option Bytes
  | .written entry _ chunks => if entry = id then some chunks.flatten else none
  | _ => none

/-- The version that an upload has captured. -/
def Upload.Stage.captured? : Upload.Stage → Option Nat
  | .loaded version | .copying version _ | .sending version _ _ => some version
  | _ => none

/-- What an upload has copied so far shows this content. -/
def Upload.Stage.Shows (content : Content) : Upload.Stage → Prop
  | .copying _ copy => copy.Shows content
  | .sending _ snapshot _ => snapshot = content.bytes
  | _ => True

namespace Cache

variable {cache : Cache} {id : EntryId} {task : TaskId} {job : Upload} {entry next : Entry}
  {step : Step} {steps : Nat → Step} {mount : Mount} {version m n p : Nat} {snapshot : Bytes}

/-! ### What is stored -/

/-- What the last write carried that took effect for the entry. -/
def stored? (cache : Cache) (id : EntryId) : Option Bytes :=
  (cache.events.filterMap (Event.carried? id)).getLast?

theorem stored?_eq_notes (cache : Cache) (id : EntryId) :
    cache.stored? id = (cache.notes.filterMap (Event.carried? id)).getLast? := by
  rw [stored?, notes, List.filterMap_filter]
  congr 2
  funext event
  cases event <;> simp [Event.carried?, Event.notable]

theorem Stores.stored? (stores : cache.Stores step task job version snapshot) :
    Cache.stored? (cache.step step) id
      = if job.entry = id then some snapshot else cache.stored? id := by
  have whole : (snapshot.chunks copyStep).flatten = snapshot :=
    Bytes.flatten_chunks (by decide) snapshot
  rw [stored?_eq_notes, stores.notes, List.filterMap_append, stored?_eq_notes]
  split
  · rename_i here
    simp [Event.carried?, here, whole]
  · rename_i elsewhere
    simp [Event.carried?, elsewhere]

/-- An upload ends in the step that stores its snapshot. -/
theorem Stores.ended (sound : cache.Sound)
    (stores : cache.Stores step task job version snapshot) :
    Cache.upload? (cache.step step) task = none := by
  obtain ⟨rfl, live, call, stage⟩ := stores
  simp only [Cache.step, act, settle, live?_eq_some_iff.mp live, stage]
  refine upload?_of_idle (doing?_endUpload_self ?_ task job)
  exact ⟨sound.fresh, sound.backed⟩

/-! ### What a step makes of an entry -/

/-- The step changes the file of the entry, or makes the entry and empties it at once. -/
def Step.Mutates (cache : Cache) (id : EntryId) (step : Step) : Prop :=
  (∃ entry change after, cache.entry? id = some entry ∧ step.change? cache id = some change ∧
    change.on entry = .ok after) ∨
  ∃ path flags size modified, step = .openFile path flags size modified ∧
    flags.contains .truncate = true ∧ cache.entry? id = none ∧
    (Cache.entry? (cache.step step) id).isSome = true

theorem not_mutates (found : cache.entry? id = some entry)
    (refused : ∀ change, step.change? cache id = some change →
      ∃ error, change.on entry = .error error) : ¬ step.Mutates cache id := by
  intro mutates
  rcases mutates with ⟨held, change, after, present, asked, done⟩ | ⟨_, _, _, _, -, -, absent, -⟩
  · rw [found] at present
    cases present
    obtain ⟨error, failed⟩ := refused change asked
    rw [failed] at done
    cases done
  · rw [found] at absent
    cases absent

theorem not_mutates_of_quiet (found : cache.entry? id = some entry)
    (quiet : step.change? cache id = none) : ¬ step.Mutates cache id := by
  apply not_mutates found
  intro change asked
  rw [quiet] at asked
  cases asked

/-- What becomes of the version of an entry in a step, of the version that counts as stored, and
of what is stored. -/
inductive Outcome (cache : Cache) (id : EntryId) (entry : Entry) (step : Step) : Entry → Prop
  | mutated {next : Entry} (mutates : step.Mutates cache id)
      (version : next.version = entry.version + 1) (clean : next.clean = entry.clean)
      (stored : Cache.stored? (cache.step step) id = cache.stored? id) :
      Outcome cache id entry step next
  /-- Fetched bytes may have come in, but not where there was no hole. -/
  | unchanged {next : Entry} (idle : ¬ step.Mutates cache id)
      (version : next.version = entry.version) (clean : next.clean = entry.clean)
      (content : (∀ p, ¬ entry.Hole p) → next.content = entry.content ∨ next.content = none)
      (stored : Cache.stored? (cache.step step) id = cache.stored? id) :
      Outcome cache id entry step next
  | stored {task : TaskId} {job : Upload} {version : Nat} {snapshot : Bytes}
      (idle : ¬ step.Mutates cache id) (stores : cache.Stores step task job version snapshot)
      (about : job.entry = id) (stored : Cache.stored? (cache.step step) id = some snapshot) :
      Outcome cache id entry step (entry.markClean version)

theorem Turn.outcome (turn : Turn cache id entry step next) (found : cache.entry? id = some entry)
    (stored : Cache.stored? (cache.step step) id = cache.stored? id)
    (other : ∀ {task job version snapshot}, cache.Stores step task job version snapshot →
      job.entry ≠ id) : Outcome cache id entry step next := by
  cases turn with
  | displaced refused displaced =>
      obtain ⟨_, rfl | rfl⟩ := displaced
      · exact .unchanged (not_mutates found refused) rfl rfl (fun _ => .inl rfl) stored
      · exact .unchanged (not_mutates found refused) rfl rfl (fun _ => .inr rfl) stored
  | @wrote offset data _ _ done =>
      have applied : (LocalChange.write offset data).on entry = .ok next := by
        simp [LocalChange.on, done, Except.map]
      obtain ⟨_, -, -, rfl⟩ := Entry.write_ok done
      exact .mutated (.inl ⟨entry, _, _, found, if_pos rfl, applied⟩) rfl rfl stored
  | @resized size _ done =>
      have applied : (LocalChange.truncate size).on entry = .ok next := done
      obtain ⟨_, -, -, rfl⟩ := Entry.truncate_ok done
      exact .mutated (.inl ⟨entry, _, _, found, if_pos rfl, applied⟩) rfl rfl stored
  | opened mapped keeps =>
      refine .unchanged (not_mutates_of_quiet found ?_) rfl rfl (fun _ => .inl rfl) stored
      simp [Step.change?, keeps]
  | @emptied path flags size modified _ mapped wipes done =>
      have applied : (LocalChange.truncate 0).on (entry.reopened modified) = .ok next := done
      obtain ⟨direct, repeated, -⟩ := (entry.sameFile_reopened modified).symm.on applied
      obtain ⟨_, -, -, rfl⟩ := Entry.truncate_ok done
      exact .mutated (.inl ⟨entry, _, direct, found, if_pos ⟨wipes, mapped⟩, repeated⟩) rfl rfl
        stored
  | refused mapped wipes closed left =>
      obtain ⟨-, rfl⟩ := Entry.releaseHandle?_some left
      refine .unchanged (not_mutates found fun change asked => ?_) rfl rfl (fun _ => .inl rfl)
        stored
      simp only [Step.change?, wipes, mapped, and_self, if_true, Option.some.injEq] at asked
      subst asked
      exact ⟨.closed, Entry.truncate_of_closed closed⟩
  | released held left =>
      obtain ⟨-, rfl⟩ := Entry.releaseHandle?_some left
      exact .unchanged (not_mutates_of_quiet found rfl) rfl rfl (fun _ => .inl rfl) stored
  | @filled task i reply work load waiting going =>
      obtain ⟨_, _, changed⟩ := load.receive_entry i entry reply
      have content := @Load.content_receive load i entry reply
      rw [changed] at content ⊢
      exact .unchanged (not_mutates_of_quiet found rfl) rfl rfl (fun full => .inl (content full))
        stored
  | cleaned live about stage => exact absurd about (other ⟨rfl, live, _, stage⟩)

theorem outcome_step (sound : cache.Sound) (counted : cache.Counted) (rooted : cache.Rooted)
    (found : cache.entry? id = some entry) (step : Step) :
    ∃ next, Cache.entry? (cache.step step) id = some next ∧ Outcome cache id entry step next ∧
      ∀ p, next.Hole p → entry.Hole p := by
  obtain ⟨next, present, turn⟩ := turn_step found step
  refine ⟨next, present, ?_, fun p => turn.hole⟩
  by_cases storing : ∃ task job version snapshot, cache.Stores step task job version snapshot ∧
      job.entry = id
  · obtain ⟨task, job, version, snapshot, stores, rfl⟩ := storing
    have told := stores.stored?.trans (if_pos rfl)
    obtain ⟨rfl, live, call, stage⟩ := stores
    have marked := entry?_settle (live?_eq_some_iff.mp live) stage found
    rw [if_pos rfl] at marked
    cases present.symm.trans marked
    exact .stored (not_mutates_of_quiet found rfl) ⟨rfl, live, call, stage⟩ rfl told
  · have other : ∀ {task job version snapshot}, cache.Stores step task job version snapshot →
        job.entry ≠ id := fun stores about => storing ⟨_, _, _, _, stores, about⟩
    refine turn.outcome found ?_ other
    rcases notes_step sound counted rooted step with same | ⟨task, job, version, snapshot, stores⟩
    · rw [stored?_eq_notes, same, stored?_eq_notes]
    · exact stores.stored?.trans (if_neg (other stores))

/-! ### What an upload took -/

/-- The version that an upload captured is between the one that counts as stored and the present
one, and while it is the present one what was copied shows the file. -/
structure Fits (entry : Entry) (stage : Upload.Stage) : Prop where
  cut : ∀ {version copy}, stage = .copying version copy → copy.Cut
  between : ∀ {version}, stage.captured? = some version →
    entry.clean ≤ version ∧ version ≤ entry.version ∧ ∀ p, ¬ entry.Hole p
  alike : ∀ {version content}, stage.captured? = some version → entry.version = version →
    entry.content = some content → stage.Shows content

/-- Whatever happens to an entry but the end of an upload, what was taken of it still fits. -/
theorem Fits.outcome {stage : Upload.Stage} (fits : Fits entry stage)
    (outcome : Outcome cache id entry step next) (fewer : ∀ p, next.Hole p → entry.Hole p)
    (other : ∀ {task job version snapshot}, cache.Stores step task job version snapshot →
      job.entry ≠ id) : Fits next stage := by
  cases outcome with
  | mutated mutates count clean stored =>
      refine ⟨fits.cut, fun captured => ?_, fun captured current => ?_⟩
      · obtain ⟨lower, upper, full⟩ := fits.between captured
        exact ⟨by omega, by omega, fun p hole => full p (fewer p hole)⟩
      · obtain ⟨-, upper, -⟩ := fits.between captured
        omega
  | unchanged idle count clean content stored =>
      refine ⟨fits.cut, fun captured => ?_, fun captured current held => ?_⟩
      · obtain ⟨lower, upper, full⟩ := fits.between captured
        exact ⟨by omega, by omega, fun p hole => full p (fewer p hole)⟩
      · obtain ⟨-, -, full⟩ := fits.between captured
        rcases content full with same | closed
        · exact fits.alike captured (count.symm.trans current) (same.symm.trans held)
        · rw [held] at closed
          cases closed
  | stored idle stores about stored => exact absurd about (other stores)

/-! ### One step of an upload -/

theorem Fits.loaded (behind : entry.clean ≤ entry.version) (full : ∀ p, ¬ entry.Hole p) :
    Fits entry (.loaded entry.version) where
  cut copying := by cases copying
  between captured := by
    cases captured
    exact ⟨behind, Nat.le_refl _, full⟩
  alike _ _ _ := trivial

theorem Fits.copying {content : Content} (fits : Fits entry (.loaded version))
    (stored : entry.content = some content) :
    Fits entry (.copying version { size := content.size }) where
  cut copying := by
    cases copying
    exact Copy.cut_begun _
  between := fits.between
  alike _ _ held := by
    rw [stored] at held
    cases held
    exact Copy.shows_begun _

theorem Fits.reading {copy after : Copy} {content : Content}
    (fits : Fits entry (.copying version copy)) (going : copy.isThrough = false)
    (source : entry.source? = some content) (done : copy.next content = .ok after) :
    Fits entry (.copying version after) where
  cut copying := by
    cases copying
    exact (fits.cut rfl).next going done
  between := fits.between
  alike captured current held := by
    -- The file is open, so it is what was read.
    rw [Entry.source?, held] at source
    cases source
    exact Copy.Shows.next (fits.alike captured current held) (fits.cut rfl) going done

theorem Fits.sending {copy : Copy} (fits : Fits entry (.copying version copy))
    (through : copy.isThrough = true) (call : CallId) :
    Fits entry (.sending version copy.taken.flatten call) where
  cut copying := by cases copying
  between := fits.between
  alike captured current held := by
    have shown : Copy.Shows _ _ := fits.alike captured current held
    exact (shown.flatten (fits.cut rfl) through).trans (Content.flatten_copied _)

/-- Everything that is clean is stored, and what uploads took of their entries fits. -/
structure Reliable (cache : Cache) : Prop where
  behind : ∀ {id entry}, cache.entry? id = some entry → entry.clean ≤ entry.version
  fits : ∀ {task job entry}, cache.doing? task = some (.upload job) →
    cache.entry? job.entry = some entry → Fits entry job.stage
  kept : ∀ {id entry}, cache.entry? id = some entry → entry.clean = entry.version →
    0 < entry.version → (∀ p, ¬ entry.Hole p) ∧
      ∀ content, entry.content = some content → cache.stored? id = some content.bytes

/-- What the steps of a run rely on. -/
structure Orderly (cache : Cache) : Prop where
  sound : cache.Sound
  counted : cache.Counted
  rooted : cache.Rooted
  covered : cache.Covered
  earnest : ∀ id, cache.Earnest id
  tidy : ∀ {id entry}, cache.entry? id = some entry → entry.Tidy
  single : cache.Single

theorem Born.clean_eq (born : Born cache step next) : next.clean = 0 := by
  cases born with
  | created fits => rw [(Entry.create_ok fits).2]
  | opened unmapped keeps fits => rw [(Entry.create_ok fits).2]; rfl
  | emptied unmapped wipes fits done =>
      obtain ⟨-, rfl⟩ := Entry.create_ok fits
      obtain ⟨_, -, -, rfl⟩ := Entry.truncate_ok done
      rfl

/-- An entry is as some step made it, and then no version of it counts as stored, or it comes from
what it was. -/
theorem Orderly.outcome (orderly : cache.Orderly)
    (present : Cache.entry? (cache.step step) id = some next) :
    next.clean = 0 ∨ ∃ entry, cache.entry? id = some entry ∧ Outcome cache id entry step next ∧
      ∀ p, next.Hole p → entry.Hole p := by
  cases found : cache.entry? id with
  | none => exact .inl (born_step found present).2.clean_eq
  | some entry =>
      obtain ⟨other, present', outcome⟩ := outcome_step orderly.sound orderly.counted
        orderly.rooted found step
      rw [present] at present'
      cases present'
      exact .inr ⟨entry, rfl, outcome⟩

namespace Reliable

theorem fits_of_stores (reliable : cache.Reliable)
    (stores : cache.Stores step task job version snapshot)
    (found : cache.entry? job.entry = some entry) :
    entry.clean ≤ version ∧ version ≤ entry.version ∧ (∀ p, ¬ entry.Hole p) ∧
      ∀ content, entry.version = version → entry.content = some content →
        snapshot = content.bytes := by
  obtain ⟨-, live, call, stage⟩ := stores
  have doing : cache.doing? task = some (.upload { job with permit := false }) :=
    doing?_of_live live
  have fits := reliable.fits doing found
  have captured : job.stage.captured? = some version := by rw [stage]; rfl
  obtain ⟨lower, upper, full⟩ := fits.between captured
  refine ⟨lower, upper, full, fun content current held => ?_⟩
  have shown := fits.alike captured current held
  rwa [stage] at shown

theorem behind_step (orderly : cache.Orderly) (reliable : cache.Reliable)
    (present : Cache.entry? (cache.step step) id = some next) : next.clean ≤ next.version := by
  rcases orderly.outcome present with new | ⟨entry, found, outcome, -⟩
  · rw [new]
    exact Nat.zero_le _
  · have behind := reliable.behind found
    cases outcome with
    | mutated mutates version clean stored => omega
    | unchanged idle version clean content stored => omega
    | stored idle stores about told =>
        subst about
        exact Nat.max_le.mpr ⟨behind, (reliable.fits_of_stores stores found).2.1⟩

end Reliable

/-- The read that a step answers ends only once all that it asked for has come. -/
def Step.Whole (cache : Cache) : Step → Prop
  | .act (.deliver task i reply) => ∀ work id load, cache.loadOf? task = some (work, id, load) →
    ∀ fetch, load.fetches[i]? = some fetch → reply.Whole fetch
  | _ => True

end Cache

end SparseCache
