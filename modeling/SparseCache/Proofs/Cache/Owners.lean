import SparseCache.Proofs.Cache.Handles

namespace SparseCache

/-! Who evicts an idle entry: its upload as long as one is on record, and then a timer.

An upload that ends leaves a timer behind, and closing the last handle puts an upload on
record; nothing else makes an owner.  The epoch tells the timer in charge from those that
have had their day.
-/

/-- A task goes on with the same job. -/
inductive Work.Onward : Work → Work → Prop
  | transfer {old new : Transfer} : Onward (.transfer old) (.transfer new)
  | upload {job : Upload} {stage : Upload.Stage} : Onward (.upload job) (.upload { job with stage })

theorem Work.onward_withLoad {work : Work} {entry : EntryId} {load next : Load}
    (waits : work.load? = some (entry, load)) : work.Onward (work.withLoad next) := by
  cases work with
  | transfer job => exact .transfer
  | upload job => exact .upload
  | grace entry epoch due => cases waits

namespace Cache

variable {cache before middle after : Cache} {id : EntryId} {entry next : Entry}
  {path source destination : Path} {task upload : TaskId} {job : Upload} {epoch : Nat}
  {lapsed lapsed' : Path → Prop}

/-- The task is a running timer of the entry, for that epoch. -/
def Times (cache : Cache) (task : TaskId) (id : EntryId) (epoch : Nat) : Prop :=
  ∃ due, cache.doing? task = some (.grace id epoch due)

/-- The upload on record for a location, and what it does. -/
structure Pends (cache : Cache) (path : Path) (task : TaskId) (job : Upload) : Prop where
  registered : cache.pending.get? path = some task
  doing : cache.doing? task = some (.upload job)

/-- Each idle entry has one owner.  Within a step that may have `lapsed` for some places. -/
structure OwnedBut (cache : Cache) (lapsed : Path → Prop) : Prop where
  placed : ∀ {path id}, cache.mapped.get? path = some id →
    ∃ entry, cache.entry? id = some entry ∧ entry.path.Same path
  pends : ∀ {path task}, cache.pending.get? path = some task →
    ∃ job, cache.doing? task = some (.upload job) ∧ job.path.Same path
  tied : ∀ {path task job}, cache.Pends path task job → ¬ lapsed path →
    cache.mapped.get? path = some job.entry ∧
      ∃ entry, cache.entry? job.entry = some entry ∧ job.completion = .evict entry.epoch
  timely : ∀ {task id epoch}, cache.Times task id epoch →
    ∃ entry, cache.entry? id = some entry ∧ epoch ≤ entry.epoch
  single : ∀ {id entry one other}, cache.entry? id = some entry →
    cache.Times one id entry.epoch → cache.Times other id entry.epoch → one = other
  apart : ∀ {path upload job entry task}, cache.Pends path upload job →
    cache.entry? job.entry = some entry → ¬ cache.Times task job.entry entry.epoch
  owned : ∀ {path id entry}, cache.mapped.get? path = some id → cache.entry? id = some entry →
    entry.handles = 0 → ¬ lapsed path →
    (∃ task, cache.pending.get? path = some task) ∨ ∃ task, cache.Times task id entry.epoch

/-- Each idle entry has one owner. -/
abbrev Owned (cache : Cache) : Prop := cache.OwnedBut fun _ => False

namespace OwnedBut

theorem not_registered (owned : cache.OwnedBut lapsed)
    (other : ∀ job, cache.doing? task ≠ some (.upload job)) :
    cache.pending.get? path ≠ some task := by
  intro registered
  obtain ⟨job, doing, -⟩ := owned.pends registered
  exact other job doing

theorem not_registered_of_times (owned : cache.OwnedBut lapsed)
    (times : cache.Times task id epoch) (path : Path) : cache.pending.get? path ≠ some task := by
  obtain ⟨due, doing⟩ := times
  refine owned.not_registered fun job found => ?_
  rw [doing] at found
  cases found

theorem same_of_registered (owned : cache.OwnedBut lapsed)
    (one : cache.pending.get? source = some task)
    (other : cache.pending.get? destination = some task) : source.Same destination := by
  obtain ⟨job, doing, here⟩ := owned.pends one
  obtain ⟨job', doing', there⟩ := owned.pends other
  rw [doing] at doing'
  cases doing'
  exact here.symm.trans there

theorem same_of_mapped (owned : cache.OwnedBut lapsed)
    (one : cache.mapped.get? source = some id) (other : cache.mapped.get? destination = some id) :
    source.Same destination := by
  obtain ⟨entry, found, here⟩ := owned.placed one
  obtain ⟨entry', found', there⟩ := owned.placed other
  rw [found] at found'
  cases found'
  exact here.symm.trans there

/-- Where entries keep their epochs, a timer of the present epoch was one before. -/
theorem age_of_times (owned : before.OwnedBut lapsed)
    (ages : ∀ {id entry}, before.entry? id = some entry →
      ∃ next, after.entry? id = some next ∧ next.epoch = entry.epoch)
    (times : before.Times task id epoch) (shown : after.entry? id = some next) :
    ∃ entry, before.entry? id = some entry ∧ next.epoch = entry.epoch := by
  obtain ⟨entry, found, -⟩ := owned.timely times
  obtain ⟨other, present, age⟩ := ages found
  rw [shown] at present
  cases present
  exact ⟨entry, found, age⟩

end OwnedBut

/-! ### Entries that stay in place -/

/-- Entries stay where they are, no epoch ends and no entry gets idle. -/
structure Keeps (before after : Cache) : Prop where
  kept : ∀ {id entry}, before.entry? id = some entry →
    ∃ next, after.entry? id = some next ∧ next.path = entry.path ∧ next.epoch = entry.epoch ∧
      (next.handles = 0 → entry.handles = 0)

namespace Keeps

theorem of_entries (same : after.entries = before.entries) : Keeps before after := by
  refine ⟨fun {id entry} found => ⟨entry, ?_, rfl, rfl, fun idle => idle⟩⟩
  rw [Cache.entry?, same]
  exact found

theorem refl (cache : Cache) : Keeps cache cache := of_entries rfl

theorem trans (first : Keeps before middle) (second : Keeps middle after) :
    Keeps before after := by
  refine ⟨fun {id entry} found => ?_⟩
  obtain ⟨between, found', place, epoch, idle⟩ := first.kept found
  obtain ⟨next, found'', place', epoch', idle'⟩ := second.kept found'
  exact ⟨next, found'', place'.trans place, epoch'.trans epoch, fun none => idle (idle' none)⟩

theorem modifyEntry (cache : Cache) (id : EntryId) {change : Entry → Entry}
    (alike : ∀ entry, (change entry).path = entry.path ∧ (change entry).epoch = entry.epoch ∧
      ((change entry).handles = 0 → entry.handles = 0)) :
    Keeps cache (cache.modifyEntry id change) := by
  refine ⟨fun {other held} found => ?_⟩
  rw [entry?_modifyEntry]
  split
  · exact ⟨change held, by rw [found]; rfl, alike held⟩
  · exact ⟨held, found, rfl, rfl, fun idle => idle⟩

theorem setEntry (found : cache.entry? id = some entry) (place : next.path = entry.path)
    (epoch : next.epoch = entry.epoch) (idle : next.handles = 0 → entry.handles = 0) :
    Keeps cache (cache.setEntry id next) := by
  refine ⟨fun {other held} present => ?_⟩
  rw [entry?_setEntry]
  split
  · rename_i here
    rw [here, found] at present
    cases present
    exact ⟨next, by rw [here, found]; rfl, place, epoch, idle⟩
  · exact ⟨held, present, rfl, rfl, fun idle => idle⟩

theorem closeEntry (cache : Cache) (id : EntryId) : Keeps cache (cache.closeEntry id) := by
  refine ⟨fun {other held} found => ?_⟩
  rw [entry?_closeEntry]
  split
  · exact ⟨held.close, by rw [found]; rfl, rfl, rfl, fun idle => idle⟩
  · exact ⟨held, found, rfl, rfl, fun idle => idle⟩

theorem onEntry {α : Type} (cache : Cache) (id : EntryId)
    (operation : Entry → Except EntryError (α × Entry))
    (alike : ∀ entry result next, operation entry = .ok (result, next) →
      next.path = entry.path ∧ next.epoch = entry.epoch ∧ next.handles = entry.handles) :
    Keeps cache (cache.onEntry id operation).2 := by
  unfold Cache.onEntry
  split
  · exact .refl _
  · rename_i entry found
    split
    · exact .refl _
    · rename_i result next done
      obtain ⟨place, epoch, handles⟩ := alike entry result next done
      exact .setEntry found place epoch fun idle => handles ▸ idle

theorem append (cache : Cache) (made : Entry) (extended : after.entries = cache.entries ++ [made]) :
    Keeps cache after := by
  refine ⟨fun {id entry} found => ⟨entry, ?_, rfl, rfl, fun idle => idle⟩⟩
  exact ((entry?_append cache extended).trans
    (if_neg (Nat.ne_of_lt (lt_length_of_found found)))).trans found

theorem allocate (cache : Cache) (path : Path) (size : Nat) (modified : Modified) :
    Keeps cache (cache.allocate path size modified).2 := by
  unfold Cache.allocate
  split
  · split
    · exact .refl _
    · exact .append cache _ rfl
  · exact .refl _

end Keeps

/-! ### Fewer owners -/

/-- Nothing is mapped, on record or timed but what was so before. -/
structure Fewer (before after : Cache) : Prop where
  mapped : ∀ {path id}, after.mapped.get? path = some id → before.mapped.get? path = some id
  entries : Keeps before after
  pending : ∀ {path task}, after.pending.get? path = some task →
    before.pending.get? path = some task
  doing : ∀ {path task job}, after.pending.get? path = some task →
    before.doing? task = some (.upload job) →
    ∃ stage, after.doing? task = some (.upload { job with stage })
  times : ∀ {task id epoch}, after.Times task id epoch → before.Times task id epoch

theorem OwnedBut.fewer (owned : before.OwnedBut lapsed) (fewer : Fewer before after)
    (tied : ∀ {path task}, after.pending.get? path = some task → ¬ lapsed' path → ¬ lapsed path ∧
      ∀ id, before.mapped.get? path = some id → after.mapped.get? path = some id)
    (kept : ∀ {path id entry}, after.mapped.get? path = some id → after.entry? id = some entry →
      entry.handles = 0 → ¬ lapsed' path → ¬ lapsed path ∧
        (∀ task, before.pending.get? path = some task → after.pending.get? path = some task) ∧
        ∀ task, before.Times task id entry.epoch → after.Times task id entry.epoch) :
    after.OwnedBut lapsed' := by
  have pends_before : ∀ {path task job}, after.Pends path task job →
      ∃ old stage, before.Pends path task old ∧ job = { old with stage } := by
    intro path task job pends
    have registered := fewer.pending pends.registered
    obtain ⟨old, doing, -⟩ := owned.pends registered
    obtain ⟨stage, now⟩ := fewer.doing pends.registered doing
    rw [pends.doing] at now
    cases now
    exact ⟨old, stage, ⟨registered, doing⟩, rfl⟩
  have ages : ∀ {id entry}, before.entry? id = some entry →
      ∃ next, after.entry? id = some next ∧ next.epoch = entry.epoch := by
    intro id entry found
    obtain ⟨next, present, -, age, -⟩ := fewer.entries.kept found
    exact ⟨next, present, age⟩
  refine ⟨fun {path id} mapped => ?_, fun {path task} registered => ?_,
    fun {path task job} pends going => ?_, fun {task id epoch} times => ?_,
    fun {id next one other} found first second => ?_,
    fun {path upload job next task} pends found times => ?_,
    fun {path id next} mapped found idle going => ?_⟩
  · obtain ⟨entry, found, here⟩ := owned.placed (fewer.mapped mapped)
    obtain ⟨next, found', place, -⟩ := fewer.entries.kept found
    exact ⟨next, found', by rwa [place]⟩
  · obtain ⟨job, doing, here⟩ := owned.pends (fewer.pending registered)
    obtain ⟨stage, doing'⟩ := fewer.doing registered doing
    exact ⟨_, doing', here⟩
  · obtain ⟨old, stage, pends', rfl⟩ := pends_before pends
    obtain ⟨gone, still⟩ := tied pends.registered going
    obtain ⟨mapped, entry, found, goal⟩ := owned.tied pends' gone
    obtain ⟨next, found', -, epoch, -⟩ := fewer.entries.kept found
    exact ⟨still _ mapped, next, found', by rw [epoch]; exact goal⟩
  · obtain ⟨entry, found, upto⟩ := owned.timely (fewer.times times)
    obtain ⟨next, found', epoch⟩ := ages found
    exact ⟨next, found', by rwa [epoch]⟩
  · obtain ⟨entry, present, epoch⟩ := owned.age_of_times ages (fewer.times first) found
    rw [epoch] at first second
    exact owned.single present (fewer.times first) (fewer.times second)
  · obtain ⟨old, stage, pends', rfl⟩ := pends_before pends
    obtain ⟨entry, present, epoch⟩ := owned.age_of_times ages (fewer.times times) found
    rw [epoch] at times
    exact owned.apart pends' present (fewer.times times)
  · obtain ⟨gone, records, timers⟩ := kept mapped found idle going
    obtain ⟨entry, present, -⟩ := owned.placed (fewer.mapped mapped)
    obtain ⟨other, found', -, epoch, handles⟩ := fewer.entries.kept present
    rw [found] at found'
    cases found'
    rcases owned.owned (fewer.mapped mapped) present (handles idle) gone with
      ⟨task, registered⟩ | ⟨task, times⟩
    · exact .inl ⟨task, records task registered⟩
    · exact .inr ⟨task, timers task (by rwa [epoch])⟩

theorem Fewer.refl (cache : Cache) : Fewer cache cache :=
  ⟨fun mapped => mapped, .refl cache, fun registered => registered,
    fun {_ _ job} _ doing => ⟨job.stage, doing⟩, fun times => times⟩

/-- Where nothing is on record and no idle entry is mapped, nothing is missing. -/
theorem OwnedBut.restored (owned : cache.OwnedBut lapsed)
    (free : ∀ path, lapsed path → ¬ lapsed' path → cache.pending.get? path = none)
    (used : ∀ {path id entry}, lapsed path → ¬ lapsed' path → cache.mapped.get? path = some id →
      cache.entry? id = some entry → 0 < entry.handles) : cache.OwnedBut lapsed' := by
  refine owned.fewer (.refl cache)
    (fun {path task} registered going => ⟨?_, fun _ mapped => mapped⟩)
    fun {path id entry} mapped found idle going =>
      ⟨?_, fun _ registered => registered, fun _ times => times⟩
  · intro gone
    rw [free path gone going] at registered
    cases registered
  · intro gone
    have busy := used gone going mapped found
    rw [idle] at busy
    cases busy

theorem OwnedBut.mono (owned : cache.OwnedBut lapsed) (wider : ∀ path, lapsed path → lapsed' path) :
    cache.OwnedBut lapsed' :=
  owned.restored (fun path gone going => absurd (wider path gone) going)
    fun {path _ _} gone going => absurd (wider path gone) going

/-! ### The same owners -/

/-- The same is mapped, on record and timed. -/
structure Quiet (before after : Cache) : Prop where
  mapped : after.mapped = before.mapped
  entries : Keeps before after
  pending : after.pending = before.pending
  doing : ∀ {path task job}, before.pending.get? path = some task →
    before.doing? task = some (.upload job) →
    ∃ stage, after.doing? task = some (.upload { job with stage })
  times : ∀ {task id epoch}, after.Times task id epoch ↔ before.Times task id epoch

theorem OwnedBut.quiet (owned : before.OwnedBut lapsed) (quiet : Quiet before after) :
    after.OwnedBut lapsed := by
  have fewer : Fewer before after :=
    ⟨fun mapped => quiet.mapped ▸ mapped, quiet.entries,
      fun registered => quiet.pending ▸ registered,
      fun registered doing => quiet.doing (quiet.pending ▸ registered) doing, quiet.times.mp⟩
  refine owned.fewer fewer (fun _ going => ⟨going, fun _ mapped => ?_⟩)
    fun _ _ _ going => ⟨going, fun _ registered => ?_, fun _ times => quiet.times.mpr times⟩
  · rwa [quiet.mapped]
  · rwa [quiet.pending]

namespace Quiet

theorem of_sameWork (same : SameWork before after) (mapped : after.mapped = before.mapped)
    (entries : Keeps before after) : Quiet before after where
  mapped := mapped
  entries := entries
  pending := same.pending
  doing {_ _ job} _ doing := ⟨job.stage, same.doing?.trans doing⟩
  times {task id epoch} := by rw [Times, Times, same.doing?]

theorem trans (first : Quiet before middle) (second : Quiet middle after) :
    Quiet before after where
  mapped := second.mapped.trans first.mapped
  entries := first.entries.trans second.entries
  pending := second.pending.trans first.pending
  doing registered doing := by
    obtain ⟨stage, doing'⟩ := first.doing registered doing
    obtain ⟨stage', doing''⟩ := second.doing (first.pending ▸ registered) doing'
    exact ⟨stage', doing''⟩
  times := second.times.trans first.times

theorem closeEntry (cache : Cache) (id : EntryId) : Quiet cache (cache.closeEntry id) :=
  .of_sameWork ((SameWork.refl cache).closeEntry id) (SameTables.closeEntry cache id).mapped
    (.closeEntry cache id)

/-- A task that goes on with its job owns what it owned. -/
theorem setWork {old new : Work} (doing : cache.doing? task = some old)
    (onward : old.Onward new.bare) : Quiet cache (cache.setWork task new) where
  mapped := rfl
  entries := .of_entries rfl
  pending := rfl
  doing {path other job} _ held := by
    rw [doing?_setWork]
    split
    · rename_i here
      rw [here, doing] at held
      cases held
      generalize new.bare = next at onward
      cases onward
      exact ⟨_, by rw [here, doing]; rfl⟩
    · exact ⟨job.stage, held⟩
  times {other id epoch} := by
    simp only [Times, doing?_setWork]
    split
    · rename_i here
      rw [here, doing]
      generalize new.bare = next at onward
      cases onward <;> simp
    · exact Iff.rfl

theorem stopped (same : SameStore before after) (pending : after.pending = before.pending)
    (doing : ∀ other, after.doing? other = if other = task then none else before.doing? other)
    (unrecorded : ∀ {path job}, before.pending.get? path = some task →
      before.doing? task ≠ some (.upload job))
    (untimed : ∀ id epoch, ¬ before.Times task id epoch) : Quiet before after where
  mapped := same.mapped
  entries := .of_entries same.entries
  pending := pending
  doing {path other job} registered held := by
    refine ⟨job.stage, (doing other).trans ((if_neg ?_).trans held)⟩
    rintro rfl
    exact unrecorded registered held
  times {other id epoch} := by
    by_cases here : other = task
    · subst here
      simp only [Times, doing, if_true]
      constructor
      · rintro ⟨_, found⟩
        cases found
      · exact fun times => absurd times (untimed id epoch)
    · simp only [Times, doing, here, if_false]

end Quiet

/-! ### Cancelling and unmapping -/

theorem OwnedBut.cancel (owned : cache.OwnedBut lapsed) (sound : cache.Sound) (path : Path) :
    (cache.cancel path).2.OwnedBut fun other =>
      lapsed other ∨ other.Same path ∧ (cache.pending.get? path).isSome := by
  have store := (SameStore.refl cache).cancel path
  have erased := @pending_cancel cache path sound.backed
  have registered_before : ∀ {other task},
      (cache.cancel path).2.pending.get? other = some task →
        ¬ path.Same other ∧ cache.pending.get? other = some task := by
    intro other task registered
    rwa [erased, PathMap.get?_erase_eq_some_iff] at registered
  have fewer : Fewer cache (cache.cancel path).2 := by
    refine ⟨fun mapped => store.mapped ▸ mapped, .of_entries store.entries,
      fun registered => (registered_before registered).2,
      fun {other task job} registered doing => ?_, fun {task id epoch} times => ?_⟩
    · obtain ⟨apart, before⟩ := registered_before registered
      refine ⟨job.stage, (doing?_cancel sound.backed).trans ((if_neg fun here => ?_).trans doing)⟩
      exact apart (owned.same_of_registered here before)
    · obtain ⟨due, doing⟩ := times
      exact ⟨due, (Wanes.cancel sound path).doing doing⟩
  refine owned.fewer fewer
    (fun registered going => ⟨fun gone => going (.inl gone), fun _ mapped => ?_⟩)
    fun {other id entry} _ _ _ going =>
      ⟨fun gone => going (.inl gone), fun task registered => ?_, fun task times => ?_⟩
  · rwa [store.mapped]
  · rw [erased, PathMap.get?_erase_eq_some_iff]
    refine ⟨fun here => going (.inr ⟨here.symm, ?_⟩), registered⟩
    rw [PathMap.get?_congr here, registered]
    rfl
  · have unregistered := owned.not_registered_of_times times path
    obtain ⟨due, doing⟩ := times
    exact ⟨due, (doing?_cancel sound.backed).trans ((if_neg unregistered).trans doing)⟩

theorem pending_cancelled (sound : cache.Sound) {other : Path} (here : path.Same other) :
    (cache.cancel path).2.pending.get? other = none := by
  rw [pending_cancel sound.backed]
  exact PathMap.get?_erase_of_same here

theorem OwnedBut.narrowed {left : PathMap EntryId} {gone : Path → Prop}
    (owned : cache.OwnedBut lapsed) (missing : ∀ {path}, gone path → left.get? path = none)
    (kept : ∀ {path}, ¬ gone path → left.get? path = cache.mapped.get? path) :
    OwnedBut { cache with mapped := left } fun path => lapsed path ∨ gone path := by
  have fewer : Fewer cache { cache with mapped := left } := by
    refine ⟨fun {path id} mapped => ?_, .of_entries rfl, fun registered => registered,
      fun {_ _ job} _ doing => ⟨job.stage, doing⟩, fun times => times⟩
    have present : left.get? path = some id := mapped
    rw [← kept fun lost => ?_]
    · exact present
    · rw [missing lost] at present
      cases present
  refine owned.fewer fewer (fun _ going => ⟨fun gone => going (.inl gone), fun _ mapped => ?_⟩)
    fun _ _ _ going => ⟨fun gone => going (.inl gone), fun _ registered => registered,
      fun _ times => times⟩
  exact (kept fun lost => going (.inr lost)).trans mapped

/-- An entry may be discarded once nothing is on record at its place. -/
theorem OwnedBut.unmap (owned : cache.OwnedBut lapsed) (free : cache.pending.get? path = none)
    (id : EntryId) :
    (closeEntry { cache with mapped := cache.mapped.erase path } id).OwnedBut fun other =>
      lapsed other ∧ ¬ path.Same other := by
  have narrowed := @OwnedBut.narrowed _ _ _ path.Same owned PathMap.get?_erase_of_same
    PathMap.get?_erase_of_not_same
  refine OwnedBut.quiet ?_ (.closeEntry _ id)
  refine narrowed.restored (fun other gone going => ?_) fun {other _ _} gone going mapped _ => ?_
  · rcases gone with gone | here
    · by_cases here : path.Same other
      · exact (PathMap.get?_congr here).symm.trans free
      · exact absurd ⟨gone, here⟩ going
    · exact (PathMap.get?_congr here).symm.trans free
  · have present := (PathMap.get?_erase_eq_some_iff.mp mapped).1
    rcases gone with gone | here
    · exact absurd ⟨gone, present⟩ going
    · exact absurd here present

/-! ### Taking charge -/

/-- How a new task comes to be in charge of an entry: as an upload that goes on record, or as a
timer where none is. -/
inductive TakesCharge (before after : Cache) (id : EntryId) (entry : Entry) (new : TaskId) :
    Work → Prop
  | upload {job : Upload} (about : job.entry = id) (here : job.path = entry.path)
      (goal : job.completion = .evict entry.epoch)
      (recorded : after.pending = before.pending.set entry.path new) :
      TakesCharge before after id entry new (.upload job)
  | timer {due : Nat} (free : before.pending.get? entry.path = none)
      (alone : ∀ {path task job}, before.Pends path task job → job.entry ≠ id)
      (kept : after.pending = before.pending) :
      TakesCharge before after id entry new (.grace id entry.epoch due)

/-- An entry without a timer is handed over to a new task.  What was on record at its place
stops. -/
structure HandsOver (before after : Cache) (id : EntryId) (entry : Entry) (new : TaskId)
    (work : Work) : Prop where
  store : SameStore before after
  found : before.entry? id = some entry
  mapped : before.mapped.get? entry.path = some id
  untimed : ∀ task, ¬ before.Times task id entry.epoch
  unused : before.doing? new = none
  doing : ∀ task, after.doing? task = if task = new then some work
    else if before.pending.get? entry.path = some task then none else before.doing? task
  takes : TakesCharge before after id entry new work

namespace HandsOver

variable {new : TaskId} {work held : Work}

theorem kept (hands : HandsOver before after id entry new work) (owned : before.OwnedBut lapsed)
    (doing : before.doing? task = some held)
    (still : ∀ job, held = .upload job →
      ∃ path, ¬ entry.path.Same path ∧ before.pending.get? path = some task) :
    after.doing? task = some held := by
  have old : task ≠ new := by
    rintro rfl
    rw [hands.unused] at doing
    cases doing
  refine (hands.doing task).trans ((if_neg old).trans ((if_neg fun registered => ?_).trans doing))
  obtain ⟨job, upload, -⟩ := owned.pends registered
  rw [doing] at upload
  obtain ⟨path, apart, elsewhere⟩ := still job (Option.some.inj upload)
  exact apart (owned.same_of_registered registered elsewhere)

theorem times_after (hands : HandsOver before after id entry new work)
    (owned : before.OwnedBut lapsed) {other : EntryId} (times : before.Times task other epoch) :
    after.Times task other epoch := by
  obtain ⟨due, timer⟩ := times
  exact ⟨due, hands.kept owned timer fun job same => by cases same⟩

theorem times_before (hands : HandsOver before after id entry new work) {other : EntryId}
    (times : after.Times task other epoch) :
    before.Times task other epoch ∨ task = new ∧ ∃ due, work = .grace other epoch due := by
  obtain ⟨due, timer⟩ := times
  rw [hands.doing] at timer
  split at timer
  · rename_i here
    exact .inr ⟨here, due, Option.some.inj timer⟩
  · split at timer
    · cases timer
    · exact .inl ⟨due, timer⟩

theorem registered_before (hands : HandsOver before after id entry new work)
    (registered : after.pending.get? path = some task) :
    entry.path.Same path ∧ task = new ∧ (∃ job, work = .upload job) ∨
      ¬ entry.path.Same path ∧ before.pending.get? path = some task := by
  cases hands.takes with
  | @upload job _ _ _ recorded =>
      rw [recorded, PathMap.get?_set] at registered
      split at registered
      · rename_i here
        exact .inl ⟨here, (Option.some.inj registered).symm, job, rfl⟩
      · rename_i apart
        exact .inr ⟨apart, registered⟩
  | timer free _ kept =>
      rw [kept] at registered
      refine .inr ⟨fun here => ?_, registered⟩
      rw [← PathMap.get?_congr here, free] at registered
      cases registered

theorem registered_after (hands : HandsOver before after id entry new work)
    (apart : ¬ entry.path.Same path) (registered : before.pending.get? path = some task) :
    after.pending.get? path = some task := by
  cases hands.takes with
  | upload _ _ _ recorded => rw [recorded, PathMap.get?_set, if_neg apart, registered]
  | timer _ _ kept => rw [kept, registered]

theorem pends_before (hands : HandsOver before after id entry new work)
    (owned : before.OwnedBut lapsed) (pends : after.Pends path task job) :
    entry.path.Same path ∧ work = .upload job ∨
      ¬ entry.path.Same path ∧ before.Pends path task job := by
  rcases hands.registered_before pends.registered with ⟨here, rfl, -⟩ | ⟨apart, registered⟩
  · refine .inl ⟨here, ?_⟩
    have working := pends.doing
    rw [hands.doing, if_pos rfl] at working
    exact Option.some.inj working
  · obtain ⟨old, before, -⟩ := owned.pends registered
    have still := hands.kept owned before fun _ _ => ⟨path, apart, registered⟩
    rw [pends.doing] at still
    cases still
    exact .inr ⟨apart, registered, before⟩

theorem of_timer {other : EntryId} {due : Nat}
    (hands : HandsOver before after id entry new (.grace other epoch due)) :
    other = id ∧ epoch = entry.epoch ∧
      ∀ {path task job}, before.Pends path task job → job.entry ≠ id := by
  cases hands.takes with
  | timer _ alone _ => exact ⟨rfl, rfl, alone⟩

theorem of_upload (hands : HandsOver before after id entry new (.upload job)) :
    job.entry = id ∧ job.path = entry.path ∧ job.completion = .evict entry.epoch := by
  cases hands.takes with
  | upload about here goal _ => exact ⟨about, here, goal⟩

end HandsOver

theorem OwnedBut.handedOver {new : TaskId} {work : Work} (owned : before.OwnedBut lapsed)
    (hands : HandsOver before after id entry new work) :
    after.OwnedBut fun path => lapsed path ∧ ¬ entry.path.Same path := by
  refine ⟨fun {path other} mapped => ?_, fun {path task} registered => ?_,
    fun {path task job} pends going => ?_, fun {task other epoch} times => ?_,
    fun {other held one two} present first second => ?_,
    fun {path upload job held task} pends present times => ?_,
    fun {path other held} mapped present idle going => ?_⟩
  · rw [hands.store.mapped] at mapped
    simp only [hands.store.lookup]
    exact owned.placed mapped
  · rcases hands.registered_before registered with ⟨here, rfl, job, rfl⟩ | ⟨apart, registered⟩
    · refine ⟨job, (hands.doing _).trans (if_pos rfl), ?_⟩
      rwa [hands.of_upload.2.1]
    · obtain ⟨job, doing, there⟩ := owned.pends registered
      exact ⟨job, hands.kept owned doing fun _ _ => ⟨path, apart, registered⟩, there⟩
  · simp only [hands.store.lookup, hands.store.mapped]
    rcases hands.pends_before owned pends with ⟨here, rfl⟩ | ⟨apart, before⟩
    · obtain ⟨about, -, goal⟩ := hands.of_upload
      rw [about, ← PathMap.get?_congr here]
      exact ⟨hands.mapped, entry, hands.found, goal⟩
    · exact owned.tied before fun gone => going ⟨gone, apart⟩
  · simp only [hands.store.lookup]
    rcases hands.times_before times with before | ⟨-, due, rfl⟩
    · exact owned.timely before
    · obtain ⟨rfl, rfl, -⟩ := hands.of_timer
      exact ⟨entry, hands.found, Nat.le_refl _⟩
  · rw [hands.store.lookup] at present
    -- A timer that ran before and the new one would be of the same entry.
    have never : ∀ {old due}, before.Times old other held.epoch →
        work ≠ .grace other held.epoch due := by
      rintro old due before rfl
      obtain ⟨rfl, same, -⟩ := hands.of_timer
      rw [same] at before
      exact hands.untimed old before
    rcases hands.times_before first with before | ⟨rfl, due, timer⟩
    · rcases hands.times_before second with before' | ⟨-, due, timer⟩
      · exact owned.single present before before'
      · exact absurd timer (never before)
    · rcases hands.times_before second with before' | ⟨rfl, -⟩
      · exact absurd timer (never before')
      · rfl
  · rw [hands.store.lookup] at present
    rcases hands.pends_before owned pends with ⟨-, rfl⟩ | ⟨-, pends⟩
    · rcases hands.times_before times with before | ⟨-, due, timer⟩
      · obtain ⟨about, -⟩ := hands.of_upload
        rw [about] at present before
        rw [hands.found] at present
        cases present
        exact hands.untimed task before
      · cases timer
    · rcases hands.times_before times with before | ⟨-, due, rfl⟩
      · exact owned.apart pends present before
      · obtain ⟨same, -, alone⟩ := hands.of_timer
        exact alone pends same
  · rw [hands.store.mapped] at mapped
    rw [hands.store.lookup] at present
    by_cases here : entry.path.Same path
    · rw [← PathMap.get?_congr here, hands.mapped] at mapped
      cases mapped
      rw [hands.found] at present
      cases present
      cases hands.takes with
      | upload _ _ _ recorded =>
          refine .inl ⟨new, ?_⟩
          rw [recorded, PathMap.get?_set, if_pos here]
      | @timer due _ _ _ => exact .inr ⟨new, due, (hands.doing new).trans (if_pos rfl)⟩
    · rcases owned.owned mapped present idle fun gone => going ⟨gone, here⟩ with
        ⟨task, registered⟩ | ⟨task, times⟩
      · exact .inl ⟨task, hands.registered_after here registered⟩
      · exact .inr ⟨task, hands.times_after owned times⟩

/-- An entry whose upload is scheduled has an owner, if no timer is in charge of it. -/
theorem OwnedBut.schedule (owned : cache.OwnedBut lapsed) (sound : cache.Sound)
    (found : cache.entry? id = some entry) (mapped : cache.mapped.get? entry.path = some id)
    (untimed : ∀ task, ¬ cache.Times task id entry.epoch) :
    (cache.schedule id (.evict entry.epoch)).OwnedBut fun other =>
      lapsed other ∧ ¬ entry.path.Same other := by
  have here := pathOf_found found
  have recorded := @pending_schedule cache id (.evict entry.epoch) sound.backed
  have doing := fun task =>
    @doing?_schedule cache task id (.evict entry.epoch) sound.fresh sound.backed
  rw [here] at recorded
  simp only [here] at doing
  exact owned.handedOver
    { store := (SameStore.refl cache).schedule id (.evict entry.epoch)
      found, mapped, untimed, doing
      unused := sound.fresh.doing? (Nat.le_refl _)
      takes := .upload rfl rfl rfl recorded }

/-! ### Giving handles back -/

/-- When an epoch of an entry ends, only its own place may be left without an owner. -/
theorem OwnedBut.touched (owned : cache.Owned) (found : cache.entry? id = some entry)
    (place : next.path = entry.path) (later : entry.epoch ≤ next.epoch) :
    (cache.setEntry id next).OwnedBut fun path => cache.mapped.get? path = some id := by
  have present : Cache.entry? (cache.setEntry id next) id = some next := by
    rw [entry?_setEntry, if_pos rfl, found]
    rfl
  have elsewhere : ∀ {other}, other ≠ id →
      Cache.entry? (cache.setEntry id next) other = cache.entry? other :=
    fun apart => (entry?_setEntry _).trans (if_neg apart)
  -- A timer of the epoch that runs now was one of the epoch before.
  have timed : ∀ {task other held}, cache.Times task other held.epoch →
      Cache.entry? (cache.setEntry id next) other = some held →
      ∃ old, cache.entry? other = some old ∧ held.epoch = old.epoch := by
    intro task other held times shown
    obtain ⟨old, known, upto⟩ := owned.timely times
    by_cases here : other = id
    · subst here
      rw [present] at shown
      rw [found] at known
      cases shown
      cases known
      exact ⟨entry, found, Nat.le_antisymm upto later⟩
    · rw [elsewhere here] at shown
      exact ⟨held, shown, rfl⟩
  refine ⟨fun {path other} mapped => ?_, owned.pends, fun {path task job} recorded going => ?_,
    fun {task other epoch} times => ?_, fun {other held one two} shown first second => ?_,
    fun {path upload job held task} recorded shown times => ?_,
    fun {path other held} mapped shown idle going => ?_⟩
  · obtain ⟨old, known, there⟩ := owned.placed mapped
    by_cases here : other = id
    · subst here
      rw [found] at known
      cases known
      exact ⟨next, present, by rwa [place]⟩
    · exact ⟨old, (elsewhere here).trans known, there⟩
  · obtain ⟨mapped, old, known, goal⟩ := owned.tied ⟨recorded.registered, recorded.doing⟩ not_false
    have apart : job.entry ≠ id := by
      rintro rfl
      exact going mapped
    exact ⟨mapped, old, (elsewhere apart).trans known, goal⟩
  · have before : cache.Times task other epoch := times
    obtain ⟨old, known, upto⟩ := owned.timely before
    by_cases here : other = id
    · subst here
      rw [found] at known
      cases known
      exact ⟨next, present, Nat.le_trans upto later⟩
    · exact ⟨old, (elsewhere here).trans known, upto⟩
  · have before : cache.Times one other held.epoch := first
    obtain ⟨old, known, epoch⟩ := timed before shown
    rw [epoch] at first second
    exact owned.single known first second
  · have before : cache.Times task job.entry held.epoch := times
    obtain ⟨old, known, epoch⟩ := timed before shown
    rw [epoch] at before
    exact owned.apart ⟨recorded.registered, recorded.doing⟩ known before
  · have apart : other ≠ id := by
      rintro rfl
      exact going mapped
    rw [elsewhere apart] at shown
    exact owned.owned mapped shown idle not_false

theorem releaseEntryHandle_eq {n : Nat} (found : cache.entry? id = some entry)
    (left : entry.releaseHandle? = some (n, next)) :
    cache.releaseEntryHandle id = (n, cache.setEntry id next) := by
  rw [releaseEntryHandle, found, Option.bind_some, left]

/-- The last handle of an entry that is given back leaves it to its upload. -/
theorem OwnedBut.release (owned : cache.Owned) (sound : cache.Sound)
    (found : cache.entry? id = some entry) (held : 0 < entry.handles) :
    (cache.release id).Owned := by
  obtain ⟨n, next, left⟩ := Entry.releaseHandle?_of_held held
  obtain ⟨count, shape⟩ := Entry.releaseHandle?_some left
  have place : next.path = entry.path := by rw [shape]
  have given := releaseEntryHandle_eq found left
  have present : Cache.entry? (cache.setEntry id next) id = some next := by
    rw [entry?_setEntry, if_pos rfl, found]
    rfl
  have later : entry.epoch ≤ next.epoch := by
    rw [shape]
    simp only
    split
    · exact Nat.le_succ _
    · exact Nat.le_refl _
  have here := pathOf_found found
  have touched := OwnedBut.touched owned found place later
  -- Wherever the entry is mapped, it is mapped at its own path.
  have home : ∀ {path}, cache.mapped.get? path = some id → entry.path.Same path := by
    intro path mapped
    obtain ⟨other, known, there⟩ := owned.placed mapped
    rw [found] at known
    cases known
    exact there
  unfold Cache.release
  rw [here, given]
  split
  · rename_i mapped
    simp only
    split
    · rename_i last
      rw [present]
      have scheduled := touched.schedule (((SameWork.refl cache).setEntry id next).sound sound)
        present (by rw [place]; exact mapped) fun task times => ?_
      · refine scheduled.mono fun path gone => gone.2 ?_
        rw [place]
        exact home gone.1
      · have before : cache.Times task id next.epoch := times
        obtain ⟨old, known, upto⟩ := owned.timely before
        rw [found] at known
        cases known
        rw [shape, last] at upto
        exact Nat.not_succ_le_self _ upto
    · rename_i more
      refine owned.quiet (.of_sameWork ((SameWork.refl cache).setEntry id next) rfl
        (.setEntry found place ?_ ?_))
      · rw [shape]
        exact if_neg more
      · intro none
        rw [shape] at none
        exact absurd none more
  · rename_i unmapped
    refine touched.mono fun path mapped => unmapped ?_
    rw [PathMap.get?_congr (home mapped)]
    exact mapped

/-! ### Opening -/

/-- What is opened for writing has no owner until it is closed again. -/
theorem OwnedBut.prepared (owned : cache.Owned) (sound : cache.Sound) (path : Path)
    (flags : OpenFlags) :
    let base := if flags.isWritable then (cache.cancel path).2 else cache
    base.OwnedBut fun other => other.Same path ∧ base.pending.get? other = none := by
  simp only
  split
  · refine (owned.cancel sound path).mono fun other gone => ?_
    rcases gone with never | ⟨here, -⟩
    · cases never
    · exact ⟨here, pending_cancelled sound here.symm⟩
  · exact owned.mono fun _ never => never.elim

theorem OwnedBut.occupied (owned : cache.OwnedBut lapsed) (free : cache.mapped.get? path = none)
    (found : cache.entry? id = some entry) (place : entry.path = path)
    (used : 0 < entry.handles) :
    OwnedBut { cache with mapped := cache.mapped.set path id } lapsed where
  placed {other target} taken := by
    have taken : (cache.mapped.set path id).get? other = some target := taken
    rw [PathMap.get?_set] at taken
    split at taken
    · rename_i here
      cases taken
      exact ⟨entry, found, by rwa [place]⟩
    · exact owned.placed taken
  pends := owned.pends
  tied {other task job} recorded going := by
    obtain ⟨taken, known⟩ := owned.tied ⟨recorded.registered, recorded.doing⟩ going
    refine ⟨PathMap.get?_set.trans ((if_neg fun here => ?_).trans taken), known⟩
    rw [← PathMap.get?_congr here, free] at taken
    cases taken
  timely := owned.timely
  single := owned.single
  apart recorded := owned.apart ⟨recorded.registered, recorded.doing⟩
  owned {other target held} taken present idle going := by
    have taken : (cache.mapped.set path id).get? other = some target := taken
    have present : cache.entry? target = some held := present
    rw [PathMap.get?_set] at taken
    split at taken
    · cases taken
      rw [found] at present
      cases present
      rw [idle] at used
      cases used
    · exact owned.owned taken present idle going

theorem OwnedBut.extended (owned : cache.OwnedBut lapsed) (free : cache.mapped.get? path = none)
    (place : next.path = path) (used : 0 < next.handles) :
    OwnedBut { cache with
      entries := cache.entries ++ [next]
      mapped := cache.mapped.set path cache.entries.length } lapsed := by
  have listed : Quiet cache { cache with entries := cache.entries ++ [next] } :=
    .of_sameWork ⟨rfl, rfl, rfl, rfl, rfl⟩ rfl (.append cache next rfl)
  have found : Cache.entry? { cache with entries := cache.entries ++ [next] } cache.entries.length
      = some next := (entry?_append cache rfl).trans (if_pos rfl)
  exact (owned.quiet listed).occupied free found place used

/-- The entry that was acquired needs no owner. -/
theorem OwnedBut.acquired {size : Nat} {modified : Modified}
    (owned : cache.OwnedBut fun other => other.Same path ∧ cache.pending.get? other = none)
    (acquired : cache.acquire path size modified = (.ok id, after)) :
    after.Owned ∧ ∀ entry, after.entry? id = some entry → 0 < entry.handles := by
  rcases acquire_ok acquired with ⟨mapped, rfl⟩ | ⟨unmapped, made, fits, rfl, rfl⟩
  · have quiet : Quiet cache (cache.modifyEntry id (·.reopened modified)) :=
      .of_sameWork ((SameWork.refl cache).modifyEntry id _) rfl
        (.modifyEntry cache id fun entry => ⟨rfl, rfl, fun none => by cases none⟩)
    have used : ∀ entry, Cache.entry? (cache.modifyEntry id (·.reopened modified)) id = some entry →
        0 < entry.handles := by
      intro entry found
      rw [entry?_modifyEntry, if_pos rfl] at found
      obtain ⟨old, -, rfl⟩ := Option.map_eq_some_iff.mp found
      exact Nat.succ_pos _
    refine ⟨(owned.quiet quiet).restored (fun other gone _ => gone.2)
      fun {other id' entry} gone _ there found => ?_, used⟩
    have target : cache.mapped.get? other = some id' := there
    rw [PathMap.get?_congr gone.1, mapped] at target
    cases target
    exact used entry found
  · have used : 0 < made.openHandle.2.handles := Nat.succ_pos _
    have place : made.openHandle.2.path = path := by rw [(Entry.create_ok fits).2]; rfl
    refine ⟨(owned.extended unmapped place used).restored (fun other gone _ => gone.2)
      fun {other id entry} gone _ there found => ?_, fun entry found => ?_⟩
    · have target : (cache.mapped.set path cache.entries.length).get? other = some id := there
      rw [PathMap.get?_set, if_pos gone.1.symm] at target
      cases target
      rw [entry?_append _ rfl, if_pos rfl] at found
      cases found
      exact used
    · rw [entry?_append _ rfl, if_pos rfl] at found
      cases found
      exact used

theorem Quiet.setHandles (cache : Cache) (handles : List (Handle × EntryId))
    (counter : HandleCounter) : Quiet cache { cache with handles, counter } :=
  .of_sameWork ((SameWork.refl cache).setHandles handles counter) rfl (.of_entries rfl)

theorem OwnedBut.openFile (owned : cache.Owned) (sound : cache.Sound) (path : Path)
    (flags : OpenFlags) (size : Nat) (modified : Modified) :
    (cache.openFile path flags size modified).2.Owned := by
  have opens := opens_openFile cache path flags size modified
  have prepared := OwnedBut.prepared owned sound path flags
  have sound := (wanes_prepared sound path flags).sound
  simp only at prepared
  generalize (if flags.isWritable then (cache.cancel path).2 else cache) = base
    at opens prepared sound
  generalize (cache.openFile path flags size modified).2 = after at opens
  cases opens with
  | unmade unmapped =>
      refine prepared.restored (fun other gone _ => gone.2) fun gone _ mapped _ => ?_
      rw [PathMap.get?_congr gone.1, unmapped] at mapped
      cases mapped
  | opened acquired keeps => exact (prepared.acquired acquired).1.quiet (.setHandles _ _ _)
  | @emptied opened held entry empty acquired wipes found done =>
      have emptied : Quiet held (held.setEntry opened empty) := by
        obtain ⟨_, -, -, rfl⟩ := Entry.truncate_ok done
        exact .of_sameWork ((SameWork.refl held).setEntry _ _) rfl
          (.setEntry found rfl rfl fun idle => idle)
      exact ((prepared.acquired acquired).1.quiet emptied).quiet (.setHandles _ _ _)
  | @refused opened held acquired wipes closed =>
      obtain ⟨owned, used⟩ := prepared.acquired acquired
      obtain ⟨mapped, rfl⟩ := acquired_closed acquired closed
      obtain ⟨entry, found, -⟩ := owned.placed mapped
      exact owned.release ((sameWork_acquired acquired).sound sound) found (used entry found)

theorem OwnedBut.closeHandle (owned : cache.Owned) (sound : cache.Sound) (counted : cache.Counted)
    (rooted : cache.Rooted) (handle : Handle) : (cache.closeHandle handle).Owned := by
  unfold Cache.closeHandle
  split
  · exact owned.quiet (.of_sameWork ((SameWork.refl cache).log _ _ _) rfl (.of_entries rfl))
  · rename_i id held
    have given := Quiet.setHandles cache
      (cache.handles.filter fun item => item.1 != handle) cache.counter
    have holds : cache.Holds id := ⟨handle, held⟩
    obtain ⟨entry, found⟩ := Option.isSome_iff_exists.mp (rooted.referred (.inl holds))
    exact (owned.quiet given).release ⟨sound.fresh, sound.backed⟩ found
      ((counted.holds_iff_handles found).mp holds)

end Cache

end SparseCache
