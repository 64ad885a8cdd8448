import SparseCache.Proofs.Cache.Stranding

namespace SparseCache.Cache

/-! Uploads that are not stopped are those of what is mapped at their locations.

This needs that everything mapped has one location, and that no timer of the present epoch
runs while an upload is under way: such a timer would evict the entry of the upload.
-/

variable {cache base before middle after : Cache} {id other : EntryId} {entry next : Entry}
  {path source destination : Path} {task timer upload : TaskId} {job : Upload} {epoch due : Nat}

/-- Live uploads are on record and belong to what is mapped at their locations. -/
structure Current (cache : Cache) : Prop where
  enrolled : cache.Enrolled
  homed : ∀ {task job}, cache.upload? task = some job →
    cache.mapped.get? job.path = some job.entry
  sole : cache.mapped.OneToOne
  dated : ∀ {task job}, cache.upload? task = some job → ∃ epoch entry,
    job.completion = .evict epoch ∧ cache.entry? job.entry = some entry ∧ epoch ≤ entry.epoch
  timely : ∀ {task id epoch}, cache.Times task id epoch →
    ∃ entry, cache.entry? id = some entry ∧ epoch ≤ entry.epoch
  apart : ∀ {task timer job entry}, cache.upload? task = some job →
    cache.entry? job.entry = some entry → ¬ cache.Times timer job.entry entry.epoch

theorem Current.single (current : cache.Current) : cache.Single := by
  intro task task' one job found found' about
  have mapped := current.homed found
  rw [about] at mapped
  have same := current.sole.same mapped (current.homed found')
  have registered := current.enrolled.registered found
  rw [PathMap.get?_congr same, current.enrolled.registered found'] at registered
  exact (Option.some.inj registered).symm

/-! ### Epochs -/

/-- Entries stay, and no epoch goes back. -/
structure Grows (before after : Cache) : Prop where
  grown : ∀ {id entry}, before.entry? id = some entry →
    ∃ next, after.entry? id = some next ∧ entry.epoch ≤ next.epoch

namespace Grows

theorem of_keeps (keeps : Keeps before after) : Grows before after := by
  constructor
  intro id entry found
  obtain ⟨next, present, -, same, -⟩ := keeps.kept found
  exact ⟨next, present, Nat.le_of_eq same.symm⟩

theorem of_displaces (displaces : Displaces before after) : Grows before after := by
  constructor
  intro id entry found
  obtain ⟨next, present, _, rfl | rfl⟩ := displaces.kept found <;>
    exact ⟨_, present, Nat.le_refl _⟩

theorem of_sameStore (same : SameStore before after) : Grows before after :=
  of_keeps (.of_entries same.entries)

theorem setEntry (found : cache.entry? id = some entry) (upto : entry.epoch ≤ next.epoch) :
    Grows cache (cache.setEntry id next) := by
  constructor
  intro other held present
  rw [entry?_setEntry]
  split
  · rename_i here
    rw [here, found] at present
    cases present
    exact ⟨next, by rw [here, found]; rfl, upto⟩
  · exact ⟨held, present, Nat.le_refl _⟩

end Grows

/-! ### Fewer uploads -/

/-- Uploads and timers may have gone, and epochs may have gone on. -/
structure Thins (before after : Cache) : Prop extends Grows before after where
  uploads : ∀ {task job}, after.upload? task = some job → before.upload? task = some job
  times : ∀ {task id epoch}, after.Times task id epoch → before.Times task id epoch

theorem Thins.of_wanes (wanes : Wanes before after) (grows : Grows before after) :
    Thins before after where
  toGrows := grows
  uploads := upload?_of_wanes wanes
  times := fun ⟨due, doing⟩ => ⟨due, wanes.doing doing⟩

theorem Thins.of_sameWork (same : SameWork before after) (grows : Grows before after) :
    Thins before after where
  toGrows := grows
  uploads found := by rwa [upload?_congr same.doing?] at found
  times := fun ⟨due, doing⟩ => ⟨due, same.doing? ▸ doing⟩

theorem Current.thinned (current : before.Current) (thins : Thins before after)
    (enrolled : after.Enrolled)
    (homed : ∀ {task job}, after.upload? task = some job →
      after.mapped.get? job.path = some job.entry)
    (sole : after.mapped.OneToOne) : after.Current where
  enrolled := enrolled
  homed := homed
  sole := sole
  dated found := by
    obtain ⟨epoch, entry, goal, known, upto⟩ := current.dated (thins.uploads found)
    obtain ⟨next, present, later⟩ := thins.grown known
    exact ⟨epoch, next, goal, present, Nat.le_trans upto later⟩
  timely times := by
    obtain ⟨entry, known, upto⟩ := current.timely (thins.times times)
    obtain ⟨next, present, later⟩ := thins.grown known
    exact ⟨next, present, Nat.le_trans upto later⟩
  apart {task timer job next} found present times := by
    obtain ⟨entry, known, upto⟩ := current.timely (thins.times times)
    obtain ⟨other, present', later⟩ := thins.grown known
    rw [present] at present'
    cases present'
    -- A timer that runs for the present epoch ran for it before.
    have same : next.epoch = entry.epoch := Nat.le_antisymm upto later
    rw [same] at times
    exact current.apart (thins.uploads found) known (thins.times times)

/-- While the same is mapped, it is enough that what is under way stays on record. -/
theorem Current.kept (current : before.Current) (thins : Thins before after)
    (mapped : after.mapped = before.mapped) (enrolled : after.Enrolled) : after.Current := by
  refine current.thinned thins enrolled (fun found => ?_) ?_
  · rw [mapped]
    exact current.homed (thins.uploads found)
  · rw [mapped]
    exact current.sole

theorem Current.steady (current : before.Current) (steady : Steady before after) :
    after.Current := by
  have thins : Thins before after :=
    ⟨.of_keeps steady.entries, fun found => by rwa [steady.uploads] at found, steady.times.mp⟩
  exact current.kept thins steady.mapped (current.enrolled.congr steady.pending steady.uploads)

theorem Current.sameWork (current : before.Current) (same : SameWork before after)
    (mapped : after.mapped = before.mapped) (grows : Grows before after) : after.Current :=
  current.kept (.of_sameWork same grows) mapped
    (current.enrolled.congr same.pending fun _ => upload?_congr same.doing?)

theorem Current.cancel (current : cache.Current) (sound : cache.Sound) (path : Path) :
    (cache.cancel path).2.Current := by
  have store := (SameStore.refl cache).cancel path
  exact current.kept (.of_wanes (.cancel sound path) (.of_sameStore store)) store.mapped
    (current.enrolled.cancel sound)

theorem Current.closeEntry (current : cache.Current) (id : EntryId) :
    (cache.closeEntry id).Current :=
  current.steady (.closeEntry cache id)

/-! ### Unmapping -/

theorem Current.narrowed {left : PathMap EntryId} (current : cache.Current)
    (homed : ∀ {task job}, cache.upload? task = some job → left.get? job.path = some job.entry)
    (sole : left.OneToOne) : Current { cache with mapped := left } := by
  have same := (SameWork.refl cache).setMapped left
  exact current.thinned (.of_sameWork same (.of_keeps (.of_entries rfl)))
    (current.enrolled.congr same.pending fun _ => upload?_congr same.doing?)
    (fun found => homed found) sole

/-- What is mapped at a place may be unmapped once no upload is on record there. -/
theorem Current.unmap (current : cache.Current) (free : cache.pending.get? path = none) :
    Current { cache with mapped := cache.mapped.erase path } := by
  refine current.narrowed (fun {task job} found => ?_) current.sole.erase
  rw [PathMap.get?_erase_of_not_same, current.homed found]
  intro here
  rw [PathMap.get?_congr here, current.enrolled.registered found] at free
  cases free

theorem Current.delete (current : cache.Current) (sound : cache.Sound) (path : Path) :
    (cache.delete path).Current := by
  have cancelled := current.cancel sound path
  unfold Cache.delete
  simp only
  split
  · exact cancelled
  · exact (cancelled.unmap (pending_cancelled sound (.refl path))).closeEntry _

theorem enrolled_foldl_discard (doomed : PathMap EntryId) (enrolled : cache.Enrolled)
    (sound : cache.Sound) :
    (doomed.foldl (fun cache (key, id) => (cache.cancel key).2.closeEntry id) cache).Enrolled ∧
      ∀ {path task}, (doomed.foldl (fun cache (key, id) => (cache.cancel key).2.closeEntry id)
          cache).pending.get? path = some task →
        cache.pending.get? path = some task ∧ ∀ item ∈ doomed, ¬ item.1.Same path := by
  induction doomed generalizing cache with
  | nil => exact ⟨enrolled, fun registered => ⟨registered, fun _ member => by cases member⟩⟩
  | cons item doomed ih =>
      have cancelled := Wanes.cancel sound item.1
      have closed := (SameWork.refl (cache.cancel item.1).2).closeEntry item.2
      obtain ⟨kept, spared⟩ := ih
        ((enrolled.cancel sound).congr closed.pending fun _ => upload?_congr closed.doing?)
        (closed.sound cancelled.sound)
      refine ⟨kept, fun registered => ?_⟩
      obtain ⟨before, others⟩ := spared registered
      rw [closed.pending, pending_cancel sound.backed,
        PathMap.get?_erase_eq_some_iff] at before
      refine ⟨before.2, fun other member => ?_⟩
      rcases List.mem_cons.mp member with rfl | later
      · exact before.1
      · exact others other later

theorem Current.deleteTree (current : cache.Current) (sound : cache.Sound) (tree : Path) :
    (cache.deleteTree tree).Current := by
  have cut : SameWork cache { cache with
      mapped := cache.mapped.filter fun item => !decide (item.1.Within tree) } :=
    (SameWork.refl cache).setMapped _
  obtain ⟨enrolled, spared⟩ := enrolled_foldl_discard
    (cache.mapped.filter fun item => decide (item.1.Within tree))
    (current.enrolled.congr cut.pending fun _ => upload?_congr cut.doing?) (cut.sound sound)
  have thins := Thins.of_wanes (.deleteTree sound tree) (.of_displaces (.deleteTree cache tree))
  have table := @mapped_foldl_discard { cache with
      mapped := cache.mapped.filter fun item => !decide (item.1.Within tree) }
    (cache.mapped.filter fun item => decide (item.1.Within tree))
  rw [deleteTree_eq] at thins ⊢
  refine current.thinned thins enrolled (fun {task job} found => ?_)
    (table ▸ current.sole.filter _)
  · have mapped := current.homed (thins.uploads found)
    rw [table, PathMap.get?_filter_not_within, if_neg, mapped]
    -- Whatever was on record in the tree was mapped there, and so was cancelled.
    intro within
    obtain ⟨key, member, here⟩ := PathMap.exists_mem_of_get? mapped
    refine (spared (enrolled.registered found)).2 _ (List.mem_filter.mpr ⟨member, ?_⟩) here
    rw [Path.Within, ← here] at within
    exact decide_eq_true within

/-! ### Scheduling -/

/-- The cache may have what is mapped somewhere stored as long as no timer runs for it. -/
theorem Current.schedule (current : cache.Current) (sound : cache.Sound)
    (found : cache.entry? id = some entry) (mapped : cache.mapped.get? entry.path = some id)
    (untimed : ∀ timer, ¬ cache.Times timer id entry.epoch) :
    (cache.schedule id (.evict entry.epoch)).Current := by
  have store := (SameStore.refl cache).schedule id (.evict entry.epoch)
  have here := pathOf_found found
  have uploads : ∀ {task job}, (cache.schedule id (.evict entry.epoch)).upload? task = some job →
      cache.upload? task = some job ∨
        job = { entry := id, path := entry.path, completion := .evict entry.epoch } := by
    intro task job working
    rw [upload?_schedule sound, here] at working
    split at working
    · cases working
      exact .inr rfl
    · split at working
      · cases working
      · exact .inl working
  have times : ∀ {task id' epoch}, (cache.schedule id (.evict entry.epoch)).Times task id' epoch →
      cache.Times task id' epoch := by
    rintro task id' epoch ⟨due, doing⟩
    rcases doing?_of_schedule sound doing with kept | ⟨-, other⟩
    · exact ⟨due, kept⟩
    · cases other
  have enrolled : (cache.schedule id (.evict entry.epoch)).Enrolled :=
    current.enrolled.schedule sound
  generalize cache.schedule id (.evict entry.epoch) = after at store uploads times enrolled
  refine ⟨enrolled, fun working => ?_, ?_, fun working => ?_, fun running => ?_,
    fun {task timer job held} working present running => ?_⟩
  · rw [store.mapped]
    rcases uploads working with before | rfl
    · exact current.homed before
    · exact mapped
  · rw [store.mapped]
    exact current.sole
  · rcases uploads working with before | rfl
    · obtain ⟨epoch, held, goal, known, upto⟩ := current.dated before
      exact ⟨epoch, held, goal, store.lookup.trans known, upto⟩
    · exact ⟨entry.epoch, entry, rfl, store.lookup.trans found, Nat.le_refl _⟩
  · obtain ⟨held, known, upto⟩ := current.timely (times running)
    exact ⟨held, store.lookup.trans known, upto⟩
  · rw [store.lookup] at present
    rcases uploads working with before | rfl
    · exact current.apart before present (times running)
    · rw [found] at present
      cases present
      exact untimed timer (times running)

theorem Current.release (current : cache.Current) (sound : cache.Sound)
    (found : cache.entry? id = some entry) (held : 0 < entry.handles) :
    (cache.release id).Current := by
  obtain ⟨n, next, left⟩ := Entry.releaseHandle?_of_held held
  obtain ⟨-, shape⟩ := Entry.releaseHandle?_some left
  have given := releaseEntryHandle_eq found left
  have same := (SameWork.refl cache).setEntry id next
  have here := pathOf_found found
  have later : entry.epoch ≤ next.epoch := by
    rw [shape]
    simp only
    split
    · exact Nat.le_succ _
    · exact Nat.le_refl _
  have after := current.sameWork same rfl (.setEntry found later)
  have present : Cache.entry? (cache.setEntry id next) id = some next := by
    rw [entry?_setEntry, if_pos rfl, found]
    rfl
  unfold Cache.release
  rw [here, given]
  split
  · rename_i mapped
    simp only
    split
    · rename_i last
      rw [present]
      refine after.schedule (same.sound sound) present (by rw [shape]; exact mapped) ?_
      -- Timers run for epochs that there have been, and this one has just begun.
      intro timer times
      obtain ⟨old, known, upto⟩ := current.timely (times : cache.Times timer id next.epoch)
      rw [found] at known
      cases known
      rw [shape, if_pos last] at upto
      exact Nat.not_succ_le_self _ upto
    · exact after
  · exact after

/-! ### Opening and closing by handle -/

theorem grows_acquired {size : Nat} {modified : Modified}
    (acquired : cache.acquire path size modified = (.ok id, after)) : Grows cache after := by
  rcases acquire_ok acquired with ⟨-, rfl⟩ | ⟨-, made, -, rfl, rfl⟩
  · exact .of_keeps (.modifyEntry _ _ fun entry => ⟨rfl, rfl, fun none => by cases none⟩)
  · exact .of_keeps (.append cache _ rfl)

theorem Current.acquired (current : cache.Current) (rooted : cache.Rooted) {size : Nat}
    {modified : Modified} (acquired : cache.acquire path size modified = (.ok id, after)) :
    after.Current := by
  have same := sameWork_acquired acquired
  have grows := grows_acquired acquired
  rcases acquire_ok acquired with ⟨mapped, rfl⟩ | ⟨unmapped, made, fits, rfl, rfl⟩
  · exact current.sameWork same rfl grows
  · have new : ∀ {other}, cache.mapped.get? other ≠ some cache.entries.length := by
      intro other taken
      have known := rooted.referred (.inr ⟨other, taken⟩)
      rw [ entry?, List.getElem?_eq_none (Nat.le_refl _)] at known
      cases known
    have thins := Thins.of_sameWork same grows
    refine current.thinned thins
      (current.enrolled.congr same.pending fun _ => upload?_congr same.doing?)
      (fun {task job} found => ?_) (current.sole.set fun _ => new)
    have mapped := current.homed (thins.uploads found)
    rw [PathMap.get?_set, if_neg, mapped]
    intro here
    rw [← PathMap.get?_congr here, unmapped] at mapped
    cases mapped

theorem Current.openFile (current : cache.Current) (sound : cache.Sound) (rooted : cache.Rooted)
    (path : Path) (flags : OpenFlags) (size : Nat) (modified : Modified) :
    (cache.openFile path flags size modified).2.Current := by
  have opens := opens_openFile cache path flags size modified
  have wanes := wanes_prepared sound path flags
  have store := sameStore_prepared cache path flags
  have prepared : (if flags.isWritable then (cache.cancel path).2 else cache).Current := by
    split
    · exact current.cancel sound path
    · exact current
  generalize (if flags.isWritable then (cache.cancel path).2 else cache) = base
    at opens wanes store prepared
  generalize (cache.openFile path flags size modified).2 = after at opens
  have rooted' : base.Rooted := by
    refine ⟨fun referred => ?_, fun doing => ?_⟩
    · rw [store.lookup]
      refine rooted.referred (referred.imp (fun ⟨handle, held⟩ => ⟨handle, ?_⟩)
        fun ⟨place, mapped⟩ => ⟨place, store.mapped ▸ mapped⟩)
      rwa [get?, store.handles] at held
    · rw [store.lookup]
      exact rooted.worked (wanes.doing doing)
  have handed : ∀ {held : Cache} {handles counter}, held.Current →
      Current { held with counter, handles } := by
    intro held handles counter current
    exact current.sameWork ((SameWork.refl held).setHandles _ _) rfl (.of_keeps (.of_entries rfl))
  cases opens with
  | unmade unmapped => exact prepared
  | opened acquired keeps => exact handed (prepared.acquired rooted' acquired)
  | @emptied opened held target empty acquired wipes found done =>
      have taken := prepared.acquired rooted' acquired
      refine handed (taken.sameWork ((SameWork.refl held).setEntry _ _) rfl (.setEntry found ?_))
      obtain ⟨_, -, -, rfl⟩ := Entry.truncate_ok done
      exact Nat.le_refl _
  | @refused opened held acquired wipes closed =>
      obtain ⟨mapped, -⟩ := acquired_closed acquired closed
      obtain ⟨entry, found⟩ := Option.isSome_iff_exists.mp
        (rooted'.referred (.inr ⟨path, mapped⟩))
      have reopened := (acquired_known acquired found).2
      exact (prepared.acquired rooted' acquired).release
        ((sameWork_acquired acquired).sound wanes.sound) reopened (Nat.succ_pos entry.handles)

theorem Current.closeHandle (current : cache.Current) (sound : cache.Sound)
    (counted : cache.Counted) (rooted : cache.Rooted) (handle : Handle) :
    (cache.closeHandle handle).Current := by
  unfold Cache.closeHandle
  split
  · exact current.steady ((Steady.refl cache).emit _)
  · rename_i id held
    obtain ⟨entry, found⟩ := Option.isSome_iff_exists.mp
      (rooted.referred (.inl ⟨handle, held⟩))
    have used := (counted.holds_iff_handles found).mp ⟨handle, held⟩
    have same := (SameWork.refl cache).setHandles
      (cache.handles.filter fun item => item.1 != handle) cache.counter
    exact (current.sameWork same rfl (.of_keeps (.of_entries rfl))).release (same.sound sound)
      found used

/-! ### Moving -/

theorem Current.relocate (current : cache.Current)
    (mapped : cache.mapped.get? source = some id)
    (free : ∀ {other}, source.Same other ∨ destination.Same other →
      cache.pending.get? other = none) :
    (cache.relocate source destination id).Current := by
  have same := (SameWork.refl cache).relocate source destination id
  have thins := Thins.of_sameWork same (.of_displaces (.relocated cache source destination id))
  refine current.thinned thins
    (current.enrolled.congr same.pending fun _ => upload?_congr same.doing?)
    (fun {task job} found => ?_) ?_
  · have working := thins.uploads found
    have spared : ∀ {other}, source.Same other ∨ destination.Same other →
        ¬ other.Same job.path := by
      intro other touched here
      have none := free touched
      rw [PathMap.get?_congr here, current.enrolled.registered working] at none
      cases none
    rw [mapped_relocate, PathMap.get?_set, if_neg (spared (.inr (.refl _))),
      PathMap.get?_erase_of_not_same (spared (.inl (.refl _))), current.homed working]
  · rw [mapped_relocate]
    exact current.sole.erase.set fun _ => current.sole.get?_erase_ne mapped

theorem Current.moveFile (current : cache.Current) (sound : cache.Sound) (rooted : cache.Rooted)
    (source destination : Path) : (cache.moveFile source destination).2.Current := by
  have moves := moves_moveFile cache source destination
  have cancelled := (current.cancel sound source).cancel (Wanes.cancel sound source).sound
    destination
  have wanes := wanes_moved sound source destination
  have store := ((SameStore.refl cache).cancel source).cancel destination
  have free : ∀ {other}, source.Same other ∨ destination.Same other →
      ((cache.cancel source).2.cancel destination).2.pending.get? other = none :=
    pending_moved sound
  generalize ((cache.cancel source).2.cancel destination).2 = base
    at moves cancelled wanes store free
  generalize (cache.moveFile source destination).2 = after at moves
  cases moves with
  | same same => exact current
  | absent apart nowhere unused => exact cancelled
  | discarded apart nowhere taken =>
      exact (cancelled.unmap (free (.inr (.refl destination)))).closeEntry _
  | moved apart mapped idle => exact cancelled.relocate mapped free
  | @rescheduled id apart mapped hit =>
      have placed := cancelled.relocate mapped free
      have same := (SameWork.refl base).relocate source destination id
      obtain ⟨entry, found⟩ := Option.isSome_iff_exists.mp
        (rooted.referred (.inr ⟨source, store.mapped ▸ mapped⟩))
      obtain ⟨next, present, age, -, place⟩ :=
        @entry?_relocate base id entry source destination id (store.lookup.trans found)
      rw [present]
      refine placed.schedule (same.sound wanes.sound) present ?_ fun timer times => ?_
      · rw [place, if_pos rfl, mapped_relocate, PathMap.get?_set, if_pos (Path.Same.refl _)]
      · -- The upload that was taken back kept timers away.
        rw [cancel_hit sound.backed] at hit
        obtain ⟨upload, registered⟩ := Option.isSome_iff_exists.mp hit
        obtain ⟨job, working, here⟩ := current.enrolled.record.mp registered
        have about := current.homed working
        rw [PathMap.get?_congr here, ← store.mapped, mapped] at about
        cases about
        obtain ⟨due, doing⟩ := times
        rw [age, same.doing?] at doing
        exact current.apart working found ⟨due, wanes.doing doing⟩

/-! ### Background work -/

/-- An upload that ends leaves a timer to its entry, which has no other upload. -/
theorem Current.endUpload (current : cache.Current) (sound : cache.Sound)
    (working : cache.upload? upload = (Work.upload job).upload?) :
    (cache.endUpload upload job).Current := by
  have store := (SameStore.refl cache).endUpload upload job
  have enrolled := current.enrolled.endUpload sound working
  have uploads : ∀ {task job'}, (cache.endUpload upload job).upload? task = some job' →
      task ≠ upload ∧ cache.upload? task = some job' := by
    intro task job' found
    rw [upload?_endUpload sound] at found
    split at found
    · cases found
    · rename_i apart
      exact ⟨apart, found⟩
  have times : ∀ {task id epoch}, (cache.endUpload upload job).Times task id epoch →
      cache.Times task id epoch ∨ id = job.entry ∧ job.completion = .evict epoch := by
    intro task id epoch ⟨due, doing⟩
    rcases doing?_of_endUpload sound doing with kept | ⟨-, own, -, goal, same⟩
    · exact .inl ⟨due, kept⟩
    · cases same
      exact .inr ⟨rfl, goal⟩
  generalize cache.endUpload upload job = after at store enrolled uploads times
  refine ⟨enrolled, fun found => ?_, ?_, fun found => ?_, fun running => ?_,
    fun {task timer job' entry} found present running => ?_⟩
  · rw [store.mapped]
    exact current.homed (uploads found).2
  · rw [store.mapped]
    exact current.sole
  · obtain ⟨epoch, entry, goal, known, upto⟩ := current.dated (uploads found).2
    exact ⟨epoch, entry, goal, store.lookup.trans known, upto⟩
  · rcases times running with before | ⟨rfl, goal⟩
    · obtain ⟨entry, known, upto⟩ := current.timely before
      exact ⟨entry, store.lookup.trans known, upto⟩
    · obtain ⟨epoch, entry, own, known, upto⟩ := current.dated working
      rw [show job.completion = _ from own] at goal
      cases goal
      exact ⟨entry, store.lookup.trans known, upto⟩
  · obtain ⟨spared, before⟩ := uploads found
    rcases times running with earlier | ⟨about, -⟩
    · exact current.apart before (store.lookup.symm.trans present) earlier
    · exact spared (current.single before working about)

/-- A timer that fires evicts no entry that has an upload under way. -/
theorem Current.expire (current : cache.Current) (sound : cache.Sound)
    (timer : cache.doing? task = some (.grace id epoch due)) :
    ((cache.dropTask task).evictIfIdle id epoch).Current := by
  have wanes := Wanes.dropTask sound task
  have thins := Thins.of_wanes wanes (.of_keeps (.of_entries rfl))
  have uploads : ∀ other, (cache.dropTask task).upload? other = cache.upload? other :=
    fun _ => upload?_dropTask timer
  have dropped : (cache.dropTask task).Current :=
    current.kept thins rfl (current.enrolled.congr rfl uploads)
  unfold Cache.evictIfIdle
  split
  · exact dropped
  · rename_i entry found
    split
    · rename_i idle
      obtain ⟨mapped, -, rfl⟩ := idle
      refine (dropped.unmap ?_).closeEntry id
      rw [Option.eq_none_iff_forall_ne_some]
      intro upload registered
      obtain ⟨job, working, here⟩ := dropped.enrolled.record.mp registered
      have about := dropped.homed working
      rw [PathMap.get?_congr here, mapped] at about
      cases about
      rw [uploads] at working
      exact current.apart working found ⟨due, timer⟩
    · exact dropped

theorem Current.act (current : cache.Current) (sound : cache.Sound) (action : Action) :
    (cache.act action).Current := by
  have acts := acts_act sound action
  generalize cache.act action = after at acts
  cases acts with
  | steady steady => exact current.steady steady
  | ended steady sound working =>
      exact (current.steady steady).endUpload sound ((upload?_of_doing? working).trans rfl)
  | expired timer => exact current.expire sound timer

theorem Current.abandonUploads (current : cache.Current) (sound : cache.Sound) :
    cache.abandonUploads.Current := by
  have store := (SameStore.refl cache).abandonUploads
  exact current.kept (.of_wanes (.abandonUploads sound) (.of_sameStore store)) store.mapped
    (current.enrolled.abandonUploads sound)

/-! ### Whole runs -/

/-- Somebody other than the cache asks for an upload. -/
def Step.asks : Step → Bool
  | .schedule .. => true
  | _ => false

theorem current_step (current : cache.Current) (sound : cache.Sound) (counted : cache.Counted)
    (rooted : cache.Rooted) {step : Step} (unasked : step.asks = false) :
    (cache.step step).Current := by
  by_cases plain : step.plain = true
  · exact current.steady (.step sound plain)
  cases step with
  | rename id path =>
      exact current.sameWork ((SameWork.refl cache).modifyEntry _ _) rfl
        (.of_displaces (.relocate _ _ _))
  | schedule id tag => cases unasked
  | cancel path => exact current.cancel sound path
  | openFile path flags size modified =>
      exact current.openFile sound rooted path flags size modified
  | closeHandle handle => exact current.closeHandle sound counted rooted handle
  | moveFile source destination => exact current.moveFile sound rooted source destination
  | delete path => exact current.delete sound path
  | deleteTree path => exact current.deleteTree sound path
  | act action => exact current.act sound action
  | dropUploader => exact current.abandonUploads sound
  | _ => exact absurd rfl plain

theorem current_mount (mount : Mount) : mount.cache.Current := by
  have idle : ∀ {task job}, mount.cache.upload? task ≠ some job := by
    intro task job working
    cases working
  refine ⟨⟨fun {path task} => ⟨fun registered => ?_, fun ⟨_, working, _⟩ => absurd working idle⟩⟩,
    fun working => absurd working idle, ⟨.nil, .nil⟩, fun working => absurd working idle,
    fun ⟨_, timer⟩ => ?_, fun working _ _ => idle working⟩
  · cases registered
  · cases timer

theorem current_after (mount : Mount) {steps : Nat → Step} (unasked : ∀ n, (steps n).asks = false)
    (n : Nat) : (mount.cache.after steps n).Current :=
  after_induction (current_mount mount) (fun n current => current_step current
    (sound_after mount steps n) (counted_after mount steps n) (rooted_after mount steps n)
    (unasked n)) n

end SparseCache.Cache
