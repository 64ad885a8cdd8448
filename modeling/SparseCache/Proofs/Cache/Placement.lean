import SparseCache.Proofs.Cache.Currency

namespace SparseCache.Cache

/-! As long as only the cache moves entries, every upload is one of the path by which its entry
goes, whoever asked for it.  So no entry has two uploads.
-/

variable {cache base before middle after : Cache} {id other : EntryId} {entry next : Entry}
  {path source destination tree : Path} {task upload : TaskId} {job : Upload}
  {completion : Completion}

/-- Entries go by the paths at which they are mapped, and uploads are of these paths. -/
structure Placed (cache : Cache) : Prop where
  enrolled : cache.Enrolled
  homed : ∀ {path id}, cache.mapped.get? path = some id →
    ∃ entry, cache.entry? id = some entry ∧ entry.path.Same path
  bound : ∀ {task job}, cache.upload? task = some job →
    ∃ entry, cache.entry? job.entry = some entry ∧ entry.path.Same job.path

theorem Placed.single (placed : cache.Placed) : cache.Single := by
  intro task task' one job found found' about
  obtain ⟨entry, known, here⟩ := placed.bound found
  obtain ⟨held, known', there⟩ := placed.bound found'
  rw [about, known'] at known
  cases known
  have registered := placed.enrolled.registered found
  rw [PathMap.get?_congr (here.symm.trans there), placed.enrolled.registered found'] at registered
  exact (Option.some.inj registered).symm

/-! ### Entries that stay where they are -/

/-- Entries go by the paths they went by, and nothing is mapped or under way but what was so. -/
structure Stays (before after : Cache) : Prop where
  enrolled : before.Enrolled → after.Enrolled
  mapped : ∀ {path id}, after.mapped.get? path = some id → before.mapped.get? path = some id
  uploads : ∀ {task job}, after.upload? task = some job → before.upload? task = some job
  paths : ∀ {id entry}, before.entry? id = some entry →
    ∃ next, after.entry? id = some next ∧ next.path = entry.path

theorem Placed.stays (placed : before.Placed) (stays : Stays before after) : after.Placed where
  enrolled := stays.enrolled placed.enrolled
  homed mapped := by
    obtain ⟨entry, known, here⟩ := placed.homed (stays.mapped mapped)
    obtain ⟨next, present, same⟩ := stays.paths known
    exact ⟨next, present, same ▸ here⟩
  bound found := by
    obtain ⟨entry, known, here⟩ := placed.bound (stays.uploads found)
    obtain ⟨next, present, same⟩ := stays.paths known
    exact ⟨next, present, same ▸ here⟩

namespace Stays

theorem refl (cache : Cache) : Stays cache cache :=
  ⟨id, id, id, fun found => ⟨_, found, rfl⟩⟩

theorem trans (first : Stays before middle) (second : Stays middle after) :
    Stays before after where
  enrolled enrolled := second.enrolled (first.enrolled enrolled)
  mapped found := first.mapped (second.mapped found)
  uploads found := first.uploads (second.uploads found)
  paths found := by
    obtain ⟨between, present, same⟩ := first.paths found
    obtain ⟨next, present', same'⟩ := second.paths present
    exact ⟨next, present', same'.trans same⟩

theorem paths_of_keeps (keeps : Keeps before after) (found : before.entry? id = some entry) :
    ∃ next, after.entry? id = some next ∧ next.path = entry.path := by
  obtain ⟨next, present, same, -⟩ := keeps.kept found
  exact ⟨next, present, same⟩

theorem of_sameWork (same : SameWork before after) (mapped : after.mapped = before.mapped)
    (paths : ∀ {id entry}, before.entry? id = some entry →
      ∃ next, after.entry? id = some next ∧ next.path = entry.path) : Stays before after where
  enrolled enrolled := enrolled.congr same.pending fun _ => upload?_congr same.doing?
  mapped found := mapped ▸ found
  uploads found := by rwa [upload?_congr same.doing?] at found
  paths := paths

theorem of_steady (steady : Steady before after) : Stays before after where
  enrolled enrolled := enrolled.congr steady.pending steady.uploads
  mapped found := steady.mapped ▸ found
  uploads found := by rwa [steady.uploads] at found
  paths := paths_of_keeps steady.entries

theorem of_sameStore (same : SameStore before after) (enrolled : before.Enrolled → after.Enrolled)
    (uploads : ∀ {task job}, after.upload? task = some job → before.upload? task = some job) :
    Stays before after where
  enrolled := enrolled
  mapped found := same.mapped ▸ found
  uploads := uploads
  paths found := ⟨_, same.lookup.trans found, rfl⟩

theorem cancel (sound : cache.Sound) (path : Path) : Stays cache (cache.cancel path).2 :=
  of_sameStore ((SameStore.refl cache).cancel path) (fun enrolled => enrolled.cancel sound)
    (upload?_of_wanes (.cancel sound path))

theorem abandonUploads (sound : cache.Sound) : Stays cache cache.abandonUploads :=
  of_sameStore (SameStore.refl cache).abandonUploads (fun enrolled => enrolled.abandonUploads sound)
    (upload?_of_wanes (.abandonUploads sound))

theorem endUpload (sound : cache.Sound)
    (working : cache.upload? upload = (Work.upload job).upload?) :
    Stays cache (cache.endUpload upload job) := by
  refine of_sameStore ((SameStore.refl cache).endUpload upload job)
    (fun enrolled => enrolled.endUpload sound working) fun {task other} found => ?_
  rw [upload?_endUpload sound] at found
  split at found
  · cases found
  · exact found

theorem dropTask {timer : TaskId} {epoch due : Nat}
    (timed : cache.doing? timer = some (.grace id epoch due)) :
    Stays cache (cache.dropTask timer) := by
  have same : ∀ task, (cache.dropTask timer).upload? task = cache.upload? task :=
    fun _ => upload?_dropTask timed
  exact of_sameStore ((SameStore.refl cache).dropTask timer)
    (fun enrolled => enrolled.congr rfl same) fun found => by rwa [same] at found

theorem closeEntry (cache : Cache) (id : EntryId) : Stays cache (cache.closeEntry id) :=
  of_steady (.closeEntry cache id)

theorem setMapped {left : PathMap EntryId}
    (fewer : ∀ {path id}, left.get? path = some id → cache.mapped.get? path = some id) :
    Stays cache { cache with mapped := left } :=
  ⟨fun enrolled => enrolled.congr rfl fun _ => rfl, fewer, id, fun found => ⟨_, found, rfl⟩⟩

theorem unmap (cache : Cache) (path : Path) (id : EntryId) :
    Stays cache (Cache.closeEntry { cache with mapped := cache.mapped.erase path } id) :=
  (setMapped fun found => (PathMap.get?_erase_eq_some_iff.mp found).2).trans (.closeEntry _ _)

theorem evictIfIdle (cache : Cache) (id : EntryId) (epoch : Nat) :
    Stays cache (cache.evictIfIdle id epoch) := by
  unfold Cache.evictIfIdle
  split
  · exact .refl cache
  · split
    · exact .unmap cache _ id
    · exact .refl cache

theorem delete (sound : cache.Sound) (path : Path) : Stays cache (cache.delete path) := by
  have cancelled := cancel sound path
  unfold Cache.delete
  simp only
  split
  · exact cancelled
  · exact cancelled.trans (.unmap _ path _)

theorem foldl_discard (doomed : PathMap EntryId) (sound : cache.Sound)
    (reached : Stays before cache) :
    Stays before
      (doomed.foldl (fun cache (key, id) => (cache.cancel key).2.closeEntry id) cache) := by
  induction doomed generalizing cache with
  | nil => exact reached
  | cons item doomed ih =>
      have wanes := Wanes.cancel sound item.1
      exact ih (Wanes.closeEntry wanes.sound item.2).sound
        ((reached.trans (.cancel sound item.1)).trans (.closeEntry _ item.2))

theorem deleteTree (sound : cache.Sound) (tree : Path) : Stays cache (cache.deleteTree tree) := by
  rw [deleteTree_eq]
  refine foldl_discard _ (((SameWork.refl cache).setMapped _).sound sound)
    (setMapped fun {path id} found => ?_)
  rw [PathMap.get?_filter_not_within] at found
  split at found
  · cases found
  · exact found

theorem releaseEntryHandle (cache : Cache) (id : EntryId) :
    Stays cache (cache.releaseEntryHandle id).2 := by
  refine of_sameWork ((SameWork.refl cache).releaseEntryHandle id)
    (SameTables.releaseEntryHandle cache id).mapped fun {asked entry} found => ?_
  rw [entry?_releaseEntryHandle]
  split
  · rw [found]
    cases left : entry.releaseHandle? with
    | none => exact ⟨entry, by simp [left], rfl⟩
    | some result =>
        obtain ⟨-, shape⟩ := Entry.releaseHandle?_some left
        exact ⟨result.2, by simp [left], by rw [shape]⟩
  · exact ⟨entry, found, rfl⟩

end Stays

/-! ### Scheduling -/

/-- Whoever asks for it, an upload is of the path by which its entry goes. -/
theorem Placed.schedule (placed : cache.Placed) (sound : cache.Sound)
    (known : (cache.entry? id).isSome) : (cache.schedule id completion).Placed := by
  have store := (SameStore.refl cache).schedule id completion
  obtain ⟨entry, found⟩ := Option.isSome_iff_exists.mp known
  refine ⟨placed.enrolled.schedule sound, fun mapped => ?_, fun {task job} working => ?_⟩
  · rw [store.lookup]
    exact placed.homed (store.mapped ▸ mapped)
  · rw [store.lookup]
    rw [upload?_schedule sound] at working
    split at working
    · cases working
      exact ⟨entry, found, pathOf_found found ▸ .refl entry.path⟩
    · split at working
      · cases working
      · exact placed.bound working

theorem Placed.release (placed : cache.Placed) (sound : cache.Sound) :
    (cache.release id).Placed := by
  have given := placed.stays (.releaseEntryHandle cache id)
  have same := (SameWork.refl cache).releaseEntryHandle id
  have table := (SameTables.releaseEntryHandle cache id).mapped
  unfold Cache.release
  split
  · rename_i mapped
    simp only
    split
    · refine given.schedule (same.sound sound) ?_
      obtain ⟨entry, found, -⟩ := given.homed (table ▸ mapped)
      exact Option.isSome_of_eq_some found
    · exact given
  · exact given

/-! ### Opening and closing by handle -/

theorem Placed.acquired (placed : cache.Placed) {size : Nat} {modified : Modified}
    (acquired : cache.acquire path size modified = (.ok id, after)) : after.Placed := by
  rcases acquire_ok acquired with ⟨mapped, rfl⟩ | ⟨unmapped, made, fits, rfl, rfl⟩
  · refine placed.stays (.of_sameWork (sameWork_acquired acquired) rfl
      (Stays.paths_of_keeps (.modifyEntry _ _ fun entry => ⟨rfl, rfl, ?_⟩)))
    intro none
    cases none
  · have extended : Stays cache { cache with entries := cache.entries ++ [made.openHandle.2] } :=
      .of_sameWork ⟨rfl, rfl, rfl, rfl, rfl⟩ rfl (Stays.paths_of_keeps (.append cache _ rfl))
    have kept := placed.stays extended
    refine ⟨kept.enrolled.congr rfl fun _ => rfl, fun {place other} mapped => ?_, kept.bound⟩
    rw [PathMap.get?_set] at mapped
    split at mapped
    · rename_i here
      cases mapped
      refine ⟨made.openHandle.2, (entry?_append cache rfl).trans (if_pos rfl), ?_⟩
      obtain ⟨-, rfl⟩ := Entry.create_ok fits
      exact here
    · exact kept.homed mapped

theorem Placed.openFile (placed : cache.Placed) (sound : cache.Sound) (path : Path)
    (flags : OpenFlags) (size : Nat) (modified : Modified) :
    (cache.openFile path flags size modified).2.Placed := by
  have opens := opens_openFile cache path flags size modified
  have wanes := wanes_prepared sound path flags
  have prepared : (if flags.isWritable then (cache.cancel path).2 else cache).Placed := by
    split
    · exact placed.stays (.cancel sound path)
    · exact placed
  generalize (if flags.isWritable then (cache.cancel path).2 else cache) = base
    at opens wanes prepared
  generalize (cache.openFile path flags size modified).2 = after at opens
  have handed : ∀ {held : Cache} {handles counter}, held.Placed →
      Placed { held with counter, handles } := by
    intro held handles counter placed
    exact placed.stays (.of_sameWork ((SameWork.refl held).setHandles _ _) rfl
      fun found => ⟨_, found, rfl⟩)
  cases opens with
  | unmade unmapped => exact prepared
  | opened acquired keeps => exact handed (prepared.acquired acquired)
  | @emptied opened held target empty acquired wipes found done =>
      refine handed ((prepared.acquired acquired).stays
        (.of_sameWork ((SameWork.refl held).setEntry _ _) rfl (Stays.paths_of_keeps ?_)))
      obtain ⟨_, -, -, rfl⟩ := Entry.truncate_ok done
      exact .setEntry found rfl rfl fun idle => idle
  | refused acquired wipes closed =>
      exact (prepared.acquired acquired).release ((sameWork_acquired acquired).sound wanes.sound)

theorem Placed.closeHandle (placed : cache.Placed) (sound : cache.Sound) (handle : Handle) :
    (cache.closeHandle handle).Placed := by
  unfold Cache.closeHandle
  split
  · exact placed.stays (.of_steady ((Steady.refl cache).emit _))
  · have same := (SameWork.refl cache).setHandles
      (cache.handles.filter fun item => item.1 != handle) cache.counter
    exact (placed.stays (.of_sameWork same rfl fun found => ⟨_, found, rfl⟩)).release
      (same.sound sound)

/-! ### Moving -/

theorem Placed.relocate (placed : cache.Placed) (mapped : cache.mapped.get? source = some id)
    (free : ∀ {other}, source.Same other → cache.pending.get? other = none) :
    (cache.relocate source destination id).Placed := by
  have same := (SameWork.refl cache).relocate source destination id
  obtain ⟨moved, known, here⟩ := placed.homed mapped
  -- No upload is of the path that the entry leaves.
  have spared : ∀ {task job}, cache.upload? task = some job → job.entry ≠ id := by
    intro task job working about
    obtain ⟨entry, found, there⟩ := placed.bound working
    rw [about, known] at found
    cases found
    have registered := placed.enrolled.registered working
    rw [free (here.symm.trans there)] at registered
    cases registered
  refine ⟨placed.enrolled.congr same.pending fun _ => upload?_congr same.doing?,
    fun {place other} found => ?_, fun {task job} working => ?_⟩
  · rcases mapped_before_relocate found with ⟨there, rfl⟩ | ⟨-, elsewhere, before⟩
    · obtain ⟨next, present, -, -, place⟩ := entry?_relocate source destination other known
      rw [if_pos rfl] at place
      exact ⟨next, present, place ▸ there⟩
    · obtain ⟨entry, held, there⟩ := placed.homed before
      have apart : other ≠ id := by
        intro about
        rw [about, known] at held
        cases held
        exact elsewhere (here.symm.trans there)
      obtain ⟨next, present, -, -, place⟩ := entry?_relocate source destination id held
      rw [if_neg apart] at place
      exact ⟨next, present, place ▸ there⟩
  · rw [upload?_congr same.doing?] at working
    obtain ⟨entry, held, there⟩ := placed.bound working
    obtain ⟨next, present, -, -, place⟩ := entry?_relocate source destination id held
    rw [if_neg (spared working)] at place
    exact ⟨next, present, place ▸ there⟩

theorem Placed.moveFile (placed : cache.Placed) (sound : cache.Sound)
    (source destination : Path) : (cache.moveFile source destination).2.Placed := by
  have moves := moves_moveFile cache source destination
  have one := Wanes.cancel sound source
  have cancelled := (placed.stays (.cancel sound source)).stays (.cancel one.sound destination)
  have wanes := wanes_moved sound source destination
  have free : ∀ {other}, source.Same other →
      ((cache.cancel source).2.cancel destination).2.pending.get? other = none :=
    fun here => pending_moved sound (.inl here)
  generalize ((cache.cancel source).2.cancel destination).2 = base at moves cancelled wanes free
  generalize (cache.moveFile source destination).2 = after at moves
  cases moves with
  | same same => exact placed
  | absent apart nowhere unused => exact cancelled
  | discarded apart nowhere taken => exact cancelled.stays (.unmap base destination _)
  | moved apart mapped idle => exact cancelled.relocate mapped free
  | @rescheduled id apart mapped hit =>
      have same := (SameWork.refl base).relocate source destination id
      have moved : (base.relocate source destination id).Placed := cancelled.relocate mapped free
      obtain ⟨entry, known, -⟩ := cancelled.homed mapped
      obtain ⟨next, present, -⟩ := entry?_relocate source destination id known
      exact moved.schedule (same.sound wanes.sound) (Option.isSome_of_eq_some present)

/-! ### Whole runs -/

theorem Placed.act (placed : cache.Placed) (sound : cache.Sound) (action : Action) :
    (cache.act action).Placed := by
  have acts := acts_act sound action
  generalize cache.act action = after at acts
  cases acts with
  | steady steady => exact placed.stays (.of_steady steady)
  | ended steady sound working =>
      exact (placed.stays (.of_steady steady)).stays
        (.endUpload sound ((upload?_of_doing? working).trans rfl))
  | expired timer => exact (placed.stays (.dropTask timer)).stays (.evictIfIdle _ _ _)

/-- Somebody other than the cache has an entry go by another path. -/
def Step.renames : Step → Bool
  | .rename .. => true
  | _ => false

theorem placed_step (placed : cache.Placed) (sound : cache.Sound) {step : Step}
    (unrenamed : step.renames = false) : (cache.step step).Placed := by
  by_cases plain : step.plain = true
  · exact placed.stays (.of_steady (.step sound plain))
  cases step with
  | rename id path => cases unrenamed
  | schedule id tag =>
      simp only [Cache.step]
      split
      · rename_i known
        exact placed.schedule sound known
      · exact placed
  | cancel path => exact placed.stays (.cancel sound path)
  | openFile path flags size modified => exact placed.openFile sound path flags size modified
  | closeHandle handle => exact placed.closeHandle sound handle
  | moveFile source destination => exact placed.moveFile sound source destination
  | delete path => exact placed.stays (.delete sound path)
  | deleteTree tree => exact placed.stays (.deleteTree sound tree)
  | act action => exact placed.act sound action
  | dropUploader => exact placed.stays (.abandonUploads sound)
  | _ => exact absurd rfl plain

theorem placed_after (mount : Mount) {steps : Nat → Step}
    (unrenamed : ∀ n, (steps n).renames = false) (n : Nat) : (mount.cache.after steps n).Placed := by
  have initial : mount.cache.Placed := by
    refine ⟨(current_mount mount).enrolled, fun mapped => ?_, fun working => ?_⟩
    · cases mapped
    · cases working
  exact after_induction initial (fun n placed =>
    placed_step placed (sound_after mount steps n) (unrenamed n)) n

end SparseCache.Cache
