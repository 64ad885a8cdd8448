import SparseCache.Proofs.Cache.Callbacks

namespace SparseCache

/-! A transfer goes on until it ends or somebody gives it up.

Other than by their own steps, tasks are stopped by way of the uploads on record, and no transfer
stands there.
-/

theorem PathMap.mem_set {α : Type} {map : PathMap α} {path : Path} {value : α} {item : Path × α}
    (found : item ∈ map.set path value) : item.2 = value ∨ item ∈ map := by
  unfold PathMap.set at found
  split at found
  · obtain ⟨old, member, changed⟩ := List.mem_map.mp found
    split at changed
    · exact .inl (changed ▸ rfl)
    · exact .inr (changed ▸ member)
  · rcases List.mem_append.mp found with old | new
    · exact .inr old
    · cases List.mem_singleton.mp new
      exact .inl rfl

namespace Cache

variable {cache before middle after : Cache} {id : EntryId} {task other : TaskId} {work : Work}
  {job : Transfer} {upload : Upload} {path : Path} {step : Step}

/-- No upload on record goes by the number. -/
def Unlisted (cache : Cache) (task : TaskId) : Prop := ∀ item ∈ cache.pending, item.2 ≠ task

/-- What happened is nothing to a task that no upload on record goes by: it goes on as it did. -/
structure Bypasses (task : TaskId) (before after : Cache) : Prop where
  sound : after.Sound
  later : before.nextTask ≤ after.nextTask
  listed : ∀ item ∈ after.pending, (∃ old ∈ before.pending, old.2 = item.2) ∨
    before.nextTask ≤ item.2 ∧ item.2 < after.nextTask
  doing : before.Unlisted task → task < before.nextTask → after.doing? task = before.doing? task

namespace Bypasses

theorem unlisted (bypasses : Bypasses task before after) (unlisted : before.Unlisted task)
    (known : task < before.nextTask) : after.Unlisted task := by
  intro item member here
  rcases bypasses.listed item member with ⟨old, listed, same⟩ | ⟨new, -⟩
  · exact unlisted old listed (same.trans here)
  · rw [here] at new
    exact absurd known (Nat.not_lt_of_le new)

/-- The uploads on record are the same or fewer. -/
theorem of_pending (sound : after.Sound) (later : before.nextTask ≤ after.nextTask)
    (pending : ∀ item ∈ after.pending, item ∈ before.pending)
    (doing : before.Unlisted task → task < before.nextTask →
      after.doing? task = before.doing? task) : Bypasses task before after :=
  ⟨sound, later, fun item member => .inl ⟨item, pending item member, rfl⟩, doing⟩

theorem refl (sound : cache.Sound) : Bypasses task cache cache :=
  of_pending sound (Nat.le_refl _) (fun _ => id) fun _ _ => rfl

theorem trans (first : Bypasses task before middle) (second : Bypasses task middle after) :
    Bypasses task before after where
  sound := second.sound
  later := Nat.le_trans first.later second.later
  listed item member := by
    rcases second.listed item member with ⟨old, listed, same⟩ | ⟨new, upto⟩
    · rcases first.listed old listed with ⟨older, listed', same'⟩ | ⟨new, upto⟩
      · exact .inl ⟨older, listed', same'.trans same⟩
      · rw [same] at new upto
        exact .inr ⟨new, Nat.lt_of_lt_of_le upto second.later⟩
    · exact .inr ⟨Nat.le_trans first.later new, upto⟩
  doing unlisted known :=
    (second.doing (first.unlisted unlisted known) (Nat.lt_of_lt_of_le known first.later)).trans
      (first.doing unlisted known)

theorem of_sameWork (sound : before.Sound) (same : SameWork before after) :
    Bypasses task before after :=
  of_pending (same.sound sound) (Nat.le_of_eq same.nextTask.symm)
    (fun _ member => same.pending ▸ member) fun _ _ => same.doing?

theorem quiet (bypasses : Bypasses task before middle) (same : SameWork middle after) :
    Bypasses task before after :=
  bypasses.trans (of_sameWork bypasses.sound same)

theorem cancel (bypasses : Bypasses task before middle) (path : Path) :
    Bypasses task before (middle.cancel path).2 := by
  have backed := bypasses.sound.backed
  refine bypasses.trans (of_pending (Wanes.cancel bypasses.sound path).sound
    (Nat.le_of_eq nextTask_cancel.symm) (fun item member => ?_) fun unlisted _ => ?_)
  · rw [pending_cancel backed] at member
    exact (List.mem_filter.mp member).1
  · rw [doing?_cancel backed, if_neg]
    intro registered
    obtain ⟨key, member, -⟩ := PathMap.exists_mem_of_get? registered
    exact unlisted _ member rfl

theorem schedule (bypasses : Bypasses task before middle) (id : EntryId)
    (completion : Completion) : Bypasses task before (middle.schedule id completion) := by
  have sound := bypasses.sound
  refine bypasses.trans ⟨sound.schedule id completion, ?_, fun item member => ?_,
    fun unlisted known => ?_⟩
  · rw [nextTask_schedule sound.backed]
    exact Nat.le_succ _
  · rw [pending_schedule sound.backed] at member
    rw [nextTask_schedule sound.backed]
    rcases PathMap.mem_set member with new | old
    · rw [new]
      exact .inr ⟨Nat.le_refl _, Nat.lt_succ_self _⟩
    · exact .inl ⟨item, old, rfl⟩
  · rw [doing?_schedule sound.fresh sound.backed, if_neg (Nat.ne_of_lt known), if_neg]
    intro registered
    obtain ⟨key, member, -⟩ := PathMap.exists_mem_of_get? registered
    exact unlisted _ member rfl

theorem release (bypasses : Bypasses task before middle) (id : EntryId) :
    Bypasses task before (middle.release id) := by
  have given := bypasses.quiet ((SameWork.refl middle).releaseEntryHandle id)
  unfold Cache.release
  split
  · simp only
    split
    · exact given.schedule _ _
    · exact given
  · exact given

theorem foldl_discard (bypasses : Bypasses task before cache) (doomed : PathMap EntryId) :
    Bypasses task before
      (doomed.foldl (fun cache (key, id) => (cache.cancel key).2.closeEntry id) cache) := by
  induction doomed generalizing cache with
  | nil => exact bypasses
  | cons item doomed ih =>
      exact ih ((bypasses.cancel item.1).quiet ((SameWork.refl _).closeEntry item.2))

theorem abandonUploads (sound : cache.Sound) : Bypasses task cache cache.abandonUploads := by
  obtain ⟨state, backed⟩ := sound.backed
  refine of_pending (Wanes.abandonUploads sound).sound (Nat.le_of_eq nextTask_abandonUploads.symm)
    (fun item member => ?_) fun unlisted _ => ?_
  · rw [pending_abandonUploads] at member
    cases member
  · have stopped : ∀ (items : PathMap TaskId) (cache : Cache), (∀ item ∈ items, item.2 ≠ task) →
        (items.foldl (fun cache item => cache.abort item.2) cache).doing? task
          = cache.doing? task := by
      intro items
      induction items with
      | nil => exact fun _ _ => rfl
      | cons item items ih =>
          intro cache spared
          refine (ih _ fun item member => spared item (.tail _ member)).trans ?_
          rw [doing?_abort, if_neg (Ne.symm (spared item (.head _)))]
    rw [Unlisted, pending_of_background backed] at unlisted
    refine Eq.trans (doing?_congr ?_) (stopped state.pending cache unlisted)
    simp only [Cache.abandonUploads, backed]
    split <;> rfl

/-! ### Steps of another task -/

theorem setWork (bypasses : Bypasses task before middle) (apart : task ≠ other) (work : Work) :
    Bypasses task before (middle.setWork other work) :=
  bypasses.trans (of_pending (bypasses.sound.setWork other work) (Nat.le_refl _) (fun _ => id)
    fun _ _ => by rw [doing?_setWork, if_neg apart])

theorem dropTask (bypasses : Bypasses task before middle) (apart : task ≠ other) :
    Bypasses task before (middle.dropTask other) :=
  bypasses.trans (of_pending (Wanes.dropTask bypasses.sound other).sound (Nat.le_refl _)
    (fun _ => id) fun _ _ => by rw [doing?_dropTask, if_neg apart])

theorem reap (bypasses : Bypasses task before middle) (apart : task ≠ other) :
    Bypasses task before (middle.reap other) :=
  bypasses.trans (of_pending (Wanes.reap bypasses.sound other).sound
    (Nat.le_of_eq nextTask_reap.symm) (fun _ member => pending_reap ▸ member)
    fun _ _ => by rw [doing?_reap, if_neg apart])

theorem spawn (bypasses : Bypasses task before middle) (work : Work) :
    Bypasses task before (middle.spawn work).2 := by
  refine bypasses.trans (of_pending (bypasses.sound.spawn work) ?_ (fun _ member => ?_)
    fun _ known => ?_)
  · rw [nextTask_spawn]
    exact Nat.le_succ _
  · simpa only [pending, uploader_spawn] using member
  · rw [doing?_spawn bypasses.sound.fresh, if_neg (Nat.ne_of_lt known)]

theorem endUpload (bypasses : Bypasses task before middle) (apart : task ≠ other) (job : Upload) :
    Bypasses task before (middle.endUpload other job) := by
  have sound := bypasses.sound
  by_cases registered : middle.pending.get? job.path = some other
  · rw [endUpload_of_registered sound.backed registered]
    have off : Bypasses task before (middle.unregister job.path) := by
      refine bypasses.trans (of_pending ⟨sound.fresh.unregister, sound.backed.unregister⟩
        (Nat.le_of_eq nextTask_unregister.symm) (fun item member => ?_)
        fun _ _ => doing?_unregister)
      rw [pending_unregister sound.backed] at member
      exact (List.mem_filter.mp member).1
    refine Bypasses.reap ?_ apart
    cases job.completion with
    | evict epoch => exact off.spawn _
    | notify tag => exact off.quiet ((SameWork.refl _).emit _)
  · rw [endUpload_of_not_registered sound.backed registered]
    exact bypasses.reap apart

theorem failUpload (bypasses : Bypasses task before middle) (apart : task ≠ other) (job : Upload)
    (error : EntryError) : Bypasses task before (middle.failUpload other job error) :=
  (bypasses.quiet ((SameWork.refl middle).log _ _ _)).endUpload apart job

theorem takePermit (bypasses : Bypasses task before middle)
    (live : middle.live? other = some (.upload upload)) :
    Bypasses task before (middle.takePermit other upload).2 := by
  have wanes := wanes_takePermit bypasses.sound live
  exact bypasses.trans (of_pending wanes.sound wanes.later
    (fun _ member => pending_takePermit middle other upload ▸ member)
    fun _ _ => doing?_takePermit live task)

theorem beginUpload (bypasses : Bypasses task before middle) (apart : task ≠ other)
    (job : Upload) : Bypasses task before (middle.beginUpload other job) := by
  unfold Cache.beginUpload
  split
  · exact bypasses.endUpload apart job
  · split
    · split
      · exact bypasses.failUpload apart job _
      · exact bypasses.setWork apart _
    · exact bypasses.endUpload apart job

theorem setNextCall (bypasses : Bypasses task before middle) (nextCall : CallId) :
    Bypasses task before { middle with nextCall } :=
  bypasses.quiet ⟨rfl, rfl, rfl, rfl, rfl⟩

theorem emit (bypasses : Bypasses task before middle) (event : Event) :
    Bypasses task before (middle.emit event) :=
  bypasses.quiet ((SameWork.refl middle).emit event)

theorem copies (bypasses : Bypasses task before middle) (apart : task ≠ other)
    (copies : Copies middle other upload after) : Bypasses task before after := by
  cases copies with
  | failed error => exact bypasses.failUpload apart upload error
  | begins stage found stored => exact bypasses.setWork apart _
  | reads stage going source done => exact bypasses.setWork apart _
  | sends stage through => exact ((bypasses.setNextCall _).setWork apart _).emit _

theorem advanceUpload (bypasses : Bypasses task before middle) (apart : task ≠ other)
    (live : middle.live? other = some (.upload upload)) :
    Bypasses task before (middle.advanceUpload other upload) := by
  unfold Cache.advanceUpload
  split
  · have taken := bypasses.takePermit live
    split
    · rename_i waiting
      rwa [waiting] at taken
    · rename_i granted
      rw [granted] at taken
      exact taken.beginUpload apart _
  · split
    · exact bypasses
    · exact bypasses.failUpload apart _ _
    · exact bypasses.setWork apart _
  · exact bypasses.copies apart (copies_beginCopy ‹_›)
  · exact bypasses.copies apart (copies_copying ‹_›)
  · exact bypasses

theorem advanceTransfer (bypasses : Bypasses task before middle) (apart : task ≠ other)
    (job : Transfer) : Bypasses task before (middle.advanceTransfer other job) := by
  unfold Cache.advanceTransfer
  split
  · split
    · exact bypasses.setWork apart _
    · exact (bypasses.dropTask apart).emit _
    · exact (bypasses.dropTask apart).emit _
  · split
    · exact bypasses
    · exact (bypasses.dropTask apart).emit _

theorem advance (sound : cache.Sound) (apart : task ≠ other) :
    Bypasses task cache (cache.advance other) := by
  have still : Bypasses task cache cache := refl sound
  cases live : cache.live? other with
  | some work =>
      rw [advance_of_live live]
      cases work with
      | transfer job => exact still.advanceTransfer apart job
      | upload job => exact still.advanceUpload apart live
      | grace entry epoch due =>
          simp only
          split
          · exact (still.dropTask apart).quiet (sameWork_evictIfIdle _ entry epoch)
          · exact still
  | none =>
      unfold Cache.advance
      split
      · exact still
      · rename_i held found
        split
        · exact still.reap apart
        · rename_i going
          obtain ⟨work, aborted⟩ := held
          cases aborted with
          | true => exact absurd rfl going
          | false =>
              rw [live?_eq_some_iff.mpr found] at live
              cases live

theorem request (sound : cache.Sound) (apart : task ≠ other) (i : Nat) :
    Bypasses task cache (cache.request other i) := by
  unfold Cache.request
  split
  · exact .refl sound
  · split
    · exact (((refl sound).setNextCall _).setWork apart _).emit _
    · exact .refl sound

theorem deliver (sound : cache.Sound) (apart : task ≠ other) (i : Nat) (reply : Reply) :
    Bypasses task cache (cache.deliver other i reply) := by
  unfold Cache.deliver
  split
  · exact .refl sound
  · split
    · exact .refl sound
    · split
      · exact .refl sound
      · exact ((refl sound).quiet ((SameWork.refl cache).setEntry _ _)).setWork apart _

theorem settle (sound : cache.Sound) (apart : task ≠ other) (result : Except RemoteError Unit) :
    Bypasses task cache (cache.settle other result) := by
  unfold Cache.settle
  split
  · split
    · split
      · exact (refl sound).failUpload apart _ _
      · exact ((((refl sound).emit _).quiet ((SameWork.refl _).modifyEntry _ _)).quiet
          ((SameWork.refl _).log _ _ _)).endUpload apart _
    · exact .refl sound
  · exact .refl sound

/-! ### Calls from outside -/

theorem openFile (sound : cache.Sound) (path : Path) (flags : OpenFlags) (size : Nat)
    (modified : Modified) : Bypasses task cache (cache.openFile path flags size modified).2 := by
  have opens := opens_openFile cache path flags size modified
  have prepared : Bypasses task cache
      (if flags.isWritable then (cache.cancel path).2 else cache) := by
    split
    · exact (refl sound).cancel path
    · exact refl sound
  generalize (if flags.isWritable then (cache.cancel path).2 else cache) = base at opens prepared
  generalize (cache.openFile path flags size modified).2 = after at opens
  cases opens with
  | unmade unmapped => exact prepared
  | opened acquired keeps =>
      exact prepared.quiet ((sameWork_acquired acquired).setHandles _ _)
  | emptied acquired wipes found done =>
      exact prepared.quiet (((sameWork_acquired acquired).setEntry _ _).setHandles _ _)
  | refused acquired wipes closed =>
      exact (prepared.quiet (sameWork_acquired acquired)).release _

theorem closeHandle (sound : cache.Sound) (handle : Handle) :
    Bypasses task cache (cache.closeHandle handle) := by
  unfold Cache.closeHandle
  split
  · exact (refl sound).emit _
  · exact ((refl sound).quiet ((SameWork.refl cache).setHandles _ cache.counter)).release _

theorem moveFile (sound : cache.Sound) (source destination : Path) :
    Bypasses task cache (cache.moveFile source destination).2 := by
  have moves := moves_moveFile cache source destination
  have cancelled := ((refl sound : Bypasses task cache cache).cancel source).cancel destination
  generalize ((cache.cancel source).2.cancel destination).2 = base at moves cancelled
  generalize (cache.moveFile source destination).2 = after at moves
  have placed := fun id => cancelled.quiet ((SameWork.refl base).relocate source destination id)
  cases moves with
  | same same => exact refl sound
  | absent apart nowhere free => exact cancelled
  | discarded apart nowhere taken =>
      exact cancelled.quiet (((SameWork.refl base).setMapped _).closeEntry _)
  | moved apart mapped idle => exact placed _
  | rescheduled apart mapped hit => exact (placed _).schedule _ _

theorem delete (sound : cache.Sound) (path : Path) : Bypasses task cache (cache.delete path) := by
  have cancelled := (refl sound : Bypasses task cache cache).cancel path
  unfold Cache.delete
  simp only
  split
  · exact cancelled
  · exact cancelled.quiet (((SameWork.refl _).setMapped _).closeEntry _)

theorem deleteTree (sound : cache.Sound) (tree : Path) :
    Bypasses task cache (cache.deleteTree tree) := by
  rw [deleteTree_eq]
  exact ((refl sound).quiet ((SameWork.refl cache).setMapped _)).foldl_discard _

end Bypasses

/-- Only by its own steps, or by being given up, does a task come to do anything else. -/
theorem bypasses_step (sound : cache.Sound) (elsewhere : ¬ step.Runs task)
    (awaited : step ≠ .giveUp task) : Bypasses task cache (cache.step step) := by
  have still := (Bypasses.refl sound : Bypasses task cache cache)
  have same := SameWork.refl cache
  cases step with
  | create path size modified => exact still.quiet (same.allocate _ _ _)
  | transfer entry offset count reading =>
      simp only [Cache.step]
      split
      · exact still.spawn _
      · exact still
  | giveUp other =>
      have apart : task ≠ other := fun here => awaited (by rw [here])
      simp only [Cache.step]
      split
      · refine .of_pending (Wanes.abort sound other).sound (Nat.le_of_eq nextTask_abort.symm)
          (fun _ member => ?_) fun _ _ => by rw [doing?_abort, if_neg apart]
        simpa only [pending, uploader_abort] using member
      · exact still
  | write entry offset data => exact still.quiet (same.onEntry entry _)
  | truncate entry size => exact still.quiet (same.onEntry entry _)
  | closeEntry entry => exact still.quiet (same.closeEntry entry)
  | rename entry path => exact still.quiet (same.modifyEntry entry _)
  | schedule entry tag =>
      simp only [Cache.step]
      split
      · exact still.schedule _ _
      · exact still
  | cancel path => exact still.cancel path
  | openFile path flags size modified => exact .openFile sound path flags size modified
  | closeHandle handle => exact .closeHandle sound handle
  | moveFile source destination => exact .moveFile sound source destination
  | delete path => exact .delete sound path
  | deleteTree tree => exact .deleteTree sound tree
  | act action =>
      cases action with
      | advance other => exact .advance sound fun here => elsewhere here.symm
      | request other i => exact .request sound (fun here => elsewhere here.symm) i
      | deliver other i reply => exact .deliver sound (fun here => elsewhere here.symm) i reply
      | settle other result => exact .settle sound (fun here => elsewhere here.symm) result
      | tick milliseconds =>
          exact .of_pending ⟨sound.fresh, sound.backed⟩ (Nat.le_refl _) (fun _ => id) fun _ _ => rfl
  | dropUploader => exact .abandonUploads sound
  | loseScratch => exact still.quiet ⟨rfl, rfl, rfl, rfl, rfl⟩

/-! ### What is on record -/

/-- The uploads on record were begun, and none of them is a transfer. -/
structure Filed (cache : Cache) : Prop where
  known : ∀ item ∈ cache.pending, item.2 < cache.nextTask
  uploads : ∀ item ∈ cache.pending, ∀ job, cache.doing? item.2 ≠ some (.transfer job)

theorem Filed.unlisted (filed : cache.Filed) (doing : cache.doing? task = some (.transfer job)) :
    cache.Unlisted task := by
  intro item member here
  exact filed.uploads item member job (here ▸ doing)

/-- Whoever begins a transfer leaves the record of uploads as it is. -/
theorem transfer_before (sound : cache.Sound) (step : Step)
    (found : (cache.step step).doing? task = some (.transfer job)) :
    (∃ old, cache.doing? task = some (.transfer old)) ∨
      task = cache.nextTask ∧ (cache.step step).pending = cache.pending := by
  have course := course_step sound step found
  generalize same : Work.transfer job = work at course
  cases course with
  | kept before => exact .inl ⟨job, same ▸ before⟩
  | awaited new known =>
      refine .inr ⟨new, ?_⟩
      simp only [Cache.step, if_pos known, pending, uploader_spawn]
  | asked new known => cases same
  | scheduled new referred timely => cases same
  | timed new ending registered goal ends => cases same
  | begins before idle known started => exact .inl ⟨_, before⟩
  | fetches before queued known dirty started => cases same
  | finishes before stage done => cases same
  | copies before stage known stored => cases same
  | reads before stage going source done => cases same
  | sends before stage through told => cases same
  | @requests old id load fetch i before waits asks planned =>
      cases old with
      | transfer own => exact .inl ⟨own, before⟩
      | upload own => cases same
      | grace entry epoch due => cases same
  | @receives old id load entry i reply before waits going known filled =>
      cases old with
      | transfer own => exact .inl ⟨own, before⟩
      | upload own => cases same
      | grace entry epoch due => cases same

/-- There are always tasks that a step leaves alone. -/
theorem exists_elsewhere (step : Step) : ∃ task, ¬ step.Runs task ∧ step ≠ .giveUp task := by
  cases step with
  | giveUp own => exact ⟨own + 1, nofun, fun here => by cases here⟩
  | act action =>
      cases action with
      | advance own | request own | deliver own | settle own =>
          exact ⟨own + 1, fun here => Nat.ne_of_lt (Nat.lt_succ_self own) here, nofun⟩
      | tick milliseconds => exact ⟨0, nofun, nofun⟩
  | _ => exact ⟨0, nofun, nofun⟩

theorem filed_step (sound : cache.Sound) (filed : cache.Filed) (step : Step) :
    (cache.step step).Filed := by
  obtain ⟨aside, elsewhere, awaited⟩ := exists_elsewhere step
  have bypasses := bypasses_step sound elsewhere awaited
  constructor
  · intro item member
    rcases bypasses.listed item member with ⟨old, listed, same⟩ | ⟨-, upto⟩
    · rw [← same]
      exact Nat.lt_of_lt_of_le (filed.known old listed) bypasses.later
    · exact upto
  · intro item member job doing
    rcases transfer_before sound step doing with ⟨own, before⟩ | ⟨new, same⟩
    · rcases bypasses.listed item member with ⟨old, listed, here⟩ | ⟨new, -⟩
      · exact filed.uploads old listed own (here ▸ before)
      · exact absurd (lt_nextTask_of_doing? sound.fresh before) (Nat.not_lt_of_le new)
    · rw [same] at member
      exact Nat.ne_of_lt (filed.known item member) new

theorem filed_after (mount : Mount) (steps : Nat → Step) (n : Nat) :
    (mount.cache.after steps n).Filed := by
  have initial : mount.cache.Filed := ⟨nofun, nofun⟩
  exact after_induction initial (fun n filed => filed_step (sound_after mount steps n) filed _) n

end Cache

end SparseCache
