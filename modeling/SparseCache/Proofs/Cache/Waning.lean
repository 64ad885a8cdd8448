import SparseCache.Proofs.Cache.Turns

namespace SparseCache.Cache

/-! Operations that give no task anything new to do, and those that end uploads
or schedule them. -/

variable {cache before middle after : Cache} {id : EntryId} {task upload : TaskId} {work : Work}
  {job : Upload} {path : Path}

/-- Task numbers are handed out in order, and uploads run in the background. -/
structure Sound (cache : Cache) : Prop where
  fresh : cache.Fresh
  backed : cache.Backed

/-- Tasks may have been stopped, but none does what it did not do before. -/
structure Wanes (before after : Cache) : Prop where
  sound : after.Sound
  doing : ∀ {task work}, after.doing? task = some work → before.doing? task = some work
  later : before.nextTask ≤ after.nextTask

theorem SameWork.sound (same : SameWork before after) (sound : before.Sound) : after.Sound :=
  ⟨same.fresh sound.fresh, same.backed sound.backed⟩

namespace Wanes

theorem refl (sound : cache.Sound) : Wanes cache cache := ⟨sound, id, Nat.le_refl _⟩

theorem trans (first : Wanes before middle) (second : Wanes middle after) : Wanes before after :=
  ⟨second.sound, fun found => first.doing (second.doing found),
    Nat.le_trans first.later second.later⟩

theorem of_sameWork (sound : before.Sound) (same : SameWork before after) : Wanes before after :=
  ⟨same.sound sound, fun found => same.doing? ▸ found, Nat.le_of_eq same.nextTask.symm⟩

theorem cancel (sound : cache.Sound) (path : Path) : Wanes cache (cache.cancel path).2 where
  sound := ⟨sound.fresh.cancel, sound.backed.cancel⟩
  doing found := by
    rw [doing?_cancel sound.backed] at found
    split at found
    · cases found
    · exact found
  later := Nat.le_of_eq nextTask_cancel.symm

theorem abort (sound : cache.Sound) (task : TaskId) : Wanes cache (cache.abort task) where
  sound := by
    obtain ⟨state, backed⟩ := sound.backed
    exact ⟨sound.fresh.abort task, state, uploader_abort.trans backed⟩
  doing found := by
    rw [doing?_abort] at found
    split at found
    · cases found
    · exact found
  later := Nat.le_of_eq nextTask_abort.symm

theorem dropTask (sound : cache.Sound) (task : TaskId) : Wanes cache (cache.dropTask task) where
  sound := ⟨sound.fresh.dropTask task, sound.backed⟩
  doing found := by
    rw [doing?_dropTask] at found
    split at found
    · cases found
    · exact found
  later := Nat.le_refl _

theorem reap (sound : cache.Sound) (task : TaskId) : Wanes cache (cache.reap task) where
  sound := ⟨sound.fresh.reap task, sound.backed.reap task⟩
  doing found := by
    rw [doing?_reap] at found
    split at found
    · cases found
    · exact found
  later := Nat.le_of_eq nextTask_reap.symm

theorem abandonUploads (sound : cache.Sound) : Wanes cache cache.abandonUploads :=
  ⟨⟨sound.fresh.abandonUploads, sound.backed.abandonUploads⟩, doing?_abandonUploads,
    Nat.le_of_eq nextTask_abandonUploads.symm⟩

theorem closeEntry (sound : cache.Sound) (id : EntryId) : Wanes cache (cache.closeEntry id) :=
  .of_sameWork sound ((SameWork.refl cache).closeEntry id)

theorem evictIfIdle (sound : cache.Sound) (id : EntryId) (epoch : Nat) :
    Wanes cache (cache.evictIfIdle id epoch) := by
  unfold Cache.evictIfIdle
  split
  · exact .refl sound
  · split
    · exact .of_sameWork sound (((SameWork.refl cache).setMapped _).closeEntry id)
    · exact .refl sound

theorem delete (sound : cache.Sound) (path : Path) : Wanes cache (cache.delete path) := by
  have cancelled := cancel sound path
  unfold Cache.delete
  simp only
  split
  · exact cancelled
  · exact cancelled.trans (.of_sameWork cancelled.sound
      (((SameWork.refl _).setMapped _).closeEntry _))

theorem foldl_discard (doomed : PathMap EntryId) (reached : Wanes before cache) :
    Wanes before
      (doomed.foldl (fun cache (key, id) => (cache.cancel key).2.closeEntry id) cache) := by
  induction doomed generalizing cache with
  | nil => exact reached
  | cons item doomed ih =>
      have cancelled := reached.trans (.cancel reached.sound item.1)
      exact ih (cancelled.trans (.closeEntry cancelled.sound item.2))

theorem deleteTree (sound : cache.Sound) (path : Path) : Wanes cache (cache.deleteTree path) :=
  foldl_discard _ (.of_sameWork sound ((SameWork.refl cache).setMapped _))

end Wanes

/-! ### Scheduling -/

theorem Sound.schedule (sound : cache.Sound) (id : EntryId) (completion : Completion) :
    (cache.schedule id completion).Sound :=
  ⟨sound.fresh.schedule sound.backed, sound.backed.schedule⟩

theorem Sound.spawn (sound : cache.Sound) (work : Work) : (cache.spawn work).2.Sound := by
  obtain ⟨state, backed⟩ := sound.backed
  exact ⟨sound.fresh.spawn work, state, uploader_spawn.trans backed⟩

theorem doing?_of_schedule (sound : cache.Sound) {completion : Completion}
    (found : (cache.schedule id completion).doing? task = some work) :
    cache.doing? task = some work ∨ task = cache.nextTask ∧
      work = .upload { entry := id, path := cache.pathOf id, completion } := by
  rw [doing?_schedule sound.fresh sound.backed] at found
  split at found
  · rename_i new
    cases found
    exact .inr ⟨new, rfl⟩
  · split at found
    · cases found
    · exact .inl found

theorem Sound.release (sound : cache.Sound) (id : EntryId) : (cache.release id).Sound := by
  have given := ((SameWork.refl cache).releaseEntryHandle id).sound sound
  unfold Cache.release
  split
  · simp only
    split
    · exact given.schedule _ _
    · exact given
  · exact given

theorem doing?_of_release (sound : cache.Sound)
    (found : (cache.release id).doing? task = some work) :
    cache.doing? task = some work ∨ task = cache.nextTask ∧
      ∃ path epoch, work = .upload { entry := id, path, completion := .evict epoch } ∧
        ∀ entry, Cache.entry? (cache.release id) id = some entry → entry.epoch = epoch := by
  have given := (SameWork.refl cache).releaseEntryHandle id
  have store := sameStore_release cache id
  generalize returned : cache.release id = after at found store
  unfold release at returned
  split at returned
  · simp only at returned
    split at returned
    · subst returned
      rcases doing?_of_schedule (given.sound sound) found with same | ⟨new, rfl⟩
      · exact .inl (given.doing? ▸ same)
      · refine .inr ⟨new.trans given.nextTask, _, _, rfl, fun entry present => ?_⟩
        rw [← store.lookup, present]
        rfl
    · subst returned
      exact .inl (given.doing? ▸ found)
  · subst returned
    exact .inl (given.doing? ▸ found)

/-! ### Ending -/

theorem Sound.emit (sound : cache.Sound) (event : Event) : (cache.emit event).Sound :=
  ⟨sound.fresh, sound.backed⟩

theorem Sound.endUpload (sound : cache.Sound) (upload : TaskId) (job : Upload) :
    (cache.endUpload upload job).Sound :=
  ⟨sound.fresh.endUpload upload job, sound.backed.endUpload upload job⟩

theorem Sound.setWork (sound : cache.Sound) (task : TaskId) (work : Work) :
    (cache.setWork task work).Sound :=
  ⟨sound.fresh.modifyTask task _, sound.backed⟩

theorem doing?_endUpload_self (sound : cache.Sound) (upload : TaskId) (job : Upload) :
    (cache.endUpload upload job).doing? upload = none := by
  by_cases registered : cache.pending.get? job.path = some upload
  · rw [endUpload_of_registered sound.backed registered, doing?_reap, if_pos rfl]
  · rw [endUpload_of_not_registered sound.backed registered, doing?_reap, if_pos rfl]

/-- The end of an upload starts at most the grace period of its entry. -/
theorem doing?_of_endUpload (sound : cache.Sound)
    (found : (cache.endUpload upload job).doing? task = some work) :
    cache.doing? task = some work ∨ cache.nextTask ≤ task ∧
      ∃ epoch, cache.pending.get? job.path = some upload ∧ job.completion = .evict epoch ∧
        work = .grace job.entry epoch (cache.clock + cache.grace) := by
  by_cases timed : ∃ epoch, cache.pending.get? job.path = some upload ∧
      job.completion = .evict epoch
  · obtain ⟨epoch, registered, goal⟩ := timed
    rw [doing?_endUpload_evict sound.fresh sound.backed registered goal] at found
    split at found
    · cases found
    · split at found
      · rename_i new
        cases found
        exact .inr ⟨Nat.le_of_eq new.symm, epoch, registered, goal, rfl⟩
      · exact .inl found
  · rw [doing?_endUpload_of_not_evict sound.backed fun epoch registered goal =>
      timed ⟨epoch, registered, goal⟩] at found
    split at found
    · cases found
    · exact .inl found

/-! ### Permits -/

theorem doing?_takePermit (live : cache.live? upload = some (.upload job)) (task : TaskId) :
    (cache.takePermit upload job).2.doing? task = cache.doing? task := by
  unfold takePermit
  split
  · rfl
  · split
    · rfl
    · rename_i state backed
      split
      · rfl
      · split
        · have known : cache.doing? upload = some (.upload { job with permit := false }) := by
            rw [doing?, live]
            rfl
          have same : ∀ other, doing? { cache with
              uploader := .background { state with free := state.free - 1 } } other
              = cache.doing? other := fun _ => doing?_congr rfl
          rw [doing?_setWork, same]
          split
          · rename_i here
            rw [here, known]
            rfl
          · rfl
        · rfl

theorem wanes_takePermit (sound : cache.Sound) (live : cache.live? task = some (.upload job)) :
    Wanes cache (cache.takePermit task job).2 := by
  have steady := fun other => doing?_takePermit live other
  refine ⟨?_, fun {other work} found => steady other ▸ found, ?_⟩
  · unfold takePermit
    split
    · exact sound
    · split
      · exact sound
      · split
        · exact sound
        · split
          · exact ⟨(sound.fresh.setUploader _).modifyTask _ _, ⟨_, rfl⟩⟩
          · exact ⟨sound.fresh, ⟨_, rfl⟩⟩
  · unfold takePermit
    split
    · exact Nat.le_refl _
    · split
      · exact Nat.le_refl _
      · split
        · exact Nat.le_refl _
        · split <;> exact Nat.le_refl _

theorem pending_takePermit (cache : Cache) (task : TaskId) (job : Upload) :
    (cache.takePermit task job).2.pending = cache.pending := by
  unfold takePermit
  split
  · rfl
  · split
    · rfl
    · rename_i state backed
      split
      · rfl
      · split
        · exact (pending_of_background backed).symm
        · exact (pending_of_background backed).symm

theorem takePermit_some {granted : Upload} (given : (cache.takePermit task job).1 = some granted) :
    granted = job ∨ granted = { job with permit := true } := by
  unfold takePermit at given
  split at given
  · cases given
    exact .inl rfl
  · split at given
    · cases given
    · split at given
      · cases given
      · split at given
        · cases given
          exact .inr rfl
        · cases given

theorem events_takePermit (cache : Cache) (task : TaskId) (job : Upload) :
    (cache.takePermit task job).2.events = cache.events := by
  unfold takePermit
  split
  · rfl
  · split
    · rfl
    · split
      · rfl
      · split <;> rfl

end SparseCache.Cache
