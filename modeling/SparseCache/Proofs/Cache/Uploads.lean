import SparseCache.PathMap.Lemmas
import SparseCache.Proofs.Cache.Frames

namespace SparseCache.Cache

/-! Scheduling, cancelling and ending uploads, as they show in what tasks do and
in which upload is on record for a location. -/

variable {cache : Cache} {id task : TaskId} {entryId : EntryId} {path : Path}
  {completion : Completion} {job : Upload}

/-! ### Fresh numbers -/

theorem Fresh.modifyTask (fresh : cache.Fresh) (id : TaskId) (change : Task → Task) :
    (cache.modifyTask id change).Fresh := by
  intro task later
  have absent := fresh task later
  rw [task?_modifyTask]
  split <;> simp [absent]

theorem Fresh.dropTask (fresh : cache.Fresh) (id : TaskId) : (cache.dropTask id).Fresh := by
  intro task later
  rw [task?_dropTask]
  split
  · rfl
  · exact fresh task later

theorem Fresh.wake (fresh : cache.Fresh) (id : TaskId) : (cache.wake id).Fresh := by
  intro task later
  rw [task?_wake]
  exact fresh task (by rwa [nextTask_wake] at later)

theorem Fresh.abort (fresh : cache.Fresh) (id : TaskId) : (cache.abort id).Fresh := by
  unfold Cache.abort
  split
  · exact (fresh.modifyTask _ _).wake _
  · exact fresh

theorem Fresh.spawn (fresh : cache.Fresh) (work : Work) : (cache.spawn work).2.Fresh := by
  intro task later
  rw [nextTask_spawn] at later
  rw [Cache.spawn, task?_wake, task?_addTask fresh, if_neg (Nat.ne_of_gt later)]
  exact fresh task (Nat.le_of_succ_le later)

theorem Fresh.setUploader (fresh : cache.Fresh) (uploader : Uploader) :
    Fresh { cache with uploader } := fresh

theorem Fresh.emit (fresh : cache.Fresh) (event : Event) : (cache.emit event).Fresh := fresh

theorem Fresh.complete (fresh : cache.Fresh) (entryId : EntryId) (completion : Completion) :
    (cache.complete entryId completion).Fresh := by
  cases completion with
  | evict epoch => exact fresh.spawn _
  | notify tag => exact fresh.emit _

theorem Fresh.returnPermit (fresh : cache.Fresh) : cache.returnPermit.Fresh := by
  unfold Cache.returnPermit
  split
  · exact fresh
  · split
    · exact fresh
    · exact ((fresh.setUploader _).modifyTask _ _).wake _

theorem Fresh.reap (fresh : cache.Fresh) (id : TaskId) : (cache.reap id).Fresh := by
  unfold Cache.reap
  split
  · simp only
    split
    · exact (fresh.dropTask id).returnPermit
    · split
      · exact (fresh.dropTask id).setUploader _
      · exact fresh.dropTask id
  · exact fresh.dropTask id

/-! ### Permits -/

theorem doing?_returnPermit : cache.returnPermit.doing? task = cache.doing? task := by
  unfold returnPermit
  split
  · rfl
  · split
    · rfl
    · refine (doing?_congr tasks_wake).trans ((doing?_modifyTask fun held => ?_).trans rfl)
      obtain ⟨work, aborted⟩ := held
      cases work <;> rfl

theorem nextTask_returnPermit : cache.returnPermit.nextTask = cache.nextTask := by
  unfold returnPermit
  split
  · rfl
  · split
    · rfl
    · rw [nextTask_wake]; rfl

theorem pending_returnPermit : cache.returnPermit.pending = cache.pending := by
  unfold returnPermit
  split
  · rfl
  · rename_i state backed
    split
    · simp [pending, backed]
    · simp [pending, backed, modifyTask]

theorem Backed.returnPermit (backed : cache.Backed) : cache.returnPermit.Backed := by
  obtain ⟨state, found⟩ := backed
  unfold Cache.returnPermit
  rw [found]
  simp only
  split
  · exact ⟨_, rfl⟩
  · exact ⟨_, uploader_wake⟩

theorem nextTask_reap : (cache.reap id).nextTask = cache.nextTask := by
  unfold reap
  split
  · simp only
    split
    · rw [nextTask_returnPermit]; rfl
    · split <;> rfl
  · rfl

theorem doing?_reap :
    (cache.reap id).doing? task = if task = id then none else cache.doing? task := by
  rw [← doing?_dropTask]
  unfold reap
  split
  · simp only
    split
    · exact doing?_returnPermit
    · split <;> rfl
  · rfl

theorem pending_reap : (cache.reap id).pending = cache.pending := by
  unfold reap
  split
  · simp only
    split
    · rw [pending_returnPermit]; rfl
    · split
      · rename_i backed
        exact (pending_of_background backed).symm
      · rfl
  · rfl

theorem Backed.reap (backed : cache.Backed) (id : TaskId) : (cache.reap id).Backed := by
  unfold Cache.reap
  split
  · simp only
    split
    · exact Backed.returnPermit backed
    · split
      · exact ⟨_, rfl⟩
      · exact backed
  · exact backed

/-! ### Scheduling -/

/-- A new upload takes a number of its own and the place of the one on record. -/
theorem doing?_schedule (fresh : cache.Fresh) (backed : cache.Backed) :
    (cache.schedule entryId completion).doing? task
      = if task = cache.nextTask then
          some (.upload { entry := entryId, path := cache.pathOf entryId, completion })
        else if cache.pending.get? (cache.pathOf entryId) = some task then none
        else cache.doing? task := by
  obtain ⟨state, found⟩ := backed
  have registered : cache.pending = state.pending := pending_of_background found
  unfold schedule
  have uploader : (cache.emit (.scheduled entryId (cache.pathOf entryId))).uploader
      = .background state := found
  simp only [uploader, registered]
  cases earlier : state.pending.get? (cache.pathOf entryId) with
  | none =>
      refine (doing?_spawn (fresh.emit _)).trans ?_
      simp [Work.bare, emit]
      rfl
  | some old =>
      refine (doing?_spawn ((fresh.emit _).abort old)).trans ?_
      rw [nextTask_abort, doing?_abort]
      simp only [Option.some.injEq, eq_comm (a := old)]
      rfl

theorem pending_schedule (backed : cache.Backed) :
    (cache.schedule entryId completion).pending
      = cache.pending.set (cache.pathOf entryId) cache.nextTask := by
  obtain ⟨state, found⟩ := backed
  unfold schedule
  have uploader : (cache.emit (.scheduled entryId (cache.pathOf entryId))).uploader
      = .background state := found
  rw [pending_of_background found]
  simp only [uploader]
  cases state.pending.get? (cache.pathOf entryId) with
  | none => rfl
  | some old =>
      simp only [pending, spawn, addTask, nextTask_abort]
      rfl

theorem nextTask_schedule (backed : cache.Backed) :
    (cache.schedule entryId completion).nextTask = cache.nextTask + 1 := by
  obtain ⟨state, found⟩ := backed
  unfold schedule
  have uploader : (cache.emit (.scheduled entryId (cache.pathOf entryId))).uploader
      = .background state := found
  simp only [uploader]
  cases state.pending.get? (cache.pathOf entryId) with
  | none => exact nextTask_spawn
  | some old => exact nextTask_spawn.trans (congrArg (· + 1) nextTask_abort)

theorem Fresh.schedule (fresh : cache.Fresh) (backed : cache.Backed) :
    (cache.schedule entryId completion).Fresh := by
  obtain ⟨state, found⟩ := backed
  unfold Cache.schedule
  have uploader : (cache.emit (.scheduled entryId (cache.pathOf entryId))).uploader
      = .background state := found
  simp only [uploader]
  cases state.pending.get? (cache.pathOf entryId) with
  | none => exact ((fresh.emit _).spawn _).setUploader _
  | some old => exact (((fresh.emit _).abort old).spawn _).setUploader _

theorem Backed.schedule (backed : cache.Backed) :
    (cache.schedule entryId completion).Backed := by
  obtain ⟨state, found⟩ := backed
  unfold Cache.schedule
  have uploader : (cache.emit (.scheduled entryId (cache.pathOf entryId))).uploader
      = .background state := found
  simp only [uploader]
  exact ⟨_, rfl⟩

/-! ### Cancelling -/

theorem doing?_cancel (backed : cache.Backed) :
    (cache.cancel path).2.doing? task
      = if cache.pending.get? path = some task then none else cache.doing? task := by
  obtain ⟨state, found⟩ := backed
  rw [pending_of_background found]
  unfold cancel
  simp only [found]
  cases state.pending.get? path with
  | none => rfl
  | some old =>
      refine doing?_abort.trans ?_
      simp only [Option.some.injEq, eq_comm (a := old)]
      rfl

theorem pending_cancel (backed : cache.Backed) :
    (cache.cancel path).2.pending = cache.pending.erase path := by
  obtain ⟨state, found⟩ := backed
  rw [pending_of_background found]
  unfold cancel
  simp only [found]
  cases missing : state.pending.get? path with
  | none =>
      rw [PathMap.erase_of_get?_none missing]
      exact pending_of_background found
  | some old => simp [pending, emit]

theorem cancel_hit (backed : cache.Backed) :
    (cache.cancel path).1 = (cache.pending.get? path).isSome := by
  obtain ⟨state, found⟩ := backed
  rw [pending_of_background found]
  unfold cancel
  simp only [found]
  cases state.pending.get? path <;> rfl

theorem nextTask_cancel : (cache.cancel path).2.nextTask = cache.nextTask := by
  unfold cancel
  split
  · rfl
  · split
    · rfl
    · exact nextTask_abort

theorem Fresh.cancel (fresh : cache.Fresh) : (cache.cancel path).2.Fresh := by
  unfold Cache.cancel
  split
  · exact fresh
  · split
    · exact fresh
    · exact (fresh.setUploader _).abort _

theorem Backed.cancel (backed : cache.Backed) : (cache.cancel path).2.Backed := by
  obtain ⟨state, found⟩ := backed
  unfold Cache.cancel
  simp only [found]
  cases state.pending.get? path with
  | none => exact ⟨state, found⟩
  | some old => exact ⟨_, uploader_abort⟩

/-! ### Ending -/

theorem doing?_complete_evict (fresh : cache.Fresh) {epoch : Nat} :
    (cache.complete entryId (.evict epoch)).doing? task
      = if task = cache.nextTask then
          some (.grace entryId epoch (cache.clock + cache.grace))
        else cache.doing? task :=
  doing?_spawn fresh

theorem doing?_complete_notify {tag : String} :
    (cache.complete entryId (.notify tag)).doing? task = cache.doing? task := rfl

theorem pending_complete : (cache.complete entryId completion).pending = cache.pending := by
  cases completion with
  | evict epoch => simp only [complete, pending, uploader_spawn]
  | notify tag => rfl

theorem nextTask_le_complete : cache.nextTask ≤ (cache.complete entryId completion).nextTask := by
  cases completion with
  | evict epoch =>
      rw [complete, nextTask_spawn]
      exact Nat.le_succ _
  | notify tag => exact Nat.le_refl _

theorem Backed.complete (backed : cache.Backed) :
    (cache.complete entryId completion).Backed := by
  obtain ⟨state, found⟩ := backed
  cases completion with
  | evict epoch => exact ⟨state, uploader_spawn.trans found⟩
  | notify tag => exact ⟨state, found⟩

/-- The cache without a record of an upload of `path`. -/
def unregister (cache : Cache) (path : Path) : Cache :=
  match cache.uploader with
  | .background state =>
    { cache with uploader := .background { state with pending := state.pending.erase path } }
  | .recording _ => cache

theorem doing?_unregister : (cache.unregister path).doing? task = cache.doing? task := by
  unfold unregister
  split <;> rfl

theorem nextTask_unregister : (cache.unregister path).nextTask = cache.nextTask := by
  unfold unregister
  split <;> rfl

theorem clock_unregister : (cache.unregister path).clock = cache.clock := by
  unfold unregister
  split <;> rfl

theorem grace_unregister : (cache.unregister path).grace = cache.grace := by
  unfold unregister
  split <;> rfl

theorem Fresh.unregister (fresh : cache.Fresh) : (cache.unregister path).Fresh := by
  unfold Cache.unregister
  split <;> exact fresh

theorem Backed.unregister (backed : cache.Backed) : (cache.unregister path).Backed := by
  obtain ⟨state, found⟩ := backed
  unfold Cache.unregister
  rw [found]
  exact ⟨_, rfl⟩

theorem pending_unregister (backed : cache.Backed) :
    (cache.unregister path).pending = cache.pending.erase path := by
  obtain ⟨state, found⟩ := backed
  simp [Cache.unregister, pending, found]

theorem endUpload_of_registered (backed : cache.Backed)
    (registered : cache.pending.get? job.path = some id) :
    cache.endUpload id job
      = ((cache.unregister job.path).complete job.entry job.completion).reap id := by
  obtain ⟨state, found⟩ := backed
  rw [pending_of_background found] at registered
  unfold endUpload unregister
  simp only [found, registered, if_true]

theorem endUpload_of_not_registered (backed : cache.Backed)
    (lost : cache.pending.get? job.path ≠ some id) : cache.endUpload id job = cache.reap id := by
  obtain ⟨state, found⟩ := backed
  rw [pending_of_background found] at lost
  unfold endUpload
  simp only [found, lost, if_false]

theorem nextTask_le_endUpload (backed : cache.Backed) :
    cache.nextTask ≤ (cache.endUpload id job).nextTask := by
  by_cases registered : cache.pending.get? job.path = some id
  · rw [endUpload_of_registered backed registered, nextTask_reap]
    exact Nat.le_trans (Nat.le_of_eq nextTask_unregister.symm) nextTask_le_complete
  · rw [endUpload_of_not_registered backed registered]
    exact Nat.le_of_eq nextTask_reap.symm

theorem Fresh.endUpload (fresh : cache.Fresh) (id : TaskId) (job : Upload) :
    (cache.endUpload id job).Fresh := by
  unfold Cache.endUpload
  simp only
  split
  · split
    · exact ((fresh.setUploader _).complete _ _).reap id
    · exact fresh.reap id
  · exact fresh.reap id

theorem Backed.endUpload (backed : cache.Backed) (id : TaskId) (job : Upload) :
    (cache.endUpload id job).Backed := by
  by_cases registered : cache.pending.get? job.path = some id
  · rw [endUpload_of_registered backed registered]
    exact (backed.unregister.complete).reap id
  · rw [endUpload_of_not_registered backed registered]
    exact backed.reap id

theorem pending_endUpload (backed : cache.Backed) :
    (cache.endUpload id job).pending
      = if cache.pending.get? job.path = some id then cache.pending.erase job.path
        else cache.pending := by
  split
  · rename_i registered
    rw [endUpload_of_registered backed registered, pending_reap, pending_complete,
      pending_unregister backed]
  · rename_i lost
    rw [endUpload_of_not_registered backed lost, pending_reap]

/-- An upload of the cache that ends on record starts the grace period. -/
theorem doing?_endUpload_evict (fresh : cache.Fresh) (backed : cache.Backed) {epoch : Nat}
    (registered : cache.pending.get? job.path = some id) (goal : job.completion = .evict epoch) :
    (cache.endUpload id job).doing? task
      = if task = id then none
        else if task = cache.nextTask then
          some (.grace job.entry epoch (cache.clock + cache.grace))
        else cache.doing? task := by
  rw [endUpload_of_registered backed registered, doing?_reap, goal,
    doing?_complete_evict fresh.unregister, nextTask_unregister, clock_unregister,
    grace_unregister, doing?_unregister]

/-- An upload that lost its record, or that somebody else asked for, only goes away. -/
theorem doing?_endUpload_of_not_evict (backed : cache.Backed)
    (other : ∀ epoch, cache.pending.get? job.path = some id → job.completion ≠ .evict epoch) :
    (cache.endUpload id job).doing? task
      = if task = id then none else cache.doing? task := by
  by_cases registered : cache.pending.get? job.path = some id
  · rw [endUpload_of_registered backed registered, doing?_reap]
    cases goal : job.completion with
    | evict epoch => exact absurd goal (other epoch registered)
    | notify tag => rw [doing?_complete_notify, doing?_unregister]
  · rw [endUpload_of_not_registered backed registered, doing?_reap]

/-! ### Dropping the uploader -/

theorem doing?_foldl_abort (items : PathMap TaskId) {work : Work}
    (found : (items.foldl (fun cache item => cache.abort item.2) cache).doing? task = some work) :
    cache.doing? task = some work := by
  induction items generalizing cache with
  | nil => exact found
  | cons item items ih =>
      have kept := ih found
      rw [doing?_abort] at kept
      split at kept
      · cases kept
      · exact kept

theorem nextTask_foldl_abort (items : PathMap TaskId) :
    (items.foldl (fun cache item => cache.abort item.2) cache).nextTask = cache.nextTask := by
  induction items generalizing cache with
  | nil => rfl
  | cons item items ih => exact ih.trans nextTask_abort

theorem Fresh.foldl_abort (fresh : cache.Fresh) (items : PathMap TaskId) :
    (items.foldl (fun cache item => cache.abort item.2) cache).Fresh := by
  induction items generalizing cache with
  | nil => exact fresh
  | cons item items ih => exact ih (fresh.abort _)

theorem Fresh.abandonUploads (fresh : cache.Fresh) : cache.abandonUploads.Fresh := by
  unfold Cache.abandonUploads
  split
  · exact fresh
  · simp only
    split
    · exact (fresh.foldl_abort _).setUploader _
    · exact ((fresh.foldl_abort _).setUploader _).emit _

theorem Backed.abandonUploads (backed : cache.Backed) : cache.abandonUploads.Backed := by
  obtain ⟨state, found⟩ := backed
  unfold Cache.abandonUploads
  rw [found]
  simp only
  split <;> exact ⟨_, rfl⟩

theorem nextTask_abandonUploads : cache.abandonUploads.nextTask = cache.nextTask := by
  unfold abandonUploads
  split
  · rfl
  · simp only
    split <;> exact nextTask_foldl_abort _

theorem doing?_abandonUploads {work : Work}
    (found : cache.abandonUploads.doing? task = some work) : cache.doing? task = some work := by
  unfold abandonUploads at found
  split at found
  · exact found
  · simp only at found
    split at found <;> exact doing?_foldl_abort _ found

end SparseCache.Cache
