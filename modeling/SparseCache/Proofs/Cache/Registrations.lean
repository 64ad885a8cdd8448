import SparseCache.Proofs.Cache.Owners

namespace SparseCache

/-! Uploads are on record for their locations just as long as they are not stopped.

`upload?` forgets how far an upload has come, so that most background work leaves it alone.
-/

/-- The upload that the work is, as it was when it was scheduled. -/
def Work.upload? : Work → Option Upload
  | .upload job => some { job with permit := false, stage := .queued }
  | _ => none

@[simp] theorem Work.upload?_bare (work : Work) : work.bare.upload? = work.upload? := by
  cases work <;> rfl

theorem Work.upload?_begun (work : Work) : work.begun.upload? = work.upload? := by
  cases work <;> rfl

theorem Work.upload?_withLoad (work : Work) (load : Load) :
    (work.withLoad load).upload? = work.upload? := by
  cases work <;> rfl

namespace Cache

variable {cache before middle after : Cache} {id : EntryId} {task upload : TaskId} {work : Work}
  {path other : Path} {job : Upload} {completion : Completion}

/-- The upload that a task is to carry out, unless it was stopped. -/
def upload? (cache : Cache) (task : TaskId) : Option Upload :=
  (cache.doing? task).bind Work.upload?

theorem upload?_of_doing? (doing : cache.doing? task = some work) :
    cache.upload? task = work.upload? := by
  rw [upload?, doing, Option.bind_some]

theorem upload?_of_idle (idle : cache.doing? task = none) : cache.upload? task = none := by
  rw [upload?, idle, Option.bind_none]

theorem upload?_congr (same : after.doing? task = before.doing? task) :
    after.upload? task = before.upload? task := by
  rw [upload?, upload?, same]

theorem upload?_of_live (live : cache.live? task = some work) :
    cache.upload? task = work.upload? := by
  rw [upload?_of_doing? (doing?_of_live live), Work.upload?_bare]

/-- An upload is at some stage of what it was scheduled for. -/
theorem doing?_of_upload? (found : cache.upload? task = some job) :
    ∃ stage, cache.doing? task = some (.upload { job with stage }) := by
  obtain ⟨work, doing, same⟩ := Option.bind_eq_some_iff.mp found
  obtain ⟨own, -, bare⟩ := live?_of_doing? doing
  cases own with
  | transfer transfer => cases bare; cases same
  | grace entry epoch due => cases bare; cases same
  | upload own =>
      cases bare
      cases same
      exact ⟨own.stage, doing⟩

theorem upload?_setWork {old : Work} (doing : cache.doing? id = some old)
    (same : work.upload? = old.upload?) :
    (cache.setWork id work).upload? task = cache.upload? task := by
  rw [upload?, doing?_setWork]
  split
  · rename_i here
    rw [here, doing, Option.map_some, Option.bind_some, Work.upload?_bare, same,
      upload?_of_doing? doing]
  · rfl

theorem Fresh.upload? (fresh : cache.Fresh) (later : cache.nextTask ≤ task) :
    cache.upload? task = none :=
  upload?_of_idle (fresh.doing? later)

theorem lt_nextTask_of_upload? (fresh : cache.Fresh) (found : cache.upload? task = some job) :
    task < cache.nextTask := by
  obtain ⟨stage, doing⟩ := doing?_of_upload? found
  exact lt_nextTask_of_doing? fresh doing

theorem upload?_of_wanes (wanes : Wanes before after) (found : after.upload? task = some job) :
    before.upload? task = some job := by
  obtain ⟨stage, doing⟩ := doing?_of_upload? found
  rw [← found, upload?_of_doing? doing, upload?_of_doing? (wanes.doing doing)]

/-- A timer that goes was no upload. -/
theorem upload?_dropTask {timer : TaskId} {epoch due : Nat}
    (timed : cache.doing? timer = some (.grace id epoch due)) :
    (cache.dropTask timer).upload? task = cache.upload? task := by
  rw [upload?, doing?_dropTask]
  split
  · rename_i here
    rw [here, upload?_of_doing? timed]
    rfl
  · rfl

/-! ### Scheduling, cancelling and ending -/

theorem upload?_schedule (sound : cache.Sound) :
    (cache.schedule id completion).upload? task
      = if task = cache.nextTask then
          some { entry := id, path := cache.pathOf id, completion }
        else if cache.pending.get? (cache.pathOf id) = some task then none
        else cache.upload? task := by
  rw [upload?, doing?_schedule sound.fresh sound.backed]
  split
  · rfl
  · split <;> rfl

theorem upload?_cancel (sound : cache.Sound) :
    (cache.cancel path).2.upload? task
      = if cache.pending.get? path = some task then none else cache.upload? task := by
  rw [upload?, doing?_cancel sound.backed]
  split <;> rfl

theorem upload?_complete (sound : cache.Sound) :
    (cache.complete id completion).upload? task = cache.upload? task := by
  cases completion with
  | notify tag => rfl
  | evict epoch =>
      rw [upload?, doing?_complete_evict sound.fresh]
      split
      · rename_i new
        rw [new, sound.fresh.upload? (Nat.le_refl _)]
        rfl
      · rfl

theorem upload?_reap :
    (cache.reap id).upload? task = if task = id then none else cache.upload? task := by
  rw [upload?, doing?_reap]
  split <;> rfl

theorem upload?_endUpload (sound : cache.Sound) :
    (cache.endUpload upload job).upload? task
      = if task = upload then none else cache.upload? task := by
  by_cases registered : cache.pending.get? job.path = some upload
  · have kept : (cache.unregister job.path).upload? task = cache.upload? task :=
      upload?_congr doing?_unregister
    rw [endUpload_of_registered sound.backed registered, upload?_reap,
      upload?_complete ⟨sound.fresh.unregister, sound.backed.unregister⟩, kept]
  · rw [endUpload_of_not_registered sound.backed registered, upload?_reap]

theorem upload?_foldl_abort (items : PathMap TaskId) :
    (items.foldl (fun cache item => cache.abort item.2) cache).upload? task
      = if ∃ item ∈ items, item.2 = task then none else cache.upload? task := by
  induction items generalizing cache with
  | nil => simp
  | cons item items ih =>
      rw [List.foldl_cons, ih, upload?, doing?_abort]
      simp only [List.mem_cons, or_and_right, exists_or, exists_eq_left]
      by_cases here : task = item.2
      · simp [here]
      · have elsewhere : ¬ item.2 = task := Ne.symm here
        simp only [if_neg here, elsewhere, false_or, upload?]

/-- Uploads begin with tasks of their own and never come back. -/
theorem upload?_before (sound : cache.Sound) (step : Step)
    (found : (cache.step step).upload? task = some job) :
    cache.upload? task = some job ∨ task = cache.nextTask := by
  obtain ⟨work, doing, same⟩ := Option.bind_eq_some_iff.mp found
  have course := course_step sound step doing
  cases course with
  | kept before => exact .inl ((upload?_of_doing? before).trans same)
  | awaited new known => cases same
  | asked new known => exact .inr new
  | scheduled new referred timely => exact .inr new
  | timed new ending registered goal ends => cases same
  | begins before idle known started => cases same
  | fetches before queued known dirty started =>
      exact .inl ((upload?_of_doing? before).trans same)
  | finishes before stage done => exact .inl ((upload?_of_doing? before).trans same)
  | copies before stage known stored => exact .inl ((upload?_of_doing? before).trans same)
  | reads before stage going source done => exact .inl ((upload?_of_doing? before).trans same)
  | sends before stage through told => exact .inl ((upload?_of_doing? before).trans same)
  | requests before waits asks planned =>
      rw [Work.upload?_withLoad] at same
      exact .inl ((upload?_of_doing? before).trans same)
  | receives before waits going known filled =>
      rw [Work.upload?_withLoad] at same
      exact .inl ((upload?_of_doing? before).trans same)

/-- A move leaves nothing on record at either end. -/
theorem pending_moved (sound : cache.Sound) {source destination : Path}
    (touched : source.Same other ∨ destination.Same other) :
    ((cache.cancel source).2.cancel destination).2.pending.get? other = none := by
  have cancelled := Wanes.cancel sound source
  rw [pending_cancel cancelled.sound.backed, pending_cancel sound.backed, PathMap.get?_erase,
    PathMap.get?_erase]
  rcases touched with here | there
  · rw [if_pos here, ite_self]
  · rw [if_pos there]

/-- No entry has two uploads at once. -/
def Single (cache : Cache) : Prop :=
  ∀ {task task' job job'}, cache.upload? task = some job → cache.upload? task' = some job' →
    job.entry = job'.entry → task = task'

/-! ### What is on record -/

/-- An upload is on record for a location just when it is one of that location and was not
stopped. -/
structure Enrolled (cache : Cache) : Prop where
  record : ∀ {path task}, cache.pending.get? path = some task ↔
    ∃ job, cache.upload? task = some job ∧ job.path.Same path

theorem Enrolled.registered (enrolled : cache.Enrolled) (found : cache.upload? task = some job) :
    cache.pending.get? job.path = some task :=
  enrolled.record.mpr ⟨job, found, .refl _⟩

theorem Enrolled.not_registered (enrolled : cache.Enrolled) (none : cache.upload? task = none) :
    cache.pending.get? path ≠ some task := by
  intro registered
  obtain ⟨job, found, -⟩ := enrolled.record.mp registered
  rw [none] at found
  cases found

theorem Enrolled.congr (enrolled : before.Enrolled) (pending : after.pending = before.pending)
    (uploads : ∀ task, after.upload? task = before.upload? task) : after.Enrolled := by
  constructor
  intro path task
  rw [pending, uploads]
  exact enrolled.record

theorem Enrolled.schedule (enrolled : cache.Enrolled) (sound : cache.Sound) :
    (cache.schedule id completion).Enrolled := by
  constructor
  intro path task
  rw [pending_schedule sound.backed, PathMap.get?_set, upload?_schedule sound]
  by_cases new : task = cache.nextTask
  · have unknown : cache.pending.get? path ≠ some task :=
      enrolled.not_registered (sound.fresh.upload? (Nat.le_of_eq new.symm))
    rw [if_pos new]
    constructor
    · intro found
      split at found
      · rename_i here
        exact ⟨_, rfl, here⟩
      · exact absurd found unknown
    · intro ⟨job, same, here⟩
      cases same
      rw [if_pos here, new]
  · rw [if_neg new]
    constructor
    · intro found
      split at found
      · cases found
        exact absurd rfl new
      · rename_i apart
        obtain ⟨job, working, here⟩ := enrolled.record.mp found
        refine ⟨job, ?_, here⟩
        rw [if_neg, working]
        intro superseded
        obtain ⟨job', working', there⟩ := enrolled.record.mp superseded
        rw [working] at working'
        cases working'
        exact apart (there.symm.trans here)
    · intro ⟨job, working, here⟩
      split at working
      · cases working
      · rename_i spared
        have registered := enrolled.record.mpr ⟨job, working, here⟩
        rw [if_neg, registered]
        intro same
        exact spared ((PathMap.get?_congr same).trans registered)

theorem Enrolled.cancel (enrolled : cache.Enrolled) (sound : cache.Sound) :
    (cache.cancel path).2.Enrolled := by
  constructor
  intro other task
  rw [pending_cancel sound.backed, PathMap.get?_erase_eq_some_iff, upload?_cancel sound]
  constructor
  · intro ⟨apart, registered⟩
    obtain ⟨job, working, here⟩ := enrolled.record.mp registered
    refine ⟨job, ?_, here⟩
    rw [if_neg, working]
    intro taken
    obtain ⟨job', working', there⟩ := enrolled.record.mp taken
    rw [working] at working'
    cases working'
    exact apart (there.symm.trans here)
  · intro ⟨job, working, here⟩
    split at working
    · cases working
    · rename_i spared
      have registered := enrolled.record.mpr ⟨job, working, here⟩
      exact ⟨fun same => spared ((PathMap.get?_congr same).trans registered), registered⟩

theorem Enrolled.endUpload (enrolled : cache.Enrolled) (sound : cache.Sound)
    (working : cache.upload? upload = (Work.upload job).upload?) :
    (cache.endUpload upload job).Enrolled := by
  have registered : cache.pending.get? job.path = some upload :=
    enrolled.record.mpr ⟨_, working, .refl job.path⟩
  constructor
  intro other task
  rw [pending_endUpload sound.backed, if_pos registered, PathMap.get?_erase_eq_some_iff,
    upload?_endUpload sound]
  constructor
  · intro ⟨apart, found⟩
    obtain ⟨job', working', here⟩ := enrolled.record.mp found
    refine ⟨job', ?_, here⟩
    rw [if_neg, working']
    intro same
    rw [same, working] at working'
    cases working'
    exact apart here
  · intro ⟨job', working', here⟩
    split at working'
    · cases working'
    · rename_i apart
      have found := enrolled.record.mpr ⟨job', working', here⟩
      refine ⟨fun same => apart ?_, found⟩
      rw [← PathMap.get?_congr same, registered] at found
      exact (Option.some.inj found).symm

theorem pending_abandonUploads : cache.abandonUploads.pending = [] := by
  unfold abandonUploads
  split
  · rfl
  · simp only
    split <;> rfl

theorem upload?_abandonUploads (enrolled : cache.Enrolled) (sound : cache.Sound) :
    cache.abandonUploads.upload? task = none := by
  obtain ⟨state, backed⟩ := sound.backed
  have stopped : cache.abandonUploads.upload? task
      = (state.pending.foldl (fun cache item => cache.abort item.2) cache).upload? task := by
    refine upload?_congr (doing?_congr ?_)
    simp only [abandonUploads, backed]
    split <;> rfl
  rw [stopped, upload?_foldl_abort]
  split
  · rfl
  · rename_i spared
    cases found : cache.upload? task with
    | none => rfl
    | some job =>
        have registered := enrolled.registered found
        rw [pending_of_background backed] at registered
        obtain ⟨key, member, -⟩ := PathMap.exists_mem_of_get? registered
        exact absurd ⟨_, member, rfl⟩ spared

theorem Enrolled.abandonUploads (enrolled : cache.Enrolled) (sound : cache.Sound) :
    cache.abandonUploads.Enrolled := by
  constructor
  intro path task
  rw [pending_abandonUploads, upload?_abandonUploads enrolled sound]
  constructor
  · intro registered
    cases registered
  · intro ⟨_, found, _⟩
    cases found

end Cache

end SparseCache
