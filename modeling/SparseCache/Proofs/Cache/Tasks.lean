import SparseCache.Proofs.Cache.Run

namespace SparseCache

/-! What each operation does to the tasks of a cache and to the uploads on record.

`doing?` is the view through which background work is described: what a task does
that was not aborted, whether or not it has its permit.
-/

/-- The entry that the work is about. -/
def Work.entry : Work → EntryId
  | .transfer job => job.entry
  | .upload job => job.entry
  | .grace entry _ _ => entry

/-- The work with its permit forgotten. -/
def Work.bare : Work → Work
  | .upload job => .upload { job with permit := false }
  | work => work

/-- What a task does, unless it was aborted. -/
def Task.doing? (task : Task) : Option Work :=
  if task.aborted then none else some task.work.bare

namespace Cache

variable {cache : Cache} {id task : TaskId} {work : Work} {path other : Path}

/-- The work of a task that was not aborted. -/
def live? (cache : Cache) (task : TaskId) : Option Work :=
  match cache.task? task with
  | some { work, aborted := false } => some work
  | _ => none

def doing? (cache : Cache) (task : TaskId) : Option Work := (cache.live? task).map Work.bare

/-- The uploads on record with a background uploader. -/
def pending (cache : Cache) : PathMap TaskId :=
  match cache.uploader with
  | .background state => state.pending
  | .recording _ => []

def Backed (cache : Cache) : Prop := ∃ state, cache.uploader = .background state

/-- Numbers that were not given out yet name no task. -/
def Fresh (cache : Cache) : Prop := ∀ task, cache.nextTask ≤ task → cache.task? task = none

theorem live?_eq_some_iff :
    cache.live? task = some work ↔ cache.task? task = some { work, aborted := false } := by
  unfold live?
  cases cache.task? task with
  | none => simp
  | some found =>
      obtain ⟨own, aborted⟩ := found
      cases aborted <;> simp

theorem doing?_eq_bind : cache.doing? task = (cache.task? task).bind Task.doing? := by
  unfold doing? live?
  cases cache.task? task with
  | none => rfl
  | some found =>
      obtain ⟨work, aborted⟩ := found
      cases aborted <;> rfl

theorem pending_of_background {state : Background} (backed : cache.uploader = .background state) :
    cache.pending = state.pending := by
  simp [pending, backed]

theorem loadOf?_eq :
    cache.loadOf? task = (cache.live? task).bind fun work => work.load?.map (work, ·) := by
  unfold loadOf? live?
  cases cache.task? task with
  | none => rfl
  | some found =>
      obtain ⟨work, aborted⟩ := found
      cases aborted <;> rfl

/-! ### Looking tasks up -/

theorem task?_modifyTask {change : Task → Task} :
    (cache.modifyTask id change).task? task
      = if task = id then (cache.task? task).map change else cache.task? task := by
  unfold task? modifyTask
  induction cache.tasks with
  | nil => simp
  | cons item items ih =>
      simp only [List.map_cons, List.find?_cons]
      by_cases here : item.1 = task
      · by_cases asked : task = id
        · simp [here, asked]
        · simp [here, asked]
      · by_cases asked : item.1 = id
        · have elsewhere : (id == task) = false := by simpa [← asked] using here
          simpa [here, asked, elsewhere] using ih
        · have elsewhere : (item.1 == id) = false := by simpa using asked
          have apart : (item.1 == task) = false := by simpa using here
          simpa [elsewhere, apart] using ih

theorem task?_dropTask :
    (cache.dropTask id).task? task = if task = id then none else cache.task? task := by
  simp only [task?, dropTask, List.find?_filter]
  by_cases asked : task = id
  · subst asked
    simp
  · have agree : (fun item : TaskId × Task => item.1 != id && item.1 == task)
        = fun item => item.1 == task := by
      funext item
      by_cases here : item.1 = task <;> simp [here, asked]
    rw [if_neg asked]
    simp only [Bool.decide_and, Bool.decide_eq_true, agree]

theorem task?_addTask (fresh : cache.Fresh) :
    (cache.addTask work).2.task? task
      = if task = cache.nextTask then some { work } else cache.task? task := by
  have absent := fresh cache.nextTask (Nat.le_refl _)
  simp only [task?, Option.map_eq_none_iff] at absent
  simp only [addTask, task?, List.find?_append]
  by_cases asked : task = cache.nextTask
  · subst asked
    simp [absent]
  · have elsewhere : (cache.nextTask == task) = false := by simpa using Ne.symm asked
    simp [asked, elsewhere]

theorem task?_congr {left right : Cache} (same : left.tasks = right.tasks) :
    left.task? task = right.task? task := by
  rw [task?, task?, same]

theorem doing?_congr {left right : Cache} (same : left.tasks = right.tasks) :
    left.doing? task = right.doing? task := by
  rw [doing?, doing?, live?, live?, task?_congr same]

theorem tasks_wake : (cache.wake id).tasks = cache.tasks := by
  unfold wake
  split <;> rfl

@[simp] theorem nextTask_wake : (cache.wake id).nextTask = cache.nextTask := by
  unfold wake
  split <;> rfl

@[simp] theorem uploader_wake : (cache.wake id).uploader = cache.uploader := by
  unfold wake
  split <;> rfl

@[simp] theorem task?_wake : (cache.wake id).task? task = cache.task? task := task?_congr tasks_wake

/-! ### Single tasks -/

theorem task?_abort :
    (cache.abort id).task? task
      = if task = id then (cache.task? task).map fun task => { task with aborted := true }
        else cache.task? task := by
  unfold abort
  split
  · rw [task?_wake, task?_modifyTask]
  · rename_i absent
    split
    · rename_i asked
      subst asked
      have missing : cache.task? task = none := by simpa using absent
      simp [missing]
    · rfl

@[simp] theorem nextTask_abort : (cache.abort id).nextTask = cache.nextTask := by
  unfold abort
  split
  · rw [nextTask_wake]; rfl
  · rfl

@[simp] theorem uploader_abort : (cache.abort id).uploader = cache.uploader := by
  unfold abort
  split
  · rw [uploader_wake]; rfl
  · rfl

theorem doing?_abort :
    (cache.abort id).doing? task = if task = id then none else cache.doing? task := by
  simp only [doing?_eq_bind, task?_abort]
  by_cases asked : task = id
  · cases found : cache.task? id <;> simp [asked, found, Task.doing?]
  · simp [asked]

/-- A task that is changed in nothing but its permit goes on doing the same. -/
theorem doing?_modifyTask {change : Task → Task}
    (alike : ∀ task : Task, (change task).doing? = task.doing?) :
    (cache.modifyTask id change).doing? task = cache.doing? task := by
  simp only [doing?_eq_bind, task?_modifyTask]
  split
  · cases cache.task? task with
    | none => rfl
    | some found => exact alike found
  · rfl

theorem doing?_setWork :
    (cache.setWork id work).doing? task
      = if task = id then (cache.doing? task).map fun _ => work.bare else cache.doing? task := by
  simp only [doing?_eq_bind, setWork, task?_modifyTask]
  by_cases asked : task = id
  · cases found : cache.task? id with
    | none => simp [asked, found]
    | some held =>
        obtain ⟨old, aborted⟩ := held
        cases aborted <;> simp [asked, found, Task.doing?]
  · simp [asked]

theorem doing?_dropTask :
    (cache.dropTask id).doing? task = if task = id then none else cache.doing? task := by
  simp only [doing?_eq_bind, task?_dropTask]
  by_cases asked : task = id <;> simp [asked]

theorem doing?_spawn (fresh : cache.Fresh) :
    (cache.spawn work).2.doing? task
      = if task = cache.nextTask then some work.bare else cache.doing? task := by
  simp only [doing?_eq_bind, spawn, task?_wake, task?_addTask fresh]
  by_cases asked : task = cache.nextTask
  · simp [asked, Task.doing?]
  · simp [asked]

@[simp] theorem nextTask_spawn : (cache.spawn work).2.nextTask = cache.nextTask + 1 := by
  simp [spawn, addTask]

@[simp] theorem uploader_spawn : (cache.spawn work).2.uploader = cache.uploader := by
  simp [spawn, addTask]

/-- A task that was just made out of a fresh number does not yet stand in the table. -/
theorem Fresh.doing? (fresh : cache.Fresh) (later : cache.nextTask ≤ task) :
    cache.doing? task = none := by
  simp [doing?_eq_bind, fresh task later]

theorem lt_nextTask_of_doing? (fresh : cache.Fresh) (found : cache.doing? task = some work) :
    task < cache.nextTask := by
  rcases Nat.lt_or_ge task cache.nextTask with before | later
  · exact before
  · rw [fresh.doing? later] at found
    cases found

end Cache

end SparseCache
