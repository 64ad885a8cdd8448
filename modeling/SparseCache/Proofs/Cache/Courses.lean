import SparseCache.Proofs.Cache.Waning

namespace SparseCache

/-! What a task may have come to do in one step of a run. -/

@[simp] theorem Work.load?_bare (work : Work) : work.bare.load? = work.load? := by
  cases work <;> rfl

theorem Work.bare_withLoad (work : Work) (load : Load) :
    (work.withLoad load).bare = work.bare.withLoad load := by
  cases work <;> rfl

theorem Work.transfer_of_bare {work : Work} {job : Transfer} (same : work.bare = .transfer job) :
    work = .transfer job := by
  cases work <;> cases same
  rfl

theorem Work.upload_of_bare {work : Work} {job : Upload} (same : work.bare = .upload job) :
    ∃ own, work = .upload own ∧ job = { own with permit := false } := by
  cases work with
  | transfer other => cases same
  | upload own => cases same; exact ⟨own, rfl, rfl⟩
  | grace entry epoch due => cases same

theorem Work.entry_withLoad (work : Work) (load : Load) :
    (work.withLoad load).entry = work.entry := by
  cases work <;> rfl

/-- The work as it was begun. -/
def Work.begun : Work → Work
  | .transfer job => .transfer { job with load := none }
  | .upload job => .upload { job with permit := false, stage := .queued }
  | .grace entry epoch due => .grace entry epoch due

theorem Work.begun_withLoad (work : Work) (load : Load) :
    (work.withLoad load).begun = work.begun := by
  cases work <;> rfl

namespace Cache

/-- A line was added to the record of events. -/
def Logged (before after : Cache) (severity : Severity) (message : String) : Prop :=
  ∃ failure more, after.events = before.events ++ .logged severity message failure :: more

/-- Somebody holds a handle of the entry, or it is mapped somewhere. -/
def Refers (cache : Cache) (id : EntryId) : Prop :=
  (∃ handle, cache.get? handle = some id) ∨ ∃ path, cache.mapped.get? path = some id

/-- The step is taken by that task. -/
def Step.Drives (task : TaskId) : Step → Prop
  | .act (.advance own) | .act (.settle own _) => own = task
  | _ => False

/-- The ways in which an upload comes to its end. -/
inductive Ends (cache : Cache) (upload : TaskId) (job : Upload) : Step → Prop
  /-- There was nothing to store. -/
  | unchanged (queued : job.stage = .queued)
      (clean : ∀ entry, cache.entry? job.entry = some entry → entry.isDirty = false) :
      Ends cache upload job (.act (.advance upload))
  | failed {step} (own : step.Drives upload)
      (logged : Logged cache (cache.step step) .error "upload failed") : Ends cache upload job step
  | stored {version snapshot call} (stage : job.stage = .sending version snapshot call) :
      Ends cache upload job (.act (.settle upload (.ok ())))

/-- Everything that a task may be found doing after a step. -/
inductive Course (cache : Cache) (task : TaskId) : Step → Work → Prop
  | kept {step work} (before : cache.doing? task = some work) : Course cache task step work
  | awaited {entry offset count reading} (new : task = cache.nextTask)
      (known : (cache.entry? entry).isSome) :
      Course cache task (.transfer entry offset count reading)
        (.transfer { entry, offset, count, reading })
  | asked {id tag} (new : task = cache.nextTask) (known : (cache.entry? id).isSome) :
      Course cache task (.schedule id tag)
        (.upload { entry := id, path := cache.pathOf id, completion := .notify tag })
  /-- The cache itself has an upload begun, which carries the epoch that the entry has now. -/
  | scheduled {step id path epoch} (new : task = cache.nextTask) (referred : cache.Refers id)
      (timely : ∀ entry, Cache.entry? (cache.step step) id = some entry → entry.epoch = epoch) :
      Course cache task step (.upload { entry := id, path, completion := .evict epoch })
  | timed {step upload job epoch} (new : cache.nextTask ≤ task)
      (ending : cache.doing? upload = some (.upload job))
      (registered : cache.pending.get? job.path = some upload)
      (goal : job.completion = .evict epoch) (ends : Ends cache upload job step) :
      Course cache task step
        (.grace job.entry epoch (cache.clock + cache.grace))
  | begins {job load entry} (before : cache.doing? task = some (.transfer job))
      (idle : job.load = none) (found : cache.entry? job.entry = some entry)
      (started : Load.start entry job.offset job.count = .ok load) :
      Course cache task (.act (.advance task)) (.transfer { job with load := some load })
  | fetches {job load entry} (before : cache.doing? task = some (.upload job))
      (queued : job.stage = .queued) (found : cache.entry? job.entry = some entry)
      (dirty : entry.isDirty = true) (started : Load.start entry 0 everything = .ok load) :
      Course cache task (.act (.advance task)) (.upload { job with stage := .loading load })
  | finishes {job load} (before : cache.doing? task = some (.upload job))
      (stage : job.stage = .loading load) (done : load.outcome? = some (.ok ())) :
      Course cache task (.act (.advance task)) (.upload { job with
        stage := .loaded (((cache.entry? job.entry).map Entry.version).getD 0) })
  | copies {job version entry content} (before : cache.doing? task = some (.upload job))
      (stage : job.stage = .loaded version) (found : cache.entry? job.entry = some entry)
      (stored : entry.content = some content) :
      Course cache task (.act (.advance task)) (.upload { job with
        stage := .copying version { size := content.size } })
  | reads {job version copy content next} (before : cache.doing? task = some (.upload job))
      (stage : job.stage = .copying version copy) (going : copy.isThrough = false)
      (source : (cache.entry? job.entry).bind Entry.source? = some content)
      (done : copy.next content = .ok next) :
      Course cache task (.act (.advance task)) (.upload { job with stage := .copying version next })
  | sends {job version copy} (before : cache.doing? task = some (.upload job))
      (stage : job.stage = .copying version copy) (through : copy.isThrough = true)
      (told : (cache.step (.act (.advance task))).events
        = cache.events ++ [.writing job.entry job.path copy.taken.flatten]) :
      Course cache task (.act (.advance task)) (.upload { job with
        stage := .sending version copy.taken.flatten cache.nextCall })
  | requests {work id load fetch i} (before : cache.doing? task = some work)
      (waits : work.load? = some (id, load)) (asks : load.fetches[i]? = some fetch)
      (planned : fetch.state = .planned) :
      Course cache task (.act (.request task i)) (work.withLoad (load.ask i cache.nextCall))
  | receives {work id load entry i reply} (before : cache.doing? task = some work)
      (waits : work.load? = some (id, load)) (going : load.outcome? = none)
      (found : cache.entry? id = some entry)
      (filled : Cache.entry? (cache.step (.act (.deliver task i reply))) id
        = some (load.receive i entry reply).2) :
      Course cache task (.act (.deliver task i reply))
        (work.withLoad (load.receive i entry reply).1)

/-- What a task does it was begun to do, or it is new. -/
theorem Course.begun {task : TaskId} {step : Step} {work : Work}
    (course : Course cache task step work) :
    (∃ old, cache.doing? task = some old ∧ old.begun = work.begun) ∨ cache.nextTask ≤ task := by
  cases course with
  | kept before => exact .inl ⟨_, before, rfl⟩
  | awaited new known => exact .inr (Nat.le_of_eq new.symm)
  | asked new known => exact .inr (Nat.le_of_eq new.symm)
  | scheduled new referred timely => exact .inr (Nat.le_of_eq new.symm)
  | timed new ending registered goal ends => exact .inr new
  | begins before idle known started => exact .inl ⟨_, before, rfl⟩
  | fetches before queued known dirty started => exact .inl ⟨_, before, rfl⟩
  | finishes before stage done => exact .inl ⟨_, before, rfl⟩
  | copies before stage found stored => exact .inl ⟨_, before, rfl⟩
  | reads before stage going source done => exact .inl ⟨_, before, rfl⟩
  | sends before stage through told => exact .inl ⟨_, before, rfl⟩
  | requests before waits asks planned => exact .inl ⟨_, before, (Work.begun_withLoad _ _).symm⟩
  | receives before waits going known filled =>
      exact .inl ⟨_, before, (Work.begun_withLoad _ _).symm⟩

/-- How an upload may have come to the stage at which it is found after a step. -/
inductive UploadCourse (cache : Cache) (task : TaskId) (job : Upload) : Step → Prop
  | kept {step} (before : cache.doing? task = some (.upload job)) : UploadCourse cache task job step
  | asked {tag} (new : task = cache.nextTask) (queued : job.stage = .queued)
      (known : (cache.entry? job.entry).isSome) (goal : job.completion = .notify tag) :
      UploadCourse cache task job (.schedule job.entry tag)
  | scheduled {step epoch} (new : task = cache.nextTask) (queued : job.stage = .queued)
      (referred : cache.Refers job.entry) (goal : job.completion = .evict epoch)
      (timely : ∀ entry, Cache.entry? (cache.step step) job.entry = some entry →
        entry.epoch = epoch) :
      UploadCourse cache task job step
  | loading {step load stage} (before : cache.doing? task = some (.upload { job with stage }))
      (now : job.stage = .loading load) : UploadCourse cache task job step
  | loaded {load} (before : cache.doing? task = some (.upload { job with stage := .loading load }))
      (done : load.outcome? = some (.ok ()))
      (now : job.stage = .loaded (((cache.entry? job.entry).map Entry.version).getD 0)) :
      UploadCourse cache task job (.act (.advance task))
  | copying {version entry content}
      (before : cache.doing? task = some (.upload { job with stage := .loaded version }))
      (found : cache.entry? job.entry = some entry) (stored : entry.content = some content)
      (now : job.stage = .copying version { size := content.size }) :
      UploadCourse cache task job (.act (.advance task))
  | reading {version copy content next}
      (before : cache.doing? task = some (.upload { job with stage := .copying version copy }))
      (going : copy.isThrough = false)
      (source : (cache.entry? job.entry).bind Entry.source? = some content)
      (done : copy.next content = .ok next) (now : job.stage = .copying version next) :
      UploadCourse cache task job (.act (.advance task))
  | sending {version copy}
      (before : cache.doing? task = some (.upload { job with stage := .copying version copy }))
      (through : copy.isThrough = true)
      (told : (cache.step (.act (.advance task))).events
        = cache.events ++ [.writing job.entry job.path copy.taken.flatten])
      (now : job.stage = .sending version copy.taken.flatten cache.nextCall) :
      UploadCourse cache task job (.act (.advance task))

variable {cache after : Cache} {task id : TaskId} {work : Work} {step : Step}

/-! ### The record of events -/

theorem events_wake : (cache.wake task).events = cache.events := by
  unfold wake
  split <;> rfl

/-- Nothing was recorded but that somebody was told of the end of an upload. -/
def Told (before after : Cache) : Prop :=
  ∃ more, after.events = before.events ++ more ∧
    ∀ event ∈ more, ∃ tag path, event = .notified tag path

theorem told_of_events (same : after.events = cache.events) : Told cache after :=
  ⟨[], same.trans (List.append_nil _).symm, fun _ found => by cases found⟩

theorem told_complete (id : EntryId) (completion : Completion) :
    Told cache (cache.complete id completion) := by
  cases completion with
  | evict epoch => exact told_of_events events_wake
  | notify tag =>
      refine ⟨[.notified tag (cache.pathOf id)], rfl, fun event found => ?_⟩
      exact ⟨tag, cache.pathOf id, List.mem_singleton.mp found⟩

theorem events_returnPermit : cache.returnPermit.events = cache.events := by
  unfold returnPermit
  split
  · rfl
  · split
    · rfl
    · exact events_wake

theorem events_reap : (cache.reap task).events = cache.events := by
  unfold reap
  split
  · simp only
    split
    · exact events_returnPermit
    · split <;> rfl
  · rfl

theorem told_endUpload (cache : Cache) (task : TaskId) (job : Upload) :
    Told cache (cache.endUpload task job) := by
  unfold endUpload Told
  simp only [events_reap]
  split
  · split
    · exact told_complete _ _
    · exact told_of_events rfl
  · exact told_of_events rfl

theorem events_failUpload (cache : Cache) (task : TaskId) (job : Upload) (error : EntryError) :
    ∃ more, (cache.failUpload task job error).events
        = cache.events ++ .logged .error "upload failed" error.message? :: more ∧
      ∀ event ∈ more, ∃ tag path, event = .notified tag path := by
  obtain ⟨more, extended, silent⟩ := told_endUpload
    (cache.log .error "upload failed" error.message?) task job
  refine ⟨more, extended.trans ?_, silent⟩
  simp [log, emit]

/-! ### Single steps -/

theorem doing?_of_live (live : cache.live? task = some work) :
    cache.doing? task = some work.bare := by
  rw [doing?, live]
  rfl

theorem live?_of_doing? (doing : cache.doing? task = some work) :
    ∃ own, cache.live? task = some own ∧ own.bare = work :=
  Option.map_eq_some_iff.mp doing

theorem loadOf?_of_doing? {entry : EntryId} {load : Load} (doing : cache.doing? task = some work)
    (waits : work.load? = some (entry, load)) :
    ∃ own, cache.loadOf? task = some (own, entry, load) := by
  obtain ⟨own, live, rfl⟩ := live?_of_doing? doing
  rw [Work.load?_bare] at waits
  exact ⟨own, by rw [loadOf?_eq, live, Option.bind_some, waits, Option.map_some]⟩

theorem doing?_of_loadOf? {entry : EntryId} {load : Load}
    (loading : cache.loadOf? task = some (work, entry, load)) :
    cache.doing? task = some work.bare ∧ work.bare.load? = some (entry, load) := by
  rw [loadOf?_eq] at loading
  obtain ⟨own, live, held⟩ := Option.bind_eq_some_iff.mp loading
  obtain ⟨target, waits, same⟩ := Option.map_eq_some_iff.mp held
  cases same
  exact ⟨doing?_of_live live, (Work.load?_bare work).trans waits⟩

theorem advance_of_live (live : cache.live? id = some work) :
    cache.advance id = match work with
      | .transfer job => cache.advanceTransfer id job
      | .upload job => cache.advanceUpload id job
      | .grace entry epoch due =>
        if due ≤ cache.clock then (cache.dropTask id).evictIfIdle entry epoch else cache := by
  unfold live? at live
  split at live
  · rename_i held
    cases live
    simp only [advance, held, Bool.false_eq_true, if_false]
    cases work <;> rfl
  · cases live

theorem doing?_of_setWork (cache : Cache) (id : TaskId) {next : Work}
    (found : (cache.setWork id next).doing? task = some work) :
    cache.doing? task = some work ∨
      task = id ∧ work = next.bare ∧ (cache.doing? id).isSome := by
  rw [doing?_setWork] at found
  split at found
  · rename_i here
    subst here
    cases before : cache.doing? task with
    | none => rw [before] at found; cases found
    | some held =>
        rw [before] at found
        cases found
        exact .inr ⟨rfl, rfl, rfl⟩
  · exact .inl found

/-- An upload may end in a state that differs from the one before the step in what was
handed out meanwhile. -/
theorem course_of_endUpload {base : Cache} {job : Upload} (wanes : Wanes cache base)
    (clock : base.clock = cache.clock) (grace : base.grace = cache.grace)
    (pending : base.pending = cache.pending)
    (ending : cache.doing? id = some (Work.upload job).bare)
    (ends : Ends cache id { job with permit := false } step)
    (found : (base.endUpload id job).doing? task = some work) : Course cache task step work := by
  rcases doing?_of_endUpload wanes.sound found with before | ⟨new, epoch, registered, goal, rfl⟩
  · exact .kept (wanes.doing before)
  · rw [clock, grace]
    rw [pending] at registered
    exact @Course.timed _ _ _ _ { job with permit := false } _ (Nat.le_trans wanes.later new)
      ending registered goal ends

theorem course_of_failUpload {base : Cache} {job : Upload} {error : EntryError}
    (wanes : Wanes cache base) (same : SameStore cache base)
    (pending : base.pending = cache.pending) (events : base.events = cache.events)
    (ending : cache.doing? id = some (Work.upload job).bare) (own : step.Drives id)
    (stepped : cache.step step = base.failUpload id job error)
    (found : (base.failUpload id job error).doing? task = some work) :
    Course cache task step work := by
  have logged : Logged cache (cache.step step) .error "upload failed" := by
    obtain ⟨more, extended, -⟩ := events_failUpload base id job error
    exact ⟨error.message?, more, by rw [stepped, extended, events]⟩
  have told : Wanes cache (base.log .error "upload failed" error.message?) :=
    ⟨wanes.sound.emit _, wanes.doing, wanes.later⟩
  exact course_of_endUpload told same.clock same.grace pending ending (.failed own logged) found

theorem course_advanceTransfer {job : Transfer} (live : cache.live? id = some (.transfer job))
    (found : (cache.advanceTransfer id job).doing? task = some work) :
    Course cache task (.act (.advance id)) work := by
  have before : cache.doing? id = some (.transfer job) := doing?_of_live live
  have ended : ∀ {result}, (cache.endTransfer id result).doing? task = some work →
      Course cache task (.act (.advance id)) work := by
    intro result found
    have shown : (cache.dropTask id).doing? task = some work := found
    rw [doing?_dropTask] at shown
    split at shown
    · cases shown
    · exact .kept shown
  unfold advanceTransfer at found
  split at found
  · rename_i idle
    split at found
    · rename_i load started
      rcases doing?_of_setWork _ _ found with same | ⟨rfl, rfl, -⟩
      · exact .kept same
      · obtain ⟨entry, present, started⟩ := Option.map_eq_some_iff.mp started
        exact .begins before idle present started
    · exact ended found
    · exact ended found
  · split at found
    · exact .kept found
    · exact ended found

theorem sound_advanceTransfer (sound : cache.Sound) (job : Transfer) :
    (cache.advanceTransfer id job).Sound := by
  have dropped : ∀ {result}, (cache.endTransfer id result).Sound := fun {_} =>
    (Wanes.dropTask sound id).sound.emit _
  unfold advanceTransfer
  split
  · split
    · exact sound.setWork _ _
    · exact dropped
    · exact dropped
  · split
    · exact sound
    · exact dropped

theorem course_beginUpload {base : Cache} (job : Upload) (wanes : Wanes cache base)
    (same : SameStore cache base) (pending : base.pending = cache.pending)
    (events : base.events = cache.events) (before : cache.doing? id = some (Work.upload job).bare)
    (queued : job.stage = .queued)
    (stepped : cache.step (.act (.advance id)) = base.beginUpload id job)
    (found : (base.beginUpload id job).doing? task = some work) :
    Course cache task (.act (.advance id)) work := by
  unfold beginUpload at found stepped
  rw [same.lookup] at found stepped
  cases present : cache.entry? job.entry with
  | none =>
      simp only [present] at found
      refine course_of_endUpload wanes same.clock same.grace pending before
        (.unchanged queued ?_) found
      intro entry other
      rw [present] at other
      cases other
  | some entry =>
      simp only [present] at found stepped
      by_cases dirty : entry.isDirty = true
      · simp only [dirty, if_true] at found stepped
        cases started : Load.start entry 0 everything with
        | error error =>
            simp only [started] at found stepped
            exact course_of_failUpload wanes same pending events before rfl stepped found
        | ok load =>
            simp only [started] at found
            rcases doing?_of_setWork _ _ found with kept | ⟨rfl, rfl, -⟩
            · exact .kept (wanes.doing kept)
            · exact .fetches before queued present dirty started
      · simp only [dirty] at found
        refine course_of_endUpload wanes same.clock same.grace pending before
          (.unchanged queued ?_) found
        intro other present'
        rw [present] at present'
        cases present'
        simpa using dirty

theorem course_copies (sound : cache.Sound) {job : Upload}
    (before : cache.doing? id = some (Work.upload job).bare) (copies : Copies cache id job after)
    (stepped : cache.step (.act (.advance id)) = after) (found : after.doing? task = some work) :
    Course cache task (.act (.advance id)) work := by
  cases copies with
  | failed error =>
      exact course_of_failUpload (.refl sound) (.refl cache) rfl rfl before rfl stepped found
  | begins stage present stored =>
      rcases doing?_of_setWork cache id found with kept | ⟨rfl, rfl, -⟩
      · exact .kept kept
      · exact .copies before stage present stored
  | reads stage going source done =>
      rcases doing?_of_setWork cache id found with kept | ⟨rfl, rfl, -⟩
      · exact .kept kept
      · exact .reads before stage going source done
  | sends stage through =>
      have told := congrArg Cache.events stepped
      rcases doing?_of_setWork { cache with nextCall := cache.nextCall + 1 } id found with
        kept | ⟨rfl, rfl, -⟩
      · exact .kept kept
      · exact .sends before stage through told

theorem course_advanceUpload (sound : cache.Sound) {job : Upload}
    (live : cache.live? id = some (.upload job))
    (stepped : cache.step (.act (.advance id)) = cache.advanceUpload id job)
    (found : (cache.advanceUpload id job).doing? task = some work) :
    Course cache task (.act (.advance id)) work := by
  have before : cache.doing? id = some (Work.upload job).bare := doing?_of_live live
  have unmoved := Wanes.refl sound
  have same := SameStore.refl cache
  unfold advanceUpload at found stepped
  cases stage : job.stage with
  | queued =>
      simp only [stage] at found stepped
      have wanes := wanes_takePermit sound live
      have taken := same.takePermit id job
      have pending := pending_takePermit cache id job
      have events := events_takePermit cache id job
      have given := fun granted => @takePermit_some cache id job granted
      generalize cache.takePermit id job = outcome at found stepped wanes taken pending events given
      obtain ⟨granted, base⟩ := outcome
      cases granted with
      | none => exact .kept (wanes.doing found)
      | some granted =>
          rcases given granted rfl with rfl | rfl
          · exact course_beginUpload _ wanes taken pending events before stage stepped found
          · exact course_beginUpload { job with permit := true } wanes taken pending
              events before stage stepped found
  | loading load =>
      simp only [stage] at found stepped
      cases outcome : load.outcome? with
      | none => rw [outcome] at found; exact .kept found
      | some ended =>
          simp only [outcome] at found stepped
          cases ended with
          | error error => exact course_of_failUpload unmoved same rfl rfl before rfl stepped found
          | ok _ =>
              rcases doing?_of_setWork _ _ found with kept | ⟨rfl, rfl, -⟩
              · exact .kept kept
              · exact .finishes before stage outcome
  | loaded version =>
      simp only [stage] at found stepped
      exact course_copies sound before (copies_beginCopy stage) stepped found
  | copying version copy =>
      simp only [stage] at found stepped
      exact course_copies sound before (copies_copying stage) stepped found
  | sending version snapshot call =>
      simp only [stage] at found
      exact .kept found

theorem course_advance (sound : cache.Sound)
    (found : (cache.advance id).doing? task = some work) :
    Course cache task (.act (.advance id)) work := by
  have stepped : cache.step (.act (.advance id)) = cache.advance id := rfl
  unfold advance at found stepped
  cases held : cache.task? id with
  | none => rw [held] at found; exact .kept found
  | some item =>
      obtain ⟨own, aborted⟩ := item
      simp only [held] at found stepped
      cases aborted with
      | true => exact .kept ((Wanes.reap sound id).doing found)
      | false =>
          simp only [Bool.false_eq_true, if_false] at found stepped
          have live : cache.live? id = some own := live?_eq_some_iff.mpr held
          cases own with
          | transfer job => exact course_advanceTransfer live found
          | upload job => exact course_advanceUpload sound live stepped found
          | grace entry epoch due =>
              simp only at found
              split at found
              · have dropped := Wanes.dropTask sound id
                exact .kept ((dropped.trans (.evictIfIdle dropped.sound _ _)).doing found)
              · exact .kept found

theorem course_request {i : Nat} (found : (cache.request id i).doing? task = some work) :
    Course cache task (.act (.request id i)) work := by
  unfold request at found
  rw [loadOf?_eq] at found
  cases live : cache.live? id with
  | none => simp only [live, Option.bind_none] at found; exact .kept found
  | some own =>
      simp only [live, Option.bind_some] at found
      cases waits : own.load? with
      | none => simp only [waits, Option.map_none] at found; exact .kept found
      | some target =>
          obtain ⟨entry, load⟩ := target
          simp only [waits, Option.map_some] at found
          split at found
          · rename_i gap received asks
            rcases doing?_of_setWork { cache with nextCall := cache.nextCall + 1 } id found with
              kept | ⟨rfl, rfl, -⟩
            · exact .kept kept
            · rw [Work.bare_withLoad]
              exact .requests (doing?_of_live live) (by rw [Work.load?_bare, waits]) asks rfl
          · exact .kept found

theorem course_deliver {i : Nat} {reply : Reply}
    (found : (cache.deliver id i reply).doing? task = some work) :
    Course cache task (.act (.deliver id i reply)) work := by
  have stepped : cache.step (.act (.deliver id i reply)) = cache.deliver id i reply := rfl
  unfold deliver at found stepped
  rw [loadOf?_eq] at found stepped
  cases live : cache.live? id with
  | none => simp only [live, Option.bind_none] at found; exact .kept found
  | some own =>
      simp only [live, Option.bind_some] at found
      cases waits : own.load? with
      | none => simp only [waits, Option.map_none] at found; exact .kept found
      | some target =>
          obtain ⟨entryId, load⟩ := target
          simp only [live, Option.bind_some, waits, Option.map_some] at found stepped
          cases present : cache.entry? entryId with
          | none => simp only [present] at found; exact .kept found
          | some entry =>
              simp only [present] at found stepped
              split at found
              · exact .kept found
              · rename_i going
                rcases doing?_of_setWork _ id found with kept | ⟨rfl, rfl, -⟩
                · exact .kept kept
                · rw [Work.bare_withLoad]
                  refine .receives (doing?_of_live live) (by rw [Work.load?_bare, waits])
                    (by simpa using going) present ?_
                  rw [stepped, if_neg going]
                  exact ((entry?_setEntry _).trans (if_pos rfl)).trans (by rw [present]; rfl)

theorem course_settle (sound : cache.Sound) {result : Except RemoteError Unit}
    (found : (cache.settle id result).doing? task = some work) :
    Course cache task (.act (.settle id result)) work := by
  have stepped : cache.step (.act (.settle id result)) = cache.settle id result := rfl
  unfold settle at found stepped
  split at found
  · rename_i job held
    have before : cache.doing? id = some (Work.upload job).bare :=
      doing?_of_live (live?_eq_some_iff.mpr held)
    simp only [held] at stepped
    split at found
    · rename_i version snapshot call stage
      simp only [stage] at stepped
      cases result with
      | error cause =>
          exact course_of_failUpload (Wanes.refl sound) (SameStore.refl cache) rfl rfl before
            rfl stepped found
      | ok _ =>
          have done := (((SameWork.refl cache).emit
            (.written job.entry job.path (snapshot.chunks copyStep))).modifyEntry job.entry
              fun entry => entry.markClean version).log .info "upload finished" none
          exact course_of_endUpload (.of_sameWork sound done) done.clock done.grace done.pending
            before (.stored stage) found
    · exact .kept found
  · exact .kept found

theorem wanes_moved (sound : cache.Sound) (source destination : Path) :
    Wanes cache ((cache.cancel source).2.cancel destination).2 :=
  (Wanes.cancel sound source).trans (.cancel (Wanes.cancel sound source).sound destination)

theorem course_moveFile (sound : cache.Sound) {source destination : Path}
    (found : (cache.moveFile source destination).2.doing? task = some work) :
    Course cache task (.moveFile source destination) work := by
  have cancelled := wanes_moved sound source destination
  have same := ((SameStore.refl cache).cancel source).cancel destination
  have next : ((cache.cancel source).2.cancel destination).2.nextTask = cache.nextTask :=
    nextTask_cancel.trans nextTask_cancel
  have moves := moves_moveFile cache source destination
  generalize ((cache.cancel source).2.cancel destination).2 = base at cancelled same next moves
  generalize result : (cache.moveFile source destination).2 = after at found moves
  have stepped : cache.step (.moveFile source destination) = after := result
  cases moves with
  | same same => exact .kept found
  | absent apart nowhere free => exact .kept (cancelled.doing found)
  | discarded apart nowhere taken =>
      exact .kept (cancelled.doing
        ((((SameWork.refl base).setMapped _).closeEntry _).doing? ▸ found))
  | @moved id apart mapped idle =>
      exact .kept (cancelled.doing
        (((SameWork.refl base).relocate source destination id).doing? ▸ found))
  | @rescheduled id apart mapped hit =>
      have placed := (SameWork.refl base).relocate source destination id
      rcases doing?_of_schedule (placed.sound cancelled.sound) found with kept | ⟨new, rfl⟩
      · exact .kept (cancelled.doing (placed.doing? ▸ kept))
      · refine .scheduled (new.trans (placed.nextTask.trans next))
          (.inr ⟨source, same.mapped ▸ mapped⟩) fun entry present => ?_
        rw [stepped, ((SameStore.refl _).schedule _ _).lookup] at present
        rw [present]
        rfl

theorem wanes_prepared (sound : cache.Sound) (path : Path) (flags : OpenFlags) :
    Wanes cache (if flags.isWritable then (cache.cancel path).2 else cache) := by
  split
  · exact .cancel sound path
  · exact .refl sound

theorem nextTask_prepared (cache : Cache) (path : Path) (flags : OpenFlags) :
    (if flags.isWritable then (cache.cancel path).2 else cache).nextTask = cache.nextTask := by
  split
  · exact nextTask_cancel
  · rfl

theorem sameWork_acquired {path : Path} {size : Nat} {modified : Modified} {held : Cache}
    {opened : EntryId} (acquired : cache.acquire path size modified = (.ok opened, held)) :
    SameWork cache held := by
  have same := (SameWork.refl cache).acquire path size modified
  rwa [acquired] at same

theorem course_openFile (sound : cache.Sound) {path : Path} {flags : OpenFlags} {size : Nat}
    {modified : Modified}
    (found : (cache.openFile path flags size modified).2.doing? task = some work) :
    Course cache task (.openFile path flags size modified) work := by
  have opens := opens_openFile cache path flags size modified
  have same := sameStore_prepared cache path flags
  have wanes := wanes_prepared sound path flags
  have next := nextTask_prepared cache path flags
  generalize (if flags.isWritable then (cache.cancel path).2 else cache) = base
    at opens same wanes next
  generalize stepped : (cache.openFile path flags size modified).2 = after at opens found
  cases opens with
  | unmade unmapped => exact .kept (wanes.doing found)
  | @opened opened held acquired keeps =>
      exact .kept (wanes.doing (((sameWork_acquired acquired).setHandles _ _).doing? ▸ found))
  | @emptied opened held target empty acquired wipes present done =>
      exact .kept (wanes.doing
        ((((sameWork_acquired acquired).setEntry _ _).setHandles _ _).doing? ▸ found))
  | @refused opened held acquired wipes closed =>
      have work_same := sameWork_acquired acquired
      rcases doing?_of_release (work_same.sound wanes.sound) found with kept | ⟨new, released⟩
      · exact .kept (wanes.doing (work_same.doing? ▸ kept))
      · obtain ⟨_, _, rfl, timely⟩ := released
        obtain ⟨mapped, -⟩ := acquired_closed acquired closed
        refine .scheduled (new.trans (work_same.nextTask.trans next))
          (.inr ⟨path, same.mapped ▸ mapped⟩) fun entry present => timely entry ?_
        rwa [← stepped] at *

theorem course_closeHandle (sound : cache.Sound) {handle : Handle}
    (found : (cache.closeHandle handle).doing? task = some work) :
    Course cache task (.closeHandle handle) work := by
  generalize stepped : cache.closeHandle handle = after at found
  have step_eq : cache.step (.closeHandle handle) = after := stepped
  unfold closeHandle at stepped
  cases held : cache.get? handle with
  | none =>
      rw [held] at stepped
      subst stepped
      exact .kept found
  | some id =>
      rw [held] at stepped
      subst stepped
      have same := (SameWork.refl cache).setHandles
        (cache.handles.filter fun item => item.1 != handle) cache.counter
      rcases doing?_of_release (same.sound sound) found with kept | ⟨new, path, epoch, rfl, timely⟩
      · exact .kept kept
      · exact .scheduled new (.inl ⟨handle, held⟩) fun entry present =>
          timely entry (by rwa [step_eq] at present)

/-- Every task that does something after a step came to it in one of the ways that a
course names. -/
theorem course_step (sound : cache.Sound) (step : Step)
    (found : (cache.step step).doing? task = some work) : Course cache task step work := by
  cases step with
  | create path size modified =>
      exact .kept (((SameWork.refl cache).allocate path size modified).doing? ▸ found)
  | transfer entry offset count reading =>
      simp only [Cache.step] at found
      split at found
      · rename_i known
        rw [doing?_spawn sound.fresh] at found
        split at found
        · rename_i new
          cases found
          exact .awaited new known
        · exact .kept found
      · exact .kept found
  | giveUp id =>
      simp only [Cache.step] at found
      split at found
      · exact .kept ((Wanes.abort sound id).doing found)
      · exact .kept found
  | write entry offset data =>
      exact .kept (((SameWork.refl cache).onEntry entry _).doing? ▸ found)
  | truncate entry size =>
      exact .kept (((SameWork.refl cache).onEntry entry _).doing? ▸ found)
  | closeEntry entry => exact .kept (((SameWork.refl cache).closeEntry entry).doing? ▸ found)
  | rename entry path =>
      exact .kept (((SameWork.refl cache).modifyEntry entry _).doing? ▸ found)
  | schedule entry tag =>
      simp only [Cache.step] at found
      split at found
      · rename_i known
        rcases doing?_of_schedule sound found with kept | ⟨new, rfl⟩
        · exact .kept kept
        · exact .asked new known
      · exact .kept found
  | cancel path => exact .kept ((Wanes.cancel sound path).doing found)
  | openFile path flags size modified => exact course_openFile sound found
  | closeHandle handle => exact course_closeHandle sound found
  | moveFile source destination => exact course_moveFile sound found
  | delete path => exact .kept ((Wanes.delete sound path).doing found)
  | deleteTree path => exact .kept ((Wanes.deleteTree sound path).doing found)
  | act action =>
      cases action with
      | advance id => exact course_advance sound found
      | request id i => exact course_request found
      | deliver id i reply => exact course_deliver found
      | settle id result => exact course_settle sound found
      | tick milliseconds => exact .kept found
  | dropUploader => exact .kept ((Wanes.abandonUploads sound).doing found)
  | loseScratch => exact .kept found

/-! ### Uploads -/

theorem upload_withLoad {job : Upload} {load : Load} (same : .upload job = work.withLoad load) :
    ∃ stage, work = .upload { job with stage } ∧ job.stage = .loading load := by
  cases work with
  | transfer other => cases same
  | grace entry epoch due => cases same
  | upload old =>
      cases same
      exact ⟨old.stage, rfl, rfl⟩

theorem uploadCourse_step (sound : cache.Sound) (step : Step) {job : Upload}
    (found : (cache.step step).doing? task = some (.upload job)) :
    UploadCourse cache task job step := by
  have course := course_step sound step found
  generalize same : Work.upload job = work at course
  cases course with
  | kept before => exact .kept (same ▸ before)
  | awaited new known => cases same
  | asked new known => cases same; exact .asked new rfl known rfl
  | scheduled new referred timely => cases same; exact .scheduled new rfl referred rfl timely
  | timed new ending registered goal ends => cases same
  | begins before idle known started => cases same
  | @fetches old load entry before queued known dirty started =>
      cases same
      exact @UploadCourse.loading _ _ _ _ load old.stage before rfl
  | @finishes old load before stage done =>
      cases same
      refine .loaded ?_ done rfl
      rw [before, ← stage]
  | @copies old version entry content before stage known stored =>
      cases same
      refine .copying ?_ known stored rfl
      rw [before, ← stage]
  | @reads old version copy content next before stage going source done =>
      cases same
      refine .reading ?_ going source done rfl
      rw [before, ← stage]
  | @sends old version copy before stage through told =>
      cases same
      refine .sending ?_ through told rfl
      rw [before, ← stage]
  | requests before waits asks planned =>
      obtain ⟨stage, rfl, now⟩ := upload_withLoad same
      exact .loading before now
  | receives before waits going known filled =>
      obtain ⟨stage, rfl, now⟩ := upload_withLoad same
      exact .loading before now

end Cache

end SparseCache
