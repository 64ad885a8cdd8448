import SparseCache.Proofs.Cache.Calls

namespace SparseCache

/-! Which uploads are on record, and who is called back.

A step of the uploader's work, seen from the uploads, is one of four things: calls were made, the
uploader went away, nothing happened, or one upload ended.  Everything here is read off that
inversion.
-/

/-- Somebody is called back who left word. -/
def Event.notice : Event → Bool
  | .notified .. => true
  | _ => false

namespace Cache

variable {cache before base after : Cache} {calls more : List Event} {id : EntryId}
  {path : Path} {task upload : TaskId} {job : Upload} {completion : Completion} {step : Step}
  {event : Event} {work : Work} {n : Nat}

/-- The step is one of the task itself. -/
def Step.Runs (task : TaskId) : Step → Prop
  | .act (.advance own) | .act (.request own _) | .act (.deliver own _ _) | .act (.settle own _) =>
      own = task
  | _ => False

theorem Step.Drives.eq {other : TaskId} (own : step.Drives task)
    (driven : step.Drives other) : other = task := by
  unfold Step.Drives at own driven
  split at own
  · exact driven.symm.trans own
  · exact driven.symm.trans own
  · cases own

theorem Step.Drives.inward (own : step.Drives task) :
    step.inward = true := by
  unfold Step.Drives at own
  split at own
  · rfl
  · rfl
  · cases own

def notices (cache : Cache) : List Event := cache.events.filter Event.notice

theorem notices_of_record (told : after.record = before.record ++ more) :
    after.notices = before.notices ++ more.filter Event.notice := by
  have kept : ∀ cache : Cache, cache.record.filter Event.notice = cache.notices := fun _ =>
    filter_record fun event => by cases event <;> simp [Event.loud, Event.notice]
  rw [← kept, told, List.filter_append, kept]

theorem notices_congr (silent : after.record = before.record) : after.notices = before.notices :=
  (notices_of_record (silent.trans (List.append_nil _).symm)).trans (List.append_nil _)

/-- The upload of the path that is on record. -/
structure Registered (cache : Cache) (path : Path) (task : TaskId) (job : Upload) : Prop where
  record : cache.pending.get? path = some task
  working : cache.upload? task = some job

theorem registered_iff (enrolled : cache.Enrolled) :
    cache.Registered path task job ↔ cache.upload? task = some job ∧ job.path.Same path := by
  constructor
  · intro ⟨record, working⟩
    obtain ⟨other, found, here⟩ := enrolled.record.mp record
    rw [working] at found
    cases found
    exact ⟨working, here⟩
  · intro ⟨working, here⟩
    exact ⟨enrolled.record.mpr ⟨job, working, here⟩, working⟩

/-! ### What a step tells of uploads -/

/-- The event was added to the record. -/
def Adds (before after : Cache) (event : Event) : Prop :=
  ∃ more, after.record = before.record ++ more ∧ event ∈ more

theorem adds_iff (told : after.record = before.record ++ more) :
    Adds before after event ↔ event ∈ more := by
  constructor
  · intro ⟨other, added, member⟩
    rw [told] at added
    rwa [List.append_cancel_left added]
  · exact fun member => ⟨more, told, member⟩

theorem not_adds (silent : after.record = before.record) : ¬ Adds before after event :=
  fun adds => nomatch (adds_iff (silent.trans (List.append_nil _).symm)).mp adds

/-- An upload was begun, and it was told so. -/
structure Schedules (before after : Cache) (task : TaskId) (job : Upload) : Prop where
  told : Adds before after (.scheduled job.entry job.path)
  new : task = before.nextTask
  begun : after.upload? task = some job

/-- The uploader goes away in the step, or it is told of another upload of the path or of none. -/
def TakesBack (before : Cache) (step : Step) (after : Cache) (path : Path) : Prop :=
  step = .dropUploader ∨ ∃ event, Adds before after event ∧ event.Withdraws path

/-- The upload comes to its end in a step of its own. -/
structure Finishes (before : Cache) (step : Step) (after : Cache) (task : TaskId)
    (job : Upload) : Prop where
  working : before.upload? task = some job
  own : step.Drives task
  ended : after.upload? task = none

/-- Whoever asked for the upload is called back, once, and nobody else is: one who left word is
told of the path that the entry goes by, and the cache itself starts a timer. -/
inductive CallsBack (before after : Cache) (id : EntryId) : Completion → Prop
  | told {tag} (notices : after.notices = before.notices ++ [.notified tag (before.pathOf id)])
      (timers : ∀ {timer other epoch},
        after.Times timer other epoch ↔ before.Times timer other epoch) :
      CallsBack before after id (.notify tag)
  | timed {epoch started} (notices : after.notices = before.notices)
      (new : ∀ {other epoch}, ¬ before.Times started other epoch)
      (timers : ∀ {timer other epoch'}, after.Times timer other epoch' ↔
        before.Times timer other epoch' ∨ timer = started ∧ other = id ∧ epoch' = epoch) :
      CallsBack before after id (.evict epoch)

/-- Nobody is called back. -/
structure CallsNobody (before after : Cache) : Prop where
  notices : after.notices = before.notices
  timers : ∀ {timer other epoch}, after.Times timer other epoch → before.Times timer other epoch

/-! ### What becomes of uploads in one step -/

/-- An upload ends in the step, after which nothing but its end is left to record in `base`. -/
structure Ending (cache : Cache) (step : Step) (upload : TaskId) (job : Upload)
    (base : Cache) : Prop where
  steady : Steady cache base
  sound : base.Sound
  working : base.doing? upload = some (.upload { job with permit := false })
  ends : Ends cache upload { job with permit := false } step
  told : base.record = cache.record ∨ ∃ version snapshot,
    cache.Stores step upload job version snapshot ∧
      base.record = cache.record ++ [.written job.entry job.path (snapshot.chunks copyStep)]
  before : cache.doing? upload = some (.upload { job with permit := false })

/-- What a step may come to for the uploads. -/
inductive Tends (cache : Cache) (step : Step) : Cache → Prop
  | called {calls : List Event} {after : Cache} (outward : step.inward = false)
      (made : Calls cache calls after) : Tends cache step after
  | dropped (drops : step = .dropUploader) : Tends cache step cache.abandonUploads
  | still {after : Cache} (lasts : step ≠ .dropUploader) (pending : after.pending = cache.pending)
      (uploads : ∀ task, after.upload? task = cache.upload? task)
      (timers : ∀ {timer id epoch}, after.Times timer id epoch → cache.Times timer id epoch)
      (later : cache.nextTask ≤ after.nextTask) (silent : after.record = cache.record) :
      Tends cache step after
  | ended {base : Cache} {upload : TaskId} {job : Upload}
      (ending : Ending cache step upload job base) : Tends cache step (base.endUpload upload job)

/-- What is mapped and open may change with an eviction, but no work. -/
theorem sameWork_evictIfIdle (cache : Cache) (id : EntryId) (epoch : Nat) :
    SameWork cache (cache.evictIfIdle id epoch) := by
  unfold evictIfIdle
  split
  · exact .refl cache
  · split
    · exact ((SameWork.refl cache).setMapped _).closeEntry id
    · exact .refl cache

theorem tends_step (sound : cache.Sound) (counted : cache.Counted) (rooted : cache.Rooted)
    (step : Step) : Tends cache step (cache.step step) := by
  by_cases outward : step.inward = false
  · obtain ⟨calls, made⟩ := calls_step sound counted rooted outward
    exact .called outward made
  cases step with
  | dropUploader => exact .dropped rfl
  | act action =>
      have acts := acts_act sound action
      simp only [Cache.step]
      generalize cache.act action = after at acts
      have lasts : Step.act action ≠ .dropUploader := by
        intro same
        cases same
      cases acts with
      | steady steady silent =>
          exact .still lasts steady.pending steady.uploads steady.times.mp steady.later silent
      | ended steady sound working ends told before =>
          exact .ended ⟨steady, sound, working, ends, told, before⟩
      | @expired timer id epoch due working =>
          have same := sameWork_evictIfIdle (cache.dropTask timer) id epoch
          refine .still lasts same.pending
            (fun _ => (upload?_congr same.doing?).trans (upload?_dropTask working))
            (fun times => ?_) (Nat.le_of_eq same.nextTask.symm) record_evictIfIdle
          obtain ⟨due, times⟩ := times
          refine ⟨due, ?_⟩
          rw [same.doing?, doing?_dropTask] at times
          split at times
          · cases times
          · exact times
  | _ => exact absurd rfl outward

theorem Ends.drives {ended : Upload} (ends : Ends cache upload ended step) :
    step.Drives upload := by
  cases ends with
  | unchanged queued clean => rfl
  | failed own logged => exact own
  | stored stage => rfl

namespace Ending

theorem upload?_eq (ending : Ending cache step upload job base) :
    cache.upload? upload = some { job with permit := false, stage := .queued } :=
  upload?_of_doing? ending.before

theorem uploads (ending : Ending cache step upload job base) :
    (base.endUpload upload job).upload? task
      = if task = upload then none else cache.upload? task := by
  rw [upload?_endUpload ending.sound, ending.steady.uploads]

theorem registered (ending : Ending cache step upload job base) (enrolled : cache.Enrolled) :
    base.pending.get? job.path = some upload := by
  rw [ending.steady.pending]
  exact enrolled.record.mpr ⟨_, ending.upload?_eq, .refl job.path⟩

/-- The end of an upload is told to whoever asked for it, after the write if there was one. -/
theorem record (ending : Ending cache step upload job base) (enrolled : cache.Enrolled) :
    (base.endUpload upload job).record
      = base.record ++ base.tells job.entry job.completion := by
  rw [record_endUpload, if_pos (ending.registered enrolled)]

theorem adds (ending : Ending cache step upload job base) (enrolled : cache.Enrolled)
    (adds : Adds cache (base.endUpload upload job) event) :
    (∃ chunks, event = .written job.entry job.path chunks) ∨
      ∃ tag path, event = .notified tag path := by
  have told : ∀ event ∈ base.tells job.entry job.completion,
      ∃ tag path, event = .notified tag path := by
    cases job.completion with
    | evict epoch => exact nofun
    | notify tag => exact fun _ member => ⟨tag, _, List.mem_singleton.mp member⟩
  rcases ending.told with silent | ⟨version, snapshot, -, wrote⟩
  · rw [adds_iff ((ending.record enrolled).trans (by rw [silent]))] at adds
    exact .inr (told event adds)
  · rw [adds_iff ((ending.record enrolled).trans (by rw [wrote, List.append_assoc]))] at adds
    rcases List.mem_append.mp adds with first | later
    · exact .inl ⟨_, List.mem_singleton.mp first⟩
    · exact .inr (told event later)

end Ending

/-- Uploads are on record just as long as they are not stopped, whatever the step. -/
theorem Tends.enrolled (tends : Tends cache step after) (sound : cache.Sound)
    (enrolled : cache.Enrolled) : after.Enrolled := by
  cases tends with
  | called outward made => exact made.enrolled enrolled
  | dropped drops => exact enrolled.abandonUploads sound
  | still lasts pending uploads timers later silent => exact enrolled.congr pending uploads
  | ended ending =>
      have before := enrolled.congr ending.steady.pending ending.steady.uploads
      exact before.endUpload ending.sound ((upload?_of_doing? ending.working).trans rfl)

/-! ### What is on record after a step -/

theorem Finishes.unfinished (finishes : Finishes before step after task job) :
    after.upload? task ≠ some job := by
  rw [finishes.ended]
  exact nofun

theorem Calls.registered_iff (made : Calls cache calls (cache.step step)) (sound : cache.Sound)
    (enrolled : cache.Enrolled) (outward : step.inward = false) :
    (cache.step step).Registered path task job ↔
      (Schedules cache (cache.step step) task job ∧ job.path.Same path) ∨
        (cache.Registered path task job ∧ ¬ TakesBack cache step (cache.step step) path ∧
          ¬ Finishes cache step (cache.step step) task job) := by
  have adds : ∀ {event}, Adds cache (cache.step step) event ↔ event ∈ calls := adds_iff made.record
  have old : ∀ {path task job}, cache.pending.get? path = some task →
      (cache.step step).upload? task = some job → cache.upload? task = some job := by
    intro path task job record working
    obtain ⟨earlier, found, -⟩ := enrolled.record.mp record
    rcases upload?_before sound step working with same | new
    · exact same
    · exact absurd new (Nat.ne_of_lt (lt_nextTask_of_upload? sound.fresh found))
  constructor
  · intro ⟨record, working⟩
    rcases made.pending.mp record with ⟨rfl, id, place, called, here⟩ | ⟨before, spared⟩
    · obtain ⟨completion, begun⟩ := made.begun called
      rw [working] at begun
      cases begun
      exact .inl ⟨⟨adds.mpr called, rfl, working⟩, here⟩
    · refine .inr ⟨⟨before, old before working⟩, ?_, fun finishes => finishes.unfinished working⟩
      intro takes
      rcases takes with drops | ⟨event, added, withdraws⟩
      · rw [drops] at outward
        cases outward
      · exact spared event (adds.mp added) withdraws
  · intro either
    rcases either with ⟨schedules, here⟩ | ⟨registered, spared, -⟩
    · refine ⟨made.pending.mpr (.inl ?_), schedules.begun⟩
      exact ⟨schedules.new, _, _, adds.mp schedules.told, here⟩
    · have record := made.pending.mpr (.inr ⟨registered.record, fun event called withdraws =>
        spared (.inr ⟨event, adds.mpr called, withdraws⟩)⟩)
      obtain ⟨other, working, -⟩ := (made.enrolled enrolled).record.mp record
      have same := old registered.record working
      rw [registered.working] at same
      cases same
      exact ⟨record, working⟩

/-- The only upload that finishes is the one that ends. -/
theorem Ending.finishes_iff (ending : Ending cache step upload job base) {other : Upload} :
    Finishes cache step (base.endUpload upload job) task other ↔
      task = upload ∧ cache.upload? task = some other := by
  constructor
  · intro finishes
    exact ⟨ending.ends.drives.eq finishes.own, finishes.working⟩
  · intro ⟨own, working⟩
    subst own
    exact ⟨working, ending.ends.drives, ending.uploads.trans (if_pos rfl)⟩

theorem Ending.registered_iff (ending : Ending cache step upload job base) (sound : cache.Sound)
    (enrolled : cache.Enrolled) {other : Upload} :
    (base.endUpload upload job).Registered path task other ↔
      (Schedules cache (base.endUpload upload job) task other ∧ other.path.Same path) ∨
        (cache.Registered path task other ∧
          ¬ TakesBack cache step (base.endUpload upload job) path ∧
          ¬ Finishes cache step (base.endUpload upload job) task other) := by
  have enrolled_after := (Tends.ended ending).enrolled sound enrolled
  have unscheduled : ¬ Schedules cache (base.endUpload upload job) task other := by
    intro schedules
    rcases ending.adds enrolled schedules.told with ⟨_, wrote⟩ | ⟨_, _, told⟩
    · cases wrote
    · cases told
  have untouched : ¬ TakesBack cache step (base.endUpload upload job) path := by
    intro takes
    rcases takes with drops | ⟨event, added, withdraws⟩
    · have driven := ending.ends.drives
      rw [drops] at driven
      cases driven
    · rcases ending.adds enrolled added with ⟨_, rfl⟩ | ⟨_, _, rfl⟩
      · cases withdraws
      · cases withdraws
  rw [Cache.registered_iff enrolled_after, Cache.registered_iff enrolled, ending.uploads,
    ending.finishes_iff]
  split
  · rename_i own
    constructor
    · exact fun absent => nomatch absent.1
    · intro either
      rcases either with ⟨schedules, -⟩ | ⟨⟨working, -⟩, -, unfinished⟩
      · exact absurd schedules unscheduled
      · exact absurd ⟨own, working⟩ unfinished
  · rename_i apart
    constructor
    · exact fun registered => .inr ⟨registered, untouched, fun finishes => apart finishes.1⟩
    · exact fun either => (either.resolve_left fun begun => unscheduled begun.1).1

/-- What is on record after a step was begun in it, or it was on record before and was neither
taken back nor brought to its end. -/
theorem registered_step (sound : cache.Sound) (counted : cache.Counted) (rooted : cache.Rooted)
    (enrolled : cache.Enrolled) (step : Step) :
    (cache.step step).Registered path task job ↔
      (Schedules cache (cache.step step) task job ∧ job.path.Same path) ∨
        (cache.Registered path task job ∧ ¬ TakesBack cache step (cache.step step) path ∧
          ¬ Finishes cache step (cache.step step) task job) := by
  have tends := tends_step sound counted rooted step
  generalize stepped : cache.step step = after at tends
  cases tends with
  | called outward made =>
      subst stepped
      exact made.registered_iff sound enrolled outward
  | ended ending => exact ending.registered_iff sound enrolled
  | dropped drops =>
      have stopped : cache.abandonUploads.upload? task = none :=
        upload?_abandonUploads enrolled sound
      constructor
      · intro registered
        have working := registered.working
        rw [stopped] at working
        cases working
      · intro either
        rcases either with ⟨schedules, -⟩ | ⟨-, spared, -⟩
        · have begun := schedules.begun
          rw [stopped] at begun
          cases begun
        · exact absurd (.inl drops) spared
  | still lasts pending uploads timers later silent =>
      have same : after.Registered path task job ↔ cache.Registered path task job := by
        constructor
        · exact fun registered => ⟨pending ▸ registered.record, uploads task ▸ registered.working⟩
        · intro registered
          exact ⟨pending.symm ▸ registered.record, (uploads task).trans registered.working⟩
      rw [same]
      constructor
      · intro registered
        refine .inr ⟨registered, fun takes => ?_, fun finishes => ?_⟩
        · rcases takes with drops | ⟨event, added, -⟩
          · exact lasts drops
          · exact not_adds silent added
        · exact finishes.unfinished ((uploads task).trans registered.working)
      · intro either
        rcases either with ⟨schedules, -⟩ | ⟨registered, -⟩
        · exact absurd schedules.told (not_adds silent)
        · exact registered

/-! ### Who is called back -/

theorem callsBack_endUpload (sound : cache.Sound)
    (registered : cache.pending.get? job.path = some upload)
    (working : cache.doing? upload = some (.upload { job with permit := false })) :
    CallsBack cache (cache.endUpload upload job) job.entry job.completion := by
  have told := @record_endUpload cache upload job
  rw [if_pos registered] at told
  have elsewhere : ∀ {timer other epoch}, cache.Times timer other epoch → timer ≠ upload := by
    rintro timer other epoch ⟨due, times⟩ here
    rw [here, working] at times
    cases times
  generalize goal : job.completion = completion at told
  cases completion with
  | notify tag =>
      have doing : ∀ timer, (cache.endUpload upload job).doing? timer
          = if timer = upload then none else cache.doing? timer := by
        refine fun _ => doing?_endUpload_of_not_evict sound.backed fun epoch _ evicts => ?_
        rw [goal] at evicts
        cases evicts
      refine .told (notices_of_record told) fun {timer other epoch} => ?_
      rw [Times, doing]
      constructor
      · rintro ⟨due, times⟩
        split at times
        · cases times
        · exact ⟨due, times⟩
      · intro times
        rw [if_neg (elsewhere times)]
        exact times
  | evict epoch =>
      have doing : ∀ timer, (cache.endUpload upload job).doing? timer = _ := fun _ =>
        doing?_endUpload_evict sound.fresh sound.backed registered goal
      have unused : cache.doing? cache.nextTask = none := sound.fresh.doing? (Nat.le_refl _)
      have apart : cache.nextTask ≠ upload := by
        intro here
        rw [here, working] at unused
        cases unused
      refine @CallsBack.timed _ _ _ epoch cache.nextTask
        ((notices_of_record told).trans (List.append_nil _)) (fun times => ?_)
        fun {timer other epoch'} => ?_
      · obtain ⟨due, times⟩ := times
        rw [unused] at times
        cases times
      · rw [Times, doing]
        constructor
        · rintro ⟨due, times⟩
          split at times
          · cases times
          · split at times
            · rename_i new
              cases times
              exact .inr ⟨new, rfl, rfl⟩
            · exact .inl ⟨due, times⟩
        · intro either
          rcases either with times | ⟨rfl, rfl, rfl⟩
          · have old : timer ≠ cache.nextTask := by
              obtain ⟨due, times⟩ := times
              exact Nat.ne_of_lt (lt_nextTask_of_doing? sound.fresh times)
            rw [if_neg (elsewhere times), if_neg old]
            exact times
          · rw [if_neg apart, if_pos rfl]
            exact ⟨_, rfl⟩

theorem CallsBack.of_steady (calls : CallsBack base after id completion)
    (steady : Steady cache base) (notices : base.notices = cache.notices)
    (known : (cache.entry? id).isSome) : CallsBack cache after id completion := by
  have place : base.pathOf id = cache.pathOf id := by
    obtain ⟨entry, found⟩ := Option.isSome_iff_exists.mp known
    obtain ⟨next, present, same, -⟩ := steady.entries.kept found
    rw [pathOf, pathOf, found, present, Option.map_some, Option.map_some, same]
  cases calls with
  | told added timers =>
      exact .told (by rw [added, notices, place]) (timers.trans steady.times)
  | timed added new timers =>
      refine .timed (added.trans notices) (fun times => new (steady.times.mpr times))
        fun {timer other epoch} => ?_
      rw [timers, steady.times]

theorem Ending.callsBack (ending : Ending cache step upload job base) (enrolled : cache.Enrolled)
    (rooted : cache.Rooted) :
    CallsBack cache (base.endUpload upload job) job.entry job.completion := by
  have silent : base.notices = cache.notices := by
    rcases ending.told with silent | ⟨version, snapshot, -, wrote⟩
    · exact notices_congr silent
    · exact (notices_of_record wrote).trans (List.append_nil _)
  exact (callsBack_endUpload ending.sound (ending.registered enrolled) ending.working).of_steady
    ending.steady silent (rooted.worked ending.before)

theorem times_of_outward {timer : TaskId} {epoch : Nat} (sound : cache.Sound)
    (outward : step.inward = false) (times : Times (cache.step step) timer id epoch) :
    cache.Times timer id epoch := by
  obtain ⟨due, doing⟩ := times
  have course := course_step sound step doing
  generalize timed : Work.grace id epoch due = work at course
  cases course with
  | kept before => exact ⟨due, timed ▸ before⟩
  | awaited new known => cases timed
  | asked new known => cases timed
  | scheduled new referred timely => cases timed
  | timed new ending registered goal ends =>
      rw [ends.drives.inward] at outward
      cases outward
  | _ => cases outward

theorem callsNobody_step (sound : cache.Sound) (counted : cache.Counted) (rooted : cache.Rooted)
    (unfinished : ∀ task job, ¬ Finishes cache step (cache.step step) task job) :
    CallsNobody cache (cache.step step) := by
  have tends := tends_step sound counted rooted step
  have outward_times := fun outward timer id epoch =>
    @times_of_outward cache id step timer epoch sound outward
  generalize cache.step step = after at tends unfinished outward_times
  cases tends with
  | called outward made =>
      refine ⟨?_, outward_times outward _ _ _⟩
      rw [notices_of_record made.record, made.filter_eq_nil (fun _ _ => rfl) (fun _ _ => rfl),
        List.append_nil]
  | dropped drops =>
      exact ⟨notices_congr record_abandonUploads,
        fun ⟨due, doing⟩ => ⟨due, doing?_abandonUploads doing⟩⟩
  | still lasts pending uploads timers later silent => exact ⟨notices_congr silent, timers⟩
  | ended ending => exact absurd (ending.finishes_iff.mpr ⟨rfl, ending.upload?_eq⟩) (unfinished _ _)

/-- An upload finishes as the one that ends. -/
theorem Finishes.ending (sound : cache.Sound) (counted : cache.Counted) (rooted : cache.Rooted)
    (finishes : Finishes cache step (cache.step step) task job) :
    ∃ base own, Ending cache step task own base ∧ cache.step step = base.endUpload task own ∧
      job = { own with permit := false, stage := .queued } := by
  have tends := tends_step sound counted rooted step
  generalize cache.step step = after at tends finishes
  cases tends with
  | called outward made =>
      rw [finishes.own.inward] at outward
      cases outward
  | dropped drops =>
      have own := finishes.own
      rw [drops] at own
      cases own
  | still lasts pending uploads timers later silent =>
      exact absurd ((uploads task).trans finishes.working) finishes.unfinished
  | @ended base upload own ending =>
      obtain ⟨rfl, working⟩ := ending.finishes_iff.mp finishes
      have same := ending.upload?_eq
      rw [working] at same
      exact ⟨base, own, ending, rfl, Option.some.inj same⟩

/-- An upload is of the path by which its entry goes when somebody asks for it. -/
theorem schedules_of_asked (sound : cache.Sound) (known : (cache.entry? id).isSome)
    (tag : String) : Schedules cache (cache.step (.schedule id tag)) cache.nextTask
      { entry := id, path := cache.pathOf id, completion := .notify tag } := by
  rw [Cache.step, if_pos known]
  refine ⟨⟨_, record_schedule, .head _⟩, rfl, ?_⟩
  rw [upload?_schedule sound, if_pos rfl]

theorem cancel_hit_iff (sound : cache.Sound) (enrolled : cache.Enrolled) (path : Path) :
    (cache.cancel path).1 = true ↔ ∃ task job, cache.Registered path task job := by
  rw [cancel_hit sound.backed, Option.isSome_iff_exists]
  constructor
  · intro ⟨task, record⟩
    obtain ⟨job, working, -⟩ := enrolled.record.mp record
    exact ⟨task, job, record, working⟩
  · exact fun ⟨task, job, registered⟩ => ⟨task, registered.record⟩

/-- Whatever is told to be scheduled is begun. -/
theorem schedules_of_scheduled (sound : cache.Sound) (counted : cache.Counted)
    (rooted : cache.Rooted) (enrolled : cache.Enrolled)
    (told : Adds cache (cache.step step) (.scheduled id path)) :
    ∃ task job, Schedules cache (cache.step step) task job ∧ job.entry = id ∧ job.path = path := by
  have tends := tends_step sound counted rooted step
  generalize cache.step step = after at tends told
  cases tends with
  | called outward made =>
      obtain ⟨completion, begun⟩ := made.begun ((adds_iff made.record).mp told)
      exact ⟨_, _, ⟨told, rfl, begun⟩, rfl, rfl⟩
  | dropped drops => exact absurd told (not_adds record_abandonUploads)
  | still lasts pending uploads timers later silent => exact absurd told (not_adds silent)
  | ended ending =>
      rcases ending.adds enrolled told with ⟨_, wrote⟩ | ⟨_, _, notified⟩
      · cases wrote
      · cases notified

/-- Only an upload that finishes has stored anything. -/
theorem finishes_of_written {chunks : List Bytes} (sound : cache.Sound) (counted : cache.Counted)
    (rooted : cache.Rooted) (enrolled : cache.Enrolled)
    (written : Adds cache (cache.step step) (.written id path chunks)) :
    ∃ task job, Finishes cache step (cache.step step) task job ∧ job.entry = id ∧
      job.path = path := by
  have tends := tends_step sound counted rooted step
  generalize cache.step step = after at tends written
  cases tends with
  | called outward made =>
      rcases made.only _ ((adds_iff made.record).mp written) with ⟨_, _, other⟩ | ⟨_, _, other⟩
      · cases other
      · cases other
  | dropped drops => exact absurd written (not_adds record_abandonUploads)
  | still lasts pending uploads timers later silent => exact absurd written (not_adds silent)
  | ended ending =>
      have finishes := ending.finishes_iff.mpr ⟨rfl, ending.upload?_eq⟩
      rcases ending.adds enrolled written with ⟨_, wrote⟩ | ⟨_, _, told⟩
      · cases wrote
        exact ⟨_, _, finishes, rfl, rfl⟩
      · cases told

/-! ### Uploads that were stopped -/

theorem nextTask_le_step (sound : cache.Sound) (counted : cache.Counted) (rooted : cache.Rooted)
    (step : Step) : cache.nextTask ≤ (cache.step step).nextTask := by
  have tends := tends_step sound counted rooted step
  generalize cache.step step = after at tends
  cases tends with
  | called outward made => exact made.later
  | dropped drops => exact Nat.le_of_eq nextTask_abandonUploads.symm
  | still lasts pending uploads timers later silent => exact later
  | ended ending =>
      exact Nat.le_trans ending.steady.later (nextTask_le_endUpload ending.sound.backed)

/-- The steps of a task that does nothing any more change nothing and record nothing. -/
theorem idle_runs (idle : cache.doing? task = none) (runs : step.Runs task) :
    (cache.step step).entries = cache.entries ∧ (cache.step step).events = cache.events ∧
      (cache.step step).pending = cache.pending := by
  have stopped : cache.live? task = none := by
    simpa only [doing?, Option.map_eq_none_iff] using idle
  cases step with
  | act action =>
      cases action with
      | advance own =>
          cases runs
          simp only [Cache.step, act, advance]
          cases held : cache.task? task with
          | none => exact ⟨rfl, rfl, rfl⟩
          | some item =>
              obtain ⟨work, aborted⟩ := item
              cases aborted with
              | false =>
                  rw [live?_eq_some_iff.mpr held] at stopped
                  cases stopped
              | true =>
                  exact ⟨((SameStore.refl cache).reap task).entries, events_reap,
                    pending_reap⟩
      | request own i =>
          cases runs
          simp only [Cache.step, act, request, loadOf?_eq, stopped]
          exact ⟨rfl, rfl, rfl⟩
      | deliver own i reply =>
          cases runs
          simp only [Cache.step, act, deliver, loadOf?_eq, stopped]
          exact ⟨rfl, rfl, rfl⟩
      | settle own result =>
          cases runs
          simp only [Cache.step, act, settle]
          split
          · rename_i held
            rw [live?_eq_some_iff.mpr held] at stopped
            cases stopped
          · exact ⟨rfl, rfl, rfl⟩
      | tick milliseconds => cases runs
  | _ => cases runs

/-- The steps of a task that does nothing any more change nothing that others see. -/
theorem runs_idle (idle : cache.doing? task = none) (runs : step.Runs task) :
    (cache.step step).entries = cache.entries ∧ (cache.step step).record = cache.record ∧
      (cache.step step).pending = cache.pending := by
  obtain ⟨entries, events, pending⟩ := idle_runs idle runs
  exact ⟨entries, record_congr events, pending⟩

/-! ### Whole runs -/

theorem enrolled_after (mount : Mount) (steps : Nat → Step) (n : Nat) :
    (mount.cache.after steps n).Enrolled := by
  have initial : mount.cache.Enrolled := by
    refine ⟨fun {path task} => ⟨fun registered => ?_, fun ⟨job, working, _⟩ => ?_⟩⟩
    · cases registered
    · cases working
  refine after_induction initial (fun n enrolled => ?_) n
  have sound := sound_after mount steps n
  exact (tends_step sound (counted_after mount steps n) (rooted_after mount steps n)
    (steps n)).enrolled sound enrolled

theorem nextTask_le_after (mount : Mount) (steps : Nat → Step) {m : Nat} (later : m ≤ n) :
    (mount.cache.after steps m).nextTask ≤ (mount.cache.after steps n).nextTask := by
  induction later with
  | refl => exact Nat.le_refl _
  | @step n later ih =>
      exact Nat.le_trans ih (nextTask_le_step (sound_after mount steps n)
        (counted_after mount steps n) (rooted_after mount steps n) (steps n))

/-- A task keeps to what it was begun for. -/
theorem begun_between {mount : Mount} {steps : Nat → Step} {m : Nat} {next : Work}
    (known : task < (mount.cache.after steps m).nextTask) (later : m ≤ n)
    (found : (mount.cache.after steps n).doing? task = some next) :
    ∃ work, (mount.cache.after steps m).doing? task = some work ∧ work.begun = next.begun := by
  induction later generalizing next with
  | refl => exact ⟨next, found, rfl⟩
  | @step n later ih =>
      rcases (course_step (sound_after mount steps n) (steps n) found).begun with
        ⟨old, before, same⟩ | new
      · obtain ⟨work, doing, kept⟩ := ih before
        exact ⟨work, doing, kept.trans same⟩
      · have grows := nextTask_le_after mount steps later
        exact absurd (Nat.lt_of_lt_of_le known grows) (Nat.not_lt_of_le new)

/-- An upload that was stopped or has finished leaves its task with nothing to do. -/
theorem doing?_of_stopped (sound : cache.Sound) (working : cache.upload? task = some job)
    (stopped : Cache.upload? (cache.step step) task = none) :
    Cache.doing? (cache.step step) task = none := by
  refine Option.eq_none_iff_forall_ne_some.mpr fun work doing => ?_
  rcases (course_step sound step doing).begun with ⟨old, before, same⟩ | new
  · have kept : old.upload? = work.upload? := by
      rw [← Work.upload?_begun old, same, Work.upload?_begun]
    rw [upload?_of_doing? doing, ← kept, ← upload?_of_doing? before, working] at stopped
    cases stopped
  · exact absurd (lt_nextTask_of_upload? sound.fresh working) (Nat.not_lt_of_le new)

section

variable (start : Cache) (steps : Nat → Step) (n : Nat)

/-- The upload is begun in step `n` of the run. -/
def SchedulesAt (task : TaskId) (job : Upload) : Prop :=
  Schedules (start.after steps n) (start.after steps (n + 1)) task job

/-- An upload of the path would be taken back in step `n` of the run. -/
def TakesBackAt (path : Path) : Prop :=
  TakesBack (start.after steps n) (steps n) (start.after steps (n + 1)) path

/-- The upload finishes in step `n` of the run. -/
def FinishesAt (task : TaskId) (job : Upload) : Prop :=
  Finishes (start.after steps n) (steps n) (start.after steps (n + 1)) task job

/-- Uploads are on record, and those who asked for them are called back, as they should be at a
moment of a run. -/
structure UploadsExact : Prop where
  /-- On record for a path is the upload that was scheduled last for it, as long as it neither
  came to its end nor was taken back. -/
  record : ∀ path task job, (start.after steps n).Registered path task job ↔
    ∃ i, i < n ∧ SchedulesAt start steps i task job ∧ job.path.Same path ∧ ∀ k, i < k → k < n →
      ¬ TakesBackAt start steps k path ∧ ¬ FinishesAt start steps k task job
  /-- An upload is of the path by which its entry goes when it is asked for. -/
  asked : ∀ id tag, steps n = .schedule id tag → (Cache.entry? (start.after steps n) id).isSome →
    SchedulesAt start steps n (start.after steps n).nextTask
      { entry := id, path := (start.after steps n).pathOf id, completion := .notify tag }
  /-- Whenever an upload is told to be scheduled, one is. -/
  scheduled : ∀ id path,
    Adds (start.after steps n) (start.after steps (n + 1)) (.scheduled id path) →
    ∃ task job, SchedulesAt start steps n task job ∧ job.entry = id ∧ job.path = path
  /-- Cancelling says whether there was an upload on record. -/
  cancelled : ∀ path, steps n = .cancel path → ∃ hit,
    (start.after steps (n + 1)).record = (start.after steps n).record ++ [.cancelled path hit] ∧
      (hit = true ↔ ∃ task job, (start.after steps n).Registered path task job)
  /-- What finishes is on record: there was nothing to store, or it failed, or its write took
  effect.  Whoever asked for it is called back then, and all others stay on record. -/
  finished : ∀ task job, FinishesAt start steps n task job →
    (start.after steps n).Registered job.path task job ∧
      (∃ stage, (start.after steps n).doing? task = some (.upload { job with stage }) ∧
        Ends (start.after steps n) task { job with stage } (steps n)) ∧
      CallsBack (start.after steps n) (start.after steps (n + 1)) job.entry job.completion ∧
      ∀ path other kept, other ≠ task →
        ((start.after steps (n + 1)).Registered path other kept ↔
          (start.after steps n).Registered path other kept)
  /-- No upload finishes twice. -/
  once : ∀ m task earlier later, m < n → FinishesAt start steps m task earlier →
    ¬ FinishesAt start steps n task later
  /-- Nobody is called back while nothing finishes. -/
  silent : (∀ task job, ¬ FinishesAt start steps n task job) →
    CallsNobody (start.after steps n) (start.after steps (n + 1))
  /-- What is written is written by an upload that finishes. -/
  written : ∀ id path chunks,
    Adds (start.after steps n) (start.after steps (n + 1)) (.written id path chunks) →
    ∃ task job, FinishesAt start steps n task job ∧ job.entry = id ∧ job.path = path
  /-- The task of an upload that was taken back does nothing any more, and none of its steps
  changes any entry, calls anybody back, writes anything or takes anything off the record. -/
  withdrawn : ∀ i path task job, i < n → (start.after steps i).Registered path task job →
    TakesBackAt start steps i path →
    (start.after steps n).doing? task = none ∧ ((steps n).Runs task →
      (start.after steps (n + 1)).entries = (start.after steps n).entries ∧
        (start.after steps (n + 1)).record = (start.after steps n).record ∧
        (start.after steps (n + 1)).pending = (start.after steps n).pending)

end

section

variable (mount : Mount) (steps : Nat → Step)

theorem registered_after (n : Nat) :
    (mount.cache.after steps n).Registered path task job ↔
      ∃ i, i < n ∧ SchedulesAt mount.cache steps i task job ∧ job.path.Same path ∧
        ∀ k, i < k → k < n →
          ¬ TakesBackAt mount.cache steps k path ∧ ¬ FinishesAt mount.cache steps k task job := by
  induction n with
  | zero =>
      constructor
      · intro registered
        cases registered.record
      · intro ⟨i, before, _⟩
        cases before
  | succ n ih =>
      have stepped : (mount.cache.after steps (n + 1)).Registered path task job ↔
          (SchedulesAt mount.cache steps n task job ∧ job.path.Same path) ∨
            ((mount.cache.after steps n).Registered path task job ∧
              ¬ TakesBackAt mount.cache steps n path ∧ ¬ FinishesAt mount.cache steps n task job) :=
        registered_step (sound_after mount steps n) (counted_after mount steps n)
          (rooted_after mount steps n) (enrolled_after mount steps n) (steps n)
      rw [stepped, ih]
      constructor
      · intro either
        rcases either with ⟨schedules, here⟩ | ⟨⟨i, before, schedules, here, since⟩, going⟩
        · refine ⟨n, Nat.lt_succ_self n, schedules, here, fun k later upto => ?_⟩
          exact absurd upto (Nat.not_lt_of_le later)
        · refine ⟨i, Nat.lt_succ_of_lt before, schedules, here, fun k later upto => ?_⟩
          rcases Nat.lt_succ_iff_lt_or_eq.mp upto with inside | rfl
          · exact since k later inside
          · exact going
      · intro ⟨i, upto, schedules, here, since⟩
        rcases Nat.lt_succ_iff_lt_or_eq.mp upto with before | rfl
        · refine .inr ⟨⟨i, before, schedules, here, fun k later inside => ?_⟩,
            since n before (Nat.lt_succ_self n)⟩
          exact since k later (Nat.lt_succ_of_lt inside)
        · exact .inl ⟨schedules, here⟩

/-- Once an upload was taken back or has finished its task has nothing to do. -/
theorem doing?_after_stopped {i : Nat} (later : i < n)
    (working : (mount.cache.after steps i).upload? task = some job)
    (stopped : (mount.cache.after steps (i + 1)).upload? task = none) :
    (mount.cache.after steps n).doing? task = none := by
  have sound := sound_after mount steps i
  have known := Nat.lt_of_lt_of_le (lt_nextTask_of_upload? sound.fresh working)
    (nextTask_le_after mount steps (Nat.le_succ i))
  have idle : (mount.cache.after steps (i + 1)).doing? task = none :=
    doing?_of_stopped sound working stopped
  refine Option.eq_none_iff_forall_ne_some.mpr fun work doing => ?_
  obtain ⟨old, before, -⟩ := begun_between known later doing
  rw [idle] at before
  cases before

/-- Nothing that was taken back is on record right afterwards. -/
theorem stopped_of_takesBack {i : Nat}
    (registered : (mount.cache.after steps i).Registered path task job)
    (takes : TakesBackAt mount.cache steps i path) :
    (mount.cache.after steps (i + 1)).upload? task = none := by
  have sound := sound_after mount steps i
  cases working : (mount.cache.after steps (i + 1)).upload? task with
  | none => rfl
  | some other =>
      have enrolled := enrolled_after mount steps i
      have here := ((registered_iff enrolled).mp registered).2
      have same : other = job := by
        rcases upload?_before sound (steps i) working with before | new
        · rw [registered.working] at before
          exact (Option.some.inj before).symm
        · exact absurd new (Nat.ne_of_lt (lt_nextTask_of_upload? sound.fresh registered.working))
      have kept : (mount.cache.after steps (i + 1)).Registered path task job :=
        (registered_iff (enrolled_after mount steps (i + 1))).mpr ⟨same ▸ working, here⟩
      rcases (registered_step sound (counted_after mount steps i) (rooted_after mount steps i)
        enrolled (steps i)).mp kept with ⟨schedules, -⟩ | ⟨-, spared, -⟩
      · exact absurd schedules.new
          (Nat.ne_of_lt (lt_nextTask_of_upload? sound.fresh registered.working))
      · exact absurd takes spared

/-- At any moment of any run, uploads are on record and called back as they should be, whatever
was scheduled, cancelled or renamed before and wherever the tasks were stopped. -/
theorem uploads_exact (n : Nat) : UploadsExact mount.cache steps n := by
  have sound := sound_after mount steps n
  have counted := counted_after mount steps n
  have rooted := rooted_after mount steps n
  have enrolled := enrolled_after mount steps n
  constructor
  case record => exact fun path task job => registered_after mount steps n
  case asked =>
    intro id tag asks known
    rw [SchedulesAt, after_succ, asks]
    exact schedules_of_asked sound known tag
  case scheduled =>
    exact fun id path => schedules_of_scheduled sound counted rooted enrolled
  case cancelled =>
    intro path asks
    rw [after_succ, asks]
    exact ⟨_, record_cancel, cancel_hit_iff sound enrolled path⟩
  case finished =>
    intro task job finished
    obtain ⟨base, own, ending, stepped, rfl⟩ := Finishes.ending sound counted rooted finished
    have enrolled' := enrolled_after mount steps (n + 1)
    rw [after_succ, stepped] at enrolled' ⊢
    refine ⟨⟨enrolled.registered finished.working, finished.working⟩,
      ⟨own.stage, ending.before, ending.ends⟩, ending.callsBack enrolled rooted,
      fun path other kept apart => ?_⟩
    rw [registered_iff enrolled', registered_iff enrolled, ending.uploads, if_neg apart]
  case once =>
    intro m task earlier later before finished again
    have stopped := doing?_after_stopped mount steps before finished.working finished.ended
    have working := again.working
    rw [upload?_of_idle stopped] at working
    cases working
  case silent => exact fun unfinished => callsNobody_step sound counted rooted unfinished
  case written => exact fun id path chunks => finishes_of_written sound counted rooted enrolled
  case withdrawn =>
    intro i path task job before registered takes
    have idle := doing?_after_stopped mount steps before registered.working
      (stopped_of_takesBack mount steps registered takes)
    exact ⟨idle, runs_idle idle⟩

end

/-- An upload keeps the path that it was scheduled under when its entry is renamed; the later of
two of the new path supersedes the earlier one, and is cancelled in turn. -/
def renamedWhileScheduled : List Step :=
  [.create ⟨[97]⟩ 0 .now, .schedule 0 "first", .rename 0 ⟨[98]⟩, .schedule 0 "second",
    .schedule 0 "third", .act (.advance 0), .act (.advance 1), .cancel ⟨[98]⟩, .act (.advance 2),
    .cancel ⟨[98]⟩]

/-- Only the first of the uploads calls back, which nobody took back. -/
example :
    ((mountWith 0).cache.after (scripted renamedWhileScheduled) 10).record
      = [.scheduled 0 ⟨[97]⟩, .scheduled 0 ⟨[98]⟩, .scheduled 0 ⟨[98]⟩,
          .notified "first" ⟨[98]⟩, .cancelled ⟨[98]⟩ true, .cancelled ⟨[98]⟩ false] := by
  rfl

end Cache

end SparseCache
