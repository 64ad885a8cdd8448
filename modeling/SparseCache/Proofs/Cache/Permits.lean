import Mathlib
import SparseCache.Proofs.Cache.Callbacks

namespace SparseCache

/-! Permits are neither lost nor made.

A permit is free or held by one task, aborted tasks that were not reaped among
them.  Tasks in line hold none and stand in it once, and nobody stands in line while
a permit is free, so whoever gives a permit back can hand it to the first in line.
-/

/-- Whether an upload has its permit. -/
def Work.permit? : Work → Option Bool
  | .upload job => some job.permit
  | _ => none

/-- An upload that loads, takes its snapshot or writes. -/
def Work.underWay : Work → Bool
  | .upload { stage := .queued, .. } => false
  | .upload _ => true
  | _ => false

def Task.holds (task : Task) : Bool := task.work.permit? == some true

/-- The task with a permit, if it is an upload. -/
def Task.grant (task : Task) : Task :=
  match task.work with
  | .upload job => { task with work := .upload { job with permit := true } }
  | _ => task

theorem Work.underWay_of_stage {job : Upload} (begun : job.stage ≠ .queued) :
    (Work.upload job).underWay := by
  obtain ⟨entry, path, completion, permit, stage⟩ := job
  cases stage with
  | queued => exact absurd rfl begun
  | _ => rfl

/-- An upload that waits for a load is under way. -/
theorem Work.underWay_of_load? {job : Upload} {target : EntryId × Load}
    (waits : (Work.upload job).load? = some target) : (Work.upload job).underWay := by
  refine underWay_of_stage fun queued => ?_
  simp [Work.load?, queued] at waits

namespace Cache

variable {cache after : Cache} {id task : TaskId} {held : Task} {work : Work} {job : Upload}
  {limit : Nat} {path : Path}

/-! ### Who holds a permit -/

def freePermits (cache : Cache) : Nat :=
  match cache.uploader with
  | .background state => state.free
  | .recording _ => 0

/-- The tasks in line for a permit. -/
def line (cache : Cache) : List TaskId :=
  match cache.uploader with
  | .background state => state.waiting
  | .recording _ => []

/-- How many permits tasks hold, aborted or not. -/
def permitsHeld (cache : Cache) : Nat := cache.tasks.countP fun item => item.2.holds

/-- How many uploads load, take their snapshot or write. -/
def uploadsUnderWay (cache : Cache) : Nat := cache.tasks.countP fun item => item.2.work.underWay

/-- All `limit` permits of the uploader are accounted for. -/
structure Permitted (limit : Nat) (cache : Cache) : Prop where
  distinct : cache.tasks.Pairwise fun left right => left.1 ≠ right.1
  total : cache.freePermits + cache.permitsHeld = limit
  busy : cache.line ≠ [] → cache.freePermits = 0
  once : cache.line.Nodup
  lacking : ∀ {id}, id ∈ cache.line →
    ∃ held, cache.task? id = some held ∧ held.work.permit? = some false
  begun : ∀ {id held}, cache.task? id = some held → held.work.underWay → held.holds

theorem holds_iff : held.holds ↔ held.work.permit? = some true := beq_iff_eq

theorem mem_of_task? (found : cache.task? id = some held) : (id, held) ∈ cache.tasks := by
  obtain ⟨⟨key, held⟩, first, rfl⟩ := Option.map_eq_some_iff.mp found
  obtain rfl : key = id := by simpa using List.find?_some first
  exact List.mem_of_find?_eq_some first

theorem Permitted.task?_of_mem (permitted : cache.Permitted limit) {item : TaskId × Task}
    (member : item ∈ cache.tasks) : cache.task? item.1 = some item.2 := by
  rw [task?, find?_of_mem permitted.distinct member, Option.map_some]

theorem not_mem_line (permitted : cache.Permitted limit) (found : cache.task? id = some held)
    (other : held.work.permit? ≠ some false) : id ∉ cache.line := by
  intro waits
  obtain ⟨waiting, present, lacks⟩ := permitted.lacking waits
  rw [found] at present
  cases present
  exact other lacks

/-! ### How the count moves -/

theorem permitsHeld_dropTask (permitted : cache.Permitted limit)
    (found : cache.task? id = some held) :
    (cache.dropTask id).permitsHeld + (if held.holds then 1 else 0) = cache.permitsHeld :=
  countP_without permitted.distinct
    (find?_of_mem permitted.distinct (mem_of_task? found)) Task.holds

theorem dropTask_of_absent (absent : cache.task? id = none) :
    (cache.dropTask id).tasks = cache.tasks := by
  refine List.filter_eq_self.mpr fun item member => ?_
  rw [task?, Option.map_eq_none_iff, List.find?_eq_none] at absent
  simpa using absent item member

theorem countP_modified {tasks : List (TaskId × Task)} {change : Task → Task}
    (apart : tasks.Pairwise fun left right => left.1 ≠ right.1)
    (found : tasks.find? (fun item => item.1 == id) = some (id, held)) (counts : Task → Bool) :
    (tasks.map fun item => if item.1 == id then (id, change item.2) else item).countP
          (fun item => counts item.2)
        + (if counts held then 1 else 0)
      = tasks.countP (fun item => counts item.2) + (if counts (change held) then 1 else 0) := by
  induction tasks with
  | nil => cases found
  | cons item tasks ih =>
      obtain ⟨first, rest⟩ := List.pairwise_cons.mp apart
      by_cases here : item.1 = id
      · obtain rfl : item = (id, held) := by simpa [here] using found
        have kept : (tasks.map fun item => if item.1 == id then (id, change item.2) else item)
            = tasks := by
          refine (List.map_congr_left fun item member => ?_).trans (List.map_id tasks)
          rw [if_neg (by simpa using Ne.symm (first item member)), id_eq]
        simp only [List.map_cons, beq_self_eq_true, if_true, kept, List.countP_cons]
        omega
      · have later : tasks.find? (fun item => item.1 == id) = some (id, held) := by
          simpa [here] using found
        have counted := ih rest later
        have elsewhere : (item.1 == id) = false := by simpa using here
        simp only [List.map_cons, elsewhere, Bool.false_eq_true, if_false, List.countP_cons]
        omega

theorem permitsHeld_modifyTask (permitted : cache.Permitted limit)
    (found : cache.task? id = some held) (change : Task → Task) :
    (cache.modifyTask id change).permitsHeld + (if held.holds then 1 else 0)
      = cache.permitsHeld + (if (change held).holds then 1 else 0) :=
  countP_modified permitted.distinct
    (find?_of_mem permitted.distinct (mem_of_task? found)) Task.holds

theorem modifyTask_of_absent {change : Task → Task} (absent : cache.task? id = none) :
    (cache.modifyTask id change).tasks = cache.tasks := by
  refine (List.map_congr_left fun item member => ?_).trans (List.map_id cache.tasks)
  rw [task?, Option.map_eq_none_iff, List.find?_eq_none] at absent
  rw [if_neg (absent item member), id_eq]

theorem distinct_modifyTask {change : Task → Task}
    (distinct : cache.tasks.Pairwise fun left right => left.1 ≠ right.1) :
    (cache.modifyTask id change).tasks.Pairwise fun left right => left.1 ≠ right.1 := by
  refine List.pairwise_map.mpr (distinct.imp fun {left right} apart => ?_)
  have named : ∀ item : TaskId × Task,
      (if item.1 == id then (id, change item.2) else item).1 = item.1 := by
    intro item
    split
    · rename_i here
      exact (beq_iff_eq.mp here).symm
    · rfl
  rw [named, named]
  exact apart

/-- Whoever got a permit has it. -/
theorem takePermit_granted {granted : Upload} (live : cache.live? id = some (.upload job))
    (given : (cache.takePermit id job).1 = some granted) :
    (cache.takePermit id job).2.live? id = some (.upload granted) ∧ granted.permit = true := by
  have found := live?_eq_some_iff.mp live
  unfold takePermit at given ⊢
  split at given
  · rename_i holds
    cases given
    rw [if_pos holds]
    exact ⟨live, holds⟩
  · rename_i refused
    rw [if_neg refused]
    split at given
    · cases given
    · rename_i state backed
      split at given
      · cases given
      · rename_i absent
        split at given
        · rename_i available
          cases given
          simp only [absent, available, Bool.false_eq_true, if_false, if_true]
          refine ⟨live?_eq_some_iff.mpr ?_, trivial⟩
          rw [setWork, task?_modifyTask, if_pos rfl]
          exact congrArg (Option.map _) found
        · cases given

namespace Permitted

/-! ### Single tasks -/

theorem congr (permitted : cache.Permitted limit) (tasks : after.tasks = cache.tasks)
    (free : after.freePermits = cache.freePermits) (line : after.line = cache.line) :
    after.Permitted limit where
  distinct := tasks ▸ permitted.distinct
  total := by rw [free, permitsHeld, tasks]; exact permitted.total
  busy := by rw [free, line]; exact permitted.busy
  once := line ▸ permitted.once
  lacking waits := by rw [task?_congr tasks]; exact permitted.lacking (line ▸ waits)
  begun found := permitted.begun ((task?_congr tasks).symm.trans found)

theorem of_sameWork (permitted : cache.Permitted limit) (same : SameWork cache after) :
    after.Permitted limit :=
  permitted.congr same.tasks (by rw [freePermits, freePermits, same.uploader])
    (by rw [line, line, same.uploader])

theorem emit (permitted : cache.Permitted limit) (event : Event) :
    (cache.emit event).Permitted limit :=
  permitted.congr rfl rfl rfl

theorem setPending (permitted : cache.Permitted limit) {state : Background}
    (backed : cache.uploader = .background state) (pending : PathMap TaskId) :
    Permitted limit { cache with uploader := .background { state with pending } } :=
  permitted.congr rfl (by simp only [freePermits, backed]) (by simp only [line, backed])

theorem wake (permitted : cache.Permitted limit) (id : TaskId) :
    (cache.wake id).Permitted limit :=
  permitted.congr tasks_wake (by rw [freePermits, freePermits, uploader_wake])
    (by rw [line, line, uploader_wake])

/-- A task that keeps its permit, or its want of one, may change otherwise. -/
theorem modifyTask {change : Task → Task} (permitted : cache.Permitted limit)
    (alike : ∀ held, cache.task? id = some held →
      (change held).work.permit? = held.work.permit? ∧
        ((change held).work.underWay → (change held).holds)) :
    (cache.modifyTask id change).Permitted limit where
  distinct := distinct_modifyTask permitted.distinct
  total := by
    have kept : (cache.modifyTask id change).permitsHeld = cache.permitsHeld := by
      cases found : cache.task? id with
      | none => rw [permitsHeld, permitsHeld, modifyTask_of_absent found]
      | some held =>
          have moved := permitsHeld_modifyTask permitted found change
          have same : (change held).holds = held.holds := by
            rw [Task.holds, Task.holds, (alike held found).1]
          rw [same] at moved
          exact Nat.add_right_cancel moved
    rw [kept]
    exact permitted.total
  busy := permitted.busy
  once := permitted.once
  lacking {other} waits := by
    obtain ⟨held, found, lacks⟩ := permitted.lacking waits
    rw [task?_modifyTask, found]
    split
    · rename_i here
      exact ⟨change held, rfl, (alike held (here ▸ found)).1.trans lacks⟩
    · exact ⟨held, rfl, lacks⟩
  begun {other next} found going := by
    rw [task?_modifyTask] at found
    split at found
    · rename_i here
      obtain ⟨held, present, rfl⟩ := Option.map_eq_some_iff.mp found
      exact (alike held (here ▸ present)).2 going
    · exact permitted.begun found going

theorem abort (permitted : cache.Permitted limit) (id : TaskId) :
    (cache.abort id).Permitted limit := by
  unfold Cache.abort
  split
  · have stopped : (cache.modifyTask id fun task => { task with aborted := true }).Permitted
        limit := permitted.modifyTask fun held found =>
      ⟨rfl, fun going => show held.holds from permitted.begun found going⟩
    exact stopped.wake id
  · exact permitted

theorem setWork (permitted : cache.Permitted limit) {aborted : Bool} {old : Work}
    (found : cache.task? id = some ⟨old, aborted⟩) (same : work.permit? = old.permit?)
    (begun : work.underWay → work.permit? = some true) :
    (cache.setWork id work).Permitted limit := by
  refine permitted.modifyTask fun held present => ?_
  rw [found] at present
  cases present
  exact ⟨same, fun going => holds_iff.mpr (begun going)⟩

/-- A new task holds nothing. -/
theorem spawn (permitted : cache.Permitted limit) (fresh : cache.Fresh)
    (bare : work.permit? ≠ some true) (idle : work.underWay = false) :
    (cache.spawn work).2.Permitted limit := by
  have absent := fresh cache.nextTask (Nat.le_refl _)
  have added : (cache.addTask work).2.Permitted limit := by
    refine ⟨?_, ?_, permitted.busy, permitted.once, fun {other} waits => ?_,
      fun {other next} found going => ?_⟩
    · refine List.pairwise_append.mpr ⟨permitted.distinct, List.pairwise_singleton _ _, ?_⟩
      intro item member new here same
      obtain rfl := List.mem_singleton.mp here
      have known := permitted.task?_of_mem member
      rw [show item.1 = cache.nextTask from same, absent] at known
      cases known
    · have same : (cache.addTask work).2.permitsHeld = cache.permitsHeld := by
        have none : (⟨work, false⟩ : Task).holds = false := by simpa [Task.holds] using bare
        simp [permitsHeld, addTask, List.countP_append, none]
      rw [same]
      exact permitted.total
    · obtain ⟨held, found, lacks⟩ := permitted.lacking waits
      refine ⟨held, ?_, lacks⟩
      rw [task?_addTask fresh, if_neg, found]
      rintro rfl
      rw [absent] at found
      cases found
    · rw [task?_addTask fresh] at found
      split at found
      · cases found
        rw [idle] at going
        cases going
      · exact permitted.begun found going
  exact added.wake _

/-! ### Tasks that go -/

theorem distinct_dropTask (permitted : cache.Permitted limit) :
    (cache.dropTask id).tasks.Pairwise fun left right => left.1 ≠ right.1 :=
  List.Pairwise.filter _ permitted.distinct

theorem lacking_dropTask (permitted : cache.Permitted limit) {other : TaskId}
    (waits : other ∈ cache.line) (apart : other ≠ id) :
    ∃ held, (cache.dropTask id).task? other = some held ∧ held.work.permit? = some false := by
  obtain ⟨held, found, lacks⟩ := permitted.lacking waits
  exact ⟨held, by rw [task?_dropTask, if_neg apart, found], lacks⟩

theorem begun_dropTask (permitted : cache.Permitted limit) {other : TaskId}
    (found : (cache.dropTask id).task? other = some held) (going : held.work.underWay) :
    held.holds := by
  rw [task?_dropTask] at found
  split at found
  · cases found
  · exact permitted.begun found going

/-- A task that is no upload has nothing to give back. -/
theorem dropTask (permitted : cache.Permitted limit)
    (other : ∀ held, cache.task? id = some held → held.work.permit? = none) :
    (cache.dropTask id).Permitted limit where
  distinct := permitted.distinct_dropTask
  total := by
    have same : (cache.dropTask id).permitsHeld = cache.permitsHeld := by
      cases found : cache.task? id with
      | none => rw [permitsHeld, permitsHeld, dropTask_of_absent found]
      | some held =>
          have moved := permitsHeld_dropTask permitted found
          have none : held.holds = false := by rw [Task.holds, other held found]; rfl
          rw [none] at moved
          exact moved
    rw [same]
    exact permitted.total
  busy := permitted.busy
  once := permitted.once
  lacking waits := by
    refine permitted.lacking_dropTask waits ?_
    rintro rfl
    obtain ⟨held, found, lacks⟩ := permitted.lacking waits
    rw [other held found] at lacks
    cases lacks
  begun := permitted.begun_dropTask

/-- With an upload that has its permit one permit goes. -/
theorem dropHolder (permitted : cache.Permitted limit) (found : cache.task? id = some held)
    (holds : held.holds) :
    ∃ fewer, limit = fewer + 1 ∧ (cache.dropTask id).Permitted fewer := by
  have moved := permitsHeld_dropTask permitted found
  have total := permitted.total
  rw [if_pos holds] at moved
  refine ⟨cache.freePermits + (cache.dropTask id).permitsHeld, by omega,
    permitted.distinct_dropTask, rfl, permitted.busy, permitted.once, fun {other} waits => ?_,
    permitted.begun_dropTask⟩
  refine permitted.lacking_dropTask waits ?_
  rintro rfl
  refine not_mem_line permitted found ?_ waits
  rw [holds_iff.mp holds]
  simp

/-- An upload in want of a permit gives up its place in line. -/
theorem dropWaiting (permitted : cache.Permitted limit) {state : Background}
    (backed : cache.uploader = .background state) (found : cache.task? id = some held)
    (lacks : held.work.permit? = some false) :
    Permitted limit { cache.dropTask id with
      uploader := .background { state with waiting := state.waiting.filter (· != id) } } := by
  have waiting : cache.line = state.waiting := by simp only [line, backed]
  have free : cache.freePermits = state.free := by simp only [freePermits, backed]
  refine ⟨permitted.distinct_dropTask, ?_, fun standing => ?_, ?_, fun {other} waits => ?_,
    permitted.begun_dropTask⟩
  · have moved := permitsHeld_dropTask permitted found
    have none : held.holds = false := by rw [Task.holds, lacks]; rfl
    rw [none] at moved
    have total := permitted.total
    rw [free, ← moved] at total
    exact total
  · refine free ▸ permitted.busy fun empty => standing ?_
    change state.waiting.filter (· != id) = []
    rw [← waiting, empty, List.filter_nil]
  · exact (waiting ▸ permitted.once).filter _
  · obtain ⟨before, apart⟩ := List.mem_filter.mp waits
    exact permitted.lacking_dropTask (waiting ▸ before) (by simpa using apart)

/-- A permit that nobody waits for is free. -/
theorem freed (permitted : cache.Permitted limit) {state : Background}
    (backed : cache.uploader = .background state) (empty : state.waiting = []) :
    Permitted (limit + 1) { cache with
      uploader := .background { state with free := state.free + 1 } } where
  distinct := permitted.distinct
  total := by
    have total := permitted.total
    simp only [freePermits, backed] at total
    change state.free + 1 + cache.permitsHeld = limit + 1
    omega
  busy standing := absurd empty standing
  once := by
    change state.waiting.Nodup
    rw [empty]
    exact List.nodup_nil
  lacking {id} waits := by
    change id ∈ state.waiting at waits
    rw [empty] at waits
    cases waits
  begun := permitted.begun

/-- A permit that somebody waits for goes to the first in line. -/
theorem granted (permitted : cache.Permitted limit) {state : Background} {first : TaskId}
    {rest : List TaskId} (backed : cache.uploader = .background state)
    (queue : state.waiting = first :: rest) :
    Permitted (limit + 1) (Cache.modifyTask
      { cache with uploader := .background { state with waiting := rest } } first .grant) := by
  have waiting : cache.line = first :: rest := by simp only [line, backed, queue]
  have free : cache.freePermits = state.free := by simp only [freePermits, backed]
  have taken : cache.freePermits = 0 := permitted.busy (by simp [waiting])
  obtain ⟨apart, once⟩ := List.nodup_cons.mp (waiting ▸ permitted.once)
  have waits : first ∈ cache.line := by simp [waiting]
  obtain ⟨⟨own, aborted⟩, found, lacks⟩ := permitted.lacking waits
  cases own with
  | transfer job => cases lacks
  | grace entry epoch due => cases lacks
  | upload job =>
      refine ⟨distinct_modifyTask permitted.distinct, ?_, fun _ => free ▸ taken, once,
        fun {other} waits => ?_, fun {other next} present going => ?_⟩
      · have moved := permitsHeld_modifyTask permitted found .grant
        have none : (⟨.upload job, aborted⟩ : Task).holds = false := by
          rw [Task.holds, lacks]
          rfl
        rw [none, if_neg Bool.false_ne_true] at moved
        have total := permitted.total
        rw [free] at total
        change state.free + (cache.modifyTask first .grant).permitsHeld = limit + 1
        rw [Nat.add_zero] at moved
        rw [moved, ← Nat.add_assoc, total]
        rfl
      · have later : other ≠ first := by
          rintro rfl
          exact apart waits
        have queued : other ∈ cache.line := waiting ▸ .tail _ waits
        obtain ⟨held, present, without⟩ := permitted.lacking queued
        exact ⟨held, by rw [task?_modifyTask, if_neg later]; exact present, without⟩
      · rw [task?_modifyTask] at present
        split at present
        · rename_i here
          subst here
          obtain ⟨held, known, rfl⟩ := Option.map_eq_some_iff.mp present
          cases found.symm.trans known
          rfl
        · exact permitted.begun present going

theorem returnPermit (permitted : cache.Permitted limit) (backed : cache.Backed) :
    cache.returnPermit.Permitted (limit + 1) := by
  obtain ⟨state, backed⟩ := backed
  cases queue : state.waiting with
  | nil =>
      have returned := permitted.freed backed queue
      simpa only [Cache.returnPermit, backed, queue] using returned
  | cons first rest =>
      have returned := (permitted.granted backed queue).wake first
      unfold Cache.returnPermit
      simp only [backed, queue]
      exact returned

theorem reap (permitted : cache.Permitted limit) (backed : cache.Backed) (id : TaskId) :
    (cache.reap id).Permitted limit := by
  unfold Cache.reap
  split
  · rename_i job aborted found
    simp only
    split
    · rename_i allowed
      have holds : (⟨.upload job, aborted⟩ : Task).holds :=
        holds_iff.mpr (congrArg some allowed)
      obtain ⟨fewer, rfl, dropped⟩ := permitted.dropHolder found holds
      exact dropped.returnPermit backed
    · rename_i refused
      obtain ⟨state, background⟩ := backed
      have without : (Work.upload job).permit? = some false := by simpa [Work.permit?] using refused
      split
      · rename_i own same
        cases background.symm.trans same
        exact permitted.dropWaiting background found without
      · rename_i pending same
        cases background.symm.trans same
  · rename_i other
    refine permitted.dropTask fun held found => ?_
    obtain ⟨own, aborted⟩ := held
    cases own with
    | upload job => exact absurd found (other job aborted)
    | transfer job => rfl
    | grace entry epoch due => rfl

/-! ### Uploads that are scheduled, cancelled or end -/

theorem schedule (permitted : cache.Permitted limit) (sound : cache.Sound) (entry : EntryId)
    (completion : Completion) : (cache.schedule entry completion).Permitted limit := by
  obtain ⟨state, backed⟩ := sound.backed
  have emitted := permitted.emit (.scheduled entry (cache.pathOf entry))
  have fresh := sound.fresh.emit (.scheduled entry (cache.pathOf entry))
  have uploader : (cache.emit (.scheduled entry (cache.pathOf entry))).uploader
      = .background state := backed
  unfold Cache.schedule
  simp only [uploader]
  generalize cache.emit (.scheduled entry (cache.pathOf entry)) = base
    at emitted fresh uploader
  cases state.pending.get? (cache.pathOf entry) with
  | none =>
      exact (emitted.spawn fresh (by simp [Work.permit?]) rfl).setPending
        (uploader_spawn.trans uploader) _
  | some earlier =>
      exact ((emitted.abort earlier).spawn (fresh.abort earlier) (by simp [Work.permit?])
        rfl).setPending (uploader_spawn.trans (uploader_abort.trans uploader)) _

theorem cancel (permitted : cache.Permitted limit) (backed : cache.Backed) (path : Path) :
    (cache.cancel path).2.Permitted limit := by
  obtain ⟨state, backed⟩ := backed
  unfold Cache.cancel
  simp only [backed]
  cases state.pending.get? path with
  | none => exact permitted.emit _
  | some upload => exact ((permitted.setPending backed _).abort upload).emit _

theorem complete (permitted : cache.Permitted limit) (fresh : cache.Fresh) (entry : EntryId)
    (completion : Completion) : (cache.complete entry completion).Permitted limit := by
  cases completion with
  | evict epoch => exact permitted.spawn fresh (by simp [Work.permit?]) rfl
  | notify tag => exact permitted.emit _

theorem unregister (permitted : cache.Permitted limit) (path : Path) :
    (cache.unregister path).Permitted limit := by
  unfold Cache.unregister
  split
  · rename_i state backed
    exact permitted.setPending backed _
  · exact permitted

theorem endUpload (permitted : cache.Permitted limit) (sound : cache.Sound) (id : TaskId)
    (job : Upload) : (cache.endUpload id job).Permitted limit := by
  by_cases registered : cache.pending.get? job.path = some id
  · rw [endUpload_of_registered sound.backed registered]
    exact ((permitted.unregister _).complete sound.fresh.unregister _ _).reap
      sound.backed.unregister.complete id
  · rw [endUpload_of_not_registered sound.backed registered]
    exact permitted.reap sound.backed id

theorem failUpload (permitted : cache.Permitted limit) (sound : cache.Sound) (id : TaskId)
    (job : Upload) (error : EntryError) : (cache.failUpload id job error).Permitted limit :=
  (permitted.emit _).endUpload (sound.emit _) id job

theorem foldl_abort (permitted : cache.Permitted limit) (items : PathMap TaskId) :
    (items.foldl (fun cache item => cache.abort item.2) cache).Permitted limit := by
  induction items generalizing cache with
  | nil => exact permitted
  | cons item items ih => exact ih (permitted.abort item.2)

theorem abandonUploads (permitted : cache.Permitted limit) (backed : cache.Backed) :
    cache.abandonUploads.Permitted limit := by
  obtain ⟨state, backed⟩ := backed
  have uploader : ∀ (items : PathMap TaskId) (base : Cache), base.uploader = .background state →
      (items.foldl (fun cache item => cache.abort item.2) base).uploader = .background state := by
    intro items
    induction items with
    | nil => exact fun _ same => same
    | cons item items ih => exact fun base same => ih _ (uploader_abort.trans same)
  have stopped := (permitted.foldl_abort state.pending).setPending
    (uploader state.pending cache backed) []
  unfold Cache.abandonUploads
  simp only [backed]
  split
  · exact stopped
  · exact stopped.emit _

/-! ### Background work -/

/-- A free permit is taken by an upload that has none. -/
theorem taken (permitted : cache.Permitted limit) {state : Background}
    (backed : cache.uploader = .background state) (available : 0 < state.free)
    (found : cache.task? id = some ⟨.upload job, false⟩) (refused : job.permit = false) :
    Permitted limit (Cache.setWork
      { cache with uploader := .background { state with free := state.free - 1 } } id
      (.upload { job with permit := true })) := by
  have waiting : cache.line = state.waiting := by simp only [line, backed]
  have free : cache.freePermits = state.free := by simp only [freePermits, backed]
  -- Nobody is in line while a permit is free.
  have empty : state.waiting = [] := Decidable.byContradiction fun standing => by
    have none := permitted.busy (waiting ▸ standing)
    omega
  refine ⟨distinct_modifyTask permitted.distinct, ?_, fun standing => absurd empty standing,
    ?_, fun {other} waits => ?_, fun {other next} present going => ?_⟩
  · have granted : (cache.setWork id (.upload { job with permit := true })).permitsHeld
        + (if (⟨.upload job, false⟩ : Task).holds then 1 else 0) = cache.permitsHeld + 1 :=
      permitsHeld_modifyTask permitted found _
    have none : (⟨.upload job, false⟩ : Task).holds = false := by
      simp [Task.holds, Work.permit?, refused]
    rw [none, if_neg Bool.false_ne_true, Nat.add_zero] at granted
    have total := permitted.total
    change state.free - 1 + (cache.setWork id (.upload { job with permit := true })).permitsHeld
      = limit
    omega
  · change state.waiting.Nodup
    rw [empty]
    exact List.nodup_nil
  · change other ∈ state.waiting at waits
    rw [empty] at waits
    cases waits
  · rw [Cache.setWork, task?_modifyTask] at present
    split at present
    · obtain ⟨held, -, rfl⟩ := Option.map_eq_some_iff.mp present
      rfl
    · exact permitted.begun present going

/-- When no permit is free an upload goes to the end of the line. -/
theorem queued (permitted : cache.Permitted limit) {state : Background}
    (backed : cache.uploader = .background state) (none : ¬ 0 < state.free)
    (absent : id ∉ state.waiting) (found : cache.task? id = some ⟨.upload job, false⟩)
    (refused : job.permit = false) :
    Permitted limit { cache with
      uploader := .background { state with waiting := state.waiting ++ [id] } } := by
  have waiting : cache.line = state.waiting := by simp only [line, backed]
  refine ⟨permitted.distinct, ?_, fun _ => Nat.eq_zero_of_not_pos none, ?_,
    fun {other} waits => ?_, permitted.begun⟩
  · have total := permitted.total
    simp only [freePermits, backed] at total
    exact total
  · change (state.waiting ++ [id]).Nodup
    refine List.nodup_append.mpr
      ⟨waiting ▸ permitted.once, by simp, fun other here own there => ?_⟩
    obtain rfl := List.mem_singleton.mp there
    rintro rfl
    exact absent here
  · rcases List.mem_append.mp waits with before | new
    · exact permitted.lacking (waiting ▸ before)
    · obtain rfl := List.mem_singleton.mp new
      exact ⟨_, found, congrArg some refused⟩

theorem takePermit (permitted : cache.Permitted limit)
    (live : cache.live? id = some (.upload job)) :
    (cache.takePermit id job).2.Permitted limit := by
  have found := live?_eq_some_iff.mp live
  unfold Cache.takePermit
  split
  · exact permitted
  · rename_i refused
    have refused : job.permit = false := by simpa using refused
    split
    · exact permitted
    · rename_i state backed
      split
      · exact permitted
      · rename_i absent
        split
        · rename_i available
          exact permitted.taken backed available found refused
        · rename_i none
          exact permitted.queued backed none (by simpa using absent) found refused

theorem beginUpload (permitted : cache.Permitted limit) (sound : cache.Sound)
    (live : cache.live? id = some (.upload job)) (holds : job.permit = true) :
    (cache.beginUpload id job).Permitted limit := by
  unfold Cache.beginUpload
  split
  · exact permitted.endUpload sound id job
  · split
    · split
      · exact permitted.failUpload sound id job _
      · exact permitted.setWork (live?_eq_some_iff.mp live) rfl fun _ => congrArg some holds
    · exact permitted.endUpload sound id job

theorem copies (permitted : cache.Permitted limit) (sound : cache.Sound)
    (live : cache.live? id = some (.upload job)) (holds : job.permit = true)
    (copies : Copies cache id job after) : after.Permitted limit := by
  have held := live?_eq_some_iff.mp live
  cases copies with
  | failed error => exact permitted.failUpload sound id job error
  | begins stage found stored => exact permitted.setWork held rfl fun _ => congrArg some holds
  | reads stage going source done => exact permitted.setWork held rfl fun _ => congrArg some holds
  | sends stage through =>
      have called : Permitted limit { cache with nextCall := cache.nextCall + 1 } :=
        permitted.congr rfl rfl rfl
      refine Permitted.emit (called.setWork held ?_ fun _ => ?_) _
      · rfl
      · exact congrArg some holds

/-- An upload that has begun has its permit. -/
theorem holds_of_live (permitted : cache.Permitted limit)
    (live : cache.live? id = some (.upload job)) (going : (Work.upload job).underWay) :
    job.permit = true := by
  have holds := permitted.begun (live?_eq_some_iff.mp live) going
  exact Option.some.inj (holds_iff.mp holds)

theorem advanceUpload (permitted : cache.Permitted limit) (sound : cache.Sound)
    (live : cache.live? id = some (.upload job)) :
    (cache.advanceUpload id job).Permitted limit := by
  unfold Cache.advanceUpload
  cases stage : job.stage with
  | queued =>
      have taken := permitted.takePermit live
      have sound' := (wanes_takePermit sound live).sound
      have granted := fun own => @takePermit_granted cache id job own live
      simp only
      generalize cache.takePermit id job = outcome at taken sound' granted
      obtain ⟨own, base⟩ := outcome
      cases own with
      | none => exact taken
      | some own =>
          obtain ⟨still, holds⟩ := granted own rfl
          exact taken.beginUpload sound' still holds
  | loading load =>
      have holds := permitted.holds_of_live live (Work.underWay_of_stage (by simp [stage]))
      simp only
      split
      · exact permitted
      · exact permitted.failUpload sound id job _
      · exact permitted.setWork (live?_eq_some_iff.mp live) rfl fun _ => congrArg some holds
  | loaded version =>
      have holds := permitted.holds_of_live live (Work.underWay_of_stage (by simp [stage]))
      exact permitted.copies sound live holds (copies_beginCopy stage)
  | copying version copy =>
      have holds := permitted.holds_of_live live (Work.underWay_of_stage (by simp [stage]))
      exact permitted.copies sound live holds (copies_copying stage)
  | sending version snapshot call => exact permitted

/-- Progress of a load moves no permit. -/
theorem setLoad (permitted : cache.Permitted limit) {target : EntryId × Load}
    (live : cache.live? id = some work) (waits : work.load? = some target) (load : Load) :
    (cache.setWork id (work.withLoad load)).Permitted limit := by
  have found := live?_eq_some_iff.mp live
  cases work with
  | transfer job => exact permitted.setWork found rfl fun going => by cases going
  | grace entry epoch due => exact permitted.setWork found rfl fun going => by cases going
  | upload job =>
      have holds := permitted.holds_of_live live (Work.underWay_of_load? waits)
      exact permitted.setWork found rfl fun _ => congrArg some holds

theorem advance (permitted : cache.Permitted limit) (sound : cache.Sound) (id : TaskId) :
    (cache.advance id).Permitted limit := by
  cases live : cache.live? id with
  | none =>
      unfold Cache.advance
      cases found : cache.task? id with
      | none => exact permitted
      | some held =>
          obtain ⟨own, aborted⟩ := held
          cases aborted with
          | true => exact permitted.reap sound.backed id
          | false =>
              rw [live?_eq_some_iff.mpr found] at live
              cases live
  | some work =>
      have found := live?_eq_some_iff.mp live
      have dropped : work.permit? = none → (cache.dropTask id).Permitted limit := fun other =>
        permitted.dropTask fun held present => by
          rw [found] at present
          cases present
          exact other
      rw [advance_of_live live]
      cases work with
      | transfer job =>
          simp only
          unfold Cache.advanceTransfer
          split
          · split
            · exact permitted.setWork found rfl fun going => by cases going
            · exact (dropped rfl).emit _
            · exact (dropped rfl).emit _
          · split
            · exact permitted
            · exact (dropped rfl).emit _
      | upload job => exact permitted.advanceUpload sound live
      | grace entry epoch due =>
          simp only
          split
          · refine (dropped rfl).of_sameWork ?_
            unfold evictIfIdle
            split
            · exact .refl _
            · split
              · exact ((SameWork.refl _).setMapped _).closeEntry _
              · exact .refl _
          · exact permitted

theorem act (permitted : cache.Permitted limit) (sound : cache.Sound) (action : Action) :
    (cache.act action).Permitted limit := by
  cases action with
  | advance id => exact permitted.advance sound id
  | tick milliseconds => exact permitted.congr rfl rfl rfl
  | request id i =>
      simp only [Cache.act, Cache.request, loadOf?_eq]
      cases live : cache.live? id with
      | none => exact permitted
      | some work =>
          cases waits : work.load? with
          | none => simpa [waits] using permitted
          | some target =>
              simp only [Option.bind_some, waits, Option.map_some]
              split
              · have called : Permitted limit { cache with nextCall := cache.nextCall + 1 } :=
                  permitted.congr rfl rfl rfl
                exact (called.setLoad live waits _).emit _
              · exact permitted
  | deliver id i reply =>
      simp only [Cache.act, Cache.deliver, loadOf?_eq]
      cases live : cache.live? id with
      | none => exact permitted
      | some work =>
          cases waits : work.load? with
          | none => simpa [waits] using permitted
          | some target =>
              simp only [Option.bind_some, waits, Option.map_some]
              split
              · exact permitted
              · rename_i entry known
                split
                · exact permitted
                · have stored := permitted.of_sameWork ((SameWork.refl cache).setEntry target.1
                    (target.2.receive i entry reply).2)
                  exact stored.setLoad live waits _
  | settle id result =>
      simp only [Cache.act, Cache.settle]
      split
      · rename_i job found
        split
        · rename_i version snapshot call stage
          split
          · exact permitted.failUpload sound id job _
          · have marked := permitted.of_sameWork ((((SameWork.refl cache).emit
              (.written job.entry job.path (snapshot.chunks copyStep))).modifyEntry job.entry
                fun entry => entry.markClean version).log .info "upload finished" none)
            exact marked.endUpload ⟨sound.fresh, sound.backed⟩ id job
        · exact permitted
      · exact permitted

/-! ### Calls by path and handle -/

theorem release (permitted : cache.Permitted limit) (sound : cache.Sound) (entry : EntryId) :
    (cache.release entry).Permitted limit := by
  have same := (SameWork.refl cache).releaseEntryHandle entry
  have given := permitted.of_sameWork same
  unfold Cache.release
  split
  · simp only
    split
    · exact given.schedule (same.sound sound) _ _
    · exact given
  · exact given

theorem openFile (permitted : cache.Permitted limit) (sound : cache.Sound) (path : Path)
    (flags : OpenFlags) (size : Nat) (modified : Modified) :
    (cache.openFile path flags size modified).2.Permitted limit := by
  have opens := opens_openFile cache path flags size modified
  have sound' := (wanes_prepared sound path flags).sound
  have prepared : Permitted limit (if flags.isWritable then (cache.cancel path).2 else cache) := by
    split
    · exact permitted.cancel sound.backed path
    · exact permitted
  generalize (if flags.isWritable then (cache.cancel path).2 else cache) = base
    at opens sound' prepared
  generalize (cache.openFile path flags size modified).2 = after at opens
  cases opens with
  | unmade unmapped => exact prepared
  | opened acquired keeps =>
      exact prepared.of_sameWork ((sameWork_acquired acquired).setHandles _ _)
  | emptied acquired wipes present done =>
      exact prepared.of_sameWork (((sameWork_acquired acquired).setEntry _ _).setHandles _ _)
  | refused acquired wipes closed =>
      have same := sameWork_acquired acquired
      exact (prepared.of_sameWork same).release (same.sound sound') _

theorem moveFile (permitted : cache.Permitted limit) (sound : cache.Sound)
    (source destination : Path) : (cache.moveFile source destination).2.Permitted limit := by
  have moves := moves_moveFile cache source destination
  have sound' := (wanes_moved sound source destination).sound
  have cancelled := (permitted.cancel sound.backed source).cancel
    (Wanes.cancel sound source).sound.backed destination
  generalize ((cache.cancel source).2.cancel destination).2 = base at moves sound' cancelled
  generalize (cache.moveFile source destination).2 = after at moves
  have placed := fun id => (SameWork.refl base).relocate source destination id
  cases moves with
  | same same => exact permitted
  | absent apart nowhere free => exact cancelled
  | discarded apart nowhere taken =>
      exact cancelled.of_sameWork (((SameWork.refl base).setMapped _).closeEntry _)
  | moved apart mapped idle => exact cancelled.of_sameWork (placed _)
  | rescheduled apart mapped hit =>
      exact (cancelled.of_sameWork (placed _)).schedule ((placed _).sound sound') _ _

theorem delete (permitted : cache.Permitted limit) (sound : cache.Sound) (path : Path) :
    (cache.delete path).Permitted limit := by
  have cancelled := permitted.cancel sound.backed path
  unfold Cache.delete
  simp only
  split
  · exact cancelled
  · exact cancelled.of_sameWork (((SameWork.refl _).setMapped _).closeEntry _)

theorem foldl_discard (permitted : cache.Permitted limit) (sound : cache.Sound)
    (doomed : PathMap EntryId) :
    (doomed.foldl (fun cache (key, id) => (cache.cancel key).2.closeEntry id)
      cache).Permitted limit := by
  induction doomed generalizing cache with
  | nil => exact permitted
  | cons item doomed ih =>
      have closed := (SameWork.refl (cache.cancel item.1).2).closeEntry item.2
      exact ih ((permitted.cancel sound.backed item.1).of_sameWork closed)
        (closed.sound (Wanes.cancel sound item.1).sound)

theorem deleteTree (permitted : cache.Permitted limit) (sound : cache.Sound) (path : Path) :
    (cache.deleteTree path).Permitted limit := by
  rw [deleteTree_eq]
  have same := (SameWork.refl cache).setMapped
    (cache.mapped.filter fun item => !decide (item.1.Within path))
  exact foldl_discard (permitted.of_sameWork same) (same.sound sound) _

end Permitted

/-! ### Steps and runs -/

theorem permitted_step (permitted : cache.Permitted limit) (sound : cache.Sound) (step : Step) :
    (cache.step step).Permitted limit := by
  have same := SameWork.refl cache
  cases step with
  | create path size modified => exact permitted.of_sameWork (same.allocate _ _ _)
  | transfer entry offset count reading =>
      simp only [Cache.step]
      split
      · exact permitted.spawn sound.fresh (by simp [Work.permit?]) rfl
      · exact permitted
  | giveUp task =>
      simp only [Cache.step]
      split
      · exact permitted.abort task
      · exact permitted
  | write entry offset data => exact permitted.of_sameWork (same.onEntry entry _)
  | truncate entry size => exact permitted.of_sameWork (same.onEntry entry _)
  | closeEntry entry => exact permitted.of_sameWork (same.closeEntry entry)
  | rename entry path => exact permitted.of_sameWork (same.modifyEntry entry _)
  | schedule entry tag =>
      simp only [Cache.step]
      split
      · exact permitted.schedule sound _ _
      · exact permitted
  | cancel path => exact permitted.cancel sound.backed path
  | openFile path flags size modified => exact permitted.openFile sound path flags size modified
  | closeHandle handle =>
      simp only [Cache.step, closeHandle]
      split
      · exact permitted.emit _
      · have without := same.setHandles
          (cache.handles.filter fun item => item.1 != handle) cache.counter
        exact (permitted.of_sameWork without).release (without.sound sound) _
  | moveFile source destination => exact permitted.moveFile sound source destination
  | delete path => exact permitted.delete sound path
  | deleteTree path => exact permitted.deleteTree sound path
  | act action => exact permitted.act sound action
  | dropUploader => exact permitted.abandonUploads sound.backed
  | loseScratch => exact permitted.congr rfl rfl rfl

theorem permitted_after (mount : Mount) (steps : Nat → Step) (n : Nat) :
    (mount.cache.after steps n).Permitted mount.config.maxUploads := by
  have initial : mount.cache.Permitted mount.config.maxUploads := by
    refine ⟨.nil, rfl, fun standing => absurd rfl standing, .nil, ?_, ?_⟩
    · rintro id ⟨⟩
    · rintro id held ⟨⟩
  exact after_induction initial (fun n permitted => permitted_step permitted
    (sound_after mount steps n) (steps n)) n

theorem uploadsUnderWay_le (permitted : cache.Permitted limit) :
    cache.uploadsUnderWay ≤ cache.permitsHeld :=
  List.countP_mono_left fun _ member going => permitted.begun (permitted.task?_of_mem member) going

/-- A permit that is held is held for an upload on record, or by an aborted task. -/
theorem held_of_permit (permitted : cache.Permitted limit) (enrolled : cache.Enrolled)
    {item : TaskId × Task} (member : item ∈ cache.tasks) (holds : item.2.holds) :
    item.2.aborted = true ∨ ∃ path, cache.pending.get? path = some item.1 := by
  have found := permitted.task?_of_mem member
  obtain ⟨id, work, aborted⟩ := item
  cases aborted with
  | true => exact .inl rfl
  | false =>
      have live : cache.live? id = some work := live?_eq_some_iff.mpr found
      cases work with
      | transfer job => cases holds
      | grace entry epoch due => cases holds
      | upload job => exact .inr ⟨_, enrolled.registered (upload?_of_live live)⟩

theorem problems_eq_nil_iff {config : Config} :
    config.problems = [] ↔
      1 ≤ config.maxUploads ∧ config.maxUploads ≤ Config.uploadLimit ∧
        config.path.isAbsolute := by
  rw [Config.problems, List.append_eq_nil_iff]
  by_cases none : config.maxUploads = 0
  · simp [none]
  · by_cases many : Config.uploadLimit < config.maxUploads
    · simp [none, many, Nat.not_le_of_lt many]
    · simp [none, many, Nat.one_le_iff_ne_zero, Nat.le_of_not_lt many]

/-- Only a configuration that passes its check makes a mount. -/
theorem problems_of_create [Host] {disk claimed : Disk} {config : Config} {mount : Mount}
    (created : Mount.create disk config = (.ok mount, claimed)) : mount.config.problems = [] := by
  unfold Mount.create at created
  split at created
  · cases created
  · rename_i checked valid
    split at created
    · cases created
    · cases created
      unfold Config.validated at valid
      split at valid
      · rename_i clean
        cases valid
        exact clean
      · cases valid

/-- Whatever was scheduled, superseded, cancelled, failed or completed, the permits that are free
and those that tasks hold are as many as the configuration allows, aborted tasks included until
they are reaped.  So no more uploads are under way than that; nobody waits while a permit is free;
and with no upload on record and no aborted one left, all permits are free. -/
theorem permits_conserved [Host] {disk claimed : Disk} {config : Config} {mount : Mount}
    (created : Mount.create disk config = (.ok mount, claimed)) (steps : Nat → Step) (n : Nat) :
    1 ≤ mount.config.maxUploads ∧ mount.config.maxUploads ≤ Config.uploadLimit ∧
    ∃ state, (mount.cache.after steps n).uploader = .background state ∧
      state.free + (mount.cache.after steps n).permitsHeld = mount.config.maxUploads ∧
      (mount.cache.after steps n).uploadsUnderWay ≤ (mount.cache.after steps n).permitsHeld ∧
      (mount.cache.after steps n).uploadsUnderWay ≤ mount.config.maxUploads ∧
      (state.waiting ≠ [] → state.free = 0) ∧
      (state.pending = [] →
        (∀ item ∈ (mount.cache.after steps n).tasks,
          item.2.aborted = true → item.2.work.permit? = none) →
        state.free = mount.config.maxUploads) := by
  obtain ⟨one, bounded, -⟩ := problems_eq_nil_iff.mp (problems_of_create created)
  have permitted := permitted_after mount steps n
  have enrolled := enrolled_after mount steps n
  obtain ⟨state, backed⟩ := (sound_after mount steps n).backed
  have total := permitted.total
  have free : (mount.cache.after steps n).freePermits = state.free := by rw [freePermits, backed]
  have busy := permitted.busy
  rw [free] at total busy
  have underWay := uploadsUnderWay_le permitted
  refine ⟨one, bounded, state, backed, total, underWay, by omega, ?_, fun idle reaped => ?_⟩
  · simpa only [line, backed] using busy
  · have pending : (mount.cache.after steps n).pending = [] :=
      (pending_of_background backed).trans idle
    have unheld : (mount.cache.after steps n).permitsHeld = 0 := by
      refine List.countP_eq_zero.mpr fun item member holds => ?_
      rcases held_of_permit permitted enrolled member holds with aborted | ⟨path, registered⟩
      · have given := holds_iff.mp holds
        rw [reaped item member aborted] at given
        cases given
      · rw [pending] at registered
        cases registered
    omega

/-- What is mounted when only one upload may run at a time, on a disk that is empty. -/
def soleUpload : Mount where
  config := { path := ⟨[47]⟩, maxUploads := 1 }
  scratch := ⟨[[109, 111, 117, 110, 116, 45, 100, 100, 101, 115, 107, 112, 105]], 3⟩

/-- The upload that holds the permit is cancelled while another waits for it; then that one is
cancelled as well, and both are reaped. -/
def cancelledWhileSending : List Step :=
  [.create ⟨[97]⟩ 0 .now, .write 0 0 [1], .schedule 0 "first",
    .create ⟨[98]⟩ 0 .now, .write 1 0 [2], .schedule 1 "second",
    .act (.advance 0), .act (.advance 0), .act (.advance 1), .cancel ⟨[97]⟩,
    .act (.advance 0), .cancel ⟨[98]⟩, .act (.advance 1)]

theorem cancelled_uploads_return :
    (Mount.create {} soleUpload.config).1 = .ok soleUpload ∧
    ((soleUpload.cache.after (scripted cancelledWhileSending) 10).line = [1] ∧
      (soleUpload.cache.after (scripted cancelledWhileSending) 10).permitsHeld = 1) ∧
    ((soleUpload.cache.after (scripted cancelledWhileSending) 13).tasks = [] ∧
      ∃ state, (soleUpload.cache.after (scripted cancelledWhileSending) 13).uploader
          = .background state ∧ state.free = 1) := by
  have created : (Mount.create {} soleUpload.config).1 = .ok soleUpload := by cbv
  have claimed : Mount.create {} soleUpload.config
      = (.ok soleUpload, (Mount.create {} soleUpload.config).2) := Prod.ext created rfl
  have reaped : (soleUpload.cache.after (scripted cancelledWhileSending) 13).tasks = [] := by cbv
  refine ⟨created, ⟨by cbv, by cbv⟩, reaped, ?_⟩
  obtain ⟨-, -, state, backed, -, -, -, -, regained⟩ :=
    permits_conserved claimed (scripted cancelledWhileSending) 13
  refine ⟨state, backed, regained ?_ fun item member => ?_⟩
  · exact (pending_of_background backed).symm.trans (by cbv)
  · rw [reaped] at member
    cases member

end Cache

end SparseCache
