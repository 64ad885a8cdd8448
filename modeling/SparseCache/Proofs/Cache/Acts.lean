import SparseCache.Proofs.Cache.Record
import SparseCache.Proofs.Cache.Registrations

namespace SparseCache

/-! The three things that a piece of background work may come to: some task goes on, an
upload ends, or a timer fires.
-/

theorem Work.Onward.upload?_eq {old new : Work} (onward : old.Onward new) :
    new.upload? = old.upload? := by
  cases onward <;> rfl

namespace Cache

variable {cache base before middle after : Cache} {id : EntryId} {entry : Entry}
  {task upload : TaskId} {job : Upload} {epoch due : Nat}

/-- The same is mapped, on record and timed, and the same uploads go on. -/
structure Steady (before after : Cache) : Prop extends Quiet before after where
  uploads : ∀ task, after.upload? task = before.upload? task
  later : before.nextTask ≤ after.nextTask

namespace Steady

theorem of_sameWork (same : SameWork before after) (mapped : after.mapped = before.mapped)
    (entries : Keeps before after) : Steady before after where
  toQuiet := .of_sameWork same mapped entries
  uploads _ := upload?_congr same.doing?
  later := Nat.le_of_eq same.nextTask.symm

theorem refl (cache : Cache) : Steady cache cache := of_sameWork (.refl cache) rfl (.refl cache)

theorem trans (first : Steady before middle) (second : Steady middle after) :
    Steady before after where
  toQuiet := first.toQuiet.trans second.toQuiet
  uploads task := (second.uploads task).trans (first.uploads task)
  later := Nat.le_trans first.later second.later

theorem emit (steady : Steady before after) (event : Event) : Steady before (after.emit event) :=
  steady.trans (.of_sameWork ((SameWork.refl after).emit event) rfl (.of_entries rfl))

theorem closeEntry (cache : Cache) (id : EntryId) : Steady cache (cache.closeEntry id) :=
  .of_sameWork ((SameWork.refl cache).closeEntry id) (SameTables.closeEntry cache id).mapped
    (.closeEntry cache id)

/-- A task goes on with its job. -/
theorem setWork {old new : Work} (doing : cache.doing? task = some old)
    (onward : old.Onward new.bare) : Steady cache (cache.setWork task new) where
  toQuiet := .setWork doing onward
  uploads _ := upload?_setWork doing (by rw [← Work.upload?_bare new, onward.upload?_eq])
  later := Nat.le_refl _

/-- A task that is neither an upload nor a timer may stop. -/
theorem stopped (same : SameStore before after) (pending : after.pending = before.pending)
    (number : after.nextTask = before.nextTask)
    (doing : ∀ other, after.doing? other = if other = task then none else before.doing? other)
    (idle : ∀ work, before.doing? task = some work → ∃ job, work = .transfer job) :
    Steady before after where
  toQuiet := by
    refine .stopped same pending doing (fun _ working => ?_) fun _ _ ⟨_, timer⟩ => ?_
    · obtain ⟨_, other⟩ := idle _ working
      cases other
    · obtain ⟨_, other⟩ := idle _ timer
      cases other
  uploads other := by
    rw [upload?, doing]
    split
    · rename_i here
      rw [here, upload?]
      cases working : before.doing? task with
      | none => rfl
      | some work =>
          obtain ⟨_, rfl⟩ := idle work working
          rfl
    · rfl
  later := Nat.le_of_eq number.symm

/-- A new task that is neither an upload nor a timer joins the others. -/
theorem spawn (sound : cache.Sound) (job : Transfer) :
    Steady cache (cache.spawn (.transfer job)).2 where
  mapped := ((SameStore.refl cache).spawn _).mapped
  entries := .of_entries ((SameStore.refl cache).spawn _).entries
  pending := by simp only [Cache.pending, uploader_spawn]
  doing {_ task held} _ doing := by
    have earlier := Nat.ne_of_lt (lt_nextTask_of_doing? sound.fresh doing)
    exact ⟨held.stage, (doing?_spawn sound.fresh).trans ((if_neg earlier).trans doing)⟩
  times {task id epoch} := by
    simp only [Times, doing?_spawn sound.fresh]
    split
    · rename_i new
      rw [new, sound.fresh.doing? (Nat.le_refl _)]
      simp [Work.bare]
    · exact Iff.rfl
  uploads task := by
    rw [upload?, doing?_spawn sound.fresh]
    split
    · rename_i new
      rw [new, sound.fresh.upload? (Nat.le_refl _)]
      rfl
    · rfl
  later := by
    rw [nextTask_spawn]
    exact Nat.le_succ _

theorem takePermit (sound : cache.Sound) (live : cache.live? upload = some (.upload job)) :
    Steady cache (cache.takePermit upload job).2 := by
  have same := doing?_takePermit live
  have store := (SameStore.refl cache).takePermit upload job
  exact ⟨⟨store.mapped, .of_entries store.entries, pending_takePermit cache upload job,
    fun {_ task job} _ doing => ⟨job.stage, (same task).trans doing⟩,
    fun {task _ _} => by rw [Times, Times, same task]⟩, fun task => upload?_congr (same task),
    (wanes_takePermit sound live).later⟩

theorem giveUp (cache : Cache) (task : TaskId) : Steady cache (cache.step (.giveUp task)) := by
  simp only [Cache.step]
  split
  · rename_i job aborted held
    refine .stopped ((SameStore.refl cache).abort task) ?_ nextTask_abort
      (fun _ => doing?_abort) fun work doing => ?_
    · simp only [Cache.pending, uploader_abort]
    · rw [doing?_eq_bind, held, Option.bind_some, Task.doing?] at doing
      split at doing
      · cases doing
      · cases doing
        exact ⟨job, rfl⟩
  · exact .refl cache

end Steady

/-- The step is about an entry or a transfer by itself. -/
def Step.plain : Step → Bool
  | .create .. | .transfer .. | .giveUp _ | .write .. | .truncate .. | .closeEntry _
  | .loseScratch => true
  | _ => false

theorem Steady.step (sound : cache.Sound) {step : Step} (plain : step.plain = true) :
    Steady cache (cache.step step) := by
  have same := SameWork.refl cache
  cases step with
  | create path size modified =>
      exact .of_sameWork (same.allocate _ _ _) (SameTables.allocate _ _ _ _).mapped
        (.allocate _ _ _ _)
  | transfer id offset count reading =>
      simp only [Cache.step]
      split
      · exact .spawn sound _
      · exact .refl cache
  | giveUp task => exact .giveUp cache task
  | write id offset data =>
      refine .of_sameWork (same.onEntry _ _) (SameTables.onEntry _ _ _).mapped
        (.onEntry _ _ _ fun entry result next done => ?_)
      obtain ⟨_, -, -, rfl⟩ := Entry.write_ok done
      exact ⟨rfl, rfl, rfl⟩
  | truncate id size =>
      refine .of_sameWork (same.onEntry _ _) (SameTables.onEntry _ _ _).mapped
        (.onEntry _ _ _ fun entry result next done => ?_)
      obtain ⟨_, -, -, rfl⟩ := Entry.truncate_ok (Entry.truncate_of_map done)
      exact ⟨rfl, rfl, rfl⟩
  | closeEntry id => exact .closeEntry cache id
  | loseScratch => exact .of_sameWork ⟨rfl, rfl, rfl, rfl, rfl⟩ rfl (.of_entries rfl)
  | _ => cases plain

/-- What becomes of a cache by one piece of background work. -/
inductive Acts (cache : Cache) (action : Action) : Cache → Prop
  | steady {after : Cache} (steady : Steady cache after) (silent : after.record = cache.record) :
      Acts cache action after
  | ended {base : Cache} {upload : TaskId} {job : Upload} (steady : Steady cache base)
      (sound : base.Sound)
      (working : base.doing? upload = some (.upload { job with permit := false }))
      (ends : Ends cache upload { job with permit := false } (.act action))
      (told : base.record = cache.record ∨
        ∃ version snapshot, cache.Stores (.act action) upload job version snapshot ∧
          base.record
            = cache.record ++ [.written job.entry job.path (snapshot.chunks copyStep)])
      (before : cache.doing? upload = some (.upload { job with permit := false })) :
      Acts cache action (base.endUpload upload job)
  | expired {task : TaskId} {id : EntryId} {epoch due : Nat}
      (timer : cache.doing? task = some (.grace id epoch due)) :
      Acts cache action ((cache.dropTask task).evictIfIdle id epoch)

namespace Acts

variable {action : Action}

theorem failed {error : EntryError} (steady : Steady cache base) (sound : base.Sound)
    (working : base.doing? upload = some (.upload { job with permit := false }))
    (before : cache.doing? upload = some (.upload { job with permit := false }))
    (events : base.events = cache.events) (own : Step.Drives upload (.act action))
    (stepped : cache.step (.act action) = base.failUpload upload job error) :
    Acts cache action (base.failUpload upload job error) := by
  obtain ⟨more, extended, -⟩ := events_failUpload base upload job error
  have logged : Logged cache (cache.step (.act action)) .error "upload failed" :=
    ⟨error.message?, more, by rw [stepped, extended, events]⟩
  exact .ended (steady.emit _) (sound.emit _) working (.failed own logged)
    (.inl (record_failed.trans (record_congr events))) before

theorem advanceTransfer {job : Transfer} (working : cache.doing? task = some (.transfer job)) :
    Acts cache action (cache.advanceTransfer task job) := by
  have ended : ∀ {result}, Acts cache action (cache.endTransfer task result) := by
    intro result
    refine .steady (.stopped (((SameStore.refl cache).dropTask task).emit _) rfl rfl
      (fun _ => doing?_dropTask) fun work doing => ⟨job, ?_⟩) (record_emit_quiet rfl)
    rw [working] at doing
    exact (Option.some.inj doing).symm
  unfold Cache.advanceTransfer
  split
  · split
    · exact .steady (.setWork working .transfer) rfl
    · exact ended
    · exact ended
  · split
    · exact .steady (.refl cache) rfl
    · exact ended

theorem beginUpload (steady : Steady cache base) (sound : base.Sound)
    (working : base.doing? upload = some (.upload { job with permit := false }))
    (before : cache.doing? upload = some (.upload { job with permit := false }))
    (store : SameStore cache base) (events : base.events = cache.events)
    (queued : job.stage = .queued)
    (stepped : cache.step (.act (.advance upload)) = base.beginUpload upload job) :
    Acts cache (.advance upload) (base.beginUpload upload job) := by
  have silent := record_congr events
  unfold Cache.beginUpload at stepped ⊢
  cases found : base.entry? job.entry with
  | none =>
      refine .ended steady sound working (.unchanged queued fun entry present => ?_) (.inl silent)
        before
      rw [← store.lookup, found] at present
      cases present
  | some entry =>
      simp only [found] at stepped ⊢
      cases dirty : entry.isDirty with
      | true =>
          simp only [dirty, if_true] at stepped ⊢
          cases started : Load.start entry 0 everything with
          | error error =>
              simp only [started] at stepped ⊢
              exact .failed steady sound working before events rfl stepped
          | ok load => exact .steady (steady.trans (.setWork working .upload)) silent
      | false =>
          refine .ended steady sound working (.unchanged queued fun other present => ?_)
            (.inl silent) before
          rw [← store.lookup, found] at present
          cases present
          exact dirty

theorem copies (sound : cache.Sound)
    (working : cache.doing? upload = some (.upload { job with permit := false }))
    (stepped : cache.step (.act (.advance upload)) = after)
    (copies : Copies cache upload job after) : Acts cache (.advance upload) after := by
  cases copies with
  | failed error => exact .failed (.refl cache) sound working working rfl rfl stepped
  | begins stage found stored => exact .steady (.setWork working .upload) rfl
  | reads stage going source done => exact .steady (.setWork working .upload) rfl
  | sends stage through =>
      have called : Steady cache { cache with nextCall := cache.nextCall + 1 } :=
        .of_sameWork ⟨rfl, rfl, rfl, rfl, rfl⟩ rfl (.of_entries rfl)
      exact .steady ((called.trans (.setWork working .upload)).emit _) (record_emit_quiet rfl)

theorem advanceUpload (sound : cache.Sound) (live : cache.live? upload = some (.upload job)) :
    Acts cache (.advance upload) (cache.advanceUpload upload job) := by
  have working : cache.doing? upload = some (.upload { job with permit := false }) :=
    doing?_of_live live
  have stepped : cache.step (.act (.advance upload)) = cache.advanceUpload upload job :=
    advance_of_live live
  unfold Cache.advanceUpload at stepped ⊢
  cases stage : job.stage with
  | queued =>
      simp only [stage] at stepped ⊢
      have taken := Steady.takePermit sound live
      have same := doing?_takePermit live upload
      have wanes := wanes_takePermit sound live
      have store := (SameStore.refl cache).takePermit upload job
      have events := events_takePermit cache upload job
      have given := fun granted => @takePermit_some cache upload job granted
      generalize cache.takePermit upload job = outcome
        at taken same wanes store events given stepped
      obtain ⟨granted, base⟩ := outcome
      cases granted with
      | none => exact .steady taken (record_congr events)
      | some granted =>
          have alike : { granted with permit := false } = { job with permit := false } := by
            rcases given granted rfl with rfl | rfl <;> rfl
          refine .beginUpload taken wanes.sound ?_ ?_ store events ?_ stepped
          · rw [alike]
            exact same.trans working
          · rw [alike]
            exact working
          · exact (congrArg Upload.stage alike).trans stage
  | loading load =>
      simp only [stage] at stepped ⊢
      split
      · exact .steady (.refl cache) rfl
      · rename_i error failed
        simp only [failed] at stepped
        exact .failed (.refl cache) sound working working rfl rfl stepped
      · exact .steady (.setWork working .upload) rfl
  | loaded version =>
      simp only [stage] at stepped ⊢
      exact .copies sound working stepped (copies_beginCopy stage)
  | copying version copy =>
      simp only [stage] at stepped ⊢
      exact .copies sound working stepped (copies_copying stage)
  | sending version snapshot call => exact .steady (.refl cache) rfl

theorem advance (sound : cache.Sound) (task : TaskId) :
    Acts cache (.advance task) (cache.advance task) := by
  unfold Cache.advance
  cases held : cache.task? task with
  | none => exact .steady (.refl cache) rfl
  | some item =>
      obtain ⟨work, aborted⟩ := item
      cases aborted with
      | true =>
          have stopped : cache.doing? task = none := by simp [doing?, live?, held]
          refine .steady (.stopped ((SameStore.refl cache).reap task) pending_reap nextTask_reap
            (fun _ => doing?_reap) fun work doing => ?_) (record_congr events_reap)
          rw [stopped] at doing
          cases doing
      | false =>
          have live : cache.live? task = some work := live?_eq_some_iff.mpr held
          simp only [Bool.false_eq_true, if_false]
          cases work with
          | transfer job => exact .advanceTransfer (doing?_of_live live)
          | upload job => exact .advanceUpload sound live
          | grace id epoch due =>
              simp only
              split
              · exact .expired (doing?_of_live live)
              · exact .steady (.refl cache) rfl

theorem request (cache : Cache) (task : TaskId) (i : Nat) :
    Acts cache action (cache.request task i) := by
  unfold Cache.request
  rw [loadOf?_eq]
  cases live : cache.live? task with
  | none => exact .steady (.refl cache) rfl
  | some work =>
      cases waits : work.load? with
      | none => simpa [waits] using Acts.steady (.refl cache) rfl
      | some target =>
          obtain ⟨id, load⟩ := target
          simp only [Option.bind_some, waits, Option.map_some]
          split
          · have onward : work.bare.Onward (work.withLoad (load.ask i cache.nextCall)).bare := by
              rw [Work.bare_withLoad]
              exact Work.onward_withLoad ((Work.load?_bare work).trans waits)
            have called : Steady cache { cache with nextCall := cache.nextCall + 1 } :=
              .of_sameWork ⟨rfl, rfl, rfl, rfl, rfl⟩ rfl (.of_entries rfl)
            exact .steady ((called.trans (.setWork (doing?_of_live live) onward)).emit _)
              (record_emit_quiet rfl)
          · exact .steady (.refl cache) rfl

theorem deliver (cache : Cache) (task : TaskId) (i : Nat) (reply : Reply) :
    Acts cache action (cache.deliver task i reply) := by
  unfold Cache.deliver
  rw [loadOf?_eq]
  cases live : cache.live? task with
  | none => exact .steady (.refl cache) rfl
  | some work =>
      cases waits : work.load? with
      | none => simpa [waits] using Acts.steady (.refl cache) rfl
      | some target =>
          obtain ⟨id, load⟩ := target
          simp only [Option.bind_some, waits, Option.map_some]
          cases found : cache.entry? id with
          | none => exact .steady (.refl cache) rfl
          | some entry =>
              simp only
              split
              · exact .steady (.refl cache) rfl
              · have onward :
                    work.bare.Onward (work.withLoad (load.receive i entry reply).1).bare := by
                  rw [Work.bare_withLoad]
                  exact Work.onward_withLoad ((Work.load?_bare work).trans waits)
                have stored : Steady cache (cache.setEntry id (load.receive i entry reply).2) := by
                  obtain ⟨_, _, filled⟩ := load.receive_entry i entry reply
                  rw [filled]
                  exact .of_sameWork ((SameWork.refl cache).setEntry id _) rfl
                    (.setEntry found rfl rfl fun idle => idle)
                exact .steady (stored.trans (.setWork (doing?_of_live live) onward)) rfl

theorem settle (sound : cache.Sound) (task : TaskId) (result : Except RemoteError Unit) :
    Acts cache (.settle task result) (cache.settle task result) := by
  generalize stepped : cache.settle task result = after
  have step_eq : cache.step (.act (.settle task result)) = after := stepped
  unfold Cache.settle at stepped
  split at stepped
  · rename_i job held
    have live : cache.live? task = some (.upload job) := live?_eq_some_iff.mpr held
    have working : cache.doing? task = some (.upload { job with permit := false }) :=
      doing?_of_live live
    split at stepped
    · rename_i version snapshot call stage
      cases result with
      | error cause =>
          subst stepped
          exact .failed (.refl cache) sound working working rfl rfl step_eq
      | ok _ =>
          subst stepped
          have told := (Steady.refl cache).emit
            (.written job.entry job.path (snapshot.chunks copyStep))
          have marked := told.trans (.of_sameWork
            ((SameWork.refl _).modifyEntry job.entry fun entry => entry.markClean version) rfl
            (.modifyEntry _ _ fun entry => ⟨rfl, rfl, fun idle => idle⟩))
          refine .ended (marked.emit _) ⟨sound.fresh, sound.backed⟩ working (.stored stage)
            (.inr ⟨version, snapshot, ⟨rfl, live, call, stage⟩, ?_⟩) working
          refine (record_emit_quiet (by simp [Event.loud])).trans ?_
          exact record_emit rfl
    · subst stepped
      exact .steady (.refl cache) rfl
  · subst stepped
    exact .steady (.refl cache) rfl

end Acts

theorem acts_act (sound : cache.Sound) (action : Action) :
    Acts cache action (cache.act action) := by
  cases action with
  | advance task => exact .advance sound task
  | request task i => exact .request cache task i
  | deliver task i reply => exact .deliver cache task i reply
  | settle task result => exact .settle sound task result
  | tick milliseconds =>
      exact .steady ⟨⟨rfl, .of_entries rfl, rfl, fun {_ _ job} _ doing => ⟨job.stage, doing⟩,
        Iff.rfl⟩, fun _ => rfl, Nat.le_refl _⟩ rfl

end Cache

end SparseCache
