import SparseCache.PathMap.Lemmas
import SparseCache.Proofs.Cache.Courses

namespace SparseCache.Cache

/-! What a run keeps: tasks have numbers of their own, and nothing refers to an
entry that was never made. -/

variable {cache before middle after : Cache} {id : EntryId} {task : TaskId} {work : Work}
  {step : Step} {path : Path}

/-! ### Numbers and the kind of uploader -/

theorem Sound.failUpload (sound : cache.Sound) (task : TaskId) (job : Upload)
    (error : EntryError) : (cache.failUpload task job error).Sound :=
  (sound.emit _).endUpload task job

theorem Sound.beginUpload (sound : cache.Sound) (task : TaskId) (job : Upload) :
    (cache.beginUpload task job).Sound := by
  unfold Cache.beginUpload
  split
  · exact sound.endUpload _ _
  · split
    · split
      · exact sound.failUpload _ _ _
      · exact sound.setWork _ _
    · exact sound.endUpload _ _

theorem Sound.modifyEntry (sound : cache.Sound) (id : EntryId) (change : Entry → Entry) :
    (cache.modifyEntry id change).Sound :=
  ((SameWork.refl cache).modifyEntry id change).sound sound

theorem Sound.setNextCall (sound : cache.Sound) (nextCall : CallId) :
    Sound { cache with nextCall } :=
  ⟨sound.fresh, sound.backed⟩

theorem Sound.copies (sound : cache.Sound) {job : Upload} {after : Cache}
    (copies : Copies cache task job after) : after.Sound := by
  cases copies with
  | failed error => exact sound.failUpload _ _ _
  | begins stage found stored => exact sound.setWork _ _
  | reads stage going source done => exact sound.setWork _ _
  | sends stage through => exact ((sound.setNextCall _).setWork _ _).emit _

theorem Sound.advanceUpload (sound : cache.Sound) {job : Upload}
    (live : cache.live? task = some (.upload job)) : (cache.advanceUpload task job).Sound := by
  unfold Cache.advanceUpload
  split
  · have taken := (wanes_takePermit sound live).sound
    split
    · rename_i waiting
      rwa [waiting] at taken
    · rename_i granted
      rw [granted] at taken
      exact taken.beginUpload _ _
  · split
    · exact sound
    · exact sound.failUpload _ _ _
    · exact sound.setWork _ _
  · exact sound.copies (copies_beginCopy ‹_›)
  · exact sound.copies (copies_copying ‹_›)
  · exact sound

theorem Sound.advance (sound : cache.Sound) (task : TaskId) : (cache.advance task).Sound := by
  unfold Cache.advance
  split
  · exact sound
  · rename_i item held
    split
    · exact (Wanes.reap sound task).sound
    · rename_i going
      have alive : item.aborted = false := by simpa using going
      have live : cache.live? task = some item.work :=
        live?_eq_some_iff.mpr (by rw [held, ← alive])
      split
      · exact sound_advanceTransfer sound _
      · rename_i job own
        exact sound.advanceUpload (own ▸ live)
      · split
        · have dropped := Wanes.dropTask sound task
          exact (Wanes.evictIfIdle dropped.sound _ _).sound
        · exact sound

theorem Sound.act (sound : cache.Sound) (action : Action) : (cache.act action).Sound := by
  cases action with
  | advance task => exact sound.advance task
  | request task i =>
      simp only [Cache.act, Cache.request]
      split
      · exact sound
      · split
        · exact ((sound.setNextCall _).setWork _ _).emit _
        · exact sound
  | deliver task i reply =>
      simp only [Cache.act, Cache.deliver]
      split
      · exact sound
      · split
        · exact sound
        · split
          · exact sound
          · exact (((SameWork.refl cache).setEntry _ _).sound sound).setWork _ _
  | settle task result =>
      simp only [Cache.act, Cache.settle]
      split
      · split
        · split
          · exact sound.failUpload _ _ _
          · exact (((sound.emit _).modifyEntry _ _).emit _).endUpload _ _
        · exact sound
      · exact sound
  | tick milliseconds => exact ⟨sound.fresh, sound.backed⟩

theorem Sound.openFile (sound : cache.Sound) (path : Path) (flags : OpenFlags) (size : Nat)
    (modified : Modified) : (cache.openFile path flags size modified).2.Sound := by
  have opens := opens_openFile cache path flags size modified
  have wanes := wanes_prepared sound path flags
  generalize (if flags.isWritable then (cache.cancel path).2 else cache) = base at opens wanes
  generalize (cache.openFile path flags size modified).2 = after at opens
  cases opens with
  | unmade unmapped => exact wanes.sound
  | opened acquired keeps =>
      exact ((sameWork_acquired acquired).setHandles _ _).sound wanes.sound
  | emptied acquired wipes present done =>
      exact (((sameWork_acquired acquired).setEntry _ _).setHandles _ _).sound wanes.sound
  | refused acquired wipes closed =>
      exact ((sameWork_acquired acquired).sound wanes.sound).release _

theorem Sound.moveFile (sound : cache.Sound) (source destination : Path) :
    (cache.moveFile source destination).2.Sound := by
  have moves := moves_moveFile cache source destination
  have cancelled := (wanes_moved sound source destination).sound
  generalize ((cache.cancel source).2.cancel destination).2 = base at moves cancelled
  generalize (cache.moveFile source destination).2 = after at moves
  have placed := fun id => ((SameWork.refl base).relocate source destination id).sound cancelled
  cases moves with
  | same same => exact sound
  | absent apart nowhere free => exact cancelled
  | discarded apart nowhere taken =>
      exact (((SameWork.refl base).setMapped _).closeEntry _).sound cancelled
  | moved apart mapped idle => exact placed _
  | rescheduled apart mapped hit => exact (placed _).schedule _ _

theorem sound_step (sound : cache.Sound) (step : Step) : (cache.step step).Sound := by
  have same := SameWork.refl cache
  cases step with
  | create path size modified => exact (same.allocate _ _ _).sound sound
  | transfer entry offset count reading =>
      simp only [Cache.step]
      split
      · exact sound.spawn _
      · exact sound
  | giveUp task =>
      simp only [Cache.step]
      split
      · exact (Wanes.abort sound task).sound
      · exact sound
  | write entry offset data => exact (same.onEntry entry _).sound sound
  | truncate entry size => exact (same.onEntry entry _).sound sound
  | closeEntry entry => exact (same.closeEntry entry).sound sound
  | rename entry path => exact (same.modifyEntry entry _).sound sound
  | schedule entry tag =>
      simp only [Cache.step]
      split
      · exact sound.schedule _ _
      · exact sound
  | cancel path => exact (Wanes.cancel sound path).sound
  | openFile path flags size modified => exact sound.openFile path flags size modified
  | closeHandle handle =>
      simp only [Cache.step, closeHandle]
      split
      · exact sound.emit _
      · exact ((same.setHandles _ cache.counter).sound sound).release _
  | moveFile source destination => exact sound.moveFile source destination
  | delete path => exact (Wanes.delete sound path).sound
  | deleteTree path => exact (Wanes.deleteTree sound path).sound
  | act action => exact sound.act action
  | dropUploader => exact (Wanes.abandonUploads sound).sound
  | loseScratch => exact ⟨sound.fresh, sound.backed⟩

theorem sound_mount (mount : Mount) : mount.cache.Sound :=
  ⟨fun _ _ => rfl, ⟨_, rfl⟩⟩

theorem sound_after (mount : Mount) (steps : Nat → Step) (n : Nat) :
    (mount.cache.after steps n).Sound :=
  after_induction (sound_mount mount) (fun _ sound => sound_step sound _) n

/-! ### What is mapped -/

/-- The entry is mapped somewhere. -/
def Maps (cache : Cache) (id : EntryId) : Prop := ∃ path, cache.mapped.get? path = some id

/-- Somebody holds a handle of the entry. -/
def Holds (cache : Cache) (id : EntryId) : Prop := ∃ handle, cache.get? handle = some id

/-- Entries may have been unmapped, but none was mapped, and handles are as they were. -/
structure Unmaps (before after : Cache) : Prop where
  maps : ∀ {id}, after.Maps id → before.Maps id
  handles : after.handles = before.handles
  counter : after.counter = before.counter
  grace : after.grace = before.grace

namespace Unmaps

theorem of_sameTables (same : SameTables before after) : Unmaps before after where
  maps := fun ⟨path, found⟩ => ⟨path, same.mapped ▸ found⟩
  handles := same.handles
  counter := same.counter
  grace := same.grace

theorem of_sameStore (same : SameStore before after) : Unmaps before after :=
  .of_sameTables (.of_sameStore same)

theorem refl (cache : Cache) : Unmaps cache cache := .of_sameTables (.refl cache)

theorem trans (first : Unmaps before middle) (second : Unmaps middle after) :
    Unmaps before after :=
  ⟨fun mapped => first.maps (second.maps mapped), second.handles.trans first.handles,
    second.counter.trans first.counter, second.grace.trans first.grace⟩

theorem erase (cache : Cache) (path : Path) :
    Unmaps cache { cache with mapped := cache.mapped.erase path } where
  maps {id} mapped := by
    obtain ⟨other, found⟩ := mapped
    exact ⟨other, (PathMap.get?_erase_eq_some_iff.mp found).2⟩
  handles := rfl
  counter := rfl
  grace := rfl

theorem closeEntry (cache : Cache) (id : EntryId) : Unmaps cache (cache.closeEntry id) :=
  .of_sameTables (.closeEntry cache id)

theorem cancel (cache : Cache) (path : Path) : Unmaps cache (cache.cancel path).2 :=
  .of_sameStore ((SameStore.refl cache).cancel path)

theorem evictIfIdle (cache : Cache) (id : EntryId) (epoch : Nat) :
    Unmaps cache (cache.evictIfIdle id epoch) := by
  unfold Cache.evictIfIdle
  split
  · exact .refl _
  · split
    · exact (erase _ _).trans (.closeEntry _ _)
    · exact .refl _

theorem advance (cache : Cache) (task : TaskId) : Unmaps cache (cache.advance task) := by
  have same := SameStore.refl cache
  unfold Cache.advance
  split
  · exact .refl _
  · split
    · exact .of_sameStore (same.reap _)
    · split
      · exact .of_sameStore (same.advanceTransfer _ _)
      · exact .of_sameStore (same.advanceUpload _ _)
      · split
        · exact (of_sameStore (same.dropTask _)).trans (.evictIfIdle _ _ _)
        · exact .refl _

theorem act (cache : Cache) (action : Action) : Unmaps cache (cache.act action) := by
  cases action with
  | advance task => exact .advance cache task
  | request task i => exact .of_sameStore ((SameStore.refl cache).request _ _)
  | deliver task i reply =>
      simp only [Cache.act, deliver]
      split
      · exact .refl _
      · split
        · exact .refl _
        · split
          · exact .refl _
          · exact (of_sameTables (.setEntry _ _ _)).trans
              (.of_sameStore ((SameStore.refl _).setWork _ _))
  | settle task result =>
      simp only [Cache.act, settle]
      split
      · split
        · split
          · exact .of_sameStore ((SameStore.refl cache).failUpload _ _ _)
          · exact (trans (of_sameStore ((SameStore.refl cache).emit _))
              (of_sameTables (.modifyEntry _ _ _))).trans
                (of_sameStore (((SameStore.refl _).log _ _ _).endUpload _ _))
        · exact .refl _
      · exact .refl _
  | tick milliseconds => exact .of_sameTables ⟨rfl, rfl, rfl, rfl⟩

theorem delete (cache : Cache) (path : Path) : Unmaps cache (cache.delete path) := by
  unfold Cache.delete
  simp only
  split
  · exact cancel _ _
  · exact ((cancel _ _).trans (.erase _ _)).trans (.closeEntry _ _)

theorem foldl_discard (doomed : PathMap EntryId) (reached : Unmaps before cache) :
    Unmaps before
      (doomed.foldl (fun cache (key, id) => (cache.cancel key).2.closeEntry id) cache) := by
  induction doomed generalizing cache with
  | nil => exact reached
  | cons item doomed ih => exact ih ((reached.trans (.cancel _ _)).trans (.closeEntry _ _))

theorem deleteTree (cache : Cache) (path : Path) : Unmaps cache (cache.deleteTree path) := by
  rw [deleteTree_eq]
  refine foldl_discard _ ⟨fun {id} mapped => ?_, rfl, rfl, rfl⟩
  obtain ⟨other, found⟩ := mapped
  rw [PathMap.get?_filter_not_within] at found
  split at found
  · cases found
  · exact ⟨other, found⟩

end Unmaps

theorem mapped_relocate (source destination : Path) :
    (cache.relocate source destination id).mapped
      = (cache.mapped.erase source).set destination id := by
  unfold relocate
  simp only
  split
  · exact (SameTables.closeEntry _ _).mapped
  · rfl

theorem Unmaps.relocate (cache : Cache) {source : Path} (destination : Path)
    (mapped : cache.mapped.get? source = some id) :
    Unmaps cache (cache.relocate source destination id) := by
  have moved : Unmaps cache ({ cache with
      mapped := (cache.mapped.erase source).set destination id
      }.modifyEntry id fun entry => { entry with path := destination }) := by
    refine ⟨fun {other} found => ?_, rfl, rfl, rfl⟩
    obtain ⟨path, found⟩ := found
    have target : ((cache.mapped.erase source).set destination id).get? path = some other := found
    rw [PathMap.get?_set] at target
    split at target
    · cases target
      exact ⟨source, mapped⟩
    · exact (Unmaps.erase cache source).maps ⟨path, target⟩
  unfold Cache.relocate
  simp only
  split
  · exact moved.trans (.closeEntry _ _)
  · exact moved

theorem Unmaps.moveFile (cache : Cache) (source destination : Path) :
    Unmaps cache (cache.moveFile source destination).2 := by
  have cancelled : Unmaps cache ((cache.cancel source).2.cancel destination).2 :=
    (Unmaps.cancel _ _).trans (.cancel _ _)
  have moves := moves_moveFile cache source destination
  generalize ((cache.cancel source).2.cancel destination).2 = base at cancelled moves
  generalize (cache.moveFile source destination).2 = after at moves
  cases moves with
  | same same => exact .refl _
  | absent apart nowhere free => exact cancelled
  | discarded apart nowhere taken =>
      exact (cancelled.trans (.erase _ _)).trans (.closeEntry _ _)
  | moved apart mapped idle => exact cancelled.trans (.relocate _ _ mapped)
  | rescheduled apart mapped hit =>
      exact (cancelled.trans (.relocate _ _ mapped)).trans
        (.of_sameStore ((SameStore.refl _).schedule _ _))

theorem maps_acquired {size : Nat} {modified : Modified} {opened : EntryId}
    (acquired : cache.acquire path size modified = (.ok opened, after)) :
    after.Maps opened ∧ after.handles = cache.handles ∧
      ∀ {id}, after.Maps id → cache.Maps id ∨
        id = opened ∧ cache.entry? id = none ∧ (after.entry? id).isSome := by
  rcases acquire_ok acquired with ⟨mapped, rfl⟩ | ⟨unmapped, made, fits, rfl, rfl⟩
  · exact ⟨⟨path, mapped⟩, rfl, fun found => .inl found⟩
  · refine ⟨⟨path, ?_⟩, rfl, fun {id} found => ?_⟩
    · exact PathMap.get?_set.trans (if_pos (rfl : path.Same path))
    · obtain ⟨other, found⟩ := found
      rw [PathMap.get?_set] at found
      split at found
      · cases found
        refine .inr ⟨rfl, List.getElem?_eq_none (Nat.le_refl _), ?_⟩
        rw [entry?_append _ rfl, if_pos rfl]
        rfl
      · exact .inl ⟨other, found⟩

/-- Whatever is mapped or held was so before, or is a new entry; a handle may also be new
where the entry was mapped. -/
structure Refs (before after : Cache) : Prop where
  maps : ∀ {id}, after.Maps id →
    before.Maps id ∨ before.entry? id = none ∧ (after.entry? id).isSome
  holds : ∀ {id}, after.Holds id →
    before.Holds id ∨ before.Maps id ∨ before.entry? id = none ∧ (after.entry? id).isSome

theorem maps_congr (same : after.mapped = before.mapped) (mapped : after.Maps id) :
    before.Maps id := by
  obtain ⟨path, found⟩ := mapped
  exact ⟨path, same ▸ found⟩

theorem Unmaps.refs (unmaps : Unmaps before after) : Refs before after where
  maps mapped := .inl (unmaps.maps mapped)
  holds := by
    rintro id ⟨handle, found⟩
    rw [get?, unmaps.handles] at found
    exact .inl ⟨handle, found⟩

theorem refs_handed {base held final : Cache} {opened : EntryId} {handle : Handle} {size : Nat}
    {modified : Modified} (unmaps : Unmaps cache base) (same : base.entries = cache.entries)
    (acquired : base.acquire path size modified = (.ok opened, held))
    (mapped : final.mapped = held.mapped)
    (handles : final.handles = held.handles ++ [(handle, opened)])
    (alike : ∀ id, (final.entry? id).isSome = (held.entry? id).isSome) : Refs cache final := by
  obtain ⟨target, handed, maps⟩ := maps_acquired acquired
  have mapped_of : ∀ {id}, held.Maps id →
      cache.Maps id ∨ cache.entry? id = none ∧ (final.entry? id).isSome := by
    intro id found
    rcases maps found with kept | ⟨-, absent, present⟩
    · exact .inl (unmaps.maps kept)
    · rw [ entry?, same] at absent
      exact .inr ⟨absent, by rw [alike, present]⟩
  refine ⟨fun {id} found => mapped_of (found.imp fun _ there => mapped ▸ there),
    fun {id} found => ?_⟩
  obtain ⟨asked, found⟩ := found
  rw [get?, handles, List.find?_append, Option.map_or, Option.or_eq_some_iff] at found
  rcases found with old | ⟨-, new⟩
  · rw [handed, unmaps.handles] at old
    exact .inl ⟨asked, old⟩
  · simp only [List.find?_singleton] at new
    split at new
    · cases new
      exact .inr (mapped_of target)
    · cases new

theorem refs_openFile (path : Path) (flags : OpenFlags) (size : Nat) (modified : Modified) :
    Refs cache (cache.openFile path flags size modified).2 := by
  have opens := opens_openFile cache path flags size modified
  have same := sameStore_prepared cache path flags
  generalize (if flags.isWritable then (cache.cancel path).2 else cache) = base at opens same
  generalize (cache.openFile path flags size modified).2 = after at opens
  have unmaps := Unmaps.of_sameStore same
  cases opens with
  | unmade unmapped => exact unmaps.refs
  | opened acquired keeps =>
      exact refs_handed unmaps same.entries acquired rfl rfl fun _ => rfl
  | emptied acquired wipes present done =>
      exact refs_handed unmaps same.entries acquired rfl rfl fun _ => isSome_setEntry
  | refused acquired wipes closed =>
      obtain ⟨-, rfl⟩ := acquired_closed acquired closed
      exact (unmaps.trans (.of_sameTables ((SameTables.modifyEntry base _ _).trans
        (sameTables_release _ _)))).refs

theorem get?_without {handle asked : Handle} :
    get? { cache with handles := cache.handles.filter fun item => item.1 != handle } asked
      = if asked = handle then none else cache.get? asked := by
  simp only [get?, List.find?_filter]
  by_cases here : asked = handle
  · subst here
    simp
  · have agree : (fun item : Handle × EntryId => item.1 != handle && item.1 == asked)
        = fun item => item.1 == asked := by
      funext item
      by_cases found : item.1 = asked <;> simp [found, here]
    rw [if_neg here]
    simp only [Bool.decide_and, Bool.decide_eq_true, agree]

theorem refs_closeHandle (handle : Handle) : Refs cache (cache.closeHandle handle) := by
  unfold closeHandle
  split
  · exact (Unmaps.of_sameStore ((SameStore.refl cache).log _ _ _)).refs
  · rename_i id held
    have tables := sameTables_release
      { cache with handles := cache.handles.filter fun item => item.1 != handle } id
    refine ⟨fun {other} found => .inl (maps_congr tables.mapped found), fun {other} found => ?_⟩
    obtain ⟨asked, found⟩ := found
    have kept : get? { cache with
        handles := cache.handles.filter fun item => item.1 != handle } asked = some other := by
      rwa [get?, tables.handles] at found
    rw [get?_without] at kept
    split at kept
    · cases kept
    · exact .inl ⟨asked, kept⟩

/-- Only opening and closing by handle touch the table of handles. -/
def Step.usesHandles : Step → Bool
  | .openFile .. | .closeHandle _ => true
  | _ => false

theorem unmaps_step (cache : Cache) (quiet : step.usesHandles = false) :
    Unmaps cache (cache.step step) := by
  cases step with
  | create path size modified => exact .of_sameTables (.allocate _ _ _ _)
  | write entry offset data => exact .of_sameTables (.onEntry _ _ _)
  | truncate entry size => exact .of_sameTables (.onEntry _ _ _)
  | closeEntry entry => exact .closeEntry _ _
  | rename entry path => exact .of_sameTables (.modifyEntry _ _ _)
  | openFile path flags size modified => cases quiet
  | closeHandle handle => cases quiet
  | moveFile source destination => exact .moveFile _ _ _
  | delete path => exact .delete _ _
  | deleteTree path => exact .deleteTree _ _
  | act action => exact .act _ _
  | loseScratch => exact .of_sameTables ⟨rfl, rfl, rfl, rfl⟩
  | _ => exact .of_sameStore (sameStore_step cache rfl)

/-- What is mapped or held after a step was so before, or the step made it. -/
theorem refs_step (cache : Cache) (step : Step) : Refs cache (cache.step step) := by
  by_cases quiet : step.usesHandles = false
  · exact (unmaps_step cache quiet).refs
  · cases step with
    | openFile path flags size modified => exact refs_openFile path flags size modified
    | closeHandle handle => exact refs_closeHandle handle
    | _ => exact absurd rfl quiet

theorem grace_openFile (path : Path) (flags : OpenFlags) (size : Nat) (modified : Modified) :
    (cache.openFile path flags size modified).2.grace = cache.grace := by
  have opens := opens_openFile cache path flags size modified
  have same := (sameStore_prepared cache path flags).grace
  generalize (if flags.isWritable then (cache.cancel path).2 else cache) = base at opens same
  generalize (cache.openFile path flags size modified).2 = after at opens
  cases opens with
  | unmade unmapped => exact same
  | opened acquired keeps => exact (sameWork_acquired acquired).grace.trans same
  | emptied acquired wipes found done => exact (sameWork_acquired acquired).grace.trans same
  | refused acquired wipes closed =>
      exact (sameTables_release _ _).grace.trans ((sameWork_acquired acquired).grace.trans same)

theorem grace_step (cache : Cache) (step : Step) : (cache.step step).grace = cache.grace := by
  by_cases quiet : step.usesHandles = false
  · exact (unmaps_step cache quiet).grace
  · cases step with
    | openFile path flags size modified => exact grace_openFile path flags size modified
    | closeHandle handle =>
        simp only [Cache.step, closeHandle]
        split
        · rfl
        · exact (sameTables_release _ _).grace
    | _ => exact absurd rfl quiet

/-! ### Along a run -/

variable {mount : Mount} {steps : Nat → Step} {m n : Nat}

theorem grace_after (mount : Mount) (steps : Nat → Step) (n : Nat) :
    (mount.cache.after steps n).grace = mount.config.gracePeriod :=
  @after_induction _ _ (fun cache => cache.grace = mount.config.gracePeriod) rfl
    (fun _ same => (grace_step _ _).trans same) n

theorem exists_entry?_after {start : Cache} {entry : Entry}
    (found : Cache.entry? (start.after steps m) id = some entry) (later : m ≤ n) :
    ∃ next, Cache.entry? (start.after steps n) id = some next := by
  obtain ⟨next, present, -⟩ := @entry?_after id start entry steps (fun _ _ => True) m n
    (fun _ => trivial) (fun _ _ => trivial) (fun _ => trivial) found later
  exact ⟨next, present⟩

theorem isSome_step (known : (cache.entry? id).isSome) :
    (Cache.entry? (cache.step step) id).isSome := by
  obtain ⟨entry, found⟩ := Option.isSome_iff_exists.mp known
  obtain ⟨next, present, -⟩ := turn_step found step
  rw [present]
  rfl

/-- Whatever a handle, a path or a task names is an entry. -/
structure Rooted (cache : Cache) : Prop where
  referred : ∀ {id}, cache.Refers id → (cache.entry? id).isSome
  worked : ∀ {task work}, cache.doing? task = some work → (cache.entry? work.entry).isSome

theorem rooted_step (sound : cache.Sound) (rooted : cache.Rooted) (step : Step) :
    (cache.step step).Rooted where
  referred {id} referred := by
    have refs := refs_step cache step
    rcases referred with held | mapped
    · rcases refs.holds held with before | before | ⟨-, made⟩
      · exact isSome_step (rooted.referred (.inl before))
      · exact isSome_step (rooted.referred (.inr before))
      · exact made
    · rcases refs.maps mapped with before | ⟨-, made⟩
      · exact isSome_step (rooted.referred (.inr before))
      · exact made
  worked {task work} found := by
    refine isSome_step ?_
    cases course_step sound step found with
    | kept before => exact rooted.worked before
    | awaited new known => exact known
    | asked new known => exact known
    | scheduled new referred timely => exact rooted.referred referred
    | timed new ending registered goal ends => exact (rooted.worked ending :)
    | begins before idle found started => exact (rooted.worked before :)
    | fetches before queued found dirty started => exact (rooted.worked before :)
    | finishes before stage done => exact (rooted.worked before :)
    | copies before stage found stored => exact (rooted.worked before :)
    | reads before stage going source done => exact (rooted.worked before :)
    | sends before stage through told => exact (rooted.worked before :)
    | requests before waits asks planned =>
        rw [Work.entry_withLoad]
        exact rooted.worked before
    | receives before waits going found filled =>
        rw [Work.entry_withLoad]
        exact rooted.worked before

theorem rooted_after (mount : Mount) (steps : Nat → Step) (n : Nat) :
    (mount.cache.after steps n).Rooted := by
  refine after_induction ⟨fun {id} referred => ?_, fun {task work} found => ?_⟩
    (fun n rooted => rooted_step (sound_after mount steps n) rooted _) n
  · rcases referred with ⟨handle, held⟩ | ⟨path, mapped⟩
    · cases held
    · cases mapped
  · cases found

/-- An entry that nothing maps any more is never mapped again. -/
theorem not_maps_after {start : Cache} (unmapped : ¬ (start.after steps m).Maps id)
    (known : (Cache.entry? (start.after steps m) id).isSome) (later : m ≤ n) :
    ¬ (start.after steps n).Maps id := by
  induction later with
  | refl => exact unmapped
  | @step n later ih =>
      intro mapped
      rcases (refs_step _ (steps n)).maps mapped with before | ⟨absent, -⟩
      · exact ih before
      · obtain ⟨entry, found⟩ := Option.isSome_iff_exists.mp known
        obtain ⟨next, present⟩ := exists_entry?_after found later
        rw [present] at absent
        cases absent

end SparseCache.Cache
