import SparseCache.Proofs.Cache.Entries

namespace SparseCache.Cache

/-! What one step of a run may do to an entry. -/

variable {cache : Cache} {id : EntryId} {entry made : Entry} {step : Step}

/-! ### Steps that leave files and counts alone -/

namespace Displaces

theorem of_sameStore {before after : Cache} (same : SameStore before after) :
    Displaces before after :=
  .of_entries same.entries

theorem evictIfIdle (cache : Cache) (id : EntryId) (epoch : Nat) :
    Displaces cache (cache.evictIfIdle id epoch) := by
  unfold Cache.evictIfIdle
  split
  · exact .refl _
  · split
    · exact (setMapped _ _).trans (.closeEntry _ _)
    · exact .refl _

theorem advance (cache : Cache) (task : TaskId) : Displaces cache (cache.advance task) := by
  have same := SameStore.refl cache
  unfold Cache.advance
  split
  · exact .refl _
  · split
    · exact .of_sameStore (same.reap _)
    · split
      · exact .of_sameStore (same.advanceTransfer _ _)
      · exact .of_sameStore (same.advanceUpload _ _)
      · split
        · exact trans (.of_sameStore (same.dropTask _)) (.evictIfIdle _ _ _)
        · exact .refl _

theorem cancel (cache : Cache) (path : Path) : Displaces cache (cache.cancel path).2 :=
  .of_sameStore ((SameStore.refl cache).cancel path)

theorem moveFile (cache : Cache) (source destination : Path) :
    Displaces cache (cache.moveFile source destination).2 := by
  have cancelled : Displaces cache ((cache.cancel source).2.cancel destination).2 :=
    (cancel _ _).trans (cancel _ _)
  have moves := moves_moveFile cache source destination
  generalize ((cache.cancel source).2.cancel destination).2 = base at cancelled moves
  generalize (cache.moveFile source destination).2 = after at moves
  cases moves with
  | same same => exact .refl _
  | absent apart nowhere free => exact cancelled
  | discarded apart nowhere taken =>
      exact (cancelled.trans (.setMapped _ _)).trans (.closeEntry _ _)
  | moved apart mapped idle => exact cancelled.trans (.relocated _ _ _ _)
  | rescheduled apart mapped hit =>
      exact (cancelled.trans (.relocated _ _ _ _)).trans
        (.of_sameStore ((SameStore.refl _).schedule _ _))

theorem delete (cache : Cache) (path : Path) : Displaces cache (cache.delete path) := by
  unfold Cache.delete
  simp only
  split
  · exact cancel _ _
  · exact ((cancel _ _).trans (.setMapped _ _)).trans (.closeEntry _ _)

theorem foldl_discard {start : Cache} (doomed : PathMap EntryId)
    (reached : Displaces start cache) :
    Displaces start
      (doomed.foldl (fun cache (key, id) => (cache.cancel key).2.closeEntry id) cache) := by
  induction doomed generalizing cache with
  | nil => exact reached
  | cons item doomed ih =>
      exact ih ((reached.trans (.cancel _ _)).trans (.closeEntry _ _))

theorem deleteTree (cache : Cache) (path : Path) : Displaces cache (cache.deleteTree path) :=
  foldl_discard _ (.setMapped _ _)

end Displaces

/-! ### Changes of one entry -/

/-- The change of an entry's file that a step asks for. -/
def Step.change? (cache : Cache) (id : EntryId) : Step → Option LocalChange
  | .write entry offset data => if entry = id then some (.write offset data) else none
  | .truncate entry size => if entry = id then some (.truncate size) else none
  | .openFile path flags _ _ =>
    if flags.contains .truncate ∧ cache.mapped.get? path = some id then some (.truncate 0)
    else none
  | _ => none

/-- Everything that a step may make of an entry. -/
inductive Turn (cache : Cache) (id : EntryId) (before : Entry) : Step → Entry → Prop
  /-- If the step asked for a change of the file, it was refused. -/
  | displaced {step after}
      (refused : ∀ change, step.change? cache id = some change →
        ∃ error, change.on before = .error error)
      (displaced : before.Displaced after) : Turn cache id before step after
  | wrote {offset data n after} (done : before.write offset data = .ok (n, after)) :
      Turn cache id before (.write id offset data) after
  | resized {size after} (done : before.truncate size = .ok after) :
      Turn cache id before (.truncate id size) after
  | opened {path flags size modified} (mapped : cache.mapped.get? path = some id)
      (keeps : flags.contains .truncate = false) :
      Turn cache id before (.openFile path flags size modified) (before.reopened modified)
  | emptied {path flags size modified after} (mapped : cache.mapped.get? path = some id)
      (wipes : flags.contains .truncate = true)
      (done : (before.reopened modified).truncate 0 = .ok after) :
      Turn cache id before (.openFile path flags size modified) after
  /-- A closed entry cannot be emptied; the handle is given back. -/
  | refused {path flags size modified n after} (mapped : cache.mapped.get? path = some id)
      (wipes : flags.contains .truncate = true) (closed : before.content = none)
      (left : (before.reopened modified).releaseHandle? = some (n, after)) :
      Turn cache id before (.openFile path flags size modified) after
  | released {handle n after} (held : cache.get? handle = some id)
      (left : before.releaseHandle? = some (n, after)) :
      Turn cache id before (.closeHandle handle) after
  | filled {task i reply work load} (waiting : cache.loadOf? task = some (work, id, load))
      (going : load.outcome? = none) :
      Turn cache id before (.act (.deliver task i reply)) (load.receive i before reply).2
  | cleaned {task job version snapshot call} (doing : cache.live? task = some (.upload job))
      (about : job.entry = id) (stage : job.stage = .sending version snapshot call) :
      Turn cache id before (.act (.settle task (.ok ()))) (before.markClean version)

/-- Everything that a step may make where no entry was. -/
inductive Born (cache : Cache) : Step → Entry → Prop
  | created {path size modified made} (fits : Entry.create path size modified = .ok made) :
      Born cache (.create path size modified) made
  | opened {path flags size modified made} (unmapped : cache.mapped.get? path = none)
      (keeps : flags.contains .truncate = false)
      (fits : Entry.create path size modified = .ok made) :
      Born cache (.openFile path flags size modified) made.openHandle.2
  | emptied {path flags size modified made empty} (unmapped : cache.mapped.get? path = none)
      (wipes : flags.contains .truncate = true)
      (fits : Entry.create path size modified = .ok made)
      (done : made.openHandle.2.truncate 0 = .ok empty) :
      Born cache (.openFile path flags size modified) empty

theorem Turn.of_displaces {after : Cache} (displaces : Displaces cache after)
    (found : cache.entry? id = some entry)
    (quiet : ∀ change, step.change? cache id = some change →
      ∃ error, change.on entry = .error error) :
    ∃ next, after.entry? id = some next ∧ Turn cache id entry step next := by
  obtain ⟨next, present, displaced⟩ := displaces.kept found
  exact ⟨next, present, .displaced quiet displaced⟩

theorem Turn.of_quiet {after : Cache} (displaces : Displaces cache after)
    (found : cache.entry? id = some entry) (quiet : step.change? cache id = none) :
    ∃ next, after.entry? id = some next ∧ Turn cache id entry step next := by
  refine Turn.of_displaces displaces found fun change asked => ?_
  rw [quiet] at asked
  cases asked

theorem turn_onEntry {α : Type} {operation : Entry → Except EntryError (α × Entry)}
    {target : EntryId} {change : LocalChange} (found : cache.entry? id = some entry)
    (stepped : cache.step step = (cache.onEntry target operation).2)
    (asks : step.change? cache id = if target = id then some change else none)
    (same : change.on entry = (operation entry).map (·.2))
    (turned : ∀ result, target = id → operation entry = .ok result →
      Turn cache id entry step result.2) :
    ∃ next, Cache.entry? (cache.step step) id = some next ∧ Turn cache id entry step next := by
  rw [stepped]
  by_cases here : target = id
  · cases done : operation entry with
    | error error =>
        subst here
        have untouched := congrArg (·.2) (onEntry_error operation found done)
        refine ⟨entry, by rw [untouched, found], .displaced (fun other asked => ⟨error, ?_⟩)
          (.refl _)⟩
        rw [asks, if_pos rfl] at asked
        cases asked
        rw [same, done]
        rfl
    | ok result =>
        have turn := turned result here done
        subst here
        have changed := congrArg (·.2) (onEntry_ok operation found done)
        refine ⟨result.2, ?_, turn⟩
        rw [changed, entry?_setEntry, if_pos rfl, found]
        rfl
  · refine ⟨entry, ?_, .displaced (fun other asked => ?_) (.refl _)⟩
    · exact (entry?_onEntry_of_ne (Ne.symm here)).trans found
    · rw [asks, if_neg here] at asked
      cases asked

theorem turn_write (found : cache.entry? id = some entry) (target : EntryId) (offset : Nat)
    (data : Bytes) :
    ∃ next, Cache.entry? (cache.step (.write target offset data)) id = some next ∧
      Turn cache id entry (.write target offset data) next := by
  refine turn_onEntry found rfl rfl rfl fun result here done => ?_
  subst here
  exact .wrote done

theorem turn_truncate (found : cache.entry? id = some entry) (target : EntryId) (size : Nat) :
    ∃ next, Cache.entry? (cache.step (.truncate target size)) id = some next ∧
      Turn cache id entry (.truncate target size) next := by
  refine turn_onEntry found rfl rfl ?_ fun result here done => ?_
  · cases done : entry.truncate size <;> simp [LocalChange.on, done, Except.map]
  · subst here
    cases cut : entry.truncate size with
    | error error => simp [cut, Except.map] at done
    | ok resized =>
        simp only [cut, Except.map, Except.ok.injEq] at done
        subst done
        exact .resized cut

theorem turn_openFile (found : cache.entry? id = some entry) (path : Path) (flags : OpenFlags)
    (size : Nat) (modified : Modified) :
    ∃ next, Cache.entry? (cache.openFile path flags size modified).2 id = some next ∧
      Turn cache id entry (.openFile path flags size modified) next := by
  have opens := opens_openFile cache path flags size modified
  have same := sameStore_prepared cache path flags
  generalize (if flags.isWritable then (cache.cancel path).2 else cache) = base at opens same
  generalize (cache.openFile path flags size modified).2 = after at opens
  have present : base.entry? id = some entry := same.lookup.trans found
  -- An entry that is not the one opened is left alone, and nobody asked to change it.
  have elsewhere : ∀ {after : Cache}, after.entry? id = base.entry? id →
      (flags.contains .truncate = true → base.mapped.get? path ≠ some id) →
      ∃ next, after.entry? id = some next ∧
        Turn cache id entry (.openFile path flags size modified) next := by
    intro after untouched other
    refine ⟨entry, untouched.trans present, .displaced (fun change asked => ?_) (.refl _)⟩
    simp only [Step.change?] at asked
    split at asked
    · rename_i wiped
      exact absurd (same.mapped ▸ wiped.2) (other wiped.1)
    · cases asked
  cases opens with
  | unmade unmapped =>
      exact elsewhere rfl fun _ mapped => by rw [unmapped] at mapped; cases mapped
  | @opened opened held acquired keeps =>
      by_cases here : id = opened
      · subst here
        obtain ⟨mapped, reopened⟩ := acquired_known acquired present
        exact ⟨entry.reopened modified, reopened, .opened (same.mapped ▸ mapped) keeps⟩
      · obtain ⟨untouched, -⟩ := acquired_elsewhere acquired here
        exact elsewhere untouched (by simp [keeps])
  | @emptied opened held target empty acquired wipes found done =>
      by_cases here : id = opened
      · subst here
        obtain ⟨mapped, reopened⟩ := acquired_known acquired present
        rw [reopened] at found
        cases found
        refine ⟨empty, ((entry?_setEntry _).trans (if_pos rfl)).trans ?_,
          .emptied (same.mapped ▸ mapped) wipes done⟩
        rw [reopened]
        rfl
      · obtain ⟨untouched, unmapped⟩ := acquired_elsewhere acquired here
        exact elsewhere (((entry?_setEntry _).trans (if_neg here)).trans untouched)
          fun _ => unmapped
  | @refused opened held acquired wipes closed =>
      have kept := entry?_release held opened id
      by_cases here : id = opened
      · subst here
        obtain ⟨mapped, reopened⟩ := acquired_known acquired present
        have shut : entry.content = none := closed (entry.reopened modified) reopened
        obtain ⟨left, after, released⟩ := entry.releaseHandle?_reopened modified
        refine ⟨after, kept.trans ((if_pos rfl).trans ?_),
          .refused (same.mapped ▸ mapped) wipes shut released⟩
        rw [reopened, Option.map_some, released]
        rfl
      · obtain ⟨untouched, unmapped⟩ := acquired_elsewhere acquired here
        exact elsewhere (kept.trans ((if_neg here).trans untouched)) fun _ => unmapped

theorem turn_closeHandle (found : cache.entry? id = some entry) (handle : Handle) :
    ∃ next, Cache.entry? (cache.closeHandle handle) id = some next ∧
      Turn cache id entry (.closeHandle handle) next := by
  have quiet : (Step.closeHandle handle).change? cache id = none := rfl
  unfold closeHandle
  cases held : cache.get? handle with
  | none => exact Turn.of_quiet (.of_entries rfl) found quiet
  | some other =>
      have kept := entry?_release
        { cache with handles := cache.handles.filter fun item => item.1 != handle } other id
      have found' : entry? { cache with
          handles := cache.handles.filter fun item => item.1 != handle } id = some entry := found
      by_cases here : id = other
      · subst here
        cases left : entry.releaseHandle? with
        | none =>
            refine ⟨entry, kept.trans ?_, .displaced (fun _ asked => by cases asked) (.refl _)⟩
            rw [if_pos rfl, found', Option.map_some, left]
            rfl
        | some result =>
            refine ⟨result.2, kept.trans ?_, .released held left⟩
            rw [if_pos rfl, found', Option.map_some, left]
            rfl
      · refine ⟨entry, kept.trans ?_, .displaced (fun _ asked => by cases asked) (.refl _)⟩
        exact (if_neg here).trans found

/-- An answer that counts is taken by the entry that the task loads. -/
theorem entry?_deliver (found : cache.entry? id = some entry) (task : TaskId) (i : Nat)
    (reply : Reply) :
    Cache.entry? (cache.deliver task i reply) id = some entry ∨
      ∃ work load, cache.loadOf? task = some (work, id, load) ∧ load.outcome? = none ∧
        Cache.entry? (cache.deliver task i reply) id = some (load.receive i entry reply).2 := by
  unfold deliver
  cases waiting : cache.loadOf? task with
  | none => exact .inl found
  | some waiter =>
      obtain ⟨work, other, load⟩ := waiter
      simp only
      cases target : cache.entry? other with
      | none => exact .inl found
      | some filled =>
          simp only
          split
          · exact .inl found
          · rename_i going
            by_cases here : id = other
            · subst here
              rw [found] at target
              cases target
              refine .inr ⟨work, load, rfl, by simpa using going, ?_⟩
              exact ((entry?_setEntry _).trans (if_pos rfl)).trans (by rw [found]; rfl)
            · exact .inl (((entry?_setEntry _).trans (if_neg here)).trans found)

theorem turn_deliver (found : cache.entry? id = some entry) (task : TaskId) (i : Nat)
    (reply : Reply) :
    ∃ next, Cache.entry? (cache.deliver task i reply) id = some next ∧
      Turn cache id entry (.act (.deliver task i reply)) next := by
  rcases entry?_deliver found task i reply with kept | ⟨work, load, waiting, going, filled⟩
  · exact ⟨entry, kept, .displaced (fun _ asked => by cases asked) (.refl _)⟩
  · exact ⟨_, filled, .filled waiting going⟩

theorem entry?_settle {task : TaskId} {job : Upload} {version : Nat} {snapshot : Bytes}
    {call : CallId} (held : cache.task? task = some { work := .upload job, aborted := false })
    (stage : job.stage = .sending version snapshot call) (found : cache.entry? id = some entry) :
    Cache.entry? (cache.settle task (.ok ())) id
      = if id = job.entry then some (entry.markClean version) else some entry := by
  have marked : Cache.entry? ((cache.emit (.written job.entry job.path (snapshot.chunks copyStep))
      ).modifyEntry job.entry fun entry => entry.markClean version) id
      = if id = job.entry then some (entry.markClean version) else some entry := by
    rw [entry?_modifyEntry, entry?_emit, found]
    rfl
  unfold settle
  rw [held]
  simp only [stage]
  exact (((SameStore.refl _).log .info "upload finished" none).endUpload task job).lookup.trans
    marked

theorem turn_settle (found : cache.entry? id = some entry) (task : TaskId)
    (result : Except RemoteError Unit) :
    ∃ next, Cache.entry? (cache.settle task result) id = some next ∧
      Turn cache id entry (.act (.settle task result)) next := by
  have quiet : (Step.act (.settle task result)).change? cache id = none := rfl
  by_cases storing : ∃ job version snapshot call, result = .ok () ∧
      cache.task? task = some { work := .upload job, aborted := false } ∧
      job.stage = .sending version snapshot call
  · obtain ⟨job, version, snapshot, call, rfl, held, stage⟩ := storing
    have kept := entry?_settle held stage found
    have live : cache.live? task = some (.upload job) := live?_eq_some_iff.mpr held
    by_cases here : id = job.entry
    · exact ⟨_, kept.trans (if_pos here), .cleaned live here.symm stage⟩
    · exact ⟨entry, kept.trans (if_neg here), .displaced (fun _ asked => by cases asked) (.refl _)⟩
  · unfold settle
    split
    · rename_i job held
      split
      · rename_i version snapshot call stage
        cases result with
        | error cause =>
            exact Turn.of_quiet (.of_sameStore ((SameStore.refl cache).failUpload _ _ _)) found
              quiet
        | ok _ => exact absurd ⟨job, version, snapshot, call, rfl, held, stage⟩ storing
      · exact Turn.of_quiet (.refl _) found quiet
    · exact Turn.of_quiet (.refl _) found quiet

/-- Every step does to an entry one of the things that a turn names. -/
theorem turn_step (found : cache.entry? id = some entry) (step : Step) :
    ∃ next, Cache.entry? (cache.step step) id = some next ∧ Turn cache id entry step next := by
  cases step with
  | create path size modified =>
      refine ⟨entry, ?_, .displaced (fun _ asked => by cases asked) (.refl _)⟩
      simp only [Cache.step, allocate]
      split
      · split
        · exact found
        · exact ((entry?_append _ rfl).trans
            (if_neg (Nat.ne_of_lt (lt_length_of_found found)))).trans found
      · exact found
  | write target offset data => exact turn_write found target offset data
  | truncate target size => exact turn_truncate found target size
  | closeEntry target => exact Turn.of_quiet (.closeEntry _ _) found rfl
  | rename target path => exact Turn.of_quiet (.relocate _ _ _) found rfl
  | openFile path flags size modified => exact turn_openFile found path flags size modified
  | closeHandle handle => exact turn_closeHandle found handle
  | moveFile source destination => exact Turn.of_quiet (.moveFile _ _ _) found rfl
  | delete path => exact Turn.of_quiet (.delete _ _) found rfl
  | deleteTree path => exact Turn.of_quiet (.deleteTree _ _) found rfl
  | act action =>
      cases action with
      | advance task => exact Turn.of_quiet (.advance _ _) found rfl
      | request task i =>
          exact Turn.of_quiet (.of_sameStore ((SameStore.refl cache).request _ _)) found rfl
      | deliver task i reply => exact turn_deliver found task i reply
      | settle task result => exact turn_settle found task result
      | tick milliseconds => exact Turn.of_quiet (.of_entries rfl) found rfl
  | loseScratch => exact Turn.of_quiet (.of_entries rfl) found rfl
  | _ => exact Turn.of_quiet (.of_sameStore (sameStore_step cache rfl)) found rfl

/-- What every turn keeps is kept from one moment to any later one. -/
theorem entry?_after {start : Cache} {entry : Entry} {steps : Nat → Step}
    {related : Entry → Entry → Prop} {m n : Nat} (refl : ∀ entry, related entry entry)
    (trans : ∀ {a b c}, related a b → related b c → related a c)
    (turned : ∀ {cache entry step next}, Turn cache id entry step next → related entry next)
    (found : Cache.entry? (start.after steps m) id = some entry) (later : m ≤ n) :
    ∃ next, Cache.entry? (start.after steps n) id = some next ∧ related entry next := by
  induction later with
  | refl => exact ⟨entry, found, refl entry⟩
  | @step n _ ih =>
      obtain ⟨next, present, kept⟩ := ih
      obtain ⟨final, present', turn⟩ := turn_step present (steps n)
      exact ⟨final, present', trans kept (turned turn)⟩

/-! ### New entries -/

theorem born_openFile (absent : cache.entry? id = none) {path : Path} {flags : OpenFlags}
    {size : Nat} {modified : Modified}
    (present : Cache.entry? (cache.openFile path flags size modified).2 id = some made) :
    id = cache.entries.length ∧ Born cache (.openFile path flags size modified) made := by
  have opens := opens_openFile cache path flags size modified
  have same := sameStore_prepared cache path flags
  generalize (if flags.isWritable then (cache.cancel path).2 else cache) = base at opens same
  generalize (cache.openFile path flags size modified).2 = after at opens present
  have absent' : base.entry? id = none := same.lookup.trans absent
  have count : base.entries.length = cache.entries.length := by rw [same.entries]
  -- Only the entry that was acquired may be new.
  have opened_here : ∀ {opened held}, base.acquire path size modified = (.ok opened, held) →
      (held.entry? id).isSome → id = opened := by
    intro opened held acquired known
    refine Decidable.byContradiction fun apart => ?_
    rw [(acquired_elsewhere acquired apart).1, absent'] at known
    cases known
  cases opens with
  | unmade unmapped => rw [absent'] at present; cases present
  | @opened opened held acquired keeps =>
      obtain rfl := opened_here acquired (Option.isSome_of_eq_some present)
      obtain ⟨unmapped, here, fresh, fits, rfl⟩ := acquired_new acquired absent' present
      exact ⟨here.trans count, .opened (same.mapped ▸ unmapped) keeps fits⟩
  | @emptied opened held target empty acquired wipes found done =>
      have known : (held.entry? id).isSome :=
        isSome_setEntry.symm.trans (Option.isSome_of_eq_some present)
      obtain rfl := opened_here acquired known
      obtain ⟨unmapped, here, fresh, fits, rfl⟩ := acquired_new acquired absent' found
      have shown : Cache.entry? (held.setEntry id empty) id = some made := present
      rw [entry?_setEntry, if_pos rfl, found] at shown
      cases shown
      exact ⟨here.trans count, .emptied (same.mapped ▸ unmapped) wipes fits done⟩
  | @refused opened held acquired wipes closed =>
      have known : (held.entry? id).isSome :=
        isSome_release.symm.trans (Option.isSome_of_eq_some present)
      obtain rfl := opened_here acquired known
      obtain ⟨mapped, rfl⟩ := acquired_closed acquired closed
      rw [entry?_modifyEntry, if_pos rfl, absent'] at known
      cases known

theorem unborn_onEntry {α : Type} {operation : Entry → Except EntryError (α × Entry)}
    {target : EntryId} (absent : cache.entry? id = none) :
    Cache.entry? (cache.onEntry target operation).2 id = none := by
  unfold onEntry
  split
  · exact absent
  · split
    · exact absent
    · rw [entry?_setEntry, absent]
      split <;> rfl

theorem unborn_act (absent : cache.entry? id = none) (action : Action) :
    Cache.entry? (cache.act action) id = none := by
  cases action with
  | advance task => exact (Displaces.advance _ _).unborn absent
  | request task i => exact ((SameStore.refl cache).request _ _).lookup.trans absent
  | deliver task i reply =>
      simp only [act, deliver]
      split
      · exact absent
      · split
        · exact absent
        · split
          · exact absent
          · refine (entry?_setEntry cache).trans ?_
            rw [absent]
            split <;> rfl
  | settle task result =>
      simp only [act, settle]
      split
      · split
        · split
          · exact ((SameStore.refl cache).failUpload _ _ _).lookup.trans absent
          · refine (((SameStore.refl _).log _ _ _).endUpload _ _).lookup.trans ?_
            rw [entry?_modifyEntry, entry?_emit, absent]
            split <;> rfl
        · exact absent
      · exact absent
  | tick milliseconds => exact absent

/-- Only making an entry, or opening what was not mapped, brings one into being. -/
theorem born_step (absent : cache.entry? id = none)
    (present : Cache.entry? (cache.step step) id = some made) :
    id = cache.entries.length ∧ Born cache step made := by
  have never : Cache.entry? (cache.step step) id = none → id = cache.entries.length ∧
      Born cache step made := by
    intro missing
    rw [missing] at present
    cases present
  cases step with
  | create path size modified =>
      simp only [Cache.step, allocate] at present
      split at present
      · split at present
        · rw [absent] at present
          cases present
        · rename_i fresh fits
          have shown := (entry?_append cache rfl).symm.trans present
          rw [absent] at shown
          split at shown
          · rename_i here
            cases shown
            exact ⟨here, .created fits⟩
          · cases shown
      · rw [absent] at present
        cases present
  | write target offset data => exact never (unborn_onEntry absent)
  | truncate target size => exact never (unborn_onEntry absent)
  | closeEntry target => exact never ((Displaces.closeEntry _ _).unborn absent)
  | rename target path => exact never ((Displaces.relocate _ _ _).unborn absent)
  | openFile path flags size modified => exact born_openFile absent present
  | closeHandle handle =>
      refine never ?_
      simp only [Cache.step, closeHandle]
      split
      · exact absent
      · refine (entry?_release _ _ _).trans ?_
        have absent' : entry? { cache with
            handles := cache.handles.filter fun item => item.1 != handle } id = none := absent
        rw [absent']
        split <;> rfl
  | moveFile source destination => exact never ((Displaces.moveFile _ _ _).unborn absent)
  | delete path => exact never ((Displaces.delete _ _).unborn absent)
  | deleteTree path => exact never ((Displaces.deleteTree _ _).unborn absent)
  | act action => exact never (unborn_act absent action)
  | loseScratch => exact never absent
  | _ => exact never ((sameStore_step cache rfl).lookup.trans absent)

/-- What holds of every new entry and is kept by every turn holds of an entry throughout. -/
theorem entry_induction {start : Cache} {steps : Nat → Step} {holds : Nat → Entry → Prop} {n : Nat}
    (absent : start.entry? id = none)
    (born : ∀ n made, Cache.entry? (start.after steps n) id = none →
      Cache.entry? (start.after steps (n + 1)) id = some made →
      Born (start.after steps n) (steps n) made → holds (n + 1) made)
    (turned : ∀ n entry next, Cache.entry? (start.after steps n) id = some entry →
      Turn (start.after steps n) id entry (steps n) next → holds n entry → holds (n + 1) next)
    (found : Cache.entry? (start.after steps n) id = some entry) : holds n entry := by
  induction n generalizing entry with
  | zero =>
      rw [after_zero, absent] at found
      cases found
  | succ n ih =>
      cases before : Cache.entry? (start.after steps n) id with
      | none => exact born n entry before found (born_step before found).2
      | some old =>
          obtain ⟨next, present, turn⟩ := turn_step before (steps n)
          rw [after_succ, present] at found
          cases found
          exact turned n old entry before turn (ih before)

end SparseCache.Cache
