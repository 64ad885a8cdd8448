import SparseCache.Proofs.Cache.Accounts
import SparseCache.Proofs.Cache.Coherence
import SparseCache.Proofs.Cache.Persistence
import SparseCache.Proofs.Cache.Relocation

namespace SparseCache

/-! Opening a path either does all that it is to do or nothing.

The upload of the path is stopped before anything is known of how the opening ends.  No harm
comes of it: uploads are only on record where something is mapped, and what is mapped can always
be opened.
-/

/-- An emptied entry has no bytes and is dirty. -/
theorem Entry.emptied_of_truncate {entry next : Entry} (done : entry.truncate 0 = .ok next)
    (behind : entry.clean ≤ entry.version) :
    next.size = .ok 0 ∧ next.isDirty = true ∧ next.handles = entry.handles ∧
      next.path = entry.path := by
  obtain ⟨content, -, -, rfl⟩ := truncate_ok done
  refine ⟨?_, ?_, rfl, rfl⟩
  · simp [Entry.touch, Entry.size, Entry.content?, Except.map]
  · exact decide_eq_true (Nat.lt_succ_of_le behind)

namespace Cache

variable {cache base after held : Cache} {id : EntryId} {entry next : Entry} {path : Path}
  {flags : OpenFlags} {size version n : Nat} {modified : Modified} {task : TaskId} {job : Upload}
  {step : Step} {steps : Nat → Step} {mount : Mount} {handle : Handle} {error : EntryError}

/-! ### Versions -/

/-- No version counts as stored, or is on its way there, that the entry has not come to. -/
structure Paced (cache : Cache) : Prop where
  behind : ∀ {id entry}, cache.entry? id = some entry → entry.clean ≤ entry.version
  captured : ∀ {task job entry version}, cache.doing? task = some (.upload job) →
    cache.entry? job.entry = some entry → job.stage.captured? = some version →
    version ≤ entry.version

theorem Outcome.version_le (outcome : Outcome cache id entry step next) :
    entry.version ≤ next.version := by
  cases outcome with
  | mutated mutates version clean stored => omega
  | unchanged idle version clean content stored => omega
  | stored idle stores about stored => exact Nat.le_refl _

theorem Paced.behind_step (paced : cache.Paced) (sound : cache.Sound) (counted : cache.Counted)
    (rooted : cache.Rooted) (present : Cache.entry? (cache.step step) id = some next) :
    next.clean ≤ next.version := by
  cases found : cache.entry? id with
  | none =>
      rw [(born_step found present).2.clean_eq]
      exact Nat.zero_le _
  | some entry =>
      obtain ⟨other, present', outcome, -⟩ := outcome_step sound counted rooted found step
      rw [present] at present'
      cases present'
      have behind := paced.behind found
      cases outcome with
      | mutated mutates version clean stored => omega
      | unchanged idle version clean content stored => omega
      | @stored task job version snapshot idle stores about told =>
          subst about
          obtain ⟨-, live, call, stage⟩ := stores
          have doing : cache.doing? task = some (.upload { job with permit := false }) :=
            doing?_of_live live
          have captured : job.stage.captured? = some version := by rw [stage]; rfl
          have upto : version ≤ entry.version := paced.captured doing found captured
          exact Nat.max_le.mpr ⟨behind, upto⟩

theorem Paced.captured_step (paced : cache.Paced) (sound : cache.Sound) (counted : cache.Counted)
    (rooted : cache.Rooted) (doing : (cache.step step).doing? task = some (.upload job))
    (present : Cache.entry? (cache.step step) job.entry = some next)
    (captured : job.stage.captured? = some version) : version ≤ next.version := by
  have early : ∀ {stage}, cache.doing? task = some (.upload { job with stage }) →
      (∀ entry, cache.entry? job.entry = some entry → version ≤ entry.version) →
      version ≤ next.version := by
    intro stage before upto
    obtain ⟨entry, known⟩ : ∃ entry, cache.entry? job.entry = some entry :=
      Option.isSome_iff_exists.mp (rooted.worked before)
    obtain ⟨other, present', outcome, -⟩ := outcome_step sound counted rooted known step
    rw [present] at present'
    cases present'
    exact Nat.le_trans (upto entry known) outcome.version_le
  have uncaptured : job.stage.captured? ≠ none := by
    rw [captured]
    exact Option.some_ne_none _
  cases uploadCourse_step sound step doing with
  | kept before => exact early before fun entry known => paced.captured before known captured
  | asked new queued known goal => exact absurd (by rw [queued]; rfl) uncaptured
  | scheduled new queued referred goal timely => exact absurd (by rw [queued]; rfl) uncaptured
  | loading before now => exact absurd (by rw [now]; rfl) uncaptured
  | loaded before done now =>
      refine early before fun entry known => ?_
      rw [now, known] at captured
      cases captured
      exact Nat.le_refl _
  | copying before known stored now | reading before going source done now
  | sending before through told now =>
      refine early before fun entry known => ?_
      rw [now] at captured
      cases captured
      exact paced.captured before known rfl

theorem paced_after (mount : Mount) (steps : Nat → Step) (n : Nat) :
    (mount.cache.after steps n).Paced := by
  have initial : mount.cache.Paced := by
    refine ⟨fun found => ?_, fun doing _ _ => ?_⟩
    · cases found
    · cases doing
  refine after_induction initial (fun n paced => ?_) n
  have sound := sound_after mount steps n
  have counted := counted_after mount steps n
  have rooted := rooted_after mount steps n
  exact ⟨paced.behind_step sound counted rooted, paced.captured_step sound counted rooted⟩

/-! ### What there is to open -/

/-- What there is to be opened at a path: the entry that is mapped there, or a new one of `size`
bytes, none of them populated. -/
inductive Target (cache : Cache) (path : Path) (size : Nat) (modified : Modified) :
    EntryId → Entry → Prop
  | found {id : EntryId} {entry : Entry} (mapped : cache.mapped.get? path = some id)
      (present : cache.entry? id = some entry) : Target cache path size modified id entry
  | fresh (unmapped : cache.mapped.get? path = none) :
      Target cache path size modified cache.entries.length
        { path, content := some (.zeros size), modified }

/-- The handle was given out for the entry, and nothing else was touched. -/
structure Granted (before after : Cache) (path : Path) (flags : OpenFlags) (modified : Modified)
    (handle : Handle) (id : EntryId) (entry : Entry) : Prop where
  mapped : after.mapped.get? path = some id
  kept : flags.contains .truncate = false →
    after.entry? id = some { entry with handles := entry.handles + 1, modified }
  emptied : flags.contains .truncate = true → ∃ next, after.entry? id = some next ∧
    next.size = .ok 0 ∧ next.isDirty = true ∧ next.handles = entry.handles + 1 ∧
    next.path = entry.path
  unused : before.get? handle = none
  handed : after.handles = before.handles ++ [(handle, id)]
  cancelled : flags.isWritable = true → after.pending.get? path = none
  spared : flags.isWritable = false →
    after.pending = before.pending ∧ ∀ task, after.doing? task = before.doing? task
  elsewhere : Confined (path.Same ·) (· = id) before after

/-- What came of getting hold of the entry: one handle more, and a place on the map. -/
structure Acquired (before after : Cache) (path : Path) (modified : Modified) (id : EntryId)
    (entry : Entry) : Prop where
  mapped : after.mapped.get? path = some id
  present : after.entry? id = some { entry with handles := entry.handles + 1, modified }
  work : SameWork before after
  elsewhere : Confined (path.Same ·) (· = id) before after

theorem acquired_target
    (known : ∀ {id}, cache.mapped.get? path = some id → (cache.entry? id).isSome)
    (acquired : cache.acquire path size modified = (.ok id, held)) :
    ∃ entry, Target cache path size modified id entry ∧
      Acquired cache held path modified id entry := by
  have place := (acquired_place acquired).1
  have work := sameWork_acquired acquired
  rcases acquire_ok acquired with ⟨mapped, rfl⟩ | ⟨unmapped, made, fits, rfl, rfl⟩
  · obtain ⟨entry, found⟩ := Option.isSome_iff_exists.mp (known mapped)
    exact ⟨entry, .found mapped found, place, (acquired_known acquired found).2, work,
      .modifyEntry cache _ rfl⟩
  · obtain ⟨-, rfl⟩ := Entry.create_ok fits
    refine ⟨_, .fresh unmapped, place, (entry?_append cache rfl).trans (if_pos rfl), work,
      .of_sameWork work (fun {other} away => ?_) fun {other entry} apart found => ?_⟩
    · exact PathMap.get?_set.trans (if_neg away)
    · exact ((entry?_append cache rfl).trans (if_neg apart)).trans found

theorem Target.of_sameStore (target : Target base path size modified id entry)
    (same : SameStore cache base) : Target cache path size modified id entry := by
  cases target with
  | found mapped present => exact .found (same.mapped ▸ mapped) (same.lookup.symm.trans present)
  | fresh unmapped =>
      rw [same.entries]
      exact .fresh (same.mapped ▸ unmapped)

theorem Target.paced (target : Target cache path size modified id entry) (paced : cache.Paced) :
    entry.clean ≤ entry.version := by
  cases target with
  | found mapped present => exact paced.behind present
  | fresh unmapped => exact Nat.le_refl _

/-! ### Outcomes -/

theorem cancel_of_unrecorded (sound : cache.Sound) (nothing : cache.pending.get? path = none) :
    (cache.cancel path).2 = cache.emit (.cancelled path false) := by
  obtain ⟨state, backed⟩ := sound.backed
  rw [pending_of_background backed] at nothing
  simp only [cancel, backed, nothing]

/-- What is done to the entry that was got hold of, and to nothing else. -/
theorem Acquired.granted (got : Acquired base held path modified id entry)
    (confined : Confined (path.Same ·) (· = id) cache base)
    (cancelled : flags.isWritable = true → base.pending.get? path = none)
    (spared : flags.isWritable = false → base = cache)
    (work : SameWork held after) (mapped : after.mapped = held.mapped)
    (others : ∀ other, other ≠ id → after.entry? other = held.entry? other)
    (kept : flags.contains .truncate = false →
      after.entry? id = some { entry with handles := entry.handles + 1, modified })
    (emptied : flags.contains .truncate = true → ∃ next, after.entry? id = some next ∧
      next.size = .ok 0 ∧ next.isDirty = true ∧ next.handles = entry.handles + 1 ∧
      next.path = entry.path)
    (unused : cache.get? handle = none) (handed : after.handles = cache.handles ++ [(handle, id)]) :
    Granted cache after path flags modified handle id entry where
  mapped := by rw [mapped, got.mapped]
  kept := kept
  emptied := emptied
  unused := unused
  handed := handed
  cancelled writes := by rw [work.pending, got.work.pending, cancelled writes]
  spared reads := by
    rw [work.pending, got.work.pending, spared reads]
    exact ⟨rfl, fun task => by rw [work.doing?, got.work.doing?, spared reads]⟩
  elsewhere := (confined.trans got.elsewhere).trans (.of_sameWork work (fun _ => by rw [mapped])
    fun apart found => (others _ apart).trans found)

theorem Current.openFile_ok (current : cache.Current) (sound : cache.Sound) (rooted : cache.Rooted)
    (counted : cache.Counted) (paced : cache.Paced)
    (done : (cache.openFile path flags size modified).1 = .ok handle) :
    ∃ id entry, Target cache path size modified id entry ∧
      Granted cache (cache.openFile path flags size modified).2 path flags modified handle id
        entry := by
  have opens := opens_openFile cache path flags size modified
  have hands := hands_openFile cache path flags size modified
  have store := sameStore_prepared cache path flags
  have confined : ∀ {touched}, Confined (path.Same ·) touched cache
      (if flags.isWritable then (cache.cancel path).2 else cache) := by
    intro touched
    split
    · exact .cancel current.enrolled sound id
    · exact .refl cache
  have cancelled : flags.isWritable = true →
      (if flags.isWritable then (cache.cancel path).2 else cache).pending.get? path = none := by
    intro writes
    rw [if_pos writes, pending_cancel sound.backed, PathMap.get?_erase_of_same (.refl path)]
  have spared : flags.isWritable = false →
      (if flags.isWritable then (cache.cancel path).2 else cache) = cache :=
    fun reads => if_neg (by rw [reads]; exact Bool.false_ne_true)
  generalize (if flags.isWritable then (cache.cancel path).2 else cache) = base
    at opens store confined cancelled spared
  have known : ∀ {id}, base.mapped.get? path = some id → (base.entry? id).isSome := by
    intro id mapped
    rw [store.lookup]
    exact rooted.referred (.inr ⟨path, store.mapped ▸ mapped⟩)
  generalize cache.openFile path flags size modified = result at opens hands done
  obtain ⟨answer, after⟩ := result
  cases hands with
  | refused handles counter => cases done
  | @handed given _ place handles counter =>
      cases done
      have longer : cache.handles ≠ cache.handles ++ [(cache.counter.next, given)] := by simp
      simp only at opens ⊢
      cases opens with
      | unmade unmapped => exact absurd (store.handles.symm.trans handles) longer
      | @opened id held acquired keeps =>
          obtain ⟨entry, target, got⟩ := acquired_target known acquired
          obtain rfl : id = given := Option.some.inj (got.mapped.symm.trans place)
          refine ⟨id, entry, target.of_sameStore store, ?_⟩
          refine got.granted confined cancelled spared ?_ rfl (fun _ _ => rfl)
            (fun _ => got.present) (fun wipes => ?_) counted.get?_next handles
          · exact (SameWork.refl held).setHandles _ _
          · rw [keeps] at wipes
            cases wipes
      | @emptied id held found empty acquired wipes present done =>
          obtain ⟨entry, target, got⟩ := acquired_target known acquired
          obtain rfl : id = given := Option.some.inj (got.mapped.symm.trans place)
          rw [got.present] at present
          cases present
          have target := target.of_sameStore store
          have shape := Entry.emptied_of_truncate done (target.paced paced)
          refine ⟨id, entry, target, ?_⟩
          refine got.granted confined cancelled spared ?_ rfl (fun other apart => ?_)
            (fun keeps => ?_) (fun _ => ⟨empty, ?_, shape⟩) counted.get?_next handles
          · exact ((SameWork.refl held).setEntry _ _).setHandles _ _
          · exact (entry?_setEntry held).trans (if_neg apart)
          · rw [wipes] at keeps
            cases keeps
          · refine (entry?_setEntry held).trans ?_
            rw [if_pos rfl, got.present]
            rfl
      | @refused id held acquired wipes closed =>
          have tables := sameTables_release held id
          have kept := (acquired_place acquired).2.1
          exact absurd ((tables.handles.trans (kept.trans store.handles)).symm.trans handles) longer

/-- What is mapped is open, so that there is nothing that could be refused. -/
theorem Coherent.openFile_error {made : EntryId → Prop} (coherent : cache.Coherent made)
    (current : cache.Current) (sound : cache.Sound)
    (failed : (cache.openFile path flags size modified).1 = .error error) :
    cache.mapped.get? path = none ∧
      (cache.openFile path flags size modified).2
        = { cache with events := (cache.openFile path flags size modified).2.events } := by
  have opens := opens_openFile cache path flags size modified
  have hands := hands_openFile cache path flags size modified
  have store := sameStore_prepared cache path flags
  have quiet : cache.mapped.get? path = none →
      (if flags.isWritable then (cache.cancel path).2 else cache)
        = { cache with
            events := (if flags.isWritable then (cache.cancel path).2 else cache).events } := by
    intro unmapped
    split
    · rw [cancel_of_unrecorded sound (current.unrecorded unmapped)]
      rfl
    · rfl
  generalize (if flags.isWritable then (cache.cancel path).2 else cache) = base
    at opens store quiet
  generalize cache.openFile path flags size modified = result at opens hands failed
  obtain ⟨answer, after⟩ := result
  cases hands with
  | handed mapped handles counter => cases failed
  | refused handles counter =>
      have longer : ∀ item, cache.handles ++ [item] ≠ cache.handles := by simp
      simp only at opens ⊢
      cases opens with
      | unmade unmapped =>
          rw [store.mapped] at unmapped
          exact ⟨unmapped, quiet unmapped⟩
      | opened acquired keeps =>
          have kept := (acquired_place acquired).2.1
          rw [kept, store.handles] at handles
          exact absurd handles (longer _)
      | @emptied _ held _ _ acquired wipes found done =>
          have kept := (acquired_place acquired).2.1
          simp only [kept, store.handles] at handles
          exact absurd handles (longer _)
      | @refused id held acquired wipes closed =>
          obtain ⟨mapped, -⟩ := acquired_closed acquired closed
          obtain ⟨-, entry, present, -, shown⟩ := coherent.homed (store.mapped ▸ mapped)
          have reopened := (acquired_known acquired (store.lookup.trans present)).2
          have shut := closed _ reopened
          rw [Entry.isOpen, show entry.content = none from shut] at shown
          cases shown

/-- As long as nobody else asks for uploads, or moves or closes what the cache made: whoever gets
a handle of a path got it for the entry that was mapped there, or for a new one; the entry is as
it was unless it was to be emptied, and what is elsewhere is as it was.  Whoever gets none finds
nothing at the path and leaves nothing but a line in the record. -/
theorem openFile_all_or_nothing (mount : Mount) (steps : Nat → Step)
    (unasked : ∀ n, (steps n).asks = false)
    (left : ∀ n id, MadeBefore mount.cache steps n id → (steps n).meddles id = false) (n : Nat)
    (path : Path) (flags : OpenFlags) (size : Nat) (modified : Modified) :
    (∀ handle, (Cache.openFile (mount.cache.after steps n) path flags size modified).1
        = .ok handle →
      ∃ id entry, Target (mount.cache.after steps n) path size modified id entry ∧
        Granted (mount.cache.after steps n)
          (Cache.openFile (mount.cache.after steps n) path flags size modified).2 path flags
          modified handle id entry) ∧
    ∀ error, (Cache.openFile (mount.cache.after steps n) path flags size modified).1
        = .error error →
      (mount.cache.after steps n).mapped.get? path = none ∧
        (Cache.openFile (mount.cache.after steps n) path flags size modified).2
          = { mount.cache.after steps n with
              events := (Cache.openFile (mount.cache.after steps n) path flags size
                modified).2.events } := by
  have current := current_after mount unasked n
  have sound := sound_after mount steps n
  exact ⟨fun handle => current.openFile_ok sound (rooted_after mount steps n)
      (counted_after mount steps n) (paced_after mount steps n),
    fun error => (coherent_after mount left n).openFile_error current sound⟩

/-- A file was written and closed, so that its upload is on record. -/
def closedDirty : List Step :=
  [.openFile ⟨[97]⟩ .readWrite 4 .now, .write 0 1 [7], .closeHandle 1]

/-- It is opened again to be emptied; another one is too large to be made. -/
theorem closedDirty_opened :
    (∀ n, (scripted closedDirty n).asks = false) ∧
    (∀ n id, MadeBefore (mountWith 0).cache (scripted closedDirty) n id →
      (scripted closedDirty n).meddles id = false) ∧
    ((mountWith 0).cache.after (scripted closedDirty) 3).pending.get? ⟨[97]⟩ = some 0 ∧
    (∃ id entry, Target ((mountWith 0).cache.after (scripted closedDirty) 3) ⟨[97]⟩ 4 .now
        id entry ∧
      Granted ((mountWith 0).cache.after (scripted closedDirty) 3)
        (Cache.openFile ((mountWith 0).cache.after (scripted closedDirty) 3) ⟨[97]⟩
          (OpenFlags.readWrite.union .truncate) 4 .now).2 ⟨[97]⟩
        (OpenFlags.readWrite.union .truncate) .now 2 id entry) ∧
    ((mountWith 0).cache.after (scripted closedDirty) 3).mapped.get? ⟨[98]⟩ = none ∧
    (Cache.openFile ((mountWith 0).cache.after (scripted closedDirty) 3) ⟨[98]⟩ .readWrite
        lengthLimit .now).2
      = { (mountWith 0).cache.after (scripted closedDirty) 3 with
          events := (Cache.openFile ((mountWith 0).cache.after (scripted closedDirty) 3) ⟨[98]⟩
            .readWrite lengthLimit .now).2.events } := by
  have unasked := @scripted_forall closedDirty (·.asks = false) (by decide) rfl
  have left : ∀ n id, MadeBefore (mountWith 0).cache (scripted closedDirty) n id →
      (scripted closedDirty n).meddles id = false :=
    fun n id _ => @scripted_forall closedDirty (·.meddles id = false)
      (by simp [closedDirty, Step.meddles]) rfl n
  obtain ⟨opens, -⟩ := openFile_all_or_nothing (mountWith 0) _ unasked left 3 ⟨[97]⟩
    (OpenFlags.readWrite.union .truncate) 4 .now
  obtain ⟨-, refuses⟩ := openFile_all_or_nothing (mountWith 0) _ unasked left 3 ⟨[98]⟩ .readWrite
    lengthLimit .now
  exact ⟨unasked, left, by decide, opens 2 (by rfl), refuses (.allocation .sizeTooLarge) (by rfl)⟩

end Cache

end SparseCache
