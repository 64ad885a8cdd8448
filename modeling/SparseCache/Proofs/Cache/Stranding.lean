import SparseCache.Proofs.Cache.Acts

namespace SparseCache.Cache

/-! No idle entry is stranded, and none has two owners.

The main theorem is `exists_one_owner`: along a run in which only the cache itself has
uploads scheduled and cancelled, every mapped entry without handles has its upload on
record or a timer of its epoch, and never both.
-/

variable {cache base after : Cache} {id other : EntryId} {entry : Entry}
  {path source destination : Path} {task upload : TaskId} {job : Upload} {epoch due : Nat}
  {lapsed lapsed' : Path → Prop}

/-! ### Moving -/

theorem entry?_relocate (source destination : Path) (id : EntryId)
    (found : cache.entry? other = some entry) :
    ∃ next, Cache.entry? (cache.relocate source destination id) other = some next ∧
      next.epoch = entry.epoch ∧ (next.handles = 0 → entry.handles = 0) ∧
      next.path = if other = id then destination else entry.path := by
  have moved : ∃ next, Cache.entry? ({ cache with
      mapped := (cache.mapped.erase source).set destination id
      }.modifyEntry id fun entry => { entry with path := destination }) other = some next ∧
      next.epoch = entry.epoch ∧ next.handles = entry.handles ∧
      next.path = if other = id then destination else entry.path := by
    rw [entry?_modifyEntry]
    have found' : entry? { cache with
        mapped := (cache.mapped.erase source).set destination id } other = some entry := found
    split
    · exact ⟨{ entry with path := destination }, by rw [found']; rfl, rfl, rfl, rfl⟩
    · exact ⟨entry, found', rfl, rfl, rfl⟩
  obtain ⟨next, present, age, handles, place⟩ := moved
  unfold relocate
  simp only
  split
  · obtain ⟨final, present', place', age', idle⟩ := (Keeps.closeEntry _ _).kept present
    exact ⟨final, present', age'.trans age, fun none => handles ▸ idle none, place'.trans place⟩
  · exact ⟨next, present, age, fun none => handles ▸ none, place⟩

theorem mapped_before_relocate
    (found : (cache.relocate source destination id).mapped.get? path = some other) :
    destination.Same path ∧ other = id ∨
      ¬ destination.Same path ∧ ¬ source.Same path ∧ cache.mapped.get? path = some other := by
  rw [mapped_relocate, PathMap.get?_set] at found
  split at found
  · rename_i here
    exact .inl ⟨here, (Option.some.inj found).symm⟩
  · rename_i apart
    exact .inr ⟨apart, PathMap.get?_erase_eq_some_iff.mp found⟩

/-- The owner of an entry goes with it. -/
theorem OwnedBut.relocate (owned : cache.OwnedBut lapsed)
    (mapped : cache.mapped.get? source = some id)
    (free : ∀ {other}, source.Same other ∨ destination.Same other →
      cache.pending.get? other = none) :
    (cache.relocate source destination id).OwnedBut fun other =>
      destination.Same other ∧ lapsed source ∨ ¬ destination.Same other ∧ lapsed other := by
  have same := (SameWork.refl cache).relocate source destination id
  have table := @mapped_relocate cache id source destination
  have places := fun {path other} => @mapped_before_relocate cache id other path source destination
  have entries := fun {other entry} => @entry?_relocate cache other entry source destination id
  generalize cache.relocate source destination id = after at same table places entries
  have times : ∀ {task id epoch}, after.Times task id epoch ↔ cache.Times task id epoch := by
    intro task other epoch
    rw [Times, Times, same.doing?]
  have pends : ∀ {path task job}, after.Pends path task job → cache.Pends path task job := by
    rintro path task job ⟨registered, working⟩
    exact ⟨same.pending ▸ registered, same.doing? ▸ working⟩
  have ages : ∀ {other entry}, cache.entry? other = some entry →
      ∃ next, after.entry? other = some next ∧ next.epoch = entry.epoch := by
    intro other entry found
    obtain ⟨next, present, age, -⟩ := entries found
    exact ⟨next, present, age⟩
  -- Whatever owned an entry that is idle now goes on doing so.
  have still : ∀ {place other held}, cache.mapped.get? place = some other →
      after.entry? other = some held → held.handles = 0 → ¬ lapsed place →
      (∃ task, cache.pending.get? place = some task) ∨
        ∃ task, after.Times task other held.epoch := by
    intro place other held found shown idle going
    obtain ⟨entry, known, -⟩ := owned.placed found
    obtain ⟨next, present, age, used, -⟩ := entries known
    rw [shown] at present
    cases present
    rcases owned.owned found known (used idle) going with registered | ⟨task, timer⟩
    · exact .inl registered
    · exact .inr ⟨task, times.mpr (by rwa [age])⟩
  refine ⟨fun {path other} found => ?_, fun {path task} registered => ?_,
    fun {path task job} recorded going => ?_, fun {task other epoch} timer => ?_,
    fun {other held one two} shown first second => ?_,
    fun {path upload job held task} recorded shown timer => ?_,
    fun {path other held} found shown idle going => ?_⟩
  · rcases places found with ⟨here, rfl⟩ | ⟨-, elsewhere, before⟩
    · obtain ⟨entry, known, -⟩ := owned.placed mapped
      obtain ⟨next, present, -, -, place⟩ := entries known
      rw [if_pos rfl] at place
      exact ⟨next, present, by rwa [place]⟩
    · obtain ⟨entry, known, there⟩ := owned.placed before
      obtain ⟨next, present, -, -, place⟩ := entries known
      rw [if_neg] at place
      · exact ⟨next, present, by rwa [place]⟩
      · rintro rfl
        exact elsewhere (owned.same_of_mapped mapped before)
  · rw [same.pending] at registered
    rw [same.doing?]
    exact owned.pends registered
  · have away : ¬ (source.Same path ∨ destination.Same path) := by
      intro here
      have registered := (pends recorded).registered
      rw [free here] at registered
      cases registered
    obtain ⟨apart, elsewhere⟩ := not_or.mp away
    obtain ⟨taken, entry, known, goal⟩ :=
      owned.tied (pends recorded) fun gone => going (.inr ⟨elsewhere, gone⟩)
    obtain ⟨next, present, age⟩ := ages known
    refine ⟨?_, next, present, by rwa [age]⟩
    rw [table, PathMap.get?_set, if_neg elsewhere, PathMap.get?_erase_eq_some_iff]
    exact ⟨apart, taken⟩
  · obtain ⟨entry, known, upto⟩ := owned.timely (times.mp timer)
    obtain ⟨next, present, age⟩ := ages known
    exact ⟨next, present, by rwa [age]⟩
  · obtain ⟨old, known, age⟩ := owned.age_of_times ages (times.mp first) shown
    rw [age] at first second
    exact owned.single known (times.mp first) (times.mp second)
  · obtain ⟨old, known, age⟩ := owned.age_of_times ages (times.mp timer) shown
    rw [age] at timer
    exact owned.apart (pends recorded) known (times.mp timer)
  · rw [same.pending]
    rcases places found with ⟨here, rfl⟩ | ⟨apart, -, before⟩
    · rcases still mapped shown idle fun gone => going (.inl ⟨here, gone⟩) with
        ⟨task, registered⟩ | timer
      · rw [free (.inl rfl)] at registered
        cases registered
      · exact .inr timer
    · exact still before shown idle fun gone => going (.inr ⟨apart, gone⟩)

/-- Where the upload of the entry was taken back, a new one takes charge at the destination. -/
theorem OwnedBut.rescheduled
    (owned : cache.OwnedBut fun other => source.Same other ∨ destination.Same other)
    (sound : cache.Sound) (mapped : cache.mapped.get? source = some id)
    (free : ∀ {other}, source.Same other ∨ destination.Same other →
      cache.pending.get? other = none)
    (found : cache.entry? id = some entry) (untimed : ∀ task, ¬ cache.Times task id entry.epoch) :
    Owned ((cache.relocate source destination id).schedule id (.evict
      (((Cache.entry? (cache.relocate source destination id) id).map Entry.epoch).getD 0))) := by
  have same := (SameWork.refl cache).relocate source destination id
  obtain ⟨next, present, age, -, place⟩ := entry?_relocate source destination id found
  rw [if_pos rfl] at place
  have moved : (cache.relocate source destination id).OwnedBut destination.Same := by
    refine (owned.relocate mapped free).restored (fun other gone going => ?_)
      fun {other _ _} gone going taken _ => ?_
    · rw [same.pending]
      rcases gone with ⟨there, -⟩ | ⟨-, here⟩
      · exact absurd there going
      · exact free here
    · rcases mapped_before_relocate taken with ⟨there, -⟩ | ⟨-, elsewhere, -⟩
      · exact absurd there going
      · rcases gone with ⟨there, -⟩ | ⟨-, here | there⟩
        · exact absurd there going
        · exact absurd here elsewhere
        · exact absurd there going
  have here : (cache.relocate source destination id).mapped.get? next.path = some id := by
    rw [mapped_relocate, place]
    exact PathMap.get?_set.trans (if_pos rfl)
  rw [present]
  refine (moved.schedule (same.sound sound) present here fun task ⟨due, timer⟩ => ?_).mono
    fun other gone => gone.2 (by rw [place]; exact gone.1)
  rw [same.doing?, age] at timer
  exact untimed task ⟨due, timer⟩

theorem OwnedBut.moveFile (owned : cache.Owned) (sound : cache.Sound)
    (source destination : Path) : (cache.moveFile source destination).2.Owned := by
  have moves := moves_moveFile cache source destination
  have wanes := wanes_moved sound source destination
  have store := ((SameStore.refl cache).cancel source).cancel destination
  have sound_source := (Wanes.cancel sound source).sound
  have free : ∀ {other}, source.Same other ∨ destination.Same other →
      ((cache.cancel source).2.cancel destination).2.pending.get? other = none := by
    intro other here
    rw [pending_cancel sound_source.backed, PathMap.get?_erase]
    split
    · rfl
    · rename_i apart
      exact pending_cancelled sound (here.resolve_right apart)
  have cancelled : ((cache.cancel source).2.cancel destination).2.OwnedBut fun other =>
      source.Same other ∧ (cache.pending.get? source).isSome ∨ destination.Same other := by
    refine ((owned.cancel sound source).cancel sound_source destination).mono fun other gone => ?_
    rcases gone with (never | ⟨here, hit⟩) | ⟨there, -⟩
    · cases never
    · exact .inl ⟨here.symm, hit⟩
    · exact .inr there.symm
  generalize ((cache.cancel source).2.cancel destination).2 = base
    at moves wanes store free cancelled
  generalize (cache.moveFile source destination).2 = after at moves
  cases moves with
  | same same => exact owned
  | absent apart nowhere vacant =>
      refine cancelled.restored (fun other gone _ => free (gone.imp_left And.left))
        fun gone _ mapped _ => ?_
      rcases gone with ⟨here, -⟩ | there
      · rw [← PathMap.get?_congr here, nowhere] at mapped
        cases mapped
      · rw [← PathMap.get?_congr there, vacant] at mapped
        cases mapped
  | discarded apart nowhere taken =>
      have remaining : base.OwnedBut destination.Same := by
        refine cancelled.restored (fun other gone _ => free (gone.imp_left And.left))
          fun gone going mapped _ => ?_
        rcases gone with ⟨here, -⟩ | there
        · rw [← PathMap.get?_congr here, nowhere] at mapped
          cases mapped
        · exact absurd there going
      exact (remaining.unmap (free (.inr rfl)) _).mono fun other gone => gone.2 gone.1
  | moved apart mapped idle =>
      rw [cancel_hit sound.backed] at idle
      refine (cancelled.relocate mapped free).mono fun other gone => ?_
      rcases gone with ⟨-, ⟨-, hit⟩ | there⟩ | ⟨apart', ⟨-, hit⟩ | there⟩
      · rw [idle] at hit
        cases hit
      · exact apart there.symm
      · rw [idle] at hit
        cases hit
      · exact apart' there
  | @rescheduled id apart mapped hit =>
      rw [cancel_hit sound.backed] at hit
      obtain ⟨upload, registered⟩ := Option.isSome_iff_exists.mp hit
      obtain ⟨job, working, -⟩ := owned.pends registered
      obtain ⟨taken, entry, found, -⟩ := owned.tied ⟨registered, working⟩ not_false
      rw [← store.mapped, mapped] at taken
      cases taken
      refine (cancelled.mono fun other gone => gone.imp_left And.left).rescheduled wanes.sound
        mapped free (store.lookup.trans found) fun task ⟨due, timer⟩ => ?_
      exact owned.apart ⟨registered, working⟩ found ⟨due, wanes.doing timer⟩

/-! ### Discarding -/

theorem OwnedBut.delete (owned : cache.Owned) (sound : cache.Sound) (path : Path) :
    (cache.delete path).Owned := by
  have cancelled : (cache.cancel path).2.OwnedBut fun other => path.Same other := by
    refine (owned.cancel sound path).mono fun other gone => ?_
    rcases gone with never | ⟨here, -⟩
    · cases never
    · exact here.symm
  unfold Cache.delete
  simp only
  split
  · rename_i free
    refine cancelled.restored (fun other here _ => pending_cancelled sound here)
      fun here _ mapped _ => ?_
    rw [← PathMap.get?_congr here, free] at mapped
    cases mapped
  · exact (cancelled.unmap (pending_cancelled sound rfl) _).mono fun other gone => gone.2 gone.1

/-- Discarding one by one what was unmapped as a whole leaves none of its uploads on record. -/
theorem OwnedBut.foldl_discard {tree : Path} (doomed : PathMap EntryId)
    (inside : ∀ item ∈ doomed, item.1.Within tree)
    (owned : cache.OwnedBut fun other => other.Within tree) (sound : cache.Sound) :
    (doomed.foldl (fun cache (key, id) => (cache.cancel key).2.closeEntry id) cache).OwnedBut
        (fun other => other.Within tree) ∧
      ∀ {other task}, PathMap.get? (pending
          (doomed.foldl (fun cache (key, id) => (cache.cancel key).2.closeEntry id) cache)) other
          = some task →
        cache.pending.get? other = some task ∧ ∀ item ∈ doomed, ¬ item.1.Same other := by
  induction doomed generalizing cache with
  | nil => exact ⟨owned, fun registered => ⟨registered, fun item member => by cases member⟩⟩
  | cons item doomed ih =>
      have quiet := Quiet.closeEntry (cache.cancel item.1).2 item.2
      have cancelled : (cache.cancel item.1).2.OwnedBut fun other => other.Within tree := by
        refine (owned.cancel sound item.1).mono fun other gone => ?_
        rcases gone with gone | ⟨here, -⟩
        · exact gone
        · have within := inside item (.head _)
          rwa [Path.Within, ← here] at within
      have closed := (Wanes.cancel sound item.1).trans
        (.closeEntry (Wanes.cancel sound item.1).sound item.2)
      obtain ⟨final, left⟩ := ih (fun other member => inside other (.tail _ member))
        (cancelled.quiet quiet) closed.sound
      refine ⟨final, fun {other task} registered => ?_⟩
      obtain ⟨before, apart⟩ := left registered
      rw [quiet.pending, pending_cancel sound.backed, PathMap.get?_erase_eq_some_iff] at before
      obtain ⟨elsewhere, before⟩ := before
      refine ⟨before, fun other member => ?_⟩
      rcases List.mem_cons.mp member with rfl | later
      · exact elsewhere
      · exact apart other later

theorem mapped_foldl_discard (doomed : PathMap EntryId) :
    (doomed.foldl (fun cache (key, id) => (cache.cancel key).2.closeEntry id) cache).mapped
      = cache.mapped := by
  induction doomed generalizing cache with
  | nil => rfl
  | cons item doomed ih =>
      exact ih.trans ((SameTables.closeEntry _ item.2).mapped.trans
        ((SameStore.refl cache).cancel item.1).mapped)

theorem OwnedBut.deleteTree (owned : cache.Owned) (sound : cache.Sound) (tree : Path) :
    (cache.deleteTree tree).Owned := by
  have cut : OwnedBut { cache with
      mapped := cache.mapped.filter fun item => !decide (item.1.Within tree) }
      fun other => other.Within tree := by
    refine (@OwnedBut.narrowed _ _ _ (fun other => other.Within tree) owned (fun within => ?_)
      fun outside => ?_).mono fun other gone => gone.resolve_left not_false
    · exact PathMap.get?_filter_not_within.trans (if_pos within)
    · exact PathMap.get?_filter_not_within.trans (if_neg outside)
  have inside : ∀ item ∈ cache.mapped.filter (fun item => decide (item.1.Within tree)),
      item.1.Within tree := by
    intro item member
    simpa using (List.mem_filter.mp member).2
  obtain ⟨discarded, left⟩ := cut.foldl_discard _ inside ⟨sound.fresh, sound.backed⟩
  have table := @mapped_foldl_discard { cache with
      mapped := cache.mapped.filter fun item => !decide (item.1.Within tree) }
    (cache.mapped.filter fun item => decide (item.1.Within tree))
  rw [deleteTree_eq]
  refine discarded.restored (fun other within _ => ?_) fun within _ mapped _ => ?_
  · rw [Option.eq_none_iff_forall_ne_some]
    intro task registered
    -- Whatever was on record in the tree was mapped there, and so was cancelled.
    obtain ⟨before, spared⟩ := left registered
    obtain ⟨job, working, -⟩ := owned.pends before
    obtain ⟨mapped, -⟩ := owned.tied ⟨before, working⟩ not_false
    obtain ⟨key, member, here⟩ := PathMap.exists_mem_of_get? mapped
    refine spared _ (List.mem_filter.mpr ⟨member, ?_⟩) here
    rw [Path.Within, ← here] at within
    exact decide_eq_true within
  · rw [table] at mapped
    rw [PathMap.get?_filter_not_within, if_pos within] at mapped
    cases mapped

/-! ### Background work -/

theorem sameStore_unregister (cache : Cache) (path : Path) :
    SameStore cache (cache.unregister path) := by
  unfold Cache.unregister
  split
  · exact (SameStore.refl cache).setUploader _
  · exact .refl cache

/-- An upload that is on record no more leaves its place without an owner. -/
theorem OwnedBut.unregister (owned : cache.Owned) (sound : cache.Sound) (path : Path) :
    (cache.unregister path).OwnedBut path.Same := by
  have store := sameStore_unregister cache path
  have erased := @pending_unregister cache path sound.backed
  have doing := fun task => @doing?_unregister cache task path
  generalize cache.unregister path = after at store erased doing
  have times : ∀ {task id epoch}, after.Times task id epoch ↔ cache.Times task id epoch := by
    intro task id epoch
    rw [Times, Times, doing]
  have registered_before : ∀ {other task}, after.pending.get? other = some task →
      cache.pending.get? other = some task := by
    intro other task registered
    rw [erased] at registered
    exact (PathMap.get?_erase_eq_some_iff.mp registered).2
  have fewer : Fewer cache after :=
    ⟨fun mapped => store.mapped ▸ mapped, .of_entries store.entries, registered_before,
      fun {_ task job} _ before => ⟨job.stage, (doing task).trans before⟩, times.mp⟩
  refine owned.fewer fewer (fun _ _ => ⟨not_false, fun _ mapped => ?_⟩)
    fun _ _ _ going => ⟨not_false, fun _ registered => ?_, fun _ timer => times.mpr timer⟩
  · rwa [store.mapped]
  · rw [erased]
    exact PathMap.get?_erase_eq_some_iff.mpr ⟨going, registered⟩

/-- An upload that ends hands the entry over to a timer. -/
theorem OwnedBut.endUpload (owned : cache.Owned) (sound : cache.Sound)
    (working : cache.doing? upload = some (.upload { job with permit := false })) :
    (cache.endUpload upload job).Owned := by
  have elsewhere : ∀ {path}, cache.pending.get? path = some upload → job.path.Same path := by
    intro path registered
    obtain ⟨job', working', here⟩ := owned.pends registered
    rw [working] at working'
    cases working'
    exact here
  by_cases registered : cache.pending.get? job.path = some upload
  · have recorded : cache.Pends job.path upload { job with permit := false } :=
      ⟨registered, working⟩
    obtain ⟨mapped, entry, found, goal⟩ := owned.tied recorded not_false
    obtain ⟨_, known, home⟩ := owned.placed mapped
    rw [found] at known
    cases known
    rw [endUpload_of_registered sound.backed registered, show job.completion = _ from goal]
    have ended := owned.unregister sound job.path
    have store := sameStore_unregister cache job.path
    have erased := @pending_unregister cache job.path sound.backed
    have fresh := @Fresh.unregister cache job.path sound.fresh
    have doing := fun task => @doing?_unregister cache task job.path
    generalize cache.unregister job.path = base at ended store erased fresh doing
    have free : base.pending.get? entry.path = none := by
      rw [erased]
      exact PathMap.get?_erase_of_same home.symm
    -- What is on record elsewhere is of what is mapped there.
    have alone : ∀ {path task job'}, base.Pends path task job' → job'.entry ≠ job.entry := by
      intro path task job' pends about
      obtain ⟨apart, before⟩ := PathMap.get?_erase_eq_some_iff.mp (erased ▸ pends.registered)
      obtain ⟨taken, -⟩ := owned.tied ⟨before, (doing task).symm.trans pends.doing⟩ not_false
      rw [about] at taken
      exact apart (owned.same_of_mapped mapped taken)
    have timer := fun task => @doing?_complete_evict base task job.entry fresh entry.epoch
    have hands : HandsOver base (base.complete job.entry (.evict entry.epoch)) job.entry entry
        base.nextTask (.grace job.entry entry.epoch _) :=
      { store := (SameStore.refl base).complete job.entry (.evict entry.epoch)
        found := store.lookup.trans found
        mapped := by rw [store.mapped, PathMap.get?_congr home]; exact mapped
        untimed := fun task ⟨due, before⟩ =>
          owned.apart recorded found ⟨due, (doing task).symm.trans before⟩
        unused := fresh.doing? (Nat.le_refl _)
        doing := by simpa [free] using timer
        takes := .timer free alone pending_complete }
    have handed := ended.handedOver hands
    refine (handed.quiet (.stopped ((SameStore.refl _).reap upload) pending_reap
      (fun other => doing?_reap) (fun on_record _ => ?_) fun id epoch ⟨due, times⟩ => ?_)).mono
      fun path gone => gone.2 (home.trans gone.1)
    · rw [pending_complete, erased] at on_record
      obtain ⟨apart, before⟩ := PathMap.get?_erase_eq_some_iff.mp on_record
      exact apart (elsewhere before)
    · rw [timer, doing, working] at times
      split at times
      · rename_i new
        have old := fresh.doing? (Nat.le_of_eq new.symm)
        rw [doing, working] at old
        cases old
      · cases times
  · refine owned.quiet (.stopped ((SameStore.refl cache).endUpload upload job) ?_
      (fun task => doing?_endUpload_of_not_evict sound.backed
        fun _ on_record => absurd on_record registered)
      (fun on_record _ => ?_) fun id epoch ⟨due, timer⟩ => ?_)
    · rw [pending_endUpload sound.backed, if_neg registered]
    · rw [← PathMap.get?_congr (elsewhere on_record)] at on_record
      exact registered on_record
    · rw [working] at timer
      cases timer

theorem OwnedBut.unrecorded (owned : cache.Owned) (found : cache.entry? id = some entry)
    (times : cache.Times task id entry.epoch) (mapped : cache.mapped.get? path = some id) :
    cache.pending.get? path = none := by
  rw [Option.eq_none_iff_forall_ne_some]
  intro upload registered
  obtain ⟨job, working, -⟩ := owned.pends registered
  obtain ⟨taken, -⟩ := owned.tied ⟨registered, working⟩ not_false
  rw [mapped] at taken
  cases taken
  exact owned.apart ⟨registered, working⟩ found times

/-- A timer that goes leaves at most its own entry without an owner. -/
theorem OwnedBut.dropTimer (owned : cache.Owned) (found : cache.entry? id = some entry)
    (timer : cache.doing? task = some (.grace id epoch due)) :
    (cache.dropTask task).OwnedBut fun path =>
      cache.mapped.get? path = some id ∧ entry.epoch = epoch := by
  have others : ∀ {other work}, cache.doing? other = some work → other ≠ task →
      (cache.dropTask task).doing? other = some work :=
    fun before apart => doing?_dropTask.trans ((if_neg apart).trans before)
  have before : ∀ {other work}, (cache.dropTask task).doing? other = some work →
      cache.doing? other = some work := by
    intro other work found
    rw [doing?_dropTask] at found
    split at found
    · cases found
    · exact found
  have fewer : Fewer cache (cache.dropTask task) := by
    refine ⟨fun mapped => mapped, .of_entries rfl, fun registered => registered,
      fun {path other job} registered doing => ⟨job.stage, others doing ?_⟩,
      fun {other id epoch} ⟨due, doing⟩ => ⟨due, before doing⟩⟩
    rintro rfl
    exact owned.not_registered_of_times ⟨due, timer⟩ path registered
  refine owned.fewer fewer (fun _ _ => ⟨not_false, fun _ mapped => mapped⟩)
    fun {path other held} mapped present _ going =>
      ⟨not_false, fun _ registered => registered,
        fun task' ⟨due', doing⟩ => ⟨due', others doing ?_⟩⟩
  rintro rfl
  rw [timer] at doing
  cases doing
  rw [show cache.entry? id = some held from present] at found
  cases found
  exact going ⟨mapped, rfl⟩

/-- A timer goes when it fires, and so does the entry that it was in charge of. -/
theorem OwnedBut.expire (owned : cache.Owned)
    (timer : cache.doing? task = some (.grace id epoch due)) :
    ((cache.dropTask task).evictIfIdle id epoch).Owned := by
  have times : cache.Times task id epoch := ⟨due, timer⟩
  obtain ⟨entry, found, -⟩ := owned.timely times
  have dropped := owned.dropTimer found timer
  unfold evictIfIdle
  rw [show Cache.entry? (cache.dropTask task) id = some entry from found]
  simp only
  split
  · rename_i idle
    obtain ⟨mapped, -, rfl⟩ := idle
    refine (dropped.unmap (owned.unrecorded found times mapped) id).mono fun path gone => gone.2 ?_
    exact owned.same_of_mapped mapped gone.1.1
  · rename_i busy
    refine dropped.restored (fun path gone _ => ?_)
      fun {path other held} gone _ mapped present => Nat.pos_of_ne_zero fun idle => busy ?_
    · obtain ⟨mapped, rfl⟩ := gone
      exact owned.unrecorded found times mapped
    · obtain ⟨here, current⟩ := gone
      rw [show cache.mapped.get? path = some other from mapped] at here
      cases here
      obtain ⟨_, known, home⟩ := owned.placed mapped
      rw [show cache.entry? id = some held from present] at found known
      cases found
      cases known
      exact ⟨(PathMap.get?_congr home).trans mapped, idle, current⟩

theorem OwnedBut.act (owned : cache.Owned) (sound : cache.Sound) (action : Action) :
    (cache.act action).Owned := by
  have acts := acts_act sound action
  generalize cache.act action = after at acts
  cases acts with
  | steady steady => exact owned.quiet steady.toQuiet
  | ended steady sound working => exact (owned.quiet steady.toQuiet).endUpload sound working
  | expired timer => exact owned.expire timer

/-! ### Whole runs -/

/-- Uploads are scheduled and cancelled by the cache alone, the uploader stays, and no entry
is renamed but by a move. -/
def Step.ByCache : Step → Prop
  | .schedule .. | .cancel _ | .rename .. | .dropUploader => False
  | _ => True

instance : DecidablePred Step.ByCache := fun step => by
  cases step <;> unfold Step.ByCache <;> infer_instance

theorem owned_step (owned : cache.Owned) (sound : cache.Sound) (counted : cache.Counted)
    (rooted : cache.Rooted) {step : Step} (orderly : step.ByCache) : (cache.step step).Owned := by
  by_cases plain : step.plain = true
  · exact owned.quiet (Steady.step sound plain).toQuiet
  cases step with
  | rename id path => exact orderly.elim
  | schedule id tag => exact orderly.elim
  | cancel path => exact orderly.elim
  | openFile path flags size modified => exact owned.openFile sound path flags size modified
  | closeHandle handle => exact owned.closeHandle sound counted rooted handle
  | moveFile source destination => exact owned.moveFile sound source destination
  | delete path => exact owned.delete sound path
  | deleteTree path => exact owned.deleteTree sound path
  | act action => exact owned.act sound action
  | dropUploader => exact orderly.elim
  | _ => exact absurd rfl plain

theorem owned_after (mount : Mount) {steps : Nat → Step}
    (orderly : ∀ n, (steps n).ByCache) (n : Nat) : (mount.cache.after steps n).Owned := by
  refine after_induction ?_ (fun n owned => owned_step owned (sound_after mount steps n)
    (counted_after mount steps n) (rooted_after mount steps n) (orderly n)) n
  refine ⟨fun mapped => ?_, fun registered => ?_, fun recorded _ => ?_, fun ⟨_, timer⟩ => ?_,
    fun found _ _ => ?_, fun recorded _ _ => ?_, fun mapped _ _ _ => ?_⟩
  · cases mapped
  · cases registered
  · cases recorded.registered
  · cases timer
  · cases found
  · cases recorded.registered
  · cases mapped

/-- Who sees to it that an idle entry is evicted. -/
inductive OneOwner (cache : Cache) (id : EntryId) (entry : Entry) : Prop
  /-- One upload of the entry is on record, at its path and for its epoch, and no timer runs. -/
  | upload {task : TaskId} {job : Upload} (pends : cache.Pends entry.path task job)
      (about : job.entry = id) (goal : job.completion = .evict entry.epoch)
      (only : ∀ path other job', cache.Pends path other job' → job'.entry = id →
        entry.path.Same path ∧ other = task)
      (untimed : ∀ other, ¬ cache.Times other id entry.epoch)
  /-- One timer runs for the epoch of the entry, and none of its uploads is on record. -/
  | timer {task : TaskId} (times : cache.Times task id entry.epoch)
      (only : ∀ other, cache.Times other id entry.epoch → other = task)
      (unrecorded : ∀ path upload job, cache.Pends path upload job → job.entry ≠ id)

theorem OwnedBut.oneOwner (owned : cache.Owned) (mapped : cache.mapped.get? path = some id)
    (found : cache.entry? id = some entry) (idle : entry.handles = 0) :
    OneOwner cache id entry := by
  obtain ⟨held, known, here⟩ := owned.placed mapped
  rw [found] at known
  cases known
  have mapped : cache.mapped.get? entry.path = some id := (PathMap.get?_congr here).trans mapped
  have at_home : ∀ path task job, cache.Pends path task job → job.entry = id →
      entry.path.Same path := by
    intro path task job recorded about
    obtain ⟨taken, -⟩ := owned.tied recorded not_false
    rw [about] at taken
    exact owned.same_of_mapped mapped taken
  rcases owned.owned mapped found idle not_false with ⟨task, registered⟩ | ⟨task, times⟩
  · obtain ⟨job, working, -⟩ := owned.pends registered
    have recorded : cache.Pends entry.path task job := ⟨registered, working⟩
    obtain ⟨taken, held, known, goal⟩ := owned.tied recorded not_false
    rw [mapped] at taken
    cases taken
    rw [found] at known
    cases known
    refine .upload recorded rfl goal (fun path other job' recorded' about => ?_)
      fun other => owned.apart recorded found
    have same := at_home path other job' recorded' about
    have registered' := recorded'.registered
    rw [← PathMap.get?_congr same, registered] at registered'
    exact ⟨same, (Option.some.inj registered').symm⟩
  · refine .timer times (fun other times' => owned.single found times' times)
      fun path upload job recorded about => ?_
    rw [← about] at found times
    exact owned.apart recorded found times

/-- Every idle entry that is mapped has one owner, and what is on record is the upload of the
entry that is mapped there. -/
theorem exists_one_owner (mount : Mount) (steps : Nat → Step) (orderly : ∀ n, (steps n).ByCache)
    (n : Nat) :
    (∀ path id, (mount.cache.after steps n).mapped.get? path = some id →
      ∃ entry, Cache.entry? (mount.cache.after steps n) id = some entry ∧ entry.path.Same path ∧
        (entry.handles = 0 → OneOwner (mount.cache.after steps n) id entry)) ∧
    ∀ path task, (mount.cache.after steps n).pending.get? path = some task →
      ∃ job, (mount.cache.after steps n).Pends path task job ∧ job.path.Same path ∧
        (mount.cache.after steps n).mapped.get? path = some job.entry := by
  have owned := owned_after mount orderly n
  constructor
  · intro path id mapped
    obtain ⟨entry, found, here⟩ := owned.placed mapped
    exact ⟨entry, found, here, owned.oneOwner mapped found⟩
  · intro path task registered
    obtain ⟨job, working, here⟩ := owned.pends registered
    exact ⟨job, ⟨registered, working⟩, here, (owned.tied ⟨registered, working⟩ not_false).1⟩

/-- An entry is closed, read again while its upload is on record, closed once more and moved;
then its last upload ends. -/
def movedIdle : List Step :=
  [.openFile ⟨[47, 97]⟩ .readOnly 4 .now, .closeHandle 1, .openFile ⟨[47, 97]⟩ .readOnly 4 .now,
    .closeHandle 2, .moveFile ⟨[47, 97]⟩ ⟨[47, 98]⟩, .act (.advance 2)]

theorem movedIdle_has_one_owner :
    (∀ n, (scripted movedIdle n).ByCache) ∧
      ((mountWith 100).cache.after (scripted movedIdle) 5).mapped.get? ⟨[47, 98]⟩ = some 0 ∧
      ∃ entry, Cache.entry? ((mountWith 100).cache.after (scripted movedIdle) 5) 0 = some entry ∧
        entry.handles = 0 ∧
        OneOwner ((mountWith 100).cache.after (scripted movedIdle) 5) 0 entry ∧
        ∃ next, Cache.entry? ((mountWith 100).cache.after (scripted movedIdle) 6) 0 = some next ∧
          OneOwner ((mountWith 100).cache.after (scripted movedIdle) 6) 0 next := by
  have orderly : ∀ n, (scripted movedIdle n).ByCache := scripted_forall (by decide) trivial
  have mapped : ((mountWith 100).cache.after (scripted movedIdle) 5).mapped.get? ⟨[47, 98]⟩
      = some 0 := by decide
  have mapped' : ((mountWith 100).cache.after (scripted movedIdle) 6).mapped.get? ⟨[47, 98]⟩
      = some 0 := by decide
  obtain ⟨entry, found, -, owner⟩ := (exists_one_owner (mountWith 100) _ orderly 5).1 _ _ mapped
  obtain ⟨next, found', -, owner'⟩ := (exists_one_owner (mountWith 100) _ orderly 6).1 _ _ mapped'
  have idle : (Cache.entry? ((mountWith 100).cache.after (scripted movedIdle) 5) 0).map Entry.handles
      = some 0 := by decide
  have idle' : (Cache.entry? ((mountWith 100).cache.after (scripted movedIdle) 6) 0).map Entry.handles
      = some 0 := by decide
  rw [found] at idle
  rw [found'] at idle'
  have none := Option.some.inj idle
  exact ⟨orderly, mapped, entry, found, none, owner none, next, found', owner' (Option.some.inj idle')⟩

end SparseCache.Cache
