import SparseCache.Proofs.Cache.Callbacks
import SparseCache.Proofs.Cache.Placement

namespace SparseCache

/-! Closing every handle there is, in whatever order.

What comes of it can be said without the order: every entry has given back all its handles, and
those that are mapped have their uploads scheduled, each by the close that took its last handle.
-/

/-- The entry with all its handles given back. -/
def Entry.released (entry : Entry) : Entry :=
  if entry.handles = 0 then entry else { entry with handles := 0, epoch := entry.epoch + 1 }

/-- All that is left to give back is the same whichever handle went first. -/
theorem Entry.released_of_released {entry next : Entry} {left : Nat}
    (given : entry.releaseHandle? = some (left, next)) : next.released = entry.released := by
  obtain ⟨one, rfl⟩ := Entry.releaseHandle?_some given
  unfold released
  rw [if_neg (by omega : entry.handles ≠ 0)]
  by_cases last : left = 0
  · simp [last]
  · simp [last]

namespace Cache

variable {cache after : Cache} {id other : EntryId} {entry next : Entry} {handle : Handle}
  {path : Path} {completion : Completion} {order before later : List Handle} {left : Nat}

/-! ### Uploads on record -/

/-- An upload of the entry is on record for the location. -/
def OnRecord (cache : Cache) (path : Path) (id : EntryId) : Prop :=
  match cache.uploader with
  | .background state => ∃ task job, state.pending.get? path = some task ∧
      cache.upload? task = some job ∧ job.entry = id
  | .recording pending => ∃ completion, (id, completion) ∈ pending ∧ (cache.pathOf id).Same path

/-- Uploads in the background are on record as long as they are not stopped. -/
def Tracked (cache : Cache) : Prop :=
  (∃ pending, cache.uploader = .recording pending) ∨ cache.Sound ∧ cache.Enrolled

theorem onRecord_of_backed (backed : cache.Backed) :
    cache.OnRecord path id ↔ ∃ task job, cache.pending.get? path = some task ∧
      cache.upload? task = some job ∧ job.entry = id := by
  obtain ⟨state, shown⟩ := backed
  rw [OnRecord, shown, pending_of_background shown]

theorem onRecord_of_recording {pending : List (EntryId × Completion)}
    (shown : cache.uploader = .recording pending) :
    cache.OnRecord path id ↔ ∃ completion, (id, completion) ∈ pending ∧
      (cache.pathOf id).Same path := by
  rw [OnRecord, shown]

theorem uploader_schedule {pending : List (EntryId × Completion)}
    (shown : cache.uploader = .recording pending) :
    (cache.schedule id completion).uploader = .recording
      (pending.filter (fun item => !cache.goesBy (cache.pathOf id) item)
        ++ [(id, completion)]) := by
  have emitted : (cache.emit (.scheduled id (cache.pathOf id))).uploader
      = .recording pending := shown
  simp only [schedule, emitted]
  rfl

/-- Where an upload is scheduled, that is the one on record, and it is so nowhere else. -/
theorem onRecord_schedule (tracked : cache.Tracked) :
    (cache.schedule id completion).OnRecord path other
      ↔ if (cache.pathOf id).Same path then other = id else cache.OnRecord path other := by
  rcases tracked with ⟨pending, shown⟩ | ⟨sound, enrolled⟩
  · have now := @uploader_schedule cache id completion pending shown
    have paths : ∀ id', (cache.schedule id completion).pathOf id' = cache.pathOf id' := by
      intro id'
      have same := (SameStore.refl cache).schedule id completion
      rw [pathOf, pathOf, same.lookup]
    rw [onRecord_of_recording now, onRecord_of_recording shown, paths]
    simp only [List.mem_append, List.mem_filter, List.mem_singleton, Prod.mk.injEq, goesBy,
      Bool.not_eq_true', decide_eq_false_iff_not]
    split
    · rename_i here
      constructor
      · rintro ⟨_, ⟨-, apart⟩ | ⟨rfl, -⟩, there⟩
        · exact absurd (there.trans here.symm) apart
        · rfl
      · rintro rfl
        exact ⟨completion, .inr ⟨rfl, rfl⟩, here⟩
    · rename_i elsewhere
      constructor
      · rintro ⟨goal, ⟨member, -⟩ | ⟨rfl, -⟩, there⟩
        · exact ⟨goal, member, there⟩
        · exact absurd there elsewhere
      · rintro ⟨goal, member, there⟩
        exact ⟨goal, .inl ⟨member, fun same => elsewhere (same.symm.trans there)⟩, there⟩
  · rw [onRecord_of_backed sound.backed.schedule, onRecord_of_backed sound.backed,
      pending_schedule sound.backed, PathMap.get?_set]
    split
    · simp [upload?_schedule sound, eq_comm]
    · rename_i elsewhere
      refine exists_congr fun task => exists_congr fun job => and_congr_right fun registered => ?_
      obtain ⟨own, found, there⟩ := enrolled.record.mp registered
      have old : task ≠ cache.nextTask := Nat.ne_of_lt (lt_nextTask_of_upload? sound.fresh found)
      have kept : cache.pending.get? (cache.pathOf id) ≠ some task := by
        intro displaced
        obtain ⟨_, found', here⟩ := enrolled.record.mp displaced
        rw [found] at found'
        cases found'
        exact elsewhere (here.symm.trans there)
      rw [upload?_schedule sound, if_neg old, if_neg kept]

theorem Tracked.schedule (tracked : cache.Tracked) :
    (cache.schedule id completion).Tracked := by
  rcases tracked with ⟨pending, shown⟩ | ⟨sound, enrolled⟩
  · exact .inl ⟨_, uploader_schedule shown⟩
  · exact .inr ⟨⟨sound.fresh.schedule sound.backed, sound.backed.schedule⟩,
      enrolled.schedule sound⟩

theorem tracked_setEntry (tracked : cache.Tracked) : (cache.setEntry id next).Tracked := by
  rcases tracked with ⟨pending, shown⟩ | ⟨sound, enrolled⟩
  · exact .inl ⟨pending, shown⟩
  · exact .inr ⟨⟨sound.fresh, sound.backed⟩, enrolled.congr rfl fun _ => rfl⟩

theorem pathOf_setEntry (found : cache.entry? id = some entry) (same : next.path = entry.path) :
    (cache.setEntry id next).pathOf other = cache.pathOf other := by
  rw [pathOf, pathOf, entry?_setEntry]
  split
  · rename_i here
    rw [here, found]
    exact same
  · rfl

theorem onRecord_setEntry (found : cache.entry? id = some entry) (same : next.path = entry.path) :
    (cache.setEntry id next).OnRecord path other ↔ cache.OnRecord path other := by
  have paths := @pathOf_setEntry cache id other entry next found same
  have uploads : ∀ task, (cache.setEntry id next).upload? task = cache.upload? task := fun _ => rfl
  unfold OnRecord
  simp only [paths, uploads]
  exact Iff.rfl

/-! ### One close -/

/-- The entry has handles, and it is mapped where it goes by, so that its upload is scheduled when
the last of them is closed. -/
def Due (cache : Cache) (id : EntryId) : Prop :=
  ∃ entry, cache.entry? id = some entry ∧ 0 < entry.handles ∧
    cache.mapped.get? entry.path = some id

/-- One handle of the entry was given back.  `next` is what became of the entry. -/
structure GivesBack (cache : Cache) (id : EntryId) (entry next : Entry) (after : Cache) : Prop where
  given : entry.releaseHandle? = some (next.handles, next)
  mapped : after.mapped = cache.mapped
  counter : after.counter = cache.counter
  entries : after.entries = cache.entries.set id next
  tracked : after.Tracked
  /-- The upload is scheduled by the last handle only, and of a mapped entry only. -/
  scheduled :
    (after.events = cache.events ++ [.scheduled id entry.path] ∧ next.handles = 0 ∧
      cache.mapped.get? entry.path = some id ∧
      ∀ path other, after.OnRecord path other ↔
        if entry.path.Same path then other = id else cache.OnRecord path other) ∨
    (after.events = cache.events ∧ ¬ (next.handles = 0 ∧ cache.mapped.get? entry.path = some id) ∧
      ∀ path other, after.OnRecord path other ↔ cache.OnRecord path other)

theorem events_schedule :
    (cache.schedule id completion).events
      = cache.events ++ [.scheduled id (cache.pathOf id)] := by
  have spawned : ∀ (cache : Cache) (work : Work), (cache.spawn work).2.events = cache.events :=
    fun _ _ => events_wake
  have aborted : ∀ (cache : Cache) (task : TaskId), (cache.abort task).events = cache.events := by
    intro cache task
    unfold abort
    split
    · exact events_wake
    · rfl
  unfold schedule
  simp only
  split
  · rfl
  · split
    · exact (spawned _ _).trans (aborted _ _)
    · exact spawned _ _

theorem givesBack_release (tracked : cache.Tracked) (found : cache.entry? id = some entry)
    (held : 0 < entry.handles) : ∃ next, GivesBack cache id entry next (cache.release id) := by
  obtain ⟨left, next, given⟩ := Entry.releaseHandle?_of_held held
  obtain ⟨-, shape⟩ := Entry.releaseHandle?_some given
  have handles : next.handles = left := by rw [shape]
  have same : next.path = entry.path := by rw [shape]
  have here := pathOf_found found
  have onRecord := fun path other =>
    @onRecord_setEntry cache id other entry next path found same
  have quiet (idle : ¬ (left = 0 ∧ cache.mapped.get? entry.path = some id)) :
      GivesBack cache id entry next (cache.setEntry id next) :=
    ⟨handles ▸ given, rfl, rfl, rfl, tracked_setEntry tracked,
      .inr ⟨rfl, handles ▸ idle, onRecord⟩⟩
  refine ⟨next, ?_⟩
  unfold Cache.release
  rw [here, releaseEntryHandle_eq found given]
  split
  · rename_i mapped
    simp only
    split
    · rename_i last
      have path : (cache.setEntry id next).pathOf id = entry.path :=
        (pathOf_setEntry found same).trans here
      have kept := @tracked_setEntry cache id next tracked
      have store := (SameStore.refl (cache.setEntry id next)).schedule id
        (.evict (((Cache.entry? (cache.setEntry id next) id).map Entry.epoch).getD 0))
      refine ⟨handles ▸ given, store.mapped, store.counter, ?_, kept.schedule,
        .inl ⟨?_, handles.trans last, mapped, fun path' other => ?_⟩⟩
      · exact store.entries
      · rw [events_schedule, path]
        rfl
      · rw [onRecord_schedule kept, path, onRecord path' other]
    · rename_i more
      exact quiet fun due => more due.1
  · rename_i elsewhere
    exact quiet fun due => elsewhere due.2

namespace GivesBack

variable (gives : GivesBack cache id entry next after)

include gives

theorem held : 0 < entry.handles :=
  (Entry.releaseHandle?_some gives.given).1 ▸ Nat.succ_pos next.handles

theorem same : next.path = entry.path := by
  obtain ⟨-, shape⟩ := Entry.releaseHandle?_some gives.given
  rw [shape]

theorem entry? (found : cache.entry? id = some entry) (other : EntryId) :
    after.entry? other = if other = id then some next else cache.entry? other := by
  have stored : after.entry? other = Cache.entry? (cache.setEntry id next) other := by
    rw [Cache.entry?, gives.entries]
    rfl
  rw [stored, entry?_setEntry]
  split
  · rename_i here
    rw [here, found]
    rfl
  · rfl

theorem pathOf (found : cache.entry? id = some entry) (other : EntryId) :
    after.pathOf other = cache.pathOf other := by
  rw [Cache.pathOf, Cache.pathOf, gives.entry? found]
  split
  · rename_i here
    rw [here, found]
    exact gives.same
  · rfl

/-- What was due is so afterwards too, unless it was just scheduled. -/
theorem due_iff (found : cache.entry? id = some entry) :
    after.Due other ↔ cache.Due other ∧ ¬ (other = id ∧ next.handles = 0) := by
  have held := gives.held
  simp only [Due, gives.entry? found, gives.mapped]
  by_cases here : other = id
  · subst here
    simp [found, gives.same, Nat.pos_iff_ne_zero, and_comm]
    exact fun _ _ => Nat.ne_of_gt held
  · simp [here]

theorem due_of_scheduled (found : cache.entry? id = some entry) (last : next.handles = 0) :
    after.Due other ↔ cache.Due other ∧ other ≠ id := by
  rw [gives.due_iff found]
  simp [last]

theorem due_of_quiet (found : cache.entry? id = some entry)
    (quiet : ¬ (next.handles = 0 ∧ cache.mapped.get? entry.path = some id)) :
    after.Due other ↔ cache.Due other := by
  rw [gives.due_iff found, and_iff_left_iff_imp]
  rintro ⟨held, found', -, mapped⟩ ⟨rfl, last⟩
  rw [found] at found'
  cases found'
  exact quiet ⟨last, mapped⟩

theorem released (found : cache.entry? id = some entry) :
    after.entries.map Entry.released = cache.entries.map Entry.released := by
  rw [gives.entries, List.map_set, Entry.released_of_released gives.given]
  refine List.ext_getElem? fun i => ?_
  rw [List.getElem?_set]
  split
  · rename_i here
    subst here
    rw [List.length_map, if_pos (List.getElem?_eq_some_iff.mp found).1, List.getElem?_map,
      show cache.entries[id]? = some entry from found]
    rfl
  · rfl

end GivesBack

/-- Two entries with uploads to be scheduled go by different paths. -/
theorem Due.same (due : cache.Due id) (due' : cache.Due other) (here : (cache.pathOf id).Same path)
    (there : (cache.pathOf other).Same path) : id = other := by
  obtain ⟨entry, found, -, mapped⟩ := due
  obtain ⟨entry', found', -, mapped'⟩ := due'
  rw [pathOf_found found] at here
  rw [pathOf_found found'] at there
  rw [PathMap.get?_congr (here.trans there.symm), mapped'] at mapped
  exact (Option.some.inj mapped).symm

/-! ### All closes -/

/-- The state after the handles were closed in this order. -/
def closings (cache : Cache) (order : List Handle) : Cache := order.foldl Cache.closeHandle cache

theorem closings_append (first second : List Handle) :
    cache.closings (first ++ second) = (cache.closings first).closings second :=
  List.foldl_append

theorem closeHandle_held (held : cache.get? handle = some id) :
    cache.closeHandle handle
      = Cache.release { cache with handles := cache.handles.filter fun item => item.1 != handle }
          id := by
  simp only [closeHandle, held]

theorem handles_closeHandle : (cache.closeHandle handle).handles
    = cache.handles.filter fun item => item.1 != handle := by
  unfold closeHandle
  split
  · rename_i unknown
    refine (List.filter_eq_self.mpr fun item member => ?_).symm
    simp only [get?, Option.map_eq_none_iff, List.find?_eq_none] at unknown
    simpa using unknown item member
  · exact (sameTables_release _ _).handles

/-- A close gives back one handle of the entry that the handle is of, and touches no other. -/
theorem givesBack_closeHandle (counted : cache.Counted) (tracked : cache.Tracked)
    (held : cache.get? handle = some id) :
    ∃ entry next, cache.entry? id = some entry ∧
      GivesBack cache id entry next (cache.closeHandle handle) := by
  have holds := counted.holds_iff.mp ⟨handle, held⟩
  cases found : cache.entry? id with
  | none =>
      rw [(counted.unborn found).1] at holds
      cases holds
  | some entry =>
      have used := (counted.holds_iff_handles found).mp ⟨handle, held⟩
      have kept : Tracked { cache with
          handles := cache.handles.filter fun item => item.1 != handle } :=
        tracked.imp (fun recording => recording) fun ⟨sound, enrolled⟩ =>
          ⟨⟨sound.fresh, sound.backed⟩, enrolled.congr rfl fun _ => rfl⟩
      obtain ⟨next, gives⟩ := givesBack_release kept found used
      rw [closeHandle_held held]
      exact ⟨entry, next, rfl, gives.given, gives.mapped, gives.counter, gives.entries,
        gives.tracked, gives.scheduled⟩

/-- What comes of closing all handles.  Nothing of it tells of the order but the order in which
the uploads were scheduled. -/
structure ClosesAll (cache : Cache) (order : List Handle) : Prop where
  mapped : (cache.closings order).mapped = cache.mapped
  counter : (cache.closings order).counter = cache.counter
  handles : (cache.closings order).handles = []
  entries : (cache.closings order).entries = cache.entries.map Entry.released
  scheduled : ∃ calls : List EntryId, calls.Nodup ∧ (∀ id, id ∈ calls ↔ cache.Due id) ∧
    (cache.closings order).events
      = cache.events ++ calls.map fun id => .scheduled id (cache.pathOf id)
  onRecord : ∀ path id, (cache.closings order).OnRecord path id ↔
    cache.Due id ∧ (cache.pathOf id).Same path ∨
      cache.OnRecord path id ∧ ∀ other, cache.Due other → ¬ (cache.pathOf other).Same path

theorem not_due_of_no_handles (counted : cache.Counted) (none : cache.handles = []) (id : EntryId) :
    ¬ cache.Due id := by
  rintro ⟨entry, found, held, -⟩
  rw [counted.counts found, holders, none] at held
  exact absurd held (Nat.lt_irrefl 0)

theorem released_of_no_handles (counted : cache.Counted) (none : cache.handles = []) :
    cache.entries.map Entry.released = cache.entries := by
  refine (List.map_congr_left fun entry member => ?_).trans (List.map_id _)
  obtain ⟨id, found⟩ := List.getElem?_of_mem member
  have held : entry.handles = cache.holders id + 0 := counted.counts found
  rw [holders, none] at held
  exact if_pos held

/-- The uploads that the later closes schedule, with that of this close if it schedules one. -/
theorem GivesBack.calls (gives : GivesBack cache id entry next after)
    (found : cache.entry? id = some entry) {calls : List EntryId} {events : List Event}
    (nodup : calls.Nodup) (each : ∀ other, other ∈ calls ↔ after.Due other)
    (told : events = after.events ++ calls.map fun id => .scheduled id (cache.pathOf id)) :
    ∃ calls : List EntryId, calls.Nodup ∧ (∀ other, other ∈ calls ↔ cache.Due other) ∧
      events = cache.events ++ calls.map fun id => .scheduled id (cache.pathOf id) := by
  rcases gives.scheduled with ⟨first, last, mapped, -⟩ | ⟨silent, quiet, -⟩
  · have due : cache.Due id := ⟨entry, found, gives.held, mapped⟩
    refine ⟨id :: calls, List.nodup_cons.mpr ⟨fun member => ?_, nodup⟩, fun other => ?_, ?_⟩
    · exact ((gives.due_of_scheduled found last).mp ((each id).mp member)).2 rfl
    · rw [List.mem_cons, each, gives.due_of_scheduled found last]
      by_cases here : other = id
      · simp [here, due]
      · simp [here]
    · rw [told, first, List.map_cons, pathOf_found found, List.append_assoc]
      rfl
  · refine ⟨calls, nodup, fun other => ?_, ?_⟩
    · rw [each, gives.due_of_quiet found quiet]
    · rw [told, silent]

theorem GivesBack.onRecord (gives : GivesBack cache id entry next after)
    (found : cache.entry? id = some entry) :
    (after.Due other ∧ (cache.pathOf other).Same path ∨
        after.OnRecord path other ∧ ∀ third, after.Due third → ¬ (cache.pathOf third).Same path)
      ↔ cache.Due other ∧ (cache.pathOf other).Same path ∨
        cache.OnRecord path other ∧
          ∀ third, cache.Due third → ¬ (cache.pathOf third).Same path := by
  rcases gives.scheduled with ⟨-, last, mapped, onRecord⟩ | ⟨-, quiet, onRecord⟩
  · have due : cache.Due id := ⟨entry, found, gives.held, mapped⟩
    simp only [gives.due_of_scheduled found last, onRecord, ← pathOf_found found]
    by_cases here : (cache.pathOf id).Same path
    · -- Nothing else that is due lies there.
      have only {third : EntryId} (due' : cache.Due third)
          (there : (cache.pathOf third).Same path) : third = id := due'.same due there here
      simp only [if_pos here]
      constructor
      · rintro (⟨⟨due', apart⟩, there⟩ | ⟨rfl, -⟩)
        · exact absurd (only due' there) apart
        · exact .inl ⟨due, here⟩
      · rintro (⟨due', there⟩ | ⟨-, none⟩)
        · exact .inr ⟨only due' there, fun third later there => later.2 (only later.1 there)⟩
        · exact absurd here (none id due)
    · have apart {third : EntryId} (there : (cache.pathOf third).Same path) : third ≠ id := by
        rintro rfl
        exact here there
      simp only [if_neg here]
      refine or_congr (and_congr_left fun there => and_iff_left (apart there))
        (and_congr_right fun _ => forall_congr' fun third => ⟨fun none due' there => ?_,
          fun none due' => none due'.1⟩)
      exact none ⟨due', apart there⟩ there
  · simp only [gives.due_of_quiet found quiet, onRecord]

theorem held_of_listed (counted : cache.Counted) (listed : handle ∈ cache.handles.map Prod.fst) :
    ∃ id, (handle, id) ∈ cache.handles ∧ cache.get? handle = some id := by
  obtain ⟨⟨key, id⟩, row, rfl⟩ := List.mem_map.mp listed
  exact ⟨id, row, counted.get?_of_mem row⟩

/-- The handles that are left are those that have not been closed yet. -/
theorem perm_closeHandle (counted : cache.Counted)
    (listed : (handle :: order).Perm (cache.handles.map Prod.fst)) :
    order.Perm ((cache.closeHandle handle).handles.map Prod.fst) := by
  have distinct : (cache.handles.map Prod.fst).Nodup := List.pairwise_map.mpr counted.apart
  have absent : handle ∉ order := (List.nodup_cons.mp (listed.nodup_iff.mpr distinct)).1
  have kept := listed.filter (· != handle)
  rw [List.filter_cons_of_neg (by simp), List.filter_map,
    List.filter_eq_self.mpr fun other member => ?_] at kept
  · rw [handles_closeHandle]
    exact kept
  · exact bne_iff_ne.mpr fun same => absent (same ▸ member)

theorem closesAll (counted : cache.Counted) (tracked : cache.Tracked)
    (listed : order.Perm (cache.handles.map Prod.fst)) : cache.ClosesAll order := by
  induction order generalizing cache with
  | nil =>
      have none : cache.handles = [] := List.map_eq_nil_iff.mp (List.nil_perm.mp listed)
      have idle := not_due_of_no_handles counted none
      refine ⟨rfl, rfl, none, (released_of_no_handles counted none).symm,
        ⟨[], .nil, fun id => ?_, (List.append_nil _).symm⟩, fun path id => ?_⟩
      · simp [idle id]
      · simp [idle, closings]
  | cons handle order ih =>
      obtain ⟨id, -, held⟩ := held_of_listed counted (listed.mem_iff.mp (.head _))
      obtain ⟨entry, next, found, gives⟩ := givesBack_closeHandle counted tracked held
      have rest := ih (counted.closeHandle handle) gives.tracked (perm_closeHandle counted listed)
      have paths : (cache.closeHandle handle).pathOf = cache.pathOf := funext (gives.pathOf found)
      obtain ⟨calls, nodup, each, told⟩ := rest.scheduled
      have onRecord := rest.onRecord
      rw [paths] at told onRecord
      exact ⟨rest.mapped.trans gives.mapped, rest.counter.trans gives.counter, rest.handles,
        rest.entries.trans (gives.released found), gives.calls found nodup each told,
        fun path other => (onRecord path other).trans (gives.onRecord found)⟩

/-- After some of the handles were closed the others are as they were. -/
theorem closings_before (counted : cache.Counted) (tracked : cache.Tracked)
    (listed : (before ++ later).Perm (cache.handles.map Prod.fst)) :
    (cache.closings before).Counted ∧ (cache.closings before).Tracked ∧
      (cache.closings before).mapped = cache.mapped ∧
      later.Perm ((cache.closings before).handles.map Prod.fst) ∧
      (cache.closings before).handles ⊆ cache.handles := by
  induction before generalizing cache with
  | nil => exact ⟨counted, tracked, rfl, listed, fun _ => id⟩
  | cons first before ih =>
      obtain ⟨id, -, held⟩ := held_of_listed counted (listed.mem_iff.mp (.head _))
      obtain ⟨entry, next, found, gives⟩ := givesBack_closeHandle counted tracked held
      obtain ⟨counted', tracked', mapped, left, fewer⟩ := ih (counted.closeHandle first)
        gives.tracked (perm_closeHandle counted listed)
      refine ⟨counted', tracked', mapped.trans gives.mapped, left, fun row member => ?_⟩
      have kept := fewer member
      rw [handles_closeHandle] at kept
      exact (List.mem_filter.mp kept).1

/-- Each close gives back one handle of the entry that its handle was of from the start. -/
theorem givesBack_in_turn (counted : cache.Counted) (tracked : cache.Tracked)
    (listed : (before ++ handle :: later).Perm (cache.handles.map Prod.fst)) :
    ∃ id entry next, cache.get? handle = some id ∧
      (cache.closings before).mapped = cache.mapped ∧
      Cache.entry? (cache.closings before) id = some entry ∧
      GivesBack (cache.closings before) id entry next (cache.closings (before ++ [handle])) := by
  obtain ⟨counted', tracked', mapped, left, fewer⟩ := closings_before counted tracked listed
  obtain ⟨id, row, held⟩ := held_of_listed counted' (left.mem_iff.mp (.head _))
  obtain ⟨entry, next, found, gives⟩ := givesBack_closeHandle counted' tracked' held
  refine ⟨id, entry, next, counted.get?_of_mem (fewer row), mapped, found, ?_⟩
  rw [closings_append]
  exact gives

variable {mount : Mount} {steps : Nat → Step} {n : Nat}

theorem due_iff_of_placed (counted : cache.Counted) (placed : cache.Placed) :
    cache.Due id ↔ cache.Holds id ∧ cache.Maps id := by
  constructor
  · rintro ⟨entry, found, held, mapped⟩
    exact ⟨(counted.holds_iff_handles found).mpr held, entry.path, mapped⟩
  · rintro ⟨holds, path, mapped⟩
    obtain ⟨entry, found, here⟩ := placed.homed mapped
    exact ⟨entry, found, (counted.holds_iff_handles found).mp holds,
      (PathMap.get?_congr here).trans mapped⟩

/-- All handles that are open in some state of a run are closed, in any order and with nothing in
between.  Each close gives back one handle of its entry and touches no other; it schedules an
upload just if that was the entry's last and the entry is mapped.  So each mapped entry that had
handles has one upload scheduled and no other entry has any, and whatever the order was the same
is left.  An entry is mapped where it goes by, as long as only the cache moves entries. -/
theorem closings_agree (mount : Mount) (steps : Nat → Step) (n : Nat) :
    (∀ order : List Handle, order.Perm ((mount.cache.after steps n).handles.map Prod.fst) →
      ClosesAll (mount.cache.after steps n) order ∧
      ∀ before handle later, order = before ++ handle :: later →
        ∃ id entry next, Cache.get? (mount.cache.after steps n) handle = some id ∧
          (closings (mount.cache.after steps n) before).mapped
            = (mount.cache.after steps n).mapped ∧
          Cache.entry? (closings (mount.cache.after steps n) before) id = some entry ∧
          GivesBack (closings (mount.cache.after steps n) before) id entry next
            (closings (mount.cache.after steps n) (before ++ [handle]))) ∧
    (∀ order order' : List Handle,
      order.Perm ((mount.cache.after steps n).handles.map Prod.fst) → order'.Perm order →
      (closings (mount.cache.after steps n) order).mapped
          = (closings (mount.cache.after steps n) order').mapped ∧
        (closings (mount.cache.after steps n) order).handles
          = (closings (mount.cache.after steps n) order').handles ∧
        (closings (mount.cache.after steps n) order).counter
          = (closings (mount.cache.after steps n) order').counter ∧
        (closings (mount.cache.after steps n) order).entries
          = (closings (mount.cache.after steps n) order').entries ∧
        ∀ path id, (closings (mount.cache.after steps n) order).OnRecord path id ↔
          (closings (mount.cache.after steps n) order').OnRecord path id) ∧
    ((∀ n, (steps n).renames = false) → ∀ id, Due (mount.cache.after steps n) id ↔
      Holds (mount.cache.after steps n) id ∧ Maps (mount.cache.after steps n) id) := by
  have counted := counted_after mount steps n
  have tracked : Tracked (mount.cache.after steps n) :=
    .inr ⟨sound_after mount steps n, enrolled_after mount steps n⟩
  refine ⟨fun order listed => ⟨closesAll counted tracked listed, ?_⟩,
    fun order order' listed perm => ?_,
    fun unrenamed id => due_iff_of_placed counted (placed_after mount unrenamed n)⟩
  · rintro before handle later rfl
    exact givesBack_in_turn counted tracked listed
  · have one := closesAll counted tracked listed
    have other := closesAll counted tracked (perm.trans listed)
    exact ⟨one.mapped.trans other.mapped.symm, one.handles.trans other.handles.symm,
      one.counter.trans other.counter.symm, one.entries.trans other.entries.symm,
      fun path id => (one.onRecord path id).trans (other.onRecord path id).symm⟩

/-- A file that is open twice is deleted, and the one that takes its place is open twice too. -/
def replacedWhileOpen : List Step :=
  [.openFile ⟨[97]⟩ .readOnly 1 .now, .openFile ⟨[97]⟩ .readOnly 1 .now, .delete ⟨[97]⟩,
    .openFile ⟨[97]⟩ .readWrite 2 .now, .openFile ⟨[97, 47]⟩ .readOnly 2 .now]

/-- From the front or from the back, the upload of the second is scheduled and not that of the
first. -/
theorem replacedWhileOpen_closings_agree :
    (closings ((mountWith 0).cache.after (scripted replacedWhileOpen) 5) [1, 2, 3, 4]).entries
      = (closings ((mountWith 0).cache.after (scripted replacedWhileOpen) 5) [4, 1, 3, 2]).entries ∧
    (∃ calls : List EntryId, calls.Nodup ∧ 1 ∈ calls ∧ 0 ∉ calls ∧
      (closings ((mountWith 0).cache.after (scripted replacedWhileOpen) 5) [4, 1, 3, 2]).events
        = ((mountWith 0).cache.after (scripted replacedWhileOpen) 5).events ++ calls.map fun id =>
          .scheduled id (pathOf ((mountWith 0).cache.after (scripted replacedWhileOpen) 5) id)) ∧
    (Due ((mountWith 0).cache.after (scripted replacedWhileOpen) 5) 1 ↔
      Holds ((mountWith 0).cache.after (scripted replacedWhileOpen) 5) 1 ∧
        Maps ((mountWith 0).cache.after (scripted replacedWhileOpen) 5) 1) := by
  obtain ⟨each, agree, due_iff⟩ := closings_agree (mountWith 0) (scripted replacedWhileOpen) 5
  have unrenamed := @scripted_forall replacedWhileOpen (·.renames = false) (by decide) rfl
  have shown : ((mountWith 0).cache.after (scripted replacedWhileOpen) 5).handles
      = [(1, 0), (2, 0), (3, 1), (4, 1)] := by decide
  have mapped : ((mountWith 0).cache.after (scripted replacedWhileOpen) 5).mapped
      = [(⟨[97]⟩, 1)] := by decide
  obtain ⟨-, -, -, -, ⟨calls, nodup, listed, told⟩, -⟩ :=
    (each [4, 1, 3, 2] (by rw [shown]; decide)).1
  refine ⟨(agree [1, 2, 3, 4] [4, 1, 3, 2] (by rw [shown]; decide) (by decide)).2.2.2.1,
    ⟨calls, nodup, (listed 1).mpr ?_, fun member => ?_, told⟩, due_iff unrenamed 1⟩
  · exact (due_iff unrenamed 1).mpr ⟨⟨3, by decide⟩, ⟨[97]⟩, by decide⟩
  · obtain ⟨-, path, found⟩ := (due_iff unrenamed 0).mp ((listed 0).mp member)
    rw [mapped] at found
    obtain ⟨key, row, -⟩ := PathMap.exists_mem_of_get? found
    simp at row

end Cache

end SparseCache
