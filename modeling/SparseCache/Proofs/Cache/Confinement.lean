import SparseCache.Proofs.Cache.Currency

namespace SparseCache.Cache

/-! Calls by path stay at the places that they name.

What is mapped elsewhere, what is on record elsewhere and the entries that are not at one of
these places are as they were, and so are all timers.
-/

variable {cache before middle after : Cache} {id other : EntryId} {entry next : Entry}
  {path source destination : Path} {task : TaskId} {completion : Completion}
  {places : Path → Prop} {touched : EntryId → Prop}

/-- At most what is at `places` and the entries `touched` are not what they were. -/
structure Confined (places : Path → Prop) (touched : EntryId → Prop) (before after : Cache) :
    Prop where
  mapped : ∀ {path}, ¬ places path → after.mapped.get? path = before.mapped.get? path
  pending : ∀ {path}, ¬ places path → after.pending.get? path = before.pending.get? path
  doing : ∀ {path task}, ¬ places path → before.pending.get? path = some task →
    after.doing? task = before.doing? task
  entries : ∀ {id entry}, ¬ touched id → before.entry? id = some entry →
    after.entry? id = some entry
  timers : ∀ {task id epoch due}, after.doing? task = some (.grace id epoch due) ↔
    before.doing? task = some (.grace id epoch due)

namespace Confined

theorem refl (cache : Cache) : Confined places touched cache cache :=
  ⟨fun _ => rfl, fun _ => rfl, fun _ _ => rfl, fun _ found => found, .rfl⟩

theorem trans (first : Confined places touched before middle)
    (second : Confined places touched middle after) : Confined places touched before after where
  mapped elsewhere := (second.mapped elsewhere).trans (first.mapped elsewhere)
  pending elsewhere := (second.pending elsewhere).trans (first.pending elsewhere)
  doing elsewhere registered :=
    (second.doing elsewhere ((first.pending elsewhere).trans registered)).trans
      (first.doing elsewhere registered)
  entries spared found := second.entries spared (first.entries spared found)
  timers := second.timers.trans first.timers

/-- Where the work goes on as it did, only the map and the entries have to be looked at. -/
theorem of_sameWork (same : SameWork before after)
    (mapped : ∀ {path}, ¬ places path → after.mapped.get? path = before.mapped.get? path)
    (entries : ∀ {id entry}, ¬ touched id → before.entry? id = some entry →
      after.entry? id = some entry) : Confined places touched before after where
  mapped := mapped
  pending _ := by rw [same.pending]
  doing _ _ := same.doing?
  entries := entries
  timers := by
    intro task id epoch due
    rw [same.doing?]

/-- Where the store is as it was, only the work has to be looked at. -/
theorem of_sameStore (same : SameStore before after)
    (pending : ∀ {path}, ¬ places path → after.pending.get? path = before.pending.get? path)
    (doing : ∀ {path task}, ¬ places path → before.pending.get? path = some task →
      after.doing? task = before.doing? task)
    (timers : ∀ {task id epoch due}, after.doing? task = some (.grace id epoch due) ↔
      before.doing? task = some (.grace id epoch due)) : Confined places touched before after where
  mapped _ := by rw [same.mapped]
  pending := pending
  doing := doing
  entries _ found := same.lookup.trans found
  timers := timers

theorem setMapped {left : PathMap EntryId}
    (elsewhere : ∀ {path}, ¬ places path → left.get? path = cache.mapped.get? path) :
    Confined places touched cache { cache with mapped := left } :=
  of_sameWork ((SameWork.refl cache).setMapped left) elsewhere fun _ found => found

theorem unmap (here : ∀ {other}, path.Same other → places other) :
    Confined places touched cache { cache with mapped := cache.mapped.erase path } :=
  setMapped fun elsewhere => PathMap.get?_erase_of_not_same fun same => elsewhere (here same)

theorem modifyEntry (cache : Cache) (change : Entry → Entry) (reached : touched id) :
    Confined places touched cache (cache.modifyEntry id change) := by
  refine of_sameWork ((SameWork.refl cache).modifyEntry id change) (fun _ => rfl)
    fun {other held} spared found => ?_
  rw [entry?_modifyEntry, if_neg, found]
  rintro rfl
  exact spared reached

end Confined

/-! ### Closing and relocating -/

theorem Confined.closeEntry (cache : Cache) (reached : touched id) :
    Confined places touched cache (cache.closeEntry id) := by
  refine .of_sameWork ((SameWork.refl cache).closeEntry id)
    (fun _ => by rw [(SameTables.closeEntry cache id).mapped]) fun {other held} spared found => ?_
  rw [entry?_closeEntry, if_neg, found]
  rintro rfl
  exact spared reached

/-- What is relocated goes by its new path, and what it displaces is closed. -/
theorem entry?_relocated (cache : Cache) (source destination : Path)
    (elsewhere : cache.mapped.get? destination ≠ some id) (other : EntryId) :
    Cache.entry? (cache.relocate source destination id) other
      = if other = id then
          (cache.entry? other).map fun entry => { entry with path := destination }
        else if cache.mapped.get? destination = some other then
          (cache.entry? other).map Entry.close
        else cache.entry? other := by
  have moved : ∀ mapped, Cache.entry? ({ cache with mapped }.modifyEntry id
      fun entry => { entry with path := destination }) other
      = if other = id then (cache.entry? other).map fun entry => { entry with path := destination }
        else cache.entry? other := fun _ => entry?_modifyEntry
  unfold relocate
  cases taken : cache.mapped.get? destination with
  | none =>
      simp only [moved]
      split <;> rfl
  | some displaced =>
      have apart : displaced ≠ id := by
        rintro rfl
        exact elsewhere taken
      simp only [entry?_closeEntry, moved, Option.some.injEq]
      by_cases here : other = displaced
      · simp [here, apart]
      · simp [here, Ne.symm here]

theorem Confined.relocate (cache : Cache) (elsewhere : cache.mapped.get? destination ≠ some id)
    (left : ∀ {other}, source.Same other → places other)
    (reached : ∀ {other}, destination.Same other → places other) (moving : touched id)
    (displaced : ∀ {other}, cache.mapped.get? destination = some other → touched other) :
    Confined places touched cache (cache.relocate source destination id) := by
  refine .of_sameWork ((SameWork.refl cache).relocate source destination id)
    (fun {path} away => ?_) fun {other held} spared found => ?_
  · rw [mapped_relocate, PathMap.get?_set, if_neg fun same => away (reached same),
      PathMap.get?_erase_of_not_same fun same => away (left same)]
  · rw [entry?_relocated cache source destination elsewhere, if_neg, if_neg, found]
    · exact fun taken => spared (displaced taken)
    · rintro rfl
      exact spared moving

/-! ### Uploads -/

namespace Enrolled

theorem same (enrolled : cache.Enrolled) (one : cache.pending.get? path = some task)
    (other : cache.pending.get? source = some task) : path.Same source := by
  obtain ⟨job, working, here⟩ := enrolled.record.mp one
  obtain ⟨job', working', there⟩ := enrolled.record.mp other
  rw [working] at working'
  cases working'
  exact here.symm.trans there

theorem not_timer {epoch due : Nat} (enrolled : cache.Enrolled)
    (timer : cache.doing? task = some (.grace id epoch due)) :
    cache.pending.get? path ≠ some task :=
  enrolled.not_registered ((upload?_of_doing? timer).trans rfl)

end Enrolled

theorem Confined.cancel (enrolled : cache.Enrolled) (sound : cache.Sound)
    (here : ∀ {other}, path.Same other → places other) :
    Confined places touched cache (cache.cancel path).2 := by
  refine .of_sameStore ((SameStore.refl cache).cancel path) (fun {other} elsewhere => ?_)
    (fun {other task} elsewhere registered => ?_) fun {task id epoch due} => ?_
  · rw [pending_cancel sound.backed,
      PathMap.get?_erase_of_not_same fun same => elsewhere (here same)]
  · rw [doing?_cancel sound.backed, if_neg]
    exact fun taken => elsewhere (here (enrolled.same taken registered))
  · rw [doing?_cancel sound.backed]
    split
    · rename_i taken
      exact ⟨fun none => (by cases none), fun timer => absurd taken (enrolled.not_timer timer)⟩
    · exact .rfl

theorem Confined.schedule (enrolled : cache.Enrolled) (sound : cache.Sound)
    (here : ∀ {other}, (cache.pathOf id).Same other → places other) :
    Confined places touched cache (cache.schedule id completion) := by
  have new : ∀ {task}, task = cache.nextTask → cache.doing? task = none :=
    fun same => sound.fresh.doing? (Nat.le_of_eq same.symm)
  refine .of_sameStore ((SameStore.refl cache).schedule id completion) (fun {other} elsewhere => ?_)
    (fun {other task} elsewhere registered => ?_) fun {task id' epoch due} => ?_
  · rw [pending_schedule sound.backed, PathMap.get?_set, if_neg fun same => elsewhere (here same)]
  · obtain ⟨job, working, -⟩ := enrolled.record.mp registered
    rw [doing?_schedule sound.fresh sound.backed, if_neg, if_neg]
    · exact fun superseded => elsewhere (here (enrolled.same superseded registered))
    · intro fresh
      rw [upload?_of_idle (new fresh)] at working
      cases working
  · rw [doing?_schedule sound.fresh sound.backed]
    split
    · rename_i fresh
      rw [new fresh]
      exact ⟨fun uploads => (by cases uploads), fun none => (by cases none)⟩
    · split
      · rename_i superseded
        exact ⟨fun none => (by cases none),
          fun timer => absurd superseded (enrolled.not_timer timer)⟩
      · exact .rfl

end SparseCache.Cache
