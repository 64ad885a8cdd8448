import SparseCache.Proofs.Cache.Uploads
import SparseCache.Proofs.Entry.Changes

namespace SparseCache

/-! What each operation does to the entries of a cache and to its tables. -/

/-- An entry as it is once a handle was opened that is to go by `modified`. -/
def Entry.reopened (entry : Entry) (modified : Modified) : Entry :=
  { entry.openHandle.2 with modified }

theorem Entry.releaseHandle?_reopened (entry : Entry) (modified : Modified) :
    ∃ n after, (entry.reopened modified).releaseHandle? = some (n, after) :=
  releaseHandle?_of_held (Nat.succ_pos entry.handles)

namespace Cache

variable {cache before middle after : Cache} {id other : EntryId} {entry : Entry} {path : Path}

/-! ### Looking entries up -/

theorem pathOf_found (found : cache.entry? id = some entry) : cache.pathOf id = entry.path := by
  rw [pathOf, found]
  rfl

theorem entry?_setEntry (cache : Cache) :
    Cache.entry? (cache.setEntry id entry) other
      = if other = id then (cache.entry? other).map fun _ => entry else cache.entry? other := by
  unfold setEntry entry?
  rw [List.getElem?_set]
  by_cases asked : other = id
  · subst asked
    by_cases inside : other < cache.entries.length
    · simp [inside]
    · simp [inside]
  · simp [asked, Ne.symm asked]

theorem isSome_setEntry :
    (Cache.entry? (cache.setEntry id entry) other).isSome = (cache.entry? other).isSome := by
  rw [entry?_setEntry]
  split
  · rw [Option.isSome_map]
  · rfl

theorem entry?_modifyEntry {change : Entry → Entry} :
    Cache.entry? (cache.modifyEntry id change) other
      = if other = id then (cache.entry? other).map change else cache.entry? other := by
  unfold modifyEntry entry?
  rw [List.getElem?_modify]
  by_cases asked : other = id
  · simp [asked]
  · simp [asked, Ne.symm asked]

theorem entry?_emit {event : Event} : Cache.entry? (cache.emit event) id = cache.entry? id := rfl

theorem lt_length_of_found (found : cache.entry? id = some entry) :
    id < cache.entries.length :=
  (List.getElem?_eq_some_iff.mp found).1

/-- Where nobody has made an entry yet, the next one appears or none. -/
theorem entry?_append (cache : Cache) {made : Entry}
    (extended : after.entries = cache.entries ++ [made]) :
    after.entry? other
      = if other = cache.entries.length then some made else cache.entry? other := by
  simp only [ entry?, extended, List.getElem?_append]
  rcases Nat.lt_trichotomy other cache.entries.length with inside | here | outside
  · simp [inside, Nat.ne_of_lt inside]
  · simp [here]
  · have absent : ¬ other < cache.entries.length := Nat.not_lt_of_gt outside
    have past : [made].length ≤ other - cache.entries.length := by
      simp only [List.length_singleton]
      exact Nat.sub_pos_of_lt outside
    rw [if_neg absent, if_neg (Nat.ne_of_gt outside), List.getElem?_eq_none past,
      List.getElem?_eq_none (Nat.le_of_lt outside)]

theorem entry?_releaseEntryHandle :
    Cache.entry? (cache.releaseEntryHandle id).2 other
      = if other = id then
          (cache.entry? other).map fun entry => (entry.releaseHandle?.map (·.2)).getD entry
        else cache.entry? other := by
  unfold releaseEntryHandle
  cases found : cache.entry? id with
  | none =>
      simp only [Option.bind_none]
      split
      · rename_i asked
        rw [asked, found]
        exact found
      · rfl
  | some held =>
      cases released : held.releaseHandle? with
      | none =>
          simp only [Option.bind_some, released]
          split
          · rename_i asked
            rw [asked, log, entry?_emit, found]
            simp [released]
          · rfl
      | some result =>
          obtain ⟨left, entry⟩ := result
          simp only [Option.bind_some, released, entry?_setEntry]
          split
          · rename_i asked
            rw [asked, found]
            simp [released]
          · rfl

/-- A closed entry has lost its file and nothing else. -/
theorem entry?_closeEntry (cache : Cache) (id other : EntryId) :
    Cache.entry? (cache.closeEntry id) other
      = if other = id then (cache.entry? other).map Entry.close
        else cache.entry? other := by
  have closed : ∀ {entry}, cache.entry? id = some entry →
      Cache.entry? (cache.setEntry id entry.close) other
        = if other = id then (cache.entry? other).map Entry.close
          else cache.entry? other := by
    intro entry found
    rw [entry?_setEntry]
    split
    · rename_i here
      rw [here, found]
      rfl
    · rfl
  unfold closeEntry
  split
  · rename_i absent
    split
    · rename_i here
      rw [here, absent]
      rfl
    · rfl
  · rename_i entry found
    simp only
    split
    · split
      · exact closed found
      · exact closed found
    · rename_i shut
      have nothing : entry.content = none := by simpa [Entry.isOpen] using shut
      split
      · rename_i here
        rw [here, found, Option.map_some, Entry.close_of_closed nothing]
      · rfl

theorem onEntry_ok {α : Type} (operation : Entry → Except EntryError (α × Entry)) {result : α}
    {made : Entry} (found : cache.entry? id = some entry)
    (done : operation entry = .ok (result, made)) :
    cache.onEntry id operation = (.ok result, cache.setEntry id made) := by
  simp [onEntry, found, done]

theorem onEntry_error {α : Type} (operation : Entry → Except EntryError (α × Entry))
    {error : EntryError} (found : cache.entry? id = some entry)
    (failed : operation entry = .error error) :
    cache.onEntry id operation = (.error error, cache) := by
  simp [onEntry, found, failed]

theorem entry?_onEntry_of_ne {α : Type} {operation : Entry → Except EntryError (α × Entry)}
    (apart : other ≠ id) :
    Cache.entry? (cache.onEntry id operation).2 other = cache.entry? other := by
  unfold onEntry
  split
  · rfl
  · split
    · rfl
    · exact (entry?_setEntry _).trans (if_neg apart)

/-! ### Entries that are only moved about -/

/-- Every entry stays what it is but for its place and whether it is open. -/
structure Displaces (before after : Cache) : Prop where
  kept : ∀ {id entry}, before.entry? id = some entry →
    ∃ moved, after.entry? id = some moved ∧ entry.Displaced moved
  unborn : ∀ {id}, before.entry? id = none → after.entry? id = none

namespace Displaces

theorem of_entries (same : after.entries = before.entries) : Displaces before after := by
  have agree : ∀ id, after.entry? id = before.entry? id := by
    intro id
    rw [ entry?, entry?, same]
  exact ⟨fun found => ⟨_, (agree _).trans found, .refl _⟩, fun absent => (agree _).trans absent⟩

theorem refl (cache : Cache) : Displaces cache cache := of_entries rfl

theorem trans (first : Displaces before middle) (second : Displaces middle after) :
    Displaces before after where
  kept found := by
    obtain ⟨moved, found', displaced⟩ := first.kept found
    obtain ⟨final, found'', displaced'⟩ := second.kept found'
    exact ⟨final, found'', displaced.trans displaced'⟩
  unborn absent := second.unborn (first.unborn absent)

theorem relocate (cache : Cache) (id : EntryId) (path : Path) :
    Displaces cache (cache.modifyEntry id fun entry => { entry with path }) where
  kept {asked held} present := by
    rw [entry?_modifyEntry]
    split
    · exact ⟨_, by rw [present]; rfl, ⟨path, .inl rfl⟩⟩
    · exact ⟨held, present, .refl _⟩
  unborn {asked} absent := by
    rw [entry?_modifyEntry, absent]
    split <;> rfl

theorem closeEntry (cache : Cache) (id : EntryId) : Displaces cache (cache.closeEntry id) where
  kept {asked held} present := by
    rw [entry?_closeEntry]
    split
    · exact ⟨_, by rw [present]; rfl, ⟨held.path, .inr rfl⟩⟩
    · exact ⟨held, present, .refl _⟩
  unborn {asked} absent := by
    rw [entry?_closeEntry, absent]
    split <;> rfl

end Displaces

/-! ### Tables -/

/-- What is mapped, which handles are open and how long idle entries are kept agree. -/
structure SameTables (before after : Cache) : Prop where
  mapped : after.mapped = before.mapped
  handles : after.handles = before.handles
  counter : after.counter = before.counter
  grace : after.grace = before.grace

namespace SameTables

theorem refl (cache : Cache) : SameTables cache cache := ⟨rfl, rfl, rfl, rfl⟩

theorem trans (first : SameTables before middle) (second : SameTables middle after) :
    SameTables before after :=
  ⟨second.mapped.trans first.mapped, second.handles.trans first.handles,
    second.counter.trans first.counter, second.grace.trans first.grace⟩

theorem of_sameStore (same : SameStore before after) : SameTables before after :=
  ⟨same.mapped, same.handles, same.counter, same.grace⟩

theorem setEntry (cache : Cache) (id : EntryId) (entry : Entry) :
    SameTables cache (cache.setEntry id entry) :=
  ⟨rfl, rfl, rfl, rfl⟩

theorem modifyEntry (cache : Cache) (id : EntryId) (change : Entry → Entry) :
    SameTables cache (cache.modifyEntry id change) :=
  ⟨rfl, rfl, rfl, rfl⟩

theorem onEntry {α : Type} (cache : Cache) (id : EntryId)
    (operation : Entry → Except EntryError (α × Entry)) :
    SameTables cache (cache.onEntry id operation).2 := by
  unfold Cache.onEntry
  split
  · exact .refl _
  · split
    · exact .refl _
    · exact .setEntry _ _ _

theorem allocate (cache : Cache) (path : Path) (size : Nat) (modified : Modified) :
    SameTables cache (cache.allocate path size modified).2 := by
  unfold Cache.allocate
  split
  · split
    · exact .refl _
    · exact ⟨rfl, rfl, rfl, rfl⟩
  · exact .refl _

theorem closeEntry (cache : Cache) (id : EntryId) : SameTables cache (cache.closeEntry id) := by
  unfold Cache.closeEntry
  split
  · exact .refl _
  · split
    · simp only
      split
      · exact .setEntry _ _ _
      · exact ⟨rfl, rfl, rfl, rfl⟩
    · exact .refl _

theorem releaseEntryHandle (cache : Cache) (id : EntryId) :
    SameTables cache (cache.releaseEntryHandle id).2 := by
  unfold Cache.releaseEntryHandle
  split
  · exact .setEntry _ _ _
  · exact ⟨rfl, rfl, rfl, rfl⟩

end SameTables

/-! ### Opening and releasing -/

theorem acquire_of_mapped {size : Nat} {modified : Modified}
    (mapped : cache.mapped.get? path = some id) :
    cache.acquire path size modified
      = (.ok id, cache.modifyEntry id (·.reopened modified)) := by
  simp [acquire, mapped, Entry.reopened]

/-- Where nothing is mapped an entry is made, with one handle from the start. -/
theorem acquire_of_unmapped (size : Nat) (modified : Modified)
    (unmapped : cache.mapped.get? path = none) :
    (∃ error, cache.acquire path size modified = (.error error, cache)) ∨
      ∃ made, Entry.create path size modified = .ok made ∧
        cache.acquire path size modified = (.ok cache.entries.length,
          { cache with
            entries := cache.entries ++ [made.openHandle.2]
            mapped := cache.mapped.set path cache.entries.length }) := by
  unfold acquire allocate
  simp only [unmapped]
  split
  · rename_i error _ refused
    left
    refine ⟨error, ?_⟩
    split at refused
    · split at refused
      · cases refused
        rfl
      · cases refused
    · cases refused
      rfl
  · rename_i made created
    right
    split at created
    · split at created
      · cases created
      · rename_i entry fits
        cases created
        exact ⟨entry, fits, by simp [modifyEntry, List.modify_eq_take_drop]⟩
    · cases created

theorem acquire_ok {size : Nat} {modified : Modified}
    (acquired : cache.acquire path size modified = (.ok id, after)) :
    cache.mapped.get? path = some id ∧ after = cache.modifyEntry id (·.reopened modified) ∨
      cache.mapped.get? path = none ∧ ∃ made, Entry.create path size modified = .ok made ∧
        id = cache.entries.length ∧
        after = { cache with
          entries := cache.entries ++ [made.openHandle.2]
          mapped := cache.mapped.set path cache.entries.length } := by
  cases mapped : cache.mapped.get? path with
  | some found =>
      rw [acquire_of_mapped mapped] at acquired
      cases acquired
      exact .inl ⟨rfl, rfl⟩
  | none =>
      rcases acquire_of_unmapped size modified mapped with
        ⟨error, refused⟩ | ⟨made, fits, created⟩
      · rw [refused] at acquired
        cases acquired
      · rw [created] at acquired
        cases acquired
        exact .inr ⟨rfl, made, fits, rfl, rfl⟩

theorem acquired_elsewhere {size : Nat} {modified : Modified} {other : EntryId}
    (acquired : cache.acquire path size modified = (.ok id, after)) (apart : other ≠ id) :
    after.entry? other = cache.entry? other ∧ cache.mapped.get? path ≠ some other := by
  rcases acquire_ok acquired with ⟨mapped, rfl⟩ | ⟨unmapped, made, fits, rfl, rfl⟩
  · refine ⟨entry?_modifyEntry.trans (if_neg apart), fun found => apart ?_⟩
    rw [mapped] at found
    exact (Option.some.inj found).symm
  · refine ⟨(entry?_append cache rfl).trans (if_neg apart), fun found => ?_⟩
    rw [unmapped] at found
    cases found

theorem acquired_known {size : Nat} {modified : Modified}
    (acquired : cache.acquire path size modified = (.ok id, after))
    (found : cache.entry? id = some entry) :
    cache.mapped.get? path = some id ∧ after.entry? id = some (entry.reopened modified) := by
  rcases acquire_ok acquired with ⟨mapped, rfl⟩ | ⟨-, _, -, rfl, rfl⟩
  · refine ⟨mapped, ?_⟩
    rw [entry?_modifyEntry, if_pos rfl, found]
    rfl
  · exact absurd (lt_length_of_found found) (Nat.lt_irrefl _)

theorem acquired_new {size : Nat} {modified : Modified}
    (acquired : cache.acquire path size modified = (.ok id, after))
    (absent : cache.entry? id = none) (found : after.entry? id = some entry) :
    cache.mapped.get? path = none ∧ id = cache.entries.length ∧
      ∃ made, Entry.create path size modified = .ok made ∧ entry = made.openHandle.2 := by
  rcases acquire_ok acquired with ⟨-, rfl⟩ | ⟨unmapped, made, fits, rfl, rfl⟩
  · rw [entry?_modifyEntry, if_pos rfl, absent] at found
    cases found
  · rw [entry?_append cache rfl, if_pos rfl] at found
    cases found
    exact ⟨unmapped, rfl, made, fits, rfl⟩

theorem content_of_create {size : Nat} {modified : Modified}
    (fits : Entry.create path size modified = .ok entry) :
    entry.content = some (.zeros size) := by
  rw [(Entry.create_ok fits).2]

/-- What turns out to be closed was not made just now. -/
theorem acquired_closed {size : Nat} {modified : Modified}
    (acquired : cache.acquire path size modified = (.ok id, after))
    (closed : ∀ entry, after.entry? id = some entry → entry.content = none) :
    cache.mapped.get? path = some id ∧ after = cache.modifyEntry id (·.reopened modified) := by
  rcases acquire_ok acquired with known | ⟨-, made, fits, rfl, rfl⟩
  · exact known
  · have shut := closed made.openHandle.2 ((entry?_append cache rfl).trans (if_pos rfl))
    have stored : made.openHandle.2.content = some (.zeros size) :=
      (content_of_create fits : made.content = _)
    rw [stored] at shut
    cases shut

/-- How an attempt to open `path` may end, once uploads were cancelled as needed. -/
inductive Opens (base : Cache) (path : Path) (flags : OpenFlags) (size : Nat)
    (modified : Modified) : Cache → Prop
  /-- There was nothing to open and nothing could be made. -/
  | unmade (unmapped : base.mapped.get? path = none) : Opens base path flags size modified base
  | opened {id held} (acquired : base.acquire path size modified = (.ok id, held))
      (keeps : flags.contains .truncate = false) :
      Opens base path flags size modified
        { held with
          counter := held.counter.issue.2
          handles := held.handles ++ [(held.counter.next, id)] }
  | emptied {id held entry empty} (acquired : base.acquire path size modified = (.ok id, held))
      (wipes : flags.contains .truncate = true) (found : held.entry? id = some entry)
      (done : entry.truncate 0 = .ok empty) :
      Opens base path flags size modified
        { held.setEntry id empty with
          counter := held.counter.issue.2
          handles := held.handles ++ [(held.counter.next, id)] }
  /-- The entry was closed, so that its handle was given back at once. -/
  | refused {id held} (acquired : base.acquire path size modified = (.ok id, held))
      (wipes : flags.contains .truncate = true)
      (closed : ∀ entry, held.entry? id = some entry → entry.content = none) :
      Opens base path flags size modified (held.release id)

theorem content_of_truncate_error {error : EntryError} (failed : entry.truncate 0 = .error error) :
    entry.content = none := by
  cases stored : entry.content with
  | none => rfl
  | some content =>
      simp [Entry.truncate, Entry.content?, stored, bind, Except.bind, lengthLimit] at failed

theorem sameStore_prepared (cache : Cache) (path : Path) (flags : OpenFlags) :
    SameStore cache (if flags.isWritable then (cache.cancel path).2 else cache) := by
  split
  · exact (SameStore.refl cache).cancel path
  · exact .refl cache

theorem opens_openFile (cache : Cache) (path : Path) (flags : OpenFlags) (size : Nat)
    (modified : Modified) :
    Opens (if flags.isWritable then (cache.cancel path).2 else cache) path flags size modified
      (cache.openFile path flags size modified).2 := by
  unfold openFile
  generalize (if flags.isWritable then (cache.cancel path).2 else cache) = base
  simp only
  split
  · rename_i error refused acquired
    have unmapped : base.mapped.get? path = none := by
      cases mapped : base.mapped.get? path with
      | none => rfl
      | some id => rw [acquire_of_mapped mapped] at acquired; cases acquired
    rcases acquire_of_unmapped size modified unmapped with
      ⟨error', untouched⟩ | ⟨made, fits, created⟩
    · rw [untouched] at acquired
      cases acquired
      exact .unmade unmapped
    · rw [created] at acquired
      cases acquired
  · rename_i id held acquired
    by_cases wipes : flags.contains .truncate = true
    · simp only [wipes, if_true]
      cases found : held.entry? id with
      | none =>
          have missing : held.onEntry id (fun entry => (entry.truncate 0).map ((), ·))
              = (.error .closed, held) := by
            simp [onEntry, found]
          rw [missing]
          refine .refused acquired wipes fun entry present => ?_
          rw [found] at present
          cases present
      | some entry =>
          cases done : entry.truncate 0 with
          | error error =>
              have failed : (entry.truncate 0).map (Prod.mk ()) = .error error := by
                simp [done, Except.map]
              rw [onEntry_error (fun entry => (entry.truncate 0).map ((), ·)) found failed]
              refine .refused acquired wipes fun other present => ?_
              rw [found] at present
              cases present
              exact content_of_truncate_error done
          | ok empty =>
              have applied : (entry.truncate 0).map (Prod.mk ()) = .ok ((), empty) := by
                simp [done, Except.map]
              rw [onEntry_ok (fun entry => (entry.truncate 0).map ((), ·)) found applied]
              exact .emptied acquired wipes found done
    · have keeps : flags.contains .truncate = false := by simpa using wipes
      simp only [keeps, Bool.false_eq_true, if_false]
      exact .opened acquired keeps

theorem sameStore_release (cache : Cache) (id : EntryId) :
    SameStore (cache.releaseEntryHandle id).2 (cache.release id) := by
  unfold release
  split
  · simp only
    split
    · exact (SameStore.refl _).schedule _ _
    · exact .refl _
  · exact .refl _

theorem entry?_release (cache : Cache) (id other : EntryId) :
    Cache.entry? (cache.release id) other
      = if other = id then
          (cache.entry? other).map fun entry => (entry.releaseHandle?.map (·.2)).getD entry
        else cache.entry? other :=
  (sameStore_release cache id).lookup.trans entry?_releaseEntryHandle

theorem isSome_release :
    (Cache.entry? (cache.release id) other).isSome = (cache.entry? other).isSome := by
  rw [entry?_release]
  split
  · rw [Option.isSome_map]
  · rfl

theorem sameTables_release (cache : Cache) (id : EntryId) : SameTables cache (cache.release id) :=
  (SameTables.releaseEntryHandle cache id).trans (.of_sameStore (sameStore_release cache id))

/-! ### Discarding and moving -/

/-- A tree is taken out of the map first; then its entries are discarded one by one. -/
theorem deleteTree_eq :
    cache.deleteTree path
      = (cache.mapped.filter fun item => decide (item.1.Within path)).foldl
          (fun cache (key, id) => (cache.cancel key).2.closeEntry id)
          { cache with
            mapped := cache.mapped.filter fun item => !decide (item.1.Within path) } := by
  simp only [deleteTree, List.partition_eq_filter_filter]
  rfl

/-- The cache with `id` mapped at `destination` in place of `source`, and what it displaced
closed. -/
def relocate (cache : Cache) (source destination : Path) (id : EntryId) : Cache :=
  let moved := { cache with mapped := (cache.mapped.erase source).set destination id
    }.modifyEntry id fun entry => { entry with path := destination }
  match cache.mapped.get? destination with
  | some displaced => moved.closeEntry displaced
  | none => moved

/-- How a move may end, once the uploads of both places were cancelled. -/
inductive Moves (cache base : Cache) (source destination : Path) : Cache → Prop
  | same (same : source.Same destination) : Moves cache base source destination cache
  | absent (apart : ¬ source.Same destination) (nowhere : base.mapped.get? source = none)
      (free : base.mapped.get? destination = none) :
      Moves cache base source destination base
  /-- There was nothing to move, which discards what the destination held. -/
  | discarded {displaced} (apart : ¬ source.Same destination)
      (nowhere : base.mapped.get? source = none)
      (taken : base.mapped.get? destination = some displaced) :
      Moves cache base source destination
        (closeEntry { base with mapped := base.mapped.erase destination } displaced)
  | moved {id : EntryId} (apart : ¬ source.Same destination)
      (mapped : base.mapped.get? source = some id) (idle : (cache.cancel source).1 = false) :
      Moves cache base source destination (base.relocate source destination id)
  | rescheduled {id : EntryId} (apart : ¬ source.Same destination)
      (mapped : base.mapped.get? source = some id) (hit : (cache.cancel source).1 = true) :
      Moves cache base source destination ((base.relocate source destination id).schedule id
        (.evict (((Cache.entry? (base.relocate source destination id) id).map Entry.epoch).getD 0)))

theorem moves_moveFile (cache : Cache) (source destination : Path) :
    Moves cache ((cache.cancel source).2.cancel destination).2 source destination
      (cache.moveFile source destination).2 := by
  unfold moveFile
  split
  · rename_i same
    exact .same same
  · rename_i apart
    simp only
    split
    · rename_i nowhere
      split
      · rename_i free
        exact .absent apart nowhere free
      · rename_i taken
        exact .discarded apart nowhere taken
    · rename_i mapped
      split
      · rename_i hit
        exact .rescheduled apart mapped hit
      · rename_i idle
        exact .moved apart mapped (by simpa using idle)

theorem SameWork.relocate {start : Cache} (same : SameWork start cache)
    (source destination : Path) (id : EntryId) :
    SameWork start (cache.relocate source destination id) := by
  have moved := (same.setMapped ((cache.mapped.erase source).set destination id)).modifyEntry id
    fun entry => { entry with path := destination }
  unfold Cache.relocate
  simp only
  split
  · exact moved.closeEntry _
  · exact moved

theorem Displaces.setMapped (cache : Cache) (mapped : PathMap EntryId) :
    Displaces cache { cache with mapped } :=
  .of_entries rfl

theorem Displaces.relocated (cache : Cache) (source destination : Path) (id : EntryId) :
    Displaces cache (cache.relocate source destination id) := by
  have moved := (Displaces.setMapped cache
    ((cache.mapped.erase source).set destination id)).trans (.relocate _ id destination)
  unfold Cache.relocate
  simp only
  split
  · exact moved.trans (.closeEntry _ _)
  · exact moved

end Cache

end SparseCache
