import SparseCache.Proofs.Cache.Holes
import SparseCache.Proofs.Cache.Stranding

namespace SparseCache

/-! What one step may do to the map.

A step leaves the map alone, maps a new entry, discards what some keys hold, or moves an
entry to another key.  What leaves the map is closed; all other entries stay where they are,
open or closed as they were.
-/

theorem Load.isOpen_receive_eq (load : Load) (i : Nat) (entry : Entry) (reply : Reply) :
    (load.receive i entry reply).2.isOpen = entry.isOpen := by
  rcases receive_stores load i entry reply with same | ⟨_, _, stored, -, -, done, changed⟩
  · rw [same]
  · rw [changed]
    cases held : entry.content with
    | none =>
        rw [Entry.store_of_closed held] at done
        cases done
    | some content =>
        rw [Entry.store_eq held] at done
        cases done
        simp only [Entry.isOpen, held, Option.isSome_some]

theorem Entry.shape_write {entry next : Entry} {offset n : Nat} {data : Bytes}
    (done : entry.write offset data = .ok (n, next)) :
    next.path = entry.path ∧ next.isOpen = entry.isOpen := by
  obtain ⟨_, stored, -, rfl⟩ := write_ok done
  exact ⟨rfl, by rw [isOpen, isOpen, stored]; rfl⟩

theorem Entry.shape_truncate {entry next : Entry} {size : Nat}
    (done : entry.truncate size = .ok next) :
    next.path = entry.path ∧ next.isOpen = entry.isOpen := by
  obtain ⟨_, stored, -, rfl⟩ := truncate_ok done
  exact ⟨rfl, by rw [isOpen, isOpen, stored]; rfl⟩

namespace Cache

variable {cache base before middle after : Cache} {id other : EntryId} {entry next : Entry}
  {path source destination tree : Path} {step : Step} {touched : EntryId → Prop}

/-- The entry is there and was closed. -/
def Shut (cache : Cache) (id : EntryId) : Prop :=
  ∃ entry, cache.entry? id = some entry ∧ entry.isOpen = false

/-! ### Entries that stay as they are -/

/-- But for the entries that are `touched`, each goes by the path it went by and is open if
it was. -/
structure Spares (touched : EntryId → Prop) (before after : Cache) : Prop where
  kept : ∀ {id entry}, ¬ touched id → before.entry? id = some entry →
    ∃ next, after.entry? id = some next ∧ next.path = entry.path ∧ next.isOpen = entry.isOpen

namespace Spares

theorem of_entries (same : after.entries = before.entries) : Spares touched before after := by
  refine ⟨fun {id entry} _ found => ⟨entry, ?_, rfl, rfl⟩⟩
  rw [Cache.entry?, same]
  exact found

theorem of_sameStore (same : SameStore before after) : Spares touched before after :=
  .of_entries same.entries

theorem refl (cache : Cache) : Spares touched cache cache := .of_entries rfl

theorem trans (first : Spares touched before middle) (second : Spares touched middle after) :
    Spares touched before after := by
  refine ⟨fun {id entry} apart found => ?_⟩
  obtain ⟨between, present, place, shown⟩ := first.kept apart found
  obtain ⟨next, present', place', shown'⟩ := second.kept apart present
  exact ⟨next, present', place'.trans place, shown'.trans shown⟩

theorem setEntry (found : cache.entry? id = some entry) (place : next.path = entry.path)
    (shown : next.isOpen = entry.isOpen) : Spares touched cache (cache.setEntry id next) := by
  refine ⟨fun {asked held} _ present => ?_⟩
  rw [entry?_setEntry]
  split
  · rename_i here
    rw [here, found] at present
    cases present
    exact ⟨next, by rw [here, found]; rfl, place, shown⟩
  · exact ⟨held, present, rfl, rfl⟩

theorem modifyEntry (cache : Cache) (id : EntryId) {change : Entry → Entry}
    (alike : ¬ touched id → ∀ entry,
      (change entry).path = entry.path ∧ (change entry).isOpen = entry.isOpen) :
    Spares touched cache (cache.modifyEntry id change) := by
  refine ⟨fun {asked held} apart present => ?_⟩
  rw [entry?_modifyEntry]
  split
  · rename_i here
    exact ⟨change held, by rw [present]; rfl, alike (here ▸ apart) held⟩
  · exact ⟨held, present, rfl, rfl⟩

theorem closeEntry (cache : Cache) (closing : touched id) :
    Spares touched cache (cache.closeEntry id) := by
  refine ⟨fun {asked held} apart present => ⟨held, ?_, rfl, rfl⟩⟩
  rw [entry?_closeEntry, if_neg, present]
  rintro rfl
  exact apart closing

theorem onEntry {α : Type} (cache : Cache) (id : EntryId)
    {operation : Entry → Except EntryError (α × Entry)}
    (alike : ∀ entry result next, operation entry = .ok (result, next) →
      next.path = entry.path ∧ next.isOpen = entry.isOpen) :
    Spares touched cache (cache.onEntry id operation).2 := by
  unfold Cache.onEntry
  split
  · exact .refl cache
  · rename_i entry found
    split
    · exact .refl cache
    · rename_i done
      obtain ⟨place, shown⟩ := alike _ _ _ done
      exact .setEntry found place shown

theorem append (cache : Cache) {made : Entry} (extended : after.entries = cache.entries ++ [made]) :
    Spares touched cache after :=
  ⟨fun {asked held} _ present => ⟨held, by
    rw [entry?_append cache extended, if_neg (Nat.ne_of_lt (lt_length_of_found present)), present],
    rfl, rfl⟩⟩

theorem allocate (cache : Cache) (path : Path) (size : Nat) (modified : Modified) :
    Spares touched cache (cache.allocate path size modified).2 := by
  unfold Cache.allocate
  split
  · split
    · exact .refl cache
    · exact .append cache rfl
  · exact .refl cache

theorem release (cache : Cache) (id : EntryId) : Spares touched cache (cache.release id) := by
  refine trans ?_ (.of_sameStore (sameStore_release cache id))
  unfold releaseEntryHandle
  split
  · rename_i left given released
    obtain ⟨entry, found, gone⟩ := Option.bind_eq_some_iff.mp released
    obtain ⟨-, rfl⟩ := Entry.releaseHandle?_some gone
    exact .setEntry found rfl rfl
  · exact .of_entries rfl

theorem foldl_discard (doomed : PathMap EntryId) (closing : ∀ item ∈ doomed, touched item.2)
    (reached : Spares touched before cache) :
    Spares touched before
      (doomed.foldl (fun cache (key, id) => (cache.cancel key).2.closeEntry id) cache) := by
  induction doomed generalizing cache with
  | nil => exact reached
  | cons item doomed ih =>
      have cancelled : Spares touched cache (cache.cancel item.1).2 :=
        .of_sameStore ((SameStore.refl cache).cancel item.1)
      exact ih (fun other later => closing other (.tail _ later))
        ((reached.trans cancelled).trans (.closeEntry _ (closing item (.head _))))

/-- Background work that evicts nothing. -/
theorem deliver (cache : Cache) (task : TaskId) (i : Nat) (reply : Reply) :
    Spares touched cache (cache.deliver task i reply) := by
  unfold Cache.deliver
  split
  · exact .refl cache
  · rename_i work target load _
    split
    · exact .refl cache
    · rename_i entry found
      split
      · exact .refl cache
      · have filled : Spares touched cache
            (cache.setEntry target (load.receive i entry reply).2) := by
          refine .setEntry found ?_ (load.isOpen_receive_eq i entry reply)
          obtain ⟨_, _, shape⟩ := load.receive_entry i entry reply
          rw [shape]
        exact filled.trans (.of_sameStore ((SameStore.refl _).setWork task _))

theorem settle (cache : Cache) (task : TaskId) (result : Except RemoteError Unit) :
    Spares touched cache (cache.settle task result) := by
  unfold Cache.settle
  split
  · rename_i job held
    split
    · rename_i version snapshot call stage
      split
      · exact .of_sameStore ((SameStore.refl cache).failUpload _ _ _)
      · have told : Spares touched cache
            (cache.emit (.written job.entry job.path (snapshot.chunks copyStep))) :=
          .of_entries rfl
        have marked : Spares touched cache
            ((cache.emit (.written job.entry job.path (snapshot.chunks copyStep))).modifyEntry
              job.entry fun entry => entry.markClean version) :=
          told.trans (.modifyEntry _ job.entry fun _ _ => ⟨rfl, rfl⟩)
        exact marked.trans (.of_sameStore
          (((SameStore.refl _).log .info "upload finished" none).endUpload task job))
    · exact .refl cache
  · exact .refl cache

end Spares

/-! ### Closed entries -/

namespace Shut

theorem spares (shut : before.Shut id) (spares : Spares touched before after)
    (apart : ¬ touched id) : after.Shut id := by
  obtain ⟨entry, found, closed⟩ := shut
  obtain ⟨next, present, -, shown⟩ := spares.kept apart found
  exact ⟨next, present, shown.trans closed⟩

theorem of_sameStore (shut : before.Shut id) (same : SameStore before after) : after.Shut id := by
  have untouched : Spares (fun _ => False) before after := .of_sameStore same
  exact shut.spares untouched not_false

theorem displaces (shut : before.Shut id) (displaces : Displaces before after) :
    after.Shut id := by
  obtain ⟨entry, found, closed⟩ := shut
  obtain ⟨next, present, _, rfl | rfl⟩ := displaces.kept found <;> refine ⟨_, present, ?_⟩
  · exact closed
  · rfl

theorem closeEntry (known : (cache.entry? id).isSome) : (cache.closeEntry id).Shut id := by
  obtain ⟨entry, found⟩ := Option.isSome_iff_exists.mp known
  exact ⟨entry.close, by rw [entry?_closeEntry, if_pos rfl, found]; rfl, rfl⟩

theorem foldl_discard {doomed : PathMap EntryId} {item : Path × EntryId} (member : item ∈ doomed)
    (known : (cache.entry? item.2).isSome) :
    Shut (doomed.foldl (fun cache (key, id) => (cache.cancel key).2.closeEntry id) cache)
      item.2 := by
  induction doomed generalizing cache with
  | nil => cases member
  | cons first doomed ih =>
      rcases List.mem_cons.mp member with rfl | later
      · have lookup : Cache.entry? (cache.cancel item.1).2 item.2 = cache.entry? item.2 :=
          ((SameStore.refl cache).cancel item.1).lookup
        exact (Shut.closeEntry (by rw [lookup]; exact known)).displaces
          (.foldl_discard doomed (.refl _))
      · have displaces := (Displaces.cancel cache first.1).trans (.closeEntry _ first.2)
        obtain ⟨entry, found⟩ := Option.isSome_iff_exists.mp known
        obtain ⟨next, present, -⟩ := displaces.kept found
        exact ih later (Option.isSome_of_eq_some present)

end Shut

/-! ### Steps -/

/-- The step opens a path. -/
def Step.opens : Step → Bool
  | .openFile .. => true
  | _ => false

/-- Somebody other than the cache closes the entry or has it go by another path. -/
def Step.meddles (id : EntryId) : Step → Bool
  | .closeEntry other => other == id
  | .rename other _ => other == id
  | _ => false

/-- What one step makes of the map, and of the entries that this concerns. -/
inductive Remaps (cache : Cache) (step : Step) : Cache → Prop
  /-- Nothing enters the map and nothing leaves it. -/
  | kept {after : Cache} (mapped : after.mapped = cache.mapped)
      (unborn : step.opens = true → ∀ id, (after.entry? id).isSome = (cache.entry? id).isSome)
      (spares : Spares (step.meddles · = true) cache after) : Remaps cache step after
  /-- A path was opened at which nothing was mapped. -/
  | made {path : Path} {made : Entry} {after : Cache} (opens : step.opens = true)
      (unmapped : cache.mapped.get? path = none)
      (mapped : after.mapped = cache.mapped.set path cache.entries.length)
      (fresh : after.entry? cache.entries.length = some made) (goes : made.path = path)
      (shown : made.isOpen = true)
      (born : ∀ {id}, cache.entry? id = none → (after.entry? id).isSome →
        id = cache.entries.length)
      (spares : Spares (fun _ => False) cache after) : Remaps cache step after
  /-- The entries at the keys that are not kept were taken off and closed. -/
  | discarded {keep : Path × EntryId → Bool} {after : Cache} (opens : step.opens = false)
      (mapped : after.mapped = cache.mapped.filter keep)
      (shut : ∀ item ∈ cache.mapped, keep item = false → (cache.entry? item.2).isSome →
        after.Shut item.2)
      (spares : Spares (fun id => ∃ item ∈ cache.mapped, keep item = false ∧ item.2 = id)
        cache after) : Remaps cache step after
  /-- An entry went to another key and what was mapped there was closed. -/
  | moved {source destination : Path} {id : EntryId} {after : Cache} (opens : step.opens = false)
      (apart : ¬ source.Same destination) (held : cache.mapped.get? source = some id)
      (mapped : after.mapped = (cache.mapped.erase source).set destination id)
      (goes : ∀ {entry}, cache.mapped.get? destination ≠ some id → cache.entry? id = some entry →
        ∃ next, after.entry? id = some next ∧ next.path = destination ∧
          next.isOpen = entry.isOpen)
      (shut : ∀ {other}, cache.mapped.get? destination = some other →
        (cache.entry? other).isSome → after.Shut other)
      (spares : Spares (fun other => other = id ∨ cache.mapped.get? destination = some other)
        cache after) : Remaps cache step after

namespace Remaps

theorem of_sameStore (same : SameStore cache after) : Remaps cache step after :=
  .kept same.mapped (fun _ _ => by rw [same.lookup]) (.of_sameStore same)

/-! ### Opening -/

theorem of_new (opens : step.opens = true) (unmapped : cache.mapped.get? path = none)
    (mapped : after.mapped = cache.mapped.set path cache.entries.length)
    (lookup : ∀ id, after.entry? id
      = if id = cache.entries.length then some entry else cache.entry? id)
    (goes : entry.path = path) (shown : entry.isOpen = true) : Remaps cache step after := by
  refine .made opens unmapped mapped ((lookup _).trans (if_pos rfl)) goes shown
    (fun {id} absent present => ?_) ⟨fun {id held} _ found => ⟨held, ?_, rfl, rfl⟩⟩
  · refine Decidable.byContradiction fun apart => ?_
    rw [lookup, if_neg apart, absent] at present
    cases present
  · rw [lookup, if_neg (Nat.ne_of_lt (lt_length_of_found found)), found]

theorem openFile (cache : Cache) (path : Path) (flags : OpenFlags) (size : Nat)
    (modified : Modified) :
    Remaps (if flags.isWritable then (cache.cancel path).2 else cache)
      (.openFile path flags size modified) (cache.openFile path flags size modified).2 := by
  have opens := opens_openFile cache path flags size modified
  generalize (if flags.isWritable then (cache.cancel path).2 else cache) = base at opens
  generalize (cache.openFile path flags size modified).2 = after at opens
  have reopened : ∀ id, Spares (Step.meddles · (.openFile path flags size modified) = true) base
      (base.modifyEntry id (·.reopened modified)) := fun id =>
    .modifyEntry base id fun _ _ => ⟨rfl, rfl⟩
  have present : ∀ id other, (Cache.entry? (base.modifyEntry id (·.reopened modified)) other).isSome
      = (base.entry? other).isSome := by
    intro id other
    rw [entry?_modifyEntry]
    split
    · rw [Option.isSome_map]
    · rfl
  cases opens with
  | unmade unmapped => exact .of_sameStore (.refl base)
  | opened acquired keeps =>
      rcases acquire_ok acquired with ⟨-, rfl⟩ | ⟨unmapped, made, fits, rfl, rfl⟩
      · exact .kept rfl (fun _ => present _) ((reopened _).trans (.of_entries rfl))
      · obtain ⟨-, rfl⟩ := Entry.create_ok fits
        exact .of_new rfl unmapped rfl (fun _ => entry?_append base rfl) rfl rfl
  | @emptied id held entry empty acquired wipes found done =>
      obtain ⟨place, shown⟩ := Entry.shape_truncate done
      rcases acquire_ok acquired with ⟨-, rfl⟩ | ⟨unmapped, made, fits, rfl, rfl⟩
      · refine .kept rfl (fun _ other => isSome_setEntry.trans (present id other)) ?_
        exact ((reopened id).trans (.setEntry found place shown)).trans (.of_entries rfl)
      · have first := (entry?_append base rfl).symm.trans found
        rw [if_pos rfl] at first
        cases first
        obtain ⟨-, rfl⟩ := Entry.create_ok fits
        refine .of_new rfl unmapped rfl (fun other => ?_) place shown
        refine (entry?_setEntry _).trans ?_
        rw [entry?_append base rfl]
        split <;> rfl
  | refused acquired wipes closed =>
      obtain ⟨-, rfl⟩ := acquired_closed acquired closed
      exact .kept (sameTables_release _ _).mapped
        (fun _ other => isSome_release.trans (present _ other)) ((reopened _).trans (.release _ _))

/-! ### Taking off the map -/

theorem unmapped (distinct : cache.mapped.Distinct) (opens : step.opens = false)
    (held : cache.mapped.get? path = some id) :
    Remaps cache step (closeEntry { cache with mapped := cache.mapped.erase path } id) := by
  have only : ∀ item ∈ cache.mapped, (!decide (item.1.Same path)) = false → item.2 = id := by
    intro item member gone
    have here : item.1.Same path := by simpa using gone
    rw [distinct.get?_of_mem member here] at held
    exact Option.some.inj held
  refine .discarded opens (SameTables.closeEntry _ id).mapped (fun item member gone known => ?_) ?_
  · rw [only item member gone] at known ⊢
    exact Shut.closeEntry known
  · obtain ⟨key, member, here⟩ := PathMap.exists_mem_of_get? held
    have erased : ∀ {touched},
        Spares touched cache { cache with mapped := cache.mapped.erase path } :=
      .of_entries rfl
    exact erased.trans (.closeEntry _ ⟨(key, id), member, by simpa using here, rfl⟩)

theorem evictIfIdle {epoch : Nat} (distinct : cache.mapped.Distinct) (opens : step.opens = false) :
    Remaps cache step (cache.evictIfIdle id epoch) := by
  unfold Cache.evictIfIdle
  split
  · exact .of_sameStore (.refl cache)
  · split
    · rename_i idle
      exact .unmapped distinct opens idle.1
    · exact .of_sameStore (.refl cache)

theorem deleteTree (cache : Cache) (tree : Path) (opens : step.opens = false) :
    Remaps cache step (cache.deleteTree tree) := by
  rw [deleteTree_eq]
  refine .discarded opens (mapped_foldl_discard _) (fun item member gone known => ?_) ?_
  · have inside : item.1.Within tree := by simpa using gone
    exact Shut.foldl_discard (List.mem_filter.mpr ⟨member, decide_eq_true inside⟩) known
  · refine .foldl_discard _ (fun item doomed => ?_) (.of_entries rfl)
    obtain ⟨member, inside⟩ := List.mem_filter.mp doomed
    exact ⟨item, member, by simpa using inside, rfl⟩

theorem relocate (opens : step.opens = false) (apart : ¬ source.Same destination)
    (held : cache.mapped.get? source = some id) :
    Remaps cache step (cache.relocate source destination id) := by
  have placed := @mapped_relocate cache id source destination
  have lookup : ∀ other, Cache.entry? ({ cache with
      mapped := (cache.mapped.erase source).set destination id
      }.modifyEntry id fun entry => { entry with path := destination }) other
      = if other = id then (cache.entry? other).map fun entry => { entry with path := destination }
        else cache.entry? other := fun _ => entry?_modifyEntry
  have elsewhere : ∀ {touched : EntryId → Prop}, touched id → Spares touched cache ({ cache with
      mapped := (cache.mapped.erase source).set destination id
      }.modifyEntry id fun entry => { entry with path := destination }) := by
    intro touched here
    have mapped : Spares touched cache
        { cache with mapped := (cache.mapped.erase source).set destination id } := .of_entries rfl
    exact mapped.trans (.modifyEntry _ id fun away => absurd here away)
  unfold Cache.relocate at placed ⊢
  simp only at placed ⊢
  generalize { cache with
      mapped := (cache.mapped.erase source).set destination id
      }.modifyEntry id (fun entry => { entry with path := destination }) = moved
    at placed lookup elsewhere ⊢
  have goes : ∀ {entry}, cache.entry? id = some entry →
      moved.entry? id = some { entry with path := destination } := by
    intro entry found
    rw [lookup, if_pos rfl, found]
    rfl
  split
  · rename_i displaced taken
    rw [taken] at placed
    refine .moved opens apart held placed (fun {entry} free found => ?_)
      (fun {other} there known => ?_) ?_
    · have other : id ≠ displaced := by
        rintro rfl
        exact free taken
      have closes : Spares (· = displaced) moved (moved.closeEntry displaced) :=
        .closeEntry moved rfl
      obtain ⟨next, present, place, shown⟩ := closes.kept other (goes found)
      exact ⟨next, present, place, shown⟩
    · rw [taken] at there
      cases there
      refine Shut.closeEntry ?_
      rw [lookup]
      split
      · rwa [Option.isSome_map]
      · exact known
    · exact (elsewhere (.inl rfl)).trans (.closeEntry _ (.inr taken))
  · rename_i free
    rw [free] at placed
    refine .moved opens apart held placed (fun {entry} _ found => ⟨_, goes found, rfl, rfl⟩)
      (fun {other} there => ?_) (elsewhere (.inl rfl))
    rw [free] at there
    cases there

end Remaps

/-! ### Every step -/

theorem mapped_deliver {task : TaskId} {i : Nat} {reply : Reply} :
    (cache.deliver task i reply).mapped = cache.mapped := by
  unfold Cache.deliver
  split
  · rfl
  · split
    · rfl
    · split <;> rfl

theorem mapped_settle {task : TaskId} {result : Except RemoteError Unit} :
    (cache.settle task result).mapped = cache.mapped := by
  unfold Cache.settle
  split
  · split
    · split
      · exact ((SameStore.refl cache).failUpload _ _ _).mapped
      · exact (((SameStore.refl _).log .info "upload finished" none).endUpload _ _).mapped
    · rfl
  · rfl

/-- Between two pieces of work that leave the map and the entries alone, a step does one of
the things named. -/
theorem remaps_step (distinct : cache.mapped.Distinct) (step : Step) :
    ∃ base middle, SameStore cache base ∧ Remaps base step middle ∧
      SameStore middle (cache.step step) := by
  have now : ∀ {after}, Remaps cache step after →
      ∃ base middle, SameStore cache base ∧ Remaps base step middle ∧ SameStore middle after :=
    fun remaps => ⟨cache, _, .refl cache, remaps, .refl _⟩
  have kept : ∀ {after : Cache}, step.opens = false → after.mapped = cache.mapped →
      Spares (step.meddles · = true) cache after →
      ∃ base middle, SameStore cache base ∧ Remaps base step middle ∧ SameStore middle after :=
    fun shut mapped spares => now
      (.kept mapped (fun opens => absurd (shut.symm.trans opens) Bool.false_ne_true) spares)
  have only : ∀ {after}, SameStore cache after →
      ∃ base middle, SameStore cache base ∧ Remaps base step middle ∧ SameStore middle after :=
    fun same => now (.of_sameStore same)
  have first : ∀ {base after}, SameStore cache base →
      (base.mapped.Distinct → Remaps base step after) →
      ∃ base middle, SameStore cache base ∧ Remaps base step middle ∧ SameStore middle after :=
    fun same remaps => ⟨_, _, same, remaps (same.mapped ▸ distinct), .refl _⟩
  have same := SameStore.refl cache
  cases step with
  | create path size modified =>
      exact kept rfl (SameTables.allocate cache path size modified).mapped
        (.allocate cache path size modified)
  | write target offset data =>
      exact kept rfl (SameTables.onEntry cache target _).mapped
        (.onEntry cache target fun _ _ _ done => Entry.shape_write done)
  | truncate target size =>
      exact kept rfl (SameTables.onEntry cache target _).mapped
        (.onEntry cache target fun _ _ _ done =>
          Entry.shape_truncate (Entry.truncate_of_map done))
  | closeEntry target =>
      exact kept rfl (SameTables.closeEntry cache target).mapped
        (.closeEntry cache (beq_self_eq_true target))
  | rename target path =>
      exact kept rfl rfl
        (.modifyEntry cache target fun apart => absurd (beq_self_eq_true target) apart)
  | openFile path flags size modified =>
      exact first (sameStore_prepared cache path flags) fun _ =>
        .openFile cache path flags size modified
  | closeHandle handle =>
      simp only [Cache.step, closeHandle]
      split
      · exact only (same.emit _)
      · have handed : ∀ {touched}, Spares touched cache { cache with
            handles := cache.handles.filter fun item => item.1 != handle } := .of_entries rfl
        exact kept rfl (sameTables_release _ _).mapped (handed.trans (.release _ _))
  | moveFile source destination =>
      have moves := moves_moveFile cache source destination
      have cancelled := (same.cancel source).cancel destination
      simp only [Cache.step]
      generalize ((cache.cancel source).2.cancel destination).2 = base at moves cancelled
      generalize (cache.moveFile source destination).2 = after at moves
      cases moves with
      | same alike => exact only same
      | absent apart nowhere free => exact only cancelled
      | discarded apart nowhere taken =>
          exact first cancelled fun known => .unmapped known rfl taken
      | moved apart mapped idle => exact first cancelled fun _ => .relocate rfl apart mapped
      | rescheduled apart mapped hit =>
          exact ⟨base, _, cancelled, .relocate rfl apart mapped, (SameStore.refl _).schedule _ _⟩
  | delete path =>
      simp only [Cache.step, Cache.delete]
      split
      · exact only (same.cancel path)
      · rename_i mapped
        exact first (same.cancel path) fun known => .unmapped known rfl mapped
  | deleteTree tree => exact now (.deleteTree cache tree rfl)
  | act action =>
      cases action with
      | advance task =>
          simp only [Cache.step, Cache.act, Cache.advance]
          split
          · exact only same
          · split
            · exact only (same.reap _)
            · split
              · exact only (same.advanceTransfer _ _)
              · exact only (same.advanceUpload _ _)
              · split
                · exact first (same.dropTask task) fun known => .evictIfIdle known rfl
                · exact only same
      | request task i => exact only (same.request task i)
      | deliver task i reply =>
          exact kept rfl mapped_deliver (.deliver cache task i reply)
      | settle task result => exact kept rfl mapped_settle (.settle cache task result)
      | tick milliseconds => exact kept rfl rfl (.of_entries rfl)
  | loseScratch => exact kept rfl rfl (.of_entries rfl)
  | _ => exact only (sameStore_step cache rfl)

end Cache

end SparseCache
