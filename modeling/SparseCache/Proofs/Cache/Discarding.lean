import SparseCache.Proofs.Cache.Callbacks
import SparseCache.Proofs.Cache.Confinement
import SparseCache.Proofs.Cache.Remapping

namespace SparseCache.Cache

/-! Deleting one path after the other, and deleting a tree of them at once.

Either way what is left follows from which places are gone, whatever the order was in which
they went.
-/

variable {cache before middle after left right : Cache} {id other : EntryId} {entry : Entry}
  {path tree : Path} {task : TaskId} {gone gone' : Path → Bool} {shut shut' : EntryId → Prop}

/-! ### What is mapped has one location -/

theorem oneToOne_step (oneToOne : cache.mapped.OneToOne) (rooted : cache.Rooted) (step : Step) :
    (cache.step step).mapped.OneToOne := by
  obtain ⟨base, middle, first, remaps, last⟩ := remaps_step oneToOne.distinct step
  rw [last.mapped]
  rw [← first.mapped] at oneToOne
  cases remaps with
  | kept mapped unborn spares => exact mapped ▸ oneToOne
  | made opens unmapped mapped fresh goes shown born spares =>
      rw [mapped]
      refine oneToOne.set fun other taken => ?_
      have known := rooted.referred (.inr ⟨other, first.mapped ▸ taken⟩)
      rw [← first.lookup, entry?, List.getElem?_eq_none (Nat.le_refl _)] at known
      cases known
  | discarded opens mapped shut spares => exact mapped ▸ oneToOne.filter _
  | moved opens apart held mapped goes shut spares =>
      exact mapped ▸ oneToOne.erase.set fun _ => oneToOne.get?_erase_ne held

theorem oneToOne_after (mount : Mount) (steps : Nat → Step) (n : Nat) :
    (mount.cache.after steps n).mapped.OneToOne := by
  have initial : mount.cache.mapped.OneToOne := ⟨.nil, .nil⟩
  exact @after_induction _ steps (·.mapped.OneToOne) initial
    (fun n oneToOne => oneToOne_step oneToOne (rooted_after mount steps n) (steps n)) n

/-! ### What stays mapped -/

theorem mapped_delete (cache : Cache) (path : Path) :
    (cache.delete path).mapped = cache.mapped.erase path := by
  have table := ((SameStore.refl cache).cancel path).mapped
  rw [← table]
  unfold Cache.delete
  simp only
  split
  · rename_i free
    exact (PathMap.erase_of_get?_none free).symm
  · exact (SameTables.closeEntry _ _).mapped

theorem mapped_foldl_delete (cache : Cache) (order : List Path) :
    (order.foldl Cache.delete cache).mapped
      = cache.mapped.filter fun item => !order.any fun key => decide (item.1.Same key) := by
  induction order generalizing cache with
  | nil => exact (List.filter_eq_self.mpr fun _ _ => rfl).symm
  | cons key order ih =>
      rw [List.foldl_cons, ih, mapped_delete, PathMap.erase, List.filter_filter]
      simp only [List.any_cons, Bool.not_or, Bool.and_comm]

/-! ### What is gone -/

/-- Uploads on record at places that are `gone` were stopped, and the entries to be `shut` were
closed. -/
structure Drops (gone : Path → Bool) (shut : EntryId → Prop) (before after : Cache) : Prop where
  /-- No spelling makes a difference. -/
  whole : ∀ {path other : Path}, path.Same other → gone path = gone other
  pending : after.pending = before.pending.filter fun item => !gone item.1
  stopped : ∀ {path task}, gone path = true → before.pending.get? path = some task →
    after.doing? task = none
  working : ∀ {task}, (∀ path, before.pending.get? path = some task → gone path = false) →
    after.doing? task = before.doing? task
  closed : ∀ {id}, shut id →
    after.entry? id = (before.entry? id).map Entry.close
  entries : ∀ {id}, ¬ shut id → after.entry? id = before.entry? id
  handles : after.handles = before.handles
  counter : after.counter = before.counter

namespace Drops

theorem refl (cache : Cache) : Drops (fun _ => false) (fun _ => False) cache cache where
  whole _ := rfl
  pending := (List.filter_eq_self.mpr fun _ _ => rfl).symm
  stopped never := by cases never
  working _ := rfl
  closed never := never.elim
  entries _ := rfl
  handles := rfl
  counter := rfl

theorem get?_pending (drops : Drops gone shut before after) :
    after.pending.get? path = if gone path = true then none else before.pending.get? path := by
  rw [drops.pending, @PathMap.get?_filter _ _ path (fun key => !gone key)
    fun same => by rw [drops.whole same]]
  cases gone path <;> rfl

theorem trans (first : Drops gone shut before middle) (second : Drops gone' shut' middle after) :
    Drops (fun path => gone path || gone' path) (fun id => shut id ∨ shut' id) before after where
  whole same := by rw [first.whole same, second.whole same]
  pending := by
    rw [second.pending, first.pending, List.filter_filter]
    simp only [Bool.not_or, Bool.and_comm]
  stopped {path task} dropped registered := by
    by_cases again : ∃ other, gone' other = true ∧ middle.pending.get? other = some task
    · obtain ⟨other, later, kept⟩ := again
      exact second.stopped later kept
    · rw [second.working fun other kept => Bool.eq_false_iff.mpr fun later =>
        again ⟨other, later, kept⟩]
      by_cases earlier : gone path = true
      · exact first.stopped earlier registered
      · have later : gone' path = true := (Bool.or_eq_true_iff.mp dropped).resolve_left earlier
        exact absurd ⟨path, later, first.get?_pending.trans ((if_neg earlier).trans registered)⟩
          again
  working {task} spared := by
    rw [second.working, first.working]
    · exact fun path registered => (Bool.or_eq_false_iff.mp (spared path registered)).1
    · intro path kept
      rw [first.get?_pending] at kept
      split at kept
      · cases kept
      · exact (Bool.or_eq_false_iff.mp (spared path kept)).2
  closed {id} here := by
    by_cases again : shut' id
    · rw [second.closed again]
      by_cases before : shut id
      · rw [first.closed before, Option.map_map]
        rfl
      · rw [first.entries before]
    · rw [second.entries again, first.closed (here.resolve_right again)]
  entries {id} spared := by
    rw [second.entries fun later => spared (.inr later),
      first.entries fun earlier => spared (.inl earlier)]
  handles := second.handles.trans first.handles
  counter := second.counter.trans first.counter

theorem congr (drops : Drops gone shut before after) (same : ∀ id, shut' id ↔ shut id) :
    Drops gone shut' before after :=
  { drops with
    closed := fun here => drops.closed ((same _).mp here)
    entries := fun spared => drops.entries fun here => spared ((same _).mpr here) }

theorem cancel (sound : cache.Sound) (path : Path) :
    Drops (fun other => decide (other.Same path)) (fun _ => False) cache (cache.cancel path).2 := by
  have store := (SameStore.refl cache).cancel path
  refine ⟨fun same => ?_, pending_cancel sound.backed, fun {other task} here registered => ?_,
    fun {task} spared => ?_, fun never => never.elim, fun _ => store.lookup, store.handles,
    store.counter⟩
  · exact decide_eq_decide.mpr ⟨same.symm.trans, same.trans⟩
  · rw [doing?_cancel sound.backed, if_pos]
    rw [← PathMap.get?_congr (of_decide_eq_true here), registered]
  · rw [doing?_cancel sound.backed, if_neg]
    intro registered
    exact of_decide_eq_false (spared path registered) (.refl path)

theorem closeEntry (drops : Drops gone shut before after) (id : EntryId) :
    Drops gone (fun other => shut other ∨ other = id) before (after.closeEntry id) := by
  have work := (SameWork.refl after).closeEntry id
  have tables := SameTables.closeEntry after id
  refine ⟨drops.whole, work.pending.trans drops.pending, fun here registered => ?_,
    fun spared => ?_, fun {other} here => ?_, fun {other} spared => ?_,
    tables.handles.trans drops.handles, tables.counter.trans drops.counter⟩
  · rw [work.doing?, drops.stopped here registered]
  · rw [work.doing?, drops.working spared]
  · rw [entry?_closeEntry]
    by_cases before : shut other
    · rw [drops.closed before, Option.map_map]
      exact ite_self _
    · rw [if_pos (here.resolve_left before), drops.entries before]
  · rw [entry?_closeEntry, if_neg fun here => spared (.inr here),
      drops.entries fun here => spared (.inl here)]

/-! ### One path after the other -/

theorem delete (sound : cache.Sound) (path : Path) :
    Drops (fun other => decide (other.Same path)) (fun id => cache.mapped.get? path = some id)
      cache (cache.delete path) := by
  have cancelled := cancel sound path
  have table := ((SameStore.refl cache).cancel path).mapped
  rw [← table]
  unfold Cache.delete
  simp only
  split
  · rename_i free
    exact cancelled.congr fun id => ⟨fun held => (by rw [free] at held; cases held), False.elim⟩
  · rename_i displaced held
    have unmapped : Drops (fun other => decide (other.Same path)) (fun _ => False) cache
        { (cache.cancel path).2 with mapped := (cache.cancel path).2.mapped.erase path } :=
      { cancelled with }
    refine (unmapped.closeEntry displaced).congr fun id => ?_
    rw [held, false_or, Option.some.injEq, eq_comm]

theorem foldl_delete (sound : cache.Sound) (order : List Path) :
    Drops (fun path => order.any fun key => decide (path.Same key))
      (fun id => ∃ key ∈ order, cache.mapped.get? key = some id) cache
      (order.foldl Cache.delete cache) := by
  induction order generalizing cache with
  | nil => exact (refl cache).congr fun id => by simp
  | cons key order ih =>
      refine ((delete sound key).trans (ih (Wanes.delete sound key).sound)).congr fun id => ?_
      simp only [mapped_delete, PathMap.get?_erase_eq_some_iff, List.mem_cons, exists_eq_or_imp]
      constructor
      · rintro (here | ⟨other, later, held⟩)
        · exact .inl here
        · by_cases same : key.Same other
          · exact .inl ((PathMap.get?_congr same).trans held)
          · exact .inr ⟨other, later, same, held⟩
      · rintro (here | ⟨other, later, -, held⟩)
        · exact .inl here
        · exact .inr ⟨other, later, held⟩

/-! ### All at once -/

theorem foldl_discard (sound : cache.Sound) (doomed : PathMap EntryId) :
    Drops (fun path => doomed.any fun item => decide (path.Same item.1))
      (fun id => ∃ item ∈ doomed, id = item.2) cache
      (doomed.foldl (fun cache (key, id) => (cache.cancel key).2.closeEntry id) cache) := by
  induction doomed generalizing cache with
  | nil => exact (refl cache).congr fun id => by simp
  | cons item doomed ih =>
      have sound' := ((SameWork.refl _).closeEntry item.2).sound (Wanes.cancel sound item.1).sound
      refine (((cancel sound item.1).closeEntry item.2).trans (ih sound')).congr fun id => ?_
      simp only [List.mem_cons, exists_eq_or_imp, false_or]

end Drops

/-! ### Trees -/

/-- `order` names every place within `tree` at which something is mapped, and no other. -/
def Lists (cache : Cache) (order : List Path) (tree : Path) : Prop :=
  ∀ path, (∃ key ∈ order, path.Same key) ↔ path.Within tree ∧ (cache.mapped.get? path).isSome

/-- Something is mapped there, within the tree. -/
def isDoomed (cache : Cache) (tree path : Path) : Bool :=
  decide (path.Within tree) && (cache.mapped.get? path).isSome

/-- The entry is mapped within the tree. -/
def MapsWithin (cache : Cache) (tree : Path) (id : EntryId) : Prop :=
  ∃ path, path.Within tree ∧ cache.mapped.get? path = some id

theorem isDoomed_iff :
    cache.isDoomed tree path = true ↔ path.Within tree ∧ (cache.mapped.get? path).isSome := by
  rw [isDoomed, Bool.and_eq_true, decide_eq_true_iff]

theorem lists_keys (distinct : cache.mapped.Distinct) (tree : Path) :
    cache.Lists ((cache.mapped.filter fun item => decide (item.1.Within tree)).map Prod.fst)
      tree := by
  intro path
  constructor
  · rintro ⟨key, listed, same⟩
    obtain ⟨item, doomed, rfl⟩ := List.mem_map.mp listed
    obtain ⟨member, inside⟩ := List.mem_filter.mp doomed
    refine ⟨(Path.within_congr same).mpr (of_decide_eq_true inside), ?_⟩
    rw [distinct.get?_of_mem member same.symm]
    rfl
  · rintro ⟨inside, mapped⟩
    obtain ⟨id, held⟩ := Option.isSome_iff_exists.mp mapped
    obtain ⟨key, member, same⟩ := PathMap.exists_mem_of_get? held
    refine ⟨key, List.mem_map.mpr ⟨(key, id), List.mem_filter.mpr ⟨member, ?_⟩, rfl⟩, same.symm⟩
    exact decide_eq_true ((Path.within_congr same).mpr inside)

theorem Lists.any_eq {order : List Path} (lists : cache.Lists order tree) :
    (fun path => order.any fun key => decide (path.Same key)) = cache.isDoomed tree := by
  funext path
  rw [Bool.eq_iff_iff, isDoomed_iff, ← lists path, List.any_eq_true]
  simp only [decide_eq_true_iff]

theorem Drops.foldl_listed {order : List Path} (sound : cache.Sound)
    (lists : cache.Lists order tree) :
    Drops (cache.isDoomed tree) (cache.MapsWithin tree) cache
      (order.foldl Cache.delete cache) := by
  have drops := foldl_delete sound order
  rw [lists.any_eq] at drops
  refine drops.congr fun id => ⟨fun ⟨path, inside, held⟩ => ?_, fun ⟨key, listed, held⟩ => ?_⟩
  · obtain ⟨key, listed, same⟩ := (lists path).mpr ⟨inside, Option.isSome_of_eq_some held⟩
    exact ⟨key, listed, (PathMap.get?_congr same).symm.trans held⟩
  · exact ⟨key, ((lists key).mp ⟨key, listed, .refl key⟩).1, held⟩

theorem mapped_foldl_listed {order : List Path} (distinct : cache.mapped.Distinct)
    (lists : cache.Lists order tree) :
    (order.foldl Cache.delete cache).mapped
      = cache.mapped.filter fun item => !decide (item.1.Within tree) := by
  rw [mapped_foldl_delete]
  refine List.filter_congr fun item member => ?_
  have held := distinct.get?_of_mem member (.refl item.1)
  rw [congrFun lists.any_eq item.1, isDoomed, held, Option.isSome_some, Bool.and_true]

theorem Drops.deleteTree (sound : cache.Sound) (distinct : cache.mapped.Distinct) (tree : Path) :
    Drops (cache.isDoomed tree) (cache.MapsWithin tree) cache (cache.deleteTree tree) := by
  have cut : SameWork cache { cache with
      mapped := cache.mapped.filter fun item => !decide (item.1.Within tree) } :=
    (SameWork.refl cache).setMapped _
  have drops := foldl_discard (cut.sound sound)
    (cache.mapped.filter fun item => decide (item.1.Within tree))
  rw [← deleteTree_eq] at drops
  have lists := (lists_keys distinct tree).any_eq
  simp only [List.any_map, Function.comp_def] at lists
  rw [lists] at drops
  refine Drops.congr { drops with } fun id => ⟨fun ⟨path, inside, held⟩ => ?_,
    fun ⟨item, doomed, same⟩ => ?_⟩
  · obtain ⟨key, member, same⟩ := PathMap.exists_mem_of_get? held
    refine ⟨(key, id), List.mem_filter.mpr ⟨member, ?_⟩, rfl⟩
    exact decide_eq_true ((Path.within_congr same).mpr inside)
  · obtain ⟨member, inside⟩ := List.mem_filter.mp doomed
    exact ⟨item.1, of_decide_eq_true inside, same ▸ distinct.get?_of_mem member (.refl item.1)⟩

theorem mapped_deleteTree (cache : Cache) (tree : Path) :
    (cache.deleteTree tree).mapped
      = cache.mapped.filter fun item => !decide (item.1.Within tree) := by
  rw [deleteTree_eq]
  exact mapped_foldl_discard _

/-- The same is mapped, held and on record; entries are alike, and so is what tasks do. -/
structure Alike (left right : Cache) : Prop where
  mapped : left.mapped = right.mapped
  handles : left.handles = right.handles
  counter : left.counter = right.counter
  entries : left.entries = right.entries
  pending : left.pending = right.pending
  doing : ∀ task, left.doing? task = right.doing? task

/-- What went determines what is left. -/
theorem Drops.alike (one : Drops gone shut before left) (other : Drops gone shut before right)
    (mapped : left.mapped = right.mapped) : Alike left right where
  mapped := mapped
  handles := one.handles.trans other.handles.symm
  counter := one.counter.trans other.counter.symm
  entries := by
    refine List.ext_getElem? fun id => ?_
    change left.entry? id = right.entry? id
    by_cases here : shut id
    · rw [one.closed here, other.closed here]
    · rw [one.entries here, other.entries here]
  pending := one.pending.trans other.pending.symm
  doing task := by
    by_cases dropped : ∃ path, gone path = true ∧ before.pending.get? path = some task
    · obtain ⟨path, here, registered⟩ := dropped
      rw [one.stopped here registered, other.stopped here registered]
    · have spared : ∀ path, before.pending.get? path = some task → gone path = false :=
        fun path registered => Bool.eq_false_iff.mpr fun here => dropped ⟨path, here, registered⟩
      rw [one.working spared, other.working spared]

theorem Drops.confined (drops : Drops (before.isDoomed tree) (before.MapsWithin tree) before after)
    (enrolled : before.Enrolled)
    (mapped : after.mapped = before.mapped.filter fun item => !decide (item.1.Within tree)) :
    Confined (·.Within tree) (before.MapsWithin tree) before after where
  mapped {path} outside := by
    rw [mapped, PathMap.get?_filter_not_within, if_neg outside]
  pending {path} outside := by
    rw [drops.get?_pending, if_neg]
    exact fun doomed => outside (isDoomed_iff.mp doomed).1
  doing {path task} outside registered := by
    refine drops.working fun other again => ?_
    rw [drops.whole (enrolled.same again registered)]
    exact Bool.eq_false_iff.mpr fun doomed => outside (isDoomed_iff.mp doomed).1
  entries spared found := by rw [drops.entries spared, found]
  timers {task id epoch due} := by
    by_cases dropped : ∃ path, before.isDoomed tree path = true ∧
        before.pending.get? path = some task
    · obtain ⟨path, here, registered⟩ := dropped
      rw [drops.stopped here registered]
      exact ⟨fun none => (by cases none),
        fun timer => absurd registered (enrolled.not_timer timer)⟩
    · rw [drops.working fun path registered => Bool.eq_false_iff.mpr fun here =>
        dropped ⟨path, here, registered⟩]

theorem deleteTree_congr {spelled : Path} (same : spelled.Same tree) :
    cache.deleteTree spelled = cache.deleteTree tree := by
  simp only [deleteTree, Path.within_congr_tree same]

/-- Deleting a tree comes to the same as deleting one by one, in whatever order, all that is
mapped within it.  What is mapped elsewhere stays, with its upload, and so do all handles; how
the tree is spelled makes no difference. -/
theorem deleteTree_deletes_each (mount : Mount) (steps : Nat → Step) (n : Nat) (tree : Path) :
    (∀ order, Lists (mount.cache.after steps n) order tree →
      Alike (order.foldl Cache.delete (mount.cache.after steps n))
        (Cache.deleteTree (mount.cache.after steps n) tree)) ∧
    Confined (·.Within tree) (MapsWithin (mount.cache.after steps n) tree)
      (mount.cache.after steps n) (Cache.deleteTree (mount.cache.after steps n) tree) ∧
    (∀ path id, ¬ path.Within tree → (mount.cache.after steps n).mapped.get? path = some id →
      Cache.entry? (Cache.deleteTree (mount.cache.after steps n) tree) id
        = Cache.entry? (mount.cache.after steps n) id) ∧
    (Cache.deleteTree (mount.cache.after steps n) tree).handles
      = (mount.cache.after steps n).handles ∧
    (Cache.deleteTree (mount.cache.after steps n) tree).counter
      = (mount.cache.after steps n).counter ∧
    ∀ spelled : Path, spelled.Same tree ∨ spelled.Respells tree →
      Cache.deleteTree (mount.cache.after steps n) spelled
        = Cache.deleteTree (mount.cache.after steps n) tree := by
  have sound := sound_after mount steps n
  have oneToOne := oneToOne_after mount steps n
  have enrolled := enrolled_after mount steps n
  generalize mount.cache.after steps n = cache at sound oneToOne enrolled
  have drops := Drops.deleteTree sound oneToOne.distinct tree
  have table := mapped_deleteTree cache tree
  refine ⟨fun order lists => ?_, drops.confined enrolled table, fun path id outside held => ?_,
    drops.handles, drops.counter, fun spelled alike => ?_⟩
  · exact (Drops.foldl_listed sound lists).alike drops
      ((mapped_foldl_listed oneToOne.distinct lists).trans table.symm)
  · -- What is mapped outside is mapped nowhere else.
    refine drops.entries fun ⟨other, inside, held'⟩ => outside ?_
    exact (Path.within_congr (oneToOne.same held' held)).mp inside
  · exact deleteTree_congr (alike.elim id Path.Respells.same)

/-- Three files are open, or were: `a`, which waits for its upload, `a/b` and `ab`. -/
def threeNamed : List Step :=
  [.openFile ⟨[97]⟩ .readWrite 4 .now, .closeHandle 1, .openFile ⟨[97, 47, 98]⟩ .readOnly 2 .now,
    .openFile ⟨[97, 98]⟩ .readOnly 1 .now]

/-- One by one, from the bottom up, `a` and what is beneath it go as they do at once, also if the
tree is written `a//`.  What is called `ab` stays. -/
theorem threeNamed_deleted :
    Lists ((mountWith 0).cache.after (scripted threeNamed) 4) [⟨[97, 47, 98]⟩, ⟨[97]⟩] ⟨[97]⟩ ∧
    Alike (List.foldl Cache.delete ((mountWith 0).cache.after (scripted threeNamed) 4)
        [⟨[97, 47, 98]⟩, ⟨[97]⟩])
      (Cache.deleteTree ((mountWith 0).cache.after (scripted threeNamed) 4) ⟨[97, 47, 47]⟩) ∧
    ((mountWith 0).cache.after (scripted threeNamed) 4).mapped.get? ⟨[97, 98]⟩ = some 2 ∧
    Cache.entry? (Cache.deleteTree ((mountWith 0).cache.after (scripted threeNamed) 4) ⟨[97]⟩) 2
      = Cache.entry? ((mountWith 0).cache.after (scripted threeNamed) 4) 2 := by
  have lists : Lists ((mountWith 0).cache.after (scripted threeNamed) 4)
      [⟨[97, 47, 98]⟩, ⟨[97]⟩] ⟨[97]⟩ := by
    intro path
    rw [← lists_keys (oneToOne_after _ _ 4).distinct ⟨[97]⟩ path,
      show (((mountWith 0).cache.after (scripted threeNamed) 4).mapped.filter fun item =>
        decide (item.1.Within ⟨[97]⟩)).map Prod.fst = [⟨[97]⟩, ⟨[97, 47, 98]⟩] by decide]
    simp [or_comm]
  obtain ⟨each, -, outside, -, -, spelled⟩ :=
    deleteTree_deletes_each (mountWith 0) (scripted threeNamed) 4 ⟨[97]⟩
  have respelled : (⟨[97, 47, 47]⟩ : Path).Same ⟨[97]⟩ :=
    (Path.Respells.repeated [97] []).same.trans (Path.Respells.trailing (by decide)).same
  have mapped : ((mountWith 0).cache.after (scripted threeNamed) 4).mapped.get? ⟨[97, 98]⟩
      = some 2 := by decide
  exact ⟨lists, (spelled _ (.inl respelled)).symm ▸ each _ lists, mapped,
    outside _ 2 (by decide) mapped⟩

end SparseCache.Cache
