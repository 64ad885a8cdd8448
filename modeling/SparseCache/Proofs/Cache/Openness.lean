import SparseCache.Proofs.Cache.Currency
import SparseCache.Proofs.Cache.Holes

namespace SparseCache

/-! What is mapped is open.

The cache closes an entry only when it takes it off the map, so whatever is mapped and
closed all the same was closed by somebody else.
-/

theorem Load.isOpen_receive {load : Load} {i : Nat} {entry : Entry} {reply : Reply}
    (opened : entry.isOpen = true) : (load.receive i entry reply).2.isOpen = true := by
  rcases receive_stores load i entry reply with same | ⟨_, _, stored, -, -, done, changed⟩
  · rwa [same]
  · obtain ⟨content, held⟩ := Option.isSome_iff_exists.mp opened
    rw [Entry.store_eq held] at done
    cases done
    rw [changed]
    rfl

namespace Cache

variable {cache before after : Cache} {id other : EntryId} {entry next : Entry} {path : Path}
  {source destination : Path}

/-- The entry is there and was not closed. -/
def Opened (cache : Cache) (id : EntryId) : Prop :=
  ∃ entry, cache.entry? id = some entry ∧ entry.isOpen = true

namespace Opened

theorem of_lookup (opened : before.Opened id) (same : after.entry? id = before.entry? id) :
    after.Opened id := by
  obtain ⟨entry, found, shown⟩ := opened
  exact ⟨entry, same.trans found, shown⟩

theorem of_sameStore (opened : before.Opened id) (same : SameStore before after) :
    after.Opened id :=
  opened.of_lookup same.lookup

theorem setEntry (opened : cache.Opened id)
    (kept : id = other → next.isOpen = true) : (cache.setEntry other next).Opened id := by
  obtain ⟨held, found, shown⟩ := opened
  by_cases here : id = other
  · exact ⟨next, by rw [entry?_setEntry, if_pos here, found]; rfl, kept here⟩
  · exact ⟨held, by rw [entry?_setEntry, if_neg here, found], shown⟩

theorem modifyEntry (opened : cache.Opened id) {change : Entry → Entry}
    (alike : ∀ entry, (change entry).isOpen = entry.isOpen) :
    (cache.modifyEntry other change).Opened id := by
  obtain ⟨held, found, shown⟩ := opened
  by_cases here : id = other
  · have present : Cache.entry? (cache.modifyEntry other change) id = some (change held) := by
      rw [entry?_modifyEntry, if_pos here, found]
      rfl
    exact ⟨change held, present, (alike held).trans shown⟩
  · exact ⟨held, by rw [entry?_modifyEntry, if_neg here, found], shown⟩

theorem closeEntry (opened : cache.Opened id) (apart : id ≠ other) :
    (cache.closeEntry other).Opened id := by
  obtain ⟨held, found, shown⟩ := opened
  exact ⟨held, by rw [entry?_closeEntry, if_neg apart, found], shown⟩

theorem onEntry {α : Type} {operation : Entry → Except EntryError (α × Entry)}
    (opened : cache.Opened id)
    (stays : ∀ entry result next, operation entry = .ok (result, next) → next.isOpen = true) :
    (cache.onEntry other operation).2.Opened id := by
  unfold Cache.onEntry
  split
  · exact opened
  · split
    · exact opened
    · rename_i done
      exact opened.setEntry fun _ => stays _ _ _ done

theorem append {made : Entry} (opened : cache.Opened id)
    (extended : after.entries = cache.entries ++ [made]) : after.Opened id := by
  obtain ⟨entry, found, shown⟩ := opened
  refine ⟨entry, ?_, shown⟩
  rw [entry?_append cache extended, if_neg (Nat.ne_of_lt (lt_length_of_found found)), found]

theorem allocate {size : Nat} {modified : Modified} (opened : cache.Opened id) :
    (cache.allocate path size modified).2.Opened id := by
  unfold Cache.allocate
  split
  · split
    · exact opened
    · exact opened.append rfl
  · exact opened

/-! ### Opening and closing by handle -/

theorem release (opened : cache.Opened id) : (cache.release other).Opened id := by
  refine Opened.of_sameStore ?_ (sameStore_release cache other)
  unfold releaseEntryHandle
  split
  · rename_i left given released
    refine opened.setEntry fun here => ?_
    obtain ⟨entry, found, shown⟩ := opened
    rw [← here, found, Option.bind_some] at released
    obtain ⟨-, rfl⟩ := Entry.releaseHandle?_some released
    exact shown
  · exact opened.of_lookup rfl

theorem acquired {size : Nat} {modified : Modified} (opened : cache.Opened id)
    (acquired : cache.acquire path size modified = (.ok other, after)) : after.Opened id := by
  rcases acquire_ok acquired with ⟨-, rfl⟩ | ⟨-, made, -, rfl, rfl⟩
  · exact opened.modifyEntry fun _ => rfl
  · exact opened.append rfl

theorem openFile (opened : cache.Opened id) (path : Path) (flags : OpenFlags) (size : Nat)
    (modified : Modified) : (cache.openFile path flags size modified).2.Opened id := by
  have opens := opens_openFile cache path flags size modified
  have prepared := opened.of_sameStore (sameStore_prepared cache path flags)
  generalize (if flags.isWritable then (cache.cancel path).2 else cache) = base at opens prepared
  generalize (cache.openFile path flags size modified).2 = after at opens
  cases opens with
  | unmade unmapped => exact prepared
  | opened acquired keeps => exact (prepared.acquired acquired).of_lookup rfl
  | emptied acquired wipes found done =>
      refine ((prepared.acquired acquired).setEntry fun _ => ?_).of_lookup rfl
      obtain ⟨_, -, -, rfl⟩ := Entry.truncate_ok done
      rfl
  | refused acquired wipes closed => exact (prepared.acquired acquired).release

theorem closeHandle (opened : cache.Opened id) (handle : Handle) :
    (cache.closeHandle handle).Opened id := by
  unfold Cache.closeHandle
  split
  · exact opened.of_lookup rfl
  · exact Opened.release (opened.of_lookup rfl)

/-! ### Taking off the map -/

/-- What was mapped at a place may be closed once it is unmapped there. -/
theorem unmapped (opened : cache.Opened id) (sole : cache.mapped.OneToOne)
    (mapped : cache.mapped.get? path = some other)
    (kept : (Cache.closeEntry { cache with mapped := cache.mapped.erase path } other).Maps id) :
    (Cache.closeEntry { cache with mapped := cache.mapped.erase path } other).Opened id := by
  refine Opened.closeEntry (opened.of_lookup rfl) ?_
  rintro rfl
  obtain ⟨place, found⟩ := kept
  rw [(SameTables.closeEntry _ _).mapped] at found
  exact sole.get?_erase_ne mapped found

theorem relocate (opened : cache.Opened id) (sole : cache.mapped.OneToOne)
    (apart : ¬ source.Same destination) (mapped : cache.mapped.get? source = some other)
    (kept : (cache.relocate source destination other).Maps id) :
    (cache.relocate source destination other).Opened id := by
  have moved : Opened ({ cache with
      mapped := (cache.mapped.erase source).set destination other
      }.modifyEntry other fun entry => { entry with path := destination }) id :=
    Opened.modifyEntry (opened.of_lookup rfl) fun _ => rfl
  obtain ⟨place, found⟩ := kept
  have before := mapped_before_relocate found
  unfold Cache.relocate
  simp only
  split
  · rename_i displaced taken
    refine moved.closeEntry ?_
    rintro rfl
    rcases before with ⟨-, rfl⟩ | ⟨elsewhere, -, held⟩
    · exact apart (sole.same mapped taken)
    · exact elsewhere (sole.same taken held)
  · exact moved

theorem moveFile (opened : cache.Opened id) (sole : cache.mapped.OneToOne)
    (kept : (cache.moveFile source destination).2.Maps id) :
    (cache.moveFile source destination).2.Opened id := by
  have moves := moves_moveFile cache source destination
  have store := ((SameStore.refl cache).cancel source).cancel destination
  have cancelled := opened.of_sameStore store
  have sole' := store.mapped ▸ sole
  generalize ((cache.cancel source).2.cancel destination).2 = base at moves cancelled sole'
  generalize (cache.moveFile source destination).2 = after at moves kept
  cases moves with
  | same same => exact opened
  | absent apart nowhere free => exact cancelled
  | discarded apart nowhere taken => exact cancelled.unmapped sole' taken kept
  | moved apart mapped idle => exact cancelled.relocate sole' apart mapped kept
  | @rescheduled other apart mapped hit =>
      have same := SameStore.refl (base.relocate source destination other)
      have kept' := maps_congr (same.schedule other _).mapped kept
      exact (cancelled.relocate sole' apart mapped kept').of_sameStore (same.schedule other _)

theorem delete (opened : cache.Opened id) (sole : cache.mapped.OneToOne)
    (kept : (cache.delete path).Maps id) : (cache.delete path).Opened id := by
  have store := (SameStore.refl cache).cancel path
  unfold Cache.delete at kept ⊢
  simp only at kept ⊢
  split
  · exact opened.of_sameStore store
  · rename_i gone mapped
    rw [mapped] at kept
    exact (opened.of_sameStore store).unmapped (store.mapped ▸ sole) mapped kept

theorem foldl_discard (doomed : PathMap EntryId) (opened : cache.Opened id)
    (spared : ∀ item ∈ doomed, id ≠ item.2) :
    (doomed.foldl (fun cache (key, id) => (cache.cancel key).2.closeEntry id) cache).Opened id := by
  induction doomed generalizing cache with
  | nil => exact opened
  | cons item doomed ih =>
      have cancelled := opened.of_sameStore ((SameStore.refl cache).cancel item.1)
      exact ih (cancelled.closeEntry (spared item (.head _)))
        fun other later => spared other (.tail _ later)

theorem deleteTree {tree : Path} (opened : cache.Opened id) (sole : cache.mapped.OneToOne)
    (kept : (cache.deleteTree tree).Maps id) : (cache.deleteTree tree).Opened id := by
  obtain ⟨place, found⟩ := kept
  rw [deleteTree_eq] at found ⊢
  rw [mapped_foldl_discard, PathMap.get?_filter_not_within] at found
  refine foldl_discard _ (opened.of_lookup rfl) fun item member => ?_
  rintro rfl
  obtain ⟨known, within⟩ := List.mem_filter.mp member
  split at found
  · cases found
  · rename_i outside
    have mapped := sole.distinct.get?_of_mem known (.refl item.1)
    have inside := of_decide_eq_true within
    rw [Path.Within, sole.same mapped found] at inside
    exact outside inside

theorem evictIfIdle {epoch : Nat} (opened : cache.Opened id) (sole : cache.mapped.OneToOne)
    (kept : (cache.evictIfIdle other epoch).Maps id) :
    (cache.evictIfIdle other epoch).Opened id := by
  unfold Cache.evictIfIdle at kept ⊢
  split
  · exact opened
  · rename_i entry found
    simp only [found] at kept
    split
    · rename_i idle
      rw [if_pos idle] at kept
      exact opened.unmapped sole idle.1 kept
    · exact opened

/-! ### Whole steps -/

theorem advance {task : TaskId} (opened : cache.Opened id) (sole : cache.mapped.OneToOne)
    (kept : (cache.advance task).Maps id) : (cache.advance task).Opened id := by
  have same := SameStore.refl cache
  unfold Cache.advance at kept ⊢
  cases held : cache.task? task with
  | none => exact opened
  | some item =>
      obtain ⟨work, aborted⟩ := item
      simp only [held] at kept ⊢
      split
      · exact opened.of_sameStore (same.reap task)
      · rename_i going
        rw [if_neg going] at kept
        cases work with
        | transfer job => exact opened.of_sameStore (same.advanceTransfer task job)
        | upload job => exact opened.of_sameStore (same.advanceUpload task job)
        | grace entry epoch due =>
            simp only at kept ⊢
            split
            · rename_i ripe
              rw [if_pos ripe] at kept
              exact (opened.of_sameStore (same.dropTask task)).evictIfIdle sole kept
            · exact opened

theorem act (opened : cache.Opened id) (sole : cache.mapped.OneToOne) (action : Action)
    (kept : (cache.act action).Maps id) : (cache.act action).Opened id := by
  have same := SameStore.refl cache
  cases action with
  | advance task =>
      exact opened.advance sole kept
  | request task i => exact opened.of_sameStore (same.request task i)
  | deliver task i reply =>
      simp only [Cache.act, deliver]
      split
      · exact opened
      · split
        · exact opened
        · rename_i entry found
          split
          · exact opened
          · refine Opened.of_sameStore (opened.setEntry fun here => ?_)
              ((SameStore.refl _).setWork task _)
            obtain ⟨held, present, shown⟩ := opened
            rw [here, found] at present
            cases present
            exact Load.isOpen_receive shown
  | settle task result =>
      simp only [Cache.act, settle]
      split
      · rename_i job held
        split
        · rename_i version snapshot call stage
          split
          · exact opened.of_sameStore (same.failUpload _ _ _)
          · have told : (cache.emit
                (.written job.entry job.path (snapshot.chunks copyStep))).Opened id :=
              opened.of_lookup rfl
            have marked : (Cache.modifyEntry _ job.entry
                fun entry => entry.markClean version).Opened id :=
              told.modifyEntry fun _ => rfl
            exact marked.of_sameStore
              (((SameStore.refl _).log .info "upload finished" none).endUpload task job)
        · exact opened
      · exact opened
  | tick milliseconds => exact opened.of_lookup rfl

/-- What stays mapped stays open unless somebody else closes it. -/
theorem step (opened : cache.Opened id) (sole : cache.mapped.OneToOne) {step : Step}
    (spared : step ≠ .closeEntry id) (kept : (cache.step step).Maps id) :
    (cache.step step).Opened id := by
  cases step with
  | create path size modified => exact opened.allocate
  | write target offset data =>
      refine opened.onEntry fun entry result next done => ?_
      obtain ⟨_, -, -, rfl⟩ := Entry.write_ok done
      rfl
  | truncate target size =>
      refine opened.onEntry fun entry result next done => ?_
      obtain ⟨_, -, -, rfl⟩ := Entry.truncate_ok (Entry.truncate_of_map done)
      rfl
  | closeEntry target =>
      refine opened.closeEntry ?_
      rintro rfl
      exact spared rfl
  | rename target path => exact opened.modifyEntry fun _ => rfl
  | openFile path flags size modified => exact opened.openFile path flags size modified
  | closeHandle handle => exact opened.closeHandle handle
  | moveFile source destination => exact opened.moveFile sole kept
  | delete path => exact opened.delete sole kept
  | deleteTree tree => exact opened.deleteTree sole kept
  | act action => exact opened.act sole action kept
  | loseScratch => exact opened.of_lookup rfl
  | _ => exact opened.of_sameStore (sameStore_step cache rfl)

end Opened

theorem Born.isOpen {step : Step} (born : Born cache step entry) : entry.isOpen = true := by
  cases born with
  | created fits => rw [Entry.isOpen, content_of_create fits]; rfl
  | opened unmapped keeps fits => exact congrArg Option.isSome (content_of_create fits)
  | emptied unmapped wipes fits done =>
      obtain ⟨_, -, -, rfl⟩ := Entry.truncate_ok done
      rfl

end Cache

end SparseCache
