import Mathlib.Data.List.GetD
import SparseCache.Proofs.Cache.Respelling

namespace SparseCache

/-! Two runs of the same steps, in each of which paths are spelled in a way of its own. -/

/-- The same entry but for how its path is spelled. -/
structure Entry.Respells (entry other : Entry) : Prop where
  path : entry.path.Same other.path
  rest : other = { entry with path := other.path }

theorem Entry.respells_of_canonical {entry other : Entry}
    (same : entry.canonical = other.canonical) : entry.Respells other where
  path := Path.canonical_eq_iff.mp (congrArg Entry.path same)
  rest := by
    have rest := congrArg (fun entry : Entry => { entry with path := other.path }) same
    exact rest.symm

namespace Cache

variable {left right start : Cache} {steps steps' : Nat → Step} {path path' : Path}

/-- The step with its paths in one spelling, those that the remote store answers with included. -/
def Step.canonical : Step → Step
  | .create path size modified => .create path.canonical size modified
  | .rename entry path => .rename entry path.canonical
  | .cancel path => .cancel path.canonical
  | .openFile path flags size modified => .openFile path.canonical flags size modified
  | .moveFile source destination => .moveFile source.canonical destination.canonical
  | .delete path => .delete path.canonical
  | .deleteTree path => .deleteTree path.canonical
  | .act action => .act action.canonical
  | step => step

/-! ### One step -/

/-- What a step gives back to whoever takes it. -/
inductive Returned
  | nothing
  | hit (hit : Bool)
  | started (task : TaskId)
  | created (result : Except EntryError EntryId)
  | written (result : Except EntryError Nat)
  | truncated (result : Except EntryError Unit)
  | opened (result : Except EntryError Handle)
  /-- A move that is refused is a failed assertion. -/
  | moved (result : Except MoveError Unit)

/-- A refused move shows the paths as it was given them. -/
def Returned.canonical : Returned → Returned
  | .moved result => .moved (result.mapError MoveError.canonical)
  | returned => returned

def returned (cache : Cache) : Step → Returned
  | .create path size modified => .created (cache.allocate path size modified).1
  | .transfer entry .. => if (cache.entry? entry).isSome then .started cache.nextTask else .nothing
  | .write entry offset data => .written (cache.onEntry entry (·.write offset data)).1
  | .truncate entry size =>
    .truncated (cache.onEntry entry fun entry => (entry.truncate size).map ((), ·)).1
  | .cancel path => .hit (cache.cancel path).1
  | .openFile path flags size modified => .opened (cache.openFile path flags size modified).1
  | .moveFile source destination => .moved (cache.moveFile source destination).1
  | _ => .nothing

theorem step_absorbed (cache : Cache) (step : Step) :
    (cache.step step).canonical = (cache.canonical.step step.canonical).canonical := by
  cases step with
  | create path size modified =>
      simp only [Cache.step, Step.canonical, allocate_canonical, canonical_canonical]
  | transfer entry offset count reading =>
      simp only [Cache.step, Step.canonical, entry?_canonical, Option.isSome_map]
      split
      · exact absorbed (spawn_canonical cache _)
      · exact (canonical_canonical cache).symm
  | giveUp task =>
      simp only [Cache.step, Step.canonical, task?_canonical]
      cases cache.task? task with
      | none => exact (canonical_canonical cache).symm
      | some found =>
          obtain ⟨work, aborted⟩ := found
          cases work with
          | transfer job => exact absorbed (abort_canonical cache)
          | upload | grace => exact (canonical_canonical cache).symm
  | write entry offset data =>
      simp only [Cache.step, Step.canonical, onEntry_write_canonical, canonical_canonical]
  | truncate entry size =>
      simp only [Cache.step, Step.canonical, onEntry_truncate_canonical, canonical_canonical]
  | closeEntry entry => exact absorbed (closeEntry_canonical cache)
  | rename entry path =>
      exact absorbed (modifyEntry_canonical cache entry _
        (fun entry => { entry with path := path.canonical }) fun _ => rfl)
  | schedule entry tag =>
      simp only [Cache.step, Step.canonical, entry?_canonical, Option.isSome_map]
      split
      · exact absorbed (schedule_canonical cache _)
      · exact (canonical_canonical cache).symm
  | cancel path =>
      simp only [Cache.step, Step.canonical, cancel_canonical, canonical_canonical]
  | openFile path flags size modified =>
      simp only [Cache.step, Step.canonical, openFile_canonical, canonical_canonical]
  | closeHandle handle => exact absorbed (closeHandle_canonical cache handle)
  | moveFile source destination =>
      simp only [Cache.step, Step.canonical, moveFile_canonical, canonical_canonical]
  | delete path => exact absorbed (delete_canonical cache path)
  | deleteTree path => exact absorbed (deleteTree_canonical cache path)
  | act action => exact act_absorbed cache action
  | dropUploader => exact absorbed (abandonUploads_canonical cache)
  | loseScratch => exact (canonical_canonical { cache with scratchPresent := false }).symm

theorem returned_canonical (cache : Cache) (step : Step) :
    cache.canonical.returned step.canonical = (cache.returned step).canonical := by
  cases step with
  | create path size modified =>
      simp only [returned, Step.canonical, Returned.canonical, allocate_canonical]
  | transfer entry offset count reading =>
      simp only [returned, Step.canonical, entry?_canonical, Option.isSome_map]
      split <;> rfl
  | write entry offset data =>
      simp only [returned, Step.canonical, Returned.canonical, onEntry_write_canonical]
  | truncate entry size =>
      simp only [returned, Step.canonical, Returned.canonical, onEntry_truncate_canonical]
  | cancel path =>
      simp only [returned, Step.canonical, Returned.canonical, cancel_canonical]
  | openFile path flags size modified =>
      simp only [returned, Step.canonical, Returned.canonical, openFile_canonical]
  | moveFile source destination =>
      simp only [returned, Step.canonical, Returned.canonical, moveFile_canonical]
  | _ => rfl

/-! ### Runs -/

/-- Both have called the remote store, ended transfers, told and logged the same, but for how
paths are spelled. -/
def ShowSame (left right : Cache) : Prop :=
  left.events.map Event.canonical = right.events.map Event.canonical

/-- The states differ in nothing but the spelling of paths. -/
structure Twins (left right : Cache) : Prop where
  shown : ShowSame left right
  handles : left.handles = right.handles
  cached : List.length left.mapped = List.length right.mapped
  pendingCount : left.pendingCount = right.pendingCount
  mapped {path path' : Path} (spelled : path.Same path') :
    left.mapped.get? path = right.mapped.get? path'
  isCached {path path' : Path} (spelled : path.Same path') :
    left.isCached path = right.isCached path'
  isPending {path path' : Path} (spelled : path.Same path') :
    left.isPending path = right.isPending path'
  metadata {path path' : Path} (spelled : path.Same path') :
    (left.cachedMetadata path).map Metadata.canonical
      = (right.cachedMetadata path').map Metadata.canonical
  made : left.entries.length = right.entries.length
  entries {id : EntryId} {entry : Entry} (found : left.entry? id = some entry) :
    ∃ other, right.entry? id = some other ∧ entry.Respells other

/-- The canonical state tells all that the state shows. -/
theorem twins_of_canonical (same : left.canonical = right.canonical) : Twins left right where
  shown := congrArg Cache.events same
  handles := by
    have handles := congrArg Cache.handles same
    exact handles
  cached := by
    have lengths := congrArg (fun cache => List.length cache.mapped) same
    exact PathMap.length_canonical.symm.trans (lengths.trans PathMap.length_canonical)
  pendingCount := by rw [← pendingCount_canonical left, same, pendingCount_canonical]
  mapped {path path'} spelled :=
    calc left.mapped.get? path
      _ = left.canonical.mapped.get? path.canonical := PathMap.get?_canonical.symm
      _ = right.canonical.mapped.get? path'.canonical := by rw [same, Path.canonical_congr spelled]
      _ = right.mapped.get? path' := PathMap.get?_canonical
  isCached {path path'} spelled := by
    rw [← isCached_canonical left, same, Path.canonical_congr spelled, isCached_canonical]
  isPending {path path'} spelled := by
    rw [← isPending_canonical left, same, Path.canonical_congr spelled, isPending_canonical]
  metadata {path path'} spelled := by
    rw [← cachedMetadata_canonical left, same, Path.canonical_congr spelled,
      cachedMetadata_canonical]
  made := by simpa [canonical] using congrArg (fun cache => cache.entries.length) same
  entries {id entry} found := by
    have paired : right.canonical.entry? id = (right.entry? id).map Entry.canonical :=
      entry?_canonical right
    rw [← same, entry?_canonical, found] at paired
    obtain ⟨other, present, alike⟩ := Option.map_eq_some_iff.mp paired.symm
    exact ⟨other, present, Entry.respells_of_canonical alike.symm⟩

theorem after_canonical
    (respells : ∀ n, ShowSame (start.after steps n) (start.after steps' n) →
      (steps n).canonical = (steps' n).canonical) (n : Nat) :
    (start.after steps n).canonical = (start.after steps' n).canonical := by
  induction n with
  | zero => rfl
  | succ n ih =>
      rw [after_succ, after_succ, step_absorbed, step_absorbed (start.after steps' n), ih,
        respells n (congrArg Cache.events ih)]

/-- How paths are spelled makes no difference.  Steps that are the same but for that give back
the same and lead to the same states.  The answers of the remote store are part of the steps: all
that is asked of it is that what it answers is the same, but for how paths are spelled, as long as
the calls made to it are. -/
theorem spelling_goes_unnoticed
    (respells : ∀ n, ShowSame (start.after steps n) (start.after steps' n) →
      (steps n).canonical = (steps' n).canonical) (n : Nat) :
    Twins (start.after steps n) (start.after steps' n) ∧
      ((start.after steps n).returned (steps n)).canonical
        = ((start.after steps' n).returned (steps' n)).canonical := by
  have same := after_canonical respells n
  have twins := twins_of_canonical same
  refine ⟨twins, ?_⟩
  rw [← returned_canonical, ← returned_canonical, same, respells n twins.shown]

/-- `a/b` is written, moved to `c` and opened again; then a move to where it is already fails. -/
def spelledShortly : List Step :=
  [.openFile ⟨[97, 47, 98]⟩ .readWrite 4 .now, .write 0 0 [1, 2], .closeHandle 1,
    .moveFile ⟨[97, 47, 98]⟩ ⟨[99]⟩, .openFile ⟨[99]⟩ .readWrite 9 .now,
    .moveFile ⟨[99]⟩ ⟨[99]⟩]

/-- The same with `a//b`, `a/./b/`, `c/.`, `c/` and `c//`. -/
def spelledAtLength : List Step :=
  [.openFile ⟨[97, 47, 47, 98]⟩ .readWrite 4 .now, .write 0 0 [1, 2], .closeHandle 1,
    .moveFile ⟨[97, 47, 46, 47, 98, 47]⟩ ⟨[99, 47, 46]⟩, .openFile ⟨[99, 47]⟩ .readWrite 9 .now,
    .moveFile ⟨[99, 47]⟩ ⟨[99, 47, 47]⟩]

theorem scripted_canonical (script : List Step) (n : Nat) :
    (scripted script n).canonical = scripted (script.map Step.canonical) n :=
  (List.getD_map ..).symm

/-- At the end the file is held once, as `c` in one run and as `c/.` in the other, and both runs
fail. -/
theorem spelledAtLength_unnoticed :
    (∀ n, ShowSame ((mountWith 0).cache.after (scripted spelledShortly) n)
        ((mountWith 0).cache.after (scripted spelledAtLength) n) →
      (scripted spelledShortly n).canonical = (scripted spelledAtLength n).canonical) ∧
    Twins ((mountWith 0).cache.after (scripted spelledShortly) 5)
      ((mountWith 0).cache.after (scripted spelledAtLength) 5) ∧
    ((mountWith 0).cache.after (scripted spelledShortly) 5).pathOf 0 = ⟨[99]⟩ ∧
    ((mountWith 0).cache.after (scripted spelledAtLength) 5).pathOf 0 = ⟨[99, 47, 46]⟩ ∧
    (((mountWith 0).cache.after (scripted spelledAtLength) 5).returned
        (scripted spelledAtLength 5)).canonical
      = .moved (.error (.sameLocation ⟨[99]⟩ ⟨[99]⟩)) := by
  have respells : ∀ n, (scripted spelledShortly n).canonical
      = (scripted spelledAtLength n).canonical := fun n => by
    rw [scripted_canonical, scripted_canonical,
      show spelledShortly.map Step.canonical = spelledAtLength.map Step.canonical from rfl]
  obtain ⟨twins, returned⟩ := spelling_goes_unnoticed (fun n _ => respells n) 5
  exact ⟨fun n _ => respells n, twins, by decide, by decide, returned.symm.trans rfl⟩

end Cache

end SparseCache
