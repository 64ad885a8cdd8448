import SparseCache.Proofs.Cache.Acts

namespace SparseCache

/-! The calls that a step makes on the uploader.

A call from outside, whatever else it does, cancels uploads and then schedules one or none.  The
record of events tells which, and what was on record for a path afterwards can be read off it.
-/

/-- The call takes the upload of that path off the record. -/
def Event.Withdraws (path : Path) : Event → Prop
  | .scheduled _ other => other.Same path
  | .cancelled other _ => other.Same path
  | _ => False

namespace Cache

variable {cache before middle after : Cache} {calls : List Event} {id : EntryId} {entry : Entry}
  {path source destination tree : Path} {task : TaskId} {completion : Completion} {step : Step}

/-- Uploads were cancelled by `calls`, and otherwise they are as they were. -/
structure Cancels (before : Cache) (calls : List Event) (after : Cache) : Prop where
  sound : after.Sound
  enrolled : before.Enrolled → after.Enrolled
  next : after.nextTask = before.nextTask
  record : after.record = before.record ++ calls
  only : ∀ event ∈ calls, ∃ path hit, event = .cancelled path hit
  pending : ∀ {path task}, after.pending.get? path = some task ↔
    before.pending.get? path = some task ∧ ∀ event ∈ calls, ¬ event.Withdraws path

/-- Uploads were cancelled and scheduled by `calls`, and otherwise they are as they were. -/
structure Calls (before : Cache) (calls : List Event) (after : Cache) : Prop where
  enrolled : before.Enrolled → after.Enrolled
  later : before.nextTask ≤ after.nextTask
  record : after.record = before.record ++ calls
  only : ∀ event ∈ calls, (∃ path hit, event = .cancelled path hit) ∨
    ∃ id path, event = .scheduled id path
  pending : ∀ {path task}, after.pending.get? path = some task ↔
    (task = before.nextTask ∧ ∃ id place, .scheduled id place ∈ calls ∧ place.Same path) ∨
      (before.pending.get? path = some task ∧ ∀ event ∈ calls, ¬ event.Withdraws path)
  begun : ∀ {id place}, .scheduled id place ∈ calls → ∃ completion,
    after.upload? before.nextTask = some { entry := id, path := place, completion }

namespace Cancels

theorem refl (sound : cache.Sound) : Cancels cache [] cache :=
  ⟨sound, id, rfl, (List.append_nil _).symm, nofun, by simp⟩

theorem quiet (cancels : Cancels before calls middle) (same : SameWork middle after)
    (silent : after.record = middle.record) : Cancels before calls after where
  sound := same.sound cancels.sound
  enrolled enrolled := (cancels.enrolled enrolled).congr same.pending fun _ =>
    upload?_congr same.doing?
  next := same.nextTask.trans cancels.next
  record := silent.trans cancels.record
  only := cancels.only
  pending := by
    rw [same.pending]
    exact cancels.pending

theorem closeEntry (cancels : Cancels before calls middle) (id : EntryId) :
    Cancels before calls (middle.closeEntry id) :=
  cancels.quiet ((SameWork.refl middle).closeEntry id) record_closeEntry

theorem setMapped (cancels : Cancels before calls middle) (mapped : PathMap EntryId) :
    Cancels before calls { middle with mapped } :=
  cancels.quiet ((SameWork.refl middle).setMapped mapped) rfl

theorem setEntry (cancels : Cancels before calls middle) (id : EntryId) (entry : Entry) :
    Cancels before calls (middle.setEntry id entry) :=
  cancels.quiet ((SameWork.refl middle).setEntry id entry) rfl

theorem setHandles (cancels : Cancels before calls middle) (handles : List (Handle × EntryId))
    (counter : HandleCounter) : Cancels before calls { middle with handles, counter } :=
  cancels.quiet ((SameWork.refl middle).setHandles handles counter) rfl

theorem cancel (cancels : Cancels before calls middle) (path : Path) :
    Cancels before (calls ++ [.cancelled path (middle.cancel path).1]) (middle.cancel path).2 where
  sound := (Wanes.cancel cancels.sound path).sound
  enrolled enrolled := (cancels.enrolled enrolled).cancel cancels.sound
  next := nextTask_cancel.trans cancels.next
  record := by rw [record_cancel, cancels.record, List.append_assoc]
  only event called := by
    rcases List.mem_append.mp called with old | new
    · exact cancels.only event old
    · exact ⟨path, _, List.mem_singleton.mp new⟩
  pending {other task} := by
    rw [pending_cancel cancels.sound.backed, PathMap.get?_erase_eq_some_iff, cancels.pending]
    constructor
    · rintro ⟨apart, registered, spared⟩
      refine ⟨registered, fun event called => ?_⟩
      rcases List.mem_append.mp called with old | new
      · exact spared event old
      · cases List.mem_singleton.mp new
        exact apart
    · rintro ⟨registered, spared⟩
      exact ⟨spared _ (List.mem_append_right _ (.head _)), registered,
        fun event called => spared event (List.mem_append_left _ called)⟩

theorem foldl_discard (doomed : PathMap EntryId) (cancels : Cancels before calls cache) :
    ∃ calls, Cancels before calls
      (doomed.foldl (fun cache (key, id) => (cache.cancel key).2.closeEntry id) cache) := by
  induction doomed generalizing cache calls with
  | nil => exact ⟨calls, cancels⟩
  | cons item doomed ih => exact ih ((cancels.cancel item.1).closeEntry item.2)

theorem toCalls (cancels : Cancels before calls after) : Calls before calls after where
  enrolled := cancels.enrolled
  later := Nat.le_of_eq cancels.next.symm
  record := cancels.record
  only event called := .inl (cancels.only event called)
  pending := by
    refine cancels.pending.trans ⟨.inr, fun either => either.resolve_left ?_⟩
    rintro ⟨-, id, place, called, -⟩
    obtain ⟨_, _, other⟩ := cancels.only _ called
    cases other
  begun called := by
    obtain ⟨_, _, other⟩ := cancels.only _ called
    cases other

/-- The upload that is scheduled last is on record for its path; all others stay but the one
that it supersedes. -/
theorem schedule (cancels : Cancels before calls middle) (id : EntryId)
    (completion : Completion) :
    Calls before (calls ++ [.scheduled id (middle.pathOf id)]) (middle.schedule id completion) where
  enrolled enrolled := (cancels.enrolled enrolled).schedule cancels.sound
  later := by
    rw [nextTask_schedule cancels.sound.backed, cancels.next]
    exact Nat.le_succ _
  record := by rw [record_schedule, cancels.record, List.append_assoc]
  only event called := by
    rcases List.mem_append.mp called with old | new
    · exact .inl (cancels.only event old)
    · exact .inr ⟨id, _, List.mem_singleton.mp new⟩
  pending {path task} := by
    have last : ∀ {other place}, .scheduled other place ∈
        calls ++ [.scheduled id (middle.pathOf id)] → place = middle.pathOf id := by
      intro other place called
      rcases List.mem_append.mp called with old | new
      · obtain ⟨_, _, cancelled⟩ := cancels.only _ old
        cases cancelled
      · cases List.mem_singleton.mp new
        rfl
    have called : .scheduled id (middle.pathOf id) ∈ calls ++ [.scheduled id (middle.pathOf id)] :=
      List.mem_append_right _ (.head _)
    rw [pending_schedule cancels.sound.backed, PathMap.get?_set, cancels.next]
    constructor
    · intro registered
      split at registered
      · rename_i here
        cases registered
        exact .inl ⟨rfl, id, _, called, here⟩
      · rename_i apart
        obtain ⟨old, spared⟩ := cancels.pending.mp registered
        refine .inr ⟨old, fun event called => ?_⟩
        rcases List.mem_append.mp called with earlier | new
        · exact spared event earlier
        · cases List.mem_singleton.mp new
          exact apart
    · rintro (⟨rfl, other, place, called, here⟩ | ⟨old, spared⟩)
      · rw [if_pos (last called ▸ here)]
      · have apart : ¬ (middle.pathOf id).Same path := spared _ called
        rw [if_neg apart]
        exact cancels.pending.mpr
          ⟨old, fun event called => spared event (List.mem_append_left _ called)⟩
  begun {other place} called := by
    rcases List.mem_append.mp called with old | new
    · obtain ⟨_, _, cancelled⟩ := cancels.only _ old
      cases cancelled
    · cases List.mem_singleton.mp new
      exact ⟨completion, by rw [upload?_schedule cancels.sound, if_pos cancels.next.symm]⟩

theorem release (cancels : Cancels before calls middle) (found : middle.entry? id = some entry)
    (held : 0 < entry.handles) : ∃ calls, Calls before calls (middle.release id) := by
  have given := cancels.quiet ((SameWork.refl middle).releaseEntryHandle id)
    (record_releaseEntryHandle found held)
  unfold Cache.release
  split
  · simp only
    split
    · exact ⟨_, given.schedule id _⟩
    · exact ⟨_, given.toCalls⟩
  · exact ⟨_, given.toCalls⟩

theorem relocate (cancels : Cancels before calls middle) (source destination : Path)
    (id : EntryId) : Cancels before calls (middle.relocate source destination id) :=
  cancels.quiet ((SameWork.refl middle).relocate source destination id) record_relocate

end Cancels

/-! ### Calls by path and handle -/

theorem calls_openFile (sound : cache.Sound) (rooted : cache.Rooted) (path : Path)
    (flags : OpenFlags) (size : Nat) (modified : Modified) :
    ∃ calls, Calls cache calls (cache.openFile path flags size modified).2 := by
  have opens := opens_openFile cache path flags size modified
  have same := sameStore_prepared cache path flags
  have prepared : ∃ calls, Cancels cache calls
      (if flags.isWritable then (cache.cancel path).2 else cache) := by
    split
    · exact ⟨_, (Cancels.refl sound).cancel path⟩
    · exact ⟨_, .refl sound⟩
  generalize (if flags.isWritable then (cache.cancel path).2 else cache) = base
    at opens same prepared
  generalize (cache.openFile path flags size modified).2 = after at opens
  obtain ⟨calls, cancels⟩ := prepared
  cases opens with
  | unmade unmapped => exact ⟨calls, cancels.toCalls⟩
  | opened acquired keeps =>
      have held := cancels.quiet (sameWork_acquired acquired) (record_acquired acquired)
      exact ⟨calls, (held.setHandles _ _).toCalls⟩
  | emptied acquired wipes found done =>
      have held := cancels.quiet (sameWork_acquired acquired) (record_acquired acquired)
      exact ⟨calls, ((held.setEntry _ _).setHandles _ _).toCalls⟩
  | refused acquired wipes closed =>
      obtain ⟨mapped, -⟩ := acquired_closed acquired closed
      obtain ⟨entry, found⟩ := Option.isSome_iff_exists.mp
        (rooted.referred (.inr ⟨path, same.mapped ▸ mapped⟩))
      have reopened := (acquired_known acquired (same.lookup.trans found)).2
      exact (cancels.quiet (sameWork_acquired acquired) (record_acquired acquired)).release reopened
        (Nat.succ_pos entry.handles)

theorem calls_closeHandle (sound : cache.Sound) (counted : cache.Counted) (handle : Handle) :
    ∃ calls, Calls cache calls (cache.closeHandle handle) := by
  unfold closeHandle
  split
  · exact ⟨[], ((Cancels.refl sound).quiet ((SameWork.refl cache).emit _)
      (record_emit_quiet (by simp [Event.loud]))).toCalls⟩
  · rename_i id held
    have some_held := counted.holds_iff.mp ⟨handle, held⟩
    cases found : cache.entry? id with
    | none =>
        rw [(counted.unborn found).1] at some_held
        cases some_held
    | some entry =>
        have used := (counted.holds_iff_handles found).mp ⟨handle, held⟩
        exact ((Cancels.refl sound).setHandles _ _).release found used

theorem calls_moveFile (sound : cache.Sound) (source destination : Path) :
    ∃ calls, Calls cache calls (cache.moveFile source destination).2 := by
  have moves := moves_moveFile cache source destination
  have cancels := ((Cancels.refl sound).cancel source).cancel destination
  generalize ((cache.cancel source).2.cancel destination).2 = base at moves cancels
  generalize (cache.moveFile source destination).2 = after at moves
  cases moves with
  | same same => exact ⟨[], (Cancels.refl sound).toCalls⟩
  | absent apart nowhere free => exact ⟨_, cancels.toCalls⟩
  | discarded apart nowhere taken =>
      exact ⟨_, ((cancels.setMapped _).closeEntry _).toCalls⟩
  | moved apart mapped idle => exact ⟨_, (cancels.relocate source destination _).toCalls⟩
  | rescheduled apart mapped hit =>
      exact ⟨_, (cancels.relocate source destination _).schedule _ _⟩

theorem calls_delete (sound : cache.Sound) (path : Path) :
    ∃ calls, Calls cache calls (cache.delete path) := by
  have cancels := (Cancels.refl sound).cancel path
  unfold delete
  simp only
  split
  · exact ⟨_, cancels.toCalls⟩
  · exact ⟨_, ((cancels.setMapped _).closeEntry _).toCalls⟩

theorem calls_deleteTree (sound : cache.Sound) (tree : Path) :
    ∃ calls, Calls cache calls (cache.deleteTree tree) := by
  rw [deleteTree_eq]
  obtain ⟨calls, cancels⟩ := ((Cancels.refl sound).setMapped _).foldl_discard _
  exact ⟨calls, cancels.toCalls⟩

/-! ### Steps from outside -/

theorem record_plain (plain : step.plain = true) : (cache.step step).record = cache.record := by
  cases step with
  | create path size modified => exact record_allocate
  | transfer entry offset count reading =>
      simp only [Cache.step]
      split
      · exact record_spawn
      · rfl
  | giveUp task =>
      simp only [Cache.step]
      split
      · exact record_abort
      · rfl
  | write entry offset data => exact record_onEntry
  | truncate entry size => exact record_onEntry
  | closeEntry entry => exact record_closeEntry
  | loseScratch => rfl
  | _ => cases plain

theorem Calls.of_steady (steady : Steady before after) (silent : after.record = before.record) :
    Calls before [] after where
  enrolled enrolled := enrolled.congr steady.pending steady.uploads
  later := steady.later
  record := silent.trans (List.append_nil _).symm
  only := nofun
  pending := by simp [steady.pending]
  begun := nofun

/-- Whoever looks for other events sees nothing of the calls. -/
theorem Calls.filter_eq_nil (made : Calls before calls after) {keep : Event → Bool}
    (cancelled : ∀ path hit, keep (.cancelled path hit) = false)
    (scheduled : ∀ id path, keep (.scheduled id path) = false) : calls.filter keep = [] := by
  refine List.filter_eq_nil_iff.mpr fun event called => ?_
  rcases made.only event called with ⟨path, hit, rfl⟩ | ⟨id, path, rfl⟩
  · rw [cancelled]
    exact Bool.false_ne_true
  · rw [scheduled]
    exact Bool.false_ne_true

/-- Background work, or the end of the uploader: no call that is told of. -/
def Step.inward : Step → Bool
  | .act _ | .dropUploader => true
  | _ => false

theorem calls_step (sound : cache.Sound) (counted : cache.Counted) (rooted : cache.Rooted)
    (outward : step.inward = false) : ∃ calls, Calls cache calls (cache.step step) := by
  by_cases plain : step.plain = true
  · exact ⟨[], .of_steady (.step sound plain) (record_plain plain)⟩
  cases step with
  | rename id path =>
      exact ⟨[], ((Cancels.refl sound).quiet ((SameWork.refl cache).modifyEntry id _) rfl).toCalls⟩
  | schedule id tag =>
      simp only [Cache.step]
      split
      · exact ⟨_, (Cancels.refl sound).schedule id _⟩
      · exact ⟨[], (Cancels.refl sound).toCalls⟩
  | cancel path => exact ⟨_, ((Cancels.refl sound).cancel path).toCalls⟩
  | openFile path flags size modified => exact calls_openFile sound rooted path flags size modified
  | closeHandle handle => exact calls_closeHandle sound counted handle
  | moveFile source destination => exact calls_moveFile sound source destination
  | delete path => exact calls_delete sound path
  | deleteTree tree => exact calls_deleteTree sound tree
  | act action => cases outward
  | dropUploader => cases outward
  | _ => exact absurd rfl plain

end Cache

end SparseCache
