import SparseCache.Proofs.Cache.Calls

namespace SparseCache

/-! What a step adds to the record of events, as far as it tells of a file that was
stored or of a handle that was given back once too often.
-/

/-- The event tells of a write that took effect, or of a handle given back in error. -/
def Event.notable : Event → Bool
  | .written .. => true
  | .logged _ message _ => message == "released a handle of an entry with no open handles"
  | _ => false

namespace Cache

variable {cache before after : Cache} {calls : List Event} {id : EntryId} {task : TaskId}
  {job : Upload} {completion : Completion} {step : Step}

def notes (cache : Cache) : List Event := cache.events.filter Event.notable

/-- What is notable is on record. -/
theorem notes_eq_record (cache : Cache) : cache.notes = cache.record.filter Event.notable :=
  (filter_record fun event => by cases event <;> simp [Event.loud, Event.notable]).symm

theorem notes_of_record {more : List Event} (told : after.record = before.record ++ more) :
    after.notes = before.notes ++ more.filter Event.notable := by
  rw [notes_eq_record, told, List.filter_append, ← notes_eq_record]

theorem notes_congr (silent : after.record = before.record) : after.notes = before.notes := by
  rw [notes_eq_record, silent, ← notes_eq_record]

/-- Calls on the uploader are nothing notable. -/
theorem Calls.notes (made : Calls before calls after) : after.notes = before.notes := by
  rw [notes_of_record made.record, made.filter_eq_nil (fun _ _ => rfl) (fun _ _ => rfl),
    List.append_nil]

theorem notes_endUpload : (cache.endUpload task job).notes = cache.notes := by
  have quiet : (cache.tells job.entry job.completion).filter Event.notable = [] := by
    cases job.completion <;> rfl
  rw [notes_of_record record_endUpload]
  split
  · rw [quiet, List.append_nil]
  · exact List.append_nil _

/-- Storing a snapshot is told of. -/
theorem Stores.notes {version : Nat} {snapshot : Bytes}
    (stores : cache.Stores step task job version snapshot) :
    (cache.step step).notes
      = cache.notes ++ [.written job.entry job.path (snapshot.chunks copyStep)] := by
  obtain ⟨rfl, live, call, stage⟩ := stores
  simp only [Cache.step, act, settle, live?_eq_some_iff.mp live, stage]
  have marked : ∀ event change,
      ((cache.emit event).modifyEntry job.entry change).notes = (cache.emit event).notes :=
    fun _ _ => rfl
  refine notes_endUpload.trans ((notes_congr (record_emit_quiet (by simp [Event.loud]))).trans ?_)
  rw [marked, notes_of_record (record_emit rfl)]
  rfl

/-- A step tells of a stored snapshot or of nothing notable at all. -/
theorem notes_step (sound : cache.Sound) (counted : cache.Counted) (rooted : cache.Rooted)
    (step : Step) :
    (cache.step step).notes = cache.notes ∨
      ∃ task job version snapshot, cache.Stores step task job version snapshot := by
  by_cases outward : step.inward = false
  · obtain ⟨calls, made⟩ := calls_step sound counted rooted outward
    exact .inl made.notes
  cases step with
  | dropUploader => exact .inl (notes_congr record_abandonUploads)
  | act action =>
      have acts := acts_act sound action
      simp only [Cache.step]
      generalize cache.act action = after at acts
      cases acts with
      | steady steady silent => exact .inl (notes_congr silent)
      | expired timer => exact .inl (notes_congr record_evictIfIdle)
      | @ended base upload job steady still working ends told =>
          rcases told with silent | ⟨version, snapshot, stores, -⟩
          · exact .inl (notes_endUpload.trans (notes_congr silent))
          · exact .inr ⟨upload, job, version, snapshot, stores⟩
  | _ => exact absurd rfl outward

/-- Every notable event of a run tells of a write. -/
theorem written_of_mem_notes {mount : Mount} {steps : Nat → Step} {n : Nat} {event : Event}
    (member : event ∈ (mount.cache.after steps n).notes) :
    ∃ id path chunks, event = .written id path chunks := by
  induction n with
  | zero => cases member
  | succ n ih =>
      rw [after_succ] at member
      rcases notes_step (sound_after mount steps n) (counted_after mount steps n)
        (rooted_after mount steps n) (steps n) with same | ⟨task, job, version, snapshot, stores⟩
      · exact ih (same ▸ member)
      · rw [stores.notes] at member
        rcases List.mem_append.mp member with old | new
        · exact ih old
        · exact ⟨_, _, _, List.mem_singleton.mp new⟩

end Cache

end SparseCache
