import SparseCache.Proofs.Cache.Commits
import SparseCache.Proofs.Cache.Copying

namespace SparseCache

/-! What a write call is given: the copy of the entry, in chunks.

The upload keeps its copy until the call ends, so that nothing that happens to the entry meanwhile
shows in the chunks.  What happens to it while the copy is taken does show: every chunk is a piece
of the file as it was in one state, but not all of them are of the same.
-/

namespace Cache

variable {start : Cache} {id : EntryId} {path : Path} {task : TaskId} {job : Upload}
  {steps : Nat → Step} {mount : Mount} {version n : Nat} {snapshot : Bytes} {call : CallId}

/-- What took effect for an entry was on its way before. -/
theorem sending_of_written {chunks : List Bytes}
    (written : .written id path chunks ∈ (mount.cache.after steps n).events) :
    ∃ j task job version snapshot call, j < n ∧
      (mount.cache.after steps j).doing? task = some (.upload job) ∧
      job.stage = .sending version snapshot call ∧ job.entry = id ∧ job.path = path ∧
      steps j = .act (.settle task (.ok ())) ∧ chunks = snapshot.chunks copyStep := by
  have noted : .written id path chunks ∈ (mount.cache.after steps n).notes :=
    List.mem_filter.mpr ⟨written, rfl⟩
  clear written
  induction n with
  | zero => cases noted
  | succ n ih =>
      rw [after_succ] at noted
      rcases notes_step (sound_after mount steps n) (counted_after mount steps n)
        (rooted_after mount steps n) (steps n) with same | ⟨task, job, version, snapshot, stores⟩
      · obtain ⟨j, task, job, version, snapshot, call, earlier, rest⟩ := ih (same ▸ noted)
        exact ⟨j, task, job, version, snapshot, call, Nat.lt_succ_of_lt earlier, rest⟩
      · rw [stores.notes] at noted
        rcases List.mem_append.mp noted with old | new
        · obtain ⟨j, task, job, version, snapshot, call, earlier, rest⟩ := ih old
          exact ⟨j, task, job, version, snapshot, call, Nat.lt_succ_of_lt earlier, rest⟩
        · cases List.mem_singleton.mp new
          obtain ⟨call, stage⟩ := stores.stage
          exact ⟨n, task, { job with permit := false }, version, snapshot, call,
            Nat.lt_succ_self n, doing?_of_live stores.live, stage, rfl, rfl, stores.step_eq, rfl⟩

/-- Whatever happens while an upload is on its way, what it sends are chunks of 65536 bytes, but
for the last, and their length is that of the file when the copy began, after everything missing
had come.  Every chunk shows the file as it was in one state between then and the start of the
write call, a later chunk in no earlier state; where the file does not differ in these states the
chunks together are that file.  From then on what is sent stays the same, and what took effect in
the end are these chunks. -/
theorem sends_pieces (mount : Mount) (steps : Nat → Step) (n : Nat) :
    (∀ task job version snapshot call,
      (mount.cache.after steps n).doing? task = some (.upload job) →
      job.stage = .sending version snapshot call →
      Bytes.Chunked 65536 (snapshot.chunks copyStep) ∧
        (snapshot.chunks copyStep).flatten = snapshot ∧
        (∃ load m b k states, k < n ∧
          Copied mount.cache steps task job snapshot load m b k states ∧
          (∀ content, (∀ j, b ≤ j → j < k → ∀ now,
              (mount.cache.after steps j).contentOf? job.entry = some now → now = content) →
            snapshot = content.bytes) ∧
          ∀ j, k < j → j ≤ n → (mount.cache.after steps j).doing? task = some (.upload job)) ∧
        ((mount.cache.after steps (n + 1)).doing? task = some (.upload job) ∨
          (mount.cache.after steps (n + 1)).doing? task = none)) ∧
    ∀ id path chunks, .written id path chunks ∈ (mount.cache.after steps n).events →
      ∃ j task job version snapshot call, j < n ∧
        (mount.cache.after steps j).doing? task = some (.upload job) ∧
        job.stage = .sending version snapshot call ∧ job.entry = id ∧ job.path = path ∧
        steps j = .act (.settle task (.ok ())) ∧ chunks = snapshot.chunks copyStep := by
  refine ⟨fun task job version snapshot call doing stage => ⟨?_, ?_, ?_, ?_⟩,
    fun id path chunks => sending_of_written⟩
  · exact Bytes.chunked_chunks (by decide) snapshot
  · exact Bytes.flatten_chunks (by decide) snapshot
  · obtain ⟨load, m, b, k, states, earlier, copied, since⟩ := copied_of_sending doing stage
    exact ⟨load, m, b, k, states, earlier, copied, fun content => copied.undisturbed, since⟩
  · exact sending_kept (sound_after mount steps n) doing stage (steps n)

/-- A file of which one byte is missing is stored.  Once its copy has begun the file is written
and closed, and what was asked of it after that is refused. -/
def meddled : List Step :=
  [.openFile ⟨[47, 97]⟩ .readWrite 3 .now, .write 0 0 [1, 2], .closeHandle 1, .act (.advance 0),
    .act (.request 0 0), .act (.deliver 0 0 .accepted), .act (.deliver 0 0 (.chunk [3])),
    .act (.advance 0), .act (.advance 0), .write 0 0 [9], .closeEntry 0, .truncate 0 1,
    .act (.advance 0), .act (.advance 0), .act (.settle 0 (.ok ()))]

theorem meddled_sends_pieces :
    (∃ load m b k states, k < 14 ∧ Copied (mountWith 0).cache (scripted meddled) 0
        ⟨0, ⟨[47, 97]⟩, .evict 1, false, .sending 1 [9, 2, 3] 1⟩ [9, 2, 3] load m b k states) ∧
      ((mountWith 0).cache.after (scripted meddled) 11).contentOf? 0 = none ∧
      ∃ j task job version call, j < 15 ∧
        ((mountWith 0).cache.after (scripted meddled) j).doing? task = some (.upload job) ∧
        job.stage = .sending version [9, 2, 3] call := by
  have doing : ((mountWith 0).cache.after (scripted meddled) 14).doing? 0
      = some (.upload ⟨0, ⟨[47, 97]⟩, .evict 1, false, .sending 1 [9, 2, 3] 1⟩) := by decide
  obtain ⟨-, -, ⟨load, m, b, k, states, earlier, copied, -⟩, -⟩ :=
    (sends_pieces (mountWith 0) (scripted meddled) 14).1 _ _ _ _ _ doing rfl
  have told : ((mountWith 0).cache.after (scripted meddled) 15).events
      = [.cancelled ⟨[47, 97]⟩ false, .scheduled 0 ⟨[47, 97]⟩, .reading ⟨[47, 97]⟩ 2 1,
        .writing 0 ⟨[47, 97]⟩ [9, 2, 3], .written 0 ⟨[47, 97]⟩ [[9, 2, 3]],
        .logged .info "upload finished" none] := rfl
  have written : .written 0 ⟨[47, 97]⟩ [[9, 2, 3]]
      ∈ ((mountWith 0).cache.after (scripted meddled) 15).events := by simp [told]
  obtain ⟨j, task, job, version, snapshot, call, before, sending, stage, -, -, -, chunks⟩ :=
    (sends_pieces (mountWith 0) (scripted meddled) 15).2 _ _ _ written
  have same : snapshot = [9, 2, 3] := by
    rw [← Bytes.flatten_chunks (by decide : 0 < copyStep) snapshot, ← chunks]
    rfl
  exact ⟨⟨load, m, b, k, states, earlier, copied⟩, by decide, j, task, job, version, call, before,
    sending, same ▸ stage⟩

/-- An upload is asked for while a file of two pieces is open.  Between the pieces a byte of the
first is written, then one of the second. -/
def torn : List Step :=
  [.openFile ⟨[47, 97]⟩ .readWrite 0 .now, .truncate 0 65537, .schedule 0 "x", .act (.advance 0),
    .act (.advance 0), .act (.advance 0), .act (.advance 0), .write 0 0 [1], .write 0 65536 [2],
    .act (.advance 0), .act (.advance 0)]

/-- The file before, between and after the two changes. -/
def tornContents : List Content :=
  [⟨0, []⟩, ⟨65537, []⟩, ⟨65537, [⟨0, [1]⟩]⟩, ⟨65537, [⟨65536, [2]⟩, ⟨0, [1]⟩]⟩]

/-- The first piece from before both changes, the second one from after them. -/
def tornSnapshot : Bytes :=
  (⟨65537, []⟩ : Content).read ⟨0, 65536⟩
    ++ (⟨65537, [⟨65536, [2]⟩, ⟨0, [1]⟩]⟩ : Content).read ⟨65536, 65537⟩

theorem tornSnapshot_ne {content : Content} (known : content ∈ tornContents) :
    tornSnapshot ≠ content.bytes := by
  have first : tornSnapshot[0]? = some 0 := by
    rw [tornSnapshot, List.getElem?_append_left (by rw [Content.length_read]; decide),
      Content.getElem?_read (by decide)]
    rfl
  have second : tornSnapshot[65536]? = some 2 := by
    rw [tornSnapshot, List.getElem?_append_right (by rw [Content.length_read]; decide),
      Content.length_read, Content.getElem?_read (by decide)]
    rfl
  intro same
  rw [same] at first second
  have inside : 65536 < content.size := by
    rw [← Content.length_bytes]
    exact (List.getElem?_eq_some_iff.mp second).1
  rw [Content.getElem?_bytes (by omega)] at first
  rw [Content.getElem?_bytes inside] at second
  simp only [tornContents, List.mem_cons, List.not_mem_nil, or_false] at known
  rcases known with rfl | rfl | rfl | rfl
  · cases inside
  · cases second
  · cases second
  · cases first

/-- What is sent shows the later change and not the earlier one, as the file never did. -/
theorem torn_between_pieces :
    ((mountWith 0).cache.after (scripted torn) 11).doing? 0
        = some (.upload ⟨0, ⟨[47, 97]⟩, .notify "x", false, .sending 1 tornSnapshot 0⟩) ∧
      ∀ j, j ≤ 11 → ∀ content,
        ((mountWith 0).cache.after (scripted torn) j).contentOf? 0 = some content →
          tornSnapshot ≠ content.bytes := by
  refine ⟨rfl, fun j upto content shown => tornSnapshot_ne ?_⟩
  have listed : ∀ j, j ≤ 11 → ∀ content ∈
      ((mountWith 0).cache.after (scripted torn) j).contentOf? 0, content ∈ tornContents := by
    decide
  exact listed j upto content shown

end Cache

end SparseCache
