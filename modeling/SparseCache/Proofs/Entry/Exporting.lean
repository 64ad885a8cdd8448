import Mathlib
import SparseCache.Proofs.Entry.Snapshot
import SparseCache.Proofs.FileTree.Creation
import SparseCache.Session.Command

namespace SparseCache

/-! What copying a file out of the cache leaves behind.

The new file is made before anything else is looked at.  Once it is there it stays, with as
much of the content as arrived, and the path is taken.
-/

/-! ### Copying into a sink -/

namespace Sink

variable {sink : Sink} {piece : Bytes} {pieces : List Bytes}

theorem accept_prefix (sink : Sink) (piece : Bytes) : (sink.accept piece).1 <+: piece := by
  unfold accept
  split
  · exact List.nil_prefix
  · split
    · exact List.nil_prefix
    · exact List.nil_prefix
    · exact List.prefix_rfl
    · split
      · exact List.prefix_rfl
      · exact List.take_prefix _ _

theorem accept_ok {rest : Sink} (accepted : (sink.accept piece).2 = .ok rest) :
    (sink.accept piece).1 = piece := by
  unfold accept at accepted ⊢
  split at accepted
  · rename_i empty
    rw [if_pos empty, List.isEmpty_iff.mp empty]
  · rename_i more
    rw [if_neg more]
    split at accepted
    · cases accepted
    · cases accepted
    · rfl
    · split at accepted
      · rename_i enough
        simp only [if_pos enough]
      · cases accepted

/-- What arrives is the beginning of what is sent. -/
theorem acceptAll_prefix (sink : Sink) (pieces : List Bytes) :
    (sink.acceptAll pieces).1 <+: pieces.flatten := by
  induction pieces generalizing sink with
  | nil => exact List.nil_prefix
  | cons piece pieces ih =>
      have first := sink.accept_prefix piece
      rw [acceptAll, List.flatten_cons]
      split
      · rename_i taken cause refused
        rw [refused] at first
        exact first.trans (List.prefix_append _ _)
      · rename_i taken rest accepted
        have whole := accept_ok (congrArg Prod.snd accepted)
        rw [accepted] at whole
        subst whole
        exact (List.prefix_append_right_inj _).mpr (ih rest)

/-- If nothing is refused all of it arrives. -/
theorem acceptAll_ok (accepted : (sink.acceptAll pieces).2 = .ok ()) :
    (sink.acceptAll pieces).1 = pieces.flatten := by
  induction pieces generalizing sink with
  | nil => rfl
  | cons piece pieces ih =>
      rw [acceptAll] at accepted ⊢
      rw [List.flatten_cons]
      split at accepted
      · cases accepted
      · rename_i taken rest first
        have whole := accept_ok (congrArg Prod.snd first)
        simp only [first] at whole ⊢
        rw [whole, ih accepted]

/-- A sink with room takes everything. -/
theorem acceptAll_roomy (pieces : List Bytes) : (({} : Sink).acceptAll pieces).2 = .ok () := by
  induction pieces with
  | nil => rfl
  | cons piece pieces ih =>
      have whole : ({} : Sink).accept piece = (piece, .ok {}) := by
        unfold accept
        split
        · rename_i empty
          rw [List.isEmpty_iff.mp empty]
        · rfl
      rw [acceptAll, whole]
      exact ih

end Sink

namespace Content

/-- A file that was written from its start holds what was written. -/
theorem bytes_write_zeros (bytes : Bytes) : ((zeros 0).write 0 bytes).bytes = bytes := by
  by_cases empty : bytes = []
  · subst empty
    rfl
  · have size : ((zeros 0).write 0 bytes).size = bytes.length := by
      rw [size_write empty, Nat.zero_add]
      exact Nat.max_eq_right (Nat.zero_le _)
    refine List.ext_getElem (length_bytes.trans size) fun i here there => ?_
    have found := getElem?_bytes (size.symm ▸ there)
    rw [List.getElem?_eq_getElem here, byteAt_write_of_mem (Nat.zero_le i) (by simpa using there)]
      at found
    simpa using found

end Content

namespace Entry

variable {entry : Entry} {sink : Sink} {path : Path} {tree after : FileTree} {n : Nat}
  {error : EntryError}

theorem persistInto_of_arrives {content : Content} {taken : Bytes} {result : Except IoError Unit}
    (stored : entry.content = some content)
    (arrives : sink.acceptAll content.copied = (taken, result)) :
    entry.persistInto sink
      = ((result.mapError EntryError.io).map fun _ => content.size, taken) := by
  simp only [persistInto, content?, stored, arrives]
  cases result <;> rfl

theorem persistInto_closed (closed : entry.content = none) :
    entry.persistInto sink = (.error .closed, []) := by
  simp only [persistInto, content?, closed]

theorem persistInto_ok (copied : (entry.persistInto sink).1 = .ok n) :
    ∃ content, entry.content = some content ∧ n = content.size ∧
      (entry.persistInto sink).2 = content.bytes := by
  cases stored : entry.content with
  | none =>
      rw [persistInto_closed stored] at copied
      cases copied
  | some content =>
      cases arrives : sink.acceptAll content.copied with
      | mk taken result =>
          rw [persistInto_of_arrives stored arrives] at copied ⊢
          cases result with
          | error cause => cases copied
          | ok done =>
              cases copied
              have whole := Sink.acceptAll_ok (congrArg Prod.snd arrives)
              rw [arrives, content.flatten_copied] at whole
              exact ⟨content, rfl, rfl, whole⟩

theorem persistInto_prefix {content : Content} (stored : entry.content = some content) :
    (entry.persistInto sink).2 <+: content.bytes := by
  have part := sink.acceptAll_prefix content.copied
  cases arrives : sink.acceptAll content.copied with
  | mk taken result =>
      rw [arrives, content.flatten_copied] at part
      rw [persistInto_of_arrives stored arrives]
      exact part

theorem persistInto_roomy {content : Content} (stored : entry.content = some content) :
    entry.persistInto {} = (.ok content.size, content.bytes) := by
  have roomy := Sink.acceptAll_roomy content.copied
  have whole := Sink.acceptAll_ok roomy
  rw [content.flatten_copied] at whole
  rw [persistInto_of_arrives stored (Prod.ext whole roomy)]
  rfl

/-! ### Copying to a new file -/

/-- At `path` there is a file with `bytes` where nothing was, and nothing else changed. -/
structure LeavesFile (tree : FileTree) (path : Path) (bytes : Bytes) (after : FileTree) : Prop where
  placed : ∃ location content, tree.place? location = none ∧
    after.place? location = some ⟨location, tree.next, .file content⟩ ∧ content.bytes = bytes ∧
    ∀ other, other ≠ location → after.place? other = tree.place? other
  holds : after.bytesAt path = .ok bytes
  taken : after.createNew path = .error (.system SystemError.entryExists)

theorem persistThrough_of_error {cause : IoError} (refused : tree.createNew path = .error cause) :
    entry.persistThrough sink path tree = (.error (.io cause), tree) := by
  simp only [persistThrough, refused]

theorem persistThrough_of_ok (entry : Entry) (sink : Sink) {location : Location} {made : FileTree}
    (makes : tree.createNew path = .ok (location, made)) :
    (entry.persistThrough sink path tree).1 = (entry.persistInto sink).1 ∧
      LeavesFile tree path (entry.persistInto sink).2
        (entry.persistThrough sink path tree).2 := by
  simp only [persistThrough, makes, true_and]
  generalize (entry.persistInto sink).2 = taken
  have placed := FileTree.place?_created makes ((Content.zeros 0).write 0 taken)
  refine ⟨⟨location, _, (FileTree.createNew_ok makes).1, placed.1, ?_, placed.2⟩, ?_, ?_⟩
  · exact Content.bytes_write_zeros taken
  · rw [FileTree.bytesAt_created makes, Content.bytes_write_zeros]
  · exact FileTree.createNew_again makes _

/-- Copying an entry, open or closed, to a new file.  If it succeeds there was nothing, and now
there is a file with the whole content.  It fails without a trace just if the file cannot be
made; any later failure leaves a file with the part of the content that arrived, which is none of
it if the entry is closed, and no later attempt with that path succeeds.  On a disk with room
only closed entries fail after their file was made.  The entries are not touched. -/
theorem persistThrough_leaves (entry : Entry) (path : Path) (tree : FileTree) :
    (∀ sink n after, entry.persistThrough sink path tree = (.ok n, after) →
      ∃ content, entry.content = some content ∧ n = content.size ∧ n = content.bytes.length ∧
        LeavesFile tree path content.bytes after) ∧
    (∀ sink error after, entry.persistThrough sink path tree = (.error error, after) →
      (after = tree ↔ ∃ cause, tree.createNew path = .error cause) ∧
      (after ≠ tree → ∃ left, LeavesFile tree path left after ∧
        (∀ content, entry.content = some content → left <+: content.bytes) ∧
        (entry.content = none → error = .closed ∧ left = []) ∧
        ∀ (retried : Entry) sink, retried.persistThrough sink path after
          = (.error (.io (.system SystemError.entryExists)), after))) ∧
    ((∃ n, (entry.persistTo path tree).1 = .ok n) ↔
      entry.isOpen = true ∧ ∃ made, tree.createNew path = .ok made) ∧
    ∀ (session : Session) (id : EntryId), session.cache.entry? id = some entry →
      session.exports = tree →
      (session.execute (.persistTo id path)).2
        = { session with exports := (entry.persistTo path tree).2 } := by
  refine ⟨fun sink n after persists => ?_, fun sink error after persists => ?_, ?_,
    fun session id found same => ?_⟩
  · cases makes : tree.createNew path with
    | error cause => cases persists.symm.trans (persistThrough_of_error makes)
    | ok made =>
        obtain ⟨result, leaves⟩ := persistThrough_of_ok entry sink makes
        rw [persists] at result leaves
        obtain ⟨content, stored, rfl, whole⟩ := persistInto_ok result.symm
        exact ⟨content, stored, rfl, Content.length_bytes.symm, whole ▸ leaves⟩
  · cases makes : tree.createNew path with
    | error cause =>
        cases persists.symm.trans (persistThrough_of_error makes)
        exact ⟨⟨fun _ => ⟨cause, rfl⟩, fun _ => rfl⟩, fun changed => absurd rfl changed⟩
    | ok made =>
        obtain ⟨result, leaves⟩ := persistThrough_of_ok entry sink makes
        rw [persists] at result leaves
        have changed : after ≠ tree := by
          rintro rfl
          rw [leaves.taken] at makes
          cases makes
        refine ⟨⟨fun same => absurd same changed, ?_⟩, fun _ => ⟨_, leaves, ?_, ?_, ?_⟩⟩
        · rintro ⟨cause, refused⟩
          cases refused
        · exact fun content stored => persistInto_prefix stored
        · intro closed
          rw [persistInto_closed closed] at result ⊢
          cases result
          exact ⟨rfl, rfl⟩
        · exact fun retried sink => persistThrough_of_error leaves.taken
  · cases makes : tree.createNew path with
    | error cause => simp [persistTo, persistThrough_of_error makes]
    | ok made =>
        rw [persistTo, (persistThrough_of_ok entry {} makes).1]
        cases stored : entry.content with
        | none => simp [persistInto_closed stored, isOpen, stored]
        | some content => simp [persistInto_roomy stored, isOpen, stored]
  · subst same
    simp only [Session.execute, found]

/-- A file of the cache with this content, or closed. -/
def localFile (content : Option Content) : Entry :=
  { path := ⟨[47, 97]⟩, content, modified := .given {} }

/-- A disk that is full after two bytes keeps two of three, and a roomy one all three. -/
theorem localFile_leaves :
    (∃ left after, LeavesFile {} ⟨[120]⟩ left after ∧ left <+: [7, 8, 9] ∧
      (localFile (some ⟨3, [⟨0, [7, 8, 9]⟩]⟩)).persistThrough { room := some 2 }
        ⟨[120]⟩ {} = (.error (.io .sinkFull), after)) ∧
    ∃ after, LeavesFile {} ⟨[120]⟩ [7, 8, 9] after ∧
      (localFile (some ⟨3, [⟨0, [7, 8, 9]⟩]⟩)).persistTo ⟨[120]⟩ {} = (.ok 3, after) := by
  have leaves := persistThrough_leaves (localFile (some ⟨3, [⟨0, [7, 8, 9]⟩]⟩)) ⟨[120]⟩ {}
  have stops : (localFile (some ⟨3, [⟨0, [7, 8, 9]⟩]⟩)).persistThrough { room := some 2 }
      ⟨[120]⟩ {} = (.error (.io .sinkFull),
        ⟨[⟨[[120]], 1, .file ⟨2, [⟨0, [7, 8]⟩]⟩⟩], 2⟩) := by cbv
  have ends : (localFile (some ⟨3, [⟨0, [7, 8, 9]⟩]⟩)).persistThrough {} ⟨[120]⟩ {}
      = (.ok 3, ⟨[⟨[[120]], 1, .file ⟨3, [⟨0, [7, 8, 9]⟩]⟩⟩], 2⟩) := by cbv
  obtain ⟨left, leftover, part, -⟩ := (leaves.2.1 _ _ _ stops).2 (by decide)
  obtain ⟨content, stored, -, -, whole⟩ := leaves.1 _ _ _ ends
  cases stored
  exact ⟨⟨left, _, leftover, part _ rfl, stops⟩, _, whole, ends⟩

/-- Copying a closed entry fails, yet where there was nothing there is an empty file now, on which
the next attempt with an open entry fails. -/
theorem closed_leaves_file :
    ∃ after, (localFile none).persistTo ⟨[120]⟩ {} = (.error .closed, after) ∧
      ({} : FileTree).bytesAt ⟨[120]⟩ = .error (.system SystemError.noEntry) ∧
      after.bytesAt ⟨[120]⟩ = .ok [] ∧
      ((localFile (some (.zeros 3))).persistTo ⟨[120]⟩ {}).1 = .ok 3 ∧
      (localFile (some (.zeros 3))).persistTo ⟨[120]⟩ after
        = (.error (.io (.system SystemError.entryExists)), after) :=
  ⟨⟨[⟨[[120]], 1, .file ⟨0, []⟩⟩], 2⟩, by cbv, by cbv, by cbv, by cbv, by cbv⟩

end Entry

end SparseCache
