import SparseCache.Proofs.Cache.Uploading
import SparseCache.Proofs.Entry.Words

namespace SparseCache

/-! In no state of a run does an operation on an entry leave the 64-bit words.

Files stay below the limit for their length, so what a load asks for lies below it when the load
begins, and its gaps stay what they are when the file gets shorter.
-/

namespace Load

variable {load : Load}

theorem InFile.receive (inFile : load.InFile) (i : Nat) (entry : Entry) (reply : Reply) :
    (load.receive i entry reply).1.InFile := by
  rcases receive_cases load i entry reply with lost | ⟨fetch, call, found, -, taken⟩
  · rwa [lost]
  · rw [taken]
    intro other member
    rcases List.mem_or_eq_of_mem_set member with old | rfl
    · exact inFile other old
    · exact (inFile fetch (List.mem_of_getElem? found)).receive entry reply

end Load

namespace Cache

variable {mount : Mount} {steps : Nat → Step} {task : TaskId} {work : Work} {id : EntryId}
  {load : Load} {n : Nat}

/-- What holds of each load as it begins, and is not lost by its calls and answers, holds of the
loads of a run. -/
theorem load_induction {holds : Load → Prop}
    (starts : ∀ {entry : Entry} {offset count load}, entry.Tidy →
      Load.start entry offset count = .ok load → holds load)
    (asks : ∀ {load : Load} i call, holds load → holds (load.ask i call))
    (receives : ∀ {load : Load} i entry reply, holds load → holds (load.receive i entry reply).1)
    (doing : (mount.cache.after steps n).doing? task = some work)
    (waits : work.load? = some (id, load)) : holds load := by
  induction n generalizing task work id load with
  | zero => cases doing
  | succ n ih =>
      have course := loadCourse_step (sound_after mount steps n) (steps n) doing waits
      generalize steps n = step at course
      cases course with
      | kept before waited => exact ih before waited
      | begins idle found started wanted => exact starts (tidy_after rfl found) started
      | requests before waited position planned same => exact asks _ _ (ih before waited)
      | receives before waited found filled same => exact receives _ _ _ (ih before waited)

theorem inFile_after (doing : (mount.cache.after steps n).doing? task = some work)
    (waits : work.load? = some (id, load)) : load.InFile :=
  load_induction (fun tidy => Load.inFile_start tidy.bounded)
    (fun i call inFile => inFile.ask i call)
    (fun i entry reply inFile => inFile.receive i entry reply) doing waits

/-- In every state of a run, whatever an entry is asked next, whatever chunk comes next for a load
of it and whatever its file holds when the next piece of a copy is read, every sum and difference
on the way is a word, every cast keeps its value, and every slice lies inside its buffer: computed
in words, each operation has a result, and it is the same as on plain numbers. -/
theorem operations_stay_in_words (mount : Mount) (steps : Nat → Step) (n : Nat) (id : EntryId)
    (entry : Entry) (found : Cache.entry? (mount.cache.after steps n) id = some entry) :
    (∀ offset count, Load.startInWords entry offset count = Load.start entry offset count) ∧
    (∀ offset count,
      entry.readInWords? offset count = some (entry.readLocal offset count)) ∧
    (∀ offset data, offset ≤ Word.largest →
      entry.writeInWords? offset data = some (entry.write offset data)) ∧
    (∀ content, entry.content = some content →
      content.copyFrom? 0 = some content.copied) ∧
    (∀ task job version copy, (mount.cache.after steps n).doing? task = some (.upload job) →
      job.stage = .copying version copy → copy.isThrough = false →
      ∀ content, copy.nextInWords? content = some (copy.next content)) ∧
    ∀ task work load, (mount.cache.after steps n).doing? task = some work →
      work.load? = some (id, load) → ∀ fetch ∈ load.fetches,
        fetch.callInWords? = some (fetch.gap.lo, fetch.gap.length) ∧
        ∀ reply, fetch.receiveInWords? entry reply = some (fetch.receive entry reply) := by
  have tidy := tidy_after rfl found
  refine ⟨Load.startInWords_eq tidy.bounded, Entry.readInWords?_eq tidy.bounded,
    fun offset data reach => Entry.writeInWords?_eq reach data, fun content stored => ?_,
    fun task job version copy doing stage going => Copy.nextInWords?_eq ?_ going,
    fun task work load doing waits fetch member => ?_⟩
  · have below := tidy.bounded content stored
    refine Content.copyFrom?_eq ?_ 0
    simp only [lengthLimit, Word.largest] at below ⊢
    omega
  · obtain ⟨b, states, pieced, -⟩ := copying_origin doing stage
    obtain ⟨content, shown, size⟩ := pieced.sized
    obtain ⟨first, known, stored⟩ := entry_of_contentOf? shown
    have below := (tidy_after rfl known).bounded content stored
    simp only [lengthLimit, Word.largest] at below ⊢
    omega
  · have inFile := inFile_after doing waits fetch member
    exact ⟨inFile.callInWords?_eq, inFile.receiveInWords?_eq entry⟩

/-- The longest file there is, of which the largest word is skipped over by a write of nothing and
the end is cut off while somebody waits for it. -/
def cutLongest : List Step :=
  [.create ⟨[97]⟩ (lengthLimit - 1) .now, .write 0 Word.largest [],
    .transfer 0 (lengthLimit - 4) Word.largest true, .act (.advance 0), .act (.request 0 0),
    .truncate 0 (lengthLimit - 3)]

theorem cutLongest_stays_in_words :
    ∃ (entry : Entry) (fetch : Fetch),
      Cache.entry? ((mountWith 0).cache.after (scripted cutLongest) 6) 0 = some entry ∧
      entry.content.map Content.size = some (lengthLimit - 3) ∧
      fetch.gap = ⟨lengthLimit - 4, lengthLimit - 1⟩ ∧
      fetch.callInWords? = some (lengthLimit - 4, 3) ∧
      fetch.receiveInWords? entry (.chunk [1, 2, 3, 4, 5])
        = some (fetch.receive entry (.chunk [1, 2, 3, 4, 5])) ∧
      entry.writeInWords? Word.largest [] = some (entry.write Word.largest []) ∧
      entry.readInWords? Word.largest Word.largest
        = some (entry.readLocal Word.largest Word.largest) := by
  have shown : (Cache.entry? ((mountWith 0).cache.after (scripted cutLongest) 6) 0).map
      (fun entry => entry.content.map Content.size) = some (some (lengthLimit - 3)) := by
    decide
  have doing : ((mountWith 0).cache.after (scripted cutLongest) 6).doing? 0
      = some (.transfer ⟨0, lengthLimit - 4, Word.largest, true, some ⟨⟨[97]⟩,
        [⟨⟨lengthLimit - 4, lengthLimit - 1⟩, 0, .asked 0⟩]⟩⟩) := by
    decide
  obtain ⟨entry, found, size⟩ := Option.map_eq_some_iff.mp shown
  obtain ⟨-, read, write, -, -, answered⟩ :=
    operations_stay_in_words (mountWith 0) (scripted cutLongest) 6 0 entry found
  obtain ⟨call, received⟩ := answered 0 _ _ doing rfl _ (.head _)
  exact ⟨entry, _, found, size, rfl, call, received _, write _ _ (Nat.le_refl _), read _ _⟩

end Cache

end SparseCache
