import SparseCache.Content.Lemmas
import SparseCache.SpanSet.Lemmas
import SparseCache.Load

namespace SparseCache

/-! What local changes and fetched bytes do to the file of an entry.

A hole is an offset inside the file that is not populated.  No operation makes
one: local changes populate what they touch, fetched bytes only fill.
-/

/-- A change that the user makes to an entry. -/
inductive LocalChange
  | write (offset : Nat) (data : Bytes)
  | truncate (size : Nat)
deriving DecidableEq, Repr

def LocalChange.on : LocalChange → Entry → Except EntryError Entry
  | .write offset data, entry => (entry.write offset data).map (·.2)
  | .truncate size, entry => entry.truncate size

namespace Entry

variable {entry after : Entry} {content : Content} {offset size n p : Nat} {data : Bytes}

/-- Both hold the same bytes of which the same are populated. -/
def SameFile (left right : Entry) : Prop :=
  left.content = right.content ∧ left.populated = right.populated

theorem SameFile.symm {left right : Entry} (same : left.SameFile right) : right.SameFile left :=
  ⟨same.1.symm, same.2.symm⟩

theorem SameFile.trans {left middle right : Entry} (first : left.SameFile middle)
    (second : middle.SameFile right) : left.SameFile right :=
  ⟨first.1.trans second.1, first.2.trans second.2⟩

theorem close_of_closed (closed : entry.content = none) : entry.close = entry := by
  rw [close, closed, Option.orElse_eq_orElse, Option.orElse_none, ← closed]

/-- Only the path differs, and perhaps that the entry was closed. -/
def Displaced (before after : Entry) : Prop :=
  ∃ path, after = { before with path } ∨ after = { before.close with path }

theorem Displaced.refl (entry : Entry) : entry.Displaced entry :=
  ⟨entry.path, .inl rfl⟩

theorem Displaced.trans {before middle after : Entry} (first : before.Displaced middle)
    (second : middle.Displaced after) : before.Displaced after := by
  obtain ⟨_, rfl | rfl⟩ := first <;> obtain ⟨path, rfl | rfl⟩ := second
  · exact ⟨path, .inl rfl⟩
  · exact ⟨path, .inr rfl⟩
  · exact ⟨path, .inr rfl⟩
  · exact ⟨path, .inr rfl⟩

/-- An offset inside the file that is not populated. -/
def Hole (entry : Entry) (p : Nat) : Prop :=
  ∃ content, entry.content = some content ∧ p < content.size ∧ p ∉ entry.populated

theorem hole_iff_of_content (stored : entry.content = some content) :
    entry.Hole p ↔ p < content.size ∧ p ∉ entry.populated := by
  constructor
  · rintro ⟨other, found, inside⟩
    rw [stored] at found
    cases found
    exact inside
  · exact fun inside => ⟨content, stored, inside⟩

theorem SameFile.hole_iff {left right : Entry} (same : left.SameFile right) :
    left.Hole p ↔ right.Hole p := by
  rw [Hole, Hole, same.1, same.2]

theorem not_hole_of_closed (closed : entry.content = none) : ¬ entry.Hole p := by
  rintro ⟨content, found, -⟩
  rw [closed] at found
  cases found

/-! ### The operations, taken apart -/

theorem create_ok {path : Path} {modified : Modified}
    (fits : create path size modified = .ok entry) :
    size < lengthLimit ∧ entry = { path, content := some (.zeros size), modified } := by
  unfold create at fits
  split at fits
  · rename_i small
    cases fits
    exact ⟨small, rfl⟩
  · cases fits

theorem write_of_closed (closed : entry.content = none) :
    entry.write offset data = .error .closed := by
  simp [write, content?, closed, bind, Except.bind]

theorem truncate_of_closed (closed : entry.content = none) :
    entry.truncate size = .error .closed := by
  simp [truncate, content?, closed, bind, Except.bind]

theorem write_ok (done : entry.write offset data = .ok (n, after)) :
    ∃ content, entry.content = some content ∧
      (data.isEmpty ∨ offset + data.length < lengthLimit) ∧
      after = { entry with
        content := some (content.write offset data)
        populated := (entry.populated.insert ⟨content.size, offset⟩).insert
          ⟨offset, offset + data.length⟩ }.touch := by
  cases stored : entry.content with
  | none => rw [write_of_closed stored] at done; cases done
  | some content =>
      simp only [write, content?, stored, bind, Except.bind] at done
      split at done
      · rename_i fits
        cases done
        exact ⟨content, rfl, fits, rfl⟩
      · cases done

theorem truncate_ok (done : entry.truncate size = .ok after) :
    ∃ content, entry.content = some content ∧ size < lengthLimit ∧
      after = { entry with
        content := some (content.resize size)
        populated :=
          if size < content.size then entry.populated.erase ⟨size, maxOffset⟩
          else entry.populated.insert ⟨content.size, size⟩ }.touch := by
  cases stored : entry.content with
  | none => rw [truncate_of_closed stored] at done; cases done
  | some content =>
      simp only [truncate, content?, stored, bind, Except.bind] at done
      split at done
      · rename_i fits
        cases done
        exact ⟨content, rfl, fits, rfl⟩
      · cases done

theorem truncate_of_map {result : Unit}
    (done : (entry.truncate size).map ((), ·) = .ok (result, after)) :
    entry.truncate size = .ok after := by
  cases cut : entry.truncate size with
  | error error => simp [cut, Except.map] at done
  | ok resized => simpa [cut, Except.map] using done

theorem write_of_on (done : (LocalChange.write offset data).on entry = .ok after) :
    ∃ n, entry.write offset data = .ok (n, after) := by
  cases wrote : entry.write offset data with
  | error error => simp [LocalChange.on, wrote, Except.map] at done
  | ok result =>
      simp only [LocalChange.on, wrote, Except.map] at done
      cases done
      exact ⟨result.1, rfl⟩

/-- Whether a change succeeds, and what it does to the file, hangs on the file alone. -/
theorem SameFile.on {left right leftAfter : Entry} {change : LocalChange}
    (same : left.SameFile right) (done : change.on left = .ok leftAfter) :
    ∃ rightAfter, change.on right = .ok rightAfter ∧ leftAfter.SameFile rightAfter := by
  cases change with
  | write offset data =>
      obtain ⟨n, written⟩ := write_of_on done
      obtain ⟨content, stored, fits, rfl⟩ := write_ok written
      have repeated : (LocalChange.write offset data).on right = .ok { right with
          content := some (content.write offset data)
          populated := (right.populated.insert ⟨content.size, offset⟩).insert
            ⟨offset, offset + data.length⟩ }.touch := by
        simp only [LocalChange.on, write, content?, ← same.1, stored, bind, Except.bind,
          if_pos fits, Except.map]
      exact ⟨_, repeated, rfl, by simp only [touch, same.2]⟩
  | truncate size =>
      obtain ⟨content, stored, fits, rfl⟩ := truncate_ok done
      have repeated : (LocalChange.truncate size).on right = .ok { right with
          content := some (content.resize size)
          populated :=
            if size < content.size then right.populated.erase ⟨size, maxOffset⟩
            else right.populated.insert ⟨content.size, size⟩ }.touch := by
        simp [LocalChange.on, truncate, content?, ← same.1, stored, bind, Except.bind, fits]
      exact ⟨_, repeated, rfl, by simp only [touch, same.2]⟩

/-! ### Arriving bytes -/

/-- The file with `data`, which starts at `offset`, laid over its gaps. -/
def filled (entry : Entry) (content : Content) (offset : Nat) (data : Bytes) : Content :=
  (entry.populated.gaps ⟨offset, min content.size (offset + data.length)⟩).foldl
    (fun content piece => content.write piece.lo (sliceAt data offset piece)) content

theorem store_eq (stored : entry.content = some content) :
    entry.store offset data = .ok { entry with
      content := some (entry.filled content offset data)
      populated := entry.populated.insert
        ⟨offset, min content.size (offset + data.length)⟩ } := by
  simp only [store, content?, stored, bind, Except.bind, filled]

theorem store_of_closed (closed : entry.content = none) :
    entry.store offset data = .error .closed := by
  simp [store, content?, closed, bind, Except.bind]

theorem getElem?_sliceAt {piece : Span} (reached : offset ≤ piece.lo) (inside : p ∈ piece) :
    (sliceAt data offset piece)[p - piece.lo]? = data[p - offset]? := by
  rw [Span.mem_iff] at inside
  rw [sliceAt, List.getElem?_take_of_lt (by simp only [Span.length]; omega), List.getElem?_drop]
  congr 1
  omega

theorem length_sliceAt {piece : Span} (reached : offset ≤ piece.lo)
    (within : piece.hi ≤ offset + data.length) :
    (sliceAt data offset piece).length = piece.length := by
  simp only [sliceAt, List.length_take, List.length_drop, Span.length]
  omega

/-- The pieces may come in any order: all of them are cut from one string. -/
theorem byteAt_foldl_write {pieces : List Span}
    (bounded : ∀ piece ∈ pieces,
      offset ≤ piece.lo ∧ piece.lo < piece.hi ∧ piece.hi ≤ offset + data.length) :
    some ((pieces.foldl (fun content piece =>
        content.write piece.lo (sliceAt data offset piece)) content).byteAt p)
      = if ∃ piece ∈ pieces, p ∈ piece then data[p - offset]? else some (content.byteAt p) := by
  induction pieces generalizing content with
  | nil => simp
  | cons piece pieces ih =>
      obtain ⟨reached, nonempty, within⟩ := bounded piece (.head _)
      have width := length_sliceAt reached within
      have painted : some ((content.write piece.lo (sliceAt data offset piece)).byteAt p)
          = if p ∈ piece then data[p - offset]? else some (content.byteAt p) := by
        split
        · rename_i inside
          have bounds := Span.mem_iff.mp inside
          rw [Content.byteAt_write_of_mem bounds.1 (by rw [width]; simp only [Span.length]; omega),
            ← getElem?_sliceAt reached inside]
          exact (List.getElem?_eq_getElem _).symm
        · rename_i outside
          rw [Span.mem_iff] at outside
          rw [Content.byteAt_write_of_not_mem (by rw [width]; simp only [Span.length]; omega)]
      rw [List.foldl_cons, ih fun other member => bounded other (.tail _ member), painted]
      simp only [List.mem_cons, exists_eq_or_imp]
      by_cases here : p ∈ piece
      · simp [here]
      · simp [here]

theorem size_foldl_write {pieces : List Span}
    (bounded : ∀ piece ∈ pieces, offset ≤ piece.lo ∧ piece.lo < piece.hi ∧
      piece.hi ≤ offset + data.length ∧ piece.hi ≤ content.size) :
    (pieces.foldl (fun content piece =>
        content.write piece.lo (sliceAt data offset piece)) content).size = content.size := by
  induction pieces generalizing content with
  | nil => rfl
  | cons piece pieces ih =>
      obtain ⟨reached, nonempty, within, inside⟩ := bounded piece (.head _)
      have width := length_sliceAt reached within
      have kept : (content.write piece.lo (sliceAt data offset piece)).size = content.size := by
        rw [Content.size_write, width]
        · simp only [Span.length]
          omega
        · intro empty
          rw [empty] at width
          simp only [List.length_nil, Span.length] at width
          omega
      rw [List.foldl_cons, ih fun other member => by rw [kept]; exact bounded other (.tail _ member),
        kept]

theorem bounds_of_arrived {piece : Span}
    (found : piece ∈ entry.populated.gaps ⟨offset, min content.size (offset + data.length)⟩) :
    offset ≤ piece.lo ∧ piece.lo < piece.hi ∧ piece.hi ≤ offset + data.length ∧
      piece.hi ≤ content.size := by
  obtain ⟨reached, nonempty, within⟩ := SpanSet.bounds_of_mem_gaps found
  simp only at reached within
  omega

theorem size_filled : (entry.filled content offset data).size = content.size :=
  size_foldl_write fun _ found => bounds_of_arrived found

/-- Where nothing was populated the arriving byte is found, elsewhere the old one. -/
theorem byteAt_filled (entry : Entry) (content : Content) (offset : Nat) (data : Bytes) (p : Nat) :
    some ((entry.filled content offset data).byteAt p)
      = if (offset ≤ p ∧ p < min content.size (offset + data.length)) ∧ p ∉ entry.populated then
          data[p - offset]?
        else some (content.byteAt p) := by
  have bounded : ∀ piece ∈
      entry.populated.gaps ⟨offset, min content.size (offset + data.length)⟩,
      offset ≤ piece.lo ∧ piece.lo < piece.hi ∧ piece.hi ≤ offset + data.length := by
    intro piece found
    obtain ⟨reached, nonempty, within, -⟩ := bounds_of_arrived found
    exact ⟨reached, nonempty, within⟩
  rw [filled, byteAt_foldl_write bounded]
  simp only [SpanSet.mem_gaps_iff]
  rfl

/-! ### Holes -/

theorem hole_of_write (done : entry.write offset data = .ok (n, after)) (hole : after.Hole p) :
    entry.Hole p := by
  obtain ⟨content, stored, -, rfl⟩ := write_ok done
  obtain ⟨inside, missing⟩ := (hole_iff_of_content rfl).mp hole
  simp only [touch, SpanSet.mem_insert, Span.mem_iff, not_or] at missing
  refine ⟨content, stored, ?_, missing.2.2⟩
  by_cases empty : data = []
  · rwa [empty, Content.write_nil] at inside
  · rw [Content.size_write empty] at inside
    omega

theorem hole_of_truncate (done : entry.truncate size = .ok after) (hole : after.Hole p) :
    entry.Hole p := by
  obtain ⟨content, stored, -, rfl⟩ := truncate_ok done
  obtain ⟨inside, missing⟩ := (hole_iff_of_content rfl).mp hole
  rw [Content.size_resize] at inside
  simp only [touch] at missing
  split at missing
  · simp only [SpanSet.mem_erase, Span.mem_iff, not_and] at missing
    refine ⟨content, stored, by omega, fun populated => ?_⟩
    have := missing populated
    omega
  · simp only [SpanSet.mem_insert, Span.mem_iff, not_or] at missing
    exact ⟨content, stored, by omega, missing.2⟩

/-- What arrived inside the file is no hole any more, and nothing became one. -/
theorem hole_of_store (done : entry.store offset data = .ok after) (hole : after.Hole p) :
    entry.Hole p ∧ ¬ (offset ≤ p ∧ p < offset + data.length) := by
  cases stored : entry.content with
  | none => rw [store_of_closed stored] at done; cases done
  | some content =>
      rw [store_eq stored] at done
      cases done
      obtain ⟨inside, missing⟩ := (hole_iff_of_content rfl).mp hole
      rw [size_filled] at inside
      simp only [SpanSet.mem_insert, Span.mem_iff, not_or] at missing
      exact ⟨⟨content, stored, inside, missing.2⟩, by omega⟩

/-- What has no holes takes nothing in. -/
theorem filled_of_full (stored : entry.content = some content) (full : ∀ p, ¬ entry.Hole p) :
    entry.filled content offset data = content := by
  have nothing : entry.populated.gaps ⟨offset, min content.size (offset + data.length)⟩ = [] := by
    refine SpanSet.gaps_eq_nil_iff.mpr fun p inside => ?_
    refine Classical.byContradiction fun missing => full p ⟨content, stored, ?_, missing⟩
    exact Nat.lt_of_lt_of_le (Span.mem_iff.mp inside).2 (Nat.min_le_left _ _)
  rw [filled, nothing, List.foldl_nil]

/-! ### Handles -/

/-- The epoch goes on when the last handle is given back, and only then. -/
theorem releaseHandle?_some (left : entry.releaseHandle? = some (n, after)) :
    entry.handles = n + 1 ∧ after = { entry with
      handles := n
      epoch := if n = 0 then entry.epoch + 1 else entry.epoch } := by
  unfold releaseHandle? at left
  split at left
  · cases left
  · rename_i last
    cases left
    exact ⟨last, rfl⟩
  · rename_i others more count
    cases left
    exact ⟨count, by rw [if_neg more]⟩

theorem releaseHandle?_of_held (held : 0 < entry.handles) :
    ∃ n after, entry.releaseHandle? = some (n, after) := by
  unfold releaseHandle?
  split
  · rename_i none
    rw [none] at held
    cases held
  · exact ⟨_, _, rfl⟩
  · exact ⟨_, _, rfl⟩

end Entry

/-! ### Gaps -/

namespace Load

variable {load : Load} {entry : Entry} {content : Content} {offset count : Nat}

theorem start_eq (stored : entry.content = some content) (offset count : Nat) :
    Load.start entry offset count =
      if content.size < offset then .error (.pastEnd offset content.size)
      else .ok ⟨entry.path, (entry.populated.gaps ⟨offset, min content.size (offset + count)⟩).map
        fun gap => { gap }⟩ := by
  simp only [start, Entry.missing, Entry.content?, stored, bind, Except.bind, Except.map]
  split
  · rename_i failed
    split at failed <;> cases failed
    rw [if_pos ‹_›]
  · rename_i gaps found
    split at found <;> cases found
    rw [if_neg ‹_›]

theorem start_ok (started : Load.start entry offset count = .ok load) :
    ∃ content, entry.content = some content ∧ offset ≤ content.size ∧
      load = ⟨entry.path,
        (entry.populated.gaps ⟨offset, min content.size (offset + count)⟩).map fun gap =>
          { gap }⟩ := by
  cases stored : entry.content with
  | none =>
      simp [start, Entry.missing, Entry.content?, stored, bind, Except.bind, Except.map] at started
  | some content =>
      rw [start_eq stored] at started
      split at started
      · cases started
      · rename_i inside
        cases started
        exact ⟨content, rfl, Nat.le_of_not_lt inside, rfl⟩

end Load

/-! ### Answers -/

theorem Fetch.receive_entry (fetch : Fetch) (entry : Entry) (reply : Reply) :
    ∃ content populated, (fetch.receive entry reply).2 = { entry with content, populated } := by
  cases reply with
  | chunk data =>
      cases stored : entry.content with
      | none =>
          simp only [receive, Entry.store_of_closed stored]
          exact ⟨entry.content, entry.populated, rfl⟩
      | some content =>
          simp only [receive, Entry.store_eq stored]
          split <;> exact ⟨_, _, rfl⟩
  | _ => exact ⟨entry.content, entry.populated, rfl⟩

theorem Load.receive_entry (load : Load) (i : Nat) (entry : Entry) (reply : Reply) :
    ∃ content populated, (load.receive i entry reply).2 = { entry with content, populated } := by
  unfold receive
  split
  · split
    · exact Fetch.receive_entry _ entry reply
    · exact ⟨entry.content, entry.populated, rfl⟩
  · exact ⟨entry.content, entry.populated, rfl⟩

end SparseCache
