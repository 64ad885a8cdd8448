import SparseCache.Proofs.Entry.Changes

namespace SparseCache

/-! The flat file that an entry stands for: plain bytes, all of them there.

An entry reflects a flat file if it has its size, holds its bytes wherever it is
populated, and lacks only bytes that are still those of the remote file.
-/

namespace Bytes

variable {file data : Bytes} {offset size p : Nat}

/-- The first `size` bytes, with zeros after the end if there are not so many. -/
def resize (file : Bytes) (size : Nat) : Bytes :=
  file.take size ++ List.replicate (size - file.length) 0

/-- `data` laid over the file, which is continued with zeros up to `offset` if need be.
Nothing laid over changes nothing. -/
def overlay (file : Bytes) (offset : Nat) (data : Bytes) : Bytes :=
  if data.isEmpty then file
  else (file.take offset ++ List.replicate (offset - file.length) 0) ++ data
    ++ file.drop (offset + data.length)

@[simp] theorem length_resize (file : Bytes) (size : Nat) : (resize file size).length = size := by
  simp only [resize, List.length_append, List.length_take, List.length_replicate]
  omega

theorem getElem?_resize_of_lt (kept : p < size) (inside : p < file.length) :
    (resize file size)[p]? = file[p]? := by
  rw [resize, List.getElem?_append_left (by simp only [List.length_take]; omega),
    List.getElem?_take_of_lt kept]

theorem getElem?_resize_of_ge (kept : p < size) (outside : file.length ≤ p) :
    (resize file size)[p]? = some 0 := by
  rw [resize, List.getElem?_append_right (by simp only [List.length_take]; omega),
    List.getElem?_replicate_of_lt (by simp only [List.length_take]; omega)]

theorem overlay_nil : overlay file offset [] = file := rfl

theorem overlay_eq (nonempty : data ≠ []) :
    overlay file offset data = resize file offset ++ data ++ file.drop (offset + data.length) := by
  simp [overlay, resize, nonempty]

theorem length_overlay (file : Bytes) (offset : Nat) (nonempty : data ≠ []) :
    (overlay file offset data).length = max file.length (offset + data.length) := by
  simp only [overlay_eq nonempty, List.length_append, length_resize, List.length_drop]
  omega

theorem getElem?_overlay_of_mem (lower : offset ≤ p) (upper : p < offset + data.length) :
    (overlay file offset data)[p]? = data[p - offset]? := by
  have nonempty : data ≠ [] := by
    rintro rfl
    simp only [List.length_nil] at upper
    omega
  rw [overlay_eq nonempty, List.append_assoc,
    List.getElem?_append_right (by rw [length_resize]; exact lower), length_resize,
    List.getElem?_append_left (by omega)]

theorem getElem?_overlay_of_lt (outside : p < offset ∨ offset + data.length ≤ p)
    (inside : p < file.length) : (overlay file offset data)[p]? = file[p]? := by
  by_cases empty : data = []
  · rw [empty, overlay_nil]
  · rw [overlay_eq empty, List.append_assoc]
    rcases outside with before | after
    · rw [List.getElem?_append_left (by rw [length_resize]; exact before),
        getElem?_resize_of_lt before inside]
    · rw [List.getElem?_append_right (by rw [length_resize]; omega), length_resize,
        List.getElem?_append_right (by omega), List.getElem?_drop]
      congr 1
      omega

/-- Between the old end and what is laid over the file reads as zero. -/
theorem getElem?_overlay_of_skipped (nonempty : data ≠ []) (skipped : file.length ≤ p)
    (before : p < offset) : (overlay file offset data)[p]? = some 0 := by
  rw [overlay_eq nonempty, List.append_assoc,
    List.getElem?_append_left (by rw [length_resize]; exact before),
    getElem?_resize_of_ge before skipped]

end Bytes

/-- What the change does to a flat file. -/
def LocalChange.reflected : LocalChange → Bytes → Bytes
  | .write offset data, file => file.overlay offset data
  | .truncate size, file => file.resize size

/-- The content agrees with the file where it is populated, and elsewhere the file is still
the remote one. -/
structure Reflects (content : Content) (populated : SpanSet) (remote file : Bytes) : Prop where
  size : content.size = file.length
  present : ∀ p, p < file.length → p ∈ populated → file[p]? = some (content.byteAt p)
  missing : ∀ p, p < file.length → p ∉ populated → file[p]? = remote[p]?
  blank : ∀ p, file.length ≤ p → content.byteAt p = 0

namespace Reflects

variable {content : Content} {populated : SpanSet} {remote file data : Bytes}
  {offset size count : Nat}

theorem zeros (long : size ≤ remote.length) :
    Reflects (.zeros size) ∅ remote (remote.take size) where
  size := by simp only [Content.size_zeros, List.length_take]; omega
  present p inside populated := absurd populated SpanSet.not_mem_empty
  missing p inside _ := by
    rw [List.length_take] at inside
    exact List.getElem?_take_of_lt (by omega)
  blank p _ := Content.byteAt_zeros

theorem write (reflects : Reflects content populated remote file) (offset : Nat) (data : Bytes) :
    Reflects (content.write offset data)
      ((populated.insert ⟨content.size, offset⟩).insert ⟨offset, offset + data.length⟩)
      remote (Bytes.overlay file offset data) := by
  have size := reflects.size
  by_cases empty : data = []
  · subst empty
    have same : ∀ p, p < file.length →
        (p ∈ (populated.insert ⟨content.size, offset⟩).insert
          ⟨offset, offset + ([] : Bytes).length⟩ ↔ p ∈ populated) := by
      intro p inside
      simp only [SpanSet.mem_insert, Span.mem_iff, List.length_nil]
      rw [or_iff_right (by omega), or_iff_right (by omega)]
    exact ⟨size, fun p inside here => reflects.present p inside ((same p inside).mp here),
      fun p inside gone => reflects.missing p inside fun here => gone ((same p inside).mpr here),
      reflects.blank⟩
  · have length := Bytes.length_overlay file offset empty
    have nonempty := List.length_pos_iff.mpr empty
    refine ⟨by rw [Content.size_write empty, length, size], fun p inside here => ?_,
      fun p inside gone => ?_, fun p outside => ?_⟩
    · rw [length] at inside
      by_cases written : offset ≤ p ∧ p < offset + data.length
      · rw [Bytes.getElem?_overlay_of_mem written.1 written.2,
          Content.byteAt_write_of_mem written.1 written.2]
        exact List.getElem?_eq_getElem _
      · rw [Content.byteAt_write_of_not_mem (by omega)]
        rcases Nat.lt_or_ge p file.length with old | new
        · simp only [SpanSet.mem_insert, Span.mem_iff] at here
          rw [Bytes.getElem?_overlay_of_lt (by omega) old]
          refine reflects.present p old ?_
          rcases here with direct | skipped | before
          · exact absurd direct written
          · omega
          · exact before
        · rw [Bytes.getElem?_overlay_of_skipped empty new (by omega), reflects.blank p new]
    · rw [length] at inside
      simp only [SpanSet.mem_insert, Span.mem_iff, not_or] at gone
      have old : p < file.length := by omega
      rw [Bytes.getElem?_overlay_of_lt (by omega) old]
      exact reflects.missing p old gone.2.2
    · rw [length] at outside
      rw [Content.byteAt_write_of_not_mem (by omega)]
      exact reflects.blank p (by omega)

theorem resize (reflects : Reflects content populated remote file) (size : Nat) :
    Reflects (content.resize size)
      (if size < content.size then populated.erase ⟨size, Entry.maxOffset⟩
        else populated.insert ⟨content.size, size⟩)
      remote (Bytes.resize file size) := by
  have old := reflects.size
  have length := Bytes.length_resize file size
  have shown : ∀ p, p < size → (content.resize size).byteAt p = content.byteAt p := by
    intro p inside
    rw [Content.byteAt_resize, if_pos inside]
  refine ⟨length.symm, fun p inside here => ?_, fun p inside gone => ?_, fun p outside => ?_⟩
  · rw [length] at inside
    rw [shown p inside]
    rcases Nat.lt_or_ge p file.length with kept | grown
    · rw [Bytes.getElem?_resize_of_lt inside kept]
      refine reflects.present p kept ?_
      split at here
      · exact (SpanSet.mem_erase.mp here).1
      · rcases SpanSet.mem_insert.mp here with added | before
        · rw [Span.mem_iff] at added
          simp only at added
          omega
        · exact before
    · rw [Bytes.getElem?_resize_of_ge inside grown, reflects.blank p grown]
  · rw [length] at inside
    split at gone
    · rename_i shrinks
      have kept : p < file.length := by omega
      rw [Bytes.getElem?_resize_of_lt inside kept]
      refine reflects.missing p kept fun before => gone (SpanSet.mem_erase.mpr ⟨before, ?_⟩)
      rw [Span.mem_iff]
      simp only
      omega
    · simp only [SpanSet.mem_insert, Span.mem_iff, not_or] at gone
      have kept : p < file.length := by omega
      rw [Bytes.getElem?_resize_of_lt inside kept]
      exact reflects.missing p kept gone.2
  · rw [length] at outside
    rw [Content.byteAt_resize, if_neg (by omega)]

/-- Consecutive bytes of the remote file may be laid over the gaps: nobody has changed them. -/
theorem filled {entry : Entry} (reflects : Reflects content entry.populated remote file)
    (consecutive : data <+: remote.drop offset) :
    Reflects (entry.filled content offset data)
      (entry.populated.insert ⟨offset, min content.size (offset + data.length)⟩) remote file := by
  have size := reflects.size
  have painted := fun p => Entry.byteAt_filled entry content offset data p
  have fetched : ∀ p, offset ≤ p → p < offset + data.length → data[p - offset]? = remote[p]? := by
    intro p lower upper
    obtain ⟨rest, split⟩ := consecutive
    have shown : (remote.drop offset)[p - offset]? = data[p - offset]? := by
      rw [← split, List.getElem?_append_left (by omega)]
    rw [← shown, List.getElem?_drop]
    congr 1
    omega
  refine ⟨Entry.size_filled.trans size, fun p inside here => ?_, fun p inside gone => ?_,
    fun p outside => ?_⟩
  · rw [painted p]
    split
    · rename_i arrived
      rw [fetched p arrived.1.1 (by omega)]
      exact reflects.missing p inside arrived.2
    · rename_i untouched
      refine reflects.present p inside ?_
      rcases SpanSet.mem_insert.mp here with arrived | before
      · rw [Span.mem_iff] at arrived
        by_cases known : p ∈ entry.populated
        · exact known
        · exact absurd ⟨arrived, known⟩ untouched
      · exact before
  · refine reflects.missing p inside fun before => gone (SpanSet.mem_insert.mpr (.inr before))
  · have untouched := painted p
    rw [if_neg (by omega)] at untouched
    rw [Option.some.inj untouched]
    exact reflects.blank p outside

theorem read (reflects : Reflects content populated remote file)
    (whole : ∀ p, offset ≤ p → p < offset + count → p < content.size → p ∈ populated) :
    content.read ⟨offset, min content.size (offset + count)⟩ = (file.drop offset).take count := by
  have size := reflects.size
  have width : (content.read ⟨offset, min content.size (offset + count)⟩).length
      = ((file.drop offset).take count).length := by
    simp only [Content.length_read, Span.length, List.length_take, List.length_drop]
    omega
  apply List.ext_getElem?
  intro i
  by_cases inside : i < (content.read ⟨offset, min content.size (offset + count)⟩).length
  · rw [Content.length_read] at inside
    simp only [Span.length] at inside
    rw [Content.getElem?_read (by simpa only [Span.length] using inside),
      List.getElem?_take_of_lt (by omega), List.getElem?_drop]
    exact (reflects.present (offset + i) (by omega)
      (whole (offset + i) (by omega) (by omega) (by omega))).symm
  · rw [List.getElem?_eq_none (by omega), List.getElem?_eq_none (by omega)]

end Reflects

namespace Entry

variable {entry after : Entry} {remote file : Bytes}

/-- The entry reflects the file for as long as it is open. -/
def Mirrors (entry : Entry) (remote file : Bytes) : Prop :=
  ∀ content, entry.content = some content → Reflects content entry.populated remote file

theorem mirrors_of_content {content : Content} (stored : entry.content = some content)
    (reflects : Reflects content entry.populated remote file) : entry.Mirrors remote file := by
  intro shown found
  rw [stored] at found
  cases found
  exact reflects

theorem mirrors_of_closed (closed : entry.content = none) : entry.Mirrors remote file := by
  intro content stored
  rw [closed] at stored
  cases stored

theorem Mirrors.of_sameFile (mirrors : entry.Mirrors remote file) (same : entry.SameFile after) :
    after.Mirrors remote file := by
  intro content stored
  rw [← same.1] at stored
  rw [← same.2]
  exact mirrors content stored

theorem Mirrors.of_create {path : Path} {size : Nat} {modified : Modified}
    (fits : Entry.create path size modified = .ok entry) (long : size ≤ remote.length) :
    entry.Mirrors remote (remote.take size) := by
  obtain ⟨-, rfl⟩ := create_ok fits
  exact mirrors_of_content rfl (.zeros long)

/-- A change that succeeds changes the entry as it changes the flat file. -/
theorem Mirrors.on (mirrors : entry.Mirrors remote file) {change : LocalChange}
    (done : change.on entry = .ok after) : after.Mirrors remote (change.reflected file) := by
  cases change with
  | write offset data =>
      obtain ⟨n, written⟩ := write_of_on done
      obtain ⟨content, stored, -, rfl⟩ := write_ok written
      exact mirrors_of_content rfl ((mirrors content stored).write offset data)
  | truncate size =>
      obtain ⟨content, stored, -, rfl⟩ := truncate_ok done
      exact mirrors_of_content rfl ((mirrors content stored).resize size)

theorem Mirrors.store (mirrors : entry.Mirrors remote file) {offset : Nat} {data : Bytes}
    (consecutive : data <+: remote.drop offset) (done : entry.store offset data = .ok after) :
    after.Mirrors remote file := by
  cases stored : entry.content with
  | none => rw [store_of_closed stored] at done; cases done
  | some content =>
      rw [store_eq stored] at done
      cases done
      exact mirrors_of_content rfl ((mirrors content stored).filled consecutive)

theorem Mirrors.readLocal (mirrors : entry.Mirrors remote file) {offset count : Nat}
    {bytes : Bytes} (whole : ∀ p, offset ≤ p → p < offset + count → ¬ entry.Hole p)
    (shown : entry.readLocal offset count = .ok bytes) :
    bytes = (file.drop offset).take count := by
  cases stored : entry.content with
  | none => simp [Entry.readLocal, content?, stored, bind, Except.bind] at shown
  | some content =>
      simp only [Entry.readLocal, content?, stored, bind, Except.bind] at shown
      cases shown
      refine (mirrors content stored).read fun p lower upper inside => ?_
      have filled := whole p lower upper
      rw [hole_iff_of_content stored] at filled
      exact Decidable.byContradiction fun missing => filled ⟨inside, missing⟩

end Entry

end SparseCache
