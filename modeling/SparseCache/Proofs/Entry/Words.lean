import SparseCache.Proofs.Entry.Answers
import SparseCache.Proofs.Entry.Snapshot
import SparseCache.Proofs.SpanSet.Queries
import SparseCache.Word

namespace SparseCache

/-! The operations on an entry, computed in 64-bit words.

Here every sum, difference and cast may have no result, and so may every slice of
a chunk or a buffer.  As long as files stay below the limit for their length all
of them have one, and the operations are the same as on plain numbers.
-/

/-! ### Bytes that arrive -/

namespace Entry

/-- Writes the part of `data`, which starts at `offset`, that falls on `piece`. -/
def fillInWords? (data : Bytes) (offset : Nat) (content : Content) (piece : Span) :
    Option Content := do
  let lo ← Word.fit? (← Word.sub? piece.lo offset)
  let hi ← Word.fit? (← Word.sub? piece.hi offset)
  some (content.write piece.lo (← Word.slice? data lo hi))

def storeInWords? (entry : Entry) (offset : Nat) (data : Bytes) :
    Option (Except EntryError Entry) :=
  match entry.content with
  | none => some (.error .closed)
  | some content => do
    let stop ← Word.add? offset (← Word.fit? data.length)
    let arrived : Span := ⟨offset, min content.size stop⟩
    if arrived.isEmpty then some (.ok entry)
    else do
      let filled ← (entry.populated.gaps arrived).foldlM (fillInWords? data offset) content
      some (.ok { entry with content := some filled, populated := entry.populated.insert arrived })

variable {entry : Entry} {content : Content} {data : Bytes} {offset count : Nat} {piece : Span}

theorem foldlM_of_some {α β : Type} {turn? : β → α → Option β} {turn : β → α → β} {list : List α}
    (each : ∀ a ∈ list, ∀ b, turn? b a = some (turn b a)) (b : β) :
    list.foldlM turn? b = some (list.foldl turn b) := by
  induction list generalizing b with
  | nil => rfl
  | cons a list ih =>
      rw [List.foldlM_cons, each a (.head _), Option.bind_eq_bind, Option.bind_some,
        ih fun other later => each other (.tail _ later), List.foldl_cons]

theorem fillInWords?_eq (fits : offset + data.length ≤ Word.largest) (reached : offset ≤ piece.lo)
    (ascends : piece.lo ≤ piece.hi) (within : piece.hi ≤ offset + data.length) :
    fillInWords? data offset content piece
      = some (content.write piece.lo (sliceAt data offset piece)) := by
  have lower : Word.sub? piece.lo offset = some (piece.lo - offset) := Word.sub?_of_le reached
  have upper : Word.sub? piece.hi offset = some (piece.hi - offset) :=
    Word.sub?_of_le (Nat.le_trans reached ascends)
  have lower_fits : Word.fit? (piece.lo - offset) = some (piece.lo - offset) :=
    Word.fit?_of_le (by omega)
  have upper_fits : Word.fit? (piece.hi - offset) = some (piece.hi - offset) :=
    Word.fit?_of_le (by omega)
  have width : piece.hi - offset - (piece.lo - offset) = piece.length := by
    simp only [Span.length]
    omega
  have slice : Word.slice? data (piece.lo - offset) (piece.hi - offset)
      = some (sliceAt data offset piece) := by
    rw [Word.slice?_of_le (by omega) (by omega), List.drop_take, width, sliceAt]
  simp only [fillInWords?, lower, upper, lower_fits, upper_fits, slice, Option.bind_eq_bind,
    Option.bind_some]

theorem foldlM_fillInWords? (fits : offset + data.length ≤ Word.largest) :
    (entry.populated.gaps ⟨offset, min content.size (offset + data.length)⟩).foldlM
        (fillInWords? data offset) content
      = some (entry.filled content offset data) := by
  refine foldlM_of_some (fun piece found content => ?_) content
  obtain ⟨reached, nonempty, within, -⟩ := bounds_of_arrived found
  exact fillInWords?_eq fits reached (Nat.le_of_lt nonempty) within

theorem storeInWords?_eq (fits : offset + data.length ≤ Word.largest) :
    entry.storeInWords? offset data = some (entry.store offset data) := by
  cases stored : entry.content with
  | none => rw [store_of_closed stored]; simp only [storeInWords?, stored]
  | some content =>
      have length : Word.fit? data.length = some data.length := Word.fit?_of_le (by omega)
      have stop : Word.add? offset data.length = some (offset + data.length) :=
        Word.add?_of_le fits
      rw [store_eq stored]
      simp only [storeInWords?, stored, length, stop, Option.bind_eq_bind, Option.bind_some]
      split
      · rename_i vacuous
        have nothing := Span.isEmpty_iff.mp vacuous
        have full : entry.populated.gaps ⟨offset, min content.size (offset + data.length)⟩ = [] :=
          SpanSet.gaps_eq_nil_iff.mpr fun p inside => by
            rw [Span.mem_iff] at inside
            omega
        rw [filled, full, List.foldl_nil, SpanSet.insert_of_empty nothing, ← stored]
      · rw [foldlM_fillInWords? fits, Option.bind_some]

end Entry

namespace Fetch

/-- The arguments of the read call. -/
def callInWords? (fetch : Fetch) : Option (Nat × Nat) := do
  some (fetch.gap.lo, ← Word.sub? fetch.gap.hi fetch.gap.lo)

def receiveInWords? (fetch : Fetch) (entry : Entry) : Reply → Option (Fetch × Entry)
  | .chunk data => do
    let length ← Word.sub? fetch.gap.hi fetch.gap.lo
    let remaining ← Word.fit? (← Word.sub? length fetch.received)
    let fitting ← Word.slice? data 0 (min remaining data.length)
    let place ← Word.add? fetch.gap.lo fetch.received
    match ← entry.storeInWords? place fitting with
    | .error error => some ({ fetch with state := .failed error }, entry)
    | .ok stored => do
      let received ← Word.add? fetch.received (← Word.fit? fitting.length)
      if received < length then some ({ fetch with received }, stored)
      else some ({ fetch with received, state := .finished }, stored)
  | reply => some (fetch.receive entry reply)

/-- The gap is one of a file that can be kept, and no more of it has come than there is. -/
structure InFile (fetch : Fetch) : Prop where
  ascends : fetch.gap.lo ≤ fetch.gap.hi
  below : fetch.gap.hi < lengthLimit
  received : fetch.received ≤ fetch.gap.length

variable {fetch : Fetch} {entry : Entry}

theorem InFile.callInWords?_eq (inFile : fetch.InFile) :
    fetch.callInWords? = some (fetch.gap.lo, fetch.gap.length) := by
  rw [callInWords?, Word.sub?_of_le inFile.ascends]
  rfl

theorem InFile.receiveInWords?_eq (inFile : fetch.InFile) (entry : Entry) (reply : Reply) :
    fetch.receiveInWords? entry reply = some (fetch.receive entry reply) := by
  obtain ⟨ascends, below, received_le⟩ := inFile
  cases reply with
  | chunk data =>
      have length : Word.sub? fetch.gap.hi fetch.gap.lo = some fetch.gap.length :=
        Word.sub?_of_le ascends
      have remaining : Word.sub? fetch.gap.length fetch.received
          = some (fetch.gap.length - fetch.received) := Word.sub?_of_le received_le
      have slice : Word.slice? data 0 (min (fetch.gap.length - fetch.received) data.length)
          = some (data.take (fetch.gap.length - fetch.received)) := by
        rw [Word.slice?_of_le (Nat.zero_le _) (Nat.min_le_right _ _), List.drop_zero,
          ← List.take_eq_take_min]
      have fitting := List.length_take_le (fetch.gap.length - fetch.received) data
      simp only [receive]
      generalize data.take (fetch.gap.length - fetch.received) = taken at slice fitting ⊢
      simp only [Span.length, lengthLimit] at below received_le fitting
      have remaining_fits : Word.fit? (fetch.gap.length - fetch.received)
          = some (fetch.gap.length - fetch.received) :=
        Word.fit?_of_le (by simp only [Span.length, Word.largest]; omega)
      have place : Word.add? fetch.gap.lo fetch.received
          = some (fetch.gap.lo + fetch.received) :=
        Word.add?_of_le (by simp only [Word.largest]; omega)
      have stored : entry.storeInWords? (fetch.gap.lo + fetch.received) taken
          = some (entry.store (fetch.gap.lo + fetch.received) taken) :=
        Entry.storeInWords?_eq (by simp only [Word.largest]; omega)
      have width : Word.fit? taken.length = some taken.length :=
        Word.fit?_of_le (by simp only [Word.largest]; omega)
      have received : Word.add? fetch.received taken.length
          = some (fetch.received + taken.length) :=
        Word.add?_of_le (by simp only [Word.largest]; omega)
      simp only [receiveInWords?, length, remaining, remaining_fits, slice, place, stored, width,
        received, Option.bind_eq_bind, Option.bind_some]
      cases entry.store (fetch.gap.lo + fetch.received) taken with
      | error error => rfl
      | ok stored =>
          simp only
          split <;> rfl
  | _ => rfl

theorem InFile.receive (inFile : fetch.InFile) (entry : Entry) (reply : Reply) :
    (fetch.receive entry reply).1.InFile := by
  obtain ⟨ascends, below, received_le⟩ := inFile
  refine ⟨by rwa [gap_receive], by rwa [gap_receive], ?_⟩
  rw [gap_receive]
  cases reply with
  | chunk data =>
      cases stored : entry.content with
      | none => simpa only [Fetch.receive, Entry.store_of_closed stored] using received_le
      | some content =>
          rw [receive_chunk stored]
          simp only
          omega
  | _ => exact received_le

end Fetch

namespace Load

/-- Every fetch of the load keeps to a file that can be kept. -/
def InFile (load : Load) : Prop := ∀ fetch ∈ load.fetches, fetch.InFile

/-- `Load.start`, with the end of what is wanted summed up in words. -/
def startInWords (entry : Entry) (offset count : Nat) : Except EntryError Load :=
  match entry.content with
  | none => .error .closed
  | some content =>
    if content.size < offset then .error (.pastEnd offset content.size)
    else
      let wanted : Span := ⟨offset, min content.size (Word.addCapped offset count)⟩
      .ok ⟨entry.path, (entry.populated.gaps wanted).map fun gap => { gap }⟩

variable {load : Load} {entry : Entry} {content : Content} {offset count i : Nat}

theorem startInWords_eq (small : ∀ content, entry.content = some content →
    content.size < lengthLimit) (offset count : Nat) :
    startInWords entry offset count = start entry offset count := by
  cases stored : entry.content with
  | none =>
      simp only [startInWords, start, Entry.missing, Entry.content?, stored, bind, Except.bind,
        Except.map]
  | some content =>
      have word : content.size ≤ Word.largest := by
        have below := small content stored
        simp only [lengthLimit, Word.largest] at below ⊢
        omega
      simp only [start_eq stored, startInWords, stored, Word.min_addCapped word]

theorem inFile_start (small : ∀ content, entry.content = some content →
    content.size < lengthLimit) (started : start entry offset count = .ok load) : load.InFile := by
  obtain ⟨content, stored, -, rfl⟩ := start_ok started
  have below := small content stored
  intro fetch planned
  obtain ⟨gap, found, rfl⟩ := List.mem_map.mp planned
  obtain ⟨-, nonempty, within⟩ := SpanSet.bounds_of_mem_gaps found
  simp only at within
  exact ⟨Nat.le_of_lt nonempty, by simp only; omega, Nat.zero_le _⟩

theorem InFile.ask (inFile : load.InFile) (i : Nat) (call : CallId) : (load.ask i call).InFile := by
  intro fetch member
  obtain ⟨j, position⟩ := List.mem_iff_getElem?.mp member
  simp only [Load.ask, List.getElem?_modify, Option.map_eq_map, Option.map_eq_some_iff] at position
  obtain ⟨old, present, changed⟩ := position
  obtain ⟨ascends, below, received⟩ := inFile old (List.mem_of_getElem? present)
  split at changed <;> subst changed <;> exact ⟨ascends, below, received⟩

end Load

/-! ### Local reads and writes -/

/-- The bytes of `count` offsets from `offset` on, which all have to be there. -/
def Content.readExact? (content : Content) (offset count : Nat) : Option Bytes :=
  if count = 0 ∨ offset + count ≤ content.size then some (content.read ⟨offset, offset + count⟩)
  else none

theorem Content.readExact?_eq {content : Content} {lo hi : Nat} (inside : hi ≤ content.size) :
    content.readExact? lo (hi - lo) = some (content.read ⟨lo, hi⟩) := by
  have width : lo + (hi - lo) - lo = hi - lo := by omega
  rw [Content.readExact?, if_pos (by omega)]
  simp only [Content.read, Span.length, width]

namespace Entry

def readInWords? (entry : Entry) (offset count : Nat) : Option (Except EntryError Bytes) :=
  match entry.content with
  | none => some (.error .closed)
  | some content => do
    let stop := min content.size (Word.addCapped offset count)
    let bytes ← content.readExact? offset (← Word.fit? (stop - offset))
    some (.ok bytes)

/-- Whether there is room for the bytes is for the file to say. -/
def writeInWords? (entry : Entry) (offset : Nat) (data : Bytes) :
    Option (Except EntryError (Nat × Entry)) :=
  match entry.content with
  | none => some (.error .closed)
  | some content =>
    if data.isEmpty ∨ offset + data.length < lengthLimit then do
      let populated :=
        if content.size < offset then entry.populated.insert ⟨content.size, offset⟩
        else entry.populated
      let stop ← Word.add? offset (← Word.fit? data.length)
      let changed := { entry with
        content := some (content.write offset data)
        populated := populated.insert ⟨offset, stop⟩ }
      some (.ok (data.length, changed.touch))
    else some (.error (.io (.system SystemError.invalidArgument)))

variable {entry : Entry} {content : Content} {data : Bytes} {offset : Nat}

theorem readInWords?_eq (small : ∀ content, entry.content = some content →
    content.size < lengthLimit) (offset count : Nat) :
    entry.readInWords? offset count = some (entry.readLocal offset count) := by
  cases stored : entry.content with
  | none => simp only [readInWords?, readLocal, content?, stored, bind, Except.bind]
  | some content =>
      have below := small content stored
      simp only [lengthLimit] at below
      have word : content.size ≤ Word.largest := by
        simp only [Word.largest]
        omega
      have wanted : Word.fit? (min content.size (offset + count) - offset)
          = some (min content.size (offset + count) - offset) :=
        Word.fit?_of_le (by omega)
      simp only [readInWords?, readLocal, content?, stored, Word.min_addCapped word, wanted,
        Content.readExact?_eq (Nat.min_le_left _ _), Option.bind_eq_bind, Option.bind_some]
      rfl

theorem writeInWords?_eq (reach : offset ≤ Word.largest) (data : Bytes) :
    entry.writeInWords? offset data = some (entry.write offset data) := by
  cases stored : entry.content with
  | none => rw [write_of_closed stored]; simp only [writeInWords?, stored]
  | some content =>
      simp only [writeInWords?, write, content?, stored, bind, Except.bind]
      split
      · rename_i fits
        have ends : offset + data.length ≤ Word.largest := by
          rcases fits with empty | room
          · rw [List.isEmpty_iff.mp empty]
            exact reach
          · simp only [lengthLimit, Word.largest] at room ⊢
            omega
        have length : Word.fit? data.length = some data.length := Word.fit?_of_le (by omega)
        have stop : Word.add? offset data.length = some (offset + data.length) :=
          Word.add?_of_le ends
        have skipped : (if content.size < offset then entry.populated.insert ⟨content.size, offset⟩
            else entry.populated) = entry.populated.insert ⟨content.size, offset⟩ := by
          split
          · rfl
          · exact (SpanSet.insert_of_empty (Nat.le_of_not_lt ‹_›)).symm
        simp only [length, stop, skipped, Option.bind_some]
      · rfl

end Entry

/-! ### Copies -/

namespace Span

variable {lo hi step : Nat}

theorem pieces_of_empty (positive : 0 < step) (vacuous : hi ≤ lo) :
    (⟨lo, hi⟩ : Span).pieces step = [] := by
  have nothing : (hi - lo + step - 1) / step = 0 := Nat.div_eq_of_lt (by omega)
  simp only [pieces, length, nothing, List.range_zero, List.map_nil]

/-- The first piece, and the pieces of what it leaves. -/
theorem pieces_of_lt (positive : 0 < step) (nonempty : lo < hi) :
    (⟨lo, hi⟩ : Span).pieces step
      = ⟨lo, min hi (lo + step)⟩ :: (⟨min hi (lo + step), hi⟩ : Span).pieces step := by
  rcases Nat.le_total (lo + step) hi with full | short
  · have count : (hi - lo + step - 1) / step = (hi - (lo + step) + step - 1) / step + 1 := by
      rw [← Nat.add_div_right _ positive]
      congr 1
      omega
    rw [Nat.min_eq_right full]
    simp only [pieces, length, count, List.range_succ_eq_map, List.map_cons, List.map_map,
      Nat.zero_mul, Nat.add_zero, Nat.zero_add, Nat.one_mul, Nat.min_eq_right full]
    refine congrArg _ (List.map_congr_left fun i _ => ?_)
    simp only [Function.comp_apply, Nat.succ_eq_add_one, Nat.add_mul, Nat.one_mul, mk.injEq]
    constructor
    · omega
    · congr 1
      omega
  · have single : (hi - lo + step - 1) / step = 1 :=
      Nat.div_eq_of_lt_le (by omega) (by omega)
    rw [Nat.min_eq_left short, pieces_of_empty positive (Nat.le_refl hi)]
    simp only [pieces, length, single, List.range_one, List.map_cons, List.map_nil, Nat.zero_mul,
      Nat.add_zero, Nat.zero_add, Nat.one_mul, Nat.min_eq_left short]

end Span

namespace Content

/-- How many bytes of a file of `size` the copying loop wants at `pos`: so long is its buffer. -/
def copyWidth? (size pos : Nat) : Option Nat := do
  let left ← Word.fit? (← Word.sub? size pos)
  let buffer ← Word.slice? (List.replicate copyStep 0) 0 (min left copyStep)
  Word.fit? buffer.length

/-- One turn of the copying loop at `pos`: the bytes it reads into its buffer, and where the next
one goes on. -/
def copyTurn? (content : Content) (pos : Nat) : Option (Bytes × Nat) := do
  let width ← copyWidth? content.size pos
  let piece ← content.readExact? pos width
  some (piece, ← Word.add? pos width)

/-- The turns of the copying loop from `pos` on.  Each has to make headway. -/
def copyFrom? (content : Content) (pos : Nat) : Option (List Bytes) :=
  if content.size ≤ pos then some []
  else match content.copyTurn? pos with
    | none => none
    | some (piece, next) =>
      if pos < next then (content.copyFrom? next).map (piece :: ·) else none
termination_by content.size - pos

variable {content : Content} {pos : Nat}

theorem copyWidth?_eq {size : Nat} (small : size ≤ Word.largest) (more : pos < size) :
    copyWidth? size pos = some (min size (pos + copyStep) - pos) := by
  have left : Word.sub? size pos = some (size - pos) := Word.sub?_of_le (Nat.le_of_lt more)
  have left_fits : Word.fit? (size - pos) = some (size - pos) := Word.fit?_of_le (by omega)
  have width : min size (pos + copyStep) - pos = min (size - pos) copyStep := by
    omega
  have buffer : Word.slice? (List.replicate copyStep 0) 0 (min (size - pos) copyStep)
      = some (List.replicate (min size (pos + copyStep) - pos) 0) := by
    rw [Word.slice?_of_le (Nat.zero_le _) (by simp only [List.length_replicate]; omega),
      List.drop_zero, List.take_replicate, width]
    congr 2
    omega
  have width_fits : Word.fit? (min size (pos + copyStep) - pos)
      = some (min size (pos + copyStep) - pos) := Word.fit?_of_le (by omega)
  simp only [copyWidth?, left, left_fits, buffer, List.length_replicate, width_fits,
    Option.bind_eq_bind, Option.bind_some]

theorem add?_width {size : Nat} (small : size ≤ Word.largest) (more : pos < size) :
    Word.add? pos (min size (pos + copyStep) - pos) = some (min size (pos + copyStep)) := by
  rw [Word.add?_of_le (by omega)]
  congr 1
  omega

theorem copyTurn?_eq (small : content.size ≤ Word.largest) (more : pos < content.size) :
    content.copyTurn? pos
      = some (content.read ⟨pos, min content.size (pos + copyStep)⟩,
        min content.size (pos + copyStep)) := by
  simp only [copyTurn?, copyWidth?_eq small more, add?_width small more,
    readExact?_eq (Nat.min_le_left _ _), Option.bind_eq_bind, Option.bind_some]

theorem copyFrom?_eq (small : content.size ≤ Word.largest) (pos : Nat) :
    content.copyFrom? pos
      = some (((⟨pos, content.size⟩ : Span).pieces copyStep).map content.read) := by
  have positive : 0 < copyStep := by decide
  induction pos using copyFrom?.induct content with
  | case1 pos ended =>
      rw [copyFrom?, if_pos ended, Span.pieces_of_empty positive ended, List.map_nil]
  | case2 pos more stuck =>
      rw [copyTurn?_eq small (Nat.lt_of_not_le more)] at stuck
      cases stuck
  | case3 pos more piece next taken headway ih =>
      rw [copyFrom?, if_neg more, taken]
      rw [copyTurn?_eq small (Nat.lt_of_not_le more)] at taken
      cases taken
      rw [Span.pieces_of_lt positive (Nat.lt_of_not_le more), List.map_cons]
      simp only [if_pos headway, ih, Option.map_some]
  | case4 pos more piece next taken stays =>
      rw [copyTurn?_eq small (Nat.lt_of_not_le more)] at taken
      cases taken
      omega

end Content

namespace Copy

variable {copy : Copy}

/-- One turn of a copy whose file may have changed since it began. -/
def nextInWords? (copy : Copy) (content : Content) : Option (Except IoError Copy) := do
  let width ← Content.copyWidth? copy.size copy.pos
  match content.readExact? copy.pos width with
  | none => some (.error .fileTooShort)
  | some piece =>
    let pos ← Word.add? copy.pos width
    some (.ok { copy with pos, taken := copy.taken ++ [piece] })

theorem nextInWords?_eq (small : copy.size ≤ Word.largest) (going : copy.isThrough = false)
    (content : Content) : copy.nextInWords? content = some (copy.next content) := by
  have more : copy.pos < copy.size := by simpa [isThrough] using going
  have positive : 0 < copyStep := by decide
  simp only [nextInWords?, Content.copyWidth?_eq small more, Content.add?_width small more,
    Option.bind_eq_bind, Option.bind_some, next, piece]
  by_cases inside : min copy.size (copy.pos + copyStep) ≤ content.size
  · simp only [Content.readExact?_eq inside, inside, if_true]
  · have short : ¬ (min copy.size (copy.pos + copyStep) - copy.pos = 0 ∨
        copy.pos + (min copy.size (copy.pos + copyStep) - copy.pos) ≤ content.size) := by
      omega
    simp only [Content.readExact?, short, inside, if_false]

end Copy

end SparseCache
