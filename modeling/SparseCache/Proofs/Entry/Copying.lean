import SparseCache.Proofs.Entry.Snapshot

namespace SparseCache

/-! Copies in pieces, and what the pieces add up to.

Piece `i` of a copy begins `i` steps into the file, and only the last one is shorter than a step.
So byte `p` of the whole is byte `p % copyStep` of piece `p / copyStep`, at whatever moment that
piece was read.
-/

namespace Bytes

variable {step fuel : Nat} {bytes : Bytes} {chunks : List Bytes}

/-- Chunks of `step` bytes, of which the last may be shorter, and none is empty. -/
structure Chunked (step : Nat) (chunks : List Bytes) : Prop where
  nonempty : ∀ chunk ∈ chunks, chunk ≠ []
  full : ∀ chunk ∈ chunks.dropLast, chunk.length = step
  bounded : ∀ chunk ∈ chunks, chunk.length ≤ step

theorem Chunked.cons (chunked : Chunked step chunks) {chunk : Bytes} (nonempty : chunk ≠ [])
    (bounded : chunk.length ≤ step) (full : chunks ≠ [] → chunk.length = step) :
    Chunked step (chunk :: chunks) where
  nonempty other member := by
    rcases List.mem_cons.mp member with rfl | later
    · exact nonempty
    · exact chunked.nonempty other later
  full other member := by
    cases chunks with
    | nil => cases member
    | cons second rest =>
        rcases List.mem_cons.mp member with rfl | later
        · exact full (List.cons_ne_nil _ _)
        · exact chunked.full other later
  bounded other member := by
    rcases List.mem_cons.mp member with rfl | later
    · exact bounded
    · exact chunked.bounded other later

theorem chunked_chunksOf (positive : 0 < step) (enough : bytes.length ≤ fuel) :
    Chunked step (chunksOf step fuel bytes) := by
  induction fuel generalizing bytes with
  | zero =>
      obtain rfl := List.eq_nil_of_length_eq_zero (Nat.le_zero.mp enough)
      exact ⟨by simp [chunksOf], by simp [chunksOf], by simp [chunksOf]⟩
  | succ fuel ih =>
      cases bytes with
      | nil => exact ⟨by simp [chunksOf], by simp [chunksOf], by simp [chunksOf]⟩
      | cons byte rest =>
          have left : (List.drop step (byte :: rest)).length ≤ fuel := by
            rw [List.length_drop]
            simp only [List.length_cons] at enough ⊢
            omega
          refine (ih left).cons ?_ (List.length_take_le _ _) fun more => ?_
          · rw [← List.length_pos_iff, List.length_take]
            simp only [List.length_cons]
            omega
          · rw [List.length_take]
            refine Nat.min_eq_left (Nat.le_of_lt (Nat.lt_of_not_le fun short => more ?_))
            rw [List.drop_eq_nil_of_le short]
            cases fuel <;> rfl

theorem chunked_chunks (positive : 0 < step) (bytes : Bytes) :
    Chunked step (bytes.chunks step) :=
  chunked_chunksOf positive (Nat.le_refl _)

/-- Where a byte of the whole stands among chunks of which all but the last are full. -/
theorem getElem?_flatten (positive : 0 < step)
    (full : ∀ chunk ∈ chunks.dropLast, chunk.length = step)
    (bounded : ∀ chunk ∈ chunks, chunk.length ≤ step) (p : Nat) :
    chunks.flatten[p]? = chunks[p / step]?.bind (·[p % step]?) := by
  induction chunks generalizing p with
  | nil => simp
  | cons chunk rest ih =>
      have short := bounded chunk List.mem_cons_self
      rcases Nat.lt_or_ge p chunk.length with inside | beyond
      · have first : p < step := Nat.lt_of_lt_of_le inside short
        simp [List.getElem?_append_left inside, Nat.div_eq_of_lt first, Nat.mod_eq_of_lt first]
      · rw [List.flatten_cons, List.getElem?_append_right beyond]
        cases rest with
        | nil =>
            -- Nothing follows, so there is no byte there and no chunk that could have it.
            rcases Nat.lt_or_ge p step with first | later
            · simp [Nat.div_eq_of_lt first, Nat.mod_eq_of_lt first, beyond]
            · have past : p / step ≠ 0 := by
                rw [Nat.ne_zero_iff_zero_lt]
                exact Nat.div_pos later positive
              simp [past]
        | cons next others =>
            have whole : chunk.length = step := full chunk (by simp)
            have skipped : p / step = (p - step) / step + 1 := by
              rw [← Nat.add_div_right _ positive, Nat.sub_add_cancel (whole ▸ beyond)]
            have same : p % step = (p - step) % step := by
              rw [Nat.mod_eq_sub_mod (whole ▸ beyond)]
            rw [whole, ih (fun chunk member => full chunk (by simp [member]))
              (fun chunk member => bounded chunk (List.mem_cons_of_mem _ member)), skipped, same,
              List.getElem?_cons_succ]

end Bytes

theorem copyStep_pos : 0 < copyStep := by decide

/-- Piece `i` of a file of `size` bytes. -/
def pieceOf (size i : Nat) : Span := ⟨i * copyStep, min size ((i + 1) * copyStep)⟩

theorem Content.getElem?_pieceOf (content : Content) {size p : Nat} (inside : p < size) :
    (content.read (pieceOf size (p / copyStep)))[p % copyStep]? = some (content.byteAt p) := by
  have place : p / copyStep * copyStep + p % copyStep = p := by
    rw [Nat.mul_comm]
    exact Nat.div_add_mod p copyStep
  have below := Nat.mod_lt p copyStep_pos
  rw [getElem?_read]
  · simp only [pieceOf, place]
  · simp only [pieceOf, Span.length, Nat.succ_mul]
    omega

namespace Copy

variable {copy after : Copy} {content : Content} {cause : IoError} {p : Nat}

theorem next_ok (done : copy.next content = .ok after) :
    copy.piece.hi ≤ content.size ∧ after = { copy with
      pos := copy.piece.hi, taken := copy.taken ++ [content.read copy.piece] } := by
  unfold next at done
  split at done
  · rename_i enough
    cases done
    exact ⟨enough, rfl⟩
  · cases done

/-- A piece of the copy is there already, or is the one that is read. -/
theorem piece_of_next {i : Nat} {bytes : Bytes} (done : copy.next content = .ok after)
    (found : after.taken[i]? = some bytes) :
    i < copy.taken.length ∧ copy.taken[i]? = some bytes ∨
      i = copy.taken.length ∧ bytes = content.read copy.piece := by
  obtain ⟨-, rfl⟩ := next_ok done
  rcases Nat.lt_or_ge i copy.taken.length with before | last
  · rw [List.getElem?_append_left before] at found
    exact .inl ⟨before, found⟩
  · have inside := (List.getElem?_eq_some_iff.mp found).1
    rw [List.length_append, List.length_singleton] at inside
    obtain rfl : i = copy.taken.length := by omega
    rw [List.getElem?_concat_length] at found
    exact .inr ⟨rfl, (Option.some.inj found).symm⟩

/-- The pieces were taken one after the other, from the start of the file on. -/
structure Cut (copy : Copy) : Prop where
  reached : copy.pos = min copy.size (copy.taken.length * copyStep)
  begun : ∀ i, i < copy.taken.length → i * copyStep < copy.size
  whole : ∀ i bytes, copy.taken[i]? = some bytes → bytes.length = (pieceOf copy.size i).length
  length : copy.taken.flatten.length = copy.pos

theorem cut_begun (size : Nat) : Cut { size } where
  reached := by simp
  begun i inside := absurd inside (Nat.not_lt_zero i)
  whole i bytes found := by cases found
  length := rfl

/-- What is read next is the piece after those that were taken. -/
theorem Cut.piece_eq (cut : copy.Cut) (going : copy.isThrough = false) :
    copy.piece = pieceOf copy.size copy.taken.length := by
  have short : copy.pos < copy.size := by simpa [isThrough] using going
  have reached := cut.reached
  have place : copy.pos = copy.taken.length * copyStep := by omega
  rw [piece, pieceOf, Nat.succ_mul, place]

theorem Cut.next (cut : copy.Cut) (going : copy.isThrough = false)
    (done : copy.next content = .ok after) : after.Cut := by
  have short : copy.pos < copy.size := by simpa [isThrough] using going
  have reached := cut.reached
  have place : copy.pos = copy.taken.length * copyStep := by omega
  have positive := copyStep_pos
  have whole : ∀ i bytes, after.taken[i]? = some bytes →
      bytes.length = (pieceOf copy.size i).length := by
    intro i bytes found
    rcases piece_of_next done found with ⟨-, old⟩ | ⟨rfl, rfl⟩
    · exact cut.whole i bytes old
    · rw [cut.piece_eq going]
      exact Content.length_read
  obtain ⟨-, rfl⟩ := next_ok done
  refine ⟨?_, fun i inside => ?_, whole, ?_⟩
  · simp only [piece, List.length_append, List.length_singleton, Nat.succ_mul, place]
  · simp only [List.length_append, List.length_singleton] at inside
    rcases Nat.lt_or_eq_of_le (Nat.le_of_lt_succ inside) with before | rfl
    · exact cut.begun i before
    · exact place ▸ short
  · rw [List.flatten_append, List.length_append, cut.length]
    simp only [List.flatten_cons, List.flatten_nil, List.append_nil, Content.length_read, piece,
      Span.length]
    omega

theorem Cut.bounded (cut : copy.Cut) : ∀ bytes ∈ copy.taken, bytes.length ≤ copyStep := by
  intro bytes member
  obtain ⟨i, found⟩ := List.mem_iff_getElem?.mp member
  rw [cut.whole i bytes found]
  simp only [pieceOf, Span.length, Nat.succ_mul]
  omega

theorem Cut.full (cut : copy.Cut) :
    ∀ bytes ∈ copy.taken.dropLast, bytes.length = copyStep := by
  intro bytes member
  obtain ⟨i, found⟩ := List.mem_iff_getElem?.mp member
  rw [List.getElem?_dropLast] at found
  split at found
  · rename_i inside
    have more := cut.begun (i + 1) (by omega)
    rw [cut.whole i bytes found]
    simp only [pieceOf, Span.length, Nat.succ_mul] at more ⊢
    omega
  · cases found

/-- Every byte that was copied is from the piece in which it lies. -/
theorem Cut.getElem? (cut : copy.Cut) (p : Nat) :
    copy.taken.flatten[p]? = copy.taken[p / copyStep]?.bind (·[p % copyStep]?) :=
  Bytes.getElem?_flatten copyStep_pos cut.full cut.bounded p

theorem Cut.length_of_through (cut : copy.Cut) (through : copy.isThrough = true) :
    copy.taken.flatten.length = copy.size := by
  have past : copy.size ≤ copy.pos := by simpa [isThrough] using through
  have reached := cut.reached
  rw [cut.length]
  omega

/-- All pieces so far show this content. -/
structure Shows (copy : Copy) (content : Content) : Prop where
  size : copy.size = content.size
  pieces : ∀ i bytes, copy.taken[i]? = some bytes → bytes = content.read (pieceOf copy.size i)

theorem shows_begun (content : Content) : Shows { size := content.size } content :=
  ⟨rfl, fun i bytes found => by cases found⟩

theorem Shows.next (shown : copy.Shows content) (cut : copy.Cut) (going : copy.isThrough = false)
    (done : copy.next content = .ok after) : after.Shows content where
  size := by
    obtain ⟨-, rfl⟩ := next_ok done
    exact shown.size
  pieces i bytes found := by
    have same : after.size = copy.size := by
      obtain ⟨-, rfl⟩ := next_ok done
      rfl
    rw [same]
    rcases piece_of_next done found with ⟨-, old⟩ | ⟨rfl, rfl⟩
    · exact shown.pieces i bytes old
    · rw [cut.piece_eq going]

/-- A copy of a file that nothing disturbed is the file, as one that is made at once. -/
theorem Shows.flatten (shown : copy.Shows content) (cut : copy.Cut)
    (through : copy.isThrough = true) : copy.taken.flatten = content.copied.flatten := by
  rw [Content.flatten_copied]
  have length := (cut.length_of_through through).trans shown.size
  apply List.ext_getElem?
  intro p
  rcases Nat.lt_or_ge p content.size with inside | past
  · rw [Content.getElem?_bytes inside, cut.getElem? p]
    cases found : copy.taken[p / copyStep]? with
    | none =>
        -- There is a byte, so there is a piece.
        have missing := cut.getElem? p
        rw [found, Option.bind_none, List.getElem?_eq_none_iff] at missing
        omega
    | some bytes =>
        rw [Option.bind_some, shown.pieces _ bytes found]
        exact content.getElem?_pieceOf (shown.size ▸ inside)
  · rw [List.getElem?_eq_none (by omega), List.getElem?_eq_none]
    rw [Content.length_bytes]
    exact past

end Copy

end SparseCache
