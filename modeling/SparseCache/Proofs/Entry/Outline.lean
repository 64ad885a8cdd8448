import SparseCache.Proofs.Entry.FlatFile

namespace SparseCache

/-! What an entry comes to once everything has arrived that was asked for.

The outline of an entry goes by what happens locally alone: what a load wants it takes for fetched
as soon as the load begins.  The entry lags behind its outline by the bytes that are still to come.
-/

/-- What happens to an entry locally: it is made, it is changed, or somebody begins to load a
span of it. -/
inductive LocalEvent
  | made (size : Nat)
  | changed (change : LocalChange)
  | wanted (span : Span)
deriving DecidableEq, Repr

structure Outline where
  file : Bytes
  marks : SpanSet

/-- The marks that a change leaves in a file of `size` bytes. -/
def LocalChange.marked (size : Nat) (marks : SpanSet) : LocalChange → SpanSet
  | .write offset data =>
    (marks.insert ⟨size, offset⟩).insert ⟨offset, offset + data.length⟩
  | .truncate new =>
    if new < size then marks.erase ⟨new, Entry.maxOffset⟩ else marks.insert ⟨size, new⟩

def LocalEvent.on (remote : Bytes) (outline : Outline) : LocalEvent → Outline
  | .made size => ⟨remote.take size, ∅⟩
  | .changed change =>
    ⟨change.reflected outline.file, change.marked outline.file.length outline.marks⟩
  | .wanted span =>
    { outline with marks := outline.marks.insert ⟨span.lo, min outline.file.length span.hi⟩ }

def outlined (remote : Bytes) (events : List LocalEvent) : Outline :=
  events.foldl (LocalEvent.on remote) ⟨[], ∅⟩

theorem outlined_concat (remote : Bytes) (events : List LocalEvent) (event : LocalEvent) :
    outlined remote (events ++ [event]) = event.on remote (outlined remote events) := by
  rw [outlined, List.foldl_append]
  rfl

/-- The offset is marked, if the file reaches that far. -/
def Outline.Settled (outline : Outline) (p : Nat) : Prop :=
  p < outline.file.length → p ∈ outline.marks

namespace Outline

variable {outline : Outline} {remote : Bytes} {span : Span} {p : Nat}

/-- What a change adds to the file it marks. -/
theorem Settled.changed (settled : outline.Settled p) (change : LocalChange) :
    ((LocalEvent.changed change).on remote outline).Settled p := by
  cases change with
  | write offset data =>
      intro inside
      simp only [LocalEvent.on, LocalChange.reflected, LocalChange.marked, SpanSet.mem_insert,
        Span.mem_iff] at inside ⊢
      by_cases empty : data = []
      · rw [empty, Bytes.overlay_nil] at inside
        exact .inr (.inr (settled inside))
      · rw [Bytes.length_overlay _ _ empty] at inside
        by_cases old : p < outline.file.length
        · exact .inr (.inr (settled old))
        · omega
  | truncate size =>
      intro inside
      simp only [LocalEvent.on, LocalChange.reflected, LocalChange.marked,
        Bytes.length_resize] at inside ⊢
      split
      · rename_i shrinks
        refine SpanSet.mem_erase.mpr ⟨settled (Nat.lt_trans inside shrinks), fun cut => ?_⟩
        exact absurd inside (Nat.not_lt_of_le cut.1)
      · by_cases old : p < outline.file.length
        · exact SpanSet.mem_insert.mpr (.inr (settled old))
        · exact SpanSet.mem_insert.mpr (.inl ⟨Nat.le_of_not_lt old, inside⟩)

theorem Settled.wanted (settled : outline.Settled p) (span : Span) :
    ((LocalEvent.wanted span).on remote outline).Settled p :=
  fun inside => SpanSet.mem_insert.mpr (.inr (settled inside))

/-- Only where a file is made anew does anything lose its mark and stay within reach. -/
theorem Settled.append {events : List LocalEvent} (settled : (outlined remote events).Settled p)
    (more : List LocalEvent) (kept : ∀ size, .made size ∉ more) :
    (outlined remote (events ++ more)).Settled p := by
  induction more generalizing events with
  | nil => rwa [List.append_nil]
  | cons event more ih =>
      rw [List.append_cons]
      refine ih ?_ fun size later => kept size (.tail _ later)
      rw [outlined_concat]
      cases event with
      | made size => exact absurd (.head _) (kept size)
      | changed change => exact settled.changed change
      | wanted span => exact settled.wanted span

/-- Whatever a load wants is settled when it begins. -/
theorem settled_of_wanted (lower : span.lo ≤ p) (upper : p < span.hi) :
    ((LocalEvent.wanted span).on remote outline).Settled p := by
  intro inside
  exact SpanSet.mem_insert.mpr (.inl ⟨lower, Nat.lt_min.mpr ⟨inside, upper⟩⟩)

end Outline

/-! ### Lagging behind -/

/-- The content reflects the outline's file; what is populated is marked, and what is marked but
not populated is part of the file and somebody wanted it. -/
structure Tracks (content : Content) (populated : SpanSet) (remote : Bytes)
    (events : List LocalEvent) : Prop where
  reflects : Reflects content populated remote (outlined remote events).file
  marked : ∀ p, p ∈ populated → p ∈ (outlined remote events).marks
  owing : ∀ p, p ∈ (outlined remote events).marks → p ∉ populated →
    p < content.size ∧ ∃ span, .wanted span ∈ events ∧ p ∈ span

namespace Tracks

variable {content : Content} {populated : SpanSet} {remote data : Bytes}
  {events : List LocalEvent} {offset size : Nat} {span : Span}

theorem zeros (long : size ≤ remote.length) (events : List LocalEvent) :
    Tracks (.zeros size) ∅ remote (events ++ [.made size]) := by
  constructor
  · rw [outlined_concat]
    exact .zeros long
  · exact fun p marked => absurd marked SpanSet.not_mem_empty
  · rw [outlined_concat]
    exact fun p marked => absurd marked SpanSet.not_mem_empty

theorem write (tracks : Tracks content populated remote events) (offset : Nat) (data : Bytes) :
    Tracks (content.write offset data)
      ((populated.insert ⟨content.size, offset⟩).insert ⟨offset, offset + data.length⟩) remote
      (events ++ [.changed (.write offset data)]) := by
  have length := tracks.reflects.size
  constructor
  · rw [outlined_concat]
    exact tracks.reflects.write offset data
  · intro p shown
    rw [outlined_concat]
    simp only [LocalEvent.on, LocalChange.marked, SpanSet.mem_insert, ← length] at shown ⊢
    exact shown.imp id (Or.imp id (tracks.marked p))
  · intro p marked missing
    rw [outlined_concat] at marked
    simp only [LocalEvent.on, LocalChange.marked, SpanSet.mem_insert, ← length, not_or]
      at marked missing
    obtain ⟨unwritten, unskipped, missing⟩ := missing
    obtain ⟨inside, span, asked, wanted⟩ :=
      tracks.owing p ((marked.resolve_left unwritten).resolve_left unskipped) missing
    refine ⟨?_, span, List.mem_append_left _ asked, wanted⟩
    by_cases empty : data = []
    · rw [empty, Content.write_nil]
      exact inside
    · rw [Content.size_write empty]
      exact Nat.lt_of_lt_of_le inside (Nat.le_max_left _ _)

theorem resize (tracks : Tracks content populated remote events)
    (small : content.size < lengthLimit) (size : Nat) :
    Tracks (content.resize size)
      (if size < content.size then populated.erase ⟨size, Entry.maxOffset⟩
        else populated.insert ⟨content.size, size⟩) remote
      (events ++ [.changed (.truncate size)]) := by
  have length := tracks.reflects.size
  constructor
  · rw [outlined_concat]
    exact tracks.reflects.resize size
  · intro p shown
    rw [outlined_concat]
    simp only [LocalEvent.on, LocalChange.marked, ← length]
    split at shown
    · rename_i shrinks
      rw [if_pos shrinks]
      obtain ⟨before, kept⟩ := SpanSet.mem_erase.mp shown
      exact SpanSet.mem_erase.mpr ⟨tracks.marked p before, kept⟩
    · rename_i grows
      rw [if_neg grows]
      exact SpanSet.mem_insert.mpr ((SpanSet.mem_insert.mp shown).imp id (tracks.marked p))
  · intro p marked missing
    rw [outlined_concat] at marked
    simp only [LocalEvent.on, LocalChange.marked, ← length] at marked
    rw [Content.size_resize]
    split at marked
    · rename_i shrinks
      rw [if_pos shrinks] at missing
      obtain ⟨before, kept⟩ := SpanSet.mem_erase.mp marked
      obtain ⟨inside, span, asked, wanted⟩ := tracks.owing p before fun shown =>
        missing (SpanSet.mem_erase.mpr ⟨shown, kept⟩)
      refine ⟨?_, span, List.mem_append_left _ asked, wanted⟩
      -- a mark past the new end would have been cut off
      refine Nat.lt_of_not_le fun past => kept ⟨past, ?_⟩
      simp only [lengthLimit, Entry.maxOffset] at small ⊢
      omega
    · rename_i grows
      rw [if_neg grows] at missing
      rw [SpanSet.mem_insert, not_or] at missing
      obtain ⟨inside, span, asked, wanted⟩ :=
        tracks.owing p ((SpanSet.mem_insert.mp marked).resolve_left missing.1) missing.2
      exact ⟨Nat.lt_of_lt_of_le inside (Nat.le_of_not_lt grows), span,
        List.mem_append_left _ asked, wanted⟩

/-- A load that begins puts the outline ahead by what it wants and the entry lacks. -/
theorem wanted (tracks : Tracks content populated remote events) (span : Span) :
    Tracks content populated remote (events ++ [.wanted span]) := by
  have length := tracks.reflects.size
  constructor
  · rw [outlined_concat]
    exact tracks.reflects
  · intro p shown
    rw [outlined_concat]
    exact SpanSet.mem_insert.mpr (.inr (tracks.marked p shown))
  · intro p marked missing
    rw [outlined_concat] at marked
    rcases SpanSet.mem_insert.mp marked with new | before
    · obtain ⟨lower, upper⟩ := new
      obtain ⟨inside, upper⟩ := Nat.lt_min.mp upper
      exact ⟨length ▸ inside, span, List.mem_append_right _ (.head _), lower, upper⟩
    · obtain ⟨inside, other, asked, wanted⟩ := tracks.owing p before missing
      exact ⟨inside, other, List.mem_append_left _ asked, wanted⟩

/-- Bytes that arrive bring the entry closer, as long as they are ones that somebody wanted. -/
theorem filled {entry : Entry} (tracks : Tracks content entry.populated remote events)
    (consecutive : data <+: remote.drop offset)
    (settled : ∀ p, offset ≤ p → p < offset + data.length →
      (outlined remote events).Settled p) :
    Tracks (entry.filled content offset data)
      (entry.populated.insert ⟨offset, min content.size (offset + data.length)⟩) remote
      events := by
  have length := tracks.reflects.size
  constructor
  · exact tracks.reflects.filled consecutive
  · intro p shown
    rcases SpanSet.mem_insert.mp shown with arrived | before
    · obtain ⟨inside, upper⟩ := Nat.lt_min.mp arrived.2
      exact settled p arrived.1 upper (length ▸ inside)
    · exact tracks.marked p before
  · intro p marked missing
    rw [SpanSet.mem_insert, not_or] at missing
    rw [Entry.size_filled]
    exact tracks.owing p marked missing.2

end Tracks

namespace Entry

variable {entry after : Entry} {remote data : Bytes} {events : List LocalEvent} {offset size : Nat}

/-- The entry tracks the outline for as long as it is open. -/
def Follows (entry : Entry) (remote : Bytes) (events : List LocalEvent) : Prop :=
  ∀ content, entry.content = some content → Tracks content entry.populated remote events

theorem follows_of_content {content : Content} (stored : entry.content = some content)
    (tracks : Tracks content entry.populated remote events) : entry.Follows remote events := by
  intro shown found
  rw [stored] at found
  cases found
  exact tracks

theorem follows_of_closed (closed : entry.content = none) : entry.Follows remote events := by
  intro content stored
  rw [closed] at stored
  cases stored

theorem Follows.of_sameFile (follows : entry.Follows remote events) (same : entry.SameFile after) :
    after.Follows remote events := by
  intro content stored
  rw [← same.1] at stored
  rw [← same.2]
  exact follows content stored

theorem Follows.of_create {path : Path} {modified : Modified}
    (fits : Entry.create path size modified = .ok entry) (long : size ≤ remote.length)
    (events : List LocalEvent) : entry.Follows remote (events ++ [.made size]) := by
  obtain ⟨-, rfl⟩ := create_ok fits
  exact follows_of_content rfl (.zeros long events)

/-- A change that succeeds changes the entry as it changes the outline. -/
theorem Follows.on (follows : entry.Follows remote events)
    (small : ∀ content, entry.content = some content → content.size < lengthLimit)
    {change : LocalChange} (done : change.on entry = .ok after) :
    after.Follows remote (events ++ [.changed change]) := by
  cases change with
  | write offset data =>
      obtain ⟨n, written⟩ := write_of_on done
      obtain ⟨content, stored, -, rfl⟩ := write_ok written
      exact follows_of_content rfl ((follows content stored).write offset data)
  | truncate size =>
      obtain ⟨content, stored, -, rfl⟩ := truncate_ok done
      exact follows_of_content rfl ((follows content stored).resize (small content stored) size)

theorem Follows.wanted (follows : entry.Follows remote events) (span : Span) :
    entry.Follows remote (events ++ [.wanted span]) :=
  fun content stored => (follows content stored).wanted span

theorem Follows.store (follows : entry.Follows remote events)
    (consecutive : data <+: remote.drop offset)
    (settled : ∀ p, offset ≤ p → p < offset + data.length →
      (outlined remote events).Settled p)
    (done : entry.store offset data = .ok after) : after.Follows remote events := by
  cases stored : entry.content with
  | none => rw [store_of_closed stored] at done; cases done
  | some content =>
      rw [store_eq stored] at done
      cases done
      exact follows_of_content rfl ((follows content stored).filled consecutive settled)

end Entry

end SparseCache
