import Mathlib
import SparseCache.Proofs.Cache.Arrival
import SparseCache.Proofs.Cache.Loads

namespace SparseCache

/-! What loading leaves as it is.

A load may stop anywhere and others may be under way at the same time, but all that any of its steps
can do to an entry is to take an answer in, and an answer fills only what is still lacking of the
gap that was asked for.
-/

/-- The change decides what the byte at `p` is, or takes it away. -/
def LocalChange.Touches (p : Nat) : LocalChange → Prop
  | .write offset data => offset ≤ p ∧ p < offset + data.length
  | .truncate size => size ≤ p

namespace Entry

variable {entry before middle after : Entry} {content : Content} {gained : Nat → Prop}
  {offset p : Nat} {data : Bytes} {byte : UInt8}

/-- Nothing of the entry is different but that it has gained some of the bytes that it lacked. -/
structure Gains (gained : Nat → Prop) (before after : Entry) : Prop where
  path : after.path = before.path
  handles : after.handles = before.handles
  epoch : after.epoch = before.epoch
  version : after.version = before.version
  clean : after.clean = before.clean
  modified : after.modified = before.modified
  size : after.content.map Content.size = before.content.map Content.size
  populated : ∀ p ∈ before.populated, p ∈ after.populated
  bytes : ∀ p ∈ before.populated,
    after.content.map (·.byteAt p) = before.content.map (·.byteAt p)
  only : ∀ p ∈ after.populated, p ∈ before.populated ∨ gained p

/-- The byte at `p` is local. -/
def Holds (entry : Entry) (p : Nat) (byte : UInt8) : Prop :=
  p ∈ entry.populated ∧
    ∃ content, entry.content = some content ∧ p < content.size ∧ content.byteAt p = byte

namespace Gains

theorem refl (gained : Nat → Prop) (entry : Entry) : Gains gained entry entry :=
  ⟨rfl, rfl, rfl, rfl, rfl, rfl, rfl, fun _ => id, fun _ _ => rfl, fun _ => .inl⟩

theorem trans (first : Gains gained before middle) (second : Gains gained middle after) :
    Gains gained before after where
  path := second.path.trans first.path
  handles := second.handles.trans first.handles
  epoch := second.epoch.trans first.epoch
  version := second.version.trans first.version
  clean := second.clean.trans first.clean
  modified := second.modified.trans first.modified
  size := second.size.trans first.size
  populated p old := second.populated p (first.populated p old)
  bytes p old := (second.bytes p (first.populated p old)).trans (first.bytes p old)
  only p new := (second.only p new).elim (first.only p) .inr

theorem mono {more : Nat → Prop} (gains : Gains gained before after)
    (wider : ∀ p, gained p → more p) : Gains more before after :=
  { gains with only := fun p new => (gains.only p new).imp_right (wider p) }

/-- Where two chunks overlap the one that comes second is of no effect. -/
theorem of_store (done : entry.store offset data = .ok after) :
    Gains (fun p => offset ≤ p ∧ p < offset + data.length) entry after := by
  cases stored : entry.content with
  | none =>
      rw [store_of_closed stored] at done
      cases done
  | some content =>
      rw [store_eq stored] at done
      cases done
      refine ⟨rfl, rfl, rfl, rfl, rfl, rfl, ?_, fun p old => ?_, fun p old => ?_, fun p new => ?_⟩
      · rw [stored, Option.map_some, Option.map_some, size_filled]
      · exact SpanSet.mem_insert.mpr (.inr old)
      · have kept := byteAt_filled entry content offset data p
        rw [if_neg fun lacking => lacking.2 old] at kept
        rw [stored]
        exact kept
      · rcases SpanSet.mem_insert.mp new with ⟨lower, upper⟩ | old
        · exact .inr ⟨lower, Nat.lt_of_lt_of_le upper (Nat.min_le_right _ _)⟩
        · exact .inl old

theorem of_receive (load : Load) (i : Nat) (entry : Entry) (reply : Reply) :
    Gains (fun p => ∃ fetch call, load.fetches[i]? = some fetch ∧ fetch.state = .asked call ∧
      p ∈ fetch.gap) entry (load.receive i entry reply).2 := by
  rcases Load.receive_cases load i entry reply with lost | ⟨fetch, call, found, asked, -⟩
  · rw [lost]
    exact .refl _ _
  · rcases Load.receive_stores load i entry reply with same | ⟨other, data, next, found', -, done,
      same⟩
    · rw [same]
      exact .refl _ _
    · rw [found] at found'
      cases found'
      rw [same]
      refine (of_store done).mono fun p arrived => ⟨fetch, call, found, asked, ?_⟩
      have short := List.length_take_le (fetch.gap.length - fetch.received) data
      rw [Span.mem_iff]
      simp only [Span.length] at arrived short
      omega

end Gains

/-- A closed entry refuses every change. -/
theorem on_of_closed {change : LocalChange} (closed : entry.content = none) :
    change.on entry = .error .closed := by
  cases change with
  | write offset data => simp [LocalChange.on, write_of_closed closed, Except.map]
  | truncate size => exact truncate_of_closed closed

namespace Holds

theorem of_sameFile (holds : before.Holds p byte) (same : before.SameFile after) :
    after.Holds p byte := by
  rw [Holds, ← same.1, ← same.2]
  exact holds

theorem of_gains (holds : before.Holds p byte) (gains : Gains gained before after) :
    after.Holds p byte := by
  obtain ⟨old, content, stored, inside, shown⟩ := holds
  have size := gains.size
  have kept := gains.bytes p old
  rw [stored] at size kept
  obtain ⟨next, stored', size⟩ := Option.map_eq_some_iff.mp size
  rw [stored'] at kept
  exact ⟨gains.populated p old, next, stored', size ▸ inside, (Option.some.inj kept).trans shown⟩

theorem on {change : LocalChange} (holds : before.Holds p byte)
    (spared : ¬ change.Touches p) (done : change.on before = .ok after) : after.Holds p byte := by
  obtain ⟨old, content, stored, inside, shown⟩ := holds
  cases change with
  | write offset data =>
      obtain ⟨n, written⟩ := write_of_on done
      obtain ⟨_, stored', -, rfl⟩ := write_ok written
      rw [stored] at stored'
      cases stored'
      simp only [LocalChange.Touches] at spared
      have grown : content.size ≤ (content.write offset data).size := by
        by_cases empty : data = []
        · rw [empty, Content.write_nil]
        · rw [Content.size_write empty]
          exact Nat.le_max_left _ _
      have kept : p ∈ (before.populated.insert ⟨content.size, offset⟩).insert
          ⟨offset, offset + data.length⟩ :=
        SpanSet.mem_insert.mpr (.inr (SpanSet.mem_insert.mpr (.inr old)))
      refine ⟨kept, _, rfl, Nat.lt_of_lt_of_le inside grown, ?_⟩
      rw [Content.byteAt_write_of_not_mem (by omega), shown]
  | truncate size =>
      obtain ⟨_, stored', -, rfl⟩ := truncate_ok done
      rw [stored] at stored'
      cases stored'
      have below : p < size := Nat.lt_of_not_le spared
      have kept : p ∈ (if size < content.size then before.populated.erase ⟨size, maxOffset⟩
          else before.populated.insert ⟨content.size, size⟩) := by
        split
        · exact SpanSet.mem_erase.mpr ⟨old, fun cut => absurd cut.1 (Nat.not_le_of_lt below)⟩
        · exact SpanSet.mem_insert.mpr (.inr old)
      refine ⟨kept, _, rfl, by rwa [Content.size_resize], ?_⟩
      rw [Content.byteAt_resize, if_pos below, shown]

end Holds

end Entry

namespace Cache

variable {cache start : Cache} {id : EntryId} {task : TaskId} {work : Work} {load : Load}
  {entry before after : Entry} {step : Step} {steps : Nat → Step} {gap : Span} {fetch : Fetch}
  {byte : UInt8} {i m n p : Nat}

/-- A piece of work that loads or reads are made of.  Timers are not: they evict. -/
def Step.Loads (cache : Cache) : Step → Prop
  | .transfer .. | .giveUp _ | .act (.request ..) | .act (.deliver ..) | .act (.tick _) => True
  | .act (.advance task) =>
    ∀ entry epoch due, cache.doing? task ≠ some (.grace entry epoch due)
  | _ => False

/-- The gap was one that the file at the path lacked of the span, some time before step `n`. -/
inductive Lacked (start : Cache) (steps : Nat → Step) (id : EntryId) (n : Nat) (path : Path)
    (span gap : Span) : Prop
  | since {k : Nat} {entry : Entry} {content : Content} (earlier : k < n)
      (found : Cache.entry? (start.after steps k) id = some entry) (place : entry.path = path)
      (stored : entry.content = some content)
      (longest : entry.populated.LongestGap ⟨span.lo, min content.size span.hi⟩ gap)

/-- Step `n` brings an answer for a gap of the entry with the byte at `p`: a gap that was lacking
when a load began, and for which the task had made a read call. -/
inductive Brings (start : Cache) (steps : Nat → Step) (id : EntryId) (n p : Nat) : Prop
  | intro {task : TaskId} {i : Nat} {reply : Reply} {work : Work} {load : Load} {fetch : Fetch}
      (brings : steps n = .act (.deliver task i reply))
      (loading : (start.after steps n).loadOf? task = some (work, id, load))
      (position : load.fetches[i]? = some fetch) (inside : p ∈ fetch.gap)
      (lacked : Lacked start steps id n load.path work.wanted fetch.gap)
      (called : .readingOf load.path fetch.gap ∈ recorded start steps task n)

/-- The load fetches what was lacking when it began, and waits for what its task has called for. -/
structure Justified (start : Cache) (steps : Nat → Step) (task : TaskId) (id : EntryId) (n : Nat)
    (span : Span) (load : Load) : Prop where
  lacked : ∀ fetch ∈ load.fetches, Lacked start steps id n load.path span fetch.gap
  called : ∀ fetch ∈ load.fetches, fetch.state ≠ .planned →
    .readingOf load.path fetch.gap ∈ recorded start steps task n

/-! ### What loads have called for -/

theorem Lacked.later {path : Path} {span : Span} (lacked : Lacked start steps id n path span gap) :
    Lacked start steps id (n + 1) path span gap := by
  obtain ⟨earlier, found, place, stored, longest⟩ := lacked
  exact .since (Nat.lt_succ_of_lt earlier) found place stored longest

theorem recorded_later {event : Event} (told : event ∈ recorded start steps task n) :
    event ∈ recorded start steps task (n + 1) := by
  rw [recorded_succ]
  exact List.mem_append_left _ told

theorem lacked_of_start {offset count : Nat}
    (found : Cache.entry? (start.after steps n) id = some entry)
    (started : Load.start entry offset count = .ok load) (planned : fetch ∈ load.fetches) :
    Lacked start steps id (n + 1) load.path ⟨offset, offset + count⟩ fetch.gap := by
  obtain ⟨content, stored, -, rfl⟩ := Load.start_ok started
  obtain ⟨gap, member, rfl⟩ := List.mem_map.mp planned
  exact .since (Nat.lt_succ_self n) found rfl stored (SpanSet.longestGap_of_mem_gaps member)

theorem records_request (doing : cache.doing? task = some work)
    (waits : work.load? = some (id, load)) (position : load.fetches[i]? = some fetch)
    (planned : fetch.state = .planned) :
    (Step.act (.request task i)).records cache task = [.readingOf load.path fetch.gap] := by
  obtain ⟨own, loading⟩ := loadOf?_of_doing? doing waits
  obtain ⟨gap, received, state⟩ := fetch
  cases planned
  refine records_of_events rfl ?_
  simp only [Cache.step, act, request, loading, position]
  rfl

namespace Justified

variable {span : Span}

theorem later (justified : Justified start steps task id n span load) :
    Justified start steps task id (n + 1) span load :=
  ⟨fun fetch member => (justified.lacked fetch member).later,
    fun fetch member begun => recorded_later (justified.called fetch member begun)⟩

theorem of_start {offset count : Nat}
    (found : Cache.entry? (start.after steps n) id = some entry)
    (started : Load.start entry offset count = .ok load) :
    Justified start steps task id (n + 1) ⟨offset, offset + count⟩ load :=
  ⟨fun _ member => lacked_of_start found started member,
    fun fetch member begun => absurd (Load.planned_start started fetch member) begun⟩

theorem set (justified : Justified start steps task id n span load)
    (position : load.fetches[i]? = some fetch) {next : Fetch} (same : next.gap = fetch.gap)
    (told : .readingOf load.path fetch.gap ∈ recorded start steps task n) :
    Justified start steps task id n span { load with fetches := load.fetches.set i next } := by
  refine ⟨fun other member => ?_, fun other member begun => ?_⟩
  · rcases (Load.mem_set_iff position).mp member with rfl | ⟨j, -, position'⟩
    · exact same ▸ justified.lacked fetch (List.mem_of_getElem? position)
    · exact justified.lacked other (List.mem_of_getElem? position')
  · rcases (Load.mem_set_iff position).mp member with rfl | ⟨j, -, position'⟩
    · exact same ▸ told
    · exact justified.called other (List.mem_of_getElem? position') begun

theorem ask (justified : Justified start steps task id n span load)
    (position : load.fetches[i]? = some fetch)
    (told : .readingOf load.path fetch.gap ∈ recorded start steps task n) (call : CallId) :
    Justified start steps task id n span (load.ask i call) := by
  rw [Load.ask_of_found position]
  exact justified.set position rfl told

theorem receive (justified : Justified start steps task id n span load) (i : Nat) (entry : Entry)
    (reply : Reply) : Justified start steps task id n span (load.receive i entry reply).1 := by
  rcases Load.receive_cases load i entry reply with lost | ⟨fetch, call, position, asked, taken⟩
  · rwa [lost]
  · have begun : fetch.state ≠ .planned := by rw [asked]; nofun
    rw [taken]
    exact justified.set position Fetch.gap_receive
      (justified.called fetch (List.mem_of_getElem? position) begun)

end Justified

theorem justified_step (sound : (start.after steps n).Sound)
    (justified : ∀ {task work id load}, (start.after steps n).doing? task = some work →
      work.load? = some (id, load) → Justified start steps task id n work.wanted load)
    (doing : (start.after steps (n + 1)).doing? task = some work)
    (waits : work.load? = some (id, load)) :
    Justified start steps task id (n + 1) work.wanted load := by
  have course := loadCourse_step sound (steps n) doing waits
  generalize stepped : steps n = step at course
  cases course with
  | kept before waited => exact (justified before waited).later
  | begins idle found started wanted =>
      rw [wanted]
      exact .of_start found started
  | requests before waited position planned same =>
      rw [same]
      refine (justified before waited).later.ask position ?_ _
      rw [recorded_succ, stepped, records_request before waited position planned]
      exact List.mem_append_right _ (.head _)
  | receives before waited found filled same =>
      rw [same]
      exact (justified before waited).later.receive _ _ _

theorem justified_after (mount : Mount) (steps : Nat → Step) (n : Nat)
    (doing : (mount.cache.after steps n).doing? task = some work)
    (waits : work.load? = some (id, load)) :
    Justified mount.cache steps task id n work.wanted load := by
  induction n generalizing task work id load with
  | zero => cases doing
  | succ n ih => exact justified_step (sound_after mount steps n) ih doing waits

/-- An answer that is taken brings bytes of the gap it was asked for. -/
theorem brings_of_position (mount : Mount) (steps : Nat → Step) {reply : Reply} {call : CallId}
    (delivers : steps n = .act (.deliver task i reply))
    (loading : (mount.cache.after steps n).loadOf? task = some (work, id, load))
    (position : load.fetches[i]? = some fetch) (asked : fetch.state = .asked call)
    (inside : p ∈ fetch.gap) : Brings mount.cache steps id n p := by
  obtain ⟨doing, waits⟩ := doing?_of_loadOf? loading
  have justified := justified_after mount steps n doing waits
  rw [Work.wanted_bare] at justified
  have member := List.mem_of_getElem? position
  exact .intro delivers loading position inside (justified.lacked fetch member)
    (justified.called fetch member (by rw [asked]; nofun))

/-! ### What a step leaves as it is -/

theorem sameStore_advance
    (lasting : ∀ id epoch due, cache.doing? task ≠ some (.grace id epoch due)) :
    SameStore cache (cache.advance task) := by
  have same := SameStore.refl cache
  cases live : cache.live? task with
  | none =>
      unfold advance
      cases held : cache.task? task with
      | none => exact same
      | some item =>
          obtain ⟨work, aborted⟩ := item
          cases aborted with
          | true => exact same.reap _
          | false => simp [live?, held] at live
  | some work =>
      rw [advance_of_live live]
      cases work with
      | transfer job => exact same.advanceTransfer _ _
      | upload job => exact same.advanceUpload _ _
      | grace id epoch due => exact absurd (doing?_of_live live) (lasting id epoch due)

theorem gains_step (mount : Mount) (steps : Nat → Step)
    (loads : (steps n).Loads (mount.cache.after steps n))
    (found : Cache.entry? (mount.cache.after steps n) id = some entry) :
    ∃ next, Cache.entry? (mount.cache.after steps (n + 1)) id = some next ∧
      entry.Gains (Brings mount.cache steps id n) next := by
  have unchanged : SameStore (mount.cache.after steps n) (mount.cache.after steps (n + 1)) →
      ∃ next, Cache.entry? (mount.cache.after steps (n + 1)) id = some next ∧
        entry.Gains (Brings mount.cache steps id n) next :=
    fun same => ⟨entry, same.lookup.trans found, .refl _ _⟩
  rw [after_succ] at unchanged ⊢
  generalize stepped : steps n = step at loads unchanged ⊢
  cases step with
  | transfer target offset count reading => exact unchanged (sameStore_step _ rfl)
  | giveUp task => exact unchanged (sameStore_step _ rfl)
  | act action =>
      cases action with
      | advance task => exact unchanged (sameStore_advance loads)
      | request task i => exact unchanged ((SameStore.refl _).request task i)
      | deliver task i reply =>
          rcases entry?_deliver found task i reply with kept | ⟨work, load, loading, -, filled⟩
          · exact ⟨entry, kept, .refl _ _⟩
          · refine ⟨_, filled, (Entry.Gains.of_receive load i entry reply).mono ?_⟩
            rintro p ⟨fetch, call, position, asked, inside⟩
            exact brings_of_position mount steps stepped loading position asked inside
      | settle task result => cases loads
      | tick milliseconds => exact ⟨entry, found, .refl _ _⟩
  | _ => cases loads

/-- A local byte stays until a change touches it or the entry is closed. -/
theorem holds_step (found : cache.entry? id = some entry) (turn : Turn cache id entry step after)
    (spared : ∀ change, .changed change ∈ step.locals cache id → ¬ change.Touches p)
    (kept : entry.content = none ∨ entry.Holds p byte) :
    after.content = none ∨ after.Holds p byte := by
  cases turn.file with
  | kept refused same =>
      rcases same with same | closed
      · exact kept.imp (fun closed => same.1 ▸ closed) (·.of_sameFile same)
      · exact .inl closed
  | @changed step change changed after asked done same =>
      have happened : .changed change ∈ step.locals cache id := by
        rw [locals_of_known found, changes_of_on asked done]
        exact List.mem_append_left _ (.head _)
      rcases kept with closed | holds
      · rw [Entry.on_of_closed closed] at done
        cases done
      · exact .inr ((holds.on (spared change happened) done).of_sameFile same)
  | @filled task i reply work load waiting =>
      have gains := Entry.Gains.of_receive load i entry reply
      rcases kept with closed | holds
      · have size := gains.size
        rw [closed] at size
        exact .inl (Option.map_eq_none_iff.mp size)
      · exact .inr (holds.of_gains gains)

/-- Loading is no local change. -/
theorem not_changed_of_loads (loads : step.Loads cache) (change : LocalChange) :
    .changed change ∉ step.locals cache id := by
  intro happened
  have quiet : step.change? cache id = none ∧ step.makes = [] := by
    cases step with
    | transfer | giveUp | act => exact ⟨rfl, rfl⟩
    | _ => cases loads
  cases found : cache.entry? id with
  | none => simp [Step.locals, found, quiet.2] at happened
  | some entry =>
      rw [locals_of_known found] at happened
      simp [Step.changes, quiet.1] at happened

/-- Loads and reads, however they interleave and whatever they are answered, do nothing to an entry
but bring bytes that were lacking of the gaps they asked for.  Whatever else happens in between, a
byte that is local stays what it is until a local change touches it, or the entry is closed. -/
theorem loading_invisible (mount : Mount) (steps : Nat → Step) (id : EntryId) (m n : Nat)
    (entry : Entry) (later : m ≤ n)
    (found : Cache.entry? (mount.cache.after steps m) id = some entry) :
    ∃ next, Cache.entry? (mount.cache.after steps n) id = some next ∧
      ((∀ k, m ≤ k → k < n → (steps k).Loads (mount.cache.after steps k)) →
        entry.Gains (fun p => ∃ k, m ≤ k ∧ k < n ∧ Brings mount.cache steps id k p) next) ∧
      ∀ p byte, entry.Holds p byte →
        (∀ k, m ≤ k → k < n → ∀ change,
          .changed change ∈ (steps k).locals (mount.cache.after steps k) id →
            ¬ change.Touches p) →
        next.content = none ∨ next.Holds p byte := by
  induction later with
  | refl =>
      exact ⟨entry, found, fun _ => .refl _ _, fun p byte holds _ => .inr holds⟩
  | @step n before ih =>
      obtain ⟨next, present, gains, kept⟩ := ih
      obtain ⟨final, present', turn⟩ := turn_step present (steps n)
      refine ⟨final, present', fun loads => ?_, fun p byte holds spared => ?_⟩
      · have earlier := gains fun k from' upto => loads k from' (Nat.lt_succ_of_lt upto)
        obtain ⟨other, present'', last⟩ :=
          gains_step mount steps (loads n before (Nat.lt_succ_self n)) present
        rw [after_succ, present'] at present''
        cases present''
        refine (earlier.mono ?_).trans (last.mono ?_)
        · rintro p ⟨k, from', upto, brings⟩
          exact ⟨k, from', Nat.lt_succ_of_lt upto, brings⟩
        · exact fun p brings => ⟨n, before, Nat.lt_succ_self n, brings⟩
      · have earlier := kept p byte holds fun k from' upto =>
          spared k from' (Nat.lt_succ_of_lt upto)
        exact holds_step present turn (spared n before (Nat.lt_succ_self n)) earlier

/-- A load and a read of the same bytes are told different things.  Then the load fails for its
first gap, and nobody waits for the read any more. -/
def racingLoads : List Step :=
  [.create ⟨[97]⟩ 4 .now, .write 0 1 [9], .transfer 0 0 4 false, .transfer 0 0 4 true,
    .act (.advance 0), .act (.advance 1), .act (.request 0 0), .act (.request 0 1),
    .act (.request 1 0), .act (.request 1 1), .act (.deliver 0 1 (.chunk [7])),
    .act (.deliver 1 1 (.chunk [5, 6, 6])), .act (.deliver 0 0 (.failed (.notFound ⟨[97]⟩))),
    .act (.advance 0), .giveUp 1]

theorem racingLoads_gain :
    2 ≤ 15 ∧
    (∀ k, 2 ≤ k → k < 15 → (scripted racingLoads k).Loads
      ((mountWith 0).cache.after (scripted racingLoads) k)) ∧
    ∃ entry next,
      Cache.entry? ((mountWith 0).cache.after (scripted racingLoads) 2) 0 = some entry ∧
      Cache.entry? ((mountWith 0).cache.after (scripted racingLoads) 15) 0 = some next ∧
      entry.populated.spans = [⟨1, 2⟩] ∧ next.populated.spans = [⟨1, 4⟩] ∧
      next.content.map (fun content => [1, 2, 3].map content.byteAt) = some [9, 7, 6] ∧
      entry.Gains (fun p => ∃ k, 2 ≤ k ∧ k < 15 ∧
        Brings (mountWith 0).cache (scripted racingLoads) 0 k p) next ∧
      entry.Holds 1 9 ∧ (next.content = none ∨ next.Holds 1 9) := by
  have transferring : ∀ k, k = 4 ∨ k = 13 →
      (((mountWith 0).cache.after (scripted racingLoads) k).doing? 0).map Work.begun
        = some (.transfer ⟨0, 0, 4, false, none⟩) := by
    rintro k (rfl | rfl) <;> cbv
  have reading : ((mountWith 0).cache.after (scripted racingLoads) 5).doing? 1
      = some (.transfer ⟨0, 0, 4, true, none⟩) := by
    cbv
  have loads : ∀ k, 2 ≤ k → k < 15 → (scripted racingLoads k).Loads
      ((mountWith 0).cache.after (scripted racingLoads) k) := by
    intro k from' upto
    by_cases own : k = 4 ∨ k = 13
    · have doing := transferring k own
      have advances : scripted racingLoads k = .act (.advance 0) := by
        rcases own with rfl | rfl <;> rfl
      rw [advances]
      intro id epoch due timer
      rw [timer] at doing
      cases doing
    · by_cases other : k = 5
      · subst other
        intro id epoch due timer
        rw [reading] at timer
        cases timer
      · interval_cases k <;> trivial
  have before : (Cache.entry? ((mountWith 0).cache.after (scripted racingLoads) 2) 0).map
      (fun entry => (entry.populated.spans, entry.content.map fun content =>
        (content.size, content.byteAt 1))) = some ([⟨1, 2⟩], some (4, 9)) := by
    cbv
  have after : (Cache.entry? ((mountWith 0).cache.after (scripted racingLoads) 15) 0).map
      (fun next => (next.populated.spans, next.content.map fun content =>
        [1, 2, 3].map content.byteAt)) = some ([⟨1, 4⟩], some [9, 7, 6]) := by
    cbv
  obtain ⟨entry, found, same⟩ := Option.map_eq_some_iff.mp before
  simp only [Prod.mk.injEq] at same
  obtain ⟨spans, shown⟩ := same
  obtain ⟨content, stored, shown⟩ := Option.map_eq_some_iff.mp shown
  simp only [Prod.mk.injEq] at shown
  have marked : 1 ∈ entry.populated :=
    SpanSet.mem_iff.mpr (spans ▸ ⟨_, .head _, by decide⟩)
  have holds : entry.Holds 1 9 := ⟨marked, content, stored, by omega, shown.2⟩
  obtain ⟨next, found', gains, kept⟩ := loading_invisible (mountWith 0) (scripted racingLoads) 0
    2 15 entry (by decide) found
  rw [found', Option.map_some, Option.some.injEq, Prod.mk.injEq] at after
  exact ⟨by decide, loads, entry, next, found, found', spans, after.1, after.2, gains loads, holds,
    kept 1 9 holds fun k from' upto change happened =>
      absurd happened (not_changed_of_loads (loads k from' upto) change)⟩

end Cache

end SparseCache
