import SparseCache.Proofs.Cache.Holes
import SparseCache.Proofs.Entry.Copying

namespace SparseCache

/-! How an upload copies its entry.

A copy takes more than one moment: between two pieces the file may be written, cut or closed.
Closing waits for it, so that pieces read after that go on showing the file as it was when it was
last open.  Each piece shows the file as it was in one state, and these states come one after the
other; nothing else holds of all pieces together.
-/

namespace Cache

variable {cache start : Cache} {id : EntryId} {task : TaskId} {job : Upload} {entry next : Entry}
  {step : Step} {steps : Nat → Step} {mount : Mount} {content other : Content} {version : Nat}
  {snapshot : Bytes} {call : CallId} {copy : Copy} {i j k m n : Nat}

/-! ### Files that are closed during a copy -/

/-- What the file of an entry holds, while that is open. -/
def contentOf? (cache : Cache) (id : EntryId) : Option Content :=
  (cache.entry? id).bind Entry.content

theorem contentOf?_of_entry (found : cache.entry? id = some entry) :
    cache.contentOf? id = entry.content := by
  rw [contentOf?, found, Option.bind_some]

theorem entry_of_contentOf? (shown : cache.contentOf? id = some content) :
    ∃ entry, cache.entry? id = some entry ∧ entry.content = some content :=
  Option.bind_eq_some_iff.mp shown

/-- An entry that is closed after a step reads for a copy as it did before. -/
theorem Turn.source (turn : Turn cache id entry step next) (closed : next.content = none) :
    next.source? = entry.source? := by
  cases turn with
  | displaced refused displaced => obtain ⟨_, rfl | rfl⟩ := displaced <;> rfl
  | wrote done =>
      obtain ⟨_, -, -, rfl⟩ := Entry.write_ok done
      cases closed
  | resized done =>
      obtain ⟨_, -, -, rfl⟩ := Entry.truncate_ok done
      cases closed
  | opened mapped keeps => rfl
  | emptied mapped wipes done =>
      obtain ⟨_, -, -, rfl⟩ := Entry.truncate_ok done
      cases closed
  | refused mapped wipes shut left =>
      obtain ⟨-, rfl⟩ := Entry.releaseHandle?_some left
      rfl
  | released held left =>
      obtain ⟨-, rfl⟩ := Entry.releaseHandle?_some left
      rfl
  | @filled task i reply work load waiting going =>
      rcases load.receive_stores i entry reply with same | ⟨_, _, stored, -, -, done, same⟩
      · rw [same]
      · rw [same] at closed
        cases before : entry.content with
        | none => rw [Entry.store_of_closed before] at done; cases done
        | some content =>
            rw [Entry.store_eq before] at done
            cases done
            cases closed
  | cleaned doing about stage => rfl

/-- State `j` is the last one up to `n` in which the entry is open; the file holds `content`. -/
structure LastOpen (start : Cache) (steps : Nat → Step) (id : EntryId) (n j : Nat)
    (content : Content) : Prop where
  upto : j ≤ n
  shown : (start.after steps j).contentOf? id = some content
  closed : ∀ k, j < k → k ≤ n → (start.after steps k).contentOf? id = none

theorem LastOpen.le (first : LastOpen start steps id m j content)
    (second : LastOpen start steps id n k other) (later : m ≤ n) : j ≤ k := by
  apply Nat.le_of_not_lt
  intro before
  have shut := second.closed j before (Nat.le_trans first.upto later)
  rw [first.shown] at shut
  cases shut

/-- What a copy reads is the file as it was when it was last open. -/
theorem exists_lastOpen {first : Content} (began : (start.after steps m).contentOf? id = some first)
    (later : m ≤ n)
    (source : (Cache.entry? (start.after steps n) id).bind Entry.source? = some content) :
    ∃ j, m ≤ j ∧ LastOpen start steps id n j content := by
  induction later with
  | refl =>
      obtain ⟨entry, found, stored⟩ := entry_of_contentOf? began
      have same : first = content := by
        rw [found, Option.bind_some, Entry.source?, stored] at source
        exact Option.some.inj source
      exact ⟨m, Nat.le_refl m, Nat.le_refl m, same ▸ began, fun k after before =>
        absurd (Nat.lt_of_lt_of_le after before) (Nat.lt_irrefl m)⟩
  | @step n reached ih =>
      obtain ⟨entry, found, -⟩ := entry_of_contentOf? began
      obtain ⟨held, present⟩ := exists_entry?_after found reached
      obtain ⟨next, present', turn⟩ := turn_step present (steps n)
      rw [after_succ, present', Option.bind_some] at source
      have shown : (start.after steps (n + 1)).contentOf? id = next.content :=
        contentOf?_of_entry present'
      cases stored : next.content with
      | some now =>
          have same : now = content := by
            rw [Entry.source?, stored] at source
            exact Option.some.inj source
          refine ⟨n + 1, Nat.le_succ_of_le reached, Nat.le_refl _,
            by rw [shown, stored, same], fun k after before => ?_⟩
          exact absurd (Nat.lt_of_lt_of_le after before) (Nat.lt_irrefl _)
      | none =>
          rw [turn.source stored] at source
          obtain ⟨j, since, last⟩ := ih (by rw [present]; exact source)
          refine ⟨j, since, Nat.le_succ_of_le last.upto, last.shown, fun k after before => ?_⟩
          rcases Nat.lt_or_eq_of_le before with earlier | rfl
          · exact last.closed k after (Nat.le_of_lt_succ earlier)
          · exact shown.trans stored

/-! ### Pieces -/

/-- The copy was begun in state `b`, and piece `i` of it shows the file as it was in state
`states i`, the last one in which the entry was open when the piece was read. -/
structure Pieced (start : Cache) (steps : Nat → Step) (id : EntryId) (b n : Nat) (copy : Copy)
    (states : Nat → Nat) : Prop where
  cut : copy.Cut
  earlier : b < n
  sized : ∃ content, (start.after steps b).contentOf? id = some content ∧ content.size = copy.size
  since : ∀ i, i < copy.taken.length → b ≤ states i
  ordered : ∀ i j, i ≤ j → j < copy.taken.length → states i ≤ states j
  shows : ∀ i bytes, copy.taken[i]? = some bytes → ∃ read content, read < n ∧
    LastOpen start steps id read (states i) content ∧
    (pieceOf copy.size i).hi ≤ content.size ∧ bytes = content.read (pieceOf copy.size i)

namespace Pieced

variable {b : Nat} {states : Nat → Nat}

theorem begun (shown : (start.after steps b).contentOf? id = some content) (states : Nat → Nat) :
    Pieced start steps id b (b + 1) { size := content.size } states where
  cut := Copy.cut_begun _
  earlier := Nat.lt_succ_self b
  sized := ⟨content, shown, rfl⟩
  since i inside := absurd inside (Nat.not_lt_zero i)
  ordered i j _ inside := absurd inside (Nat.not_lt_zero j)
  shows i bytes found := by cases found

theorem later (pieced : Pieced start steps id b n copy states) (after : n ≤ m) :
    Pieced start steps id b m copy states where
  cut := pieced.cut
  earlier := Nat.lt_of_lt_of_le pieced.earlier after
  sized := pieced.sized
  since := pieced.since
  ordered := pieced.ordered
  shows i bytes found := by
    obtain ⟨read, content, before, rest⟩ := pieced.shows i bytes found
    exact ⟨read, content, Nat.lt_of_lt_of_le before after, rest⟩

/-- One more piece is read in state `n`. -/
theorem more {after : Copy} (pieced : Pieced start steps id b n copy states)
    (going : copy.isThrough = false)
    (source : (Cache.entry? (start.after steps n) id).bind Entry.source? = some content)
    (done : copy.next content = .ok after) :
    ∃ states, Pieced start steps id b (n + 1) after states := by
  obtain ⟨first, began, -⟩ := pieced.sized
  obtain ⟨now, since, last⟩ := exists_lastOpen began (Nat.le_of_lt pieced.earlier) source
  have cut := pieced.cut.next going done
  have place := pieced.cut.piece_eq going
  obtain ⟨enough, whole⟩ := Copy.next_ok done
  have length : after.taken.length = copy.taken.length + 1 := by
    rw [whole, List.length_append, List.length_singleton]
  have size : after.size = copy.size := by rw [whole]
  have old : ∀ i, i < copy.taken.length → states i ≤ now := by
    intro i inside
    obtain ⟨read, _, before, seen, -⟩ := pieced.shows i _ (List.getElem?_eq_getElem inside)
    exact seen.le last (Nat.le_of_lt before)
  refine ⟨fun i => if i < copy.taken.length then states i else now, cut,
    Nat.lt_succ_of_lt pieced.earlier, size ▸ pieced.sized, fun i inside => ?_,
    fun i j order inside => ?_, fun i bytes found => ?_⟩
  · split
    · exact pieced.since i ‹_›
    · exact since
  · split
    · split
      · exact pieced.ordered i j order ‹_›
      · exact old i ‹_›
    · exact Nat.le_of_eq (if_neg (by omega)).symm
  · rw [size]
    rcases Copy.piece_of_next done found with ⟨before, found⟩ | ⟨rfl, rfl⟩
    · rw [if_pos before]
      obtain ⟨read, content, earlier, rest⟩ := pieced.shows i bytes found
      exact ⟨read, content, Nat.lt_succ_of_lt earlier, rest⟩
    · rw [if_neg (Nat.lt_irrefl _), ← place]
      exact ⟨n, content, Nat.lt_succ_self n, last, enough, rfl⟩

/-- A byte of the copy is the byte that the file had there when its piece was read. -/
theorem byte (pieced : Pieced start steps id b n copy states) (through : copy.isThrough = true)
    {p : Nat} (inside : p < copy.taken.flatten.length) :
    b ≤ states (p / copyStep) ∧ states (p / copyStep) < n ∧
      ∃ content, (start.after steps (states (p / copyStep))).contentOf? id = some content ∧
        p < content.size ∧ copy.taken.flatten[p]? = some (content.byteAt p) := by
  have size := pieced.cut.length_of_through through
  rw [pieced.cut.getElem? p]
  cases found : copy.taken[p / copyStep]? with
  | none =>
      have missing := pieced.cut.getElem? p
      rw [found, Option.bind_none, List.getElem?_eq_none_iff] at missing
      omega
  | some bytes =>
      obtain ⟨read, content, before, last, enough, rfl⟩ := pieced.shows _ _ found
      have taken := (List.getElem?_eq_some_iff.mp found).1
      have upto := Nat.lt_div_mul_add copyStep_pos (a := p)
      refine ⟨pieced.since _ taken, Nat.lt_of_le_of_lt last.upto before, content, last.shown, ?_,
        content.getElem?_pieceOf (size ▸ inside)⟩
      simp only [pieceOf, Nat.succ_mul] at enough
      omega

end Pieced

/-! ### Uploads -/

theorem loaded_origin (doing : (mount.cache.after steps n).doing? task = some (.upload job))
    (stage : job.stage = .loaded version) :
    ∃ m load, m < n ∧ load.outcome? = some (.ok ()) ∧
      (mount.cache.after steps m).doing? task
        = some (.upload { job with stage := .loading load }) := by
  induction n with
  | zero => cases doing
  | succ n ih =>
      have course := uploadCourse_step (sound_after mount steps n) (steps n) doing
      generalize steps n = step at course
      cases course with
      | kept before =>
          obtain ⟨m, load, earlier, done, loading⟩ := ih before
          exact ⟨m, load, Nat.lt_succ_of_lt earlier, done, loading⟩
      | asked new queued | scheduled new queued => rw [stage] at queued; cases queued
      | loading before now => rw [stage] at now; cases now
      | loaded before done now => exact ⟨n, _, Nat.lt_succ_self n, done, before⟩
      | copying before found stored now | reading before going source done now
      | sending before through told now => rw [stage] at now; cases now

theorem copying_origin (doing : (mount.cache.after steps n).doing? task = some (.upload job))
    (stage : job.stage = .copying version copy) :
    ∃ b states, Pieced mount.cache steps job.entry b n copy states ∧
      (mount.cache.after steps b).doing? task
        = some (.upload { job with stage := .loaded version }) := by
  induction n generalizing job copy with
  | zero => cases doing
  | succ n ih =>
      have course := uploadCourse_step (sound_after mount steps n) (steps n) doing
      generalize steps n = step at course
      cases course with
      | kept before =>
          obtain ⟨b, states, pieced, loaded⟩ := ih before stage
          exact ⟨b, states, pieced.later (Nat.le_succ n), loaded⟩
      | asked new queued | scheduled new queued => rw [stage] at queued; cases queued
      | loading before now => rw [stage] at now; cases now
      | loaded before done now => rw [stage] at now; cases now
      | copying before found stored now =>
          rw [stage] at now
          cases now
          exact ⟨n, id, .begun ((contentOf?_of_entry found).trans stored) id, before⟩
      | reading before going source done now =>
          rw [stage] at now
          cases now
          obtain ⟨b, states, pieced, loaded⟩ := ih before rfl
          obtain ⟨states, pieced⟩ := pieced.more going source done
          exact ⟨b, states, pieced, loaded⟩
      | sending before through told now => rw [stage] at now; cases now

/-- How the snapshot came about that an upload sends.  In state `m` the load for it had ended; in
state `b` the copy began, and the length was taken; piece `i` of the copy shows the file as it was
in state `states i`; and in the step from state `k` the write call began. -/
structure Copied (start : Cache) (steps : Nat → Step) (task : TaskId) (job : Upload)
    (snapshot : Bytes) (load : Load) (m b k : Nat) (states : Nat → Nat) : Prop where
  order : m < b ∧ b < k
  loading : (start.after steps m).doing? task = some (.upload { job with stage := .loading load })
  loaded : load.outcome? = some (.ok ())
  sized : ∃ content, (start.after steps b).contentOf? job.entry = some content ∧
    content.size = snapshot.length
  ordered : ∀ i j, i ≤ j → j * copyStep < snapshot.length → states i ≤ states j
  bytes : ∀ p, p < snapshot.length → b ≤ states (p / copyStep) ∧ states (p / copyStep) < k ∧
    ∃ content, (start.after steps (states (p / copyStep))).contentOf? job.entry = some content ∧
      p < content.size ∧ snapshot[p]? = some (content.byteAt p)
  told : (start.after steps (k + 1)).events
    = (start.after steps k).events ++ [.writing job.entry job.path snapshot]

theorem copied_of_sending (doing : (mount.cache.after steps n).doing? task = some (.upload job))
    (stage : job.stage = .sending version snapshot call) :
    ∃ load m b k states, k < n ∧
      Copied mount.cache steps task job snapshot load m b k states ∧
      ∀ j, k < j → j ≤ n → (mount.cache.after steps j).doing? task = some (.upload job) := by
  have absent : ¬ mount.cache.doing? task = some (.upload job) := by
    intro working
    cases working
  obtain ⟨k, earlier, before, since⟩ := @exists_origin mount.cache steps
    (fun cache => cache.doing? task = some (.upload job)) absent n doing
  have now := since (k + 1) (Nat.lt_succ_self k) earlier
  have course := uploadCourse_step (sound_after mount steps k) (steps k) now
  generalize taken : steps k = step at course
  cases course with
  | kept old => exact absurd old before
  | asked new queued | scheduled new queued => rw [stage] at queued; cases queued
  | loading old now | loaded old done now | copying old found stored now
  | reading old going source done now => rw [stage] at now; cases now
  | @sending _ copy old through told sending =>
      rw [stage] at sending
      cases sending
      obtain ⟨b, states, pieced, loaded⟩ := copying_origin old rfl
      obtain ⟨m, load, first, done, loading⟩ := loaded_origin loaded rfl
      have size := pieced.cut.length_of_through through
      refine ⟨load, m, b, k, states, earlier, ⟨⟨first, pieced.earlier⟩, loading, done, ?_,
        fun i j order inside => ?_, fun p inside => pieced.byte through inside, ?_⟩, since⟩
      · rw [size]
        exact pieced.sized
      · refine pieced.ordered i j order (Nat.lt_of_not_le fun past => ?_)
        -- All pieces that begin inside the file have been taken.
        have reached := pieced.cut.reached
        have length := pieced.cut.length
        have more := Nat.mul_le_mul_right copyStep past
        omega
      · rw [after_succ, taken]
        exact told

/-- Where the file never differs while it is copied, the snapshot is that file. -/
theorem Copied.undisturbed {load : Load} {b : Nat} {states : Nat → Nat}
    (copied : Copied start steps task job snapshot load m b k states)
    (same : ∀ j, b ≤ j → j < k → ∀ now, (start.after steps j).contentOf? job.entry = some now →
      now = content) : snapshot = content.bytes := by
  obtain ⟨first, began, size⟩ := copied.sized
  obtain rfl := same b (Nat.le_refl b) copied.order.2 first began
  apply List.ext_getElem?
  intro p
  rcases Nat.lt_or_ge p snapshot.length with inside | past
  · obtain ⟨since, before, now, shown, within, byte⟩ := copied.bytes p inside
    obtain rfl := same _ since before now shown
    rw [byte, Content.getElem?_bytes within]
  · rw [List.getElem?_eq_none past, List.getElem?_eq_none]
    rw [Content.length_bytes]
    omega

/-- An upload that sends goes on with the same snapshot or has ended. -/
theorem sending_kept (sound : cache.Sound) (doing : cache.doing? task = some (.upload job))
    (stage : job.stage = .sending version snapshot call) (step : Step) :
    (cache.step step).doing? task = some (.upload job) ∨ (cache.step step).doing? task = none := by
  cases found : (cache.step step).doing? task with
  | none => exact .inr rfl
  | some work =>
      have known := lt_nextTask_of_doing? sound.fresh doing
      have only {old : Work} (before : cache.doing? task = some old) : old = .upload job :=
        Option.some.inj (before.symm.trans doing)
      refine .inl ?_
      cases course_step sound step found with
      | kept before => rw [only before]
      | awaited new | asked new | scheduled new =>
          exact absurd known (Nat.not_lt.mpr (Nat.le_of_eq new.symm))
      | timed new => exact absurd known (Nat.not_lt.mpr new)
      | begins before => cases only before
      | fetches before other | finishes before other | copies before other | reads before other
      | sends before other => cases only before; rw [stage] at other; cases other
      | requests before waits | receives before waits =>
          cases only before
          rw [Work.load?, stage] at waits
          cases waits

end Cache

end SparseCache
