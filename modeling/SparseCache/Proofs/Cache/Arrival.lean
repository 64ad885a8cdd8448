import SparseCache.Proofs.Cache.Callbacks
import SparseCache.Proofs.Cache.Refinement
import SparseCache.Proofs.Cache.Uploading
import SparseCache.Proofs.Entry.Outline
import SparseCache.Proofs.SpanSet.Edits

namespace SparseCache

/-! When fetched bytes arrive does not matter.

What loads ask the remote store for depends on what has arrived before they begin.  The outline of
an entry does not, and once all loads have come to a good end the entry is no longer behind it.
-/

theorem Reply.Serves.continued {remote : Bytes} {fetch : Fetch} {reply : Reply}
    (serves : reply.Serves remote fetch) (more : Bytes) :
    reply.Serves (remote ++ more) fetch := by
  cases reply with
  | accepted => trivial
  | ended => exact serves
  | failed cause => trivial
  | chunk data =>
      have longer : remote.drop (fetch.gap.lo + fetch.received)
          <+: (remote ++ more).drop (fetch.gap.lo + fetch.received) := by
        rw [List.drop_append]
        exact List.prefix_append _ _
      exact List.IsPrefix.trans serves longer

namespace Load

variable {load : Load} {entry after : Entry} {remote data : Bytes} {events : List LocalEvent}
  {offset count i : Nat} {reply : Reply} {call : CallId}

/-- Nothing in reach of the load's fetches is missing from the outline. -/
def Settled (load : Load) (outline : Outline) : Prop :=
  ∀ fetch ∈ load.fetches, ∀ p, p ∈ fetch.gap → outline.Settled p

theorem gap_of_start (started : Load.start entry offset count = .ok load) {fetch : Fetch}
    (planned : fetch ∈ load.fetches) {p : Nat} (inside : p ∈ fetch.gap) :
    offset ≤ p ∧ p < offset + count := by
  obtain ⟨content, -, -, rfl⟩ := start_ok started
  obtain ⟨gap, found, rfl⟩ := List.mem_map.mp planned
  obtain ⟨wanted, -⟩ := SpanSet.mem_gaps_iff.mp ⟨gap, found, inside⟩
  exact ⟨wanted.1, Nat.lt_of_lt_of_le wanted.2 (Nat.min_le_right _ _)⟩

theorem gap_of_ask {fetch : Fetch} (asked : fetch ∈ (load.ask i call).fetches) :
    ∃ old ∈ load.fetches, fetch.gap = old.gap := by
  obtain ⟨j, position⟩ := List.mem_iff_getElem?.mp asked
  simp only [ask, List.getElem?_modify, Option.map_eq_map, Option.map_eq_some_iff] at position
  obtain ⟨old, present, changed⟩ := position
  refine ⟨old, List.mem_of_getElem? present, ?_⟩
  split at changed <;> subst changed <;> rfl

theorem gap_of_receive {fetch : Fetch}
    (received : fetch ∈ (load.receive i entry reply).1.fetches) :
    ∃ old ∈ load.fetches, fetch.gap = old.gap := by
  rcases receive_cases load i entry reply with lost | ⟨old, call, found, -, taken⟩
  · rw [lost] at received
    exact ⟨fetch, received, rfl⟩
  · rw [taken] at received
    rcases List.mem_or_eq_of_mem_set received with other | rfl
    · exact ⟨fetch, other, rfl⟩
    · refine ⟨old, List.mem_of_getElem? found, ?_⟩
      cases reply with
      | accepted => rfl
      | ended => rfl
      | failed cause => rfl
      | chunk data =>
          simp only [Fetch.receive]
          split
          · rfl
          · split <;> rfl

theorem Settled.of_gaps {outline : Outline} {next : Load} (settled : load.Settled outline)
    (kept : ∀ fetch ∈ next.fetches, ∃ old ∈ load.fetches, fetch.gap = old.gap) :
    next.Settled outline := by
  intro fetch found p inside
  obtain ⟨old, before, same⟩ := kept fetch found
  exact settled old before p (same ▸ inside)

theorem follows_receive (follows : entry.Follows remote events)
    (served : ∀ fetch, load.fetches[i]? = some fetch → reply.Serves remote fetch)
    (settled : load.Settled (outlined remote events)) :
    (load.receive i entry reply).2.Follows remote events := by
  rcases receive_stores load i entry reply with
    same | ⟨fetch, data, stored, found, rfl, done, changed⟩
  · rwa [same]
  · rw [changed]
    have consecutive := (List.take_prefix (fetch.gap.length - fetch.received) data).trans
      (served fetch found)
    refine follows.store consecutive (fun p lower upper => ?_) done
    refine settled fetch (List.mem_of_getElem? found) p ⟨by omega, ?_⟩
    rw [List.length_take] at upper
    simp only [Span.length] at upper
    omega

end Load

namespace Cache

variable {cache start : Cache} {id : EntryId} {task : TaskId} {work : Work} {load : Load}
  {entry after made : Entry} {step : Step} {steps : Nat → Step} {remote : Bytes}
  {events : List LocalEvent} {mount : Mount} {m n p : Nat}

/-! ### Local events of a run -/

/-- An entry that is opened and emptied at once was made before it was emptied. -/
def Step.makes : Step → List LocalEvent
  | .create _ size _ => [.made size]
  | .openFile _ flags size _ =>
    if flags.contains .truncate then [.made size, .changed (.truncate 0)] else [.made size]
  | _ => []

/-- The change of the entry that the step makes. -/
def Step.changes (cache : Cache) (id : EntryId) (entry : Entry) (step : Step) :
    List LocalEvent :=
  match step.change? cache id with
  | none => []
  | some change => if (change.on entry).isOk then [.changed change] else []

/-- The task that begins to load the entry in the step, and what it wants. -/
def Step.begins? (cache : Cache) (id : EntryId) : Step → Option (TaskId × Span)
  | .act (.advance task) =>
    match (cache.doing? task).bind Work.load?,
      Cache.doing? (cache.step (.act (.advance task))) task with
    | none, some work =>
      work.load?.bind fun (other, _) => if other = id then some (task, work.wanted) else none
    | _, _ => none
  | _ => none

/-- What happens to the entry locally in a step. -/
def Step.locals (cache : Cache) (id : EntryId) (step : Step) : List LocalEvent :=
  match cache.entry? id with
  | none => if (Cache.entry? (cache.step step) id).isSome then step.makes else []
  | some entry =>
    step.changes cache id entry ++
      ((step.begins? cache id).map fun (_, span) => .wanted span).toList

/-- What has happened to the entry locally, in the order in which it happened. -/
def locals (start : Cache) (steps : Nat → Step) (id : EntryId) : Nat → List LocalEvent
  | 0 => []
  | n + 1 => locals start steps id n ++ (steps n).locals (start.after steps n) id

/-- The task has a load of the entry that came to a good end. -/
def HasLoaded (cache : Cache) (id : EntryId) (task : TaskId) : Prop :=
  ∃ work load, cache.doing? task = some work ∧ work.load? = some (id, load) ∧
    load.outcome? = some (.ok ())

/-- Until step `n` what comes in for the entry comes from a store that holds `remote`, and every
load of the entry that began has come to a good end. -/
structure Delivered (start : Cache) (steps : Nat → Step) (id : EntryId) (remote : Bytes)
    (n : Nat) : Prop where
  faithful : ∀ k, k < n → (steps k).Faithful (start.after steps k) id remote
  ended : ∀ m, m < n → ∀ begun ∈ (steps m).begins? (start.after steps m) id,
    ∃ k, m < k ∧ k ≤ n ∧ (start.after steps k).HasLoaded id begun.1

/-! ### One step -/

theorem begins?_eq (idle : (cache.doing? task).bind Work.load? = none)
    (found : Cache.doing? (cache.step (.act (.advance task))) task = some work)
    (waits : work.load? = some (id, load)) :
    Step.begins? cache id (.act (.advance task)) = some (task, work.wanted) := by
  simp only [Step.begins?, idle, found, waits, Option.bind_some, if_true]

theorem begins?_some {span : Span} (begins : step.begins? cache id = some (task, span)) :
    ∃ work load, Cache.doing? (cache.step step) task = some work ∧
      work.load? = some (id, load) ∧ work.wanted = span := by
  unfold Step.begins? at begins
  split at begins
  · split at begins
    · rename_i found
      obtain ⟨⟨other, load⟩, waits, same⟩ := Option.bind_eq_some_iff.mp begins
      simp only [Option.ite_none_right_eq_some, Option.some.injEq, Prod.mk.injEq] at same
      obtain ⟨rfl, rfl, rfl⟩ := same
      exact ⟨_, load, found, waits, rfl⟩
    · cases begins
  · cases begins

theorem changes_of_refused (refused : ∀ change, step.change? cache id = some change →
    ∃ error, change.on entry = .error error) : step.changes cache id entry = [] := by
  unfold Step.changes
  cases asked : step.change? cache id with
  | none => rfl
  | some change =>
      obtain ⟨error, failed⟩ := refused change asked
      simp [failed, Except.isOk, Except.toBool]

theorem changes_of_on {change : LocalChange} (asked : step.change? cache id = some change)
    (done : change.on entry = .ok after) :
    step.changes cache id entry = [.changed change] := by
  unfold Step.changes
  rw [asked]
  simp [done, Except.isOk, Except.toBool]

theorem Turn.follows (turn : Turn cache id entry step after)
    (faithful : step.Faithful cache id remote) (tidy : entry.Tidy)
    (settled : ∀ {task work load}, cache.doing? task = some work → work.load? = some (id, load) →
      load.Settled (outlined remote events))
    (follows : entry.Follows remote events) :
    after.Follows remote (events ++ step.changes cache id entry) := by
  cases turn.file with
  | kept refused same =>
      rw [changes_of_refused refused, List.append_nil]
      rcases same with same | closed
      · exact follows.of_sameFile same
      · exact Entry.follows_of_closed closed
  | changed asked done same =>
      rw [changes_of_on asked done]
      exact (follows.on tidy.bounded done).of_sameFile same
  | @filled task i reply work load waiting =>
      have quiet : (Step.act (.deliver task i reply)).changes cache id entry = [] := rfl
      rw [quiet, List.append_nil]
      refine Load.follows_receive follows (served_of_faithful faithful waiting) ?_
      obtain ⟨doing, waits⟩ := doing?_of_loadOf? waiting
      exact settled doing waits

theorem Born.follows (born : Born cache step made)
    (long : ∀ size, .made size ∈ step.makes → size ≤ remote.length) :
    made.Follows remote (events ++ step.makes) := by
  cases born with
  | created fits => exact .of_create fits (long _ (.head _)) events
  | opened unmapped keeps fits =>
      simp only [Step.makes, keeps, Bool.false_eq_true, if_false] at long ⊢
      have fresh := Entry.Follows.of_create fits (long _ (.head _)) events
      exact fresh.of_sameFile ⟨rfl, rfl⟩
  | @emptied path flags size modified opened _ unmapped wipes fits done =>
      simp only [Step.makes, wipes, if_true] at long ⊢
      have fresh := Entry.Follows.of_create fits (long _ (.head _)) events
      have held : opened.openHandle.2.Follows remote (events ++ [.made size]) :=
        fresh.of_sameFile ⟨rfl, rfl⟩
      have applied : (LocalChange.truncate 0).on opened.openHandle.2 = .ok made := done
      have tidy : opened.openHandle.2.Tidy :=
        (Entry.Tidy.of_create fits).of_sameFile ⟨rfl, rfl⟩
      have emptied := held.on tidy.bounded applied
      rwa [List.append_assoc] at emptied

theorem locals_of_known (found : cache.entry? id = some entry) :
    step.locals cache id = step.changes cache id entry ++
      ((step.begins? cache id).map fun (_, span) => .wanted span).toList := by
  simp only [Step.locals, found]

theorem mem_locals {event : LocalEvent} (happened : event ∈ step.locals cache id) :
    (∃ size, event = .made size ∧ cache.entry? id = none) ∨ (∃ change, event = .changed change) ∨
      ∃ task span, step.begins? cache id = some (task, span) ∧ event = .wanted span := by
  unfold Step.locals at happened
  split at happened
  · rename_i absent
    split at happened
    · unfold Step.makes at happened
      split at happened
      · exact .inl ⟨_, List.mem_singleton.mp happened, absent⟩
      · split at happened
        · rcases List.mem_cons.mp happened with made | emptied
          · exact .inl ⟨_, made, absent⟩
          · exact .inr (.inl ⟨_, List.mem_singleton.mp emptied⟩)
        · exact .inl ⟨_, List.mem_singleton.mp happened, absent⟩
      · cases happened
    · cases happened
  · rcases List.mem_append.mp happened with changed | begun
    · unfold Step.changes at changed
      split at changed
      · cases changed
      · split at changed
        · exact .inr (.inl ⟨_, List.mem_singleton.mp changed⟩)
        · cases changed
    · obtain ⟨⟨task, span⟩, begins, rfl⟩ :=
        Option.map_eq_some_iff.mp (Option.mem_toList.mp begun)
      exact .inr (.inr ⟨task, span, begins, rfl⟩)

theorem not_made_of_known (found : cache.entry? id = some entry) (size : Nat) :
    .made size ∉ step.locals cache id := by
  intro made
  rcases mem_locals made with ⟨_, -, absent⟩ | ⟨_, other⟩ | ⟨_, _, -, other⟩
  · rw [found] at absent
    cases absent
  · cases other
  · cases other

/-- The entry is behind its outline at most by what loads are still to bring. -/
structure Lags (cache : Cache) (id : EntryId) (remote : Bytes) (events : List LocalEvent) :
    Prop where
  follows : ∀ {entry}, cache.entry? id = some entry → entry.Follows remote events
  settled : ∀ {task work load}, cache.doing? task = some work → work.load? = some (id, load) →
    load.Settled (outlined remote events)

theorem Lags.settled_step (lags : cache.Lags id remote events) (sound : cache.Sound)
    (rooted : cache.Rooted) (found : (cache.step step).doing? task = some work)
    (waits : work.load? = some (id, load)) :
    load.Settled (outlined remote (events ++ step.locals cache id)) := by
  have known : ∀ {work load}, cache.doing? task = some work → work.load? = some (id, load) →
      ∃ entry, cache.entry? id = some entry := by
    intro work load doing waits
    exact Option.isSome_iff_exists.mp (Work.entry_of_load? waits ▸ rooted.worked doing)
  have kept : ∀ {work load}, cache.doing? task = some work → work.load? = some (id, load) →
      load.Settled (outlined remote (events ++ step.locals cache id)) := by
    intro work load doing waits fetch member p inside
    obtain ⟨entry, present⟩ := known doing waits
    exact (lags.settled doing waits fetch member p inside).append _ (not_made_of_known present)
  cases loadCourse_step sound step found waits with
  | kept before waited => exact kept before waited
  | begins idle present started wanted =>
      intro fetch member p inside
      rw [locals_of_known present, begins?_eq idle found waits, wanted, ← List.append_assoc]
      obtain ⟨lower, upper⟩ := Load.gap_of_start started member inside
      exact (outlined_concat remote _ _).symm ▸ Outline.settled_of_wanted lower upper
  | requests before waited asks planned same =>
      exact (kept before waited).of_gaps fun fetch asked => Load.gap_of_ask asked
  | receives before waited present filled same =>
      exact (kept before waited).of_gaps fun fetch received => Load.gap_of_receive received

theorem lags_step (lags : cache.Lags id remote events) (sound : cache.Sound)
    (rooted : cache.Rooted) (tidy : ∀ {entry}, cache.entry? id = some entry → entry.Tidy)
    (faithful : step.Faithful cache id remote)
    (long : ∀ size, .made size ∈ step.locals cache id → size ≤ remote.length) :
    (cache.step step).Lags id remote (events ++ step.locals cache id) := by
  refine ⟨fun {after} present => ?_, lags.settled_step sound rooted⟩
  cases before : cache.entry? id with
  | none =>
      have makes : step.locals cache id = step.makes := by
        simp only [Step.locals, before, present, Option.isSome_some, if_true]
      rw [makes] at long ⊢
      exact (born_step before present).2.follows long
  | some entry =>
      obtain ⟨next, present', turn⟩ := turn_step before step
      rw [present] at present'
      cases present'
      have changed := turn.follows faithful (tidy before) lags.settled (lags.follows before)
      rw [locals_of_known before, ← List.append_assoc]
      cases step.begins? cache id with
      | none => rwa [Option.map_none, Option.toList_none, List.append_nil]
      | some begun => exact changed.wanted begun.2

/-! ### Whole runs -/

theorem lags_after (faithful : ∀ k, k < n → (steps k).Faithful (mount.cache.after steps k) id remote)
    (long : ∀ size, .made size ∈ locals mount.cache steps id n → size ≤ remote.length) :
    (mount.cache.after steps n).Lags id remote (locals mount.cache steps id n) := by
  induction n with
  | zero =>
      refine ⟨fun found => ?_, fun doing => ?_⟩
      · cases found
      · cases doing
  | succ n ih =>
      have lags := ih (fun k before => faithful k (Nat.lt_succ_of_lt before))
        fun size made => long size (List.mem_append_left _ made)
      exact lags_step lags (sound_after mount steps n) (rooted_after mount steps n)
        (fun found => tidy_after rfl found) (faithful n (Nat.lt_succ_self n))
        fun size made => long size (List.mem_append_right _ made)

/-- What was wanted is what some task began to load. -/
theorem begins?_of_wanted {span : Span} (wanted : .wanted span ∈ locals start steps id n) :
    ∃ m task, m < n ∧ (steps m).begins? (start.after steps m) id = some (task, span) := by
  induction n with
  | zero => cases wanted
  | succ n ih =>
      rcases List.mem_append.mp wanted with before | now
      · obtain ⟨m, task, earlier, begins⟩ := ih before
        exact ⟨m, task, Nat.lt_succ_of_lt earlier, begins⟩
      · rcases mem_locals now with ⟨_, other, -⟩ | ⟨_, other⟩ | ⟨task, _, begins, same⟩
        · cases other
        · cases other
        · cases same
          exact ⟨n, task, Nat.lt_succ_self n, begins⟩

/-- Once all loads have come to a good end the entry is what its outline is. -/
theorem Delivered.populated_iff (delivered : Delivered mount.cache steps id remote n)
    (lags : (mount.cache.after steps n).Lags id remote (locals mount.cache steps id n))
    (found : Cache.entry? (mount.cache.after steps n) id = some entry) {content : Content}
    (stored : entry.content = some content) :
    p ∈ entry.populated ↔ p ∈ (outlined remote (locals mount.cache steps id n)).marks := by
  have tracks := lags.follows found content stored
  refine ⟨tracks.marked p, fun marked => Decidable.byContradiction fun missing => ?_⟩
  obtain ⟨inside, span, wanted, within⟩ := tracks.owing p marked missing
  obtain ⟨m, task, before, begins⟩ := begins?_of_wanted wanted
  obtain ⟨work, load, begun, waits, rfl⟩ := begins?_some begins
  obtain ⟨k, later, upto, held, loaded, doing, waiting, done⟩ := delivered.ended m before _ begins
  have known : task < (mount.cache.after steps (m + 1)).nextTask :=
    lt_nextTask_of_doing? (sound_after mount steps (m + 1)).fresh begun
  obtain ⟨first, begun', same⟩ := begun_between known later doing
  rw [after_succ, begun] at begun'
  cases begun'
  have span : held.wanted = work.wanted := by
    rw [← Work.wanted_begun, ← same, Work.wanted_begun]
  -- what is missing now was missing when the load ended
  have hole : (mount.cache.after steps n).HoleAt id p := ⟨entry, found, content, stored, inside, missing⟩
  obtain ⟨old, present, gap⟩ := holeAt_before hole upto
    (Work.entry_of_load? waiting ▸ (rooted_after mount steps k).worked doing)
  have owed := (covered_after mount steps k).owed doing waiting present p (span ▸ within) gap
  have earnest : (mount.cache.after steps k).Earnest id :=
    earnest_of_faithful fun j early => delivered.faithful j (Nat.lt_of_lt_of_le early upto)
  exact Load.not_owes_of_outcome (earnest.honest doing waiting) done owed

theorem Step.Faithful.continued (faithful : step.Faithful cache id remote) (more : Bytes) :
    step.Faithful cache id (remote ++ more) :=
  fun answer brought fetch asked => (faithful answer brought fetch asked).continued more

theorem Delivered.continued (delivered : Delivered start steps id remote n) (more : Bytes) :
    Delivered start steps id (remote ++ more) n :=
  ⟨fun k before => (delivered.faithful k before).continued more, delivered.ended⟩

theorem exists_longest (events : List LocalEvent) :
    ∃ longest, ∀ size, .made size ∈ events → size ≤ longest := by
  induction events with
  | nil => exact ⟨0, fun size made => nomatch made⟩
  | cons event events ih =>
      obtain ⟨longest, bound⟩ := ih
      refine ⟨max longest (match event with | .made size => size | _ => 0), fun size made => ?_⟩
      rcases List.mem_cons.mp made with rfl | later
      · exact Nat.le_max_right _ _
      · exact Nat.le_trans (bound size later) (Nat.le_max_left _ _)

/-- Two runs in which the same happens to an entry locally, in the same order, end with the same
file, wherever they let the answers of the remote store come in between: the size is the same, the
same is populated, and what is populated is the same. -/
theorem sameFile_of_sameLocals (mount mount' : Mount) {steps' : Nat → Step} {id' : EntryId}
    {n' : Nat} (delivered : Delivered mount.cache steps id remote n)
    (delivered' : Delivered mount'.cache steps' id' remote n')
    (same : locals mount.cache steps id n = locals mount'.cache steps' id' n')
    {entry' : Entry} {content content' : Content}
    (found : Cache.entry? (mount.cache.after steps n) id = some entry)
    (found' : Cache.entry? (mount'.cache.after steps' n') id' = some entry')
    (stored : entry.content = some content) (stored' : entry'.content = some content') :
    content.size = content'.size ∧ entry.populated = entry'.populated ∧
      ∀ p, p < content.size → p ∈ entry.populated → content.byteAt p = content'.byteAt p := by
  -- nothing can have been fetched past the end of `remote`, so that may go on with zeros
  obtain ⟨longest, bound⟩ := exists_longest (locals mount.cache steps id n)
  have long : ∀ size, .made size ∈ locals mount.cache steps id n →
      size ≤ (remote ++ List.replicate longest 0).length := by
    intro size made
    rw [List.length_append, List.length_replicate]
    exact Nat.le_trans (bound size made) (Nat.le_add_left _ _)
  have continued := delivered.continued (List.replicate longest 0)
  have continued' := delivered'.continued (List.replicate longest 0)
  have lags := lags_after continued.faithful long
  have lags' := lags_after continued'.faithful (same ▸ long)
  have tracks := lags.follows found content stored
  have tracks' := lags'.follows found' content' stored'
  have populated : ∀ p, p ∈ entry.populated ↔ p ∈ entry'.populated := by
    intro p
    rw [continued.populated_iff lags found stored, continued'.populated_iff lags' found' stored',
      same]
  have size : content.size = content'.size := by
    rw [tracks.reflects.size, tracks'.reflects.size, same]
  refine ⟨size, SpanSet.eq_of_mem_iff populated, fun p inside present => ?_⟩
  have shown := tracks.reflects.present p (tracks.reflects.size ▸ inside) present
  have shown' := tracks'.reflects.present p (tracks'.reflects.size ▸ size ▸ inside)
    ((populated p).mp present)
  rw [← same, shown] at shown'
  exact Option.some.inj shown'

/-- Two loads overlap, a byte is written and the file is cut, all before the first answer but one
has come. -/
def answeredLate : List Step :=
  [.create ⟨[97]⟩ 6 .now, .transfer 0 0 4 false, .transfer 0 2 4 false, .act (.advance 0),
    .act (.advance 1), .act (.request 0 0), .act (.request 1 0), .write 0 1 [9],
    .act (.deliver 1 0 (.chunk [12, 13])), .truncate 0 5,
    .act (.deliver 0 0 (.chunk [10, 11, 12, 13])), .act (.deliver 1 0 (.chunk [14, 15]))]

/-- The first load is answered before the second one begins, which asks for less then. -/
def answeredAtOnce : List Step :=
  [.create ⟨[97]⟩ 6 .now, .transfer 0 0 4 false, .transfer 0 2 4 false, .act (.advance 0),
    .act (.request 0 0), .act (.deliver 0 0 (.chunk [10, 11, 12, 13])), .act (.advance 1),
    .act (.request 1 0), .write 0 1 [9], .act (.deliver 1 0 (.chunk [14, 15])), .truncate 0 5]

/-- Only two tasks load the entry, and at the end both have loaded it. -/
theorem delivered_of_pair {first second : TaskId}
    (faithful : ∀ k, k < n → (steps k).Faithful (start.after steps k) id remote)
    (tasks : ∀ m, m < n → ∀ begun ∈ (steps m).begins? (start.after steps m) id,
      begun.1 = first ∨ begun.1 = second)
    (loaded : (start.after steps n).HasLoaded id first)
    (loaded' : (start.after steps n).HasLoaded id second) : Delivered start steps id remote n := by
  refine ⟨faithful, fun m before begun begins => ⟨n, before, Nat.le_refl n, ?_⟩⟩
  rcases tasks m before begun begins with here | here
  · rw [here]
    exact loaded
  · rw [here]
    exact loaded'

theorem answeredLate_sameFile :
    let events : List LocalEvent := [.made 6, .wanted ⟨0, 4⟩, .wanted ⟨2, 6⟩,
      .changed (.write 1 [9]), .changed (.truncate 5)]
    Delivered (mountWith 0).cache (scripted answeredLate) 0 [10, 11, 12, 13, 14, 15] 12 ∧
      Delivered (mountWith 0).cache (scripted answeredAtOnce) 0 [10, 11, 12, 13, 14, 15] 11 ∧
      locals (mountWith 0).cache (scripted answeredLate) 0 12 = events ∧
      locals (mountWith 0).cache (scripted answeredAtOnce) 0 11 = events ∧
      ∃ late soon lateContent soonContent,
        Cache.entry? ((mountWith 0).cache.after (scripted answeredLate) 12) 0 = some late ∧
        Cache.entry? ((mountWith 0).cache.after (scripted answeredAtOnce) 11) 0 = some soon ∧
        late.content = some lateContent ∧ soon.content = some soonContent ∧
        lateContent.size = soonContent.size ∧ late.populated = soon.populated ∧
        ∀ p, p < lateContent.size → p ∈ late.populated →
          lateContent.byteAt p = soonContent.byteAt p := by
  have late : Delivered (mountWith 0).cache (scripted answeredLate) 0
      [10, 11, 12, 13, 14, 15] 12 :=
    @delivered_of_pair _ _ _ _ _ 0 1 (by decide) (by decide) ⟨_, _, rfl, rfl, rfl⟩
      ⟨_, _, rfl, rfl, rfl⟩
  have soon : Delivered (mountWith 0).cache (scripted answeredAtOnce) 0
      [10, 11, 12, 13, 14, 15] 11 :=
    @delivered_of_pair _ _ _ _ _ 0 1 (by decide) (by decide) ⟨_, _, rfl, rfl, rfl⟩
      ⟨_, _, rfl, rfl, rfl⟩
  have same : locals (mountWith 0).cache (scripted answeredLate) 0 12
      = locals (mountWith 0).cache (scripted answeredAtOnce) 0 11 := rfl
  exact ⟨late, soon, rfl, rfl, _, _, _, _, rfl, rfl, rfl, rfl,
    sameFile_of_sameLocals _ _ late soon same rfl rfl rfl rfl⟩

end Cache

end SparseCache
