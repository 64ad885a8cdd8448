import SparseCache.Proofs.Cache.Tables

namespace SparseCache

/-! What a load still owes.

While a load runs the file may change under it.  No step makes a hole, so every
hole within reach of a load is one that some fetch of it has yet to fill.
-/

/-- The stream of a fetch ends only once all of it has come. -/
def Reply.Whole (fetch : Fetch) (reply : Reply) : Prop :=
  reply = .ended → fetch.gap.length ≤ fetch.received

namespace Load

variable {load : Load} {entry after : Entry} {span : Span} {offset count i p : Nat} {reply : Reply}

/-- Some fetch has the offset in its gap and has not come to it. -/
def Owes (load : Load) (p : Nat) : Prop :=
  ∃ (i : Nat) (fetch : Fetch), load.fetches[i]? = some fetch ∧
    fetch.gap.lo + fetch.received ≤ p ∧ p < fetch.gap.hi

/-- Every hole of the entry within the span is owed. -/
def Covers (load : Load) (entry : Entry) (span : Span) : Prop :=
  ∀ p, p ∈ span → entry.Hole p → load.Owes p

theorem Covers.mono (covers : load.Covers entry span)
    (fewer : ∀ p, after.Hole p → entry.Hole p) : load.Covers after span :=
  fun p wanted hole => covers p wanted (fewer p hole)

theorem covers_start (started : Load.start entry offset count = .ok load) :
    load.Covers entry ⟨offset, offset + count⟩ := by
  intro p wanted hole
  obtain ⟨content, stored, -, rfl⟩ := start_ok started
  obtain ⟨inside, missing⟩ := (Entry.hole_iff_of_content stored).mp hole
  have within : p ∈ (⟨offset, min content.size (offset + count)⟩ : Span) :=
    Span.mem_iff.mpr ⟨wanted.1, by have := wanted.2; simp only at this ⊢; omega⟩
  obtain ⟨gap, found, lower, upper⟩ := SpanSet.mem_gaps_iff.mpr ⟨within, missing⟩
  obtain ⟨i, position⟩ := List.mem_iff_getElem?.mp found
  exact ⟨i, { gap }, by simp [position], lower, upper⟩

theorem planned_start (started : Load.start entry offset count = .ok load) :
    ∀ fetch ∈ load.fetches, fetch.state = .planned := by
  obtain ⟨content, -, -, rfl⟩ := start_ok started
  intro fetch found
  obtain ⟨gap, -, rfl⟩ := List.mem_map.mp found
  rfl

theorem owes_ask {call : CallId} : (load.ask i call).Owes p ↔ load.Owes p := by
  have same : ∀ (j : Nat) (fetch : Fetch), (load.ask i call).fetches[j]? = some fetch →
      ∃ old : Fetch, load.fetches[j]? = some old ∧ fetch.gap = old.gap ∧
        fetch.received = old.received := by
    intro j fetch found
    simp only [ask, List.getElem?_modify, Option.map_eq_map, Option.map_eq_some_iff] at found
    obtain ⟨old, present, changed⟩ := found
    refine ⟨old, present, ?_⟩
    split at changed <;> subst changed <;> exact ⟨rfl, rfl⟩
  constructor
  · rintro ⟨j, fetch, found, lower, upper⟩
    obtain ⟨old, present, gap, received⟩ := same j fetch found
    exact ⟨j, old, present, by rw [← gap, ← received]; exact lower, by rw [← gap]; exact upper⟩
  · rintro ⟨j, fetch, found, lower, upper⟩
    by_cases here : i = j
    · refine ⟨j, { fetch with state := .asked call }, ?_, lower, upper⟩
      rw [ask, List.getElem?_modify, found, here]
      simp
    · exact ⟨j, fetch, by rw [ask, List.getElem?_modify_ne _ _ here, found], lower, upper⟩

/-- A fetch keeps its gap, and what it passes over is filled. -/
theorem hole_of_receive {fetch : Fetch} (hole : (fetch.receive entry reply).2.Hole p) :
    entry.Hole p ∧ (fetch.receive entry reply).1.gap = fetch.gap ∧
      (fetch.gap.lo + fetch.received ≤ p →
        fetch.gap.lo + (fetch.receive entry reply).1.received ≤ p) := by
  cases reply with
  | accepted => exact ⟨hole, rfl, id⟩
  | ended => exact ⟨hole, rfl, id⟩
  | failed cause => exact ⟨hole, rfl, id⟩
  | chunk data =>
      simp only [Fetch.receive] at hole ⊢
      cases done : entry.store (fetch.gap.lo + fetch.received)
          (data.take (fetch.gap.length - fetch.received)) with
      | error error =>
          simp only [done] at hole
          exact ⟨hole, rfl, id⟩
      | ok stored =>
          simp only [done] at hole ⊢
          have kept : stored.Hole p := by
            split at hole <;> exact hole
          obtain ⟨before, beyond⟩ := Entry.hole_of_store done kept
          refine ⟨before, by split <;> rfl, fun reached => ?_⟩
          split <;> simp only <;> omega

/-- Answers that do not arrive, or arrive at a fetch that waits for none, are lost. -/
theorem receive_cases (load : Load) (i : Nat) (entry : Entry) (reply : Reply) :
    load.receive i entry reply = (load, entry) ∨
      ∃ fetch call, load.fetches[i]? = some fetch ∧ fetch.state = .asked call ∧
        load.receive i entry reply
          = ({ load with fetches := load.fetches.set i (fetch.receive entry reply).1 },
            (fetch.receive entry reply).2) := by
  unfold receive
  cases found : load.fetches[i]? with
  | none => exact .inl rfl
  | some fetch =>
      simp only
      cases waiting : fetch.state with
      | planned => exact .inl rfl
      | asked call => exact .inr ⟨fetch, call, rfl, waiting, rfl⟩
      | finished => exact .inl rfl
      | failed error => exact .inl rfl

/-- The entry changes by what a chunk brings, or not at all. -/
theorem receive_stores (load : Load) (i : Nat) (entry : Entry) (reply : Reply) :
    (load.receive i entry reply).2 = entry ∨
      ∃ fetch data stored, load.fetches[i]? = some fetch ∧ reply = .chunk data ∧
        entry.store (fetch.gap.lo + fetch.received) (data.take (fetch.gap.length - fetch.received))
          = .ok stored ∧
        (load.receive i entry reply).2 = stored := by
  rcases receive_cases load i entry reply with lost | ⟨fetch, call, found, -, taken⟩
  · rw [lost]
    exact .inl rfl
  · rw [taken]
    cases reply with
    | accepted => exact .inl rfl
    | ended => exact .inl rfl
    | failed cause => exact .inl rfl
    | chunk data =>
        simp only [Fetch.receive]
        cases done : entry.store (fetch.gap.lo + fetch.received)
            (data.take (fetch.gap.length - fetch.received)) with
        | error error => exact .inl rfl
        | ok stored =>
            refine .inr ⟨fetch, data, stored, found, rfl, done, ?_⟩
            simp only
            split <;> rfl

theorem hole_of_load_receive (hole : (load.receive i entry reply).2.Hole p) : entry.Hole p := by
  rcases receive_cases load i entry reply with lost | ⟨fetch, call, -, -, taken⟩
  · rwa [lost] at hole
  · rw [taken] at hole
    exact (hole_of_receive hole).1

theorem Covers.receive (covers : load.Covers entry span) :
    (load.receive i entry reply).1.Covers (load.receive i entry reply).2 span := by
  rcases receive_cases load i entry reply with lost | ⟨fetch, call, found, -, taken⟩
  · rwa [lost]
  · intro p wanted hole
    rw [taken] at hole ⊢
    obtain ⟨before, gap, advanced⟩ := hole_of_receive hole
    obtain ⟨j, owing, position, lower, upper⟩ := covers p wanted before
    have bound := (List.getElem?_eq_some_iff.mp found).1
    by_cases here : i = j
    · subst here
      rw [found] at position
      cases position
      exact ⟨i, _, List.getElem?_set_self bound, by rw [gap]; exact advanced lower,
        by rw [gap]; exact upper⟩
    · exact ⟨j, owing, by rw [List.getElem?_set_ne here, position], lower, upper⟩

/-! ### Loads that have ended -/

theorem finished_of_outcomeInOrder {fetches : List Fetch}
    (done : outcomeInOrder fetches = some (.ok ())) :
    ∀ fetch ∈ fetches, fetch.state = .finished := by
  induction fetches with
  | nil => intro fetch found; cases found
  | cons first fetches ih =>
      intro fetch found
      unfold outcomeInOrder at done
      cases state : first.state with
      | planned => simp [state] at done
      | asked call => simp [state] at done
      | failed error => simp [state] at done
      | finished =>
          simp only [state] at done
          rcases List.mem_cons.mp found with rfl | later
          · exact state
          · exact ih done fetch later

/-- A load succeeds only once all of its fetches have come to their end. -/
theorem finished_of_outcome (done : load.outcome? = some (.ok ())) :
    ∀ fetch ∈ load.fetches, fetch.state = .finished := by
  unfold outcome? at done
  split at done
  · split at done
    · cases done
    · exact finished_of_outcomeInOrder done
  · exact finished_of_outcomeInOrder done

/-- What counts as finished has brought all it was to bring. -/
def Honest (load : Load) : Prop :=
  ∀ fetch ∈ load.fetches, fetch.state = .finished → fetch.gap.length ≤ fetch.received

theorem honest_of_planned (planned : ∀ fetch ∈ load.fetches, fetch.state = .planned) :
    load.Honest := by
  intro fetch found finished
  rw [planned fetch found] at finished
  cases finished

theorem Honest.ask (honest : load.Honest) {call : CallId} : (load.ask i call).Honest := by
  intro fetch found finished
  obtain ⟨j, position⟩ := List.mem_iff_getElem?.mp found
  simp only [Load.ask, List.getElem?_modify, Option.map_eq_map, Option.map_eq_some_iff] at position
  obtain ⟨old, present, changed⟩ := position
  split at changed
  · subst changed
    cases finished
  · subst changed
    exact honest old (List.mem_of_getElem? present) finished

theorem Honest.receive (honest : load.Honest)
    (whole : ∀ fetch, load.fetches[i]? = some fetch → reply.Whole fetch) :
    (load.receive i entry reply).1.Honest := by
  rcases receive_cases load i entry reply with lost | ⟨fetch, call, found, waiting, taken⟩
  · rwa [lost]
  · rw [taken]
    intro other member finished
    rcases List.mem_or_eq_of_mem_set member with old | rfl
    · exact honest other old finished
    · cases reply with
      | accepted => simp [Fetch.receive, waiting] at finished
      | ended => exact whole fetch found rfl
      | failed cause => simp [Fetch.receive] at finished
      | chunk data =>
          cases done : entry.store (fetch.gap.lo + fetch.received)
              (data.take (fetch.gap.length - fetch.received)) with
          | error error => simp [Fetch.receive, done] at finished
          | ok stored =>
              by_cases more : fetch.received
                  + (data.take (fetch.gap.length - fetch.received)).length < fetch.gap.length
              · simp only [Fetch.receive, done, more, if_true, waiting] at finished
                cases finished
              · simp only [Fetch.receive, done, more, if_false]
                exact Nat.le_of_not_lt more

/-- A load that served everything it was asked for leaves nothing owing. -/
theorem not_owes_of_outcome (honest : load.Honest) (done : load.outcome? = some (.ok ())) :
    ¬ load.Owes p := by
  rintro ⟨i, fetch, found, lower, upper⟩
  have member := List.mem_of_getElem? found
  have whole := honest fetch member (finished_of_outcome done fetch member)
  simp only [Span.length] at whole
  omega

end Load

namespace Entry

variable {entry after : Entry} {p : Nat}

theorem sameFile_reopened (entry : Entry) (modified : Modified) :
    entry.SameFile (entry.reopened modified) :=
  ⟨rfl, rfl⟩

theorem sameFile_releaseHandle {left : Nat} (released : entry.releaseHandle? = some (left, after)) :
    entry.SameFile after := by
  obtain ⟨-, rfl⟩ := releaseHandle?_some released
  exact ⟨rfl, rfl⟩

theorem hole_of_displaced (displaced : entry.Displaced after) (hole : after.Hole p) :
    entry.Hole p := by
  obtain ⟨path, rfl | rfl⟩ := displaced
  · have same : SameFile { entry with path } entry := ⟨rfl, rfl⟩
    exact same.hole_iff.mp hole
  · exact absurd hole (not_hole_of_closed rfl)

end Entry

namespace Work

/-- What a task wants to have fetched. -/
def wanted : Work → Span
  | .transfer job => ⟨job.offset, job.offset + job.count⟩
  | .upload _ => ⟨0, 0 + Cache.everything⟩
  | .grace .. => ⟨0, 0⟩

variable {work : Work} {id : EntryId} {load next : Load}

theorem wanted_begun : work.begun.wanted = work.wanted := by
  cases work <;> rfl

theorem wanted_bare : work.bare.wanted = work.wanted := by
  cases work <;> rfl

theorem wanted_withLoad : (work.withLoad load).wanted = work.wanted := by
  cases work <;> rfl

theorem entry_of_load? (waits : work.load? = some (id, load)) : work.entry = id := by
  cases work with
  | transfer job =>
      obtain ⟨_, -, same⟩ := Option.map_eq_some_iff.mp waits
      cases same
      rfl
  | upload job =>
      simp only [load?] at waits
      split at waits
      · cases waits
        rfl
      · cases waits
  | grace entry epoch due => cases waits

theorem load?_withLoad (waits : work.load? = some (id, load)) :
    (work.withLoad next).load? = some (id, next) := by
  rw [← entry_of_load? waits]
  cases work with
  | transfer job => rfl
  | upload job => rfl
  | grace entry epoch due => cases waits

end Work

namespace Cache

variable {cache : Cache} {id : EntryId} {task : TaskId} {work : Work} {entry after : Entry}
  {step : Step} {load : Load} {p : Nat}

/-- What may become of the file of an entry in a step. -/
inductive FileTurn (cache : Cache) (id : EntryId) (before : Entry) : Step → Entry → Prop
  /-- It stays as it is or is given up.  If the step asked for a change, that was refused. -/
  | kept {step : Step} {after : Entry}
      (refused : ∀ change, step.change? cache id = some change →
        ∃ error, change.on before = .error error)
      (same : before.SameFile after ∨ after.content = none) : FileTurn cache id before step after
  | changed {step : Step} {change : LocalChange} {changed after : Entry}
      (asked : step.change? cache id = some change)
      (done : change.on before = .ok changed) (same : changed.SameFile after) :
      FileTurn cache id before step after
  | filled {task : TaskId} {i : Nat} {reply : Reply} {work : Work} {load : Load}
      (waiting : cache.loadOf? task = some (work, id, load)) :
      FileTurn cache id before (.act (.deliver task i reply)) (load.receive i before reply).2

theorem FileTurn.quiet (quiet : step.change? cache id = none) (same : entry.SameFile after) :
    FileTurn cache id entry step after := by
  refine .kept (fun change asked => ?_) (.inl same)
  rw [quiet] at asked
  cases asked

theorem Turn.file (turn : Turn cache id entry step after) :
    FileTurn cache id entry step after := by
  cases turn with
  | displaced refused displaced =>
      obtain ⟨path, rfl | rfl⟩ := displaced
      · exact .kept refused (.inl ⟨rfl, rfl⟩)
      · exact .kept refused (.inr rfl)
  | @wrote offset data n _ done =>
      have applied : (LocalChange.write offset data).on entry = .ok after := by
        simp [LocalChange.on, done, Except.map]
      exact .changed (if_pos rfl) applied ⟨rfl, rfl⟩
  | @resized size _ done =>
      have applied : (LocalChange.truncate size).on entry = .ok after := done
      exact .changed (if_pos rfl) applied ⟨rfl, rfl⟩
  | opened mapped keeps =>
      exact .quiet (by simp [Step.change?, keeps]) (entry.sameFile_reopened _)
  | @emptied path flags size modified _ mapped wipes done =>
      have applied : (LocalChange.truncate 0).on (entry.reopened modified) = .ok after := done
      obtain ⟨direct, repeated, same⟩ := (entry.sameFile_reopened modified).symm.on applied
      exact .changed (if_pos ⟨wipes, mapped⟩) repeated same.symm
  | refused mapped wipes closed left =>
      refine .kept (fun change asked => ?_) (.inr ?_)
      · simp only [Step.change?, wipes, mapped, and_self, if_true, Option.some.injEq] at asked
        subst asked
        exact ⟨.closed, Entry.truncate_of_closed closed⟩
      · rw [← (Entry.sameFile_releaseHandle left).1]
        exact closed
  | released held left => exact .quiet rfl (Entry.sameFile_releaseHandle left)
  | filled waiting going => exact .filled waiting
  | cleaned doing about stage => exact .quiet rfl ⟨rfl, rfl⟩

theorem Turn.hole (turn : Turn cache id entry step after) (hole : after.Hole p) :
    entry.Hole p := by
  cases turn with
  | displaced refused displaced => exact Entry.hole_of_displaced displaced hole
  | wrote done => exact Entry.hole_of_write done hole
  | resized done => exact Entry.hole_of_truncate done hole
  | opened mapped keeps => exact (entry.sameFile_reopened _).hole_iff.mpr hole
  | emptied mapped wipes done =>
      exact (entry.sameFile_reopened _).hole_iff.mpr (Entry.hole_of_truncate done hole)
  | refused mapped wipes closed left =>
      exact (entry.sameFile_reopened _).hole_iff.mpr
        ((Entry.sameFile_releaseHandle left).hole_iff.mpr hole)
  | released held left => exact (Entry.sameFile_releaseHandle left).hole_iff.mpr hole
  | filled waiting going => exact Load.hole_of_load_receive hole
  | cleaned doing about stage => exact hole

/-- How the load for which a task is waiting after a step may have come to be. -/
inductive LoadCourse (cache : Cache) (task : TaskId) (id : EntryId) (work : Work) :
    Step → Load → Prop
  | kept {step : Step} {load : Load} (before : cache.doing? task = some work)
      (waits : work.load? = some (id, load)) : LoadCourse cache task id work step load
  | begins {entry : Entry} {offset count : Nat} {load : Load}
      (idle : (cache.doing? task).bind Work.load? = none)
      (found : cache.entry? id = some entry) (started : Load.start entry offset count = .ok load)
      (wanted : work.wanted = ⟨offset, offset + count⟩) :
      LoadCourse cache task id work (.act (.advance task)) load
  | requests {old : Work} {load : Load} {fetch : Fetch} {i : Nat}
      (before : cache.doing? task = some old)
      (waits : old.load? = some (id, load)) (asks : load.fetches[i]? = some fetch)
      (planned : fetch.state = .planned) (same : work.wanted = old.wanted) :
      LoadCourse cache task id work (.act (.request task i)) (load.ask i cache.nextCall)
  | receives {old : Work} {load : Load} {entry : Entry} {i : Nat} {reply : Reply}
      (before : cache.doing? task = some old)
      (waits : old.load? = some (id, load)) (found : cache.entry? id = some entry)
      (filled : Cache.entry? (cache.step (.act (.deliver task i reply))) id
        = some (load.receive i entry reply).2) (same : work.wanted = old.wanted) :
      LoadCourse cache task id work (.act (.deliver task i reply)) (load.receive i entry reply).1

theorem loadCourse_step (sound : cache.Sound) (step : Step)
    (found : (cache.step step).doing? task = some work) (waits : work.load? = some (id, load)) :
    LoadCourse cache task id work step load := by
  cases course_step sound step found with
  | kept before => exact .kept before waits
  | awaited new known => cases waits
  | asked new known => cases waits
  | scheduled new referred timely => cases waits
  | timed new ending registered goal ends => cases waits
  | begins before idle known started =>
      cases waits
      refine .begins ?_ known started rfl
      rw [before, Option.bind_some, Work.load?, idle, Option.map_none]
  | fetches before queued known dirty started =>
      cases waits
      refine .begins ?_ known started rfl
      rw [before, Option.bind_some, Work.load?, queued]
  | finishes before stage done => cases waits
  | copies before stage known stored => cases waits
  | reads before stage going source done => cases waits
  | sends before stage through told => cases waits
  | requests before waited asks planned =>
      rw [Work.load?_withLoad waited] at waits
      cases waits
      exact .requests before waited asks planned Work.wanted_withLoad
  | receives before waited going known filled =>
      rw [Work.load?_withLoad waited] at waits
      cases waits
      exact .receives before waited known filled Work.wanted_withLoad

/-- Whatever a task wants to have and an entry lacks is owed by the load of the task. -/
structure Covered (cache : Cache) : Prop where
  owed : ∀ {task work id load entry}, cache.doing? task = some work →
    work.load? = some (id, load) → cache.entry? id = some entry → load.Covers entry work.wanted

theorem covered_step (sound : cache.Sound) (rooted : cache.Rooted) (covered : cache.Covered)
    (step : Step) : (cache.step step).Covered := by
  refine ⟨fun {task work id load after} found waits present => ?_⟩
  have shrunk : ∀ {entry}, cache.entry? id = some entry → ∀ p, after.Hole p → entry.Hole p := by
    intro entry before p hole
    obtain ⟨next, present', turn⟩ := turn_step before step
    rw [present] at present'
    cases present'
    exact turn.hole hole
  have covered_before : ∀ {held load}, cache.doing? task = some held →
      held.load? = some (id, load) → load.Covers after held.wanted := by
    intro held load doing waits
    obtain ⟨entry, before⟩ := Option.isSome_iff_exists.mp
      (Work.entry_of_load? waits ▸ rooted.worked doing)
    exact (covered.owed doing waits before).mono (shrunk before)
  cases loadCourse_step sound step found waits with
  | kept before waited => exact covered_before before waited
  | begins idle known started wanted =>
      rw [wanted]
      exact (Load.covers_start started).mono (shrunk known)
  | requests before waited asks planned same =>
      rw [same]
      exact fun p wanted hole => Load.owes_ask.mpr (covered_before before waited p wanted hole)
  | receives before waited known filled same =>
      rw [filled] at present
      cases present
      rw [same]
      exact (covered.owed before waited known).receive

theorem covered_after (mount : Mount) (steps : Nat → Step) (n : Nat) :
    (mount.cache.after steps n).Covered := by
  have initial : mount.cache.Covered := ⟨fun found => by cases found⟩
  exact after_induction initial (fun n covered =>
    covered_step (sound_after mount steps n) (rooted_after mount steps n) covered _) n

/-- Loads of the entry count as finished only what has come. -/
structure Earnest (cache : Cache) (id : EntryId) : Prop where
  honest : ∀ {task work load}, cache.doing? task = some work → work.load? = some (id, load) →
    load.Honest

theorem earnest_step (sound : cache.Sound) (earnest : cache.Earnest id)
    (whole : ∀ {task i reply work load}, step = .act (.deliver task i reply) →
      cache.loadOf? task = some (work, id, load) →
      ∀ fetch, load.fetches[i]? = some fetch → reply.Whole fetch) :
    (cache.step step).Earnest id := by
  refine ⟨fun {task work load} found waits => ?_⟩
  cases loadCourse_step sound step found waits with
  | kept before waited => exact earnest.honest before waited
  | begins idle known started wanted => exact Load.honest_of_planned (Load.planned_start started)
  | requests before waited asks planned same => exact (earnest.honest before waited).ask
  | receives before waited known filled same =>
      obtain ⟨own, waiting⟩ := loadOf?_of_doing? before waited
      exact (earnest.honest before waited).receive (whole rfl waiting)

end Cache

end SparseCache
