import SparseCache.Proofs.Cache.Holes
import SparseCache.Proofs.Cache.Transfers
import SparseCache.Proofs.Entry.Answers

namespace SparseCache

/-! How the load of a transfer goes on in a run.

Its steps may fall among those of anything else, as long as nobody else changes the entry and
nobody gives the load up.  At every step the answers so far determine where it stands.
-/

/-- The offsets that a transfer wants, as far as a file of that size reaches. -/
def Transfer.span (job : Transfer) (size : Nat) : Span :=
  ⟨job.offset, min size (job.offset + job.count)⟩

/-- The read call for a gap in the file at the path. -/
def Event.readingOf (path : Path) (gap : Span) : Event := .reading path gap.lo gap.length

namespace Load

variable {load : Load} {asked : List Span} {marks : SpanSet} {size i : Nat} {span : Span}
  {answers : Span → List Reply} {now : Entry} {fetch : Fetch} {call : CallId} {reply : Reply}

/-- The gaps that the load has asked for so far, one after the other. -/
structure Asks (load : Load) (asked : List Span) : Prop where
  distinct : asked.Nodup
  mem : ∀ gap, gap ∈ asked ↔ ∃ fetch ∈ load.fetches, fetch.state ≠ .planned ∧ fetch.gap = gap

theorem exists_begun_set (found : load.fetches[i]? = some fetch) (next : Fetch)
    (same : next.gap = fetch.gap) (begun : next.state ≠ .planned) (gap : Span) :
    (∃ other ∈ load.fetches.set i next, other.state ≠ .planned ∧ other.gap = gap) ↔
      (∃ other ∈ load.fetches, other.state ≠ .planned ∧ other.gap = gap) ∨ fetch.gap = gap := by
  constructor
  · rintro ⟨other, member, started, own⟩
    rcases (mem_set_iff found).mp member with rfl | ⟨j, -, position⟩
    · exact .inr (same ▸ own)
    · exact .inl ⟨other, List.mem_of_getElem? position, started, own⟩
  · have here : fetch.gap = gap →
        ∃ other ∈ load.fetches.set i next, other.state ≠ .planned ∧ other.gap = gap :=
      fun own => ⟨next, (mem_set_iff found).mpr (.inl rfl), begun, same.trans own⟩
    rintro (⟨other, member, started, own⟩ | own)
    · obtain ⟨j, position⟩ := List.mem_iff_getElem?.mp member
      by_cases place : j = i
      · subst place
        rw [found] at position
        cases position
        exact here own
      · exact ⟨other, (mem_set_iff found).mpr (.inr ⟨j, place, position⟩), started, own⟩
    · exact here own

namespace Asks

theorem of_planned (planned : ∀ fetch ∈ load.fetches, fetch.state = .planned) : load.Asks [] := by
  refine ⟨.nil, fun gap => ⟨nofun, ?_⟩⟩
  rintro ⟨fetch, member, begun, -⟩
  exact absurd (planned fetch member) begun

/-- A gap with a planned fetch has not been asked for by way of another. -/
theorem unasked (asks : load.Asks asked) (stands : load.Stands marks size span answers now)
    (found : load.fetches[i]? = some fetch) (planned : fetch.state = .planned) :
    fetch.gap ∉ asked := by
  intro before
  obtain ⟨other, member, begun, own⟩ := (asks.mem _).mp before
  obtain ⟨j, position⟩ := List.mem_iff_getElem?.mp member
  obtain rfl := stands.eq_of_gap found position own
  rw [found] at position
  cases position
  exact begun planned

theorem ask (asks : load.Asks asked) (stands : load.Stands marks size span answers now)
    (found : load.fetches[i]? = some fetch) (planned : fetch.state = .planned) (call : CallId) :
    (load.ask i call).Asks (asked ++ [fetch.gap]) := by
  have unasked := asks.unasked stands found planned
  refine ⟨?_, fun gap => ?_⟩
  · exact List.nodup_append.mpr ⟨asks.distinct, by simp, fun gap before other listed same =>
      unasked (List.mem_singleton.mp listed ▸ same ▸ before)⟩
  · have begun := exists_begun_set found { fetch with state := .asked call } rfl nofun gap
    rw [List.mem_append, List.mem_singleton, asks.mem, ask_of_found found, begun]
    exact or_congr Iff.rfl eq_comm

theorem receive (asks : load.Asks asked) (found : load.fetches[i]? = some fetch)
    (waits : fetch.state = .asked call) (entry : Entry) (reply : Reply) :
    (load.receive i entry reply).1.Asks asked := by
  rw [receive_of_asked found waits]
  refine ⟨asks.distinct, fun gap => ?_⟩
  rw [asks.mem, exists_begun_set found _ Fetch.gap_receive (Fetch.receive_begun waits _ _)]
  refine (or_iff_left_of_imp fun own => ?_).symm
  exact ⟨fetch, List.mem_of_getElem? found, by rw [waits]; nofun, own⟩

end Asks

namespace Stands

variable {remote : Span → List Reply}

/-- A load that came through was told for every gap all that counts, and of no error. -/
theorem of_succeeded (stands : load.Stands marks size span answers now)
    (done : load.outcome? = some (.ok ())) (answered : ∀ gap, answers gap <+: remote gap)
    (longest : marks.LongestGap span gap) :
    (∀ cause, ¬ Reply.Errs gap (remote gap) cause) ∧
      Reply.arrived gap (remote gap) = Reply.arrived gap (answers gap) := by
  obtain ⟨fetch, member, rfl⟩ := stands.longestGap_iff.mp longest
  have follows := (stands.fetches fetch member).state
  rw [finished_of_outcome done fetch member] at follows
  obtain ⟨settles, errless⟩ := follows
  refine ⟨fun cause errs => errless cause ?_, Reply.arrived_of_settles (answered _) settles⟩
  exact (Reply.errs_iff_of_settles (answered _) settles).mp errs

/-- A load that failed did so because the answers for one of its gaps did. -/
theorem of_failed (stands : load.Stands marks size span answers now) {error : EntryError}
    (done : load.outcome? = some (.error error)) (answered : ∀ gap, answers gap <+: remote gap) :
    ∃ fetch ∈ load.fetches, fetch.state = .failed error ∧
      ∃ cause, Reply.Errs fetch.gap (remote fetch.gap) cause ∧ error = .transfer cause := by
  obtain ⟨fetch, member, state⟩ := failed_of_outcome done
  have follows := (stands.fetches fetch member).state
  rw [state] at follows
  obtain ⟨cause, errs, same⟩ := follows
  have errs' := (Reply.errs_iff_of_settles (answered fetch.gap) errs.settles).mpr errs
  exact ⟨fetch, member, state, cause, errs', same⟩

end Stands

end Load

namespace Cache

variable {cache start : Cache} {steps : Nat → Step} {task : TaskId} {job : Transfer} {load : Load}
  {step : Step} {entry now : Entry} {content : Content} {id : EntryId} {gap : Span} {i n p : Nat}
  {reply : Reply} {remote : Span → List Reply}

/-! ### What a task asks and is told in a run -/

/-- The task that takes the step. -/
def Step.runner? : Step → Option TaskId
  | .act (.advance own) | .act (.request own _) | .act (.deliver own _ _) | .act (.settle own _) =>
    some own
  | _ => none

theorem Step.runs_iff : step.Runs task ↔ step.runner? = some task := by
  cases step with
  | act action =>
      cases action with
      | tick milliseconds => simp [Runs, runner?]
      | _ => simp [Runs, runner?]
  | _ => simp [Runs, runner?]

/-- What is recorded in the step, if it is one of the task. -/
def Step.records (cache : Cache) (task : TaskId) (step : Step) : List Event :=
  if step.runner? = some task then (cache.step step).events.drop cache.events.length else []

/-- The gap for which the task awaits answers at place `i` of its load. -/
def awaited? (cache : Cache) (task : TaskId) (i : Nat) : Option Span :=
  (cache.loadOf? task).bind fun (_, _, load) =>
    if load.outcome?.isSome then none
    else load.fetches[i]?.bind fun fetch => fetch.call?.map fun _ => fetch.gap

/-- The answer to the task's read call for the gap, if the step brings one. -/
def Step.answer? (cache : Cache) (task : TaskId) (gap : Span) : Step → Option Reply
  | .act (.deliver own i reply) =>
    if own = task ∧ cache.awaited? task i = some gap then some reply else none
  | _ => none

section

variable (start : Cache) (steps : Nat → Step) (task : TaskId) (n : Nat)

/-- What the task's own steps recorded by step `n`. -/
def recorded : List Event :=
  (List.range n).flatMap fun m => (steps m).records (start.after steps m) task

/-- The answers that the task's read call for the gap got by step `n`. -/
def answers (gap : Span) : List Reply :=
  (List.range n).filterMap fun m => (steps m).answer? (start.after steps m) task gap

theorem recorded_succ : recorded start steps task (n + 1)
    = recorded start steps task n ++ (steps n).records (start.after steps n) task := by
  simp [recorded, List.range_succ]

theorem answers_succ (gap : Span) : answers start steps task (n + 1) gap
    = answers start steps task n gap
      ++ ((steps n).answer? (start.after steps n) task gap).toList := by
  simp only [answers, List.range_succ, List.filterMap_append]
  cases found : (steps n).answer? (start.after steps n) task gap <;> simp [found]

theorem answers_of_unanswered
    (unanswered : ∀ gap, (steps n).answer? (start.after steps n) task gap = none) :
    answers start steps task (n + 1) = answers start steps task n := by
  funext gap
  rw [answers_succ, unanswered]
  exact List.append_nil _

/-- Someone has begun to poll the task by step `n`. -/
def Begun : Prop := ∃ m, m < n ∧ steps m = .act (.advance task)

end

theorem Begun.later (begun : Begun steps task n) : Begun steps task (n + 1) := by
  obtain ⟨m, before, begins⟩ := begun
  exact ⟨m, Nat.lt_succ_of_lt before, begins⟩

theorem records_of_not_runs (elsewhere : ¬ step.Runs task) : step.records cache task = [] := by
  rw [Step.records, if_neg (fun own => elsewhere (Step.runs_iff.mpr own))]

theorem records_of_events {more : List Event} (runs : step.Runs task)
    (told : (cache.step step).events = cache.events ++ more) : step.records cache task = more := by
  rw [Step.records, if_pos (Step.runs_iff.mp runs), told, List.drop_left]

theorem records_of_silent (silent : (cache.step step).events = cache.events) :
    step.records cache task = [] := by
  by_cases runs : step.Runs task
  · exact records_of_events runs (by rw [silent, List.append_nil])
  · exact records_of_not_runs runs

theorem answer?_deliver : (Step.act (.deliver task i reply)).answer? cache task gap
    = if cache.awaited? task i = some gap then some reply else none := by
  rw [Step.answer?]
  simp only [true_and]

theorem answer?_of_not_runs (elsewhere : ¬ step.Runs task) :
    step.answer? cache task gap = none := by
  unfold Step.answer?
  split
  · exact if_neg fun own => elsewhere own.1
  · rfl

/-! ### The steps of a transfer -/

theorem live?_of_transfer (doing : cache.doing? task = some (.transfer job)) :
    cache.live? task = some (.transfer job) := by
  obtain ⟨own, live, same⟩ := live?_of_doing? doing
  rw [live, Work.transfer_of_bare same]

theorem loadOf?_of_transfer
    (doing : cache.doing? task = some (.transfer { job with load := some load })) :
    cache.loadOf? task = some (.transfer { job with load := some load }, job.entry, load) := by
  rw [loadOf?_eq, live?_of_transfer doing]
  rfl

theorem awaited?_of_transfer
    (doing : cache.doing? task = some (.transfer { job with load := some load })) :
    cache.awaited? task i =
      if load.outcome?.isSome then none
      else load.fetches[i]?.bind fun fetch => fetch.call?.map fun _ => fetch.gap := by
  rw [awaited?, loadOf?_of_transfer doing]
  rfl

theorem doing?_setWork_self {old work : Work} (doing : cache.doing? task = some old) :
    (cache.setWork task work).doing? task = some work.bare := by
  rw [doing?_setWork, if_pos rfl, doing]
  rfl

theorem doing?_endTransfer {result : Except EntryError (Option Bytes)} :
    (cache.endTransfer task result).doing? task = none :=
  doing?_dropTask.trans (if_pos rfl)

theorem advance_waiting (doing : cache.doing? task = some (.transfer job)) (idle : job.load = none)
    (found : cache.entry? job.entry = some now) :
    cache.step (.act (.advance task)) =
      match Load.start now job.offset job.count with
      | .ok load => cache.setWork task (.transfer { job with load := some load })
      | .error error => cache.endTransfer task (.error error) := by
  simp only [Cache.step, act, advance_of_live (live?_of_transfer doing), advanceTransfer, idle,
    found, Option.map_some]
  cases Load.start now job.offset job.count <;> rfl

theorem advance_fetching
    (doing : cache.doing? task = some (.transfer { job with load := some load })) :
    cache.step (.act (.advance task)) =
      match load.outcome? with
      | none => cache
      | some outcome =>
        cache.endTransfer task (cache.transferResult { job with load := some load } outcome) := by
  cases done : load.outcome? <;>
    simp only [Cache.step, act, advance_of_live (live?_of_transfer doing), advanceTransfer, done]

theorem request_planned
    (doing : cache.doing? task = some (.transfer { job with load := some load })) {fetch : Fetch}
    (position : load.fetches[i]? = some fetch) (planned : fetch.state = .planned) :
    cache.step (.act (.request task i)) =
      ({ cache with nextCall := cache.nextCall + 1 }.setWork task
        (.transfer { job with load := some (load.ask i cache.nextCall) })).emit
          (.readingOf load.path fetch.gap) := by
  obtain ⟨gap, received, state⟩ := fetch
  cases planned
  simp only [Cache.step, act, request, loadOf?_of_transfer doing, position]
  rfl

/-- Only a planned fetch is asked for. -/
theorem request_fetching
    (doing : cache.doing? task = some (.transfer { job with load := some load })) (i : Nat) :
    cache.step (.act (.request task i)) = cache ∨
      ∃ fetch, load.fetches[i]? = some fetch ∧ fetch.state = .planned := by
  simp only [Cache.step, act, request, loadOf?_of_transfer doing]
  split
  · rename_i gap received found
    exact .inr ⟨_, found, rfl⟩
  · exact .inl rfl

theorem deliver_fetching
    (doing : cache.doing? task = some (.transfer { job with load := some load }))
    (found : cache.entry? job.entry = some now) (i : Nat) (reply : Reply) :
    cache.step (.act (.deliver task i reply)) =
      if load.outcome?.isSome then cache
      else (cache.setEntry job.entry (load.receive i now reply).2).setWork task
        (.transfer { job with load := some (load.receive i now reply).1 }) := by
  simp only [Cache.step, act, deliver, loadOf?_of_transfer doing, found]
  rfl

theorem settle_transfer (doing : cache.doing? task = some (.transfer job))
    {result : Except RemoteError Unit} : cache.step (.act (.settle task result)) = cache := by
  simp only [Cache.step, act, settle, live?_eq_some_iff.mp (live?_of_transfer doing)]

theorem runs_cases (runs : step.Runs task) :
    step = .act (.advance task) ∨ (∃ i, step = .act (.request task i)) ∨
      (∃ i reply, step = .act (.deliver task i reply)) ∨
      ∃ result, step = .act (.settle task result) := by
  cases step with
  | act action =>
      cases action with
      | advance own => cases runs; exact .inl rfl
      | request own i => cases runs; exact .inr (.inl ⟨i, rfl⟩)
      | deliver own i reply => cases runs; exact .inr (.inr (.inl ⟨i, reply, rfl⟩))
      | settle own result => cases runs; exact .inr (.inr (.inr ⟨result, rfl⟩))
      | tick milliseconds => cases runs
  | _ => cases runs

/-- A transfer succeeds as its load does, with the bytes if they were wanted. -/
theorem map_transferResult (found : cache.entry? job.entry = some now)
    (stored : now.content = some content) (outcome : Except EntryError Unit) :
    (cache.transferResult job outcome).map (fun _ => ()) = outcome := by
  cases outcome with
  | error error => rfl
  | ok =>
      simp only [transferResult, found]
      split
      · simp only [Entry.readLocal, Entry.content?, stored, bind, Except.bind, Except.map]
      · rfl

theorem loadOf?_waiting (doing : cache.doing? task = some (.transfer job))
    (idle : job.load = none) : cache.loadOf? task = none := by
  rw [loadOf?_eq, live?_of_transfer doing, Option.bind_some, Work.load?, idle]
  rfl

/-- Whatever happens to a transfer whose load has not begun is nothing, unless the load begins. -/
theorem begins_or_unchanged (doing : cache.doing? task = some (.transfer job))
    (idle : job.load = none) (runs : step.Runs task) :
    step = .act (.advance task) ∨ step ≠ .act (.advance task) ∧ cache.step step = cache := by
  rcases runs_cases runs with advances | ⟨i, rfl⟩ | ⟨i, reply, rfl⟩ | ⟨result, rfl⟩
  · exact .inl advances
  · refine .inr ⟨by simp, ?_⟩
    simp only [Cache.step, act, Cache.request, loadOf?_waiting doing idle]
  · refine .inr ⟨by simp, ?_⟩
    simp only [Cache.step, act, Cache.deliver, loadOf?_waiting doing idle]
  · exact .inr ⟨by simp, settle_transfer doing⟩

theorem loadOf?_gone (gone : cache.doing? task = none) : cache.loadOf? task = none := by
  rw [doing?, Option.map_eq_none_iff] at gone
  rw [loadOf?_eq, gone]
  rfl

theorem answer?_of_loadOf? (loadless : cache.loadOf? task = none) :
    step.answer? cache task gap = none := by
  unfold Step.answer?
  split
  · refine if_neg fun own => ?_
    rw [awaited?, loadless] at own
    cases own.2
  · rfl

theorem doing?_of_gone (sound : cache.Sound) (known : task < cache.nextTask)
    (gone : cache.doing? task = none) (step : Step) :
    Cache.doing? (cache.step step) task = none := by
  refine Option.eq_none_iff_forall_ne_some.mpr fun work doing => ?_
  rcases (course_step sound step doing).begun with ⟨old, before, -⟩ | new
  · rw [gone] at before
    cases before
  · exact absurd known (Nat.not_lt_of_le new)

theorem awaited?_of_asked
    (doing : cache.doing? task = some (.transfer { job with load := some load }))
    (going : load.outcome?.isSome = false) {fetch : Fetch} {call : CallId}
    (found : load.fetches[i]? = some fetch) (asked : fetch.state = .asked call) :
    cache.awaited? task i = some fetch.gap := by
  rw [awaited?_of_transfer doing, going, found]
  simp [Fetch.call?, asked]

/-- An answer that no fetch waits for is lost. -/
theorem receive_of_not_awaited
    (doing : cache.doing? task = some (.transfer { job with load := some load }))
    (going : load.outcome?.isSome = false) (nobody : cache.awaited? task i = none) (now : Entry)
    (reply : Reply) : load.receive i now reply = (load, now) := by
  rcases load.receive_cases i now reply with lost | ⟨fetch, call, found, asked, -⟩
  · exact lost
  · rw [awaited?_of_asked doing going found asked] at nobody
    cases nobody

theorem asked_of_awaited
    (doing : cache.doing? task = some (.transfer { job with load := some load }))
    (awaited : cache.awaited? task i = some gap) :
    ∃ fetch call, load.fetches[i]? = some fetch ∧ fetch.state = .asked call ∧
      fetch.gap = gap := by
  rw [awaited?_of_transfer doing] at awaited
  split at awaited
  · cases awaited
  · obtain ⟨fetch, found, same⟩ := Option.bind_eq_some_iff.mp awaited
    obtain ⟨call, asked, same⟩ := Option.map_eq_some_iff.mp same
    refine ⟨fetch, call, found, ?_, same⟩
    unfold Fetch.call? at asked
    split at asked
    · cases asked
      assumption
    · cases asked

/-! ### Where a transfer stands in a run -/

/-- Up to step `n` nobody gives the task up, and nothing but its own steps changes the file of the
entry or its path. -/
structure Undisturbed (start : Cache) (steps : Nat → Step) (task : TaskId) (id : EntryId)
    (n : Nat) : Prop where
  awaited : ∀ m, m < n → steps m ≠ .giveUp task
  untouched : ∀ m before after, m < n → ¬ (steps m).Runs task →
    Cache.entry? (start.after steps m) id = some before →
    Cache.entry? (start.after steps (m + 1)) id = some after →
    before.SameFile after ∧ after.path = before.path

theorem Undisturbed.earlier {m : Nat} (undisturbed : Undisturbed start steps task id n)
    (before : m ≤ n) : Undisturbed start steps task id m :=
  ⟨fun k earlier => undisturbed.awaited k (Nat.lt_of_lt_of_le earlier before),
    fun k old new earlier => undisturbed.untouched k old new (Nat.lt_of_lt_of_le earlier before)⟩

/-- The load is under way: the answers have brought it and the entry as far as they had to, and
its read calls are on record. -/
structure Fetching (start : Cache) (steps : Nat → Step) (task : TaskId) (job : Transfer)
    (entry : Entry) (size n : Nat) (now : Entry) (load : Load) (asked : List Span) : Prop where
  inside : job.offset ≤ size
  doing : (start.after steps n).doing? task = some (.transfer { job with load := some load })
  found : Cache.entry? (start.after steps n) job.entry = some now
  stands : load.Stands entry.populated size (job.span size) (answers start steps task n) now
  place : load.path = entry.path
  asks : load.Asks asked
  told : recorded start steps task n = asked.map (.readingOf entry.path)

/-- Where the load of a transfer stands that waited, at the start of the run, to begin with an
entry of that size. -/
inductive Stage (start : Cache) (steps : Nat → Step) (task : TaskId) (job : Transfer)
    (entry : Entry) (size : Nat) (n : Nat) : Prop
  | waiting {now : Entry} (unbegun : ¬ Begun steps task n)
      (doing : (start.after steps n).doing? task = some (.transfer job))
      (found : Cache.entry? (start.after steps n) job.entry = some now)
      (same : entry.SameFile now) (path : now.path = entry.path)
      (told : recorded start steps task n = [])
      (unanswered : ∀ gap, answers start steps task n gap = [])
  | refused {now : Entry} (past : size < job.offset) (begun : Begun steps task n)
      (gone : (start.after steps n).doing? task = none)
      (found : Cache.entry? (start.after steps n) job.entry = some now)
      (same : entry.SameFile now)
      (told : recorded start steps task n
        = [.transferred task (.error (.pastEnd job.offset size))])
  | fetching {now : Entry} {load : Load} {asked : List Span}
      (under : Fetching start steps task job entry size n now load asked)
  | ended {now : Entry} {load : Load} {asked : List Span}
      {result : Except EntryError (Option Bytes)} (inside : job.offset ≤ size)
      (gone : (start.after steps n).doing? task = none)
      (found : Cache.entry? (start.after steps n) job.entry = some now)
      (stands : load.Stands entry.populated size (job.span size) (answers start steps task n) now)
      (asks : load.Asks asked) (done : load.outcome? = some (result.map fun _ => ()))
      (told : recorded start steps task n
        = asked.map (.readingOf entry.path) ++ [.transferred task result])

/-- A step that is nothing to the load leaves it where it stands. -/
theorem Stage.still {size : Nat} (stage : Stage start steps task job entry size n)
    (doing : (start.after steps (n + 1)).doing? task = (start.after steps n).doing? task)
    (entries : ∀ now, Cache.entry? (start.after steps n) job.entry = some now →
      ∃ next, Cache.entry? (start.after steps (n + 1)) job.entry = some next ∧
        now.SameFile next ∧ next.path = now.path)
    (silent : (steps n).records (start.after steps n) task = [])
    (unanswered : ∀ gap, (steps n).answer? (start.after steps n) task gap = none)
    (unbegun : steps n = .act (.advance task) →
      (start.after steps n).doing? task ≠ some (.transfer job)) :
    Stage start steps task job entry size (n + 1) := by
  have told : recorded start steps task (n + 1) = recorded start steps task n := by
    rw [recorded_succ, silent, List.append_nil]
  have answered := answers_of_unanswered start steps task n unanswered
  cases stage with
  | waiting unbegun' doing' found same path told' unanswered' =>
      obtain ⟨next, present, kept, place⟩ := entries _ found
      refine .waiting ?_ (doing.trans doing') present (same.trans kept) (place.trans path)
        (told.trans told') fun gap => by rw [answered, unanswered']
      rintro ⟨m, before, begins⟩
      rcases Nat.lt_succ_iff_lt_or_eq.mp before with earlier | rfl
      · exact unbegun' ⟨m, earlier, begins⟩
      · exact unbegun begins doing'
  | refused past begun gone found same told' =>
      obtain ⟨next, present, kept, -⟩ := entries _ found
      exact .refused past begun.later (doing.trans gone) present (same.trans kept)
        (told.trans told')
  | fetching under =>
      obtain ⟨next, present, kept, -⟩ := entries _ under.found
      exact .fetching { under with
        doing := doing.trans under.doing
        found := present
        stands := answered ▸ under.stands.of_sameFile kept
        told := told.trans under.told }
  | ended inside gone found stands asks done told' =>
      obtain ⟨next, present, kept, -⟩ := entries _ found
      refine .ended inside (doing.trans gone) present ?_ asks done (told.trans told')
      exact answered ▸ stands.of_sameFile kept

/-- A step after which the cache is as before is nothing to the load. -/
theorem Stage.unchanged {size : Nat} (stage : Stage start steps task job entry size n)
    (same : (start.after steps n).step (steps n) = start.after steps n)
    (unanswered : ∀ gap, (steps n).answer? (start.after steps n) task gap = none)
    (unbegun : steps n = .act (.advance task) →
      (start.after steps n).doing? task ≠ some (.transfer job)) :
    Stage start steps task job entry size (n + 1) := by
  refine stage.still (by rw [after_succ, same]) (fun now found => ?_)
    (records_of_silent (by rw [same])) unanswered unbegun
  exact ⟨now, by rw [after_succ, same]; exact found, ⟨rfl, rfl⟩, rfl⟩

/-- The steps of others are nothing to the load. -/
theorem Stage.elsewhere {size : Nat} (stage : Stage start steps task job entry size n)
    (sound : (start.after steps n).Sound) (filed : (start.after steps n).Filed)
    (known : task < (start.after steps n).nextTask)
    (undisturbed : Undisturbed start steps task job.entry (n + 1))
    (others : ¬ (steps n).Runs task) : Stage start steps task job entry size (n + 1) := by
  have bypasses := bypasses_step sound others (undisturbed.awaited n (Nat.lt_succ_self n))
  have goesOn : ∀ own, (start.after steps n).doing? task = some (.transfer own) →
      (start.after steps (n + 1)).doing? task = (start.after steps n).doing? task :=
    fun own doing => bypasses.doing (filed.unlisted doing) known
  have stays : (start.after steps n).doing? task = none →
      (start.after steps (n + 1)).doing? task = (start.after steps n).doing? task :=
    fun gone => (doing?_of_gone sound known gone _).trans gone.symm
  refine stage.still ?_ (fun now found => ?_) (records_of_not_runs others)
    (fun gap => answer?_of_not_runs others) fun own => ?_
  · cases stage with
    | waiting unbegun doing found same path told unanswered => exact goesOn _ doing
    | refused past begun gone found same told => exact stays gone
    | fetching under => exact goesOn _ under.doing
    | ended inside gone found stands asks done told => exact stays gone
  · obtain ⟨next, present, -⟩ := turn_step found (steps n)
    exact ⟨next, present,
      undisturbed.untouched n now next (Nat.lt_succ_self n) others found present⟩
  · rw [own] at others
    exact absurd rfl others

/-- A load that has ended stays as it is. -/
theorem Stage.gone {size : Nat} (stage : Stage start steps task job entry size n)
    (sound : (start.after steps n).Sound) (known : task < (start.after steps n).nextTask)
    (gone : (start.after steps n).doing? task = none) (runs : (steps n).Runs task) :
    Stage start steps task job entry size (n + 1) := by
  obtain ⟨entries, events, -⟩ := idle_runs gone runs
  refine stage.still ((doing?_of_gone sound known gone _).trans gone.symm) (fun now found => ?_)
    (records_of_silent events)
    (fun gap => answer?_of_loadOf? (loadOf?_gone gone)) fun _ => by rw [gone]; nofun
  have kept : Cache.entry? (start.after steps (n + 1)) job.entry
      = Cache.entry? (start.after steps n) job.entry := by
    rw [after_succ, Cache.entry?, Cache.entry?, entries]
  exact ⟨now, kept.trans found, ⟨rfl, rfl⟩, rfl⟩

/-- A load that begins is refused, or plans to fetch the gaps. -/
theorem Stage.begin {size : Nat} (idle : job.load = none)
    (begins : steps n = .act (.advance task)) (stored : entry.content = some content)
    (long : content.size = size)
    (doing : (start.after steps n).doing? task = some (.transfer job))
    (found : Cache.entry? (start.after steps n) job.entry = some now)
    (same : entry.SameFile now) (path : now.path = entry.path)
    (told : recorded start steps task n = [])
    (unanswered : ∀ gap, answers start steps task n gap = []) :
    Stage start steps task job entry size (n + 1) := by
  subst long
  have runs : (steps n).Runs task := by rw [begins]; rfl
  have stored' : now.content = some content := same.1 ▸ stored
  have stepped := advance_waiting doing idle found
  have silent : ∀ gap, answers start steps task (n + 1) gap = [] := by
    intro gap
    rw [answers_succ, unanswered, answer?_of_loadOf? (loadOf?_waiting doing idle)]
    rfl
  rw [← begins] at stepped
  have decided := Load.start_eq stored' job.offset job.count
  cases started : Load.start now job.offset job.count with
  | error error =>
      rw [started] at stepped decided
      split at decided <;> cases decided
      rename_i past
      have after : start.after steps (n + 1) = (start.after steps n).endTransfer task
          (.error (.pastEnd job.offset content.size)) := stepped
      have gone : (start.after steps (n + 1)).doing? task = none := after ▸ doing?_endTransfer
      refine .refused past ⟨n, Nat.lt_succ_self n, begins⟩ gone (after ▸ found) same ?_
      rw [recorded_succ, told, records_of_events runs (by rw [stepped]; rfl), List.nil_append]
  | ok load =>
      obtain ⟨place, planned, stands⟩ := Load.Stands.start stored' started
      have inside : job.offset ≤ content.size := by
        rw [started] at decided
        split at decided <;> cases decided
        exact Nat.le_of_not_lt ‹_›
      rw [started] at stepped
      have after : start.after steps (n + 1) = (start.after steps n).setWork task
          (.transfer { job with load := some load }) := stepped
      have doing' : (start.after steps (n + 1)).doing? task
          = some (.transfer { job with load := some load }) := by
        rw [after]
        exact doing?_setWork_self doing
      have found' : Cache.entry? (start.after steps (n + 1)) job.entry = some now := after ▸ found
      have nothing : recorded start steps task (n + 1) = [] := by
        rw [recorded_succ, told, records_of_silent (by rw [stepped]; rfl), List.append_nil]
      refine .fetching ⟨inside, doing', found', ?_, place.trans path, .of_planned planned, nothing⟩
      rw [same.2, funext silent]
      exact stands

namespace Fetching

variable {size : Nat} {asked : List Span}

/-- A read call is made for a gap that had none. -/
theorem request (under : Fetching start steps task job entry size n now load asked)
    (asks : steps n = .act (.request task i)) : Stage start steps task job entry size (n + 1) := by
  have runs : (steps n).Runs task := by rw [asks]; rfl
  have unanswered : ∀ gap, (steps n).answer? (start.after steps n) task gap = none := by
    intro gap
    rw [asks]
    rfl
  rcases request_fetching under.doing i with still | ⟨fetch, position, planned⟩
  · exact Stage.unchanged (.fetching under) (asks ▸ still) unanswered (by simp [asks])
  · have stepped := request_planned under.doing position planned
    rw [← asks] at stepped
    have after : start.after steps (n + 1) = (start.after steps n).step (steps n) := rfl
    rw [stepped] at after
    have doing : (start.after steps (n + 1)).doing? task = some (.transfer
        { job with load := some (load.ask i (start.after steps n).nextCall) }) := by
      rw [after]
      exact doing?_setWork_self ((doing?_congr rfl).trans under.doing)
    have found : Cache.entry? (start.after steps (n + 1)) job.entry = some now :=
      after ▸ under.found
    refine .fetching ⟨under.inside, doing, found, ?_, under.place,
      under.asks.ask under.stands position planned _, ?_⟩
    · rw [answers_of_unanswered start steps task n unanswered]
      exact under.stands.ask position planned _
    · rw [recorded_succ, records_of_events runs (by rw [stepped]; rfl), under.place, under.told,
        List.map_append]
      rfl

/-- An answer counts for the gap that was asked for, if that gap still waits. -/
theorem deliver (under : Fetching start steps task job entry size n now load asked)
    (brings : steps n = .act (.deliver task i reply)) :
    Stage start steps task job entry size (n + 1) := by
  have counts : ∀ gap, (steps n).answer? (start.after steps n) task gap
      = if (start.after steps n).awaited? task i = some gap then some reply else none :=
    fun _ => brings ▸ answer?_deliver
  have stepped := deliver_fetching under.doing under.found i reply
  rw [← brings] at stepped
  cases going : load.outcome?.isSome with
  | true =>
      rw [going, if_pos rfl] at stepped
      refine Stage.unchanged (.fetching under) stepped (fun gap => ?_) (by simp [brings])
      rw [counts, awaited?_of_transfer under.doing, going]
      rfl
  | false =>
      rw [going] at stepped
      have after : start.after steps (n + 1) = ((start.after steps n).setEntry job.entry
          (load.receive i now reply).2).setWork task
            (.transfer { job with load := some (load.receive i now reply).1 }) := stepped
      have doing : (start.after steps (n + 1)).doing? task
          = some (.transfer { job with load := some (load.receive i now reply).1 }) := by
        rw [after]
        exact doing?_setWork_self ((doing?_congr rfl).trans under.doing)
      have found : Cache.entry? (start.after steps (n + 1)) job.entry
          = some (load.receive i now reply).2 := by
        rw [after]
        exact ((entry?_setEntry _).trans (if_pos rfl)).trans (by rw [under.found]; rfl)
      have told : recorded start steps task (n + 1) = asked.map (.readingOf entry.path) := by
        rw [recorded_succ, records_of_silent (by rw [stepped]; rfl), List.append_nil, under.told]
      cases awaited : (start.after steps n).awaited? task i with
      | none =>
          have answered := answers_of_unanswered start steps task n fun gap => by
            rw [counts, awaited]
            rfl
          rw [receive_of_not_awaited under.doing going awaited] at doing found
          exact .fetching { under with doing, found, stands := answered ▸ under.stands, told }
      | some gap =>
          obtain ⟨fetch, call, position, asked, rfl⟩ := asked_of_awaited under.doing awaited
          have place : (load.receive i now reply).1.path = load.path := by
            rw [Load.receive_of_asked position asked]
          refine .fetching ⟨under.inside, doing, found, ?_, place.trans under.place,
            under.asks.receive position asked now reply, told⟩
          refine under.stands.receive (Nat.min_le_left _ _) position asked reply ?_ ?_
          · rw [answers_succ, counts, awaited, if_pos rfl]
            rfl
          · intro other apart
            have others : some fetch.gap ≠ some other := fun same =>
              apart (Option.some.inj same).symm
            rw [answers_succ, counts, awaited, if_neg others]
            exact List.append_nil _

/-- A load that has come to its end tells its result. -/
theorem finish (under : Fetching start steps task job entry size n now load asked)
    (idle : job.load = none) (advances : steps n = .act (.advance task)) :
    Stage start steps task job entry size (n + 1) := by
  have runs : (steps n).Runs task := by rw [advances]; rfl
  have unanswered : ∀ gap, (steps n).answer? (start.after steps n) task gap = none := by
    intro gap
    rw [advances]
    rfl
  have stepped := advance_fetching under.doing
  rw [← advances] at stepped
  cases done : load.outcome? with
  | none =>
      rw [done] at stepped
      refine Stage.unchanged (.fetching under) stepped unanswered fun _ => ?_
      rw [under.doing]
      intro same
      injection same with same
      injection same with same
      rw [← same] at idle
      cases idle
  | some outcome =>
      rw [done] at stepped
      have after : start.after steps (n + 1) = (start.after steps n).endTransfer task
          ((start.after steps n).transferResult { job with load := some load } outcome) := stepped
      have gone : (start.after steps (n + 1)).doing? task = none := after ▸ doing?_endTransfer
      have found' : Cache.entry? (start.after steps (n + 1)) job.entry = some now :=
        after ▸ under.found
      have answered := answers_of_unanswered start steps task n unanswered
      have told : recorded start steps task (n + 1) = asked.map (.readingOf entry.path)
          ++ [.transferred task ((start.after steps n).transferResult
            { job with load := some load } outcome)] := by
        rw [recorded_succ, records_of_events runs (by rw [stepped]; rfl), under.told]
      obtain ⟨content, stored, -⟩ := under.stands.stored
      have tells : ((start.after steps n).transferResult { job with load := some load }
          outcome).map (fun _ => ()) = outcome := map_transferResult under.found stored outcome
      exact .ended under.inside gone found' (answered ▸ under.stands) under.asks
        (by rw [tells, done]) told

end Fetching

/-- Whatever a step does, the load stands somewhere afterwards. -/
theorem stage_step {size : Nat} (idle : job.load = none) (stored : entry.content = some content)
    (long : content.size = size) (sound : (start.after steps n).Sound)
    (filed : (start.after steps n).Filed) (known : task < (start.after steps n).nextTask)
    (undisturbed : Undisturbed start steps task job.entry (n + 1))
    (stage : Stage start steps task job entry size n) :
    Stage start steps task job entry size (n + 1) := by
  by_cases runs : (steps n).Runs task
  · cases stage with
    | waiting unbegun doing found same path told unanswered =>
        have unloaded : ∀ gap, (steps n).answer? (start.after steps n) task gap = none :=
          fun gap => answer?_of_loadOf? (loadOf?_waiting doing idle)
        rcases begins_or_unchanged doing idle runs with advances | ⟨otherwise, same'⟩
        · exact .begin idle advances stored long doing found same path told unanswered
        · exact Stage.unchanged (.waiting unbegun doing found same path told unanswered) same'
            unloaded fun advances => absurd advances otherwise
    | refused past begun gone found same told =>
        exact Stage.gone (.refused past begun gone found same told) sound known gone runs
    | fetching under =>
        rcases runs_cases runs with advances | ⟨i, asks⟩ | ⟨i, reply, brings⟩ | ⟨result, settles⟩
        · exact under.finish idle advances
        · exact under.request asks
        · exact under.deliver brings
        · refine Stage.unchanged (.fetching under) ?_ (fun gap => ?_) (by simp [settles])
          · rw [settles, settle_transfer under.doing]
          · rw [settles]
            rfl
    | ended inside gone found stands asks done told =>
        exact Stage.gone (.ended inside gone found stands asks done told) sound known
          gone runs
  · exact stage.elsewhere sound filed known undisturbed runs

/-- The load stands somewhere at every step of the run. -/
theorem stage_run (sound : start.Sound) (filed : start.Filed)
    (waiting : start.doing? task = some (.transfer job)) (idle : job.load = none)
    (found : start.entry? job.entry = some entry) (stored : entry.content = some content)
    (undisturbed : Undisturbed start steps task job.entry n) :
    Stage start steps task job entry content.size n := by
  have known := lt_nextTask_of_doing? sound.fresh waiting
  have fit : ∀ m, (start.after steps m).Sound ∧ (start.after steps m).Filed ∧
      task < (start.after steps m).nextTask := by
    intro m
    induction m with
    | zero => exact ⟨sound, filed, known⟩
    | succ m ih =>
        obtain ⟨sound, filed, known⟩ := ih
        obtain ⟨aside, elsewhere, awaited⟩ := exists_elsewhere (steps m)
        have bypasses := bypasses_step sound elsewhere awaited
        exact ⟨bypasses.sound, filed_step sound filed _, Nat.lt_of_lt_of_le known bypasses.later⟩
  induction n with
  | zero =>
      have unbegun : ¬ Begun steps task 0 := by
        rintro ⟨m, before, -⟩
        exact absurd before (Nat.not_lt_zero m)
      exact .waiting unbegun waiting found ⟨rfl, rfl⟩ rfl rfl fun _ => rfl
  | succ n ih =>
      obtain ⟨sound, filed, known⟩ := fit n
      exact stage_step idle stored rfl sound filed known undisturbed
        (ih (undisturbed.earlier (Nat.le_succ n)))

/-- A load that begins past the end of the file is refused, and its own steps change no entry. -/
theorem Stage.entries_of_past {size : Nat} (stage : Stage start steps task job entry size n)
    (idle : job.load = none) (stored : entry.content = some content) (long : content.size = size)
    (past : size < job.offset) (runs : (steps n).Runs task) :
    (start.after steps (n + 1)).entries = (start.after steps n).entries := by
  rw [after_succ]
  cases stage with
  | waiting unbegun doing found same path told unanswered =>
      rcases begins_or_unchanged doing idle runs with advances | ⟨-, same'⟩
      · rw [advances, advance_waiting doing idle found,
          Load.start_eq (same.1 ▸ stored) job.offset job.count, if_pos (long ▸ past)]
        rfl
      · rw [same']
  | refused past begun gone found same told => exact (idle_runs gone runs).1
  | fetching under => exact absurd past (Nat.not_lt_of_le under.inside)
  | ended inside gone found stands asks done told =>
      exact absurd past (Nat.not_lt_of_le inside)

end Cache

end SparseCache
