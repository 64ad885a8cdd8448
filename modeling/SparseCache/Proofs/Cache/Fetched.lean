import Mathlib
import SparseCache.Proofs.Cache.Loads

namespace SparseCache.Cache

/-! What a load comes to: it asks for just the gaps and populates just what arrived. -/

variable {cache start : Cache} {steps : Nat → Step} {task : TaskId} {job : Transfer} {load : Load}
  {entry now : Entry} {n : Nat} {remote : Span → List Reply} {asked : List Span}

/-- What a load of `span` has come to in a file that was populated as `marks` say, if the remote
store has the answers `remote gap` for the read call for a gap, of which `answers gap` were taken:
which gaps were asked for, the result if there is one yet, and the entry now. -/
structure ComesTo (marks : SpanSet) (span : Span) (remote answers : Span → List Reply)
    (asked : List Span) (result? : Option (Except EntryError (Option Bytes))) (now : Entry) :
    Prop where
  distinct : asked.Nodup
  longest : ∀ gap ∈ asked, marks.LongestGap span gap
  arrived : ∀ p, p ∈ now.populated ↔ p ∈ marks ∨ Load.Brought marks span answers p
  bounded : ∀ p, p ∈ now.populated → p ∈ marks ∨ Load.Brought marks span remote p
  succeeds_iff : ∀ result, result? = some result →
    ((∃ bytes, result = .ok bytes) ↔
      ∀ gap cause, marks.LongestGap span gap → ¬ Reply.Errs gap (remote gap) cause)
  /-- A load that succeeds has asked for every gap and has got all that there is to get. -/
  complete : ∀ bytes, result? = some (.ok bytes) →
    (∀ gap, marks.LongestGap span gap → gap ∈ asked) ∧
      ∀ p, p ∈ now.populated ↔ p ∈ marks ∨ Load.Brought marks span remote p
  failed : ∀ error, result? = some (.error error) →
    ∃ gap ∈ asked, ∃ cause, Reply.Errs gap (remote gap) cause ∧ error = .transfer cause

theorem ComesTo.of_stands {marks : SpanSet} {span : Span} {size : Nat} {asked : List Span}
    {answers : Span → List Reply} {result? : Option (Except EntryError (Option Bytes))}
    (stands : load.Stands marks size span answers now) (asks : load.Asks asked)
    (answered : ∀ gap, answers gap <+: remote gap)
    (ends : ∀ result, result? = some result → load.outcome? = some (result.map fun _ => ())) :
    ComesTo marks span remote answers asked result? now := by
  have blamed : ∀ error, result? = some (.error error) →
      ∃ gap ∈ asked, ∃ cause, Reply.Errs gap (remote gap) cause ∧ error = .transfer cause := by
    intro error told
    obtain ⟨fetch, member, state, cause, errs, same⟩ := stands.of_failed (ends _ told) answered
    have begun : fetch.state ≠ .planned := by rw [state]; nofun
    exact ⟨fetch.gap, (asks.mem _).mpr ⟨fetch, member, begun, rfl⟩, cause, errs, same⟩
  have longest : ∀ gap ∈ asked, marks.LongestGap span gap := by
    intro gap member
    obtain ⟨fetch, found, -, rfl⟩ := (asks.mem gap).mp member
    exact stands.longestGap found
  have bounded : ∀ p, p ∈ now.populated → p ∈ marks ∨ Load.Brought marks span remote p :=
    fun p marked => ((stands.populated p).mp marked).imp_right (·.mono answered)
  constructor
  case distinct => exact asks.distinct
  case longest => exact longest
  case arrived => exact stands.populated
  case bounded => exact bounded
  case succeeds_iff =>
    intro result told
    constructor
    · rintro ⟨bytes, rfl⟩ gap cause run
      exact (stands.of_succeeded (ends _ told) answered run).1 cause
    · intro errless
      cases result with
      | ok bytes => exact ⟨bytes, rfl⟩
      | error error =>
          obtain ⟨gap, member, cause, errs, -⟩ := blamed error told
          exact absurd errs (errless gap cause (longest gap member))
  case complete =>
    intro bytes told
    have done : load.outcome? = some (.ok ()) := ends _ told
    refine ⟨fun gap run => ?_, fun p => ⟨bounded p, fun brought => ?_⟩⟩
    · obtain ⟨fetch, member, own⟩ := stands.longestGap_iff.mp run
      have finished := Load.finished_of_outcome done fetch member
      exact (asks.mem gap).mpr ⟨fetch, member, by rw [finished]; nofun, own⟩
    · refine (stands.populated p).mpr (brought.imp_right ?_)
      rintro ⟨gap, run, lower, upper⟩
      rw [(stands.of_succeeded done answered run).2] at upper
      exact ⟨gap, run, lower, upper⟩
  case failed => exact blamed

/-- A load of `span` that has not ended, but asked for the gaps `asked` and got `answers`, is never
stuck: it can end, it can ask for one more gap, or it waits for the remote store alone. -/
inductive GoesOn (cache : Cache) (task : TaskId) (path : Path) (marks : SpanSet) (span : Span)
    (asked : List Span) (answers : Span → List Reply) : Prop
  | ends {result : Except EntryError (Option Bytes)}
      (told : (Step.act (.advance task)).records cache task = [.transferred task result])
  | asks {gap : Span} {i : Nat} (longest : marks.LongestGap span gap) (unasked : gap ∉ asked)
      (told : (Step.act (.request task i)).records cache task = [.readingOf path gap])
  | awaits {gap : Span} {i : Nat} (before : gap ∈ asked)
      (unsettled : ¬ Reply.Settles gap (answers gap))
      (counts : ∀ reply, (Step.act (.deliver task i reply)).answer? cache task gap = some reply)

theorem Fetching.goesOn {size : Nat} {asked : List Span}
    (under : Fetching start steps task job entry size n now load asked) :
    GoesOn (start.after steps n) task entry.path entry.populated (job.span size) asked
      (answers start steps task n) := by
  obtain ⟨inside, doing, found, stands, place, asks, -⟩ := under
  cases done : load.outcome? with
  | some outcome =>
      have stepped := advance_fetching doing
      rw [done] at stepped
      exact .ends (records_of_events rfl (by rw [stepped]; rfl))
  | none =>
      obtain ⟨fetch, member, waits⟩ := Load.exists_open_of_outcome done
      obtain ⟨i, position⟩ := List.mem_iff_getElem?.mp member
      rcases waits with planned | ⟨call, waits⟩
      · have unasked := asks.unasked stands position planned
        have stepped := request_planned doing position planned
        exact .asks (i := i) (stands.longestGap member) unasked
          (records_of_events rfl (by rw [stepped, place]; rfl))
      · have awaited := awaited?_of_asked doing (by rw [done]; rfl) position waits
        have follows := (stands.fetches fetch member).state
        rw [waits] at follows
        have begun : fetch.state ≠ .planned := by rw [waits]; nofun
        have before : fetch.gap ∈ asked := (asks.mem _).mpr ⟨fetch, member, begun, rfl⟩
        exact .awaits (i := i) before follows fun _ => answer?_deliver.trans (if_pos awaited)

/-- A load past the end of the file is refused.  Any other asks once each for gaps of the wanted
range, populates what they bring, succeeds just if nothing fails, and is never stuck. -/
theorem loads_exactly_gaps (mount : Mount) (earlier steps : Nat → Step) (k n : Nat) (start : Cache)
    (task : TaskId) (job : Transfer) (entry : Entry) (content : Content)
    (remote : Span → List Reply) (reached : mount.cache.after earlier k = start)
    (waiting : start.doing? task = some (.transfer job)) (idle : job.load = none)
    (found : start.entry? job.entry = some entry) (stored : entry.content = some content)
    (undisturbed : Undisturbed start steps task job.entry n)
    (answered : ∀ gap, answers start steps task n gap <+: remote gap) :
    ∃ now, Cache.entry? (start.after steps n) job.entry = some now ∧
      (content.size < job.offset →
        entry.SameFile now ∧
        (∀ m, m < n → (steps m).Runs task →
          (start.after steps (m + 1)).entries = (start.after steps m).entries) ∧
        (¬ Begun steps task n → recorded start steps task n = []) ∧
        (Begun steps task n → recorded start steps task n
          = [.transferred task (.error (.pastEnd job.offset content.size))])) ∧
      (job.offset ≤ content.size → ∃ asked result?,
        recorded start steps task n
          = asked.map (.readingOf entry.path) ++ (result?.map (.transferred task)).toList ∧
        ComesTo entry.populated (job.span content.size) remote (answers start steps task n) asked
          result? now ∧
        (Begun steps task n → result? = none →
          GoesOn (start.after steps n) task entry.path entry.populated (job.span content.size)
            asked (answers start steps task n))) := by
  have sound : start.Sound := reached ▸ sound_after mount earlier k
  have filed : start.Filed := reached ▸ filed_after mount earlier k
  have stages : ∀ m, m ≤ n → Stage start steps task job entry content.size m := fun m upto =>
    stage_run sound filed waiting idle found stored (undisturbed.earlier upto)
  have still : content.size < job.offset → ∀ m, m < n → (steps m).Runs task →
      (start.after steps (m + 1)).entries = (start.after steps m).entries :=
    fun past m before runs =>
      (stages m (Nat.le_of_lt before)).entries_of_past idle stored rfl past runs
  cases stages n (Nat.le_refl n) with
  | @waiting now unbegun doing found' same path told unanswered =>
      refine ⟨now, found', fun past => ⟨same, still past, fun _ => told, (absurd · unbegun)⟩,
        fun inside => ⟨[], none, told, ?_, (absurd · unbegun)⟩⟩
      have unmoved : ∀ p, p ∈ now.populated ↔ p ∈ entry.populated := fun p => by rw [same.2]
      have nothing : ∀ p, ¬ Load.Brought entry.populated (job.span content.size)
          (answers start steps task n) p := fun p => Load.not_brought_of_unanswered unanswered
      exact ⟨.nil, nofun, fun p => (unmoved p).trans (or_iff_left (nothing p)).symm,
        fun p marked => .inl ((unmoved p).mp marked), nofun, nofun, nofun⟩
  | refused past begun gone found' same told =>
      exact ⟨_, found', fun _ => ⟨same, still past, (absurd begun ·), fun _ => told⟩,
        fun inside => absurd past (Nat.not_lt_of_le inside)⟩
  | fetching under =>
      refine ⟨_, under.found, fun past => absurd past (Nat.not_lt_of_le under.inside),
        fun inside => ⟨_, none, ?_, .of_stands under.stands under.asks answered nofun,
          fun _ _ => under.goesOn⟩⟩
      rw [under.told]
      exact (List.append_nil _).symm
  | ended inside gone found' stands asks done told =>
      refine ⟨_, found', fun past => absurd past (Nat.not_lt_of_le inside),
        fun inside => ⟨_, some _, told, .of_stands stands asks answered ?_, nofun⟩⟩
      rintro result ⟨⟩
      exact done

/-- How a file of ten bytes comes to be wanted of which only two in the middle are local. -/
def patchyWanted : List Step :=
  [.create ⟨[97]⟩ 10 .now, .write 0 4 [8, 9], .transfer 0 0 20 false]

/-- The cache when the load is about to begin. -/
def patchy : Cache := (mountWith 0).cache.after (scripted patchyWanted) 3

/-- The first gap gets an empty chunk and then more than it can hold, the second too little. -/
def patchyFetch : List Step :=
  [.act (.advance 0), .act (.request 0 0), .act (.request 0 1), .act (.deliver 0 1 (.chunk [7])),
    .act (.deliver 0 0 (.chunk [])), .create ⟨[98]⟩ 3 .now,
    .act (.deliver 0 0 (.chunk [1, 2, 3, 4, 5, 6])), .act (.deliver 0 1 .ended),
    .act (.advance 0)]

/-- What the remote store has to say: all that is taken, and a failure after the first gap is full
that nobody gets to see. -/
def patchyAnswers (gap : Span) : List Reply :=
  if gap = ⟨0, 4⟩ then [.chunk [], .chunk [1, 2, 3, 4, 5, 6], .failed (.notFound ⟨[97]⟩)]
  else answers patchy (scripted patchyFetch) 0 9 gap

theorem undisturbed_patchyFetch : Undisturbed patchy (scripted patchyFetch) 0 0 9 := by
  have own : ∀ m, m < 9 → m ≠ 5 → (scripted patchyFetch m).runner? = some 0 := by decide
  have same : Cache.entry? (patchy.after (scripted patchyFetch) 6) 0
      = Cache.entry? (patchy.after (scripted patchyFetch) 5) 0 := by
    cbv
  constructor
  · intro m before gaveUp
    by_cases foreign : m = 5
    · subst foreign
      cases gaveUp
    · have runner := own m before foreign
      rw [gaveUp] at runner
      cases runner
  · intro m old new before others found found'
    by_cases foreign : m = 5
    · subst foreign
      rw [same, found] at found'
      cases found'
      exact ⟨⟨rfl, rfl⟩, rfl⟩
    · exact absurd (Step.runs_iff.mpr (own m before foreign)) others

theorem answers_patchyFetch (gap : Span) :
    answers patchy (scripted patchyFetch) 0 9 gap <+: patchyAnswers gap := by
  by_cases first : gap = ⟨0, 4⟩
  · subst first
    exact ⟨[.failed (.notFound ⟨[97]⟩)], by cbv⟩
  · have same : patchyAnswers gap = answers patchy (scripted patchyFetch) 0 9 gap := if_neg first
    exact same ▸ List.prefix_rfl

theorem patchyFetch_comesTo :
    recorded patchy (scripted patchyFetch) 0 9
        = [.readingOf ⟨[97]⟩ ⟨0, 4⟩, .readingOf ⟨[97]⟩ ⟨6, 10⟩, .transferred 0 (.ok none)] ∧
      ∃ entry now, Cache.entry? patchy 0 = some entry ∧ entry.populated.spans = [⟨4, 6⟩] ∧
        Cache.entry? (patchy.after (scripted patchyFetch) 9) 0 = some now ∧
        now.populated.spans = [⟨0, 7⟩] ∧
        ComesTo entry.populated ⟨0, 10⟩ patchyAnswers (answers patchy (scripted patchyFetch) 0 9)
          [⟨0, 4⟩, ⟨6, 10⟩] (some (.ok none)) now := by
  have told : recorded patchy (scripted patchyFetch) 0 9
      = [.readingOf ⟨[97]⟩ ⟨0, 4⟩, .readingOf ⟨[97]⟩ ⟨6, 10⟩, .transferred 0 (.ok none)] := by
    cbv
  have waiting : patchy.doing? 0 = some (.transfer ⟨0, 0, 20, false, none⟩) := by cbv
  have before : (Cache.entry? patchy 0).map
      (fun entry => (entry.path, entry.populated.spans, entry.content.map (·.size)))
        = some (⟨[97]⟩, [⟨4, 6⟩], some 10) := by
    cbv
  have after : (Cache.entry? (patchy.after (scripted patchyFetch) 9) 0).map
      (fun now => now.populated.spans) = some [⟨0, 7⟩] := by
    cbv
  obtain ⟨entry, found, same⟩ := Option.map_eq_some_iff.mp before
  simp only [Prod.mk.injEq] at same
  obtain ⟨path, spans, size⟩ := same
  obtain ⟨content, stored, size⟩ := Option.map_eq_some_iff.mp size
  obtain ⟨now, found', -, inside⟩ := loads_exactly_gaps (mountWith 0) (scripted patchyWanted)
    (scripted patchyFetch) 3 9 patchy 0 ⟨0, 0, 20, false, none⟩ entry content patchyAnswers rfl
    waiting rfl found stored undisturbed_patchyFetch answers_patchyFetch
  obtain ⟨asked, result?, told', comes, -⟩ := inside (Nat.zero_le _)
  rw [found', Option.map_some, Option.some.injEq] at after
  have seen : asked = [⟨0, 4⟩, ⟨6, 10⟩] ∧ result? = some (.ok none) := by
    rw [told, path] at told'
    rcases asked with _ | ⟨⟨lo, hi⟩, _ | ⟨⟨lo', hi'⟩, _ | ⟨gap, more⟩⟩⟩ <;> cases result? <;>
      simp [Event.readingOf, Span.length] at told' ⊢
    obtain ⟨⟨rfl, width⟩, ⟨rfl, width'⟩, rfl⟩ := told'
    exact ⟨⟨⟨rfl, by omega⟩, rfl, by omega⟩, rfl⟩
  rw [seen.1, seen.2, size] at comes
  exact ⟨told, entry, now, found, spans, found', after, comes⟩

end SparseCache.Cache
