import SparseCache.Proofs.Entry.Changes
import SparseCache.Proofs.SpanSet.Gaps

namespace SparseCache

/-! What the answers to a read call come to, however they are cut into chunks.

Bytes count up to the end of the stream or an error, and no more of them than fit into the gap.
-/

namespace Reply

variable {replies taken more : List Reply} {gap : Span} {cause : RemoteError}

/-- The bytes that come before the stream ends or errs. -/
def carried : List Reply → Bytes
  | [] => []
  | .accepted :: replies => carried replies
  | .chunk data :: replies => data ++ carried replies
  | .ended :: _ | .failed _ :: _ => []

/-- How the stream ends, if it does. -/
def ending? : List Reply → Option (Except RemoteError Unit)
  | [] => none
  | .accepted :: replies | .chunk _ :: replies => ending? replies
  | .ended :: _ => some (.ok ())
  | .failed cause :: _ => some (.error cause)

/-- How many bytes of the gap the answers bring. -/
def arrived (gap : Span) (replies : List Reply) : Nat := min gap.length (carried replies).length

/-- The call fails, or its stream errs, before the gap is full. -/
def Errs (gap : Span) (replies : List Reply) (cause : RemoteError) : Prop :=
  ending? replies = some (.error cause) ∧ (carried replies).length < gap.length

/-- The gap is full or the stream is over. -/
def Settles (gap : Span) (replies : List Reply) : Prop :=
  gap.length ≤ (carried replies).length ∨ (ending? replies).isSome

theorem ending?_append (replies more : List Reply) :
    ending? (replies ++ more) = (ending? replies).or (ending? more) := by
  induction replies with
  | nil => rfl
  | cons reply replies ih => cases reply <;> first | exact ih | rfl

theorem carried_append (replies more : List Reply) :
    carried (replies ++ more)
      = carried replies ++ if (ending? replies).isSome then [] else carried more := by
  induction replies with
  | nil => rfl
  | cons reply replies ih =>
      cases reply with
      | accepted => exact ih
      | chunk data =>
          rw [List.cons_append, carried, ih, carried, List.append_assoc]
          rfl
      | ended => rfl
      | failed cause => rfl

theorem Errs.settles (errs : Errs gap replies cause) : Settles gap replies :=
  .inr (by rw [errs.1]; rfl)

theorem arrived_le (gap : Span) (replies : List Reply) : arrived gap replies ≤ gap.length :=
  Nat.min_le_left _ _

theorem arrived_le_of_prefix (gap : Span) (earlier : taken <+: replies) :
    arrived gap taken ≤ arrived gap replies := by
  obtain ⟨more, rfl⟩ := earlier
  simp only [arrived, carried_append, List.length_append]
  omega

/-- Answers that come once a gap is settled do not count. -/
theorem arrived_of_settles (earlier : taken <+: replies) (settles : Settles gap taken) :
    arrived gap replies = arrived gap taken := by
  obtain ⟨more, rfl⟩ := earlier
  simp only [arrived, carried_append, List.length_append]
  rcases settles with full | ended
  · omega
  · rw [if_pos ended, List.length_nil, Nat.add_zero]

theorem errs_iff_of_settles (earlier : taken <+: replies) (settles : Settles gap taken) :
    Errs gap replies cause ↔ Errs gap taken cause := by
  obtain ⟨more, rfl⟩ := earlier
  simp only [Errs, carried_append, ending?_append, List.length_append]
  rcases settles with full | ended
  · constructor <;> (rintro ⟨-, short⟩; omega)
  · obtain ⟨result, ending⟩ := Option.isSome_iff_exists.mp ended
    rw [ending]
    simp

theorem not_settles_nil (nonempty : gap.lo < gap.hi) : ¬ Settles gap [] := by
  simp only [Settles, carried, ending?, List.length_nil, Span.length, Option.isSome_none,
    Bool.false_eq_true, or_false]
  omega

end Reply

namespace Fetch

variable {fetch : Fetch} {replies : List Reply} {reply : Reply} {entry : Entry} {content : Content}
  {call : CallId} {p : Nat}

/-- In which state a fetch of the gap is once `replies` have come. -/
def State.Follows (gap : Span) (replies : List Reply) : State → Prop
  | .planned => replies = []
  | .asked _ => ¬ Reply.Settles gap replies
  | .finished => Reply.Settles gap replies ∧ ∀ cause, ¬ Reply.Errs gap replies cause
  | .failed error => ∃ cause, Reply.Errs gap replies cause ∧ error = .transfer cause

/-- The fetch is as it has to be once `replies` have come. -/
structure Stands (fetch : Fetch) (replies : List Reply) : Prop where
  received : fetch.received = Reply.arrived fetch.gap replies
  state : fetch.state.Follows fetch.gap replies

theorem Stands.received_le (stands : fetch.Stands replies) :
    fetch.received ≤ fetch.gap.length :=
  stands.received ▸ Reply.arrived_le _ _

theorem stands_nil (gap : Span) : Stands { gap } [] :=
  ⟨by simp [Reply.arrived, Reply.carried], rfl⟩

theorem Stands.ask (stands : fetch.Stands replies) (planned : fetch.state = .planned)
    (nonempty : fetch.gap.lo < fetch.gap.hi) (call : CallId) :
    Stands { fetch with state := .asked call } replies := by
  obtain ⟨received, state⟩ := stands
  rw [planned] at state
  obtain rfl : replies = [] := state
  exact ⟨received, Reply.not_settles_nil nonempty⟩

/-- What a fetch takes of a chunk. -/
theorem receive_chunk (stored : entry.content = some content) (data : Bytes) :
    fetch.receive entry (.chunk data) =
      ({ fetch with
          received := fetch.received + min (fetch.gap.length - fetch.received) data.length
          state :=
            if fetch.received + min (fetch.gap.length - fetch.received) data.length
              < fetch.gap.length then fetch.state
            else .finished },
        { entry with
          content := some (entry.filled content (fetch.gap.lo + fetch.received)
            (data.take (fetch.gap.length - fetch.received)))
          populated := entry.populated.insert ⟨fetch.gap.lo + fetch.received,
            min content.size (fetch.gap.lo + fetch.received
              + min (fetch.gap.length - fetch.received) data.length)⟩ }) := by
  simp only [receive, Entry.store_eq stored, List.length_take]
  split <;> rfl

@[simp] theorem gap_receive : (fetch.receive entry reply).1.gap = fetch.gap := by
  cases reply with
  | chunk data =>
      cases stored : entry.content with
      | none => simp only [receive, Entry.store_of_closed stored]
      | some content => rw [receive_chunk stored]
  | _ => rfl

theorem receive_begun (asked : fetch.state = .asked call) (entry : Entry) (reply : Reply) :
    (fetch.receive entry reply).1.state ≠ .planned := by
  intro planned
  cases reply with
  | accepted =>
      rw [receive, asked] at planned
      cases planned
  | ended => cases planned
  | failed cause => cases planned
  | chunk data =>
      cases stored : entry.content with
      | none =>
          simp only [receive, Entry.store_of_closed stored] at planned
          cases planned
      | some content =>
          rw [receive_chunk stored, asked] at planned
          simp only at planned
          split at planned <;> cases planned

theorem Stands.receive (stands : fetch.Stands replies) (asked : fetch.state = .asked call)
    (stored : entry.content = some content) (reply : Reply) :
    (fetch.receive entry reply).1.Stands (replies ++ [reply]) := by
  obtain ⟨received, open'⟩ := stands
  rw [asked] at open'
  simp only [State.Follows, Reply.Settles, not_or, Option.not_isSome_iff_eq_none] at open'
  obtain ⟨short, going⟩ := open'
  have carried : Reply.carried (replies ++ [reply])
      = Reply.carried replies ++ Reply.carried [reply] := by
    rw [Reply.carried_append, going]
    rfl
  have ending : Reply.ending? (replies ++ [reply]) = Reply.ending? [reply] := by
    rw [Reply.ending?_append, going]
    rfl
  have unmoved : Reply.carried [reply] = [] →
      fetch.received = Reply.arrived fetch.gap (replies ++ [reply]) := by
    intro bare
    rw [Reply.arrived, carried, bare, List.append_nil]
    exact received
  cases reply with
  | accepted =>
      refine ⟨unmoved rfl, ?_⟩
      simp [Fetch.receive, asked, State.Follows, Reply.Settles, carried, ending, Reply.carried,
        Reply.ending?, short]
  | ended =>
      refine ⟨unmoved rfl, ?_⟩
      simp [Fetch.receive, State.Follows, Reply.Settles, Reply.Errs, ending, Reply.ending?]
  | failed cause =>
      refine ⟨unmoved rfl, cause, ⟨ending, ?_⟩, rfl⟩
      rw [carried]
      simpa [Fetch.receive, Reply.carried] using short
  | chunk data =>
      rw [receive_chunk stored]
      simp only [Reply.arrived] at received
      have length : (Reply.carried (replies ++ [.chunk data])).length
          = (Reply.carried replies).length + data.length := by
        rw [carried]
        simp [Reply.carried]
      refine ⟨?_, ?_⟩
      · simp only [Reply.arrived, length]
        omega
      · simp only
        split
        · simp only [asked, State.Follows, Reply.Settles, length, ending, Reply.ending?]
          simp
          omega
        · simp only [State.Follows, Reply.Settles, Reply.Errs, length, ending, Reply.ending?]
          simp
          omega

/-- An answer populates what it adds to the bytes received, and nothing else. -/
theorem mem_populated_receive (stands : fetch.Stands replies)
    (stored : entry.content = some content) (inside : fetch.gap.hi ≤ content.size)
    (reply : Reply) :
    p ∈ (fetch.receive entry reply).2.populated ↔ p ∈ entry.populated ∨
      fetch.gap.lo + fetch.received ≤ p ∧
        p < fetch.gap.lo + (fetch.receive entry reply).1.received := by
  have unmoved : p ∈ entry.populated ↔ p ∈ entry.populated ∨
      fetch.gap.lo + fetch.received ≤ p ∧ p < fetch.gap.lo + fetch.received :=
    (or_iff_left (by omega)).symm
  cases reply with
  | chunk data =>
      have bound := stands.received_le
      rw [receive_chunk stored]
      simp only [SpanSet.mem_insert, Span.mem_iff, Span.length] at bound ⊢
      rw [or_comm]
      refine or_congr Iff.rfl ?_
      omega
  | _ => exact unmoved

theorem content_receive (fetch : Fetch) (stored : entry.content = some content) (reply : Reply) :
    ∃ next, (fetch.receive entry reply).2.content = some next ∧ next.size = content.size := by
  cases reply with
  | chunk data =>
      rw [receive_chunk stored]
      exact ⟨_, rfl, Entry.size_filled⟩
  | _ => exact ⟨content, stored, rfl⟩

end Fetch

namespace Load

variable {load : Load} {entry now after : Entry} {content : Content} {marks : SpanSet}
  {span gap : Span} {answers later : Span → List Reply} {fetch : Fetch}
  {size offset count i p : Nat} {call : CallId}

theorem ask_of_found (found : load.fetches[i]? = some fetch) (call : CallId) :
    load.ask i call
      = { load with fetches := load.fetches.set i { fetch with state := .asked call } } := by
  have bound := (List.getElem?_eq_some_iff.mp found).1
  simp only [ask, Load.mk.injEq, true_and]
  refine List.ext_getElem? fun j => ?_
  by_cases here : i = j
  · subst here
    rw [List.getElem?_set_self bound]
    simp [found]
  · rw [List.getElem?_set_ne here, List.getElem?_modify_ne _ _ here]

theorem mem_set_iff (found : load.fetches[i]? = some fetch) {next other : Fetch} :
    other ∈ load.fetches.set i next ↔
      other = next ∨ ∃ j, j ≠ i ∧ load.fetches[j]? = some other := by
  have bound := (List.getElem?_eq_some_iff.mp found).1
  constructor
  · intro member
    obtain ⟨j, position⟩ := List.mem_iff_getElem?.mp member
    by_cases here : i = j
    · subst here
      rw [List.getElem?_set_self bound] at position
      exact .inl (Option.some.inj position).symm
    · rw [List.getElem?_set_ne here] at position
      exact .inr ⟨j, Ne.symm here, position⟩
  · rintro (rfl | ⟨j, apart, position⟩)
    · exact List.mem_of_getElem? (List.getElem?_set_self bound)
    · exact List.mem_of_getElem? ((List.getElem?_set_ne (Ne.symm apart)).trans position)

/-- The fetches keep their gaps in whatever order the answers come. -/
theorem gaps_set (found : load.fetches[i]? = some fetch) {next : Fetch}
    (same : next.gap = fetch.gap) :
    (load.fetches.set i next).map Fetch.gap = load.fetches.map Fetch.gap := by
  refine List.ext_getElem? fun j => ?_
  rw [List.map_set, List.getElem?_set, same]
  split
  · rename_i here
    subst here
    rw [if_pos (by rw [List.length_map]; exact (List.getElem?_eq_some_iff.mp found).1),
      List.getElem?_map, found, Option.map_some]
  · rfl

theorem receive_of_asked (found : load.fetches[i]? = some fetch) (asked : fetch.state = .asked call)
    (entry : Entry) (reply : Reply) :
    load.receive i entry reply
      = ({ load with fetches := load.fetches.set i (fetch.receive entry reply).1 },
        (fetch.receive entry reply).2) := by
  simp only [receive, found, asked]

/-- The offset is one that the answers, taken by gap, bring to what `marks` left out in `span`. -/
def Brought (marks : SpanSet) (span : Span) (answers : Span → List Reply) (p : Nat) : Prop :=
  ∃ gap, marks.LongestGap span gap ∧ gap.lo ≤ p ∧ p < gap.lo + Reply.arrived gap (answers gap)

theorem not_brought_of_unanswered (unanswered : ∀ gap, answers gap = []) :
    ¬ Brought marks span answers p := by
  rintro ⟨gap, -, lower, upper⟩
  simp only [unanswered, Reply.arrived, Reply.carried, List.length_nil] at upper
  omega

/-- No later answer takes back what was brought. -/
theorem Brought.mono (brought : Brought marks span answers p)
    (grows : ∀ gap, answers gap <+: later gap) : Brought marks span later p := by
  obtain ⟨gap, longest, lower, upper⟩ := brought
  have arrived := Reply.arrived_le_of_prefix gap (grows gap)
  exact ⟨gap, longest, lower, Nat.lt_of_lt_of_le upper (Nat.add_le_add_left arrived _)⟩

/-- A load of the gaps that `marks` left in `span` is where the answers, taken by gap, have
brought it, and the entry, of that size, is populated as far. -/
structure Stands (load : Load) (marks : SpanSet) (size : Nat) (span : Span)
    (answers : Span → List Reply) (now : Entry) : Prop where
  gaps : load.fetches.map Fetch.gap = marks.gaps span
  fetches : ∀ fetch ∈ load.fetches, fetch.Stands (answers fetch.gap)
  stored : ∃ content, now.content = some content ∧ content.size = size
  populated : ∀ p, p ∈ now.populated ↔ p ∈ marks ∨ Brought marks span answers p

namespace Stands

theorem longestGap_iff (stands : load.Stands marks size span answers now) :
    marks.LongestGap span gap ↔ ∃ fetch ∈ load.fetches, fetch.gap = gap := by
  rw [← SpanSet.mem_gaps_iff_longestGap, ← stands.gaps, List.mem_map]

theorem longestGap (stands : load.Stands marks size span answers now)
    (found : fetch ∈ load.fetches) : marks.LongestGap span fetch.gap :=
  stands.longestGap_iff.mpr ⟨fetch, found, rfl⟩

theorem eq_of_gap (stands : load.Stands marks size span answers now) {i j : Nat}
    {other : Fetch} (found : load.fetches[i]? = some fetch)
    (found' : load.fetches[j]? = some other) (same : other.gap = fetch.gap) : i = j := by
  have distinct := marks.nodup_gaps span
  rw [← stands.gaps] at distinct
  have bound : i < (load.fetches.map Fetch.gap).length := by
    rw [List.length_map]
    exact (List.getElem?_eq_some_iff.mp found).1
  refine (List.getElem?_inj bound distinct).mp ?_
  rw [List.getElem?_map, List.getElem?_map, found, found', Option.map_some, Option.map_some, same]

theorem of_sameFile (stands : load.Stands marks size span answers now)
    (same : now.SameFile after) : load.Stands marks size span answers after where
  gaps := stands.gaps
  fetches := stands.fetches
  stored := same.1 ▸ stands.stored
  populated := same.2 ▸ stands.populated

theorem start (stored : entry.content = some content)
    (started : Load.start entry offset count = .ok load) :
    load.path = entry.path ∧ (∀ fetch ∈ load.fetches, fetch.state = .planned) ∧
      load.Stands entry.populated content.size ⟨offset, min content.size (offset + count)⟩
        (fun _ => []) entry := by
  obtain ⟨_, stored', -, rfl⟩ := start_ok started
  rw [stored] at stored'
  cases stored'
  refine ⟨rfl, ?_, ?_, ?_, ⟨content, stored, rfl⟩, ?_⟩
  · intro fetch found
    obtain ⟨gap, -, rfl⟩ := List.mem_map.mp found
    rfl
  · rw [List.map_map]
    exact List.map_id _
  · intro fetch found
    obtain ⟨gap, -, rfl⟩ := List.mem_map.mp found
    exact Fetch.stands_nil gap
  · exact fun p => (or_iff_left (not_brought_of_unanswered fun _ => rfl)).symm

theorem fetches_set (stands : load.Stands marks size span answers now)
    (found : load.fetches[i]? = some fetch) {next : Fetch} (stood : next.Stands (later fetch.gap))
    (same : next.gap = fetch.gap) (elsewhere : ∀ gap, gap ≠ fetch.gap → later gap = answers gap) :
    ∀ other ∈ load.fetches.set i next, other.Stands (later other.gap) := by
  intro other member
  rcases (mem_set_iff found).mp member with rfl | ⟨j, apart, position⟩
  · rw [same]
    exact stood
  · rw [elsewhere]
    · exact stands.fetches other (List.mem_of_getElem? position)
    · exact fun alike => apart (stands.eq_of_gap found position alike).symm

theorem ask (stands : load.Stands marks size span answers now)
    (found : load.fetches[i]? = some fetch) (planned : fetch.state = .planned) (call : CallId) :
    (load.ask i call).Stands marks size span answers now := by
  have member := List.mem_of_getElem? found
  have asked := (stands.fetches fetch member).ask planned (stands.longestGap member).nonempty call
  rw [ask_of_found found]
  exact { stands with
    gaps := Eq.trans (gaps_set found (by rfl)) stands.gaps
    fetches := stands.fetches_set found asked rfl fun _ _ => rfl }

/-- An answer to one read call brings the load forward by what it adds for that gap. -/
theorem receive (stands : load.Stands marks size span answers now) (within : span.hi ≤ size)
    (found : load.fetches[i]? = some fetch) (asked : fetch.state = .asked call) (reply : Reply)
    (here : later fetch.gap = answers fetch.gap ++ [reply])
    (elsewhere : ∀ gap, gap ≠ fetch.gap → later gap = answers gap) :
    (load.receive i now reply).1.Stands marks size span later (load.receive i now reply).2 := by
  have member := List.mem_of_getElem? found
  have stood := stands.fetches fetch member
  obtain ⟨content, stored, length⟩ := stands.stored
  have inside : fetch.gap.hi ≤ content.size := by
    have bounds := SpanSet.bounds_of_mem_gaps
      (SpanSet.mem_gaps_iff_longestGap.mpr (stands.longestGap member))
    omega
  have stands' := stood.receive asked stored reply
  rw [receive_of_asked found asked]
  refine ⟨(gaps_set found Fetch.gap_receive).trans stands.gaps,
    stands.fetches_set found (here ▸ stands') Fetch.gap_receive elsewhere, ?_, fun p => ?_⟩
  · obtain ⟨filled, stored', size'⟩ := fetch.content_receive stored reply
    exact ⟨filled, stored', size'.trans length⟩
  · have received := stands'.received
    rw [Fetch.gap_receive, ← here] at received
    rw [Fetch.mem_populated_receive stood stored inside, stands.populated, received,
      stood.received, or_assoc]
    have grows : ∀ gap, answers gap <+: later gap := by
      intro gap
      by_cases own : gap = fetch.gap
      · subst own
        exact here ▸ List.prefix_append _ _
      · exact (elsewhere gap own).symm ▸ List.prefix_rfl
    refine or_congr Iff.rfl ⟨?_, ?_⟩
    · rintro (brought | ⟨lower, upper⟩)
      · exact brought.mono grows
      · exact ⟨fetch.gap, stands.longestGap member, Nat.le_trans (Nat.le_add_right _ _) lower,
          upper⟩
    · rintro ⟨gap, longest, lower, upper⟩
      by_cases own : gap = fetch.gap
      · subst own
        by_cases before : p < fetch.gap.lo + Reply.arrived fetch.gap (answers fetch.gap)
        · exact .inl ⟨fetch.gap, longest, lower, before⟩
        · exact .inr ⟨Nat.le_of_not_lt before, upper⟩
      · rw [elsewhere gap own] at upper
        exact .inl ⟨gap, longest, lower, upper⟩

end Stands

/-! ### The end of a load -/

theorem failed_of_outcomeInOrder {fetches : List Fetch} {error : EntryError}
    (failed : outcomeInOrder fetches = some (.error error)) :
    ∃ fetch ∈ fetches, fetch.state = .failed error := by
  induction fetches with
  | nil => cases failed
  | cons first fetches ih =>
      unfold outcomeInOrder at failed
      cases state : first.state with
      | planned => simp [state] at failed
      | asked call => simp [state] at failed
      | finished =>
          simp only [state] at failed
          obtain ⟨fetch, member, found⟩ := ih failed
          exact ⟨fetch, .tail _ member, found⟩
      | failed other =>
          simp only [state] at failed
          cases failed
          exact ⟨first, .head _, state⟩

/-- A load fails as one of its fetches did. -/
theorem failed_of_outcome {error : EntryError} (failed : load.outcome? = some (.error error)) :
    ∃ fetch ∈ load.fetches, fetch.state = .failed error := by
  unfold outcome? at failed
  split at failed
  · rename_i reported found
    split at failed
    · cases failed
      obtain ⟨fetch, member, state⟩ := List.exists_of_findSome?_eq_some found
      refine ⟨fetch, member, ?_⟩
      split at state <;> cases state
      assumption
    · exact failed_of_outcomeInOrder failed
  · exact failed_of_outcomeInOrder failed

theorem exists_open_of_outcomeInOrder {fetches : List Fetch}
    (going : outcomeInOrder fetches = none) :
    ∃ fetch ∈ fetches, fetch.state = .planned ∨ ∃ call, fetch.state = .asked call := by
  induction fetches with
  | nil => cases going
  | cons first fetches ih =>
      unfold outcomeInOrder at going
      cases state : first.state with
      | planned => exact ⟨first, .head _, .inl state⟩
      | asked call => exact ⟨first, .head _, .inr ⟨call, state⟩⟩
      | finished =>
          simp only [state] at going
          obtain ⟨fetch, member, waits⟩ := ih going
          exact ⟨fetch, .tail _ member, waits⟩
      | failed error => simp [state] at going

/-- A load goes on as long as something is left to ask for or to wait for. -/
theorem exists_open_of_outcome (going : load.outcome? = none) :
    ∃ fetch ∈ load.fetches, fetch.state = .planned ∨ ∃ call, fetch.state = .asked call := by
  refine exists_open_of_outcomeInOrder ?_
  unfold outcome? at going
  split at going
  · split at going
    · cases going
    · exact going
  · exact going

end Load

end SparseCache
