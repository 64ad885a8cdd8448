import SparseCache.Proofs.Cache.Holes
import SparseCache.Proofs.Entry.FlatFile

namespace SparseCache

/-! An entry refines a flat file, whatever the order in which loads, reads and local
changes go on, as long as the remote store delivers what it is asked for.
-/

/-- An answer of a store that holds `remote`: chunks follow one another without a gap, and
the end comes only after everything asked for. -/
def Reply.Serves (remote : Bytes) (fetch : Fetch) : Reply → Prop
  | .accepted => True
  | .chunk data => data <+: remote.drop (fetch.gap.lo + fetch.received)
  | .ended => fetch.gap.length ≤ fetch.received
  | .failed _ => True

theorem Reply.Serves.whole {remote : Bytes} {fetch : Fetch} {reply : Reply}
    (serves : reply.Serves remote fetch) : reply.Whole fetch := by
  intro ended
  subst ended
  exact serves

instance (remote : Bytes) (fetch : Fetch) (reply : Reply) :
    Decidable (reply.Serves remote fetch) :=
  match reply with
  | .accepted => inferInstanceAs (Decidable True)
  | .chunk _ => inferInstanceAs (Decidable (_ <+: _))
  | .ended => inferInstanceAs (Decidable (_ ≤ _))
  | .failed _ => inferInstanceAs (Decidable True)

namespace Load

variable {load : Load} {entry : Entry} {remote file : Bytes} {offset count i p : Nat}
  {reply : Reply}

theorem mirrors_receive (mirrors : entry.Mirrors remote file)
    (served : ∀ fetch, load.fetches[i]? = some fetch → reply.Serves remote fetch) :
    (load.receive i entry reply).2.Mirrors remote file := by
  rcases receive_stores load i entry reply with
    same | ⟨fetch, data, stored, found, rfl, done, changed⟩
  · rwa [same]
  · rw [changed]
    have consecutive := (List.take_prefix (fetch.gap.length - fetch.received) data).trans
      (served fetch found)
    exact mirrors.store consecutive done

end Load

namespace Cache

variable {cache start : Cache} {id : EntryId} {task : TaskId} {work : Work}
  {entry after made : Entry} {step : Step} {steps : Nat → Step} {remote file : Bytes}

/-! ### The flat file of a run -/

/-- How long the entry is to be that a step may make. -/
def Step.size? : Step → Option Nat
  | .create _ size _ => some size
  | .openFile _ _ size _ => some size
  | _ => none

/-- What stands for an entry that the step makes. -/
def Step.initial (remote : Bytes) : Step → Bytes
  | .create _ size _ => remote.take size
  | .openFile _ flags size _ => if flags.contains .truncate then [] else remote.take size
  | _ => []

/-- The flat file after a step: only a change that succeeds changes it. -/
def Step.reflected (cache : Cache) (id : EntryId) (remote file : Bytes) (step : Step) : Bytes :=
  match cache.entry? id with
  | none => step.initial remote
  | some entry =>
    match step.change? cache id with
    | none => file
    | some change => if (change.on entry).isOk then change.reflected file else file

/-- The flat file that the entry is to stand for after `n` steps. -/
def reference (start : Cache) (steps : Nat → Step) (id : EntryId) (remote : Bytes) : Nat → Bytes
  | 0 => []
  | n + 1 => (steps n).reflected (start.after steps n) id remote (reference start steps id remote n)

/-- The fetch `i` of a task that loads the entry. -/
def fetchOf? (cache : Cache) (id : EntryId) (task : TaskId) (i : Nat) : Option Fetch :=
  match cache.loadOf? task with
  | some (_, entry, load) => if entry = id then load.fetches[i]? else none
  | none => none

/-- The answer that a step brings to the fetch of a task. -/
def Step.delivery? : Step → Option (TaskId × Nat × Reply)
  | .act (.deliver task i reply) => some (task, i, reply)
  | _ => none

/-- What a step brings in for the entry comes from a store that holds `remote`. -/
def Step.Faithful (cache : Cache) (id : EntryId) (remote : Bytes) (step : Step) : Prop :=
  ∀ answer ∈ step.delivery?, ∀ fetch ∈ cache.fetchOf? id answer.1 answer.2.1,
    answer.2.2.Serves remote fetch

instance : Decidable (step.Faithful cache id remote) :=
  inferInstanceAs (Decidable (∀ answer ∈ step.delivery?, _))

/-- Throughout the run the remote store holds `remote` for the entry, which is made no longer
than that. -/
structure Served (start : Cache) (steps : Nat → Step) (id : EntryId) (remote : Bytes) : Prop where
  long : ∀ n, ∀ size ∈ (steps n).size?, Cache.entry? (start.after steps n) id = none →
    (Cache.entry? (start.after steps (n + 1)) id).isSome → size ≤ remote.length
  faithful : ∀ n, (steps n).Faithful (start.after steps n) id remote

/-! ### One step -/

theorem reflected_of_refused (found : cache.entry? id = some entry)
    (refused : ∀ change, step.change? cache id = some change →
      ∃ error, change.on entry = .error error) :
    step.reflected cache id remote file = file := by
  unfold Step.reflected
  rw [found]
  cases asked : step.change? cache id with
  | none => rfl
  | some change =>
      obtain ⟨error, failed⟩ := refused change asked
      simp [failed, Except.isOk, Except.toBool]

theorem reflected_of_on {change : LocalChange} (found : cache.entry? id = some entry)
    (asked : step.change? cache id = some change) (done : change.on entry = .ok after) :
    step.reflected cache id remote file = change.reflected file := by
  unfold Step.reflected
  rw [found, asked]
  simp [done, Except.isOk, Except.toBool]

theorem reflected_of_quiet (found : cache.entry? id = some entry)
    (quiet : step.change? cache id = none) : step.reflected cache id remote file = file := by
  unfold Step.reflected
  rw [found, quiet]

theorem served_of_faithful {i : Nat} {reply : Reply} {load : Load}
    (faithful : (Step.act (.deliver task i reply)).Faithful cache id remote)
    (waiting : cache.loadOf? task = some (work, id, load)) :
    ∀ fetch, load.fetches[i]? = some fetch → reply.Serves remote fetch := by
  intro fetch found
  refine faithful _ rfl fetch ?_
  simp [fetchOf?, waiting, found]

theorem Turn.mirrors (turn : Turn cache id entry step after) (found : cache.entry? id = some entry)
    (faithful : step.Faithful cache id remote) (mirrors : entry.Mirrors remote file) :
    after.Mirrors remote (step.reflected cache id remote file) := by
  cases turn.file with
  | kept refused same =>
      rw [reflected_of_refused found refused]
      rcases same with same | closed
      · exact mirrors.of_sameFile same
      · exact Entry.mirrors_of_closed closed
  | changed asked done same =>
      rw [reflected_of_on found asked done]
      exact (mirrors.on done).of_sameFile same
  | filled waiting =>
      rw [reflected_of_quiet found rfl]
      exact Load.mirrors_receive mirrors (served_of_faithful faithful waiting)

theorem Born.mirrors (born : Born cache step made) (absent : cache.entry? id = none)
    (long : ∀ size ∈ step.size?, size ≤ remote.length) :
    made.Mirrors remote (step.reflected cache id remote file) := by
  have initial : step.reflected cache id remote file = step.initial remote := by
    unfold Step.reflected
    rw [absent]
  rw [initial]
  cases born with
  | created fits => exact .of_create fits (long _ rfl)
  | opened unmapped keeps fits =>
      simp only [Step.initial, keeps, Bool.false_eq_true, if_false]
      exact Entry.Mirrors.of_sameFile (.of_create fits (long _ rfl)) ⟨rfl, rfl⟩
  | emptied unmapped wipes fits done =>
      have fresh := Entry.Mirrors.of_create fits (long _ rfl)
      have opened : Entry.Mirrors (Entry.openHandle _).2 remote _ :=
        fresh.of_sameFile ⟨rfl, rfl⟩
      have applied : (LocalChange.truncate 0).on (Entry.openHandle _).2 = .ok made := done
      have empty := opened.on applied
      simp only [Step.initial, wipes, if_true]
      simpa [LocalChange.reflected, Bytes.resize] using empty

/-! ### Runs -/

theorem mirrors_after (served : Served start steps id remote) (n : Nat)
    (empty : start.entry? id = none) (found : Cache.entry? (start.after steps n) id = some entry) :
    entry.Mirrors remote (reference start steps id remote n) := by
  refine @entry_induction id entry start steps (fun n entry =>
    entry.Mirrors remote (reference start steps id remote n)) n empty
    (fun n made absent present born => ?_) (fun n old next present turn mirrors => ?_) found
  · refine born.mirrors absent fun size asked => ?_
    exact served.long n size asked absent (by rw [present]; rfl)
  · exact turn.mirrors present (served.faithful n) mirrors

theorem earnest_of_faithful {mount : Mount} {n : Nat}
    (faithful : ∀ k, k < n → (steps k).Faithful (mount.cache.after steps k) id remote) :
    (mount.cache.after steps n).Earnest id := by
  induction n with
  | zero => exact ⟨fun found => by cases found⟩
  | succ n ih =>
      have earnest := ih fun k before => faithful k (Nat.lt_succ_of_lt before)
      refine earnest_step (sound_after mount steps n) earnest fun taken waiting fetch found => ?_
      have served := faithful n (Nat.lt_succ_self n)
      rw [taken] at served
      exact (served_of_faithful served waiting fetch found).whole

theorem earnest_after (mount : Mount) (served : Served mount.cache steps id remote) (n : Nat) :
    (mount.cache.after steps n).Earnest id :=
  earnest_of_faithful fun k _ => served.faithful k

theorem read_of_transferred {job : Transfer} {bytes : Bytes}
    (doing : cache.doing? task = some (.transfer job))
    (ended : (cache.advance task).events
      = cache.events ++ [.transferred task (.ok (some bytes))]) :
    ∃ load entry, job.load = some load ∧ load.outcome? = some (.ok ()) ∧
      cache.entry? job.entry = some entry ∧
      entry.readLocal job.offset job.count = .ok bytes := by
  have silent : cache.events ≠ cache.events ++ [.transferred task (.ok (some bytes))] := by
    intro same
    have longer := congrArg List.length same
    simp at longer
  have told : ∀ {result}, (cache.endTransfer task result).events
      = cache.events ++ [.transferred task (.ok (some bytes))] → result = .ok (some bytes) := by
    intro result same
    have last := List.append_cancel_left same
    cases last
    rfl
  obtain ⟨own, live, same⟩ := live?_of_doing? doing
  obtain rfl := Work.transfer_of_bare same
  rw [advance_of_live live] at ended
  simp only [advanceTransfer] at ended
  cases loading : job.load with
  | none =>
      simp only [loading] at ended
      split at ended
      · exact absurd ended silent
      · cases told ended
      · cases told ended
  | some load =>
      simp only [loading] at ended
      cases outcome : load.outcome? with
      | none => simp only [outcome] at ended; exact absurd ended silent
      | some result =>
          simp only [outcome] at ended
          have yielded := told ended
          cases result with
          | error error => simp [transferResult] at yielded
          | ok _ =>
              simp only [transferResult] at yielded
              split at yielded
              · split at yielded
                · rename_i entry found
                  cases shown : entry.readLocal job.offset job.count with
                  | error error => simp [shown, Except.map] at yielded
                  | ok read =>
                      simp only [shown, Except.map, Except.ok.injEq, Option.some.injEq] at yielded
                      exact ⟨load, entry, rfl, outcome, found, yielded ▸ shown⟩
                · cases yielded
              · cases yielded

/-- In every reachable state an open entry has the size of its flat file and holds the bytes
of that file wherever it is populated; and a read that succeeds yields what the flat file
holds at that moment, whatever went on while it waited. -/
theorem refines_flat_file (mount : Mount) (steps : Nat → Step) (id : EntryId) (remote : Bytes)
    (served : Served mount.cache steps id remote) (n : Nat) :
    (∀ entry content, Cache.entry? (mount.cache.after steps n) id = some entry →
      entry.content = some content →
      content.size = (reference mount.cache steps id remote n).length ∧
      ∀ p, p < (reference mount.cache steps id remote n).length → p ∈ entry.populated →
        (reference mount.cache steps id remote n)[p]? = some (content.byteAt p)) ∧
    ∀ task job bytes, steps n = .act (.advance task) →
      (mount.cache.after steps n).doing? task = some (.transfer job) → job.entry = id →
      (mount.cache.after steps (n + 1)).events
        = (mount.cache.after steps n).events ++ [.transferred task (.ok (some bytes))] →
      bytes = ((reference mount.cache steps id remote n).drop job.offset).take job.count := by
  constructor
  · intro entry content found stored
    have reflects := mirrors_after served n rfl found content stored
    exact ⟨reflects.size, reflects.present⟩
  · intro task job bytes advances doing about ended
    rw [after_succ, advances] at ended
    obtain ⟨load, entry, loading, done, found, shown⟩ := read_of_transferred doing ended
    have waits : (Work.transfer job).load? = some (job.entry, load) := by
      simp [Work.load?, loading]
    have covers := (covered_after mount steps n).owed doing waits found
    subst about
    have honest := (earnest_after mount served n).honest doing waits
    refine (mirrors_after served n rfl found).readLocal (fun p lower upper hole => ?_) shown
    exact Load.not_owes_of_outcome honest done (covers p ⟨lower, upper⟩ hole)

/-- A read of four bytes during which one of them is written and more than four arrive. -/
def overlappedRead : List Step :=
  [.create ⟨[47, 97]⟩ 4 .now, .transfer 0 0 4 true, .act (.advance 0), .act (.request 0 0),
    .write 0 1 [9], .act (.deliver 0 0 .accepted), .act (.deliver 0 0 (.chunk [1, 2])),
    .act (.deliver 0 0 (.chunk [3, 4, 5])), .act (.advance 0)]

theorem served_overlappedRead :
    Served (mountWith 0).cache (scripted overlappedRead) 0 [1, 2, 3, 4, 5, 6] := by
  constructor
  · intro n size asked _ _
    have early : ∀ m < 9, ∀ size ∈ (scripted overlappedRead m).size?, size ≤ 6 := by decide
    rcases Nat.lt_or_ge n 9 with soon | late
    · exact early n soon size asked
    · rw [scripted_of_le late] at asked
      cases asked
  · intro n
    have early : ∀ m < 9, (scripted overlappedRead m).Faithful
        ((mountWith 0).cache.after (scripted overlappedRead) m) 0 [1, 2, 3, 4, 5, 6] := by
      decide
    rcases Nat.lt_or_ge n 9 with soon | late
    · exact early n soon
    · intro answer given
      rw [scripted_of_le late] at given
      cases given

theorem overlappedRead_refines :
    [1, 9, 3, 4] = ((reference (mountWith 0).cache (scripted overlappedRead) 0
      [1, 2, 3, 4, 5, 6] 8).drop 0).take 4 := by
  have doing : ((mountWith 0).cache.after (scripted overlappedRead) 8).doing? 0
      = some (.transfer ⟨0, 0, 4, true, some ⟨⟨[47, 97]⟩, [⟨⟨0, 4⟩, 4, .finished⟩]⟩⟩) := by
    decide
  exact (refines_flat_file (mountWith 0) (scripted overlappedRead) 0 _ served_overlappedRead 8).2
    0 _ _ rfl doing rfl rfl

end Cache

end SparseCache
