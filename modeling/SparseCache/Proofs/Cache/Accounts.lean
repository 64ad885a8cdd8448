import Mathlib.Data.List.Perm.Basic
import SparseCache.Proofs.Cache.Notes

namespace SparseCache.Cache

/-! Handles from the call that gives them out to the call that takes them back. -/

variable {cache after : Cache} {id : EntryId} {entry : Entry} {handle other : Handle}
  {step : Step} {path : Path} {flags : OpenFlags} {size : Nat} {modified : Modified}

/-! ### Opening, taken apart -/

theorem acquired_place (acquired : cache.acquire path size modified = (.ok id, after)) :
    after.mapped.get? path = some id ∧ after.handles = cache.handles ∧
      after.counter = cache.counter := by
  rcases acquire_ok acquired with ⟨mapped, rfl⟩ | ⟨unmapped, made, fits, rfl, rfl⟩
  · exact ⟨mapped, rfl, rfl⟩
  · exact ⟨PathMap.get?_set.trans (if_pos (rfl : path.Same path)), rfl, rfl⟩

/-- An open either gives out the next handle, for what is mapped there from then on, or
leaves the table of handles and its counter alone. -/
inductive Hands (cache : Cache) (path : Path) : Except EntryError Handle × Cache → Prop
  | refused {error : EntryError} {after : Cache} (handles : after.handles = cache.handles)
      (counter : after.counter = cache.counter) : Hands cache path (.error error, after)
  | handed {id : EntryId} {after : Cache} (mapped : after.mapped.get? path = some id)
      (handles : after.handles = cache.handles ++ [(cache.counter.next, id)])
      (counter : after.counter = cache.counter.issue.2) :
      Hands cache path (.ok cache.counter.next, after)

theorem hands_openFile (cache : Cache) (path : Path) (flags : OpenFlags) (size : Nat)
    (modified : Modified) : Hands cache path (cache.openFile path flags size modified) := by
  have same := sameStore_prepared cache path flags
  unfold openFile
  generalize (if flags.isWritable then (cache.cancel path).2 else cache) = base at same
  simp only
  split
  · rename_i error held refused
    have kept : SameTables base held := by
      cases mapped : base.mapped.get? path with
      | some id => rw [acquire_of_mapped mapped] at refused; cases refused
      | none =>
          rcases acquire_of_unmapped size modified mapped with ⟨_, untouched⟩ | ⟨_, -, created⟩
          · rw [untouched] at refused
            cases refused
            exact .refl base
          · rw [created] at refused
            cases refused
    exact .refused (kept.handles.trans same.handles) (kept.counter.trans same.counter)
  · rename_i id held acquired
    obtain ⟨mapped, handles, counter⟩ := acquired_place acquired
    have emptied : SameTables held (if flags.contains .truncate then
        held.onEntry id fun entry => (entry.truncate 0).map ((), ·) else (.ok (), held)).2 := by
      split
      · exact .onEntry _ _ _
      · exact .refl held
    generalize (if flags.contains .truncate then
      held.onEntry id fun entry => (entry.truncate 0).map ((), ·) else (.ok (), held)) = outcome
      at emptied
    obtain ⟨truncated, wiped⟩ := outcome
    cases truncated with
    | error error =>
        have given := emptied.trans (sameTables_release wiped id)
        exact .refused (given.handles.trans (handles.trans same.handles))
          (given.counter.trans (counter.trans same.counter))
    | ok _ =>
        have next : wiped.counter = cache.counter :=
          emptied.counter.trans (counter.trans same.counter)
        have table : wiped.handles = cache.handles :=
          emptied.handles.trans (handles.trans same.handles)
        simp only [next, table, HandleCounter.issue]
        exact .handed (emptied.mapped ▸ mapped) rfl rfl

/-! ### Giving out and taking back -/

/-- The handle that a step gives out, if it opens a file and succeeds. -/
def Step.issued? (cache : Cache) : Step → Option Handle
  | .openFile path flags size modified => (cache.openFile path flags size modified).1.toOption
  | _ => none

/-- The step gives out the handle, and the entry is what is mapped then where it opened. -/
def Issues (cache : Cache) (step : Step) (handle : Handle) (id : EntryId) : Prop :=
  ∃ path flags size modified, step = .openFile path flags size modified ∧
    (cache.openFile path flags size modified).1 = .ok handle ∧
    (cache.openFile path flags size modified).2.mapped.get? path = some id

theorem Issues.issued?_eq (issues : cache.Issues step handle id) :
    step.issued? cache = some handle := by
  obtain ⟨path, flags, size, modified, rfl, done, -⟩ := issues
  simp only [Step.issued?, done, Except.toOption]

theorem Issues.unique {one two : EntryId} (first : cache.Issues step handle one)
    (second : cache.Issues step other two) : one = two := by
  obtain ⟨path, flags, size, modified, rfl, -, mapped⟩ := first
  obtain ⟨_, _, _, _, same, -, mapped'⟩ := second
  cases same
  rw [mapped] at mapped'
  exact Option.some.inj mapped'

/-- What one step does to the table of handles. -/
inductive Accounts (cache : Cache) (step : Step) : Prop
  | idle (silent : step.issued? cache = none) (keeps : ∀ handle, step ≠ .closeHandle handle)
      (handles : (cache.step step).handles = cache.handles)
      (counter : (cache.step step).counter = cache.counter)
  | issued {id : EntryId} (issues : cache.Issues step cache.counter.next id)
      (handles : (cache.step step).handles = cache.handles ++ [(cache.counter.next, id)])
      (counter : (cache.step step).counter = cache.counter.issue.2)
  | closed {handle : Handle} (step_eq : step = .closeHandle handle)
      (handles : (cache.step step).handles = cache.handles.filter fun item => item.1 != handle)
      (counter : (cache.step step).counter = cache.counter)

theorem accounts_closeHandle (cache : Cache) (handle : Handle) :
    Accounts cache (.closeHandle handle) := by
  cases held : cache.get? handle with
  | none =>
      have logged : cache.step (.closeHandle handle)
          = cache.log .warning "close of an unknown file handle" none := by
        simp only [Cache.step, closeHandle, held]
      refine .closed rfl ?_ (by rw [logged]; rfl)
      -- Where nothing is found there is nothing to take off the table.
      rw [logged]
      refine (List.filter_eq_self.mpr fun item member => ?_).symm
      simp only [get?, Option.map_eq_none_iff, List.find?_eq_none] at held
      simpa using held item member
  | some id =>
      have released : cache.step (.closeHandle handle)
          = { cache with handles := cache.handles.filter fun item => item.1 != handle
            }.release id := by
        simp only [Cache.step, closeHandle, held]
      have same := sameTables_release
        { cache with handles := cache.handles.filter fun item => item.1 != handle } id
      exact .closed rfl (by rw [released, same.handles]) (by rw [released, same.counter])

theorem accounts_step (cache : Cache) (step : Step) : Accounts cache step := by
  by_cases quiet : step.usesHandles = false
  · have unmaps := unmaps_step cache quiet
    refine .idle ?_ (fun handle same => ?_) unmaps.handles unmaps.counter
    · cases step with
      | openFile path flags size modified => cases quiet
      | _ => rfl
    · rw [same] at quiet
      cases quiet
  · cases step with
    | closeHandle handle => exact accounts_closeHandle cache handle
    | openFile path flags size modified =>
        have hands := hands_openFile cache path flags size modified
        generalize opened : cache.openFile path flags size modified = outcome at hands
        have stepped : cache.step (.openFile path flags size modified) = outcome.2 :=
          congrArg (·.2) opened
        cases hands with
        | refused handles counter =>
            refine .idle ?_ (fun handle same => by cases same) (by rw [stepped, handles])
              (by rw [stepped, counter])
            simp only [Step.issued?, opened, Except.toOption]
        | handed mapped handles counter =>
            have issues : cache.Issues (.openFile path flags size modified) cache.counter.next _ :=
              ⟨path, flags, size, modified, rfl, by rw [opened], by rw [opened]; exact mapped⟩
            exact .issued issues (by rw [stepped, handles]) (by rw [stepped, counter])
    | _ => exact absurd rfl quiet

/-! ### Along a run -/

variable {mount : Mount} {steps : Nat → Step} {m n : Nat}

/-- The handles given out in the first `n` steps, in order. -/
def issued (start : Cache) (steps : Nat → Step) (n : Nat) : List Handle :=
  (List.range n).filterMap fun m => (steps m).issued? (start.after steps m)

theorem issued_succ {start : Cache} (n : Nat) :
    issued start steps (n + 1)
      = issued start steps n ++ ((steps n).issued? (start.after steps n)).toList := by
  rw [issued, issued, List.range_succ, List.filterMap_append]
  cases given : (steps n).issued? (start.after steps n) <;> simp [given]

theorem mem_issued {start : Cache} (earlier : m < n)
    (issues : (start.after steps m).Issues (steps m) handle id) :
    handle ∈ issued start steps n :=
  List.mem_filterMap.mpr ⟨m, List.mem_range.mpr earlier, issues.issued?_eq⟩

/-- Handles are given out one after the other, from where the counter of the mount stood. -/
theorem issued_eq_range (mount : Mount) (steps : Nat → Step) (n : Nat) :
    ∃ count, mount.cache.issued steps n = List.range' mount.counter.next count ∧
      (mount.cache.after steps n).counter.next = mount.counter.next + count := by
  induction n with
  | zero => exact ⟨0, rfl, rfl⟩
  | succ n ih =>
      obtain ⟨count, given, next⟩ := ih
      rw [issued_succ, given, after_succ]
      cases accounts_step (mount.cache.after steps n) (steps n) with
      | idle silent keeps handles counter =>
          refine ⟨count, ?_, by rw [counter, next]⟩
          rw [silent, Option.toList_none, List.append_nil]
      | issued issues handles counter =>
          refine ⟨count + 1, ?_, by rw [counter, HandleCounter.issue, next]; rfl⟩
          rw [issues.issued?_eq, Option.toList_some, next, List.range'_concat, Nat.one_mul]
      | closed step_eq handles counter =>
          refine ⟨count, ?_, by rw [counter, next]⟩
          rw [step_eq]
          exact List.append_nil _

theorem get?_append (found : after.handles = cache.handles ++ [(other, id)])
    (new : cache.get? other = none) :
    after.get? handle = if handle = other then some id else cache.get? handle := by
  rw [get?, found, List.find?_append, Option.map_or]
  split
  · rename_i here
    subst here
    rw [← get?, new]
    simp
  · rename_i apart
    have elsewhere : (other == handle) = false := by simpa using Ne.symm apart
    simp [elsewhere, get?]

theorem Counted.get?_next (counted : cache.Counted) : cache.get? cache.counter.next = none := by
  rw [get?, Option.map_eq_none_iff, List.find?_eq_none]
  intro item member
  simpa using Nat.ne_of_lt (counted.below item member)

/-- Before step `n` the handle was given out for the entry, and it was not taken back since. -/
def Stands (start : Cache) (steps : Nat → Step) (n : Nat) (handle : Handle) (id : EntryId) :
    Prop :=
  ∃ m, m < n ∧ (start.after steps m).Issues (steps m) handle id ∧
    ∀ k, m < k → k < n → steps k ≠ .closeHandle handle

theorem stands_succ {start : Cache} :
    start.Stands steps (n + 1) handle id ↔ (start.after steps n).Issues (steps n) handle id ∨
      start.Stands steps n handle id ∧ steps n ≠ .closeHandle handle := by
  constructor
  · rintro ⟨m, earlier, issues, kept⟩
    rcases Nat.lt_or_eq_of_le (Nat.le_of_lt_succ earlier) with before | rfl
    · exact .inr ⟨⟨m, before, issues, fun k later upto => kept k later (Nat.lt_succ_of_lt upto)⟩,
        kept n before (Nat.lt_succ_self n)⟩
    · exact .inl issues
  · rintro (issues | ⟨⟨m, before, issues, kept⟩, open_still⟩)
    · exact ⟨n, Nat.lt_succ_self n, issues, fun k later upto => by omega⟩
    · refine ⟨m, Nat.lt_succ_of_lt before, issues, fun k later upto => ?_⟩
      rcases Nat.lt_or_eq_of_le (Nat.le_of_lt_succ upto) with inside | rfl
      · exact kept k later inside
      · exact open_still

/-- A handle stands for an entry just as long as it was given out for it and not taken back. -/
theorem get?_eq_some_iff (mount : Mount) (steps : Nat → Step) (n : Nat) :
    (mount.cache.after steps n).get? handle = some id ↔ mount.cache.Stands steps n handle id := by
  induction n generalizing id with
  | zero =>
      constructor
      · intro held
        cases held
      · rintro ⟨m, earlier, -⟩
        cases earlier
  | succ n ih =>
      rw [stands_succ, ← ih, after_succ]
      have counted := counted_after mount steps n
      generalize mount.cache.after steps n = cache at counted
      generalize steps n = step
      cases accounts_step cache step with
      | idle silent keeps handles counter =>
          have none_issued : ¬ cache.Issues step handle id := by
            intro issues
            rw [issues.issued?_eq] at silent
            cases silent
          rw [get?, handles, ← get?]
          simp only [none_issued, false_or, ne_eq, keeps handle, not_false_iff, and_true]
      | @issued opened issues handles counter =>
          have keeps : step ≠ .closeHandle handle := by
            rintro rfl
            cases issues.issued?_eq
          rw [get?_append handles counted.get?_next]
          split
          · rename_i here
            subst here
            rw [counted.get?_next]
            constructor
            · intro same
              cases same
              exact .inl issues
            · rintro (again | ⟨held, -⟩)
              · rw [issues.unique again]
              · cases held
          · rename_i elsewhere
            have none_issued : ¬ cache.Issues step handle id := by
              intro again
              have same := issues.issued?_eq.symm.trans again.issued?_eq
              exact elsewhere (Option.some.inj same).symm
            simp only [none_issued, false_or, ne_eq, keeps, not_false_iff, and_true]
      | @closed taken step_eq handles counter =>
          have none_issued : ¬ cache.Issues step handle id := by
            rintro ⟨_, _, _, _, same, -⟩
            rw [step_eq] at same
            cases same
          have without : (cache.step step).get? handle
              = if handle = taken then none else cache.get? handle := by
            rw [← get?_without, get?, handles, get?]
          rw [without, step_eq]
          rw [step_eq] at none_issued
          simp only [none_issued, false_or, ne_eq, Step.closeHandle.injEq]
          split
          · rename_i here
            simp [here]
          · rename_i elsewhere
            simp [Ne.symm elsewhere]

/-! ### Counting -/

theorem countP_find? {items : List (Handle × EntryId)} {keys : List Handle}
    (apart : items.Pairwise fun left right => left.1 ≠ right.1) (once : keys.Nodup)
    (known : ∀ item ∈ items, item.1 ∈ keys) :
    keys.countP (fun key => (items.find? fun item => item.1 == key).map (·.2) == some id)
      = items.countP fun item => item.2 == id := by
  induction items with
  | nil => simp
  | cons item items ih =>
      obtain ⟨first, rest⟩ := List.pairwise_cons.mp apart
      have counted := ih rest fun other member => known other (.tail _ member)
      -- The key of the first item stands once among the keys and nowhere in the rest.
      have here := List.perm_cons_erase (known item (.head _))
      have absent : (items.find? fun other => other.1 == item.1) = none := by
        rw [List.find?_eq_none]
        intro other member
        simpa using Ne.symm (first other member)
      have elsewhere : ∀ key ∈ keys.erase item.1, item.1 ≠ key := by
        rintro key member rfl
        exact once.not_mem_erase member
      rw [here.countP_eq, List.countP_cons, absent] at counted
      rw [here.countP_eq, List.countP_cons, List.countP_cons, ← counted]
      have agree : (keys.erase item.1).countP (fun key =>
            ((item :: items).find? fun other => other.1 == key).map (·.2) == some id)
          = (keys.erase item.1).countP fun key =>
            (items.find? fun other => other.1 == key).map (·.2) == some id := by
        refine List.countP_congr fun key member => ?_
        have other : (item.1 == key) = false := by simpa using elsewhere key member
        rw [List.find?_cons, other]
      rw [agree]
      simp

/-- Each entry counts just the handles given out so far that stand for it now. -/
theorem handles_eq_countP (mount : Mount) (steps : Nat → Step) (n : Nat)
    (found : Cache.entry? (mount.cache.after steps n) id = some entry) :
    entry.handles = (mount.cache.issued steps n).countP fun handle =>
      (mount.cache.after steps n).get? handle == some id := by
  have counted := counted_after mount steps n
  obtain ⟨count, given, -⟩ := issued_eq_range mount steps n
  have once : (mount.cache.issued steps n).Nodup := by
    rw [given]
    exact List.nodup_range'
  have known : ∀ item ∈ (mount.cache.after steps n).handles,
      item.1 ∈ mount.cache.issued steps n := by
    intro item member
    obtain ⟨m, earlier, issues, -⟩ :=
      (get?_eq_some_iff mount steps n).mp (counted.get?_of_mem member)
    exact mem_issued earlier issues
  rw [counted.counts found, Nat.add_zero, holders]
  exact (countP_find? counted.apart once known).symm

/-- The counter of a mount that is set up stands at one. -/
theorem counter_of_create [Host] {disk claimed : Disk} {config : Config}
    (created : Mount.create disk config = (.ok mount, claimed)) : mount.counter = {} := by
  unfold Mount.create at created
  split at created
  · cases created
  · split at created
    · cases created
    · cases created
      rfl

/-- Handles are given out as 1, 2, 3 and so on.  Each stands for the entry that its open
acquired from then until it is closed, whatever becomes of paths in between, and no entry
counts any handles but those that stand for it; so none is ever given back that is not there. -/
theorem handles_accounted (mount : Mount) (fresh : mount.counter = {}) (steps : Nat → Step)
    (n : Nat) :
    (∃ count, mount.cache.issued steps n = List.range' 1 count) ∧
    (∀ handle id, (mount.cache.after steps n).get? handle = some id ↔
      ∃ m, m < n ∧ (mount.cache.after steps m).Issues (steps m) handle id ∧
        ∀ k, m < k → k < n → steps k ≠ .closeHandle handle) ∧
    (∀ id entry, Cache.entry? (mount.cache.after steps n) id = some entry →
      entry.handles = (mount.cache.issued steps n).countP fun handle =>
        (mount.cache.after steps n).get? handle == some id) ∧
    ∀ severity failure,
      .logged severity "released a handle of an entry with no open handles" failure
        ∉ (mount.cache.after steps n).events := by
  refine ⟨?_, fun handle id => get?_eq_some_iff mount steps n,
    fun id entry found => handles_eq_countP mount steps n found, fun severity failure member => ?_⟩
  · obtain ⟨count, given, -⟩ := issued_eq_range mount steps n
    exact ⟨count, by rw [given, fresh]⟩
  · obtain ⟨id, path, chunks, written⟩ := written_of_mem_notes
      (List.mem_filter.mpr ⟨member, by simp [Event.notable]⟩)
    cases written

/-- Two handles of one file that is moved and then displaced, and one of what displaced it. -/
def displacedHolders : List Step :=
  [.openFile ⟨[97]⟩ .readWrite 4 .now, .openFile ⟨[97]⟩ .readOnly 4 .now,
    .moveFile ⟨[97]⟩ ⟨[98]⟩, .openFile ⟨[97]⟩ .readWrite 2 .now, .moveFile ⟨[97]⟩ ⟨[98]⟩,
    .closeHandle 1, .closeHandle 1]

theorem displacedHolders_accounted :
    (mountWith 0).counter = {} ∧
    ((mountWith 0).cache.after (scripted displacedHolders) 7).get? 2 = some 0 ∧
    (∃ m, m < 7 ∧ ((mountWith 0).cache.after (scripted displacedHolders) m).Issues
      (scripted displacedHolders m) 2 0 ∧
        ∀ k, m < k → k < 7 → scripted displacedHolders k ≠ .closeHandle 2) := by
  have held : ((mountWith 0).cache.after (scripted displacedHolders) 7).get? 2 = some 0 := by
    decide
  have accounted := handles_accounted (mountWith 0) rfl (scripted displacedHolders) 7
  exact ⟨rfl, held, (accounted.2.1 2 0).mp held⟩

end SparseCache.Cache
