import SparseCache.Proofs.Cache.Tables

namespace SparseCache.Cache

/-! The count of an entry agrees with the table of handles. -/

variable {cache after : Cache} {id other : EntryId} {entry next : Entry} {handle : Handle}
  {step : Step} {path : Path}

/-- How many open handles belong to the entry. -/
def holders (cache : Cache) (id : EntryId) : Nat := cache.handles.countP fun item => item.2 == id

/-- No two handles are alike, and each entry knows how many handles it has.  Within a step
it may be `ahead` of the table. -/
structure CountedBut (cache : Cache) (ahead : EntryId → Nat) : Prop where
  counts : ∀ {id entry}, cache.entry? id = some entry → entry.handles = cache.holders id + ahead id
  unborn : ∀ {id}, cache.entry? id = none → cache.holders id = 0 ∧ ahead id = 0
  below : ∀ item ∈ cache.handles, item.1 < cache.counter.next
  apart : cache.handles.Pairwise fun left right => left.1 ≠ right.1

/-- Each entry knows how many handles it has. -/
abbrev Counted (cache : Cache) : Prop := cache.CountedBut fun _ => 0

/-- One for the entry named, none for any other. -/
def oneFor (id other : EntryId) : Nat := if other = id then 1 else 0

theorem holders_congr (same : after.handles = cache.handles) (id : EntryId) :
    after.holders id = cache.holders id := by
  rw [holders, holders, same]

/-! ### Looking handles up -/

theorem find?_of_mem {α β : Type} [BEq α] [LawfulBEq α] {items : List (α × β)} {key : α}
    {value : β} (apart : items.Pairwise fun left right => left.1 ≠ right.1)
    (member : (key, value) ∈ items) :
    items.find? (fun item => item.1 == key) = some (key, value) := by
  induction items with
  | nil => cases member
  | cons item items ih =>
      obtain ⟨first, rest⟩ := List.pairwise_cons.mp apart
      rcases List.mem_cons.mp member with rfl | later
      · simp
      · have elsewhere : (item.1 == key) = false := by simpa using first _ later
        rw [List.find?_cons, elsewhere]
        exact ih rest later

theorem Counted.get?_of_mem (counted : cache.Counted) {handle : Handle}
    (member : (handle, id) ∈ cache.handles) : cache.get? handle = some id := by
  rw [get?, find?_of_mem counted.apart member]
  rfl

theorem Counted.holds_iff (counted : cache.Counted) : cache.Holds id ↔ 0 < cache.holders id := by
  rw [holders, List.countP_pos_iff]
  constructor
  · rintro ⟨handle, found⟩
    obtain ⟨⟨key, value⟩, first, rfl⟩ := Option.map_eq_some_iff.mp found
    exact ⟨_, List.mem_of_find?_eq_some first, by simp⟩
  · rintro ⟨⟨handle, owner⟩, member, about⟩
    obtain rfl : owner = id := by simpa using about
    exact ⟨handle, counted.get?_of_mem member⟩

theorem Counted.holds_iff_handles (counted : cache.Counted) (found : cache.entry? id = some entry) :
    cache.Holds id ↔ 0 < entry.handles := by
  rw [counted.holds_iff, counted.counts found, Nat.add_zero]

/-- Whatever is counted in a table, a row that is taken out counts as one or as none. -/
theorem countP_without {α β : Type} [BEq α] [LawfulBEq α] {items : List (α × β)} {key : α}
    {value : β} (apart : items.Pairwise fun left right => left.1 ≠ right.1)
    (found : items.find? (fun item => item.1 == key) = some (key, value)) (counts : β → Bool) :
    (items.filter fun item => item.1 != key).countP (fun item => counts item.2)
        + (if counts value then 1 else 0)
      = items.countP fun item => counts item.2 := by
  induction items with
  | nil => cases found
  | cons item items ih =>
      obtain ⟨first, rest⟩ := List.pairwise_cons.mp apart
      by_cases here : item.1 = key
      · obtain rfl : item = (key, value) := by simpa [here] using found
        have kept : (items.filter fun item => item.1 != key) = items := by
          refine List.filter_eq_self.mpr fun item member => ?_
          simpa using Ne.symm (first item member)
        simp only [List.filter_cons, bne_self_eq_false, Bool.false_eq_true, if_false, kept,
          List.countP_cons]
      · have later : items.find? (fun item => item.1 == key) = some (key, value) := by
          simpa [here] using found
        have counted := ih rest later
        have passes : (item.1 != key) = true := by simpa using here
        simp only [List.filter_cons, passes, if_true, List.countP_cons]
        omega

/-- Once a handle was taken off the table, its entry is ahead by one. -/
theorem Counted.without (counted : cache.Counted) (held : cache.get? handle = some id) :
    CountedBut { cache with handles := cache.handles.filter fun item => item.1 != handle }
      (oneFor id) := by
  have fewer : ∀ other, holders { cache with
      handles := cache.handles.filter fun item => item.1 != handle } other + oneFor id other
      = cache.holders other := by
    obtain ⟨⟨key, owner⟩, first, rfl⟩ := Option.map_eq_some_iff.mp held
    obtain rfl : key = handle := by simpa using List.find?_some first
    intro other
    have counted := countP_without counted.apart first (· == other)
    simp only [beq_iff_eq, eq_comm (a := owner)] at counted
    exact counted
  refine ⟨fun {other entry} found => ?_, fun {other} absent => ?_, fun item member => ?_, ?_⟩
  · rw [fewer other]
    exact counted.counts found
  · have none := (counted.unborn absent).1
    rw [← fewer other] at none
    omega
  · exact counted.below item (List.mem_filter.mp member).1
  · exact List.Pairwise.filter _ counted.apart

/-! ### Steps that leave the table alone -/

theorem Turn.handles_eq (turn : Turn cache id entry step next) (quiet : step.usesHandles = false) :
    next.handles = entry.handles := by
  cases turn with
  | displaced refused displaced =>
      obtain ⟨_, rfl | rfl⟩ := displaced <;> rfl
  | wrote done =>
      obtain ⟨_, -, -, rfl⟩ := Entry.write_ok done
      rfl
  | resized done =>
      obtain ⟨_, -, -, rfl⟩ := Entry.truncate_ok done
      rfl
  | opened mapped keeps => cases quiet
  | emptied mapped wipes done => cases quiet
  | refused mapped wipes closed left => cases quiet
  | released held left => cases quiet
  | @filled task i reply work load waiting going =>
      obtain ⟨_, _, stored⟩ := load.receive_entry i entry reply
      rw [stored]
  | cleaned doing about stage => rfl

theorem Counted.quiet (counted : cache.Counted) (quiet : step.usesHandles = false) :
    (cache.step step).Counted := by
  have unmaps := unmaps_step cache quiet
  refine ⟨fun {id entry} found => ?_, fun {id} absent => ?_, ?_, ?_⟩
  · rw [holders_congr unmaps.handles]
    cases before : cache.entry? id with
    | none =>
        rw [(counted.unborn before).1]
        obtain ⟨-, born⟩ := born_step before found
        cases born with
        | created fits => rw [(Entry.create_ok fits).2]
        | opened unmapped keeps fits => cases quiet
        | emptied unmapped wipes fits done => cases quiet
    | some held =>
        obtain ⟨next, present, turn⟩ := turn_step before step
        rw [found] at present
        cases present
        rw [turn.handles_eq quiet, counted.counts before]
  · rw [holders_congr unmaps.handles]
    cases before : cache.entry? id with
    | none => exact counted.unborn before
    | some held =>
        obtain ⟨next, present, -⟩ := turn_step before step
        rw [absent] at present
        cases present
  · rw [unmaps.handles, unmaps.counter]
    exact counted.below
  · rw [unmaps.handles]
    exact counted.apart

/-! ### Opening and closing -/

theorem CountedBut.of_sameStore {ahead : EntryId → Nat} (counted : cache.CountedBut ahead)
    (same : SameStore cache after) : after.CountedBut ahead where
  counts found := by
    rw [holders_congr same.handles]
    exact counted.counts (same.lookup ▸ found)
  unborn absent := by
    rw [holders_congr same.handles]
    exact counted.unborn (same.lookup ▸ absent)
  below := by
    rw [same.handles, same.counter]
    exact counted.below
  apart := by
    rw [same.handles]
    exact counted.apart

theorem CountedBut.setEntry {ahead : EntryId → Nat} (counted : cache.CountedBut ahead)
    (found : cache.entry? id = some entry) (same : next.handles = entry.handles) :
    (cache.setEntry id next).CountedBut ahead where
  counts {other held} present := by
    rw [entry?_setEntry] at present
    split at present
    · rename_i here
      rw [here, found] at present
      cases present
      rw [same, here]
      exact counted.counts found
    · exact counted.counts present
  unborn {other} absent := by
    rw [entry?_setEntry] at absent
    split at absent
    · exact counted.unborn (Option.map_eq_none_iff.mp absent)
    · exact counted.unborn absent
  below := counted.below
  apart := counted.apart

/-- The entry that was opened counts a handle that nobody has yet. -/
theorem Counted.acquired (counted : cache.Counted)
    (rooted : ∀ {id}, cache.Maps id → (cache.entry? id).isSome) {size : Nat} {modified : Modified}
    (acquired : cache.acquire path size modified = (.ok id, after)) :
    after.CountedBut (oneFor id) := by
  rcases acquire_ok acquired with ⟨mapped, rfl⟩ | ⟨unmapped, made, fits, rfl, rfl⟩
  · refine ⟨fun {other held} found => ?_, fun {other} absent => ?_, counted.below, counted.apart⟩
    · rw [entry?_modifyEntry] at found
      unfold oneFor
      split at found
      · rename_i here
        obtain ⟨entry, present, rfl⟩ := Option.map_eq_some_iff.mp found
        rw [if_pos here]
        exact congrArg Nat.succ (counted.counts present)
      · rename_i elsewhere
        rw [if_neg elsewhere]
        exact counted.counts found
    · rw [entry?_modifyEntry] at absent
      unfold oneFor
      split at absent
      · rename_i here
        have known := rooted ⟨path, mapped⟩
        rw [← here, Option.map_eq_none_iff.mp absent] at known
        cases known
      · rename_i elsewhere
        exact ⟨(counted.unborn absent).1, if_neg elsewhere⟩
  · refine ⟨fun {other held} found => ?_, fun {other} absent => ?_, counted.below, counted.apart⟩
    · rw [entry?_append _ rfl] at found
      unfold oneFor
      split at found
      · rename_i here
        cases found
        have none : cache.holders other = 0 :=
          (counted.unborn (List.getElem?_eq_none (Nat.le_of_eq here.symm))).1
        have one : made.openHandle.2.handles = 1 := by rw [(Entry.create_ok fits).2]; rfl
        rw [one, if_pos here]
        exact (congrArg Nat.succ none).symm
      · rename_i elsewhere
        rw [if_neg elsewhere]
        exact counted.counts found
    · rw [entry?_append _ rfl] at absent
      unfold oneFor
      split at absent
      · cases absent
      · rename_i elsewhere
        exact ⟨(counted.unborn absent).1, if_neg elsewhere⟩

theorem CountedBut.handed (counted : cache.CountedBut (oneFor id)) :
    Counted { cache with
      counter := cache.counter.issue.2
      handles := cache.handles ++ [(cache.counter.next, id)] } := by
  have more : ∀ other, holders { cache with
      counter := cache.counter.issue.2
      handles := cache.handles ++ [(cache.counter.next, id)] } other
      = cache.holders other + oneFor id other := by
    intro other
    simp only [holders, List.countP_append, List.countP_singleton, beq_iff_eq, oneFor,
      eq_comm (a := id)]
  refine ⟨fun {other entry} found => ?_, fun {other} absent => ?_, fun item member => ?_, ?_⟩
  · rw [more]
    exact counted.counts found
  · rw [more, (counted.unborn absent).1, (counted.unborn absent).2]
    exact ⟨rfl, rfl⟩
  · rcases List.mem_append.mp member with old | new
    · exact Nat.lt_succ_of_lt (counted.below item old)
    · rw [List.mem_singleton.mp new]
      exact Nat.lt_succ_self _
  · refine List.pairwise_append.mpr ⟨counted.apart, List.pairwise_singleton _ _, ?_⟩
    intro old member new last
    rw [List.mem_singleton.mp last]
    exact Nat.ne_of_lt (counted.below old member)

theorem CountedBut.release (counted : cache.CountedBut (oneFor id)) :
    (cache.release id).Counted := by
  have tables := sameTables_release cache id
  refine ⟨fun {other entry} found => ?_, fun {other} absent => ?_, ?_, ?_⟩
  · rw [holders_congr tables.handles, Nat.add_zero]
    rw [entry?_release] at found
    split at found
    · rename_i here
      obtain ⟨held, present, rfl⟩ := Option.map_eq_some_iff.mp found
      have counts := counted.counts present
      rw [oneFor, if_pos here] at counts
      have used : 0 < held.handles := Nat.lt_of_lt_of_eq (Nat.succ_pos _) counts.symm
      obtain ⟨n, given, left⟩ := Entry.releaseHandle?_of_held used
      obtain ⟨one, rfl⟩ := Entry.releaseHandle?_some left
      rw [left]
      exact Nat.succ.inj (one.symm.trans counts)
    · rename_i elsewhere
      have counts := counted.counts found
      rwa [oneFor, if_neg elsewhere] at counts
  · rw [holders_congr tables.handles]
    rw [entry?_release] at absent
    split at absent
    · exact ⟨(counted.unborn (Option.map_eq_none_iff.mp absent)).1, rfl⟩
    · exact ⟨(counted.unborn absent).1, rfl⟩
  · rw [tables.handles, tables.counter]
    exact counted.below
  · rw [tables.handles]
    exact counted.apart

theorem Counted.openFile (counted : cache.Counted) (rooted : cache.Rooted) (path : Path)
    (flags : OpenFlags) (size : Nat) (modified : Modified) :
    (cache.openFile path flags size modified).2.Counted := by
  have opens := opens_openFile cache path flags size modified
  have same := sameStore_prepared cache path flags
  generalize (if flags.isWritable then (cache.cancel path).2 else cache) = base at opens same
  generalize (cache.openFile path flags size modified).2 = after at opens
  have counted : base.Counted := counted.of_sameStore same
  have known : ∀ {id}, base.Maps id → (base.entry? id).isSome := by
    intro id mapped
    rw [same.lookup]
    exact rooted.referred (.inr (maps_congr same.mapped mapped))
  cases opens with
  | unmade unmapped => exact counted
  | opened acquired keeps => exact (counted.acquired known acquired).handed
  | @emptied opened held entry empty acquired wipes found done =>
      have same : empty.handles = entry.handles := by
        obtain ⟨_, -, -, rfl⟩ := Entry.truncate_ok done
        rfl
      exact ((counted.acquired known acquired).setEntry found same).handed
  | refused acquired wipes closed => exact (counted.acquired known acquired).release

theorem Counted.closeHandle (counted : cache.Counted) (handle : Handle) :
    (cache.closeHandle handle).Counted := by
  unfold Cache.closeHandle
  split
  · exact counted.of_sameStore ((SameStore.refl cache).log _ _ _)
  · rename_i id held
    exact (counted.without held).release

theorem counted_step (counted : cache.Counted) (rooted : cache.Rooted) (step : Step) :
    (cache.step step).Counted := by
  by_cases quiet : step.usesHandles = false
  · exact counted.quiet quiet
  · cases step with
    | openFile path flags size modified => exact counted.openFile rooted path flags size modified
    | closeHandle handle => exact counted.closeHandle handle
    | _ => exact absurd rfl quiet

theorem counted_after (mount : Mount) (steps : Nat → Step) (n : Nat) :
    (mount.cache.after steps n).Counted := by
  refine after_induction ⟨fun found => ?_, fun _ => ⟨rfl, rfl⟩, fun _ member => ?_, .nil⟩
    (fun n counted => counted_step counted (rooted_after mount steps n) _) n
  · cases found
  · cases member

end SparseCache.Cache
