import SparseCache.Proofs.Cache.Remapping

namespace SparseCache.Cache

/-! The map and the entries agree.

Whatever is mapped goes by its key and is open; whatever the cache made and no longer maps is
closed.  Nobody but the cache may move or close what the cache made.  Entries that were made by
themselves may be moved and closed by anybody: they are never mapped.
-/

variable {cache before middle after : Cache} {id other : EntryId} {entry next : Entry}
  {path source destination : Path} {step : Step} {made : EntryId → Prop}

/-- The map is in order, where `made` tells which entries the cache made. -/
structure Coherent (made : EntryId → Prop) (cache : Cache) : Prop where
  distinct : cache.mapped.Distinct
  homed : ∀ {path id}, cache.mapped.get? path = some id →
    made id ∧ ∃ entry, cache.entry? id = some entry ∧ entry.path.Same path ∧ entry.isOpen = true
  settled : ∀ {id}, made id → cache.Maps id ∨ cache.Shut id

namespace Coherent

theorem empty (unmapped : cache.mapped = []) : cache.Coherent fun _ => False where
  distinct := by rw [unmapped]; exact .nil
  homed found := by rw [unmapped] at found; cases found
  settled := False.elim

/-- Two keys of one entry both name its path. -/
theorem oneToOne (coherent : cache.Coherent made) : cache.mapped.OneToOne := by
  refine ⟨coherent.distinct, coherent.distinct.imp_of_mem ?_⟩
  intro left right member member' apart alike
  obtain ⟨-, entry, found, here, -⟩ :=
    coherent.homed (coherent.distinct.get?_of_mem member (.refl left.1))
  obtain ⟨-, held, found', there, -⟩ :=
    coherent.homed (coherent.distinct.get?_of_mem member' (.refl right.1))
  rw [← alike, found] at found'
  cases found'
  exact apart (here.symm.trans there)

theorem known (coherent : cache.Coherent made) (found : cache.mapped.get? path = some id) :
    (cache.entry? id).isSome := by
  obtain ⟨-, entry, present, -⟩ := coherent.homed found
  exact Option.isSome_of_eq_some present

theorem of_sameStore (coherent : before.Coherent made) (same : SameStore before after) :
    after.Coherent made where
  distinct := same.mapped ▸ coherent.distinct
  homed found := by
    rw [same.lookup]
    exact coherent.homed (same.mapped ▸ found)
  settled ours := by
    rcases coherent.settled ours with ⟨path, found⟩ | shut
    · exact .inl ⟨path, same.mapped ▸ found⟩
    · exact .inr (shut.of_sameStore same)

theorem congr {made' : EntryId → Prop} (coherent : cache.Coherent made)
    (alike : ∀ id, made id ↔ made' id) : cache.Coherent made' where
  distinct := coherent.distinct
  homed found := (coherent.homed found).imp_left (alike _).mp
  settled ours := coherent.settled ((alike _).mpr ours)

/-- An entry at a key stays there unless the step is about it. -/
theorem spared {touched : EntryId → Prop} (coherent : before.Coherent made)
    (spares : Spares touched before after) (found : before.mapped.get? path = some id)
    (apart : ¬ touched id) :
    made id ∧ ∃ entry, after.entry? id = some entry ∧ entry.path.Same path ∧
      entry.isOpen = true := by
  obtain ⟨ours, entry, present, here, shown⟩ := coherent.homed found
  obtain ⟨next, present', place, same⟩ := spares.kept apart present
  exact ⟨ours, next, present', by rw [place]; exact here, same.trans shown⟩

/-! ### The four things a step may do -/

theorem kept (coherent : before.Coherent made) (mapped : after.mapped = before.mapped)
    (left : ∀ id, made id → step.meddles id = false)
    (spares : Spares (step.meddles · = true) before after) : after.Coherent made where
  distinct := mapped ▸ coherent.distinct
  homed found := by
    rw [mapped] at found
    exact coherent.spared spares found (by simp [left _ (coherent.homed found).1])
  settled {id} ours := by
    rcases coherent.settled ours with ⟨path, found⟩ | shut
    · exact .inl ⟨path, mapped ▸ found⟩
    · exact .inr (shut.spares spares (by simp [left id ours]))

theorem mapped_new (coherent : before.Coherent made)
    (unmapped : before.mapped.get? path = none)
    (mapped : after.mapped = before.mapped.set path id) (fresh : after.entry? id = some entry)
    (goes : entry.path = path) (shown : entry.isOpen = true)
    (spares : Spares (fun _ => False) before after) :
    after.Coherent fun other => made other ∨ other = id where
  distinct := mapped ▸ coherent.distinct.set
  homed {asked other} found := by
    rw [mapped, PathMap.get?_set] at found
    split at found
    · rename_i here
      cases found
      exact ⟨.inr rfl, entry, fresh, by rw [goes]; exact here, shown⟩
    · obtain ⟨ours, settled⟩ := coherent.spared spares found not_false
      exact ⟨.inl ours, settled⟩
  settled {other} ours := by
    rw [Maps, mapped]
    rcases ours with ours | rfl
    · rcases coherent.settled ours with ⟨key, found⟩ | shut
      · refine .inl ⟨key, ?_⟩
        rw [PathMap.get?_set, if_neg, found]
        intro same
        rw [PathMap.get?_congr same, found] at unmapped
        cases unmapped
      · exact .inr (shut.spares spares not_false)
    · exact .inl ⟨path, by rw [PathMap.get?_set, if_pos (.refl path)]⟩

theorem discarded {keep : Path × EntryId → Bool} (coherent : before.Coherent made)
    (mapped : after.mapped = before.mapped.filter keep)
    (shut : ∀ item ∈ before.mapped, keep item = false → (before.entry? item.2).isSome →
      after.Shut item.2)
    (spares : Spares (fun id => ∃ item ∈ before.mapped, keep item = false ∧ item.2 = id)
      before after) : after.Coherent made where
  distinct := mapped ▸ coherent.distinct.filter keep
  homed {asked id} found := by
    rw [mapped] at found
    obtain ⟨key, member, here⟩ := PathMap.exists_mem_of_get? found
    obtain ⟨member, stays⟩ := List.mem_filter.mp member
    refine coherent.spared spares (coherent.distinct.get?_of_mem member here) ?_
    rintro ⟨item, member', gone, alike⟩
    obtain rfl := coherent.oneToOne.eq_of_mem member' member alike
    rw [stays] at gone
    cases gone
  settled {id} ours := by
    have closed : (∃ item ∈ before.mapped, keep item = false ∧ item.2 = id) → after.Shut id := by
      rintro ⟨item, member, gone, rfl⟩
      exact shut item member gone
        (coherent.known (coherent.distinct.get?_of_mem member (.refl item.1)))
    by_cases gone : ∃ item ∈ before.mapped, keep item = false ∧ item.2 = id
    · exact .inr (closed gone)
    · rcases coherent.settled ours with ⟨path, found⟩ | known
      · obtain ⟨key, member, here⟩ := PathMap.exists_mem_of_get? found
        have stays : keep (key, id) = true := by
          cases dropped : keep (key, id) with
          | true => rfl
          | false => exact absurd ⟨(key, id), member, dropped, rfl⟩ gone
        have left : (key, id) ∈ before.mapped.filter keep := List.mem_filter.mpr ⟨member, stays⟩
        refine .inl ⟨path, ?_⟩
        rw [mapped]
        exact PathMap.Distinct.get?_of_mem (coherent.distinct.filter keep) left here
      · exact .inr (known.spares spares gone)

theorem moved (coherent : before.Coherent made) (apart : ¬ source.Same destination)
    (held : before.mapped.get? source = some id)
    (mapped : after.mapped = (before.mapped.erase source).set destination id)
    (goes : ∀ {entry}, before.mapped.get? destination ≠ some id → before.entry? id = some entry →
      ∃ next, after.entry? id = some next ∧ next.path = destination ∧ next.isOpen = entry.isOpen)
    (shut : ∀ {other}, before.mapped.get? destination = some other →
      (before.entry? other).isSome → after.Shut other)
    (spares : Spares (fun other => other = id ∨ before.mapped.get? destination = some other)
      before after) : after.Coherent made where
  distinct := by
    rw [mapped]
    exact PathMap.Distinct.set (coherent.distinct.filter _)
  homed {asked other} found := by
    rw [mapped, PathMap.get?_set] at found
    split at found
    · rename_i here
      cases found
      obtain ⟨ours, entry, present, -, shown⟩ := coherent.homed held
      have free : before.mapped.get? destination ≠ some id := fun taken =>
        apart (coherent.oneToOne.same held taken)
      obtain ⟨next, present', place, same⟩ := goes free present
      exact ⟨ours, next, present', by rw [place]; exact here, same.trans shown⟩
    · rename_i elsewhere
      obtain ⟨away, found⟩ := PathMap.get?_erase_eq_some_iff.mp found
      refine coherent.spared spares found ?_
      rintro (rfl | taken)
      · exact away (coherent.oneToOne.same held found)
      · exact elsewhere (coherent.oneToOne.same taken found)
  settled {other} ours := by
    rw [Maps, mapped]
    by_cases same : other = id
    · exact .inl ⟨destination, by rw [PathMap.get?_set, if_pos (.refl destination), same]⟩
    · by_cases taken : before.mapped.get? destination = some other
      · exact .inr (shut taken (coherent.known taken))
      · rcases coherent.settled ours with ⟨key, found⟩ | known
        · refine .inl ⟨key, ?_⟩
          have here : ¬ destination.Same key := fun there =>
            taken ((PathMap.get?_congr there).trans found)
          have away : ¬ source.Same key := by
            intro there
            rw [PathMap.get?_congr there, found] at held
            exact same (Option.some.inj held)
          rw [PathMap.get?_set, if_neg here]
          exact PathMap.get?_erase_eq_some_iff.mpr ⟨away, found⟩
        · refine .inr (known.spares spares ?_)
          rintro (here | there)
          · exact same here
          · exact taken there

end Coherent

/-! ### Whole runs -/

/-- Opening a path brings the entry into being. -/
def Makes (cache : Cache) (step : Step) (id : EntryId) : Prop :=
  step.opens = true ∧ cache.entry? id = none ∧ (Cache.entry? (cache.step step) id).isSome

/-- The entry was made when a path was opened in one of the first `n` steps. -/
def MadeBefore (start : Cache) (steps : Nat → Step) (n : Nat) (id : EntryId) : Prop :=
  ∃ m, m < n ∧ (start.after steps m).Makes (steps m) id

theorem coherent_step (coherent : cache.Coherent made)
    (left : ∀ id, made id → step.meddles id = false) :
    (cache.step step).Coherent fun id => made id ∨ cache.Makes step id := by
  obtain ⟨base, middle, first, remaps, last⟩ := remaps_step coherent.distinct step
  have prepared := coherent.of_sameStore first
  have unmade : step.opens = false → ∀ id, made id ↔ made id ∨ cache.Makes step id := by
    refine fun other id => ⟨.inl, fun ours => ours.resolve_right ?_⟩
    rintro ⟨opens, -⟩
    rw [other] at opens
    cases opens
  cases remaps with
  | kept mapped unborn spares =>
      refine ((prepared.kept mapped left spares).of_sameStore last).congr fun id => ?_
      refine ⟨.inl, fun ours => ours.resolve_right ?_⟩
      rintro ⟨opens, absent, present⟩
      rw [last.lookup, unborn opens, first.lookup, absent] at present
      cases present
  | @made path entry _ opens unmapped mapped fresh goes shown born spares =>
      refine ((prepared.mapped_new unmapped mapped fresh goes shown spares).of_sameStore last).congr
        fun id => or_congr_right ⟨?_, ?_⟩
      · rintro rfl
        refine ⟨opens, first.lookup.symm.trans (List.getElem?_eq_none (Nat.le_refl _)), ?_⟩
        rw [last.lookup, fresh]
        rfl
      · rintro ⟨-, absent, present⟩
        rw [last.lookup] at present
        exact born (first.lookup.trans absent) present
  | discarded opens mapped shut spares =>
      exact ((prepared.discarded mapped shut spares).of_sameStore last).congr (unmade opens)
  | moved opens apart held mapped goes shut spares =>
      exact ((prepared.moved apart held mapped goes shut spares).of_sameStore last).congr
        (unmade opens)

theorem coherent_after (mount : Mount) {steps : Nat → Step}
    (left : ∀ n id, MadeBefore mount.cache steps n id → (steps n).meddles id = false) (n : Nat) :
    (mount.cache.after steps n).Coherent (MadeBefore mount.cache steps n) := by
  induction n with
  | zero =>
      refine (Coherent.empty rfl).congr fun id => ⟨False.elim, ?_⟩
      rintro ⟨_, absurd, -⟩
      cases absurd
  | succ n ih =>
      refine (coherent_step ih (left n)).congr fun id => ⟨?_, ?_⟩
      · rintro (⟨m, earlier, makes⟩ | makes)
        · exact ⟨m, Nat.lt_succ_of_lt earlier, makes⟩
        · exact ⟨n, Nat.lt_succ_self n, makes⟩
      · rintro ⟨m, earlier, makes⟩
        rcases Nat.lt_succ_iff_lt_or_eq.mp earlier with before | rfl
        · exact .inl ⟨m, before, makes⟩
        · exact .inr makes

theorem Coherent.cachedMetadata (coherent : cache.Coherent made)
    (found : cache.mapped.get? path = some id) :
    ∃ entry content, cache.entry? id = some entry ∧ entry.path.Same path ∧
      entry.content = some content ∧
      cache.cachedMetadata path
        = some (.ofFile entry.path entry.modified content.size) := by
  obtain ⟨-, entry, present, here, shown⟩ := coherent.homed found
  obtain ⟨content, stored⟩ := Option.isSome_iff_exists.mp shown
  refine ⟨entry, content, present, here, stored, ?_⟩
  simp only [Cache.cachedMetadata, found, Option.bind_some, present, Entry.metadata, Entry.size,
    Entry.content?, stored, Except.map, Except.toOption]

/-- Unless somebody else moves or closes entries that the cache made: every entry at a key is
open and goes by that key, no entry has two keys and no two keys name one path, and what the
cache made and maps no longer is closed.  So a path has metadata just where it is cached, and
they are those of the entry as it is. -/
theorem mapped_coherent (mount : Mount) (steps : Nat → Step)
    (left : ∀ n id, MadeBefore mount.cache steps n id → (steps n).meddles id = false) (n : Nat) :
    (∀ key id, (key, id) ∈ (mount.cache.after steps n).mapped →
      ∃ entry, Cache.entry? (mount.cache.after steps n) id = some entry ∧ entry.path.Same key ∧
        entry.isOpen = true) ∧
    (mount.cache.after steps n).mapped.Pairwise
      (fun left right => ¬ left.1.Same right.1 ∧ left.2 ≠ right.2) ∧
    (∀ id, MadeBefore mount.cache steps n id → ¬ (mount.cache.after steps n).Maps id →
      ∃ entry, Cache.entry? (mount.cache.after steps n) id = some entry ∧ entry.isOpen = false) ∧
    ∀ path,
      (Cache.cachedMetadata (mount.cache.after steps n) path).isSome
          = Cache.isCached (mount.cache.after steps n) path ∧
        ∀ metadata, Cache.cachedMetadata (mount.cache.after steps n) path = some metadata →
          ∃ id entry content, (mount.cache.after steps n).mapped.get? path = some id ∧
            Cache.entry? (mount.cache.after steps n) id = some entry ∧ entry.path.Same path ∧
            entry.content = some content ∧
            metadata = .ofFile entry.path entry.modified content.size := by
  have coherent := coherent_after mount left n
  have single := coherent.oneToOne
  refine ⟨fun key id member => ?_, single.distinct.and single.single,
    fun id ours unmapped => (coherent.settled ours).resolve_left unmapped, fun path => ?_⟩
  · exact (coherent.homed (coherent.distinct.get?_of_mem member (.refl key))).2
  · rw [isCached, PathMap.contains_eq_isSome]
    cases mapped : (mount.cache.after steps n).mapped.get? path with
    | none =>
        have nothing : Cache.cachedMetadata (mount.cache.after steps n) path = none := by
          simp only [Cache.cachedMetadata, mapped, Option.bind_none]
        rw [nothing]
        exact ⟨rfl, fun metadata told => by cases told⟩
    | some id =>
        obtain ⟨entry, content, present, here, stored, told⟩ := coherent.cachedMetadata mapped
        rw [told]
        refine ⟨rfl, fun metadata shown => ⟨id, entry, content, rfl, present, here, stored, ?_⟩⟩
        exact (Option.some.inj shown).symm

/-- One file is moved onto another, by another spelling of its path; a third is deleted with the
directory it is in.  An entry that the cache did not make is closed by whoever made it. -/
def movedOnto : List Step :=
  [.openFile ⟨[97]⟩ .readWrite 4 .now, .openFile ⟨[98]⟩ .readOnly 2 .now,
    .openFile ⟨[99, 47, 100]⟩ .readOnly 1 .now, .create ⟨[101]⟩ 3 .now, .closeEntry 3,
    .moveFile ⟨[97]⟩ ⟨[98, 47]⟩, .moveFile ⟨[102]⟩ ⟨[103]⟩, .deleteTree ⟨[99]⟩]

theorem movedOnto_coherent :
    (∀ n id, MadeBefore (mountWith 0).cache (scripted movedOnto) n id →
      (scripted movedOnto n).meddles id = false) ∧
    ((mountWith 0).cache.after (scripted movedOnto) 8).mapped = [(⟨[98]⟩, 0)] ∧
    (∃ entry, Cache.entry? ((mountWith 0).cache.after (scripted movedOnto) 8) 0 = some entry ∧
      entry.path.Same ⟨[98]⟩ ∧ entry.isOpen = true) ∧
    (∃ entry, Cache.entry? ((mountWith 0).cache.after (scripted movedOnto) 8) 1 = some entry ∧
      entry.isOpen = false) := by
  have left : ∀ n id, MadeBefore (mountWith 0).cache (scripted movedOnto) n id →
      (scripted movedOnto n).meddles id = false := by
    rintro n id ⟨m, earlier, opens, -, present⟩
    match n with
    | 0 | 1 | 2 | 3 | 5 | 6 | 7 => rfl
    | 4 =>
        -- The fourth entry came of the one step among these that opens nothing.
        refine beq_eq_false_iff_ne.mpr ?_
        rintro rfl
        match m with
        | 0 | 1 | 2 => exact absurd present (by decide)
        | 3 => cases opens
    | n + 8 => rw [scripted_of_le (Nat.le_add_left 8 n)]; rfl
  obtain ⟨homed, -, settled, -⟩ := mapped_coherent (mountWith 0) (scripted movedOnto) left 8
  have mapped : ((mountWith 0).cache.after (scripted movedOnto) 8).mapped = [(⟨[98]⟩, 0)] := by
    decide
  have displaced : MadeBefore (mountWith 0).cache (scripted movedOnto) 8 1 :=
    ⟨1, by decide, rfl, by decide, by decide⟩
  refine ⟨left, mapped, homed ⟨[98]⟩ 0 (by rw [mapped]; exact .head _), settled 1 displaced ?_⟩
  rintro ⟨path, found⟩
  rw [mapped] at found
  obtain ⟨key, member, -⟩ := PathMap.exists_mem_of_get? found
  cases List.mem_singleton.mp member

end SparseCache.Cache
